import PhpLint.Proofs.Constant.LastWriter

/-! Constants by their proper names. A `Symbol` is a constant of a namespace that has non-empty segments
without separators; it can be referred to by its own name inside that namespace and by its full name from
everywhere. Definitions and references meet at one key, and different symbols have different keys. -/
namespace PhpLint.Constant

namespace Table

theorem getRecorded {t : Table} {key : String} (canonical : Canonical key) :
    t.get? key = t.recorded? key := by
  rw [getCanonical canonical, recorded?, canonicalFixed canonical]

theorem resolveShort (t : Table) (scope name : String) :
    t.resolve? scope ⟨[name], false⟩ = ((t.at? (qualify scope name)).map (qualify scope name, ·)).or
      ((t.at? (qualify "" name)).map (qualify "" name, ·)) := by
  have get (scope : String) : t.get? (qualify scope name) = t.at? (qualify scope name) :=
    getCanonical (qualifyCanonical scope name)
  by_cases top : bareScope scope = ""
  · have same : qualify scope name = qualify "" name := qualifyScope.mpr top
    simp [resolve?, candidates, Name.joined, top, same, get]
  · have keys : candidates scope ⟨[name], false⟩ = [qualify scope name, qualify "" name] := by
      simp [candidates, Name.joined, top]
    rw [resolve?, keys, List.findSome?_cons, get]
    cases t.at? (qualify scope name) <;> simp [get]

theorem resolveRooted (t : Table) (scope : String) (parts : List String) :
    t.resolve? scope ⟨parts, true⟩ =
      (t.at? (qualify "" (String.intercalate "\\" parts))).map
        (qualify "" (String.intercalate "\\" parts), ·) := by
  rw [← getCanonical (qualifyCanonical _ _)]
  simp [resolve?, candidates, Name.joined]

end Table

structure Plain (segment : String) : Prop where
  written : segment ≠ ""
  whole : '\\' ∉ segment.toList

instance (segment : String) : Decidable (Plain segment) :=
  decidable_of_iff (segment ≠ "" ∧ '\\' ∉ segment.toList)
    ⟨fun both => ⟨both.1, both.2⟩, fun plain => ⟨plain.written, plain.whole⟩⟩

theorem Plain.head {segment : String} (plain : Plain segment) :
    ∃ c rest, segment.toList = c :: rest ∧ c ≠ '\\' := by
  cases text : segment.toList with
  | nil => exact absurd (String.toList_eq_nil_iff.mp text) plain.written
  | cons c rest =>
    refine ⟨c, rest, rfl, ?_⟩
    rintro rfl
    exact plain.whole (by simp [text])

theorem Plain.last {segment : String} (plain : Plain segment) :
    ∃ c, segment.toList.getLast? = some c ∧ c ≠ '\\' := by
  have written : segment.toList ≠ [] := fun empty =>
    plain.written (String.toList_eq_nil_iff.mp empty)
  refine ⟨_, List.getLast?_eq_some_getLast written, ?_⟩
  intro separator
  exact plain.whole (separator ▸ List.getLast_mem written)

theorem joinedStart {segment : String} (plain : Plain segment) (more : List String) :
    ∃ c rest, (String.intercalate "\\" (segment :: more)).toList = c :: rest ∧ c ≠ '\\' := by
  obtain ⟨c, rest, text, other⟩ := plain.head
  cases more with
  | nil => exact ⟨c, rest, by simp [text], other⟩
  | cons s more =>
    refine ⟨c, rest ++ '\\' :: (String.intercalate "\\" (s :: more)).toList, ?_, other⟩
    rw [String.intercalate_cons_cons]
    simp [text]

theorem joinedHead {parts : List String} (plain : ∀ s ∈ parts, Plain s) :
    (String.intercalate "\\" parts).toList.head? ≠ some '\\' := by
  cases parts with
  | nil => simp
  | cons s more =>
    obtain ⟨c, rest, text, other⟩ := joinedStart (plain s List.mem_cons_self) more
    rw [text]
    simpa using other

theorem joinedLast {parts : List String} (plain : ∀ s ∈ parts, Plain s) :
    (String.intercalate "\\" parts).toList.getLast? ≠ some '\\' := by
  rcases List.eq_nil_or_concat parts with rfl | ⟨front, s, rfl⟩
  · simp
  · obtain ⟨c, text, other⟩ := (plain s (by simp)).last
    rw [List.concat_eq_append]
    by_cases single : front = []
    · simp [single, text, other]
    · rw [String.intercalate_append_of_ne_nil single (by simp), String.toList_append,
        List.getLast?_append, String.intercalate_singleton, text]
      simpa using other

structure Symbol where
  segments : List String
  name : String
  plain : ∀ s ∈ segments ++ [name], Plain s

namespace Symbol

def scope (c : Symbol) : String := String.intercalate "\\" c.segments

def key (c : Symbol) : String := qualify c.scope c.name

def short (c : Symbol) : Name := ⟨[c.name], false⟩

def full (c : Symbol) : Name := ⟨c.segments ++ [c.name], true⟩

def fallback (c : Symbol) : Symbol where
  segments := []
  name := c.name
  plain := by
    intro s member
    exact c.plain s (List.mem_append_right _ member)

theorem scopeBare (c : Symbol) : bareScope c.scope = c.scope := by
  have plain : ∀ s ∈ c.segments, Plain s := fun s member => c.plain s (List.mem_append_left _ member)
  exact bareScopeFixed (joinedHead plain) (joinedLast plain)

theorem scopeGlobal (c : Symbol) : c.scope = "" ↔ c.segments = [] := by
  constructor
  · intro top
    cases parts : c.segments with
    | nil => rfl
    | cons s more =>
      obtain ⟨first, rest, text, -⟩ := joinedStart (c.plain s (by simp [parts])) more
      rw [scope, parts] at top
      simp [top] at text
  · intro top
    simp [scope, top]

theorem keyJoined (c : Symbol) :
    c.key.toList = '\\' :: (String.intercalate "\\" (c.segments ++ [c.name])).toList := by
  have bare : Text.strip isSeparator c.scope.toList = c.scope.toList := by
    have text := congrArg String.toList c.scopeBare
    rwa [bareScope, String.toList_ofList] at text
  have name : c.name.toList.dropWhile isSeparator = c.name.toList := by
    obtain ⟨first, rest, text, other⟩ := (c.plain c.name (by simp)).head
    exact keepStart (by simp [text, other])
  rw [key, qualify, bare, name, String.toList_ofList]
  by_cases top : c.segments = []
  · simp [scope, top]
  · have inside : c.scope.toList ≠ [] := fun empty =>
      top (c.scopeGlobal.mp (String.toList_eq_nil_iff.mp empty))
    rw [if_neg inside, String.intercalate_append_of_ne_nil top (by simp)]
    simp [scope]

theorem keyFull (c : Symbol) : qualify "" (String.intercalate "\\" (c.segments ++ [c.name])) = c.key := by
  rw [← String.toList_inj, keyJoined, qualifyTop, String.toList_ofList, keepStart (joinedHead c.plain)]

theorem keyInjective {c d : Symbol} (same : c.key = d.key) : c = d := by
  have split (e : Symbol) : (String.intercalate "\\" (e.segments ++ [e.name])).toList.splitOn '\\' =
      (e.segments ++ [e.name]).map String.toList := by
    rw [String.toList_intercalate]
    refine List.splitOn_intercalate '\\' ?_ (by simp)
    intro piece member
    obtain ⟨s, inside, rfl⟩ := List.mem_map.mp member
    exact (e.plain s inside).whole
  have texts := congrArg String.toList same
  rw [keyJoined, keyJoined, List.cons_inj_right] at texts
  have parts : c.segments ++ [c.name] = d.segments ++ [d.name] := by
    have pieces := congrArg (List.splitOn '\\') texts
    rw [split, split] at pieces
    exact (List.map_inj_right fun _ _ => String.toList_inj.mp).mp pieces
  obtain ⟨segments, names⟩ := List.append_inj' parts rfl
  cases c
  cases d
  simp_all

theorem keyAgain (c : Symbol) : qualify "" c.key = c.key := qualifyAgain c.scope c.name

theorem resolveName (c : Symbol) (t : Table) : t.resolve? c.scope c.short =
    ((t.at? c.key).map (c.key, ·)).or ((t.at? c.fallback.key).map (c.fallback.key, ·)) := by
  have top : c.fallback.key = qualify "" c.name := by simp [key, fallback, scope]
  rw [short, Table.resolveShort, top, key]

theorem resolveFull (c : Symbol) (t : Table) (scope : String) :
    t.resolve? scope c.full = (t.at? c.key).map (c.key, ·) := by
  rw [full, Table.resolveRooted, keyFull]

theorem resolveOutside (c : Symbol) {t : Table} {d : Definition} (found : t.at? c.key = some d)
    {scope : String} (other : bareScope scope ≠ c.scope) :
    t.resolve? scope c.short = some (c.key, d) ↔
      c.scope = "" ∧ t.at? (qualify scope c.name) = none := by
  have different : qualify scope c.name ≠ c.key := fun same =>
    other ((qualifyScope.mp same).trans c.scopeBare)
  rw [short, Table.resolveShort]
  cases here : t.at? (qualify scope c.name) with
  | some d' => simp [different]
  | none =>
    by_cases top : c.scope = ""
    · have global : qualify "" c.name = c.key := by rw [key, top]
      simp [global, found, top]
    · have apart : qualify "" c.name ≠ c.key := fun same =>
        top ((qualifyScope.mp same).trans c.scopeBare).symm
      simp [apart, top]

structure Means (c : Symbol) (t : Table) (d : Definition) : Prop where
  inside : t.resolve? c.scope c.short = some (c.key, d)
  full : ∀ scope, t.resolve? scope c.full = some (c.key, d)
  outside : ∀ scope, bareScope scope ≠ c.scope →
    (t.resolve? scope c.short = some (c.key, d) ↔
      c.scope = "" ∧ t.get? (qualify scope c.name) = none)

theorem meansFound (c : Symbol) {t : Table} {d : Definition} (found : t.at? c.key = some d) :
    c.Means t d := by
  refine ⟨?_, ?_, ?_⟩
  · rw [resolveName, found]
    rfl
  · intro scope
    rw [resolveFull, found]
    rfl
  · intro scope other
    rw [Table.getCanonical (qualifyCanonical scope c.name)]
    exact c.resolveOutside found other

/- What a symbol means stays, from one table to another, when a different one is defined. Only where it has
no definition itself can its name fall back to the new one. -/
structure Kept (c defined : Symbol) (t other : Table) : Prop where
  key : other.get? c.key = t.get? c.key
  full : ∀ scope, other.resolve? scope c.full = t.resolve? scope c.full
  inside : c.fallback ≠ defined ∨ t.get? c.key ≠ none →
    other.resolve? c.scope c.short = t.resolve? c.scope c.short

end Symbol

def Table.ofEvents (es : List Event) : Table := es.foldl Table.record Table.empty

theorem ofEventsKey {es : List Event} {key : String} {d : Definition}
    (found : (Table.ofEvents es).at? key = some d) : ∃ e ∈ es, qualify "" e.key = key := by
  by_contra none
  have absent : ∀ e ∈ es, qualify "" e.key ≠ key := fun e member same => none ⟨e, member, same⟩
  rw [Table.ofEvents, recordsAbsent absent] at found
  contradiction

theorem ofEventsLast {key : String} {e : Event} (own : qualify "" e.key = key) (before : List Event)
    {after : List Event} (last : ∀ later ∈ after, qualify "" later.key ≠ key) :
    (Table.ofEvents (before ++ e :: after)).at? key = some e.definition := by
  rw [Table.ofEvents, List.foldl_append, List.foldl_cons, recordsAt, recordsAbsent last, recordAt,
    if_pos own.symm]
  rfl

theorem defineOther {c d : Symbol} (different : c ≠ d) (t : Table) (e : Expr) (scope : String) :
    (t.define c.key e scope).at? d.key = t.at? d.key := by
  have keys : d.key ≠ qualify "" c.key := by
    rw [c.keyAgain]
    exact fun same => different (Symbol.keyInjective same.symm)
  rw [Table.atDefine, if_neg keys]

theorem defineKeeps {c d : Symbol} (different : d ≠ c) (t : Table) (e : Expr) (scope : String) :
    c.Kept d t (t.define d.key e scope) := by
  have same := defineOther different t e scope
  have get (t : Table) : t.get? c.key = t.at? c.key :=
    Table.getCanonical (qualifyCanonical c.scope c.name)
  refine ⟨?_, ?_, ?_⟩
  · rw [get, get, same]
  · intro scope
    rw [c.resolveFull, c.resolveFull, same]
  · intro reason
    rw [c.resolveName, c.resolveName, same]
    rcases reason with apart | defined
    · rw [defineOther apart.symm]
    · rw [get] at defined
      obtain ⟨found, here⟩ := Option.ne_none_iff_exists'.mp defined
      rw [here]
      rfl

theorem definitionsMeetReferences :
    (∀ es key d, (Table.ofEvents es).at? key = some d → Canonical key) ∧
    (∀ scope n, ∀ key ∈ candidates scope n, Canonical key) ∧
    (∀ key, Canonical key → ∀ t : Table, t.get? key = t.recorded? key) ∧
    (∀ (c : Symbol) (before after : List Event) (e : Event), qualify "" e.key = c.key →
      (∀ later ∈ after, qualify "" later.key ≠ c.key) →
        c.Means (Table.ofEvents (before ++ e :: after)) e.definition) ∧
    (∀ c d : Symbol, c.key = d.key → c = d) ∧
    ∀ c d : Symbol, d ≠ c → ∀ t e scope, c.Kept d t (t.define d.key e scope) := by
  refine ⟨?_, ?_, ?_, ?_, ?_, ?_⟩
  · intro es key d found
    obtain ⟨e, -, rfl⟩ := ofEventsKey found
    exact qualifyCanonical "" e.key
  · intro scope n key member
    exact candidateCanonical member
  · intro key canonical t
    exact Table.getRecorded canonical
  · intro c before after e own last
    exact c.meansFound (ofEventsLast own before last)
  · intro c d same
    exact Symbol.keyInjective same
  · intro c d different t e scope
    exact defineKeeps different t e scope

def nested : Symbol := ⟨["N", "M"], "V", by decide +kernel⟩

def versions : List Event :=
  [⟨"V", .integer .synthetic "1", ""⟩, ⟨"N\\M\\V", .integer .synthetic "2", "N\\M"⟩,
    ⟨"\\M\\V", .integer .synthetic "3", "M"⟩]

theorem versionsMeet :
    Canonical "\\V" ∧ Canonical nested.key ∧
    (Table.ofEvents versions).get? nested.key = (Table.ofEvents versions).recorded? nested.key ∧
    nested.Means (Table.ofEvents versions) ⟨.integer .synthetic "2", "N\\M"⟩ ∧
    nested.fallback.key ≠ nested.key ∧
    nested.Kept nested.fallback (Table.ofEvents versions)
      ((Table.ofEvents versions).define nested.fallback.key (.integer .synthetic "4") "") := by
  obtain ⟨keys, tried, shortcut, means, injective, kept⟩ := definitionsMeetReferences
  have canonical : Canonical nested.key := tried "N\\M" nested.short _ (by decide +kernel)
  have different : nested.fallback ≠ nested := by
    intro same
    have segments := congrArg Symbol.segments same
    contradiction
  refine ⟨?_, canonical, shortcut _ canonical _, ?_, ?_, kept _ _ different _ _ _⟩
  · exact keys versions "\\V" ⟨.integer .synthetic "1", ""⟩ rfl
  · exact means nested [⟨"V", .integer .synthetic "1", ""⟩] [⟨"\\M\\V", .integer .synthetic "3", "M"⟩]
      ⟨"N\\M\\V", .integer .synthetic "2", "N\\M"⟩ (by decide +kernel) (by decide +kernel)
  · exact fun same => different (injective _ _ same)

end PhpLint.Constant
