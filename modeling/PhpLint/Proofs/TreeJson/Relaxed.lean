import PhpLint.TreeJson.Decode

/-! Looser spellings of a JSON form. A record may leave out its range, a mark that is false, and parts that
are absent, and it may have further members under names that it does not know. `Relaxed` says how a written
value is spelled more loosely and which full value stands behind the spelling: the written one, with the
synthetic range wherever a range was left out. A reader then finds each member of a record either once, under
its name, or not at all where it may be missing. -/
namespace PhpLint.Json

/- The records of the JSON form, by the names of their members. Every other object is a case. -/
def records : List (List String) :=
  [["line", "col"], ["start", "end"], ["value", "range"], ["parts", "fully_qualified"], ["raw"],
   ["class", "constant"], ["cond", "then", "else_"], ["base", "dim"], ["object", "property"],
   ["func", "args"], ["value", "variadic", "by_ref"], ["cond", "body", "elseifs", "else_"],
   ["cond", "body"], ["body", "cond"], ["subject", "cases"], ["name", "body"],
   ["name", "params", "body"], ["name", "value"], ["path", "stmts"]]

def Omissible (key : String) (written behind : Json) : Prop :=
  key = "range" ∧ behind = Range.synthetic.toJson ∨
  key = "fully_qualified" ∧ written = .bool false ∧ behind = .bool false ∨
  key ∈ ["then", "dim", "else_", "cond", "name", "body"] ∧ written = .null ∧ behind = .null

section

variable (related : Json → Json → Json → Prop)

inductive RelaxedItems : List Json → List Json → List Json → Prop where
  | nil : RelaxedItems [] [] []
  | cons {x y z xs ys zs} (first : related x y z) (rest : RelaxedItems xs ys zs) :
      RelaxedItems (x :: xs) (y :: ys) (z :: zs)

inductive RelaxedMembers :
    List String → List (String × Json) → List (String × Json) → List (String × Json) → Prop where
  | nil : RelaxedMembers [] [] [] []
  | kept {names key v w x ms ns rs} (value : related v w x) (rest : RelaxedMembers names ms ns rs) :
      RelaxedMembers names ((key, v) :: ms) ((key, w) :: ns) ((key, x) :: rs)
  | omitted {names key v x ms ns rs} (missing : Omissible key v x)
      (rest : RelaxedMembers names ms ns rs) :
      RelaxedMembers names ((key, v) :: ms) ns ((key, x) :: rs)
  | added {names key w ms ns rs} (rest : RelaxedMembers names ms ns rs) :
      RelaxedMembers (key :: names) ms ((key, w) :: ns) rs

end

inductive Relaxed : Json → Json → Json → Prop where
  | same (j : Json) : Relaxed j j j
  | items {xs ys zs} (each : RelaxedItems Relaxed xs ys zs) : Relaxed (.arr xs) (.arr ys) (.arr zs)
  | case {kind v w x} (content : Relaxed v w x) :
      Relaxed (.obj [(kind, v)]) (.obj [(kind, w)]) (.obj [(kind, x)])
  | record {names ms ns rs} (fields : ms.map Prod.fst ∈ records)
      (unknown : ∀ key ∈ names, key ∉ ms.map Prod.fst)
      (each : RelaxedMembers Relaxed names ms ns rs) : Relaxed (.obj ms) (.obj ns) (.obj rs)

def under (key : String) (members : List (String × Json)) : List Json :=
  (members.filter (·.1 = key)).map Prod.snd

theorem underSelf (key : String) (w : Json) (ns : List (String × Json)) :
    under key ((key, w) :: ns) = w :: under key ns := by
  simp [under]

theorem underOther {key name : String} (other : name ≠ key) (w : Json) (ns : List (String × Json)) :
    under key ((name, w) :: ns) = under key ns := by
  simp [under, other]

theorem underFields (key : String) {whole : Json} (record : Record whole) :
    (record.fields.filter (·.1 = key)).map (fun field => field.2.value) = under key record.values := by
  rw [Record.values, under, List.filter_map, List.map_map]
  rfl

theorem valuesMembers (ns : List (String × Json)) : (ofMembers ns).values = ns :=
  Record.valuesOfValues membersInside

theorem memberMissing {key : String} {ns : List (String × Json)} (none : under key ns = []) :
    (ofMembers ns).member? key = some .none := by
  rw [← valuesMembers ns, ← underFields, List.map_eq_nil_iff] at none
  simp only [Record.member?, none]

theorem memberFound {key : String} {ns : List (String × Json)} {w : Json} (one : under key ns = [w]) :
    ∃ inside, (ofMembers ns).member? key = some (some ⟨w, inside⟩) := by
  rw [← valuesMembers ns, ← underFields] at one
  obtain ⟨field, found, rfl⟩ := List.map_eq_singleton_iff.mp one
  refine ⟨field.2.2, ?_⟩
  simp only [Record.member?, found]
  rfl

inductive Field (ns : List (String × Json)) (key : String) (v x : Json) : Prop where
  | kept {w} (one : under key ns = [w]) (value : Relaxed v w x)
  | omitted (none : under key ns = []) (missing : Omissible key v x)

inductive Fields (ns : List (String × Json)) :
    List (String × Json) → List (String × Json) → Prop where
  | nil : Fields ns [] []
  | cons {key v x ms rs} (field : Field ns key v x) (rest : Fields ns ms rs) :
      Fields ns ((key, v) :: ms) ((key, x) :: rs)

theorem Field.addOther {ns : List (String × Json)} {key name : String} {v w x : Json}
    (field : Field ns key v x) (other : name ≠ key) : Field ((name, w) :: ns) key v x := by
  cases field with
  | kept one value => exact .kept ((underOther other w ns).trans one) value
  | omitted none missing => exact .omitted ((underOther other w ns).trans none) missing

theorem Fields.addOther {ns ms rs : List (String × Json)} {name : String} {w : Json}
    (fields : Fields ns ms rs) (other : name ∉ ms.map Prod.fst) : Fields ((name, w) :: ns) ms rs := by
  induction fields with
  | nil => exact .nil
  | cons field rest ih =>
    obtain ⟨first, others⟩ := List.ne_and_not_mem_of_not_mem_cons other
    exact .cons (field.addOther first) (ih others)

theorem relaxedAbsent {names : List String} {ms ns rs : List (String × Json)}
    (relaxed : RelaxedMembers Relaxed names ms ns rs) {key : String} (known : key ∉ names)
    (absent : key ∉ ms.map Prod.fst) : under key ns = [] := by
  induction relaxed with
  | nil => rfl
  | kept value rest ih =>
    obtain ⟨other, absent⟩ := List.ne_and_not_mem_of_not_mem_cons absent
    rw [underOther other.symm, ih known absent]
  | omitted missing rest ih => exact ih known (List.not_mem_of_not_mem_cons absent)
  | added rest ih =>
    obtain ⟨other, known⟩ := List.ne_and_not_mem_of_not_mem_cons known
    rw [underOther other.symm, ih known absent]

theorem relaxedFields {names : List String} {ms ns rs : List (String × Json)}
    (relaxed : RelaxedMembers Relaxed names ms ns rs) (unknown : ∀ key ∈ names, key ∉ ms.map Prod.fst)
    (distinct : (ms.map Prod.fst).Nodup) : Fields ns ms rs := by
  induction relaxed with
  | nil => exact .nil
  | @kept names key v w x ms ns rs value rest ih =>
    obtain ⟨fresh, distinct⟩ := List.nodup_cons.mp distinct
    have known : key ∉ names := fun own => unknown key own List.mem_cons_self
    have others : ∀ name ∈ names, name ∉ ms.map Prod.fst :=
      fun name new => List.not_mem_of_not_mem_cons (unknown name new)
    -- the later members have other names, and the added ones are unknown
    have one : under key ((key, w) :: ns) = [w] := by
      rw [underSelf, relaxedAbsent rest known fresh]
    exact .cons (.kept one value) ((ih others distinct).addOther fresh)
  | @omitted names key v x ms ns rs missing rest ih =>
    obtain ⟨fresh, distinct⟩ := List.nodup_cons.mp distinct
    have known : key ∉ names := fun own => unknown key own List.mem_cons_self
    have others : ∀ name ∈ names, name ∉ ms.map Prod.fst :=
      fun name new => List.not_mem_of_not_mem_cons (unknown name new)
    exact .cons (.omitted (relaxedAbsent rest known fresh) missing) (ih others distinct)
  | added rest ih =>
    obtain ⟨new, others⟩ := List.forall_mem_cons.mp unknown
    exact (ih others distinct).addOther new

theorem membersSelf (ms : List (String × Json)) : RelaxedMembers Relaxed [] ms ms ms := by
  induction ms with
  | nil => exact .nil
  | cons m ms ih => exact .kept (.same m.2) ih

theorem itemsSelf (xs : List Json) : RelaxedItems Relaxed xs xs xs := by
  induction xs with
  | nil => exact .nil
  | cons x xs ih => exact .cons (.same x) ih

theorem recordsDistinct : ∀ names ∈ records, names.Nodup := by
  decide

def filled : Json → Bool
  | .null => false
  | _ => true

namespace Relaxed

theorem fields {ms : List (String × Json)} {j k : Json} (relaxed : Relaxed (.obj ms) j k)
    (isRecord : ms.map Prod.fst ∈ records) :
    ∃ ns rs, j = .obj ns ∧ k = .obj rs ∧ Fields ns ms rs := by
  have distinct : (ms.map Prod.fst).Nodup := recordsDistinct _ isRecord
  cases relaxed with
  | same => exact ⟨ms, ms, rfl, rfl, relaxedFields (membersSelf ms) (List.forall_mem_nil _) distinct⟩
  | case content =>
    exact ⟨_, _, rfl, rfl, relaxedFields (.kept content .nil) (List.forall_mem_nil _) distinct⟩
  | record _ unknown each => exact ⟨_, _, rfl, rfl, relaxedFields each unknown distinct⟩

theorem content {kind : String} {v j k : Json} (relaxed : Relaxed (.obj [(kind, v)]) j k)
    (isCase : [kind] ∉ records) :
    ∃ w x, j = .obj [(kind, w)] ∧ k = .obj [(kind, x)] ∧ Relaxed v w x := by
  cases relaxed with
  | same => exact ⟨v, v, rfl, rfl, .same v⟩
  | case content => exact ⟨_, _, rfl, rfl, content⟩
  | record isRecord => exact absurd isRecord isCase

theorem array {xs : List Json} {j k : Json} (relaxed : Relaxed (.arr xs) j k) :
    ∃ ys zs, j = .arr ys ∧ k = .arr zs ∧ RelaxedItems Relaxed xs ys zs := by
  cases relaxed with
  | same => exact ⟨xs, xs, rfl, rfl, itemsSelf xs⟩
  | items each => exact ⟨_, _, rfl, rfl, each⟩

theorem filled {v w x : Json} (relaxed : Relaxed v w x) (present : v.filled = true) :
    w.filled = true := by
  cases relaxed with
  | same => exact present
  | _ => rfl

end Relaxed

theorem handed {α β : Type} {o : Option α} {a : α} (found : o = some a) (next : α → Option β) :
    o.bind next = next a := by
  rw [found]
  rfl

namespace Field

variable {ns : List (String × Json)} {key : String} {v x : Json}

theorem found (field : Field ns key v x) (named : key ∉ ["range", "fully_qualified"])
    (present : v.filled = true) :
    ∃ w inside, (ofMembers ns).member? key = some (some ⟨w, inside⟩) ∧ Relaxed v w x := by
  cases field with
  | kept one value =>
    obtain ⟨inside, found⟩ := memberFound one
    exact ⟨_, inside, found, value⟩
  | omitted none missing =>
    obtain ⟨rfl, -⟩ | ⟨rfl, -⟩ | ⟨-, rfl, -⟩ := missing
    · simp at named
    · simp at named
    · cases present

theorem required (field : Field ns key v x) (named : key ∉ ["range", "fully_qualified"])
    (present : v.filled = true) :
    ∃ w inside, (ofMembers ns).required? key = some ⟨w, inside⟩ ∧ Relaxed v w x := by
  obtain ⟨w, inside, found, value⟩ := field.found named present
  exact ⟨w, inside, by rw [Record.required?, found]; rfl, value⟩

theorem optional (field : Field ns key v x) (named : key ∉ ["range", "fully_qualified"])
    (present : v.filled = true) :
    ∃ w inside, (ofMembers ns).optional? key = some (some ⟨w, inside⟩) ∧ Relaxed v w x := by
  obtain ⟨w, inside, found, value⟩ := field.found named present
  have filled : w.filled = true := value.filled present
  refine ⟨w, inside, ?_, value⟩
  rw [Record.optional?, found]
  cases w with
  | null => cases filled
  | _ => rfl

theorem absent (field : Field ns key .null x) (named : key ∉ ["range", "fully_qualified"]) :
    (ofMembers ns).optional? key = some none ∧ x = .null := by
  cases field with
  | kept one value =>
    obtain ⟨inside, found⟩ := memberFound one
    cases value
    exact ⟨by rw [Record.optional?, found]; rfl, rfl⟩
  | omitted none missing =>
    refine ⟨by rw [Record.optional?, memberMissing none]; rfl, ?_⟩
    obtain ⟨rfl, -⟩ | ⟨-, written, -⟩ | ⟨-, -, behind⟩ := missing
    · simp at named
    · cases written
    · exact behind

end Field

end PhpLint.Json
