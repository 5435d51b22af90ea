import PhpLint.Proofs.Constant.Collection
import PhpLint.Proofs.Constant.Key
import PhpLint.Proofs.Walk.Preorder
import Mathlib.Data.Finset.Card

/-! The table of constants sums up the walk over the units. `Listed` lists the declarations that the visits
hold, in the order of the visits and without regard to how they are recorded; the table has the last one
under each key, and no other key. It keeps the namespace of a declaration without the separators around
it: names mean the same there, but a namespace that begins or ends with one is not kept as it was
reported. -/
namespace PhpLint

namespace Expr

theorem ofArgument {e v : Expr} (wrapped : e.argumentValue? = some v) :
    ∃ r spread byRef, e = .argument r v spread byRef := by
  unfold argumentValue? at wrapped
  split at wrapped
  · cases Option.some.inj wrapped
    exact ⟨_, _, _, rfl⟩
  · contradiction

theorem ofCallTo {e : Expr} {function : String} {args : List Expr}
    (target : e.callTo? function = some args) :
    ∃ r r₁ n, e = .call r (.name r₁ n) args ∧ n.isFunction function = true := by
  obtain ⟨n, callee, chosen⟩ := Option.bind_eq_some_iff.mp target
  unfold callee? at callee
  split at callee
  · cases Option.some.inj callee
    split at chosen
    · rename_i called
      cases Option.some.inj chosen
      exact ⟨_, _, _, rfl, called⟩
    · contradiction
  · contradiction

end Expr

namespace Constant

inductive Names (scope : String) : Expr → String → Prop where
  | string {r raw bytes text} (decoded : Literal.string? raw = some bytes)
      (valid : Utf8.decode? bytes = some text) :
      Names scope (.string r raw) (qualify "" (String.ofList text))
  | identifier {r} (text : String) : Names scope (.identifier r text) (qualify scope text)
  | name {r} (n : Name) :
      Names scope (.name r n) (qualify (if n.rooted then "" else scope) n.joined)
  | constant {r} (n : Name) :
      Names scope (.constant r n) (qualify (if n.rooted then "" else scope) n.joined)

inductive Declares (scope : String) : Node → List Event → Prop where
  | const {r} (decls : List ConstDecl) :
      Declares scope (.stmt (.const r decls))
        (decls.map fun d => ⟨qualify scope d.name, d.value, scope⟩)
  | define {r r₁ r₂ r₃ function name value spread byRef spread' byRef' more key}
      (called : function.isFunction "define" = true) (named : Names scope name key) :
      Declares scope (.expr (.call r (.name r₁ function)
        (.argument r₂ name spread byRef :: .argument r₃ value spread' byRef' :: more)))
        [⟨key, value, scope⟩]

inductive Listed : List Visit → List Event → Prop where
  | nil : Listed [] []
  | declaring {v visits es rest} (here : Declares v.scope v.node es) (tail : Listed visits rest) :
      Listed (v :: visits) (es ++ rest)
  | silent {v visits rest} (none : ∀ es, ¬ Declares v.scope v.node es) (tail : Listed visits rest) :
      Listed (v :: visits) rest

theorem namesKey {scope key : String} {name : Expr} (named : Names scope name key) :
    definedKey? scope name = some key := by
  cases named with
  | string decoded valid => simp [definedKey?, decoded, valid]
  | identifier => rfl
  | name => rfl
  | constant => rfl

theorem keyNamed {scope key : String} {name : Expr} (known : definedKey? scope name = some key) :
    Names scope name key := by
  unfold definedKey? at known
  split at known
  · obtain ⟨bytes, decoded, known⟩ := Option.bind_eq_some_iff.mp known
    obtain ⟨text, valid, last⟩ := Option.bind_eq_some_iff.mp known
    cases Option.some.inj last
    exact .string decoded valid
  · cases Option.some.inj known
    exact .identifier _
  · cases Option.some.inj known
    exact .name _
  · cases Option.some.inj known
    exact .constant _
  · contradiction

theorem callDeclares {scope : String} {e : Expr} {found : Event} (call : ofCall? scope e = some found) :
    Declares scope (.expr e) [found] := by
  unfold ofCall? at call
  split at call
  · rename_i first second more target
    obtain ⟨name, wrapped, call⟩ := Option.bind_eq_some_iff.mp call
    obtain ⟨value, wrapped', call⟩ := Option.bind_eq_some_iff.mp call
    obtain ⟨key, known, last⟩ := Option.bind_eq_some_iff.mp call
    cases Option.some.inj last
    obtain ⟨_, _, function, rfl, called⟩ := Expr.ofCallTo target
    obtain ⟨_, _, _, rfl⟩ := Expr.ofArgument wrapped
    obtain ⟨_, _, _, rfl⟩ := Expr.ofArgument wrapped'
    exact .define called (keyNamed known)
  · contradiction

theorem declaresEvents {scope : String} {node : Node} {es : List Event}
    (declares : Declares scope node es) : eventsAt ⟨scope, node⟩ = es := by
  cases declares with
  | const => rfl
  | define called named =>
    simp [eventsAt, ofCall?, Expr.callTo?, Expr.callee?, Expr.args, Expr.argumentValue?, called,
      namesKey named]

theorem eventsDeclared (v : Visit) : eventsAt v = [] ∨ Declares v.scope v.node (eventsAt v) := by
  obtain ⟨scope, node⟩ := v
  cases node with
  | stmt s =>
    cases s with
    | const r decls => exact .inr (.const decls)
    | _ => exact .inl rfl
  | expr e =>
    cases call : ofCall? scope e with
    | none => exact .inl (by simp [eventsAt, call])
    | some found => exact .inr (by simpa [eventsAt, call] using callDeclares call)

theorem listedEvents {visits : List Visit} {es : List Event} :
    Listed visits es ↔ es = visits.flatMap eventsAt := by
  constructor
  · intro listed
    induction listed with
    | nil => rfl
    | declaring here tail ih => rw [List.flatMap_cons, declaresEvents here, ih]
    | @silent v visits rest none tail ih =>
      have empty : eventsAt v = [] := (eventsDeclared v).resolve_right (none _)
      rw [List.flatMap_cons, empty, ih, List.nil_append]
  · rintro rfl
    induction visits with
    | nil => exact .nil
    | cons v visits ih =>
      rw [List.flatMap_cons]
      by_cases declares : ∃ es, Declares v.scope v.node es
      · obtain ⟨es, here⟩ := declares
        rw [declaresEvents here]
        exact .declaring here ih
      · have none := not_exists.mp declares
        rw [(eventsDeclared v).resolve_right (none _)]
        exact .silent none ih

theorem eventKey {v : Visit} {e : Event} (member : e ∈ eventsAt v) : qualify "" e.key = e.key := by
  rcases eventsDeclared v with empty | declares
  · rw [empty] at member
    cases member
  · cases v with
    | mk scope node =>
    generalize eventsAt ⟨scope, node⟩ = es at member declares
    cases declares with
    | const decls =>
      obtain ⟨d, _, rfl⟩ := List.mem_map.mp member
      exact qualifyAgain scope d.name
    | define called named =>
      rw [List.mem_singleton.mp member]
      cases named <;> exact qualifyAgain _ _

def Event.definition (e : Event) : Definition := ⟨e.expr, bareScope e.scope⟩

def latest? (es : List Event) (key : String) : Option Event := es.reverse.find? (·.key = key)

theorem latestCons (e : Event) (es : List Event) (key : String) :
    latest? (e :: es) key = (latest? es key).or (if e.key = key then some e else none) := by
  simp only [latest?, List.reverse_cons, List.find?_append, List.find?_singleton, decide_eq_true_eq]

theorem latestSome {es : List Event} {key : String} :
    (latest? es key).isSome = true ↔ key ∈ es.map Event.key := by
  simp [latest?]

theorem recordsLatest {es : List Event} (canonical : ∀ e ∈ es, qualify "" e.key = e.key)
    (key : String) :
    (es.foldl Table.record Table.empty).at? key = (latest? es key).map Event.definition := by
  induction es with
  | nil => exact emptyAt key
  | cons e es ih =>
    have own := canonical e List.mem_cons_self
    have rest := ih fun f member => canonical f (List.mem_cons_of_mem _ member)
    rw [List.foldl_cons, recordsAt, rest, recordAt, emptyAt, own, latestCons, Option.map_or]
    by_cases same : e.key = key
    · simp [same, Event.definition]
    · simp [same, Ne.symm same]

theorem sizeLatest {t : Table} {es : List Event}
    (holds : ∀ key, t.at? key = (latest? es key).map Event.definition) :
    t.size = (es.map Event.key).toFinset.card := by
  have keys : t.entries.keys.toFinset = (es.map Event.key).toFinset := by
    ext key
    have found : (t.at? key).isSome = (latest? es key).isSome := by rw [holds, Option.isSome_map]
    rw [List.mem_toFinset, List.mem_toFinset, Std.TreeMap.mem_keys,
      Std.TreeMap.mem_iff_isSome_getElem?, ← latestSome, ← found]
    rfl
  rw [← keys, List.toFinset_card_of_nodup Std.TreeMap.nodup_keys, Std.TreeMap.length_keys, Table.size]

theorem collectRecords (units : List SourceUnit) :
    collect units = ((units.flatMap SourceUnit.visits).flatMap eventsAt).foldl Table.record .empty := by
  rw [List.flatMap_assoc, List.foldl_flatMap]
  rfl

theorem collectAppend (units more : List SourceUnit) (key : String) :
    (collect (units ++ more)).at? key = ((collect more).at? key).or ((collect units).at? key) := by
  rw [collectRecords, List.flatMap_append, List.flatMap_append, List.foldl_append, recordsAt,
    ← collectRecords, ← collectRecords]

theorem collectsLatest (units : List SourceUnit) : ∃ es,
    InPreorder ((units.flatMap SourceUnit.stmts).map .stmt)
      ((units.flatMap SourceUnit.visits).map Visit.node) ∧
    (∀ other, Listed (units.flatMap SourceUnit.visits) other ↔ other = es) ∧
    (∀ key, key.toList.head? = some '\\' →
      (collect units).get? key = (latest? es key).map Event.definition) ∧
    (∀ e ∈ es, candidates e.definition.scope = candidates e.scope ∧
      (e.scope.toList.head? ≠ some '\\' → e.scope.toList.getLast? ≠ some '\\' →
        e.definition.scope = e.scope)) ∧
    (collect units).size = (es.map Event.key).toFinset.card ∧
    ∀ more key, key.toList.head? = some '\\' →
      (collect (units ++ more)).get? key = ((collect more).get? key).or ((collect units).get? key) := by
  have canonical : ∀ e ∈ (units.flatMap SourceUnit.visits).flatMap eventsAt,
      qualify "" e.key = e.key := by
    intro e member
    obtain ⟨v, _, atVisit⟩ := List.mem_flatMap.mp member
    exact eventKey atVisit
  have holds (key : String) := recordsLatest canonical key
  rw [← collectRecords] at holds
  refine ⟨_, visitsPreorder units, fun _ => listedEvents, ?_, ?_, sizeLatest holds, ?_⟩
  · intro key head
    rw [Table.getKey head, holds]
  · intro e _
    exact ⟨candidatesBare e.scope, bareScopeFixed⟩
  · intro more key head
    rw [Table.getKey head, Table.getKey head, Table.getKey head, collectAppend]

def setTwice (path scope : String) : SourceUnit :=
  ⟨path, [.scope .synthetic (some ⟨[scope], false⟩) none,
    .const .synthetic [⟨"V", .synthetic, .integer .synthetic "1"⟩],
    .expr .synthetic (.call .synthetic (.name .synthetic ⟨["define"], false⟩)
      [.argument .synthetic (.identifier .synthetic "V") false false,
        .argument .synthetic (.integer .synthetic "2") false false])]⟩

def twice (scope : String) : List Event :=
  [⟨"\\N\\V", .integer .synthetic "1", scope⟩, ⟨"\\N\\V", .integer .synthetic "2", scope⟩]

theorem setTwiceLatest :
    (collect [setTwice "a.php" "N"]).get? "\\N\\V" = some ⟨.integer .synthetic "2", "N"⟩ ∧
    (∀ e ∈ twice "N", e.definition.scope = "N") ∧
    (collect [setTwice "a.php" "N"]).size = 1 ∧
    (collect ([setTwice "a.php" "N"] ++ [setTwice "b.php" "M"])).get? "\\N\\V" =
      ((collect [setTwice "b.php" "M"]).get? "\\N\\V").or
        ((collect [setTwice "a.php" "N"]).get? "\\N\\V") := by
  obtain ⟨es, -, listed, latest, plain, size, append⟩ := collectsLatest [setTwice "a.php" "N"]
  have same : twice "N" = es := (listed _).mp (listedEvents.mpr rfl)
  subst same
  refine ⟨latest _ (by decide), ?_, size, append _ _ (by decide)⟩
  intro e member
  have reported : e.scope = "N" := by
    rcases List.mem_cons.mp member with rfl | member
    · rfl
    · rw [List.mem_singleton.mp member]
  rw [(plain e member).2 (by rw [reported]; decide) (by rw [reported]; decide), reported]

theorem paddedScopeStripped :
    Listed ([setTwice "a.php" "\\N"].flatMap SourceUnit.visits) (twice "\\N") ∧
    (collect [setTwice "a.php" "\\N"]).get? "\\N\\V" ≠
      (latest? (twice "\\N") "\\N\\V").map fun e => ⟨e.expr, e.scope⟩ := by
  have stored : (collect [setTwice "a.php" "\\N"]).get? "\\N\\V" =
      some ⟨.integer .synthetic "2", "N"⟩ := by rfl
  have reported : ((latest? (twice "\\N") "\\N\\V").map fun e => (⟨e.expr, e.scope⟩ : Definition)) =
      some ⟨.integer .synthetic "2", "\\N"⟩ := by rfl
  refine ⟨listedEvents.mpr rfl, ?_⟩
  rw [stored, reported]
  simp

end Constant
end PhpLint
