import PhpLint.Proofs.Constant.Key
import PhpLint.Proofs.Constant.Knowledge

/-! The meaning of constants without memo and depth bound. `expand` follows every reference into its
definition and gives `unknown` only where a constant is met inside its own expansion. It is the
least solution of the definitions: each constant has the value of its definition under the
expansion, and no solution knows a different value where the expansion knows one. -/
namespace PhpLint.Constant
open Value (Below unknownBelow)

namespace Table

def read (t : Table) (values : String → Value) (scope : String) (n : Name) : Value :=
  match t.resolve? scope n with
  | none => n.builtin
  | some (key, _) => values key

theorem readMono (t : Table) {lower upper : String → Value}
    (below : ∀ key, Below (lower key) (upper key)) (scope : String) (n : Name) :
    Below (t.read lower scope n) (t.read upper scope n) := by
  unfold read
  split
  · exact .refl _
  · exact below _

def Solution (t : Table) (values : String → Value) : Prop :=
  ∀ key d, t.at? key = some d → values key = d.expr.valueWith (t.read values d.scope)

def unexpanded (t : Table) (active : List String) : List String :=
  t.entries.keys.filter (· ∉ active)

theorem candidateHead {scope : String} {n : Name} {key : String} (member : key ∈ candidates scope n) :
    key.toList.head? = some '\\' := by
  obtain ⟨rest, text, -⟩ := candidateCanonical member
  rw [text]
  rfl

theorem resolvedAt {t : Table} {scope : String} {n : Name} {key : String} {d : Definition}
    (found : t.resolve? scope n = some (key, d)) : t.at? key = some d := by
  obtain ⟨candidate, member, value⟩ := List.exists_of_findSome?_eq_some found
  obtain ⟨other, recorded, pair⟩ := Option.map_eq_some_iff.mp value
  cases pair
  simpa only [get?, candidateHead member, if_true] using recorded

theorem unexpandedDecreases {t : Table} {active : List String} {key : String} {d : Definition}
    (fresh : key ∉ active) (found : t.at? key = some d) :
    (t.unexpanded (key :: active)).length < (t.unexpanded active).length := by
  have present : key ∈ t.entries.keys := by
    rw [Std.TreeMap.mem_keys, Std.TreeMap.mem_iff_isSome_getElem?]
    exact Option.isSome_of_eq_some found
  have sublist : t.unexpanded (key :: active) = (t.unexpanded active).filter (· ≠ key) := by
    simp [unexpanded, List.filter_filter]
  rw [sublist]
  exact List.length_filter_lt_length_iff_exists.mpr
    ⟨key, List.mem_filter.mpr ⟨present, by simpa using fresh⟩, by simp⟩

end Table

def expand (t : Table) (active : List String) (key : String) : Value :=
  if fresh : key ∈ active then .unknown
  else
    match found : t.at? key with
    | none => .unknown
    | some d =>
      have := Table.unexpandedDecreases fresh found
      d.expr.valueWith (t.read (fun k => expand t (key :: active) k) d.scope)
termination_by (t.unexpanded active).length

theorem expandActive {t : Table} {active : List String} {key : String} (member : key ∈ active) :
    expand t active key = .unknown := by
  rw [expand, dif_pos member]

theorem expandUndefined {t : Table} {active : List String} {key : String}
    (absent : t.at? key = none) : expand t active key = .unknown := by
  rw [expand]
  split
  · rfl
  · split
    · rfl
    · simp_all

theorem expandDefined {t : Table} {active : List String} {key : String} {d : Definition}
    (fresh : key ∉ active) (found : t.at? key = some d) :
    expand t active key = d.expr.valueWith (t.read (expand t (key :: active)) d.scope) := by
  rw [expand, dif_neg fresh]
  split
  · simp_all
  · rename_i other again
    cases Option.some.inj (again.symm.trans found)
    rfl

theorem expandAntitone (t : Table) {few many : List String} (subset : few ⊆ many) (key : String) :
    Below (expand t many key) (expand t few key) := by
  induction many, key using expand.induct t generalizing few with
  | case1 many key member =>
    rw [expandActive member]
    exact unknownBelow _
  | case2 many key fresh absent =>
    rw [expandUndefined absent]
    exact unknownBelow _
  | case3 many key fresh d found smaller ih =>
    have outside : key ∉ few := fun member => fresh (subset member)
    rw [expandDefined fresh found, expandDefined outside found]
    have inner (k : String) := ih k (List.cons_subset_cons key subset)
    exact Expr.valueWithMono (t.readMono inner d.scope) _

theorem expandSame (t : Table) {first second : List String} (there : first ⊆ second)
    (back : second ⊆ first) : expand t first = expand t second :=
  funext fun key => (expandAntitone t back key).antisymm (expandAntitone t there key)

/- A constant that is unknown anyway may as well count as being expanded. This is where the order of
values being flat matters: one round of expansion is enough to reach the fixed point. -/
theorem expandUnknown (t : Table) {active : List String} {cut : String}
    (unknown : expand t active cut = .unknown) (key : String) :
    expand t (cut :: active) key = expand t active key := by
  induction active, key using expand.induct t with
  | case1 active key member => rw [expandActive member, expandActive (List.mem_cons_of_mem _ member)]
  | case2 active key fresh absent => rw [expandUndefined absent, expandUndefined absent]
  | case3 active key fresh d found smaller ih =>
    by_cases same : key = cut
    · subst same
      rw [unknown, expandActive List.mem_cons_self]
    · have outside : key ∉ cut :: active := by simp [same, fresh]
      have still : expand t (key :: active) cut = .unknown := by
        have less := expandAntitone t (List.subset_cons_self key active) cut
        rw [unknown] at less
        exact less.unknownOf
      have swap : expand t (key :: cut :: active) = expand t (cut :: key :: active) :=
        expandSame t (by simp) (by simp)
      have equal : expand t (key :: cut :: active) = expand t (key :: active) :=
        swap.trans (funext fun k => ih k still)
      rw [expandDefined fresh found, expandDefined outside found, equal]

theorem expandFixed {t : Table} {active : List String} {key : String} {d : Definition}
    (fresh : key ∉ active) (found : t.at? key = some d) :
    expand t active key = d.expr.valueWith (t.read (expand t active) d.scope) := by
  have unfolded := expandDefined fresh found
  -- Counting the constant as being expanded changes nothing if it is unknown; if it is known, what is
  -- known inside its definition can only grow, and a known value stays the same.
  by_cases unknown : expand t active key = .unknown
  · have equal : expand t (key :: active) = expand t active := funext (expandUnknown t unknown)
    rw [unfolded, equal]
  · have less : Below (d.expr.valueWith (t.read (expand t (key :: active)) d.scope))
        (d.expr.valueWith (t.read (expand t active) d.scope)) :=
      Expr.valueWithMono
        (t.readMono (expandAntitone t (List.subset_cons_self key active)) d.scope) _
    rw [← unfolded] at less
    exact less.eqOfKnown unknown

theorem expansionSolves (t : Table) : t.Solution (expand t []) :=
  fun _ _ found => expandFixed List.not_mem_nil found

theorem expansionLeast {t : Table} {values : String → Value} (solution : t.Solution values)
    (active : List String) (key : String) : Below (expand t active key) (values key) := by
  induction active, key using expand.induct t with
  | case1 active key member =>
    rw [expandActive member]
    exact unknownBelow _
  | case2 active key fresh absent =>
    rw [expandUndefined absent]
    exact unknownBelow _
  | case3 active key fresh d found smaller ih =>
    rw [expandDefined fresh found, solution key d found]
    exact Expr.valueWithMono (t.readMono ih d.scope) _

def expanded (t : Table) (scope : String) (e : Expr) : Value :=
  e.valueWith (t.read (expand t []) scope)

end PhpLint.Constant
