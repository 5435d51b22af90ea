import PhpLint.Proofs.Value.Commutation

/-! The order of values. Integers and byte strings stand in a line, and so do the floats that are numbers,
with one place for both zeros; a NaN has no place, and values of different kinds are not compared. So
comparisons of three values fit together: `order?` is transitive for each of its outcomes, and turning the
operands round turns the outcome round. Identity is the relation of standing at one place. -/
namespace PhpLint
open Std (TransCmp OrientedCmp)
open Float.Model (UnpackedFloat)

/- The side of zero on which a number stands, and there its exponent and its mantissa. -/
def place? : UnpackedFloat → Option (Int × Int × Int)
  | .notANumber => none
  | .infinity .negative => some (-2, 0, 0)
  | .finite .negative m e _ => some (-1, -e, -m)
  | .zero _ => some (0, 0, 0)
  | .finite .positive m e _ => some (1, e, m)
  | .infinity .positive => some (2, 0, 0)

def comparePlaces (p q : Int × Int × Int) : Ordering :=
  (compare p.1 q.1).then ((compare p.2.1 q.2.1).then (compare p.2.2 q.2.2))

theorem placesTrans : TransCmp comparePlaces :=
  inferInstanceAs (TransCmp (compareLex (compareOn fun p : Int × Int × Int => p.1)
    (compareLex (compareOn fun p : Int × Int × Int => p.2.1)
      (compareOn fun p : Int × Int × Int => p.2.2))))

theorem compareNeg (a b : Int) : compare (-a) (-b) = (compare a b).swap := by
  cases order : compare a b with
  | lt =>
    have below := Int.compare_eq_lt.mp order
    exact Int.compare_eq_gt.mpr (by omega)
  | eq =>
    have same := Int.compare_eq_eq.mp order
    exact Int.compare_eq_eq.mpr (by omega)
  | gt =>
    have above := Int.compare_eq_gt.mp order
    exact Int.compare_eq_lt.mpr (by omega)

theorem compareCast (m n : Nat) : compare (m : Int) (n : Int) = compare m n := by
  cases order : compare m n with
  | lt =>
    have below := Nat.compare_eq_lt.mp order
    exact Int.compare_eq_lt.mpr (by omega)
  | eq =>
    have same := Nat.compare_eq_eq.mp order
    exact Int.compare_eq_eq.mpr (by omega)
  | gt =>
    have above := Nat.compare_eq_gt.mp order
    exact Int.compare_eq_gt.mpr (by omega)

theorem belowPlaced (m n : Nat) (e f : Int) :
    comparePlaces (-1, -e, -m) (-1, -f, -n) = ((compare e f).then (compare m n)).swap := by
  change (compare (-e) (-f)).then (compare (-(m : Int)) (-(n : Int))) = _
  rw [compareNeg, compareNeg, compareCast, Ordering.swap_then]

theorem abovePlaced (m n : Nat) (e f : Int) :
    comparePlaces (1, e, m) (1, f, n) = (compare e f).then (compare m n) := by
  change (compare e f).then (compare (m : Int) (n : Int)) = _
  rw [compareCast]

theorem floatsPlaced (a b : UnpackedFloat) :
    a.compare b = (place? a).bind fun p => (place? b).map (comparePlaces p) := by
  cases a with
  | notANumber => rfl
  | infinity s =>
    cases b with
    | infinity t => cases s <;> cases t <;> rfl
    | notANumber => cases s <;> rfl
    | zero t => cases s <;> rfl
    | finite t n f positive => cases s <;> cases t <;> rfl
  | zero s =>
    cases b with
    | infinity t => cases t <;> rfl
    | notANumber => rfl
    | zero t => rfl
    | finite t n f positive => cases t <;> rfl
  | finite s m e positive =>
    cases b with
    | infinity t => cases s <;> cases t <;> rfl
    | notANumber => cases s <;> rfl
    | zero t => cases s <;> rfl
    | finite t n f positive' =>
      cases s with
      | negative =>
        cases t with
        | negative => exact congrArg some (belowPlaced m n e f).symm
        | positive => rfl
      | positive =>
        cases t with
        | negative => rfl
        | positive => exact congrArg some (abovePlaced m n e f).symm

theorem sameTrans {α : Type} {cmp : α → α → Ordering} (line : TransCmp cmp) {a b c : α} {o : Ordering}
    (first : cmp a b = o) (second : cmp b c = o) : cmp a c = o := by
  cases o with
  | lt => exact TransCmp.lt_trans first second
  | eq => exact TransCmp.eq_trans first second
  | gt => exact TransCmp.gt_trans first second

theorem floatsTrans {a b c : UnpackedFloat} {o : Ordering} (first : a.compare b = some o)
    (second : b.compare c = some o) : a.compare c = some o := by
  rw [floatsPlaced] at first second ⊢
  obtain ⟨p, placed, first⟩ := Option.bind_eq_some_iff.mp first
  obtain ⟨q, middle, first⟩ := Option.map_eq_some_iff.mp first
  obtain ⟨q', again, second⟩ := Option.bind_eq_some_iff.mp second
  obtain ⟨r, last, second⟩ := Option.map_eq_some_iff.mp second
  cases Option.some.inj (again.symm.trans middle)
  simp [placed, last, sameTrans placesTrans first second]

theorem wordsTrans : TransCmp fun a b : Int64 => compareOfLessAndEq a b :=
  inferInstanceAs (TransCmp (compare : Int64 → Int64 → Ordering))

theorem bytesTrans : TransCmp fun a b : Bytes => compareOfLessAndEq a b :=
  Std.TransOrd.compareOfLessAndEq_of_antisymm_of_trans_of_total_of_not_le List.le_antisymm
    List.le_trans List.le_total List.not_le

namespace Value

theorem floatsLess {a b : Float} :
    a < b ↔ a.toModel.unpack.compare b.toModel.unpack = some .lt := by
  change decide ((a.toModel.unpack.compare b.toModel.unpack == some .lt) = true) = true ↔ _
  simp

theorem floatsSame {a b : Float} :
    (a == b) = true ↔ a.toModel.unpack.compare b.toModel.unpack = some .eq := by
  change (a.toModel.unpack.compare b.toModel.unpack == some .eq) = true ↔ _
  simp

theorem floatsOrdered (a b : Float) :
    orderFloats a b = a.toModel.unpack.compare b.toModel.unpack := by
  unfold orderFloats
  simp only [floatsLess, floatsSame, floatsSwap a.toModel.unpack b.toModel.unpack]
  rcases a.toModel.unpack.compare b.toModel.unpack with _ | _ | _ | _ <;> rfl

theorem orderedKind {x y : Value} {o : Option Ordering} (ordered : order? x y = some o) :
    (∃ a b, x = int a ∧ y = int b ∧ some (compareOfLessAndEq a b) = o) ∨
    (∃ a b, x = float a ∧ y = float b ∧ a.toModel.unpack.compare b.toModel.unpack = o) ∨
    ∃ a b, x = string a ∧ y = string b ∧ some (compareOfLessAndEq a b) = o := by
  revert ordered
  fun_cases order? x y with
  | case1 a b =>
    intro ordered
    exact .inl ⟨a, b, rfl, rfl, Option.some.inj ordered⟩
  | case2 a b =>
    intro ordered
    rw [floatsOrdered] at ordered
    exact .inr (.inl ⟨a, b, rfl, rfl, Option.some.inj ordered⟩)
  | case3 a b =>
    intro ordered
    exact .inr (.inr ⟨a, b, rfl, rfl, Option.some.inj ordered⟩)
  | case4 =>
    intro ordered
    contradiction

theorem orderSwap {x y : Value} {o : Option Ordering} (ordered : order? x y = some o) :
    order? y x = some (o.map Ordering.swap) := by
  rcases orderedKind ordered with ⟨a, b, rfl, rfl, rfl⟩ | ⟨a, b, rfl, rfl, rfl⟩ | ⟨a, b, rfl, rfl, rfl⟩
  · exact congrArg (some ∘ some) wordsTrans.eq_swap
  · rw [order?, floatsOrdered, floatsSwap]
  · exact congrArg (some ∘ some) bytesTrans.eq_swap

theorem orderTrans {x y z : Value} {o : Ordering} (first : order? x y = some (some o))
    (second : order? y z = some (some o)) : order? x z = some (some o) := by
  rcases orderedKind first with ⟨a, b, rfl, rfl, here⟩ | ⟨a, b, rfl, rfl, here⟩ | ⟨a, b, rfl, rfl, here⟩
  -- The value in the middle has one kind, so the last one is of that kind too.
  · obtain ⟨_, c, ⟨⟩, rfl, there⟩ | ⟨_, _, ⟨⟩, -⟩ | ⟨_, _, ⟨⟩, -⟩ := orderedKind second
    exact congrArg (some ∘ some) (sameTrans wordsTrans (Option.some.inj here) (Option.some.inj there))
  · obtain ⟨_, _, ⟨⟩, -⟩ | ⟨_, c, ⟨⟩, rfl, there⟩ | ⟨_, _, ⟨⟩, -⟩ := orderedKind second
    rw [order?, floatsOrdered, floatsTrans here there]
  · obtain ⟨_, _, ⟨⟩, -⟩ | ⟨_, _, ⟨⟩, -⟩ | ⟨_, c, ⟨⟩, rfl, there⟩ := orderedKind second
    exact congrArg (some ∘ some) (sameTrans bytesTrans (Option.some.inj here) (Option.some.inj there))

theorem relationHolds {holds : Ordering → Bool} {outcome : Ordering}
    (only : ∀ o, holds o = true ↔ o = outcome) {x y : Value} :
    relation holds x y = bool true ↔ order? x y = some (some outcome) := by
  unfold relation
  rcases order? x y with _ | _ | o
  · simp
  · simp
  · simp [only]

theorem relationBool {holds : Ordering → Bool} {x y : Value} {b : Bool}
    (known : (relation holds x y).toBool? = some b) : relation holds x y = bool b := by
  unfold relation at known ⊢
  split at known
  · exact congrArg bool (Option.some.inj known)
  · contradiction

theorem relationKnown {holds : Ordering → Bool} {x y : Value} {b : Bool}
    (known : relation holds x y = bool b) : x ≠ unknown ∧ y ≠ unknown := by
  unfold relation at known
  split at known
  · rename_i o ordered
    rcases orderedKind ordered with ⟨a, b, rfl, rfl, -⟩ | ⟨a, b, rfl, rfl, -⟩ | ⟨a, b, rfl, rfl, -⟩ <;>
      simp
  · contradiction

theorem identicalRelation (x y : Value) : identical x y = relation Ordering.isEq x y := by
  have words (a b : Int64) : (a == b) = (compareOfLessAndEq a b).isEq := by
    rw [Bool.eq_iff_iff, beq_iff_eq, Ordering.isEq_iff_eq_eq,
      compareOfLessAndEq_eq_eq Int64.le_refl Int64.not_le]
  have floats (a b : Float) : (a == b) = (orderFloats a b).any Ordering.isEq := by
    rw [Bool.eq_iff_iff, floatsSame, floatsOrdered]
    rcases a.toModel.unpack.compare b.toModel.unpack with _ | _ | _ | _ <;> simp
  have bytes (a b : Bytes) : (a == b) = (compareOfLessAndEq a b).isEq := by
    rw [Bool.eq_iff_iff, beq_iff_eq, Ordering.isEq_iff_eq_eq,
      compareOfLessAndEq_eq_eq List.le_refl List.not_le]
  unfold identical
  split
  · exact congrArg bool (words _ _)
  · exact congrArg bool (floats _ _)
  · exact congrArg bool (bytes _ _)
  · rename_i noInts noFloats noStrings
    unfold relation
    cases ordered : order? x y with
    | none => rfl
    | some o =>
      rcases orderedKind ordered with ⟨a, b, rfl, rfl, -⟩ | ⟨a, b, rfl, rfl, -⟩ | ⟨a, b, rfl, rfl, -⟩
      · exact (noInts a b rfl rfl).elim
      · exact (noFloats a b rfl rfl).elim
      · exact (noStrings a b rfl rfl).elim

theorem identicalTrans {x a b : Value} (first : identical x a = bool true)
    (second : identical x b = bool true) : identical a b = bool true := by
  rw [identicalRelation, relationHolds fun _ => Ordering.isEq_iff_eq_eq] at first second ⊢
  exact orderTrans (orderSwap first) second

theorem noneBetween {x a b : Value} (below : less x a = bool true)
    (above : relation Ordering.isGT x b = bool true) : less a b ≠ bool true := by
  intro apart
  rw [less, relationHolds fun _ => Ordering.isLT_iff_eq_lt] at below apart
  rw [relationHolds fun _ => Ordering.isGT_iff_eq_gt] at above
  have back := orderSwap (orderTrans (orderSwap above) below)
  rw [apart] at back
  contradiction

end Value
end PhpLint
