import PhpLint.Proofs.Constant.Knowledge

/-! Operators whose operands may change places. Equality of floats is the IEEE one, where a NaN is not equal
to itself and the two zeros are equal; it does not depend on the order of its operands either. -/
namespace PhpLint

theorem signsSwap (s t : Float.Model.UnpackedFloat.Sign) : compare t s = (compare s t).swap := by
  cases s <;> cases t <;> rfl

theorem magnitudesSwap (m n : Nat) (e f : Int) :
    (compare f e).then (compare n m) = ((compare e f).then (compare m n)).swap := by
  have exponents : compare f e = (compare e f).swap := Std.OrientedCmp.eq_swap
  have mantissas : compare n m = (compare m n).swap := Std.OrientedCmp.eq_swap
  rw [Ordering.swap_then, exponents, mantissas]

theorem floatsSwap (a b : Float.Model.UnpackedFloat) :
    b.compare a = (a.compare b).map Ordering.swap := by
  cases a with
  | notANumber => cases b <;> rfl
  | infinity s =>
    cases b with
    | infinity t => exact congrArg some (signsSwap s t)
    | notANumber => rfl
    | zero t => cases s <;> rfl
    | finite t n f positive => cases s <;> rfl
  | zero s =>
    cases b with
    | infinity t => cases t <;> rfl
    | notANumber => rfl
    | zero t => rfl
    | finite t n f positive => cases t <;> rfl
  | finite s m e positive =>
    cases b with
    | infinity t => cases t <;> rfl
    | notANumber => rfl
    | zero t => cases s <;> rfl
    | finite t n f positive =>
      cases s with
      | negative =>
        cases t with
        | negative => exact congrArg some (congrArg Ordering.swap (magnitudesSwap m n e f))
        | positive => rfl
      | positive =>
        cases t with
        | negative => rfl
        | positive => exact congrArg some (magnitudesSwap m n e f)

theorem floatsEqual (a b : Float) : (a == b) = (b == a) := by
  have swap := floatsSwap a.toModel.unpack b.toModel.unpack
  change (a.toModel.unpack.compare b.toModel.unpack == some .eq) =
    (b.toModel.unpack.compare a.toModel.unpack == some .eq)
  rw [swap]
  rcases a.toModel.unpack.compare b.toModel.unpack with _ | _ | _ | _ <;> rfl

namespace Value

theorem bitwiseComm {op : Int64 → Int64 → Int64} (comm : ∀ a b, op a b = op b a) (x y : Value) :
    bitwise op x y = bitwise op y x := by
  unfold bitwise
  cases x.toInt? with
  | none => cases y.toInt? <;> rfl
  | some a =>
    cases y.toInt? with
    | none => rfl
    | some b => exact congrArg int (comm a b)

theorem identicalComm (x y : Value) : identical x y = identical y x := by
  cases x with
  | unknown => cases y <;> rfl
  | bool b => cases y <;> rfl
  | int a =>
    cases y with
    | int b => exact congrArg bool (Bool.beq_comm)
    | _ => rfl
  | float a =>
    cases y with
    | float b => exact congrArg bool (floatsEqual a b)
    | _ => rfl
  | string a =>
    cases y with
    | string b => exact congrArg bool Bool.beq_comm
    | _ => rfl

end Value

def BinaryOp.commuting : List BinaryOp := [.boolOr, .boolAnd, .equal, .bitOr, .bitAnd]

theorem BinaryOp.applyComm {op : BinaryOp} (commutes : op ∈ commuting) (x y : Value) :
    op.apply x y = op.apply y x := by
  simp only [commuting, List.mem_cons, List.not_mem_nil, or_false] at commutes
  rcases commutes with rfl | rfl | rfl | rfl | rfl
  · exact Value.orComm x y
  · exact Value.andComm x y
  · exact Value.identicalComm x y
  · exact Value.bitwiseComm Int64.or_comm x y
  · exact Value.bitwiseComm Int64.and_comm x y

end PhpLint
