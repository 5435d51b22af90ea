import PhpLint.Tree.Basic

/-! Expressions. Every node carries its source range; `Expr.same` compares trees without looking
at ranges. -/
namespace PhpLint

inductive Expr where
  | integer (range : Range) (raw : String)
  | float (range : Range) (raw : String)
  | string (range : Range) (raw : String)
  | var (range : Range) (name : String)
  | dynamicVar (range : Range) (name : Expr)
  | identifier (range : Range) (text : String)
  | name (range : Range) (name : Name)
  | constant (range : Range) (name : Name)
  | classConstant (range : Range) (owner : Expr) (member : String)
  | unary (range : Range) (op : UnaryOp) (operand : Expr)
  | binary (range : Range) (op : BinaryOp) (lhs rhs : Expr)
  | ternary (range : Range) (cond : Expr) (whenTrue : Option Expr) (whenFalse : Expr)
  | assign (range : Range) (target value : Expr)
  | index (range : Range) (base : Expr) (dim : Option Expr)
  | property (range : Range) (object member : Expr)
  | array (range : Range) (items : List Expr)
  | call (range : Range) (callee : Expr) (args : List Expr)
  | argument (range : Range) (value : Expr) (spread byRef : Bool)
  deriving Repr

namespace Expr

def range : Expr → Range
  | integer r _ | float r _ | string r _ | var r _ | dynamicVar r _ | identifier r _ | name r _
  | constant r _ | classConstant r _ _ | unary r _ _ | binary r _ _ _ | ternary r _ _ _
  | assign r _ _ | index r _ _ | property r _ _ | array r _ | call r _ _ | argument r _ _ _ => r

def withRange (r : Range) : Expr → Expr
  | integer _ raw => integer r raw
  | float _ raw => float r raw
  | string _ raw => string r raw
  | var _ n => var r n
  | dynamicVar _ n => dynamicVar r n
  | identifier _ t => identifier r t
  | name _ n => name r n
  | constant _ n => constant r n
  | classConstant _ c m => classConstant r c m
  | unary _ op x => unary r op x
  | binary _ op x y => binary r op x y
  | ternary _ c t e => ternary r c t e
  | assign _ t v => assign r t v
  | index _ b d => index r b d
  | property _ o m => property r o m
  | array _ items => array r items
  | call _ f args => call r f args
  | argument _ v s b => argument r v s b

@[simp] theorem rangeWithRange (r : Range) (e : Expr) : (e.withRange r).range = r := by
  cases e <;> rfl

def unwrapped : Expr → Expr
  | argument _ v _ _ => v.unwrapped
  | e => e

def argumentValue? : Expr → Option Expr
  | argument _ v _ _ => some v
  | _ => none

def isString : Expr → Bool
  | string .. => true
  | _ => false

def callee? : Expr → Option Name
  | call _ (name _ n) _ => some n
  | _ => none

def args : Expr → List Expr
  | call _ _ args => args
  | _ => []

def callTo? (e : Expr) (function : String) : Option (List Expr) :=
  e.callee?.bind fun n => if n.isFunction function then some e.args else none

mutual

def same : Expr → Expr → Bool
  | integer _ x, integer _ y => x == y
  | float _ x, float _ y => x == y
  | string _ x, string _ y => x == y
  | var _ x, var _ y => x == y
  | dynamicVar _ x, dynamicVar _ y => x.same y
  | identifier _ x, identifier _ y => x == y
  | name _ x, name _ y => x == y
  | constant _ x, constant _ y => x == y
  | classConstant _ x m, classConstant _ y n => x.same y && m == n
  | unary _ o x, unary _ p y => o == p && x.same y
  | binary _ o x₁ x₂, binary _ p y₁ y₂ => o == p && x₁.same y₁ && x₂.same y₂
  | ternary _ x₁ x₂ x₃, ternary _ y₁ y₂ y₃ => x₁.same y₁ && sameOption x₂ y₂ && x₃.same y₃
  | assign _ x₁ x₂, assign _ y₁ y₂ => x₁.same y₁ && x₂.same y₂
  | index _ x₁ x₂, index _ y₁ y₂ => x₁.same y₁ && sameOption x₂ y₂
  | property _ x₁ x₂, property _ y₁ y₂ => x₁.same y₁ && x₂.same y₂
  | array _ xs, array _ ys => sameList xs ys
  | call _ x xs, call _ y ys => x.same y && sameList xs ys
  | argument _ x s b, argument _ y t c => x.same y && s == t && b == c
  | _, _ => false

def sameOption : Option Expr → Option Expr → Bool
  | none, none => true
  | some x, some y => x.same y
  | _, _ => false

def sameList : List Expr → List Expr → Bool
  | [], [] => true
  | x :: xs, y :: ys => x.same y && sameList xs ys
  | _, _ => false

end

/-- Are the two expressions certain to have the same value? Only a few shapes are trusted:
variables, identifiers, integer literals with one spelling, element accesses with a dimension,
argument wrappers and inequalities, built from parts of these shapes. -/
def sameSimple : Expr → Expr → Bool
  | argument _ x s b, argument _ y t c => s == t && b == c && x.sameSimple y
  | index _ x₁ (some x₂), index _ y₁ (some y₂) => x₁.sameSimple y₁ && x₂.sameSimple y₂
  | var _ x, var _ y => x == y
  | dynamicVar _ x, dynamicVar _ y => x.sameSimple y
  | identifier _ x, identifier _ y => x == y
  | integer _ x, integer _ y => x == y
  | binary _ .notEqual x₁ x₂, binary _ .notEqual y₁ y₂ => x₁.sameSimple y₁ && x₂.sameSimple y₂
  | _, _ => false

def equivalent (a b : Expr) : Bool := a.sameSimple b || a.same b

end Expr
end PhpLint
