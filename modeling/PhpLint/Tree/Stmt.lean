import PhpLint.Tree.Expr

/-! Statements and source units. -/
namespace PhpLint

structure ConstDecl where
  name : String
  nameRange : Range
  value : Expr
  deriving Repr

mutual

inductive Stmt where
  | expr (range : Range) (e : Expr)
  | block (range : Range) (body : List Stmt)
  | branch (range : Range) (cond : Expr) (body : Stmt) (elseifs : List ElseIf)
      (otherwise : Option Stmt)
  | whileLoop (range : Range) (cond : Expr) (body : Stmt)
  | doLoop (range : Range) (body : Stmt) (cond : Expr)
  | switch (range : Range) (subject : Expr) (cases : List SwitchCase)
  | const (range : Range) (decls : List ConstDecl)
  | scope (range : Range) (name : Option Name) (body : Option (List Stmt))
  | function (range : Range) (name : String) (params : List String) (body : List Stmt)
  | ret (range : Range) (value : Option Expr)
  | echo (range : Range) (values : List Expr)
  | nop (range : Range)

inductive ElseIf where
  | mk (cond : Expr) (body : Stmt)

inductive SwitchCase where
  | mk (cond : Option Expr) (body : List Stmt)

end

namespace ElseIf

def cond : ElseIf → Expr
  | mk c _ => c

def body : ElseIf → Stmt
  | mk _ b => b

end ElseIf

namespace SwitchCase

def cond? : SwitchCase → Option Expr
  | mk c _ => c

def body : SwitchCase → List Stmt
  | mk _ b => b

end SwitchCase

namespace ConstDecl

def same (a b : ConstDecl) : Bool := a.name == b.name && a.value.same b.value

def sameList : List ConstDecl → List ConstDecl → Bool
  | [], [] => true
  | x :: xs, y :: ys => x.same y && sameList xs ys
  | _, _ => false

end ConstDecl

namespace Stmt

def range : Stmt → Range
  | expr r _ | block r _ | branch r _ _ _ _ | whileLoop r _ _ | doLoop r _ _ | switch r _ _
  | const r _ | scope r _ _ | function r _ _ _ | ret r _ | echo r _ | nop r => r

def withRange (r : Range) : Stmt → Stmt
  | expr _ e => expr r e
  | block _ b => block r b
  | branch _ c b es e => branch r c b es e
  | whileLoop _ c b => whileLoop r c b
  | doLoop _ b c => doLoop r b c
  | switch _ s cs => switch r s cs
  | const _ ds => const r ds
  | scope _ n b => scope r n b
  | function _ n ps b => function r n ps b
  | ret _ v => ret r v
  | echo _ vs => echo r vs
  | nop _ => nop r

@[simp] theorem rangeWithRange (r : Range) (s : Stmt) : (s.withRange r).range = r := by
  cases s <;> rfl

mutual

def same : Stmt → Stmt → Bool
  | expr _ x, expr _ y => x.same y
  | block _ xs, block _ ys => sameList xs ys
  | branch _ c x xs e, branch _ d y ys f =>
    c.same d && x.same y && sameArms xs ys && sameOption e f
  | whileLoop _ c x, whileLoop _ d y => c.same d && x.same y
  | doLoop _ x c, doLoop _ y d => x.same y && c.same d
  | switch _ c xs, switch _ d ys => c.same d && sameCases xs ys
  | const _ xs, const _ ys => ConstDecl.sameList xs ys
  | scope _ m x, scope _ n y => m == n && sameBody x y
  | function _ m ps xs, function _ n qs ys => m == n && ps == qs && sameList xs ys
  | ret _ x, ret _ y => Expr.sameOption x y
  | echo _ xs, echo _ ys => Expr.sameList xs ys
  | nop _, nop _ => true
  | _, _ => false

def sameOption : Option Stmt → Option Stmt → Bool
  | none, none => true
  | some x, some y => x.same y
  | _, _ => false

def sameList : List Stmt → List Stmt → Bool
  | [], [] => true
  | x :: xs, y :: ys => x.same y && sameList xs ys
  | _, _ => false

def sameBody : Option (List Stmt) → Option (List Stmt) → Bool
  | none, none => true
  | some xs, some ys => sameList xs ys
  | _, _ => false

def sameArms : List ElseIf → List ElseIf → Bool
  | [], [] => true
  | .mk c x :: xs, .mk d y :: ys => c.same d && x.same y && sameArms xs ys
  | _, _ => false

def sameCases : List SwitchCase → List SwitchCase → Bool
  | [], [] => true
  | .mk c x :: xs, .mk d y :: ys => Expr.sameOption c d && sameList x y && sameCases xs ys
  | _, _ => false

end

def equivalent (a b : Stmt) : Bool :=
  (match a, b with
    | expr _ x, expr _ y => x.sameSimple y
    | _, _ => false) || a.same b

end Stmt

structure SourceUnit where
  path : String
  stmts : List Stmt

end PhpLint
