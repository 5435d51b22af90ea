import PhpLint.Tree.Stmt

/-! The nodes of a unit in visiting order: every node before the nodes inside it, parts in source
order. Each visit carries the namespace in force at the node. A namespace declaration without a
body changes the namespace for everything that is visited after it, up to the end of the unit or
of the enclosing namespace body. -/
namespace PhpLint

inductive Node where
  | stmt (s : Stmt)
  | expr (e : Expr)

structure Visit where
  scope : String
  node : Node

namespace Walk

mutual

def expr (scope : String) : Expr → List Visit
  | .integer r raw => [⟨scope, .expr (.integer r raw)⟩]
  | .float r raw => [⟨scope, .expr (.float r raw)⟩]
  | .string r raw => [⟨scope, .expr (.string r raw)⟩]
  | .var r n => [⟨scope, .expr (.var r n)⟩]
  | .identifier r t => [⟨scope, .expr (.identifier r t)⟩]
  | .name r n => [⟨scope, .expr (.name r n)⟩]
  | .constant r n => [⟨scope, .expr (.constant r n)⟩]
  | .dynamicVar r n => ⟨scope, .expr (.dynamicVar r n)⟩ :: expr scope n
  | .classConstant r c m => ⟨scope, .expr (.classConstant r c m)⟩ :: expr scope c
  | .unary r op x => ⟨scope, .expr (.unary r op x)⟩ :: expr scope x
  | .binary r op x y => ⟨scope, .expr (.binary r op x y)⟩ :: (expr scope x ++ expr scope y)
  | .ternary r c t e =>
    ⟨scope, .expr (.ternary r c t e)⟩ :: (expr scope c ++ option scope t ++ expr scope e)
  | .assign r t v => ⟨scope, .expr (.assign r t v)⟩ :: (expr scope t ++ expr scope v)
  | .index r b d => ⟨scope, .expr (.index r b d)⟩ :: (expr scope b ++ option scope d)
  | .property r o m => ⟨scope, .expr (.property r o m)⟩ :: (expr scope o ++ expr scope m)
  | .array r items => ⟨scope, .expr (.array r items)⟩ :: list scope items
  | .call r f args => ⟨scope, .expr (.call r f args)⟩ :: (expr scope f ++ list scope args)
  | .argument r v s b => ⟨scope, .expr (.argument r v s b)⟩ :: expr scope v

def option (scope : String) : Option Expr → List Visit
  | none => []
  | some e => expr scope e

def list (scope : String) : List Expr → List Visit
  | [] => []
  | e :: es => expr scope e ++ list scope es

end

def declared (n : Option Name) : String := n.elim "" Name.joined

mutual

def stmt (scope : String) : Stmt → List Visit × String
  | .expr r e => (⟨scope, .stmt (.expr r e)⟩ :: expr scope e, scope)
  | .block r body =>
    let (inside, after) := stmts scope body
    (⟨scope, .stmt (.block r body)⟩ :: inside, after)
  | .branch r c b arms e =>
    let (first, scope₁) := stmt scope b
    let (middle, scope₂) := elseifs scope₁ arms
    let (last, after) := otherwise scope₂ e
    (⟨scope, .stmt (.branch r c b arms e)⟩ :: (expr scope c ++ first ++ middle ++ last), after)
  | .whileLoop r c b =>
    let (inside, after) := stmt scope b
    (⟨scope, .stmt (.whileLoop r c b)⟩ :: (expr scope c ++ inside), after)
  | .doLoop r b c =>
    let (inside, after) := stmt scope b
    (⟨scope, .stmt (.doLoop r b c)⟩ :: (inside ++ expr after c), after)
  | .switch r s cs =>
    let (inside, after) := cases scope cs
    (⟨scope, .stmt (.switch r s cs)⟩ :: (expr scope s ++ inside), after)
  | .const r decls =>
    (⟨scope, .stmt (.const r decls)⟩ :: list scope (decls.map ConstDecl.value), scope)
  | .scope r n none => ([⟨scope, .stmt (.scope r n none)⟩], declared n)
  | .scope r n (some body) =>
    (⟨scope, .stmt (.scope r n (some body))⟩ :: (stmts (declared n) body).1, scope)
  | .function r n ps body =>
    let (inside, after) := stmts scope body
    (⟨scope, .stmt (.function r n ps body)⟩ :: inside, after)
  | .ret r v => (⟨scope, .stmt (.ret r v)⟩ :: option scope v, scope)
  | .echo r vs => (⟨scope, .stmt (.echo r vs)⟩ :: list scope vs, scope)
  | .nop r => ([⟨scope, .stmt (.nop r)⟩], scope)

def stmts (scope : String) : List Stmt → List Visit × String
  | [] => ([], scope)
  | s :: ss =>
    let (first, scope₁) := stmt scope s
    let (rest, after) := stmts scope₁ ss
    (first ++ rest, after)

def elseifs (scope : String) : List ElseIf → List Visit × String
  | [] => ([], scope)
  | .mk c b :: arms =>
    let (first, scope₁) := stmt scope b
    let (rest, after) := elseifs scope₁ arms
    (expr scope c ++ first ++ rest, after)

def otherwise (scope : String) : Option Stmt → List Visit × String
  | none => ([], scope)
  | some s => stmt scope s

def cases (scope : String) : List SwitchCase → List Visit × String
  | [] => ([], scope)
  | .mk c b :: cs =>
    let (first, scope₁) := stmts scope b
    let (rest, after) := cases scope₁ cs
    (option scope c ++ first ++ rest, after)

end

end Walk

def SourceUnit.visits (u : SourceUnit) : List Visit := (Walk.stmts "" u.stmts).1

end PhpLint
