import PhpLint.Walk
import PhpLint.Proofs.Tree.Erasure

/-! The walk does not look at ranges: over a tree without them it makes the same visits, at the same nodes
less their ranges, in the same namespaces. -/
namespace PhpLint

def Node.erased : Node → Node
  | .stmt s => .stmt s.erased
  | .expr e => .expr e.erased

def Visit.erased (v : Visit) : Visit := ⟨v.scope, v.node.erased⟩

@[simp] theorem Visit.erasedStmt (scope : String) (s : Stmt) :
    Visit.erased ⟨scope, .stmt s⟩ = ⟨scope, .stmt s.erased⟩ := rfl

@[simp] theorem Visit.erasedExpr (scope : String) (e : Expr) :
    Visit.erased ⟨scope, .expr e⟩ = ⟨scope, .expr e.erased⟩ := rfl

def SourceUnit.erased (u : SourceUnit) : SourceUnit := ⟨u.path, Stmt.erasedList u.stmts⟩

namespace Walk

def erased (walk : List Visit × String) : List Visit × String := (walk.1.map Visit.erased, walk.2)

mutual

theorem exprErased (scope : String) (e : Expr) :
    expr scope e.erased = (expr scope e).map Visit.erased := by
  cases e with
  | dynamicVar r n => simp [expr, Expr.erased, exprErased scope n]
  | classConstant r c m => simp [expr, Expr.erased, exprErased scope c]
  | unary r op x => simp [expr, Expr.erased, exprErased scope x]
  | binary r op x y =>
    simp [expr, Expr.erased, exprErased scope x, exprErased scope y]
  | ternary r c t e =>
    simp [expr, Expr.erased, exprErased scope c, optionErased scope t, exprErased scope e]
  | assign r t v =>
    simp [expr, Expr.erased, exprErased scope t, exprErased scope v]
  | index r b d =>
    simp [expr, Expr.erased, exprErased scope b, optionErased scope d]
  | property r o m =>
    simp [expr, Expr.erased, exprErased scope o, exprErased scope m]
  | array r items => simp [expr, Expr.erased, listErased scope items]
  | call r f args =>
    simp [expr, Expr.erased, exprErased scope f, listErased scope args]
  | argument r v s b => simp [expr, Expr.erased, exprErased scope v]
  | _ => rfl

theorem optionErased (scope : String) (e : Option Expr) :
    option scope (Expr.erasedOption e) = (option scope e).map Visit.erased := by
  cases e with
  | none => rfl
  | some e => exact exprErased scope e

theorem listErased (scope : String) (es : List Expr) :
    list scope (Expr.erasedList es) = (list scope es).map Visit.erased := by
  cases es with
  | nil => rfl
  | cons e es => rw [Expr.erasedList, list, list, List.map_append, exprErased, listErased]

end

mutual

theorem stmtErased (scope : String) (s : Stmt) : stmt scope s.erased = erased (stmt scope s) := by
  cases s with
  | expr r e => simp [stmt, Stmt.erased, erased, exprErased]
  | block r body =>
    simp [stmt, Stmt.erased, erased, stmtsErased scope body]
  | branch r c b arms e =>
    simp [stmt, Stmt.erased, erased, exprErased, stmtErased scope b,
      elseifsErased _ arms, otherwiseErased _ e]
  | whileLoop r c b =>
    simp [stmt, Stmt.erased, erased, exprErased, stmtErased scope b]
  | doLoop r b c =>
    simp [stmt, Stmt.erased, erased, exprErased, stmtErased scope b]
  | switch r s cs =>
    simp [stmt, Stmt.erased, erased, exprErased, casesErased scope cs]
  | const r decls =>
    have values : (decls.map ConstDecl.erased).map ConstDecl.value =
        Expr.erasedList (decls.map ConstDecl.value) := by
      rw [Expr.erasedListMap, List.map_map, List.map_map]
      rfl
    simp only [stmt, Stmt.erased, values, listErased]
    rfl
  | scope r n body =>
    cases body with
    | none => rfl
    | some body =>
      simp [stmt, Stmt.erased, Stmt.erasedBody, erased,
        stmtsErased (declared n) body]
  | function r n ps body =>
    simp [stmt, Stmt.erased, erased, stmtsErased scope body]
  | ret r v => simp [stmt, Stmt.erased, erased, optionErased]
  | echo r vs => simp [stmt, Stmt.erased, erased, listErased]
  | nop r => rfl

theorem stmtsErased (scope : String) (ss : List Stmt) :
    stmts scope (Stmt.erasedList ss) = erased (stmts scope ss) := by
  cases ss with
  | nil => rfl
  | cons s ss =>
    simp [stmts, Stmt.erasedList, erased, stmtErased scope s, stmtsErased _ ss]

theorem elseifsErased (scope : String) (arms : List ElseIf) :
    elseifs scope (Stmt.erasedArms arms) = erased (elseifs scope arms) := by
  cases arms with
  | nil => rfl
  | cons arm arms =>
    cases arm with
    | mk c b =>
      simp [elseifs, Stmt.erasedArms, erased, exprErased, stmtErased scope b, elseifsErased _ arms]

theorem otherwiseErased (scope : String) (s : Option Stmt) :
    otherwise scope (Stmt.erasedOption s) = erased (otherwise scope s) := by
  cases s with
  | none => rfl
  | some s => exact stmtErased scope s

theorem casesErased (scope : String) (cs : List SwitchCase) :
    Walk.cases scope (Stmt.erasedCases cs) = erased (Walk.cases scope cs) := by
  cases cs with
  | nil => rfl
  | cons c cs =>
    cases c with
    | mk cond body =>
      simp [Walk.cases, Stmt.erasedCases, erased, optionErased, stmtsErased scope body,
        casesErased _ cs]

end

end Walk

theorem SourceUnit.visitsErased (u : SourceUnit) : u.erased.visits = u.visits.map Visit.erased := by
  rw [visits, erased, Walk.stmtsErased]
  rfl

end PhpLint
