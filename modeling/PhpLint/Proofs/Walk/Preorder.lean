import PhpLint.Walk

/-! The walk visits the nodes of a tree in pre-order: a node, then everything inside it, part by part in
source order. `parts` says which nodes stand directly inside a node, and `InPreorder` lists the nodes of
a tree by it, without regard to namespaces. -/
namespace PhpLint

def Expr.parts : Expr → List Expr
  | .dynamicVar _ n => [n]
  | .classConstant _ c _ => [c]
  | .unary _ _ x => [x]
  | .binary _ _ x y => [x, y]
  | .ternary _ c t e => c :: (t.toList ++ [e])
  | .assign _ t v => [t, v]
  | .index _ b d => b :: d.toList
  | .property _ o m => [o, m]
  | .array _ items => items
  | .call _ f args => f :: args
  | .argument _ v _ _ => [v]
  | .integer .. | .float .. | .string .. | .var .. | .identifier .. | .name .. | .constant .. => []

namespace Node

def ofArm (arm : ElseIf) : List Node := [.expr arm.cond, .stmt arm.body]

def ofCase (c : SwitchCase) : List Node := c.cond?.toList.map .expr ++ c.body.map .stmt

def parts : Node → List Node
  | .expr e => e.parts.map .expr
  | .stmt (.expr _ e) => [.expr e]
  | .stmt (.block _ body) => body.map .stmt
  | .stmt (.branch _ c b arms e) =>
    .expr c :: .stmt b :: (arms.flatMap ofArm ++ e.toList.map .stmt)
  | .stmt (.whileLoop _ c b) => [.expr c, .stmt b]
  | .stmt (.doLoop _ b c) => [.stmt b, .expr c]
  | .stmt (.switch _ s cs) => .expr s :: cs.flatMap ofCase
  | .stmt (.const _ decls) => (decls.map ConstDecl.value).map .expr
  | .stmt (.scope _ _ body) => (body.getD []).map .stmt
  | .stmt (.function _ _ _ body) => body.map .stmt
  | .stmt (.ret _ v) => v.toList.map .expr
  | .stmt (.echo _ vs) => vs.map .expr
  | .stmt (.nop _) => []

end Node

inductive InPreorder : List Node → List Node → Prop where
  | nil : InPreorder [] []
  | cons {n rest inside after} (parts : InPreorder n.parts inside) (later : InPreorder rest after) :
      InPreorder (n :: rest) (n :: (inside ++ after))

namespace InPreorder

theorem node {n : Node} {inside : List Node} (parts : InPreorder n.parts inside) :
    InPreorder [n] (n :: inside) := by
  simpa using cons parts nil

theorem append {first second before after : List Node} (left : InPreorder first before)
    (right : InPreorder second after) : InPreorder (first ++ second) (before ++ after) := by
  induction left with
  | nil => exact right
  | cons parts _ _ ih => simpa using cons parts ih

end InPreorder

namespace Walk

mutual

theorem exprPreorder (scope : String) (e : Expr) :
    InPreorder [.expr e] ((expr scope e).map Visit.node) := by
  cases e with
  | dynamicVar r n => exact .node (exprPreorder scope n)
  | classConstant r c m => exact .node (exprPreorder scope c)
  | unary r op x => exact .node (exprPreorder scope x)
  | binary r op x y =>
    rw [expr, List.map_cons, List.map_append]
    exact .node ((exprPreorder scope x).append (exprPreorder scope y))
  | ternary r c t e =>
    -- The middle part may be missing, so the parts do not fall apart by computation.
    have parts : (Node.expr (.ternary r c t e)).parts =
        [.expr c] ++ t.toList.map .expr ++ [.expr e] := by simp [Node.parts, Expr.parts]
    rw [expr, List.map_cons, List.map_append, List.map_append]
    refine .node ?_
    rw [parts]
    exact ((exprPreorder scope c).append (optionPreorder scope t)).append (exprPreorder scope e)
  | assign r t v =>
    rw [expr, List.map_cons, List.map_append]
    exact .node ((exprPreorder scope t).append (exprPreorder scope v))
  | index r b d =>
    rw [expr, List.map_cons, List.map_append]
    exact .node ((exprPreorder scope b).append (optionPreorder scope d))
  | property r o m =>
    rw [expr, List.map_cons, List.map_append]
    exact .node ((exprPreorder scope o).append (exprPreorder scope m))
  | array r items => exact .node (listPreorder scope items)
  | call r f args =>
    rw [expr, List.map_cons, List.map_append]
    exact .node ((exprPreorder scope f).append (listPreorder scope args))
  | argument r v s b => exact .node (exprPreorder scope v)
  | _ => exact .node .nil

theorem optionPreorder (scope : String) (e : Option Expr) :
    InPreorder (e.toList.map .expr) ((option scope e).map Visit.node) := by
  cases e with
  | none => exact .nil
  | some e => exact exprPreorder scope e

theorem listPreorder (scope : String) (es : List Expr) :
    InPreorder (es.map .expr) ((list scope es).map Visit.node) := by
  cases es with
  | nil => exact .nil
  | cons e es =>
    rw [list, List.map_append]
    exact (exprPreorder scope e).append (listPreorder scope es)

end

mutual

theorem stmtPreorder (scope : String) (s : Stmt) :
    InPreorder [.stmt s] ((stmt scope s).1.map Visit.node) := by
  cases s with
  | expr r e => exact .node (exprPreorder scope e)
  | block r body => exact .node (stmtsPreorder scope body)
  | branch r c b arms e =>
    simp only [stmt, List.map_cons, List.map_append]
    exact .node ((((exprPreorder scope c).append (stmtPreorder scope b)).append
      (elseifsPreorder _ arms)).append (otherwisePreorder _ e))
  | whileLoop r c b =>
    simp only [stmt, List.map_cons, List.map_append]
    exact .node ((exprPreorder scope c).append (stmtPreorder scope b))
  | doLoop r b c =>
    simp only [stmt, List.map_cons, List.map_append]
    exact .node ((stmtPreorder scope b).append (exprPreorder _ c))
  | switch r s cs =>
    simp only [stmt, List.map_cons, List.map_append]
    exact .node ((exprPreorder scope s).append (casesPreorder scope cs))
  | const r decls => exact .node (listPreorder scope (decls.map ConstDecl.value))
  | scope r n body =>
    cases body with
    | none => exact .node .nil
    | some body => exact .node (stmtsPreorder (declared n) body)
  | function r n ps body => exact .node (stmtsPreorder scope body)
  | ret r v => exact .node (optionPreorder scope v)
  | echo r vs => exact .node (listPreorder scope vs)
  | nop r => exact .node .nil

theorem stmtsPreorder (scope : String) (ss : List Stmt) :
    InPreorder (ss.map .stmt) ((stmts scope ss).1.map Visit.node) := by
  cases ss with
  | nil => exact .nil
  | cons s ss =>
    simp only [stmts, List.map_append]
    exact (stmtPreorder scope s).append (stmtsPreorder _ ss)

theorem elseifsPreorder (scope : String) (arms : List ElseIf) :
    InPreorder (arms.flatMap Node.ofArm) ((elseifs scope arms).1.map Visit.node) := by
  cases arms with
  | nil => exact .nil
  | cons arm arms =>
    cases arm with
    | mk c b =>
      simp only [elseifs, List.map_append]
      exact ((exprPreorder scope c).append (stmtPreorder scope b)).append (elseifsPreorder _ arms)

theorem otherwisePreorder (scope : String) (s : Option Stmt) :
    InPreorder (s.toList.map .stmt) ((otherwise scope s).1.map Visit.node) := by
  cases s with
  | none => exact .nil
  | some s => exact stmtPreorder scope s

theorem casesPreorder (scope : String) (cs : List SwitchCase) :
    InPreorder (cs.flatMap Node.ofCase) ((Walk.cases scope cs).1.map Visit.node) := by
  cases cs with
  | nil => exact .nil
  | cons c cs =>
    cases c with
    | mk cond body =>
      simp only [Walk.cases, List.map_append]
      exact ((optionPreorder scope cond).append (stmtsPreorder scope body)).append (casesPreorder _ cs)

end

end Walk

theorem visitsPreorder (units : List SourceUnit) :
    InPreorder ((units.flatMap SourceUnit.stmts).map .stmt)
      ((units.flatMap SourceUnit.visits).map Visit.node) := by
  induction units with
  | nil => exact .nil
  | cons u units ih =>
    rw [List.flatMap_cons, List.flatMap_cons, List.map_append, List.map_append]
    exact (Walk.stmtsPreorder "" u.stmts).append ih

end PhpLint
