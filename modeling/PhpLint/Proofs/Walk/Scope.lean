import PhpLint.Proofs.Walk.Preorder

/-! Namespaces by lists of statements. A namespace declaration without a body is meant for the statements
that follow it in its own list: `placed` gives the namespaces of a list by that rule, and `Ruled` those of
a whole tree. The walk keeps to it where such declarations stand only at the top of a unit or of a
namespace body. Anywhere else they reach further: after a statement the walk is in the namespace that was
declared last inside it, whatever list the declaration stands in. -/
namespace PhpLint

namespace Stmt

def declares? : Stmt → Option String
  | .scope _ n none => some (Walk.declared n)
  | _ => none

mutual

def declarations : Stmt → List String
  | .scope _ n none => [Walk.declared n]
  | .block _ body | .function _ _ _ body => listDeclarations body
  | .branch _ _ b arms e => b.declarations ++ armDeclarations arms ++ optionDeclarations e
  | .whileLoop _ _ b | .doLoop _ b _ => b.declarations
  | .switch _ _ cs => caseDeclarations cs
  | .scope _ _ (some _) | .expr .. | .const .. | .ret .. | .echo .. | .nop .. => []

def optionDeclarations : Option Stmt → List String
  | none => []
  | some s => s.declarations

def listDeclarations : List Stmt → List String
  | [] => []
  | s :: ss => s.declarations ++ listDeclarations ss

def armDeclarations : List ElseIf → List String
  | [] => []
  | .mk _ b :: arms => b.declarations ++ armDeclarations arms

def caseDeclarations : List SwitchCase → List String
  | [] => []
  | .mk _ b :: cs => listDeclarations b ++ caseDeclarations cs

end

/- Whatever the statement declares is meant for the rest of its own list. -/
def Tight (s : Stmt) : Prop := s.declares? = none → s.declarations = []

instance (s : Stmt) : Decidable s.Tight := inferInstanceAs (Decidable (_ → _))

end Stmt

namespace Walk

mutual

theorem stmtLeaves (scope : String) (s : Stmt) :
    (stmt scope s).2 = s.declarations.getLast?.getD scope := by
  cases s with
  | block r body => exact stmtsLeave scope body
  | branch r c b arms e =>
    simp only [stmt, Stmt.declarations, List.getLast?_append, Option.getD_or, stmtLeaves scope b,
      elseifsLeave _ arms, otherwiseLeaves _ e]
  | whileLoop r c b => exact stmtLeaves scope b
  | doLoop r b c => exact stmtLeaves scope b
  | switch r s cs => exact casesLeave scope cs
  | scope r n body => cases body <;> rfl
  | function r n ps body => exact stmtsLeave scope body
  | _ => rfl

theorem stmtsLeave (scope : String) (ss : List Stmt) :
    (stmts scope ss).2 = (Stmt.listDeclarations ss).getLast?.getD scope := by
  cases ss with
  | nil => rfl
  | cons s ss =>
    simp only [stmts, Stmt.listDeclarations, List.getLast?_append, Option.getD_or, stmtLeaves scope s,
      stmtsLeave _ ss]

theorem elseifsLeave (scope : String) (arms : List ElseIf) :
    (elseifs scope arms).2 = (Stmt.armDeclarations arms).getLast?.getD scope := by
  cases arms with
  | nil => rfl
  | cons arm arms =>
    cases arm with
    | mk c b =>
      simp only [elseifs, Stmt.armDeclarations, List.getLast?_append, Option.getD_or,
        stmtLeaves scope b, elseifsLeave _ arms]

theorem otherwiseLeaves (scope : String) (s : Option Stmt) :
    (otherwise scope s).2 = (Stmt.optionDeclarations s).getLast?.getD scope := by
  cases s with
  | none => rfl
  | some s => exact stmtLeaves scope s

theorem casesLeave (scope : String) (cs : List SwitchCase) :
    (Walk.cases scope cs).2 = (Stmt.caseDeclarations cs).getLast?.getD scope := by
  cases cs with
  | nil => rfl
  | cons c cs =>
    cases c with
    | mk cond body =>
      simp only [Walk.cases, Stmt.caseDeclarations, List.getLast?_append, Option.getD_or,
        stmtsLeave scope body, casesLeave _ cs]

end

theorem stmtKeeps {s : Stmt} (silent : s.declarations = []) (scope : String) :
    (stmt scope s).2 = scope := by
  rw [stmtLeaves, silent]
  rfl

theorem tightNext {s : Stmt} (tight : s.Tight) (scope : String) :
    (stmt scope s).2 = s.declares?.getD scope := by
  cases declared : s.declares? with
  | none => exact stmtKeeps (tight declared) scope
  | some name =>
    unfold Stmt.declares? at declared
    split at declared
    · cases Option.some.inj declared
      rfl
    · contradiction

theorem keepsIff (s : Stmt) : (∀ scope, (stmt scope s).2 = scope) ↔ s.declarations = [] := by
  constructor
  · intro keeps
    cases last : s.declarations.getLast? with
    | none => exact List.getLast?_eq_none_iff.mp last
    | some name =>
      have other := keeps (name.push 'x')
      rw [stmtLeaves, last] at other
      have length := congrArg String.length other
      simp at length
  · intro silent scope
    exact stmtKeeps silent scope

end Walk

def inForce (start : String) (before : List Stmt) : String :=
  (before.reverse.findSome? Stmt.declares?).getD start

theorem inForceNext (start : String) (before : List Stmt) (s : Stmt) :
    inForce start (before ++ [s]) = s.declares?.getD (inForce start before) := by
  rw [inForce, List.reverse_append, List.reverse_singleton, List.singleton_append,
    List.findSome?_cons]
  cases s.declares? with
  | none => rfl
  | some name => rfl

def placed (start : String) (before : List Stmt) : List Stmt → List Visit
  | [] => []
  | s :: rest => ⟨inForce start before, .stmt s⟩ :: placed start (before ++ [s]) rest

/- The parts of a node in their namespaces: a namespace body begins in the namespace that it is declared
for, and every other list, body or expression in that of the node. -/
def Visit.parts (v : Visit) : List Visit :=
  match v.node with
  | .stmt (.block _ body) | .stmt (.function _ _ _ body) => placed v.scope [] body
  | .stmt (.scope _ n body) => placed (Walk.declared n) [] (body.getD [])
  | .stmt (.switch _ s cs) =>
    ⟨v.scope, .expr s⟩ :: cs.flatMap fun c =>
      (c.cond?.toList.map .expr).map (⟨v.scope, ·⟩) ++ placed v.scope [] c.body
  | n => n.parts.map (⟨v.scope, ·⟩)

inductive Ruled : List Visit → List Visit → Prop where
  | nil : Ruled [] []
  | cons {v rest inside after} (parts : Ruled v.parts inside) (later : Ruled rest after) :
      Ruled (v :: rest) (v :: (inside ++ after))

namespace Ruled

theorem node {v : Visit} {inside : List Visit} (parts : Ruled v.parts inside) :
    Ruled [v] (v :: inside) := by
  simpa using cons parts nil

theorem append {first second before after : List Visit} (left : Ruled first before)
    (right : Ruled second after) : Ruled (first ++ second) (before ++ after) := by
  induction left with
  | nil => exact right
  | cons parts _ _ ih => simpa using cons parts ih

theorem unique {trees visits other : List Visit} (ruled : Ruled trees visits)
    (again : Ruled trees other) : visits = other := by
  induction ruled generalizing other with
  | nil =>
    cases again
    rfl
  | cons parts later inner rest =>
    cases again with
    | cons parts' later' => rw [inner parts', rest later']

end Ruled

def Node.Tight : Node → Prop
  | .stmt s => s.Tight
  | .expr _ => True

instance (n : Node) : Decidable n.Tight :=
  match n with
  | .stmt s => inferInstanceAs (Decidable s.Tight)
  | .expr _ => .isTrue trivial

def Tight (visits : List Visit) : Prop := ∀ v ∈ visits, v.node.Tight

instance (visits : List Visit) : Decidable (Tight visits) :=
  inferInstanceAs (Decidable (∀ v ∈ visits, v.node.Tight))

namespace Tight

variable {v : Visit} {first second : List Visit}

theorem tail (tight : Tight (v :: second)) : Tight second :=
  fun w member => tight w (List.mem_cons_of_mem v member)

theorem left (tight : Tight (first ++ second)) : Tight first :=
  fun w member => tight w (List.mem_append_left second member)

theorem right (tight : Tight (first ++ second)) : Tight second :=
  fun w member => tight w (List.mem_append_right first member)

end Tight

namespace Walk

mutual

theorem exprRuled (scope : String) (e : Expr) : Ruled [⟨scope, .expr e⟩] (expr scope e) := by
  cases e with
  | dynamicVar r n => exact .node (exprRuled scope n)
  | classConstant r c m => exact .node (exprRuled scope c)
  | unary r op x => exact .node (exprRuled scope x)
  | binary r op x y => exact .node ((exprRuled scope x).append (exprRuled scope y))
  | ternary r c t e =>
    have parts : Visit.parts ⟨scope, .expr (.ternary r c t e)⟩ =
        [⟨scope, .expr c⟩] ++ (t.toList.map .expr).map (⟨scope, ·⟩) ++ [⟨scope, .expr e⟩] := by
      simp [Visit.parts, Node.parts, Expr.parts]
    refine .node ?_
    rw [parts]
    exact ((exprRuled scope c).append (optionRuled scope t)).append (exprRuled scope e)
  | assign r t v => exact .node ((exprRuled scope t).append (exprRuled scope v))
  | index r b d => exact .node ((exprRuled scope b).append (optionRuled scope d))
  | property r o m => exact .node ((exprRuled scope o).append (exprRuled scope m))
  | array r items => exact .node (listRuled scope items)
  | call r f args => exact .node ((exprRuled scope f).append (listRuled scope args))
  | argument r v s b => exact .node (exprRuled scope v)
  | _ => exact .node .nil

theorem optionRuled (scope : String) (e : Option Expr) :
    Ruled ((e.toList.map .expr).map (⟨scope, ·⟩)) (option scope e) := by
  cases e with
  | none => exact .nil
  | some e => exact exprRuled scope e

theorem listRuled (scope : String) (es : List Expr) :
    Ruled ((es.map .expr).map (⟨scope, ·⟩)) (list scope es) := by
  cases es with
  | nil => exact .nil
  | cons e es => exact (exprRuled scope e).append (listRuled scope es)

end

theorem stmtVisited (scope : String) (s : Stmt) : ⟨scope, .stmt s⟩ ∈ (stmt scope s).1 := by
  cases s with
  | scope r n body => cases body <;> exact List.mem_cons_self
  | _ => exact List.mem_cons_self

mutual

theorem stmtRuled (scope : String) (s : Stmt) (tight : Tight (stmt scope s).1) :
    Ruled [⟨scope, .stmt s⟩] (stmt scope s).1 := by
  have own : s.Tight := tight _ (stmtVisited scope s)
  cases s with
  | expr r e => exact .node (exprRuled scope e)
  | block r body => exact .node (stmtsRuled scope [] body tight.tail)
  | branch r c b arms e =>
    obtain ⟨silent, silentArms, -⟩ : b.declarations = [] ∧ Stmt.armDeclarations arms = [] ∧
        Stmt.optionDeclarations e = [] := by
      simpa [Stmt.declarations] using own rfl
    have parts : Visit.parts ⟨scope, .stmt (.branch r c b arms e)⟩ = [⟨scope, .expr c⟩] ++
        [⟨scope, .stmt b⟩] ++ (arms.flatMap Node.ofArm).map (⟨scope, ·⟩) ++
        (e.toList.map .stmt).map (⟨scope, ·⟩) := by
      simp [Visit.parts, Node.parts]
    have keepsArms : (elseifs scope arms).2 = scope := by
      rw [elseifsLeave, silentArms]
      rfl
    have inside := tight.tail
    simp only [stmtKeeps silent, keepsArms] at inside
    have first := (exprRuled scope c).append (stmtRuled scope b tight.tail.left.left.right)
    have middle := elseifsRuled scope arms silentArms inside.left.right
    have last := otherwiseRuled scope e inside.right
    simp only [stmt, stmtKeeps silent, keepsArms]
    refine .node ?_
    rw [parts]
    exact (first.append middle).append last
  | whileLoop r c b =>
    exact .node ((exprRuled scope c).append (stmtRuled scope b tight.tail.right))
  | doLoop r b c =>
    have silent : b.declarations = [] := own rfl
    have inside := stmtRuled scope b tight.tail.left
    simp only [stmt, stmtKeeps silent]
    exact .node (inside.append (exprRuled scope c))
  | switch r s cs =>
    exact .node ((exprRuled scope s).append (casesRuled scope cs (own rfl) tight.tail.right))
  | const r decls => exact .node (listRuled scope (decls.map ConstDecl.value))
  | scope r n body =>
    cases body with
    | none => exact .node .nil
    | some body => exact .node (stmtsRuled (declared n) [] body tight.tail)
  | function r n ps body => exact .node (stmtsRuled scope [] body tight.tail)
  | ret r v => exact .node (optionRuled scope v)
  | echo r vs => exact .node (listRuled scope vs)
  | nop r => exact .node .nil

theorem stmtsRuled (start : String) (before ss : List Stmt)
    (tight : Tight (stmts (inForce start before) ss).1) :
    Ruled (placed start before ss) (stmts (inForce start before) ss).1 := by
  cases ss with
  | nil => exact .nil
  | cons s ss =>
    have own : s.Tight := tight _ (List.mem_append_left _ (stmtVisited _ s))
    have next : (stmt (inForce start before) s).2 = inForce start (before ++ [s]) := by
      rw [inForceNext, tightNext own]
    have first := stmtRuled (inForce start before) s tight.left
    have rest := tight.right
    simp only [next] at rest
    simp only [stmts, next]
    exact first.append (stmtsRuled start (before ++ [s]) ss rest)

theorem elseifsRuled (scope : String) (arms : List ElseIf) (silent : Stmt.armDeclarations arms = [])
    (tight : Tight (elseifs scope arms).1) :
    Ruled ((arms.flatMap Node.ofArm).map (⟨scope, ·⟩)) (elseifs scope arms).1 := by
  cases arms with
  | nil => exact .nil
  | cons arm arms =>
    cases arm with
    | mk c b =>
      obtain ⟨silentBody, silentRest⟩ : b.declarations = [] ∧ Stmt.armDeclarations arms = [] := by
        simpa [Stmt.armDeclarations] using silent
      have body := stmtRuled scope b tight.left.right
      have rest := tight.right
      simp only [stmtKeeps silentBody] at rest
      simp only [elseifs, stmtKeeps silentBody]
      exact ((exprRuled scope c).append body).append (elseifsRuled scope arms silentRest rest)

theorem otherwiseRuled (scope : String) (s : Option Stmt) (tight : Tight (otherwise scope s).1) :
    Ruled ((s.toList.map .stmt).map (⟨scope, ·⟩)) (otherwise scope s).1 := by
  cases s with
  | none => exact .nil
  | some s => exact stmtRuled scope s tight

theorem casesRuled (scope : String) (cs : List SwitchCase) (silent : Stmt.caseDeclarations cs = [])
    (tight : Tight (Walk.cases scope cs).1) :
    Ruled (cs.flatMap fun c => (c.cond?.toList.map .expr).map (⟨scope, ·⟩) ++ placed scope [] c.body)
      (Walk.cases scope cs).1 := by
  cases cs with
  | nil => exact .nil
  | cons c cs =>
    cases c with
    | mk cond body =>
      obtain ⟨silentBody, silentRest⟩ :
          Stmt.listDeclarations body = [] ∧ Stmt.caseDeclarations cs = [] := by
        simpa [Stmt.caseDeclarations] using silent
      have keeps : (stmts scope body).2 = scope := by
        rw [stmtsLeave, silentBody]
        rfl
      have inside := stmtsRuled scope [] body tight.left.right
      have rest := tight.right
      simp only [keeps] at rest
      simp only [Walk.cases, keeps]
      exact ((optionRuled scope cond).append inside).append (casesRuled scope cs silentRest rest)

end

end Walk

theorem namespacesFollowLists (u : SourceUnit) :
    (∀ scope s, (Walk.stmt scope s).2 = s.declarations.getLast?.getD scope) ∧
    (Tight u.visits ↔ ∀ v ∈ u.visits, ∀ s, v.node = .stmt s →
      ∀ scope, (Walk.stmt scope s).2 = s.declares?.getD scope) ∧
    (Tight u.visits → ∀ visits, Ruled (placed "" [] u.stmts) visits ↔ visits = u.visits) := by
  refine ⟨Walk.stmtLeaves, ⟨?_, ?_⟩, fun tight visits => ?_⟩
  · intro tight v member s isStmt
    have own := tight v member
    rw [isStmt] at own
    exact Walk.tightNext own
  · intro follows v member
    cases isStmt : v.node with
    | stmt s =>
      intro silent
      refine (Walk.keepsIff s).mp fun scope => ?_
      rw [follows v member s isStmt scope, silent]
      rfl
    | expr e => trivial
  · have ruled : Ruled (placed "" [] u.stmts) u.visits := Walk.stmtsRuled "" [] u.stmts tight
    constructor
    · intro other
      exact other.unique ruled
    · rintro rfl
      exact ruled

def nested : SourceUnit :=
  ⟨"a.php", [.scope .synthetic (some ⟨["N"], false⟩) none,
    .scope .synthetic none (some [.scope .synthetic (some ⟨["M"], false⟩) none, .nop .synthetic]),
    .nop .synthetic]⟩

theorem nestedFollowsLists :
    Tight nested.visits ∧ Ruled (placed "" [] nested.stmts) nested.visits ∧
    nested.visits.map Visit.scope = ["", "N", "", "M", "N"] := by
  have tight : Tight nested.visits := by decide
  obtain ⟨-, -, follows⟩ := namespacesFollowLists nested
  exact ⟨tight, (follows tight _).mpr rfl, by decide⟩

def leaking : SourceUnit :=
  ⟨"a.php", [.block .synthetic [.scope .synthetic (some ⟨["N"], false⟩) none],
    .expr .synthetic (.var .synthetic "x")]⟩

theorem blockLeaksNamespace :
    leaking.visits.map Visit.scope = ["", "", "N", "N"] ∧
    ¬ Ruled (placed "" [] leaking.stmts) leaking.visits := by
  refine ⟨by decide, fun ruled => ?_⟩
  have inBlock : Ruled [⟨"", .stmt (.block .synthetic [.scope .synthetic (some ⟨["N"], false⟩) none])⟩]
      _ := .node (.node .nil)
  have behind : Ruled [⟨"", .stmt (.expr .synthetic (.var .synthetic "x"))⟩] _ := .node (.node .nil)
  have same := congrArg (List.map Visit.scope) (ruled.unique (inBlock.append behind))
  revert same
  decide

end PhpLint
