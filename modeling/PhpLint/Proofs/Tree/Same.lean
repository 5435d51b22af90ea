import PhpLint.Tree.Stmt

/-! Comparing trees without their ranges. `erased` puts the synthetic range in the place of every range of
a tree, and two trees are the same exactly when nothing is left to tell them apart. So the comparison
inherits all laws of equality. -/
namespace PhpLint

namespace Expr

mutual

def erased : Expr → Expr
  | integer _ raw => integer .synthetic raw
  | float _ raw => float .synthetic raw
  | string _ raw => string .synthetic raw
  | var _ n => var .synthetic n
  | dynamicVar _ n => dynamicVar .synthetic n.erased
  | identifier _ t => identifier .synthetic t
  | name _ n => name .synthetic n
  | constant _ n => constant .synthetic n
  | classConstant _ c m => classConstant .synthetic c.erased m
  | unary _ op x => unary .synthetic op x.erased
  | binary _ op x y => binary .synthetic op x.erased y.erased
  | ternary _ c t e => ternary .synthetic c.erased (erasedOption t) e.erased
  | assign _ t v => assign .synthetic t.erased v.erased
  | index _ b d => index .synthetic b.erased (erasedOption d)
  | property _ o m => property .synthetic o.erased m.erased
  | array _ items => array .synthetic (erasedList items)
  | call _ f args => call .synthetic f.erased (erasedList args)
  | argument _ v s b => argument .synthetic v.erased s b

def erasedOption : Option Expr → Option Expr
  | none => none
  | some e => some e.erased

def erasedList : List Expr → List Expr
  | [] => []
  | e :: es => e.erased :: erasedList es

end

mutual

theorem sameErased (a b : Expr) : a.same b = true ↔ a.erased = b.erased := by
  cases a with
  | dynamicVar r x => cases b <;> simp [same, erased, sameErased x]
  | classConstant r x m => cases b <;> simp [same, erased, sameErased x]
  | unary r o x => cases b <;> simp [same, erased, sameErased x]
  | binary r o x y => cases b <;> simp [same, erased, sameErased x, sameErased y, and_assoc]
  | ternary r c t e =>
    cases b <;> simp [same, erased, sameErased c, sameOptionErased t, sameErased e, and_assoc]
  | assign r t v => cases b <;> simp [same, erased, sameErased t, sameErased v]
  | index r x d => cases b <;> simp [same, erased, sameErased x, sameOptionErased d]
  | property r o m => cases b <;> simp [same, erased, sameErased o, sameErased m]
  | array r xs => cases b <;> simp [same, erased, sameListErased xs]
  | call r f xs => cases b <;> simp [same, erased, sameErased f, sameListErased xs]
  | argument r v s t => cases b <;> simp [same, erased, sameErased v, and_assoc]
  | _ => cases b <;> simp [same, erased]

theorem sameOptionErased (a b : Option Expr) :
    sameOption a b = true ↔ erasedOption a = erasedOption b := by
  cases a with
  | none => cases b <;> simp [sameOption, erasedOption]
  | some x => cases b <;> simp [sameOption, erasedOption, sameErased x]

theorem sameListErased (as bs : List Expr) :
    sameList as bs = true ↔ erasedList as = erasedList bs := by
  cases as with
  | nil => cases bs <;> simp [sameList, erasedList]
  | cons a as => cases bs <;> simp [sameList, erasedList, sameErased a, sameListErased as]

end

theorem sameRefl (e : Expr) : e.same e = true := (sameErased e e).mpr rfl

end Expr

namespace ConstDecl

def erased (d : ConstDecl) : ConstDecl := ⟨d.name, .synthetic, d.value.erased⟩

theorem sameErased (a b : ConstDecl) : a.same b = true ↔ a.erased = b.erased := by
  simp [same, erased, Expr.sameErased a.value b.value]

theorem sameListErased (as bs : List ConstDecl) :
    sameList as bs = true ↔ as.map erased = bs.map erased := by
  induction as generalizing bs with
  | nil => cases bs <;> simp [sameList]
  | cons a as ih =>
    cases bs with
    | nil => simp [sameList]
    | cons b bs => simp [sameList, sameErased a b, ih]

end ConstDecl

namespace Stmt

mutual

def erased : Stmt → Stmt
  | expr _ e => expr .synthetic e.erased
  | block _ body => block .synthetic (erasedList body)
  | branch _ c b arms e =>
    branch .synthetic c.erased b.erased (erasedArms arms) (erasedOption e)
  | whileLoop _ c b => whileLoop .synthetic c.erased b.erased
  | doLoop _ b c => doLoop .synthetic b.erased c.erased
  | switch _ s cs => switch .synthetic s.erased (erasedCases cs)
  | const _ decls => const .synthetic (decls.map ConstDecl.erased)
  | scope _ n body => scope .synthetic n (erasedBody body)
  | function _ n ps body => function .synthetic n ps (erasedList body)
  | ret _ v => ret .synthetic (Expr.erasedOption v)
  | echo _ vs => echo .synthetic (Expr.erasedList vs)
  | nop _ => nop .synthetic

def erasedOption : Option Stmt → Option Stmt
  | none => none
  | some s => some s.erased

def erasedList : List Stmt → List Stmt
  | [] => []
  | s :: ss => s.erased :: erasedList ss

def erasedBody : Option (List Stmt) → Option (List Stmt)
  | none => none
  | some body => some (erasedList body)

def erasedArms : List ElseIf → List ElseIf
  | [] => []
  | .mk c b :: arms => .mk c.erased b.erased :: erasedArms arms

def erasedCases : List SwitchCase → List SwitchCase
  | [] => []
  | .mk c b :: cs => .mk (Expr.erasedOption c) (erasedList b) :: erasedCases cs

end

mutual

theorem sameErased (a b : Stmt) : a.same b = true ↔ a.erased = b.erased := by
  cases a with
  | expr r e => cases b <;> simp [same, erased, e.sameErased]
  | block r xs => cases b <;> simp [same, erased, sameListErased xs]
  | branch r c x arms e =>
    cases b <;> simp [same, erased, c.sameErased, sameErased x, sameArmsErased arms,
      sameOptionErased e, and_assoc]
  | whileLoop r c x => cases b <;> simp [same, erased, c.sameErased, sameErased x]
  | doLoop r x c => cases b <;> simp [same, erased, sameErased x, c.sameErased]
  | switch r c cs => cases b <;> simp [same, erased, c.sameErased, sameCasesErased cs]
  | const r ds => cases b <;> simp [same, erased, ConstDecl.sameListErased ds]
  | scope r n x => cases b <;> simp [same, erased, sameBodyErased x]
  | function r n ps xs => cases b <;> simp [same, erased, sameListErased xs, and_assoc]
  | ret r v => cases b <;> simp [same, erased, Expr.sameOptionErased v]
  | echo r vs => cases b <;> simp [same, erased, Expr.sameListErased vs]
  | nop r => cases b <;> simp [same, erased]

theorem sameOptionErased (a b : Option Stmt) :
    sameOption a b = true ↔ erasedOption a = erasedOption b := by
  cases a with
  | none => cases b <;> simp [sameOption, erasedOption]
  | some x => cases b <;> simp [sameOption, erasedOption, sameErased x]

theorem sameListErased (as bs : List Stmt) :
    sameList as bs = true ↔ erasedList as = erasedList bs := by
  cases as with
  | nil => cases bs <;> simp [sameList, erasedList]
  | cons a as => cases bs <;> simp [sameList, erasedList, sameErased a, sameListErased as]

theorem sameBodyErased (a b : Option (List Stmt)) :
    sameBody a b = true ↔ erasedBody a = erasedBody b := by
  cases a with
  | none => cases b <;> simp [sameBody, erasedBody]
  | some xs => cases b <;> simp [sameBody, erasedBody, sameListErased xs]

theorem sameArmsErased (as bs : List ElseIf) :
    sameArms as bs = true ↔ erasedArms as = erasedArms bs := by
  cases as with
  | nil => rcases bs with _ | ⟨⟨d, y⟩, bs⟩ <;> simp [sameArms, erasedArms]
  | cons a as =>
    cases a with
    | mk c x =>
      rcases bs with _ | ⟨⟨d, y⟩, bs⟩ <;>
        simp [sameArms, erasedArms, c.sameErased, sameErased x, sameArmsErased as]

theorem sameCasesErased (as bs : List SwitchCase) :
    sameCases as bs = true ↔ erasedCases as = erasedCases bs := by
  cases as with
  | nil => rcases bs with _ | ⟨⟨d, y⟩, bs⟩ <;> simp [sameCases, erasedCases]
  | cons a as =>
    cases a with
    | mk c x =>
      rcases bs with _ | ⟨⟨d, y⟩, bs⟩ <;>
        simp [sameCases, erasedCases, Expr.sameOptionErased c, sameListErased x, sameCasesErased as]

end

end Stmt
end PhpLint
