import PhpLint.Proofs.Tree.Equivalence

/-! What a tree keeps when its ranges are erased: everything that calls, arguments and comparisons of
trees look at. Erasing twice is erasing once, so a tree is the same as the one without its ranges. -/
namespace PhpLint

namespace Expr

theorem erasedListMap (es : List Expr) : erasedList es = es.map erased := by
  induction es with
  | nil => rfl
  | cons e es ih => rw [erasedList, ih, List.map_cons]

mutual

theorem erasedTwice (e : Expr) : e.erased.erased = e.erased := by
  cases e with
  | dynamicVar r n => simp [erased, erasedTwice n]
  | classConstant r c m => simp [erased, erasedTwice c]
  | unary r op x => simp [erased, erasedTwice x]
  | binary r op x y => simp [erased, erasedTwice x, erasedTwice y]
  | ternary r c t e => simp [erased, erasedTwice c, erasedTwiceOption t, erasedTwice e]
  | assign r t v => simp [erased, erasedTwice t, erasedTwice v]
  | index r b d => simp [erased, erasedTwice b, erasedTwiceOption d]
  | property r o m => simp [erased, erasedTwice o, erasedTwice m]
  | array r items => simp [erased, erasedTwiceList items]
  | call r f args => simp [erased, erasedTwice f, erasedTwiceList args]
  | argument r v s b => simp [erased, erasedTwice v]
  | _ => rfl

theorem erasedTwiceOption (e : Option Expr) : erasedOption (erasedOption e) = erasedOption e := by
  cases e with
  | none => rfl
  | some e => simp [erasedOption, erasedTwice e]

theorem erasedTwiceList (es : List Expr) : erasedList (erasedList es) = erasedList es := by
  cases es with
  | nil => rfl
  | cons e es => simp [erasedList, erasedTwice e, erasedTwiceList es]

end

theorem sameAsErased (e : Expr) : e.same e.erased = true :=
  (sameErased e e.erased).mpr (erasedTwice e).symm

theorem sameSimpleErased (a b : Expr) : a.erased.sameSimple b.erased = a.sameSimple b := by
  have bare {e : Expr} (simple : e.Simple) : e.sameSimple e.erased = true :=
    simpleOfSame simple (sameAsErased e)
  have ranged {e : Expr} (simple : e.erased.Simple) : e.erased.sameSimple e = true :=
    simpleOfSame simple ((sameErased e.erased e).mpr (erasedTwice e))
  rw [Bool.eq_iff_iff]
  constructor
  · intro pair
    obtain ⟨-, left, right⟩ := sameOfSimple pair
    exact sameSimpleTrans (sameSimpleSymm (ranged left)) (sameSimpleTrans pair (ranged right))
  · intro pair
    obtain ⟨-, left, right⟩ := sameOfSimple pair
    exact sameSimpleTrans (sameSimpleSymm (bare left)) (sameSimpleTrans pair (bare right))

theorem callToErased (e : Expr) (function : String) :
    e.erased.callTo? function = (e.callTo? function).map (List.map erased) := by
  cases e with
  | call r f given =>
    cases f with
    | name r' n =>
      by_cases called : n.isFunction function = true
      · simp [erased, callTo?, callee?, args, called, erasedListMap]
      · simp [erased, callTo?, callee?, called]
    | _ => rfl
  | _ => rfl

theorem argumentErased (e : Expr) : e.erased.argumentValue? = e.argumentValue?.map erased := by
  cases e <;> rfl

theorem rangeErased (e : Expr) : e.erased.range = .synthetic := by
  cases e <;> rfl

theorem isStringErased (e : Expr) : e.erased.isString = e.isString := by
  cases e <;> rfl

end Expr

theorem ConstDecl.erasedTwice (d : ConstDecl) : d.erased.erased = d.erased := by
  simp [erased, d.value.erasedTwice]

namespace Stmt

mutual

theorem erasedTwice (s : Stmt) : s.erased.erased = s.erased := by
  cases s with
  | expr r e => simp [erased, e.erasedTwice]
  | block r body => simp [erased, erasedTwiceList body]
  | branch r c b arms e =>
    simp [erased, c.erasedTwice, erasedTwice b, erasedTwiceArms arms, erasedTwiceOption e]
  | whileLoop r c b => simp [erased, c.erasedTwice, erasedTwice b]
  | doLoop r b c => simp [erased, erasedTwice b, c.erasedTwice]
  | switch r c cs => simp [erased, c.erasedTwice, erasedTwiceCases cs]
  | const r decls => simp [erased, ConstDecl.erasedTwice]
  | scope r n body => simp [erased, erasedTwiceBody body]
  | function r n ps body => simp [erased, erasedTwiceList body]
  | ret r v => simp [erased, Expr.erasedTwiceOption v]
  | echo r vs => simp [erased, Expr.erasedTwiceList vs]
  | nop r => rfl

theorem erasedTwiceOption (s : Option Stmt) : erasedOption (erasedOption s) = erasedOption s := by
  cases s with
  | none => rfl
  | some s => simp [erasedOption, erasedTwice s]

theorem erasedTwiceList (ss : List Stmt) : erasedList (erasedList ss) = erasedList ss := by
  cases ss with
  | nil => rfl
  | cons s ss => simp [erasedList, erasedTwice s, erasedTwiceList ss]

theorem erasedTwiceBody (body : Option (List Stmt)) :
    erasedBody (erasedBody body) = erasedBody body := by
  cases body with
  | none => rfl
  | some body => simp [erasedBody, erasedTwiceList body]

theorem erasedTwiceArms (arms : List ElseIf) : erasedArms (erasedArms arms) = erasedArms arms := by
  cases arms with
  | nil => rfl
  | cons arm arms =>
    cases arm with
    | mk c b => simp [erasedArms, c.erasedTwice, erasedTwice b, erasedTwiceArms arms]

theorem erasedTwiceCases (cs : List SwitchCase) : erasedCases (erasedCases cs) = erasedCases cs := by
  cases cs with
  | nil => rfl
  | cons c cs =>
    cases c with
    | mk c b =>
      simp [erasedCases, Expr.erasedTwiceOption c, erasedTwiceList b, erasedTwiceCases cs]

end

theorem equivalentErased (a b : Stmt) : a.erased.equivalent b.erased = a.equivalent b := by
  rw [Bool.eq_iff_iff, equivalentIff, equivalentIff, sameErased, sameErased, erasedTwice, erasedTwice]

end Stmt
end PhpLint
