import PhpLint.Proofs.Constant.Growth
import Std.Data.ExtTreeMap

/-! The constants that are being evaluated. `visit` evaluates references as `resolveAt` does, but keeps the
constants on its way, with their depths, in a map of its state: it inserts a constant before it evaluates
the definition, with the size of the map for its depth, and erases it afterwards. Both evaluations do the
same. `Visited` says which calls an evaluation makes, each with the stack of the constants entered so far;
at every one of them the map mirrors this stack. -/
namespace PhpLint.Constant

structure Session where
  visiting : Std.ExtTreeMap String Nat
  found : Resolution

namespace Session

def start : Session := ⟨∅, .start⟩

def enter (s : Session) (key : String) : Session :=
  ⟨s.visiting.insert key s.visiting.size, s.found.enter key⟩

def leave (s : Session) (key : String) (r : Value × Session) : Value × Session :=
  let left := s.found.leave key s.visiting.size (r.1, r.2.found)
  (left.1, ⟨r.2.visiting.erase key, left.2⟩)

end Session

def visitFor (t : Table) : (fuel : Nat) → (scope : String) → Name → StateM Session Value
  | 0, _, _ => fun s => (.unknown, s)
  | fuel + 1, scope, n => fun s =>
    match t.resolve? scope n with
    | none => (n.builtin, s)
    | some (key, d) =>
      match s.found.memo[key]? with
      | some v => (v, s)
      | none =>
        match s.visiting[key]? with
        | some depth => (.unknown, ⟨s.visiting, { s.found with floor := lower s.found.floor (some depth) }⟩)
        | none =>
          if s.found.exhausted then (.unknown, s)
          else if maxDepth ≤ s.visiting.size then
            (.unknown, ⟨s.visiting, { s.found with exhausted := true }⟩)
          else s.leave key (d.expr.evaluate (visitFor t fuel d.scope) (s.enter key))

def visit (t : Table) (scope : String) (n : Name) : StateM Session Value := fun s =>
  visitFor t (maxDepth + 1 - s.visiting.size) scope n s

def visitExpr (t : Table) (scope : String) (e : Expr) : StateM Session Value := e.evaluate (visit t scope)

structure Mirrors (visiting : Std.ExtTreeMap String Nat) (stack : List String) : Prop where
  depths : ∀ (key : String) (depth : Nat), visiting[key]? = some depth ↔ stack[depth]? = some key
  size : visiting.size = stack.length

theorem Mirrors.empty : Mirrors ∅ [] := ⟨by simp, by simp⟩

theorem Mirrors.missing {visiting : Std.ExtTreeMap String Nat} {stack : List String}
    (mirrors : Mirrors visiting stack) {key : String} : visiting[key]? = none ↔ key ∉ stack := by
  rw [Option.eq_none_iff_forall_ne_some, List.mem_iff_getElem?, not_exists]
  exact forall_congr' fun depth => not_congr (mirrors.depths key depth)

theorem Mirrors.insert {visiting : Std.ExtTreeMap String Nat} {stack : List String}
    (mirrors : Mirrors visiting stack) {key : String} (fresh : visiting[key]? = none) :
    Mirrors (visiting.insert key visiting.size) (stack ++ [key]) := by
  have outside : key ∉ stack := mirrors.missing.mp fresh
  refine ⟨?_, ?_⟩
  · intro other depth
    have position : (stack ++ [key])[depth]? = some other ↔
        if key = other then stack.length = depth else stack[depth]? = some other := by grind
    rw [Std.ExtTreeMap.getElem?_insert, mirrors.size, position]
    by_cases same : key = other
    · simp [same]
    · simp [same, mirrors.depths]
  · have absent : visiting.contains key = false := by grind
    rw [Std.ExtTreeMap.size_insert, absent, List.length_append, mirrors.size]
    rfl

theorem insertErase {visiting : Std.ExtTreeMap String Nat} {key : String} (fresh : visiting[key]? = none)
    (depth : Nat) : (visiting.insert key depth).erase key = visiting := by
  refine Std.ExtTreeMap.ext_getElem? fun other => ?_
  rw [Std.ExtTreeMap.getElem?_erase, Std.ExtTreeMap.getElem?_insert]
  by_cases same : key = other
  · simp [← same, fresh]
  · simp [same]

def frames (stack : List String) : List Frame :=
  (stack.zipIdx.map fun (key, depth) => ⟨key, depth⟩).reverse

theorem framesConcat (stack : List String) (key : String) :
    frames (stack ++ [key]) = ⟨key, stack.length⟩ :: frames stack := by
  simp [frames, List.zipIdx_append]

theorem framesLength (stack : List String) : (frames stack).length = stack.length := by
  simp [frames]

theorem framesKeys (stack : List String) : (frames stack).map Frame.key = stack.reverse := by
  simp [frames, Function.comp_def]

theorem memFrames {stack : List String} {f : Frame} : f ∈ frames stack ↔ stack[f.depth]? = some f.key := by
  obtain ⟨key, depth⟩ := f
  simp [frames, List.mem_zipIdx_iff_getElem?]

theorem Mirrors.find {visiting : Std.ExtTreeMap String Nat} {stack : List String}
    (mirrors : Mirrors visiting stack) (key : String) :
    (frames stack).find? (·.key = key) = visiting[key]?.map (⟨key, ·⟩) := by
  cases found : (frames stack).find? (·.key = key) with
  | none =>
    have outside : key ∉ stack := by
      rw [← List.mem_reverse, ← framesKeys]
      simpa using found
    rw [mirrors.missing.mpr outside, Option.map_none]
  | some f =>
    have same : f.key = key := by simpa using List.find?_some found
    have held := (mirrors.depths key f.depth).mpr (same ▸ memFrames.mp (List.mem_of_find?_eq_some found))
    rw [held, Option.map_some, ← same]

theorem Mirrors.free {visiting : Std.ExtTreeMap String Nat} {stack : List String}
    (mirrors : Mirrors visiting stack) {key : String} :
    (frames stack).find? (·.key = key) = none ↔ visiting[key]? = none := by
  rw [mirrors.find, Option.map_eq_none_iff]

def beside (visiting : Std.ExtTreeMap String Nat) (r : Value × Resolution) : Value × Session :=
  (r.1, ⟨visiting, r.2⟩)

theorem evaluateBeside {visiting : Std.ExtTreeMap String Nat} {read : Name → StateM Session Value}
    {plain : Name → StateM Resolution Value}
    (calls : ∀ n s, read n ⟨visiting, s⟩ = beside visiting (plain n s)) (e : Expr) (s : Resolution) :
    e.evaluate read ⟨visiting, s⟩ = beside visiting (e.evaluate plain s) := by
  induction e using Expr.evaluationInduction generalizing s with
  | argument r e spread byRef ih => exact ih s
  | unary r op e ih =>
    simp only [Expr.evaluate, bind, StateT.bind, ih s]
    rfl
  | binary r op lhs rhs left right =>
    have first := left s
    have second := right (lhs.evaluate plain s).2
    unfold beside at first second ⊢
    simp only [Expr.evaluate, bind, StateT.bind, first, second]
    rfl
  | constant r n => exact calls n s
  | fixed e v same =>
    rw [same, same]
    rfl

theorem callBeside {t : Table} {room : Nat} {stack : List String} {visiting : Std.ExtTreeMap String Nat}
    {scope : String} {n : Name} {s : Resolution} {r : Value × Resolution}
    (call : Call t (frames stack) scope n s room r) (mirrors : Mirrors visiting stack)
    (enough : room + stack.length = maxDepth)
    (inner : ∀ less, room = less + 1 → ∀ stack visiting, Mirrors visiting stack →
      less + stack.length = maxDepth → ∀ scope n s, visitFor t (less + 1) scope n ⟨visiting, s⟩ =
        beside visiting (resolveAt t less (frames stack) scope n s)) :
    visitFor t (room + 1) scope n ⟨visiting, s⟩ = beside visiting r := by
  cases call with
  | undefined absent => simp [visitFor, absent, beside]
  | remembered found kept => simp [visitFor, found, kept, beside]
  | @cycle _ key d f found missing above =>
    have held : visiting[key]? = some f.depth := by
      rw [mirrors.find, Option.map_eq_some_iff] at above
      obtain ⟨depth, held, rfl⟩ := above
      exact held
    simp [visitFor, found, missing, held, beside]
  | refused found missing fresh cut =>
    have free := mirrors.free.mp fresh
    simp [visitFor, found, missing, free, cut, beside]
  | tooDeep found missing fresh running =>
    have free := mirrors.free.mp fresh
    have full : maxDepth ≤ visiting.size := by rw [mirrors.size]; omega
    simp [visitFor, found, missing, free, running, full, beside]
  | @entered room key d found missing fresh running =>
    have free := mirrors.free.mp fresh
    have space : ¬ maxDepth ≤ visiting.size := by rw [mirrors.size]; omega
    have calls := inner room rfl (stack ++ [key]) _ (mirrors.insert free) (by simp; omega) d.scope
    -- Inside the definition the map is the longer one throughout, and erasing the constant undoes this.
    have body := evaluateBeside calls d.expr (s.enter key)
    have unfolded : visitFor t (room + 1 + 1) scope n ⟨visiting, s⟩ = Session.leave ⟨visiting, s⟩ key
        (d.expr.evaluate (visitFor t (room + 1) d.scope) (Session.enter ⟨visiting, s⟩ key)) := by
      rw [visitFor]
      simp only [found, missing, free, running, Bool.false_eq_true, if_false, if_neg space]
    rw [unfolded, Session.enter, body, framesConcat, Session.leave, framesLength, ← mirrors.size]
    simp only [beside, insertErase free]
    rfl

theorem visitForBeside {t : Table} {room : Nat} {stack : List String} {visiting : Std.ExtTreeMap String Nat}
    (mirrors : Mirrors visiting stack) (enough : room + stack.length = maxDepth) (scope : String) (n : Name)
    (s : Resolution) : visitFor t (room + 1) scope n ⟨visiting, s⟩ =
      beside visiting (resolveAt t room (frames stack) scope n s) := by
  induction room generalizing stack visiting scope n s with
  | zero =>
    refine callBeside (resolveCall t 0 (frames stack) scope n s) mirrors enough ?_
    intro less impossible
    contradiction
  | succ room ih =>
    refine callBeside (resolveCall t (room + 1) (frames stack) scope n s) mirrors enough ?_
    intro less same stack visiting mirrors enough scope n s
    cases same
    exact ih mirrors enough scope n s

namespace Session

/- The constants that are being evaluated are different ones of the table, at the depths at which they were
entered and not more than allowed; none of them is remembered. A chain was cut only if the table is large. -/
structure Consistent (t : Table) (stack : List String) (s : Session) : Prop where
  mirrors : Mirrors s.visiting stack
  distinct : stack.Nodup
  defined : ∀ key ∈ stack, ∃ d, t.at? key = some d
  bounded : stack.length ≤ maxDepth
  apart : ∀ (key : String), s.visiting[key]? ≠ none → s.found.memo[key]? = none
  cut : s.found.exhausted = true → maxDepth < t.size

theorem Consistent.begins (t : Table) : Session.start.Consistent t [] := by
  refine ⟨.empty, List.nodup_nil, ?_, Nat.zero_le _, ?_, ?_⟩
  · intro key member
    contradiction
  · intro key held
    exact absurd (by simp [Session.start]) held
  · intro cut
    contradiction

theorem Consistent.enter {t : Table} {stack : List String} {s : Session} (consistent : s.Consistent t stack)
    {key : String} {d : Definition} (defined : t.at? key = some d) (missing : s.found.memo[key]? = none)
    (fresh : s.visiting[key]? = none) (space : s.visiting.size < maxDepth) :
    (s.enter key).Consistent t (stack ++ [key]) := by
  have outside : key ∉ stack := consistent.mirrors.missing.mp fresh
  refine ⟨consistent.mirrors.insert fresh, ?_, ?_, ?_, ?_, consistent.cut⟩
  · rw [← List.concat_eq_append]
    exact consistent.distinct.concat outside
  · intro other member
    rcases List.mem_append.mp member with before | last
    · exact consistent.defined other before
    · rw [List.mem_singleton.mp last]
      exact ⟨d, defined⟩
  · rw [List.length_append, ← consistent.mirrors.size]
    exact space
  · intro other held
    by_cases same : key = other
    · exact same ▸ missing
    · refine consistent.apart other ?_
      simpa [Session.enter, Std.ExtTreeMap.getElem?_insert, same] using held

end Session

theorem unexpandedRest {t : Table} {keys : List String} (distinct : keys.Nodup)
    (defined : ∀ key ∈ keys, ∃ d, t.at? key = some d) : (t.unexpanded keys).length + keys.length ≤ t.size := by
  induction keys with
  | nil => simp [Table.unexpanded, Table.size, Std.TreeMap.length_keys]
  | cons key keys ih =>
    obtain ⟨outside, rest⟩ := List.nodup_cons.mp distinct
    obtain ⟨d, found⟩ := defined key List.mem_cons_self
    have smaller := Table.unexpandedDecreases outside found
    have before := ih rest fun other member => defined other (List.mem_cons_of_mem _ member)
    rw [List.length_cons]
    omega

theorem visitBeside {t : Table} {stack : List String} {s : Session} (consistent : s.Consistent t stack)
    (scope : String) (e : Expr) : visitExpr t scope e s = beside s.visiting
      (e.evaluate (resolveAt t (maxDepth - stack.length) (frames stack) scope) s.found) := by
  have bounded := consistent.bounded
  refine evaluateBeside ?_ e s.found
  intro n found
  have fuel : maxDepth + 1 - s.visiting.size = maxDepth - stack.length + 1 := by
    rw [consistent.mirrors.size]
    omega
  rw [visit, fuel]
  exact visitForBeside consistent.mirrors (by omega) scope n found

theorem visitUncut {t : Table} {stack : List String} {s : Session} (consistent : s.Consistent t stack)
    (small : t.size ≤ maxDepth) (running : s.found.exhausted = false) (scope : String) (e : Expr) :
    (visitExpr t scope e s).2.found.exhausted = false := by
  have rest := unexpandedRest (List.nodup_reverse.mpr consistent.distinct)
    fun key member => consistent.defined key (List.mem_reverse.mp member)
  have enough : (t.unexpanded ((frames stack).map Frame.key)).length ≤ maxDepth - stack.length := by
    rw [framesKeys]
    rw [List.length_reverse] at rest
    omega
  rw [visitBeside consistent]
  exact evaluateKeeps (fun n _ => resolveRoomy enough scope n) s.found running

theorem visitConsistent {t : Table} {stack : List String} {s : Session} (consistent : s.Consistent t stack)
    (scope : String) (e : Expr) : (visitExpr t scope e s).2.Consistent t stack ∧
      (visitExpr t scope e s).2.visiting = s.visiting ∧ s.found.Extends (visitExpr t scope e s).2.found := by
  have apart : s.found.Apart (frames stack) := by
    intro f member
    have held := (consistent.mirrors.depths f.key f.depth).mpr (memFrames.mp member)
    exact consistent.apart f.key (by simp [held])
  have calls := resolveExtends t (maxDepth - stack.length) (frames stack) scope
  obtain ⟨free, later⟩ := evaluateExtends calls e s.found apart
  have uncut := fun small running => visitUncut consistent small running scope e
  -- The map does not change, so what it says about the stack is known already.
  rw [visitBeside consistent] at uncut ⊢
  refine ⟨⟨consistent.mirrors, consistent.distinct, consistent.defined, consistent.bounded, ?_, ?_⟩, rfl, later⟩
  · intro key held
    obtain ⟨depth, position⟩ := Option.ne_none_iff_exists'.mp held
    exact free ⟨key, depth⟩ (memFrames.mpr ((consistent.mirrors.depths key depth).mp position))
  · intro cut
    by_contra small
    cases running : s.found.exhausted with
    | true => exact small (consistent.cut running)
    | false =>
      rw [uncut (Nat.not_lt.mp small) running] at cut
      contradiction

/- The calls that the evaluation of an expression makes: where, for which expression and in which state, and
which constants were entered on the way and not left, the first one first. -/
inductive Visited (t : Table) (scope : String) (e : Expr) :
    (stack : List String) → (place : String) → (part : Expr) → (s : Session) → Prop where
  | start : Visited t scope e [] scope e .start
  | argument {stack place r part spread byRef s}
      (call : Visited t scope e stack place (.argument r part spread byRef) s) :
      Visited t scope e stack place part s
  | operand {stack place r op part s} (call : Visited t scope e stack place (.unary r op part) s) :
      Visited t scope e stack place part s
  | left {stack place r op lhs rhs s} (call : Visited t scope e stack place (.binary r op lhs rhs) s) :
      Visited t scope e stack place lhs s
  | right {stack place r op lhs rhs s} (call : Visited t scope e stack place (.binary r op lhs rhs) s) :
      Visited t scope e stack place rhs (visitExpr t place lhs s).2
  | definition {stack place r n s key d} (call : Visited t scope e stack place (.constant r n) s)
      (found : t.resolve? place n = some (key, d)) (missing : s.found.memo[key]? = none)
      (fresh : s.visiting[key]? = none) (running : s.found.exhausted = false)
      (space : s.visiting.size < maxDepth) :
      Visited t scope e (stack ++ [key]) d.scope d.expr (s.enter key)

theorem visitedConsistent {t : Table} {scope place : String} {e part : Expr} {stack : List String}
    {s : Session} (call : Visited t scope e stack place part s) : s.Consistent t stack := by
  induction call with
  | start => exact .begins t
  | argument call ih => exact ih
  | operand call ih => exact ih
  | left call ih => exact ih
  | right call ih => exact (visitConsistent ih _ _).1
  | definition call found missing fresh running space ih =>
    exact ih.enter (Table.resolvedAt found) missing fresh space

def Enters (t : Table) (scope : String) (e : Expr) (key : String) : Prop :=
  ∃ stack place part s, Visited t scope e (stack ++ [key]) place part s

theorem callEnters {t : Table} {scope place : String} {e : Expr} {stack : List String} {r : Range} {n : Name}
    {s : Session} {room : Nat} {result : Value × Resolution}
    (visited : Visited t scope e stack place (.constant r n) s) (left : room = maxDepth - stack.length)
    (call : Call t (frames stack) place n s.found room result)
    (inner : ∀ less, room = less + 1 → ∀ stack place part s, less = maxDepth - stack.length →
      Visited t scope e stack place part s → ∀ key ∈ (visitExpr t place part s).2.found.entered,
        key ∈ s.found.entered ∨ Enters t scope e key) :
    ∀ key ∈ result.2.entered, key ∈ s.found.entered ∨ Enters t scope e key := by
  intro key entered
  cases call with
  | undefined absent => exact .inl entered
  | remembered found kept => exact .inl entered
  | cycle found missing above => exact .inl entered
  | refused found missing fresh cut => exact .inl entered
  | tooDeep found missing fresh running => exact .inl entered
  | @entered room here d found missing fresh running =>
    have consistent := visitedConsistent visited
    have free := consistent.mirrors.free.mp fresh
    have size := consistent.mirrors.size
    have space : s.visiting.size < maxDepth := by omega
    have below := visited.definition found missing free running space
    have rest : room = maxDepth - (stack ++ [here]).length := by simp; omega
    have inside : key ∈ (visitExpr t d.scope d.expr (s.enter here)).2.found.entered := by
      rw [visitBeside (visitedConsistent below), ← rest, framesConcat, ← framesLength]
      exact entered
    rcases inner room rfl _ _ _ _ rest below key inside with before | deeper
    · rcases List.mem_cons.mp before with rfl | earlier
      · exact .inr ⟨stack, _, _, _, below⟩
      · exact .inl earlier
    · exact .inr deeper

theorem visitEnters {t : Table} {scope : String} {e : Expr} (room : Nat) :
    ∀ stack place part s, room = maxDepth - stack.length → Visited t scope e stack place part s →
      ∀ key ∈ (visitExpr t place part s).2.found.entered, key ∈ s.found.entered ∨ Enters t scope e key := by
  -- Outside, the room that is left, for the definitions that are entered; inside, the expression.
  induction room using Nat.strongRecOn with
  | ind room deeper =>
    intro stack place part s left visited
    induction part using Expr.evaluationInduction generalizing s with
    | argument r part spread byRef ih => exact ih s visited.argument
    | unary r op part ih => exact ih s visited.operand
    | binary r op lhs rhs first second =>
      intro key entered
      rcases second _ visited.right key entered with before | found
      · exact first s visited.left key before
      · exact .inr found
    | constant r n =>
      intro key entered
      rw [visitBeside (visitedConsistent visited), ← left] at entered
      refine callEnters visited left (resolveCall t room (frames stack) place n s.found) ?_ key entered
      intro less same
      exact deeper less (by omega)
    | fixed part v same =>
      intro key entered
      rw [visitExpr, same] at entered
      exact .inl entered

theorem runVisits (t : Table) (scope : String) (e : Expr) :
    visitExpr t scope e .start = beside ∅ (run t scope e) := visitBeside (.begins t) scope e

theorem visitingMirrorsStack (t : Table) (scope : String) (e : Expr) :
    visitExpr t scope e .start = beside ∅ (run t scope e) ∧
    (∀ key ∈ (run t scope e).2.entered, Enters t scope e key) ∧
    (∀ stack place part s, Visited t scope e stack place part s →
      let after := (visitExpr t place part s).2
      s.Consistent t stack ∧ after.Consistent t stack ∧ after.visiting = s.visiting ∧
        s.found.Extends after.found) ∧
    (t.size ≤ maxDepth → (run t scope e).2.exhausted = false ∧
      ∀ stack place part s, Visited t scope e stack place part s → s.found.exhausted = false ∧
        (visitExpr t place part s).2.found.exhausted = false) := by
  refine ⟨runVisits t scope e, ?_, ?_, ?_⟩
  · intro key entered
    have visits := visitEnters maxDepth [] scope e .start rfl (.start (t := t)) key
    rw [runVisits] at visits
    rcases visits entered with never | enters
    · contradiction
    · exact enters
  · intro stack place part s visited
    have before := visitedConsistent visited
    exact ⟨before, visitConsistent before place part⟩
  · intro small
    refine ⟨uncutSmall small scope e, ?_⟩
    intro stack place part s visited
    have before := visitedConsistent visited
    have running : s.found.exhausted = false := by
      by_contra cut
      exact absurd (before.cut (by simpa using cut)) (Nat.not_lt.mpr small)
    exact ⟨running, visitUncut before small running place part⟩

theorem crossedMirrored :
    let reference (name : String) : Expr := .constant .synthetic ⟨[name], false⟩
    let s := (Session.start.enter "\\X").enter "\\Y"
    let back : Expr := .unary .synthetic .not (reference "X")
    (Visited crossed "" (reference "X") ["\\X", "\\Y"] "" back s ∧ crossed.size ≤ maxDepth) ∧
    s.Consistent crossed ["\\X", "\\Y"] ∧ (visitExpr crossed "" back s).2.visiting = s.visiting ∧
    s.visiting["\\Y"]? = some 1 ∧ (visitExpr crossed "" back s).2.found.exhausted = false := by
  intro reference s back
  have toX : crossed.resolve? "" ⟨["X"], false⟩ =
      some ("\\X", ⟨.binary .synthetic .boolOr (reference "Y") (reference "true"), ""⟩) := by rfl
  have toY : crossed.resolve? "" ⟨["Y"], false⟩ = some ("\\Y", ⟨back, ""⟩) := by rfl
  have first : Visited crossed "" (reference "X") ["\\X"] "" _ (Session.start.enter "\\X") :=
    .definition .start toX (by rfl) (by decide +kernel) rfl (by decide +kernel)
  have visited : Visited crossed "" (reference "X") ["\\X", "\\Y"] "" back s :=
    .definition first.left toY (by rfl) (by decide +kernel) rfl (by decide +kernel)
  have small : crossed.size ≤ maxDepth := by decide +kernel
  obtain ⟨-, -, kept, uncut⟩ := visitingMirrorsStack crossed "" (reference "X")
  obtain ⟨before, -, restored, -⟩ := kept _ _ _ _ visited
  exact ⟨⟨visited, small⟩, before, restored, (before.mirrors.depths "\\Y" 1).mpr rfl,
    ((uncut small).2 _ _ _ _ visited).2⟩

end PhpLint.Constant
