import PhpLint.Proofs.Constant.Expansion
import PhpLint.Proofs.Constant.Resolution

/-! The evaluator with memo, cycle floor and depth bound agrees with the plain expansion. A remembered
result may have been found on another path than the one on which it is used, where the expansion
would meet a cycle elsewhere; the two agree because the floor keeps every path-dependent result out of
the memo and because the expansion is a fixed point. Soundness with respect to every solution of the
definitions follows, since the expansion is the least of them.

A run keeps three promises: the memo holds expansions only; a result is never more than the expansion;
and, unless a chain was cut, it is at least the expansion in which only the constants that a cycle led
back to count as being expanded. -/
namespace PhpLint.Constant
open Value (Below unknownBelow)

def blocked (path : List Frame) (floor : Option Nat) : List String :=
  (path.filter fun f => floor.any (· ≤ f.depth)).map Frame.key

theorem lowerReaches {a b : Option Nat} {depth : Nat} :
    (lower a b).any (· ≤ depth) = true ↔
      a.any (· ≤ depth) = true ∨ b.any (· ≤ depth) = true := by
  cases a with
  | none => simp [lower]
  | some a =>
    cases b with
    | none => simp [lower]
    | some b =>
      simp only [lower, Option.any_some, decide_eq_true_eq]
      omega

theorem memBlocked {path : List Frame} {floor : Option Nat} {f : Frame} (member : f ∈ path)
    (reached : floor.any (· ≤ f.depth) = true) : f.key ∈ blocked path floor :=
  List.mem_map.mpr ⟨f, List.mem_filter.mpr ⟨member, reached⟩, rfl⟩

theorem blockedMono {path : List Frame} {high low : Option Nat}
    (down : ∀ depth, high.any (· ≤ depth) = true → low.any (· ≤ depth) = true) :
    blocked path high ⊆ blocked path low := by
  intro key member
  obtain ⟨f, kept, rfl⟩ := List.mem_map.mp member
  obtain ⟨inPath, reached⟩ := List.mem_filter.mp kept
  exact memBlocked inPath (down f.depth reached)

theorem blockedCons (f : Frame) (path : List Frame) (floor : Option Nat) :
    blocked (f :: path) floor ⊆ f.key :: blocked path floor := by
  intro key member
  obtain ⟨g, kept, rfl⟩ := List.mem_map.mp member
  obtain ⟨inPath, reached⟩ := List.mem_filter.mp kept
  rcases List.mem_cons.mp inPath with rfl | above
  · exact List.mem_cons_self
  · exact List.mem_cons_of_mem _ (memBlocked above reached)

namespace Resolution

def Sound (t : Table) (s : Resolution) : Prop :=
  ∀ key v, s.memo[key]? = some v → v = expand t [] key

structure Later (s after : Resolution) : Prop where
  exhausted : s.exhausted = true → after.exhausted = true
  floor : ∀ depth, s.floor.any (· ≤ depth) = true → after.floor.any (· ≤ depth) = true

theorem Later.refl (s : Resolution) : s.Later s := ⟨id, fun _ => id⟩

theorem Later.trans {s middle after : Resolution} (first : s.Later middle)
    (second : middle.Later after) : s.Later after :=
  ⟨fun cut => second.exhausted (first.exhausted cut),
    fun depth reached => second.floor depth (first.floor depth reached)⟩

/- What is known of the constants if only those that a cycle has led back to are cut off; nothing
once a chain was too long. -/
def certain (t : Table) (path : List Frame) (s : Resolution) (key : String) : Value :=
  if s.exhausted then .unknown else expand t (blocked path s.floor) key

theorem certainCut {t : Table} {path : List Frame} {s : Resolution} (cut : s.exhausted = true)
    (key : String) : s.certain t path key = .unknown := by
  rw [certain, if_pos cut]

theorem certainRunning {t : Table} {path : List Frame} {s : Resolution}
    (running : s.exhausted = false) : s.certain t path = expand t (blocked path s.floor) := by
  funext key
  simp [certain, running]

theorem certainBlocked {t : Table} {path : List Frame} {s : Resolution} {key : String}
    (hidden : key ∈ blocked path s.floor) : s.certain t path key = .unknown := by
  cases running : s.exhausted with
  | true => exact certainCut running key
  | false => rw [certainRunning running, expandActive hidden]

theorem certainBelow (t : Table) (path : List Frame) (s : Resolution) (key : String) :
    Below (s.certain t path key) (expand t [] key) := by
  cases running : s.exhausted with
  | true =>
    rw [certainCut running]
    exact unknownBelow _
  | false =>
    rw [certainRunning running]
    exact expandAntitone t (List.nil_subset _) key

theorem Later.certain {s after : Resolution} (later : s.Later after) (t : Table)
    (path : List Frame) (key : String) : Below (after.certain t path key) (s.certain t path key) := by
  cases cut : after.exhausted with
  | true =>
    rw [certainCut cut]
    exact unknownBelow _
  | false =>
    have running : s.exhausted = false := by
      cases before : s.exhausted with
      | false => rfl
      | true => rw [later.exhausted before] at cut; contradiction
    rw [certainRunning cut, certainRunning running]
    exact expandAntitone t (blockedMono later.floor) key

end Resolution

/- The three promises for a result with the given meaning, as a function of the values of all
constants. -/
structure Bounded (t : Table) (path : List Frame) (s : Resolution)
    (meaning : (String → Value) → Value) (r : Value × Resolution) : Prop where
  sound : r.2.Sound t
  later : s.Later r.2
  atLeast : Below (meaning (r.2.certain t path)) r.1
  atMost : Below r.1 (meaning (expand t []))

theorem evaluateBounded {t : Table} {path : List Frame} {scope : String}
    {read : Name → StateM Resolution Value}
    (call : ∀ n s, s.Sound t → Bounded t path s (fun values => t.read values scope n) (read n s))
    (e : Expr) (s : Resolution) (sound : s.Sound t) :
    Bounded t path s (fun values => e.valueWith (t.read values scope)) (e.evaluate read s) := by
  induction e using Expr.evaluationInduction generalizing s with
  | argument r e spread byRef ih => exact ih s sound
  | unary r op e ih =>
    have inner := ih s sound
    exact ⟨inner.sound, inner.later, op.applyMono inner.atLeast, op.applyMono inner.atMost⟩
  | binary r op lhs rhs left right =>
    have first := left s sound
    have second := right _ first.sound
    -- The second operand may lower the floor below what the first one was bounded by.
    have weaker : Below (lhs.valueWith (t.read
        ((rhs.evaluate read (lhs.evaluate read s).2).2.certain t path) scope))
        (lhs.evaluate read s).1 :=
      (Expr.valueWithMono (t.readMono (second.later.certain t path) scope) lhs).trans first.atLeast
    exact ⟨second.sound, first.later.trans second.later, op.applyMono weaker second.atLeast,
      op.applyMono first.atMost second.atMost⟩
  | constant r n => exact call n s sound
  | fixed e v same =>
    have value (values : Name → Value) : e.valueWith values = v := by
      simp only [Expr.valueWith, same]
      rfl
    have run : e.evaluate read s = (v, s) := by
      rw [same]
      rfl
    rw [run]
    refine ⟨sound, .refl s, ?_, ?_⟩
    · simp only [value]
      exact .refl v
    · simp only [value]
      exact .refl v

def Stacked (path : List Frame) : Prop := ∀ f ∈ path, f.depth < path.length

theorem stackedCons {path : List Frame} (stacked : Stacked path) (key : String) :
    Stacked (⟨key, path.length⟩ :: path) := by
  intro f member
  rcases List.mem_cons.mp member with rfl | above
  · exact Nat.lt_succ_self _
  · exact Nat.lt_succ_of_lt (stacked f above)

theorem settledBlocked {path : List Frame} {s : Resolution}
    (stacked : Stacked path) (settled : s.settled path.length = true) :
    blocked path s.floor = [] ∧ s.exhausted = false := by
  simp only [Resolution.settled, Bool.and_eq_true, Bool.not_eq_true'] at settled
  obtain ⟨high, running⟩ := settled
  refine ⟨?_, running⟩
  simp only [blocked, List.map_eq_nil_iff, List.filter_eq_nil_iff]
  intro f member
  have above := stacked f member
  cases floor : s.floor with
  | none => simp
  | some depth =>
    simp only [floor, Option.all_some, decide_eq_true_eq] at high
    simp only [Option.any_some, decide_eq_true_eq]
    omega

theorem definitionAtLeast {t : Table} {path : List Frame} {key : String} {d : Definition}
    {depth : Nat} {s : Resolution} {v : Value} (defined : t.at? key = some d)
    (fresh : ∀ f ∈ path, f.key ≠ key) (running : s.exhausted = false)
    (below : Below (d.expr.valueWith (t.read (s.certain t (⟨key, depth⟩ :: path)) d.scope)) v) :
    Below (expand t (blocked path s.floor) key) v := by
  have outside : key ∉ blocked path s.floor := by
    intro member
    obtain ⟨f, kept, same⟩ := List.mem_map.mp member
    exact fresh f (List.mem_filter.mp kept).1 same
  rw [Resolution.certainRunning running] at below
  rw [expandDefined outside defined]
  exact (Expr.valueWithMono (t.readMono (expandAntitone t (blockedCons _ _ _)) _) _).trans below

theorem leaveSound {t : Table} {s : Resolution} {key : String} {depth : Nat}
    {r : Value × Resolution} (sound : r.2.Sound t)
    (final : r.2.settled depth = true → r.1 = expand t [] key) :
    (s.leave key depth r).2.Sound t := by
  intro k v kept
  simp only [Resolution.leave] at kept
  split at kept
  · rename_i settled
    rw [Std.TreeMap.getElem?_insert] at kept
    split at kept
    · rename_i same
      cases Option.some.inj kept
      rw [← Std.LawfulEqCmp.eq_of_compare same]
      exact final settled
    · exact sound k v kept
  · exact sound k v kept

theorem Bounded.ofKey {t : Table} {path : List Frame} {scope key : String} {n : Name}
    {d : Definition} {s : Resolution} {r : Value × Resolution}
    (found : t.resolve? scope n = some (key, d)) (sound : r.2.Sound t) (later : s.Later r.2)
    (atLeast : Below (r.2.certain t path key) r.1) (atMost : Below r.1 (expand t [] key)) :
    Bounded t path s (fun values => t.read values scope n) r := by
  have read (values : String → Value) : t.read values scope n = values key := by
    simp only [Table.read, found]
  exact ⟨sound, later, by simpa only [read] using atLeast, by simpa only [read] using atMost⟩

theorem enteredBounded {t : Table} {path : List Frame} {scope key : String} {n : Name}
    {d : Definition} {s : Resolution} {r : Value × Resolution}
    (found : t.resolve? scope n = some (key, d)) (fresh : ∀ f ∈ path, f.key ≠ key)
    (stacked : Stacked path)
    (inner : Bounded t (⟨key, path.length⟩ :: path) (s.enter key)
      (fun values => d.expr.valueWith (t.read values d.scope)) r) :
    Bounded t path s (fun values => t.read values scope n) (s.leave key path.length r) := by
  have defined := Table.resolvedAt found
  have most : Below r.1 (expand t [] key) := by
    rw [expandFixed List.not_mem_nil defined]
    exact inner.atMost
  have least (running : r.2.exhausted = false) :
      Below (expand t (blocked path r.2.floor) key) r.1 :=
    definitionAtLeast defined fresh running inner.atLeast
  -- A settled result is cut off by nothing on the path, and then both bounds are the same expansion.
  have settled (final : r.2.settled path.length = true) : r.1 = expand t [] key := by
    obtain ⟨free, running⟩ := settledBlocked stacked final
    have below := least running
    rw [free] at below
    exact most.antisymm below
  have later : s.Later (s.leave key path.length r).2 :=
    ⟨inner.later.exhausted, fun depth reached => lowerReaches.mpr (.inr reached)⟩
  refine .ofKey found (leaveSound inner.sound settled) later ?_ most
  cases running : (s.leave key path.length r).2.exhausted with
  | true =>
    rw [Resolution.certainCut running]
    exact unknownBelow _
  | false =>
    have down : blocked path r.2.floor ⊆ blocked path (s.leave key path.length r).2.floor :=
      blockedMono fun depth reached => lowerReaches.mpr (.inl reached)
    rw [Resolution.certainRunning running]
    exact (expandAntitone t down key).trans (least running)

theorem callBounded {t : Table} {room : Nat} {path : List Frame} {scope : String} {n : Name}
    {s : Resolution} {r : Value × Resolution} (call : Call t path scope n s room r)
    (stacked : Stacked path) (sound : s.Sound t)
    (inner : ∀ less, room = less + 1 → ∀ path scope, Stacked path → ∀ n s, s.Sound t →
      Bounded t path s (fun values => t.read values scope n) (resolveAt t less path scope n s)) :
    Bounded t path s (fun values => t.read values scope n) r := by
  cases call with
  | undefined absent =>
    have read (values : String → Value) : t.read values scope n = n.builtin := by
      simp only [Table.read, absent]
    exact ⟨sound, .refl s, by simp only [read]; exact .refl _, by simp only [read]; exact .refl _⟩
  | remembered found kept =>
    -- Perhaps remembered on another path, where fewer constants were cut off than are here.
    have value := sound _ _ kept
    exact .ofKey found sound (.refl s) (value ▸ s.certainBelow t path _) (.inr value)
  | @cycle _ key d f found missing above =>
    have same : f.key = key := by simpa using List.find?_some above
    have reached : (lower s.floor (some f.depth)).any (· ≤ f.depth) = true :=
      lowerReaches.mpr (.inr (by simp))
    have hidden := memBlocked (List.mem_of_find?_eq_some above) reached
    rw [same] at hidden
    exact .ofKey found sound ⟨id, fun depth before => lowerReaches.mpr (.inl before)⟩
      (.inl (Resolution.certainBlocked hidden)) (unknownBelow _)
  | refused found missing fresh cut =>
    exact .ofKey found sound (.refl s) (.inl (Resolution.certainCut cut _)) (unknownBelow _)
  | tooDeep found missing fresh running =>
    exact .ofKey found sound ⟨fun _ => rfl, fun _ => id⟩ (.inl (Resolution.certainCut rfl _))
      (unknownBelow _)
  | @entered room key d found missing fresh running =>
    have apart : ∀ f ∈ path, f.key ≠ key := by simpa using fresh
    exact enteredBounded found apart stacked
      (evaluateBounded (inner room rfl _ d.scope (stackedCons stacked key)) d.expr (s.enter key) sound)

theorem resolveBounded (t : Table) (room : Nat) (path : List Frame) (scope : String)
    (stacked : Stacked path) (n : Name) (s : Resolution) (sound : s.Sound t) :
    Bounded t path s (fun values => t.read values scope n) (resolveAt t room path scope n s) := by
  induction room, path, scope, n, s using resolveInduction (t := t) with
  | step room path scope n s r call inner =>
    refine callBounded call stacked sound ?_
    intro less same path scope stacked n s sound
    exact inner less same path scope n s stacked sound

theorem runBounded (t : Table) (scope : String) (e : Expr) :
    Bounded t [] .start (fun values => e.valueWith (t.read values scope)) (run t scope e) := by
  have start : Resolution.start.Sound t := by
    intro key v kept
    simp [Resolution.start] at kept
  have calls := resolveBounded t maxDepth [] scope (fun f member => by simp at member)
  exact evaluateBounded calls e .start start

theorem foldBelowExpanded (t : Table) (scope : String) (e : Expr) :
    Below (fold t scope e) (expanded t scope e) := (runBounded t scope e).atMost

theorem expandedBelowFold {t : Table} {scope : String} {e : Expr}
    (running : (run t scope e).2.exhausted = false) :
    Below (expanded t scope e) (fold t scope e) := by
  have least := (runBounded t scope e).atLeast
  rw [Resolution.certainRunning running] at least
  exact least

theorem foldAgreesWithExpansion (t : Table) (scope : String) (e : Expr) :
    ((run t scope e).2.exhausted = false → fold t scope e = expanded t scope e) ∧
    ((run t scope e).2.exhausted = true →
      fold t scope e = .unknown ∨ fold t scope e = expanded t scope e) := by
  refine ⟨?_, fun _ => foldBelowExpanded t scope e⟩
  intro running
  have least := (runBounded t scope e).atLeast
  rw [Resolution.certainRunning running] at least
  exact (foldBelowExpanded t scope e).antisymm least

/- Two constants that refer to each other. Below the first one the second is cut off, but the first is
known from its other operand; read on its own, the second is known as well. -/
def crossed : Table :=
  let reference (name : String) : Expr := .constant .synthetic ⟨[name], false⟩
  (Table.empty.define "X" (.binary .synthetic .boolOr (reference "Y") (reference "true")) "").define
    "Y" (.unary .synthetic .not (reference "X")) ""

def crossedBoth : Expr :=
  .binary .synthetic .boolAnd (.constant .synthetic ⟨["X"], false⟩)
    (.constant .synthetic ⟨["Y"], false⟩)

theorem crossedAgrees : (run crossed "" crossedBoth).2.exhausted = false ∧
    fold crossed "" crossedBoth = expanded crossed "" crossedBoth := by
  have running : (run crossed "" crossedBoth).2.exhausted = false := by decide +kernel
  exact ⟨running, (foldAgreesWithExpansion crossed "" crossedBoth).1 running⟩

theorem foldSound {t : Table} {values : String → Value} (solution : t.Solution values)
    (scope : String) (e : Expr) {v : Value} (folded : fold t scope e = v) (known : v ≠ .unknown) :
    e.valueWith (t.read values scope) = v := by
  have least : Below (expanded t scope e) (e.valueWith (t.read values scope)) :=
    Expr.valueWithMono (t.readMono (expansionLeast solution []) scope) e
  have below := (foldBelowExpanded t scope e).trans least
  rw [folded] at below
  exact (below.eqOfKnown known).symm

def crossedValues (key : String) : Value := .bool (key = "\\X")

theorem eqOfSameBool {x : Value} {b : Bool} (same : (x == .bool b) = true) : x = .bool b := by
  cases x with
  | bool c => exact congrArg Value.bool (eq_of_beq same)
  | _ => contradiction

theorem crossedSolution : crossed.Solution crossedValues := by
  intro key d found
  simp only [crossed, Table.atDefine] at found
  split at found
  · rename_i second
    cases Option.some.inj found
    rw [second]
    exact (eqOfSameBool (by decide +kernel)).symm
  · split at found
    · rename_i first
      cases Option.some.inj found
      rw [first]
      exact (eqOfSameBool (by decide +kernel)).symm
    · simp [Table.empty, Table.at?] at found

theorem crossedSound : crossed.Solution crossedValues ∧
    fold crossed "" crossedBoth = .bool false ∧
    crossedBoth.valueWith (crossed.read crossedValues "") = .bool false := by
  have folded : fold crossed "" crossedBoth = .bool false := eqOfSameBool (by decide +kernel)
  exact ⟨crossedSolution, folded, foldSound crossedSolution "" crossedBoth folded (by simp)⟩

end PhpLint.Constant
