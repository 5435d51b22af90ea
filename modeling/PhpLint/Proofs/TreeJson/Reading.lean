import PhpLint.Proofs.Tree.Same
import PhpLint.Proofs.TreeJson.Located

/-! Reading expressions from looser spellings of their JSON form. Every spelling can be read; what is read is
the same as the written expression but for its ranges, and it is written as the full value behind the
spelling. Where nothing was lost it is the written expression itself, with every range. -/
namespace PhpLint

open Json (handed Relaxed RelaxedItems Field records)

/- The value `b` that was read from a spelling of `a`, with the full form behind the spelling. -/
structure Json.Behind {α β : Type} (write : α → β) (alike : α → α → Bool) (a b : α) (full : β) : Prop where
  written : write b = full
  alike : alike a b = true
  exact : write b = write a → b = a

def Json.Reads {α β : Type} (loose : β → β → β → Prop) (write : α → β) (read : β → Option α)
    (alike : α → α → Bool) (a : α) : Prop :=
  ∀ ⦃j k⦄, loose (write a) j k → ∃ b, read j = some b ∧ Behind write alike a b k

theorem Json.Reads.field {α : Type} {write : α → Json} {read : Json → Option α} {alike : α → α → Bool} {a : α}
    (reads : Reads Relaxed write read alike a) {ns : List (String × Json)} {key : String} {x : Json}
    (field : Field ns key (write a) x) (named : key ∉ ["range", "fully_qualified"])
    (present : (write a).filled = true) :
    ∃ w inside b, (ofMembers ns).required? key = some ⟨w, inside⟩ ∧ read w = some b ∧
      Behind write alike a b x := by
  obtain ⟨w, inside, found, value⟩ := field.required named present
  obtain ⟨b, readB, behind⟩ := reads value
  exact ⟨w, inside, b, found, readB, behind⟩

namespace Expr

def Reads : Expr → Prop := Json.Reads Relaxed toJson ofJson? same

def ListReads : List Expr → Prop := Json.Reads (RelaxedItems Relaxed) listToJson ofList? sameList

theorem opened {e : Expr} {j k : Json} (relaxed : Relaxed e.toJson j k) :
    ∃ r c x, ofJson? j = ofContent? r e.kind c ∧ Relaxed e.content c x ∧
      k = .located (.obj [(e.kind, x)]) r := by
  have isCase : [e.kind] ∉ records := by cases e <;> simp [kind, records]
  obtain ⟨node, r, c, x, inside, shape, place, found, content, rfl⟩ := Relaxed.opened relaxed isCase
  refine ⟨r, c, x, ?_, content, rfl⟩
  rw [ofJson?]
  simp only [Option.bind_eq_bind, handed shape, place, Option.bind_some, handed found, Json.case?]
  rfl

theorem folded (e : Expr) : Json.located (.obj [(e.kind, e.content)]) e.range = e.toJson := rfl

attribute [local simp] ofContent?

theorem readsLeaf {e : Expr} (leaf : ∀ {c x}, Relaxed e.content c x →
    x = e.content ∧ ∀ r, ofContent? r e.kind c = some (e.withRange r)) : e.Reads := by
  intro j k relaxed
  obtain ⟨r, c, x, read, inner, rfl⟩ := opened relaxed
  obtain ⟨rfl, content⟩ := leaf inner
  refine ⟨e.withRange r, read.trans (content r), ?_, ?_, ?_⟩
  · cases e <;> rfl
  · exact (sameErased _ _).mpr (by cases e <;> rfl)
  · intro full
    obtain rfl : r = e.range := by simpa using (Json.locatedInj full).2
    cases e <;> rfl

theorem readsText {e : Expr} {raw : String} (written : e.content = .str raw)
    (read : ∀ r, ofContent? r e.kind (.str raw) = some (e.withRange r)) : e.Reads := by
  refine readsLeaf fun relaxed => ?_
  rw [written] at relaxed ⊢
  obtain ⟨rfl, rfl⟩ := relaxed.text
  exact ⟨rfl, read⟩

theorem readsNamed {e : Expr} {n : Name} (written : e.content = n.toJson)
    (read : ∀ r c, Name.ofJson? c = some n → ofContent? r e.kind c = some (e.withRange r)) :
    e.Reads := by
  refine readsLeaf fun relaxed => ?_
  rw [written] at relaxed ⊢
  obtain ⟨named, full⟩ := Name.read relaxed
  exact ⟨full, fun r => read r _ named⟩

theorem readsInteger (r : Range) (raw : String) : (integer r raw).Reads :=
  readsText rfl fun r' => by rw [kind, ofContent?]; rfl

theorem readsFloat (r : Range) (raw : String) : (float r raw).Reads :=
  readsText rfl fun r' => by rw [kind, ofContent?]; rfl

theorem readsIdentifier (r : Range) (text : String) : (identifier r text).Reads :=
  readsText rfl fun r' => by rw [kind, ofContent?]; rfl

theorem readsName (r : Range) (n : Name) : (name r n).Reads :=
  readsNamed rfl fun r' c named => by rw [kind, ofContent?, named]; rfl

theorem readsConstant (r : Range) (n : Name) : (constant r n).Reads :=
  readsNamed rfl fun r' c named => by rw [kind, ofContent?, named]; rfl

theorem readsString (r : Range) (raw : String) : (string r raw).Reads := by
  refine readsLeaf fun relaxed => ?_
  obtain ⟨ns, rs, rfl, rfl, _ | ⟨text, _ | _⟩⟩ := relaxed.fields (by simp [records])
  obtain ⟨v, inside, found, ⟨⟩⟩ := text.required (by decide) rfl
  refine ⟨rfl, fun r' => ?_⟩
  rw [kind, ofContent?]
  simp only [Json.recordObject, Option.bind_eq_bind, Option.bind_some, handed found, Json.str?]
  rfl

theorem readsVar (r : Range) (n : String) : (var r n).Reads := by
  refine readsLeaf fun relaxed => ?_
  obtain ⟨v, w, rfl, rfl, ⟨⟩⟩ := relaxed.content (by simp [records])
  refine ⟨rfl, fun r' => ?_⟩
  rw [kind, ofContent?]
  rfl

theorem readsDynamicVar {r : Range} {n : Expr} (named : n.Reads) : (dynamicVar r n).Reads := by
  intro j k relaxed
  obtain ⟨r', c, z, read, inner, rfl⟩ := opened relaxed
  obtain ⟨v, w, rfl, rfl, value⟩ := inner.content (by simp [records])
  obtain ⟨n', readN, rfl, sameN, exactN⟩ := named value
  refine ⟨dynamicVar r' n', ?_, rfl, by simp [same, sameN], ?_⟩
  · rw [read, kind, ofContent?]
    change (ofJson? v).bind (fun n => some (dynamicVar r' n)) = _
    rw [readN]
    rfl
  · intro full
    obtain ⟨parts, rfl⟩ : _ ∧ r' = r := Json.openedInj full
    have fullN : n'.toJson = n.toJson := by simpa [content, folded] using parts
    rw [exactN fullN]

theorem readsClassConstant {r : Range} {x : Expr} {m : String} (owner : x.Reads) :
    (classConstant r x m).Reads := by
  intro j k relaxed
  obtain ⟨r', c, z, read, inner, rfl⟩ := opened relaxed
  obtain ⟨ns, rs, rfl, rfl, _ | ⟨first, _ | ⟨second, _ | _⟩⟩⟩ := inner.fields (by simp [records])
  obtain ⟨v, inside, x', foundX, readX, rfl, sameX, exactX⟩ := owner.field first (by decide) rfl
  obtain ⟨v', inside', foundM, ⟨⟩⟩ := second.required (by decide) rfl
  refine ⟨classConstant r' x' m, ?_, rfl, by simp [same, sameX], ?_⟩
  · simp [read, kind, handed foundX, handed foundM, Json.str?, readX]
  · intro full
    obtain ⟨parts, rfl⟩ : _ ∧ r' = r := Json.openedInj full
    have fullX : x'.toJson = x.toJson := by simpa [content, folded] using parts
    rw [exactX fullX]

theorem readsUnary {r : Range} {op : UnaryOp} {x : Expr} (operand : x.Reads) :
    (unary r op x).Reads := by
  intro j k relaxed
  obtain ⟨r', c, z, read, inner, rfl⟩ := opened relaxed
  obtain ⟨ys, zs, rfl, rfl, _ | ⟨⟨⟩, _ | ⟨first, _ | _⟩⟩⟩ := inner.array
  obtain ⟨x', readX, rfl, sameX, exactX⟩ := operand first
  refine ⟨unary r' op x', ?_, rfl, by simp [same, sameX], ?_⟩
  · simp [read, kind, Json.pair?, UnaryOp.read, readX]
  · intro full
    obtain ⟨parts, rfl⟩ : _ ∧ r' = r := Json.openedInj full
    have fullX : x'.toJson = x.toJson := by simpa [content, folded] using parts
    rw [exactX fullX]

theorem readsBinary {r : Range} {op : BinaryOp} {x y : Expr} (left : x.Reads) (right : y.Reads) :
    (binary r op x y).Reads := by
  intro j k relaxed
  obtain ⟨r', c, z, read, inner, rfl⟩ := opened relaxed
  obtain ⟨ys, zs, rfl, rfl, _ | ⟨⟨⟩, _ | ⟨first, _ | ⟨second, _ | _⟩⟩⟩⟩ := inner.array
  obtain ⟨x', readX, rfl, sameX, exactX⟩ := left first
  obtain ⟨y', readY, rfl, sameY, exactY⟩ := right second
  refine ⟨binary r' op x' y', ?_, rfl, by simp [same, sameX, sameY], ?_⟩
  · simp [read, kind, Json.triple?, BinaryOp.read, readX, readY]
  · intro full
    obtain ⟨parts, rfl⟩ : _ ∧ r' = r := Json.openedInj full
    obtain ⟨fullX, fullY⟩ : x'.toJson = x.toJson ∧ y'.toJson = y.toJson := by
      simpa [content, folded] using parts
    rw [exactX fullX, exactY fullY]

theorem readsAssign {r : Range} {x y : Expr} (target : x.Reads) (value : y.Reads) :
    (assign r x y).Reads := by
  intro j k relaxed
  obtain ⟨r', c, z, read, inner, rfl⟩ := opened relaxed
  obtain ⟨ys, zs, rfl, rfl, _ | ⟨first, _ | ⟨second, _ | _⟩⟩⟩ := inner.array
  obtain ⟨x', readX, rfl, sameX, exactX⟩ := target first
  obtain ⟨y', readY, rfl, sameY, exactY⟩ := value second
  refine ⟨assign r' x' y', ?_, rfl, by simp [same, sameX, sameY], ?_⟩
  · simp [read, kind, Json.pair?, readX, readY]
  · intro full
    obtain ⟨parts, rfl⟩ : _ ∧ r' = r := Json.openedInj full
    obtain ⟨fullX, fullY⟩ : x'.toJson = x.toJson ∧ y'.toJson = y.toJson := by
      simpa [content, folded] using parts
    rw [exactX fullX, exactY fullY]

theorem readsProperty {r : Range} {x y : Expr} (object : x.Reads) (member : y.Reads) :
    (property r x y).Reads := by
  intro j k relaxed
  obtain ⟨r', c, z, read, inner, rfl⟩ := opened relaxed
  obtain ⟨ns, rs, rfl, rfl, _ | ⟨first, _ | ⟨second, _ | _⟩⟩⟩ := inner.fields (by simp [records])
  obtain ⟨v, inside, x', foundX, readX, rfl, sameX, exactX⟩ := object.field first (by decide) rfl
  obtain ⟨w, inside', y', foundY, readY, rfl, sameY, exactY⟩ := member.field second (by decide) rfl
  refine ⟨property r' x' y', ?_, rfl, by simp [same, sameX, sameY], ?_⟩
  · simp [read, kind, handed foundX, handed foundY, readX, readY]
  · intro full
    obtain ⟨parts, rfl⟩ : _ ∧ r' = r := Json.openedInj full
    obtain ⟨fullX, fullY⟩ : x'.toJson = x.toJson ∧ y'.toJson = y.toJson := by
      simpa [content, folded] using parts
    rw [exactX fullX, exactY fullY]

theorem readsArgument {r : Range} {x : Expr} {s b : Bool} (value : x.Reads) :
    (argument r x s b).Reads := by
  intro j k relaxed
  obtain ⟨r', c, z, read, inner, rfl⟩ := opened relaxed
  obtain ⟨ns, rs, rfl, rfl, _ | ⟨first, _ | ⟨spread, _ | ⟨byRef, _ | _⟩⟩⟩⟩ :=
    inner.fields (by simp [records])
  obtain ⟨v, inside, x', foundX, readX, rfl, sameX, exactX⟩ := value.field first (by decide) rfl
  obtain ⟨_, _, foundS, ⟨⟩⟩ := spread.required (by decide) rfl
  obtain ⟨_, _, foundB, ⟨⟩⟩ := byRef.required (by decide) rfl
  refine ⟨argument r' x' s b, ?_, rfl, by simp [same, sameX], ?_⟩
  · simp [read, kind, handed foundX, handed foundS, handed foundB, Json.bool?, readX]
  · intro full
    obtain ⟨parts, rfl⟩ : _ ∧ r' = r := Json.openedInj full
    have fullX : x'.toJson = x.toJson := by simpa [content, folded] using parts
    rw [exactX fullX]

theorem readsPart {t : Option Expr} (each : ∀ e ∈ t, e.Reads) {ns : List (String × Json)} {key : String}
    {x : Json} (field : Field ns key (optionToJson t) x) (named : key ∉ ["range", "fully_qualified"]) :
    ∃ part t', (Json.ofMembers ns).optional? key = some part ∧ ofPart? part = some t' ∧
      Json.Behind optionToJson sameOption t t' x := by
  cases t with
  | none =>
    obtain ⟨found, rfl⟩ := field.absent named
    exact ⟨none, none, found, by rw [ofPart?], rfl, rfl, fun _ => rfl⟩
  | some e =>
    obtain ⟨w, inside, found, value⟩ := field.optional named rfl
    obtain ⟨e', readE, rfl, sameE, exactE⟩ := each e rfl value
    refine ⟨some ⟨w, inside⟩, some e', found, ?_, rfl, sameE, ?_⟩
    · rw [ofPart?, readE]
      rfl
    · intro full
      rw [exactE full]

theorem readsTernary {r : Range} {x y : Expr} {t : Option Expr} (cond : x.Reads)
    (whenTrue : ∀ e ∈ t, e.Reads) (whenFalse : y.Reads) : (ternary r x t y).Reads := by
  intro j k relaxed
  obtain ⟨r', c, z, read, inner, rfl⟩ := opened relaxed
  obtain ⟨ns, rs, rfl, rfl, _ | ⟨first, _ | ⟨middle, _ | ⟨last, _ | _⟩⟩⟩⟩ :=
    inner.fields (by simp [records])
  obtain ⟨v, inside, x', foundX, readX, rfl, sameX, exactX⟩ := cond.field first (by decide) rfl
  obtain ⟨part, t', foundT, readT, rfl, sameT, exactT⟩ := readsPart whenTrue middle (by decide)
  obtain ⟨w, inside', y', foundY, readY, rfl, sameY, exactY⟩ := whenFalse.field last (by decide) rfl
  refine ⟨ternary r' x' t' y', ?_, rfl, by simp [same, sameX, sameT, sameY], ?_⟩
  · simp [read, kind, handed foundX, handed foundT, handed foundY, readX, readT, readY]
  · intro full
    obtain ⟨parts, rfl⟩ : _ ∧ r' = r := Json.openedInj full
    obtain ⟨fullX, fullT, fullY⟩ : x'.toJson = x.toJson ∧ optionToJson t' = optionToJson t ∧
        y'.toJson = y.toJson := by simpa [content, folded] using parts
    rw [exactX fullX, exactT fullT, exactY fullY]

theorem readsIndex {r : Range} {x : Expr} {d : Option Expr} (base : x.Reads)
    (dim : ∀ e ∈ d, e.Reads) : (index r x d).Reads := by
  intro j k relaxed
  obtain ⟨r', c, z, read, inner, rfl⟩ := opened relaxed
  obtain ⟨ns, rs, rfl, rfl, _ | ⟨first, _ | ⟨second, _ | _⟩⟩⟩ := inner.fields (by simp [records])
  obtain ⟨v, inside, x', foundX, readX, rfl, sameX, exactX⟩ := base.field first (by decide) rfl
  obtain ⟨part, d', foundD, readD, rfl, sameD, exactD⟩ := readsPart dim second (by decide)
  refine ⟨index r' x' d', ?_, rfl, by simp [same, sameX, sameD], ?_⟩
  · simp [read, kind, handed foundX, handed foundD, readX, readD]
  · intro full
    obtain ⟨parts, rfl⟩ : _ ∧ r' = r := Json.openedInj full
    obtain ⟨fullX, fullD⟩ : x'.toJson = x.toJson ∧ optionToJson d' = optionToJson d := by
      simpa [content, folded] using parts
    rw [exactX fullX, exactD fullD]

theorem readsNil : ListReads [] := by
  rintro j k ⟨⟩
  exact ⟨[], by rw [ofList?], rfl, rfl, fun _ => rfl⟩

theorem readsCons {e : Expr} {es : List Expr} (first : e.Reads) (others : ListReads es) :
    ListReads (e :: es) := by
  rintro j k (_ | ⟨head, tail⟩)
  obtain ⟨e', readE, rfl, sameE, exactE⟩ := first head
  obtain ⟨es', readEs, rfl, sameEs, exactEs⟩ := others tail
  refine ⟨e' :: es', ?_, rfl, by simp [sameList, sameE, sameEs], ?_⟩
  · rw [ofList?, readE, readEs]
    rfl
  · intro full
    obtain ⟨fullE, fullEs⟩ : e'.toJson = e.toJson ∧ listToJson es' = listToJson es := by
      simpa [listToJson, folded] using full
    rw [exactE fullE, exactEs fullEs]

theorem readsArray {r : Range} {items : List Expr} (each : ListReads items) :
    (array r items).Reads := by
  intro j k relaxed
  obtain ⟨r', c, z, read, inner, rfl⟩ := opened relaxed
  obtain ⟨ys, zs, rfl, rfl, parts⟩ := inner.array
  obtain ⟨items', readItems, rfl, sameItems, exactItems⟩ := each parts
  refine ⟨array r' items', ?_, rfl, by simp [same, sameItems], ?_⟩
  · simp [read, kind, Json.items?, readItems]
  · intro full
    obtain ⟨parts, rfl⟩ : _ ∧ r' = r := Json.openedInj full
    have fullItems : listToJson items' = listToJson items := by simpa [content] using parts
    rw [exactItems fullItems]

theorem readsCall {r : Range} {x : Expr} {args : List Expr} (callee : x.Reads) (each : ListReads args) :
    (call r x args).Reads := by
  intro j k relaxed
  obtain ⟨r', c, z, read, inner, rfl⟩ := opened relaxed
  obtain ⟨ns, rs, rfl, rfl, _ | ⟨first, _ | ⟨second, _ | _⟩⟩⟩ := inner.fields (by simp [records])
  obtain ⟨v, inside, x', foundX, readX, rfl, sameX, exactX⟩ := callee.field first (by decide) rfl
  obtain ⟨w, inside', foundArgs, second⟩ := second.required (by decide) rfl
  obtain ⟨ys, zs, rfl, rfl, parts⟩ := second.array
  obtain ⟨args', readArgs, rfl, sameArgs, exactArgs⟩ := each parts
  refine ⟨call r' x' args', ?_, rfl, by simp [same, sameX, sameArgs], ?_⟩
  · simp [read, kind, handed foundX, handed foundArgs, Json.items?, readX, readArgs]
  · intro full
    obtain ⟨parts, rfl⟩ : _ ∧ r' = r := Json.openedInj full
    obtain ⟨fullX, fullArgs⟩ : x'.toJson = x.toJson ∧ listToJson args' = listToJson args := by
      simpa [content, folded] using parts
    rw [exactX fullX, exactArgs fullArgs]

mutual

theorem reads : (e : Expr) → e.Reads
  | integer r raw => readsInteger r raw
  | float r raw => readsFloat r raw
  | string r raw => readsString r raw
  | var r n => readsVar r n
  | dynamicVar _ n => readsDynamicVar n.reads
  | identifier r text => readsIdentifier r text
  | name r n => readsName r n
  | constant r n => readsConstant r n
  | classConstant _ x _ => readsClassConstant x.reads
  | unary _ _ x => readsUnary x.reads
  | binary _ _ x y => readsBinary x.reads y.reads
  | ternary _ x t y => readsTernary x.reads (optionReads t) y.reads
  | assign _ x y => readsAssign x.reads y.reads
  | index _ x d => readsIndex x.reads (optionReads d)
  | property _ x y => readsProperty x.reads y.reads
  | array _ items => readsArray (listReads items)
  | call _ x args => readsCall x.reads (listReads args)
  | argument _ x _ _ => readsArgument x.reads

theorem optionReads : (t : Option Expr) → ∀ e ∈ t, e.Reads
  | none => fun e found => absurd found (Option.not_mem_none e)
  | some e => fun _ found => Option.some.inj found ▸ e.reads

theorem listReads : (es : List Expr) → ListReads es
  | [] => readsNil
  | e :: es => readsCons e.reads (listReads es)

end

end Expr

end PhpLint
