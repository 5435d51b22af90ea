import PhpLint.Proofs.TreeJson.Reading

/-! The JSON form of source units can be read back: the written form as the unit itself, with every range, and
each looser spelling as a unit that is the same but for the ranges that were left out. -/
namespace PhpLint

open Json (handed Relaxed RelaxedItems Field records)

namespace ConstDecl

def Reads : ConstDecl → Prop := Json.Reads Relaxed toJson ofJson? same

def ListReads : List ConstDecl → Prop :=
  Json.Reads (RelaxedItems Relaxed) (List.map toJson) (List.mapM ofJson?) sameList

theorem reads (d : ConstDecl) : d.Reads := by
  intro j k relaxed
  obtain ⟨ns, rs, rfl, rfl, _ | ⟨named, _ | ⟨value, _ | _⟩⟩⟩ := relaxed.fields (by simp [records])
  obtain ⟨v, inside, foundName, named⟩ := named.required (by decide) rfl
  obtain ⟨w, inside', x, foundValue, readX, rfl, sameX, exactX⟩ := d.value.reads.field value (by decide) rfl
  obtain ⟨_, r, _, _, _, shape, place, foundText, ⟨⟩, rfl⟩ := named.placed rfl
  refine ⟨⟨d.name, r, x⟩, ?_, rfl, by simp [same, sameX], ?_⟩
  · simp only [ofJson?, Json.recordObject, Option.bind_eq_bind, Option.bind_some, handed foundName,
      handed foundValue, handed shape, handed foundText, Json.str?, place, readX]
  · intro full
    obtain ⟨fullName, fullX⟩ : Json.located (.str d.name) r = .located (.str d.name) d.nameRange ∧
        x.toJson = d.value.toJson := by simpa [toJson] using full
    rw [(Json.locatedInj fullName).2, exactX fullX]

theorem listReads (decls : List ConstDecl) : ListReads decls := by
  induction decls with
  | nil =>
    rintro j k ⟨⟩
    exact ⟨[], rfl, rfl, rfl, fun _ => rfl⟩
  | cons d decls ih =>
    rintro j k (_ | ⟨head, tail⟩)
    obtain ⟨d', readD, rfl, sameD, exactD⟩ := d.reads head
    obtain ⟨decls', readDecls, rfl, sameDecls, exactDecls⟩ := ih tail
    refine ⟨d' :: decls', ?_, rfl, by simp [sameList, sameD, sameDecls], ?_⟩
    · rw [List.mapM_cons, readD, readDecls]
      rfl
    · intro full
      obtain ⟨fullD, fullDecls⟩ := List.cons.inj full
      rw [exactD fullD, exactDecls fullDecls]

end ConstDecl

namespace Stmt

def Reads : Stmt → Prop := Json.Reads Relaxed toJson ofJson? same

def ListReads : List Stmt → Prop := Json.Reads (RelaxedItems Relaxed) listToJson ofList? sameList

def ArmsRead : List ElseIf → Prop := Json.Reads (RelaxedItems Relaxed) armsToJson ofArms? sameArms

def CasesRead : List SwitchCase → Prop := Json.Reads (RelaxedItems Relaxed) casesToJson ofCases? sameCases

theorem toJsonFilled (s : Stmt) : s.toJson.filled = true := by
  cases s <;> rfl

theorem opened {kind : String} {v j k : Json} {r : Range}
    (relaxed : Relaxed (.located (.obj [(kind, v)]) r) j k) (isCase : [kind] ∉ records) :
    ∃ r' c x, ofJson? j = ofContent? r' kind c ∧ Relaxed v c x ∧
      k = .located (.obj [(kind, x)]) r' := by
  obtain ⟨node, r', c, x, inside, shape, place, found, content, rfl⟩ := relaxed.opened isCase
  refine ⟨r', c, x, ?_, content, rfl⟩
  rw [ofJson?]
  simp only [Option.bind_eq_bind, handed shape, place, Option.bind_some, handed found, Json.case?]

attribute [local simp] ofContent?

theorem readsExpr (r : Range) (e : Expr) : (expr r e).Reads := by
  intro j k relaxed
  obtain ⟨r', c, x, read, inner, rfl⟩ := opened relaxed (by simp [records])
  obtain ⟨e', readE, rfl, sameE, exactE⟩ := e.reads inner
  refine ⟨expr r' e', ?_, rfl, by simp [same, sameE], ?_⟩
  · rw [read, ofContent?, readE]
    rfl
  · intro full
    obtain ⟨fullE, rfl⟩ : e'.toJson = e.toJson ∧ r' = r := Json.openedInj full
    rw [exactE fullE]

theorem readsBlock {r : Range} {body : List Stmt} (each : ListReads body) : (block r body).Reads := by
  intro j k relaxed
  obtain ⟨r', c, x, read, inner, rfl⟩ := opened relaxed (by simp [records])
  obtain ⟨ys, zs, rfl, rfl, parts⟩ := inner.array
  obtain ⟨body', readBody, rfl, sameBody, exactBody⟩ := each parts
  refine ⟨block r' body', ?_, rfl, by simp [same, sameBody], ?_⟩
  · simp [read, Json.items?, readBody]
  · intro full
    obtain ⟨parts, rfl⟩ : Json.arr (listToJson body') = .arr (listToJson body) ∧ r' = r :=
      Json.openedInj full
    rw [exactBody (Json.arr.inj parts)]

theorem readsPart {t : Option Stmt} (each : ∀ s ∈ t, s.Reads) {ns : List (String × Json)} {key : String}
    {x : Json} (field : Field ns key (optionToJson t) x) (named : key ∉ ["range", "fully_qualified"]) :
    ∃ part t', (Json.ofMembers ns).optional? key = some part ∧ ofPart? part = some t' ∧
      Json.Behind optionToJson sameOption t t' x := by
  cases t with
  | none =>
    obtain ⟨found, rfl⟩ := field.absent named
    exact ⟨none, none, found, by rw [ofPart?], rfl, by rw [sameOption], fun _ => rfl⟩
  | some s =>
    obtain ⟨w, inside, found, value⟩ := field.optional named s.toJsonFilled
    obtain ⟨s', readS, rfl, sameS, exactS⟩ := each s rfl value
    refine ⟨some ⟨w, inside⟩, some s', found, ?_, rfl, by rw [sameOption, sameS], ?_⟩
    · rw [ofPart?, readS]
      rfl
    · intro full
      rw [exactS full]

theorem readsBranch {r : Range} {e : Expr} {s : Stmt} {arms : List ElseIf} {t : Option Stmt}
    (body : s.Reads) (elseifs : ArmsRead arms) (otherwise : ∀ s ∈ t, s.Reads) :
    (branch r e s arms t).Reads := by
  intro j k relaxed
  obtain ⟨r', c, x, read, inner, rfl⟩ := opened relaxed (by simp [records])
  obtain ⟨ns, rs, rfl, rfl, _ | ⟨cond, _ | ⟨first, _ | ⟨middle, _ | ⟨last, _ | _⟩⟩⟩⟩⟩ :=
    inner.fields (by simp [records])
  obtain ⟨v, inside, e', foundE, readE, rfl, sameE, exactE⟩ := e.reads.field cond (by decide) rfl
  obtain ⟨w, inside', s', foundS, readS, rfl, sameS, exactS⟩ := body.field first (by decide) s.toJsonFilled
  obtain ⟨_, _, foundArms, middle⟩ := middle.required (by decide) rfl
  obtain ⟨ys, zs, rfl, rfl, each⟩ := middle.array
  obtain ⟨part, t', foundT, readT, rfl, sameT, exactT⟩ := readsPart otherwise last (by decide)
  obtain ⟨arms', readArms, rfl, sameArms, exactArms⟩ := elseifs each
  refine ⟨branch r' e' s' arms' t', ?_, rfl, by simp [same, sameE, sameS, sameArms, sameT], ?_⟩
  · simp [read, handed foundE, handed foundS, handed foundArms, handed foundT, Json.items?, readE, readS,
      readArms, readT]
  · intro full
    obtain ⟨parts, rfl⟩ : _ ∧ r' = r := Json.openedInj full
    obtain ⟨fullE, fullS, fullArms, fullT⟩ : e'.toJson = e.toJson ∧ s'.toJson = s.toJson ∧
        armsToJson arms' = armsToJson arms ∧ optionToJson t' = optionToJson t := by
      simpa using parts
    rw [exactE fullE, exactS fullS, exactArms fullArms, exactT fullT]

theorem readsWhileLoop {r : Range} {e : Expr} {s : Stmt} (body : s.Reads) :
    (whileLoop r e s).Reads := by
  intro j k relaxed
  obtain ⟨r', c, x, read, inner, rfl⟩ := opened relaxed (by simp [records])
  obtain ⟨ns, rs, rfl, rfl, _ | ⟨cond, _ | ⟨last, _ | _⟩⟩⟩ := inner.fields (by simp [records])
  obtain ⟨v, inside, e', foundE, readE, rfl, sameE, exactE⟩ := e.reads.field cond (by decide) rfl
  obtain ⟨w, inside', s', foundS, readS, rfl, sameS, exactS⟩ := body.field last (by decide) s.toJsonFilled
  refine ⟨whileLoop r' e' s', ?_, rfl, by simp [same, sameE, sameS], ?_⟩
  · simp [read, handed foundE, handed foundS, readE, readS]
  · intro full
    obtain ⟨parts, rfl⟩ : _ ∧ r' = r := Json.openedInj full
    obtain ⟨fullE, fullS⟩ : e'.toJson = e.toJson ∧ s'.toJson = s.toJson := by simpa using parts
    rw [exactE fullE, exactS fullS]

theorem readsDoLoop {r : Range} {s : Stmt} {e : Expr} (body : s.Reads) : (doLoop r s e).Reads := by
  intro j k relaxed
  obtain ⟨r', c, x, read, inner, rfl⟩ := opened relaxed (by simp [records])
  obtain ⟨ns, rs, rfl, rfl, _ | ⟨first, _ | ⟨cond, _ | _⟩⟩⟩ := inner.fields (by simp [records])
  obtain ⟨v, inside, s', foundS, readS, rfl, sameS, exactS⟩ := body.field first (by decide) s.toJsonFilled
  obtain ⟨w, inside', e', foundE, readE, rfl, sameE, exactE⟩ := e.reads.field cond (by decide) rfl
  refine ⟨doLoop r' s' e', ?_, rfl, by simp [same, sameS, sameE], ?_⟩
  · simp [read, handed foundS, handed foundE, readS, readE]
  · intro full
    obtain ⟨parts, rfl⟩ : _ ∧ r' = r := Json.openedInj full
    obtain ⟨fullS, fullE⟩ : s'.toJson = s.toJson ∧ e'.toJson = e.toJson := by simpa using parts
    rw [exactS fullS, exactE fullE]

theorem readsSwitch {r : Range} {e : Expr} {cases : List SwitchCase} (each : CasesRead cases) :
    (switch r e cases).Reads := by
  intro j k relaxed
  obtain ⟨r', c, x, read, inner, rfl⟩ := opened relaxed (by simp [records])
  obtain ⟨ns, rs, rfl, rfl, _ | ⟨subject, _ | ⟨last, _ | _⟩⟩⟩ := inner.fields (by simp [records])
  obtain ⟨v, inside, e', foundE, readE, rfl, sameE, exactE⟩ := e.reads.field subject (by decide) rfl
  obtain ⟨w, inside', foundCases, last⟩ := last.required (by decide) rfl
  obtain ⟨ys, zs, rfl, rfl, parts⟩ := last.array
  obtain ⟨cases', readCases, rfl, sameCases, exactCases⟩ := each parts
  refine ⟨switch r' e' cases', ?_, rfl, by simp [same, sameE, sameCases], ?_⟩
  · simp [read, handed foundE, handed foundCases, Json.items?, readE, readCases]
  · intro full
    obtain ⟨parts, rfl⟩ : _ ∧ r' = r := Json.openedInj full
    obtain ⟨fullE, fullCases⟩ : e'.toJson = e.toJson ∧ casesToJson cases' = casesToJson cases := by
      simpa using parts
    rw [exactE fullE, exactCases fullCases]

theorem readsConst (r : Range) (decls : List ConstDecl) : (const r decls).Reads := by
  intro j k relaxed
  obtain ⟨r', c, x, read, inner, rfl⟩ := opened relaxed (by simp [records])
  obtain ⟨ys, zs, rfl, rfl, each⟩ := inner.array
  obtain ⟨decls', readDecls, rfl, sameDecls, exactDecls⟩ := ConstDecl.listReads decls each
  refine ⟨const r' decls', ?_, rfl, by simp [same, sameDecls], ?_⟩
  · simp [read, Json.items?, readDecls]
  · intro full
    obtain ⟨parts, rfl⟩ : Json.arr (decls'.map ConstDecl.toJson) = .arr (decls.map ConstDecl.toJson) ∧
        r' = r := Json.openedInj full
    rw [exactDecls (Json.arr.inj parts)]

theorem readsFunction {r : Range} {n : String} {ps : List String} {body : List Stmt}
    (each : ListReads body) : (function r n ps body).Reads := by
  intro j k relaxed
  obtain ⟨r', c, x, read, inner, rfl⟩ := opened relaxed (by simp [records])
  obtain ⟨ns, rs, rfl, rfl, _ | ⟨first, _ | ⟨middle, _ | ⟨last, _ | _⟩⟩⟩⟩ :=
    inner.fields (by simp [records])
  obtain ⟨_, _, foundName, ⟨⟩⟩ := first.required (by decide) rfl
  obtain ⟨_, _, foundParams, middle⟩ := middle.required (by decide) rfl
  obtain ⟨_, _, foundBody, last⟩ := last.required (by decide) rfl
  obtain ⟨readParams, rfl⟩ := textsRead middle
  obtain ⟨ys, zs, rfl, rfl, parts⟩ := last.array
  obtain ⟨body', readBody, rfl, sameBody, exactBody⟩ := each parts
  refine ⟨function r' n ps body', ?_, rfl, by simp [same, sameBody], ?_⟩
  · simp [read, handed foundName, handed foundParams, handed foundBody, Json.str?, Json.items?, readParams,
      readBody]
  · intro full
    obtain ⟨parts, rfl⟩ : _ ∧ r' = r := Json.openedInj full
    have fullBody : listToJson body' = listToJson body := by simpa using parts
    rw [exactBody fullBody]

theorem readsRet (r : Range) (v : Option Expr) : (ret r v).Reads := by
  intro j k relaxed
  obtain ⟨r', c, x, read, inner, rfl⟩ := opened relaxed (by simp [records])
  cases v with
  | none =>
    change Relaxed .null c x at inner
    obtain ⟨⟩ := inner
    refine ⟨ret r' none, by rw [read, ofContent?, if_pos rfl], rfl, by rw [same, Expr.sameOption], ?_⟩
    intro full
    obtain ⟨-, rfl⟩ : _ ∧ r' = r := Json.openedInj full
    rfl
  | some e =>
    have filled : c.filled = true := inner.filled rfl
    obtain ⟨e', readE, rfl, sameE, exactE⟩ := e.reads inner
    refine ⟨ret r' (some e'), ?_, rfl, by simp [same, Expr.sameOption, sameE], ?_⟩
    · rw [read, ofContent?, readE]
      · rfl
      · rintro rfl
        cases filled
    · intro full
      obtain ⟨fullE, rfl⟩ : e'.toJson = e.toJson ∧ r' = r := Json.openedInj full
      rw [exactE fullE]

theorem readsEcho (r : Range) (vs : List Expr) : (echo r vs).Reads := by
  intro j k relaxed
  obtain ⟨r', c, x, read, inner, rfl⟩ := opened relaxed (by simp [records])
  obtain ⟨ys, zs, rfl, rfl, each⟩ := inner.array
  obtain ⟨vs', readVs, rfl, sameVs, exactVs⟩ := Expr.listReads vs each
  refine ⟨echo r' vs', ?_, rfl, by simp [same, sameVs], ?_⟩
  · simp [read, Json.items?, readVs]
  · intro full
    obtain ⟨parts, rfl⟩ : Json.arr (Expr.listToJson vs') = .arr (Expr.listToJson vs) ∧ r' = r :=
      Json.openedInj full
    rw [exactVs (Json.arr.inj parts)]

theorem readsNop (r : Range) : (nop r).Reads := by
  intro j k relaxed
  obtain ⟨node, r', w, inside, x, shape, place, found, ⟨⟩, rfl⟩ := Relaxed.placed relaxed rfl
  refine ⟨nop r', ?_, rfl, by rw [same], ?_⟩
  · rw [ofJson?]
    simp only [Option.bind_eq_bind, handed shape, place, Option.bind_some, handed found, Json.case?]
    rfl
  · intro full
    rw [(Json.locatedInj full).2]

theorem readsName {n : Option Name} {ns : List (String × Json)} {x : Json}
    (field : Field ns "name" (.ofOption Name.toJson n) x) :
    ∃ part, (Json.ofMembers ns).optional? "name" = some part ∧
      part.mapM (fun n => Name.ofJson? n.1) = some n ∧ x = .ofOption Name.toJson n := by
  cases n with
  | none =>
    obtain ⟨found, rfl⟩ := field.absent (by decide)
    exact ⟨none, found, rfl, rfl⟩
  | some n =>
    obtain ⟨w, inside, found, value⟩ := field.optional (by decide) rfl
    obtain ⟨readN, rfl⟩ := Name.read value
    refine ⟨some ⟨w, inside⟩, found, ?_, rfl⟩
    change (Name.ofJson? w).map some = _
    rw [readN]
    rfl

theorem readsScope {r : Range} {n : Option Name} {b : Option (List Stmt)}
    (each : ∀ body ∈ b, ListReads body) : (scope r n b).Reads := by
  intro j k relaxed
  obtain ⟨r', c, x, read, inner, rfl⟩ := opened relaxed (by simp [records])
  obtain ⟨ns, rs, rfl, rfl, _ | ⟨named, _ | ⟨last, _ | _⟩⟩⟩ := inner.fields (by simp [records])
  obtain ⟨part, foundName, readName, rfl⟩ := readsName named
  cases b with
  | none =>
    obtain ⟨foundBody, rfl⟩ := last.absent (by decide)
    refine ⟨scope r' n none, ?_, rfl, by simp [same, sameBody], ?_⟩
    · simp [read, handed foundName, readName, handed foundBody]
    · intro full
      obtain ⟨-, rfl⟩ : _ ∧ r' = r := Json.openedInj full
      rfl
  | some body =>
    obtain ⟨w, inside, foundBody, last⟩ := last.optional (by decide) rfl
    obtain ⟨ys, zs, rfl, rfl, parts⟩ := last.array
    obtain ⟨body', readBody, rfl, alikeBody, exactBody⟩ := each body rfl parts
    refine ⟨scope r' n (some body'), ?_, rfl, by simp [same, sameBody, alikeBody], ?_⟩
    · simp [read, handed foundName, readName, handed foundBody, Json.items?, readBody]
    · intro full
      obtain ⟨parts, rfl⟩ : _ ∧ r' = r := Json.openedInj full
      have fullBody : listToJson body' = listToJson body := by simpa [bodyToJson] using parts
      rw [exactBody fullBody]

theorem readsNil : ListReads [] := by
  rintro j k ⟨⟩
  exact ⟨[], by rw [ofList?], rfl, by rw [sameList], fun _ => rfl⟩

theorem readsCons {s : Stmt} {ss : List Stmt} (first : s.Reads) (others : ListReads ss) :
    ListReads (s :: ss) := by
  rintro j k (_ | ⟨head, tail⟩)
  obtain ⟨s', readS, rfl, sameS, exactS⟩ := first head
  obtain ⟨ss', readSs, rfl, sameSs, exactSs⟩ := others tail
  refine ⟨s' :: ss', ?_, rfl, by simp [sameList, sameS, sameSs], ?_⟩
  · rw [ofList?, readS, readSs]
    rfl
  · intro full
    obtain ⟨fullS, fullSs⟩ := List.cons.inj full
    rw [exactS fullS, exactSs fullSs]

theorem readsNoArms : ArmsRead [] := by
  rintro j k ⟨⟩
  exact ⟨[], by rw [ofArms?], rfl, by rw [sameArms], fun _ => rfl⟩

theorem readsArm {e : Expr} {s : Stmt} {arms : List ElseIf} (body : s.Reads) (others : ArmsRead arms) :
    ArmsRead (.mk e s :: arms) := by
  rintro j k (_ | ⟨head, tail⟩)
  obtain ⟨ns, rs, rfl, rfl, _ | ⟨cond, _ | ⟨last, _ | _⟩⟩⟩ := head.fields (by simp [records])
  obtain ⟨v, inside, e', foundE, readE, rfl, sameE, exactE⟩ := e.reads.field cond (by decide) rfl
  obtain ⟨w, inside', s', foundS, readS, rfl, sameS, exactS⟩ := body.field last (by decide) s.toJsonFilled
  obtain ⟨arms', readArms, rfl, alikeArms, exactArms⟩ := others tail
  refine ⟨.mk e' s' :: arms', ?_, rfl, by simp [sameArms, sameE, sameS, alikeArms], ?_⟩
  · rw [ofArms?]
    simp only [Json.recordObject, Option.bind_eq_bind, Option.bind_some, handed foundE, handed foundS, readE,
      readS, readArms]
  · intro full
    obtain ⟨⟨fullE, fullS⟩, fullArms⟩ : (e'.toJson = e.toJson ∧ s'.toJson = s.toJson) ∧
        armsToJson arms' = armsToJson arms := by simpa [armsToJson] using full
    rw [exactE fullE, exactS fullS, exactArms fullArms]

theorem readsNoCases : CasesRead [] := by
  rintro j k ⟨⟩
  exact ⟨[], by rw [ofCases?], rfl, by rw [sameCases], fun _ => rfl⟩

theorem readsCase {t : Option Expr} {body : List Stmt} {cases : List SwitchCase}
    (each : ListReads body) (others : CasesRead cases) : CasesRead (.mk t body :: cases) := by
  rintro j k (_ | ⟨head, tail⟩)
  obtain ⟨ns, rs, rfl, rfl, _ | ⟨cond, _ | ⟨last, _ | _⟩⟩⟩ := head.fields (by simp [records])
  obtain ⟨part, t', foundT, readT, rfl, sameT, exactT⟩ :=
    Expr.readsPart (fun e _ => e.reads) cond (by decide)
  obtain ⟨w, inside, foundBody, last⟩ := last.required (by decide) rfl
  obtain ⟨ys, zs, rfl, rfl, parts⟩ := last.array
  obtain ⟨body', readBody, rfl, alikeBody, exactBody⟩ := each parts
  obtain ⟨cases', readCases, rfl, alikeCases, exactCases⟩ := others tail
  refine ⟨.mk t' body' :: cases', ?_, rfl, by simp [sameCases, sameT, alikeBody, alikeCases], ?_⟩
  · rw [ofCases?]
    simp only [Json.recordObject, Option.bind_eq_bind, Option.bind_some, handed foundT, handed foundBody,
      Json.items?, readT, readBody, readCases]
  · intro full
    obtain ⟨⟨fullT, fullBody⟩, fullCases⟩ : (Expr.optionToJson t' = Expr.optionToJson t ∧
        listToJson body' = listToJson body) ∧ casesToJson cases' = casesToJson cases := by
      simpa [casesToJson] using full
    rw [exactT fullT, exactBody fullBody, exactCases fullCases]

mutual

theorem reads : (s : Stmt) → s.Reads
  | expr r e => readsExpr r e
  | block _ body => readsBlock (listReads body)
  | branch _ _ s arms t => readsBranch s.reads (armsRead arms) (optionReads t)
  | whileLoop _ _ s => readsWhileLoop s.reads
  | doLoop _ s _ => readsDoLoop s.reads
  | switch _ _ cases => readsSwitch (casesRead cases)
  | const r decls => readsConst r decls
  | scope _ _ b => readsScope (bodyReads b)
  | function _ _ _ body => readsFunction (listReads body)
  | ret r v => readsRet r v
  | echo r vs => readsEcho r vs
  | nop r => readsNop r

theorem optionReads : (t : Option Stmt) → ∀ s ∈ t, s.Reads
  | none => fun s found => absurd found (Option.not_mem_none s)
  | some s => fun _ found => Option.some.inj found ▸ s.reads

theorem listReads : (ss : List Stmt) → ListReads ss
  | [] => readsNil
  | s :: ss => readsCons s.reads (listReads ss)

theorem bodyReads : (b : Option (List Stmt)) → ∀ body ∈ b, ListReads body
  | none => fun body found => absurd found (Option.not_mem_none body)
  | some body => fun _ found => Option.some.inj found ▸ listReads body

theorem armsRead : (arms : List ElseIf) → ArmsRead arms
  | [] => readsNoArms
  | .mk _ s :: arms => readsArm s.reads (armsRead arms)

theorem casesRead : (cases : List SwitchCase) → CasesRead cases
  | [] => readsNoCases
  | .mk _ body :: cases => readsCase (listReads body) (casesRead cases)

end

end Stmt

def SourceUnit.same (u v : SourceUnit) : Bool := u.path == v.path && Stmt.sameList u.stmts v.stmts

theorem SourceUnit.reads (u : SourceUnit) : Json.Reads Relaxed toJson ofJson? same u := by
  intro j k relaxed
  obtain ⟨ns, rs, rfl, rfl, _ | ⟨path, _ | ⟨stmts, _ | _⟩⟩⟩ := relaxed.fields (by simp [records])
  obtain ⟨_, _, foundPath, ⟨⟩⟩ := path.required (by decide) rfl
  obtain ⟨_, _, foundStmts, stmts⟩ := stmts.required (by decide) rfl
  obtain ⟨ys, zs, rfl, rfl, each⟩ := stmts.array
  obtain ⟨stmts', readStmts, rfl, sameStmts, exactStmts⟩ := Stmt.listReads u.stmts each
  refine ⟨⟨u.path, stmts'⟩, ?_, rfl, by simp [same, sameStmts], ?_⟩
  · simp only [ofJson?, Json.recordObject, Option.bind_eq_bind, Option.bind_some, handed foundPath,
      handed foundStmts, Json.items?, Json.str?, readStmts]
  · intro full
    have fullStmts : Stmt.listToJson stmts' = Stmt.listToJson u.stmts := by simpa [toJson] using full
    rw [exactStmts fullStmts]

theorem treeJsonRoundTrips (u : SourceUnit) :
    SourceUnit.ofJson? u.toJson = some u ∧
      ∀ loose full : Json, Relaxed u.toJson loose full →
        ∃ v, SourceUnit.ofJson? loose = some v ∧ u.same v = true ∧ v.toJson = full ∧
          (full = u.toJson → v = u) := by
  constructor
  -- the written form is one of its own spellings, with the unit behind it
  · obtain ⟨v, read, written, -, exact⟩ := u.reads (.same u.toJson)
    rw [read, exact written]
  · intro loose full relaxed
    obtain ⟨v, read, rfl, same, exact⟩ := u.reads relaxed
    exact ⟨v, read, same, rfl, exact⟩

def placedSample : SourceUnit :=
  ⟨"a.php", [.expr (.point ⟨1, 1⟩) (.ternary (.point ⟨1, 2⟩) (.constant (.point ⟨1, 3⟩) ⟨["A"], false⟩)
    none (.var (.point ⟨1, 4⟩) "x"))]⟩

def looseSample : Json :=
  .obj [("version", .int 2), ("path", .str "a.php"), ("stmts", .arr [
    .located (.obj [("Expr", .obj [("value", .obj [("Ternary", .obj [
      ("cond", .located (.obj [("ConstFetch", .obj [("parts", .ofStrings ["A"])])]) (.point ⟨1, 3⟩)),
      ("else_", .obj [("note", .null), ("value", .obj [("Variable", .obj [("Ident", .str "x")])])])])])])])
    (.point ⟨1, 1⟩)])]

def partlyPlacedSample : SourceUnit :=
  ⟨"a.php", [.expr (.point ⟨1, 1⟩) (.ternary .synthetic (.constant (.point ⟨1, 3⟩) ⟨["A"], false⟩)
    none (.var .synthetic "x"))]⟩

theorem looseSampleRelaxed : Relaxed placedSample.toJson looseSample partlyPlacedSample.toJson := by
  -- the unit, its statement, the expression with its place left out, and the conditional without a middle
  refine .record (by simp [records]) (by simp)
    (.added (.kept (.same _) (.kept (.items (.cons ?_ .nil)) .nil)))
  refine .record (by simp [records]) (by simp) (.kept (.case ?_) (.kept (.same _) .nil))
  refine .record (by simp [records]) (by simp) (.kept (.case ?_) (.omitted (.inl ⟨rfl, rfl⟩) .nil))
  refine .record (by simp [records]) (by simp)
    (.kept ?_ (.omitted (.inr (.inr ⟨by simp, rfl, rfl⟩)) (.kept ?_ .nil)))
  · refine .record (by simp [records]) (by simp) (.kept (.case ?_) (.kept (.same _) .nil))
    exact .record (by simp [records]) (by simp)
      (.kept (.same _) (.omitted (.inr (.inl ⟨rfl, rfl, rfl⟩)) .nil))
  · exact .record (by simp [records]) (by simp)
      (.added (.kept (.same _) (.omitted (.inl ⟨rfl, rfl⟩) .nil)))

theorem looseSampleReads : Relaxed placedSample.toJson looseSample partlyPlacedSample.toJson ∧
    ∃ v, SourceUnit.ofJson? looseSample = some v ∧ placedSample.same v = true ∧
      v.toJson = partlyPlacedSample.toJson ∧
      (partlyPlacedSample.toJson = placedSample.toJson → v = placedSample) :=
  ⟨looseSampleRelaxed, (treeJsonRoundTrips placedSample).2 _ _ looseSampleRelaxed⟩

end PhpLint
