import PhpLint.Proofs.TreeJson.Relaxed

/-! Reading the parts of a tree that are no trees themselves: texts, marks, positions, names, operators, and
the place of a node. Only the place can differ from the written one, and only where it was left out. -/
namespace PhpLint

open Json (handed Relaxed RelaxedItems Field Fields records)

theorem Json.Relaxed.text {s : String} {j k : Json} (relaxed : Relaxed (.str s) j k) :
    j = .str s ∧ k = .str s := by
  cases relaxed
  exact ⟨rfl, rfl⟩

theorem Json.Relaxed.mark {b : Bool} {j k : Json} (relaxed : Relaxed (.bool b) j k) :
    j = .bool b ∧ k = .bool b := by
  cases relaxed
  exact ⟨rfl, rfl⟩

theorem wordRead (n : UInt32) : (Json.ofNat n.toNat).word? = some n := by
  have small : (n.toNat : Int) < 0x100000000 := by
    have := n.toNat_lt
    omega
  simp [Json.ofNat, Json.word?, small]

theorem Pos.read {p : Pos} {j k : Json} (relaxed : Relaxed p.toJson j k) :
    Pos.ofJson? j = some p ∧ k = p.toJson := by
  obtain ⟨ns, rs, rfl, rfl, _ | ⟨line, _ | ⟨col, _ | _⟩⟩⟩ := relaxed.fields (by simp [records])
  obtain ⟨_, _, foundLine, ⟨⟩⟩ := line.required (by decide) rfl
  obtain ⟨_, _, foundCol, ⟨⟩⟩ := col.required (by decide) rfl
  refine ⟨?_, rfl⟩
  simp only [Pos.ofJson?, Json.recordObject, Option.bind_eq_bind, Option.bind_some, handed foundLine,
    handed foundCol, wordRead]

theorem Range.read {r : Range} {j k : Json} (relaxed : Relaxed r.toJson j k) :
    Range.ofJson? j = some r ∧ k = r.toJson := by
  obtain ⟨ns, rs, rfl, rfl, _ | ⟨start, _ | ⟨stop, _ | _⟩⟩⟩ := relaxed.fields (by simp [records])
  obtain ⟨_, _, foundStart, start⟩ := start.required (by decide) rfl
  obtain ⟨_, _, foundStop, stop⟩ := stop.required (by decide) rfl
  obtain ⟨readStart, rfl⟩ := Pos.read start
  obtain ⟨readStop, rfl⟩ := Pos.read stop
  refine ⟨?_, rfl⟩
  simp only [Range.ofJson?, Json.recordObject, Option.bind_eq_bind, Option.bind_some, handed foundStart,
    handed foundStop, readStart, readStop]

theorem Range.toJsonInj {r s : Range} (written : r.toJson = s.toJson) : r = s := by
  have one : Range.ofJson? r.toJson = some r := (Range.read (.same _)).1
  have other : Range.ofJson? s.toJson = some s := (Range.read (.same _)).1
  rw [written, other] at one
  exact (Option.some.inj one).symm

theorem textsRelaxed {ss : List String} {ys zs : List Json}
    (relaxed : RelaxedItems Relaxed (ss.map .str) ys zs) : ys = ss.map .str ∧ zs = ss.map .str := by
  induction ss generalizing ys zs with
  | nil =>
    cases relaxed
    exact ⟨rfl, rfl⟩
  | cons s ss ih =>
    obtain _ | ⟨⟨⟩, rest⟩ := relaxed
    obtain ⟨rfl, rfl⟩ := ih rest
    exact ⟨rfl, rfl⟩

theorem textsListed (ss : List String) : (ss.map Json.str).mapM Json.str? = some ss := by
  induction ss with
  | nil => rfl
  | cons s ss ih => simp only [List.map_cons, List.mapM_cons, Json.str?, ih]; rfl

theorem textsRead {ss : List String} {j k : Json} (relaxed : Relaxed (.ofStrings ss) j k) :
    j.strings? = some ss ∧ k = .ofStrings ss := by
  obtain ⟨ys, zs, rfl, rfl, each⟩ := relaxed.array
  obtain ⟨rfl, rfl⟩ := textsRelaxed each
  refine ⟨?_, rfl⟩
  simp only [Json.strings?, Json.items?, Option.bind_eq_bind, Option.bind_some, textsListed]

theorem Name.read {n : Name} {j k : Json} (relaxed : Relaxed n.toJson j k) :
    Name.ofJson? j = some n ∧ k = n.toJson := by
  obtain ⟨parts, rooted⟩ := n
  obtain ⟨ns, rs, rfl, rfl, _ | ⟨segments, _ | ⟨mark, _ | _⟩⟩⟩ := relaxed.fields (by simp [records])
  obtain ⟨_, _, foundParts, segments⟩ := segments.required (by decide) rfl
  obtain ⟨readParts, rfl⟩ := textsRead segments
  cases mark with
  | kept one value =>
    obtain ⟨_, foundMark⟩ := Json.memberFound one
    obtain ⟨rfl, rfl⟩ := value.mark
    refine ⟨?_, rfl⟩
    simp only [Name.ofJson?, Json.recordObject, Option.bind_eq_bind, Option.bind_some, handed foundParts,
      readParts, handed foundMark, Json.bool?]
  | omitted none missing =>
    simp only [Json.Omissible] at missing
    obtain ⟨rfl, rfl⟩ : rooted = false ∧ _ = Json.bool false := by simpa using missing
    refine ⟨?_, rfl⟩
    simp only [Name.ofJson?, Json.recordObject, Option.bind_eq_bind, Option.bind_some, handed foundParts,
      readParts, handed (Json.memberMissing none)]

theorem UnaryOp.read (op : UnaryOp) : UnaryOp.ofJson? (.str op.tag) = some op := by
  cases op <;> rfl

theorem BinaryOp.read (op : BinaryOp) : BinaryOp.ofJson? (.str op.tag) = some op := by
  cases op <;> rfl

theorem Json.Relaxed.placed {v j k : Json} {r : Range} (relaxed : Relaxed (.located v r) j k)
    (present : v.filled = true) :
    ∃ node r' w inside x, j.record? ["value"] ["range"] = some node ∧ Range.ofNode? node = some r' ∧
      node.required? "value" = some ⟨w, inside⟩ ∧ Relaxed v w x ∧ k = .located x r' := by
  obtain ⟨ns, rs, rfl, rfl, _ | ⟨value, _ | ⟨place, _ | _⟩⟩⟩ := relaxed.fields (by simp [records])
  obtain ⟨w, inside, found, content⟩ := value.required (by decide) present
  cases place with
  | kept one value =>
    obtain ⟨_, foundPlace⟩ := Json.memberFound one
    obtain ⟨readPlace, rfl⟩ := Range.read value
    refine ⟨_, r, w, inside, _, rfl, ?_, found, content, rfl⟩
    simp only [Range.ofNode?, Option.bind_eq_bind, handed foundPlace, readPlace]
  | omitted none missing =>
    obtain rfl : _ = Range.synthetic.toJson := by simpa [Json.Omissible] using missing
    refine ⟨_, .synthetic, w, inside, _, rfl, ?_, found, content, rfl⟩
    simp only [Range.ofNode?, Option.bind_eq_bind, handed (Json.memberMissing none)]

theorem Json.Relaxed.opened {kind : String} {v j k : Json} {r : Range}
    (relaxed : Relaxed (.located (.obj [(kind, v)]) r) j k) (isCase : [kind] ∉ records) :
    ∃ node r' c x inside, j.record? ["value"] ["range"] = some node ∧ Range.ofNode? node = some r' ∧
      node.required? "value" = some ⟨.obj [(kind, c)], inside⟩ ∧ Relaxed v c x ∧
      k = .located (.obj [(kind, x)]) r' := by
  obtain ⟨node, r', w, inside, x, shape, place, found, value, rfl⟩ := relaxed.placed rfl
  obtain ⟨c, x, rfl, rfl, content⟩ := value.content isCase
  exact ⟨node, r', c, x, inside, shape, place, found, content, rfl⟩

theorem Json.locatedInj {v w : Json} {r s : Range} (written : Json.located v r = .located w s) :
    v = w ∧ r = s := by
  simp only [Json.located, Json.obj.injEq, List.cons.injEq, Prod.mk.injEq] at written
  obtain ⟨⟨-, value⟩, ⟨-, place⟩, -⟩ := written
  exact ⟨value, Range.toJsonInj place⟩

theorem Json.openedInj {kind : String} {v w : Json} {r s : Range}
    (written : Json.located (.obj [(kind, v)]) r = .located (.obj [(kind, w)]) s) : v = w ∧ r = s := by
  obtain ⟨value, place⟩ := locatedInj written
  exact ⟨by simpa using value, place⟩

end PhpLint
