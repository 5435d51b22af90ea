import PhpLint.Proofs.Constant.Symbol

/-! Looking a name up while the table is being filled and after it is finished. The table being filled
drops all separators in front of a name; the finished one takes a name with a separator in front for a
key, and no key begins with two. So both find the same definition under a name with at most one separator
in front, and under any other spelling the finished table finds nothing. -/
namespace PhpLint.Constant

def leading (name : String) : Nat := (name.toList.takeWhile isSeparator).length

def padded (n : Nat) (name : String) : String :=
  String.ofList (List.replicate n '\\' ++ name.toList)

theorem leadingHead (name : String) : name.toList.head? = some '\\' ↔ leading name ≠ 0 := by
  unfold leading
  cases name.toList with
  | nil => simp
  | cons c rest => by_cases separator : c = '\\' <;> simp [isSeparator, separator]

theorem leadingCanonical (name : String) : Canonical name ↔ leading name = 1 := by
  unfold leading Canonical
  cases name.toList with
  | nil => simp
  | cons c rest =>
    by_cases separator : c = '\\'
    · cases rest with
      | nil => simp [isSeparator, separator]
      | cons d more => by_cases second : d = '\\' <;> simp [isSeparator, separator, second]
    · simp [isSeparator, separator]

theorem leadingPadded (n : Nat) (name : String) : leading (padded n name) = n + leading name := by
  unfold leading padded
  rw [String.toList_ofList]
  induction n with
  | zero => simp
  | succ n ih =>
    rw [List.replicate_succ, List.cons_append, List.takeWhile_cons_of_pos rfl, List.length_cons, ih]
    omega

theorem qualifyPadded (n : Nat) (name : String) : qualify "" (padded n name) = qualify "" name := by
  have dropped : (List.replicate n '\\' ++ name.toList).dropWhile isSeparator =
      name.toList.dropWhile isSeparator := by
    induction n with
    | zero => rfl
    | succ n ih => rw [List.replicate_succ, List.cons_append, List.dropWhile_cons_of_pos rfl, ih]
  rw [qualifyTop, qualifyTop, padded, String.toList_ofList, dropped]

namespace Table

theorem recordedPadded (t : Table) (n : Nat) (name : String) :
    t.recorded? (padded n name) = t.recorded? name := by
  rw [recorded?, recorded?, qualifyPadded]

theorem getFinished (es : List Event) (name : String) :
    (ofEvents es).get? name = if leading name ≤ 1 then (ofEvents es).recorded? name else none := by
  by_cases bare : leading name = 0
  · have relative : name.toList.head? ≠ some '\\' := fun rooted => (leadingHead name).mp rooted bare
    rw [get?, if_neg relative, if_pos (by omega)]
  · by_cases rooted : leading name = 1
    · rw [getRecorded ((leadingCanonical name).mpr rooted), if_pos (by omega)]
    · rw [getKey ((leadingHead name).mpr bare), if_neg (by omega)]
      cases found : (ofEvents es).at? name with
      | none => rfl
      | some d =>
        obtain ⟨e, -, rfl⟩ := ofEventsKey found
        exact absurd ((leadingCanonical _).mp (qualifyCanonical "" e.key)) rooted

end Table

theorem finishedFindsSingly (es : List Event) (name : String) :
    let t := Table.ofEvents es
    t.get? name = (if leading name ≤ 1 then t.recorded? name else none) ∧
    ((t.get? name).map Definition.expr = (t.recorded? name).map Definition.expr ↔
      leading name ≤ 1 ∨ t.recorded? name = none) ∧
    ((t.get? name).isSome = true ↔ (t.recorded? name).isSome = true ∧ leading name ≤ 1) ∧
    ∀ n, t.recorded? (padded n name) = t.recorded? name ∧ t.get? (padded (n + 2) name) = none := by
  intro t
  have lookup (name : String) : t.get? name = if leading name ≤ 1 then t.recorded? name else none :=
    Table.getFinished es name
  refine ⟨lookup name, ?_, ?_, fun n => ⟨t.recordedPadded n name, ?_⟩⟩
  · rw [lookup]
    split
    · rename_i few
      simp [few]
    · rename_i many
      simp [many, eq_comm]
  · rw [lookup]
    split
    · rename_i few
      simp [few]
    · rename_i many
      simp [many]
  · rw [lookup, leadingPadded, if_neg (by omega)]

theorem doubledNameLost :
    ((Table.ofEvents [⟨"A", .integer .synthetic "1", ""⟩]).recorded? "\\\\A").isSome = true ∧
    (Table.ofEvents [⟨"A", .integer .synthetic "1", ""⟩]).get? "\\\\A" = none :=
  ⟨by decide +kernel, Option.isNone_iff_eq_none.mp (by decide +kernel)⟩

end PhpLint.Constant
