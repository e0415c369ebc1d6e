import Thermald.Gddv.Decoders

/-!
# Custom conditions

The APPC table of a vault names custom conditions: a row gives the participant and the type of
condition that a code of the vendor stands for. After a vault is parsed, `merge_appc` puts them in
the place of the codes. It goes over the rows one after the other and looks at the conditions as
the rows before have left them, so a condition that a row has given its type is found again by a
later row whose code is that type.

`merge_appc_iff` says when the merge is the simultaneous substitution, for every order of the rows.
-/

namespace Thermald.Gddv

/-- `merge_custom`. The type of a row, an `int`, becomes an `enum adaptive_condition`, an unsigned
number of 32 bits. -/
def mergeCustom (custom : CustomCondition) (condition : Condition) : Condition :=
  { condition with device := custom.participant, condition := (uint32 custom.type).toNat }

/-- What a row does to a condition. -/
def mergeRow (condition : Condition) (custom : CustomCondition) : Condition :=
  if custom.condition = condition.condition then mergeCustom custom condition else condition

end Gddv

/-- `merge_appc`: each row is applied to all conditions of all sets. -/
def Gddv.mergeAppc (g : Gddv) : Gddv :=
  let conditions := g.customConditions.foldl (fun conditions custom =>
    conditions.map fun cs => cs.map fun condition => Gddv.mergeRow condition custom) g.conditions
  { g with conditions }

namespace Gddv

/-- The row that is listed for a code. -/
def appcRow (rows : List CustomCondition) (code : Nat) : Option CustomCondition :=
  rows.find? fun custom => custom.condition = code

/-- A condition gets the participant and the type of the row of its code. -/
def substitute (rows : List CustomCondition) (condition : Condition) : Condition :=
  match appcRow rows condition.condition with
  | some custom => mergeCustom custom condition
  | none => condition

/-- The merge is the simultaneous substitution in all conditions, and gives the same for every
order of the rows. -/
def MergesAtOnce (g : Gddv) : Prop :=
  ∀ rows, rows.Perm g.customConditions →
    (mergeAppc { g with customConditions := rows }).conditions =
      g.conditions.map fun cs => cs.map (substitute g.customConditions)

/-- A row whose code is the type that the row of some condition gives is for the same participant
and gives the same type. -/
def NoCapture (g : Gddv) : Prop :=
  ∀ cs ∈ g.conditions, ∀ condition ∈ cs, ∀ row ∈ g.customConditions, ∀ other ∈ g.customConditions,
    row.condition = condition.condition → other.condition = (uint32 row.type).toNat →
      other.participant = row.participant ∧ (uint32 other.type).toNat = (uint32 row.type).toNat

/-! ## One condition -/

/-- The rows act on each condition for itself. -/
theorem mergeAppc_conditions (g : Gddv) :
    (mergeAppc g).conditions =
      g.conditions.map fun cs => cs.map fun condition =>
        g.customConditions.foldl mergeRow condition := by
  unfold mergeAppc
  dsimp only
  generalize g.conditions = conditions
  induction g.customConditions generalizing conditions with
  | nil => simp
  | cons custom rows ih =>
      rw [List.foldl_cons, ih]
      simp [List.map_map, Function.comp_def]

/-- Two rows leave the same in a condition exactly if they agree in participant and type. -/
theorem mergeCustom_eq_iff (row other : CustomCondition) (condition : Condition) :
    mergeCustom other condition = mergeCustom row condition ↔
      other.participant = row.participant ∧
        (uint32 other.type).toNat = (uint32 row.type).toNat := by
  simp [mergeCustom, and_comm]

/-- Only the last row that is merged into a condition counts. -/
theorem mergeCustom_mergeCustom (row other : CustomCondition) (condition : Condition) :
    mergeCustom other (mergeCustom row condition) = mergeCustom other condition :=
  rfl

/-- Rows for other codes leave a condition alone. -/
theorem foldl_mergeRow_of_ne {rows : List CustomCondition} {condition : Condition}
    (h : ∀ row ∈ rows, row.condition ≠ condition.condition) :
    rows.foldl mergeRow condition = condition := by
  induction rows with
  | nil => rfl
  | cons row rows ih =>
      have hrow : mergeRow condition row = condition := if_neg (h row List.mem_cons_self)
      rw [List.foldl_cons, hrow]
      exact ih fun other hmem => h other (List.mem_cons_of_mem _ hmem)

/-- A condition that holds what a row gives keeps it if every row for its type gives the same. -/
theorem foldl_mergeRow_of_same {rows : List CustomCondition} {row : CustomCondition}
    {condition : Condition}
    (h : ∀ other ∈ rows, other.condition = (uint32 row.type).toNat →
      mergeCustom other condition = mergeCustom row condition) :
    rows.foldl mergeRow (mergeCustom row condition) = mergeCustom row condition := by
  induction rows with
  | nil => rfl
  | cons other rows ih =>
      have hstep : mergeRow (mergeCustom row condition) other = mergeCustom row condition := by
        unfold mergeRow
        split
        · rename_i hcode
          rw [mergeCustom_mergeCustom]
          exact h other List.mem_cons_self hcode
        · rfl
      rw [List.foldl_cons, hstep]
      exact ih fun other' hmem => h other' (List.mem_cons_of_mem _ hmem)

section Distinct

variable {rows : List CustomCondition}

/-- In a table with distinct codes, a row is the row of its code. -/
theorem appcRow_eq (hdistinct : (rows.map CustomCondition.condition).Nodup) {row : CustomCondition}
    (hmem : row ∈ rows) : appcRow rows row.condition = some row := by
  unfold appcRow
  have hsome : (rows.find? fun custom => custom.condition = row.condition).isSome := by
    rw [List.find?_isSome]
    exact ⟨row, hmem, decide_eq_true rfl⟩
  obtain ⟨found, hfound⟩ := Option.isSome_iff_exists.mp hsome
  have hcode : found.condition = row.condition := by
    simpa using List.find?_some hfound
  rw [hfound, List.inj_on_of_nodup_map hdistinct (List.mem_of_find?_eq_some hfound) hmem hcode]

/-- A row of the table, with the rows before and behind it, which are for other codes. -/
theorem split_at_row (hdistinct : (rows.map CustomCondition.condition).Nodup)
    {row : CustomCondition} (hmem : row ∈ rows) :
    ∃ before behind, rows = before ++ row :: behind ∧
      (∀ other ∈ before ++ behind, other.condition ≠ row.condition) := by
  obtain ⟨before, behind, rfl⟩ := List.append_of_mem hmem
  refine ⟨before, behind, rfl, fun other hother hcode => ?_⟩
  rw [List.map_append, List.map_cons, List.nodup_middle, ← List.map_append, List.nodup_cons]
    at hdistinct
  exact hdistinct.1 (List.mem_map.mpr ⟨other, hother, hcode⟩)

/-- The condition of a row gets what that row gives, if every row for the type that it gives gives
the same. -/
theorem foldl_mergeRow_of_no_capture (hdistinct : (rows.map CustomCondition.condition).Nodup)
    {row : CustomCondition} {condition : Condition} (hmem : row ∈ rows)
    (hcode : row.condition = condition.condition)
    (h : ∀ other ∈ rows, other.condition = (uint32 row.type).toNat →
      mergeCustom other condition = mergeCustom row condition) :
    rows.foldl mergeRow condition = mergeCustom row condition := by
  obtain ⟨before, behind, rfl, hothers⟩ := split_at_row hdistinct hmem
  have hbefore : before.foldl mergeRow condition = condition :=
    foldl_mergeRow_of_ne fun other hother =>
      hcode ▸ hothers other (List.mem_append_left _ hother)
  have hrow : mergeRow condition row = mergeCustom row condition := if_pos hcode
  rw [List.foldl_append, hbefore, List.foldl_cons, hrow]
  apply foldl_mergeRow_of_same
  intro other hother
  exact h other (List.mem_append_right _ (List.mem_cons_of_mem _ hother))

/-- With the row of a condition and a row for the type that it gives at the end, the condition gets
what the latter gives. -/
theorem foldl_mergeRow_captured {others : List CustomCondition} {row other : CustomCondition}
    {condition : Condition} (hcode : row.condition = condition.condition)
    (hcapture : other.condition = (uint32 row.type).toNat)
    (hothers : ∀ custom ∈ others, custom.condition ≠ row.condition) :
    (others ++ [row, other]).foldl mergeRow condition = mergeCustom other condition := by
  have hbefore : others.foldl mergeRow condition = condition :=
    foldl_mergeRow_of_ne fun custom hmem => hcode ▸ hothers custom hmem
  have hrow : mergeRow condition row = mergeCustom row condition := if_pos hcode
  have hother : mergeRow (mergeCustom row condition) other = mergeCustom other condition :=
    if_pos hcapture
  rw [List.foldl_append, hbefore, List.foldl_cons, List.foldl_cons, List.foldl_nil, hrow, hother]

end Distinct

/-! ## All conditions -/

/-- The merge is the simultaneous substitution exactly if it is for each condition. -/
theorem merges_at_once_iff (g : Gddv) :
    MergesAtOnce g ↔ ∀ rows : List CustomCondition, rows.Perm g.customConditions →
      ∀ cs ∈ g.conditions, ∀ condition ∈ cs,
        rows.foldl mergeRow condition = substitute g.customConditions condition := by
  unfold MergesAtOnce
  refine forall₂_congr fun rows _ => ?_
  rw [mergeAppc_conditions, List.map_inj_left]
  exact forall₂_congr fun cs _ => List.map_inj_left

/-- For a table with distinct codes, `merge_appc` is the simultaneous substitution, for every order
of the rows, exactly if no row captures the conditions that another one has given their type. -/
theorem merge_appc_iff (g : Gddv)
    (hdistinct : (g.customConditions.map CustomCondition.condition).Nodup) :
    MergesAtOnce g ↔ NoCapture g := by
  rw [merges_at_once_iff]
  constructor
  · intro h cs hcs condition hcondition row hrow other hother hcode hcapture
    by_cases hsame : other = row
    · rw [hsame]
      exact ⟨rfl, rfl⟩
    · -- In the order with the two rows at the end, the second one has the last word.
      let others := (g.customConditions.erase row).erase other
      have hmem : other ∈ g.customConditions.erase row :=
        (List.mem_erase_of_ne hsame).mpr hother
      have hperm : (others ++ [row, other]).Perm g.customConditions := by
        refine List.perm_append_comm.trans ?_
        exact ((List.perm_cons_erase hmem).symm.cons row).trans (List.perm_cons_erase hrow).symm
      have hnodup := (hperm.map CustomCondition.condition).nodup_iff.mpr hdistinct
      have hothers : ∀ custom ∈ others, custom.condition ≠ row.condition := by
        intro custom hcustom heq
        rw [List.map_append, List.nodup_append] at hnodup
        exact hnodup.2.2 _ (List.mem_map_of_mem hcustom) _ (List.mem_cons_self) heq
      have hmerged := h _ hperm cs hcs condition hcondition
      rw [foldl_mergeRow_captured hcode hcapture hothers, substitute, ← hcode,
        appcRow_eq hdistinct hrow] at hmerged
      exact (mergeCustom_eq_iff row other condition).mp hmerged
  · intro h rows hperm cs hcs condition hcondition
    have hrows := (hperm.map CustomCondition.condition).nodup_iff.mpr hdistinct
    unfold substitute
    cases hrow : appcRow g.customConditions condition.condition with
    | none =>
        have hnone := List.find?_eq_none.mp hrow
        apply foldl_mergeRow_of_ne
        intro row hmem hcode
        exact hnone row (hperm.mem_iff.mp hmem) (decide_eq_true hcode)
    | some row =>
        have hmem : row ∈ g.customConditions := List.mem_of_find?_eq_some hrow
        have hcode : row.condition = condition.condition := by
          simpa using List.find?_some hrow
        apply foldl_mergeRow_of_no_capture hrows (hperm.mem_iff.mpr hmem) hcode
        intro other hother hcapture
        rw [mergeCustom_eq_iff]
        exact h cs hcs condition hcondition row hmem other (hperm.mem_iff.mp hother) hcode hcapture

/-- A table in which the type of the first row is the code of the second, and a set with a condition
for the first. -/
def capturing : Gddv :=
  { init with
    customConditions := [⟨0x1000, [], ascii "A", 0, 0x1001⟩, ⟨0x1001, [], ascii "B", 0, 5⟩]
    conditions := [[{ Condition.init 1 with condition := 0x1000 }]] }

/-- The second row captures the condition: it ends with the second row's participant and type. -/
theorem merge_appc_captures :
    (capturing.customConditions.map CustomCondition.condition).Nodup ∧ ¬ MergesAtOnce capturing ∧
      (mergeAppc capturing).conditions =
        [[{ Condition.init 1 with condition := 5, device := ascii "B" }]] := by
  have hnodup : (capturing.customConditions.map CustomCondition.condition).Nodup := by decide
  refine ⟨hnodup, fun h => ?_, rfl⟩
  have hmerged := h capturing.customConditions (List.Perm.refl _)
  exact absurd hmerged (by decide)

/-- The table in the other order: the row that captures comes first, but the order must not
matter. -/
theorem merge_appc_reordered :
    (capturing.customConditions.reverse.map CustomCondition.condition).Nodup ∧
      (MergesAtOnce { capturing with customConditions := capturing.customConditions.reverse } ↔
        NoCapture { capturing with customConditions := capturing.customConditions.reverse }) :=
  ⟨by decide, merge_appc_iff _ (by decide)⟩

end Thermald.Gddv
