import Thermald.Adaptive.Conditions
import Thermald.Gddv.Appc
import Thermald.Gddv.Frames

/-!
# Empty condition sets

`evaluate_conditions` takes the target of a set that matches from the first condition of the set,
and a set without conditions matches. A table of version 1 has ten conditions in each set. A table
of version 2 has a count for each set, which is not checked: the loop that reads the conditions
runs while its counter is below the count, narrowed to `int`, and nothing is read if that is not
positive.

`apct_sets_indexable_iff` says that the stored sets all have a first condition exactly if the
counts are positive after the narrowing.
-/

namespace Thermald.Gddv

/-! ## The counts of a table -/

/-- A set of a table of version 1 is read and stored, and its count is returned. -/
def countedSet1 (fuel : Nat) (apct : Bytes) (len : Int) : Decoder Int := do
  let target ← getUint64 apct
  if int32 target = -1 then throw .gddvException
  else
    parseConditionSet fuel 10 (parseCondition1 apct len (int32 target))
    pure 10

/-- A set of a table of version 2, with its count as the loop over the conditions sees it. -/
def countedSet2 (fuel : Nat) (apct : Bytes) (len : Int) : Decoder Int := do
  let target ← getUint64 apct
  if int32 target = -1 then throw .gddvException
  else
    let count ← getUint64 apct
    parseConditionSet fuel (int32 count) (parseCondition2 apct len (int32 target) count)
    pure (int32 count)

/-- The counts of the sets up to the end of the table. -/
def setCounts (fuel : Nat) (len : Int) (countedSet : Decoder Int) : Decoder (List Int) :=
  whileBelow fuel len (fun counts => do
    let count ← countedSet
    pure (counts ++ [count])) []

/-- `parse_apct`, with the counts of the sets that it reads. -/
def apctCounts (fuel : Nat) (apct : Bytes) (len : Int) : Decoder (List Int) := do
  begin len
  let version ← getUint64 apct
  if version = 1 then setCounts fuel len (countedSet1 fuel apct len)
  else if version = 2 then setCounts fuel len (countedSet2 fuel apct len)
  else throw .gddvException

/-- A loop over sets, without the counts. -/
theorem map_setCounts (fuel : Nat) (len : Int) (countedSet : Decoder Int) :
    (fun _ => (0 : Int)) <$> setCounts fuel len countedSet =
      (whileBelow fuel len (fun _ => (fun _ => ()) <$> countedSet) () >>= fun _ => pure 0) := by
  have hbody : ∀ counts : List Int,
      (fun _ => ()) <$> (countedSet >>= fun count => pure (counts ++ [count])) =
        (fun _ => ()) <$> countedSet := by
    intro counts
    simp
  have hloop : (fun _ => ()) <$> setCounts fuel len countedSet =
      whileBelow fuel len (fun _ => (fun _ => ()) <$> countedSet) () := by
    unfold setCounts whileBelow
    refine map_loop (g := fun _ : List Int => ()) ?_ ?_ fuel []
    · exact fun _ _ => rfl
    · exact hbody
  rw [← hloop, bind_map_left]
  exact map_eq_pure_bind _ _

/-- The table is read and stored as `parse_apct` does it. -/
theorem parseApct_eq_map (fuel : Nat) (apct : Bytes) (len : Int) :
    parseApct fuel apct len = (fun _ => 0) <$> apctCounts fuel apct len := by
  have hset1 : (fun _ => ()) <$> countedSet1 fuel apct len =
      (getUint64 apct >>= fun target => if int32 target = -1 then throw .gddvException
        else parseConditionSet fuel 10 (parseCondition1 apct len (int32 target))) := by
    unfold countedSet1
    rw [map_bind]
    refine bind_congr fun target => ?_
    split
    · rfl
    · rw [map_bind]
      exact bind_pure _
  have hset2 : (fun _ => ()) <$> countedSet2 fuel apct len =
      (getUint64 apct >>= fun target => if int32 target = -1 then throw .gddvException
        else getUint64 apct >>= fun count => parseConditionSet fuel (int32 count)
          (parseCondition2 apct len (int32 target) count)) := by
    unfold countedSet2
    rw [map_bind]
    refine bind_congr fun target => ?_
    split
    · rfl
    · rw [map_bind]
      refine bind_congr fun count => ?_
      rw [map_bind]
      exact bind_pure _
  unfold parseApct apctCounts
  rw [map_bind, ← hset1, ← hset2]
  refine bind_congr fun _ => ?_
  rw [map_bind]
  refine bind_congr fun version => ?_
  split
  · exact (map_setCounts ..).symm
  · split
    · exact (map_setCounts ..).symm
    · rfl

/-! ## One set -/

/-- Reading a condition adds one to the set and leaves the tables alone. -/
structure ReadsOne (body : SetState → Decoder SetState) : Prop where
  adds : ∀ v, Yields (fun v' => v'.conditionSet ≠ []) (body v)
  keeps : ∀ v, Keeps id (body v)

theorem parse_condition1_reads_one (apct : Bytes) (len target : Int) :
    ReadsOne (parseCondition1 apct len target) := by
  refine ⟨fun v => ?_, keeps_condition1 apct len target⟩
  have hadds : ∀ i c, Yields (fun v' : SetState => v'.conditionSet ≠ [])
      (pure ⟨i, v.conditionSet ++ [c]⟩) := fun _ _ => .pure (by simp)
  unfold parseCondition1
  refine .bind fun _ => .ite (.throw _) ?_
  refine .bind fun _ => .bind fun _ => .bind fun _ => .ite ?_ (hadds _ _)
  refine .bind fun _ => .ite ?_ (hadds _ _)
  exact .bind fun _ => .bind fun _ => .bind fun _ => .bind fun _ => hadds _ _

theorem parse_condition2_reads_one (apct : Bytes) (len target : Int) (count : Nat) :
    ReadsOne (parseCondition2 apct len target count) := by
  refine ⟨fun v => ?_, keeps_condition2 apct len target count⟩
  have hadds : ∀ i c, Yields (fun v' : SetState => v'.conditionSet ≠ [])
      (pure ⟨i, v.conditionSet ++ [c]⟩) := fun _ _ => .pure (by simp)
  unfold parseCondition2
  refine .bind fun _ => .ite (.throw _) ?_
  refine .bind fun _ => .bind fun _ => .bind fun _ => .bind fun _ => .bind fun _ => ?_
  refine .ite (.bind fun _ => .ite ?_ (hadds _ _)) (hadds _ _)
  refine .bind fun _ => .bind fun _ => .bind fun _ => .bind fun _ => .bind fun _ => ?_
  exact .bind fun _ => hadds _ _

/-- A set is added that has a condition exactly if the count is positive. -/
theorem parse_condition_set_adds {fuel : Nat} {count : Int} {body : SetState → Decoder SetState}
    (hbody : ReadsOne body) {c c' : Cursor} {u : Unit}
    (h : Returns (parseConditionSet fuel count body) c u c') :
    ∃ cs, c'.gddv.conditions = c.gddv.conditions ++ [cs] ∧ (cs ≠ [] ↔ 0 < count) := by
  unfold parseConditionSet at h
  obtain ⟨v, c₁, hloop, hupdate⟩ := h.of_bind
  cases hupdate
  -- The counter starts at 0, and a set that has a condition was entered with a positive count.
  have hinv := Returns.loop_invariant
    (I := fun (v : SetState) s => s.gddv = c.gddv ∧ (v.conditionSet = [] → v.i = 0) ∧
      (v.conditionSet ≠ [] → 0 < count))
    (fun v s v' s' hI hcond hstep => ?_) ⟨rfl, fun _ => rfl, fun hne => absurd rfl hne⟩ hloop
  · obtain ⟨⟨hkept, hempty, hfull⟩, hend⟩ := hinv
    refine ⟨v.conditionSet, by rw [← hkept], hfull, fun hpos hnil => ?_⟩
    have hi := hempty hnil
    rw [hi] at hend
    exact absurd hpos (of_decide_eq_false hend)
  · obtain ⟨hkept, hempty, hfull⟩ := hI
    have hadds := (hbody.adds v).holds hstep
    refine ⟨((hbody.keeps v).eq hstep).trans hkept, fun hnil => absurd hnil hadds, fun _ => ?_⟩
    by_cases hnil : v.conditionSet = []
    · rw [hempty hnil] at hcond
      exact of_decide_eq_true hcond
    · exact hfull hnil

/-! ## Tables -/

/-- A set is added to the tables that has a condition exactly if the count is positive. -/
def AddsCounted (countedSet : Decoder Int) : Prop :=
  ∀ c count c', Returns countedSet c count c' →
    ∃ cs, c'.gddv.conditions = c.gddv.conditions ++ [cs] ∧ (cs ≠ [] ↔ 0 < count)

theorem counted_set1_adds (fuel : Nat) (apct : Bytes) (len : Int) :
    AddsCounted (countedSet1 fuel apct len) := by
  intro c count c' h
  unfold countedSet1 at h
  obtain ⟨target, c₁, htarget, h⟩ := h.of_bind
  have hread : Keeps id (getUint64 apct) := keeps_get_uint64 apct
  have hkept : c₁.gddv = c.gddv := hread.eq htarget
  split at h
  · exact h.of_throw.elim
  obtain ⟨_, c₂, hset, hpure⟩ := h.of_bind
  obtain ⟨rfl, rfl⟩ := hpure.of_pure
  rw [← hkept]
  exact parse_condition_set_adds (parse_condition1_reads_one ..) hset

theorem counted_set2_adds (fuel : Nat) (apct : Bytes) (len : Int) :
    AddsCounted (countedSet2 fuel apct len) := by
  intro c count c' h
  unfold countedSet2 at h
  obtain ⟨target, c₁, htarget, h⟩ := h.of_bind
  have hread : Keeps id (getUint64 apct) := keeps_get_uint64 apct
  have hkept : c₁.gddv = c.gddv := hread.eq htarget
  split at h
  · exact h.of_throw.elim
  obtain ⟨value, c₂, hvalue, h⟩ := h.of_bind
  have hkept' : c₂.gddv = c₁.gddv := hread.eq hvalue
  obtain ⟨_, c₃, hset, hpure⟩ := h.of_bind
  obtain ⟨hcount, hend⟩ := hpure.of_pure
  rw [hcount, hend, ← hkept, ← hkept']
  exact parse_condition_set_adds (parse_condition2_reads_one ..) hset

/-- All sets have a condition. -/
def NoEmptySet (conditions : List (List Condition)) : Prop :=
  ∀ cs ∈ conditions, cs ≠ []

/-- The sets of a table are stored, and have a condition exactly if their counts are positive. -/
theorem set_counts_no_empty {fuel : Nat} {len : Int} {countedSet : Decoder Int}
    (hset : AddsCounted countedSet) {c c' : Cursor} {counts : List Int}
    (h : Returns (setCounts fuel len countedSet) c counts c') :
    NoEmptySet c'.gddv.conditions ↔
      NoEmptySet c.gddv.conditions ∧ ∀ count ∈ counts, 0 < count := by
  have hinv := Returns.loop_invariant
    (I := fun counts s => NoEmptySet s.gddv.conditions ↔
      NoEmptySet c.gddv.conditions ∧ ∀ count ∈ counts, 0 < count)
    (fun counts s counts' s' hI _ hstep => ?_) (by simp) h
  · exact hinv.1
  · obtain ⟨count, s₁, hcounted, hpure⟩ := hstep.of_bind
    obtain ⟨rfl, rfl⟩ := hpure.of_pure
    obtain ⟨cs, hconditions, hcs⟩ := hset s count s' hcounted
    unfold NoEmptySet at hI ⊢
    simp only [hconditions, List.forall_mem_append, List.forall_mem_singleton, hcs, hI, and_assoc]

/-- The sets of a table, and those that were stored before. -/
theorem apct_counts_no_empty {fuel : Nat} {apct : Bytes} {len : Int} {c c' : Cursor}
    {counts : List Int} (h : Returns (apctCounts fuel apct len) c counts c') :
    NoEmptySet c'.gddv.conditions ↔
      NoEmptySet c.gddv.conditions ∧ ∀ count ∈ counts, 0 < count := by
  unfold apctCounts at h
  obtain ⟨_, c₁, hbegin, h⟩ := h.of_bind
  obtain ⟨version, c₂, hversion, h⟩ := h.of_bind
  have hconditions : c₂.gddv.conditions = c.gddv.conditions := by
    have hread : Keeps Gddv.conditions (getUint64 apct) := keeps_get_uint64 apct
    rw [hread.eq hversion]
    cases hbegin
    rfl
  rw [← hconditions]
  split at h
  · exact set_counts_no_empty (counted_set1_adds fuel apct len) h
  · split at h
    · exact set_counts_no_empty (counted_set2_adds fuel apct len) h
    · exact h.of_throw.elim

/-! ## Evaluation -/

/-- An evaluation keeps the number of conditions of a set. -/
theorem length_evaluated_set (w : Surroundings) (currentTargetMatched : Int) (cs : List Condition) :
    (evaluateConditionSet w currentTargetMatched cs).2.length = cs.length := by
  induction cs with
  | nil => rfl
  | cons c rest ih =>
      rw [evaluateConditionSet]
      cases hok : (evaluateCondition w currentTargetMatched c).1 with
      | true => simpa [hok] using ih
      | false => simp [hok]

/-- An evaluation makes no set empty. -/
theorem evaluated_sets_no_empty (w : Surroundings) (currentTargetMatched : Int)
    {conditions : List (List Condition)} (h : NoEmptySet conditions) :
    NoEmptySet (evaluateSets w currentTargetMatched conditions).2 := by
  have hset : ∀ cs : List Condition, cs ≠ [] →
      (evaluateConditionSet w currentTargetMatched cs).2 ≠ [] := by
    intro cs hne hnil
    have hlength := length_evaluated_set w currentTargetMatched cs
    rw [hnil] at hlength
    exact hne (List.length_eq_zero_iff.mp hlength.symm)
  induction conditions with
  | nil => exact h
  | cons cs rest ih =>
      obtain ⟨hcs, hrest⟩ := List.forall_mem_cons.mp h
      rw [evaluateSets]
      cases hok : (evaluateConditionSet w currentTargetMatched cs).1 with
      | true =>
          simp only [hok, if_true]
          exact List.forall_mem_cons.mpr ⟨hset cs hcs, hrest⟩
      | false =>
          simp only [hok, Bool.false_eq_true, if_false]
          exact List.forall_mem_cons.mpr ⟨hset cs hcs, ih hrest⟩

/-- The merge makes no set empty. -/
theorem merge_appc_no_empty {g : Gddv} (h : NoEmptySet g.conditions) :
    NoEmptySet (mergeAppc g).conditions := by
  rw [mergeAppc_conditions]
  intro cs hmem
  obtain ⟨cs₀, hcs₀, rfl⟩ := List.mem_map.mp hmem
  intro hnil
  exact h cs₀ hcs₀ (List.map_eq_nil_iff.mp hnil)

/-- Every stored set has a condition; and whatever the surroundings are at each poll after the
merge, the set whose first condition `evaluate_conditions` looks up has one. -/
def Indexable (g : Gddv) : Prop :=
  NoEmptySet g.conditions ∧
    ∀ (start : Watch) (polls : List Surroundings) (w : Surroundings) (i : Nat),
      start.matcher.conditions = (mergeAppc g).conditions →
        (run Watch.poll start polls).matcher.matchedSet w = some i →
          (run Watch.poll start polls).matcher.conditions[i]? ≠ some []

/-- It is enough that the stored sets have conditions. -/
theorem indexable_iff (g : Gddv) : Indexable g ↔ NoEmptySet g.conditions := by
  refine ⟨fun h => h.1, fun h => ⟨h, fun start polls w i hstart _ hempty => ?_⟩⟩
  have hinv : NoEmptySet (run Watch.poll start polls).matcher.conditions := by
    refine run_history (I := fun _ (g : Watch) => NoEmptySet g.matcher.conditions) ?_ ?_
    · rw [hstart]
      exact merge_appc_no_empty h
    · intro past g w' _ hg
      exact evaluated_sets_no_empty w' _ hg
  exact hinv [] (List.mem_of_getElem? hempty) rfl

/-- A table that is accepted leaves sets with conditions exactly if the sets before had conditions
and every count of the table, narrowed to `int`, is positive. -/
theorem apct_sets_indexable_iff {fuel : Nat} {apct : Bytes} {len : Int} {c c' : Cursor} {r : Int}
    (h : Returns (parseApct fuel apct len) c r c') :
    ∃ counts, Returns (apctCounts fuel apct len) c counts c' ∧
      (Indexable c'.gddv ↔ NoEmptySet c.gddv.conditions ∧ ∀ count ∈ counts, 0 < count) := by
  rw [parseApct_eq_map] at h
  obtain ⟨counts, hcounts, -⟩ := h.of_map
  refine ⟨counts, hcounts, ?_⟩
  rw [indexable_iff]
  exact apct_counts_no_empty hcounts

/-- A number of a table. -/
def uintField (value : Nat) : Bytes :=
  toLittleEndian 4 4 ++ toLittleEndian 8 value

/-- A table of version 2 with one set, for target 1, without conditions. -/
def emptySetTable : Bytes :=
  uintField 2 ++ uintField 1 ++ uintField 0

/-- The tables after it. -/
def emptySetCursor : Cursor :=
  ⟨36, { init with conditions := [[]], gddvCurBufLen := 36 }⟩

/-- The table is accepted, its empty set is stored, and it matches at the first poll. -/
theorem empty_set_indexed :
    Returns (parseApct 4 (emptySetTable ++ [0]) 36) ⟨0, init⟩ 0 emptySetCursor ∧
      ¬ Indexable emptySetCursor.gddv ∧
      Matcher.matchedSet ⟨(mergeAppc emptySetCursor.gddv).conditions, -1⟩
        ⟨0, fun _ => none, fun _ => none, none, none, none, 0⟩ = some 0 := by
  refine ⟨by decide +kernel, ?_, rfl⟩
  rw [indexable_iff]
  intro h
  exact h [] List.mem_cons_self rfl

/-- The table with one set of one condition. -/
def oneConditionTable : Bytes :=
  uintField 2 ++ uintField 1 ++ uintField 1 ++ uintField 17 ++ toLittleEndian 4 8 ++
    toLittleEndian 8 1 ++ [0] ++ uintField 0 ++ uintField 3 ++ uintField 3000

/-- The tables after it. -/
def oneConditionCursor : Cursor :=
  ⟨97, { init with
    conditions := [[{ Condition.init 1 with condition := 17, comparison := 3, argument := 3000 }]]
    gddvCurBufLen := 97 }⟩

/-- It leaves a set with its condition. -/
theorem one_condition_indexed :
    Returns (parseApct 4 (oneConditionTable ++ [0]) 97) ⟨0, init⟩ 0 oneConditionCursor ∧
      ∃ counts,
        Returns (apctCounts 4 (oneConditionTable ++ [0]) 97) ⟨0, init⟩ counts oneConditionCursor ∧
          (Indexable oneConditionCursor.gddv ↔
            NoEmptySet init.conditions ∧ ∀ count ∈ counts, 0 < count) := by
  have hparse : Returns (parseApct 4 (oneConditionTable ++ [0]) 97) ⟨0, init⟩ 0
      oneConditionCursor := by
    decide +kernel
  exact ⟨hparse, apct_sets_indexable_iff hparse⟩

end Thermald.Gddv
