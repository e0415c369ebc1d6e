import Mathlib.Tactic.FinCases
import Thermald.Cooling.Reset
import Thermald.Cooling.TargetUsers

/-!
# The order of the limits

The last entry of `zoneTripLimits` is the one that is applied, so the list has to be sorted by how
constraining its targets are. `limits_by_target` says that it is, in every run of calls by users
that pass valid targets, whatever the targets, the times and the releases are, and that no trip
ever has two entries. A user that passes range limits with its target sorts the list by the ranges
instead (`range_limits_unsorted`): the two are meant to exclude each other.
-/

namespace Thermald

/-- A call of `thd_cdev_set_state` with the controller of the trip, or of
`thd_cdev_set_min_state`, and the time at which it is made. -/
inductive LimitCall where
  | setState (args : SetStateArgs) (pid : Pid) (tm : Int)
  | setMinState (zoneId tripId tm : Int)

namespace LimitCall

/-- An activation passes a valid target state. -/
def PassesTarget : LimitCall → Prop
  | setState a _ _ => a.state = true → a.targetStateValid = true
  | setMinState _ _ _ => True

/-- An activation passes no range limits. -/
def PassesNoRange : LimitCall → Prop
  | setState a _ _ => a.state = true → a.minMaxValid = false
  | setMinState _ _ _ => True

end LimitCall

namespace Cdev

variable {δ : Type}

/-- The targets in the order in which they constrain the device, the most constraining one last. -/
structure LimitsByTarget (d : Cdev δ) : Prop where
  ascending : d.minState < d.maxState →
    d.zoneTripLimits.Pairwise fun l l' => l.targetValue ≤ l'.targetValue
  descending : d.maxState < d.minState →
    d.zoneTripLimits.Pairwise fun l l' => l'.targetValue ≤ l.targetValue
  last : ∀ last, d.zoneTripLimits.getLast? = some last →
    ∀ l ∈ d.zoneTripLimits, d.level l.targetValue ≤ d.level last.targetValue

/-- No trip has two entries. -/
def LimitsDistinct (d : Cdev δ) : Prop :=
  (d.zoneTripLimits.map ZoneTripLimit.user).Nodup

/-- The targets are sorted by their level. -/
def LimitsSorted (d : Cdev δ) : Prop :=
  d.zoneTripLimits.Pairwise fun l l' => d.level l.targetValue ≤ d.level l'.targetValue

variable {d d' : Cdev δ} {a : SetStateArgs}

/-- Sorted by level, the targets are in the order of the states or in the opposite one. -/
theorem LimitsSorted.by_target (h : d.LimitsSorted) : d.LimitsByTarget where
  ascending hup := h.imp fun hle => by simpa [Device.level, hup] using hle
  descending hdown := h.imp fun hle => by simpa [Device.level, hdown.not_gt] using hle
  last _ hlast _ hl := level_le_last_of_sorted h hl hlast

/-- A part of a sorted list is sorted, on a device with the same range. -/
theorem LimitsSorted.sublist (h : d.LimitsSorted) (hconfig : SameConfig d d')
    (hsub : d'.zoneTripLimits.Sublist d.zoneTripLimits) : d'.LimitsSorted :=
  (List.Pairwise.sublist hsub h).imp fun hle => by rwa [hconfig.level, hconfig.level]

variable [StdSort]

variable [CdevClass δ] {pid : Pid} {tm : Int}

/-! ## One call -/

/-- Every call keeps the trips of the entries different. -/
theorem LimitsDistinct.set_state (h : d.LimitsDistinct) :
    (d.thdCdevSetState a pid tm).2.1.LimitsDistinct := by
  unfold LimitsDistinct
  rw [set_state_limits]
  split
  · split
    · exact h
    · rename_i hnew
      exact add_limit_nodup h (by simpa using hnew)
  · exact h.sublist (withdraw_front.sublist.map _)

/-- A call whose activation passes a target, and no range, keeps the entries sorted. -/
theorem LimitsSorted.set_state (h : d.LimitsSorted)
    (htarget : a.state = true → a.targetStateValid = true)
    (hrange : a.state = true → a.minMaxValid = false) :
    (d.thdCdevSetState a pid tm).2.1.LimitsSorted := by
  have hconfig : SameConfig d (d.thdCdevSetState a pid tm).2.1 := set_state_config
  have hlimits : (d.thdCdevSetState a pid tm).2.1.zoneTripLimits = _ := set_state_limits
  cases hstate : a.state with
  | false =>
      simp only [hstate, Bool.false_eq_true, if_false] at hlimits
      exact h.sublist hconfig (hlimits ▸ withdraw_front.sublist)
  | true =>
      simp only [hstate, if_true] at hlimits
      split at hlimits
      · exact h.sublist hconfig (hlimits ▸ List.Sublist.refl _)
      · unfold LimitsSorted
        rw [hlimits]
        refine (d.add_limit_sorted (htarget hstate) (hrange hstate)).imp fun hle => ?_
        rwa [hconfig.level, hconfig.level]

/-- The device after a call. -/
def limitCall (d : Cdev δ) : LimitCall → Cdev δ
  | .setState a pid tm => (d.thdCdevSetState a pid tm).2.1
  | .setMinState zoneId tripId tm => d.thdCdevSetMinState zoneId tripId tm

/-- Either call keeps the trips of the entries different. -/
theorem LimitsDistinct.limit_call (h : d.LimitsDistinct) (c : LimitCall) :
    (d.limitCall c).LimitsDistinct := by
  cases c with
  | setState a pid tm => exact h.set_state
  | setMinState zoneId tripId tm =>
      have htrend : { d with trendIncrease := false }.LimitsDistinct := h
      exact htrend.set_state

/-- Either call keeps the entries sorted. -/
theorem LimitsSorted.limit_call (h : d.LimitsSorted) {c : LimitCall} (htarget : c.PassesTarget)
    (hrange : c.PassesNoRange) : (d.limitCall c).LimitsSorted := by
  cases c with
  | setState a pid tm => exact h.set_state htarget hrange
  | setMinState zoneId tripId tm =>
      have htrend : { d with trendIncrease := false }.LimitsSorted := h
      exact htrend.set_state (fun hstate => by cases hstate) fun hstate => by cases hstate

/-! ## Runs -/

/-- In every run from a device without limits no trip ever has two entries, and if the users pass
valid targets and no ranges with them, the entries are always sorted by target, in ascending order
on a device whose states count upwards and in descending order on one whose states count
downwards. -/
theorem limits_by_target (d : Cdev δ) (hempty : d.zoneTripLimits = []) (calls : List LimitCall)
    (htarget : ∀ c ∈ calls, c.PassesTarget) :
    (run limitCall d calls).LimitsDistinct ∧
      ((∀ c ∈ calls, c.PassesNoRange) → (run limitCall d calls).LimitsByTarget) := by
  have hdistinct : d.LimitsDistinct := by
    unfold LimitsDistinct
    rw [hempty]
    exact List.nodup_nil
  have hsorted : d.LimitsSorted := by
    unfold LimitsSorted
    rw [hempty]
    exact .nil
  constructor
  · refine run_history (I := fun _ (d : Cdev δ) => d.LimitsDistinct) hdistinct ?_
    intro _ d c _ h
    exact h.limit_call c
  · intro hrange
    refine LimitsSorted.by_target ?_
    refine run_history (I := fun _ (d : Cdev δ) => d.LimitsSorted) hsorted ?_
    intro past d c hpre h
    have hc : c ∈ calls := hpre.subset (List.mem_append_right past (List.mem_singleton_self c))
    exact h.limit_call (htarget c hc) (hrange c hc)

/-! ## A range with a target -/

/-- An activation with a target and a lower limit, on a device with states 0 to 10. -/
def rangedCall (zoneId target minState : Int) (minMaxValid : Bool) : LimitCall :=
  .setState
    { targetTemp := 0, temperature := 0, hardTarget := false, state := true, zoneId, tripId := 0,
      targetStateValid := true, targetValue := target, pidParam := none, force := false,
      minMaxValid, minState, maxState := 0 }
    .init 10

/-- A zone with target 8, and then one with target 3 and with states from 2 on. -/
def rangedCalls : List LimitCall := [rangedCall 1 8 0 false, rangedCall 2 3 2 true]

omit [StdSort] in
/-- All users pass valid targets, and the target that is last is not the most constraining one. -/
theorem range_limits_unsorted :
    letI := StdSort.insertion
    tenStates.minState < tenStates.maxState ∧ tenStates.zoneTripLimits = [] ∧
      (∀ c ∈ rangedCalls, c.PassesTarget) ∧
      (run limitCall tenStates rangedCalls).zoneTripLimits.map (·.targetValue) = [8, 3] ∧
      ¬ (run limitCall tenStates rangedCalls).LimitsByTarget := by
  let _ := StdSort.insertion
  have htargets : (run limitCall tenStates rangedCalls).zoneTripLimits.map (·.targetValue) =
      [8, 3] := by
    decide
  refine ⟨by decide, rfl, ?_, htargets, fun h => ?_⟩
  · intro c hc
    fin_cases hc <;> exact fun _ => rfl
  · have hpairs : [(8 : Int), 3].Pairwise (· ≤ ·) := by
      rw [← htargets, List.pairwise_map]
      exact h.ascending (by decide)
    exact absurd hpairs (by decide)

omit [StdSort] in
/-- Without the range the target 3 is in front. -/
theorem targets_without_range_sorted :
    letI := StdSort.insertion
    (run limitCall tenStates [rangedCall 1 8 0 false, rangedCall 2 3 0 false]).LimitsDistinct ∧
      (run limitCall tenStates
        [rangedCall 1 8 0 false, rangedCall 2 3 0 false]).LimitsByTarget := by
  let _ := StdSort.insertion
  have hcalls := limits_by_target tenStates rfl
    [rangedCall 1 8 0 false, rangedCall 2 3 0 false] ?_
  · refine ⟨hcalls.1, hcalls.2 ?_⟩
    intro c hc
    fin_cases hc <;> exact fun _ => rfl
  · intro c hc
    fin_cases hc <;> exact fun _ => rfl

end Cdev

end Thermald
