import Mathlib.Tactic.Ring
import Thermald.Lib.Staircase
import Thermald.Cooling.Reset
import Thermald.Cooling.Range

/-!
# Sequential trips

A sequential trip works on one device at a time: a reading above the trip activates the first device
that is not in its maximum state, and a reading below it releases the last one that is not in its
minimum state. If no other trip uses the devices, they form a staircase: all devices before some
place are in their maximum state and all behind it in their minimum state
(`sequential_staircase`).

The exponential controller doubles its step with each repeated activation. Its sum cannot overflow,
because the device has not come to its maximum with half of that step (`Follows.grows`).
-/

namespace Thermald

/-! ## Devices -/

/-- The range check of the base class. -/
def Device.clampRaw {δ : Type} (d : Device δ) (state : Int) : Int :=
  let state := if d.maxState < state then d.maxState else state
  if state < d.minState then d.minState else state

/-- `set_curr_state` stores the state, and `get_curr_state` gives it back. Without the controllers
the state is stored as it is, or after the range check of the base class. -/
class CdevClass.Stores (δ : Type) [CdevClass δ] : Prop where
  get_curr_state : ∀ d : Device δ, CdevClass.getCurrState d = d.currState
  read_curr_state : ∀ d : Device δ, CdevClass.readCurrState d = d.currState
  set_curr_state : ∀ (d : Device δ) (state : Int) (arg : Bool),
    (CdevClass.setCurrState d state arg).1 = state
  set_curr_state_raw : ∀ (d : Device δ) (state : Int) (arg : Bool),
    (CdevClass.setCurrStateRaw d state arg).1 = state ∨
      (CdevClass.setCurrStateRaw d state arg).1 = d.clampRaw state

instance : CdevClass.Stores GenSysfs where
  get_curr_state _ := rfl
  read_curr_state _ := rfl
  set_curr_state _ _ _ := rfl
  set_curr_state_raw _ _ _ := .inl rfl

namespace Cdev

variable {δ : Type} [CdevClass δ] {d : Cdev δ} {user : Int × Int}

/-- A range and a step for which the exponential controller does not overflow. The step goes towards
the maximum. -/
structure Ranged (d : Cdev δ) : Prop where
  min : -2 ^ 28 < d.minState ∧ d.minState < 2 ^ 28
  max : -2 ^ 28 < d.maxState ∧ d.maxState < 2 ^ 28
  step : -2 ^ 28 < d.increment ∧ d.increment < 2 ^ 28
  toward : (d.minState < d.maxState ∧ 0 < d.increment) ∨ (d.maxState < d.minState ∧ d.increment < 0)

/-- A limit of a trip without a target and without limits of its own. -/
structure PlainLimit (user : Int × Int) (limit : ZoneTripLimit) : Prop where
  user : limit.user = user
  target : limit.targetStateValid = false
  min : limit.minState = 0
  max : limit.maxState = 0

/-- A device that follows one trip without targets. A device that rises has its state from the base
state and the power reached, if it was activated more than twice. -/
structure Follows (d : Cdev δ) (user : Int × Int) : Prop extends d.Ranged where
  pid : d.pidEnable = false
  limits : d.zoneTripLimits = [] ∨ ∃ limit, d.zoneTripLimits = [limit] ∧ PlainLimit user limit
  state : d.InRange d.currState
  grows : d.trendIncrease = true → d.currState ≠ d.minState → d.currState ≠ d.maxState →
    d.currPow ≠ 0 → d.InRange d.basePowState ∧
      d.currState = d.thdClampStateMax (d.basePowState + 2 ^ d.currPow * d.increment) 0

omit [CdevClass δ] in
/-- A state in range is not changed by the check for the minimum. -/
theorem clamp_state_min_eq {state : Int} (h : d.InRange state) :
    d.thdClampStateMin state 0 = state := by
  unfold Device.InRange at h
  unfold thdClampStateMin
  simp only
  split_ifs <;> omega

omit [CdevClass δ] in
/-- The next sum of a device that rises and is not in its maximum state. -/
theorem doubled_fits (h : d.Ranged) {base half state : Int} (hbase : d.InRange base)
    (hhalf : (0 < d.increment ∧ 0 < half) ∨ (d.increment < 0 ∧ half < 0))
    (hstate : state = d.thdClampStateMax (base + half) 0) (hmax : state ≠ d.maxState) :
    -2 ^ 29 < half ∧ half < 2 ^ 29 := by
  obtain ⟨hlo, hhi⟩ := And.intro h.min h.max
  have htoward := h.toward
  unfold Device.InRange at hbase
  unfold thdClampStateMax at hstate
  simp only [ne_eq, not_true_eq_false, false_and, if_false] at hstate
  split_ifs at hstate <;> omega

omit [CdevClass δ] in
/-- The step has the sign of its multiples. -/
theorem Ranged.multiple (h : d.Ranged) (pow : Nat) :
    (0 < d.increment ∧ 0 < 2 ^ pow * d.increment) ∨
      (d.increment < 0 ∧ 2 ^ pow * d.increment < 0) := by
  have hpow : (0 : Int) < 2 ^ pow := pow_pos (by decide) pow
  rcases h.toward with ⟨-, hinc⟩ | ⟨-, hinc⟩
  · exact .inl ⟨hinc, mul_pos hpow hinc⟩
  · exact .inr ⟨hinc, mul_neg_of_pos_of_neg hpow hinc⟩

omit [CdevClass δ] in
/-- A sum beyond a state in range is in range after the check for the maximum. -/
theorem Ranged.clamp_sum (h : d.Ranged) {base more : Int} (hbase : d.InRange base)
    (hmore : (0 < d.increment ∧ 0 < more) ∨ (d.increment < 0 ∧ more < 0)) :
    d.InRange (d.thdClampStateMax (base + more) 0) := by
  refine clamp_state_max_in_range ?_ (.inl rfl)
  have htoward := h.toward
  unfold Device.InRange at hbase
  unfold Device.Beyond
  omega

omit [CdevClass δ] in
/-- The base state and the step of a repeated activation. -/
theorem Ranged.next_sum (h : d.Ranged) (hstate : d.InRange d.currState)
    (hgrows : d.currPow ≠ 0 → d.InRange d.basePowState ∧
      d.currState = d.thdClampStateMax (d.basePowState + 2 ^ d.currPow * d.increment) 0)
    (hmax : d.currState ≠ d.maxState) :
    d.InRange (if d.currPow = 0 then d.currState else d.basePowState) ∧
      -2 ^ 30 < 2 ^ (if d.currPow < defaultMaxExponent then d.currPow + 1 else d.currPow) *
        d.increment ∧
      2 ^ (if d.currPow < defaultMaxExponent then d.currPow + 1 else d.currPow) * d.increment <
        2 ^ 30 := by
  by_cases hpow : d.currPow = 0
  · have hstep := h.step
    rw [hpow, if_pos rfl, if_pos (by decide)]
    refine ⟨hstate, ?_⟩
    rw [zero_add, pow_one]
    omega
  · obtain ⟨hbase, heq⟩ := hgrows hpow
    have hhalf := doubled_fits h hbase (h.multiple d.currPow) heq hmax
    rw [if_neg hpow]
    refine ⟨hbase, ?_⟩
    split
    · -- twice the step that did not reach the maximum
      have hdouble : (2 : Int) ^ (d.currPow + 1) * d.increment =
          2 * (2 ^ d.currPow * d.increment) := by
        rw [pow_succ]
        ring
      rw [hdouble]
      omega
    · omega

variable [CdevClass.Stores δ]

/-- An activation by the exponential controller, of a device that is not in its maximum state. -/
theorem exponential_increase_exact (h : d.Ranged) (hstate : d.InRange d.currState)
    (hgrows : d.trendIncrease = true → d.currPow ≠ 0 → d.InRange d.basePowState ∧
      d.currState = d.thdClampStateMax (d.basePowState + 2 ^ d.currPow * d.increment) 0)
    (hmax : d.currState ≠ d.maxState) :
    ∃ base pow state, d.InRange state ∧
      (pow ≠ 0 → d.InRange base ∧ state = d.thdClampStateMax (base + 2 ^ pow * d.increment) 0) ∧
      d.exponentialIncrease 0 0 =
        { d with basePowState := base, currPow := pow, trendIncrease := true }.setCurrState
          state true := by
  have hcurr : d.thdClampStateMin d.readCurrState 0 = d.currState := by
    have hread : d.readCurrState = d.currState := CdevClass.Stores.read_curr_state d.toDevice
    rw [hread, clamp_state_min_eq hstate]
  obtain ⟨hlo, hhi⟩ := And.intro h.min h.max
  unfold exponentialIncrease
  simp only [hcurr]
  cases htrend : d.trendIncrease with
  | false =>
      refine ⟨_, _, _, ?_, fun hpow => ?_, rfl⟩
      · simp only [Bool.false_eq_true, if_false]
        have hsum : int32 (d.currState + d.increment) = d.currState + d.increment := by
          have hstep := h.step
          unfold Device.InRange at hstate
          refine int32_eq_self (by omega) ?_
          show d.currState + d.increment ≤ (2147483647 : Int)
          omega
        show d.InRange (d.thdClampStateMax (int32 (d.currState + d.increment)) 0)
        rw [hsum]
        have hmore := h.multiple 0
        rw [pow_zero, one_mul] at hmore
        exact h.clamp_sum hstate hmore
      · simp at hpow
  | true =>
      simp only [Bool.true_and, decide_eq_true_eq, if_true]
      obtain ⟨hbase, hfits⟩ := h.next_sum hstate (hgrows htrend) hmax
      have hinc : (if d.incVal ≠ 0 then d.incVal else d.incDecVal) = d.increment := rfl
      rw [hinc]
      generalize (if d.currPow = 0 then d.currState else d.basePowState) = base at hbase hfits ⊢
      generalize (if d.currPow < defaultMaxExponent then d.currPow + 1 else d.currPow) = pow
        at hfits ⊢
      have hmore := h.multiple pow
      have hsum : int32 (base + 2 ^ pow * d.increment) = base + 2 ^ pow * d.increment := by
        unfold Device.InRange at hbase
        refine int32_eq_self (by omega) ?_
        show base + 2 ^ pow * d.increment ≤ (2147483647 : Int)
        omega
      have hno : ¬ ((d.incVal < 0 ∧ base < base + 2 ^ pow * d.increment) ∨
          (0 < d.incVal ∧ base + 2 ^ pow * d.increment < base)) := by
        have hval : d.incVal ≠ 0 → d.increment = d.incVal := fun hne => if_pos hne
        omega
      rw [hsum, if_neg hno]
      exact ⟨base, pow, _, h.clamp_sum hbase hmore, fun _ => ⟨hbase, rfl⟩, rfl⟩

/-- The range and the step are those of the device itself, whatever else changes. -/
theorem Follows.begin_control (h : d.Follows user) (state : Bool) (tm : Int) :
    (d.beginControl state tm).Follows user := by
  have hget : d.getCurrState = d.currState := CdevClass.Stores.get_curr_state d.toDevice
  refine ⟨⟨h.min, h.max, h.step, h.toward⟩, h.pid, h.limits, ?_, fun htrend hmin hmax hpow => ?_⟩
  · show d.InRange d.getCurrState
    rw [hget]
    exact h.state
  · have hmin : d.getCurrState ≠ d.minState := hmin
    have htrend : (if d.getCurrState = d.minState then false else d.trendIncrease) = true := htrend
    have hpow : (if d.getCurrState = d.minState then 0 else d.currPow) ≠ 0 := hpow
    show d.InRange d.basePowState ∧ d.getCurrState = d.thdClampStateMax
      (d.basePowState + 2 ^ (if d.getCurrState = d.minState then 0 else d.currPow) * d.increment) 0
    rw [if_neg hmin] at htrend hpow ⊢
    rw [hget] at hmin ⊢
    exact h.grows htrend hmin (hget ▸ hmax) hpow

/-- A state set without the controllers is the maximum, or the minimum where the range check does
not fit the range. -/
theorem Follows.set_max (h : d.Follows user) (arg : Bool) :
    (d.setCurrStateRaw d.maxState arg).Follows user := by
  have hcases : (d.setCurrStateRaw d.maxState arg).currState = d.maxState ∨
      (d.setCurrStateRaw d.maxState arg).currState = d.minState := by
    rcases CdevClass.Stores.set_curr_state_raw d.toDevice d.maxState arg with heq | heq
    · exact .inl heq
    · have hclamp : d.clampRaw d.maxState = d.maxState ∨ d.clampRaw d.maxState = d.minState := by
        unfold Device.clampRaw
        simp only
        split_ifs <;> omega
      rcases hclamp with hclamp | hclamp
      · exact .inl (heq.trans hclamp)
      · exact .inr (heq.trans hclamp)
  refine ⟨⟨h.min, h.max, h.step, h.toward⟩, h.pid, h.limits, ?_, fun _ hmin hmax => ?_⟩
  · show d.InRange (d.setCurrStateRaw d.maxState arg).currState
    rcases hcases with hcases | hcases
    · rw [hcases]
      exact d.in_range_max
    · rw [hcases]
      exact d.in_range_min
  · exact absurd hcases (not_or.mpr ⟨hmax, hmin⟩)

/-- An activation by the exponential controller. -/
theorem Follows.exponential_increase (h : d.Follows user)
    (htrend : d.trendIncrease = true → d.currState ≠ d.minState) (hmax : d.currState ≠ d.maxState) :
    (d.exponentialIncrease 0 0).Follows user := by
  obtain ⟨base, pow, state, hstate, hgrows, heq⟩ :=
    exponential_increase_exact h.toRanged h.state
      (fun htrue hpow => h.grows htrue (htrend htrue) hmax hpow) hmax
  rw [heq]
  have hcurr : ({ d with basePowState := base, currPow := pow, trendIncrease := true }.setCurrState
      state true).currState = state := CdevClass.Stores.set_curr_state _ _ _
  refine ⟨⟨h.min, h.max, h.step, h.toward⟩, h.pid, h.limits, ?_, fun _ _ _ hpow => ?_⟩
  · rw [hcurr]
    exact hstate
  · rw [hcurr]
    exact hgrows hpow

/-- A release by the exponential controller. -/
theorem Follows.exponential_decrease (h : d.Follows user) :
    (d.exponentialDecrease 0 0).Follows user := by
  unfold exponentialDecrease
  refine ⟨⟨h.min, h.max, h.step, h.toward⟩, h.pid, h.limits, ?_, fun htrend => ?_⟩
  · -- both ends of the range have been checked
    have hrange := fun state => clamp_state_max_in_range (d := d) (clamp_state_min_beyond state 0)
      (.inl rfl)
    show d.InRange (CdevClass.setCurrState d.toDevice _ false).1
    rw [CdevClass.Stores.set_curr_state]
    exact hrange _
  · exact absurd htrend Bool.false_ne_true

/-- An activation without a target keeps a device following its trip. -/
theorem Follows.control_on (h : d.Follows user) {a : SetStateArgs} (pid : Pid) (tm : Int)
    (hstate : a.state = true) (hpid : (a.pidParam.map (·.valid)).getD false = false)
    (hmax : d.currState ≠ d.maxState) (target : Int) :
    (d.control a pid tm false target 0 0).1.Follows user := by
  have hbegin := h.begin_control true tm
  have hget : d.getCurrState = d.currState := CdevClass.Stores.get_curr_state d.toDevice
  unfold control
  simp only [Bool.false_eq_true, if_false, hpid, hbegin.pid, hstate, if_true]
  split
  · exact hbegin.set_max true
  · refine hbegin.exponential_increase (fun htrend => ?_) ?_
    · have htrend :
          (if d.getCurrState = d.minState then false else d.trendIncrease) = true := htrend
      show d.getCurrState ≠ d.minState
      intro hmin
      rw [if_pos hmin] at htrend
      cases htrend
    · show d.getCurrState ≠ d.maxState
      rw [hget]
      exact hmax

/-- So does a release. -/
theorem Follows.control_off (h : d.Follows user) {a : SetStateArgs} (pid : Pid) (tm : Int)
    (hstate : a.state = false) (hpid : (a.pidParam.map (·.valid)).getD false = false)
    (target minState maxState : Int) :
    (d.control a pid tm false target minState maxState).1.Follows user := by
  have hbegin := h.begin_control false tm
  unfold control
  simp only [Bool.false_eq_true, if_false, hpid, hbegin.pid, hstate]
  split
  · exact hbegin.set_max false
  · exact hbegin.exponential_decrease

/-- A target that is the minimum. -/
theorem Follows.control_min (h : d.Follows user) {a : SetStateArgs} (pid : Pid) (tm : Int)
    (minState maxState : Int) :
    (d.control a pid tm true d.minState minState maxState).1.Follows user ∧
      (d.control a pid tm true d.minState minState maxState).1.currState = d.minState := by
  have hbegin := h.begin_control a.state tm
  refine ⟨?_, rfl⟩
  refine ⟨⟨h.min, h.max, h.step, h.toward⟩, h.pid, h.limits, d.in_range_min, fun _ hmin => ?_⟩
  exact absurd rfl hmin

omit [CdevClass δ] [CdevClass.Stores δ] in
/-- Only the limits change. -/
theorem Follows.with_limits (h : d.Follows user) {limits : List ZoneTripLimit}
    (hlimits : limits = [] ∨ ∃ limit, limits = [limit] ∧ PlainLimit user limit) :
    Follows { d with zoneTripLimits := limits } user :=
  ⟨⟨h.min, h.max, h.step, h.toward⟩, h.pid, hlimits, h.state, h.grows⟩

/-- The arguments of a trip that gives its devices no targets, limits or controllers. -/
structure PlainArgs (user : Int × Int) (a : SetStateArgs) : Prop where
  user : a.user = user
  target : a.targetStateValid = false
  limits : a.minMaxValid = false
  pid : (a.pidParam.map (·.valid)).getD false = false
  force : a.force = false

/-- The state is compared with the ends of the range. -/
theorem Follows.in_min_state (h : d.Follows user) :
    d.inMinState = true ↔ d.currState = d.minState := by
  have hget : d.getCurrState = d.currState := CdevClass.Stores.get_curr_state d.toDevice
  have htoward := h.toward
  have hstate := h.state
  unfold Device.InRange at hstate
  simp only [inMinState, hget, Bool.or_eq_true, Bool.and_eq_true, decide_eq_true_eq]
  omega

theorem Follows.in_max_state (h : d.Follows user) :
    d.inMaxState = true ↔ d.currState = d.maxState := by
  have hget : d.getCurrState = d.currState := CdevClass.Stores.get_curr_state d.toDevice
  have htoward := h.toward
  have hstate := h.state
  unfold Device.InRange at hstate
  simp only [inMaxState, hget, Bool.or_eq_true, Bool.and_eq_true, decide_eq_true_eq]
  omega

variable [StdSort]

omit [CdevClass δ] [CdevClass.Stores δ] in
/-- An activation works with one limit, that of the trip. -/
theorem Follows.limits_with (h : d.Follows user) {a : SetStateArgs} (ha : PlainArgs user a) :
    ∃ limit, d.limitsWith a = [limit] ∧ PlainLimit user limit := by
  rcases h.limits with hnil | ⟨limit, hone, hplain⟩
  · refine ⟨d.newLimit a, ?_, ha.user, ha.target, ?_, ?_⟩
    · unfold limitsWith addLimit
      simp [holds, hnil, ha.target, ha.limits]
    · simp [newLimit, ha.limits]
    · simp [newLimit, ha.limits]
  · refine ⟨limit, ?_, hplain⟩
    unfold limitsWith
    rw [if_pos]
    · exact hone
    · simp [holds, hone, hplain.user, ha.user]

/-- The trip activates a device that is not in its maximum state. -/
theorem Follows.activate (h : d.Follows user) {a : SetStateArgs} (ha : PlainArgs user a) (pid : Pid)
    (tm : Int) (hstate : a.state = true) (hmax : d.currState ≠ d.maxState) :
    (d.thdCdevSetState a pid tm).2.1.Follows user := by
  obtain ⟨limit, hlimits, hplain⟩ := h.limits_with ha
  have hwith : Follows { d with zoneTripLimits := [limit] } user :=
    h.with_limits (.inr ⟨limit, rfl, hplain⟩)
  have heq : (if d.holds a.user = true then d.zoneTripLimits else d.addLimit a) = [limit] := hlimits
  unfold thdCdevSetState Cdev.activate
  simp only [hstate, heq, List.getLast?_singleton, hplain.target, hplain.min, hplain.max,
    Bool.not_true, Bool.false_and, Bool.false_eq_true, if_false, if_true, Bool.and_false]
  by_cases hdebounce : (!a.force && d.lastState &&
      decide (tm - d.lastActionTime ≤ d.debounceInterval)) = true
  · -- the debounce interval has not passed
    simp only [if_pos hdebounce]
    exact hwith
  · simp only [if_neg hdebounce]
    exact hwith.control_on pid tm hstate ha.pid hmax _

/-- The trip releases a device that is not in its minimum state. -/
theorem Follows.release (h : d.Follows user) {a : SetStateArgs} (ha : PlainArgs user a) (pid : Pid)
    (tm : Int) (hstate : a.state = false) :
    (d.thdCdevSetState a pid tm).2.1.Follows user := by
  have hnone : Follows { d with zoneTripLimits := [] } user := h.with_limits (.inl rfl)
  have hrelease : ∃ target, d.release a = ([], .control false target a.minState a.maxState) := by
    rcases h.limits with hnil | ⟨limit, hone, hplain⟩
    · exact ⟨a.targetValue, by simp [Cdev.release, hnil, ha.force]⟩
    · exact ⟨a.targetValue, by
        simp [Cdev.release, hone, hplain.user, ha.user, hplain.target, ha.force, ha.target]⟩
  obtain ⟨target, hrelease⟩ := hrelease
  unfold thdCdevSetState
  split
  · exact h
  · simp only [hstate, Bool.false_eq_true, if_false, hrelease]
    exact hnone.control_off pid tm hstate ha.pid target a.minState a.maxState

/-- A reset sends the device to its minimum. -/
theorem Follows.set_min_state (h : d.Follows user) (tm : Int) :
    (d.thdCdevSetMinState user.1 user.2 tm).Follows user ∧
      (d.thdCdevSetMinState user.1 user.2 tm).currState = d.minState := by
  unfold thdCdevSetMinState
  generalize hd : { d with trendIncrease := false } = d₀
  have hfollows : d₀.Follows user := by
    rw [← hd]
    exact ⟨⟨h.min, h.max, h.step, h.toward⟩, h.pid, h.limits, h.state, fun htrend => absurd htrend
      Bool.false_ne_true⟩
  have hmin : d₀.minState = d.minState := by rw [← hd]
  have hnone : Follows { d₀ with zoneTripLimits := [] } user := hfollows.with_limits (.inl rfl)
  have hcontrol := hnone.control_min (a := d₀.minStateArgs user.1 user.2) .init tm 0 0
  rw [← hmin]
  simp only
  rcases hfollows.limits with hnil | ⟨limit, hone, hplain⟩
  · cases hin : d₀.inMinState with
    | true =>
        rw [set_state_release_of_min _ _ rfl hnil hin]
        exact ⟨hfollows, hfollows.in_min_state.mp hin⟩
    | false =>
        rw [set_state_release_forced _ _ rfl rfl hnil hin]
        exact hcontrol
  · rw [set_state_release_single (a := d₀.minStateArgs user.1 user.2) _ _ rfl rfl hone hplain.user
      (.inr rfl)]
    exact hcontrol

end Cdev

/-! ## Trips -/

/-- A binding without a sampling period, a target, limits and a controller. -/
structure TripCdev.Plain (b : TripCdev) : Prop where
  sampling : b.samplingPriod = 0
  target : b.targetStateValid = false
  limits : b.minMaxValid = false
  pid : b.pidParam.valid = false

/-- The device is at its maximum. -/
def Cdev.IsMax {δ : Type} (d : Cdev δ) : Prop := d.currState = d.maxState

/-- The device is at its minimum. -/
def Cdev.IsMin {δ : Type} (d : Cdev δ) : Prop := d.currState = d.minState

/-- The devices follow a trip, and they are in two parts: the devices before some place have one
property and those behind it another one. -/
structure World.Stairs {δ : Type} (w : World δ) (user : Int × Int) (P Q : Cdev δ → Prop)
    (ks : List Nat) : Prop where
  devices : ∀ k ∈ ks, (w.cdevs k).Follows user
  parts : Staircase (fun k => P (w.cdevs k)) (fun k => Q (w.cdevs k)) ks

namespace TripPoint

variable {δ : Type} [CdevClass δ] [StdSort] {t : TripPoint} {temp : Nat} {b : TripCdev}
  {w : World δ}

/-- The zone and trip under which a trip uses its devices. -/
abbrev owner (t : TripPoint) : Int × Int := (t.zoneId, t.index)

/-- A plain binding sets the state of its own device only, and it stays plain. -/
theorem set_state_plain (t : TripPoint) (temp : Nat) (w : World δ) (hplain : b.Plain)
    (state : Bool) :
    (t.setState b temp state w).1 = thdSuccess ∧ (t.setState b temp state w).2.1.cdev = b.cdev ∧
      (t.setState b temp state w).2.1.Plain ∧
      (∀ k, k ≠ b.cdev → (t.setState b temp state w).2.2.cdevs k = w.cdevs k) ∧
      ∃ a pid tm, Cdev.PlainArgs t.owner a ∧ a.state = state ∧
        (t.setState b temp state w).2.2.cdevs b.cdev =
          ((w.cdevs b.cdev).thdCdevSetState a pid tm).2.1 := by
  have hfix : (b.fixTarget (w.cdevs b.cdev).toDevice).Plain := by
    unfold TripCdev.fixTarget
    split
    · exact ⟨hplain.sampling, hplain.target, hplain.limits, hplain.pid⟩
    · exact hplain
  have hsuccess : ∀ (d : Cdev δ) (a : SetStateArgs) (pid : Pid) (tm : Int),
      (d.thdCdevSetState a pid tm).1 = thdSuccess := by
    intro d a pid tm
    unfold Cdev.thdCdevSetState
    split
    · rfl
    · simp only
      split <;> rfl
  refine ⟨hsuccess _ _ _ _, TripCdev.fix_target_cdev _ _,
    ⟨hfix.sampling, hfix.target, hfix.limits, hfix.pid⟩, fun k hk => ?_, ?_⟩
  · unfold setState World.setState World.setCdev World.time
    simp only [TripCdev.fix_target_cdev]
    exact Function.update_of_ne hk _ _
  · refine ⟨t.stateArgs (b.fixTarget (w.cdevs b.cdev).toDevice) (w.cdevs b.cdev) temp state,
      (b.fixTarget (w.cdevs b.cdev).toDevice).pid, w.clock w.ticks,
      ⟨rfl, hfix.target, hfix.limits, ?_, rfl⟩, rfl, ?_⟩
    · exact hfix.pid
    · unfold setState World.setState World.setCdev World.time
      simp only [TripCdev.fix_target_cdev]
      exact Function.update_self _ _ _

/-- The result of a loop over plain bindings of a trip. -/
structure Works (t : TripPoint) (P Q : Cdev δ → Prop) (bs : List TripCdev) (w : World δ)
    (r : List TripCdev × World δ) : Prop where
  cdevs : r.1.map (·.cdev) = bs.map (·.cdev)
  plain : ∀ b ∈ r.1, b.Plain
  frame : ∀ k ∉ bs.map (·.cdev), r.2.cdevs k = w.cdevs k
  stairs : r.2.Stairs t.owner P Q (bs.map (·.cdev))

variable {P Q : Cdev δ → Prop} {rest : List TripCdev}

omit [CdevClass δ] [StdSort] in
/-- The loop skips a device that belongs to the first part. -/
theorem Works.skip {r : List TripCdev × World δ} (h : t.Works P Q rest w r) (hplain : b.Plain)
    (hnew : b.cdev ∉ rest.map (·.cdev)) (hfollows : (w.cdevs b.cdev).Follows t.owner)
    (hP : P (w.cdevs b.cdev)) : t.Works P Q (b :: rest) w (b :: r.1, r.2) := by
  have hsame := h.frame b.cdev hnew
  refine ⟨by simpa using h.cdevs, fun b' hb' => ?_, fun k hk => h.frame k fun hmem => ?_, ?_, ?_⟩
  · rcases List.mem_cons.mp hb' with rfl | hb'
    · exact hplain
    · exact h.plain b' hb'
  · exact hk (List.mem_cons_of_mem _ hmem)
  · intro k hk
    rcases List.mem_cons.mp hk with rfl | hk
    · rw [hsame]
      exact hfollows
    · exact h.stairs.devices k hk
  · refine staircase_cons.mpr (.inl ⟨?_, h.stairs.parts⟩)
    rw [hsame]
    exact hP

/-- The loop stops at a device behind which all devices belong to the second part. -/
theorem Works.stop (hplain : ∀ b' ∈ b :: rest, b'.Plain) (hnew : b.cdev ∉ rest.map (·.cdev))
    (hrest : ∀ k ∈ rest.map (·.cdev), (w.cdevs k).Follows t.owner ∧ Q (w.cdevs k)) (state : Bool)
    (hset : ∀ a pid tm, Cdev.PlainArgs t.owner a → a.state = state →
      ((w.cdevs b.cdev).thdCdevSetState a pid tm).2.1.Follows t.owner) :
    t.Works P Q (b :: rest) w
      ((t.setState b temp state w).2.1 :: rest, (t.setState b temp state w).2.2) := by
  obtain ⟨-, hcdev, hplain', hframe, a, pid, tm, ha, hstate, heq⟩ :=
    set_state_plain t temp w (hplain b List.mem_cons_self) state
  have hothers : ∀ k ∈ rest.map (·.cdev),
      (t.setState b temp state w).2.2.cdevs k = w.cdevs k := fun k hk =>
    hframe k fun hsame => hnew (hsame ▸ hk)
  refine ⟨by simp [hcdev], fun b' hb' => ?_, fun k hk => hframe k fun hsame => ?_, ?_, ?_⟩
  · rcases List.mem_cons.mp hb' with rfl | hb'
    · exact hplain'
    · exact hplain b' (List.mem_cons_of_mem _ hb')
  · exact hk (hsame ▸ List.mem_cons_self)
  · intro k hk
    rcases List.mem_cons.mp hk with rfl | hk
    · show Cdev.Follows ((t.setState b temp state w).2.2.cdevs b.cdev) t.owner
      rw [heq]
      exact hset a pid tm ha hstate
    · show Cdev.Follows ((t.setState b temp state w).2.2.cdevs k) t.owner
      rw [hothers k hk]
      exact (hrest k hk).1
  · refine staircase_cons.mpr (.inr fun k hk => ?_)
    show Q ((t.setState b temp state w).2.2.cdevs k)
    rw [hothers k hk]
    exact (hrest k hk).2

variable [CdevClass.Stores δ]

/-- The loop over the devices of a sequential trip that is on. -/
theorem activate_cdevs_works (temp : Nat) (hseq : t.controlType = .sequential) {bs : List TripCdev}
    (hplain : ∀ b ∈ bs, b.Plain) (hdistinct : (bs.map (·.cdev)).Nodup) (w : World δ)
    (h : w.Stairs t.owner Cdev.IsMax Cdev.IsMin (bs.map (·.cdev))) :
    t.Works Cdev.IsMax Cdev.IsMin bs w (t.activateCdevs temp bs w) := by
  induction bs with
  | nil => exact ⟨rfl, by simp [activateCdevs], fun _ _ => rfl, h⟩
  | cons b rest ih =>
      have hb := hplain b List.mem_cons_self
      rw [List.map_cons, List.nodup_cons] at hdistinct
      obtain ⟨hnew, hdistinct⟩ := hdistinct
      have hfollows : (w.cdevs b.cdev).Follows t.owner := h.devices _ List.mem_cons_self
      have hdevices : ∀ k ∈ rest.map (·.cdev), (w.cdevs k).Follows t.owner := fun k hk =>
        h.devices k (List.mem_cons_of_mem _ hk)
      have hparts := staircase_cons.mp h.parts
      rw [activateCdevs]
      simp only [hb.sampling, ne_eq, not_true_eq_false, false_and, if_false]
      split
      · -- the device is in its maximum state and the loop goes on
        rename_i hmax
        refine (ih (fun b hb => hplain b (List.mem_cons_of_mem _ hb)) hdistinct ⟨hdevices, ?_⟩).skip
          hb hnew hfollows (hfollows.in_max_state.mp hmax)
        rcases hparts with ⟨-, hrest⟩ | hall
        · exact hrest
        · exact staircase_of_forall hall
      · -- the first device that is not in its maximum state, where a sequential trip stops
        rename_i hmax
        have hnot : (w.cdevs b.cdev).currState ≠ (w.cdevs b.cdev).maxState := fun heq =>
          hmax (hfollows.in_max_state.mpr heq)
        have hmin : ∀ k ∈ rest.map (·.cdev), (w.cdevs k).IsMin :=
          hparts.resolve_left fun hmax => hnot hmax.1
        have hret := (set_state_plain t temp w hb true).1
        simp only [hseq, hret, and_self, if_true]
        exact .stop hplain hnew (fun k hk => ⟨hdevices k hk, hmin k hk⟩) true
          fun a pid tm ha hstate => hfollows.activate ha pid tm hstate hnot

/-- The loop over the devices of a sequential trip that is off, from the last to the first. -/
theorem release_cdevs_works (temp : Nat) (hseq : t.controlType = .sequential) {bs : List TripCdev}
    (hplain : ∀ b ∈ bs, b.Plain) (hdistinct : (bs.map (·.cdev)).Nodup) (w : World δ)
    (h : w.Stairs t.owner Cdev.IsMin Cdev.IsMax (bs.map (·.cdev))) :
    t.Works Cdev.IsMin Cdev.IsMax bs w (t.releaseCdevs temp bs w) := by
  induction bs with
  | nil => exact ⟨rfl, by simp [releaseCdevs], fun _ _ => rfl, h⟩
  | cons b rest ih =>
      have hb := hplain b List.mem_cons_self
      rw [List.map_cons, List.nodup_cons] at hdistinct
      obtain ⟨hnew, hdistinct⟩ := hdistinct
      have hfollows : (w.cdevs b.cdev).Follows t.owner := h.devices _ List.mem_cons_self
      have hdevices : ∀ k ∈ rest.map (·.cdev), (w.cdevs k).Follows t.owner := fun k hk =>
        h.devices k (List.mem_cons_of_mem _ hk)
      have hparts := staircase_cons.mp h.parts
      rw [releaseCdevs]
      split
      · -- the device is in its minimum state and the loop goes on
        rename_i hmin
        refine (ih (fun b hb => hplain b (List.mem_cons_of_mem _ hb)) hdistinct ⟨hdevices, ?_⟩).skip
          hb hnew hfollows (hfollows.in_min_state.mp hmin)
        rcases hparts with ⟨-, hrest⟩ | hall
        · exact hrest
        · exact staircase_of_forall hall
      · -- the last device that is not in its minimum state, where a sequential trip stops
        rename_i hmin
        have hnot : (w.cdevs b.cdev).currState ≠ (w.cdevs b.cdev).minState := fun heq =>
          hmin (hfollows.in_min_state.mpr heq)
        have hmax : ∀ k ∈ rest.map (·.cdev), (w.cdevs k).IsMax :=
          hparts.resolve_left fun hmin => hnot hmin.1
        exact .stop hplain hnew (fun k hk => ⟨hdevices k hk, hmax k hk⟩) false
          fun a pid tm ha hstate => hfollows.release ha pid tm hstate

/-- A reset sends all devices of a trip to their minimum. -/
theorem reset_cdevs_min (t : TripPoint) (force : Bool) (bs : List TripCdev) (w : World δ)
    (h : ∀ k ∈ bs.map (·.cdev), (w.cdevs k).Follows t.owner) :
    (∀ k ∈ bs.map (·.cdev), ((t.resetCdevs force bs w).cdevs k).Follows t.owner ∧
      ((t.resetCdevs force bs w).cdevs k).IsMin) ∧
      ∀ k ∉ bs.map (·.cdev), (t.resetCdevs force bs w).cdevs k = w.cdevs k := by
  induction bs generalizing w with
  | nil => exact ⟨by simp, fun _ _ => rfl⟩
  | cons b rest ih =>
      have hfollows : (w.cdevs b.cdev).Follows t.owner := h _ List.mem_cons_self
      -- the world with which the loop goes on
      obtain ⟨w', heq, hhead, hframe⟩ : ∃ w', t.resetCdevs force (b :: rest) w =
          t.resetCdevs force rest w' ∧
          ((w'.cdevs b.cdev).Follows t.owner ∧ (w'.cdevs b.cdev).IsMin) ∧
          ∀ k, k ≠ b.cdev → w'.cdevs k = w.cdevs k := by
        rw [resetCdevs]
        split
        · rename_i hskip
          rw [Bool.and_eq_true] at hskip
          exact ⟨w, rfl, ⟨hfollows, hfollows.in_min_state.mp hskip.2⟩, fun _ _ => rfl⟩
        · refine ⟨_, rfl, ?_, fun k hk => ?_⟩
          · have hset : (w.setMinState b.cdev t.zoneId t.index).cdevs b.cdev =
                (w.cdevs b.cdev).thdCdevSetMinState t.owner.1 t.owner.2 (w.clock w.ticks) :=
              Function.update_self _ _ _
            rw [hset]
            obtain ⟨hnext, hmin⟩ := hfollows.set_min_state (w.clock w.ticks)
            refine ⟨hnext, hmin.trans ?_⟩
            exact ((w.cdevs b.cdev).set_min_state_config _ _ _).minState.symm
          · exact Function.update_of_ne hk _ _
      have hrest : ∀ k ∈ rest.map (·.cdev), (w'.cdevs k).Follows t.owner := by
        intro k hk
        by_cases hsame : k = b.cdev
        · rw [hsame]
          exact hhead.1
        · rw [hframe k hsame]
          exact h k (List.mem_cons_of_mem _ hk)
      obtain ⟨hmin, hother⟩ := ih w' hrest
      rw [heq]
      refine ⟨fun k hk => ?_, fun k hk => ?_⟩
      · by_cases hmem : k ∈ rest.map (·.cdev)
        · exact hmin k hmem
        · rw [hother k hmem]
          rcases List.mem_cons.mp hk with rfl | hk
          · exact hhead
          · exact absurd hk hmem
      · rw [hother k fun hmem => hk (List.mem_cons_of_mem _ hmem)]
        exact hframe k fun hsame => hk (hsame ▸ List.mem_cons_self)

/-- A sequential trip without targets, whose devices are a staircase. -/
structure Climbs (t : TripPoint) (w : World δ) : Prop where
  sequential : t.controlType = .sequential
  plain : ∀ b ∈ t.cdevs, b.Plain
  distinct : (t.cdevs.map (·.cdev)).Nodup
  stairs : w.Stairs t.owner Cdev.IsMax Cdev.IsMin (t.cdevs.map (·.cdev))

omit [CdevClass δ] [StdSort] [CdevClass.Stores δ] in
/-- What happens to other devices does not matter. -/
theorem Climbs.frame (h : t.Climbs w) {w' : World δ}
    (hframe : ∀ k, t.Binds k → w'.cdevs k = w.cdevs k) :
    t.Climbs w' := by
  have hsame : ∀ k ∈ t.cdevs.map (·.cdev), w'.cdevs k = w.cdevs k := by
    intro k hk
    obtain ⟨b, hb, rfl⟩ := List.mem_map.mp hk
    exact hframe b.cdev ⟨b, hb, rfl⟩
  refine ⟨h.sequential, h.plain, h.distinct, fun k hk => ?_, ?_⟩
  · rw [hsame k hk]
    exact h.stairs.devices k hk
  · refine h.stairs.parts.imp (fun k hk hmax => ?_) (fun k hk hmin => ?_)
    · rw [hsame k hk]
      exact hmax
    · rw [hsame k hk]
      exact hmin

/-- Evaluating a sequential trip keeps its staircase. -/
theorem Climbs.evaluate (h : t.Climbs w) (temp : Nat) :
    (t.evaluate temp w).trip.Climbs (t.evaluate temp w).world := by
  unfold TripPoint.evaluate
  cases t.decision temp with
  | on =>
      have hworks := activate_cdevs_works temp h.sequential h.plain h.distinct w h.stairs
      refine ⟨h.sequential, hworks.plain, ?_, ?_⟩
      · show ((t.activateCdevs temp t.cdevs w).1.map (·.cdev)).Nodup
        rw [hworks.cdevs]
        exact h.distinct
      · show World.Stairs _ _ _ _ ((t.activateCdevs temp t.cdevs w).1.map (·.cdev))
        rw [hworks.cdevs]
        exact hworks.stairs
  | off =>
      have hreverse : ∀ (P Q : Cdev δ → Prop) (w : World δ) (ks : List Nat),
          w.Stairs t.owner P Q ks.reverse ↔ w.Stairs t.owner Q P ks := by
        intro P Q w ks
        constructor
        · exact fun h => ⟨fun k hk => h.devices k (List.mem_reverse.mpr hk),
            staircase_reverse.mp h.parts⟩
        · exact fun h => ⟨fun k hk => h.devices k (List.mem_reverse.mp hk),
            staircase_reverse.mpr h.parts⟩
      have hplain : ∀ b ∈ t.cdevs.reverse, b.Plain := fun b hb => h.plain b (List.mem_reverse.mp hb)
      have hworks := release_cdevs_works temp h.sequential hplain
        (by rw [List.map_reverse]; exact List.nodup_reverse.mpr h.distinct) w
        (by rw [List.map_reverse]; exact (hreverse _ _ w _).mpr h.stairs)
      have hcdevs : (t.releaseCdevs temp t.cdevs.reverse w).1.reverse.map (·.cdev) =
          t.cdevs.map (·.cdev) := by
        rw [List.map_reverse, hworks.cdevs, List.map_reverse, List.reverse_reverse]
      refine ⟨h.sequential, fun b hb => hworks.plain b (List.mem_reverse.mp hb), ?_, ?_⟩
      · show ((t.releaseCdevs temp t.cdevs.reverse w).1.reverse.map (·.cdev)).Nodup
        rw [hcdevs]
        exact h.distinct
      · show World.Stairs _ _ _ _ ((t.releaseCdevs temp t.cdevs.reverse w).1.reverse.map (·.cdev))
        rw [hcdevs]
        have hstairs := hworks.stairs
        rw [List.map_reverse] at hstairs
        exact (hreverse _ _ _ _).mp hstairs
  | keep => exact h

omit [CdevClass.Stores δ] in
/-- Without an evaluation a check changes neither the devices nor the bindings. -/
theorem check_shape (t : TripPoint) (id : Int) (temp : Nat) (pref : Pref) (w : World δ) :
    ((t.thdTripPointCheck id temp pref w).trip.cdevs = t.cdevs ∧
      (t.thdTripPointCheck id temp pref w).world.cdevs = w.cdevs) ∨
    t.thdTripPointCheck id temp pref w = t.evaluate temp w := by
  have hpolling : ∀ t : TripPoint, (t.checkPolling temp w).trip.cdevs = t.cdevs ∧
      (t.checkPolling temp w).world.cdevs = w.cdevs := by
    intro t
    unfold checkPolling
    split
    · exact ⟨rfl, rfl⟩
    · simp only
      split
      · exact ⟨rfl, rfl⟩
      · split
        · exact ⟨rfl, rfl⟩
        · exact ⟨rfl, rfl⟩
  unfold thdTripPointCheck
  split
  · exact .inl ⟨rfl, rfl⟩
  split
  · exact .inl ⟨rfl, rfl⟩
  split
  · exact .inl ⟨rfl, rfl⟩
  split
  · unfold criticalEvent
    split
    · exact .inl ⟨rfl, rfl⟩
    · exact .inl ⟨rfl, rfl⟩
  · obtain ⟨t', ht', hcdevs, htype, hnot⟩ : ∃ t', (if t.counts = true then
        { t with critTripCount := 0 } else t) = t' ∧ t'.cdevs = t.cdevs ∧ t'.type = t.type ∧
        (t.counts = false → t' = t) := by
      split
      · exact ⟨_, rfl, rfl, rfl, by simp_all⟩
      · exact ⟨_, rfl, rfl, rfl, fun _ => rfl⟩
    simp only [ht']
    split
    · exact .inl ⟨(hpolling t').1.trans hcdevs, (hpolling t').2⟩
    split
    · -- the trips that are evaluated do not count critical events
      rename_i happlies
      rw [htype] at happlies
      rw [hnot (t.counts_of_applies happlies)]
      exact .inr rfl
    · exact .inl ⟨hcdevs, rfl⟩

/-- A check keeps the staircase of a sequential trip. -/
theorem Climbs.check (h : t.Climbs w) (id : Int) (temp : Nat) (pref : Pref) :
    (t.thdTripPointCheck id temp pref w).trip.Climbs
      (t.thdTripPointCheck id temp pref w).world := by
  rcases t.check_shape id temp pref w with ⟨hcdevs, hworld⟩ | heq
  · obtain ⟨hsame, -⟩ := t.check_acts id temp pref 0 w
    have howner : (t.thdTripPointCheck id temp pref w).trip.owner = t.owner := by
      unfold owner
      rw [hsame.zoneId, hsame.index]
    refine ⟨hsame.controlType.trans h.sequential, hcdevs ▸ h.plain, hcdevs ▸ h.distinct, ?_, ?_⟩
    · rw [hcdevs, hworld, howner]
      exact h.stairs.devices
    · rw [hcdevs, hworld]
      exact h.stairs.parts
  · rw [heq]
    exact h.evaluate temp

/-- So does a reset. -/
theorem Climbs.reset (h : t.Climbs w) (force : Bool) :
    t.Climbs (t.thdTripCdevStateReset force w) := by
  have hmem : ∀ k, k ∈ t.cdevs.reverse.map (·.cdev) ↔ k ∈ t.cdevs.map (·.cdev) := by
    intro k
    rw [List.map_reverse, List.mem_reverse]
  obtain ⟨hmin, -⟩ := t.reset_cdevs_min force t.cdevs.reverse w fun k hk =>
    h.stairs.devices k ((hmem k).mp hk)
  exact ⟨h.sequential, h.plain, h.distinct, fun k hk => (hmin k ((hmem k).mpr hk)).1,
    staircase_of_forall fun k hk => (hmin k ((hmem k).mpr hk)).2⟩

end TripPoint

end Thermald
