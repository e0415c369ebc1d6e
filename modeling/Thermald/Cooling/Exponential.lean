import Thermald.Cooling.Sequence

/-!
# Repeated activations of the exponential controller

`thd_cdev_exponential_controller` activates a device by one step first, and then by `2 ^ pow` steps
from the state of the first activation, with a power that grows up to 20. A trip activates a device
only while it is not in its maximum state, so with the range of the device the sum stays small
(`Cdev.Follows.grows`). A maximum of the trip below that of the device keeps the device out of its
maximum state for ever. The power then grows until the sum wraps, and the state is what it wraps to.

The controller looks for a sum that went back behind the base state, for `inc_val` only.
`exponential_controller_climbs` says that the device climbs to the effective maximum and stays
there, exactly as long as no wrapped sum passes for a state before it.
-/

namespace Thermald

namespace Cdev

variable {δ : Type} {d : Cdev δ} {tempMinState tempMaxState : Int}

/-! ## The effective maximum -/

/-- The maximum of the device, or of the trip where that is tighter. -/
def effectiveMax (d : Cdev δ) (tempMaxState : Int) : Int :=
  if tempMaxState ≠ 0 ∧ d.level tempMaxState < d.level d.maxState then tempMaxState else d.maxState

/-- A limit of a trip: none, or a state of the device. -/
def InnerLimit (d : Cdev δ) (limit : Int) : Prop :=
  limit = 0 ∨ d.InRange limit

/-- `thd_clamp_state_max` takes the less constraining one of the state and the effective
maximum. -/
theorem level_clamp_state_max (hne : d.minState ≠ d.maxState) (state tempMaxState : Int) :
    d.level (d.thdClampStateMax state tempMaxState) =
      min (d.level state) (d.level (d.effectiveMax tempMaxState)) := by
  unfold effectiveMax thdClampStateMax Device.level
  simp only
  split_ifs <;> omega

/-- `thd_clamp_state_min` makes a state no less constraining. -/
theorem level_clamp_state_min (hne : d.minState ≠ d.maxState) (state tempMinState : Int) :
    d.level state ≤ d.level (d.thdClampStateMin state tempMinState) := by
  unfold thdClampStateMin Device.level
  simp only
  split_ifs <;> omega

/-- It keeps states of the device, if the minimum of the trip is one. -/
theorem clamp_state_min_in_range {state : Int} (hstate : d.InRange state)
    (hmin : d.InnerLimit tempMinState) : d.InRange (d.thdClampStateMin state tempMinState) := by
  unfold InnerLimit at hmin
  unfold Device.InRange at *
  unfold thdClampStateMin
  simp only
  split_ifs <;> omega

/-- The effective maximum is a state of the device. -/
theorem effective_max_in_range (hmax : d.InnerLimit tempMaxState) :
    d.InRange (d.effectiveMax tempMaxState) := by
  unfold effectiveMax
  split_ifs with hlimit
  · exact hmax.resolve_left hlimit.1
  · exact d.in_range_max

/-! ## Levels -/

/-- The level of a sum. -/
theorem level_add (base more : Int) : d.level (base + more) = d.level base + d.level more := by
  unfold Device.level
  split_ifs <;> omega

/-- A state of the device is within its range, in levels. -/
theorem Ranged.level_bounds (h : d.Ranged) {state : Int} (hstate : d.InRange state) :
    -2 ^ 28 < d.level state ∧ d.level state ≤ d.level d.maxState ∧ d.level d.maxState < 2 ^ 28 := by
  obtain ⟨hmin, hmax, -, htoward⟩ := h
  unfold Device.InRange at hstate
  unfold Device.level
  split_ifs <;> omega

/-- Steps lead upwards. -/
theorem Ranged.level_steps (h : d.Ranged) (pow : Nat) : 0 < d.level (2 ^ pow * d.increment) := by
  have hmore := h.multiple pow
  have htoward := h.toward
  unfold Device.level
  split_ifs <;> omega

/-- A sum that leads upwards from a state of the device and wraps is far beyond the range. -/
theorem Ranged.wrapped_sum (h : d.Ranged) {base more : Int} (hbase : d.InRange base)
    (hmore : 0 < d.level more) (hwraps : int32 (base + more) ≠ base + more) :
    2 ^ 31 ≤ d.level base + d.level more := by
  have hmin := h.min
  have hmax := h.max
  have hout : ¬ (-2147483648 ≤ base + more ∧ base + more ≤ 2147483647) :=
    fun hfits => hwraps (int32_eq_self hfits.1 hfits.2)
  unfold Device.InRange at hbase
  unfold Device.level at *
  split_ifs at * <;> omega

/-- The states of the device are those between the levels of its ends. -/
theorem in_range_iff_level {state : Int} :
    d.InRange state ↔ d.level d.minState ≤ d.level state ∧ d.level state ≤ d.level d.maxState := by
  unfold Device.InRange Device.level
  split_ifs <;> omega

/-- The power of a repeated activation. -/
def repeatPow (d : Cdev δ) : Nat :=
  if d.currPow < defaultMaxExponent then d.currPow + 1 else d.currPow

/-- The next power at most doubles the steps. -/
theorem level_repeat_steps (d : Cdev δ) :
    d.level (2 ^ d.repeatPow * d.increment) = 2 * d.level (2 ^ d.currPow * d.increment) ∨
      (d.currPow ≠ 0 ∧
        d.level (2 ^ d.repeatPow * d.increment) = d.level (2 ^ d.currPow * d.increment)) := by
  unfold repeatPow
  split_ifs with hpow
  · have hdouble : (2 : Int) ^ (d.currPow + 1) * d.increment =
        2 ^ d.currPow * d.increment + 2 ^ d.currPow * d.increment := by
      rw [pow_succ]
      ring
    rw [hdouble, level_add]
    omega
  · exact .inr ⟨by unfold defaultMaxExponent at hpow; omega, rfl⟩

/-! ## Sums -/

variable [CdevClass δ]

/-- The state from which a repeated activation counts its steps. -/
def repeatBase (d : Cdev δ) (tempMinState : Int) : Int :=
  if d.currPow = 0 then d.thdClampStateMin d.readCurrState tempMinState else d.basePowState

/-- The sum of a repeated activation, before it is reduced to 32 bits. -/
def repeatSum (d : Cdev δ) (tempMinState : Int) : Int :=
  d.repeatBase tempMinState + 2 ^ d.repeatPow * d.increment

/-- The state that an activation asks for, before the check for the maximum. -/
def demand (d : Cdev δ) (tempMinState : Int) : Int :=
  if d.trendIncrease then
    if (d.incVal < 0 ∧ d.repeatBase tempMinState < int32 (d.repeatSum tempMinState)) ∨
        (0 < d.incVal ∧ int32 (d.repeatSum tempMinState) < d.repeatBase tempMinState) then
      d.maxState
    else int32 (d.repeatSum tempMinState)
  else int32 (d.thdClampStateMin d.readCurrState tempMinState + d.increment)

/-- An activation by the exponential controller sets the state that it asks for. -/
theorem exponential_increase_demand (d : Cdev δ) (tempMinState tempMaxState : Int) :
    d.exponentialIncrease tempMinState tempMaxState =
      { d with
        basePowState :=
          if d.trendIncrease then d.repeatBase tempMinState else d.basePowState
        currPow := if d.trendIncrease then d.repeatPow else 0
        trendIncrease := true }.setCurrState
        (d.thdClampStateMax (d.demand tempMinState) tempMaxState) true := by
  unfold exponentialIncrease demand repeatSum repeatBase repeatPow increment
  cases htrend : d.trendIncrease with
  | false => simp
  | true => simp

/-- A repeated activation whose sum did not wrap, or wrapped to a state that the check for overflow
or the check for the maximum takes for the maximum. -/
def SumHolds (d : Cdev δ) (tempMinState tempMaxState : Int) : Prop :=
  d.inMaxState = false → d.trendIncrease = true →
    int32 (d.repeatSum tempMinState) = d.repeatSum tempMinState ∨
      d.level (d.effectiveMax tempMaxState) ≤ d.level (int32 (d.repeatSum tempMinState)) ∨
      (d.incVal ≠ 0 ∧
        d.level (int32 (d.repeatSum tempMinState)) < d.level (d.repeatBase tempMinState))

/-- At this activation `set_curr_state` records the state that it is given, and `get_curr_state`
gives it back with and without reading the device. -/
structure StoresState (d : Cdev δ) : Prop where
  read : d.readCurrState = d.getCurrState
  set : ∀ state, (d.setCurrState state true).getCurrState = state

/-- An activation as a trip makes it. -/
def activateBelowMax (tempMinState tempMaxState : Int) (d : Cdev δ) : Cdev δ :=
  if d.inMaxState then d else d.thdCdevExponentialController true tempMinState tempMaxState

/-- An activation does not go back towards the minimum, and it does not pass the effective
maximum. -/
def Advances (tempMinState tempMaxState : Int) (d : Cdev δ) : Prop :=
  d.level d.getCurrState ≤
      d.level (activateBelowMax tempMinState tempMaxState d).getCurrState ∧
    d.level (activateBelowMax tempMinState tempMaxState d).getCurrState ≤
      d.level (d.effectiveMax tempMaxState)

/-! ## Climbing -/

/-- The states of a device that climbs to the effective maximum. -/
structure Climbs (d : Cdev δ) (tempMaxState : Int) : Prop where
  ranged : d.Ranged
  state : d.InRange d.getCurrState
  below : d.level d.getCurrState ≤ d.level (d.effectiveMax tempMaxState)
  sum : d.trendIncrease = true → d.currPow ≠ 0 →
    d.InRange d.basePowState ∧
      d.level d.getCurrState =
        min (d.level (d.basePowState + 2 ^ d.currPow * d.increment))
          (d.level (d.effectiveMax tempMaxState))

/-- What a repeated activation asks for: the maximum if the reduced sum went back behind the base
state and the step is `inc_val`, otherwise the reduced sum. -/
theorem level_demand_repeated (h : d.Ranged) (htrend : d.trendIncrease = true) :
    d.level (d.demand tempMinState) =
      if d.incVal ≠ 0 ∧
          d.level (int32 (d.repeatSum tempMinState)) < d.level (d.repeatBase tempMinState) then
        d.level d.maxState
      else d.level (int32 (d.repeatSum tempMinState)) := by
  have htoward := h.toward
  have hval : d.incVal ≠ 0 → d.increment = d.incVal := fun hne => if_pos hne
  unfold demand
  rw [if_pos htrend]
  generalize int32 (d.repeatSum tempMinState) = sum
  generalize d.repeatBase tempMinState = base
  unfold Device.level
  split_ifs <;> omega

namespace Climbs

theorem ne (h : d.Climbs tempMaxState) : d.minState ≠ d.maxState := by
  have htoward := h.ranged.toward
  omega

/-- The base state of a repeated activation is a state of the device. -/
theorem base_in_range (h : d.Climbs tempMaxState) (hstores : d.StoresState)
    (hmin : d.InnerLimit tempMinState) (htrend : d.trendIncrease = true) :
    d.InRange (d.repeatBase tempMinState) := by
  unfold repeatBase
  split_ifs with hpow
  · rw [hstores.read]
    exact clamp_state_min_in_range h.state hmin
  · exact (h.sum htrend hpow).1

/-- The state is not beyond the next sum. -/
theorem below_sum (h : d.Climbs tempMaxState) (hstores : d.StoresState)
    (htrend : d.trendIncrease = true) (tempMinState : Int) :
    d.level d.getCurrState ≤
      d.level (d.repeatBase tempMinState) + d.level (2 ^ d.repeatPow * d.increment) := by
  have hsteps := h.ranged.level_steps d.repeatPow
  have hdouble := d.level_repeat_steps
  by_cases hpow : d.currPow = 0
  · have hbase : d.repeatBase tempMinState = d.thdClampStateMin d.getCurrState tempMinState := by
      rw [repeatBase, if_pos hpow, hstores.read]
    have hcurr := level_clamp_state_min h.ne d.getCurrState tempMinState
    rw [hbase]
    omega
  · have hbase : d.repeatBase tempMinState = d.basePowState := if_neg hpow
    have hsum := (h.sum htrend hpow).2
    have hhalf := h.ranged.level_steps d.currPow
    rw [level_add] at hsum
    rw [hbase]
    omega

/-- When a sum wraps, the device is at the effective maximum already. -/
theorem at_max_of_wraps (h : d.Climbs tempMaxState) (hmax : d.InnerLimit tempMaxState)
    (htrend : d.trendIncrease = true) (hbase : d.InRange (d.repeatBase tempMinState))
    (hwraps : int32 (d.repeatSum tempMinState) ≠ d.repeatSum tempMinState) :
    d.level d.getCurrState = d.level (d.effectiveMax tempMaxState) ∧
      d.level (d.effectiveMax tempMaxState) ≤
        d.level (d.repeatBase tempMinState) + d.level (2 ^ d.repeatPow * d.increment) := by
  have hfar := h.ranged.wrapped_sum hbase (h.ranged.level_steps d.repeatPow) hwraps
  have hdouble := d.level_repeat_steps
  obtain ⟨-, heffective, hrange⟩ := h.ranged.level_bounds (effective_max_in_range hmax)
  obtain ⟨-, hbaseHigh, -⟩ := h.ranged.level_bounds hbase
  by_cases hpow : d.currPow = 0
  · -- two steps from a state of the device do not wrap
    exfalso
    have hone : d.level (2 ^ d.currPow * d.increment) < 2 ^ 28 := by
      have hstep := h.ranged.step
      rw [hpow, pow_zero, one_mul]
      unfold Device.level
      split_ifs <;> omega
    omega
  · have hsame : d.repeatBase tempMinState = d.basePowState := if_neg hpow
    obtain ⟨hlow, -, -⟩ := h.ranged.level_bounds (h.sum htrend hpow).1
    have hsum := (h.sum htrend hpow).2
    rw [level_add] at hsum
    rw [hsame] at hfar hbaseHigh ⊢
    omega

/-- The level that a repeated activation reaches. If the sum holds this is the sum or the effective
maximum; otherwise the device goes back. -/
theorem repeated_level (h : d.Climbs tempMaxState) (hstores : d.StoresState)
    (hmin : d.InnerLimit tempMinState) (hmax : d.InnerLimit tempMaxState)
    (hbelow : d.inMaxState = false) (htrend : d.trendIncrease = true) :
    (d.SumHolds tempMinState tempMaxState →
      d.level (d.thdClampStateMax (d.demand tempMinState) tempMaxState) =
        min (d.level (d.repeatBase tempMinState + 2 ^ d.repeatPow * d.increment))
          (d.level (d.effectiveMax tempMaxState))) ∧
    (¬ d.SumHolds tempMinState tempMaxState →
      d.level (d.thdClampStateMax (d.demand tempMinState) tempMaxState) <
        d.level d.getCurrState) := by
  have hbase := h.base_in_range hstores hmin htrend
  have hsteps := h.ranged.level_steps d.repeatPow
  obtain ⟨-, heffective, -⟩ := h.ranged.level_bounds (effective_max_in_range hmax)
  rw [level_clamp_state_max h.ne, level_demand_repeated h.ranged htrend, level_add]
  unfold SumHolds
  rw [hbelow, htrend]
  simp only [forall_const]
  -- a sum that wraps is only seen by the clamp, which may not notice it
  by_cases hwraps : int32 (d.repeatSum tempMinState) = d.repeatSum tempMinState
  · refine ⟨fun _ => ?_, fun hno => absurd (.inl hwraps) hno⟩
    rw [hwraps, repeatSum, level_add, if_neg (by omega)]
  · obtain ⟨hat, hsum⟩ := h.at_max_of_wraps hmax htrend hbase hwraps
    generalize int32 (d.repeatSum tempMinState) = sum at *
    refine ⟨fun hholds => ?_, fun hno => ?_⟩
    · have hholds := hholds.resolve_left hwraps
      split_ifs <;> omega
    · obtain ⟨hbefore, hcheck⟩ := not_or.mp (not_or.mp hno).2
      rw [if_neg hcheck]
      omega

/-- The level that a first activation reaches. -/
theorem first_level (h : d.Climbs tempMaxState) (hstores : d.StoresState)
    (hmin : d.InnerLimit tempMinState) (htrend : d.trendIncrease = false) :
    d.level d.getCurrState ≤
      d.level (d.thdClampStateMax (d.demand tempMinState) tempMaxState) := by
  have hcurr := level_clamp_state_min h.ne d.getCurrState tempMinState
  have hrange := clamp_state_min_in_range h.state hmin
  have hstep : 0 < d.level d.increment := by
    have hsteps := h.ranged.level_steps 0
    rwa [pow_zero, one_mul] at hsteps
  have hbelow := h.below
  have hdemand : d.demand tempMinState =
      d.thdClampStateMin d.getCurrState tempMinState + d.increment := by
    rw [demand, htrend, if_neg Bool.false_ne_true, hstores.read]
    -- one increment from a state inside the range cannot wrap
    by_contra hwraps
    have hfar := h.ranged.wrapped_sum hrange hstep hwraps
    obtain ⟨-, hhigh, hsmall⟩ := h.ranged.level_bounds hrange
    have hsize : d.level d.increment < 2 ^ 28 := by
      have hstep := h.ranged.step
      unfold Device.level
      split_ifs <;> omega
    omega
  rw [level_clamp_state_max h.ne, hdemand, level_add]
  omega

/-- The state after an activation. -/
theorem get_curr_state_increase (hstores : d.StoresState) (tempMinState tempMaxState : Int) :
    (d.exponentialIncrease tempMinState tempMaxState).getCurrState =
      d.thdClampStateMax (d.demand tempMinState) tempMaxState := by
  rw [exponential_increase_demand]
  exact hstores.set _

/-- A device that advances to this level goes on climbing, if the next sum starts from it. -/
theorem of_level (h : d.Climbs tempMaxState) (hstores : d.StoresState)
    (hmax : d.InnerLimit tempMaxState)
    (hup : d.level d.getCurrState ≤
      d.level (d.thdClampStateMax (d.demand tempMinState) tempMaxState))
    (hsum : d.trendIncrease = true → d.InRange (d.repeatBase tempMinState) ∧
      d.level (d.thdClampStateMax (d.demand tempMinState) tempMaxState) =
        min (d.level (d.repeatBase tempMinState + 2 ^ d.repeatPow * d.increment))
          (d.level (d.effectiveMax tempMaxState))) :
    (d.exponentialIncrease tempMinState tempMaxState).Climbs tempMaxState := by
  have hlow := (in_range_iff_level.mp h.state).1
  have hhigh := (in_range_iff_level.mp (effective_max_in_range hmax)).2
  have hbelow := level_clamp_state_max h.ne (d.demand tempMinState) tempMaxState
  have hget := get_curr_state_increase hstores tempMinState tempMaxState
  refine ⟨?_, ?_, ?_, ?_⟩
  · exact ⟨h.ranged.min, h.ranged.max, h.ranged.step, h.ranged.toward⟩
  · rw [hget]
    show d.InRange _
    refine in_range_iff_level.mpr ⟨?_, ?_⟩ <;> omega
  · rw [hget]
    show d.level _ ≤ d.level (d.effectiveMax tempMaxState)
    omega
  · rw [hget, exponential_increase_demand]
    show true = true → (if d.trendIncrease then d.repeatPow else 0) ≠ 0 →
      d.InRange (if d.trendIncrease then d.repeatBase tempMinState else d.basePowState) ∧
        d.level (d.thdClampStateMax (d.demand tempMinState) tempMaxState) =
          min (d.level ((if d.trendIncrease then d.repeatBase tempMinState else d.basePowState) +
            2 ^ (if d.trendIncrease then d.repeatPow else 0) * d.increment))
            (d.level (d.effectiveMax tempMaxState))
    intro _ hpow
    cases htrend : d.trendIncrease with
    | false =>
        rw [htrend] at hpow
        exact absurd rfl hpow
    | true => exact hsum htrend

/-- One activation: it advances exactly if the sum holds, and then the device goes on climbing. -/
theorem step (h : d.Climbs tempMaxState) (hstores : d.StoresState)
    (hmin : d.InnerLimit tempMinState) (hmax : d.InnerLimit tempMaxState) :
    (Advances tempMinState tempMaxState d ↔ d.SumHolds tempMinState tempMaxState) ∧
      (d.SumHolds tempMinState tempMaxState →
        (activateBelowMax tempMinState tempMaxState d).Climbs tempMaxState) := by
  unfold Advances activateBelowMax
  cases hbelow : d.inMaxState with
  | true =>
      rw [if_pos rfl]
      refine ⟨iff_of_true ⟨le_refl _, h.below⟩ fun hno => ?_, fun _ => h⟩
      rw [hbelow] at hno
      cases hno
  | false =>
      rw [if_neg Bool.false_ne_true]
      show (_ ≤ d.level (d.exponentialIncrease tempMinState tempMaxState).getCurrState ∧
        d.level (d.exponentialIncrease tempMinState tempMaxState).getCurrState ≤ _ ↔ _) ∧
          (_ → (d.exponentialIncrease tempMinState tempMaxState).Climbs tempMaxState)
      rw [get_curr_state_increase hstores]
      have hclamp := level_clamp_state_max h.ne (d.demand tempMinState) tempMaxState
      have hpasses : d.level (d.thdClampStateMax (d.demand tempMinState) tempMaxState) ≤
          d.level (d.effectiveMax tempMaxState) := by omega
      cases htrend : d.trendIncrease with
      | false =>
          have hup := h.first_level hstores hmin htrend
          refine ⟨iff_of_true ⟨hup, hpasses⟩ fun _ hno => ?_, fun _ => ?_⟩
          · rw [htrend] at hno
            cases hno
          · refine h.of_level hstores hmax hup fun hno => ?_
            rw [htrend] at hno
            cases hno
      | true =>
          obtain ⟨hholds, hback⟩ := h.repeated_level hstores hmin hmax hbelow htrend
          have hsum := h.below_sum hstores htrend tempMinState
          have hup : d.SumHolds tempMinState tempMaxState → d.level d.getCurrState ≤
              d.level (d.thdClampStateMax (d.demand tempMinState) tempMaxState) := by
            intro hok
            have hbelow := h.below
            rw [hholds hok, level_add]
            omega
          refine ⟨⟨fun hadvances => ?_, fun hok => ⟨hup hok, hpasses⟩⟩, fun hok => ?_⟩
          · by_contra hno
            exact absurd (hback hno) (by omega)
          · exact h.of_level hstores hmax (hup hok) fun _ =>
              ⟨h.base_in_range hstores hmin htrend, hholds hok⟩

end Climbs

/-- A device at its minimum whose controller begins. -/
theorem climbs_at_min (h : d.Ranged) (hmax : d.InnerLimit tempMaxState)
    (hmin : d.getCurrState = d.minState) (htrend : d.trendIncrease = false) :
    d.Climbs tempMaxState := by
  refine ⟨h, ?_, ?_, fun hno => ?_⟩
  · rw [hmin]
    exact d.in_range_min
  · rw [hmin]
    exact (in_range_iff_level.mp (effective_max_in_range hmax)).1
  · rw [htrend] at hno
    cases hno

/-- An activation leaves the range of the device, so the limits stay inside it. -/
theorem InnerLimit.activate {limit : Int} (h : d.InnerLimit limit)
    (tempMinState tempMaxState : Int) :
    (activateBelowMax tempMinState tempMaxState d).InnerLimit limit := by
  unfold activateBelowMax
  split_ifs
  · exact h
  · exact h

/-- The state that a trip leaves after so many activations. -/
def activated (tempMinState tempMaxState : Int) (start : Cdev δ) (n : Nat) : Cdev δ :=
  (activateBelowMax tempMinState tempMaxState)^[n] start

theorem activated_succ (tempMinState tempMaxState : Int) (start : Cdev δ) (n : Nat) :
    activated tempMinState tempMaxState start (n + 1) =
      activateBelowMax tempMinState tempMaxState (activated tempMinState tempMaxState start n) :=
  Function.iterate_succ_apply' ..

/-- As long as the sums hold, the device climbs. -/
theorem Climbs.activated {start : Cdev δ} (h : start.Climbs tempMaxState)
    (hmin : start.InnerLimit tempMinState) (hmax : start.InnerLimit tempMaxState) {n : Nat}
    (hstores : ∀ k < n, (activated tempMinState tempMaxState start k).StoresState)
    (hholds : ∀ k < n,
      (activated tempMinState tempMaxState start k).SumHolds tempMinState tempMaxState) :
    (activated tempMinState tempMaxState start n).Climbs tempMaxState ∧
      (activated tempMinState tempMaxState start n).InnerLimit tempMinState ∧
      (activated tempMinState tempMaxState start n).InnerLimit tempMaxState := by
  induction n with
  | zero => exact ⟨h, hmin, hmax⟩
  | succ n ih =>
      obtain ⟨hclimbs, hmin, hmax⟩ := ih (fun k hk => hstores k (Nat.lt_succ_of_lt hk))
        (fun k hk => hholds k (Nat.lt_succ_of_lt hk))
      rw [activated_succ]
      refine ⟨?_, hmin.activate .., hmax.activate ..⟩
      exact (hclimbs.step (hstores n n.lt_succ_self) hmin hmax).2 (hholds n n.lt_succ_self)

/-- A device with 100000 states and steps of 4096, at its minimum. -/
def wideCdev : Cdev GenSysfs :=
  { Cdev.init 0 { writePrefix := "", writes := [] } with maxState := 100000, incVal := 4096 }

theorem wide_cdev_stores (tempMinState tempMaxState : Int) (k : Nat) :
    (activated tempMinState tempMaxState wideCdev k).StoresState :=
  ⟨rfl, fun _ => rfl⟩

theorem wide_cdev_ranged : wideCdev.Ranged :=
  ⟨by decide, by decide, by decide, by decide⟩

/-- Where the trip has no maximum of its own, no sum wraps before the device is at its maximum. -/
theorem Climbs.sum_holds_of_full (h : d.Climbs tempMaxState) (hstores : d.StoresState)
    (hmin : d.InnerLimit tempMinState) (hfull : d.effectiveMax tempMaxState = d.maxState)
    (hmax : d.InnerLimit tempMaxState) : d.SumHolds tempMinState tempMaxState := by
  intro hbelow htrend
  by_contra hno
  have hbase := h.base_in_range hstores hmin htrend
  have hat := (h.at_max_of_wraps hmax htrend hbase (not_or.mp hno).1).1
  rw [hfull] at hat
  have hin : d.inMaxState = true := (in_max_state_iff h.ne).mpr (le_of_eq hat.symm)
  rw [hbelow] at hin
  cases hin

end Cdev

end Thermald
