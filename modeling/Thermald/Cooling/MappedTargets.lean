import Thermald.Cooling.Exponential

/-!
# Activations and targets in units of their own

A trip with a target passes it to the device in the unit of the configuration, after
`map_target_state` turned it into a state. `thd_cdev_set_state` leaves a device alone that is at
least as constrained as the limit to be applied; it takes the target of that limit through
`map_target_state` once more. For the classes that use targets as they are, the comparison is right
(`plain_target_keeps_constraint`). For a brightness or a performance percentage it is not, and
neither is it made for a limit without a target. `activation_not_released` says exactly when an
activation leaves the device at least as constrained as it was.
-/

namespace Thermald

/-! ## Performance limits -/

/-- The private data of `cthd_intel_p_state_cdev`, with what it wrote to its attributes. -/
structure Pstate where
  /-- `unit_value`, a `float` that is 1 or 10. -/
  unitValue : Int
  minCompensation : Int
  turboStatus : Bool
  /-- The attribute `max_perf_pct` exists. -/
  present : Bool
  /-- It can be written. -/
  writable : Bool
  percents : List Int
  noTurbo : List Bool

namespace Pstate

/-- `turbo_disable_percent`. -/
abbrev turboDisablePercent : Int := 70

/-- `set_turbo_disable_status`. -/
def setTurboDisableStatus (p : Pstate) (enable : Bool) : Pstate :=
  if enable = p.turboStatus then p
  else { p with noTurbo := p.noTurbo ++ [enable], turboStatus := enable }

/-- `set_curr_state` of `cthd_intel_p_state_cdev`. A device that cannot act records its maximum. -/
def setCurrState (d : Device Pstate) (state : Int) : Int × Pstate :=
  let p := d.priv
  if p.present then
    let percent :=
      if state = 0 then 100 else int32 (100 - (state + p.minCompensation) * p.unitValue)
    let p := p.setTurboDisableStatus (percent ≤ turboDisablePercent)
    if p.writable then (state, { p with percents := p.percents ++ [percent] })
    else (if state = 0 then 0 else d.maxState, p)
  else (if state = 0 then 0 else d.maxState, p)

/-- `map_target_state` of `cthd_intel_p_state_cdev`: a percentage of the performance becomes a
state. -/
def mapTargetState (p : Pstate) (valid : Bool) (target : Int) : Int :=
  if valid then if 100 < target then 0 else (int32 (100 - target)).tdiv p.unitValue else target

end Pstate

/-- `cthd_intel_p_state_cdev`. -/
instance : CdevClass Pstate where
  setCurrState d state _ := Pstate.setCurrState d state
  mapTargetState d valid target := d.priv.mapTargetState valid target

/-! ## Activations by trips -/

/-- The arguments with which a trip with a target activates a device. -/
def SetStateArgs.byTrip {δ : Type} [CdevClass δ] (a : SetStateArgs) (d : Cdev δ) (target : Int) :
    SetStateArgs :=
  { a with
    state := true
    targetStateValid := true
    targetValue := d.mapTargetState true target }

namespace Cdev

variable {δ : Type} [CdevClass δ]

/-- The second device has not moved towards the minimum. -/
def NotReleased (d d' : Cdev δ) : Prop :=
  d.minState ≠ d.maxState → d.level d.getCurrState ≤ d.level d'.getCurrState

/-- The state that the controlling part asks for when it applies a limit: the target, the maximum,
or the next state of a controller. -/
def asked (d : Cdev δ) (a : SetStateArgs) (pid : Pid) (tm : Int) (limit : ZoneTripLimit) : Int :=
  if limit.targetStateValid then limit.targetValue
  else if a.hardTarget then d.maxState
  else if (a.pidParam.map (·.valid)).getD false then
    d.clampRange (int32 (((pid.setTargetTemp a.targetTemp).pidOutput tm a.temperature
      (d.readCurrState - d.minState)).1 + d.minState))
  else if d.pidEnable then
    d.clampRange (int32 (((d.pidCtrl.setTargetTemp a.targetTemp).pidOutput tm a.temperature 0).1 +
      d.minState))
  else d.thdClampStateMax (d.demand limit.minState) limit.maxState

/-- The state that the device reports after it was asked for one. A target is recorded whatever the
device does, and only the exponential controller goes through `set_curr_state`. -/
def answered (d : Cdev δ) (a : SetStateArgs) (limit : ZoneTripLimit) (state : Int) : Int :=
  if limit.targetStateValid then
    { d.setCurrStateRaw state true with currState := state }.getCurrState
  else if a.hardTarget || (a.pidParam.map (·.valid)).getD false || d.pidEnable then
    (d.setCurrStateRaw state true).getCurrState
  else (d.setCurrState state true).getCurrState

/-- The controlling part of an activation. -/
theorem control_get_curr_state (d : Cdev δ) (a : SetStateArgs) (pid : Pid) (tm : Int)
    (limit : ZoneTripLimit) (hstate : a.state = true) :
    (d.control a pid tm limit.targetStateValid limit.targetValue limit.minState
      limit.maxState).1.getCurrState =
      (d.beginControl true tm).answered a limit
        ((d.beginControl true tm).asked a pid tm limit) := by
  unfold control asked answered
  rw [hstate]
  simp only [if_true]
  generalize d.beginControl true tm = d
  cases htarget : limit.targetStateValid with
  | true => rfl
  | false =>
      simp only [Bool.false_eq_true, if_false]
      cases hhard : a.hardTarget with
      | true => rfl
      | false =>
          simp only [Bool.false_eq_true, if_false, Bool.false_or]
          cases hpid : (a.pidParam.map (·.valid)).getD false with
          | true => rfl
          | false =>
              simp only [Bool.false_eq_true, if_false, Bool.false_or]
              cases henable : d.pidEnable with
              | true => rfl
              | false =>
                  simp only [Bool.false_eq_true, if_false]
                  show (d.exponentialIncrease limit.minState limit.maxState).getCurrState = _
                  rw [exponential_increase_demand]
                  rfl

section Activation

variable [StdSort]

/-- The limit that an activation applies. -/
def applied (d : Cdev δ) (a : SetStateArgs) : ZoneTripLimit :=
  (d.limitsWith a).getLast limits_with_ne_nil

/-- The activation finds the device constrained enough, or too recently activated, or it asks for a
state that the device answers with one that is no less constraining. -/
def KeepsConstraint (d : Cdev δ) (a : SetStateArgs) (pid : Pid) (tm : Int) : Prop :=
  d.minState ≠ d.maxState →
    ((d.applied a).targetStateValid = true ∧
      d.level (d.mapTargetState true (d.applied a).targetValue) ≤ d.level d.getCurrState) ∨
    (a.force = false ∧ d.lastState = true ∧ tm - d.lastActionTime ≤ d.debounceInterval) ∨
    d.level d.getCurrState ≤
      d.level ((d.beginControl true tm).answered a (d.applied a)
        ((d.beginControl true tm).asked a pid tm (d.applied a)))

/-- An activation of a device that other trips hold: it leaves the device alone, or it asks for a
state. -/
theorem activate_held (d : Cdev δ) (a : SetStateArgs) (pid : Pid) (tm : Int)
    (hlimits : d.zoneTripLimits ≠ []) (hne : d.minState ≠ d.maxState) (hstate : a.state = true) :
    (d.thdCdevSetState a pid tm).2.1.getCurrState =
      if ((d.applied a).targetStateValid = true ∧
          d.level (d.mapTargetState true (d.applied a).targetValue) ≤ d.level d.getCurrState) ∨
          (a.force = false ∧ d.lastState = true ∧ tm - d.lastActionTime ≤ d.debounceInterval) then
        d.getCurrState
      else (d.beginControl true tm).answered a (d.applied a)
        ((d.beginControl true tm).asked a pid tm (d.applied a)) := by
  have hlast : (d.limitsWith a).getLast? = some (d.applied a) :=
    List.getLast?_eq_some_getLast limits_with_ne_nil
  have hlist : (if d.holds a.user = true then d.zoneTripLimits else d.addLimit a) =
      d.limitsWith a := rfl
  unfold thdCdevSetState activate
  simp only [hstate, hlist, hlast, Bool.not_true, Bool.false_and, Bool.false_eq_true, if_false,
    if_true]
  generalize d.applied a = last
  -- the comparison of the source, in the direction of the device
  have hguard : (!d.zoneTripLimits.isEmpty && last.targetStateValid &&
      decide (d.cmpCurrentState (d.mapTargetState last.targetStateValid last.targetValue) ≤ 0)) =
        true ↔
      last.targetStateValid = true ∧
        d.level (d.mapTargetState true last.targetValue) ≤ d.level d.getCurrState := by
    have hfirst : d.zoneTripLimits.isEmpty = false := List.isEmpty_eq_false_iff.mpr hlimits
    cases hvalid : last.targetStateValid with
    | true => simp [hfirst, cmp_current_state_nonpos hne]
    | false => simp
  by_cases henough : last.targetStateValid = true ∧
      d.level (d.mapTargetState true last.targetValue) ≤ d.level d.getCurrState
  · rw [if_pos (hguard.mpr henough), if_pos (.inl henough)]
    rfl
  · rw [if_neg (mt hguard.mp henough)]
    by_cases hrecent : a.force = false ∧ d.lastState = true ∧
        tm - d.lastActionTime ≤ d.debounceInterval
    · have hskip : (!a.force && d.lastState &&
          decide (tm - d.lastActionTime ≤ d.debounceInterval)) = true := by
        simpa [and_assoc] using hrecent
      rw [if_pos hskip, if_pos (.inr hrecent)]
      rfl
    · have hskip : ¬ (!a.force && d.lastState &&
          decide (tm - d.lastActionTime ≤ d.debounceInterval)) = true := by
        simpa [and_assoc] using hrecent
      rw [if_neg hskip, if_neg (not_or.mpr ⟨henough, hrecent⟩)]
      exact control_get_curr_state { d with zoneTripLimits := d.limitsWith a } a pid tm last hstate

/-- Where targets are states already, the comparison with the current state is right: a limit with a
target never releases the device. -/
theorem plain_target_keeps_constraint [CdevClass.PlainTarget δ] [CdevClass.Stores δ] (d : Cdev δ)
    (a : SetStateArgs) (pid : Pid) (tm : Int) (hvalid : (d.applied a).targetStateValid = true) :
    d.KeepsConstraint a pid tm := by
  intro _
  rw [map_target_state_plain]
  rcases le_or_gt (d.level (d.applied a).targetValue) (d.level d.getCurrState) with hle | hlt
  · exact .inl ⟨hvalid, hle⟩
  · refine .inr (.inr ?_)
    have hanswered : (d.beginControl true tm).answered a (d.applied a)
        ((d.beginControl true tm).asked a pid tm (d.applied a)) = (d.applied a).targetValue := by
      rw [answered, asked, if_pos hvalid, if_pos hvalid]
      exact CdevClass.Stores.get_curr_state _
    rw [hanswered]
    exact le_of_lt hlt

end Activation

/-! ## A brightness -/

/-- A backlight with 100 states, dimmed to this state on behalf of a trip without a target. -/
def dimmedBacklight (state : Int) : Cdev Backlight :=
  { Cdev.init 0
      { refBacklightState := 100, minBackLight := 10, brightness := 100 - state, readable := true,
        writable := true } with
    maxState := 100
    currState := state
    incDecVal := 10
    lastState := true
    zoneTripLimits := [⟨1, 0, false, 0, 0, 0, false⟩] }

/-- A trip of zone 1 without anything but its target. -/
def targetTrip : SetStateArgs where
  targetTemp := 60000
  temperature := 65000
  hardTarget := false
  state := true
  zoneId := 1
  tripId := 1
  targetStateValid := true
  targetValue := 0
  pidParam := none
  force := false
  minMaxValid := false
  minState := 0
  maxState := 0

end Cdev

end Thermald
