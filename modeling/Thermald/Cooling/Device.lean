import Thermald.Lib.StdSort
import Thermald.Cooling.Pid

/-!
# Cooling devices

The data of `cthd_cdev` and the parts of it that subclasses replace. `Device` is what subclass
code sees, `CdevClass` the virtual functions with the base class as the default, and `Cdev` the
whole object with the bookkeeping of the controller. A subclass keeps its own members in the
private data `δ`.

A device may count its states upwards (`minState < maxState`) or downwards: a power limit is
most constraining at its smallest value.
-/

namespace Thermald

/-- `THD_SUCCESS`. -/
abbrev thdSuccess : Int := 0

/-- `THD_ERROR`. -/
abbrev thdError : Int := -1

/-- `TRIP_PT_INVALID_TARGET_STATE`. -/
abbrev tripPtInvalidTargetState : Int := intMax

/-- `zone_trip_limits_t`: one trip point that holds a device activated. -/
structure ZoneTripLimit where
  zone : Int
  trip : Int
  targetStateValid : Bool
  targetValue : Int
  minState : Int
  maxState : Int
  minMaxValid : Bool
  deriving DecidableEq, Repr

/-- The zone and trip under which a limit is recorded. -/
def ZoneTripLimit.user (limit : ZoneTripLimit) : Int × Int :=
  (limit.zone, limit.trip)

/-- The members of a cooling device that its subclass reads. -/
structure Device (δ : Type) where
  index : Int
  minState : Int
  maxState : Int
  currState : Int
  incDecVal : Int
  readBack : Bool
  priv : δ

/-- The virtual functions of `cthd_cdev`. Setting a state returns the recorded state and the
private data of the subclass afterwards. -/
class CdevClass (δ : Type) where
  /-- `set_curr_state`. -/
  setCurrState : Device δ → Int → Bool → Int × δ
  /-- `set_curr_state_raw`, which the base class clamps as if the states counted upwards. -/
  setCurrStateRaw : Device δ → Int → Bool → Int × δ := fun d state arg =>
    let state := if d.maxState < state then d.maxState else state
    let state := if state < d.minState then d.minState else state
    setCurrState d state arg
  /-- `get_curr_state()`. -/
  getCurrState : Device δ → Int := fun d => d.currState
  /-- `get_curr_state(true)`. -/
  readCurrState : Device δ → Int := fun d => d.currState
  /-- `map_target_state`. -/
  mapTargetState : Device δ → Bool → Int → Int := fun _ _ target => target

/-- A cooling device. -/
structure Cdev (δ : Type) extends Device δ where
  typeStr : String
  aliasStr : String
  currPow : Nat
  basePowState : Int
  autoDownAdjust : Bool
  debounceInterval : Int
  lastActionTime : Int
  trendIncrease : Bool
  pidEnable : Bool
  pidCtrl : Pid
  lastState : Bool
  zoneTripLimits : List ZoneTripLimit
  incVal : Int
  decVal : Int

namespace Cdev

/-- `default_max_exponent`. -/
abbrev defaultMaxExponent : Nat := 20

variable {δ : Type} [CdevClass δ]

/-- A device as the constructor of `cthd_cdev` leaves it. -/
def init (index : Int) (priv : δ) : Cdev δ where
  index := index
  minState := 0
  maxState := 0
  currState := 0
  incDecVal := 1
  readBack := true
  priv := priv
  typeStr := ""
  aliasStr := ""
  currPow := 0
  basePowState := 0
  autoDownAdjust := false
  debounceInterval := 2
  lastActionTime := 0
  trendIncrease := false
  pidEnable := false
  pidCtrl := .init
  lastState := false
  zoneTripLimits := []
  incVal := 0
  decVal := 0

/-- `get_curr_state()`. -/
def getCurrState (d : Cdev δ) : Int :=
  CdevClass.getCurrState d.toDevice

/-- `get_curr_state(true)`. -/
def readCurrState (d : Cdev δ) : Int :=
  CdevClass.readCurrState d.toDevice

/-- `set_curr_state`. -/
def setCurrState (d : Cdev δ) (state : Int) (arg : Bool) : Cdev δ :=
  let (currState, priv) := CdevClass.setCurrState d.toDevice state arg
  { d with currState, priv }

/-- `set_curr_state_raw`. -/
def setCurrStateRaw (d : Cdev δ) (state : Int) (arg : Bool) : Cdev δ :=
  let (currState, priv) := CdevClass.setCurrStateRaw d.toDevice state arg
  { d with currState, priv }

/-- `map_target_state`. -/
def mapTargetState (d : Cdev δ) (targetValid : Bool) (targetState : Int) : Int :=
  CdevClass.mapTargetState d.toDevice targetValid targetState

/-- `in_min_state`. -/
def inMinState (d : Cdev δ) : Bool :=
  (d.minState < d.maxState && d.getCurrState ≤ d.minState) ||
    (d.maxState < d.minState && d.minState ≤ d.getCurrState)

/-- `in_max_state`. -/
def inMaxState (d : Cdev δ) : Bool :=
  (d.minState < d.maxState && d.maxState ≤ d.getCurrState) ||
    (d.maxState < d.minState && d.getCurrState ≤ d.maxState)

/-- `cmp_current_state`: positive when the given state is more constraining than the current
one. -/
def cmpCurrentState (d : Cdev δ) (state : Int) : Int :=
  if d.getCurrState = state then 0
  else if d.minState < d.maxState then
    if d.getCurrState < state then 1 else -1
  else if d.maxState < d.minState then
    if d.getCurrState < state then -1 else 1
  else 0

/-- `control_begin` of the base class: the controller of the device starts afresh. -/
def controlBegin (d : Cdev δ) : Pid :=
  if d.pidEnable then d.pidCtrl.reset else d.pidCtrl

/-- `thd_clamp_state_min`: the minimum of the device, or of the trip where that is tighter. -/
def thdClampStateMin (d : Cdev δ) (state tempMinState : Int) : Int :=
  if d.minState ≤ d.maxState then
    let minState :=
      if tempMinState ≠ 0 ∧ d.minState < tempMinState then tempMinState else d.minState
    if state < minState then minState else state
  else
    let minState :=
      if tempMinState ≠ 0 ∧ tempMinState < d.minState then tempMinState else d.minState
    if minState < state then minState else state

/-- `thd_clamp_state_max`: the maximum of the device, or of the trip where that is tighter. -/
def thdClampStateMax (d : Cdev δ) (state tempMaxState : Int) : Int :=
  if d.minState ≤ d.maxState then
    let maxState :=
      if tempMaxState ≠ 0 ∧ tempMaxState < d.maxState then tempMaxState else d.maxState
    if maxState < state then maxState else state
  else
    let maxState :=
      if tempMaxState ≠ 0 ∧ d.maxState < tempMaxState then tempMaxState else d.maxState
    if state < maxState then maxState else state

/-- The activating half of `thd_cdev_exponential_controller`: one step from the current state,
or a doubled step from the base state when the previous call already activated the device. -/
def exponentialIncrease (d : Cdev δ) (tempMinState tempMaxState : Int) : Cdev δ :=
  let curr := d.thdClampStateMin d.readCurrState tempMinState
  let inc := if d.incVal ≠ 0 then d.incVal else d.incDecVal
  let basePowState := if d.trendIncrease && d.currPow = 0 then curr else d.basePowState
  let currPow :=
    if d.trendIncrease then
      if d.currPow < defaultMaxExponent then d.currPow + 1 else d.currPow
    else 0
  let state :=
    if d.trendIncrease then
      let state := int32 (basePowState + 2 ^ currPow * inc)
      -- the range test of the source looks at `inc_val` only
      if (d.incVal < 0 ∧ basePowState < state) ∨ (0 < d.incVal ∧ state < basePowState) then
        d.maxState
      else state
    else int32 (curr + inc)
  let state := d.thdClampStateMax state tempMaxState
  { d with basePowState, currPow, trendIncrease := true }.setCurrState state true

/-- The releasing half of `thd_cdev_exponential_controller`: one step towards the minimum, or
the minimum at once for a device that adjusts itself downwards. -/
def exponentialDecrease (d : Cdev δ) (tempMinState tempMaxState : Int) : Cdev δ :=
  let curr := d.thdClampStateMax d.getCurrState tempMaxState
  let d := { d with currPow := 0, trendIncrease := false }
  let state :=
    if d.autoDownAdjust then d.minState
    else
      let step :=
        if d.decVal ≠ 0 then d.decVal
        else if d.minState ≤ d.maxState then d.incDecVal else int32 (-d.incDecVal)
      let step :=
        if d.minState ≤ d.maxState ∧ step < 0 then int32 (-step)
        else if d.maxState < d.minState ∧ 0 < step then int32 (-step)
        else step
      int32 (curr - step)
  let state := d.thdClampStateMin state tempMinState
  let state := d.thdClampStateMax state tempMaxState
  d.setCurrState state false

/-- `thd_cdev_exponential_controller`. -/
def thdCdevExponentialController (d : Cdev δ) (state : Bool) (tempMinState tempMaxState : Int) :
    Cdev δ :=
  if state then d.exponentialIncrease tempMinState tempMaxState
  else d.exponentialDecrease tempMinState tempMaxState

/-- The range check on the output of a controller, in either orientation. -/
def clampRange (d : Cdev δ) (state : Int) : Int :=
  if d.minState < d.maxState then
    let state := if d.maxState < state then d.maxState else state
    if state < d.minState then d.minState else state
  else
    let state := if state < d.maxState then d.maxState else state
    if d.minState < state then d.minState else state

end Cdev

/-- The private data of `cthd_gen_sysfs_cdev`: the text put before a state, and the states
written to the attribute so far. -/
structure GenSysfs where
  writePrefix : String
  writes : List Int

/-- `cthd_gen_sysfs_cdev` writes every state as it is and records it. -/
instance : CdevClass GenSysfs where
  setCurrState d state _ := (state, { d.priv with writes := d.priv.writes ++ [state] })
  setCurrStateRaw d state _ := (state, { d.priv with writes := d.priv.writes ++ [state] })

/-- The private data of `cthd_cdev_backlight`, with the brightness attribute it works on and
whether that can be read and written. -/
structure Backlight where
  refBacklightState : Int
  minBackLight : Int
  brightness : Int
  readable : Bool
  writable : Bool

/-- `set_curr_state` of `cthd_cdev_backlight`: a state lowers the brightness from the one that was
set when throttling began, and state 0 restores it. -/
def Backlight.setCurrState (d : Device Backlight) (state : Int) : Int × Backlight :=
  let b := d.priv
  if state = 0 then
    if b.refBacklightState ≠ 0 then
      if b.writable then
        (state, { b with brightness := b.refBacklightState, refBacklightState := 0 })
      else (d.currState, b)
    else (state, b)
  else if b.refBacklightState = 0 ∧ state = d.incDecVal ∧ b.readable = false then (d.currState, b)
  else
    let ref :=
      if b.refBacklightState = 0 ∧ state = d.incDecVal then b.brightness else b.refBacklightState
    let val := int32 (ref - state)
    let val := if val ≤ b.minBackLight then b.minBackLight else val
    if b.writable then (state, { b with refBacklightState := ref, brightness := val })
    else (d.currState, { b with refBacklightState := ref })

/-- `cthd_cdev_backlight`. Its targets are brightness values, so they are turned around. -/
instance : CdevClass Backlight where
  setCurrState d state _ := Backlight.setCurrState d state
  mapTargetState d valid target :=
    if valid then if d.maxState < target then 0 else int32 (d.maxState - target) else target

end Thermald
