import Thermald.Lib.LastOut
import Thermald.Cooling.Device

/-!
# Setting the state of a cooling device

`thdCdevSetState` is the one entry through which trip points act on a device. A device remembers
in `zoneTripLimits` the trips that hold it activated, sorted so that the most constraining target
comes last. An activation adds its trip to the list and applies the last entry; a release removes
its trip only if it is the last entry and then applies the entry that has become the last one.

The two halves are `activate` and `release`. Each either leaves the device alone except for its
list, or hands a request to `control`, which chooses between the target, the maximum, a PID
controller and the exponential controller.
-/

namespace Thermald

/-- The arguments of `thd_cdev_set_state`, without the controller state. The set point is only
logged. -/
structure SetStateArgs where
  targetTemp : Int
  temperature : Int
  hardTarget : Bool
  state : Bool
  zoneId : Int
  tripId : Int
  targetStateValid : Bool
  targetValue : Int
  pidParam : Option PidParam
  force : Bool
  minMaxValid : Bool
  minState : Int
  maxState : Int

/-- The zone and trip that make a call. -/
def SetStateArgs.user (a : SetStateArgs) : Int × Int :=
  (a.zoneId, a.tripId)

/-- What remains to be done once the limits have been updated: nothing, or to control the device
towards a target or within the limits of a trip. -/
inductive Request where
  | done
  | control (targetStateValid : Bool) (targetValue minState maxState : Int)
  deriving DecidableEq, Repr

namespace Cdev

/-- `sort_clamp_values_asc`. -/
def sortClampValuesAsc (a b : ZoneTripLimit) : Bool := a.targetValue < b.targetValue

/-- `sort_clamp_values_dec`. -/
def sortClampValuesDec (a b : ZoneTripLimit) : Bool := b.targetValue < a.targetValue

/-- `sort_min_max_values_asc`. -/
def sortMinMaxValuesAsc (a b : ZoneTripLimit) : Bool := a.minState < b.minState

/-- `sort_min_max_values_dec`. -/
def sortMinMaxValuesDec (a b : ZoneTripLimit) : Bool := b.maxState < a.maxState

variable {δ : Type} [CdevClass δ] [StdSort]

/-- The entry that an activation adds for its trip. Trip limits that are absent or zero are those
of the device. -/
def newLimit (d : Cdev δ) (a : SetStateArgs) : ZoneTripLimit where
  zone := a.zoneId
  trip := a.tripId
  targetStateValid := a.targetStateValid
  targetValue := a.targetValue
  minState :=
    if a.minMaxValid then
      if a.minState = tripPtInvalidTargetState ∨ a.minState = 0 then d.minState else a.minState
    else 0
  maxState :=
    if a.minMaxValid then
      if a.maxState = tripPtInvalidTargetState ∨ a.maxState = 0 then d.maxState else a.maxState
    else 0
  minMaxValid := a.minMaxValid

/-- The limits with an entry for the calling trip, sorted again by target and then by range. -/
def addLimit (d : Cdev δ) (a : SetStateArgs) : List ZoneTripLimit :=
  let limits := d.zoneTripLimits ++ [d.newLimit a]
  let limits :=
    if a.targetStateValid then
      if d.minState < d.maxState then StdSort.sort sortClampValuesAsc limits
      else StdSort.sort sortClampValuesDec limits
    else limits
  if a.minMaxValid then
    if d.maxState < d.minState then StdSort.sort sortMinMaxValuesDec limits
    else StdSort.sort sortMinMaxValuesAsc limits
  else limits

/-- The calling trip already holds the device. -/
def holds (d : Cdev δ) (user : Int × Int) : Bool :=
  d.zoneTripLimits.any fun limit => limit.user = user

/-- The activating half of `thd_cdev_set_state` at time `tm`. -/
def activate (d : Cdev δ) (a : SetStateArgs) (tm : Int) : List ZoneTripLimit × Request :=
  let limits := if d.holds a.user then d.zoneTripLimits else d.addLimit a
  match limits.getLast? with
  | none => (limits, .done)
  | some limit =>
    let firstEntry := d.zoneTripLimits.isEmpty
    if !firstEntry && limit.targetStateValid &&
        d.cmpCurrentState (d.mapTargetState limit.targetStateValid limit.targetValue) ≤ 0 then
      -- already more constrained
      (limits, .done)
    else if !a.force && d.lastState && tm - d.lastActionTime ≤ d.debounceInterval then
      (limits, .done)
    else
      (limits, .control limit.targetStateValid limit.targetValue limit.minState limit.maxState)

/-- The releasing half of `thd_cdev_set_state`. Only the last entry is looked at. -/
def release (d : Cdev δ) (a : SetStateArgs) : List ZoneTripLimit × Request :=
  match d.zoneTripLimits.getLast? with
  | none =>
    if a.force then ([], .control true d.minState a.minState a.maxState)
    else ([], .control false a.targetValue a.minState a.maxState)
  | some limit =>
    if limit.user = a.user then
      let limits := d.zoneTripLimits.dropLast
      match limits.getLast? with
      | some next =>
        (limits, .control next.targetStateValid next.targetValue next.minState next.maxState)
      | none =>
        if limit.targetStateValid then
          (limits, .control a.targetStateValid d.minState a.minState a.maxState)
        else if a.force then (limits, .control true d.minState a.minState a.maxState)
        else (limits, .control a.targetStateValid a.targetValue a.minState a.maxState)
    else (d.zoneTripLimits, .done)

/-- The bookkeeping before the state is changed. A device that leaves its minimum starts afresh. -/
def beginControl (d : Cdev δ) (state : Bool) (tm : Int) : Cdev δ :=
  let currState := d.getCurrState
  { d with
    lastActionTime := tm
    lastState := state
    currState
    currPow := if currState = d.minState then 0 else d.currPow
    trendIncrease := if currState = d.minState then false else d.trendIncrease
    pidCtrl := if currState = d.minState then d.controlBegin else d.pidCtrl }

/-- The controlling part of `thd_cdev_set_state`. -/
def control (d : Cdev δ) (a : SetStateArgs) (pid : Pid) (tm : Int)
    (targetStateValid : Bool) (targetValue minState maxState : Int) : Cdev δ × Pid :=
  let d := d.beginControl a.state tm
  if targetStateValid then
    ({ d.setCurrStateRaw targetValue a.state with currState := targetValue }, pid)
  else if a.hardTarget then (d.setCurrStateRaw d.maxState a.state, pid)
  else if (a.pidParam.map (·.valid)).getD false then
    let (output, pid) :=
      (pid.setTargetTemp a.targetTemp).pidOutput tm a.temperature (d.readCurrState - d.minState)
    let d := d.setCurrStateRaw (d.clampRange (int32 (output + d.minState))) a.state
    (d, if a.state then pid else pid.reset)
  else if d.pidEnable then
    let (output, pidCtrl) := (d.pidCtrl.setTargetTemp a.targetTemp).pidOutput tm a.temperature 0
    let d := { d with pidCtrl }
    (d.setCurrStateRaw (d.clampRange (int32 (output + d.minState))) a.state, pid)
  else if a.state then (d.thdCdevExponentialController true minState maxState, pid)
  else (d.thdCdevExponentialController false 0 0, pid)

/-- `thd_cdev_set_state` at time `tm`, with the return code and the controller of the trip. -/
def thdCdevSetState (d : Cdev δ) (a : SetStateArgs) (pid : Pid) (tm : Int) :
    Int × Cdev δ × Pid :=
  if !a.state && d.inMinState && d.zoneTripLimits.isEmpty then (thdSuccess, d, pid)
  else
    let (limits, request) := if a.state then d.activate a tm else d.release a
    let d := { d with zoneTripLimits := limits }
    match request with
    | .done => (thdSuccess, d, pid)
    | .control targetStateValid targetValue minState maxState =>
      let (d, pid) := d.control a pid tm targetStateValid targetValue minState maxState
      (thdSuccess, d, pid)

/-- The call that `thd_cdev_set_min_state` makes. -/
def minStateArgs (d : Cdev δ) (zoneId tripId : Int) : SetStateArgs where
  targetTemp := 0
  temperature := 0
  hardTarget := false
  state := false
  zoneId := zoneId
  tripId := tripId
  targetStateValid := true
  targetValue := d.minState
  pidParam := none
  force := true
  minMaxValid := false
  minState := 0
  maxState := 0

/-- `thd_cdev_set_min_state`: a forced release. -/
def thdCdevSetMinState (d : Cdev δ) (zoneId tripId tm : Int) : Cdev δ :=
  let d := { d with trendIncrease := false }
  (d.thdCdevSetState (d.minStateArgs zoneId tripId) .init tm).2.1

end Cdev

end Thermald
