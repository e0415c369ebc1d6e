import Mathlib.Logic.Function.Basic
import Thermald.Cooling.SetState

/-!
# Trip points

`cthd_trip_point`: a temperature, and the cooling devices that are activated while a reading is
at or above it. A trip refers to a device by its place in the engine's list, so the devices, the
sensors, the clock and everything that leaves the daemon stand in a `World` that the functions
pass on.

`thdTripPointCheck` is the main function. It is cut where the source has its early returns:
`criticalEvent` for critical and hot trips, `checkPolling` for polling trips, and `evaluate` with
its two loops `activateCdevs` and `releaseCdevs` for the trips that drive devices.
-/

namespace Thermald

/-- `DEFAULT_SENSOR_ID`: the trip belongs to every sensor of its zone. -/
abbrev defaultSensorId : Int := 0xFFFF

/-- `consecutive_critical_events`. -/
abbrev consecutiveCriticalEvents : Nat := 4

/-- `trip_point_type_t`. -/
inductive TripPointType where
  | critical
  | hot
  | max
  | passive
  | active
  | polling
  | invalidTripType
  deriving DecidableEq, Repr

/-- `trip_control_type_t`: all devices together, or one after the other. -/
inductive TripControlType where
  | parallel
  | sequential
  deriving DecidableEq, Repr

/-- `trip_point_cdev_depend_rel_t`. -/
inductive DependRel where
  | equal
  | greater
  | lesser
  | lesserOrEqual
  | greaterOrEqual
  deriving DecidableEq, Repr

/-- The user preference. The preference file may hold any number. -/
inductive Pref where
  | energyConserve
  | performance
  | disabled
  | unknown (value : Int)
  deriving DecidableEq, Repr

/-- The trip types that a preference evaluates. -/
def Pref.applies : Pref → TripPointType → Bool
  | .performance, type => type = .active || type = .max
  | .energyConserve, type => type = .passive || type = .max
  | .disabled, _ => false
  | .unknown _, _ => false

/-- How the temperature of a sensor is read. -/
inductive SensorType where
  | thermalSysfs
  | raw
  deriving DecidableEq, Repr

/-- The members of `cthd_sensor` that zones and trips use. -/
structure Sensor where
  index : Int
  type : SensorType
  typeStr : String
  asyncCapable : Bool
  virtualSensor : Bool
  deriving DecidableEq, Repr

/-- What a check sends outside the devices: messages to the polling thread, thresholds written to
sensors, and the reactions to critical and hot trips. -/
inductive Event where
  | pollEnable (sensorId : Int)
  | pollDisable (sensorId : Int)
  | fastPollEnable (sensorId : Int)
  | fastPollDisable (sensorId : Int)
  | threshold (sensorId temp : Int)
  | powerOff
  | suspend
  deriving DecidableEq, Repr

/-- `trip_pt_cdev_t`: a device of a trip, by its place in the engine's list. -/
structure TripCdev where
  cdev : Nat
  influence : Int
  samplingPriod : Int
  lastOpTime : Int
  targetStateValid : Bool
  targetState : Int
  pidParam : PidParam
  pid : Pid
  minMaxValid : Bool
  minState : Int
  maxState : Int

/-- The device a trip depends on and the state it must be in. -/
structure Dependency where
  cdev : Nat
  state : Int
  rel : DependRel

/-- `cthd_trip_point`. -/
structure TripPoint where
  index : Int
  type : TripPointType
  temp : Nat
  hyst : Nat
  cdevs : List TripCdev
  controlType : TripControlType
  zoneId : Int
  sensorId : Int
  tripOn : Bool
  pollOn : Bool
  depend : Option Dependency
  critTripCount : Nat

/-- Everything a trip point reaches outside itself. The clock gives the value of each call of
`time`, counted by `ticks`. -/
structure World (δ : Type) where
  cdevs : Nat → Cdev δ
  cdevCount : Nat
  sensors : List Sensor
  pollIntervalSec : Int
  ignoreCritical : Bool
  clock : Nat → Int
  ticks : Nat
  events : List Event

namespace World

variable {δ : Type} [CdevClass δ] [StdSort]

/-- `time`. -/
def time (w : World δ) : Int × World δ :=
  (w.clock w.ticks, { w with ticks := w.ticks + 1 })

/-- Replace one device. -/
def setCdev (w : World δ) (k : Nat) (d : Cdev δ) : World δ :=
  { w with cdevs := Function.update w.cdevs k d }

/-- Record what leaves the daemon. -/
def emit (w : World δ) (events : List Event) : World δ :=
  { w with events := w.events ++ events }

/-- `thd_cdev_set_state` on a device, at the time of the call. -/
def setState (w : World δ) (k : Nat) (a : SetStateArgs) (pid : Pid) : Int × Pid × World δ :=
  let (tm, w) := w.time
  let (ret, d, pid) := (w.cdevs k).thdCdevSetState a pid tm
  (ret, pid, w.setCdev k d)

/-- `thd_cdev_set_min_state` on a device, at the time of the call. -/
def setMinState (w : World δ) (k : Nat) (zoneId tripId : Int) : World δ :=
  let (tm, w) := w.time
  w.setCdev k ((w.cdevs k).thdCdevSetMinState zoneId tripId tm)

/-- `get_sensor`: the sensor at a place of the engine's list. -/
def getSensor (w : World δ) (index : Int) : Option Sensor :=
  if 0 ≤ index then w.sensors[index.toNat]? else none

end World

/-- `set_threshold`: only a sysfs sensor that can notify is programmed, and only while there is no
fixed polling interval. -/
def Sensor.setThreshold (s : Sensor) (pollIntervalSec : Int) (temp : Nat) : List Event :=
  if s.type = .thermalSysfs ∧ pollIntervalSec = 0 ∧ s.asyncCapable then
    [.threshold s.index (int32 temp)]
  else []

/-- `sensor_poll_trip` and `sensor_fast_poll`, in this order. -/
def Sensor.pollEvents (s : Sensor) (status : Bool) : List Event :=
  if status then [.pollEnable s.index, .fastPollEnable s.index]
  else [.pollDisable s.index, .fastPollDisable s.index]

/-- The relation between the state of the device and the required one. -/
def DependRel.holds : DependRel → Int → Int → Bool
  | .equal, state, required => state = required
  | .greater, state, required => required < state
  | .lesser, state, required => state < required
  | .lesserOrEqual, state, required => state ≤ required
  | .greaterOrEqual, state, required => required ≤ state

namespace TripCdev

/-- A missing target becomes the minimum of the device when it is first used. -/
def fixTarget {δ : Type} (b : TripCdev) (d : Device δ) : TripCdev :=
  if b.targetState = tripPtInvalidTargetState then { b with targetState := d.minState } else b

end TripCdev

/-- The result of a check. -/
structure CheckResult (δ : Type) where
  ret : Bool
  reset : Bool
  trip : TripPoint
  world : World δ

/-- What a reading asks of the devices of a trip. -/
inductive Decision where
  | on
  | off
  | keep
  deriving DecidableEq, Repr

namespace TripPoint

variable {δ : Type} [CdevClass δ] [StdSort]

/-- The arguments with which a trip sets the state of one of its devices. -/
def stateArgs (t : TripPoint) (b : TripCdev) (d : Cdev δ) (readTemp : Nat) (state : Bool) :
    SetStateArgs where
  targetTemp := int32 t.temp
  temperature := int32 readTemp
  hardTarget := t.type = .max
  state := state
  zoneId := t.zoneId
  tripId := t.index
  targetStateValid := b.targetStateValid
  targetValue := d.mapTargetState b.targetStateValid b.targetState
  pidParam := some b.pidParam
  force := false
  minMaxValid := b.minMaxValid
  minState := b.minState
  maxState := b.maxState

/-- Set the state of a device on behalf of a trip. -/
def setState (t : TripPoint) (b : TripCdev) (readTemp : Nat) (state : Bool) (w : World δ) :
    Int × TripCdev × World δ :=
  let d := w.cdevs b.cdev
  let b := b.fixTarget d.toDevice
  let (ret, pid, w) := w.setState b.cdev (t.stateArgs b d readTemp state) b.pid
  (ret, { b with pid }, w)

/-- The loop over the devices of a trip that is on. A device with a sampling period that has not
passed ends the loop, a device in its maximum state is skipped, and a sequential trip stops at the
first device it activates. -/
def activateCdevs (t : TripPoint) (readTemp : Nat) :
    List TripCdev → World δ → List TripCdev × World δ
  | [], w => ([], w)
  | b :: rest, w =>
    let (tm, w') := w.time
    if b.samplingPriod ≠ 0 ∧ tm - b.lastOpTime < b.samplingPriod then (b :: rest, w')
    else
      let (b, w) := if b.samplingPriod ≠ 0 then ({ b with lastOpTime := tm }, w') else (b, w)
      if (w.cdevs b.cdev).inMaxState then
        let (rest, w) := activateCdevs t readTemp rest w
        (b :: rest, w)
      else
        let (ret, b, w) := t.setState b readTemp true w
        if t.controlType = .sequential ∧ ret = thdSuccess then (b :: rest, w)
        else
          let (rest, w) := activateCdevs t readTemp rest w
          (b :: rest, w)

/-- The loop over the devices of a trip that is off, given from the last to the first. A device in
its minimum state is skipped, and a sequential trip stops at the first device it releases. -/
def releaseCdevs (t : TripPoint) (readTemp : Nat) :
    List TripCdev → World δ → List TripCdev × World δ
  | [], w => ([], w)
  | b :: rest, w =>
    if (w.cdevs b.cdev).inMinState then
      let (rest, w) := releaseCdevs t readTemp rest w
      (b :: rest, w)
    else
      let (_, b, w) := t.setState b readTemp false w
      if t.controlType = .sequential then (b :: rest, w)
      else
        let (rest, w) := releaseCdevs t readTemp rest w
        (b :: rest, w)

/-- The comparison of a reading with the trip temperature. The hysteresis delays the release of a
trip that is on. -/
def decision (t : TripPoint) (readTemp : Nat) : Decision :=
  if t.temp ≤ readTemp then .on
  else if (t.tripOn && (readTemp + t.hyst) % 2 ^ 32 < t.temp) ||
      (!t.tripOn && readTemp < t.temp) then .off
  else .keep

/-- The part of `thd_trip_point_check` that acts on the devices. -/
def evaluate (t : TripPoint) (readTemp : Nat) (w : World δ) : CheckResult δ :=
  match t.decision readTemp with
  | .on =>
    let (cdevs, w) := t.activateCdevs readTemp t.cdevs w
    ⟨true, false, { t with cdevs, tripOn := true }, w⟩
  | .off =>
    let (cdevs, w) := t.releaseCdevs readTemp t.cdevs.reverse w
    ⟨true, false, { t with cdevs := cdevs.reverse, tripOn := false }, w⟩
  | .keep => ⟨true, false, t, w⟩

/-- The part for polling trips: the sensor polls faster while the reading is at or above the trip,
and the zone is to be reset when the reading drops below it. -/
def checkPolling (t : TripPoint) (readTemp : Nat) (w : World δ) : CheckResult δ :=
  match w.getSensor t.sensorId with
  | none => ⟨true, false, t, w⟩
  | some s =>
    let threshold := if s.asyncCapable then s.setThreshold w.pollIntervalSec t.temp else []
    if !t.pollOn && t.temp ≤ readTemp then
      ⟨true, false, { t with pollOn := true }, w.emit (s.pollEvents true ++ threshold)⟩
    else if t.pollOn && readTemp < t.temp then
      ⟨true, true, { t with pollOn := false }, w.emit (s.pollEvents false ++ threshold)⟩
    else ⟨true, false, t, w⟩

/-- The part for critical and hot trips whose temperature is reached: the reaction follows after
some consecutive events. -/
def criticalEvent (t : TripPoint) (w : World δ) : CheckResult δ :=
  if t.critTripCount < consecutiveCriticalEvents then
    ⟨true, false, { t with critTripCount := t.critTripCount + 1 }, w⟩
  else
    ⟨true, false, { t with critTripCount := 0 },
      w.emit [if t.type = .critical then .powerOff else .suspend]⟩

/-- The trip depends on a device that is not in the required state. -/
def dependencyFails (t : TripPoint) (readTemp : Nat) (w : World δ) : Bool :=
  match t.depend with
  | none => false
  | some dep =>
    t.temp ≤ readTemp && !dep.rel.holds (w.cdevs dep.cdev).getCurrState dep.state

/-- The trip is for another sensor than the one read. -/
def otherSensor (t : TripPoint) (id : Int) : Bool :=
  t.sensorId ≠ defaultSensorId && t.sensorId ≠ id

/-- Critical and hot trips count their consecutive events. -/
def counts (t : TripPoint) : Bool :=
  t.type = .critical || t.type = .hot

/-- `thd_trip_point_check`. -/
def thdTripPointCheck (t : TripPoint) (id : Int) (readTemp : Nat) (pref : Pref) (w : World δ) :
    CheckResult δ :=
  if t.type = .invalidTripType then ⟨false, false, t, w⟩
  else if t.dependencyFails readTemp w then ⟨false, false, t, w⟩
  else if t.otherSensor id then ⟨false, false, t, w⟩
  else if t.counts && !w.ignoreCritical && t.temp ≤ readTemp then t.criticalEvent w
  else
    let t := if t.counts then { t with critTripCount := 0 } else t
    if t.type = .polling ∧ t.sensorId ≠ defaultSensorId then t.checkPolling readTemp w
    else if pref.applies t.type then t.evaluate readTemp w
    else ⟨false, false, t, w⟩

/-- The loop of `thd_trip_cdev_state_reset`, over the devices from the last to the first. -/
def resetCdevs (t : TripPoint) (force : Bool) : List TripCdev → World δ → World δ
  | [], w => w
  | b :: rest, w =>
    if !force && (w.cdevs b.cdev).inMinState then resetCdevs t force rest w
    else resetCdevs t force rest (w.setMinState b.cdev t.zoneId t.index)

/-- `thd_trip_cdev_state_reset`. -/
def thdTripCdevStateReset (t : TripPoint) (force : Bool) (w : World δ) : World δ :=
  t.resetCdevs force t.cdevs.reverse w

end TripPoint

end Thermald
