import Mathlib.Algebra.Order.Floor.Ring
import Mathlib.Data.Rat.Floor
import Mathlib.Tactic.Common
import Mathlib.Tactic.Ring
import Thermald.Lib.MachineInt
import Thermald.Lib.Run

/-!
# Virtual sensors

`cthd_sensor_virtual` derives its temperature from other sensors: a simple one is a linear
transform of its first linked sensor, an advanced one is a sum of running averages. A thread reads
it from time to time, and while the thread runs `read_temperature` returns what was stored last.

The arithmetic of `double` is exact here. A linked sensor is its place in the list of the engine,
and what the linked sensors show is an input of a read.
-/

namespace Thermald

/-- `link_sensor_t`. The member `power_sensor` is not initialised by the constructor, whose link has
no weight. -/
structure LinkSensor where
  sensor : Option Nat
  coeff : ℚ
  offset : ℚ
  prevAvg : ℚ
  powerSensor : Bool
  deriving DecidableEq

/-- `struct polling_table_entry`. -/
structure PollingTableEntry where
  virtualTemp : Int
  samplePeriod : Int
  deriving DecidableEq, Repr

/-- What the linked sensors show, by their place in the list of the engine. -/
abbrev Readings := Nat → Int

/-- The conversion of a `double` to `int`, for values that an `int` can hold. -/
def toInt (x : ℚ) : Int := int32 (if 0 ≤ x then ⌊x⌋ else ⌈x⌉)

/-- `std::round`: halves are rounded away from zero. -/
def stdRound (x : ℚ) : Int := if 0 ≤ x then ⌊x + 1 / 2⌋ else ⌈x - 1 / 2⌉

namespace LinkSensor

/-- The link that the constructor and `sensor_update_param` make. -/
def unweighted (sensor : Option Nat) : LinkSensor where
  sensor := sensor
  coeff := 0
  offset := 0
  prevAvg := 0
  powerSensor := false

/-- The value of the linked sensor, in degrees unless it is a power. A missing sensor is the
constant 1000. -/
def temp (l : LinkSensor) (readings : Readings) : Int :=
  let temp :=
    match l.sensor with
    | some sensor => readings sensor
    | none => 1000
  if l.powerSensor then temp else temp.tdiv 1000

/-- The body of the loop over the links. The average starts with the value itself, and an average
of zero counts as none. -/
def advance (l : LinkSensor) (readings : Readings) : LinkSensor :=
  let temp : ℚ := l.temp readings
  let prevAvg := if l.prevAvg = 0 then temp else l.prevAvg
  { l with prevAvg := l.offset * temp + (1 - l.offset) * prevAvg }

end LinkSensor

/-- `cthd_sensor_virtual`, without what it has from `cthd_sensor`. -/
structure VirtualSensor where
  linkSensors : List LinkSensor
  multiplier : ℚ
  offset : ℚ
  polling : Bool
  lastTemp : Int
  pollingPeriod : Int
  pollingTable : List PollingTableEntry
  deriving DecidableEq

namespace VirtualSensor

/-- `def_polling_period`. -/
abbrev defPollingPeriod : Int := 5

/-- The constructor. `link` is what `search_sensor` finds for the name of the linked sensor, and
there is none for an empty name. -/
def create (link : Option (Option Nat)) (multiplier offset : ℚ) : VirtualSensor where
  linkSensors := (link.map LinkSensor.unweighted).toList
  multiplier := multiplier
  offset := offset
  polling := false
  lastTemp := 0
  pollingPeriod := defPollingPeriod
  pollingTable := []

/-- `add_target`, with the sensor that was found. -/
def addTarget (v : VirtualSensor) (sensor : Option Nat) (coeff offset : ℚ) (powerSensor : Bool) :
    VirtualSensor :=
  { v with linkSensors := v.linkSensors ++ [⟨sensor, coeff, offset, 0, powerSensor⟩] }

/-- `update_polling_table`. -/
def updatePollingTable (v : VirtualSensor) (entry : PollingTableEntry) : VirtualSensor :=
  { v with pollingTable := v.pollingTable ++ [entry] }

/-- `sensor_update_param`, with the sensor that was found for the name. It fails without one. -/
def sensorUpdateParam (v : VirtualSensor) (sensor : Option Nat) (slope intercept : ℚ) :
    Option VirtualSensor :=
  match sensor with
  | some sensor =>
      some
        { v with
          linkSensors := v.linkSensors ++ [LinkSensor.unweighted (some sensor)]
          multiplier := slope
          offset := intercept }
  | none => none

/-- The sensor behind the first link, if it is one of a linear transform. -/
def simpleLink (v : VirtualSensor) : Option Nat :=
  match v.linkSensors with
  | link :: _ => if link.coeff = 0 ∧ link.offset = 0 then link.sensor else none
  | [] => none

/-- `_read_temperature`. Only the advanced path stores what it returns, and in another unit. -/
def readUncached (v : VirtualSensor) (readings : Readings) : Int × VirtualSensor :=
  match v.linkSensors, v.simpleLink with
  | [], _ => (0, v)
  | _, some sensor => (uint32 (toInt (readings sensor * v.multiplier + v.offset)), v)
  | links, none =>
      let links := links.map fun l => l.advance readings
      let virtTemp : ℚ := (links.map fun l => l.coeff * l.prevAvg).sum
      let temp := toInt (stdRound virtTemp)
      (uint32 temp, { v with linkSensors := links, lastTemp := int32 (temp * 1000) })

/-- `read_temperature`. -/
def readTemperature (v : VirtualSensor) (readings : Readings) : Int × VirtualSensor :=
  if v.polling then (uint32 v.lastTemp, v) else v.readUncached readings

/-- The search of the thread for a sample period, from the end of the table. -/
def samplePeriod (v : VirtualSensor) : Int :=
  match v.pollingTable.reverse.find? fun entry => decide (entry.virtualTemp ≤ v.lastTemp) with
  | some entry => entry.samplePeriod
  | none => 0

/-- One round of `periodic_callback`. -/
def periodicCallback (v : VirtualSensor) (readings : Readings) : VirtualSensor :=
  let v := (v.readUncached readings).2
  if v.samplePeriod ≠ 0 then { v with pollingPeriod := v.samplePeriod } else v

/-- The seconds for which the thread sleeps after a round. -/
def sleepPeriod (v : VirtualSensor) : Int :=
  if v.pollingPeriod ≤ 0 then defPollingPeriod else v.pollingPeriod

/-- `enable_periodic_timer`. A first period of 100 and more is not taken. -/
def enablePeriodicTimer (v : VirtualSensor) : VirtualSensor :=
  let period :=
    match v.pollingTable with
    | entry :: _ => if entry.samplePeriod < 100 then entry.samplePeriod else 0
    | [] => 0
  { v with
    pollingPeriod := if period ≠ 0 then period else v.pollingPeriod
    polling := true }

/-- A read of a sensor with a linear transform changes nothing. -/
theorem read_simple {v : VirtualSensor} {sensor : Nat} (h : v.simpleLink = some sensor)
    (r : Readings) :
    v.readUncached r = (uint32 (toInt (r sensor * v.multiplier + v.offset)), v) := by
  unfold readUncached
  split
  next hnil => simp [simpleLink, hnil] at h
  next hsome _ =>
      rw [h] at hsome
      obtain rfl := Option.some.inj hsome
      rfl
  next hnone _ =>
      rw [h] at hnone
      exact absurd hnone (Option.some_ne_none sensor)

end VirtualSensor

end Thermald
