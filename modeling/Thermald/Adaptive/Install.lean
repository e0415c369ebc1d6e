import Mathlib.Data.List.DropRight
import Thermald.Cooling.Engine
import Thermald.Gddv.Vault
import Thermald.Adaptive.Conditions

/-!
# Installing a policy

The tables of a vault name zones, sensors and cooling devices. `installPassive` and `installItmt`
turn one row into a trip of a zone, if all that it names is there, and make the zone active.
`psvtConsolidate` then edits the trips of all zones. A policy is installed by first resetting all
zones and deleting their trips, and only then looking at the rows: `setInt3400Target` for a table
that a target names, and `installPassiveDefault` for the default table. The first one ends the
process if no zone is active afterwards, the second one does not look.
-/

namespace Thermald

open Gddv (ascii afterLastDot)

/-! ## Names and numbers -/

/-- A name in the vault as the name of a zone, a sensor or a device. -/
def toName (b : Bytes) : String := String.ofList (b.map fun c => Char.ofNat c.toNat)

/-- The last component of a path, without underscores at its end. -/
def lastComponent (path : Bytes) : Bytes :=
  (afterLastDot path).rdropWhile fun b => b = UInt8.ofNat '_'.toNat

/-- The text begins with four characters. -/
def beginsWith (text : Bytes) (start : String) : Bool := text.take 4 = ascii start

/-- White space as `isspace` has it. -/
def isSpace (b : UInt8) : Bool := b = 32 || (9 ≤ b && b ≤ 13)

/-- The value of decimal digits. -/
def digitsValue (digits : Bytes) : Nat :=
  digits.foldl (fun value b => 10 * value + (b.toNat - 48)) 0

/-- The number at the beginning of a text, behind white space and a sign. -/
def scanInt (text : Bytes) : Option Int :=
  let text := text.dropWhile isSpace
  let (negative, text) :=
    match text with
    | 45 :: rest => (true, rest)
    | 43 :: rest => (false, rest)
    | _ => (false, text)
  let digits := text.takeWhile fun b => 48 ≤ b && b ≤ 57
  if digits = [] then none
  else some (if negative then -(digitsValue digits : Int) else digitsValue digits)

/-- `std::stoi`, which throws where there is no number or where it is out of range. -/
def stoi (text : Bytes) : Option Int :=
  (scanInt text).filter fun value => -2147483648 ≤ value && value ≤ intMax

/-- `std::istream >> int`: a missing number is 0, and one out of range the nearest one. -/
def readInt (text : Bytes) : Int :=
  max (-2147483648) (min intMax ((scanInt text).getD 0))

/-- `strncasecmp` with three characters on equal texts. -/
def sameThree (text : Bytes) (word : String) : Bool :=
  (text.take 3).map Gddv.toUpper = ascii word

/-- A limit of a table as a state: `MAX`, `MIN` or a number of watts. -/
def limitState (limit : Bytes) : Int :=
  if limit = [] then 0
  else if sameThree limit "MAX" then tripPtInvalidTargetState
  else if sameThree limit "MIN" then 0
  else int32 (readInt limit * 1000)

/-- An `int` as a temperature. -/
def toTemp (value : Int) : Nat := (int32 value % 2 ^ 32).toNat

/-! ## Zones -/

namespace Zone

variable {δ : Type} [StdSort]

/-- `add_trip`: a forced trip is added, another one replaces the first trip of its type. -/
def addTrip (z : Zone) (trip : TripPoint) (force : Bool) (w : World δ) : Zone × World δ :=
  let trips :=
    if force then z.tripPoints ++ [trip]
    else
      match z.tripPoints.findIdx? fun t => t.type = trip.type with
      | some i => z.tripPoints.set i trip
      | none => z.tripPoints ++ [trip]
  { z with tripPoints := trips }.sortAndUpdatePollTrip w

/-- `update_trip_temp`: the first trip of the type gets the new temperature. -/
def updateTripTemp (z : Zone) (trip : TripPoint) (w : World δ) : Zone × World δ :=
  let trips :=
    match z.tripPoints.findIdx? fun t => t.type = trip.type with
    | some i => z.tripPoints.modify i fun t => { t with temp := trip.temp, hyst := trip.hyst }
    | none => z.tripPoints
  { z with tripPoints := trips }.sortAndUpdatePollTrip w

/-- `trip_delete_all`. -/
def tripDeleteAll (z : Zone) : Zone := { z with tripPoints := [] }

/-- The edit of `set_trip`: the first passive trip gets a temperature, in place. -/
def setPassiveTemp (z : Zone) (temp : Nat) : Zone :=
  match z.tripPoints.findIdx? fun t => t.type = .passive with
  | none => z
  | some i => { z with tripPoints := z.tripPoints.modify i fun t => { t with temp } }

/-- `zone_cdev_set_binded`. -/
def zoneCdevSetBinded (z : Zone) : Zone := { z with zoneCdevBindedStatus := true }

end Zone

namespace TripPoint

/-- `is_target_valid`: the first valid target. -/
def isTargetValid (t : TripPoint) : Option Int :=
  (t.cdevs.find? fun b => b.targetStateValid).map fun b => b.targetState

/-- `get_first_cdev`. -/
def getFirstCdev (t : TripPoint) : Option Nat := t.cdevs.head?.map fun b => b.cdev

/-- `set_first_target_invalid`. -/
def setFirstTargetInvalid (t : TripPoint) : TripPoint :=
  { t with cdevs := t.cdevs.modify 0 fun b => { b with targetStateValid := false } }

/-- `set_first_target`. -/
def setFirstTarget (t : TripPoint) (state : Int) : TripPoint :=
  { t with cdevs := t.cdevs.modify 0 fun b =>
      { b with targetStateValid := true, targetState := state } }

/-- `update_trip_temp`. -/
def updateTripTemp (t : TripPoint) (temp : Nat) : TripPoint := { t with temp }

/-- The trip without its target and one degree higher. -/
def raise (t : TripPoint) : TripPoint :=
  t.setFirstTargetInvalid.updateTripTemp ((t.temp + 1000) % 2 ^ 32)

end TripPoint

/-! ## Consolidation -/

section Consolidate

variable {δ : Type} [StdSort]

/-- The loop body of `psvt_consolidate` on a trip and the one behind it: a trip whose target is
`MAX` goes half the way to the next one if that has the same sensor and device and a target, and
else loses its target and is raised. -/
def consolidateTrip (w : World δ) (t : TripPoint) (next : Option TripPoint) : TripPoint :=
  if t.isTargetValid = some tripPtInvalidTargetState then
    match next with
    | none => t.raise
    | some next =>
      match next.getFirstCdev with
      | none => t.raise
      | some k =>
        match next.isTargetValid with
        | none => t.raise
        | some nextTargetState =>
          if t.sensorId = next.sensorId ∧ t.getFirstCdev = some k then
            (t.setFirstTarget
              ((int32 ((w.cdevs k).minState + nextTargetState)).tdiv 2)).updateTripTemp
              ((next.temp + t.temp) % 2 ^ 32 / 2)
          else t.raise
  else t

/-- The loop of `psvt_consolidate` over the trips of a zone. A trip is looked at before the one
behind it is changed. -/
def consolidateTrips (w : World δ) : List TripPoint → List TripPoint
  | [] => []
  | t :: rest => consolidateTrip w t rest.head? :: consolidateTrips w rest

/-- `psvt_consolidate` on one zone. Where there is one trip besides the polling trip and it has a
target, another trip one degree higher is added. -/
def Zone.psvtConsolidate (z : Zone) (w : World δ) : Zone × World δ :=
  match z.tripPoints with
  | [t, _] =>
    match t.isTargetValid, t.getFirstCdev with
    | some _, some k =>
      let trip :=
        TripPoint.init 1 .passive ((t.temp + 1000) % 2 ^ 32) 0 z.index t.sensorId .sequential
      z.addTrip (trip.thdTripPointAddCdev k 0 0 false tripPtInvalidTargetState none false 0 0 w)
        true w
    | _, _ => ({ z with tripPoints := consolidateTrips w z.tripPoints }, w)
  | _ => ({ z with tripPoints := consolidateTrips w z.tripPoints }, w)

end Consolidate

/-! ## Rows of a table -/

namespace Engine

variable {δ : Type}

/-- `search_zone`: the place of the first zone of this type, or of the kind `pch_` if that is asked
for. -/
def searchZone (e : Engine δ) (name : String) : Option Nat :=
  e.zones.findIdx? fun z =>
    z.typeStr = name ||
      ("pch_".toList.isPrefixOf name.toList && "pch_".toList.isPrefixOf z.typeStr.toList)

/-- The zone that a row names, and the name under which it was found. The processor has two
names. -/
def tableZone (e : Engine δ) (name : Bytes) : Option (Nat × Bytes) :=
  match e.searchZone (toName name) with
  | some i => some (i, name)
  | none =>
    let name := if beginsWith name "B0D4" then ascii "TCPU" else name
    match e.searchZone (toName name) with
    | some i => some (i, name)
    | none =>
      if beginsWith name "TCPU" then
        (e.searchZone (toName (ascii "B0D4"))).map fun i => (i, ascii "B0D4")
      else none

/-- The device that a row or a target names. -/
def tableCdev (e : Engine δ) (name : Bytes) : Option Nat :=
  match e.world.searchCdev (toName name) with
  | some k => some k
  | none =>
    if beginsWith name "TCPU" then e.world.searchCdev (toName (ascii "B0D4")) else none

/-- What a row refers to, if it is there: the place of its zone, its device and its sensor. -/
structure Row where
  zone : Nat
  cdev : Nat
  sensor : Sensor

/-- The zone, device and sensor of a row of a passive table. -/
def passiveRow (e : Engine δ) (psv : Gddv.Psv) : Option Row := do
  let (zone, name) ← e.tableZone (lastComponent psv.target)
  let cdev ← e.tableCdev (lastComponent psv.source)
  let sensor ← e.world.searchSensor (toName name)
  pure ⟨zone, cdev, sensor⟩

/-- The zone, device and sensor of a row of an ITMT table. -/
def itmtRow (e : Engine δ) (entry : Gddv.ItmtEntry) : Option Row := do
  let (zone, name) ← e.tableZone (lastComponent entry.target)
  let cdev ← e.world.searchCdev "rapl_controller_mmio"
  let sensor ← e.world.searchSensor (toName name)
  pure ⟨zone, cdev, sensor⟩

variable [StdSort]

/-- Add a trip to a zone and make the zone active. -/
def addRow (e : Engine δ) (zone : Nat) (trip : Zone → TripPoint) : Engine δ :=
  match e.zones[zone]? with
  | none => e
  | some z =>
    let (z, world) := z.addTrip (trip z) true e.world
    { e with zones := e.zones.set zone (z.zoneCdevSetBinded.setZoneActive true), world }

/-- `install_passive`. A row that names something that is not there changes nothing. -/
def installPassive (e : Engine δ) (psv : Gddv.Psv) : Engine δ :=
  match e.passiveRow psv with
  | none => e
  | some row =>
    let temp := toTemp (int32 (Gddv.deciKelvinToCelsius psv.temp * 1000))
    let targetState := limitState psv.limit
    e.addRow row.zone fun z =>
      (TripPoint.init z.tripPoints.length .passive temp 0 z.index row.sensor.index
        .sequential).thdTripPointAddCdev row.cdev 0 (psv.samplePeriod.tdiv 10)
          (targetState ≠ 0) targetState none false 0 0 e.world

/-- `itmt_hyst`. -/
abbrev itmtHyst : Nat := 2000

/-- `install_itmt`: the limits of the table become those of the trip, the maximum as its minimum. -/
def installItmt (e : Engine δ) (entry : Gddv.ItmtEntry) : Engine δ :=
  match e.itmtRow entry with
  | none => e
  | some row =>
    let temp := toTemp (int32 ((entry.tripPoint - 2732) * 100))
    e.addRow row.zone fun z =>
      (TripPoint.init z.tripPoints.length .passive temp itmtHyst z.index row.sensor.index
        .sequential).thdTripPointAddCdev row.cdev 0 5 false 0 none true
          (limitState entry.pl1Max) (limitState entry.pl1Min) e.world

/-! ## All zones -/

/-- `psvt_consolidate`. -/
def psvtConsolidate (e : Engine δ) : Engine δ :=
  let (zones, world) := forZones (fun z w => z.psvtConsolidate w) e.zones e.world
  { e with zones, world }

/-- Reset all zones, delete their trips and make them inactive, except for some. -/
def clearZones [CdevClass δ] (e : Engine δ) (keep : Zone → Bool) : Engine δ :=
  let clear (z : Zone) (w : World δ) : Zone × World δ :=
    if keep z then (z, w) else (z.tripDeleteAll.setZoneActive false, z.zoneReset true w)
  let (zones, world) := forZones clear e.zones e.world
  { e with zones, world }

/-- Some zone is active. -/
def anyActive (e : Engine δ) : Bool := e.zones.any fun z => z.zoneActive

/-- `set_trip` with a temperature: the zone is only looked for under the name given. -/
def setTrip (e : Engine δ) (target : Bytes) (temp : Nat) : Engine δ :=
  match e.searchZone (toName (lastComponent target)) with
  | none => e
  | some i => { e with zones := e.zones.modify i fun z => z.setPassiveTemp temp }

end Engine

end Thermald
