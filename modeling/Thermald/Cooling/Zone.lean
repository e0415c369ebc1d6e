import Thermald.Cooling.TripPoint

/-!
# Thermal zones

`cthd_zone`: sensors and trip points. A zone that is notified reads its sensors and checks its
trips against the readings; the first polling trip whose reading has dropped resets the zone and
ends the check. The temperatures read are an argument: `read i` is what `read_temperature` of the
sensor with index `i` returns during the notification.
-/

namespace Thermald

/-- `def_async_trip_offset`. -/
abbrev defAsyncTripOffset : Nat := 5000

/-- `def_async_trip_offset_pct`. -/
abbrev defAsyncTripOffsetPct : Nat := 10

/-- `sensor_relate_t`. -/
inductive SensorRelate where
  | independent
  | corelated
  deriving DecidableEq, Repr

/-- `cthd_zone`. -/
structure Zone where
  index : Int
  tripPoints : List TripPoint
  zoneTemp : Nat
  zoneActive : Bool
  zoneCdevBindedStatus : Bool
  typeStr : String
  sensors : List Sensor
  sensorRel : SensorRelate

namespace TripPoint

/-- A trip point as its constructor leaves it. -/
def init (index : Int) (type : TripPointType) (temp hyst : Nat) (zoneId sensorId : Int)
    (controlType : TripControlType) : TripPoint where
  index := index
  type := type
  temp := temp
  hyst := hyst
  cdevs := []
  controlType := controlType
  zoneId := zoneId
  sensorId := sensorId
  tripOn := false
  pollOn := false
  depend := none
  critTripCount := 0

/-- `trip_cdev_sort`: the largest influence first. -/
def tripCdevSort (a b : TripCdev) : Bool := b.influence < a.influence

variable {δ : Type} [StdSort]

/-- `trip_cdev_add`: a device type that is already bound only changes its influence. -/
def tripCdevAdd (t : TripPoint) (b : TripCdev) (w : World δ) : TripPoint :=
  let cdevs :=
    match t.cdevs.findIdx? fun c => (w.cdevs c.cdev).typeStr = (w.cdevs b.cdev).typeStr with
    | some i => t.cdevs.modify i fun c => { c with influence := b.influence }
    | none => t.cdevs ++ [b]
  { t with cdevs := StdSort.sort tripCdevSort cdevs }

/-- `thd_trip_point_add_cdev`. -/
def thdTripPointAddCdev (t : TripPoint) (k : Nat) (influence samplingPeriod : Int)
    (targetStateValid : Bool) (targetState : Int) (pidParam : Option PidParam)
    (minMaxValid : Bool) (minState maxState : Int) (w : World δ) : TripPoint :=
  let valid := pidParam.filter (·.valid)
  t.tripCdevAdd
    { cdev := k
      influence := influence
      samplingPriod := samplingPeriod
      lastOpTime := 0
      targetStateValid := targetStateValid
      targetState := targetState
      pidParam := valid.getD ⟨false, 0, 0, 0⟩
      pid := (valid.map fun p => Pid.init.setPidParam p.kp p.ki p.kd).getD .init
      minMaxValid := minMaxValid
      minState := if minMaxValid then minState else 0
      maxState := if minMaxValid then maxState else 0 } w

end TripPoint

namespace Zone

/-- A zone as the constructor of `cthd_zone` leaves it. -/
def init (index : Int) (typeStr : String) (sensorRel : SensorRelate) : Zone where
  index := index
  tripPoints := []
  zoneTemp := 0
  zoneActive := false
  zoneCdevBindedStatus := false
  typeStr := typeStr
  sensors := []
  sensorRel := sensorRel

/-- `set_zone_active` and `set_zone_inactive`. Virtual sensors also start and stop their timer. -/
def setZoneActive (z : Zone) (active : Bool) : Zone :=
  { z with zoneActive := active }

/-- `bind_sensor`. -/
def bindSensor (z : Zone) (s : Sensor) : Zone :=
  if s ∈ z.sensors then z else { z with sensors := z.sensors ++ [s] }

variable {δ : Type} [CdevClass δ] [StdSort]

/-- `zone_reset`: every trip from the last to the first. -/
def zoneReset (z : Zone) (force : Bool) (w : World δ) : World δ :=
  if z.zoneActive then
    z.tripPoints.reverse.foldl (fun w t => t.thdTripCdevStateReset force w) w
  else w

/-- The loop of `thermal_zone_temp_change`, with the request to reset the zone that ends it. -/
def checkTrips (id : Int) (temp : Nat) (pref : Pref) :
    List TripPoint → World δ → List TripPoint × Bool × World δ
  | [], w => ([], false, w)
  | t :: rest, w =>
    let c := t.thdTripPointCheck id temp pref w
    if c.reset then (c.trip :: rest, true, c.world)
    else
      let (rest, reset, w) := checkTrips id temp pref rest c.world
      (c.trip :: rest, reset, w)

/-- `thermal_zone_temp_change`. -/
def thermalZoneTempChange (z : Zone) (id : Int) (temp : Nat) (pref : Pref) (w : World δ) :
    Zone × World δ :=
  let (tripPoints, reset, w) := checkTrips id temp pref z.tripPoints w
  let z := { z with tripPoints }
  (z, if reset then z.zoneReset false w else w)

/-- The loop of `read_zone_temp` over the sensors: independent sensors are checked at once. -/
def readSensors (read : Int → Nat) (pref : Pref) :
    List Sensor → Zone → World δ → Zone × World δ
  | [], z, w => (z, w)
  | s :: rest, z, w =>
    let temp := read s.index
    let z := { z with zoneTemp := if z.zoneTemp < temp then temp else z.zoneTemp }
    let (z, w) :=
      if z.sensorRel = .independent then z.thermalZoneTempChange s.index temp pref w else (z, w)
    readSensors read pref rest z w

/-- `read_zone_temp`: correlated sensors are checked once, with their maximum, unless it is 0. -/
def readZoneTemp (z : Zone) (read : Int → Nat) (pref : Pref) (w : World δ) : Zone × World δ :=
  if z.zoneActive then
    let (z, w) := readSensors read pref z.sensors { z with zoneTemp := 0 } w
    match z.sensors with
    | s :: _ =>
      if z.sensorRel = .corelated ∧ z.zoneTemp ≠ 0 then
        z.thermalZoneTempChange s.index z.zoneTemp pref w
      else (z, w)
    | [] => (z, w)
  else (z, w)

/-- One of the two loops of `update_zone_preference`: the trips see `temp` of each reading. -/
def feedSensors (read : Int → Nat) (temp : Nat → Nat) (pref : Pref) :
    List Sensor → Zone → World δ → Zone × World δ
  | [], z, w => (z, w)
  | s :: rest, z, w =>
    let z := { z with zoneTemp := read s.index }
    let (z, w) := z.thermalZoneTempChange s.index (temp (read s.index)) pref w
    feedSensors read temp pref rest z w

/-- `update_zone_preference`: first all trips see a reading of 0, then the true readings. -/
def updateZonePreference (z : Zone) (read : Int → Nat) (pref : Pref) (w : World δ) :
    Zone × World δ :=
  if z.zoneActive then
    let (z, w) := feedSensors read (fun _ => 0) pref z.sensors z w
    feedSensors read id pref z.sensors z w
  else (z, w)

/-! ## The trip list -/

/-- `trip_sort`. -/
def tripSort (a b : TripPoint) : Bool := a.temp < b.temp

/-- The temperature of the polling trips: below the lowest trip by a tenth of it, or by a fixed
offset if that is more, in unsigned arithmetic. -/
def pollTemp (lowest : Nat) : Nat :=
  let offset := lowest * defAsyncTripOffsetPct % 2 ^ 32 / 100
  let offset := if offset < defAsyncTripOffset then defAsyncTripOffset else offset
  (lowest + 2 ^ 32 - offset) % 2 ^ 32

/-- The loop that adds one polling trip for each sensor. -/
def addPollTrips (z : Zone) (temp : Nat) : List Sensor → List TripPoint → List TripPoint
  | [], trips => trips
  | s :: rest, trips =>
    addPollTrips z temp rest
      (trips ++ [.init trips.length .polling temp 0 z.index s.index .parallel])

/-- `sort_and_update_poll_trip`: one old polling trip is removed, the others are sorted by their
temperature, and new polling trips are added behind them. -/
def sortAndUpdatePollTrip (z : Zone) (w : World δ) : Zone × World δ :=
  let trips := z.tripPoints.eraseP fun t => t.type = .polling
  match StdSort.sort tripSort trips with
  | [] => ({ z with tripPoints := [] }, w)
  | t :: rest =>
    let temp := pollTemp t.temp
    ({ z with tripPoints := z.addPollTrips temp z.sensors (t :: rest) },
      w.emit (z.sensors.flatMap fun s => s.setThreshold w.pollIntervalSec temp))

/-- `update_highest_trip_temp`: the last trip of the type gets the new temperature. -/
def updateHighestTripTemp (z : Zone) (trip : TripPoint) (w : World δ) : Zone × World δ :=
  if z.tripPoints.isEmpty then (z, w)
  else
    let update (t : TripPoint) : TripPoint := { t with temp := trip.temp, hyst := trip.hyst }
    let trips :=
      match z.tripPoints.reverse.findIdx? fun t => t.type = trip.type with
      | some i => (z.tripPoints.reverse.modify i update).reverse
      | none => z.tripPoints
    { z with tripPoints := trips }.sortAndUpdatePollTrip w

/-- The end of `zone_update`, after the sensors and trips have been read: a passive temperature
set by the user is applied and the polling trips are added. -/
def finishUpdate (z : Zone) (usrPsvTemp : Int) (w : World δ) : Zone × World δ :=
  let (z, w) :=
    if 0 < usrPsvTemp then
      z.updateHighestTripTemp
        (.init 0 .passive usrPsvTemp.toNat 0 z.index defaultSensorId .parallel) w
    else (z, w)
  z.sortAndUpdatePollTrip w

end Zone

end Thermald
