import Thermald.Config.Info

/-!
# Zones from the configuration

The part of `read_thermal_zones` that follows the kernel's zones: each `ThermalZone` of the
configuration edits the zone of its type, if there is one, and is made a zone of its own otherwise.

The two ways are separate code. For an existing zone every trip point goes through `add_trip`, which
replaces the first trip of the same type and sorts the trips. For a new zone `cthd_zone_generic`
collects the trips in the order of the configuration, and `zone_update` sorts them once. Both build
a trip in the same way (`configuredTrip`), but only the first one passes the parameters of a PID
controller.
-/

namespace Thermald

/-! ## Trips -/

section Trips

variable {δ : Type}

/-- `set_dependency`: the relation and the state that the text gives for a device, if there is such
a device. -/
def TripPoint.setDependency (t : TripPoint) (cdev stateStr : String) (w : World δ) : TripPoint :=
  match w.searchCdev cdev with
  | none => t
  | some k =>
      let begins (start : String) : Bool := start.toList.isPrefixOf stateStr.toList
      let (rel, stateIndex) :=
        if begins ">=" then (DependRel.greaterOrEqual, 2)
        else if begins "<=" then (DependRel.lesserOrEqual, 2)
        else if begins "<" then (DependRel.lesser, 1)
        else if begins ">" then (DependRel.greater, 1)
        else if begins "==" then (DependRel.equal, 2)
        else (DependRel.equal, 0)
      { t with depend := some ⟨k, atoi (String.ofList (stateStr.toList.drop stateIndex)), rel⟩ }

variable [StdSort]

/-- Bind a configured device to a trip, if there is such a device. -/
def TripPoint.bindConfigured (w : World δ) (withPid : Bool) (t : TripPoint) (b : TripCdevConf) :
    TripPoint :=
  match w.searchCdev b.type with
  | none => t
  | some k =>
      t.thdTripPointAddCdev k b.influence b.samplingPeriod b.targetStateValid b.targetState
        (if withPid then some b.pidParam else none) b.minMaxValid b.targetMinState
        b.targetMaxState w

/-- The trip that a trip point of the configuration becomes, with this index and sensor. -/
def configuredTrip (w : World δ) (withPid : Bool) (index zoneIndex : Int) (sensor : Sensor)
    (c : TripPointConf) : TripPoint :=
  let t := TripPoint.init index c.tripPtType (uint32 c.temperature).toNat (uint32 c.hyst).toNat
    zoneIndex sensor.index c.controlType
  let t :=
    if c.dependency.dependency then t.setDependency c.dependency.cdev c.dependency.state w else t
  c.cdevTrips.foldl (TripPoint.bindConfigured w withPid) t

/-- Some device of the trip point is there. -/
def TripPointConf.binds (c : TripPointConf) (w : World δ) : Bool :=
  c.cdevTrips.any fun b => (w.searchCdev b.type).isSome

end Trips

/-! ## An existing zone -/

namespace Zone

variable {δ : Type} [StdSort]

/-- `bind_cooling_device` with the trip temperature 0: the device is bound to the first trip of the
type that has a temperature. -/
def bindCoolingDevice (z : Zone) (type : TripPointType) (k : Nat) (b : TripCdevConf) (w : World δ) :
    Bool × Zone :=
  match z.tripPoints.findIdx? fun t => t.type = type && 0 < t.temp with
  | none => (false, z)
  | some i =>
      (true, { z with
        tripPoints := z.tripPoints.modify i fun t =>
          t.thdTripPointAddCdev k b.influence b.samplingPeriod b.targetStateValid b.targetState none
            b.minMaxValid b.targetMinState b.targetMaxState w }.zoneCdevSetBinded)

/-- The devices of a trip point without a temperature. -/
def bindCoolingDevices (type : TripPointType) (w : World δ) : List TripCdevConf → Zone → Bool × Zone
  | [], z => (false, z)
  | b :: rest, z =>
      let (bound, z) :=
        match w.searchCdev b.type with
        | none => (false, z)
        | some k => z.bindCoolingDevice type k b w
      let (more, z) := bindCoolingDevices type w rest z
      (bound || more, z)

/-- One trip point of the configuration for an existing zone, and whether the zone is to be made
active. Without a sensor only the temperature of the matching trip is changed. -/
def configureTrip (z : Zone) (c : TripPointConf) (w : World δ) : Zone × Bool × World δ :=
  match w.searchSensor c.sensorType with
  | none =>
      if c.temperature ≠ 0 then
        let trip := TripPoint.init z.tripPoints.length c.tripPtType (uint32 c.temperature).toNat
          (uint32 c.hyst).toNat z.index (-1) c.controlType
        let (z, w) := z.updateTripTemp trip w
        (z, false, w)
      else (z, false, w)
  | some sensor =>
      let z := z.bindSensor sensor
      if c.temperature ≠ 0 then
        let trip := configuredTrip w true z.tripPoints.length z.index sensor c
        let z := if c.binds w then z.zoneCdevSetBinded else z
        let (z, w') := z.addTrip trip false w
        (z, c.binds w, w')
      else
        let (activate, z) := bindCoolingDevices c.tripPtType w c.cdevTrips z
        (z, activate, w)

/-- The trip points of a `ThermalZone` for an existing zone. -/
def configureTrips (z : Zone) : List TripPointConf → World δ → Zone × Bool × World δ
  | [], w => (z, false, w)
  | c :: rest, w =>
      let (z, activate, w) := z.configureTrip c w
      let (z, more, w) := configureTrips z rest w
      (z, activate || more, w)

/-- A `ThermalZone` for an existing zone. -/
def configure (z : Zone) (conf : ThermalZoneConf) (w : World δ) : Zone × World δ :=
  let (z, activate, w) := z.configureTrips conf.tripPts w
  (if activate then z.setZoneActive true else z, w)

/-! ## A new zone -/

/-- `zone_bind_sensors` of `cthd_zone_generic`: the last trip point needs a sensor. -/
def bindConfiguredSensors (z : Zone) (conf : ThermalZoneConf) (w : World δ) : Option Zone :=
  match conf.tripPts.getLast?.bind fun c => w.searchSensor c.sensorType with
  | none => none
  | some _ =>
      some (conf.tripPts.foldl (fun z c =>
        match w.searchSensor c.sensorType with
        | none => z
        | some sensor => z.bindSensor sensor) z)

/-- The loop of `read_trip_points` of `cthd_zone_generic`. Trip points without a temperature or
without a sensor are left out. -/
def readConfiguredTrips (z : Zone) : List TripPointConf → World δ → Zone
  | [], _ => z
  | c :: rest, w =>
      if c.temperature = 0 then readConfiguredTrips z rest w
      else
        match w.searchSensor c.sensorType with
        | none => readConfiguredTrips z rest w
        | some sensor =>
            let trip := configuredTrip w false z.tripPoints.length z.index sensor c
            let z := if c.binds w then z.zoneCdevSetBinded else z
            readConfiguredTrips { z with tripPoints := z.tripPoints ++ [trip] } rest w

variable [CdevClass δ]

/-- `zone_update` of `cthd_zone_generic`, with the passive temperature that the user has set for the
zone, if any. -/
def generic (index : Int) (conf : ThermalZoneConf) (usrPsvTemp : Int) (w : World δ) :
    Option (Zone × World δ) := do
  let z ← (Zone.init index conf.type .independent).bindConfiguredSensors conf w
  let z := z.readConfiguredTrips conf.tripPts w
  if z.tripPoints = [] then none else pure (z.finishUpdate usrPsvTemp w)

end Zone

/-! ## All zones -/

namespace Engine

variable {δ : Type} [CdevClass δ] [StdSort]

/-- The zone of the processor is switched off. -/
def disableCpu (e : Engine δ) : Engine δ :=
  match e.searchZone "cpu" with
  | none => e
  | some i => { e with zones := e.zones.modify i fun z => z.setZoneActive false }

/-- `disable_cpu_zone`: a generated configuration replaces the zone of the processor, and so does an
active zone with the sensor of the processor. -/
def disableCpuZone (e : Engine δ) (auto : Bool) (conf : ThermalZoneConf) : Engine δ :=
  if auto then e.disableCpu
  else
    match (e.searchZone conf.type).bind fun i => e.zones[i]? with
    | none => e
    | some z =>
        if z.zoneActive ∧ conf.tripPts.any (fun c =>
            (e.world.searchSensor c.sensorType).any fun s => s.typeStr = "B0D4") then
          e.disableCpu
        else e

/-- What the configuration is read with: whether it was generated, and the passive temperatures that
the user has set, by the type of the zone. -/
structure ReadContext where
  auto : Bool
  usrPsvTemp : String → Int

/-- One `ThermalZone` of the configuration. -/
def readThermalZone (ctx : ReadContext) (e : Engine δ) (conf : ThermalZoneConf) : Engine δ :=
  let e :=
    match e.searchZone conf.type with
    | some i =>
        match e.zones[i]? with
        | none => e
        | some z =>
            let (z, world) := z.configure conf e.world
            { e with zones := e.zones.set i z, world }
    | none =>
        match Zone.generic e.currentZoneIndex conf (ctx.usrPsvTemp conf.type) e.world with
        | none => e
        | some (z, world) =>
            { e with
              zones := e.zones ++ [z.setZoneActive true]
              world
              currentZoneIndex := e.currentZoneIndex + 1 }
  e.disableCpuZone ctx.auto conf

/-- The part of `read_thermal_zones` for the configuration. -/
def readThermalZones (ctx : ReadContext) (e : Engine δ) (confs : List ThermalZoneConf) : Engine δ :=
  confs.foldl (readThermalZone ctx) e

end Engine

end Thermald
