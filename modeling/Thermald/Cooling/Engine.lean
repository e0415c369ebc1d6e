import Thermald.Cooling.Zone

/-!
# The engine

The zones and devices of `cthd_engine`, and the operations that change them at run time: a poll of
all zones, a change of the user preference, and the requests to add, switch, delete and reload
zones. What the zones read during an operation is an argument: the temperature of every sensor as
seen by every zone, and the values of the clock.
-/

namespace Thermald

/-- What the outside gives to one notification of all zones: `read z i` is the temperature that
the zone with index `z` reads from the sensor with index `i`. -/
structure Poll where
  read : Int → Int → Nat
  clock : Nat → Int

/-- The state of `cthd_engine`. -/
structure Engine (δ : Type) where
  zones : List Zone
  world : World δ
  preference : Pref
  status : Bool
  currentZoneIndex : Int

namespace World

variable {δ : Type}

/-- `search_cdev`: the first device of this type or with this alias. -/
def searchCdev (w : World δ) (name : String) : Option Nat :=
  (List.range w.cdevCount).find? fun k => (w.cdevs k).typeStr = name || (w.cdevs k).aliasStr = name

/-- `search_sensor`: the first sensor of this type, or of the kind `pch_` if that is asked for. -/
def searchSensor (w : World δ) (name : String) : Option Sensor :=
  w.sensors.find? fun s =>
    s.typeStr = name ||
      ("pch_".toList.isPrefixOf name.toList && "pch_".toList.isPrefixOf s.typeStr.toList)

/-- The clock from which the next operation takes its times. -/
def withClock (w : World δ) (clock : Nat → Int) : World δ :=
  { w with clock, ticks := 0 }

end World

/-- The strings that describe a zone added by the user, and the passive temperature that the user
has set for a zone of this name, if any. -/
structure DynamicZone where
  name : String
  tripTemp : Nat
  sensorName : String
  cdevName : String
  usrPsvTemp : Int

namespace Engine

variable {δ : Type} [CdevClass δ] [StdSort]

/-- Apply a function to the zones in their order. -/
def forZones (f : Zone → World δ → Zone × World δ) :
    List Zone → World δ → List Zone × World δ
  | [], w => ([], w)
  | z :: rest, w =>
    let (z, w) := f z w
    let (rest, w) := forZones f rest w
    (z :: rest, w)

/-- One pass of the polling thread: `zone_temperature_notification` on all zones. -/
def poll (e : Engine δ) (p : Poll) : Engine δ :=
  let (zones, world) :=
    forZones (fun z w => z.readZoneTemp (p.read z.index) e.preference w) e.zones
      (e.world.withClock p.clock)
  { e with zones, world }

/-- `process_pref_change`, given the preference that the file holds. -/
def processPrefChange (e : Engine δ) (newPref : Pref) (p : Poll) : Engine δ :=
  if newPref = .disabled then { e with status := false }
  else
    let (zones, world) :=
      forZones (fun z w => z.updateZonePreference (p.read z.index) newPref w) e.zones
        (e.world.withClock p.clock)
    { e with zones, world, status := true, preference := newPref }

/-- `zone_reset` with force on all zones, as before the trips of a policy are replaced. -/
def resetZones (e : Engine δ) (clock : Nat → Int) : Engine δ :=
  { e with world := e.zones.foldl (fun w z => z.zoneReset true w) (e.world.withClock clock) }

/-- `read_trip_points` of `cthd_zone_dynamic`: one passive trip with one device. -/
def dynamicTrip (index : Int) (c : DynamicZone) (w : World δ) : Option TripPoint := do
  let s ← w.searchSensor c.sensorName
  let k ← w.searchCdev c.cdevName
  let t := TripPoint.init 0 .passive c.tripTemp 0 index s.index .parallel
  pure (t.thdTripPointAddCdev k 0 0 false tripPtInvalidTargetState none false 0 0 w)

/-- `zone_update` of `cthd_zone_dynamic`. -/
def dynamicZone (index : Int) (c : DynamicZone) (w : World δ) : Option (Zone × World δ) := do
  let s ← w.searchSensor c.sensorName
  let z := (Zone.init index c.name .independent).bindSensor s
  let t ← dynamicTrip index c w
  let z := { z with tripPoints := z.tripPoints ++ [t], zoneCdevBindedStatus := true }
  pure (z.finishUpdate c.usrPsvTemp w)

/-- `user_add_zone`. -/
def userAddZone (e : Engine δ) (c : DynamicZone) : Int × Engine δ :=
  match dynamicZone e.currentZoneIndex c e.world with
  | none => (thdError, e)
  | some (z, world) =>
    (thdSuccess, { e with
      zones := e.zones ++ [z.setZoneActive true]
      world
      currentZoneIndex := e.currentZoneIndex + 1 })

/-- The place of the first zone with this name. -/
def findZone (e : Engine δ) (name : String) : Option Nat :=
  e.zones.findIdx? fun z => z.typeStr = name

/-- `user_set_zone_status`. -/
def userSetZoneStatus (e : Engine δ) (name : String) (status : Bool) : Int × Engine δ :=
  match e.findZone name with
  | none => (thdError, e)
  | some i => (thdSuccess, { e with zones := e.zones.modify i fun z => z.setZoneActive status })

/-- `user_delete_zone`. -/
def userDeleteZone (e : Engine δ) (name : String) : Int × Engine δ :=
  (thdSuccess, { e with zones := e.zones.eraseP fun z => z.typeStr = name })

/-- `thd_engine_reload_zones`, given the zones that `read_thermal_zones` finds and the next free
index after them. -/
def thdEngineReloadZones (e : Engine δ) (zones : List Zone) (currentZoneIndex : Int) : Engine δ :=
  { e with zones, currentZoneIndex }

end Engine

end Thermald
