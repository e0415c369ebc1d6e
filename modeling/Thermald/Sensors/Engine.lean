import Thermald.Sensors.Virtual

/-!
# The sensors of the engine

`cthd_engine` keeps its sensors in a vector, and gives each of them an index. The kernel's sensors
have the number of their thermal zone as index, and all others, which come from the hardware
monitor, from the configuration, from a data vault or from a user, the value of
`current_sensor_index`. `get_sensor` takes the index for the place in the vector.
-/

namespace Thermald

/-- A sensor in the list of the engine. -/
structure EngineSensor where
  index : Int
  typeStr : String
  path : String
  /-- What makes it a virtual sensor. -/
  virtualSensor : Option VirtualSensor

/-- An entry `thermal_zone…` of `/sys/class/thermal`: the number in its name, and its type if
`sensor_update` accepts it. -/
structure ThermalZoneEntry where
  number : Int
  path : String
  typeStr : Option String

/-- A link of a configured virtual sensor. -/
structure TargetConf where
  name : String
  coeff : ℚ
  offset : ℚ
  powerSensor : Bool

/-- A sensor of the configuration file. `updates` is the result of `sensor_update`, for a raw sensor
its own, for a virtual one that of the power sensor it may need. -/
inductive SensorConf where
  | raw (name path : String) (updates : Bool)
  | linked (name link : String) (multiplier offset : ℚ) (table : List PollingTableEntry)
  | weighted (name : String) (targets : List TargetConf) (table : List PollingTableEntry)
      (updates : Bool)

/-- The members of `cthd_engine` that are about sensors. -/
structure SensorEngine where
  sensors : List EngineSensor
  currentSensorIndex : Int

namespace SensorEngine

/-- The engine before it has read any sensor. -/
def init : SensorEngine := ⟨[], 0⟩

/-- `search_sensor`: the place of the first sensor of this type, or of the kind `pch_` if that is
asked for. -/
def searchSensor (e : SensorEngine) (name : String) : Option Nat :=
  e.sensors.findIdx? fun s =>
    s.typeStr = name ||
      ("pch_".toList.isPrefixOf name.toList && "pch_".toList.isPrefixOf s.typeStr.toList)

/-- `get_sensor`: the place that is looked at for an index. -/
def getSensor (e : SensorEngine) (index : Int) : Option Nat :=
  if 0 ≤ index ∧ index < e.sensors.length then some index.toNat else none

/-- A sensor is appended to the vector, and the next one will have the next index. -/
def push (e : SensorEngine) (s : EngineSensor) : SensorEngine where
  sensors := e.sensors ++ [s]
  currentSensorIndex := e.currentSensorIndex + 1

/-- `thd_read_default_thermal_sensors`, on the entries in the order of the directory. -/
def thdReadDefaultThermalSensors (e : SensorEngine) (entries : List ThermalZoneEntry) :
    SensorEngine :=
  let maxIndex := entries.foldl (fun m z => if m < z.number then z.number else m) 0
  let sensors := e.sensors ++ entries.filterMap fun z =>
    z.typeStr.map fun typeStr => ⟨z.number, typeStr, z.path, none⟩
  { sensors := sensors
    currentSensorIndex := if sensors.length ≠ 0 then maxIndex + 1 else e.currentSensorIndex }

/-- A sensor that is read from a file, if it can be. -/
def addRaw (e : SensorEngine) (typeStr path : String) (updates : Bool) : SensorEngine :=
  if updates then e.push ⟨e.currentSensorIndex, typeStr, path, none⟩ else e

/-- The type of the sensor that shows the power of the package. -/
abbrev raplPkgPower : String := "rapl_pkg_power"

/-- A power sensor is added if there is none and it can be read. -/
def addRaplPower (e : SensorEngine) (updates : Bool) : SensorEngine :=
  if (e.searchSensor raplPkgPower).isSome then e
  else e.addRaw raplPkgPower "/sys/class/powercap/intel-rapl" updates

/-- `starts_with(path, "/sys/")`. -/
def sysPath (path : String) : Bool := "/sys/".toList.isPrefixOf path.toList

/-- `update_path` of the sensor at a place. -/
def updatePath (e : SensorEngine) (place : Nat) (path : String) : SensorEngine :=
  if sysPath path then
    { e with sensors := e.sensors.modify place fun s => { s with path := path } }
  else e

/-- The constructor of a virtual sensor for the name of its linked sensor. -/
def createLinked (e : SensorEngine) (link : String) (multiplier offset : ℚ) : VirtualSensor :=
  .create (if link = "" then none else some (e.searchSensor link)) multiplier offset

/-- The loop over the targets of a virtual sensor, with the engine and the sensor so far. A missing
power sensor is added to the engine on the way. -/
def addTargets (updates : Bool) (s : SensorEngine × VirtualSensor) (t : TargetConf) :
    SensorEngine × VirtualSensor :=
  let e := if t.powerSensor then s.1.addRaplPower updates else s.1
  (e, s.2.addTarget (e.searchSensor t.name) t.coeff t.offset t.powerSensor)

/-- One sensor of the configuration in `read_thermal_sensors`. A virtual sensor with targets has its
index from before the power sensor is added. -/
def addConfigured (e : SensorEngine) (c : SensorConf) : SensorEngine :=
  match c with
  | .raw name path updates =>
      match e.searchSensor name with
      | some place => e.updatePath place path
      | none => if sysPath path then e.addRaw name path updates else e
  | .linked name link multiplier offset table =>
      if (e.searchSensor name).isSome then e
      else
        let v := table.foldl .updatePollingTable (e.createLinked link multiplier offset)
        e.push ⟨e.currentSensorIndex, name, "none", some v⟩
  | .weighted name targets table updates =>
      if (e.searchSensor name).isSome then e
      else
        let (e', v) := targets.foldl (addTargets updates) (e, .create none 0 0)
        e'.push ⟨e.currentSensorIndex, name, "none", some (table.foldl .updatePollingTable v)⟩

/-- The virtual sensor of a data vault in `thd_engine_init` of the adaptive engine. Without a power
sensor that is needed there is no virtual sensor either. -/
def addVaultSensor (e : SensorEngine) (name : String) (targets : List TargetConf)
    (table : List PollingTableEntry) (updates : Bool) : SensorEngine :=
  let v := table.foldl .updatePollingTable (.create none 0 0)
  let (e', v) := targets.foldl (addTargets updates) (e, v)
  if targets.any (·.powerSensor) && (e.searchSensor raplPkgPower).isNone && !updates then e
  else e'.push ⟨e.currentSensorIndex, name, "none", some v⟩

/-- `user_add_sensor`, with its result. -/
def userAddSensor (e : SensorEngine) (name path : String) (updates : Bool) : Bool × SensorEngine :=
  if !sysPath path then (false, e)
  else
    match e.sensors.findIdx? fun s => decide (s.typeStr = name) with
    | some place => (true, e.updatePath place path)
    | none => (updates, e.addRaw name path updates)

/-- `user_add_virtual_sensor`, with its result. -/
def userAddVirtualSensor (e : SensorEngine) (name depSensor : String) (slope intercept : ℚ) :
    Bool × SensorEngine :=
  match e.sensors.findIdx? fun s => decide (s.typeStr = name) with
  | some place =>
      match e.sensors[place]? with
      | some s =>
          match s.virtualSensor.bind fun v =>
              v.sensorUpdateParam (e.searchSensor depSensor) slope intercept with
          | some v =>
              (true,
                { e with
                  sensors := e.sensors.modify place fun s => { s with virtualSensor := some v } })
          | none => (false, e)
      | none => (false, e)
  | none =>
      (true, e.push ⟨e.currentSensorIndex, name, "none",
        some (e.createLinked depSensor slope intercept)⟩)

/-- A change of one sensor that leaves a member of it alone leaves that member of all of them
alone. -/
theorem map_modify_same {β : Type} (g : EngineSensor → β) (sensors : List EngineSensor)
    (place : Nat) {f : EngineSensor → EngineSensor} (h : ∀ s, g (f s) = g s) :
    (sensors.modify place f).map g = sensors.map g := by
  apply List.ext_getElem?
  intro k
  rw [List.getElem?_map, List.getElem?_map, List.getElem?_modify]
  cases sensors[k]? with
  | none => rfl
  | some s =>
      by_cases hplace : place = k
      · simp [hplace, h]
      · simp [hplace]

end SensorEngine

end Thermald
