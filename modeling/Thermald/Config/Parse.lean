import Thermald.Config.Xml

/-!
# The parser of the configuration

`cthd_parse::parse` and its handlers. A handler gets the children of an element and the record that
it fills. Records for several elements of one kind are local variables of the handler around them:
they keep what an earlier element has left in a member, unless that is reset.
-/

namespace Thermald

/-! ## Trip points -/

/-- The loop body of `parse_dependency_values`. -/
def readDependency (d : TripDependConf) : XmlNode → TripDependConf
  | .element name children =>
      match xmlNodeListGetString children with
      | none => d
      | some text =>
          let d :=
            if thdStrcasecmpN name "CoolingDeviceType" then { d with cdev := charTrim text }
            else if thdStrcasecmpN name "CoolingDeviceState" then { d with state := charTrim text }
            else d
          { d with dependency := true }
  | .text _ => d
  | .comment => d

/-- `parse_dependency_values`. -/
def parseDependencyValues (nodes : List XmlNode) (d : TripDependConf) : TripDependConf :=
  nodes.foldl readDependency d

/-- The names that `parse_pid_values` looks for. -/
def pidTable : List (String × Entry PidControl) := [
  ("Kp", .value fun text pid => { pid with kp := atof text }),
  ("Kd", .value fun text pid => { pid with kd := atof text }),
  ("Ki", .value fun text pid => { pid with ki := atof text })]

/-- `parse_pid_values`, from its defaults. -/
def parsePidValues (nodes : List XmlNode) : Option PidControl :=
  readElements pidTable nodes ⟨0.0005, 0.0001, 0.0001⟩

/-- The names that `parse_new_trip_cdev` looks for. -/
def tripCdevTable : List (String × Entry TripCdevConf) := [
  ("type", .value fun text b => { b with type := stringTrim text }),
  ("influence", .value fun text b => { b with influence := atoi text }),
  ("SamplingPeriod", .value fun text b => { b with samplingPeriod := atoi text }),
  ("TargetState", .value fun text b =>
    { b with targetState := atoi text, targetStateValid := true }),
  ("TargetMinState", .value fun text b =>
    { b with targetMinState := atoi text, minMaxValid := true }),
  ("TargetMaxState", .value fun text b =>
    { b with targetMaxState := atoi text, minMaxValid := true }),
  ("PidControl", .group fun children b => do
    let pid ← parsePidValues children
    pure { b with pidParam := ⟨true, pid.kp, pid.ki, pid.kd⟩ })]

/-- `parse_new_trip_cdev`. -/
def parseNewTripCdev (nodes : List XmlNode) (b : TripCdevConf) : Option TripCdevConf :=
  readElements tripCdevTable nodes b

/-- The record for a device of a trip point, with all members reset. -/
def newTripCdev : TripCdevConf where
  type := ""
  influence := 0
  samplingPeriod := 0
  targetStateValid := false
  targetState := 0
  pidParam := ⟨false, 0, 0, 0⟩
  minMaxValid := false
  targetMinState := 0
  targetMaxState := 0

/-- The type that a text names; another text changes nothing. -/
def parseTripType (text : String) (type : TripPointType) : TripPointType :=
  if thdStrcasecmpN text "active" then .active
  else if thdStrcasecmpN text "passive" then .passive
  else if thdStrcasecmpN text "critical" then .critical
  else if thdStrcasecmpN text "hot" then .hot
  else if thdStrcasecmpN text "max" then .max
  else type

/-- The names that `parse_new_trip_point` looks for. -/
def tripPointTable : List (String × Entry TripPointConf) := [
  ("Temperature", .value fun text t => { t with temperature := atoi text }),
  ("Power", .value fun text t => { t with temperature := atoi text }),
  ("Hyst", .value fun text t => { t with hyst := atoi text }),
  ("CoolingDevice", .group fun children t => do
    let b ← parseNewTripCdev children newTripCdev
    pure { t with cdevTrips := t.cdevTrips ++ [b] }),
  ("SensorType", .value fun text t => { t with sensorType := stringTrim text }),
  ("type", .value fun text t =>
    { t with tripPtType := parseTripType (charTrim text) t.tripPtType }),
  ("ControlType", .value fun text t =>
    { t with
      controlType :=
        if thdStrcasecmpN (charTrim text) "SEQUENTIAL" then .sequential else .parallel }),
  ("DependsOn", .group fun children t =>
    some { t with dependency := parseDependencyValues children t.dependency })]

/-- `parse_new_trip_point`. -/
def parseNewTripPoint (nodes : List XmlNode) (t : TripPointConf) : Option TripPointConf :=
  readElements tripPointTable nodes { t with temperature := 0, tripPtType := .active }

/-- The record for a trip point. -/
def newTripPoint : TripPointConf where
  temperature := 0
  hyst := 0
  tripPtType := .passive
  controlType := .parallel
  influence := 100
  sensorType := ""
  dependency := ⟨false, "", ""⟩
  cdevTrips := []

/-- `parse_trip_points`. -/
def parseTripPoints (nodes : List XmlNode) (zone : ThermalZoneConf) : Option ThermalZoneConf :=
  readEach "TripPoint" (fun children zone => do
    let t ← parseNewTripPoint children newTripPoint
    pure { zone with tripPts := zone.tripPts ++ [t] }) nodes zone

/-! ## Zones -/

/-- The loop body of `parse_new_zone`. The type is assigned whether there is a text or not. -/
def readZone (zone : ThermalZoneConf) : XmlNode → Option ThermalZoneConf
  | .element name children =>
      if thdStrcasecmpN name "TripPoints" then parseTripPoints children zone
      else if thdStrcasecmpN name "Type" then
        (xmlNodeListGetString children).map fun text => { zone with type := stringTrim text }
      else some zone
  | .text _ => some zone
  | .comment => some zone

/-- `parse_new_zone`. -/
def parseNewZone (nodes : List XmlNode) (zone : ThermalZoneConf) : Option ThermalZoneConf :=
  nodes.foldlM readZone zone

/-- What `parse_thermal_zones` resets before each zone. -/
def resetZone (zone : ThermalZoneConf) : ThermalZoneConf := { zone with tripPts := [] }

/-- The loop of `parse_thermal_zones`, with the record for the zones and the zones so far. -/
def readThermalZones :
    List XmlNode → ThermalZoneConf × List ThermalZoneConf →
      Option (ThermalZoneConf × List ThermalZoneConf) :=
  readRecords "ThermalZone" resetZone parseNewZone

/-- The record for the zones, before the first one. -/
def firstZone : ThermalZoneConf := ⟨"", []⟩

/-- `parse_thermal_zones`. -/
def parseThermalZones (nodes : List XmlNode) (info : ThermalInfo) : Option ThermalInfo := do
  let s ← readThermalZones nodes (firstZone, info.zones)
  pure { info with zones := s.2 }

/-! ## Cooling devices -/

/-- The names that `parse_new_cooling_dev` looks for, with the bits of the mask. -/
def coolingDevTable : List (String × Entry CoolingDevConf) := [
  ("Index", .value fun text cdev => { cdev with index := atoi text }),
  ("Type", .value fun text cdev => { cdev with typeString := stringTrim text }),
  ("Path", .value fun text cdev =>
    { cdev with mask := cdev.mask ||| 0x0020, pathStr := stringTrim text }),
  ("MinState", .value fun text cdev =>
    { cdev with mask := cdev.mask ||| 0x0001, minState := atoi text }),
  ("MaxState", .value fun text cdev =>
    { cdev with mask := cdev.mask ||| 0x0002, maxState := atoi text }),
  ("IncDecStep", .value fun text cdev =>
    { cdev with mask := cdev.mask ||| 0x0004, incDecStep := atoi text }),
  ("ReadBack", .value fun text cdev =>
    { cdev with mask := cdev.mask ||| 0x0008, readBack := atoi text ≠ 0 }),
  ("DebouncePeriod", .value fun text cdev =>
    { cdev with mask := cdev.mask ||| 0x0100, debounceInterval := atoi text }),
  ("PidControl", .group fun children cdev => do
    let pid ← parsePidValues children
    pure { cdev with mask := cdev.mask ||| 0x0200, pidEnable := true, pid := some pid }),
  ("AutoOffMode", .value fun text cdev =>
    { cdev with mask := cdev.mask ||| 0x0010, autoDownControl := atoi text ≠ 0 }),
  ("WritePrefix", .value fun text cdev =>
    { cdev with mask := cdev.mask ||| 0x0400, writePrefix := text })]

/-- `parse_new_cooling_dev`. -/
def parseNewCoolingDev (nodes : List XmlNode) (cdev : CoolingDevConf) : Option CoolingDevConf :=
  readElements coolingDevTable nodes
    { cdev with
      maxState := 0
      minState := 0
      mask := 0
      incDecStep := 1
      readBack := true
      autoDownControl := false
      status := false
      pidEnable := false
      debounceInterval := 0 }

/-- The record for the cooling devices, before the first one. -/
def firstCoolingDev : CoolingDevConf where
  status := false
  mask := 0
  index := 0
  minState := 0
  maxState := 0
  incDecStep := 1
  readBack := true
  autoDownControl := false
  typeString := ""
  pathStr := ""
  debounceInterval := 0
  pidEnable := false
  pid := none
  writePrefix := ""

/-- What `parse_cooling_devs` resets before each device. -/
def resetCoolingDev (cdev : CoolingDevConf) : CoolingDevConf :=
  { cdev with
    index := 0
    maxState := 0
    minState := 0
    incDecStep := 1
    autoDownControl := false
    pathStr := ""
    typeString := "" }

/-- The loop of `parse_cooling_devs`, with the record for the devices and the devices so far. -/
def readCoolingDevs :
    List XmlNode → CoolingDevConf × List CoolingDevConf →
      Option (CoolingDevConf × List CoolingDevConf) :=
  readRecords "CoolingDevice" resetCoolingDev parseNewCoolingDev

/-- `parse_cooling_devs`. -/
def parseCoolingDevs (nodes : List XmlNode) (info : ThermalInfo) : Option ThermalInfo := do
  let s ← readCoolingDevs nodes (firstCoolingDev, info.coolingDevs)
  pure { info with coolingDevs := s.2 }

/-! ## Sensors -/

/-- The names that `parse_new_sensor_link` looks for. -/
def sensorLinkTable : List (String × Entry SensorLinkConf) := [
  ("SensorType", .value fun text l => { l with name := stringTrim text }),
  ("Multiplier", .value fun text l => { l with multiplier := atof text }),
  ("Offset", .value fun text l => { l with offset := atof text })]

/-- `parse_new_sensor_link`. -/
def parseNewSensorLink (nodes : List XmlNode) (l : SensorLinkConf) : Option SensorLinkConf :=
  readElements sensorLinkTable nodes l

/-- The names that `parse_new_virtual_sensor_target` looks for. -/
def sensorTargetTable : List (String × Entry SensorTargetConf) := [
  ("SensorType", .value fun text l => { l with name := stringTrim text }),
  ("Coeff", .value fun text l => { l with coeff := atof text }),
  ("Offset", .value fun text l => { l with offset := atof text }),
  ("PowerSensor", .value fun text l => { l with powerSensor := atoi text })]

/-- `parse_new_virtual_sensor_target`, from the values that its caller sets. -/
def parseNewVirtualSensorTarget (nodes : List XmlNode) : Option SensorTargetConf :=
  readElements sensorTargetTable nodes ⟨"", 0, 0, 0⟩

/-- The names that `parse_new_virtual_sensor_polling` looks for. -/
def sensorPollingTable : List (String × Entry SensorPollingConf) := [
  ("VirtualTemp", .value fun text p => { p with virtualTemp := atoi text }),
  ("SamplePeriod", .value fun text p => { p with samplePeriod := atoi text })]

/-- `parse_new_virtual_sensor_polling`, from the values that its caller sets. -/
def parseNewVirtualSensorPolling (nodes : List XmlNode) : Option SensorPollingConf :=
  readElements sensorPollingTable nodes ⟨0, 0⟩

/-- The names that `parse_new_sensor` looks for. -/
def sensorTable : List (String × Entry ThermalSensorConf) := [
  ("Type", .value fun text sensor => { sensor with name := stringTrim text }),
  ("Path", .value fun text sensor =>
    { sensor with mask := sensor.mask ||| 0x0001, path := stringTrim text }),
  ("AsyncCapable", .value fun text sensor =>
    { sensor with asyncCapable := atoi text ≠ 0, mask := sensor.mask ||| 0x0002 }),
  ("Virtual", .value fun text sensor => { sensor with virtualSensor := atoi text ≠ 0 }),
  ("SensorLink", .group fun children sensor => do
    let sensorLink ← parseNewSensorLink children sensor.sensorLink
    pure { sensor with sensorLink }),
  ("LinkSensor", .group fun children sensor => do
    let target ← parseNewVirtualSensorTarget children
    pure { sensor with linkSensors := sensor.linkSensors ++ [target] }),
  ("PollingTableEntry", .group fun children sensor => do
    let polling ← parseNewVirtualSensorPolling children
    pure { sensor with pollingTable := sensor.pollingTable ++ [polling] })]

/-- `parse_new_sensor`. -/
def parseNewSensor (nodes : List XmlNode) (sensor : ThermalSensorConf) : Option ThermalSensorConf :=
  readElements sensorTable nodes sensor

/-- The record for the sensors, before the first one. -/
def firstSensor : ThermalSensorConf where
  mask := 0
  name := ""
  path := ""
  asyncCapable := false
  virtualSensor := false
  sensorLink := ⟨"", 0, 0⟩
  linkSensors := []
  pollingTable := []

/-- What `parse_thermal_sensors` resets before each sensor. -/
def resetSensor (sensor : ThermalSensorConf) : ThermalSensorConf :=
  { sensor with
    name := ""
    path := ""
    asyncCapable := false
    mask := 0
    virtualSensor := false
    sensorLink := { sensor.sensorLink with name := "", multiplier := 0, offset := 0 }
    linkSensors := []
    pollingTable := [] }

/-- The loop of `parse_thermal_sensors`, with the record for the sensors and the sensors so far. -/
def readThermalSensors :
    List XmlNode → ThermalSensorConf × List ThermalSensorConf →
      Option (ThermalSensorConf × List ThermalSensorConf) :=
  readRecords "ThermalSensor" resetSensor parseNewSensor

/-- `parse_thermal_sensors`. -/
def parseThermalSensors (nodes : List XmlNode) (info : ThermalInfo) : Option ThermalInfo := do
  let s ← readThermalSensors nodes (firstSensor, info.sensors)
  pure { info with sensors := s.2 }

/-! ## Platforms -/

/-- A `double` that is assigned to an `int`. -/
def atofInt (text : String) : Int := (atof text).toInt32.toInt

/-- The names that `parse_ppcc` looks for. -/
def ppccTable : List (String × Entry PpccConf) := [
  ("PowerLimitMinimum", .value fun text ppcc => { ppcc with powerLimitMin := atofInt text }),
  ("PowerLimitMaximum", .value fun text ppcc => { ppcc with powerLimitMax := atofInt text }),
  ("TimeWindowMinimum", .value fun text ppcc => { ppcc with timeWindMin := atofInt text }),
  ("TimeWindowMaximum", .value fun text ppcc => { ppcc with timeWindMax := atofInt text }),
  ("StepSize", .value fun text ppcc => { ppcc with stepSize := atofInt text })]

/-- `parse_ppcc`. -/
def parsePpcc (nodes : List XmlNode) (ppcc : PpccConf) : Option PpccConf :=
  readElements ppccTable nodes ppcc

/-- The names that `parse_new_platform_info` looks for. -/
def platformTable : List (String × Entry ThermalInfo) := [
  ("uuid", .value fun text info => { info with uuid := stringTrim text }),
  ("ProductName", .value fun text info => { info with productName := stringTrim text }),
  ("ProductSku", .value fun text info => { info with productSku := stringTrim text }),
  ("Name", .value fun text info => { info with name := stringTrim text }),
  ("Preference", .value fun text info =>
    { info with
      defaultPreference :=
        if thdStrcasecmpN (charTrim text) "PERFORMANCE" then .performance else .energyConserve }),
  ("ThermalZones", .group parseThermalZones),
  ("ThermalSensors", .group parseThermalSensors),
  ("CoolingDevices", .group parseCoolingDevs),
  ("PollingInterval", .value fun text info => { info with pollingInterval := atoi text }),
  ("PPCC", .group fun children info => do
    let ppcc ← parsePpcc children info.ppcc
    pure { info with ppcc := { ppcc with valid := true } })]

/-- `parse_new_platform_info`. -/
def parseNewPlatformInfo (nodes : List XmlNode) (info : ThermalInfo) : Option ThermalInfo :=
  readElements platformTable nodes
    { info with defaultPreference := .energyConserve, pollingInterval := 0 }

/-- The record for the platforms, before the first one. -/
def firstPlatform : ThermalInfo where
  name := ""
  uuid := ""
  productName := ""
  productSku := ""
  defaultPreference := .energyConserve
  pollingInterval := 0
  ppcc := ⟨false, 0, 0, 0, 0, 0, false⟩
  sensors := []
  zones := []
  coolingDevs := []

/-- What `parse_new_platform` resets before each platform. -/
def resetPlatform (info : ThermalInfo) : ThermalInfo :=
  { info with
    coolingDevs := []
    zones := []
    pollingInterval := 0
    ppcc := { info.ppcc with valid := false, limit1Valid := false } }

/-- The loop of `parse_new_platform`, with the record for the platforms and the list so far. -/
def readPlatforms :
    List XmlNode → ThermalInfo × List ThermalInfo → Option (ThermalInfo × List ThermalInfo) :=
  readRecords "Platform" resetPlatform parseNewPlatformInfo

/-- `parse_new_platform`, with `thermal_info_list`. -/
def parseNewPlatform (nodes : List XmlNode) (list : List ThermalInfo) :
    Option (List ThermalInfo) := do
  let s ← readPlatforms nodes (firstPlatform, list)
  pure s.2

/-- `parse`: what it leaves in `thermal_info_list`. -/
def parse (nodes : List XmlNode) : Option (List ThermalInfo) :=
  readEach "ThermalConfiguration" parseNewPlatform nodes []

end Thermald
