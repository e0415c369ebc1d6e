import Mathlib.Data.List.Infix
import Thermald.Firmware.Tables

/-!
# The configuration made of the tables

`generate_conf` writes a configuration for the tables of the firmware, one line after the other. The
names of devices are replaced by those under which the daemon knows them: some by a table, and the
names of the `INT340x` devices by what the platform bus says. The text of a number is its decimal
digits, and no text is escaped.
-/

namespace Thermald

namespace Firmware

/-! ## Names -/

/-- `sub_type_t`. -/
inductive SubType where
  | targetDev
  | sourceDev
  | sensorDev

/-- An entry of `/sys/bus/platform/devices`: its name, the link to its firmware node, and what is
read from `uid` and `path` there, if these exist. -/
structure PlatformDevice where
  dName : String
  firmwareNode : Option String
  uid : Option (Option String)
  path : Option (Option String)

namespace PlatformDevice

/-- The last component of an ACPI path. -/
def lastComponent (path : String) : String :=
  String.ofList (path.toList.reverse.takeWhile fun c => c ≠ '.').reverse

/-- The name that the firmware has for a device. -/
def readUid (d : PlatformDevice) : Option String :=
  match d.uid, d.path with
  | some uid, _ => uid
  | none, some path => path.map lastComponent
  | none, none => none

/-- The directory of the firmware node, if there is a link to it. -/
def namePath (d : PlatformDevice) : Option String :=
  d.firmwareNode.map fun buf => "/sys/bus/platform/devices/" ++ d.dName ++ "/" ++ buf ++ "/"

end PlatformDevice

/-- What `associate_device` makes of the name of a device with this directory. -/
def nameOfPath (namePath name : String) : String :=
  if "INT3406".toList <:+: namePath.toList then "DISP"
  else if "INT3402".toList <:+: namePath.toList then "TMEM"
  else if "INT3401".toList <:+: namePath.toList then "TCPU"
  else name

/-- `associate_device`, over the entries in the order of `readdir`. -/
def associateDevice : List PlatformDevice → String → String
  | [], name => name
  | d :: rest, name =>
    if "INT340".toList <+: d.dName.toList then
      match d.namePath with
      | none => associateDevice rest name
      | some namePath =>
        if d.readUid = some name then nameOfPath namePath name else associateDevice rest name
    else associateDevice rest name

/-- `source_substitue_strings`. -/
def sourceSubstitueStrings : List (String × String) := [("TPCH", "pch_wildcat_point")]

/-- `target_substitue_strings`. -/
def targetSubstitueStrings : List (String × String) := [
  ("B0D4", "rapl_controller"),
  ("DPLY", "LCD"),
  ("DISP", "LCD"),
  ("TMEM", "rapl_controller_dram"),
  ("TCPU", "rapl_controller"),
  ("B0DB", "rapl_controller")]

/-- `sensor_substitue_strings`. -/
def sensorSubstitueStrings : List (String × String) := [("TPCH", "pch_wildcat_point")]

/-- The first entry for a name. -/
def replace (list : List (String × String)) (name : String) : String :=
  ((list.find? fun e => e.1 = name).map (·.2)).getD name

/-- `subtitute_string`. -/
def subtituteString (devices : List PlatformDevice) (type : SubType) (name : String) : String :=
  match type with
  | .targetDev => replace targetSubstitueStrings (associateDevice devices name)
  | .sourceDev => replace sourceSubstitueStrings name
  | .sensorDev => replace sensorSubstitueStrings name

/-! ## Lines -/

/-- A line with a start tag. -/
def startLine (pre name : String) : String := pre ++ "<" ++ name ++ ">\n"

/-- A line with an end tag. -/
def stopLine (pre name : String) : String := pre ++ "</" ++ name ++ ">\n"

/-- A line with an element and its text. -/
def textLine (pre name text : String) : String :=
  pre ++ "<" ++ name ++ ">" ++ text ++ "</" ++ name ++ ">\n"

/-- The lines of a cooling device with these members. -/
def cdevLines (pre : String) (members : List (String × String)) : String :=
  startLine (pre ++ "\t") "CoolingDevice" ++
    String.join (members.map fun m => textLine (pre ++ "\t\t") m.1 m.2) ++
    stopLine (pre ++ "\t") "CoolingDevice"

/-- The lines of a trip point. -/
def tripLines (pre sensor type : String) (cdevs : List (List (String × String))) : String :=
  startLine pre "TripPoint" ++
    textLine (pre ++ "\t") "SensorType" sensor ++
    textLine (pre ++ "\t") "Temperature" "*" ++
    textLine (pre ++ "\t") "type" type ++
    textLine (pre ++ "\t") "ControlType" "SEQUENTIAL" ++
    String.join (cdevs.map (cdevLines pre)) ++
    stopLine pre "TripPoint"

/-! ## `generate_conf` -/

section Generate

variable (devices : List PlatformDevice) (trt : List TrtObject) (art : List ArtObject)

/-- What is written about an entry of `_TRT`. The arithmetic is that of `u64`. -/
def trtMembers (object : TrtObject) : List (String × String) := [
  ("type", subtituteString devices .targetDev object.sourceDevice),
  ("influence", toString object.influence),
  ("SamplingPeriod", toString (object.samplePeriod * 100 % 2 ^ 64 / 1000))]

/-- What is written about an entry of `_ART`. -/
def artMembers (object : ArtObject) : List (String × String) := [
  ("type", subtituteString devices .targetDev object.sourceDevice),
  ("influence", toString object.weight)]

/-- The sensor of a zone gets its name when a trip point is written. -/
def nameSensor (relObj : RelObject) : RelObject :=
  { relObj with targetSensor := subtituteString devices .sensorDev relObj.targetSensor }

/-- A trip point with these objects: what is written, and what is left in the object of the target.
Without an object nothing happens. -/
def addTripPoint (indentation type : String) (objects : List Nat)
    (cdevs : List (List (String × String))) (relObj : RelObject) : String × RelObject :=
  if objects = [] then ("", relObj)
  else
    let relObj := nameSensor devices relObj
    (tripLines (indentation ++ "\t") relObj.targetSensor type cdevs, relObj)

/-- `add_passive_trip_point`. -/
def addPassiveTripPoint (indentation : String) (relObj : RelObject) : String × RelObject :=
  addTripPoint devices indentation "passive" relObj.trtObjects
    ((relObj.trtObjects.filterMap fun j => trt[j]?).map (trtMembers devices)) relObj

/-- `add_active_trip_point`. -/
def addActiveTripPoint (indentation : String) (relObj : RelObject) : String × RelObject :=
  addTripPoint devices indentation "active" relObj.artObjects
    ((relObj.artObjects.filterMap fun j => art[j]?).map (artMembers devices)) relObj

/-- The loop of `create_thermal_zone`. The indentation grows with each zone. -/
def zoneLines (pre : String) : String → List RelObject → String
  | _, [] => ""
  | indentation, relObj :: rest =>
    if relObj.targetDevice = "" then zoneLines pre indentation rest
    else
      let relObj :=
        { relObj with targetDevice := subtituteString devices .sourceDev relObj.targetDevice }
      let indentation := indentation ++ "\t"
      let (passive, relObj) := addPassiveTripPoint devices trt indentation relObj
      let (active, relObj) := addActiveTripPoint devices art indentation relObj
      startLine pre "ThermalZone" ++
        textLine (pre ++ "\t") "Type" relObj.targetDevice ++
        startLine (pre ++ "\t") "TripPoints" ++
        passive ++ active ++
        stopLine (pre ++ "\t") "TripPoints" ++
        stopLine pre "ThermalZone" ++
        zoneLines pre indentation rest

/-- `create_thermal_zone`. There is no `PSVT` here. -/
def createThermalZone (indentation : String) : String :=
  let pre := indentation ++ "\t"
  zoneLines devices trt art pre (pre ++ "\t") (parseTargetDevices trt art [])

/-- `create_thermal_zones`. -/
def createThermalZones (indentation : String) : String :=
  startLine indentation "ThermalZones" ++
    createThermalZone devices trt art indentation ++
    stopLine indentation "ThermalZones"

/-- `create_platform_pref`. -/
def createPlatformPref (indentation : String) (perf : Int) : String :=
  if perf ≠ 0 then textLine indentation "Preference" "PERFORMANCE"
  else textLine indentation "Preference" "QUIET"

/-- The first line of a file, as `getline` reads it into a buffer of 256 bytes and as a C string
shows it. There is none if the file is empty or the line does not fit. -/
def productLine (file : Option String) : Option String :=
  file.bind fun text =>
    let line := text.toList.takeWhile fun c => c ≠ '\n'
    if text = "" ∨ 255 < (String.ofList line).utf8ByteSize then none
    else some (String.ofList (line.takeWhile fun c => c ≠ '\x00'))

/-- `create_platform_conf`, with the file `product_name`: what it writes, and the indentation. -/
def createPlatformConf (indentation : String) (productName : Option String) : String × String :=
  let indentation := indentation ++ "\t"
  (textLine indentation "Name" "_TRT export" ++
    (indentation ++ "<ProductName>" ++
      match productLine productName with
      | some line => line
      | none => "*" ++ "\n") ++
    stopLine indentation "ProductName", indentation)

/-- What `generate_conf` writes. -/
def generateConf (productName : Option String) : String :=
  let (platform, indentation) := createPlatformConf "\t" productName
  "<?xml version=\"1.0\"?>\n" ++
    startLine "" "ThermalConfiguration" ++
    startLine "\t" "Platform" ++
    platform ++
    createPlatformPref indentation 0 ++
    createThermalZones devices trt art indentation ++
    stopLine "\t" "Platform" ++
    stopLine "" "ThermalConfiguration"

end Generate

end Firmware

end Thermald
