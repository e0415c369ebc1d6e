import Thermald.Firmware.Written
import Thermald.Gddv.Tables

/-!
# The configuration made of `PSVT`

A firmware with the second version of its passive policy describes it in `PSVT`: a row has a
temperature and a limit of its own. `process_psvt` writes a trip point for each row. It is called
where the first version cannot be used, also after `_TRT` and `_ART` have been read, and then the
targets of these tables get zones without a trip point.

The limit of a row is a union of a number and a text, and `control_knob_type` says which of them it
is. The text is only compared with `MAX` and `MIN`.
-/

namespace Thermald

namespace Firmware

open XmlText

/-! ## Rows -/

/-- An entry of `PSVT` with the members that are written. The limit is a union of eight bytes, here
the number. -/
structure PsvtEntry extends PsvtObject where
  limit : Nat
  controlKnobType : Nat

/-- `ACPI_TYPE_STRING`. -/
abbrev acpiTypeString : Nat := 2

namespace PsvtEntry

/-- A character of the limit as a text, in lower case. -/
def limitChar (e : PsvtEntry) (i : Nat) : Char := (Char.ofNat (e.limit / 256 ^ i % 256)).toLower

/-- `strncasecmp` of the limit with three letters. -/
def limitIs (e : PsvtEntry) (letters : List Char) : Bool :=
  [e.limitChar 0, e.limitChar 1, e.limitChar 2] = letters

/-- The temperature of a row in degrees Celsius. -/
def celsius (e : PsvtEntry) : Int := Gddv.deciKelvinToCelsius (int32 e.passiveTemp)

/-- The temperatures that are written: with a limit that is a text, one for `MAX` and one for
`MIN`. -/
def temperatures (e : PsvtEntry) : List Int :=
  if e.controlKnobType = acpiTypeString then
    (if e.limitIs ['m', 'a', 'x'] then [int32 ((e.celsius + 1) * 1000)] else []) ++
      if e.limitIs ['m', 'i', 'n'] then [int32 (e.celsius * 1000)] else []
  else [int32 (e.celsius * 1000)]

/-- `limit_value`. -/
def limitValue (e : PsvtEntry) : Int :=
  if e.controlKnobType = acpiTypeString then -1 else int32 e.limit

end PsvtEntry

/-! ## `process_psvt` -/

section Generate

variable (devices : List PlatformDevice)

/-- What is written about the source of a row. -/
def psvtMembers (e : PsvtEntry) : List (String × String) :=
  ("type", subtituteString devices .targetDev e.sourceDevice) ::
    ((if e.samplePeriod ≠ 0 then [("SamplingPeriod", toString (e.samplePeriod / 10))] else []) ++
      if 0 < e.limitValue then [("TargetState", toString (int32 (e.limitValue * 1000)))] else [])

/-- The lines of the trip point of a row. The name of its sensor is not replaced. -/
def psvtTripLines (pre : String) (e : PsvtEntry) : String :=
  startLine pre "TripPoint" ++
    textLine (pre ++ "\t") "SensorType" e.targetDevice ++
    String.join (e.temperatures.map fun t => textLine (pre ++ "\t") "Temperature" (toString t)) ++
    textLine (pre ++ "\t") "Type" "Passive" ++
    cdevLines pre (psvtMembers devices e) ++
    stopLine pre "TripPoint"

/-- `add_psvt_trip_point`. -/
def addPsvtTripPoint (psvt : List PsvtEntry) (indentation : String) (relObj : RelObject) : String :=
  if relObj.psvtObjects = [] then ""
  else String.join ((relObj.psvtObjects.filterMap fun j => psvt[j]?).map
    (psvtTripLines devices (indentation ++ "\t")))

/-- The body of the loop over the targets. -/
def psvtZoneLines (psvt : List PsvtEntry) (pre indentation : String) (relObj : RelObject) :
    String :=
  if relObj.targetDevice = "" then ""
  else
    startLine (pre ++ "\t") "ThermalZone" ++
      textLine (pre ++ "\t\t") "Type" (subtituteString devices .sourceDev relObj.targetDevice) ++
      startLine (pre ++ "\t\t") "TripPoints" ++
      addPsvtTripPoint devices psvt indentation relObj ++
      stopLine (pre ++ "\t\t") "TripPoints" ++
      stopLine (pre ++ "\t") "ThermalZone"

/-- What `process_psvt` writes. The platform is closed with the indentation of its members. -/
def psvtConf (trt : List TrtObject) (art : List ArtObject) (psvt : List PsvtEntry)
    (productName : Option String) : String :=
  let (platform, indentation) := createPlatformConf "\t" productName
  "<?xml version=\"1.0\"?>\n" ++
    startLine "" "ThermalConfiguration" ++
    startLine "\t" "Platform" ++
    platform ++
    createPlatformPref indentation 0 ++
    startLine indentation "ThermalZones" ++
    String.join ((parseTargetDevices trt art (psvt.map (·.toPsvtObject))).map
      (psvtZoneLines devices psvt indentation (indentation ++ "\t"))) ++
    stopLine indentation "ThermalZones" ++
    stopLine indentation "Platform" ++
    stopLine "" "ThermalConfiguration"

end Generate

/-! ## The choice of the policy -/

/-- What `generate_conf` finds: the tables that the driver can read, the lines of `available_uuids`
if there is such a file, the product name, the devices of the platform, and whether the
configuration can be opened for writing. -/
structure FirmwareReads where
  trt : Option (List TrtObject)
  art : Option (List ArtObject)
  psvt : Option (List PsvtEntry)
  availableUuids : Option (List String)
  productName : Option String
  devices : List PlatformDevice
  opens : Bool

namespace FirmwareReads

/-- `match_supported_uuid`. -/
def matchSupportedUuid (r : FirmwareReads) (uuid : String) : Bool :=
  match r.availableUuids with
  | none => false
  | some lines => lines.contains uuid

/-- The policy with `_TRT`. -/
abbrev passive1 : String := "42A441D6-AE6A-462b-A84B-4A8CE79027D3"

/-- The policy with `PSVT`. -/
abbrev passive2 : String := "9E04115A-AE87-4D1C-9500-0F3E340BFE75"

/-- The entries of `_TRT`, none if it cannot be read. -/
def trtEntries (r : FirmwareReads) : List TrtObject := r.trt.getD []

/-- The entries of `_ART`, none if it cannot be read. -/
def artEntries (r : FirmwareReads) : List ArtObject := r.art.getD []

/-- `process_psvt`: its result and what it has written. -/
def processPsvt (r : FirmwareReads) : Int × Option String :=
  if r.matchSupportedUuid passive2 = false then (thdError, none)
  else
    match r.psvt with
    | none => (-1, none)
    | some psvt =>
      if r.opens then (0, some (psvtConf r.devices r.trtEntries r.artEntries psvt r.productName))
      else (thdError, none)

/-- `generate_conf` for a file that exists or not: its result and what it has written. -/
def generate (r : FirmwareReads) (fileExists : Bool) : Int × Option String :=
  if fileExists then (0, none)
  else if r.trt.isNone && r.art.isNone then r.processPsvt
  else if r.matchSupportedUuid passive1 = false then r.processPsvt
  else if r.opens then
    (0, some (generateConf r.devices r.trtEntries r.artEntries r.productName))
  else (-1, none)

end FirmwareReads

/-! ## The tree -/

/-- The lines in the element of a cooling device and the others of a trip point. -/
def psvtTripChildren (devices : List PlatformDevice) (pre : String) (e : PsvtEntry) :
    List (String × XmlNode) :=
  (pre ++ "\t", textNode "SensorType" e.targetDevice) ::
    (e.temperatures.map (fun t => (pre ++ "\t", textNode "Temperature" (toString t))) ++ [
      (pre ++ "\t", textNode "Type" "Passive"),
      (pre ++ "\t", cdevNode pre (psvtMembers devices e))])

/-- The element of a trip point. -/
def psvtTripNode (devices : List PlatformDevice) (pre : String) (e : PsvtEntry) : XmlNode :=
  blockNode pre "TripPoint" (psvtTripChildren devices pre e)

/-- A zone with a type and rows. -/
structure PsvtZoneText where
  type : String
  rows : List PsvtEntry

/-- The lines in the element of a zone. -/
def psvtZoneChildren (devices : List PlatformDevice) (z : PsvtZoneText) :
    List (String × XmlNode) := [
  ("\t\t\t\t", textNode "Type" z.type),
  ("\t\t\t\t", blockNode "\t\t\t\t" "TripPoints"
    (z.rows.map fun e => ("\t\t\t\t", psvtTripNode devices "\t\t\t\t" e)))]

/-- The element of a zone. -/
def psvtZoneNode (devices : List PlatformDevice) (z : PsvtZoneText) : XmlNode :=
  blockNode "\t\t\t" "ThermalZone" (psvtZoneChildren devices z)

/-- The lines in the element of the platform. -/
def psvtPlatformChildren (devices : List PlatformDevice) (product : String)
    (zones : List PsvtZoneText) : List (String × XmlNode) := [
  ("\t\t", textNode "Name" "_TRT export"),
  ("\t\t", textNode "ProductName" (product ++ "\t\t")),
  ("\t\t", textNode "Preference" "QUIET"),
  ("\t\t", blockNode "\t\t" "ThermalZones"
    (zones.map fun z => ("\t\t\t", psvtZoneNode devices z)))]

/-- The root element. -/
def psvtRootNode (devices : List PlatformDevice) (product : String) (zones : List PsvtZoneText) :
    XmlNode :=
  blockNode "" "ThermalConfiguration"
    [("\t", blockNode "\t\t" "Platform" (psvtPlatformChildren devices product zones))]

/-- The zone of a target. -/
def psvtZoneText (devices : List PlatformDevice) (psvt : List PsvtEntry) (relObj : RelObject) :
    PsvtZoneText where
  type := subtituteString devices .sourceDev relObj.targetDevice
  rows := relObj.psvtObjects.filterMap fun j => psvt[j]?

/-- The zones of all targets with a name. -/
def psvtZoneTexts (devices : List PlatformDevice) (psvt : List PsvtEntry)
    (relList : List RelObject) : List PsvtZoneText :=
  (relList.filter fun o => o.targetDevice ≠ "").map (psvtZoneText devices psvt)

/-! ## The lines are those of the tree -/

/-- An element whose end tag has an indentation of its own. -/
theorem shifted_block_lines (pre close name : String) (lines : List (String × XmlNode)) :
    startLine pre name ++ String.join (lines.map nodeLine) ++ stopLine close name =
      nodeLine (pre, blockNode close name lines) := by
  refine String.toList_inj.mp ?_
  simp [startLine, stopLine, nodeLine, blockNode, printNode, print_inner]

section Written

variable (devices : List PlatformDevice) (psvt : List PsvtEntry)

theorem psvt_trip_lines_eq (pre : String) (e : PsvtEntry) :
    psvtTripLines devices pre e = nodeLine (pre, psvtTripNode devices pre e) := by
  have htemperatures : (e.temperatures.map fun t =>
      textLine (pre ++ "\t") "Temperature" (toString t)) =
        (e.temperatures.map fun t => (pre ++ "\t", textNode "Temperature" (toString t))).map
          nodeLine := by
    rw [List.map_map]
    exact List.map_congr_left fun t _ => text_line_eq _ _ _
  unfold psvtTripLines psvtTripNode psvtTripChildren
  rw [← block_lines_eq, htemperatures]
  simp only [text_line_eq, cdev_lines_eq, List.map_append, List.map_cons, List.map_nil,
    String.join_append, String.join_cons, String.join_nil, String.append_empty,
    String.append_assoc]

/-- The trip points of a target are those of its rows. -/
theorem add_psvt_trip_point_eq (indentation : String) (relObj : RelObject) :
    addPsvtTripPoint devices psvt indentation relObj = String.join
      (((relObj.psvtObjects.filterMap fun j => psvt[j]?).map fun e =>
        (indentation ++ "\t", psvtTripNode devices (indentation ++ "\t") e)).map nodeLine) := by
  unfold addPsvtTripPoint
  split
  · rename_i hnone
    rw [hnone]
    rfl
  · rw [List.map_map]
    congr 1
    exact List.map_congr_left fun e _ => psvt_trip_lines_eq devices _ e

/-- The loop writes the zones of the targets with a name. -/
theorem psvt_zone_lines_eq (relList : List RelObject) :
    String.join (relList.map (psvtZoneLines devices psvt "\t\t" "\t\t\t")) =
      String.join (((psvtZoneTexts devices psvt relList).map fun z =>
        ("\t\t\t", psvtZoneNode devices z)).map nodeLine) := by
  induction relList with
  | nil => rfl
  | cons relObj rest ih =>
      rw [List.map_cons, String.join_cons, ih]
      by_cases hempty : relObj.targetDevice = ""
      · have hskip : psvtZoneTexts devices psvt (relObj :: rest) =
            psvtZoneTexts devices psvt rest := by
          simp [psvtZoneTexts, hempty]
        rw [hskip, psvtZoneLines, if_pos hempty, String.empty_append]
      · have hzone : psvtZoneTexts devices psvt (relObj :: rest) =
            psvtZoneText devices psvt relObj :: psvtZoneTexts devices psvt rest := by
          simp [psvtZoneTexts, hempty]
        rw [hzone, List.map_cons, List.map_cons, String.join_cons, psvtZoneLines, if_neg hempty,
          add_psvt_trip_point_eq]
        congr 1
        unfold psvtZoneNode psvtZoneChildren
        rw [← block_lines_eq, text_line_eq, List.map_cons, List.map_singleton, ← block_lines_eq]
        simp only [String.join_cons, String.join_nil, String.append_empty, String.append_assoc]
        rfl

/-- What `process_psvt` writes is the declaration and the tree. -/
theorem psvt_conf_eq (trt : List TrtObject) (art : List ArtObject) (productName : Option String) :
    psvtConf devices trt art psvt productName = "<?xml version=\"1.0\"?>\n" ++
      nodeLine ("", psvtRootNode devices (productText productName) (psvtZoneTexts devices psvt
        (parseTargetDevices trt art (psvt.map (·.toPsvtObject))))) := by
  have hproduct : "\t\t" ++ "<ProductName>" ++ productText productName ++
      stopLine "\t\t" "ProductName" =
        nodeLine ("\t\t", textNode "ProductName" (productText productName ++ "\t\t")) := by
    rw [← text_line_eq]
    refine String.toList_inj.mp ?_
    simp [stopLine, textLine]
  show "<?xml version=\"1.0\"?>\n" ++ startLine "" "ThermalConfiguration" ++
    startLine "\t" "Platform" ++
    (textLine "\t\t" "Name" "_TRT export" ++
      ("\t\t" ++ "<ProductName>" ++ productText productName) ++
      stopLine "\t\t" "ProductName") ++
    textLine "\t\t" "Preference" "QUIET" ++
    startLine "\t\t" "ThermalZones" ++
    String.join ((parseTargetDevices trt art (psvt.map (·.toPsvtObject))).map
      (psvtZoneLines devices psvt "\t\t" "\t\t\t")) ++
    stopLine "\t\t" "ThermalZones" ++
    stopLine "\t\t" "Platform" ++ stopLine "" "ThermalConfiguration" = _
  unfold psvtRootNode psvtPlatformChildren
  rw [← block_lines_eq "" "ThermalConfiguration", List.map_singleton,
    ← shifted_block_lines "\t" "\t\t" "Platform", psvt_zone_lines_eq]
  simp only [text_line_eq, List.map_cons, List.map_nil, String.join_cons, String.join_nil,
    String.append_empty, ← block_lines_eq "\t\t" "ThermalZones", ← hproduct, String.append_assoc]

end Written

/-! ## Names that can be read -/

/-- The digits of a number with a sign are plain. -/
theorem plain_integer (n : Int) : plainText (toString n).toList = true := by
  cases n with
  | ofNat n => exact plain_number n
  | negSucc n =>
      have hnumber : (toString (Int.negSucc n)).toList = '-' :: (toString (n + 1)).toList := by
        show ("-" ++ toString (n + 1)).toList = _
        rw [String.toList_append]
        rfl
      have hend (text : List Char) : hasCdataEnd ('-' :: text) = hasCdataEnd text := by
        simp [hasCdataEnd]
      have htail := plain_number (n + 1)
      unfold plainText at htail ⊢
      rw [hnumber, hend]
      simp only [Bool.and_eq_true] at htail ⊢
      refine ⟨?_, htail.2⟩
      rw [List.all_cons, htail.1]
      rfl

/-- The names in the rows are plain. -/
structure PlainRow (e : PsvtEntry) : Prop where
  source : plainText e.sourceDevice.toList = true
  target : plainText e.targetDevice.toList = true

/-- The texts of a zone are plain. -/
structure PlainPsvtZone (z : PsvtZoneText) : Prop where
  type : plainText z.type.toList = true
  rows : ∀ e ∈ z.rows, PlainRow e

theorem plain_psvt_members {e : PsvtEntry} (h : PlainRow e) (devices : List PlatformDevice) :
    ∀ m ∈ psvtMembers devices e, isName m.1.toList = true ∧ plainText m.2.toList = true := by
  have htype : isName "type".toList = true := rfl
  have hperiod : isName "SamplingPeriod".toList = true := rfl
  have hstate : isName "TargetState".toList = true := rfl
  intro m hm
  rcases List.mem_cons.mp hm with rfl | hm
  · exact ⟨htype, plain_subtitute devices h.source .targetDev⟩
  · rcases List.mem_append.mp hm with hm | hm
    · split at hm
      · obtain rfl := List.mem_singleton.mp hm
        exact ⟨hperiod, plain_number _⟩
      · cases hm
    · split at hm
      · obtain rfl := List.mem_singleton.mp hm
        exact ⟨hstate, plain_integer _⟩
      · cases hm

theorem PlainRow.line {e : PsvtEntry} (h : PlainRow e) (devices : List PlatformDevice) :
    PlainLine ("\t\t\t\t", psvtTripNode devices "\t\t\t\t" e) := by
  refine .block rfl rfl fun l hl => ?_
  rcases List.mem_cons.mp hl with rfl | hl
  · exact .text rfl rfl h.target
  · rcases List.mem_append.mp hl with hl | hl
    · obtain ⟨t, -, rfl⟩ := List.mem_map.mp hl
      exact .text rfl rfl (plain_integer t)
    · rcases List.mem_pair.mp hl with rfl | rfl
      · exact .text rfl rfl rfl
      · refine .block rfl rfl fun l hl => ?_
        obtain ⟨m, hm, rfl⟩ := List.mem_map.mp hl
        obtain ⟨hname, htext⟩ := plain_psvt_members h devices m hm
        exact .text hname rfl htext

/-- The tree can be printed. -/
theorem plain_psvt_root {product : String} {zones : List PsvtZoneText}
    (hproduct : plainText product.toList = true) (hzones : ∀ z ∈ zones, PlainPsvtZone z)
    (devices : List PlatformDevice) : PlainLine ("", psvtRootNode devices product zones) := by
  refine .block rfl rfl fun l hl => ?_
  obtain rfl := List.mem_singleton.mp hl
  have htab : isIndentation "\t" = true := rfl
  refine ⟨htab, (PlainLine.block rfl rfl fun l hl => ?_ :
    PlainLine ("\t\t", blockNode "\t\t" "Platform" _)).normal⟩
  simp only [psvtPlatformChildren, List.mem_cons, List.not_mem_nil, or_false] at hl
  rcases hl with rfl | rfl | rfl | rfl
  · exact .text rfl rfl rfl
  · refine .text rfl rfl ?_
    rw [String.toList_append]
    exact plain_text_tabs hproduct
  · exact .text rfl rfl rfl
  · refine .block rfl rfl fun l hl => ?_
    obtain ⟨z, hz, rfl⟩ := List.mem_map.mp hl
    refine .block rfl rfl fun l hl => ?_
    rcases List.mem_pair.mp hl with rfl | rfl
    · exact .text rfl rfl (hzones z hz).type
    · refine .block rfl rfl fun l hl => ?_
      obtain ⟨e, he, rfl⟩ := List.mem_map.mp hl
      exact ((hzones z hz).rows e he).line devices

/-- The names in the tables are plain. -/
structure PlainPsvt (trt : List TrtObject) (art : List ArtObject) (psvt : List PsvtEntry) :
    Prop where
  trtTarget : ∀ o ∈ trt, plainText o.targetDevice.toList = true
  artTarget : ∀ o ∈ art, plainText o.targetDevice.toList = true
  rows : ∀ e ∈ psvt, PlainRow e

/-- The texts of the zones are plain if the names in the tables are. -/
theorem PlainPsvt.zones {trt : List TrtObject} {art : List ArtObject} {psvt : List PsvtEntry}
    (h : PlainPsvt trt art psvt) (devices : List PlatformDevice) :
    ∀ z ∈ psvtZoneTexts devices psvt (parseTargetDevices trt art (psvt.map (·.toPsvtObject))),
      PlainPsvtZone z := by
  intro z hz
  obtain ⟨o, ho, rfl⟩ := List.mem_map.mp hz
  have ho := (List.mem_filter.mp ho).1
  refine ⟨plain_subtitute devices ?_ .sourceDev, fun e he => ?_⟩
  · have hmem : o.targetDevice ∈ targets trt art (psvt.map (·.toPsvtObject)) := by
      refine List.mem_eraseDups.mp ?_
      rw [← parse_target_devices_keys]
      exact List.mem_map_of_mem ho
    simp only [targets, List.map_map, List.mem_append, List.mem_map] at hmem
    rcases hmem with (⟨object, hobject, heq⟩ | ⟨object, hobject, heq⟩) | ⟨e, he, heq⟩
    · rw [← heq]
      exact h.trtTarget object hobject
    · rw [← heq]
      exact h.artTarget object hobject
    · rw [← heq]
      exact (h.rows e he).target
  · obtain ⟨j, -, hj⟩ := List.mem_filterMap.mp he
    exact h.rows e (List.mem_of_getElem? hj)

end Firmware

end Thermald
