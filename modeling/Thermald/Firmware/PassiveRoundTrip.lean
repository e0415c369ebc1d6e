import Thermald.Firmware.PassiveTables
import Thermald.Firmware.RoundTrip

/-!
# The configuration of `PSVT` that is read back

What the parser makes of the document of `process_psvt`: a zone for each target, with one trip point
for each row. `generate` chooses between the tables, and `generated_file_parsed` says that the
parser gets the platform of the tables that were chosen.
-/

namespace Thermald

namespace Firmware

open XmlText

/-! ## What is read back -/

/-- The temperature that is read: a text that is neither `MAX` nor `MIN` has none. -/
def PsvtEntry.readTemperature (e : PsvtEntry) : Int :=
  if e.controlKnobType = acpiTypeString then
    if e.limitIs ['m', 'a', 'x'] then int32 ((e.celsius + 1) * 1000)
    else if e.limitIs ['m', 'i', 'n'] then int32 (e.celsius * 1000)
    else 0
  else int32 (e.celsius * 1000)

section Exported

variable (devices : List PlatformDevice) (trt : List TrtObject) (art : List ArtObject)
  (psvt : List PsvtEntry)

/-- The source of a row. A target state is there for a number above 0. -/
def psvtCdev (e : PsvtEntry) : TripCdevConf :=
  { newTripCdev with
    type := stringTrim (subtituteString devices .targetDev e.sourceDevice)
    samplingPeriod := readBack (e.samplePeriod / 10)
    targetStateValid := 0 < e.limitValue
    targetState := if 0 < e.limitValue then int32 (e.limitValue * 1000) else 0 }

/-- The trip point of a row. -/
def psvtTrip (e : PsvtEntry) : TripPointConf :=
  { newTripPoint with
    temperature := e.readTemperature
    tripPtType := .passive
    sensorType := stringTrim e.targetDevice
    cdevTrips := [psvtCdev devices e] }

/-- The zone of a target. -/
def psvtZone (target : String) : ThermalZoneConf where
  type := stringTrim (subtituteString devices .sourceDev target)
  tripPts := (psvt.filter fun e => e.targetDevice = target).map (psvtTrip devices)

/-- The platform. The targets of all tables have a zone. -/
def psvtPlatform (productName : Option String) : ThermalInfo :=
  { firstPlatform with
    name := "_TRTexport"
    productName := stringTrim ((productLine productName).getD "*")
    zones := ((targets trt art (psvt.map (·.toPsvtObject))).eraseDups.filter fun target =>
      target ≠ "").map (psvtZone devices psvt) }

end Exported

/-! ## Numbers with a sign -/

/-- The digits of a number as bytes. -/
theorem number_digits (n : Nat) : Gddv.ascii (toString n) ≠ [] ∧
    ∀ b ∈ Gddv.ascii (toString n), 48 ≤ b ∧ b ≤ 57 := by
  unfold Gddv.ascii
  rw [Nat.toString_eq_ofList_toDigits, String.toList_ofList]
  refine ⟨?_, fun b hb => ?_⟩
  · rw [ne_eq, List.map_eq_nil_iff]
    exact Nat.toDigits_ne_nil
  · obtain ⟨c, hc, rfl⟩ := List.mem_map.mp hb
    have hdigit := digit_byte (Nat.isDigit_of_mem_toDigits (by decide) (by decide) hc)
    exact ⟨hdigit.1, hdigit.2.1⟩

/-- A number behind a minus sign. -/
theorem scan_int_negative {text : Bytes} (hne : text ≠ []) (h : ∀ b ∈ text, 48 ≤ b ∧ b ≤ 57) :
    scanInt (45 :: text) = some (-(digitsValue text : Int)) := by
  have hall : text.takeWhile (fun b => 48 ≤ b && b ≤ 57) = text := by
    refine List.takeWhile_eq_self_iff.mpr fun c hc => ?_
    rw [Bool.and_eq_true, decide_eq_true_eq, decide_eq_true_eq]
    exact h c hc
  have hdrop : (45 :: text).dropWhile isSpace = 45 :: text :=
    List.dropWhile_cons_of_neg (by decide)
  unfold scanInt
  rw [hdrop]
  show (if text.takeWhile (fun b => 48 ≤ b && b ≤ 57) = [] then none
    else some (-(digitsValue (text.takeWhile fun b => 48 ≤ b && b ≤ 57) : Int))) = _
  rw [hall, if_neg hne]

/-- An `int` is read from its digits. -/
theorem scan_int_integer (n : Int) : scanInt (Gddv.ascii (toString n)) = some n := by
  cases n with
  | ofNat n => exact scan_int_number n
  | negSucc n =>
      obtain ⟨hne, hdigits⟩ := number_digits (n + 1)
      have hvalue : (digitsValue (Gddv.ascii (toString (n + 1))) : Int) = (n + 1 : Nat) :=
        Option.some.inj ((scan_int_digits hne hdigits).symm.trans (scan_int_number (n + 1)))
      have hbytes : Gddv.ascii (toString (Int.negSucc n)) =
          45 :: Gddv.ascii (toString (n + 1)) := by
        unfold Gddv.ascii
        show ("-" ++ toString (n + 1)).toList.map _ = _
        rw [String.toList_append]
        rfl
      rw [hbytes, scan_int_negative hne hdigits, hvalue]
      rfl

theorem atoi_integer (n : Int) : atoi (toString (int32 n)) = int32 n := by
  obtain ⟨hlo, hhi⟩ := int32_bounds n
  have hlong : max (-9223372036854775808) (min 9223372036854775807 (int32 n)) = int32 n := by
    simp only [intMax] at hhi
    omega
  unfold atoi
  rw [scan_int_integer, Option.getD_some, hlong]
  exact int32_eq_self hlo hhi

/-- The digits of a number are a text. -/
theorem integer_ne_empty (n : Int) : toString n ≠ "" := by
  cases n with
  | ofNat n => exact number_ne_empty n
  | negSucc n =>
      intro h
      have hlist := congrArg String.toList h
      change ("-" ++ toString (n + 1)).toList = _ at hlist
      rw [String.toList_append] at hlist
      cases hlist

/-! ## Reading rows -/

section Rows

variable (devices : List PlatformDevice)

theorem read_cdev_target_state (n : Int) (b : TripCdevConf) :
    readElement tripCdevTable b (textNode "TargetState" (toString (int32 n))) =
      some { b with targetState := int32 n, targetStateValid := true } := by
  have hentry : lookUp tripCdevTable "TargetState" = some (.value fun text b =>
      { b with targetState := atoi text, targetStateValid := true }) := rfl
  rw [read_text_node hentry (integer_ne_empty _) b, atoi_integer]

/-- The members that are left out have the values of a new record. -/
theorem reads_psvt (e : PsvtEntry) : ReadsCdev (psvtMembers devices e) (psvtCdev devices e) := by
  intro pre
  unfold parseNewTripCdev psvtMembers psvtCdev
  rw [read_elements_inner]
  show (readElement tripCdevTable newTripCdev (textNode "type" _)).bind
    (fun b => List.foldlM (fun b l => readElement tripCdevTable b l.2) b
      (cdevChildren pre _)) = _
  rw [read_cdev_type, Option.bind_some]
  by_cases hperiod : e.samplePeriod = 0
  · have hzero : readBack (e.samplePeriod / 10) = 0 := by
      rw [hperiod]
      rfl
    rw [if_neg (not_not.mpr hperiod), hzero]
    by_cases hstate : 0 < e.limitValue
    · rw [if_pos hstate, if_pos hstate, decide_eq_true hstate]
      show (readElement tripCdevTable _ (textNode "TargetState" _)).bind some = _
      rw [read_cdev_target_state]
      rfl
    · rw [if_neg hstate, if_neg hstate, decide_eq_false hstate]
      rfl
  · rw [if_pos hperiod]
    by_cases hstate : 0 < e.limitValue
    · rw [if_pos hstate, if_pos hstate, decide_eq_true hstate]
      show (readElement tripCdevTable _ (textNode "SamplingPeriod" _)).bind (fun b =>
        (readElement tripCdevTable b (textNode "TargetState" _)).bind some) = _
      rw [read_cdev_period, Option.bind_some, read_cdev_target_state]
      rfl
    · rw [if_neg hstate, if_neg hstate, decide_eq_false hstate]
      show (readElement tripCdevTable _ (textNode "SamplingPeriod" _)).bind some = _
      rw [read_cdev_period]
      rfl

theorem read_temperature (n : Int) (t : TripPointConf) :
    readElement tripPointTable t (textNode "Temperature" (toString (int32 n))) =
      some { t with temperature := int32 n } := by
  have hentry : lookUp tripPointTable "Temperature" =
      some (.value fun text t => { t with temperature := atoi text }) := rfl
  rw [read_text_node hentry (integer_ne_empty _) t, atoi_integer]

/-- Of the temperatures there is at most one. -/
theorem read_temperatures (e : PsvtEntry) (pre : String) {t : TripPointConf}
    (htemperature : t.temperature = 0) :
    (e.temperatures.map fun n => (pre, textNode "Temperature" (toString n))).foldlM
      (fun t l => readElement tripPointTable t l.2) t =
        some { t with temperature := e.readTemperature } := by
  have hone (n : Int) : ([int32 n].map fun n => (pre, textNode "Temperature" (toString n))).foldlM
      (fun t l => readElement tripPointTable t l.2) t =
        some { t with temperature := int32 n } := by
    show (readElement tripPointTable t (textNode "Temperature" (toString (int32 n)))).bind some = _
    rw [read_temperature]
    rfl
  unfold PsvtEntry.temperatures PsvtEntry.readTemperature
  split
  · -- the letters of the limit are those of one word only
    by_cases hmax : e.limitIs ['m', 'a', 'x'] = true
    · have hmin : e.limitIs ['m', 'i', 'n'] = false := by
        unfold PsvtEntry.limitIs at hmax ⊢
        rw [of_decide_eq_true hmax]
        rfl
      rw [if_pos hmax, if_pos hmax, hmin, if_neg Bool.false_ne_true, List.append_nil]
      exact hone _
    · rw [if_neg hmax, if_neg hmax, List.nil_append]
      split
      · exact hone _
      · show some t = _
        rw [← htemperature]
  · exact hone _

/-- A row is read as its trip point. -/
theorem reads_psvt_trip (e : PsvtEntry) (pre : String) :
    parseNewTripPoint (inner pre (psvtTripChildren devices pre e)) newTripPoint =
      some (psvtTrip devices e) := by
  have hsensor : readElement tripPointTable { newTripPoint with tripPtType := .active }
      (textNode "SensorType" e.targetDevice) = some { newTripPoint with
        tripPtType := .active
        sensorType := stringTrim e.targetDevice } := by
    by_cases hempty : e.targetDevice = ""
    · rw [hempty]
      rfl
    · have hentry : lookUp tripPointTable "SensorType" =
          some (.value fun text t => { t with sensorType := stringTrim text }) := rfl
      exact read_text_node hentry hempty _
  have htype (t : TripPointConf) : readElement tripPointTable t (textNode "Type" "Passive") =
      some { t with tripPtType := .passive } := rfl
  unfold parseNewTripPoint psvtTripChildren
  rw [read_elements_inner]
  show (readElement tripPointTable { newTripPoint with tripPtType := .active }
    (textNode "SensorType" e.targetDevice)).bind _ = _
  rw [hsensor, Option.bind_some, List.foldlM_append, read_temperatures e (pre ++ "\t") rfl]
  show (readElement tripPointTable _ (textNode "Type" "Passive")).bind (fun t =>
    List.foldlM (fun t l => readElement tripPointTable t l.2) t
      ([psvtMembers devices e].map fun members => (pre ++ "\t", cdevNode pre members))) = _
  rw [htype, Option.bind_some, read_cdevs (.cons (reads_psvt devices e) .nil)]
  rfl

/-! ## Reading zones -/

/-- The trip points of the rows are put behind those that there are. -/
theorem read_psvt_trips (rows : List PsvtEntry) (zone : ThermalZoneConf) :
    parseTripPoints (inner "\t\t\t\t" (rows.map fun e =>
      ("\t\t\t\t", psvtTripNode devices "\t\t\t\t" e))) zone =
        some { zone with tripPts := zone.tripPts ++ rows.map (psvtTrip devices) } := by
  unfold parseTripPoints readEach
  rw [foldlM_inner fun _ _ => rfl]
  induction rows generalizing zone with
  | nil =>
      rw [List.map_nil, List.map_nil, List.append_nil]
      rfl
  | cons e rest ih =>
      show ((parseNewTripPoint (inner "\t\t\t\t" (psvtTripChildren devices "\t\t\t\t" e))
        newTripPoint).bind fun t => some { zone with tripPts := zone.tripPts ++ [t] }).bind _ = _
      rw [reads_psvt_trip]
      refine (ih { zone with tripPts := zone.tripPts ++ [psvtTrip devices e] }).trans ?_
      simp

theorem reads_psvt_zone {type : String} (htype : type ≠ "") (rows : List PsvtEntry)
    (record : ThermalZoneConf) :
    parseNewZone (inner "\t\t\t" (psvtZoneChildren devices ⟨type, rows⟩)) (resetZone record) =
      some ⟨stringTrim type, rows.map (psvtTrip devices)⟩ := by
  have hread : readZone (resetZone record) (textNode "Type" type) =
      some { resetZone record with type := stringTrim type } := by
    unfold textNode
    rw [if_neg htype]
    show some { resetZone record with type := stringTrim (type ++ "") } = _
    rw [String.append_empty]
  unfold parseNewZone psvtZoneChildren
  rw [foldlM_inner fun _ _ => rfl]
  show ((readZone (resetZone record) (textNode "Type" type)).bind fun zone =>
    (parseTripPoints (inner "\t\t\t\t" (rows.map fun e =>
      ("\t\t\t\t", psvtTripNode devices "\t\t\t\t" e))) zone).bind some) = _
  rw [hread, Option.bind_some, read_psvt_trips]
  rfl

/-- The zones are put behind those that there are. -/
theorem read_psvt_zones {zones : List PsvtZoneText} (h : ∀ z ∈ zones, z.type ≠ "")
    (s : ThermalZoneConf × List ThermalZoneConf) :
    ∃ record, readThermalZones (inner "\t\t" (zones.map fun z =>
      ("\t\t\t", psvtZoneNode devices z))) s = some (record, s.2 ++ zones.map fun z =>
        ⟨stringTrim z.type, z.rows.map (psvtTrip devices)⟩) := by
  unfold readThermalZones readRecords readEach
  rw [foldlM_inner fun _ _ => rfl]
  induction zones generalizing s with
  | nil =>
      refine ⟨s.1, ?_⟩
      rw [List.map_nil, List.map_nil, List.append_nil]
      rfl
  | cons z rest ih =>
      obtain ⟨record, hrest⟩ := ih (fun z hz => h z (List.mem_cons_of_mem _ hz))
        (⟨stringTrim z.type, z.rows.map (psvtTrip devices)⟩,
          s.2 ++ [⟨stringTrim z.type, z.rows.map (psvtTrip devices)⟩])
      refine ⟨record, ?_⟩
      show ((parseNewZone (inner "\t\t\t" (psvtZoneChildren devices z))
        (resetZone s.1)).bind fun record => some (record, s.2 ++ [record])).bind _ = _
      rw [reads_psvt_zone devices (h z List.mem_cons_self) z.rows s.1]
      refine hrest.trans ?_
      rw [List.append_assoc]
      rfl

/-- The zones of the targets are those of the platform. -/
theorem psvt_zones_eq (trt : List TrtObject) (art : List ArtObject) (psvt : List PsvtEntry) :
    ((psvtZoneTexts devices psvt
      (parseTargetDevices trt art (psvt.map (·.toPsvtObject)))).map fun z =>
        (⟨stringTrim z.type, z.rows.map (psvtTrip devices)⟩ : ThermalZoneConf)) =
      ((targets trt art (psvt.map (·.toPsvtObject))).eraseDups.filter fun target =>
        target ≠ "").map (psvtZone devices psvt) := by
  rw [← parse_target_devices_keys, List.filter_map, List.map_map]
  unfold psvtZoneTexts
  rw [List.map_map]
  refine List.map_congr_left fun o ho => ?_
  have ho := (List.mem_filter.mp ho).1
  show (⟨stringTrim (subtituteString devices .sourceDev o.targetDevice),
    (o.psvtObjects.filterMap fun j => psvt[j]?).map (psvtTrip devices)⟩ : ThermalZoneConf) =
      psvtZone devices psvt o.targetDevice
  have hplaces : o.psvtObjects =
      placesOf (psvt.map fun e => e.targetDevice) o.targetDevice := by
    rw [psvt_objects_places ho, List.map_map]
    rfl
  rw [hplaces, filter_map_places_of]
  rfl

/-! ## Reading the platform -/

/-- The platform is read from its element. -/
theorem read_psvt_platform {zones : List PsvtZoneText} (h : ∀ z ∈ zones, z.type ≠ "")
    (productName : Option String) :
    parseNewPlatformInfo (inner "\t\t"
      (psvtPlatformChildren devices (productText productName) zones))
      (resetPlatform firstPlatform) = some { firstPlatform with
        name := "_TRTexport"
        productName := stringTrim ((productLine productName).getD "*")
        zones := zones.map fun z => ⟨stringTrim z.type, z.rows.map (psvtTrip devices)⟩ } := by
  have hname (info : ThermalInfo) : readElement platformTable info
      (textNode "Name" "_TRT export") = some { info with name := "_TRTexport" } := rfl
  have hpreference (info : ThermalInfo) : readElement platformTable info
      (textNode "Preference" "QUIET") = some { info with defaultPreference := .energyConserve } :=
    rfl
  have hzones (info : ThermalInfo) : readElement platformTable info
      (blockNode "\t\t" "ThermalZones" (zones.map fun z => ("\t\t\t", psvtZoneNode devices z))) =
        some { info with zones := info.zones ++ zones.map fun z =>
          ⟨stringTrim z.type, z.rows.map (psvtTrip devices)⟩ } := by
    have hentry : lookUp platformTable "ThermalZones" = some (.group parseThermalZones) := rfl
    obtain ⟨record, hread⟩ := read_psvt_zones devices h (firstZone, info.zones)
    rw [read_block_node hentry]
    unfold parseThermalZones
    rw [hread]
    rfl
  unfold parseNewPlatformInfo psvtPlatformChildren
  rw [read_elements_inner, List.foldlM_cons, hname]
  show List.foldlM _ _ _ = _
  rw [List.foldlM_cons, read_platform_product]
  show List.foldlM _ _ _ = _
  rw [List.foldlM_cons, hpreference]
  show List.foldlM _ _ _ = _
  rw [List.foldlM_cons, hzones]
  rfl

/-- The parser reads the platform from the tree. -/
theorem parse_psvt_root (trt : List TrtObject) (art : List ArtObject) (psvt : List PsvtEntry)
    (productName : Option String) :
    parse [psvtRootNode devices (productText productName) (psvtZoneTexts devices psvt
      (parseTargetDevices trt art (psvt.map (·.toPsvtObject))))] =
        some [psvtPlatform devices trt art psvt productName] := by
  have htype : ∀ z ∈ psvtZoneTexts devices psvt
      (parseTargetDevices trt art (psvt.map (·.toPsvtObject))), z.type ≠ "" := by
    intro z hz
    obtain ⟨o, ho, rfl⟩ := List.mem_map.mp hz
    exact subtitute_source_ne_empty devices (of_decide_eq_true (List.mem_filter.mp ho).2)
  show (parseNewPlatform (inner "" [("\t", blockNode "\t\t" "Platform" _)]) []).bind some = _
  unfold parseNewPlatform readPlatforms readRecords readEach
  rw [foldlM_inner fun _ _ => rfl]
  show ((((parseNewPlatformInfo _ (resetPlatform firstPlatform)).bind fun info =>
    some (info, [] ++ [info])).bind some).bind fun s => some s.2).bind some = _
  rw [read_psvt_platform devices htype, psvt_zones_eq]
  rfl

end Rows

/-- A reader of XML gets the tree. -/
theorem read_psvt_conf {trt : List TrtObject} {art : List ArtObject} {psvt : List PsvtEntry}
    (h : PlainPsvt trt art psvt) {productName : Option String}
    (hproduct : ∀ line, productLine productName = some line → plainText line.toList = true)
    (devices : List PlatformDevice) :
    readDocument (psvtConf devices trt art psvt productName) =
      some (psvtRootNode devices (productText productName) (psvtZoneTexts devices psvt
        (parseTargetDevices trt art (psvt.map (·.toPsvtObject))))) := by
  have htext : plainText (productText productName).toList = true := by
    unfold productText
    split
    · rename_i line hline
      exact hproduct line hline
    · rfl
  rw [psvt_conf_eq]
  exact read_document_line (plain_psvt_root htext (h.zones devices) devices)

/-! ## The file -/

namespace FirmwareReads

/-- The policy with `_TRT` is used. -/
def usesTrt (r : FirmwareReads) : Bool :=
  !(r.trt.isNone && r.art.isNone) && r.matchSupportedUuid passive1

/-- The platform of the tables that are used. -/
def platform (r : FirmwareReads) : ThermalInfo :=
  if r.usesTrt then exportedPlatform r.devices r.trtEntries r.artEntries r.productName
  else psvtPlatform r.devices r.trtEntries r.artEntries (r.psvt.getD []) r.productName

/-- All names that are read are plain. -/
structure Plain (r : FirmwareReads) : Prop where
  tables : PlainTables r.trtEntries r.artEntries
  rows : ∀ e ∈ r.psvt.getD [], PlainRow e
  product : ∀ line, productLine r.productName = some line → plainText line.toList = true

/-- A run of `process_psvt` without an error has written the rows. -/
theorem process_psvt_cases {r : FirmwareReads} (h : r.processPsvt.1 = 0) :
    r.processPsvt.2 = some (psvtConf r.devices r.trtEntries r.artEntries (r.psvt.getD [])
      r.productName) := by
  unfold processPsvt at h ⊢
  split
  · rename_i hno
    rw [if_pos hno] at h
    cases h
  · rename_i hmatch
    rw [if_neg hmatch] at h
    cases hpsvt : r.psvt with
    | none =>
        rw [hpsvt] at h
        cases h
    | some psvt =>
        rw [hpsvt] at h
        dsimp only at h ⊢
        split
        · rfl
        · rename_i hclosed
          rw [if_neg hclosed] at h
          cases h

/-- A run of `generate_conf` without an error, where there was no file, has written what belongs to
the policy. -/
theorem generate_cases {r : FirmwareReads} (h : (r.generate false).1 = 0) :
    (r.generate false).2 = some (if r.usesTrt then
      generateConf r.devices r.trtEntries r.artEntries r.productName
    else psvtConf r.devices r.trtEntries r.artEntries (r.psvt.getD []) r.productName) := by
  unfold generate at h ⊢
  unfold usesTrt
  rw [if_neg Bool.false_ne_true] at h ⊢
  cases hnone : r.trt.isNone && r.art.isNone with
  | true =>
      rw [hnone, if_pos rfl] at h
      rw [if_pos rfl]
      exact process_psvt_cases h
  | false =>
      rw [hnone, if_neg Bool.false_ne_true] at h
      rw [if_neg Bool.false_ne_true]
      cases hmatch : r.matchSupportedUuid passive1 with
      | false =>
          rw [hmatch, if_pos rfl] at h
          rw [if_pos rfl]
          exact process_psvt_cases h
      | true =>
          rw [hmatch, if_neg (by decide)] at h
          rw [if_neg (by decide)]
          cases hopens : r.opens with
          | true => rfl
          | false =>
              rw [hopens] at h
              cases h

/-- What `generate_conf` has written is a document, and the parser gets the platform from it. -/
theorem read_back {r : FirmwareReads} (hplain : r.Plain) (h : (r.generate false).1 = 0) :
    ∃ text root, (r.generate false).2 = some text ∧ readDocument text = some root ∧
      parse [root] = some [r.platform] := by
  rw [generate_cases h]
  unfold platform
  cases r.usesTrt with
  | true =>
      exact ⟨_, _, rfl, read_generated hplain.tables hplain.product r.devices, parse_root _ _ _ _⟩
  | false =>
      have hpsvt : PlainPsvt r.trtEntries r.artEntries (r.psvt.getD []) :=
        ⟨hplain.tables.trtTarget, hplain.tables.artTarget, hplain.rows⟩
      exact ⟨_, _, rfl, read_psvt_conf hpsvt hplain.product r.devices, parse_psvt_root _ _ _ _ _⟩

end FirmwareReads

/-- Where `generate_conf` reports success for a file that was not there, it has written a document
that every reader of XML can read, and the parser makes of it the platform of the tables that the
firmware's policy uses: for `PSVT` one zone for each target of any table, with one trip point for
each row of the target in the order of the table. -/
theorem generated_file_parsed {read : String → Option XmlNode}
    (hread : ∀ text root, readDocument text = some root → read text = some root)
    {r : FirmwareReads} (hplain : r.Plain) (h : (r.generate false).1 = 0) :
    ∃ text root, (r.generate false).2 = some text ∧ read text = some root ∧
      parse [root] = some [r.platform] := by
  obtain ⟨text, root, htext, hroot, hparse⟩ := FirmwareReads.read_back hplain h
  exact ⟨text, root, htext, hread text root hroot, hparse⟩

/-- A firmware with two rows, one with a text and one with 15 W as its limit. -/
def passiveTwoFirmware : FirmwareReads where
  trt := none
  art := none
  psvt := some [
    { sourceDevice := "TCPU", targetDevice := "SEN1", samplePeriod := 50, passiveTemp := 3232,
      stepSize := 1, limit := 0x58414d, controlKnobType := 2 },
    { sourceDevice := "TCPU", targetDevice := "SEN1", samplePeriod := 50, passiveTemp := 3332,
      stepSize := 1, limit := 15000, controlKnobType := 1 }]
  availableUuids := some [FirmwareReads.passive2]
  productName := some "Laptop\n"
  devices := []
  opens := true

theorem passive_two_plain : passiveTwoFirmware.Plain := by
  refine ⟨⟨?_, ?_, ?_, ?_⟩, ?_, ?_⟩
  · exact List.forall_mem_nil _
  · exact List.forall_mem_nil _
  · exact List.forall_mem_nil _
  · exact List.forall_mem_nil _
  · intro e he
    rcases List.mem_pair.mp he with rfl | rfl
    · exact ⟨rfl, rfl⟩
    · exact ⟨rfl, rfl⟩
  · intro line hline
    have hvalue : productLine (some "Laptop\n") = some "Laptop" := by decide
    obtain rfl := Option.some.inj (hvalue.symm.trans hline)
    rfl

theorem passive_two_success : (passiveTwoFirmware.generate false).1 = 0 := by
  have hmatch : passiveTwoFirmware.matchSupportedUuid FirmwareReads.passive2 = true := by
    decide +kernel
  show passiveTwoFirmware.processPsvt.1 = 0
  unfold FirmwareReads.processPsvt
  rw [hmatch, if_neg (by decide)]
  rfl

/-- The rows come back: 51 degrees for `MAX`, and 60 degrees with a target state. -/
theorem passive_two_parsed : ∃ text root, (passiveTwoFirmware.generate false).2 = some text ∧
    readDocument text = some root ∧ parse [root] = some [passiveTwoFirmware.platform] :=
  generated_file_parsed (fun _ _ h => h) passive_two_plain passive_two_success

end Firmware

end Thermald
