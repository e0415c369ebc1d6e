import Thermald.Config.Parse
import Thermald.Firmware.Written

/-!
# The configuration that is read back

What the parser makes of the document that `generate_conf` writes: one platform, with the product
name and a zone for each target that has a name. The passive trip point of a zone has the sources of
`_TRT`, the active one those of `_ART`. The parser removes white space everywhere in a name, and a
number is read as an `int`.
-/

namespace Thermald

namespace Firmware

open XmlText

/-! ## What is read back -/

/-- The digits of a number as an `int`. -/
def readBack (n : Nat) : Int := int32 (min 9223372036854775807 n)

/-- A number that is an `int` is read as it is. -/
theorem read_back_small {n : Nat} (h : n < 2147483648) : readBack n = n := by
  unfold readBack
  rw [int32_eq_self (by omega) (by unfold intMax; omega)]
  omega

section Exported

variable (devices : List PlatformDevice) (trt : List TrtObject) (art : List ArtObject)

/-- A source of `_TRT`. -/
def trtCdev (object : TrtObject) : TripCdevConf :=
  { newTripCdev with
    type := stringTrim (subtituteString devices .targetDev object.sourceDevice)
    influence := readBack object.influence
    samplingPeriod := readBack (object.samplePeriod * 100 % 2 ^ 64 / 1000) }

/-- A source of `_ART`. -/
def artCdev (object : ArtObject) : TripCdevConf :=
  { newTripCdev with
    type := stringTrim (subtituteString devices .targetDev object.sourceDevice)
    influence := readBack object.weight }

/-- A trip point of a target with some sources. There is none without a source. -/
def exportedTrip (type : TripPointType) (target : String) (cdevs : List TripCdevConf) :
    List TripPointConf :=
  if cdevs = [] then []
  else [{ newTripPoint with
    tripPtType := type
    controlType := .sequential
    sensorType := stringTrim (subtituteString devices .sensorDev target)
    cdevTrips := cdevs }]

/-- The zone of a target. -/
def exportedZone (target : String) : ThermalZoneConf where
  type := stringTrim (subtituteString devices .sourceDev target)
  tripPts :=
    exportedTrip devices .passive target
      ((trt.filter fun o => o.targetDevice = target).map (trtCdev devices)) ++
    exportedTrip devices .active target
      ((art.filter fun o => o.targetDevice = target).map (artCdev devices))

/-- The platform. -/
def exportedPlatform (productName : Option String) : ThermalInfo :=
  { firstPlatform with
    name := "_TRTexport"
    productName := stringTrim ((productLine productName).getD "*")
    zones := ((targets trt art []).eraseDups.filter fun target => target ≠ "").map
      (exportedZone devices trt art) }

end Exported

/-! ## Numbers -/

/-- A digit as a byte. -/
theorem digit_byte {c : Char} (h : c.isDigit = true) :
    48 ≤ UInt8.ofNat c.toNat ∧ UInt8.ofNat c.toNat ≤ 57 ∧
      (UInt8.ofNat c.toNat).toNat = c.toNat := by
  have hrange : 48 ≤ c.toNat ∧ c.toNat ≤ 57 := by
    simpa [Char.isDigit, UInt32.le_iff_toNat_le] using h
  have htoNat : (UInt8.ofNat c.toNat).toNat = c.toNat := by
    rw [UInt8.toNat_ofNat']
    omega
  refine ⟨?_, ?_, htoNat⟩
  · rw [UInt8.le_iff_toNat_le, htoNat]
    exact hrange.1
  · rw [UInt8.le_iff_toNat_le, htoNat]
    exact hrange.2

/-- The number at the beginning of a text of digits. -/
theorem scan_int_digits {text : Bytes} (hne : text ≠ [])
    (h : ∀ b ∈ text, 48 ≤ b ∧ b ≤ 57) : scanInt text = some (digitsValue text : Int) := by
  obtain ⟨b, rest, rfl⟩ := List.exists_cons_of_ne_nil hne
  have hb : 48 ≤ b.toNat := UInt8.le_iff_toNat_le.mp (h b List.mem_cons_self).1
  have hother {d : UInt8} (hd : d.toNat < 48) : b ≠ d := by
    rintro rfl
    omega
  have hspace : isSpace b = false := by
    have hcontrol : ¬ b ≤ 13 := by
      rw [UInt8.le_iff_toNat_le]
      show ¬ b.toNat ≤ 13
      omega
    simp [isSpace, hother (d := 32) (by decide), hcontrol]
  have hall : (b :: rest).takeWhile (fun b => 48 ≤ b && b ≤ 57) = b :: rest := by
    refine List.takeWhile_eq_self_iff.mpr fun c hc => ?_
    rw [Bool.and_eq_true, decide_eq_true_eq, decide_eq_true_eq]
    exact h c hc
  unfold scanInt
  rw [List.dropWhile_cons_of_neg (by rw [hspace]; exact Bool.false_ne_true)]
  dsimp only
  split
  · rename_i heq
    cases heq
    exact absurd rfl (hother (d := 45) (by decide))
  · rename_i heq
    cases heq
    exact absurd rfl (hother (d := 43) (by decide))
  · dsimp only
    rw [hall, if_neg hne]
    rfl

/-- The number that is read from the digits of a number. -/
theorem scan_int_number (n : Nat) : scanInt (Gddv.ascii (toString n)) = some (n : Int) := by
  have hdigit : ∀ c ∈ Nat.toDigits 10 n, c.isDigit = true := fun c hc =>
    Nat.isDigit_of_mem_toDigits (by decide) (by decide) hc
  have hvalue : digitsValue ((Nat.toDigits 10 n).map fun c => UInt8.ofNat c.toNat) = n := by
    unfold digitsValue
    rw [List.foldl_map]
    refine Eq.trans ?_ (Nat.ofDigitChars_ten_toDigits (n := n))
    rw [Nat.ofDigitChars_eq_foldl]
    refine List.foldl_ext _ _ _ fun value c hc => ?_
    rw [(digit_byte (hdigit c hc)).2.2]
    rfl
  unfold Gddv.ascii
  rw [Nat.toString_eq_ofList_toDigits, String.toList_ofList, scan_int_digits, hvalue]
  · rw [ne_eq, List.map_eq_nil_iff]
    exact Nat.toDigits_ne_nil
  · intro b hb
    obtain ⟨c, hc, rfl⟩ := List.mem_map.mp hb
    exact ⟨(digit_byte (hdigit c hc)).1, (digit_byte (hdigit c hc)).2.1⟩

/-- A number is read as an `int`. -/
theorem atoi_number (n : Nat) : atoi (toString n) = readBack n := by
  unfold atoi readBack
  rw [scan_int_number]
  congr 1
  show max (-9223372036854775808) (min 9223372036854775807 (n : Int)) =
    min 9223372036854775807 (n : Int)
  omega

/-! ## Reading cooling devices -/

/-- A handler with a table reads the elements on the lines. -/
theorem read_elements_inner {σ : Type} (table : List (String × Thermald.Entry σ)) (pre : String)
    (lines : List (String × XmlNode)) (s : σ) : readElements table (inner pre lines) s =
      lines.foldlM (fun s l => readElement table s l.2) s :=
  foldlM_inner (fun _ _ => rfl) pre lines s

/-- What is written about a cooling device is read as this record. -/
def ReadsCdev (members : List (String × String)) (b : TripCdevConf) : Prop :=
  ∀ pre, parseNewTripCdev (inner (pre ++ "\t") (cdevChildren pre members)) newTripCdev = some b

section Cdevs

variable (devices : List PlatformDevice)

/-- The digits of a number are a text. -/
theorem number_ne_empty (n : Nat) : toString n ≠ "" := by
  intro h
  have hdigits : Nat.toDigits 10 n = [] := by
    rw [← String.toList_ofList (l := Nat.toDigits 10 n), ← Nat.toString_eq_ofList_toDigits, h]
    rfl
  exact Nat.toDigits_ne_nil hdigits

theorem read_cdev_type (name : String) :
    readElement tripCdevTable newTripCdev (textNode "type" name) =
      some { newTripCdev with type := stringTrim name } := by
  by_cases hempty : name = ""
  · rw [hempty]
    rfl
  · have hentry : lookUp tripCdevTable "type" =
        some (.value fun text b => { b with type := stringTrim text }) := rfl
    exact read_text_node hentry hempty newTripCdev

theorem read_cdev_influence (n : Nat) (b : TripCdevConf) :
    readElement tripCdevTable b (textNode "influence" (toString n)) =
      some { b with influence := readBack n } := by
  have hentry : lookUp tripCdevTable "influence" =
      some (.value fun text b => { b with influence := atoi text }) := rfl
  rw [← atoi_number]
  exact read_text_node hentry (number_ne_empty n) b

theorem read_cdev_period (n : Nat) (b : TripCdevConf) :
    readElement tripCdevTable b (textNode "SamplingPeriod" (toString n)) =
      some { b with samplingPeriod := readBack n } := by
  have hentry : lookUp tripCdevTable "SamplingPeriod" =
      some (.value fun text b => { b with samplingPeriod := atoi text }) := rfl
  rw [← atoi_number]
  exact read_text_node hentry (number_ne_empty n) b

theorem reads_trt (object : TrtObject) :
    ReadsCdev (trtMembers devices object) (trtCdev devices object) := by
  intro pre
  unfold parseNewTripCdev
  rw [read_elements_inner]
  show ((readElement tripCdevTable newTripCdev (textNode "type" _)).bind fun b =>
    (readElement tripCdevTable b (textNode "influence" _)).bind fun b =>
      (readElement tripCdevTable b (textNode "SamplingPeriod" _)).bind some) = _
  rw [read_cdev_type, Option.bind_some, read_cdev_influence, Option.bind_some, read_cdev_period]
  rfl

theorem reads_art (object : ArtObject) :
    ReadsCdev (artMembers devices object) (artCdev devices object) := by
  intro pre
  unfold parseNewTripCdev
  rw [read_elements_inner]
  show ((readElement tripCdevTable newTripCdev (textNode "type" _)).bind fun b =>
    (readElement tripCdevTable b (textNode "influence" _)).bind some) = _
  rw [read_cdev_type, Option.bind_some, read_cdev_influence]
  rfl

end Cdevs

/-! ## Reading trip points -/

/-- A trip point is read as this record. -/
def ReadsTrip (t : TripText) (c : TripPointConf) : Prop :=
  ∀ pre, parseNewTripPoint (inner pre (tripChildren pre t)) newTripPoint = some c

/-- The cooling devices are put behind those that there are. -/
theorem read_cdevs {cdevs : List (List (String × String))} {confs : List TripCdevConf}
    (h : List.Forall₂ ReadsCdev cdevs confs) (pre : String) (t : TripPointConf) :
    (cdevs.map fun members => (pre ++ "\t", cdevNode pre members)).foldlM
      (fun t l => readElement tripPointTable t l.2) t =
        some { t with cdevTrips := t.cdevTrips ++ confs } := by
  induction h generalizing t with
  | nil =>
      rw [List.append_nil]
      rfl
  | @cons members b cdevs confs hb _ ih =>
      have hread : readElement tripPointTable t (cdevNode pre members) =
          some { t with cdevTrips := t.cdevTrips ++ [b] } := by
        refine (read_block_node rfl _ _ t).trans ?_
        rw [hb pre]
        rfl
      rw [List.map_cons, List.foldlM_cons, hread]
      show List.foldlM _ _ _ = _
      rw [ih]
      simp

theorem reads_trip {sensor type : String} {tripType : TripPointType}
    (htype : type ≠ "") (hread : parseTripType (charTrim type) .active = tripType)
    {cdevs : List (List (String × String))} {confs : List TripCdevConf}
    (h : List.Forall₂ ReadsCdev cdevs confs) :
    ReadsTrip ⟨sensor, type, cdevs⟩ { newTripPoint with
      tripPtType := tripType
      controlType := .sequential
      sensorType := stringTrim sensor
      cdevTrips := confs } := by
  intro pre
  have hsensor : readElement tripPointTable { newTripPoint with tripPtType := .active }
      (textNode "SensorType" sensor) =
        some { newTripPoint with tripPtType := .active, sensorType := stringTrim sensor } := by
    by_cases hempty : sensor = ""
    · rw [hempty]
      rfl
    · have hentry : lookUp tripPointTable "SensorType" =
          some (.value fun text t => { t with sensorType := stringTrim text }) := rfl
      exact read_text_node hentry hempty _
  have htypeRead (t : TripPointConf) : readElement tripPointTable t (textNode "type" type) =
      some { t with tripPtType := parseTripType (charTrim type) t.tripPtType } := by
    have hentry : lookUp tripPointTable "type" = some (.value fun text t =>
        { t with tripPtType := parseTripType (charTrim text) t.tripPtType }) := rfl
    exact read_text_node hentry htype t
  unfold parseNewTripPoint tripChildren
  rw [read_elements_inner, List.foldlM_append]
  show ((readElement tripPointTable { newTripPoint with tripPtType := .active }
    (textNode "SensorType" sensor)).bind fun t =>
      (readElement tripPointTable t (textNode "Temperature" "*")).bind fun t =>
        (readElement tripPointTable t (textNode "type" type)).bind fun t =>
          (readElement tripPointTable t (textNode "ControlType" "SEQUENTIAL")).bind some).bind _ = _
  rw [hsensor, Option.bind_some]
  show ((readElement tripPointTable _ (textNode "type" type)).bind _).bind _ = _
  rw [htypeRead, Option.bind_some, hread]
  exact read_cdevs h pre _

/-! ## Reading zones -/

/-- A zone is read as this record, whatever was in the record before. -/
def ReadsZone (z : ZoneText) (c : ThermalZoneConf) : Prop :=
  ∀ pre indentation record,
    parseNewZone (inner pre (zoneChildren pre indentation z)) (resetZone record) = some c

/-- The trip points are put behind those that there are. -/
theorem read_trips {trips : List TripText} {confs : List TripPointConf}
    (h : List.Forall₂ ReadsTrip trips confs) (pre indentation : String) (zone : ThermalZoneConf) :
    parseTripPoints (inner pre (tripNodes indentation trips)) zone =
      some { zone with tripPts := zone.tripPts ++ confs } := by
  unfold parseTripPoints readEach
  rw [foldlM_inner fun _ _ => rfl]
  induction h generalizing zone with
  | nil =>
      rw [List.append_nil]
      rfl
  | @cons t c trips confs hc _ ih =>
      show ((parseNewTripPoint (inner (indentation ++ "\t") (tripChildren (indentation ++ "\t") t))
        newTripPoint).bind fun t => some { zone with tripPts := zone.tripPts ++ [t] }).bind _ = _
      rw [hc]
      refine (ih { zone with tripPts := zone.tripPts ++ [c] }).trans ?_
      simp

theorem reads_zone {type : String} (htype : type ≠ "") {trips : List TripText}
    {confs : List TripPointConf} (h : List.Forall₂ ReadsTrip trips confs) :
    ReadsZone ⟨type, trips⟩ ⟨stringTrim type, confs⟩ := by
  intro pre indentation record
  have hread : readZone (resetZone record) (textNode "Type" type) =
      some { resetZone record with type := stringTrim type } := by
    unfold textNode
    rw [if_neg htype]
    show some { resetZone record with type := stringTrim (type ++ "") } = _
    rw [String.append_empty]
  unfold parseNewZone zoneChildren
  rw [foldlM_inner fun _ _ => rfl]
  show ((readZone (resetZone record) (textNode "Type" type)).bind fun zone =>
    (parseTripPoints (inner (pre ++ "\t") (tripNodes indentation trips)) zone).bind some) = _
  rw [hread, Option.bind_some, read_trips h]
  rfl

/-- The zones are put behind those that there are. -/
theorem read_zones {zones : List ZoneText} {confs : List ThermalZoneConf}
    (h : List.Forall₂ ReadsZone zones confs) (pre outer indentation : String)
    (s : ThermalZoneConf × List ThermalZoneConf) :
    ∃ record, readThermalZones (inner outer (zoneNodes pre indentation zones)) s =
      some (record, s.2 ++ confs) := by
  unfold readThermalZones readRecords readEach
  rw [foldlM_inner fun _ _ => rfl]
  induction h generalizing indentation s with
  | nil =>
      refine ⟨s.1, ?_⟩
      rw [List.append_nil]
      rfl
  | @cons z c zones confs hc _ ih =>
      obtain ⟨record, hrest⟩ := ih (indentation ++ "\t") (c, s.2 ++ [c])
      refine ⟨record, ?_⟩
      show ((parseNewZone (inner pre (zoneChildren pre (indentation ++ "\t") z))
        (resetZone s.1)).bind fun record => some (record, s.2 ++ [record])).bind _ = _
      rw [hc]
      refine hrest.trans ?_
      rw [List.append_assoc]
      rfl

section Tables

variable {trt : List TrtObject} {art : List ArtObject}

/-- A trip point with the entries of a table that have a target is read as one with their
devices. -/
theorem reads_trip_of_table {α : Type} {target : α → String} {table : List α} {objects : List Nat}
    {members : α → List (String × String)} {conf : α → TripCdevConf} {name type : String}
    {tripType : TripPointType} (hobjects : objects = placesOf (table.map target) name)
    (hmembers : ∀ object, ReadsCdev (members object) (conf object)) (htype : type ≠ "")
    (hread : parseTripType (charTrim type) .active = tripType) (devices : List PlatformDevice) :
    List.Forall₂ ReadsTrip
      (tripTexts devices type objects ((objects.filterMap fun j => table[j]?).map members) name)
      (exportedTrip devices tripType name
        ((table.filter fun e => target e = name).map conf)) := by
  have hnil : objects = [] ↔ (table.filter fun e => target e = name).map conf = [] := by
    rw [hobjects, List.map_eq_nil_iff]
    exact places_of_eq_nil target table name
  unfold tripTexts exportedTrip
  by_cases hempty : objects = []
  · rw [if_pos hempty, if_pos (hnil.mp hempty)]
    exact .nil
  · rw [if_neg hempty, if_neg (mt hnil.mpr hempty), hobjects, filter_map_places_of]
    refine .cons (reads_trip htype hread ?_) .nil
    rw [List.forall₂_map_left_iff, List.forall₂_map_right_iff]
    exact List.forall₂_same.mpr fun object _ => hmembers object

/-- A name stays a name. -/
theorem subtitute_source_ne_empty (devices : List PlatformDevice) {name : String} (h : name ≠ "") :
    subtituteString devices .sourceDev name ≠ "" := by
  rcases replace_cases sourceSubstitueStrings name with hsame | hmem
  · exact fun heq => h (hsame.symm.trans heq)
  · intro heq
    change replace sourceSubstitueStrings name = "" at heq
    rw [heq] at hmem
    exact absurd hmem (by decide)

/-- Each target that has a name is read as its zone. -/
theorem reads_zones (devices : List PlatformDevice) : List.Forall₂ ReadsZone
    (zoneTexts devices trt art (parseTargetDevices trt art []))
    (((targets trt art []).eraseDups.filter fun target => target ≠ "").map
      (exportedZone devices trt art)) := by
  have hreads : ∀ o ∈ parseTargetDevices trt art [], o.targetDevice ≠ "" →
      ReadsZone (zoneText devices trt art o) (exportedZone devices trt art o.targetDevice) := by
    intro o ho hne
    refine reads_zone (subtitute_source_ne_empty devices hne) (List.rel_append ?_ ?_)
    · unfold passiveText
      rw [target_sensor_eq ho]
      exact reads_trip_of_table (trt_objects_places ho) (reads_trt devices) (by decide) rfl devices
    · unfold activeText
      rw [target_sensor_eq ho]
      exact reads_trip_of_table (art_objects_places ho) (reads_art devices) (by decide) rfl devices
  rw [← parse_target_devices_keys, List.filter_map, List.map_map]
  unfold zoneTexts
  rw [List.forall₂_map_left_iff, List.forall₂_map_right_iff]
  refine List.forall₂_same.mpr fun o ho => ?_
  obtain ⟨hmem, hne⟩ := List.mem_filter.mp ho
  exact hreads o hmem (of_decide_eq_true hne)

end Tables

/-! ## Reading the platform -/

theorem string_trim_append (a b : String) : stringTrim (a ++ b) = stringTrim a ++ stringTrim b := by
  unfold stringTrim
  rw [String.toList_append, List.filter_append, String.ofList_append]

/-- The product name is read without its white space. -/
theorem product_text_trim (productName : Option String) :
    stringTrim (productText productName ++ "\t\t") =
      stringTrim ((productLine productName).getD "*") := by
  have htabs : stringTrim "\t\t" = "" := by decide
  rw [string_trim_append, htabs, String.append_empty]
  unfold productText
  cases productLine productName with
  | none => decide
  | some line => rfl

theorem read_platform_product (productName : Option String) (info : ThermalInfo) :
    readElement platformTable info (textNode "ProductName" (productText productName ++ "\t\t")) =
      some { info with productName := stringTrim ((productLine productName).getD "*") } := by
  have hentry : lookUp platformTable "ProductName" =
      some (.value fun text info => { info with productName := stringTrim text }) := rfl
  have hne : productText productName ++ "\t\t" ≠ "" := by
    intro h
    have hlist := congrArg String.toList h
    simp at hlist
  rw [← product_text_trim]
  exact read_text_node hentry hne info

theorem read_platform_zones {zones : List ZoneText} {confs : List ThermalZoneConf}
    (h : List.Forall₂ ReadsZone zones confs) (info : ThermalInfo) :
    readElement platformTable info
      (blockNode "\t\t" "ThermalZones" (zoneNodes "\t\t\t" "\t\t\t\t" zones)) =
        some { info with zones := info.zones ++ confs } := by
  have hentry : lookUp platformTable "ThermalZones" = some (.group parseThermalZones) := rfl
  obtain ⟨record, hread⟩ :=
    read_zones h "\t\t\t" "\t\t" "\t\t\t\t" (firstZone, info.zones)
  rw [read_block_node hentry]
  unfold parseThermalZones
  rw [hread]
  rfl

/-- The platform is read from its element. -/
theorem read_platform {zones : List ZoneText} {confs : List ThermalZoneConf}
    (h : List.Forall₂ ReadsZone zones confs) (productName : Option String) :
    parseNewPlatformInfo (inner "\t" (platformChildren (productText productName) zones))
      (resetPlatform firstPlatform) = some { firstPlatform with
        name := "_TRTexport"
        productName := stringTrim ((productLine productName).getD "*")
        zones := confs } := by
  have hname (info : ThermalInfo) : readElement platformTable info
      (textNode "Name" "_TRT export") = some { info with name := "_TRTexport" } := rfl
  have hpreference (info : ThermalInfo) : readElement platformTable info
      (textNode "Preference" "QUIET") = some { info with defaultPreference := .energyConserve } :=
    rfl
  unfold parseNewPlatformInfo platformChildren
  rw [read_elements_inner, List.foldlM_cons, hname]
  show List.foldlM _ _ _ = _
  rw [List.foldlM_cons, read_platform_product]
  show List.foldlM _ _ _ = _
  rw [List.foldlM_cons, hpreference]
  show List.foldlM _ _ _ = _
  rw [List.foldlM_cons, read_platform_zones h]
  rfl

/-- The parser reads the platform from the tree. -/
theorem parse_root (devices : List PlatformDevice) (trt : List TrtObject) (art : List ArtObject)
    (productName : Option String) :
    parse [rootNode (productText productName)
      (zoneTexts devices trt art (parseTargetDevices trt art []))] =
        some [exportedPlatform devices trt art productName] := by
  show (parseNewPlatform (inner "" [("\t", platformNode (productText productName) _)])
    []).bind some = _
  unfold parseNewPlatform readPlatforms readRecords readEach
  rw [foldlM_inner fun _ _ => rfl]
  show ((((parseNewPlatformInfo _ (resetPlatform firstPlatform)).bind fun info =>
    some (info, [] ++ [info])).bind some).bind fun s => some s.2).bind some = _
  rw [read_platform (reads_zones devices)]
  rfl

/-! ## The round trip -/

/-- The document that is written for tables and a product line of plain texts is read, by any reader
that reads simple documents as XML has it, and the parser makes of it the platform with the zones of
the tables. -/
theorem generated_conf_parsed {read : String → Option XmlNode}
    (hread : ∀ text root, readDocument text = some root → read text = some root)
    (devices : List PlatformDevice) {trt : List TrtObject} {art : List ArtObject}
    {productName : Option String} (htables : PlainTables trt art)
    (hproduct : ∀ line, productLine productName = some line → plainText line.toList = true) :
    ∃ root, read (generateConf devices trt art productName) = some root ∧
      parse [root] = some [exportedPlatform devices trt art productName] :=
  ⟨_, hread _ _ (read_generated htables hproduct devices), parse_root devices trt art productName⟩

/-- Two sources of a processor, the second of them a fan. -/
theorem generated_conf_parsed_fan : ∃ root,
    readDocument (generateConf [] [⟨"TMEM", "TCPU", 20, 50⟩] [⟨"TFN1", "TCPU", 80⟩]
      (some "Laptop\n")) = some root ∧
    parse [root] = some [exportedPlatform [] [⟨"TMEM", "TCPU", 20, 50⟩] [⟨"TFN1", "TCPU", 80⟩]
      (some "Laptop\n")] := by
  refine generated_conf_parsed (fun _ _ h => h) [] ⟨by decide, by decide, by decide, by decide⟩ ?_
  intro line hline
  have hvalue : productLine (some "Laptop\n") = some "Laptop" := by decide
  obtain rfl := Option.some.inj (hvalue.symm.trans hline)
  decide

/-- A blank inside the product line is lost. -/
theorem product_name_without_blank : productLine (some "Laptop 13\n") = some "Laptop 13" ∧
    ¬ ∃ root info, readDocument (generateConf [] [⟨"TMEM", "TCPU", 20, 50⟩]
        [⟨"TFN1", "TCPU", 80⟩] (some "Laptop 13\n")) = some root ∧
      parse [root] = some [info] ∧ charTrim info.productName = charTrim "Laptop 13" := by
  have hvalue : productLine (some "Laptop 13\n") = some "Laptop 13" := by decide
  refine ⟨hvalue, ?_⟩
  rintro ⟨root, info, hread, hparse, hname⟩
  have hroot : readDocument (generateConf [] [⟨"TMEM", "TCPU", 20, 50⟩]
      [⟨"TFN1", "TCPU", 80⟩] (some "Laptop 13\n")) = some (rootNode
        (productText (some "Laptop 13\n")) (zoneTexts [] [⟨"TMEM", "TCPU", 20, 50⟩]
          [⟨"TFN1", "TCPU", 80⟩] (parseTargetDevices [⟨"TMEM", "TCPU", 20, 50⟩]
            [⟨"TFN1", "TCPU", 80⟩] []))) := by
    refine read_generated ⟨by decide, by decide, by decide, by decide⟩ (fun line hline => ?_) []
    obtain rfl := Option.some.inj (hvalue.symm.trans hline)
    decide
  obtain rfl := Option.some.inj (hroot.symm.trans hread)
  rw [parse_root] at hparse
  obtain rfl : exportedPlatform [] _ _ _ = info := by simpa using hparse
  have htrim : (exportedPlatform [] [⟨"TMEM", "TCPU", 20, 50⟩] [⟨"TFN1", "TCPU", 80⟩]
      (some "Laptop 13\n")).productName = "Laptop13" := by
    show stringTrim ((productLine (some "Laptop 13\n")).getD "*") = _
    rw [hvalue]
    decide
  rw [htrim] at hname
  exact absurd hname (by decide)

end Firmware

end Thermald
