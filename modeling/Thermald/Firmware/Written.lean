import Thermald.Firmware.Lines

/-!
# The document that is written

The lines of `generate_conf` are those of the tree `rootNode`, which holds the texts of the zones. A
reader of XML gets this tree if none of the names has a character with a meaning of its own.
-/

namespace Thermald

namespace Firmware

open XmlText

/-! ## The texts of the zones -/

/-- A trip point: its sensor, its type, and what is written about its cooling devices. -/
structure TripText where
  sensor : String
  type : String
  cdevs : List (List (String × String))

/-- A zone. -/
structure ZoneText where
  type : String
  trips : List TripText

section Texts

variable (devices : List PlatformDevice) (trt : List TrtObject) (art : List ArtObject)

/-- The trip point of a target with these objects. -/
def tripTexts (type : String) (objects : List Nat) (cdevs : List (List (String × String)))
    (sensor : String) : List TripText :=
  if objects = [] then [] else [⟨subtituteString devices .sensorDev sensor, type, cdevs⟩]

/-- The passive trip point of a target. -/
def passiveText (relObj : RelObject) : List TripText :=
  tripTexts devices "passive" relObj.trtObjects
    ((relObj.trtObjects.filterMap fun j => trt[j]?).map (trtMembers devices)) relObj.targetSensor

/-- The active trip point of a target. -/
def activeText (relObj : RelObject) : List TripText :=
  tripTexts devices "active" relObj.artObjects
    ((relObj.artObjects.filterMap fun j => art[j]?).map (artMembers devices)) relObj.targetSensor

/-- The zone of a target. -/
def zoneText (relObj : RelObject) : ZoneText where
  type := subtituteString devices .sourceDev relObj.targetDevice
  trips := passiveText devices trt relObj ++ activeText devices art relObj

/-- The zones of all targets with a name. -/
def zoneTexts (relList : List RelObject) : List ZoneText :=
  (relList.filter fun o => o.targetDevice ≠ "").map (zoneText devices trt art)

end Texts

/-! ## The tree -/

/-- The lines in the element of a cooling device. -/
def cdevChildren (pre : String) (members : List (String × String)) : List (String × XmlNode) :=
  members.map fun m => (pre ++ "\t\t", textNode m.1 m.2)

/-- The element of a cooling device. -/
def cdevNode (pre : String) (members : List (String × String)) : XmlNode :=
  blockNode (pre ++ "\t") "CoolingDevice" (cdevChildren pre members)

/-- The lines in the element of a trip point. -/
def tripChildren (pre : String) (t : TripText) : List (String × XmlNode) := [
  (pre ++ "\t", textNode "SensorType" t.sensor),
  (pre ++ "\t", textNode "Temperature" "*"),
  (pre ++ "\t", textNode "type" t.type),
  (pre ++ "\t", textNode "ControlType" "SEQUENTIAL")] ++
  t.cdevs.map fun members => (pre ++ "\t", cdevNode pre members)

/-- The element of a trip point. -/
def tripNode (pre : String) (t : TripText) : XmlNode :=
  blockNode pre "TripPoint" (tripChildren pre t)

/-- The lines with the trip points of a zone. -/
def tripNodes (indentation : String) (trips : List TripText) : List (String × XmlNode) :=
  trips.map fun t => (indentation ++ "\t", tripNode (indentation ++ "\t") t)

/-- The lines in the element of a zone. -/
def zoneChildren (pre indentation : String) (z : ZoneText) : List (String × XmlNode) := [
  (pre ++ "\t", textNode "Type" z.type),
  (pre ++ "\t", blockNode (pre ++ "\t") "TripPoints" (tripNodes indentation z.trips))]

/-- The element of a zone. -/
def zoneNode (pre indentation : String) (z : ZoneText) : XmlNode :=
  blockNode pre "ThermalZone" (zoneChildren pre indentation z)

/-- The elements of the zones, with an indentation that grows. -/
def zoneNodes (pre : String) : String → List ZoneText → List (String × XmlNode)
  | _, [] => []
  | indentation, z :: rest =>
    (pre, zoneNode pre (indentation ++ "\t") z) :: zoneNodes pre (indentation ++ "\t") rest

/-- The lines in the element of the platform. -/
def platformChildren (product : String) (zones : List ZoneText) : List (String × XmlNode) := [
  ("\t\t", textNode "Name" "_TRT export"),
  ("\t\t", textNode "ProductName" (product ++ "\t\t")),
  ("\t\t", textNode "Preference" "QUIET"),
  ("\t\t", blockNode "\t\t" "ThermalZones" (zoneNodes "\t\t\t" "\t\t\t\t" zones))]

/-- The element of the platform. -/
def platformNode (product : String) (zones : List ZoneText) : XmlNode :=
  blockNode "\t" "Platform" (platformChildren product zones)

/-- The root element. -/
def rootNode (product : String) (zones : List ZoneText) : XmlNode :=
  blockNode "" "ThermalConfiguration" [("\t", platformNode product zones)]

/-- The text of the product name. -/
def productText (productName : Option String) : String :=
  match productLine productName with
  | some line => line
  | none => "*\n"

/-! ## The lines are those of the tree -/

theorem cdev_lines_eq (pre : String) (members : List (String × String)) :
    cdevLines pre members = nodeLine (pre ++ "\t", cdevNode pre members) := by
  unfold cdevLines cdevNode cdevChildren
  rw [← block_lines_eq, List.map_map]
  congr 3
  refine List.map_congr_left fun m _ => ?_
  exact text_line_eq _ _ _

theorem trip_lines_eq (pre sensor type : String) (cdevs : List (List (String × String))) :
    tripLines pre sensor type cdevs = nodeLine (pre, tripNode pre ⟨sensor, type, cdevs⟩) := by
  have hcdevs : cdevs.map (cdevLines pre) =
      (cdevs.map fun members => (pre ++ "\t", cdevNode pre members)).map nodeLine := by
    rw [List.map_map]
    exact List.map_congr_left fun members _ => cdev_lines_eq pre members
  unfold tripLines tripNode tripChildren
  rw [← block_lines_eq, hcdevs]
  simp only [text_line_eq, List.map_append, List.map_cons, List.map_nil, String.join_append,
    String.join_cons, String.join_nil, String.append_empty, String.append_assoc]

section Zones

variable (devices : List PlatformDevice) (trt : List TrtObject) (art : List ArtObject)

/-- A name is replaced only once. -/
theorem subtitute_sensor_twice (name : String) :
    subtituteString devices .sensorDev (subtituteString devices .sensorDev name) =
      subtituteString devices .sensorDev name := by
  by_cases h : name = "TPCH"
  · rw [h]
    rfl
  · have hsame : subtituteString devices .sensorDev name = name := by
      show ((([("TPCH", "pch_wildcat_point")] : List (String × String)).find? fun e =>
        e.1 = name).map (·.2)).getD name = name
      rw [List.find?_cons_of_neg (by simpa using Ne.symm h)]
      rfl
    rw [hsame, hsame]

/-- What is written for a trip point, and what is left in the object. -/
theorem add_trip_point_eq (indentation type : String) (objects : List Nat)
    (cdevs : List (List (String × String))) (relObj : RelObject) :
    (addTripPoint devices indentation type objects cdevs relObj).1 = String.join
        ((tripNodes indentation (tripTexts devices type objects cdevs relObj.targetSensor)).map
          nodeLine) ∧
      ((addTripPoint devices indentation type objects cdevs relObj).2 = relObj ∨
        (addTripPoint devices indentation type objects cdevs relObj).2 =
          nameSensor devices relObj) := by
  unfold addTripPoint tripTexts
  split
  · exact ⟨rfl, .inl rfl⟩
  · refine ⟨?_, .inr rfl⟩
    show tripLines _ _ _ _ = _
    rw [trip_lines_eq, tripNodes, List.map_singleton, List.map_singleton, String.join_cons,
      String.join_nil, String.append_empty]
    rfl

/-- The two trip points of a zone. The active one is the same whether the passive one has been there
or not. -/
theorem trips_written (indentation : String) (relObj : RelObject) :
    (addPassiveTripPoint devices trt indentation relObj).1 =
        String.join ((tripNodes indentation (passiveText devices trt relObj)).map nodeLine) ∧
      (addActiveTripPoint devices art indentation
        (addPassiveTripPoint devices trt indentation relObj).2).1 =
          String.join ((tripNodes indentation (activeText devices art relObj)).map nodeLine) ∧
      (addActiveTripPoint devices art indentation
        (addPassiveTripPoint devices trt indentation relObj).2).2.targetDevice =
          relObj.targetDevice := by
  obtain ⟨hpassive, hleft⟩ := add_trip_point_eq devices indentation "passive" relObj.trtObjects
    ((relObj.trtObjects.filterMap fun j => trt[j]?).map (trtMembers devices)) relObj
  have hactive (relObj : RelObject) := add_trip_point_eq devices indentation "active"
    relObj.artObjects ((relObj.artObjects.filterMap fun j => art[j]?).map (artMembers devices))
    relObj
  have htarget (relObj : RelObject) : (addActiveTripPoint devices art indentation
      relObj).2.targetDevice = relObj.targetDevice := by
    unfold addActiveTripPoint
    rcases (hactive relObj).2 with h | h
    · rw [h]
    · rw [h]
      rfl
  have hnamed : activeText devices art (nameSensor devices relObj) =
      activeText devices art relObj := by
    unfold activeText tripTexts nameSensor
    rw [subtitute_sensor_twice]
  refine ⟨hpassive, ?_⟩
  change (addPassiveTripPoint devices trt indentation relObj).2 = relObj ∨
    (addPassiveTripPoint devices trt indentation relObj).2 = nameSensor devices relObj at hleft
  rcases hleft with h | h
  · rw [h]
    exact ⟨(hactive relObj).1, htarget relObj⟩
  · rw [h, ← hnamed]
    exact ⟨(hactive (nameSensor devices relObj)).1, htarget (nameSensor devices relObj)⟩

/-- The lines of a zone. -/
theorem zone_line_eq (pre indentation type : String) (trips : List TripText) :
    startLine pre "ThermalZone" ++
      textLine (pre ++ "\t") "Type" type ++
      startLine (pre ++ "\t") "TripPoints" ++
      String.join ((tripNodes indentation trips).map nodeLine) ++
      stopLine (pre ++ "\t") "TripPoints" ++
      stopLine pre "ThermalZone" = nodeLine (pre, zoneNode pre indentation ⟨type, trips⟩) := by
  unfold zoneNode zoneChildren
  rw [← block_lines_eq, text_line_eq, List.map_cons, List.map_singleton, ← block_lines_eq]
  simp only [String.join_cons, String.join_nil, String.append_empty, String.append_assoc]

/-- The loop writes the lines of the zones. -/
theorem zone_lines_eq (pre indentation : String) (relList : List RelObject) :
    zoneLines devices trt art pre indentation relList =
      String.join ((zoneNodes pre indentation (zoneTexts devices trt art relList)).map
        nodeLine) := by
  induction relList generalizing indentation with
  | nil => rfl
  | cons relObj rest ih =>
      by_cases hempty : relObj.targetDevice = ""
      · have hskip : zoneTexts devices trt art (relObj :: rest) =
            zoneTexts devices trt art rest := by
          simp [zoneTexts, hempty]
        rw [zoneLines, if_pos hempty, hskip, ih]
      · have hzone : zoneTexts devices trt art (relObj :: rest) =
            zoneText devices trt art relObj :: zoneTexts devices trt art rest := by
          simp [zoneTexts, hempty]
        rw [zoneLines, if_neg hempty, hzone, zoneNodes]
        generalize indentation ++ "\t" = deeper
        obtain ⟨hpassive, hactive, htype⟩ := trips_written devices trt art deeper
          { relObj with
            targetDevice := subtituteString devices .sourceDev relObj.targetDevice }
        dsimp only
        rw [hpassive, hactive, htype, ih, List.map_cons, String.join_cons]
        show _ = nodeLine (pre, zoneNode pre deeper
          ⟨subtituteString devices .sourceDev relObj.targetDevice,
            passiveText devices trt relObj ++ activeText devices art relObj⟩) ++ _
        have htrips : tripNodes deeper (passiveText devices trt relObj ++
            activeText devices art relObj) = tripNodes deeper (passiveText devices trt relObj) ++
              tripNodes deeper (activeText devices art relObj) := List.map_append
        rw [← zone_line_eq, htrips, List.map_append, String.join_append]
        simp only [String.append_assoc]
        rfl

/-- What `generate_conf` writes is the declaration and the tree. -/
theorem generate_conf_eq (productName : Option String) :
    generateConf devices trt art productName = "<?xml version=\"1.0\"?>\n" ++
      nodeLine ("", rootNode (productText productName)
        (zoneTexts devices trt art (parseTargetDevices trt art []))) := by
  have hplatform : textLine "\t\t" "Name" "_TRT export" ++
      ("\t\t" ++ "<ProductName>" ++ productText productName) ++
      stopLine "\t\t" "ProductName" =
        nodeLine ("\t\t", textNode "Name" "_TRT export") ++
          nodeLine ("\t\t", textNode "ProductName" (productText productName ++ "\t\t")) := by
    rw [← text_line_eq, ← text_line_eq]
    refine String.toList_inj.mp ?_
    simp [stopLine, textLine]
  have hzones : createThermalZones devices trt art "\t\t" =
      nodeLine ("\t\t", blockNode "\t\t" "ThermalZones" (zoneNodes "\t\t\t" "\t\t\t\t"
        (zoneTexts devices trt art (parseTargetDevices trt art [])))) := by
    rw [← block_lines_eq, ← zone_lines_eq]
    rfl
  show "<?xml version=\"1.0\"?>\n" ++ startLine "" "ThermalConfiguration" ++
    startLine "\t" "Platform" ++
    (textLine "\t\t" "Name" "_TRT export" ++
      ("\t\t" ++ "<ProductName>" ++ productText productName) ++
      stopLine "\t\t" "ProductName") ++
    textLine "\t\t" "Preference" "QUIET" ++
    createThermalZones devices trt art "\t\t" ++
    stopLine "\t" "Platform" ++ stopLine "" "ThermalConfiguration" = _
  unfold rootNode platformNode platformChildren
  rw [← block_lines_eq "" "ThermalConfiguration", List.map_singleton,
    ← block_lines_eq "\t" "Platform", hzones, hplatform]
  simp only [text_line_eq, List.map_cons, List.map_nil, String.join_cons, String.join_nil,
    String.append_empty, String.append_assoc]

end Zones

/-! ## Names that can be read -/

section Plain

variable {devices : List PlatformDevice} {trt : List TrtObject} {art : List ArtObject}

/-- The name of an associated device is one of three, or the name itself. -/
theorem associate_device_cases (devices : List PlatformDevice) (name : String) :
    associateDevice devices name = name ∨
      associateDevice devices name ∈ ["DISP", "TMEM", "TCPU"] := by
  induction devices with
  | nil => exact .inl rfl
  | cons d rest ih =>
      unfold associateDevice
      split
      · split
        · exact ih
        · split
          · unfold nameOfPath
            split
            · exact .inr (by simp)
            · split
              · exact .inr (by simp)
              · split
                · exact .inr (by simp)
                · exact .inl rfl
          · exact ih
      · exact ih

/-- A replaced name comes from the table. -/
theorem replace_cases (list : List (String × String)) (name : String) :
    replace list name = name ∨ replace list name ∈ list.map (·.2) := by
  unfold replace
  cases hfind : list.find? fun e => e.1 = name with
  | none => exact .inl rfl
  | some e => exact .inr (List.mem_map_of_mem (List.mem_of_find?_eq_some hfind))

/-- The names that the daemon has for devices are plain. -/
theorem plain_subtitute (devices : List PlatformDevice) {name : String}
    (h : plainText name.toList = true) (type : SubType) :
    plainText (subtituteString devices type name).toList = true := by
  have hreplace {list : List (String × String)} {name : String}
      (hlist : ∀ text ∈ list.map (·.2), plainText text.toList = true)
      (h : plainText name.toList = true) : plainText (replace list name).toList = true := by
    rcases replace_cases list name with hsame | hmem
    · rwa [hsame]
    · exact hlist _ hmem
  cases type with
  | targetDev =>
      refine hreplace (by decide) ?_
      rcases associate_device_cases devices name with hsame | hmem
      · rwa [hsame]
      · exact (by decide : ∀ text ∈ ["DISP", "TMEM", "TCPU"], plainText text.toList = true) _ hmem
  | sourceDev => exact hreplace (by decide) h
  | sensorDev => exact hreplace (by decide) h

/-- The digits of a number are plain. -/
theorem plain_number (n : Nat) : plainText (toString n).toList = true := by
  refine plain_text_of fun c hc => ?_
  have hdigit : c.isDigit = true := by
    rw [Nat.toString_eq_ofList_toDigits, String.toList_ofList] at hc
    exact Nat.isDigit_of_mem_toDigits (by decide) (by decide) hc
  have hrange : 48 ≤ c.toNat ∧ c.toNat ≤ 57 := by
    simpa [Char.isDigit, UInt32.le_iff_toNat_le] using hdigit
  have hne {d : Char} (hd : d.toNat < 48 ∨ 57 < d.toNat) : c ≠ d := by
    rintro rfl
    omega
  have hspace : ' ' ≤ c := by
    show (' ' : Char).toNat ≤ c.toNat
    exact le_trans (by decide) hrange.1
  refine ⟨?_, hne (.inr (by decide))⟩
  unfold plainChar
  rw [decide_eq_true hspace, decide_eq_true (hne (d := '<') (.inr (by decide))),
    decide_eq_true (hne (d := '&') (.inl (by decide))),
    decide_eq_true (by omega : c.toNat ≠ 0xFFFE), decide_eq_true (by omega : c.toNat ≠ 0xFFFF)]
  exact Bool.or_true _

/-- Tabs behind a text do not make it a mark. -/
theorem plain_text_tabs {text : List Char} (h : plainText text = true) :
    plainText (text ++ ['\t', '\t']) = true := by
  have hend (text : List Char) : hasCdataEnd (text ++ ['\t', '\t']) = hasCdataEnd text := by
    induction text with
    | nil => rfl
    | cons c rest ih =>
        have htake : ((rest ++ ['\t', '\t']).take 2 = [']', '>']) ↔ rest.take 2 = [']', '>'] := by
          match rest with
          | [] => simp
          | [d] => simp
          | d :: e :: more => simp
        rw [List.cons_append, hasCdataEnd, hasCdataEnd, ih, decide_eq_decide.mpr htake]
  unfold plainText at h ⊢
  rw [hend, List.all_append]
  simp only [Bool.and_eq_true] at h ⊢
  exact ⟨⟨h.1, by decide⟩, h.2⟩

/-- The texts of a trip point are plain. -/
structure PlainTrip (t : TripText) : Prop where
  sensor : plainText t.sensor.toList = true
  type : plainText t.type.toList = true
  cdevs : ∀ members ∈ t.cdevs, ∀ m ∈ members,
    isName m.1.toList = true ∧ plainText m.2.toList = true

/-- The texts of a zone are plain. -/
structure PlainZone (z : ZoneText) : Prop where
  type : plainText z.type.toList = true
  trips : ∀ t ∈ z.trips, PlainTrip t

theorem PlainTrip.line {t : TripText} (h : PlainTrip t) {pre : String}
    (hpre : isIndentation pre = true) : PlainLine (pre, tripNode pre t) := by
  have hmore := is_indentation_more hpre
  have hmore' : isIndentation (pre ++ "\t\t") = true := by
    have htwo : pre ++ "\t\t" = pre ++ "\t" ++ "\t" := by
      rw [String.append_assoc]
      rfl
    rw [htwo]
    exact is_indentation_more hmore
  refine .block rfl hpre fun l hl => ?_
  rcases List.mem_append.mp hl with hl | hl
  · simp only [List.mem_cons, List.not_mem_nil, or_false] at hl
    rcases hl with rfl | rfl | rfl | rfl
    · exact .text rfl hmore h.sensor
    · exact .text rfl hmore rfl
    · exact .text rfl hmore h.type
    · exact .text rfl hmore rfl
  · obtain ⟨members, hmembers, rfl⟩ := List.mem_map.mp hl
    refine .block rfl hmore fun l hl => ?_
    obtain ⟨m, hm, rfl⟩ := List.mem_map.mp hl
    obtain ⟨hname, htext⟩ := h.cdevs members hmembers m hm
    exact .text hname hmore' htext

theorem plain_zone_lines {pre indentation : String} (hpre : isIndentation pre = true)
    (hindent : isIndentation indentation = true) {zones : List ZoneText}
    (h : ∀ z ∈ zones, PlainZone z) : ∀ l ∈ zoneNodes pre indentation zones, PlainLine l := by
  induction zones generalizing indentation with
  | nil => exact fun l hl => absurd hl List.not_mem_nil
  | cons z rest ih =>
      have hz := h z List.mem_cons_self
      have hmore := is_indentation_more hpre
      have hdeeper := is_indentation_more hindent
      intro l hl
      rcases List.mem_cons.mp hl with rfl | hl
      · refine .block rfl hpre fun l hl => ?_
        simp only [zoneChildren, List.mem_cons, List.not_mem_nil, or_false] at hl
        rcases hl with rfl | rfl
        · exact .text rfl hmore hz.type
        · refine .block rfl hmore fun l hl => ?_
          obtain ⟨t, ht, rfl⟩ := List.mem_map.mp hl
          exact (hz.trips t ht).line (is_indentation_more hdeeper)
      · exact ih hdeeper (fun z hz => h z (List.mem_cons_of_mem _ hz)) l hl

/-- The tree can be printed. -/
theorem plain_root {product : String} {zones : List ZoneText}
    (hproduct : plainText product.toList = true) (hzones : ∀ z ∈ zones, PlainZone z) :
    PlainLine ("", rootNode product zones) := by
  refine .block rfl rfl fun l hl => ?_
  obtain rfl := List.mem_singleton.mp hl
  refine .block rfl rfl fun l hl => ?_
  simp only [platformChildren, List.mem_cons, List.not_mem_nil, or_false] at hl
  rcases hl with rfl | rfl | rfl | rfl
  · exact .text rfl rfl rfl
  · refine .text rfl rfl ?_
    rw [String.toList_append]
    exact plain_text_tabs hproduct
  · exact .text rfl rfl rfl
  · exact .block rfl rfl (plain_zone_lines rfl rfl hzones)

/-- A line with a printable element behind the declaration is read as this element. -/
theorem read_document_line {name : String} {children : List XmlNode}
    (h : PlainLine ("", .element name children)) :
    readDocument ("<?xml version=\"1.0\"?>\n" ++ nodeLine ("", .element name children)) =
      some (.element name children) := by
  have hne : "\n" ≠ "" := by decide
  have hnewline : plainText "\n".toList = true := rfl
  have hwhite : "\n".toList.all isSpaceChar = true := rfl
  have hnormal : Normal true [.text "\n", .element name children, .text "\n"] := by
    cases h.normal with
    | element hname hchildren _ =>
        exact .text hne hnewline (.element hname hchildren (.text hne hnewline .nil))
  have htext : ("<?xml version=\"1.0\"?>\n" ++ nodeLine ("", .element name children)).toList =
      xmlDecl ++ printNodes [.text "\n", .element name children, .text "\n"] := by
    have hdecl : "<?xml version=\"1.0\"?>\n".toList = xmlDecl ++ ['\n'] := rfl
    rw [String.toList_append, hdecl, List.append_assoc]
    show xmlDecl ++ '\n' :: (nodeLine ("", .element name children)).toList = xmlDecl ++
      ("\n".toList ++ (printNode (.element name children) ++ ("\n".toList ++ [])))
    unfold nodeLine
    simp
  exact read_document hnormal hwhite hwhite htext

/-- The names in the tables are plain. -/
structure PlainTables (trt : List TrtObject) (art : List ArtObject) : Prop where
  trtSource : ∀ o ∈ trt, plainText o.sourceDevice.toList = true
  trtTarget : ∀ o ∈ trt, plainText o.targetDevice.toList = true
  artSource : ∀ o ∈ art, plainText o.sourceDevice.toList = true
  artTarget : ∀ o ∈ art, plainText o.targetDevice.toList = true

/-- The texts of a trip point are plain if the sensor and what is written about its objects are. -/
theorem plain_trips {α : Type} {table : List α} {members : α → List (String × String)}
    (hmembers : ∀ object ∈ table, ∀ m ∈ members object,
      isName m.1.toList = true ∧ plainText m.2.toList = true) {type sensor : String}
    (htype : plainText type.toList = true) (hsensor : plainText sensor.toList = true)
    (devices : List PlatformDevice) (objects : List Nat) :
    ∀ t ∈ tripTexts devices type objects
      ((objects.filterMap fun j => table[j]?).map members) sensor, PlainTrip t := by
  intro t ht
  unfold tripTexts at ht
  split at ht
  · cases ht
  · obtain rfl := List.mem_singleton.mp ht
    refine ⟨plain_subtitute devices hsensor .sensorDev, htype, fun written hwritten => ?_⟩
    obtain ⟨object, hobject, rfl⟩ := List.mem_map.mp hwritten
    obtain ⟨j, -, hj⟩ := List.mem_filterMap.mp hobject
    exact hmembers object (List.mem_of_getElem? hj)

theorem plain_trt_members {object : TrtObject} (h : plainText object.sourceDevice.toList = true)
    (devices : List PlatformDevice) : ∀ m ∈ trtMembers devices object,
      isName m.1.toList = true ∧ plainText m.2.toList = true := by
  have htype : isName "type".toList = true := rfl
  have hinfluence : isName "influence".toList = true := rfl
  have hperiod : isName "SamplingPeriod".toList = true := rfl
  intro m hm
  simp only [trtMembers, List.mem_cons, List.not_mem_nil, or_false] at hm
  rcases hm with rfl | rfl | rfl
  · exact ⟨htype, plain_subtitute devices h .targetDev⟩
  · exact ⟨hinfluence, plain_number _⟩
  · exact ⟨hperiod, plain_number _⟩

theorem plain_art_members {object : ArtObject} (h : plainText object.sourceDevice.toList = true)
    (devices : List PlatformDevice) : ∀ m ∈ artMembers devices object,
      isName m.1.toList = true ∧ plainText m.2.toList = true := by
  have htype : isName "type".toList = true := rfl
  have hinfluence : isName "influence".toList = true := rfl
  intro m hm
  simp only [artMembers, List.mem_cons, List.not_mem_nil, or_false] at hm
  rcases hm with rfl | rfl
  · exact ⟨htype, plain_subtitute devices h .targetDev⟩
  · exact ⟨hinfluence, plain_number _⟩

/-- The texts of the zones are plain if the names in the tables are. -/
theorem PlainTables.zones (h : PlainTables trt art) (devices : List PlatformDevice) :
    ∀ z ∈ zoneTexts devices trt art (parseTargetDevices trt art []), PlainZone z := by
  intro z hz
  obtain ⟨o, ho, rfl⟩ := List.mem_map.mp hz
  have ho := (List.mem_filter.mp ho).1
  have htarget : plainText o.targetDevice.toList = true := by
    have hmem : o.targetDevice ∈ targets trt art [] := by
      refine List.mem_eraseDups.mp ?_
      rw [← parse_target_devices_keys]
      exact List.mem_map_of_mem ho
    simp only [targets, List.map_nil, List.append_nil, List.mem_append, List.mem_map] at hmem
    rcases hmem with ⟨object, hobject, heq⟩ | ⟨object, hobject, heq⟩
    · rw [← heq]
      exact h.trtTarget object hobject
    · rw [← heq]
      exact h.artTarget object hobject
  have hsensor : plainText o.targetSensor.toList = true := by
    rwa [target_sensor_eq ho]
  have hpassive : plainText "passive".toList = true := rfl
  have hactive : plainText "active".toList = true := rfl
  refine ⟨plain_subtitute devices htarget .sourceDev, fun t ht => ?_⟩
  rcases List.mem_append.mp ht with ht | ht
  · refine plain_trips (fun object hobject => ?_) hpassive hsensor devices _ t ht
    exact plain_trt_members (h.trtSource object hobject) devices
  · refine plain_trips (fun object hobject => ?_) hactive hsensor devices _ t ht
    exact plain_art_members (h.artSource object hobject) devices

/-- A reader of XML gets the tree. -/
theorem read_generated (h : PlainTables trt art) {productName : Option String}
    (hproduct : ∀ line, productLine productName = some line → plainText line.toList = true)
    (devices : List PlatformDevice) :
    readDocument (generateConf devices trt art productName) =
      some (rootNode (productText productName)
        (zoneTexts devices trt art (parseTargetDevices trt art []))) := by
  have htext : plainText (productText productName).toList = true := by
    unfold productText
    split
    · rename_i line hline
      exact hproduct line hline
    · decide
  rw [generate_conf_eq]
  exact read_document_line (plain_root htext (h.zones devices))

end Plain

end Firmware

end Thermald
