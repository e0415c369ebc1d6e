import Thermald.Config.Parse

/-!
# White space between elements

`Reindented` relates two trees that differ only in texts of white space beside elements. The parser
looks at an element in one of three ways: it takes the text of it, it reads its children, or it
reads its children if there is some text. In the last case the text is the white space between the
children, and a document without indentation is read differently. `DocumentFits` says that the two
trees show the parser the same wherever it looks for a text, and `parse_reindented` that it then
reads the same.
-/

namespace Thermald

/-! ## Trees that differ in white space -/

/-- The elements among some nodes, with their names and children. -/
def elementsOf : List XmlNode → List (String × List XmlNode)
  | [] => []
  | .element name children :: rest => (name, children) :: elementsOf rest
  | .text _ :: rest => elementsOf rest
  | .comment :: rest => elementsOf rest

/-- A text of white space. -/
def isWhite (content : String) : Bool := content.toList.all isSpaceChar

/-- The nodes differ in texts of white space only, here and between the children of elements that
have elements among their children. -/
inductive Reindented : List XmlNode → List XmlNode → Prop where
  | nil : Reindented [] []
  | node {as bs : List XmlNode} (n : XmlNode) (h : Reindented as bs) :
      Reindented (n :: as) (n :: bs)
  | inside {as bs cs ds : List XmlNode} (name : String) (hchild : elementsOf cs ≠ [])
      (hinside : Reindented cs ds) (h : Reindented as bs) :
      Reindented (.element name cs :: as) (.element name ds :: bs)
  | left {as bs : List XmlNode} {content : String} (hwhite : isWhite content = true)
      (h : Reindented as bs) : Reindented (.text content :: as) bs
  | right {as bs : List XmlNode} {content : String} (hwhite : isWhite content = true)
      (h : Reindented as bs) : Reindented as (.text content :: bs)

theorem Reindented.refl (as : List XmlNode) : Reindented as as := by
  induction as with
  | nil => exact .nil
  | cons n rest ih => exact .node n ih

/-! ## Loops -/

section Loops

variable {σ : Type}

/-- Elements that correspond to each other are alike in the eyes of a handler. -/
def ElementsFit (alike : String → List XmlNode → List XmlNode → Prop) (as bs : List XmlNode) :
    Prop :=
  ∀ p ∈ (elementsOf as).zip (elementsOf bs), alike p.1.1 p.1.2 p.2.2

/-- A loop that looks at elements only does the same with the nodes of two trees if it does the same
with elements that correspond to each other. -/
theorem foldlM_reindented {step : σ → XmlNode → Option σ}
    {alike : String → List XmlNode → List XmlNode → Prop}
    (htext : ∀ s content, step s (.text content) = some s)
    (hstep : ∀ name cs ds s, Reindented cs ds → alike name cs ds →
      step s (.element name cs) = step s (.element name ds))
    {as bs : List XmlNode} (h : Reindented as bs) (hfits : ElementsFit alike as bs) (s : σ) :
    as.foldlM step s = bs.foldlM step s := by
  -- the children of an element are left to `hstep`, so only the nodes themselves are followed
  induction h generalizing s with
  | nil => rfl
  | @node as bs n h ih =>
      have htail : ElementsFit alike as bs := by
        intro p hp
        cases n with
        | text content => exact hfits p hp
        | comment => exact hfits p hp
        | element name children => exact hfits p (.tail _ hp)
      rw [List.foldlM_cons, List.foldlM_cons]
      congr 1
      funext s'
      exact ih htail s'
  | @inside as bs cs ds name hchild hinside h ihinside ih =>
      have hhead := hfits ((name, cs), (name, ds)) (.head _)
      rw [List.foldlM_cons, List.foldlM_cons, hstep name cs ds s hinside hhead]
      congr 1
      funext s'
      exact ih (fun p hp => hfits p (.tail _ hp)) s'
  | left hwhite h ih =>
      rw [List.foldlM_cons, htext]
      exact ih hfits s
  | right hwhite h ih =>
      rw [List.foldlM_cons, htext]
      exact ih hfits s

/-- What a handler with a table sees of an element: the value that it takes from the text, or
whether there is a text, and then what the handler of the group sees. -/
def tableAlike (table : List (String × Entry σ))
    (inner : String → List XmlNode → List XmlNode → Prop) (name : String)
    (cs ds : List XmlNode) : Prop :=
  match table.find? fun e => thdStrcasecmpN name e.1 with
  | none => True
  | some (_, .value read) =>
      (xmlNodeListGetString cs).map read = (xmlNodeListGetString ds).map read
  | some (key, .group _) =>
      (xmlNodeListGetString cs).isSome = (xmlNodeListGetString ds).isSome ∧
        ((xmlNodeListGetString cs).isSome = true → inner key cs ds)

theorem read_elements_reindented {table : List (String × Entry σ)}
    {inner : String → List XmlNode → List XmlNode → Prop}
    (hgroup : ∀ key read, (key, Entry.group read) ∈ table → ∀ cs ds s, Reindented cs ds →
      inner key cs ds → read cs s = read ds s)
    {as bs : List XmlNode} (h : Reindented as bs)
    (hfits : ElementsFit (tableAlike table inner) as bs) (s : σ) :
    readElements table as s = readElements table bs s := by
  refine foldlM_reindented (fun _ _ => rfl) (fun name cs ds s hinside halike => ?_) h hfits s
  unfold tableAlike at halike
  unfold readElement lookUp
  dsimp only
  cases hfind : table.find? fun e => thdStrcasecmpN name e.1 with
  | none =>
      cases xmlNodeListGetString cs <;> cases xmlNodeListGetString ds <;> rfl
  | some e =>
      obtain ⟨key, entry⟩ := e
      rw [hfind] at halike
      cases entry with
      | value read =>
          dsimp only at halike
          cases hcs : xmlNodeListGetString cs with
          | none =>
              rw [hcs] at halike
              rw [Option.map_eq_none_iff.mp halike.symm]
          | some text =>
              rw [hcs] at halike
              obtain ⟨text', hds, hread⟩ := Option.map_eq_some_iff.mp halike.symm
              rw [hds]
              exact congrArg (fun f => some (f s)) hread.symm
      | group read =>
          obtain ⟨hsome, hinner⟩ := halike
          cases hcs : xmlNodeListGetString cs with
          | none =>
              -- both trees skip the group, whatever is in it
              rw [hcs] at hsome
              have hds : xmlNodeListGetString ds = none := by simpa using hsome.symm
              rw [hds]
          | some text =>
              rw [hcs] at hsome hinner
              obtain ⟨text', hds⟩ := Option.isSome_iff_exists.mp hsome.symm
              rw [hds]
              exact hgroup key read (List.mem_of_find?_eq_some hfind) cs ds s hinside (hinner rfl)

/-- What a handler that looks for elements of one name sees of an element. -/
def namedAlike (key : String) (inner : List XmlNode → List XmlNode → Prop) (name : String)
    (cs ds : List XmlNode) : Prop :=
  thdStrcasecmpN name key = true → inner cs ds

theorem read_each_reindented {key : String} {read : List XmlNode → σ → Option σ}
    {inner : List XmlNode → List XmlNode → Prop}
    (hread : ∀ cs ds s, Reindented cs ds → inner cs ds → read cs s = read ds s)
    {as bs : List XmlNode} (h : Reindented as bs) (hfits : ElementsFit (namedAlike key inner) as bs)
    (s : σ) : readEach key read as s = readEach key read bs s := by
  refine foldlM_reindented (fun _ _ => rfl) (fun name cs ds s hinside halike => ?_) h hfits s
  show (if thdStrcasecmpN name key then read cs s else some s) =
    if thdStrcasecmpN name key then read ds s else some s
  split
  · rename_i hname
    exact hread cs ds s hinside (halike hname)
  · rfl

theorem read_records_reindented {key : String} {reset : σ → σ}
    {read : List XmlNode → σ → Option σ} {inner : List XmlNode → List XmlNode → Prop}
    (hread : ∀ cs ds s, Reindented cs ds → inner cs ds → read cs s = read ds s)
    {as bs : List XmlNode} (h : Reindented as bs) (hfits : ElementsFit (namedAlike key inner) as bs)
    (s : σ × List σ) : readRecords key reset read as s = readRecords key reset read bs s := by
  refine read_each_reindented (fun cs ds s hinside hinner => ?_) h hfits s
  rw [hread cs ds (reset s.1) hinside hinner]

end Loops

/-! ## Handlers -/

/-- Nothing, for handlers that have no groups. -/
def noGroup (_ : String) (_ _ : List XmlNode) : Prop := True

/-- What `parse_pid_values` sees. -/
def PidFits : List XmlNode → List XmlNode → Prop := ElementsFit (tableAlike pidTable noGroup)

theorem parse_pid_values_reindented {as bs : List XmlNode} (h : Reindented as bs)
    (hfits : PidFits as bs) : parsePidValues as = parsePidValues bs := by
  refine read_elements_reindented ?_ h hfits _
  intro key read hmem
  simp [pidTable] at hmem

/-- What `parse_new_trip_cdev` sees. -/
def TripCdevFits : List XmlNode → List XmlNode → Prop :=
  ElementsFit (tableAlike tripCdevTable fun _ => PidFits)

theorem parse_new_trip_cdev_reindented {as bs : List XmlNode} (h : Reindented as bs)
    (hfits : TripCdevFits as bs) (b : TripCdevConf) :
    parseNewTripCdev as b = parseNewTripCdev bs b := by
  refine read_elements_reindented ?_ h hfits b
  intro key read hmem cs ds b hinside hinner
  simp only [tripCdevTable, List.mem_cons, Prod.mk.injEq, reduceCtorEq, and_false, false_or,
    List.not_mem_nil, or_false, Entry.group.injEq] at hmem
  obtain ⟨rfl, rfl⟩ := hmem
  dsimp only
  rw [parse_pid_values_reindented hinside hinner]

/-- What `parse_dependency_values` sees of an element: the text for two names, and for all others
whether there is one. -/
def dependencyAlike (name : String) (cs ds : List XmlNode) : Prop :=
  if thdStrcasecmpN name "CoolingDeviceType" || thdStrcasecmpN name "CoolingDeviceState" then
    (xmlNodeListGetString cs).map charTrim = (xmlNodeListGetString ds).map charTrim
  else (xmlNodeListGetString cs).isSome = (xmlNodeListGetString ds).isSome

/-- What `parse_dependency_values` sees. -/
def DependencyFits : List XmlNode → List XmlNode → Prop := ElementsFit dependencyAlike

theorem read_dependency_alike {name : String} {cs ds : List XmlNode}
    (h : dependencyAlike name cs ds) (d : TripDependConf) :
    readDependency d (.element name cs) = readDependency d (.element name ds) := by
  unfold dependencyAlike at h
  unfold readDependency
  dsimp only
  cases hcs : xmlNodeListGetString cs with
  | none =>
      have hds : xmlNodeListGetString ds = none := by
        rw [hcs] at h
        split at h
        · exact Option.map_eq_none_iff.mp h.symm
        · simpa using h.symm
      rw [hds]
  | some text =>
      rw [hcs] at h
      split at h
      · obtain ⟨text', hds, htrim⟩ := Option.map_eq_some_iff.mp h.symm
        rw [hds]
        dsimp only
        rw [htrim]
      · rename_i hname
        obtain ⟨text', hds⟩ := Option.isSome_iff_exists.mp h.symm
        -- of an element with another name only the presence of a text counts
        have hother : thdStrcasecmpN name "CoolingDeviceType" = false ∧
            thdStrcasecmpN name "CoolingDeviceState" = false := by
          simpa using hname
        rw [hds, hother.1, hother.2]
        rfl

theorem parse_dependency_values_reindented {as bs : List XmlNode} (h : Reindented as bs)
    (hfits : DependencyFits as bs) (d : TripDependConf) :
    parseDependencyValues as d = parseDependencyValues bs d := by
  have hpure (nodes : List XmlNode) :
      nodes.foldlM (fun d n => some (readDependency d n)) d =
        some (parseDependencyValues nodes d) :=
    List.foldlM_pure
  refine Option.some.inj ?_
  rw [← hpure, ← hpure]
  refine foldlM_reindented (fun _ _ => rfl) (fun name cs ds d _ halike => ?_) h hfits d
  exact congrArg some (read_dependency_alike halike d)

/-- What `parse_new_trip_point` sees. -/
def TripPointFits : List XmlNode → List XmlNode → Prop :=
  ElementsFit (tableAlike tripPointTable fun key =>
    if key = "CoolingDevice" then TripCdevFits else DependencyFits)

theorem parse_new_trip_point_reindented {as bs : List XmlNode} (h : Reindented as bs)
    (hfits : TripPointFits as bs) (t : TripPointConf) :
    parseNewTripPoint as t = parseNewTripPoint bs t := by
  refine read_elements_reindented ?_ h hfits _
  intro key read hmem cs ds t hinside hinner
  simp only [tripPointTable, List.mem_cons, Prod.mk.injEq, reduceCtorEq, and_false, false_or,
    List.not_mem_nil, or_false, Entry.group.injEq] at hmem
  obtain ⟨rfl, rfl⟩ | ⟨rfl, rfl⟩ := hmem
  · dsimp only
    rw [parse_new_trip_cdev_reindented hinside hinner]
  · dsimp only
    rw [parse_dependency_values_reindented hinside hinner]

/-- What `parse_trip_points` sees. -/
def TripPointsFits : List XmlNode → List XmlNode → Prop :=
  ElementsFit (namedAlike "TripPoint" TripPointFits)

theorem parse_trip_points_reindented {as bs : List XmlNode} (h : Reindented as bs)
    (hfits : TripPointsFits as bs) (zone : ThermalZoneConf) :
    parseTripPoints as zone = parseTripPoints bs zone := by
  refine read_each_reindented (fun cs ds zone hinside hinner => ?_) h hfits zone
  rw [parse_new_trip_point_reindented hinside hinner]

/-- What `parse_new_zone` sees of an element. -/
def zoneAlike (name : String) (cs ds : List XmlNode) : Prop :=
  if thdStrcasecmpN name "TripPoints" then TripPointsFits cs ds
  else thdStrcasecmpN name "Type" = true →
    (xmlNodeListGetString cs).map stringTrim = (xmlNodeListGetString ds).map stringTrim

/-- What `parse_new_zone` sees. -/
def ZoneFits : List XmlNode → List XmlNode → Prop := ElementsFit zoneAlike

theorem parse_new_zone_reindented {as bs : List XmlNode} (h : Reindented as bs)
    (hfits : ZoneFits as bs) (zone : ThermalZoneConf) :
    parseNewZone as zone = parseNewZone bs zone := by
  refine foldlM_reindented (fun _ _ => rfl) (fun name cs ds zone hinside halike => ?_) h hfits zone
  unfold zoneAlike at halike
  unfold readZone
  dsimp only
  split
  · rename_i hname
    rw [if_pos hname] at halike
    exact parse_trip_points_reindented hinside halike zone
  · rename_i hname
    rw [if_neg hname] at halike
    split
    · rename_i htype
      have hmap (text : Option String) : (text.map fun t => { zone with type := stringTrim t }) =
          (text.map stringTrim).map fun t => { zone with type := t } := by
        rw [Option.map_map]
        rfl
      rw [hmap, hmap, halike htype]
    · rfl

/-- What `parse_thermal_zones` sees. -/
def ZonesFits : List XmlNode → List XmlNode → Prop :=
  ElementsFit (namedAlike "ThermalZone" ZoneFits)

theorem parse_thermal_zones_reindented {as bs : List XmlNode} (h : Reindented as bs)
    (hfits : ZonesFits as bs) (info : ThermalInfo) :
    parseThermalZones as info = parseThermalZones bs info := by
  have hread : readThermalZones as (firstZone, info.zones) =
      readThermalZones bs (firstZone, info.zones) :=
    read_records_reindented (fun _ _ zone hinside hinner =>
      parse_new_zone_reindented hinside hinner zone) h hfits _
  unfold parseThermalZones
  rw [hread]

/-- What `parse_new_cooling_dev` sees. -/
def CoolingDevFits : List XmlNode → List XmlNode → Prop :=
  ElementsFit (tableAlike coolingDevTable fun _ => PidFits)

theorem parse_new_cooling_dev_reindented {as bs : List XmlNode} (h : Reindented as bs)
    (hfits : CoolingDevFits as bs) (cdev : CoolingDevConf) :
    parseNewCoolingDev as cdev = parseNewCoolingDev bs cdev := by
  refine read_elements_reindented ?_ h hfits _
  intro key read hmem cs ds cdev hinside hinner
  simp only [coolingDevTable, List.mem_cons, Prod.mk.injEq, reduceCtorEq, and_false, false_or,
    List.not_mem_nil, or_false, Entry.group.injEq] at hmem
  obtain ⟨rfl, rfl⟩ := hmem
  dsimp only
  rw [parse_pid_values_reindented hinside hinner]

/-- What `parse_cooling_devs` sees. -/
def CoolingDevsFits : List XmlNode → List XmlNode → Prop :=
  ElementsFit (namedAlike "CoolingDevice" CoolingDevFits)

theorem parse_cooling_devs_reindented {as bs : List XmlNode} (h : Reindented as bs)
    (hfits : CoolingDevsFits as bs) (info : ThermalInfo) :
    parseCoolingDevs as info = parseCoolingDevs bs info := by
  have hread : readCoolingDevs as (firstCoolingDev, info.coolingDevs) =
      readCoolingDevs bs (firstCoolingDev, info.coolingDevs) :=
    read_records_reindented (fun _ _ cdev hinside hinner =>
      parse_new_cooling_dev_reindented hinside hinner cdev) h hfits _
  unfold parseCoolingDevs
  rw [hread]

/-- What `parse_new_sensor` sees. -/
def SensorFits : List XmlNode → List XmlNode → Prop :=
  ElementsFit (tableAlike sensorTable fun key =>
    if key = "SensorLink" then ElementsFit (tableAlike sensorLinkTable noGroup)
    else if key = "LinkSensor" then ElementsFit (tableAlike sensorTargetTable noGroup)
    else ElementsFit (tableAlike sensorPollingTable noGroup))

theorem parse_new_sensor_reindented {as bs : List XmlNode} (h : Reindented as bs)
    (hfits : SensorFits as bs) (sensor : ThermalSensorConf) :
    parseNewSensor as sensor = parseNewSensor bs sensor := by
  refine read_elements_reindented ?_ h hfits _
  intro key read hmem cs ds sensor hinside hinner
  simp only [sensorTable, List.mem_cons, Prod.mk.injEq, reduceCtorEq, and_false, false_or,
    List.not_mem_nil, or_false, Entry.group.injEq] at hmem
  obtain ⟨rfl, rfl⟩ | ⟨rfl, rfl⟩ | ⟨rfl, rfl⟩ := hmem
  · have hlink :
        parseNewSensorLink cs sensor.sensorLink = parseNewSensorLink ds sensor.sensorLink :=
      read_elements_reindented (by simp [sensorLinkTable]) hinside hinner _
    dsimp only
    rw [hlink]
  · have htarget : parseNewVirtualSensorTarget cs = parseNewVirtualSensorTarget ds :=
      read_elements_reindented (by simp [sensorTargetTable]) hinside hinner _
    dsimp only
    rw [htarget]
  · have hpolling : parseNewVirtualSensorPolling cs = parseNewVirtualSensorPolling ds :=
      read_elements_reindented (by simp [sensorPollingTable]) hinside hinner _
    dsimp only
    rw [hpolling]

/-- What `parse_thermal_sensors` sees. -/
def SensorsFits : List XmlNode → List XmlNode → Prop :=
  ElementsFit (namedAlike "ThermalSensor" SensorFits)

theorem parse_thermal_sensors_reindented {as bs : List XmlNode} (h : Reindented as bs)
    (hfits : SensorsFits as bs) (info : ThermalInfo) :
    parseThermalSensors as info = parseThermalSensors bs info := by
  have hread : readThermalSensors as (firstSensor, info.sensors) =
      readThermalSensors bs (firstSensor, info.sensors) :=
    read_records_reindented (fun _ _ sensor hinside hinner =>
      parse_new_sensor_reindented hinside hinner sensor) h hfits _
  unfold parseThermalSensors
  rw [hread]

/-- What `parse_ppcc` sees. -/
def PpccFits : List XmlNode → List XmlNode → Prop := ElementsFit (tableAlike ppccTable noGroup)

/-- What `parse_new_platform_info` sees. -/
def PlatformFits : List XmlNode → List XmlNode → Prop :=
  ElementsFit (tableAlike platformTable fun key =>
    if key = "ThermalZones" then ZonesFits
    else if key = "ThermalSensors" then SensorsFits
    else if key = "CoolingDevices" then CoolingDevsFits
    else PpccFits)

theorem parse_new_platform_info_reindented {as bs : List XmlNode} (h : Reindented as bs)
    (hfits : PlatformFits as bs) (info : ThermalInfo) :
    parseNewPlatformInfo as info = parseNewPlatformInfo bs info := by
  refine read_elements_reindented ?_ h hfits _
  intro key read hmem cs ds info hinside hinner
  simp only [platformTable, List.mem_cons, Prod.mk.injEq, reduceCtorEq, and_false, false_or,
    List.not_mem_nil, or_false, Entry.group.injEq] at hmem
  obtain ⟨rfl, rfl⟩ | ⟨rfl, rfl⟩ | ⟨rfl, rfl⟩ | ⟨rfl, rfl⟩ := hmem
  · exact parse_thermal_zones_reindented hinside hinner info
  · exact parse_thermal_sensors_reindented hinside hinner info
  · exact parse_cooling_devs_reindented hinside hinner info
  · have hppcc : parsePpcc cs info.ppcc = parsePpcc ds info.ppcc :=
      read_elements_reindented (by simp [ppccTable]) hinside hinner _
    dsimp only
    rw [hppcc]

/-! ## Documents -/

/-- The two trees show the parser the same wherever it looks for a text: elements from which it
takes a value have the same value, and groups that it reads only if there is a text have one in both
trees or in none. -/
def DocumentFits : List XmlNode → List XmlNode → Prop :=
  ElementsFit (namedAlike "ThermalConfiguration" (ElementsFit (namedAlike "Platform" PlatformFits)))

/-- Trees that differ only in white space between elements are read alike if they show the parser
the same wherever it looks for a text. -/
theorem parse_reindented {as bs : List XmlNode} (h : Reindented as bs)
    (hfits : DocumentFits as bs) : parse as = parse bs := by
  refine read_each_reindented (fun cs ds list hinside hinner => ?_) h hfits []
  have hread : readPlatforms cs (firstPlatform, list) = readPlatforms ds (firstPlatform, list) :=
    read_records_reindented (fun _ _ info hinside hinner =>
      parse_new_platform_info_reindented hinside hinner info) hinside hinner _
  unfold parseNewPlatform
  rw [hread]

/-- A document with one zone, with these nodes around the platform and around the zone. -/
def zoneDocument (outer inner : List XmlNode) : List XmlNode :=
  [.element "ThermalConfiguration"
    (outer ++ [.element "Platform"
      [.element "ThermalZones"
        (inner ++ [.element "ThermalZone" [.element "Type" [.text "cpu"]]])]])]

/-- Nodes with one element each. -/
theorem fits_of_element {alike : String → List XmlNode → List XmlNode → Prop}
    {as bs cs ds : List XmlNode} {name : String} (has : elementsOf as = [(name, cs)])
    (hbs : elementsOf bs = [(name, ds)]) (h : alike name cs ds) : ElementsFit alike as bs := by
  intro p hp
  rw [has, hbs] at hp
  obtain rfl := List.mem_singleton.mp hp
  exact h

/-- The newline before the platform may go, and the one before the zone may become a tab. -/
theorem tab_before_zone :
    parse (zoneDocument [.text "\n"] [.text "\n"]) = parse (zoneDocument [] [.text "\t"]) := by
  apply parse_reindented
  · refine .inside _ (by simp [elementsOf]) ?_ .nil
    refine .left rfl (.inside _ (by simp [elementsOf]) ?_ .nil)
    refine .inside _ (by simp [elementsOf]) ?_ .nil
    exact .left rfl (.right rfl (.refl _))
  · -- one element at each level; the text of `ThermalZones` is there in both trees
    have hgroup : (platformTable.find? fun e => thdStrcasecmpN "ThermalZones" e.1) =
        some ("ThermalZones", .group parseThermalZones) := rfl
    refine fits_of_element rfl rfl fun _ => ?_
    refine fits_of_element rfl rfl fun _ => ?_
    refine fits_of_element rfl rfl ?_
    unfold tableAlike
    rw [hgroup]
    refine ⟨rfl, fun _ => ?_⟩
    refine fits_of_element rfl rfl fun _ => ?_
    exact fits_of_element rfl rfl fun _ => rfl

/-- Without the newline before the zone it is not read. -/
theorem zone_without_newline :
    Reindented (zoneDocument [] [.text "\n"]) (zoneDocument [] []) ∧
      parse (zoneDocument [] [.text "\n"]) ≠ parse (zoneDocument [] []) := by
  constructor
  · refine .inside _ (by simp [elementsOf]) ?_ .nil
    refine .inside _ (by simp [elementsOf]) ?_ .nil
    refine .inside _ (by simp [elementsOf]) ?_ .nil
    exact .left rfl (.refl _)
  · intro heq
    have hzones := congrArg (Option.map (List.map fun info => info.zones.length)) heq
    exact absurd hzones (by decide)

end Thermald
