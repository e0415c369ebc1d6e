import Thermald.Config.Siblings

/-!
# Texts that are missing

`xmlNodeListGetString` returns a null pointer for an element without a text. The handlers of the
parser check for that before they use the text, or look only at the name and the children, except
for one: `parse_new_zone` assigns the text of a `Type` to a string without a check.
`parse_defined_iff` says that there is no other place, in whatever tree.
-/

namespace Thermald

/-! ## The condition -/

/-- The children of the elements of a name. -/
def elementsNamed (key : String) (nodes : List XmlNode) : List (List XmlNode) :=
  nodes.filterMap fun
    | .element name children => if thdStrcasecmpN name key then some children else none
    | .text _ => none
    | .comment => none

/-- The types of this zone have texts. -/
def ZoneTypesHaveTexts (zone : List XmlNode) : Prop :=
  ∀ type ∈ elementsNamed "Type" zone, (xmlNodeListGetString type).isSome = true

/-- The types of the zones of this platform have texts. Zones without any text around them are not
read. -/
def PlatformTypesHaveTexts (platform : List XmlNode) : Prop :=
  ∀ zones ∈ elementsNamed "ThermalZones" platform, (xmlNodeListGetString zones).isSome = true →
    ∀ zone ∈ elementsNamed "ThermalZone" zones, ZoneTypesHaveTexts zone

/-- The types of all zones have texts. -/
def TypesHaveTexts (nodes : List XmlNode) : Prop :=
  ∀ configuration ∈ elementsNamed "ThermalConfiguration" nodes,
    ∀ platform ∈ elementsNamed "Platform" configuration, PlatformTypesHaveTexts platform

/-! ## Loops -/

section Loops

variable {σ : Type} {key : String} {read : List XmlNode → σ → Option σ}
  {ok : List XmlNode → Prop}

/-- What holds of the elements of a name, as a property of the nodes. -/
theorem forall_elements_named {nodes : List XmlNode} :
    (∀ children ∈ elementsNamed key nodes, ok children) ↔
      ∀ n ∈ nodes, ∀ name children, n = .element name children →
        thdStrcasecmpN name key = true → ok children := by
  unfold elementsNamed
  constructor
  · intro h n hn name children heq hname
    subst heq
    refine h children (List.mem_filterMap.mpr ⟨_, hn, ?_⟩)
    exact if_pos hname
  · intro h children hmem
    obtain ⟨n, hn, hsome⟩ := List.mem_filterMap.mp hmem
    cases n with
    | text content => cases hsome
    | comment => cases hsome
    | element name cs =>
        dsimp only at hsome
        split at hsome
        · rename_i hname
          cases hsome
          exact h _ hn name children rfl hname
        · cases hsome

/-- A loop over nodes has a result exactly if its body has one at the elements of a name, and never
fails at other nodes. -/
theorem node_loop_succeeds {step : σ → XmlNode → Option σ}
    (htext : ∀ s content, step s (.text content) = some s)
    (hcomment : ∀ s, step s .comment = some s)
    (h : ∀ name children s, (step s (.element name children)).isSome = true ↔
      (thdStrcasecmpN name key = true → ok children)) (nodes : List XmlNode) :
    SucceedsIff (fun s => nodes.foldlM step s)
      (∀ children ∈ elementsNamed key nodes, ok children) := by
  suffices hstep : ∀ n, SucceedsIff (fun s => step s n) (∀ name children,
      n = .element name children → thdStrcasecmpN name key = true → ok children) by
    exact (SucceedsIff.foldlM hstep nodes).congr forall_elements_named.symm
  intro n
  cases n with
  | text content =>
      refine .total (fun s => ?_) fun _ _ heq => by cases heq
      rw [htext]
      rfl
  | comment =>
      refine .total (fun s => ?_) fun _ _ heq => by cases heq
      rw [hcomment]
      rfl
  | element name children =>
      intro s
      refine (h name children s).trans ⟨fun hok name' children' heq => ?_, fun hall => ?_⟩
      · cases heq
        exact hok
      · exact hall name children rfl

/-- A handler that looks for elements of one name has a result if it has one for each of them. -/
theorem read_each_succeeds (h : ∀ children, SucceedsIff (read children) (ok children))
    (nodes : List XmlNode) :
    SucceedsIff (readEach key read nodes) (∀ children ∈ elementsNamed key nodes, ok children) := by
  refine node_loop_succeeds (fun _ _ => rfl) (fun _ => rfl) (fun name children s => ?_) nodes
  show (if thdStrcasecmpN name key then read children s else some s).isSome = true ↔ _
  split
  · rename_i hname
    exact (h children s).trans ⟨fun hok _ => hok, fun hall => hall hname⟩
  · rename_i hname
    exact iff_of_true rfl fun hname' => absurd hname' hname

/-- The same for a handler that fills one record for all elements. -/
theorem read_records_succeeds {reset : σ → σ}
    (h : ∀ children, SucceedsIff (read children) (ok children)) (nodes : List XmlNode) :
    SucceedsIff (readRecords key reset read nodes)
      (∀ children ∈ elementsNamed key nodes, ok children) := by
  refine read_each_succeeds (fun children => ?_) nodes
  exact (h children).inside (fun s => reset s.1) fun s => is_some_bind_some ..

end Loops

/-! ## Handlers -/

/-- A trip point is read whatever it holds. -/
theorem parse_trip_points_total (nodes : List XmlNode) (zone : ThermalZoneConf) :
    (parseTripPoints nodes zone).isSome = true := by
  refine read_each_total (fun children zone => ?_) nodes zone
  rw [← parse_new_trip_point_total children newTripPoint]
  exact is_some_bind_some ..

/-- `parse_new_zone` needs the texts of the types. -/
theorem parse_new_zone_succeeds (nodes : List XmlNode) :
    SucceedsIff (parseNewZone nodes) (ZoneTypesHaveTexts nodes) := by
  refine node_loop_succeeds (fun _ _ => rfl) (fun _ => rfl) (fun name children zone => ?_) nodes
  unfold readZone
  dsimp only
  split
  · -- no name is taken for both
    rename_i htrips
    refine iff_of_true (parse_trip_points_total children zone) fun htype => ?_
    have hboth : foldCase "TripPoints" = foldCase "Type" :=
      (of_decide_eq_true htrips).symm.trans (of_decide_eq_true htype)
    exact absurd hboth (by decide)
  · split
    · rename_i htype
      rw [Option.isSome_map]
      exact ⟨fun htext _ => htext, fun hall => hall htype⟩
    · rename_i htype
      exact iff_of_true rfl fun htype' => absurd htype' htype

/-- `parse_thermal_zones` needs them in each zone. -/
theorem parse_thermal_zones_succeeds (nodes : List XmlNode) :
    SucceedsIff (parseThermalZones nodes)
      (∀ zone ∈ elementsNamed "ThermalZone" nodes, ZoneTypesHaveTexts zone) := by
  have hrecords : SucceedsIff (readThermalZones nodes)
      (∀ zone ∈ elementsNamed "ThermalZone" nodes, ZoneTypesHaveTexts zone) :=
    read_records_succeeds parse_new_zone_succeeds nodes
  exact hrecords.inside (fun info => (firstZone, info.zones)) fun info => is_some_bind_some ..

/-- The other handlers that `parse_new_platform_info` calls cannot fail. -/
theorem platform_entry_total {e : String × Entry ThermalInfo} (he : e ∈ platformTable)
    (hne : e.1 ≠ "ThermalZones") (text : String) (children : List XmlNode) (info : ThermalInfo) :
    (e.2.apply text children info).isSome = true := by
  obtain ⟨sensors, hsensors⟩ := parse_thermal_sensors_appends children
  obtain ⟨cdevs, hcdevs⟩ := parse_cooling_devs_appends children
  revert e
  simp [platformTable, Entry.apply, hsensors, hcdevs, is_some_bind_some, parse_ppcc_total]

/-- The loop body of `parse_new_platform_info` needs the texts of the types of the zones that it
reads. -/
theorem read_platform_element_succeeds (name : String) (children : List XmlNode)
    (info : ThermalInfo) :
    (readElement platformTable info (.element name children)).isSome = true ↔
      (thdStrcasecmpN name "ThermalZones" = true → (xmlNodeListGetString children).isSome = true →
        ∀ zone ∈ elementsNamed "ThermalZone" children, ZoneTypesHaveTexts zone) := by
  cases htext : xmlNodeListGetString children with
  | none =>
      have hstep : readElement platformTable info (.element name children) = some info := by
        simp only [readElement, htext]
      rw [hstep]
      exact iff_of_true rfl fun _ hsome => absurd hsome Bool.false_ne_true
  | some text =>
      by_cases hzones : thdStrcasecmpN name "ThermalZones" = true
      · have hentry : lookUp platformTable name = some (.group parseThermalZones) := by
          have hfold : foldCase name = foldCase "ThermalZones" := of_decide_eq_true hzones
          simp only [lookUp, thdStrcasecmpN, hfold]
          rfl
        have hstep : readElement platformTable info (.element name children) =
            parseThermalZones children info := by
          simp only [readElement, htext, hentry]
        rw [hstep, parse_thermal_zones_succeeds children info]
        exact ⟨fun hall _ _ => hall, fun hall => hall hzones rfl⟩
      · refine iff_of_true ?_ fun hzones' => absurd hzones' hzones
        cases hfind : platformTable.find? fun e => thdStrcasecmpN name e.1 with
        | none => simp [readElement, htext, lookUp, hfind]
        | some e =>
            have hne : e.1 ≠ "ThermalZones" := by
              intro heq
              have hname := List.find?_some hfind
              rw [heq] at hname
              exact hzones hname
            have happly := platform_entry_total (List.mem_of_find?_eq_some hfind) hne text
              children info
            obtain ⟨key, entry⟩ := e
            cases entry with
            | value read => simp [readElement, htext, lookUp, hfind]
            | group read => simpa [readElement, htext, lookUp, hfind, Entry.apply] using happly

/-- `parse_new_platform_info` needs the texts of the types of all zones that it reads. -/
theorem parse_new_platform_info_succeeds (nodes : List XmlNode) :
    SucceedsIff (parseNewPlatformInfo nodes) (PlatformTypesHaveTexts nodes) := by
  have helements : SucceedsIff (readElements platformTable nodes) (PlatformTypesHaveTexts nodes) :=
    node_loop_succeeds (fun _ _ => rfl) (fun _ => rfl) read_platform_element_succeeds nodes
  exact helements.inside (fun info =>
    { info with defaultPreference := .energyConserve, pollingInterval := 0 }) fun _ => rfl

/-- The parser reads a tree to its end, without a null pointer for a text that is missing, exactly
if the types of all zones that it reads have texts. -/
theorem parse_defined_iff (nodes : List XmlNode) :
    (parse nodes).isSome = true ↔ TypesHaveTexts nodes := by
  have hplatforms (children : List XmlNode) : SucceedsIff (parseNewPlatform children)
      (∀ platform ∈ elementsNamed "Platform" children, PlatformTypesHaveTexts platform) := by
    have hrecords : SucceedsIff (readPlatforms children)
        (∀ platform ∈ elementsNamed "Platform" children, PlatformTypesHaveTexts platform) :=
      read_records_succeeds parse_new_platform_info_succeeds children
    exact hrecords.inside (fun list => (firstPlatform, list)) fun list => is_some_bind_some ..
  exact read_each_succeeds hplatforms nodes []

/-- A configuration whose only zone has an empty `Type`. -/
def untypedZone : List XmlNode := [
  .element "ThermalConfiguration" [.element "Platform" [.element "ThermalZones" [
    .text "\n", .element "ThermalZone" [.element "Type" []]]]]]

/-- Its type is assigned from a null pointer. -/
theorem untyped_zone_undefined : ¬ (parse untypedZone).isSome = true := by
  decide +kernel

end Thermald
