import Thermald.Config.Realised
import Thermald.Config.Siblings

/-!
# What a configuration can ask for

The parser knows five types of trip points, and none of them is the type of the polling trips that
zones make for themselves. So a zone of a configuration that was parsed is usable exactly if each of
its trip points has a temperature and a sensor (`parsed_usable_iff`).
-/

namespace Thermald

/-! ## Loops -/

section Loops

variable {σ : Type} {P : σ → Prop}

theorem read_elements_preserves {table : List (String × Entry σ)}
    (h : ∀ e ∈ table, ∀ text children, Preserves P fun s => e.2.apply text children s)
    (nodes : List XmlNode) : Preserves P (readElements table nodes) := by
  refine Preserves.foldlM (fun n => ?_) nodes
  obtain ⟨hskip, -⟩ | ⟨e, he, text, children, hstep, -⟩ := read_element_cases table n
  · intro s t hs ht
    cases (hskip s).symm.trans ht
    exact hs
  · simp only [hstep]
    exact h e he text children

theorem read_each_preserves {key : String} {read : List XmlNode → σ → Option σ}
    (h : ∀ children, Preserves P (read children)) (nodes : List XmlNode) :
    Preserves P (readEach key read nodes) := by
  refine Preserves.foldlM (fun n => ?_) nodes
  intro s t hs ht
  cases n with
  | text content =>
      cases ht
      exact hs
  | comment =>
      cases ht
      exact hs
  | element name children =>
      unfold readNamed at ht
      dsimp only at ht
      split at ht
      · exact h children s t hs ht
      · cases ht
        exact hs

/-- If the handler of an element keeps the property from the record that is reset, all entries have
it. -/
theorem read_records_preserves {key : String} {reset : σ → σ} {read : List XmlNode → σ → Option σ}
    (hreset : ∀ s, P s → P (reset s)) (h : ∀ children, Preserves P (read children))
    (nodes : List XmlNode) :
    Preserves (fun s => P s.1 ∧ ∀ entry ∈ s.2, P entry) (readRecords key reset read nodes) := by
  refine read_each_preserves (fun children => ?_) nodes
  intro s t hs ht
  obtain ⟨record, hread, heq⟩ := Option.bind_eq_some_iff.mp ht
  cases heq
  have hrecord := h children (reset s.1) record (hreset s.1 hs.1) hread
  refine ⟨hrecord, fun entry hentry => ?_⟩
  obtain hentry | hentry := List.mem_append.mp hentry
  · exact hs.2 entry hentry
  · rw [List.mem_singleton.mp hentry]
    exact hrecord

end Loops

/-! ## Trip points -/

/-- No trip point of the zone is of the type of polling trips. -/
def ThermalZoneConf.NoPolling (zone : ThermalZoneConf) : Prop :=
  ∀ c ∈ zone.tripPts, c.tripPtType ≠ .polling

theorem parse_trip_type_ne_polling {type : TripPointType} (h : type ≠ .polling) (text : String) :
    parseTripType text type ≠ .polling := by
  unfold parseTripType
  split_ifs
  all_goals first
    | exact h
    | exact TripPointType.noConfusion

theorem parse_new_trip_point_ne_polling {nodes : List XmlNode} {t t' : TripPointConf}
    (h : parseNewTripPoint nodes t = some t') : t'.tripPtType ≠ .polling := by
  have hpreserves : Preserves (fun t : TripPointConf => t.tripPtType ≠ .polling)
      (readElements tripPointTable nodes) := by
    refine read_elements_preserves (fun e he text children => ?_) nodes
    revert e
    simp only [tripPointTable, List.forall_mem_cons, List.not_mem_nil, false_implies,
      implies_true, and_true, Entry.apply]
    -- only the element `type` writes the member
    have htype : Preserves (fun t : TripPointConf => t.tripPtType ≠ .polling) fun t =>
        some { t with tripPtType := parseTripType (charTrim text) t.tripPtType } := by
      refine .total fun t ht => ?_
      dsimp only
      exact parse_trip_type_ne_polling ht (charTrim text)
    refine ⟨.total ?_, .total ?_, .total ?_, .bound ?_, .total ?_, htype, .total ?_, .total ?_⟩
    all_goals first
      | exact fun _ ht => ht
      | exact fun _ _ ht => ht
  exact hpreserves _ t' TripPointType.noConfusion h

theorem parse_trip_points_no_polling (nodes : List XmlNode) :
    Preserves ThermalZoneConf.NoPolling (parseTripPoints nodes) := by
  refine read_each_preserves (fun children => ?_) nodes
  intro zone zone' hzone heq
  obtain ⟨t, ht, heq⟩ := Option.bind_eq_some_iff.mp heq
  cases heq
  intro c hc
  obtain hc | hc := List.mem_append.mp hc
  · exact hzone c hc
  · rw [List.mem_singleton.mp hc]
    exact parse_new_trip_point_ne_polling ht

/-! ## Zones and platforms -/

theorem parse_new_zone_no_polling (nodes : List XmlNode) :
    Preserves ThermalZoneConf.NoPolling (parseNewZone nodes) := by
  refine Preserves.foldlM (fun n => ?_) nodes
  intro zone zone' hzone heq
  cases n with
  | text content =>
      cases heq
      exact hzone
  | comment =>
      cases heq
      exact hzone
  | element name children =>
      unfold readZone at heq
      dsimp only at heq
      split_ifs at heq
      · exact parse_trip_points_no_polling children zone zone' hzone heq
      · obtain ⟨text, -, heq⟩ := Option.map_eq_some_iff.mp heq
        cases heq
        exact hzone
      · cases heq
        exact hzone

/-- No zone of the platform has a trip point of the type of polling trips. -/
def ThermalInfo.NoPolling (info : ThermalInfo) : Prop := ∀ zone ∈ info.zones, zone.NoPolling

theorem ThermalInfo.NoPolling.of_zones {info info' : ThermalInfo} (h : info.NoPolling)
    (hzones : info'.zones = info.zones) : info'.NoPolling := by
  unfold ThermalInfo.NoPolling
  rw [hzones]
  exact h

theorem parse_thermal_zones_no_polling (nodes : List XmlNode) :
    Preserves ThermalInfo.NoPolling (parseThermalZones nodes) := by
  intro info info' hinfo heq
  obtain ⟨s, hs, heq⟩ := Option.bind_eq_some_iff.mp heq
  cases heq
  have hstart : firstZone.NoPolling ∧ ∀ zone ∈ info.zones, zone.NoPolling :=
    ⟨fun c hc => absurd hc List.not_mem_nil, hinfo⟩
  have hreset (zone : ThermalZoneConf) (_ : zone.NoPolling) : (resetZone zone).NoPolling :=
    fun c hc => absurd hc List.not_mem_nil
  exact (read_records_preserves hreset parse_new_zone_no_polling nodes _ s hstart hs).2

theorem parse_new_platform_info_no_polling (nodes : List XmlNode) :
    Preserves ThermalInfo.NoPolling (parseNewPlatformInfo nodes) := by
  have hpreserves : Preserves ThermalInfo.NoPolling (readElements platformTable nodes) := by
    refine read_elements_preserves (fun e he text children => ?_) nodes
    revert e
    obtain ⟨sensors, hsensors⟩ := parse_thermal_sensors_appends children
    obtain ⟨cdevs, hcdevs⟩ := parse_cooling_devs_appends children
    simp only [platformTable, List.forall_mem_cons, List.not_mem_nil, false_implies,
      implies_true, and_true, Entry.apply, hsensors, hcdevs]
    refine ⟨.total ?_, .total ?_, .total ?_, .total ?_, .total ?_,
      parse_thermal_zones_no_polling children, .total ?_, .total ?_, .total ?_, .bound ?_⟩
    all_goals first
      | exact fun _ hinfo => hinfo.of_zones rfl
      | exact fun _ _ hinfo => hinfo.of_zones rfl
  intro info info' hinfo h
  refine hpreserves _ info' ?_ h
  exact hinfo.of_zones rfl

/-- The parser makes no trip points of the type of polling trips. -/
theorem parse_no_polling {nodes : List XmlNode} {l : List ThermalInfo}
    (h : parse nodes = some l) : ∀ info ∈ l, info.NoPolling := by
  have hpreserves : Preserves (fun l => ∀ info ∈ l, ThermalInfo.NoPolling info)
      (readEach "ThermalConfiguration" parseNewPlatform nodes) := by
    refine read_each_preserves (fun children => ?_) nodes
    intro list list' hlist heq
    obtain ⟨s, hs, heq⟩ := Option.bind_eq_some_iff.mp heq
    cases heq
    have hstart : firstPlatform.NoPolling ∧ ∀ info ∈ list, info.NoPolling :=
      ⟨fun zone hzone => absurd hzone List.not_mem_nil, hlist⟩
    have hreset (info : ThermalInfo) (_ : info.NoPolling) : (resetPlatform info).NoPolling :=
      fun zone hzone => absurd hzone List.not_mem_nil
    exact
      (read_records_preserves hreset parse_new_platform_info_no_polling children _ s hstart hs).2
  exact hpreserves [] l (fun info hinfo => absurd hinfo List.not_mem_nil) h

/-- A zone of a configuration that was parsed is usable exactly if each of its trip points has
a temperature and a sensor. -/
theorem parsed_usable_iff {nodes : List XmlNode} {l : List ThermalInfo}
    (h : parse nodes = some l) {info : ThermalInfo} (hinfo : info ∈ l) {zone : ThermalZoneConf}
    (hzone : zone ∈ info.zones) {δ : Type} (w : World δ) :
    zone.usable w = true ↔ ∀ c ∈ zone.tripPts, c.temperature ≠ 0 ∧
      ∃ s, w.searchSensor c.sensorType = some s := by
  have hpolling := parse_no_polling h info hinfo zone hzone
  rw [ThermalZoneConf.usable_iff]
  refine forall₂_congr fun c hc => ?_
  rw [and_iff_left (hpolling c hc)]

end Thermald
