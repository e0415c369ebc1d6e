import Thermald.Config.Bindings

/-!
# Configured trips in the zones

What a `ThermalZone` of the configuration asks for is a trip for each of its trip points. Three
things can be lost. A trip point for an existing zone replaces the first trip of its type, which may
be the one that an earlier trip point has made. A zone that is made from the configuration gets no
parameters of controllers. And its highest passive trip takes the temperature that the user has set.

`read_thermal_zones_realise` says that nothing else is lost.
-/

namespace Thermald

/-! ## One trip point for an existing zone -/

theorem TripPointConf.adds_iff {δ : Type} {c : TripPointConf} {w : World δ} :
    c.adds w = true ↔ c.temperature ≠ 0 ∧ (∃ s, w.searchSensor c.sensorType = some s) ∧
      c.tripPtType ≠ .polling := by
  simp [TripPointConf.adds, Option.isSome_iff_exists, and_assoc]

namespace Zone

variable {δ : Type}

/-- The trips that a trip point for this zone leaves as they are. -/
def untouched (z : Zone) (c : TripPointConf) (w : World δ) : List TripPoint :=
  if c.temperature ≠ 0 then z.tripPoints.eraseP fun t => t.type = c.tripPtType
  else if (w.searchSensor c.sensorType).isSome then
    z.tripPoints.eraseP fun t => t.type = c.tripPtType && 0 < t.temp
  else z.tripPoints

/-- A change of the first trip of a kind that keeps the kind leaves the others. -/
theorem erase_modify_first {q : TripPoint → Bool} {f : TripPoint → TripPoint}
    (hf : ∀ t, q t = true → q (f t) = true) {trips : List TripPoint} {i : Nat}
    (hi : trips.findIdx? q = some i) : (trips.modify i f).eraseP q = trips.eraseP q := by
  induction trips generalizing i with
  | nil => exact absurd hi (by simp)
  | cons t rest ih =>
      rw [List.findIdx?_cons] at hi
      by_cases hq : q t = true
      · rw [if_pos hq] at hi
        cases hi
        show (f t :: rest).eraseP q = _
        rw [List.eraseP_cons_of_pos (hf t hq), List.eraseP_cons_of_pos hq]
      · rw [if_neg hq] at hi
        obtain ⟨j, hj, heq⟩ := Option.map_eq_some_iff.mp hi
        rw [← heq]
        show (t :: rest.modify j f).eraseP q = _
        rw [List.eraseP_cons_of_neg hq, List.eraseP_cons_of_neg hq, ih hj]

theorem mem_modify_first {q : TripPoint → Bool} {f : TripPoint → TripPoint}
    (hf : ∀ t, q t = true → q (f t) = true) {trips : List TripPoint} {i : Nat}
    (hi : trips.findIdx? q = some i) {t : TripPoint} (ht : t ∈ trips.eraseP q) :
    t ∈ trips.modify i f := by
  rw [← erase_modify_first hf hi] at ht
  exact List.mem_of_mem_eraseP ht

theorem mem_ordinary {z : Zone} {t : TripPoint} :
    t ∈ z.ordinary ↔ t ∈ z.tripPoints ∧ t.type ≠ .polling := by
  simp [ordinary]

variable [StdSort]

/-- A trip that is no polling trip stays when the trips are sorted, and no such trip is added. -/
theorem mem_sort_and_update_iff (z : Zone) {t : TripPoint} (htype : t.type ≠ .polling)
    (w : World δ) : t ∈ (z.sortAndUpdatePollTrip w).1.tripPoints ↔ t ∈ z.tripPoints := by
  have hmem := (z.sort_ordinary w).mem_iff (a := t)
  rw [mem_ordinary, mem_ordinary] at hmem
  simpa [htype] using hmem

omit [StdSort] in
theorem bind_sensor_keeps (z : Zone) (s : Sensor) :
    (z.bindSensor s).typeStr = z.typeStr ∧ (z.bindSensor s).index = z.index := by
  unfold bindSensor
  split
  · exact ⟨rfl, rfl⟩
  · exact ⟨rfl, rfl⟩

/-- The trip that a trip point becomes in this zone. -/
def tripFor (z : Zone) (c : TripPointConf) (w : World δ) : Option TripPoint :=
  if c.adds w then
    (w.searchSensor c.sensorType).map fun s =>
      configuredTrip w true z.tripPoints.length z.index s c
  else none

/-- After a trip point with a temperature and a sensor there are its trip and those that it leaves
as they are. -/
theorem mem_configure_iff (z : Zone) {c : TripPointConf} {w : World δ} {s : Sensor}
    (htemp : c.temperature ≠ 0) (hs : w.searchSensor c.sensorType = some s)
    {t : TripPoint} (htype : t.type ≠ .polling) :
    t ∈ (z.configureTrip c w).1.tripPoints ↔
      t = configuredTrip w true z.tripPoints.length z.index s c ∨ t ∈ z.untouched c w := by
  unfold configureTrip untouched
  rw [hs, if_pos htemp]
  dsimp only
  rw [if_pos htemp, z.bind_sensor_trips s, (z.bind_sensor_keeps s).2]
  have htrips := z.bind_sensor_trips s
  generalize z.bindSensor s = z' at htrips
  obtain ⟨hlabel, -⟩ := configured_trip_labels w true z.tripPoints.length z.index s c
  generalize configuredTrip w true z.tripPoints.length z.index s c = trip at hlabel
  have hbound : (if c.binds w then z'.zoneCdevSetBinded else z').tripPoints = z.tripPoints := by
    split
    · exact htrips
    · exact htrips
  generalize (if c.binds w then z'.zoneCdevSetBinded else z') = z'' at hbound
  refine (mem_sort_and_update_iff _ htype w).trans ?_
  refine (set_first_perm z''.tripPoints trip).mem_iff.trans ?_
  rw [List.mem_cons, hbound, hlabel, if_pos htemp]

/-- The same for a trip point that becomes a trip. -/
theorem mem_configure_trip_iff (z : Zone) {c : TripPointConf} {w : World δ}
    (hc : c.adds w = true) {t : TripPoint} (htype : t.type ≠ .polling) :
    t ∈ (z.configureTrip c w).1.tripPoints ↔ z.tripFor c w = some t ∨ t ∈ z.untouched c w := by
  obtain ⟨htemp, ⟨s, hs⟩, -⟩ := TripPointConf.adds_iff.mp hc
  have hfor : z.tripFor c w = some (configuredTrip w true z.tripPoints.length z.index s c) := by
    unfold tripFor
    rw [if_pos hc, hs]
    rfl
  rw [z.mem_configure_iff htemp hs htype, hfor, Option.some.injEq, eq_comm]

/-- The trip that a trip point becomes is there. -/
theorem trip_for_mem (z : Zone) {c : TripPointConf} {w : World δ} {t : TripPoint}
    (ht : z.tripFor c w = some t) : t ∈ (z.configureTrip c w).1.tripPoints := by
  have hc : c.adds w = true := by
    unfold tripFor at ht
    split at ht
    · assumption
    · exact absurd ht (by simp)
  obtain ⟨-, ⟨s, hs⟩, hpolling⟩ := TripPointConf.adds_iff.mp hc
  refine (z.mem_configure_trip_iff hc ?_).mpr (.inl ht)
  unfold tripFor at ht
  rw [if_pos hc, hs] at ht
  rw [← Option.some.inj ht, (configured_trip_labels ..).1]
  exact hpolling

/-- The devices of a trip point without a temperature are bound to one trip. -/
theorem bind_cooling_devices_untouched (type : TripPointType) (w : World δ)
    (bs : List TripCdevConf) (z : Zone) :
    (bindCoolingDevices type w bs z).2.tripPoints.eraseP
        (fun t => t.type = type && 0 < t.temp) =
      z.tripPoints.eraseP fun t => t.type = type && 0 < t.temp := by
  induction bs generalizing z with
  | nil => rfl
  | cons b rest ih =>
      rw [bindCoolingDevices]
      dsimp only
      rw [ih]
      split
      · rfl
      · unfold bindCoolingDevice
        split
        · rfl
        · rename_i i hi
          refine erase_modify_first (fun t ht => ?_) hi
          exact ht

/-- A trip that a trip point does not touch stays. -/
theorem untouched_stays (z : Zone) (c : TripPointConf) (w : World δ) {t : TripPoint}
    (ht : t ∈ z.untouched c w) (htype : t.type ≠ .polling) :
    t ∈ (z.configureTrip c w).1.tripPoints := by
  cases hs : w.searchSensor c.sensorType with
  | none =>
      unfold untouched at ht
      unfold configureTrip
      rw [hs] at ht ⊢
      dsimp only
      by_cases htemp : c.temperature = 0
      · rw [if_neg (by simpa using htemp)] at ht ⊢
        exact ht
      · rw [if_pos htemp] at ht ⊢
        refine (mem_sort_and_update_iff _ htype w).mpr ?_
        dsimp only
        split
        · rename_i i hi
          refine mem_modify_first (fun t htype => ?_) hi ht
          exact htype
        · exact List.mem_of_mem_eraseP ht
  | some s =>
      by_cases htemp : c.temperature = 0
      · unfold untouched at ht
        unfold configureTrip
        rw [hs] at ht ⊢
        dsimp only
        rw [if_neg (by simpa using htemp)] at ht ⊢
        rw [if_pos Option.isSome_some, ← z.bind_sensor_trips s,
          ← bind_cooling_devices_untouched c.tripPtType w c.cdevTrips] at ht
        exact List.mem_of_mem_eraseP ht
      · exact (z.mem_configure_iff htemp hs htype).mpr (.inr ht)

/-- Binding devices keeps the name of the zone. -/
theorem bind_cooling_devices_type (type : TripPointType) (w : World δ) (bs : List TripCdevConf)
    (z : Zone) : (bindCoolingDevices type w bs z).2.typeStr = z.typeStr := by
  induction bs generalizing z with
  | nil => rfl
  | cons b rest ih =>
      rw [bindCoolingDevices]
      dsimp only
      rw [ih]
      split
      · rfl
      · unfold bindCoolingDevice
        split
        · rfl
        · rfl

omit [StdSort] in
/-- An operation on the trips keeps the names. -/
theorem EditsTrips.names {z : Zone} {w : World δ} {r : Zone × World δ} (h : z.EditsTrips w r) :
    r.1.typeStr = z.typeStr ∧ w.SameNames r.2 := by
  obtain ⟨⟨trips, hzone⟩, events, hworld⟩ := h
  rw [hzone, hworld]
  exact ⟨rfl, .emit _ _⟩

/-- Replacing the trips and sorting them works on the trips. -/
theorem sort_trips_edits (z : Zone) (trips : List TripPoint) (w : World δ) :
    z.EditsTrips w ({ z with tripPoints := trips }.sortAndUpdatePollTrip w) := by
  obtain ⟨⟨trips', hzone⟩, hworld⟩ :=
    sort_and_update_poll_trip_edits { z with tripPoints := trips } w
  exact ⟨⟨trips', hzone⟩, hworld⟩

/-- A trip point keeps the names. -/
theorem configure_trip_names (z : Zone) (c : TripPointConf) (w : World δ) :
    (z.configureTrip c w).1.typeStr = z.typeStr ∧ w.SameNames (z.configureTrip c w).2.2 := by
  unfold configureTrip
  split
  · split
    · exact (sort_trips_edits z _ w).names
    · exact ⟨rfl, .refl w⟩
  · rename_i s _
    dsimp only
    rw [← (z.bind_sensor_keeps s).1]
    generalize z.bindSensor s = z'
    split
    · have hnames := (add_trip_edits (if c.binds w then z'.zoneCdevSetBinded else z')
        (configuredTrip w true z'.tripPoints.length z'.index s c) false w).names
      refine ⟨hnames.1.trans ?_, hnames.2⟩
      split
      · rfl
      · rfl
    · exact ⟨bind_cooling_devices_type .., .refl w⟩

/-- The trip points for a zone keep the names. -/
theorem configure_trips_names (cs : List TripPointConf) (z : Zone) (w : World δ) :
    (z.configureTrips cs w).1.typeStr = z.typeStr ∧ w.SameNames (z.configureTrips cs w).2.2 := by
  induction cs generalizing z w with
  | nil => exact ⟨rfl, .refl w⟩
  | cons c rest ih =>
      obtain ⟨htype, hnames⟩ := z.configure_trip_names c w
      obtain ⟨htypes, hnames'⟩ := ih (z.configureTrip c w).1 (z.configureTrip c w).2.2
      exact ⟨htypes.trans htype, hnames.trans hnames'⟩

end Zone

/-! ## All trip points for an existing zone -/

/-- The trip points of a `ThermalZone` are read for an existing zone: the zone, and the trip points
that it is to realise so far. -/
structure ZoneReading (δ : Type) where
  zone : Zone
  world : World δ
  done : List TripPointConf

namespace ZoneReading

variable {δ : Type} [StdSort]

/-- Another trip point, which is to be realised if this counts. -/
def read (counts : Bool) (r : ZoneReading δ) (c : TripPointConf) : ZoneReading δ where
  zone := (r.zone.configureTrip c r.world).1
  world := (r.zone.configureTrip c r.world).2.2
  done := if counts then r.done ++ [c] else r.done

/-- What each trip point so far and the next one ask for is the trip that the next one becomes or a
trip that it does not touch. -/
def Spares (counts : Bool) (r : ZoneReading δ) (c : TripPointConf) : Prop :=
  ∀ c' ∈ (r.read counts c).done, ∃ t,
    (r.zone.tripFor c r.world = some t ∨ t ∈ r.zone.untouched c r.world) ∧ t.Realises r.world c'

/-- Everything so far is realised. -/
def Realised (r : ZoneReading δ) : Prop :=
  ∀ c ∈ r.done, c.tripPtType ≠ .polling ∧ r.zone.Realises r.world c

variable {r : ZoneReading δ} {counts : Bool}

/-- The trip points that are to be realised are no polling trips. -/
theorem Realised.read_ordinary (h : r.Realised) {c : TripPointConf}
    (hc : counts = true → c.adds r.world = true) :
    ∀ c' ∈ (r.read counts c).done, c'.tripPtType ≠ .polling := by
  intro c' hc'
  cases counts with
  | false => exact (h c' hc').1
  | true =>
      rcases List.mem_append.mp hc' with hc' | hc'
      · exact (h c' hc').1
      · rw [List.mem_singleton.mp hc']
        exact (TripPointConf.adds_iff.mp (hc rfl)).2.2

/-- One trip point. -/
theorem Realised.read (h : r.Realised) {c : TripPointConf} (hspares : r.Spares counts c)
    (hc : counts = true → c.adds r.world = true) : (r.read counts c).Realised := by
  have hnames := (r.zone.configure_trip_names c r.world).2
  intro c' hc'
  have htype := h.read_ordinary hc c' hc'
  obtain ⟨t, hmem, hrealises⟩ := hspares c' hc'
  refine ⟨htype, hnames.zone_realises ⟨t, ?_, hrealises⟩⟩
  rcases hmem with hmem | hmem
  · exact r.zone.trip_for_mem hmem
  · refine r.zone.untouched_stays c r.world hmem ?_
    rw [hrealises.type]
    exact htype

/-- For a trip point that becomes a trip nothing less will do. -/
theorem Realised.read_iff (h : r.Realised) {c : TripPointConf} (hc : c.adds r.world = true) :
    (r.read counts c).Realised ↔ r.Spares counts c := by
  refine ⟨fun hread c' hc' => ?_, fun hspares => h.read hspares fun _ => hc⟩
  obtain ⟨htype, t, ht, hrealises⟩ := hread c' hc'
  have hback := (r.zone.configure_trip_names c r.world).2.symm.trip_realises hrealises
  refine ⟨t, (r.zone.mem_configure_trip_iff hc ?_).mp ht, hback⟩
  rw [hback.type]
  exact htype

/-- All trip points. -/
theorem Realised.run {cs : List TripPointConf} (h : r.Realised)
    (hmeets : Meets (ZoneReading.read counts) (Spares counts) r cs)
    (hcs : counts = true → ∀ c ∈ cs, c.adds r.world = true) :
    (Thermald.run (ZoneReading.read counts) r cs).Realised := by
  induction cs generalizing r with
  | nil => exact h
  | cons c rest ih =>
      have hnames := (r.zone.configure_trip_names c r.world).2
      refine ih (h.read hmeets.1 fun hcounts => hcs hcounts c List.mem_cons_self) hmeets.2 ?_
      intro hcounts c' hc'
      exact (hnames.adds_eq c').trans (hcs hcounts c' (List.mem_cons_of_mem _ hc'))

/-- A trip point of a type that none of those so far has spares them. -/
theorem Realised.spares_of_types (h : r.Realised) {c : TripPointConf} (hc : c.adds r.world = true)
    (hbindings : BindingsAgree r.world c.cdevTrips)
    (htypes : ∀ c' ∈ r.done, c'.tripPtType ≠ c.tripPtType) : r.Spares counts c := by
  obtain ⟨htemp, ⟨s, hs⟩, -⟩ := TripPointConf.adds_iff.mp hc
  have hold : ∀ c' ∈ r.done, ∃ t, (r.zone.tripFor c r.world = some t ∨
      t ∈ r.zone.untouched c r.world) ∧ t.Realises r.world c' := by
    intro c' hc'
    obtain ⟨-, t, ht, hrealises⟩ := h c' hc'
    refine ⟨t, .inr ?_, hrealises⟩
    unfold Zone.untouched
    rw [if_pos htemp, List.mem_eraseP_of_neg]
    · exact ht
    · rw [hrealises.type]
      simpa using htypes c' hc'
  intro c' hc'
  cases counts with
  | false => exact hold c' hc'
  | true =>
      rcases List.mem_append.mp hc' with hc' | hc'
      · exact hold c' hc'
      · rw [List.mem_singleton.mp hc']
        refine ⟨configuredTrip r.world true r.zone.tripPoints.length r.zone.index s c, .inl ?_, ?_⟩
        · unfold Zone.tripFor
          rw [if_pos hc, hs]
          rfl
        · exact (configured_trip_realises_iff true _ _ hs).mpr
            ⟨hbindings, fun h => absurd h.symm Bool.false_ne_true⟩

/-- Trip points of distinct types spare each other. -/
theorem Realised.meets_of_types {cs : List TripPointConf} (h : r.Realised)
    (hcs : ∀ c ∈ cs, c.adds r.world = true ∧ BindingsAgree r.world c.cdevTrips)
    (hdistinct : (cs.map (·.tripPtType)).Nodup)
    (htypes : ∀ c ∈ cs, ∀ c' ∈ r.done, c'.tripPtType ≠ c.tripPtType) :
    Meets (ZoneReading.read counts) (Spares counts) r cs := by
  induction cs generalizing r with
  | nil => trivial
  | cons c rest ih =>
      obtain ⟨hadds, hbindings⟩ := hcs c List.mem_cons_self
      have hnames := (r.zone.configure_trip_names c r.world).2
      have hspares : r.Spares counts c :=
        h.spares_of_types hadds hbindings (htypes c List.mem_cons_self)
      rw [List.map_cons, List.nodup_cons] at hdistinct
      refine ⟨hspares, ih (h.read hspares fun _ => hadds) (fun c' hc' => ?_) hdistinct.2 ?_⟩
      · obtain ⟨hadds', hbindings'⟩ := hcs c' (List.mem_cons_of_mem _ hc')
        exact ⟨(hnames.adds_eq c').trans hadds', hnames.bindings_agree hbindings'⟩
      · intro c' hc' d hd
        have hold := htypes c' (List.mem_cons_of_mem _ hc')
        cases counts with
        | false => exact hold d hd
        | true =>
            rcases List.mem_append.mp hd with hd | hd
            · exact hold d hd
            · rw [List.mem_singleton.mp hd]
              intro heq
              exact hdistinct.1 (heq ▸ List.mem_map_of_mem hc')

/-- The zone, the world and what is to be realised in the end. -/
theorem run_read (counts : Bool) (cs : List TripPointConf) (r : ZoneReading δ) :
    Thermald.run (ZoneReading.read counts) r cs =
      ⟨(r.zone.configureTrips cs r.world).1, (r.zone.configureTrips cs r.world).2.2,
        r.done ++ if counts then cs else []⟩ := by
  induction cs generalizing r with
  | nil => cases counts <;> simp [Thermald.run, Zone.configureTrips]
  | cons c rest ih =>
      refine (ih (r.read counts c)).trans ?_
      cases counts <;> simp [ZoneReading.read, Zone.configureTrips]

/-- Where all trip points become trips, everything is realised all along exactly if every trip point
spares what is realised so far. -/
theorem realised_iff {cs : List TripPointConf} (h : r.Realised)
    (hcs : ∀ c ∈ cs, c.adds r.world = true) :
    (∀ pre, pre <+: cs → (run (read counts) r pre).Realised) ↔
      Meets (read counts) (Spares counts) r cs := by
  refine meets_iff_prefixes (I := fun _ (r : ZoneReading δ) => r.Realised) h ?_
  intro past c hpre hpast
  refine hpast.read_iff ?_
  rw [run_read, (Zone.configure_trips_names past r.zone r.world).2.adds_eq]
  exact hcs c (hpre.subset (by simp))

end ZoneReading

/-! ## A zone made from the configuration -/

namespace Zone

variable {δ : Type} [StdSort]

/-- One trip point is left out or becomes a trip. -/
theorem read_configured_trip_cases (z : Zone) (c : TripPointConf) (w : World δ) :
    ∃ z' : Zone, z'.typeStr = z.typeStr ∧
      (∀ rest, z.readConfiguredTrips (c :: rest) w = z'.readConfiguredTrips rest w) ∧
      ((z'.tripPoints = z.tripPoints ∧
          (c.temperature = 0 ∨ w.searchSensor c.sensorType = none)) ∨
        ∃ s index zoneIndex, w.searchSensor c.sensorType = some s ∧
          z'.tripPoints = z.tripPoints ++ [configuredTrip w false index zoneIndex s c]) := by
  by_cases htemp : c.temperature = 0
  · refine ⟨z, rfl, fun rest => ?_, .inl ⟨rfl, .inl htemp⟩⟩
    rw [readConfiguredTrips, if_pos htemp]
  · cases hs : w.searchSensor c.sensorType with
    | none =>
        refine ⟨z, rfl, fun rest => ?_, .inl ⟨rfl, .inr rfl⟩⟩
        rw [readConfiguredTrips, if_neg htemp, hs]
    | some s =>
        refine ⟨{ (if c.binds w then z.zoneCdevSetBinded else z) with
          tripPoints := z.tripPoints ++
            [configuredTrip w false z.tripPoints.length z.index s c] }, ?_, fun rest => ?_,
          .inr ⟨s, _, _, rfl, rfl⟩⟩
        · dsimp only
          split
          · rfl
          · rfl
        · rw [readConfiguredTrips, if_neg htemp, hs]
          dsimp only
          cases c.binds w with
          | true => rfl
          | false => rfl

/-- The loop over the trip points keeps the trips that are there and adds trips of the trip points,
one for each with a temperature and a sensor. -/
theorem read_configured_trips_spec (cs : List TripPointConf) (z : Zone) (w : World δ) :
    (z.readConfiguredTrips cs w).typeStr = z.typeStr ∧
      (∀ t ∈ z.tripPoints, t ∈ (z.readConfiguredTrips cs w).tripPoints) ∧
      (∀ t ∈ (z.readConfiguredTrips cs w).tripPoints,
        t ∈ z.tripPoints ∨ ∃ c ∈ cs, t.type = c.tripPtType) ∧
      ∀ c ∈ cs, c.temperature ≠ 0 → ∀ s, w.searchSensor c.sensorType = some s →
        ∃ index zoneIndex,
          configuredTrip w false index zoneIndex s c ∈ (z.readConfiguredTrips cs w).tripPoints := by
  -- the zone is the one that the trip points before have left
  induction cs generalizing z with
  | nil => exact ⟨rfl, fun t ht => ht, fun t ht => .inl ht, fun c hc => absurd hc List.not_mem_nil⟩
  | cons c rest ih =>
      obtain ⟨z', hzone, hstep, hcases⟩ := z.read_configured_trip_cases c w
      obtain ⟨htype, hkeep, honly, hall⟩ := ih z'
      rw [hstep]
      have hrest : ∀ t ∈ (z'.readConfiguredTrips rest w).tripPoints,
          t ∈ z'.tripPoints ∨ ∃ c' ∈ c :: rest, t.type = c'.tripPtType := by
        intro t ht
        rcases honly t ht with ht | ⟨c', hc', heq⟩
        · exact .inl ht
        · exact .inr ⟨c', List.mem_cons_of_mem _ hc', heq⟩
      refine ⟨htype.trans hzone, ?_, ?_, ?_⟩
      · intro t ht
        apply hkeep
        rcases hcases with ⟨htrips, -⟩ | ⟨s, index, zoneIndex, -, htrips⟩
        · rw [htrips]
          exact ht
        · rw [htrips]
          exact List.mem_append_left _ ht
      · intro t ht
        rcases hrest t ht with ht | hnew
        · rcases hcases with ⟨htrips, -⟩ | ⟨s, index, zoneIndex, -, htrips⟩
          · rw [htrips] at ht
            exact .inl ht
          · rw [htrips, List.mem_append, List.mem_singleton] at ht
            rcases ht with ht | heq
            · exact .inl ht
            · rw [heq]
              exact .inr ⟨c, List.mem_cons_self, (configured_trip_labels ..).1⟩
        · exact .inr hnew
      · intro c' hc' htemp s hs
        rcases List.mem_cons.mp hc' with heq | hc'
        · rw [heq] at htemp hs ⊢
          rcases hcases with ⟨-, hno⟩ | ⟨s', index, zoneIndex, hs', htrips⟩
          · rcases hno with hzero | hnone
            · exact absurd hzero htemp
            · rw [hs] at hnone
              exact absurd hnone (by simp)
          · rw [hs] at hs'
            rw [← Option.some.inj hs'] at htrips
            refine ⟨index, zoneIndex, hkeep _ ?_⟩
            rw [htrips]
            exact List.mem_append_right _ (List.mem_singleton.mpr rfl)
        · exact hall c' hc' htemp s hs

/-- A temperature for the passive trips does not matter where there are none. -/
theorem mem_update_highest_trip_temp {z : Zone} {trip : TripPoint}
    (hno : ∀ t ∈ z.tripPoints, t.type ≠ trip.type) (w : World δ) {t : TripPoint}
    (ht : t ∈ z.tripPoints) (htype : t.type ≠ .polling) :
    t ∈ (z.updateHighestTripTemp trip w).1.tripPoints := by
  unfold updateHighestTripTemp
  split
  · exact ht
  · refine (mem_sort_and_update_iff _ htype w).mpr ?_
    have hnone : (z.tripPoints.reverse.findIdx? fun t => t.type = trip.type) = none := by
      rw [List.findIdx?_eq_none_iff]
      intro t ht
      exact decide_eq_false (hno t (List.mem_reverse.mp ht))
    dsimp only
    rw [hnone]
    exact ht

/-- `update_highest_trip_temp` works on the trips. -/
theorem update_highest_trip_temp_edits (z : Zone) (trip : TripPoint) (w : World δ) :
    z.EditsTrips w (z.updateHighestTripTemp trip w) := by
  unfold updateHighestTripTemp
  split
  · exact .of_trips z z.tripPoints w
  · exact sort_trips_edits z _ w

/-- The end of `zone_update` keeps the names. -/
theorem finish_update_names (z : Zone) (usrPsvTemp : Int) (w : World δ) :
    (z.finishUpdate usrPsvTemp w).1.typeStr = z.typeStr ∧
      w.SameNames (z.finishUpdate usrPsvTemp w).2 := by
  unfold finishUpdate
  dsimp only
  split
  · obtain ⟨htype, hnames⟩ := (z.update_highest_trip_temp_edits
      (.init 0 .passive usrPsvTemp.toNat 0 z.index defaultSensorId .parallel) w).names
    obtain ⟨htype', hnames'⟩ := (sort_and_update_poll_trip_edits (z.updateHighestTripTemp
      (.init 0 .passive usrPsvTemp.toNat 0 z.index defaultSensorId .parallel) w).1
      (z.updateHighestTripTemp
        (.init 0 .passive usrPsvTemp.toNat 0 z.index defaultSensorId .parallel) w).2).names
    exact ⟨htype'.trans htype, hnames.trans hnames'⟩
  · exact (sort_and_update_poll_trip_edits z w).names

/-- The end of `zone_update` keeps a trip, unless the user has set a temperature for the passive
trips and there are any. -/
theorem mem_finish_update {z : Zone} {usrPsvTemp : Int}
    (husr : 0 < usrPsvTemp → ∀ t ∈ z.tripPoints, t.type ≠ .passive) (w : World δ) {t : TripPoint}
    (ht : t ∈ z.tripPoints) (htype : t.type ≠ .polling) :
    t ∈ (z.finishUpdate usrPsvTemp w).1.tripPoints := by
  unfold finishUpdate
  dsimp only
  split
  · rename_i hpos
    refine (mem_sort_and_update_iff _ htype _).mpr ?_
    exact mem_update_highest_trip_temp (husr hpos) w ht htype
  · exact (mem_sort_and_update_iff _ htype w).mpr ht

omit [StdSort] in
/-- Binding the sensors keeps the name and the trips. -/
theorem bind_configured_sensors_keeps {z z' : Zone} {conf : ThermalZoneConf} {w : World δ}
    (h : z.bindConfiguredSensors conf w = some z') :
    z'.typeStr = z.typeStr ∧ z'.tripPoints = z.tripPoints := by
  unfold bindConfiguredSensors at h
  split at h
  · exact absurd h (by simp)
  · rw [← Option.some.inj h]
    refine List.foldlRecOn conf.tripPts _ (motive := fun (z' : Zone) =>
      z'.typeStr = z.typeStr ∧ z'.tripPoints = z.tripPoints) ⟨rfl, rfl⟩ ?_
    intro z' hz' c _
    split
    · exact hz'
    · rw [(bind_sensor_keeps ..).1, bind_sensor_trips]
      exact hz'

/-- A zone from the configuration has the type that is configured, and making it keeps the
names. -/
theorem generic_names {index : Int} {conf : ThermalZoneConf} {usrPsvTemp : Int} {w w' : World δ}
    {z : Zone} (h : generic index conf usrPsvTemp w = some (z, w')) :
    z.typeStr = conf.type ∧ w.SameNames w' := by
  unfold generic at h
  simp only [Option.bind_eq_bind, Option.bind_eq_some_iff] at h
  obtain ⟨z', hz', h⟩ := h
  split at h
  · exact absurd h (by simp)
  · obtain ⟨hname, -⟩ := bind_configured_sensors_keeps hz'
    obtain ⟨htype, hnames⟩ := finish_update_names (z'.readConfiguredTrips conf.tripPts w)
      usrPsvTemp w
    rw [Option.some.inj h] at htype hnames
    exact ⟨htype.trans ((read_configured_trips_spec ..).1.trans hname), hnames⟩

end Zone

/-- Every trip point of the element becomes a trip: it has a temperature and a sensor. The parser
makes no polling trip points. -/
def ThermalZoneConf.usable {δ : Type} (conf : ThermalZoneConf) (w : World δ) : Bool :=
  conf.tripPts.all fun c => c.adds w

section Generic

variable {δ : Type}

theorem ThermalZoneConf.usable_iff {conf : ThermalZoneConf} {w : World δ} :
    conf.usable w = true ↔ ∀ c ∈ conf.tripPts, c.temperature ≠ 0 ∧
      (∃ s, w.searchSensor c.sensorType = some s) ∧ c.tripPtType ≠ .polling := by
  simp only [ThermalZoneConf.usable, List.all_eq_true, TripPointConf.adds_iff]

variable [StdSort]

/-- A zone that is made from the configuration realises its trip points, if their bindings agree and
have no controllers, and the user has set no temperature for its passive trips. -/
theorem Zone.generic_realises (index : Int) {conf : ThermalZoneConf} {usrPsvTemp : Int}
    {w : World δ} (husable : conf.usable w = true) (hsome : conf.tripPts ≠ [])
    (hbindings : ∀ c ∈ conf.tripPts, BindingsAgree w c.cdevTrips ∧ NoPid w c.cdevTrips)
    (husr : 0 < usrPsvTemp → ∀ c ∈ conf.tripPts, c.tripPtType ≠ .passive) :
    ∃ z w', Zone.generic index conf usrPsvTemp w = some (z, w') ∧
      ∀ c ∈ conf.tripPts, z.Realises w c := by
  rw [ThermalZoneConf.usable_iff] at husable
  -- whether the sensors are bound is decided by the last trip point alone
  have hlast : ∃ z, (Zone.init index conf.type .independent).bindConfiguredSensors conf w =
      some z := by
    obtain ⟨-, ⟨s, hs⟩, -⟩ := husable _ (List.getLast_mem hsome)
    unfold Zone.bindConfiguredSensors
    rw [List.getLast?_eq_some_getLast hsome, Option.bind_some, hs]
    exact ⟨_, rfl⟩
  obtain ⟨z, hz⟩ := hlast
  obtain ⟨-, hnil⟩ := Zone.bind_configured_sensors_keeps hz
  obtain ⟨-, -, honly, hall⟩ := Zone.read_configured_trips_spec conf.tripPts z w
  have hmade : ∀ c ∈ conf.tripPts, c.tripPtType ≠ .polling ∧
      ∃ t ∈ (z.readConfiguredTrips conf.tripPts w).tripPoints, t.Realises w c := by
    intro c hc
    obtain ⟨htemp, ⟨s, hs⟩, htype⟩ := husable c hc
    obtain ⟨i, j, hmem⟩ := hall c hc htemp s hs
    obtain ⟨hagree, hpid⟩ := hbindings c hc
    exact ⟨htype, _, hmem,
      (configured_trip_realises_iff false i j hs).mpr ⟨hagree, fun _ => hpid⟩⟩
  have hne : (z.readConfiguredTrips conf.tripPts w).tripPoints ≠ [] := by
    obtain ⟨c, hc⟩ := List.exists_mem_of_ne_nil _ hsome
    obtain ⟨-, t, ht, -⟩ := hmade c hc
    exact List.ne_nil_of_mem ht
  refine ⟨((z.readConfiguredTrips conf.tripPts w).finishUpdate usrPsvTemp w).1,
    ((z.readConfiguredTrips conf.tripPts w).finishUpdate usrPsvTemp w).2, ?_, ?_⟩
  · unfold Zone.generic
    rw [hz]
    simp only [Option.bind_eq_bind, Option.bind_some]
    rw [if_neg hne]
    rfl
  · intro c hc
    obtain ⟨htype, t, ht, hrealises⟩ := hmade c hc
    refine ⟨t, Zone.mem_finish_update (fun hpos t' ht' => ?_) w ht ?_, hrealises⟩
    · rcases honly t' ht' with ht' | ⟨c', hc', heq⟩
      · rw [hnil] at ht'
        exact absurd ht' List.not_mem_nil
      · rw [heq]
        exact husr hpos c' hc'
    · rw [hrealises.type]
      exact htype

end Generic

/-! ## The whole configuration -/

namespace Engine

variable {δ : Type}

/-- The zone that is found under a name. -/
def zoneOf (e : Engine δ) (name : String) : Option Zone :=
  (e.searchZone name).bind fun i => e.zones[i]?

/-- The zone that is found under a name has a trip that is what the trip point asks for. -/
def Realises (e : Engine δ) (name : String) (c : TripPointConf) : Prop :=
  ∃ z, e.zoneOf name = some z ∧ z.Realises e.world c

/-- Trips stay if the names of the zones and their trips stay. -/
theorem realises_of_trips {e e' : Engine δ} (hnames : e.SameNames e')
    (htrips : e'.zones.map (·.tripPoints) = e.zones.map (·.tripPoints)) {name : String}
    {c : TripPointConf} (h : e.Realises name c) : e'.Realises name c := by
  obtain ⟨z, hz, hrealises⟩ := h
  obtain ⟨i, hi, hget⟩ := Option.bind_eq_some_iff.mp hz
  have hget' : (e'.zones.map (·.tripPoints))[i]? = some z.tripPoints := by
    rw [htrips, List.getElem?_map, hget]
    rfl
  rw [List.getElem?_map, Option.map_eq_some_iff] at hget'
  obtain ⟨z', hz', heq⟩ := hget'
  refine ⟨z', ?_, hnames.world.zone_realises ?_⟩
  · unfold zoneOf
    rw [hnames.search_zone_eq, hi]
    exact hz'
  · unfold Zone.Realises
    rw [heq]
    exact hrealises

theorem disable_cpu_zone_world (e : Engine δ) (auto : Bool) (conf : ThermalZoneConf) :
    (e.disableCpuZone auto conf).world = e.world := by
  have hcpu : e.disableCpu.world = e.world := by
    unfold disableCpu
    split
    · rfl
    · rfl
  unfold disableCpuZone
  split
  · exact hcpu
  · split
    · rfl
    · split
      · exact hcpu
      · rfl

/-- `disable_cpu_zone` keeps the trips that are realised. -/
theorem Realises.disable_cpu_zone {e : Engine δ} {name : String} {c : TripPointConf}
    (h : e.Realises name c) (auto : Bool) (conf : ThermalZoneConf) :
    (e.disableCpuZone auto conf).Realises name c := by
  refine realises_of_trips ⟨e.disable_cpu_zone_map (fun _ => rfl) auto conf, ?_⟩
    (e.disable_cpu_zone_map (fun _ => rfl) auto conf) h
  rw [disable_cpu_zone_world]
  exact .refl _

variable [StdSort]

/-- An element for a zone leaves the trips that its trip points leave. -/
theorem configure_keeps (z : Zone) (conf : ThermalZoneConf) (w : World δ) :
    (z.configure conf w).1.typeStr = z.typeStr ∧ w.SameNames (z.configure conf w).2 ∧
      ∀ {c}, (z.configureTrips conf.tripPts w).1.Realises (z.configureTrips conf.tripPts w).2.2 c →
        (z.configure conf w).1.Realises (z.configure conf w).2 c := by
  obtain ⟨htype, hnames⟩ := Zone.configure_trips_names conf.tripPts z w
  unfold Zone.configure
  dsimp only
  split
  · exact ⟨htype, hnames, id⟩
  · exact ⟨htype, hnames, id⟩

/-- An element for an existing zone. -/
theorem read_existing_zone {ctx : ReadContext} {e : Engine δ} {conf : ThermalZoneConf}
    {i : Nat} {z : Zone} (hzone : e.searchZone conf.type = some i) (hget : e.zones[i]? = some z) :
    e.readThermalZone ctx conf = disableCpuZone
      { e with
        zones := e.zones.set i (z.configure conf e.world).1
        world := (z.configure conf e.world).2 } ctx.auto conf := by
  unfold readThermalZone
  rw [hzone]
  dsimp only
  rw [hget]

omit [StdSort] in
/-- A zone that is changed in place is found under the same names. -/
theorem set_zone_names {e : Engine δ} {i : Nat} {z z' : Zone} {w : World δ}
    (hget : e.zones[i]? = some z) (htype : z'.typeStr = z.typeStr)
    (hworld : e.world.SameNames w) :
    e.SameNames { e with zones := e.zones.set i z', world := w } := by
  obtain ⟨hlt, heq⟩ := List.getElem?_eq_some_iff.mp hget
  refine ⟨?_, hworld⟩
  show (e.zones.set i z').map (·.typeStr) = e.zones.map (·.typeStr)
  apply List.ext_getElem?
  intro j
  rw [List.getElem?_map, List.getElem?_map, List.getElem?_set]
  by_cases hij : i = j
  · rw [if_pos hij, if_pos (hij ▸ hlt), ← hij, hget]
    exact congrArg some htype
  · rw [if_neg hij]

omit [StdSort] in
/-- A zone of another name is not changed with a zone. -/
theorem realises_set_other {e : Engine δ} {i : Nat} {z z' : Zone} {w : World δ}
    (hget : e.zones[i]? = some z) (htype : z'.typeStr = z.typeStr)
    (hworld : e.world.SameNames w) {name : String} (hname : e.searchZone name ≠ some i)
    {c : TripPointConf} (h : e.Realises name c) :
    Realises { e with zones := e.zones.set i z', world := w } name c := by
  obtain ⟨y, hy, hrealises⟩ := h
  obtain ⟨j, hj, hgetj⟩ := Option.bind_eq_some_iff.mp hy
  refine ⟨y, ?_, hworld.zone_realises hrealises⟩
  have hne : i ≠ j := by
    intro heq
    rw [heq] at hname
    exact hname hj
  unfold zoneOf
  rw [(set_zone_names hget htype hworld).search_zone_eq, hj]
  show (e.zones.set i z')[j]? = some y
  rw [List.getElem?_set_ne hne]
  exact hgetj

omit [StdSort] in
/-- The zone that is changed. -/
theorem realises_set_self {e : Engine δ} {i : Nat} {z z' : Zone} {w : World δ}
    (hget : e.zones[i]? = some z) (htype : z'.typeStr = z.typeStr)
    (hworld : e.world.SameNames w) {name : String} (hname : e.searchZone name = some i)
    {c : TripPointConf} (h : z'.Realises w c) :
    Realises { e with zones := e.zones.set i z', world := w } name c := by
  obtain ⟨hlt, -⟩ := List.getElem?_eq_some_iff.mp hget
  refine ⟨z', ?_, h⟩
  unfold zoneOf
  rw [(set_zone_names hget htype hworld).search_zone_eq, hname]
  exact List.getElem?_set_self hlt

omit [StdSort] in
/-- A zone is still found under its names when another one is put behind the others. -/
theorem realises_append {e : Engine δ} {z : Zone} {w : World δ} (hworld : e.world.SameNames w)
    {name : String} {c : TripPointConf} (h : e.Realises name c) (index : Int) :
    Realises { e with zones := e.zones ++ [z], world := w, currentZoneIndex := index } name c := by
  obtain ⟨y, hy, hrealises⟩ := h
  obtain ⟨i, hi, hget⟩ := Option.bind_eq_some_iff.mp hy
  obtain ⟨hlt, -⟩ := List.getElem?_eq_some_iff.mp hget
  refine ⟨y, ?_, hworld.zone_realises hrealises⟩
  unfold searchZone at hi
  unfold zoneOf searchZone
  dsimp only
  rw [List.findIdx?_append, hi]
  show (e.zones ++ [z])[i]? = some y
  rw [List.getElem?_append_left hlt]
  exact hget

omit [StdSort] in
/-- A new zone is found under its name if no other was. -/
theorem realises_append_self {e : Engine δ} {z : Zone} {w : World δ} {name : String}
    (hnone : e.searchZone name = none) (htype : z.typeStr = name) {c : TripPointConf}
    (h : z.Realises w c) (index : Int) :
    Realises { e with zones := e.zones ++ [z], world := w, currentZoneIndex := index } name c := by
  refine ⟨z, ?_, h⟩
  unfold searchZone at hnone
  unfold zoneOf searchZone
  dsimp only
  rw [List.findIdx?_append, hnone]
  simp [htype]

end Engine

/-- The configuration is read: the engine, and the trip points that it is to realise so far, with
the types of their elements. -/
structure Reading (δ : Type) where
  engine : Engine δ
  done : List (String × TripPointConf)

namespace Reading

open Engine (ReadContext)

variable {δ : Type} [StdSort]

/-- Another element. Its trip points are to be realised if all of them are usable. -/
def read (ctx : ReadContext) (r : Reading δ) (conf : ThermalZoneConf) : Reading δ where
  engine := r.engine.readThermalZone ctx conf
  done := r.done ++
    if conf.usable r.engine.world then conf.tripPts.map fun c => (conf.type, c) else []

/-- The trip points so far that are for the zone at this place. -/
def doneAt (r : Reading δ) (i : Nat) : List TripPointConf :=
  (r.done.filter fun p => r.engine.searchZone p.1 = some i).map (·.2)

/-- The element loses nothing. For an existing zone every trip point spares what is realised so far.
For a new zone the bindings of a trip point to devices of one type agree and have no controllers,
and the user has set no temperature for its passive trips. -/
structure Keeps (ctx : ReadContext) (r : Reading δ) (conf : ThermalZoneConf) : Prop where
  existing : ∀ i z, r.engine.searchZone conf.type = some i → r.engine.zones[i]? = some z →
    Meets (ZoneReading.read (conf.usable r.engine.world))
      (ZoneReading.Spares (conf.usable r.engine.world)) ⟨z, r.engine.world, r.doneAt i⟩ conf.tripPts
  bindings : r.engine.searchZone conf.type = none → conf.usable r.engine.world = true →
    ∀ c ∈ conf.tripPts, BindingsAgree r.engine.world c.cdevTrips
  noPid : r.engine.searchZone conf.type = none → conf.usable r.engine.world = true →
    ∀ c ∈ conf.tripPts, NoPid r.engine.world c.cdevTrips
  noUsrPsvTemp : r.engine.searchZone conf.type = none → conf.usable r.engine.world = true →
    0 < ctx.usrPsvTemp conf.type → ∀ c ∈ conf.tripPts, c.tripPtType ≠ .passive

/-- Everything so far is realised. -/
def Realised (r : Reading δ) : Prop :=
  ∀ p ∈ r.done, p.2.tripPtType ≠ .polling ∧ r.engine.Realises p.1 p.2

variable {ctx : ReadContext} {r : Reading δ} {conf : ThermalZoneConf}

/-- The trip points that an element adds. -/
theorem mem_read_done {p : String × TripPointConf} :
    p ∈ (r.read ctx conf).done ↔ p ∈ r.done ∨
      conf.usable r.engine.world = true ∧ p.1 = conf.type ∧ p.2 ∈ conf.tripPts := by
  show p ∈ r.done ++ _ ↔ _
  rw [List.mem_append]
  refine or_congr_right ?_
  split
  · rename_i husable
    obtain ⟨name, c⟩ := p
    simp [husable, eq_comm, and_comm]
  · rename_i husable
    simp [husable]

/-- An element for an existing zone. -/
theorem Realised.read_existing (h : r.Realised) (hkeeps : r.Keeps ctx conf) {i : Nat} {z : Zone}
    (hzone : r.engine.searchZone conf.type = some i) (hget : r.engine.zones[i]? = some z) :
    (r.read ctx conf).Realised := by
  obtain ⟨htype, hnames, hkept⟩ := Engine.configure_keeps z conf r.engine.world
  -- the loop over the trip points begins with what earlier elements asked of this zone
  have hstart : ZoneReading.Realised ⟨z, r.engine.world, r.doneAt i⟩ := by
    intro c hc
    obtain ⟨⟨name, c'⟩, hmem, heq⟩ := List.mem_map.mp hc
    obtain ⟨hdone, hname⟩ := List.mem_filter.mp hmem
    obtain ⟨hpolling, y, hy, hrealises⟩ := h _ hdone
    obtain ⟨j, hj, hgetj⟩ := Option.bind_eq_some_iff.mp hy
    have hij : i = j := Option.some.inj ((of_decide_eq_true hname).symm.trans hj)
    have hzy : z = y := by
      rw [← hij, hget] at hgetj
      exact Option.some.inj hgetj
    rw [← heq, hzy]
    exact ⟨hpolling, hrealises⟩
  have hinner := hstart.run (hkeeps.existing i z hzone hget) fun husable c hc =>
    List.all_eq_true.mp husable c hc
  rw [ZoneReading.run_read] at hinner
  have hinner : ∀ c ∈ r.doneAt i ++ (if conf.usable r.engine.world then conf.tripPts else []),
      c.tripPtType ≠ .polling ∧
        (z.configure conf r.engine.world).1.Realises (z.configure conf r.engine.world).2 c :=
    fun c hc => ⟨(hinner c hc).1, hkept (hinner c hc).2⟩
  intro p hp
  rw [show (r.read ctx conf).engine = _ from Engine.read_existing_zone hzone hget]
  rcases mem_read_done.mp hp with hp | ⟨husable, hname, hc⟩
  · obtain ⟨hpolling, hrealises⟩ := h p hp
    refine ⟨hpolling, Engine.Realises.disable_cpu_zone ?_ _ _⟩
    by_cases hname : r.engine.searchZone p.1 = some i
    · refine Engine.realises_set_self hget htype hnames hname (hinner p.2 ?_).2
      refine List.mem_append_left _ (List.mem_map.mpr ⟨p, ?_, rfl⟩)
      exact List.mem_filter.mpr ⟨hp, decide_eq_true hname⟩
    · exact Engine.realises_set_other hget htype hnames hname hrealises
  · obtain ⟨hpolling, hrealises⟩ :=
      hinner p.2 (List.mem_append_right _ (by simpa [husable] using hc))
    refine ⟨hpolling, Engine.Realises.disable_cpu_zone ?_ _ _⟩
    rw [hname]
    exact Engine.realises_set_self hget htype hnames hzone hrealises

/-- An element that becomes a zone of its own, or none. -/
theorem Realised.read_new (h : r.Realised) (hkeeps : r.Keeps ctx conf)
    (hzone : r.engine.searchZone conf.type = none) : (r.read ctx conf).Realised := by
  have hmade (husable : conf.usable r.engine.world = true) (hsome : conf.tripPts ≠ []) :=
    Zone.generic_realises r.engine.currentZoneIndex husable hsome
      (fun c hc => ⟨hkeeps.bindings hzone husable c hc, hkeeps.noPid hzone husable c hc⟩)
      (hkeeps.noUsrPsvTemp hzone husable)
  have hread : (r.read ctx conf).engine = r.engine.readThermalZone ctx conf := rfl
  unfold Engine.readThermalZone at hread
  rw [hzone] at hread
  dsimp only at hread
  cases hgeneric : Zone.generic r.engine.currentZoneIndex conf (ctx.usrPsvTemp conf.type)
      r.engine.world with
  | none =>
      rw [hgeneric] at hread
      intro p hp
      rw [hread]
      rcases mem_read_done.mp hp with hp | ⟨husable, hname, hc⟩
      · obtain ⟨hpolling, hrealises⟩ := h p hp
        exact ⟨hpolling, hrealises.disable_cpu_zone _ _⟩
      · -- A usable element with a trip point becomes a zone.
        obtain ⟨z, w, heq, -⟩ := hmade husable (List.ne_nil_of_mem hc)
        rw [hgeneric] at heq
        exact absurd heq (by simp)
  | some made =>
      obtain ⟨z, w⟩ := made
      obtain ⟨htype, hnames⟩ := Zone.generic_names hgeneric
      rw [hgeneric] at hread
      intro p hp
      rw [hread]
      rcases mem_read_done.mp hp with hp | ⟨husable, hname, hc⟩
      · obtain ⟨hpolling, hrealises⟩ := h p hp
        exact ⟨hpolling, (Engine.realises_append hnames hrealises _).disable_cpu_zone _ _⟩
      · obtain ⟨z', w', heq, hall⟩ := hmade husable (List.ne_nil_of_mem hc)
        rw [hgeneric] at heq
        cases heq
        refine ⟨(ThermalZoneConf.usable_iff.mp husable p.2 hc).2.2, ?_⟩
        refine Engine.Realises.disable_cpu_zone ?_ _ _
        rw [hname]
        exact Engine.realises_append_self (z := z.setZoneActive true) hzone htype
          (hnames.zone_realises (hall p.2 hc)) _

/-- One element. -/
theorem Realised.read (h : r.Realised) (hkeeps : r.Keeps ctx conf) :
    (r.read ctx conf).Realised := by
  cases hzone : r.engine.searchZone conf.type with
  | none => exact h.read_new hkeeps hzone
  | some i =>
      exact h.read_existing hkeeps hzone (List.getElem?_eq_getElem (Engine.search_zone_lt hzone))

/-- Reading an element keeps the names of sensors and devices. -/
theorem read_world (ctx : ReadContext) (e : Engine δ) (conf : ThermalZoneConf) :
    e.world.SameNames (e.readThermalZone ctx conf).world := by
  unfold Engine.readThermalZone
  rw [Engine.disable_cpu_zone_world]
  split
  · split
    · exact .refl _
    · exact (Engine.configure_keeps _ conf e.world).2.1
  · split
    · exact .refl _
    · rename_i hgeneric
      exact (Zone.generic_names hgeneric).2

/-- The whole configuration is read, and the trip points of all usable elements are to be
realised. -/
theorem run_read (ctx : ReadContext) (confs : List ThermalZoneConf) (r : Reading δ) :
    (run (read ctx) r confs).engine = r.engine.readThermalZones ctx confs ∧
      (∀ p ∈ r.done, p ∈ (run (read ctx) r confs).done) ∧
      ∀ conf ∈ confs, conf.usable r.engine.world = true → ∀ c ∈ conf.tripPts,
        (conf.type, c) ∈ (run (read ctx) r confs).done := by
  induction confs generalizing r with
  | nil => exact ⟨rfl, fun p hp => hp, fun conf hconf => absurd hconf List.not_mem_nil⟩
  | cons conf rest ih =>
      obtain ⟨hengine, hkeep, hall⟩ := ih (r.read ctx conf)
      refine ⟨hengine, fun p hp => hkeep p (mem_read_done.mpr (.inl hp)), ?_⟩
      intro conf' hconf' husable c hc
      rcases List.mem_cons.mp hconf' with heq | hconf'
      · rw [heq] at husable hc ⊢
        exact hkeep _ (mem_read_done.mpr (.inr ⟨husable, rfl, hc⟩))
      · refine hall conf' hconf' ?_ c hc
        refine List.all_eq_true.mpr fun c' hc' => ?_
        exact ((read_world ctx r.engine conf).adds_eq c').trans (List.all_eq_true.mp husable c' hc')

end Reading

/-- In every configuration whose elements lose nothing, each trip point of each element whose trip
points are all usable is realised by the zone that is found under the type of the element. -/
theorem read_thermal_zones_realise {δ : Type} [StdSort] (ctx : Engine.ReadContext) (e : Engine δ)
    (confs : List ThermalZoneConf)
    (hkeeps : Meets (Reading.read ctx) (Reading.Keeps ctx) ⟨e, []⟩ confs) :
    ∀ conf ∈ confs, conf.usable e.world = true → ∀ c ∈ conf.tripPts,
      (e.readThermalZones ctx confs).Realises conf.type c := by
  intro conf hconf husable c hc
  obtain ⟨hengine, -, hall⟩ := Reading.run_read ctx confs ⟨e, []⟩
  have hrealised : (run (Reading.read ctx) ⟨e, []⟩ confs).Realised := by
    refine run_invariant (I := Reading.Realised) ?_ (fun r conf _ hr hok => hr.read hok) hkeeps
    exact fun p hp => absurd hp List.not_mem_nil
  obtain ⟨-, hrealises⟩ := hrealised _ (hall conf hconf husable c hc)
  rw [hengine] at hrealises
  exact hrealises

/-- A passive and a maximum trip point. -/
def twoTypes : ThermalZoneConf where
  type := "TCPU"
  tripPts := [bareTripPoint .passive 60000, bareTripPoint .max 70000]

/-- In a zone with a passive trip the passive trip point replaces that trip, and the other one is
added. -/
theorem two_types_realised :
    letI := StdSort.insertion
    (passiveZone.readThermalZones ⟨false, fun _ => 0⟩ [twoTypes]).Realises "TCPU"
        (bareTripPoint .passive 60000) ∧
      (passiveZone.readThermalZones ⟨false, fun _ => 0⟩ [twoTypes]).Realises "TCPU"
        (bareTripPoint .max 70000) := by
  let _ := StdSort.insertion
  have husable : twoTypes.usable passiveZone.world = true := by decide
  have hbare : ∀ c ∈ twoTypes.tripPts, c.cdevTrips = [] := by
    intro c hc
    rcases List.mem_cons.mp hc with heq | hc
    · rw [heq]
      rfl
    · rw [List.mem_singleton.mp hc]
      rfl
  have hkeeps : Reading.Keeps ⟨false, fun _ => 0⟩ ⟨passiveZone, []⟩ twoTypes := by
    refine ⟨fun i z hi hz => ?_, fun hnone => ?_, fun hnone => ?_, fun hnone => ?_⟩
    · refine ZoneReading.Realised.meets_of_types (fun c hc => absurd hc List.not_mem_nil) ?_
        (by decide) fun c _ c' hc' => absurd hc' List.not_mem_nil
      intro c hc
      refine ⟨List.all_eq_true.mp husable c hc, ?_⟩
      rw [hbare c hc]
      exact fun b hb => absurd hb List.not_mem_nil
    all_goals exact absurd hnone (by decide)
  have hall := read_thermal_zones_realise ⟨false, fun _ => 0⟩ passiveZone [twoTypes]
    ⟨hkeeps, trivial⟩ twoTypes List.mem_cons_self husable
  exact ⟨hall _ List.mem_cons_self, hall _ (List.mem_cons_of_mem _ List.mem_cons_self)⟩

/-- The configuration of a fan for a trip of the processor. -/
def fanTripPoint (temperature targetState : Int) (pidParam : PidParam) : TripPointConf where
  temperature := temperature
  hyst := 0
  tripPtType := .passive
  controlType := .parallel
  influence := 100
  sensorType := "x86_pkg_temp"
  dependency := ⟨false, "", ""⟩
  cdevTrips := [⟨"_fan_", 0, 0, true, targetState, pidParam, false, 0, 0⟩]

/-- An engine with a sensor of the processor and a fan, with these zones. -/
def fanEngine (zones : List Zone) : Engine GenSysfs where
  zones := zones
  world :=
    { cdevs := fun k => { Cdev.init k ⟨"", []⟩ with typeStr := "_fan_", maxState := 5 }
      cdevCount := 1
      sensors := [⟨0, .raw, "x86_pkg_temp", false, false⟩]
      pollIntervalSec := 4
      ignoreCritical := false
      clock := fun n => n
      ticks := 0
      events := [] }
  preference := .energyConserve
  status := true
  currentZoneIndex := 1

/-- The zone of the processor is there: of two passive trip points with different speeds of the fan
the first is lost. The zone is not there: the controller of the fan is lost. -/
theorem fan_trips_lost :
    letI := StdSort.insertion
    ¬ (∀ c ∈ [fanTripPoint 80000 1 ⟨false, 0, 0, 0⟩, fanTripPoint 85000 2 ⟨false, 0, 0, 0⟩],
        ((fanEngine [Zone.init 0 "x86_pkg_temp" .independent]).readThermalZones
          ⟨false, fun _ => 0⟩ [⟨"x86_pkg_temp", [fanTripPoint 80000 1 ⟨false, 0, 0, 0⟩,
            fanTripPoint 85000 2 ⟨false, 0, 0, 0⟩]⟩]).Realises "x86_pkg_temp" c) ∧
      ¬ ((fanEngine []).readThermalZones ⟨false, fun _ => 0⟩
        [⟨"skin", [fanTripPoint 80000 1 ⟨true, 1, 0, 0⟩]⟩]).Realises "skin"
          (fanTripPoint 80000 1 ⟨true, 1, 0, 0⟩) := by
  let _ := StdSort.insertion
  constructor
  · intro h
    obtain ⟨z, hz, t, ht, hrealises⟩ := h _ List.mem_cons_self
    have htemps : (((fanEngine [Zone.init 0 "x86_pkg_temp" .independent]).readThermalZones
        ⟨false, fun _ => 0⟩ [⟨"x86_pkg_temp", [fanTripPoint 80000 1 ⟨false, 0, 0, 0⟩,
          fanTripPoint 85000 2 ⟨false, 0, 0, 0⟩]⟩]).zoneOf "x86_pkg_temp").map
          (fun z => z.tripPoints.map (·.temp)) = some [85000, 76500] := by
      decide
    rw [hz] at htemps
    have hmem : t.temp ∈ [85000, 76500] := by
      rw [← Option.some.inj htemps]
      exact List.mem_map_of_mem ht
    rw [hrealises.temp] at hmem
    exact absurd hmem (by decide)
  · intro h
    obtain ⟨z, hz, t, ht, hrealises⟩ := h
    have hvalid : (((fanEngine []).readThermalZones ⟨false, fun _ => 0⟩
        [⟨"skin", [fanTripPoint 80000 1 ⟨true, 1, 0, 0⟩]⟩]).zoneOf "skin").map
          (fun z => z.tripPoints.flatMap fun t => t.cdevs.map (·.pidParam.valid)) =
            some [false] := by
      decide
    rw [hz] at hvalid
    obtain ⟨c, hc, hview⟩ := hrealises.bound _ List.mem_cons_self 0 (by decide)
    have hmem : c.pidParam.valid ∈ [false] := by
      rw [← Option.some.inj hvalid]
      exact List.mem_flatMap.mpr ⟨t, ht, List.mem_map_of_mem hc⟩
    have hpid : c.view.pid = none := by
      unfold TripCdev.view
      rw [List.mem_singleton.mp hmem]
      rfl
    rw [hview] at hpid
    exact absurd hpid (Option.some_ne_none _)

end Thermald
