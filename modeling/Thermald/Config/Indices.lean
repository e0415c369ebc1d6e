import Thermald.Lib.Run
import Thermald.Adaptive.Guard
import Thermald.Config.Zones

/-!
# The indices of trips

A cooling device records its limits under the index of the zone and the index of the trip. A new
trip gets as its index the number of trips that the zone has at that moment, polling trips
included, and the trip that `psvt_consolidate` adds has the index 1. Since `add_trip` may replace a
trip instead of adding one, the number of trips does not always grow, and the next trip can get an
index that is taken.

`distinct_indices_iff` says that the indices stay distinct exactly as long as every new index is
free when it is given.
-/

namespace Thermald

namespace Zone

/-! ## The trips without the polling trips -/

/-- The trips that are not polling trips. -/
def ordinary (z : Zone) : List TripPoint := z.tripPoints.filter fun t => t.type ≠ .polling

/-- The indices of these trips. -/
def indices (z : Zone) : List Int := z.ordinary.map (·.index)

/-- Removing a polling trip leaves the others. -/
theorem filter_erase_polling (trips : List TripPoint) :
    (trips.eraseP fun t => t.type = .polling).filter (fun t => t.type ≠ .polling) =
      trips.filter fun t => t.type ≠ .polling := by
  induction trips with
  | nil => rfl
  | cons t rest ih =>
      by_cases htype : t.type = .polling
      · simp [htype]
      · simp only [List.eraseP_cons, htype, decide_false, cond_false, ne_eq, not_false_eq_true,
          decide_true, List.filter_cons_of_pos]
        exact congrArg (t :: ·) ih

/-- The new polling trips are no ordinary trips. -/
theorem filter_add_poll_trips (z : Zone) (temp : Nat) (sensors : List Sensor)
    (trips : List TripPoint) :
    (z.addPollTrips temp sensors trips).filter (fun t => t.type ≠ .polling) =
      trips.filter fun t => t.type ≠ .polling := by
  induction sensors generalizing trips with
  | nil => rfl
  | cons s rest ih =>
      rw [addPollTrips, ih, List.filter_append]
      simp [TripPoint.init]

section Sorted

variable {δ : Type} [StdSort]

/-- `sort_and_update_poll_trip` only changes the order of the ordinary trips. -/
theorem sort_ordinary (z : Zone) (w : World δ) :
    (z.sortAndUpdatePollTrip w).1.ordinary.Perm z.ordinary := by
  have hsorted : (z.sortedTrips.filter fun t => t.type ≠ .polling).Perm z.ordinary := by
    unfold sortedTrips ordinary
    rw [← filter_erase_polling z.tripPoints]
    exact (StdSort.perm _ _).filter _
  obtain ⟨hnil, heq⟩ | ⟨t, rest, events, hcons, heq⟩ := z.sort_and_update_poll_trip_cases w
  · rw [heq]
    rw [hnil] at hsorted
    exact hsorted
  · rw [heq]
    unfold ordinary
    dsimp only
    rw [filter_add_poll_trips, ← hcons]
    exact hsorted

end Sorted

/-- The trips that stay when `add_trip` replaces a trip of a type. -/
def othersOf (z : Zone) (type : TripPointType) : List TripPoint :=
  (z.tripPoints.eraseP fun t => t.type = type).filter fun t => t.type ≠ .polling

/-- Replacing the first trip of a type by one of that type. -/
theorem set_first_perm (trips : List TripPoint) (trip : TripPoint) :
    (match trips.findIdx? fun (t : TripPoint) => t.type = trip.type with
      | some i => trips.set i trip
      | none => trips ++ [trip]).Perm (trip :: trips.eraseP fun t => t.type = trip.type) := by
  induction trips with
  | nil => exact .refl _
  | cons t rest ih =>
      rw [List.findIdx?_cons]
      by_cases htype : t.type = trip.type
      · simp [htype]
      · simp only [htype, decide_false, Bool.false_eq_true, if_false, List.eraseP_cons, cond_false]
        cases hfind : rest.findIdx? fun t => t.type = trip.type with
        | none =>
            rw [hfind] at ih
            exact (ih.cons t).trans (.swap ..)
        | some i =>
            rw [hfind] at ih
            exact (ih.cons t).trans (.swap ..)

section Adding

variable {δ : Type} [StdSort]

/-- A forced addition. -/
theorem add_forced_ordinary (z : Zone) {trip : TripPoint} (htype : trip.type ≠ .polling)
    (w : World δ) : (z.addTrip trip true w).1.ordinary.Perm (trip :: z.ordinary) := by
  refine (sort_ordinary _ w).trans ?_
  show ((z.tripPoints ++ [trip]).filter fun t => t.type ≠ .polling).Perm _
  rw [List.filter_append, List.filter_singleton]
  simp only [htype, ne_eq, not_false_eq_true, decide_true]
  exact List.perm_append_singleton ..

/-- Another addition. -/
theorem add_ordinary (z : Zone) {trip : TripPoint} (htype : trip.type ≠ .polling) (w : World δ) :
    (z.addTrip trip false w).1.ordinary.Perm (trip :: z.othersOf trip.type) := by
  refine (sort_ordinary _ w).trans ?_
  refine ((set_first_perm z.tripPoints trip).filter fun t => t.type ≠ .polling).trans ?_
  rw [List.filter_cons_of_pos (by simpa using htype)]
  exact .refl _

end Adding

/-! ## Changes in place -/

/-- The trip has the type and the index of another one. -/
def Labelled (t t' : TripPoint) : Prop := t'.type = t.type ∧ t'.index = t.index

theorem labelled_refl (trips : List TripPoint) : List.Forall₂ Labelled trips trips :=
  List.forall₂_same.mpr fun _ _ => ⟨rfl, rfl⟩

/-- Trips with the same labels have the same indices. -/
theorem indices_of_labelled {trips trips' : List TripPoint}
    (h : List.Forall₂ Labelled trips trips') :
    (trips'.filter fun t => t.type ≠ .polling).map (·.index) =
      (trips.filter fun t => t.type ≠ .polling).map (·.index) := by
  induction h with
  | nil => rfl
  | @cons t t' trips trips' hlabels _ ih =>
      obtain ⟨htype, hindex⟩ := hlabels
      by_cases hpolling : t.type = .polling
      · have hpolling' : t'.type = .polling := htype.trans hpolling
        simpa [hpolling, hpolling'] using ih
      · have hpolling' : t'.type ≠ .polling := htype ▸ hpolling
        simpa [hpolling, hpolling', hindex] using ih

/-- A change of one trip. -/
theorem labelled_modify {f : TripPoint → TripPoint} (hf : ∀ t, Labelled t (f t)) (i : Nat)
    (trips : List TripPoint) : List.Forall₂ Labelled trips (trips.modify i f) := by
  induction trips generalizing i with
  | nil =>
      rw [List.modify_nil]
      exact .nil
  | cons t rest ih =>
      cases i with
      | zero => exact .cons (hf t) (labelled_refl rest)
      | succ i => exact .cons ⟨rfl, rfl⟩ (ih i)

section InPlace

variable {δ : Type}

theorem labelled_set_target (t : TripPoint) (state : Int) (temp : Nat) :
    Labelled t ((t.setFirstTarget state).updateTripTemp temp) :=
  ⟨rfl, rfl⟩

theorem labelled_raise (t : TripPoint) : Labelled t t.raise := by
  unfold TripPoint.raise
  generalize (t.temp + 1000) % 2 ^ 32 = temp
  exact ⟨rfl, rfl⟩

/-- The loop body of `psvt_consolidate`. -/
theorem labelled_consolidate_trip (w : World δ) (t : TripPoint) (next : Option TripPoint) :
    Labelled t (consolidateTrip w t next) := by
  unfold consolidateTrip
  split
  · split
    · exact labelled_raise t
    · split
      · exact labelled_raise t
      · split
        · exact labelled_raise t
        · split
          · exact labelled_set_target t ..
          · exact labelled_raise t
  · exact ⟨rfl, rfl⟩

/-- The loop of `psvt_consolidate`. -/
theorem labelled_consolidate (w : World δ) (trips : List TripPoint) :
    List.Forall₂ Labelled trips (consolidateTrips w trips) := by
  induction trips with
  | nil => exact .nil
  | cons t rest ih => exact .cons (labelled_consolidate_trip w t rest.head?) ih

variable [StdSort]

/-- `update_trip_temp`. -/
theorem update_trip_temp_indices (z : Zone) (trip : TripPoint) (w : World δ) :
    (z.updateTripTemp trip w).1.indices.Perm z.indices := by
  refine ((sort_ordinary _ w).map _).trans ?_
  unfold ordinary indices
  dsimp only
  split
  · rename_i i _
    refine .of_eq (indices_of_labelled (labelled_modify (fun t => ?_) i z.tripPoints))
    exact ⟨rfl, rfl⟩
  · exact .refl _

/-- `bind_cooling_device`. -/
theorem bind_cooling_device_indices (z : Zone) (type : TripPointType) (k : Nat) (b : TripCdevConf)
    (w : World δ) : (z.bindCoolingDevice type k b w).2.indices = z.indices := by
  unfold bindCoolingDevice
  split
  · rfl
  · rename_i i _
    refine indices_of_labelled (labelled_modify (fun t => ?_) i z.tripPoints)
    exact ⟨rfl, rfl⟩

/-- The devices of a trip point without a temperature. -/
theorem bind_cooling_devices_indices (type : TripPointType) (w : World δ)
    (bs : List TripCdevConf) (z : Zone) :
    (bindCoolingDevices type w bs z).2.indices = z.indices := by
  induction bs generalizing z with
  | nil => rfl
  | cons b rest ih =>
      rw [bindCoolingDevices]
      dsimp only
      rw [ih]
      split
      · rfl
      · exact bind_cooling_device_indices ..

/-- Binding configured devices leaves the other members of a trip alone. -/
theorem foldl_bind_configured_fields (w : World δ) (withPid : Bool) (bs : List TripCdevConf)
    (t : TripPoint) :
    ∃ cdevs, bs.foldl (TripPoint.bindConfigured w withPid) t = { t with cdevs } := by
  induction bs generalizing t with
  | nil => exact ⟨t.cdevs, rfl⟩
  | cons b rest ih =>
      have hbind : ∃ cdevs, t.bindConfigured w withPid b = { t with cdevs } := by
        unfold TripPoint.bindConfigured
        split
        · exact ⟨t.cdevs, rfl⟩
        · exact ⟨_, rfl⟩
      obtain ⟨cdevs, heq⟩ := hbind
      obtain ⟨cdevs', heq'⟩ := ih (t.bindConfigured w withPid b)
      refine ⟨cdevs', heq'.trans ?_⟩
      rw [heq]

/-- The devices of a configured trip are bound to a trip that has none. -/
theorem configured_trip_eq (w : World δ) (withPid : Bool) (index zoneIndex : Int) (sensor : Sensor)
    (c : TripPointConf) :
    ∃ depend, configuredTrip w withPid index zoneIndex sensor c =
      c.cdevTrips.foldl (TripPoint.bindConfigured w withPid)
        { TripPoint.init index c.tripPtType (uint32 c.temperature).toNat (uint32 c.hyst).toNat
            zoneIndex sensor.index c.controlType with depend } := by
  unfold configuredTrip
  dsimp only
  split
  · unfold TripPoint.setDependency
    split
    · exact ⟨none, rfl⟩
    · exact ⟨_, rfl⟩
  · exact ⟨none, rfl⟩

/-- A configured trip has the type of its trip point and the index that it is given. -/
theorem configured_trip_labels (w : World δ) (withPid : Bool) (index zoneIndex : Int)
    (sensor : Sensor) (c : TripPointConf) :
    (configuredTrip w withPid index zoneIndex sensor c).type = c.tripPtType ∧
      (configuredTrip w withPid index zoneIndex sensor c).index = index := by
  obtain ⟨depend, heq⟩ := configured_trip_eq w withPid index zoneIndex sensor c
  obtain ⟨cdevs, heq'⟩ := foldl_bind_configured_fields w withPid c.cdevTrips
    { TripPoint.init index c.tripPtType (uint32 c.temperature).toNat (uint32 c.hyst).toNat
        zoneIndex sensor.index c.controlType with depend }
  rw [heq, heq']
  exact ⟨rfl, rfl⟩

end InPlace

/-! ## The index of a new trip -/

/-- The trips that stay are some of the ordinary ones. -/
theorem others_of_sublist (z : Zone) (type : TripPointType) :
    (z.othersOf type).Sublist z.ordinary :=
  List.eraseP_sublist.filter _

/-- A number is the index of a trip that stays when a trip of this type is replaced. -/
def takenBeside (z : Zone) (type : TripPointType) (index : Int) : Bool :=
  (z.othersOf type).any fun t => t.index = index

/-- `psvt_consolidate` adds a trip: there is one trip besides the polling trip, and it has a
target. -/
def addsSecond (z : Zone) : Bool :=
  match z.tripPoints with
  | [t, _] => t.isTargetValid.isSome
  | _ => false

section Fresh

variable {δ : Type} [StdSort]

/-- A forced addition needs an index that no trip has. -/
theorem add_forced_nodup_iff {z : Zone} (hz : z.indices.Nodup) {trip : TripPoint}
    (htype : trip.type ≠ .polling) (w : World δ) :
    (z.addTrip trip true w).1.indices.Nodup ↔ trip.index ∉ z.indices := by
  have hperm : (z.addTrip trip true w).1.indices.Perm (trip.index :: z.indices) :=
    (z.add_forced_ordinary htype w).map _
  rw [hperm.nodup_iff, List.nodup_cons]
  exact and_iff_left hz

/-- Another addition needs an index that no trip has that stays. -/
theorem add_nodup_iff {z : Zone} (hz : z.indices.Nodup) (trip : TripPoint) (w : World δ) :
    (z.addTrip trip false w).1.indices.Nodup ↔
      (trip.type ≠ .polling → z.takenBeside trip.type trip.index = false) := by
  by_cases htype : trip.type = .polling
  · -- The new trip takes the place of a polling trip, which is removed at once.
    have hperm : (z.addTrip trip false w).1.ordinary.Perm z.ordinary := by
      refine (sort_ordinary _ w).trans ?_
      refine ((set_first_perm z.tripPoints trip).filter fun t => t.type ≠ .polling).trans ?_
      rw [List.filter_cons_of_neg (by simpa using htype), htype, filter_erase_polling]
      exact .refl _
    exact iff_of_true ((hperm.map _).nodup_iff.mpr hz) fun h => absurd htype h
  · have hperm : (z.addTrip trip false w).1.indices.Perm
        (trip.index :: (z.othersOf trip.type).map (·.index)) :=
      (z.add_ordinary htype w).map _
    have hothers : ((z.othersOf trip.type).map (·.index)).Nodup :=
      hz.sublist ((z.others_of_sublist trip.type).map _)
    rw [hperm.nodup_iff, List.nodup_cons, and_iff_left hothers]
    simp [takenBeside, htype]

end Fresh

end Zone

section Fresh

variable {δ : Type} [StdSort]

/-- The trip point becomes a trip of its own: it has a temperature and a sensor, and is no polling
trip. -/
def TripPointConf.adds (c : TripPointConf) (w : World δ) : Bool :=
  c.temperature ≠ 0 && (w.searchSensor c.sensorType).isSome && c.tripPtType ≠ .polling

namespace Zone

omit [StdSort] in
theorem bind_sensor_trips (z : Zone) (s : Sensor) : (z.bindSensor s).tripPoints = z.tripPoints := by
  unfold bindSensor
  split
  · rfl
  · rfl

/-- A trip point of the configuration keeps the indices distinct exactly if the number of trips is
not the index of another trip that stays. -/
theorem configure_trip_nodup_iff {z : Zone} (hz : z.indices.Nodup) (c : TripPointConf)
    (w : World δ) :
    (z.configureTrip c w).1.indices.Nodup ↔
      (c.adds w = true → z.takenBeside c.tripPtType z.tripPoints.length = false) := by
  unfold configureTrip TripPointConf.adds
  cases hsensor : w.searchSensor c.sensorType with
  | none =>
      -- only the temperature of a trip that is there may change
      dsimp only
      refine iff_of_true ?_ fun h => by simp at h
      split
      · exact (update_trip_temp_indices ..).nodup_iff.mpr hz
      · exact hz
  | some sensor =>
      dsimp only
      have htrips := z.bind_sensor_trips sensor
      generalize z.bindSensor sensor = z' at htrips
      have hz' : z'.indices = z.indices := by
        unfold indices ordinary
        rw [htrips]
      by_cases htemp : c.temperature = 0
      · -- without a temperature the devices go to a trip that is there
        rw [if_neg (by simpa using htemp)]
        refine iff_of_true ?_ fun h => by simp [htemp] at h
        rw [bind_cooling_devices_indices, hz']
        exact hz
      · rw [if_pos htemp]
        obtain ⟨htype, hindex⟩ :=
          configured_trip_labels w true z'.tripPoints.length z'.index sensor c
        generalize configuredTrip w true z'.tripPoints.length z'.index sensor c = trip
          at htype hindex
        have hbound : (if c.binds w then z'.zoneCdevSetBinded else z').tripPoints =
            z.tripPoints := by
          split
          · exact htrips
          · exact htrips
        generalize (if c.binds w then z'.zoneCdevSetBinded else z') = z'' at hbound
        have hz'' : z''.indices.Nodup := by
          unfold indices ordinary
          rw [hbound]
          exact hz
        rw [add_nodup_iff hz'' trip w, htype, hindex, htrips]
        unfold takenBeside othersOf
        rw [hbound]
        simp [htemp]

/-- `psvt_consolidate` keeps the indices distinct exactly if it adds no trip or the index 1 is
free. -/
theorem psvt_consolidate_nodup_iff {z : Zone} (hz : z.indices.Nodup) (w : World δ) :
    (z.psvtConsolidate w).1.indices.Nodup ↔ (z.addsSecond = true → 1 ∉ z.indices) := by
  have hkeep : (Zone.indices { z with tripPoints := consolidateTrips w z.tripPoints }).Nodup := by
    have heq := indices_of_labelled (labelled_consolidate w z.tripPoints)
    unfold indices ordinary
    rw [heq]
    exact hz
  have hadds : z.addsSecond = singleTarget z.tripPoints := rfl
  obtain ⟨hloop, hrun⟩ | ⟨t, u, k, target, htrips, htarget, -, hrun⟩ := z.psvt_consolidate_cases w
  · rw [hrun, hadds, hloop]
    exact iff_of_true hkeep fun h => absurd h Bool.false_ne_true
  · have hsingle : z.addsSecond = true := by
      rw [hadds, htrips, singleTarget, htarget]
      rfl
    have htype : (secondTrip z t k w).type ≠ .polling := TripPointType.noConfusion
    rw [hrun, add_forced_nodup_iff hz htype, hsingle]
    simp [secondTrip, TripPoint.thdTripPointAddCdev, TripPoint.tripCdevAdd, TripPoint.init]

end Zone

end Fresh

/-! ## Runs -/

/-- A change of the trips by the configuration or by a policy. -/
inductive InstallOp where
  | configureTrip (zone : Nat) (c : TripPointConf)
  | clearZones (keep : Zone → Bool)
  | installPassive (psv : Gddv.Psv)
  | installItmt (entry : Gddv.ItmtEntry)
  | psvtConsolidate

namespace Engine

variable {δ : Type}

/-- In every zone the trips that are no polling trips have distinct indices. -/
def DistinctIndices (e : Engine δ) : Prop := ∀ z ∈ e.zones, z.indices.Nodup

/-- The number of trips of a zone is not the index of one of its trips. -/
def countFree (e : Engine δ) (zone : Nat) : Prop :=
  ∀ z ∈ e.zones[zone]?, (z.tripPoints.length : Int) ∉ z.indices

variable [StdSort]

/-- One trip point of the configuration, for the zone at this place. -/
def configureTrip (e : Engine δ) (zone : Nat) (c : TripPointConf) : Engine δ :=
  match e.zones[zone]? with
  | none => e
  | some z =>
      let (z, _, world) := z.configureTrip c e.world
      { e with zones := e.zones.set zone z, world }

/-- One change. -/
def install [CdevClass δ] (e : Engine δ) : InstallOp → Engine δ
  | .configureTrip zone c => e.configureTrip zone c
  | .clearZones keep => e.clearZones keep
  | .installPassive psv => e.installPassive psv
  | .installItmt entry => e.installItmt entry
  | .psvtConsolidate => e.psvtConsolidate

/-- The index of every trip that the change adds is free. A trip point of the configuration may
take the index of the trip that it replaces. -/
def IndexFree (e : Engine δ) : InstallOp → Prop
  | .configureTrip zone c => ∀ z ∈ e.zones[zone]?, c.adds e.world = true →
      z.takenBeside c.tripPtType z.tripPoints.length = false
  | .clearZones _ => True
  | .installPassive psv => ∀ row ∈ e.passiveRow psv, e.countFree row.zone
  | .installItmt entry => ∀ row ∈ e.itmtRow entry, e.countFree row.zone
  | .psvtConsolidate => ∀ z ∈ e.zones, z.addsSecond = true → 1 ∉ z.indices

omit [StdSort] in
/-- The indices stay distinct exactly if those of the zone that is changed do. -/
theorem distinct_set_iff {zones : List Zone} (hzones : ∀ z ∈ zones, z.indices.Nodup) {i : Nat}
    (hi : i < zones.length) (z' : Zone) :
    (∀ z ∈ zones.set i z', z.indices.Nodup) ↔ z'.indices.Nodup := by
  constructor
  · intro h
    exact h z' (List.mem_set hi z')
  · intro h z hz
    rcases List.mem_or_eq_of_mem_set hz with hz | heq
    · exact hzones z hz
    · rw [heq]
      exact h

/-- A row of a table needs an index that is free. -/
theorem add_row_distinct_iff {e : Engine δ} (he : e.DistinctIndices) (zone : Nat)
    {trip : Zone → TripPoint} (htype : ∀ z, (trip z).type ≠ .polling)
    (hindex : ∀ z, (trip z).index = z.tripPoints.length) :
    (e.addRow zone trip).DistinctIndices ↔ e.countFree zone := by
  unfold addRow countFree
  cases hget : e.zones[zone]? with
  | none => exact iff_of_true he fun z hz => absurd hz (by simp)
  | some z =>
      obtain ⟨hlt, heq⟩ := List.getElem?_eq_some_iff.mp hget
      have hz : z.indices.Nodup := he z (heq ▸ List.getElem_mem hlt)
      refine (distinct_set_iff he hlt _).trans ?_
      refine (Zone.add_forced_nodup_iff hz (htype z) e.world).trans ?_
      rw [hindex]
      simp

variable [CdevClass δ]

/-- One change keeps the indices distinct exactly if the new indices are free. -/
theorem install_distinct_iff {e : Engine δ} (he : e.DistinctIndices) (op : InstallOp) :
    (e.install op).DistinctIndices ↔ e.IndexFree op := by
  cases op with
  | configureTrip zone c =>
      show (e.configureTrip zone c).DistinctIndices ↔
        ∀ z ∈ e.zones[zone]?, c.adds e.world = true →
          z.takenBeside c.tripPtType z.tripPoints.length = false
      unfold configureTrip
      cases hget : e.zones[zone]? with
      | none => exact iff_of_true he fun z hz => absurd hz (by simp)
      | some z =>
          obtain ⟨hlt, heq⟩ := List.getElem?_eq_some_iff.mp hget
          have hz : z.indices.Nodup := he z (heq ▸ List.getElem_mem hlt)
          refine (distinct_set_iff he hlt _).trans ?_
          refine (Zone.configure_trip_nodup_iff hz c e.world).trans ?_
          simp
  | clearZones keep =>
      refine iff_of_true ?_ trivial
      have hzones := for_zones_forall₂ (fun z w => if keep z then (z, w)
        else (z.tripDeleteAll.setZoneActive false, z.zoneReset true w)) e.zones e.world
      intro z' hz'
      obtain ⟨z, hz, w, heq⟩ := forall₂_mem_right hzones hz'
      rw [heq]
      split
      · exact he z hz
      · exact List.nodup_nil
  | installPassive psv =>
      show (e.installPassive psv).DistinctIndices ↔
        ∀ row ∈ e.passiveRow psv, e.countFree row.zone
      unfold installPassive
      cases hrow : e.passiveRow psv with
      | none => exact iff_of_true he fun row hrow => absurd hrow (by simp)
      | some row =>
          refine (add_row_distinct_iff he row.zone (fun z => ?_) fun z => rfl).trans ?_
          · show TripPointType.passive ≠ .polling
            exact TripPointType.noConfusion
          · simp
  | installItmt entry =>
      show (e.installItmt entry).DistinctIndices ↔
        ∀ row ∈ e.itmtRow entry, e.countFree row.zone
      unfold installItmt
      cases hrow : e.itmtRow entry with
      | none => exact iff_of_true he fun row hrow => absurd hrow (by simp)
      | some row =>
          refine (add_row_distinct_iff he row.zone (fun z => ?_) fun z => rfl).trans ?_
          · show TripPointType.passive ≠ .polling
            exact TripPointType.noConfusion
          · simp
  | psvtConsolidate =>
      have hzones := for_zones_forall₂ (fun z w => z.psvtConsolidate w) e.zones e.world
      constructor
      · intro h z hz
        obtain ⟨z', hz', w, heq⟩ := forall₂_mem_left hzones hz
        have hnodup := h z' hz'
        rw [heq] at hnodup
        exact (Zone.psvt_consolidate_nodup_iff (he z hz) w).mp hnodup
      · intro h z' hz'
        obtain ⟨z, hz, w, heq⟩ := forall₂_mem_right hzones hz'
        rw [heq]
        exact (Zone.psvt_consolidate_nodup_iff (he z hz) w).mpr (h z hz)

/-- The trip points of a `ThermalZone` are changes of its zone one after the other. -/
theorem run_configure_trips (zone : Nat) (cs : List TripPointConf) {e : Engine δ} {z : Zone}
    (hget : e.zones[zone]? = some z) :
    run install e (cs.map (.configureTrip zone)) =
      { e with
        zones := e.zones.set zone (z.configureTrips cs e.world).1
        world := (z.configureTrips cs e.world).2.2 } := by
  obtain ⟨hlt, heq⟩ := List.getElem?_eq_some_iff.mp hget
  induction cs generalizing e z with
  | nil =>
      show e = { e with zones := e.zones.set zone z, world := e.world }
      rw [← heq, List.set_getElem_self]
  | cons c rest ih =>
      have hstep : e.configureTrip zone c =
          { e with
            zones := e.zones.set zone (z.configureTrip c e.world).1
            world := (z.configureTrip c e.world).2.2 } := by
        unfold configureTrip
        rw [hget]
      have hlt' : zone < (e.configureTrip zone c).zones.length := by
        rw [hstep, List.length_set]
        exact hlt
      have hget' : (e.configureTrip zone c).zones[zone]? = some (z.configureTrip c e.world).1 := by
        rw [hstep]
        exact List.getElem?_set_self hlt
      refine (ih hget' hlt' (List.getElem?_eq_some_iff.mp hget').2).trans ?_
      rw [hstep]
      dsimp only
      rw [List.set_set]
      rfl

omit [StdSort] [CdevClass δ] in
/-- `disable_cpu_zone` changes nothing but whether a zone is active. -/
theorem disable_cpu_zone_map {α : Type} {f : Zone → α} (hf : ∀ z, f (z.setZoneActive false) = f z)
    (e : Engine δ) (auto : Bool) (conf : ThermalZoneConf) :
    (e.disableCpuZone auto conf).zones.map f = e.zones.map f := by
  have hcpu : e.disableCpu.zones.map f = e.zones.map f := by
    unfold disableCpu
    split
    · rfl
    · apply List.ext_getElem?
      intro j
      rw [List.getElem?_map, List.getElem?_map, List.getElem?_modify]
      cases e.zones[j]? with
      | none => rfl
      | some z =>
          simp only [Option.map_some]
          split
          · exact congrArg some (hf z)
          · rfl
  unfold disableCpuZone
  split
  · exact hcpu
  · split
    · rfl
    · split
      · exact hcpu
      · rfl

/-- A `ThermalZone` for an existing zone leaves the trips that these changes leave. -/
theorem read_thermal_zone_trips (ctx : ReadContext) (e : Engine δ) (conf : ThermalZoneConf)
    {zone : Nat} (hzone : e.searchZone conf.type = some zone) :
    (e.readThermalZone ctx conf).zones.map (·.tripPoints) =
      (run install e (conf.tripPts.map (.configureTrip zone))).zones.map (·.tripPoints) := by
  have hget := List.getElem?_eq_getElem (search_zone_lt hzone)
  rw [run_configure_trips zone conf.tripPts hget]
  unfold readThermalZone
  rw [disable_cpu_zone_map fun _ => rfl, hzone]
  dsimp only
  rw [hget]
  dsimp only [Zone.configure]
  rw [List.map_set, List.map_set]
  congr 1
  split
  · rfl
  · rfl

/-- Whatever is configured and installed, the trips of every zone have distinct indices throughout
exactly if they have them at the start and every new index is free when it is given. -/
theorem distinct_indices_iff (e : Engine δ) (ops : List InstallOp) :
    (∀ pre, pre <+: ops → (run install e pre).DistinctIndices) ↔
      e.DistinctIndices ∧ Meets install IndexFree e ops := by
  have hiff (he : e.DistinctIndices) :
      (∀ pre, pre <+: ops → (run install e pre).DistinctIndices) ↔
        Meets install IndexFree e ops :=
    meets_iff_prefixes (I := fun _ (e : Engine δ) => e.DistinctIndices) he
      fun past op _ hpast => install_distinct_iff hpast op
  constructor
  · intro h
    have he : e.DistinctIndices := h [] List.nil_prefix
    exact ⟨he, (hiff he).mp h⟩
  · intro hex
    obtain ⟨he, hmeets⟩ := hex
    exact (hiff he).mpr hmeets

end Engine

/-- An engine with one zone: a passive trip and the polling trip of its sensor. -/
def passiveZone : Engine GenSysfs :=
  { AdaptiveEngine.sampleEngine with
    zones := [{ Zone.init 0 "TCPU" .independent with
      sensors := [⟨0, .raw, "TCPU", false, false⟩]
      tripPoints :=
        [.init 0 .passive 50000 0 0 0 .parallel, .init 1 .polling 45000 0 0 0 .parallel] }] }

/-- A trip point without devices. -/
def bareTripPoint (type : TripPointType) (temperature : Int) : TripPointConf where
  temperature := temperature
  hyst := 0
  tripPtType := type
  controlType := .parallel
  influence := 100
  sensorType := "TCPU"
  dependency := ⟨false, "", ""⟩
  cdevTrips := []

/-- The passive trip point replaces the passive trip, so that the next trip point gets the same
index as this one. -/
theorem second_trip_same_index :
    letI := StdSort.insertion
    passiveZone.DistinctIndices ∧
      ¬ (run Engine.install passiveZone [.configureTrip 0 (bareTripPoint .passive 60000),
        .configureTrip 0 (bareTripPoint .max 70000)]).DistinctIndices := by
  let _ := StdSort.insertion
  constructor
  · unfold Engine.DistinctIndices
    decide
  · intro h
    have hzone := h _ List.mem_cons_self
    have hfree : (2 : Int) ∉ [(2 : Int)] := (List.nodup_cons.mp hzone).1
    exact hfree List.mem_cons_self

end Thermald
