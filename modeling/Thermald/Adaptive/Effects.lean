import Thermald.Adaptive.Engine
import Thermald.Cooling.ZoneEffects

/-!
# What a policy changes

Installing a table replaces trips and makes zones active, and before that devices are reset. No
zone, sensor or device gets another name, so whether a row can be installed and whether a target
installs a table are the same at any time. `Engine.SameNames` and `AdaptiveEngine.Keeps` say this,
and `execute_targets_spec` says what the loop over the targets of an id leaves behind.
-/

namespace Thermald

/-! ## The special case of `psvt_consolidate` -/

/-- The trips are taken for a single trip with a state and its polling trip. -/
def singleTarget : List TripPoint → Bool
  | [t, _] => t.isTargetValid.isSome
  | _ => false

/-- These are two trips, the first of them with a target. -/
theorem single_target_iff {trips : List TripPoint} : singleTarget trips = true ↔
    trips.length = 2 ∧ ∃ t ∈ trips.head?, t.isTargetValid.isSome := by
  constructor
  · intro h
    unfold singleTarget at h
    split at h
    · rename_i t u
      exact ⟨rfl, t, rfl, h⟩
    · cases h
  · rintro ⟨hlength, t, ht, hvalid⟩
    obtain ⟨t', u, rfl⟩ := List.length_eq_two.mp hlength
    cases ht
    exact hvalid

section SecondTrip

variable {δ : Type} [StdSort]

/-- The trip that is added to a single one, for the same sensor and device and without a target. -/
def secondTrip (z : Zone) (t : TripPoint) (k : Nat) (w : World δ) : TripPoint :=
  (TripPoint.init 1 .passive ((t.temp + 1000) % 2 ^ 32) 0 z.index t.sensorId
    .sequential).thdTripPointAddCdev k 0 0 false tripPtInvalidTargetState none false 0 0 w

end SecondTrip

/-! ## The trips of a zone -/

namespace Zone

variable {δ : Type} [StdSort]

omit [StdSort] in
/-- The polling trips are put behind the others. -/
theorem add_poll_trips_prefix (z : Zone) (temp : Nat) (sensors : List Sensor)
    (trips : List TripPoint) : trips <+: z.addPollTrips temp sensors trips := by
  induction sensors generalizing trips with
  | nil => exact List.prefix_refl _
  | cons s rest ih => exact (List.prefix_append ..).trans (ih _)

/-- An operation on the trips of a zone: it changes nothing else of the zone and sends events. -/
structure EditsTrips (z : Zone) (w : World δ) (r : Zone × World δ) : Prop where
  zone : ∃ tripPoints, r.1 = { z with tripPoints }
  world : ∃ events, r.2 = w.emit events

omit [StdSort] in
/-- Only the trips are replaced. -/
theorem EditsTrips.of_trips (z : Zone) (trips : List TripPoint) (w : World δ) :
    z.EditsTrips w ({ z with tripPoints := trips }, w) :=
  ⟨⟨trips, rfl⟩, [], by simp [World.emit]⟩

omit [StdSort] in
/-- The comparison orders by the temperature. -/
theorem trip_sort_key : KeyOrder tripSort :=
  ⟨fun t => (t.temp : Int), fun a b => by simp [tripSort]⟩

/-- Trips are sorted by their temperature. -/
theorem sorted_ascending (trips : List TripPoint) :
    (StdSort.sort tripSort trips).Pairwise fun t t' => t.temp ≤ t'.temp := by
  refine (StdSort.sorted tripSort trips trip_sort_key).imp fun {t t'} h => ?_
  simpa [tripSort] using h

/-- The trips without one polling trip, in the order in which `sort_and_update_poll_trip` leaves
them. -/
def sortedTrips (z : Zone) : List TripPoint :=
  StdSort.sort tripSort (z.tripPoints.eraseP fun t => t.type = .polling)

/-- `sort_and_update_poll_trip` adds polling trips if there is a trip they can be below. -/
theorem sort_and_update_poll_trip_cases (z : Zone) (w : World δ) :
    (z.sortedTrips = [] ∧ z.sortAndUpdatePollTrip w = ({ z with tripPoints := [] }, w)) ∨
      ∃ t rest events, z.sortedTrips = t :: rest ∧ z.sortAndUpdatePollTrip w =
        ({ z with tripPoints := z.addPollTrips (pollTemp t.temp) z.sensors (t :: rest) },
          w.emit events) := by
  cases h : z.sortedTrips with
  | nil =>
      left
      refine ⟨rfl, ?_⟩
      unfold sortedTrips at h
      simp only [sortAndUpdatePollTrip, h]
  | cons t rest =>
      right
      refine ⟨t, rest,
        z.sensors.flatMap fun s => s.setThreshold w.pollIntervalSec (pollTemp t.temp), rfl, ?_⟩
      unfold sortedTrips at h
      simp only [sortAndUpdatePollTrip, h]

/-- `sort_and_update_poll_trip` works on the trips. -/
theorem sort_and_update_poll_trip_edits (z : Zone) (w : World δ) :
    z.EditsTrips w (z.sortAndUpdatePollTrip w) := by
  obtain ⟨-, heq⟩ | ⟨t, rest, events, -, heq⟩ := z.sort_and_update_poll_trip_cases w
  · rw [heq]
    exact .of_trips z [] w
  · rw [heq]
    exact ⟨⟨_, rfl⟩, _, rfl⟩

/-- `add_trip` works on the trips. -/
theorem add_trip_edits (z : Zone) (trip : TripPoint) (force : Bool) (w : World δ) :
    z.EditsTrips w (z.addTrip trip force w) := by
  have hsort (trips : List TripPoint) :
      z.EditsTrips w ({ z with tripPoints := trips }.sortAndUpdatePollTrip w) := by
    obtain ⟨⟨trips', hzone⟩, hworld⟩ :=
      sort_and_update_poll_trip_edits { z with tripPoints := trips } w
    exact ⟨⟨trips', hzone⟩, hworld⟩
  exact hsort _

/-- What `psvt_consolidate` does: the loop, or a second trip for a single one with a target, which
has a device. -/
theorem psvt_consolidate_cases (z : Zone) (w : World δ) :
    (singleTarget z.tripPoints = false ∧
      z.psvtConsolidate w = ({ z with tripPoints := consolidateTrips w z.tripPoints }, w)) ∨
    ∃ t u k target, z.tripPoints = [t, u] ∧ t.isTargetValid = some target ∧
      t.getFirstCdev = some k ∧ z.psvtConsolidate w = z.addTrip (secondTrip z t k w) true w := by
  unfold psvtConsolidate
  split
  · rename_i t u htrips
    cases htarget : t.isTargetValid with
    | none =>
        refine .inl ⟨?_, ?_⟩
        · rw [htrips, singleTarget, htarget]
          rfl
        · rw [htrips]
    | some target =>
        cases hcdevs : t.cdevs with
        | nil => simp [TripPoint.isTargetValid, hcdevs] at htarget
        | cons b rest =>
            have hcdev : t.getFirstCdev = some b.cdev := by
              rw [TripPoint.getFirstCdev, hcdevs]
              rfl
            rw [hcdev]
            exact .inr ⟨t, u, b.cdev, target, htrips, htarget, hcdev, rfl⟩
  · rename_i hother
    refine .inl ⟨?_, rfl⟩
    unfold singleTarget
    split
    · rename_i t u htrips
      exact absurd htrips (hother t u)
    · rfl

/-- `psvt_consolidate` works on the trips. -/
theorem psvt_consolidate_edits (z : Zone) (w : World δ) :
    z.EditsTrips w (z.psvtConsolidate w) := by
  obtain ⟨-, hrun⟩ | ⟨t, u, k, target, -, -, -, hrun⟩ := z.psvt_consolidate_cases w
  · rw [hrun]
    exact .of_trips z _ w
  · rw [hrun]
    exact add_trip_edits ..

omit [StdSort] in
/-- `set_trip` works on the trips. -/
@[simp] theorem set_passive_temp_type_str (z : Zone) (temp : Nat) :
    (z.setPassiveTemp temp).typeStr = z.typeStr := by
  unfold setPassiveTemp
  split <;> rfl

/-- A trip that is not a polling trip stays when the polling trips are replaced. -/
theorem sort_and_update_poll_trip_ne_nil {z : Zone} {t : TripPoint} (ht : t ∈ z.tripPoints)
    (htype : t.type ≠ .polling) (w : World δ) : (z.sortAndUpdatePollTrip w).1.tripPoints ≠ [] := by
  have hmem : t ∈ z.sortedTrips := by
    rw [sortedTrips, StdSort.mem_sort]
    exact (List.mem_eraseP_of_neg (by simpa using htype)).mpr ht
  obtain ⟨hnil, -⟩ | ⟨first, rest, events, -, heq⟩ := z.sort_and_update_poll_trip_cases w
  · simp [hnil] at hmem
  · rw [heq]
    intro hnil
    have hpre := z.add_poll_trips_prefix (pollTemp first.temp) z.sensors (first :: rest)
    rw [show z.addPollTrips _ z.sensors _ = [] from hnil] at hpre
    simp at hpre

/-- A zone has a trip after a forced addition. -/
theorem add_trip_ne_nil (z : Zone) {trip : TripPoint} (htype : trip.type ≠ .polling)
    (w : World δ) : (z.addTrip trip true w).1.tripPoints ≠ [] := by
  apply sort_and_update_poll_trip_ne_nil (t := trip) _ htype
  simp

omit [StdSort] in
/-- The loop of `psvt_consolidate` changes the trips one by one. -/
@[simp] theorem length_consolidate_trips (w : World δ) (trips : List TripPoint) :
    (consolidateTrips w trips).length = trips.length := by
  induction trips with
  | nil => rfl
  | cons t rest ih => simp [consolidateTrips, ih]

/-- `psvt_consolidate` leaves a zone with trips with trips. -/
theorem psvt_consolidate_ne_nil {z : Zone} (h : z.tripPoints ≠ []) (w : World δ) :
    (z.psvtConsolidate w).1.tripPoints ≠ [] := by
  have hedit : consolidateTrips w z.tripPoints ≠ [] := by
    rw [← List.length_pos_iff, length_consolidate_trips]
    exact List.length_pos_iff.mpr h
  obtain ⟨-, hrun⟩ | ⟨t, u, k, target, -, -, -, hrun⟩ := z.psvt_consolidate_cases w
  · rw [hrun]
    exact hedit
  · rw [hrun]
    apply add_trip_ne_nil
    simp [secondTrip, TripPoint.thdTripPointAddCdev, TripPoint.tripCdevAdd, TripPoint.init]

end Zone

/-- The devices of the worlds are the same. -/
structure SameCdevs {δ : Type} (w w' : World δ) : Prop where
  cdevs : w'.cdevs = w.cdevs
  cdevCount : w'.cdevCount = w.cdevCount

namespace SameCdevs

variable {δ : Type} {w w' w'' : World δ}

theorem refl (w : World δ) : SameCdevs w w := ⟨rfl, rfl⟩

theorem trans (h : SameCdevs w w') (h' : SameCdevs w' w'') : SameCdevs w w'' :=
  ⟨h'.cdevs.trans h.cdevs, h'.cdevCount.trans h.cdevCount⟩

theorem add_eq [StdSort] (h : SameCdevs w w') (t : TripPoint) (b : TripCdev) :
    t.tripCdevAdd b w' = t.tripCdevAdd b w := by
  unfold TripPoint.tripCdevAdd
  rw [h.cdevs]

end SameCdevs

/-- A trip that only keeps the polling thread going. -/
structure PollOnly (t : TripPoint) : Prop where
  polling : t.type = .polling
  cdevs : t.cdevs = []

section PollTrips

variable {δ : Type}

/-- The polling trips that are added, one for each sensor, have no devices. -/
theorem add_poll_trips_bare (z : Zone) (temp : Nat) (sensors : List Sensor)
    (trips : List TripPoint) :
    ∃ added, z.addPollTrips temp sensors trips = trips ++ added ∧
      added.length = sensors.length ∧ ∀ t ∈ added, PollOnly t := by
  induction sensors generalizing trips with
  | nil => exact ⟨[], (List.append_nil trips).symm, rfl, by simp⟩
  | cons s rest ih =>
      let first := TripPoint.init trips.length .polling temp 0 z.index s.index .parallel
      obtain ⟨added, heq, hlength, hadded⟩ := ih (trips ++ [first])
      refine ⟨first :: added, ?_, by simp [hlength],
        List.forall_mem_cons.mpr ⟨⟨rfl, rfl⟩, hadded⟩⟩
      rw [Zone.addPollTrips, heq, List.append_assoc]
      rfl

variable [StdSort]

/-- `sort_and_update_poll_trip` sorts the trips and puts polling trips behind them. -/
theorem sort_and_update_trips (z : Zone) (w : World δ) :
    (∃ added, (z.sortAndUpdatePollTrip w).1.tripPoints = z.sortedTrips ++ added ∧
      ∀ t ∈ added, PollOnly t) ∧ SameCdevs w (z.sortAndUpdatePollTrip w).2 := by
  obtain ⟨hnil, heq⟩ | ⟨t, rest, events, hcons, heq⟩ := z.sort_and_update_poll_trip_cases w
  · rw [heq, hnil]
    exact ⟨⟨[], rfl, by simp⟩, rfl, rfl⟩
  · obtain ⟨added, hadd, -, hbare⟩ :=
      add_poll_trips_bare z (Zone.pollTemp t.temp) z.sensors (t :: rest)
    rw [heq, hcons]
    exact ⟨⟨added, hadd, hbare⟩, rfl, rfl⟩

/-- A forced trip is sorted in, and there is one polling trip for each sensor behind the others. -/
theorem add_trip_trips (z : Zone) {trip : TripPoint} (htype : trip.type ≠ .polling)
    (w : World δ) :
    ∃ added, (z.addTrip trip true w).1 =
        { z with
          tripPoints :=
            Zone.sortedTrips { z with tripPoints := z.tripPoints ++ [trip] } ++ added } ∧
      added.length = z.sensors.length ∧ ∀ t ∈ added, PollOnly t := by
  have hmem : trip ∈ Zone.sortedTrips { z with tripPoints := z.tripPoints ++ [trip] } := by
    rw [Zone.sortedTrips, StdSort.mem_sort]
    exact (List.mem_eraseP_of_neg (by simpa using htype)).mpr (by simp)
  have hcases := Zone.sort_and_update_poll_trip_cases
    { z with tripPoints := z.tripPoints ++ [trip] } w
  obtain ⟨hnil, -⟩ | ⟨t, rest, events, hcons, heq⟩ := hcases
  · rw [hnil] at hmem
    cases hmem
  · obtain ⟨added, hadd, hlength, hbare⟩ :=
      add_poll_trips_bare { z with tripPoints := z.tripPoints ++ [trip] }
        (Zone.pollTemp t.temp) z.sensors (t :: rest)
    refine ⟨added, ?_, hlength, hbare⟩
    rw [hcons, ← hadd]
    exact congrArg Prod.fst heq

end PollTrips

/-! ## Names -/

/-- Another world with the same sensors and devices by their names. -/
structure World.SameNames {δ : Type} (w w' : World δ) : Prop where
  cdevCount : w'.cdevCount = w.cdevCount
  sensors : w'.sensors = w.sensors
  typeStr : ∀ k, (w'.cdevs k).typeStr = (w.cdevs k).typeStr
  aliasStr : ∀ k, (w'.cdevs k).aliasStr = (w.cdevs k).aliasStr

namespace World.SameNames

variable {δ : Type} {w w' w'' : World δ}

theorem refl (w : World δ) : w.SameNames w := ⟨rfl, rfl, fun _ => rfl, fun _ => rfl⟩

theorem trans (h : w.SameNames w') (h' : w'.SameNames w'') : w.SameNames w'' where
  cdevCount := h'.cdevCount.trans h.cdevCount
  sensors := h'.sensors.trans h.sensors
  typeStr k := (h'.typeStr k).trans (h.typeStr k)
  aliasStr k := (h'.aliasStr k).trans (h.aliasStr k)

theorem emit (w : World δ) (events : List Event) : w.SameNames (w.emit events) :=
  ⟨rfl, rfl, fun _ => rfl, fun _ => rfl⟩

/-- A device is found under the same names. -/
theorem search_cdev_eq (h : w.SameNames w') (name : String) :
    w'.searchCdev name = w.searchCdev name := by
  simp only [World.searchCdev, h.cdevCount, h.typeStr, h.aliasStr]

/-- A sensor is found under the same names. -/
theorem search_sensor_eq (h : w.SameNames w') (name : String) :
    w'.searchSensor name = w.searchSensor name := by
  simp only [World.searchSensor, h.sensors]

variable [CdevClass δ] [StdSort]

/-- A reset leaves the names alone. -/
theorem of_zone_reset (z : Zone) (force : Bool) (w : World δ) :
    w.SameNames (z.zoneReset force w) := by
  have hacts (k : Nat) := z.zone_reset_acts force k w
  have hconfig (k : Nat) : Cdev.SameConfig (w.cdevs k) ((z.zoneReset force w).cdevs k) := by
    refine (hacts k).steps.invariant (I := fun d => Cdev.SameConfig (w.cdevs k) d) ?_ (.refl _)
    intro op _ d d' hop hd
    exact hd.trans hop.config
  exact ⟨(hacts 0).cdevCount, (hacts 0).sensors, fun k => (hconfig k).typeStr,
    fun k => (hconfig k).aliasStr⟩

end World.SameNames

namespace Engine

variable {δ : Type}

/-- Another engine with the same zones, sensors and devices by their names. -/
structure SameNames (e e' : Engine δ) : Prop where
  zones : e'.zones.map (·.typeStr) = e.zones.map (·.typeStr)
  world : e.world.SameNames e'.world

namespace SameNames

variable {e e' e'' : Engine δ}

theorem refl (e : Engine δ) : e.SameNames e := ⟨rfl, .refl _⟩

theorem trans (h : e.SameNames e') (h' : e'.SameNames e'') : e.SameNames e'' :=
  ⟨h'.zones.trans h.zones, h.world.trans h'.world⟩

/-- A zone is found under the same names. -/
theorem search_zone_eq (h : e.SameNames e') (name : String) :
    e'.searchZone name = e.searchZone name := by
  have hfind (e : Engine δ) : e.searchZone name =
      (e.zones.map (·.typeStr)).findIdx? fun s => s = name ||
        ("pch_".toList.isPrefixOf name.toList && "pch_".toList.isPrefixOf s.toList) := by
    rw [List.findIdx?_map]
    rfl
  rw [hfind, hfind, h.zones]

/-- The device of a row is the same. -/
theorem table_cdev_eq (h : e.SameNames e') (name : Bytes) :
    e'.tableCdev name = e.tableCdev name := by
  simp only [tableCdev, h.world.search_cdev_eq]

/-- A row of a passive table refers to the same things. -/
theorem passive_row_eq (h : e.SameNames e') (psv : Gddv.Psv) :
    e'.passiveRow psv = e.passiveRow psv := by
  simp only [passiveRow, tableZone, h.search_zone_eq, h.table_cdev_eq, h.world.search_sensor_eq]

end SameNames

/-- A function on zones that keeps the names is applied to all of them. -/
theorem for_zones_names {f : Zone → World δ → Zone × World δ}
    (hf : ∀ z w, (f z w).1.typeStr = z.typeStr ∧ w.SameNames (f z w).2) (zones : List Zone)
    (w : World δ) :
    (forZones f zones w).1.map (·.typeStr) = zones.map (·.typeStr) ∧
      w.SameNames (forZones f zones w).2 := by
  induction zones generalizing w with
  | nil => exact ⟨rfl, .refl w⟩
  | cons z rest ih =>
      obtain ⟨htype, hnames⟩ := hf z w
      obtain ⟨htypes, hnames'⟩ := ih (f z w).2
      refine ⟨?_, hnames.trans hnames'⟩
      show (f z w).1.typeStr :: (forZones f rest (f z w).2).1.map (·.typeStr) = _
      rw [htype, htypes]
      rfl

variable [StdSort]

/-- Adding a trip keeps the names. -/
theorem add_row_names (e : Engine δ) (zone : Nat) (trip : Zone → TripPoint) :
    e.SameNames (e.addRow zone trip) := by
  unfold addRow
  split
  · exact .refl e
  · rename_i z hz
    obtain ⟨⟨trips, hzone⟩, events, hworld⟩ := z.add_trip_edits (trip z) true e.world
    refine ⟨?_, ?_⟩
    · show (e.zones.set zone _).map (·.typeStr) = _
      rw [List.map_set, hzone]
      apply List.ext_getElem?
      intro i
      rw [List.getElem?_set]
      split
      · rename_i hi
        subst hi
        simp only [List.length_map, List.getElem?_map, hz, Option.map_some]
        rw [if_pos (List.getElem?_eq_some_iff.mp hz).1]
        rfl
      · rfl
    · show e.world.SameNames (z.addTrip (trip z) true e.world).2
      rw [hworld]
      exact .emit _ _

/-- Installing a row keeps the names. -/
theorem install_passive_names (e : Engine δ) (psv : Gddv.Psv) :
    e.SameNames (e.installPassive psv) := by
  unfold installPassive
  split
  · exact .refl e
  · exact add_row_names ..

theorem install_itmt_names (e : Engine δ) (entry : Gddv.ItmtEntry) :
    e.SameNames (e.installItmt entry) := by
  unfold installItmt
  split
  · exact .refl e
  · exact add_row_names ..

omit [StdSort] in
/-- Installing the rows one after the other keeps the names. -/
theorem foldl_names {ρ : Type} {f : Engine δ → ρ → Engine δ} (hf : ∀ e r, SameNames e (f e r))
    (rows : List ρ) (e : Engine δ) : e.SameNames (rows.foldl f e) := by
  induction rows generalizing e with
  | nil => exact .refl e
  | cons r rest ih => exact (hf e r).trans (ih _)

/-- Consolidation keeps the names. -/
theorem psvt_consolidate_names (e : Engine δ) : e.SameNames e.psvtConsolidate := by
  obtain ⟨hzones, hworld⟩ := for_zones_names (fun z w => by
    obtain ⟨⟨trips, hzone⟩, events, hworld⟩ := z.psvt_consolidate_edits w
    rw [hzone, hworld]
    exact ⟨rfl, .emit _ _⟩) e.zones e.world
  exact ⟨hzones, hworld⟩

/-- Clearing the zones keeps the names. -/
theorem clear_zones_names [CdevClass δ] (e : Engine δ) (keep : Zone → Bool) :
    e.SameNames (e.clearZones keep) := by
  obtain ⟨hzones, hworld⟩ := for_zones_names (f := fun z w =>
    if keep z then (z, w) else (z.tripDeleteAll.setZoneActive false, z.zoneReset true w))
    (fun z w => by
      split
      · exact ⟨rfl, .refl w⟩
      · exact ⟨rfl, .of_zone_reset z true w⟩) e.zones e.world
  exact ⟨hzones, hworld⟩

omit [StdSort] in
/-- The edit of a trip keeps the names. -/
theorem set_trip_names (e : Engine δ) (target : Bytes) (temp : Nat) :
    e.SameNames (e.setTrip target temp) := by
  unfold setTrip
  split
  · exact .refl e
  · refine ⟨?_, .refl _⟩
    show (e.zones.modify _ _).map (·.typeStr) = _
    apply List.ext_getElem?
    intro i
    simp only [List.getElem?_map, List.getElem?_modify]
    cases e.zones[i]? with
    | none => rfl
    | some z =>
        rw [Option.map_some]
        split
        · exact congrArg some (z.set_passive_temp_type_str temp)
        · rfl

end Engine

/-! ## The state of the adaptive engine -/

namespace AdaptiveEngine

variable {δ : Type}

/-- What nothing changes after the start: the names, the tables and the fallback target. -/
structure Updates (a a' : AdaptiveEngine δ) : Prop where
  names : a.engine.SameNames a'.engine
  gddv : a'.gddv = a.gddv
  fallbackId : a'.fallbackId = a.fallbackId
  int3400Path : a'.int3400Path = a.int3400Path
  passiveDefOnly : a'.passiveDefOnly = a.passiveDefOnly

namespace Updates

variable {a a' a'' : AdaptiveEngine δ}

theorem refl (a : AdaptiveEngine δ) : a.Updates a := ⟨.refl _, rfl, rfl, rfl, rfl⟩

theorem trans (h : a.Updates a') (h' : a'.Updates a'') : a.Updates a'' where
  names := h.names.trans h'.names
  gddv := h'.gddv.trans h.gddv
  fallbackId := h'.fallbackId.trans h.fallbackId
  int3400Path := h'.int3400Path.trans h.int3400Path
  passiveDefOnly := h'.passiveDefOnly.trans h.passiveDefOnly

/-- Whether a target installs a table is always the same. -/
theorem installs_eq (h : a.Updates a') : a'.installs = a.installs := by
  funext t
  have hcdev : a'.targetCdev t = a.targetCdev t := h.names.table_cdev_eq _
  simp only [installs, isInt3400Target, hcdev, h.int3400Path, h.gddv]

end Updates

/-- What executing targets leaves alone. -/
structure Keeps (a a' : AdaptiveEngine δ) : Prop extends a.Updates a' where
  policyActive : a'.policyActive = a.policyActive
  currentMatchedTarget : a'.currentMatchedTarget = a.currentMatchedTarget
  policies : a'.policies = a.policies

namespace Keeps

variable {a a' a'' : AdaptiveEngine δ}

theorem refl (a : AdaptiveEngine δ) : a.Keeps a := ⟨.refl a, rfl, rfl, rfl⟩

theorem trans (h : a.Keeps a') (h' : a'.Keeps a'') : a.Keeps a'' where
  toUpdates := h.toUpdates.trans h'.toUpdates
  policyActive := h'.policyActive.trans h.policyActive
  currentMatchedTarget := h'.currentMatchedTarget.trans h.currentMatchedTarget
  policies := h'.policies.trans h.policies

/-- Other zones and devices of the same names, with or without a table, in a process in any
state. -/
theorem of_names {e : Engine δ} (h : a.engine.SameNames e) (installed : Bool) (process : Process) :
    a.Keeps { a with engine := e, int3400Installed := installed, process } :=
  ⟨⟨h, rfl, rfl, rfl, rfl⟩, rfl, rfl, rfl⟩

end Keeps

variable [StdSort]

section Install

variable [AdaptiveCdev δ] (a : AdaptiveEngine δ)

theorem install_itmt_table_keeps (t : Gddv.Itmt) : a.Keeps (a.installItmtTable t) := by
  apply Keeps.of_names
  refine Engine.SameNames.trans ?_ (Engine.foldl_names Engine.install_itmt_names _ _)
  split
  · exact .refl _
  · exact Engine.clear_zones_names ..

theorem install_psvt_table_keeps (t : Gddv.Psvt) : a.Keeps (a.installPsvtTable t) := by
  apply Keeps.of_names
  refine Engine.SameNames.trans ?_ (Engine.foldl_names Engine.install_passive_names _ _)
  split
  · exact .refl _
  · exact Engine.clear_zones_names ..

theorem install_passive_default_keeps : a.Keeps a.installPassiveDefault := by
  have hclear := a.engine.clear_zones_names fun _ => false
  unfold installPassiveDefault
  split
  · exact .of_names hclear _ _
  · refine .of_names ((hclear.trans ?_).trans (Engine.psvt_consolidate_names _)) _ _
    exact Engine.foldl_names Engine.install_passive_names _ _

/-- Installing the default table does not end the process and does not count as a table of a
target. -/
theorem install_passive_default_process :
    a.installPassiveDefault.process = a.process ∧
      a.installPassiveDefault.int3400Installed = a.int3400Installed := by
  unfold installPassiveDefault
  split
  · exact ⟨rfl, rfl⟩
  · exact ⟨rfl, rfl⟩

end Install

variable [StdFloat] (a : AdaptiveEngine δ) (target : Gddv.AdaptiveTarget)

/-- The end of `set_int3400_target` edits trips, or ends the process. -/
theorem finish_int3400_target_keeps :
    a.Keeps (a.finishInt3400Target target) ∧
      (a.finishInt3400Target target).int3400Installed = a.int3400Installed := by
  have hnames := a.engine.psvt_consolidate_names
  unfold finishInt3400Target
  dsimp only
  split
  · split
    · split
      · exact ⟨.of_names hnames _ _, rfl⟩
      · exact ⟨.of_names (hnames.trans (Engine.set_trip_names ..)) _ _, rfl⟩
    · exact ⟨.of_names hnames _ _, rfl⟩
  · exact ⟨.of_names hnames _ _, rfl⟩

/-- The table that `set_int3400_target` finds for the target is there. -/
def finds (a : AdaptiveEngine δ) (target : Gddv.AdaptiveTarget) : Bool :=
  if target.code = Gddv.ascii "ITMT" ∨ target.code = Gddv.ascii "ITMT3" then
    (a.gddv.findItmt target.argument).isSome
  else target.code = Gddv.ascii "PSVT" && (a.gddv.findPsvt target.argument).isSome

variable [AdaptiveCdev δ]

/-- A table is installed if it is found. -/
theorem set_int3400_target_keeps :
    a.Keeps (a.setInt3400Target target) ∧
      (a.setInt3400Target target).int3400Installed =
        (a.int3400Installed || a.finds target) := by
  unfold setInt3400Target finds
  split
  · split
    · rename_i hnone
      have h := a.finish_int3400_target_keeps target
      simpa [hnone] using h
    · rename_i t hsome
      have h := (a.installItmtTable t).finish_int3400_target_keeps target
      refine ⟨(a.install_itmt_table_keeps t).trans h.1, h.2.trans ?_⟩
      simp [hsome, installItmtTable]
  · split
    · rename_i hcode
      split
      · rename_i hnone
        simp [hnone, Keeps.refl]
      · rename_i t hsome
        have h := (a.installPsvtTable t).finish_int3400_target_keeps target
        refine ⟨(a.install_psvt_table_keeps t).trans h.1, h.2.trans ?_⟩
        simp [hsome, hcode, installPsvtTable]
    · rename_i hcode
      have h := a.finish_int3400_target_keeps target
      simpa [hcode] using h

omit [StdSort] [StdFloat] in
/-- A target that is for a device only changes this device. -/
theorem set_adaptive_target_names (k : Nat) :
    a.engine.world.SameNames (a.engine.world.setCdev k
      (AdaptiveCdev.setAdaptiveTarget (a.engine.world.cdevs k) target)) := by
  refine ⟨rfl, rfl, fun j => ?_, fun j => ?_⟩
  · simp only [World.setCdev, Function.update_apply]
    split
    · rename_i hj
      rw [hj, AdaptiveCdev.type_str_eq]
    · rfl
  · simp only [World.setCdev, Function.update_apply]
    split
    · rename_i hj
      rw [hj, AdaptiveCdev.alias_str_eq]
    · rfl

/-- Executing a target installs a table exactly if it is a target that does so. -/
theorem execute_target_keeps :
    a.Keeps (a.executeTarget target) ∧
      (a.executeTarget target).int3400Installed =
        (a.int3400Installed || a.installs target) := by
  unfold executeTarget
  split
  · rename_i h
    have hset := a.set_int3400_target_keeps target
    refine ⟨hset.1, hset.2.trans ?_⟩
    simp only [installs, h, finds, Bool.true_and]
  · rename_i h
    have hno : a.installs target = false := by simp [installs, h]
    split
    · rename_i k _ _
      dsimp only
      constructor
      · apply Keeps.of_names
        exact ⟨rfl, a.set_adaptive_target_names target k⟩
      · simp [hno]
    · exact ⟨.refl a, by simp [hno]⟩

/-- The loop over the targets of an id executes all of them unless the process ends, and a table is
there afterwards if one of them has installed one. -/
theorem execute_targets_spec (targets : List Gddv.AdaptiveTarget) (a : AdaptiveEngine δ) :
    a.Keeps (executeTargets targets a).2 ∧ ((executeTargets targets a).2.process = .running →
      (executeTargets targets a).1 = targets.map (fun t => (t, a.installs t)) ∧
        (executeTargets targets a).2.int3400Installed =
          (a.int3400Installed || targets.any a.installs)) := by
  induction targets generalizing a with
  | nil => exact ⟨.refl a, fun _ => by simp [executeTargets]⟩
  | cons t rest ih =>
      unfold executeTargets
      split
      · obtain ⟨hkeeps, hinstalled⟩ := a.execute_target_keeps t
        obtain ⟨hkeeps', hspec⟩ := ih (a.executeTarget t)
        refine ⟨hkeeps.trans hkeeps', fun hrunning => ?_⟩
        obtain ⟨hexecuted, htable⟩ := hspec hrunning
        have hsame := hkeeps.installs_eq
        constructor
        · simp [hexecuted, hsame]
        · simp [htable, hinstalled, hsame, Bool.or_assoc]
      · rename_i hended
        exact ⟨.refl a, fun hrunning => absurd hrunning hended⟩

end AdaptiveEngine

end Thermald
