import Thermald.Adaptive.TripOrder
import Thermald.Config.Indices

/-!
# The polling trips of a zone

`sort_and_update_poll_trip` brings the polling trips of a zone up to date. It removes the first
polling trip that it finds, takes the lowest of the remaining trips, and adds a polling trip for
each sensor. Old polling trips that are not the first stay in the list, and the next call may take
one of them for the lowest trip.

`poll_trips_updated_iff` says when the polling trips are as they should be, whatever the order in
which `std::sort` leaves trips of equal temperature: the zone has at most one sensor and at most one
old polling trip, the arithmetic does not wrap, and no two trips have the same temperature.
-/

namespace Thermald

namespace Zone

/-- The polling trips. -/
def polling (z : Zone) : List TripPoint := z.tripPoints.filter fun t => t.type = .polling

/-- The temperature of the lowest trip that is not a polling trip. -/
structure Lowest (z : Zone) (lowest : Nat) : Prop where
  reached : ∃ t ∈ z.ordinary, t.temp = lowest
  least : ∀ t ∈ z.ordinary, lowest ≤ t.temp

/-- What a call of `sort_and_update_poll_trip` is for: one polling trip for each sensor, below the
lowest of the other trips, and the others in ascending order. Another call changes nothing. -/
structure PollTripsUpdated {δ : Type} [StdSort] (lowest : Nat) (z : Zone) (w : World δ) :
    Prop where
  perSensor : ((z.sortAndUpdatePollTrip w).1.polling.map (·.sensorId)).Perm
    (z.sensors.map (·.index))
  temps : ∀ t ∈ (z.sortAndUpdatePollTrip w).1.polling,
    (t.temp : Int) = lowest - max (lowest / 10) 5000 ∧ t.temp < lowest
  kept : (z.sortAndUpdatePollTrip w).1.ordinary.Perm z.ordinary
  ascending : (z.sortAndUpdatePollTrip w).1.ordinary.Pairwise fun t t' => t.temp ≤ t'.temp
  again : ((z.sortAndUpdatePollTrip w).1.sortAndUpdatePollTrip (z.sortAndUpdatePollTrip w).2).1 =
    (z.sortAndUpdatePollTrip w).1

/-- A zone whose polling trips can be brought up to date. -/
structure SinglePolling (lowest : Nat) (z : Zone) : Prop where
  polling : z.polling.length ≤ 1
  sensors : z.sensors.length ≤ 1
  range : z.sensors ≠ [] → 5000 ≤ lowest ∧ lowest * 10 < 2 ^ 32
  distinct : ∀ t ∈ z.ordinary, ∀ t' ∈ z.ordinary, t.temp = t'.temp → t = t'

/-- The temperature of a polling trip is the one that is meant if the arithmetic does not wrap. -/
theorem poll_temp_iff (lowest : Nat) :
    ((pollTemp lowest : Int) = lowest - max (lowest / 10) 5000 ∧ pollTemp lowest < lowest) ↔
      5000 ≤ lowest ∧ lowest * 10 < 2 ^ 32 := by
  simp only [pollTemp, defAsyncTripOffsetPct, defAsyncTripOffset]
  constructor
  · rintro ⟨htemp, hbelow⟩
    split at htemp <;> omega
  · rintro ⟨hlow, hhigh⟩
    have htenth : lowest * 10 % 2 ^ 32 / 100 = lowest / 10 := by
      rw [Nat.mod_eq_of_lt hhigh]
      omega
    rw [htenth]
    split
    · omega
    · rw [show lowest + 2 ^ 32 - lowest / 10 = lowest - lowest / 10 + 2 ^ 32 by omega,
        Nat.add_mod_right, Nat.mod_eq_of_lt (by omega)]
      omega

/-! ## The lists -/

/-- The trips that are added are polling trips with the temperature, one for each sensor. -/
theorem add_poll_trips_added (z : Zone) (temp : Nat) (sensors : List Sensor)
    (trips : List TripPoint) :
    ∃ added, z.addPollTrips temp sensors trips = trips ++ added ∧
      (∀ t ∈ added, t.type = .polling ∧ t.temp = temp) ∧
      added.map (·.sensorId) = sensors.map (·.index) := by
  induction sensors generalizing trips with
  | nil => exact ⟨[], (List.append_nil trips).symm, by simp, rfl⟩
  | cons s rest ih =>
      let first := TripPoint.init trips.length .polling temp 0 z.index s.index .parallel
      obtain ⟨added, heq, hadded, hids⟩ := ih (trips ++ [first])
      refine ⟨first :: added, ?_, ?_, ?_⟩
      · rw [addPollTrips, heq, List.append_assoc]
        rfl
      · intro t ht
        rcases List.mem_cons.mp ht with rfl | ht
        · exact ⟨rfl, rfl⟩
        · exact hadded t ht
      · rw [List.map_cons, hids]
        rfl

/-- The old trips of the zone are irrelevant for the new ones. -/
theorem add_poll_trips_of_trips (z : Zone) (old : List TripPoint) (temp : Nat)
    (sensors : List Sensor) (trips : List TripPoint) :
    { z with tripPoints := old }.addPollTrips temp sensors trips =
      z.addPollTrips temp sensors trips := by
  induction sensors generalizing trips with
  | nil => rfl
  | cons s rest ih => exact ih _

/-- Of the polling trips the first is removed. -/
theorem filter_polling_erase (trips : List TripPoint) :
    (trips.eraseP fun t => t.type = .polling).filter (fun t => t.type = .polling) =
      (trips.filter fun t => t.type = .polling).tail := by
  induction trips with
  | nil => rfl
  | cons t rest ih =>
      by_cases htype : t.type = .polling
      · simp [htype]
      · rw [List.eraseP_cons_of_neg (by simpa using htype),
          List.filter_cons_of_neg (by simpa using htype),
          List.filter_cons_of_neg (by simpa using htype), ih]

/-- With one polling trip at most, the trips without the first polling trip are the ordinary
ones. -/
theorem erase_polling_eq {z : Zone} (h : z.polling.length ≤ 1) :
    (z.tripPoints.eraseP fun t => t.type = .polling) = z.ordinary := by
  have hnone : (z.tripPoints.eraseP fun t => t.type = .polling).filter
      (fun t => t.type = .polling) = [] := by
    rw [filter_polling_erase]
    apply List.eq_nil_of_length_eq_zero
    rw [List.length_tail]
    show z.polling.length - 1 = 0
    omega
  rw [ordinary, ← filter_erase_polling, eq_comm, List.filter_eq_self]
  intro t ht
  simpa using List.filter_eq_nil_iff.mp hnone t ht

/-! ## One call -/

section Call

variable {δ : Type} [StdSort] {lowest : Nat} {z : Zone}

/-- The first of the sorted trips is the lowest one. -/
theorem Lowest.head_sorted (h : z.Lowest lowest) {t : TripPoint} {rest : List TripPoint}
    (hsorted : StdSort.sort tripSort z.ordinary = t :: rest) : t.temp = lowest := by
  have hmem : ∀ u, u ∈ t :: rest ↔ u ∈ z.ordinary := by
    intro u
    rw [← hsorted, StdSort.mem_sort]
  obtain ⟨u, hu, htemp⟩ := h.reached
  have hfirst : t.temp ≤ u.temp := by
    have hascending := sorted_ascending z.ordinary
    rw [hsorted] at hascending
    rcases List.mem_cons.mp ((hmem u).mpr hu) with rfl | hrest
    · exact le_refl _
    · exact List.rel_of_pairwise_cons hascending hrest
  exact le_antisymm (hfirst.trans_eq htemp) (h.least t ((hmem t).mp List.mem_cons_self))

/-- With one old polling trip at most, it is replaced by new ones behind the sorted trips. -/
theorem updated_eq (hlowest : z.Lowest lowest) (h : z.polling.length ≤ 1) (w : World δ) :
    (z.sortAndUpdatePollTrip w).1 =
      { z with
        tripPoints := z.addPollTrips (pollTemp lowest) z.sensors
          (StdSort.sort tripSort z.ordinary) } := by
  have hsorted : z.sortedTrips = StdSort.sort tripSort z.ordinary := by
    rw [sortedTrips, erase_polling_eq h]
  obtain ⟨hnil, -⟩ | ⟨t, rest, events, hcons, heq⟩ := z.sort_and_update_poll_trip_cases w
  · obtain ⟨u, hu, -⟩ := hlowest.reached
    rw [hsorted, StdSort.sort_eq_nil] at hnil
    rw [hnil] at hu
    exact absurd hu List.not_mem_nil
  · rw [hsorted] at hcons
    rw [heq, hcons, hlowest.head_sorted hcons]

/-- The polling trips after such a call. -/
theorem updated_polling (hlowest : z.Lowest lowest) (h : z.polling.length ≤ 1) (w : World δ) :
    (z.sortAndUpdatePollTrip w).1.polling.map (·.sensorId) = z.sensors.map (·.index) ∧
      ∀ t ∈ (z.sortAndUpdatePollTrip w).1.polling, t.temp = pollTemp lowest := by
  obtain ⟨added, heq, hadded, hids⟩ := z.add_poll_trips_added (pollTemp lowest) z.sensors
    (StdSort.sort tripSort z.ordinary)
  have hpolling : (z.sortAndUpdatePollTrip w).1.polling = added := by
    rw [updated_eq hlowest h w, polling]
    show List.filter _ (z.addPollTrips _ _ _) = added
    have hnone : (StdSort.sort tripSort z.ordinary).filter (fun t => t.type = .polling) = [] := by
      rw [List.filter_eq_nil_iff]
      intro t ht
      rw [StdSort.mem_sort, ordinary, List.mem_filter] at ht
      simpa using ht.2
    rw [heq, List.filter_append, hnone, List.nil_append, List.filter_eq_self]
    intro t ht
    simpa using (hadded t ht).1
  rw [hpolling]
  exact ⟨hids, fun t ht => (hadded t ht).2⟩

/-- The other trips after such a call. -/
theorem updated_ordinary (hlowest : z.Lowest lowest) (h : z.polling.length ≤ 1) (w : World δ) :
    (z.sortAndUpdatePollTrip w).1.ordinary = StdSort.sort tripSort z.ordinary := by
  rw [updated_eq hlowest h w, ordinary]
  show List.filter _ (z.addPollTrips _ _ _) = _
  rw [filter_add_poll_trips, List.filter_eq_self]
  intro t ht
  rw [StdSort.mem_sort, ordinary, List.mem_filter] at ht
  exact ht.2

/-- The lowest temperature stays the same. -/
theorem Lowest.updated (h : z.Lowest lowest) (w : World δ) :
    (z.sortAndUpdatePollTrip w).1.Lowest lowest := by
  have hmem := fun t => (z.sort_ordinary w).mem_iff (a := t)
  obtain ⟨t, ht, htemp⟩ := h.reached
  exact ⟨⟨t, (hmem t).mpr ht, htemp⟩, fun u hu => h.least u ((hmem u).mp hu)⟩

/-- In any case one polling trip is removed and one is added for each sensor. -/
theorem length_updated_polling (hlowest : z.Lowest lowest) (w : World δ) :
    (z.sortAndUpdatePollTrip w).1.polling.length = z.polling.length - 1 + z.sensors.length := by
  have hold : (z.sortedTrips.filter fun t => t.type = .polling).length = z.polling.length - 1 := by
    have hperm : (z.sortedTrips.filter fun t => t.type = .polling).Perm z.polling.tail := by
      rw [polling, ← filter_polling_erase]
      exact (StdSort.perm _ _).filter _
    rw [hperm.length_eq, List.length_tail]
  obtain ⟨hnil, heq⟩ | ⟨t, rest, events, hcons, heq⟩ := z.sort_and_update_poll_trip_cases w
  · obtain ⟨u, hu, -⟩ := (hlowest.updated w).reached
    rw [heq] at hu
    exact absurd hu List.not_mem_nil
  · obtain ⟨added, hadd, hadded, hids⟩ :=
      z.add_poll_trips_added (pollTemp t.temp) z.sensors (t :: rest)
    have hnew : added.filter (fun t => t.type = .polling) = added := by
      rw [List.filter_eq_self]
      intro t ht
      simpa using (hadded t ht).1
    have hlength : added.length = z.sensors.length := by
      simpa using congrArg List.length hids
    rw [heq, polling]
    show (List.filter _ (z.addPollTrips _ _ _)).length = _
    rw [hadd, List.filter_append, List.length_append, hnew, ← hcons, hold, hlength]

/-- The next call sorts the sorted trips once more. -/
theorem again_iff (hlowest : z.Lowest lowest) (h : z.polling.length ≤ 1)
    (hsensors : z.sensors.length ≤ 1) (w w' : World δ) :
    ((z.sortAndUpdatePollTrip w).1.sortAndUpdatePollTrip w').1 = (z.sortAndUpdatePollTrip w).1 ↔
      StdSort.sort tripSort (StdSort.sort tripSort z.ordinary) =
        StdSort.sort tripSort z.ordinary := by
  have hsingle : (z.sortAndUpdatePollTrip w).1.polling.length ≤ 1 := by
    rw [length_updated_polling hlowest w]
    omega
  have hnext := updated_eq (hlowest.updated w) hsingle w'
  constructor
  · intro hagain
    have hordinary := updated_ordinary (hlowest.updated w) hsingle w'
    rw [hagain, updated_ordinary hlowest h w] at hordinary
    exact hordinary.symm
  · intro hsort
    rw [hnext, updated_ordinary hlowest h w, hsort, updated_eq hlowest h w]
    exact congrArg (fun trips => { z with tripPoints := trips })
      (z.add_poll_trips_of_trips _ _ _ _)

end Call

/-! ## All implementations of the sort -/

variable {δ : Type} {lowest : Nat}

/-- Under the condition a call does what it is for. -/
theorem SinglePolling.updated [StdSort] {z : Zone} (h : SinglePolling lowest z)
    (hlowest : z.Lowest lowest) (w : World δ) : PollTripsUpdated lowest z w := by
  obtain ⟨hids, htemps⟩ := updated_polling hlowest h.polling w
  refine
    { perSensor := by rw [hids]
      temps := fun t ht => ?_
      kept := z.sort_ordinary w
      ascending := ?_
      again := ?_ }
  · have hsome : z.sensors ≠ [] := by
      intro hnone
      rw [hnone, List.map_nil, List.map_eq_nil_iff] at hids
      rw [hids] at ht
      exact List.not_mem_nil ht
    rw [htemps t ht]
    exact (poll_temp_iff lowest).mpr (h.range hsome)
  · rw [updated_ordinary hlowest h.polling w]
    exact sorted_ascending z.ordinary
  · rw [again_iff hlowest h.polling h.sensors]
    refine StdSort.sort_sort trip_sort_key fun t ht t' ht' hlt hgt => h.distinct t ht t' ht' ?_
    simp only [tripSort, decide_eq_false_iff_not] at hlt hgt
    omega

/-- The polling trips are brought up to date whatever the order in which the sort leaves equal
temperatures, exactly if there are not several sensors or polling trips, the arithmetic does not
wrap, and different trips have different temperatures. -/
theorem poll_trips_updated_iff {z : Zone} (hlowest : z.Lowest lowest) (w : World δ) :
    (∀ _ : StdSort, PollTripsUpdated lowest z w) ↔ SinglePolling lowest z := by
  refine ⟨fun h => ?_, fun h _ => h.updated hlowest w⟩
  have hstable := h .insertion
  let _ := StdSort.insertion
  have hcount : z.polling.length ≤ 1 := by
    have hlength := length_updated_polling hlowest w
    have hper := hstable.perSensor.length_eq
    rw [List.length_map, List.length_map, hlength] at hper
    omega
  -- The second call adds its trips to all but one of the trips of the first.
  have hsensors : z.sensors.length ≤ 1 := by
    have hfirst := length_updated_polling hlowest w
    have hsecond := length_updated_polling (hlowest.updated w) (z.sortAndUpdatePollTrip w).2
    rw [hstable.again, sort_sensors] at hsecond
    omega
  refine ⟨hcount, hsensors, fun hsome => ?_, fun t ht t' ht' htemp => ?_⟩
  · obtain ⟨hids, htemps⟩ := updated_polling hlowest hcount w
    obtain ⟨p, hp⟩ : ∃ p, p ∈ (z.sortAndUpdatePollTrip w).1.polling := by
      apply List.exists_mem_of_ne_nil
      intro hnone
      rw [hnone, List.map_nil, eq_comm, List.map_eq_nil_iff] at hids
      exact hsome hids
    rw [← poll_temp_iff, ← htemps p hp]
    exact hstable.temps p hp
  · by_contra hne
    have hsame : ∀ t t' : TripPoint, t.temp = t'.temp → tripSort t t' = false := by
      intro t t' htemp
      simp [tripSort, htemp]
    let _ := StdSort.restless
    have hagain := (again_iff hlowest hcount hsensors w _).mp (h .restless).again
    exact StdSort.restless_sort_ne trip_sort_key (StdSort.sorted tripSort _ trip_sort_key)
      (StdSort.mem_sort.mpr ht) (StdSort.mem_sort.mpr ht') hne (hsame t t' htemp)
      (hsame t' t htemp.symm) hagain

/-- The lowest trip of the zone `orderedZone`. -/
theorem ordered_zone_lowest : orderedZone.Lowest 50000 := by
  refine ⟨⟨.init 1 .passive 50000 0 0 0 .parallel, ?_, rfl⟩, ?_⟩
  · exact List.mem_cons_of_mem _ List.mem_cons_self
  · show ∀ t ∈ [TripPoint.init 0 .critical 95000 0 0 0 .parallel,
      TripPoint.init 1 .passive 50000 0 0 0 .parallel], 50000 ≤ t.temp
    simp [TripPoint.init]

/-- A zone with one sensor and trips of different temperatures. -/
theorem ordered_zone_updated :
    orderedZone.Lowest 50000 ∧ ∀ _ : StdSort, PollTripsUpdated 50000 orderedZone orderedWorld := by
  refine ⟨ordered_zone_lowest, (poll_trips_updated_iff ordered_zone_lowest orderedWorld).mpr
    ⟨Nat.zero_le 1, le_refl 1, fun _ => by omega, ?_⟩⟩
  show ∀ t ∈ [TripPoint.init 0 .critical 95000 0 0 0 .parallel,
    TripPoint.init 1 .passive 50000 0 0 0 .parallel], ∀ t' ∈ [
      TripPoint.init 0 .critical 95000 0 0 0 .parallel,
      TripPoint.init 1 .passive 50000 0 0 0 .parallel], t.temp = t'.temp → t = t'
  simp [TripPoint.init]

/-- The zone with a second sensor. -/
def secondSensorZone : Zone :=
  { orderedZone with
    sensors := [⟨0, .raw, "TCPU", false, false⟩, ⟨1, .raw, "TMEM", false, false⟩] }

/-- With a second sensor the next call leaves one of the polling trips, and puts the new ones below
it. -/
theorem second_sensor_left :
    letI := StdSort.insertion
    secondSensorZone.Lowest 50000 ∧
      (secondSensorZone.sortAndUpdatePollTrip orderedWorld).1.polling.map
        (fun t => (t.sensorId, t.temp)) = [(0, 45000), (1, 45000)] ∧
      ((secondSensorZone.sortAndUpdatePollTrip orderedWorld).1.sortAndUpdatePollTrip
        (secondSensorZone.sortAndUpdatePollTrip orderedWorld).2).1.polling.map
          (fun t => (t.sensorId, t.temp)) = [(1, 45000), (0, 40000), (1, 40000)] ∧
      ¬ PollTripsUpdated 50000 secondSensorZone orderedWorld := by
  let _ := StdSort.insertion
  refine ⟨⟨ordered_zone_lowest.reached, ordered_zone_lowest.least⟩, rfl, rfl, fun h => ?_⟩
  have hlength : (3 : Nat) = 2 := congrArg (fun z => z.polling.length) h.again
  omega

end Zone

end Thermald
