import Thermald.Polling.Critical
import Thermald.Polling.SharedSensors

/-!
# The trips that a poll evaluates

A poll of a zone with independent sensors checks all trips with the reading of each sensor.
Correlated sensors are checked once, with their maximum and with the index of the first sensor, and
a trip that names another sensor does not pass the filter of `thd_trip_point_check`. The polling
trips are such trips, since `sort_and_update_poll_trip` adds one for each sensor.

`trips_evaluated_iff` says when every trip is evaluated with a reading that is not below the one of
its sensor.
-/

namespace Thermald

namespace TripPoint

variable {δ : Type} [CdevClass δ] [StdSort]

/-- The check of the trip goes on behind the filter of its sensor. -/
def passesFilter (t : TripPoint) (id : Int) (temp : Nat) (w : World δ) : Bool :=
  t.type ≠ .invalidTripType && !t.dependencyFails temp w && !t.otherSensor id

omit [StdSort] in
/-- The filter lets a trip through that names the sensor, or none. -/
theorem other_sensor_eq_false {t : TripPoint} {id : Int} :
    t.otherSensor id = false ↔ t.sensorId = defaultSensorId ∨ t.sensorId = id := by
  rw [otherSensor, Bool.and_eq_false_iff, decide_eq_false_iff_not, decide_eq_false_iff_not,
    not_not, not_not]

/-- The trip is a polling trip that the reading leaves, and its sensor is known. -/
structure Leaves (t : TripPoint) (id : Int) (temp : Nat) (w : World δ) : Prop where
  ends : t.EndsLoop id temp
  sensor : id ≠ defaultSensorId
  known : (w.getSensor id).isSome = true

omit [StdSort] in
/-- The check of such a trip reaches the part for polling trips. -/
theorem Leaves.evaluates {t : TripPoint} {id : Int} {temp : Nat} {w : World δ}
    (h : t.Leaves id temp w) : t.evaluatesPolling id temp w = true := by
  obtain ⟨⟨htype, hid, -, hbelow⟩, hsensor, hknown⟩ := h
  have hfails : t.dependencyFails temp w = false := by
    unfold dependencyFails
    split
    · rfl
    · rw [decide_eq_false (by omega), Bool.false_and]
  have hother : t.otherSensor id = false := other_sensor_eq_false.mpr (.inr hid)
  simp only [evaluatesPolling, htype, hfails, hother, hid, hsensor, hknown, decide_true, ne_eq,
    not_false_eq_true, Bool.not_false, Bool.and_self]

/-- A check asks for a reset exactly at such a trip. -/
theorem check_reset_iff {t : TripPoint} {id : Int} {temp : Nat} (pref : Pref) {w : World δ} :
    (t.thdTripPointCheck id temp pref w).reset = true ↔ t.Leaves id temp w := by
  constructor
  · intro hreset
    have hends := ends_loop_of_reset hreset
    cases hpolling : t.evaluatesPolling id temp w with
    | false =>
        rw [(t.check_other_spec id temp pref w hpolling).2.1] at hreset
        exact absurd hreset Bool.false_ne_true
    | true =>
        simp only [evaluatesPolling, Bool.and_eq_true, decide_eq_true_eq] at hpolling
        obtain ⟨⟨-, hsensor⟩, hknown⟩ := hpolling
        rw [hends.2.1] at hsensor hknown
        exact ⟨hends, hsensor, hknown⟩
  · intro hleaves
    rw [check_evaluates_eq hleaves.evaluates]
    obtain ⟨⟨-, hid, hon, hbelow⟩, -, hknown⟩ := hleaves
    obtain ⟨sensor, hsensor⟩ := Option.isSome_iff_exists.mp hknown
    simp [checkPolling, hid, hsensor, hon, hbelow]

end TripPoint

namespace Zone

variable {δ : Type} [CdevClass δ] [StdSort]

/-- The loop of `thermal_zone_temp_change` evaluates the trip at a place: it gets there, and the
trip passes the filter. -/
def reaches (id : Int) (temp : Nat) (pref : Pref) : Nat → List TripPoint → World δ → Bool
  | _, [], _ => false
  | 0, t :: _, w => t.passesFilter id temp w
  | k + 1, t :: rest, w =>
      let c := t.thdTripPointCheck id temp pref w
      if c.reset then false else reaches id temp pref k rest c.world

/-- The readings with which the trip at a place is evaluated during some calls of
`thermal_zone_temp_change`. -/
def evaluations (pref : Pref) (k : Nat) : List (Int × Nat) → Zone → World δ → List Nat
  | [], _, _ => []
  | (id, temp) :: rest, z, w =>
      let (z', w') := z.thermalZoneTempChange id temp pref w
      if reaches id temp pref k z.tripPoints w then temp :: evaluations pref k rest z' w'
      else evaluations pref k rest z' w'

/-- One of the calls resets the zone. -/
def resets (pref : Pref) : List (Int × Nat) → Zone → World δ → Bool
  | [], _, _ => false
  | (id, temp) :: rest, z, w =>
      let (z', w') := z.thermalZoneTempChange id temp pref w
      (checkTrips id temp pref z.tripPoints w).2.1 || resets pref rest z' w'

/-- The readings with which a poll evaluates the trip at a place. -/
def evaluatedWith (z : Zone) (k : Nat) (p : Poll δ) : List Nat :=
  if z.zoneActive then evaluations p.pref k (z.calls p.read) z p.world else []

/-- The zone is reset during a poll. -/
def resetIn (z : Zone) (p : Poll δ) : Bool :=
  z.zoneActive && resets p.pref (z.calls p.read) z p.world

/-- Unless the zone is reset, every valid trip without a dependency is evaluated with a reading that
is not below that of its sensor. A trip of the default sensor belongs to all sensors. -/
def TripsEvaluated (z : Zone) (p : Poll δ) : Prop :=
  z.resetIn p = true ∨
    ∀ k t, z.tripPoints[k]? = some t → t.type ≠ .invalidTripType → t.depend = none →
      ∀ s ∈ z.sensors, t.sensorId = s.index ∨ t.sensorId = defaultSensorId →
        ∃ temp ∈ z.evaluatedWith k p, p.read s.index ≤ temp

/-- A polling trip of the first sensor is left by the maximum of the readings. -/
def LeavesFirst (z : Zone) (p : Poll δ) : Prop :=
  ∃ first ∈ z.sensors.head?, ∃ t ∈ z.tripPoints,
    t.Leaves first.index (maxReading p.read z.sensors 0) p.world

/-- The valid trips without a dependency that name a sensor of the zone name the first one. -/
def NamesFirst (z : Zone) : Prop :=
  ∀ t ∈ z.tripPoints, t.type ≠ .invalidTripType → t.depend = none →
    (∃ s ∈ z.sensors, t.sensorId = s.index) → t.sensorId ≠ defaultSensorId →
      ∃ first ∈ z.sensors.head?, t.sensorId = first.index

/-! ## One loop -/

variable {pref : Pref} {id : Int} {temp k : Nat} {t : TripPoint}

/-- The loop ends early exactly at a polling trip that is left. The checks before it do not matter,
since they keep the sensors. -/
theorem check_trips_reset_iff {trips : List TripPoint} {w : World δ} :
    (checkTrips id temp pref trips w).2.1 = true ↔ ∃ t ∈ trips, t.Leaves id temp w := by
  induction trips generalizing w with
  | nil => simp [checkTrips]
  | cons first rest ih =>
      have hkeeps : ∀ t : TripPoint,
          t.Leaves id temp (first.thdTripPointCheck id temp pref w).world ↔ t.Leaves id temp w := by
        intro t
        have hsensors := check_sensors first id temp pref w
        constructor
        · rintro ⟨hends, hsensor, hknown⟩
          refine ⟨hends, hsensor, ?_⟩
          rwa [World.getSensor, hsensors] at hknown
        · rintro ⟨hends, hsensor, hknown⟩
          refine ⟨hends, hsensor, ?_⟩
          rwa [World.getSensor, hsensors]
      rw [checkTrips, List.exists_mem_cons_iff, ← TripPoint.check_reset_iff pref]
      dsimp only
      split
      next hreset => simp [hreset]
      next hreset =>
          rw [or_iff_right hreset]
          show (checkTrips id temp pref rest _).2.1 = true ↔ _
          rw [ih]
          simp only [hkeeps]

/-- In a loop that does not end early, the filter of the sensor alone decides about a valid trip
without a dependency. -/
theorem reaches_eq {trips : List TripPoint} (hk : trips[k]? = some t)
    (htype : t.type ≠ .invalidTripType) (hdepend : t.depend = none) {w : World δ}
    (hreset : (checkTrips id temp pref trips w).2.1 = false) :
    reaches id temp pref k trips w = !t.otherSensor id := by
  induction trips generalizing k w with
  | nil => cases hk
  | cons first rest ih =>
      rw [checkTrips] at hreset
      dsimp only at hreset
      cases k with
      | zero =>
          cases hk
          have hfails : t.dependencyFails temp w = false := by
            simp [TripPoint.dependencyFails, hdepend]
          simp [reaches, TripPoint.passesFilter, htype, hfails]
      | succ k =>
          rw [reaches]
          split at hreset
          next => exact absurd hreset.symm Bool.false_ne_true
          next hgoes =>
              rw [if_neg hgoes]
              exact ih hk hreset

/-! ## The calls of a poll -/

/-- The trip at a place stays the same trip. -/
theorem same_after_call {z : Zone} (hk : z.tripPoints[k]? = some t) (id : Int) (temp : Nat)
    (pref : Pref) (w : World δ) :
    ∃ t', (z.thermalZoneTempChange id temp pref w).1.tripPoints[k]? = some t' ∧ t.Same t' := by
  rcases check_trips_at hk id temp pref w with ⟨w', -, htrip, -⟩ | ⟨-, htrip, -⟩
  · exact ⟨_, htrip, (t.check_acts id temp pref 0 w').1⟩
  · exact ⟨t, htrip, .refl t⟩

/-- Without a reset, a valid trip without a dependency is evaluated in all calls for its sensor. -/
theorem evaluations_eq {z : Zone} (hk : z.tripPoints[k]? = some t)
    (htype : t.type ≠ .invalidTripType) (hdepend : t.depend = none) {calls : List (Int × Nat)}
    {w : World δ} (hresets : resets pref calls z w = false) :
    evaluations pref k calls z w = (calls.filter fun c => !t.otherSensor c.1).map (·.2) := by
  induction calls generalizing z w t with
  | nil => rfl
  | cons call rest ih =>
      obtain ⟨id, temp⟩ := call
      have hnone : (checkTrips id temp pref z.tripPoints w).2.1 = false ∧
          resets pref rest (z.thermalZoneTempChange id temp pref w).1
            (z.thermalZoneTempChange id temp pref w).2 = false := Bool.or_eq_false_iff.mp hresets
      obtain ⟨hreset, hrest⟩ := hnone
      obtain ⟨t', hk', hsame⟩ := same_after_call hk id temp pref w
      have hnext := ih hk' (by rwa [hsame.type]) (by rwa [hsame.depend]) hrest
      have hother : t'.otherSensor = t.otherSensor := by
        funext id
        rw [TripPoint.otherSensor, TripPoint.otherSensor, hsame.sensorId]
      rw [hother] at hnext
      rw [evaluations, reaches_eq hk htype hdepend hreset, List.filter_cons]
      dsimp only
      rw [hnext]
      split
      · rfl
      · rfl

omit [StdSort] in
/-- No reading is above the maximum. -/
theorem le_max_reading (read : Int → Nat) (sensors : List Sensor) (m : Nat) :
    m ≤ maxReading read sensors m ∧ ∀ s ∈ sensors, read s.index ≤ maxReading read sensors m := by
  induction sensors generalizing m with
  | nil => exact ⟨le_refl m, by simp⟩
  | cons first rest ih =>
      obtain ⟨hstart, hrest⟩ := ih (if m < read first.index then read first.index else m)
      have hfirst : m ≤ (if m < read first.index then read first.index else m) ∧
          read first.index ≤ (if m < read first.index then read first.index else m) := by
        split <;> omega
      refine ⟨hfirst.1.trans hstart, fun s hs => ?_⟩
      rcases List.mem_cons.mp hs with rfl | hs
      · exact hfirst.2.trans hstart
      · exact hrest s hs

omit [StdSort] in
/-- Correlated sensors with readings are checked in one call. -/
theorem corelated_calls {z : Zone} {read : Int → Nat} {first : Sensor} {rest : List Sensor}
    (hrel : z.sensorRel = .corelated) (hsensors : z.sensors = first :: rest)
    (hread : ∀ s ∈ z.sensors, read s.index ≠ 0) :
    z.calls read = [(first.index, maxReading read z.sensors 0)] := by
  have hfirst : first ∈ z.sensors := by
    rw [hsensors]
    exact List.mem_cons_self
  have hmax := (le_max_reading read z.sensors 0).2 first hfirst
  have hzero := hread first hfirst
  have hsome : maxReading read z.sensors 0 ≠ 0 := by omega
  rw [calls, hrel]
  dsimp only
  rw [hsensors] at hsome ⊢
  exact if_pos hsome

/-- In an active zone the poll is its calls. -/
theorem trips_evaluated_calls {z : Zone} (hactive : z.zoneActive = true) (p : Poll δ) :
    z.TripsEvaluated p ↔ resets p.pref (z.calls p.read) z p.world = true ∨
      ∀ k t, z.tripPoints[k]? = some t → t.type ≠ .invalidTripType → t.depend = none →
        ∀ s ∈ z.sensors, t.sensorId = s.index ∨ t.sensorId = defaultSensorId →
          ∃ temp ∈ evaluations p.pref k (z.calls p.read) z p.world, p.read s.index ≤ temp := by
  have hreset : z.resetIn p = resets p.pref (z.calls p.read) z p.world := by
    rw [resetIn, hactive, Bool.true_and]
  have hwith : ∀ k, z.evaluatedWith k p = evaluations p.pref k (z.calls p.read) z p.world :=
    fun k => if_pos hactive
  unfold TripsEvaluated
  simp only [hreset, hwith]

/-- Independent sensors: each trip sees the reading of its sensor itself. -/
theorem independent_evaluated {z : Zone} (hactive : z.zoneActive = true)
    (hrel : z.sensorRel = .independent) (p : Poll δ) : z.TripsEvaluated p := by
  rw [trips_evaluated_calls hactive]
  cases hresets : resets p.pref (z.calls p.read) z p.world with
  | true => exact .inl rfl
  | false =>
      refine .inr fun k t hk htype hdepend s hs hsensor => ?_
      have hpasses := TripPoint.other_sensor_eq_false.mpr hsensor.symm
      have hcall : (s.index, p.read s.index) ∈ z.calls p.read := by
        rw [calls, hrel]
        exact List.mem_map.mpr ⟨s, hs, rfl⟩
      rw [evaluations_eq hk htype hdepend hresets]
      refine ⟨p.read s.index, List.mem_map.mpr ⟨_, List.mem_filter.mpr ⟨hcall, ?_⟩, rfl⟩, le_refl _⟩
      rw [hpasses]
      rfl

/-- Correlated sensors: a trip must name the first sensor, or none. -/
theorem corelated_evaluated_iff {z : Zone} {p : Poll δ} {first : Sensor} {rest : List Sensor}
    (hactive : z.zoneActive = true) (hrel : z.sensorRel = .corelated)
    (hsensors : z.sensors = first :: rest) (hread : ∀ s ∈ z.sensors, p.read s.index ≠ 0) :
    z.TripsEvaluated p ↔ z.LeavesFirst p ∨ z.NamesFirst := by
  have hhead : z.sensors.head? = some first := by rw [hsensors, List.head?_cons]
  have hresets : resets p.pref (z.calls p.read) z p.world = true ↔ z.LeavesFirst p := by
    rw [corelated_calls hrel hsensors hread, resets]
    dsimp only
    rw [resets, Bool.or_false, check_trips_reset_iff, LeavesFirst, hhead]
    simp
  rw [trips_evaluated_calls hactive, hresets]
  by_cases hleaves : z.LeavesFirst p
  · simp [hleaves]
  rw [or_iff_right hleaves, or_iff_right hleaves]
  rw [← hresets, Bool.not_eq_true] at hleaves
  constructor
  · intro heval t ht htype hdepend hzone hdefault
    obtain ⟨s, hs, hid⟩ := hzone
    obtain ⟨k, hk⟩ := List.mem_iff_getElem?.mp ht
    obtain ⟨temp, htemp, -⟩ := heval k t hk htype hdepend s hs (.inl hid)
    rw [evaluations_eq hk htype hdepend hleaves, corelated_calls hrel hsensors hread] at htemp
    obtain ⟨call, hcall, -⟩ := List.mem_map.mp htemp
    obtain ⟨hmem, hpasses⟩ := List.mem_filter.mp hcall
    rw [List.mem_singleton.mp hmem, Bool.not_eq_true', TripPoint.other_sensor_eq_false] at hpasses
    exact ⟨first, hhead, hpasses.resolve_left hdefault⟩
  · intro hnames k t hk htype hdepend s hs hsensor
    have hpasses : t.otherSensor first.index = false := by
      rw [TripPoint.other_sensor_eq_false, or_iff_not_imp_left]
      intro hdefault
      obtain ⟨first', hfirst, hid⟩ := hnames t (List.mem_of_getElem? hk) htype hdepend
        ⟨s, hs, hsensor.resolve_right hdefault⟩ hdefault
      rw [hhead, Option.mem_some] at hfirst
      rw [hfirst]
      exact hid
    refine ⟨maxReading p.read z.sensors 0, ?_, (le_max_reading p.read z.sensors 0).2 s hs⟩
    rw [evaluations_eq hk htype hdepend hleaves, corelated_calls hrel hsensors hread]
    simp [hpasses]

/-- All trips are evaluated with a reading that is not below that of their sensor, unless the zone
is reset, exactly if the sensors are independent, a polling trip of the first sensor is left, or no
trip names another sensor of the zone than the first. -/
theorem trips_evaluated_iff {z : Zone} {p : Poll δ} (hactive : z.zoneActive = true)
    (hread : ∀ s ∈ z.sensors, p.read s.index ≠ 0) :
    z.TripsEvaluated p ↔ z.sensorRel = .independent ∨ z.LeavesFirst p ∨ z.NamesFirst := by
  cases hrel : z.sensorRel with
  | independent => exact ⟨fun _ => .inl rfl, fun _ => independent_evaluated hactive hrel p⟩
  | corelated =>
      rw [or_iff_right SensorRelate.noConfusion]
      cases hsensors : z.sensors with
      | nil =>
          -- Without a sensor there is nothing to evaluate.
          refine ⟨fun _ => .inr fun t _ _ _ hzone => ?_, fun _ => .inr fun k t _ _ _ s hs => ?_⟩
          · obtain ⟨s, hs, -⟩ := hzone
            rw [hsensors] at hs
            exact absurd hs List.not_mem_nil
          · rw [hsensors] at hs
            exact absurd hs List.not_mem_nil
      | cons first rest => exact corelated_evaluated_iff hactive hrel hsensors hread

end Zone

/-- A zone with correlated sensors and a passive trip that names none of them. -/
def packageZone (sensors : List Sensor) : Zone :=
  { Zone.init 0 "cpu" .corelated with
    zoneActive := true
    sensors := sensors
    tripPoints := [.init 0 .passive 50000 0 0 defaultSensorId .sequential] }

/-- With one sensor, the polling trip names the first one. -/
theorem one_sensor_evaluated :
    letI := StdSort.insertion
    ((packageZone [⟨0, .raw, "cpu", false, false⟩]).sortAndUpdatePollTrip
      twoSensorWorld).1.TripsEvaluated (pchPoll 60000) := by
  let _ := StdSort.insertion
  refine (Zone.trips_evaluated_iff rfl ?_).mpr (.inr (.inr fun t _ _ _ hzone _ => ?_))
  · intro s hs
    rw [List.mem_singleton.mp hs]
    show 40000 ≠ 0
    omega
  · obtain ⟨s, hs, hid⟩ := hzone
    rw [List.mem_singleton.mp hs] at hid
    exact ⟨_, rfl, hid⟩

/-- With two sensors, the polling trip of the second one is not evaluated, although its reading is
above the trip. -/
theorem second_sensor_not_evaluated :
    letI := StdSort.insertion
    ((packageZone twoSensorWorld.sensors).sortAndUpdatePollTrip twoSensorWorld).1.tripPoints[2]? =
        some (.init 2 .polling 45000 0 0 1 .parallel) ∧
      ((packageZone twoSensorWorld.sensors).sortAndUpdatePollTrip
        twoSensorWorld).1.evaluatedWith 2 (pchPoll 60000) = [] ∧
      ¬ ((packageZone twoSensorWorld.sensors).sortAndUpdatePollTrip
        twoSensorWorld).1.TripsEvaluated (pchPoll 60000) := by
  let _ := StdSort.insertion
  have hnone : ((packageZone twoSensorWorld.sensors).sortAndUpdatePollTrip
      twoSensorWorld).1.evaluatedWith 2 (pchPoll 60000) = [] := rfl
  refine ⟨rfl, hnone, fun h => ?_⟩
  rcases h with hreset | heval
  · have hkept : ((packageZone twoSensorWorld.sensors).sortAndUpdatePollTrip
        twoSensorWorld).1.resetIn (pchPoll 60000) = false := rfl
    exact absurd (hkept.symm.trans hreset) Bool.false_ne_true
  · obtain ⟨temp, htemp, -⟩ := heval 2 (.init 2 .polling 45000 0 0 1 .parallel) rfl
      TripPointType.noConfusion rfl ⟨1, .raw, "pch", false, false⟩
      (List.mem_cons_of_mem _ List.mem_cons_self) (.inl rfl)
    rw [hnone] at htemp
    exact List.not_mem_nil htemp

end Thermald
