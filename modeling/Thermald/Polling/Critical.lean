import Mathlib.Algebra.BigOperators.Group.List.Basic
import Mathlib.Algebra.GroupWithZero.Nat
import Thermald.Lib.Run
import Thermald.Cooling.Preference
import Thermald.Polling.Requests

/-!
# Critical trips

A critical trip counts the readings at or above its temperature and asks for a power-off at every
fifth one; a lower reading sets the count back. The count is only touched when the trip is checked.
The loop of `thermal_zone_temp_change` ends at a polling trip that drops below its temperature, and
the trips behind it are not checked with that reading. `sort_and_update_poll_trip` adds the polling
trips behind the others, but it removes only one old polling trip of a zone with several sensors, so
one may stand before the critical trip.

`power_off_every_fifth` says that as long as no such trip hides a reading, power-offs follow exactly
the unbroken runs of high readings.
-/

namespace Thermald

/-- The power-offs asked for so far. -/
def World.powerOffs {δ : Type} (w : World δ) : Nat := w.events.count .powerOff

namespace Zone

variable {δ : Type} [CdevClass δ] [StdSort]

/-! ## The power-offs of one trip -/

/-- The power-offs that the trip at a place asks for in the loop of `thermal_zone_temp_change`. -/
def tripPowerOffs (id : Int) (temp : Nat) (pref : Pref) : Nat → List TripPoint → World δ → Nat
  | _, [], _ => 0
  | 0, t :: _, w => (t.thdTripPointCheck id temp pref w).world.powerOffs - w.powerOffs
  | k + 1, t :: rest, w =>
      let c := t.thdTripPointCheck id temp pref w
      if c.reset then 0 else tripPowerOffs id temp pref k rest c.world

/-- The power-offs that the trip at a place asks for during some calls of
`thermal_zone_temp_change`. -/
def callPowerOffs (pref : Pref) (k : Nat) : List (Int × Nat) → Zone → World δ → Nat
  | [], _, _ => 0
  | (id, temp) :: rest, z, w =>
      let (z', w') := z.thermalZoneTempChange id temp pref w
      tripPowerOffs id temp pref k z.tripPoints w + callPowerOffs pref k rest z' w'

theorem call_power_offs_cons (pref : Pref) (k : Nat) (id : Int) (temp : Nat)
    (rest : List (Int × Nat)) (z : Zone) (w : World δ) :
    callPowerOffs pref k ((id, temp) :: rest) z w =
      tripPowerOffs id temp pref k z.tripPoints w +
        callPowerOffs pref k rest (z.thermalZoneTempChange id temp pref w).1
          (z.thermalZoneTempChange id temp pref w).2 :=
  rfl

/-- A poll of a zone: the readings, the preference, and the world in which it happens. -/
structure Poll (δ : Type) where
  read : Int → Nat
  pref : Pref
  world : World δ

/-- The zone after a poll. -/
def polled (z : Zone) (p : Poll δ) : Zone :=
  (z.readZoneTemp p.read p.pref p.world).1

/-- The power-offs that the trip at a place asks for during a poll. -/
def powerOffsOf (z : Zone) (k : Nat) (p : Poll δ) : Nat :=
  if z.zoneActive then callPowerOffs p.pref k (z.calls p.read) z p.world else 0

end Zone

namespace TripPoint

variable {δ : Type} [CdevClass δ] [StdSort]

omit [CdevClass δ] [StdSort] in
theorem check_polling_events (t : TripPoint) (temp : Nat) (w : World δ) :
    ∃ more, (t.checkPolling temp w).world.events = w.events ++ more := by
  have hquiet : ∃ more, w.events = w.events ++ more := ⟨[], (List.append_nil _).symm⟩
  unfold checkPolling
  split
  · exact hquiet
  dsimp only
  split
  · exact ⟨_, rfl⟩
  split
  · exact ⟨_, rfl⟩
  · exact hquiet

/-- A check only adds to the events. -/
theorem check_events (t : TripPoint) (id : Int) (temp : Nat) (pref : Pref) (w : World δ) :
    ∃ more, (t.thdTripPointCheck id temp pref w).world.events = w.events ++ more := by
  have hquiet : ∃ more, w.events = w.events ++ more := ⟨[], (List.append_nil _).symm⟩
  unfold thdTripPointCheck
  split
  · exact hquiet
  split
  · exact hquiet
  split
  · exact hquiet
  split
  · unfold criticalEvent
    split
    · exact hquiet
    · exact ⟨_, rfl⟩
  generalize (if t.counts then { t with critTripCount := 0 } else t) = t
  dsimp only
  split
  · exact t.check_polling_events temp w
  split
  · refine ⟨[], ?_⟩
    rw [List.append_nil]
    exact (t.evaluate_quiet temp w).1.events
  · exact hquiet

/-- A check never takes a power-off back. -/
theorem power_offs_le_check (t : TripPoint) (id : Int) (temp : Nat) (pref : Pref) (w : World δ) :
    w.powerOffs ≤ (t.thdTripPointCheck id temp pref w).world.powerOffs := by
  obtain ⟨more, hmore⟩ := t.check_events id temp pref w
  rw [World.powerOffs, World.powerOffs, hmore, List.count_append]
  omega

/-- The trip is a polling trip that ends the loop at a reading: it is on for that sensor, and the
reading is below it. -/
def EndsLoop (t : TripPoint) (id : Int) (temp : Nat) : Prop :=
  t.type = .polling ∧ t.sensorId = id ∧ t.pollOn = true ∧ temp < t.temp

/-- No other trip asks for a reset. -/
theorem ends_loop_of_reset {t : TripPoint} {id : Int} {temp : Nat} {pref : Pref} {w : World δ}
    (h : (t.thdTripPointCheck id temp pref w).reset = true) : t.EndsLoop id temp := by
  cases hpolling : t.evaluatesPolling id temp w with
  | false =>
      rw [(t.check_other_spec id temp pref w hpolling).2.1] at h
      cases h
  | true =>
      rw [check_evaluates_eq hpolling] at h
      simp only [evaluatesPolling, otherSensor, Bool.and_eq_true, decide_eq_true_eq,
        Bool.not_eq_true', Bool.and_eq_false_iff, decide_eq_false_iff_not, not_not] at hpolling
      obtain ⟨⟨⟨⟨htype, -⟩, hsensor⟩, hdefault⟩, -⟩ := hpolling
      refine ⟨htype, hsensor.resolve_left hdefault, ?_⟩
      unfold checkPolling at h
      split at h
      · cases h
      dsimp only at h
      split at h
      · cases h
      split at h
      · rename_i hdrop
        simpa using hdrop
      · cases h

/-- The count after a reading that the trip sees. -/
def nextCount (t : TripPoint) (temp : Nat) : Nat :=
  if t.temp ≤ temp then
    if t.critTripCount < consecutiveCriticalEvents then t.critTripCount + 1 else 0
  else 0

/-- A critical trip that checks its sensor counts the reading, and asks for a power-off when the
count is full. -/
theorem critical_check (t : TripPoint) (temp : Nat) (pref : Pref) (w : World δ)
    (htype : t.type = .critical) (hdepend : t.depend = none)
    (hcritical : w.ignoreCritical = false) :
    (t.thdTripPointCheck t.sensorId temp pref w).trip =
        { t with critTripCount := t.nextCount temp } ∧
      (t.thdTripPointCheck t.sensorId temp pref w).world.powerOffs - w.powerOffs =
        if t.temp ≤ temp ∧ ¬ t.critTripCount < consecutiveCriticalEvents then 1 else 0 := by
  have hfails : t.dependencyFails temp w = false := by simp [dependencyFails, hdepend]
  have hother : t.otherSensor t.sensorId = false := by simp [otherSensor]
  have hcounts : t.counts = true := by simp [counts, htype]
  have happlies : pref.applies .critical = false := by cases pref <;> rfl
  unfold thdTripPointCheck nextCount
  simp only [htype, hfails, hother, hcounts, hcritical, reduceCtorEq, Bool.false_eq_true, if_false,
    Bool.not_false, Bool.true_and, decide_eq_true_eq, if_true, false_and, happlies]
  by_cases hreach : t.temp ≤ temp
  · rw [if_pos hreach, if_pos hreach]
    unfold criticalEvent
    by_cases hcount : t.critTripCount < consecutiveCriticalEvents
    · simp [hcount, World.powerOffs, htype]
    · simp [hcount, hreach, World.powerOffs, World.emit, htype]
  · rw [if_neg hreach, if_neg hreach]
    simp [hreach]

/-- A trip leaves the readings of other sensors alone. -/
theorem check_other_power_offs (t : TripPoint) {id : Int} (temp : Nat) (pref : Pref) (w : World δ)
    (hdefault : t.sensorId ≠ defaultSensorId) (hid : t.sensorId ≠ id) :
    (t.thdTripPointCheck id temp pref w).trip = t ∧
      (t.thdTripPointCheck id temp pref w).world.powerOffs - w.powerOffs = 0 := by
  have hother : t.otherSensor id = true := by simp [otherSensor, hdefault, hid]
  refine ⟨check_other_sensor hother temp pref, ?_⟩
  unfold thdTripPointCheck
  simp only [hother, if_true]
  split_ifs <;> exact Nat.sub_self _

end TripPoint

namespace Zone

variable {δ : Type} [CdevClass δ] [StdSort] {s id : Int} {temp n k : Nat} {pref : Pref}
  {t : TripPoint}

/-! ## One loop over the trips -/

/-- The trip at a place is checked, or a polling trip before it ends the loop. -/
theorem check_trips_at {trips : List TripPoint} (hk : trips[k]? = some t) (id : Int) (temp : Nat)
    (pref : Pref) (w : World δ) :
    (∃ w' : World δ, w'.ignoreCritical = w.ignoreCritical ∧
      (checkTrips id temp pref trips w).1[k]? = some (t.thdTripPointCheck id temp pref w').trip ∧
      tripPowerOffs id temp pref k trips w =
        (t.thdTripPointCheck id temp pref w').world.powerOffs - w'.powerOffs) ∨
    ((∃ t' ∈ trips.take k, t'.EndsLoop id temp) ∧
      (checkTrips id temp pref trips w).1[k]? = some t ∧
      tripPowerOffs id temp pref k trips w = 0) := by
  -- the world changes from trip to trip, but not whether critical trips are ignored
  induction trips generalizing k w with
  | nil => cases hk
  | cons first rest ih =>
      rw [checkTrips]
      cases k with
      | zero =>
          cases hk
          refine .inl ⟨w, rfl, ?_, rfl⟩
          dsimp only
          split_ifs <;> rfl
      | succ k =>
          rw [tripPowerOffs]
          dsimp only
          split_ifs with hreset
          · refine .inr ⟨⟨first, List.mem_cons_self, ?_⟩, hk, rfl⟩
            exact TripPoint.ends_loop_of_reset hreset
          · obtain ⟨-, -, _, -, hacts⟩ := first.check_acts id temp pref 0 w
            rcases ih hk (first.thdTripPointCheck id temp pref w).world with
              ⟨w', hcritical, htrip, hoffs⟩ | ⟨⟨t', ht', hends⟩, htrip, hoffs⟩
            · exact .inl ⟨w', hcritical.trans hacts.ignoreCritical, htrip, hoffs⟩
            · exact .inr ⟨⟨t', List.mem_cons_of_mem _ ht', hends⟩, htrip, hoffs⟩

/-- A loop for another sensor does not bring about a trip that ends the loop of this one. -/
theorem ends_loop_before {trips : List TripPoint} (hid : s ≠ id) (hdefault : s ≠ defaultSensorId)
    {w : World δ} {t' : TripPoint} (ht' : t' ∈ (checkTrips id temp pref trips w).1.take k)
    (hends : t'.EndsLoop s n) : ∃ t ∈ trips.take k, t.EndsLoop s n := by
  induction trips generalizing k w with
  | nil => simp [checkTrips] at ht'
  | cons first rest ih =>
      cases k with
      | zero => simp at ht'
      | succ k =>
          have hfirst : t' = (first.thdTripPointCheck id temp pref w).trip →
              first.EndsLoop s n := by
            intro heq
            subst heq
            obtain ⟨hsame, -, -⟩ := first.check_acts id temp pref 0 w
            have hsensor : first.sensorId = s := hsame.sensorId.symm.trans hends.2.1
            have hother : first.otherSensor id = true := by
              simp [TripPoint.otherSensor, hsensor, hdefault, hid]
            rwa [TripPoint.check_other_sensor hother] at hends
          rw [checkTrips] at ht'
          dsimp only at ht'
          split_ifs at ht'
          · rcases List.mem_cons.mp ht' with heq | hmem
            · exact ⟨first, List.mem_cons_self, hfirst heq⟩
            · exact ⟨t', List.mem_cons_of_mem _ hmem, hends⟩
          · rcases List.mem_cons.mp ht' with heq | hmem
            · exact ⟨first, List.mem_cons_self, hfirst heq⟩
            · obtain ⟨t, ht, hends⟩ := ih hmem
              exact ⟨t, List.mem_cons_of_mem _ ht, hends⟩

/-! ## Polls -/

/-- The trip at a place is a critical trip of one sensor that depends on no device. -/
structure Critical (z : Zone) (k : Nat) (t : TripPoint) : Prop where
  place : z.tripPoints[k]? = some t
  type : t.type = .critical
  depend : t.depend = none
  sensor : t.sensorId ≠ defaultSensorId

/-- A polling trip before the place hides a reading of the sensor. -/
def Hides (z : Zone) (k : Nat) (s : Int) (temp : Nat) : Prop :=
  ∃ t ∈ z.tripPoints.take k, t.EndsLoop s temp

/-- What a reading does to a critical trip: it is counted, or it is hidden. -/
def Counted (z : Zone) (k : Nat) (t : TripPoint) (temp : Nat) (t' : TripPoint) (offs : Nat) :
    Prop :=
  (t' = { t with critTripCount := t.nextCount temp } ∧
    offs = if t.temp ≤ temp ∧ ¬ t.critTripCount < consecutiveCriticalEvents then 1 else 0) ∨
  (z.Hides k t.sensorId temp ∧ t' = t ∧ offs = 0)

/-- A call for another sensor. -/
theorem Critical.other_call {z : Zone} (h : z.Critical k t) (hid : t.sensorId ≠ id) (temp : Nat)
    (pref : Pref) (w : World δ) :
    (z.thermalZoneTempChange id temp pref w).1.Critical k t ∧
      tripPowerOffs id temp pref k z.tripPoints w = 0 := by
  rcases check_trips_at h.place id temp pref w with ⟨w', -, htrip, hoffs⟩ | ⟨-, htrip, hoffs⟩
  · obtain ⟨hsame, hnone⟩ := t.check_other_power_offs temp pref w' h.sensor hid
    rw [hsame] at htrip
    exact ⟨⟨htrip, h.type, h.depend, h.sensor⟩, hoffs.trans hnone⟩
  · exact ⟨⟨htrip, h.type, h.depend, h.sensor⟩, hoffs⟩

/-- A call for the sensor of the trip. -/
theorem Critical.own_call {z : Zone} (h : z.Critical k t) (temp : Nat) (pref : Pref) {w : World δ}
    (hcritical : w.ignoreCritical = false) :
    ∃ t', (z.thermalZoneTempChange t.sensorId temp pref w).1.Critical k t' ∧
      t'.sensorId = t.sensorId ∧ t'.temp = t.temp ∧
      z.Counted k t temp t' (tripPowerOffs t.sensorId temp pref k z.tripPoints w) := by
  rcases check_trips_at h.place t.sensorId temp pref w with
    ⟨w', hsame, htrip, hoffs⟩ | ⟨hends, htrip, hoffs⟩
  · obtain ⟨hcount, hpower⟩ :=
      t.critical_check temp pref w' h.type h.depend (hsame.trans hcritical)
    rw [hcount] at htrip
    exact ⟨_, ⟨htrip, h.type, h.depend, h.sensor⟩, rfl, rfl, .inl ⟨rfl, hoffs.trans hpower⟩⟩
  · exact ⟨t, ⟨htrip, h.type, h.depend, h.sensor⟩, rfl, rfl, .inr ⟨hends, rfl, hoffs⟩⟩

/-- Calls for other sensors. -/
theorem Critical.other_calls {z : Zone} (h : z.Critical k t) {calls : List (Int × Nat)}
    (hids : t.sensorId ∉ calls.map (·.1)) (pref : Pref) (w : World δ) :
    (checkCalls pref calls z w).1.Critical k t ∧ callPowerOffs pref k calls z w = 0 := by
  induction calls generalizing z w with
  | nil => exact ⟨h, rfl⟩
  | cons call rest ih =>
      obtain ⟨id, temp⟩ := call
      rw [List.map_cons, List.mem_cons, not_or] at hids
      obtain ⟨hid, hrest⟩ := hids
      obtain ⟨hnext, hoffs⟩ := h.other_call hid temp pref w
      obtain ⟨hlast, hnone⟩ := ih hnext hrest (z.thermalZoneTempChange id temp pref w).2
      refine ⟨hlast, ?_⟩
      rw [call_power_offs_cons, hoffs, hnone]

/-- Calls for different sensors, one of them that of the trip. -/
theorem Critical.calls {z : Zone} (h : z.Critical k t) {calls : List (Int × Nat)}
    (hnodup : (calls.map (·.1)).Nodup) (hmem : (t.sensorId, temp) ∈ calls) (pref : Pref)
    {w : World δ} (hcritical : w.ignoreCritical = false) :
    ∃ t', (checkCalls pref calls z w).1.Critical k t' ∧
      t'.sensorId = t.sensorId ∧ t'.temp = t.temp ∧
      z.Counted k t temp t' (callPowerOffs pref k calls z w) := by
  induction calls generalizing z w with
  | nil => cases hmem
  | cons call rest ih =>
      obtain ⟨id, reading⟩ := call
      obtain ⟨hid, hrest⟩ := List.nodup_cons.mp hnodup
      rw [call_power_offs_cons]
      rcases List.mem_cons.mp hmem with heq | hlater
      · cases heq
        obtain ⟨t', hnext, hsensor, htemp, hcounted⟩ := h.own_call temp pref hcritical
        obtain ⟨hlast, hnone⟩ := hnext.other_calls (hsensor ▸ hid) pref
          (z.thermalZoneTempChange t.sensorId temp pref w).2
        refine ⟨t', hlast, hsensor, htemp, ?_⟩
        rwa [hnone]
      · have hne : t.sensorId ≠ id := by
          intro heq
          exact hid (List.mem_map.mpr ⟨_, hlater, heq⟩)
        obtain ⟨hnext, hoffs⟩ := h.other_call hne reading pref w
        obtain ⟨-, _, -, hacts⟩ := z.thermal_zone_temp_change_acts id reading pref 0 w
        obtain ⟨t', hlast, hsensor, htemp, hcounted⟩ :=
          ih hnext hrest hlater (hacts.ignoreCritical.trans hcritical)
        refine ⟨t', hlast, hsensor, htemp, ?_⟩
        rw [hoffs, Nat.zero_add]
        -- the polling trip that hides the reading was there before the call for the other sensor
        refine hcounted.imp_right fun hhidden => ⟨?_, hhidden.2⟩
        obtain ⟨t'', ht'', hends⟩ := hhidden.1
        exact ends_loop_before hne h.sensor ht'' hends

/-- An active zone with independent sensors, and a critical trip of one of them. The sensors are
different, as `bind_sensor` keeps them. -/
structure Watched (z : Zone) (k : Nat) (t : TripPoint) : Prop extends z.Critical k t where
  active : z.zoneActive = true
  independent : z.sensorRel = .independent
  distinct : (z.sensors.map (·.index)).Nodup
  bound : t.sensorId ∈ z.sensors.map (·.index)

/-- A poll. -/
theorem Watched.poll {z : Zone} (h : z.Watched k t) {p : Poll δ}
    (hcritical : p.world.ignoreCritical = false) :
    ∃ t', (z.polled p).Watched k t' ∧ t'.sensorId = t.sensorId ∧ t'.temp = t.temp ∧
      z.Counted k t (p.read t.sensorId) t' (z.powerOffsOf k p) := by
  have hcalls : z.calls p.read = z.sensors.map fun s => (s.index, p.read s.index) := by
    simp [calls, h.independent]
  have hids : (z.calls p.read).map (·.1) = z.sensors.map (·.index) := by
    rw [hcalls, List.map_map]
    rfl
  have hmem : (t.sensorId, p.read t.sensorId) ∈ z.calls p.read := by
    obtain ⟨sensor, hsensor, hindex⟩ := List.mem_map.mp h.bound
    rw [hcalls]
    exact List.mem_map.mpr ⟨sensor, hsensor, by rw [hindex]⟩
  obtain ⟨t', hnext, hsensor, htemp, hcounted⟩ :=
    h.toCritical.calls (hids ▸ h.distinct) hmem p.pref hcritical
  obtain ⟨n, hpoll⟩ := read_zone_temp_calls z p.read p.pref p.world h.active
  obtain ⟨trips, hzone⟩ := check_calls_zone p.pref (z.calls p.read) z p.world
  have hpolled : z.polled p = { z with tripPoints := trips, zoneTemp := n } := by
    unfold polled
    rw [hpoll, hzone]
  have hplace : trips[k]? = some t' := by
    have hplace := hnext.place
    rwa [hzone] at hplace
  refine ⟨t', ?_, hsensor, htemp, ?_⟩
  · rw [hpolled]
    exact ⟨⟨hplace, hnext.type, hnext.depend, hnext.sensor⟩, h.active, h.independent, h.distinct,
      hsensor ▸ h.bound⟩
  · rw [powerOffsOf, if_pos h.active]
    exact hcounted

/-- All power-offs of a loop are those of its trips. -/
theorem check_trips_power_offs (id : Int) (temp : Nat) (pref : Pref) (trips : List TripPoint)
    (w : World δ) :
    (checkTrips id temp pref trips w).2.2.powerOffs =
      w.powerOffs +
        ((List.range trips.length).map fun k => tripPowerOffs id temp pref k trips w).sum := by
  induction trips generalizing w with
  | nil => rfl
  | cons t rest ih =>
      have hle := t.power_offs_le_check id temp pref w
      rw [List.length_cons, List.range_succ_eq_map, List.map_cons, List.sum_cons, List.map_map]
      show _ = _ + ((t.thdTripPointCheck id temp pref w).world.powerOffs - w.powerOffs +
        ((List.range rest.length).map fun k =>
          if (t.thdTripPointCheck id temp pref w).reset then 0
          else tripPowerOffs id temp pref k rest (t.thdTripPointCheck id temp pref w).world).sum)
      rw [checkTrips]
      dsimp only
      split_ifs with hreset
      · simp only [List.map_const', List.sum_replicate_nat, Nat.mul_zero]
        omega
      · dsimp only
        rw [ih]
        omega

/-- All power-offs of some calls are those of the trips. -/
theorem check_calls_power_offs (pref : Pref) (calls : List (Int × Nat)) (z : Zone) (w : World δ) :
    (checkCalls pref calls z w).2.powerOffs =
      w.powerOffs +
        ((List.range z.tripPoints.length).map fun k => callPowerOffs pref k calls z w).sum := by
  induction calls generalizing z w with
  | nil => simp [checkCalls, callPowerOffs]
  | cons call rest ih =>
      obtain ⟨id, temp⟩ := call
      have hloop := check_trips_power_offs id temp pref z.tripPoints w
      have hlength : (z.thermalZoneTempChange id temp pref w).1.tripPoints.length =
          z.tripPoints.length :=
        (check_trips_acts id temp pref 0 z.tripPoints w).1.length_eq.symm
      have hchange : (z.thermalZoneTempChange id temp pref w).2.powerOffs =
          (checkTrips id temp pref z.tripPoints w).2.2.powerOffs := by
        unfold thermalZoneTempChange
        dsimp only
        split_ifs
        · rw [World.powerOffs, World.powerOffs, (zone_reset_quiet _ _ _).events]
        · rfl
      rw [checkCalls]
      dsimp only
      rw [ih, hlength, hchange, hloop]
      simp only [call_power_offs_cons, List.sum_map_add]
      omega

/-- All power-offs of a poll are those of the trips of the zone. -/
theorem power_offs_of_poll (z : Zone) (p : Poll δ) (hactive : z.zoneActive = true) :
    (z.readZoneTemp p.read p.pref p.world).2.powerOffs =
      p.world.powerOffs +
        ((List.range z.tripPoints.length).map fun k => z.powerOffsOf k p).sum := by
  obtain ⟨n, hpoll⟩ := read_zone_temp_calls z p.read p.pref p.world hactive
  rw [hpoll]
  dsimp only
  rw [check_calls_power_offs]
  simp only [powerOffsOf, hactive, if_true]

/-! ## Runs of polls -/

/-- How many polls up to the last one had a reading at or above the trip without a break. -/
def streak (t : TripPoint) (polls : List (Poll δ)) : Nat :=
  (polls.reverse.takeWhile fun p => t.temp ≤ p.read t.sensorId).length

omit [CdevClass δ] [StdSort] in
theorem streak_append (t : TripPoint) (past : List (Poll δ)) (p : Poll δ) :
    streak t (past ++ [p]) = if t.temp ≤ p.read t.sensorId then streak t past + 1 else 0 := by
  unfold streak
  rw [List.reverse_append, List.reverse_singleton, List.singleton_append, List.takeWhile_cons]
  by_cases hreach : t.temp ≤ p.read t.sensorId
  · simp [hreach]
  · simp [hreach]

/-- A reading of the sensor that a polling trip hides is a low one that finds the count at 0. -/
def SeesReadings (k : Nat) (z : Zone) (p : Poll δ) : Prop :=
  ∀ t, z.tripPoints[k]? = some t → z.Hides k t.sensorId (p.read t.sensorId) →
    p.read t.sensorId < t.temp ∧ t.critTripCount = 0

/-- One poll: the count follows the unbroken run of high readings, modulo 5. -/
theorem Watched.step {z : Zone} (h : z.Watched k t) {p : Poll δ}
    (hcritical : p.world.ignoreCritical = false) (hsees : SeesReadings k z p) {run : Nat}
    (hcount : t.critTripCount = run % 5) :
    ∃ t', (z.polled p).Watched k t' ∧ t'.sensorId = t.sensorId ∧ t'.temp = t.temp ∧
      t'.critTripCount = (if t.temp ≤ p.read t.sensorId then run + 1 else 0) % 5 ∧
      (z.powerOffsOf k p ≠ 0 ↔ t.temp ≤ p.read t.sensorId ∧ (run + 1) % 5 = 0) := by
  obtain ⟨t', hnext, hsensor, htemp, hcounted⟩ := h.poll hcritical
  refine ⟨t', hnext, hsensor, htemp, ?_⟩
  rcases hcounted with ⟨heq, hoffs⟩ | ⟨hhides, heq, hoffs⟩
  · rw [heq, hoffs]
    show t.nextCount (p.read t.sensorId) = _ ∧ _
    unfold TripPoint.nextCount consecutiveCriticalEvents
    constructor
    · split_ifs <;> omega
    · split_ifs <;> omega
  · obtain ⟨hlow, hzero⟩ := hsees t h.place hhides
    rw [heq, hoffs, if_neg (by omega)]
    exact ⟨hzero, by omega⟩

/-- The count of the trip after a run of polls. -/
theorem Watched.run {z : Zone} (h : z.Watched k t) (hstart : t.critTripCount = 0)
    {polls : List (Poll δ)} (hcritical : ∀ p ∈ polls, p.world.ignoreCritical = false)
    (hsees : Meets polled (SeesReadings k) z polls) :
    ∃ t', (run polled z polls).Watched k t' ∧ t'.sensorId = t.sensorId ∧ t'.temp = t.temp ∧
      t'.critTripCount = streak t polls % 5 := by
  induction polls using List.reverseRecOn with
  | nil => exact ⟨t, h, rfl, rfl, hstart⟩
  | append_singleton past p ih =>
      obtain ⟨hpast, hnow⟩ := meets_append.mp hsees
      obtain ⟨t', hbefore, hsensor, htemp, hcount⟩ :=
        ih (fun p hp => hcritical p (List.mem_append_left _ hp)) hpast
      have hnowCritical := hcritical p (List.mem_append_right _ List.mem_cons_self)
      obtain ⟨t'', hafter, hsensor', htemp', hcount', -⟩ :=
        hbefore.step hnowCritical hnow.1 hcount
      refine ⟨t'', ?_, hsensor'.trans hsensor, htemp'.trans htemp, ?_⟩
      · rw [run_append]
        exact hafter
      · rw [hcount', htemp, hsensor, streak_append]

/-- In every run of polls in which no reading of its sensor is hidden from a critical trip, the trip
asks for a power-off exactly at every fifth poll of an unbroken run of readings at or above its
temperature, and a lower reading sets its count back. -/
theorem power_off_every_fifth (z : Zone) (k : Nat) (t : TripPoint) (polls : List (Poll δ))
    (hwatched : z.Watched k t) (hstart : t.critTripCount = 0)
    (hcritical : ∀ p ∈ polls, p.world.ignoreCritical = false)
    (hsees : Meets polled (SeesReadings k) z polls) (past : List (Poll δ)) (p : Poll δ)
    (hpolls : past ++ [p] <+: polls) :
    ((run polled z past).powerOffsOf k p ≠ 0 ↔
        0 < streak t (past ++ [p]) ∧ streak t (past ++ [p]) % 5 = 0) ∧
      (p.read t.sensorId < t.temp →
        ∃ t', (run polled z (past ++ [p])).tripPoints[k]? = some t' ∧ t'.critTripCount = 0) := by
  have hsubset := hpolls.subset
  obtain ⟨hpast, hnow⟩ := meets_append.mp (hsees.of_prefix hpolls)
  obtain ⟨t', hbefore, hsensor, htemp, hcount⟩ := hwatched.run hstart
    (fun q hq => hcritical q (hsubset (List.mem_append_left _ hq))) hpast
  obtain ⟨t'', hafter, -, -, hcount', hoffs⟩ := hbefore.step
    (hcritical p (hsubset (List.mem_append_right _ List.mem_cons_self))) hnow.1 hcount
  rw [htemp, hsensor] at hcount' hoffs
  constructor
  · rw [hoffs, streak_append]
    split_ifs <;> omega
  · intro hlow
    refine ⟨t'', ?_, ?_⟩
    · rw [run_append]
      exact hafter.place
    · rw [hcount', if_neg (by omega)]

end Zone

/-- An engine with two sensors and no devices. -/
def twoSensorWorld : World GenSysfs where
  cdevs := fun k => Cdev.init k ⟨"", []⟩
  cdevCount := 0
  sensors := [⟨0, .raw, "cpu", false, false⟩, ⟨1, .raw, "pch", false, false⟩]
  pollIntervalSec := 0
  ignoreCritical := false
  clock := fun n => n
  ticks := 0
  events := []

/-- A critical trip of the second sensor. -/
def pchCritical : TripPoint := .init 0 .critical 95000 0 0 1 .parallel

/-- A zone with these sensors and this trip, before its polling trips are added. -/
def twoSensorZone : Zone :=
  { Zone.init 0 "board" .independent with
    zoneActive := true
    sensors := twoSensorWorld.sensors
    tripPoints := [pchCritical] }

/-- A poll with this reading of the second sensor. -/
def pchPoll (temp : Nat) : Zone.Poll GenSysfs :=
  ⟨fun i => if i = 1 then temp else 40000, .performance, twoSensorWorld⟩

/-- After two calls of `sort_and_update_poll_trip` an old polling trip of the second sensor stands
before the critical trip. It hides the low reading, and the next high one powers off, although it is
the first of its run. -/
theorem hidden_reading_powers_off :
    letI := StdSort.insertion
    let z := ((twoSensorZone.sortAndUpdatePollTrip twoSensorWorld).1.sortAndUpdatePollTrip
      twoSensorWorld).1
    let past := List.replicate 4 (pchPoll 96000) ++ [pchPoll 80000]
    z.Watched 1 pchCritical ∧ pchCritical.critTripCount = 0 ∧
      ¬ ((run Zone.polled z past).powerOffsOf 1 (pchPoll 96000) ≠ 0 ↔
        0 < Zone.streak pchCritical (past ++ [pchPoll 96000]) ∧
          Zone.streak pchCritical (past ++ [pchPoll 96000]) % 5 = 0) := by
  refine ⟨⟨⟨rfl, rfl, rfl, by decide⟩, rfl, rfl, by decide, by decide⟩, rfl, ?_⟩
  decide +kernel

/-- After one call the critical trip comes first, and the fifth high reading powers off. -/
theorem fifth_reading_powers_off :
    letI := StdSort.insertion
    (run Zone.polled (twoSensorZone.sortAndUpdatePollTrip twoSensorWorld).1
      (List.replicate 4 (pchPoll 96000))).powerOffsOf 0 (pchPoll 96000) ≠ 0 := by
  let _ := StdSort.insertion
  have hsees : ∀ (z : Zone) (p : Zone.Poll GenSysfs), Zone.SeesReadings 0 z p := by
    intro z p t _ hhides
    obtain ⟨t', ht', -⟩ := hhides
    cases ht'
  refine (Zone.power_off_every_fifth (twoSensorZone.sortAndUpdatePollTrip twoSensorWorld).1 0
    pchCritical (List.replicate 5 (pchPoll 96000)) ?_ rfl ?_ ?_ _ _ List.prefix_rfl).1.mpr ?_
  · exact ⟨⟨rfl, rfl, rfl, by decide⟩, rfl, rfl, by decide, by decide⟩
  · intro p hp
    rw [List.eq_of_mem_replicate hp]
    rfl
  · exact meets_iff_inputs.mpr fun _ _ _ => hsees _ _
  · decide +kernel

end Thermald
