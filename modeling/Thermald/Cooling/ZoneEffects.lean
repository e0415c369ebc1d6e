import Thermald.Cooling.Effects

/-!
# Zones as sequences of operations

The functions of a zone, in terms of the operations that reach one device. `Zone.resetOps` is the
exact sequence of a reset, `Zone.steadyOps` that of a notification which resets nothing and whose
trips for the device are all evaluated. For the other notifications `read_zone_temp_acts` and
`update_zone_preference_acts` say on whose behalf the operations are done.
-/

namespace Thermald

/-- The operation is done on device `k` on behalf of a trip of the zone. -/
def Op.OfZone (pref : Pref) (temps : Nat → Prop) (z : Zone) (k : Nat) (op : Op) : Prop :=
  ∃ t₀ ∈ z.tripPoints, ∃ t, t₀.Same t ∧ op.OfTrip pref temps t k

/-- Operations on behalf of a zone as it has become are on behalf of the zone as it was. -/
theorem Op.OfZone.of_same {pref : Pref} {temps : Nat → Prop} {z z' : Zone} {k : Nat} {op : Op}
    (h : op.OfZone pref temps z' k) (hz : z.Same z') : op.OfZone pref temps z k := by
  obtain ⟨t', ht', t, hsame, hop⟩ := h
  obtain ⟨t₀, ht₀, hsame'⟩ := forall₂_mem_right hz.tripPoints ht'
  exact ⟨t₀, ht₀, t, hsame'.trans hsame, hop⟩

/-- The readings may be taken from a larger set. -/
theorem Op.OfTrip.mono {pref : Pref} {temps temps' : Nat → Prop} {t : TripPoint} {k : Nat} {op : Op}
    (h : op.OfTrip pref temps t k) (htemps : ∀ temp, temps temp → temps' temp) :
    op.OfTrip pref temps' t k := by
  cases op with
  | on t' b temp =>
      obtain ⟨ht, hpref, htemp, hrest⟩ := h
      exact ⟨ht, hpref, htemps temp htemp, hrest⟩
  | off t' b temp =>
      obtain ⟨ht, hpref, htemp, hrest⟩ := h
      exact ⟨ht, hpref, htemps temp htemp, hrest⟩
  | reset force zoneId tripId => exact h

theorem Op.OfZone.mono {pref : Pref} {temps temps' : Nat → Prop} {z : Zone} {k : Nat} {op : Op}
    (h : op.OfZone pref temps z k) (htemps : ∀ temp, temps temp → temps' temp) :
    op.OfZone pref temps' z k := by
  obtain ⟨t₀, ht₀, t, hsame, hop⟩ := h
  exact ⟨t₀, ht₀, t, hsame, hop.mono htemps⟩

namespace Zone

/-- The operations on device `k` with which a reset goes through the trips. -/
def resetOps (z : Zone) (force : Bool) (k : Nat) : List Op :=
  if z.zoneActive then
    z.tripPoints.reverse.flatMap fun t => t.opsReset force k t.cdevs.reverse
  else []

/-- A reset works on behalf of the trips of the zone. -/
theorem of_mem_reset_ops {z : Zone} {force : Bool} {k : Nat} {pref : Pref} {temps : Nat → Prop}
    {op : Op} (hop : op ∈ z.resetOps force k) : op.OfZone pref temps z k := by
  unfold resetOps at hop
  split at hop
  · obtain ⟨t, ht, hop⟩ := List.mem_flatMap.mp hop
    obtain ⟨b, hb, rfl⟩ := List.mem_map.mp hop
    obtain ⟨hb, hcdev⟩ := List.mem_filter.mp hb
    refine ⟨t, List.mem_reverse.mp ht, t, .refl t, rfl, rfl, b, List.mem_reverse.mp hb, ?_⟩
    exact of_decide_eq_true hcdev
  · simp at hop

variable {δ : Type} [CdevClass δ] [StdSort]

/-- A reset is its sequence of operations. -/
theorem zone_reset_acts (z : Zone) (force : Bool) (k : Nat) (w : World δ) :
    w.Acts k (z.resetOps force k) (z.zoneReset force w) := by
  have hfold : ∀ (trips : List TripPoint) (w : World δ),
      w.Acts k (trips.flatMap fun t => t.opsReset force k t.cdevs.reverse)
        (trips.foldl (fun w t => t.thdTripCdevStateReset force w) w) := by
    intro trips
    induction trips with
    | nil => exact fun w => .refl k w
    | cons t rest ih => exact fun w => (t.reset_cdevs_acts force k t.cdevs.reverse w).trans (ih _)
  unfold resetOps zoneReset
  split
  · exact hfold z.tripPoints.reverse w
  · exact .refl k w

/-! ## One reading -/

/-- Checking a list of trips treats the device on behalf of some of them. -/
theorem check_trips_acts (id : Int) (temp : Nat) (pref : Pref) (k : Nat) (trips : List TripPoint)
    (w : World δ) :
    List.Forall₂ TripPoint.Same trips (checkTrips id temp pref trips w).1 ∧
      ∃ ops, (∀ op ∈ ops, ∃ t ∈ trips, op.OfTrip pref (· = temp) t k) ∧
        w.Acts k ops (checkTrips id temp pref trips w).2.2 := by
  induction trips generalizing w with
  | nil => exact ⟨.nil, [], by simp, .refl k w⟩
  | cons t rest ih =>
      obtain ⟨hsame, -, ops, hops, hacts⟩ := t.check_acts id temp pref k w
      rw [checkTrips]
      simp only
      split
      · refine ⟨.cons hsame (List.forall₂_same.mpr fun t _ => .refl t), ops, ?_, hacts⟩
        exact fun op hop => ⟨t, List.mem_cons_self, hops op hop⟩
      · obtain ⟨hrest, ops', hops', hacts'⟩ := ih (t.thdTripPointCheck id temp pref w).world
        refine ⟨.cons hsame hrest, ops ++ ops', fun op hop => ?_, hacts.trans hacts'⟩
        rcases List.mem_append.mp hop with hop | hop
        · exact ⟨t, List.mem_cons_self, hops op hop⟩
        · obtain ⟨t', ht', hop⟩ := hops' op hop
          exact ⟨t', List.mem_cons_of_mem _ ht', hop⟩

/-- A reading treats the device on behalf of trips of the zone. -/
theorem thermal_zone_temp_change_acts (z : Zone) (id : Int) (temp : Nat) (pref : Pref) (k : Nat)
    (w : World δ) :
    z.Same (z.thermalZoneTempChange id temp pref w).1 ∧
      ∃ ops, (∀ op ∈ ops, op.OfZone pref (· = temp) z k) ∧
        w.Acts k ops (z.thermalZoneTempChange id temp pref w).2 := by
  obtain ⟨htrips, ops, hops, hacts⟩ := check_trips_acts id temp pref k z.tripPoints w
  have hsame : z.Same (z.thermalZoneTempChange id temp pref w).1 :=
    ⟨rfl, rfl, rfl, rfl, rfl, htrips⟩
  have hops' : ∀ op ∈ ops, op.OfZone pref (· = temp) z k := by
    intro op hop
    obtain ⟨t, ht, hop⟩ := hops op hop
    exact ⟨t, ht, t, .refl t, hop⟩
  refine ⟨hsame, ?_⟩
  unfold thermalZoneTempChange at hsame ⊢
  simp only at hsame ⊢
  split
  · refine ⟨_, fun op hop => ?_, hacts.trans (zone_reset_acts _ false k _)⟩
    rcases List.mem_append.mp hop with hop | hop
    · exact hops' op hop
    · exact (of_mem_reset_ops hop).of_same hsame
  · exact ⟨ops, hops', hacts⟩

/-! ## Notifications -/

/-- What the parts of a notification have in common: they keep the zone and treat the device on
its behalf. -/
def Notifies (pref : Pref) (temps : Nat → Prop) (k : Nat) (z : Zone) (w : World δ)
    (r : Zone × World δ) : Prop :=
  z.Same r.1 ∧ ∃ ops, (∀ op ∈ ops, op.OfZone pref temps z k) ∧ w.Acts k ops r.2

variable {pref : Pref} {temps : Nat → Prop} {k : Nat}

theorem Notifies.refl (z : Zone) (w : World δ) : Notifies pref temps k z w (z, w) :=
  ⟨.refl z, [], by simp, .refl k w⟩

theorem Notifies.trans {z : Zone} {w : World δ} {r r' : Zone × World δ}
    (h : Notifies pref temps k z w r) (h' : Notifies pref temps k r.1 r.2 r') :
    Notifies pref temps k z w r' := by
  obtain ⟨hsame, ops, hops, hacts⟩ := h
  obtain ⟨hsame', ops', hops', hacts'⟩ := h'
  refine ⟨hsame.trans hsame', ops ++ ops', fun op hop => ?_, hacts.trans hacts'⟩
  rcases List.mem_append.mp hop with hop | hop
  · exact hops op hop
  · exact (hops' op hop).of_same hsame

/-- The recorded temperature of the zone plays no part. -/
theorem Notifies.of_temp {z : Zone} {w : World δ} {r : Zone × World δ} (zoneTemp : Nat)
    (h : Notifies pref temps k { z with zoneTemp } w r) : Notifies pref temps k z w r :=
  Notifies.trans (r := ({ z with zoneTemp }, w)) ⟨⟨rfl, rfl, rfl, rfl, rfl,
    List.forall₂_same.mpr fun t _ => .refl t⟩, [], by simp, .refl k w⟩ h

theorem temp_change_notifies (z : Zone) (id : Int) (temp : Nat) (w : World δ) (htemp : temps temp) :
    Notifies pref temps k z w (z.thermalZoneTempChange id temp pref w) := by
  obtain ⟨hsame, ops, hops, hacts⟩ := z.thermal_zone_temp_change_acts id temp pref k w
  exact ⟨hsame, ops, fun op hop => (hops op hop).mono fun _ h => h ▸ htemp, hacts⟩

theorem read_sensors_notifies (read : Int → Nat) (sensors : List Sensor) (z : Zone) (w : World δ) :
    Notifies pref (fun _ => True) k z w (readSensors read pref sensors z w) := by
  induction sensors generalizing z w with
  | nil => exact .refl z w
  | cons s rest ih =>
      rw [readSensors]
      simp only
      generalize (if z.zoneTemp < read s.index then read s.index else z.zoneTemp) = zoneTemp
      refine .of_temp zoneTemp ?_
      split
      · exact (temp_change_notifies _ s.index (read s.index) w trivial).trans (ih _ _)
      · exact ih _ _

/-- A notification treats the device on behalf of the trips of the zone. -/
theorem read_zone_temp_notifies (z : Zone) (read : Int → Nat) (pref : Pref) (k : Nat)
    (w : World δ) : Notifies pref (fun _ => True) k z w (z.readZoneTemp read pref w) := by
  unfold readZoneTemp
  split
  · have hsensors : Notifies pref (fun _ => True) k z w
        (readSensors read pref z.sensors { z with zoneTemp := 0 } w) :=
      (read_sensors_notifies read z.sensors _ w).of_temp 0
    simp only
    split
    · split
      · exact hsensors.trans (temp_change_notifies _ _ _ _ trivial)
      · exact hsensors
    · exact hsensors
  · exact .refl z w

/-- An inactive zone ignores its notifications. -/
theorem read_zone_temp_inactive {z : Zone} (h : z.zoneActive = false) (read : Int → Nat)
    (pref : Pref) (w : World δ) : z.readZoneTemp read pref w = (z, w) := by
  simp [readZoneTemp, h]

/-- A zone with one sensor checks its trips once, unless correlated sensors read 0. -/
theorem read_zone_temp_single {z : Zone} {s : Sensor} (hactive : z.zoneActive = true)
    (hs : z.sensors = [s]) (read : Int → Nat) (hread : z.sensorRel = .corelated → read s.index ≠ 0)
    (pref : Pref) (w : World δ) :
    ∃ zoneTemp, (z.readZoneTemp read pref w).2 =
      ({ z with zoneTemp }.thermalZoneTempChange s.index (read s.index) pref w).2 := by
  obtain ⟨index, trips, temp, active, binded, typeStr, sensors, rel⟩ := z
  simp only at hactive hs hread
  subst hactive hs
  refine ⟨if 0 < read s.index then read s.index else 0, ?_⟩
  cases rel with
  | independent =>
      simp only [readZoneTemp, if_true, readSensors, thermalZoneTempChange, reduceCtorEq,
        false_and, if_false]
  | corelated =>
      have hpos : 0 < read s.index := Nat.pos_of_ne_zero (hread rfl)
      simp only [readZoneTemp, if_true, readSensors, reduceCtorEq, if_false, hpos, true_and]
      rw [if_pos hpos.ne']

theorem feed_sensors_notifies (read : Int → Nat) (temp : Nat → Nat) (sensors : List Sensor)
    (z : Zone) (w : World δ) (htemps : ∀ s ∈ sensors, temps (temp (read s.index))) :
    Notifies pref temps k z w (feedSensors read temp pref sensors z w) := by
  induction sensors generalizing z w with
  | nil => exact .refl z w
  | cons s rest ih =>
      rw [feedSensors]
      simp only
      refine .of_temp (read s.index) ?_
      refine (temp_change_notifies _ s.index _ w (htemps s List.mem_cons_self)).trans ?_
      exact ih _ _ fun s' hs' => htemps s' (List.mem_cons_of_mem _ hs')

/-! ## Notifications without a reset -/

/-- The check of the trip at the reading does not reset the zone, and device `k` is either bound by
a parallel trip that is evaluated, or not treated at all. -/
def Steady (id : Int) (temp : Nat) (pref : Pref) (k : Nat) (t : TripPoint) : Prop :=
  (t.type = .polling ∧ t.temp ≤ temp) ∨
    (t.type ≠ .polling ∧ ((t.Evaluated id pref ∧ t.controlType = .parallel ∧
      ∀ b ∈ t.cdevs, b.samplingPriod = 0) ∨ ¬ t.Binds k))

/-- The operations of a trip on device `k` at a reading that does not reset the zone. -/
def tripOps (temp k : Nat) (t : TripPoint) : List Op :=
  if t.type = .polling then [] else t.ops temp k

omit [StdSort] in
/-- A trip that does not bind the device does nothing to it. -/
theorem ops_of_not_binds {t : TripPoint} (temp : Nat) (h : ¬ t.Binds k) : t.ops temp k = [] := by
  have hnone : ∀ b ∈ t.cdevs, ¬ b.cdev = k := fun b hb hk => h ⟨b, hb, hk⟩
  unfold TripPoint.ops TripPoint.opsOn TripPoint.opsOff
  cases t.decision temp with
  | on => simpa using hnone
  | off => simpa using hnone
  | keep => rfl

theorem check_steady {t : TripPoint} {id : Int} {temp : Nat} (h : Steady id temp pref k t)
    (w : World δ) :
    (t.thdTripPointCheck id temp pref w).reset = false ∧
      t.Same (t.thdTripPointCheck id temp pref w).trip ∧
      w.Acts k (tripOps temp k t) (t.thdTripPointCheck id temp pref w).world := by
  unfold tripOps
  obtain ⟨hsame, hreset, ops, hops, hacts⟩ := t.check_acts id temp pref k w
  rcases h with ⟨hpoll, htemp⟩ | ⟨hnot, ⟨heval, hpar, hnone⟩ | hbinds⟩
  · refine ⟨Bool.eq_false_iff.mpr fun hr => not_lt.mpr htemp (hreset hr).2, hsame, ?_⟩
    rw [if_pos hpoll]
    rcases t.check_cases id temp pref k w with ⟨-, hquiet, -⟩ | ⟨happlies, -⟩
    · exact hquiet
    · rw [hpoll] at happlies
      cases pref <;> simp [Pref.applies] at happlies
  · rw [if_neg hnot, heval.check_eq]
    obtain ⟨hreset, hsame, ops, -, hall, hacts⟩ := t.evaluate_acts temp k w heval.applies
    exact ⟨hreset, hsame, hall hpar hnone ▸ hacts⟩
  · refine ⟨Bool.eq_false_iff.mpr fun hr => hnot (hreset hr).1, hsame, ?_⟩
    rw [if_neg hnot, ops_of_not_binds temp hbinds]
    have hnil : ops = [] := by
      refine List.eq_nil_iff_forall_not_mem.mpr fun op hop => hbinds ?_
      cases op with
      | on t' b temp' =>
          obtain ⟨-, -, -, -, hcdev, b₀, hb₀, hsame⟩ := hops _ hop
          exact ⟨b₀, hb₀, hsame.cdev ▸ hcdev⟩
      | off t' b temp' =>
          obtain ⟨-, -, -, -, hcdev, b₀, hb₀, hsame⟩ := hops _ hop
          exact ⟨b₀, hb₀, hsame.cdev ▸ hcdev⟩
      | reset force zoneId tripId => exact (hops _ hop).2.2
    exact hnil ▸ hacts

/-- A steady reading is exactly the operations of the trips, in their order. -/
theorem temp_change_steady {z : Zone} {id : Int} {temp : Nat}
    (h : ∀ t ∈ z.tripPoints, Steady id temp pref k t) (w : World δ) :
    w.Acts k (z.tripPoints.flatMap (tripOps temp k))
      (z.thermalZoneTempChange id temp pref w).2 := by
  have htrips : ∀ (trips : List TripPoint) (w : World δ),
      (∀ t ∈ trips, Steady id temp pref k t) →
      (checkTrips id temp pref trips w).2.1 = false ∧
        w.Acts k (trips.flatMap (tripOps temp k)) (checkTrips id temp pref trips w).2.2 := by
    intro trips
    induction trips with
    | nil => exact fun w _ => ⟨rfl, .refl k w⟩
    | cons t rest ih =>
        intro w hsteady
        obtain ⟨hreset, -, hacts⟩ := check_steady (hsteady t List.mem_cons_self) w
        obtain ⟨hrest, hacts'⟩ := ih (t.thdTripPointCheck id temp pref w).world
          fun t' ht' => hsteady t' (List.mem_cons_of_mem _ ht')
        rw [checkTrips]
        simp only [hreset, Bool.false_eq_true, if_false]
        exact ⟨hrest, hacts.trans hacts'⟩
  obtain ⟨hreset, hacts⟩ := htrips z.tripPoints w h
  unfold thermalZoneTempChange
  simp only [hreset, Bool.false_eq_true, if_false]
  exact hacts

end Zone

end Thermald
