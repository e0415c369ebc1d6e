import Thermald.Lib.Run
import Thermald.Cooling.Polls
import Thermald.Cooling.Sequence

/-!
# Sequential trips in an engine

One trip of an engine is sequential and has its devices for itself. All that the engine does to
these devices comes from that trip: the checks and resets of other trips work on other devices
(`Foreign`). `sequential_staircase` puts this together for all sequences of readings, changes of the
preference and resets of zones.
-/

namespace Thermald

/-- The other trip uses none of the devices of the trip. -/
def TripPoint.Foreign (t t' : TripPoint) : Prop := ∀ k, t.Binds k → ¬ t'.Binds k

/-- A trip that has kept its bindings binds the same devices. -/
theorem TripPoint.Same.binds {t t' : TripPoint} (h : t.Same t') {k : Nat} :
    t'.Binds k ↔ t.Binds k := by
  constructor
  · intro ⟨b', hb', hk⟩
    obtain ⟨b, hb, hsame⟩ := forall₂_mem_right h.cdevs hb'
    exact ⟨b, hb, hsame.cdev.symm.trans hk⟩
  · intro ⟨b, hb, hk⟩
    obtain ⟨b', hb', hsame⟩ := forall₂_mem_left h.cdevs hb
    exact ⟨b', hb', hsame.cdev.trans hk⟩

theorem TripPoint.Foreign.of_same {t t' u u' : TripPoint} (h : t.Foreign u) (ht : t.Same t')
    (hu : u.Same u') : t'.Foreign u' := fun k hk hk' => h k (ht.binds.mp hk) (hu.binds.mp hk')

/-- An operation on behalf of a trip is on a device of the trip. -/
theorem Op.OfTrip.binds {pref : Pref} {temps : Nat → Prop} {t : TripPoint} {k : Nat} {op : Op}
    (h : op.OfTrip pref temps t k) : t.Binds k := by
  cases op with
  | on t' b temp =>
      obtain ⟨-, -, -, -, hcdev, b₀, hb₀, hsame⟩ := h
      exact ⟨b₀, hb₀, hsame.cdev.symm.trans hcdev⟩
  | off t' b temp =>
      obtain ⟨-, -, -, -, hcdev, b₀, hb₀, hsame⟩ := h
      exact ⟨b₀, hb₀, hsame.cdev.symm.trans hcdev⟩
  | reset force zoneId tripId => exact h.2.2

/-- An operation on behalf of a zone is on a device of one of its trips. -/
theorem Op.OfZone.binds {pref : Pref} {temps : Nat → Prop} {z : Zone} {k : Nat} {op : Op}
    (h : op.OfZone pref temps z k) : ∃ t ∈ z.tripPoints, t.Binds k := by
  obtain ⟨t₀, ht₀, t, hsame, hop⟩ := h
  exact ⟨t₀, ht₀, hsame.binds.mp hop.binds⟩

/-- No operation leaves a device as it is. -/
theorem World.Acts.eq_of_none {δ : Type} [CdevClass δ] [StdSort] {w w' : World δ} {k : Nat}
    {ops : List Op} (h : w.Acts k ops w') (hnone : ∀ op ∈ ops, False) : w'.cdevs k = w.cdevs k := by
  have hnil : ops = [] := List.eq_nil_iff_forall_not_mem.mpr hnone
  rw [hnil] at h
  exact Steps.nil_iff.mp h.steps

namespace Zone

variable {δ : Type} [CdevClass δ] [StdSort] {t : TripPoint} {w : World δ}

/-- All trips of the zone are foreign to a trip. -/
def Foreign (t : TripPoint) (z : Zone) : Prop := ∀ t' ∈ z.tripPoints, t.Foreign t'

/-- What a foreign zone does leaves the devices of the trip alone. -/
theorem Notifies.frame {pref : Pref} {temps : Nat → Prop} {z : Zone} {r : Zone × World δ} {k : Nat}
    (h : Notifies pref temps k z w r) (hforeign : Foreign t z) (hk : t.Binds k) :
    r.2.cdevs k = w.cdevs k := by
  obtain ⟨-, ops, hops, hacts⟩ := h
  refine hacts.eq_of_none fun op hop => ?_
  obtain ⟨t', ht', hbinds⟩ := (hops op hop).binds
  exact hforeign t' ht' k hk hbinds

/-- The trip is at a place of the list, all others are foreign to it, and its devices are a
staircase. -/
structure Holds (trips : List TripPoint) (j : Nat) (w : World δ) (t : TripPoint) : Prop where
  get : trips[j]? = some t
  others : ∀ j' t', j' ≠ j → trips[j']? = some t' → t.Foreign t'
  climbs : t.Climbs w

variable {u : TripPoint} {rest trips : List TripPoint} {j : Nat}

omit [CdevClass δ] [StdSort] in
/-- The trip is the first one. -/
theorem holds_zero :
    Holds (u :: rest) 0 w t ↔ u = t ∧ (∀ t' ∈ rest, t.Foreign t') ∧ t.Climbs w := by
  constructor
  · intro h
    refine ⟨Option.some.inj h.get, fun t' ht' => ?_, h.climbs⟩
    obtain ⟨j', hj'⟩ := List.mem_iff_getElem?.mp ht'
    exact h.others (j' + 1) t' (by omega) hj'
  · intro ⟨heq, hothers, hclimbs⟩
    refine ⟨by rw [heq]; rfl, fun j' t' hne hget => ?_, hclimbs⟩
    cases j' with
    | zero => exact absurd rfl hne
    | succ j' => exact hothers t' (List.mem_of_getElem? hget)

omit [CdevClass δ] [StdSort] in
/-- The trip is a later one. -/
theorem holds_succ : Holds (u :: rest) (j + 1) w t ↔ t.Foreign u ∧ Holds rest j w t := by
  constructor
  · intro h
    refine ⟨h.others 0 u (by omega) rfl, h.get, fun j' t' hne hget => ?_, h.climbs⟩
    exact h.others (j' + 1) t' (by omega) hget
  · intro ⟨hforeign, h⟩
    refine ⟨h.get, fun j' t' hne hget => ?_, h.climbs⟩
    cases j' with
    | zero =>
        rw [← Option.some.inj hget]
        exact hforeign
    | succ j' => exact h.others j' t' (by omega) hget

omit [CdevClass δ] [StdSort] in
/-- Every trip of the list is the one, or foreign to it. -/
theorem Holds.eq_or_foreign (h : Holds trips j w t) {t' : TripPoint} (ht' : t' ∈ trips) :
    t' = t ∨ t.Foreign t' := by
  obtain ⟨j', hj'⟩ := List.mem_iff_getElem?.mp ht'
  by_cases hj : j' = j
  · rw [hj, h.get] at hj'
    exact .inl (Option.some.inj hj').symm
  · exact .inr (h.others j' t' hj hj')

omit [CdevClass δ] [StdSort] in
/-- What happens to other devices does not matter. -/
theorem Holds.frame (h : Holds trips j w t) {w' : World δ}
    (hframe : ∀ k, t.Binds k → w'.cdevs k = w.cdevs k) : Holds trips j w' t :=
  ⟨h.get, h.others, h.climbs.frame hframe⟩

/-- The check of a foreign trip leaves the devices alone. -/
theorem foreign_check (hforeign : t.Foreign u) (id : Int) (temp : Nat) (pref : Pref) {k : Nat}
    (hk : t.Binds k) : (u.thdTripPointCheck id temp pref w).world.cdevs k = w.cdevs k := by
  obtain ⟨-, -, ops, hops, hacts⟩ := u.check_acts id temp pref k w
  exact hacts.eq_of_none fun op hop => hforeign k hk (hops op hop).binds

/-- So do the checks of a list of foreign trips. -/
theorem foreign_check_trips (hforeign : ∀ t' ∈ rest, t.Foreign t') (id : Int) (temp : Nat)
    (pref : Pref) {k : Nat} (hk : t.Binds k) :
    (checkTrips id temp pref rest w).2.2.cdevs k = w.cdevs k := by
  obtain ⟨-, ops, hops, hacts⟩ := check_trips_acts id temp pref k rest w
  refine hacts.eq_of_none fun op hop => ?_
  obtain ⟨t', ht', hop⟩ := hops op hop
  exact hforeign t' ht' k hk hop.binds

/-- The reset of a foreign trip leaves the devices alone. -/
theorem foreign_reset (hforeign : t.Foreign u) (force : Bool) {k : Nat} (hk : t.Binds k) :
    (u.thdTripCdevStateReset force w).cdevs k = w.cdevs k := by
  refine (u.reset_cdevs_acts force k u.cdevs.reverse w).eq_of_none fun op hop => ?_
  obtain ⟨b, hb, -⟩ := List.mem_map.mp hop
  obtain ⟨hb, hcdev⟩ := List.mem_filter.mp hb
  exact hforeign k hk ⟨b, List.mem_reverse.mp hb, of_decide_eq_true hcdev⟩

variable [CdevClass.Stores δ]

/-- Checking the trips of a list. -/
theorem Holds.check_trips (h : Holds trips j w t) (id : Int) (temp : Nat) (pref : Pref) :
    ∃ t', t.Same t' ∧
      Holds (checkTrips id temp pref trips w).1 j (checkTrips id temp pref trips w).2.2 t' := by
  induction trips generalizing j w with
  | nil => exact absurd h.get (by simp)
  | cons u rest ih =>
      obtain ⟨hsame, -⟩ := u.check_acts id temp pref 0 w
      rw [checkTrips]
      simp only
      cases j with
      | zero =>
          -- the trip itself is checked, and then others
          obtain ⟨rfl, hothers, hclimbs⟩ := holds_zero.mp h
          have hchecked := hclimbs.check id temp pref
          refine ⟨_, hsame, ?_⟩
          split
          · refine holds_zero.mpr ⟨rfl, fun t' ht' => ?_, hchecked⟩
            exact (hothers t' ht').of_same hsame (.refl t')
          · refine holds_zero.mpr ⟨rfl, fun t' ht' => ?_, hchecked.frame fun k hk => ?_⟩
            · obtain ⟨hrest, -⟩ := check_trips_acts id temp pref 0 rest
                (u.thdTripPointCheck id temp pref w).world
              obtain ⟨t₀, ht₀, hsame'⟩ := forall₂_mem_right hrest ht'
              exact (hothers t₀ ht₀).of_same hsame hsame'
            · exact foreign_check_trips hothers id temp pref (hsame.binds.mp hk)
      | succ j =>
          -- another trip is checked first
          obtain ⟨hforeign, hrest⟩ := holds_succ.mp h
          have hrest := hrest.frame fun k hk => foreign_check hforeign id temp pref hk
          split
          · exact ⟨t, .refl t, holds_succ.mpr ⟨hforeign.of_same (.refl t) hsame, hrest⟩⟩
          · obtain ⟨t', hsame', hholds⟩ := ih hrest
            exact ⟨t', hsame', holds_succ.mpr ⟨hforeign.of_same hsame' hsame, hholds⟩⟩

/-- Resetting trips that are the one or foreign to it. -/
theorem climbs_fold_reset (h : t.Climbs w) (force : Bool)
    (htrips : ∀ t' ∈ trips, t' = t ∨ t.Foreign t') :
    t.Climbs (trips.foldl (fun w t => t.thdTripCdevStateReset force w) w) := by
  induction trips generalizing w with
  | nil => exact h
  | cons u rest ih =>
      refine ih ?_ fun t' ht' => htrips t' (List.mem_cons_of_mem _ ht')
      rcases htrips u List.mem_cons_self with rfl | hforeign
      · exact h.reset force
      · exact h.frame fun k hk => foreign_reset hforeign force hk

/-- Resetting the zone of the trip. -/
theorem Holds.zone_reset {z : Zone} (h : Holds z.tripPoints j w t) (force : Bool) :
    Holds z.tripPoints j (z.zoneReset force w) t := by
  refine ⟨h.get, h.others, ?_⟩
  unfold zoneReset
  split
  · exact climbs_fold_reset h.climbs force fun t' ht' => h.eq_or_foreign (List.mem_reverse.mp ht')
  · exact h.climbs

/-! ## Notifications -/

/-- A function of the zone keeps the trip and its staircase. -/
def Carries (j : Nat) (z : Zone) (w : World δ) (r : Zone × World δ) : Prop :=
  ∀ t, Holds z.tripPoints j w t → ∃ t', t.Same t' ∧ Holds r.1.tripPoints j r.2 t'

omit [CdevClass δ] [StdSort] [CdevClass.Stores δ] in
theorem Carries.trans {z : Zone} {r r' : Zone × World δ} (h : Carries j z w r)
    (h' : Carries j r.1 r.2 r') : Carries j z w r' := by
  intro t ht
  obtain ⟨t', hsame, ht'⟩ := h t ht
  obtain ⟨t'', hsame', ht''⟩ := h' t' ht'
  exact ⟨t'', hsame.trans hsame', ht''⟩

omit [CdevClass δ] [StdSort] [CdevClass.Stores δ] in
theorem Carries.refl (z : Zone) (w : World δ) : Carries j z w (z, w) := fun t ht => ⟨t, .refl t, ht⟩

/-- One reading. -/
theorem temp_change_carries (z : Zone) (id : Int) (temp : Nat) (pref : Pref) (w : World δ) :
    Carries j z w (z.thermalZoneTempChange id temp pref w) := by
  intro t ht
  obtain ⟨t', hsame, hholds⟩ := ht.check_trips id temp pref
  refine ⟨t', hsame, ?_⟩
  unfold thermalZoneTempChange
  simp only
  split
  · exact Holds.zone_reset
      (z := { z with tripPoints := (checkTrips id temp pref z.tripPoints w).1 }) hholds false
  · exact hholds

/-- The sensors of a notification. -/
theorem read_sensors_carries (read : Int → Nat) (pref : Pref) (sensors : List Sensor) (z : Zone)
    (w : World δ) : Carries j z w (readSensors read pref sensors z w) := by
  induction sensors generalizing z w with
  | nil => exact .refl z w
  | cons s rest ih =>
      rw [readSensors]
      simp only
      generalize (if z.zoneTemp < read s.index then read s.index else z.zoneTemp) = zoneTemp
      have hzone : Carries j z w ({ z with zoneTemp }, w) := fun t ht => ⟨t, .refl t, ht⟩
      refine hzone.trans ?_
      split
      · exact (temp_change_carries _ s.index (read s.index) pref w).trans (ih _ _)
      · exact ih _ _

/-- A notification. -/
theorem read_zone_temp_carries (z : Zone) (read : Int → Nat) (pref : Pref) (w : World δ) :
    Carries j z w (z.readZoneTemp read pref w) := by
  unfold readZoneTemp
  split
  · have hzone : Carries j z w ({ z with zoneTemp := 0 }, w) := fun t ht => ⟨t, .refl t, ht⟩
    have hsensors :=
      hzone.trans (read_sensors_carries read pref z.sensors { z with zoneTemp := 0 } w)
    simp only
    split
    · split
      · exact hsensors.trans (temp_change_carries _ _ _ pref _)
      · exact hsensors
    · exact hsensors
  · exact .refl z w

/-- The readings with which a change of the preference starts. -/
theorem feed_sensors_carries (read : Int → Nat) (temp : Nat → Nat) (pref : Pref)
    (sensors : List Sensor) (z : Zone) (w : World δ) :
    Carries j z w (feedSensors read temp pref sensors z w) := by
  induction sensors generalizing z w with
  | nil => exact .refl z w
  | cons s rest ih =>
      rw [feedSensors]
      have hzone : Carries j z w ({ z with zoneTemp := read s.index }, w) := fun t ht =>
        ⟨t, .refl t, ht⟩
      exact (hzone.trans (temp_change_carries _ s.index _ pref w)).trans (ih _ _)

/-- A change of the preference. -/
theorem update_zone_preference_carries (z : Zone) (read : Int → Nat) (pref : Pref) (w : World δ) :
    Carries j z w (z.updateZonePreference read pref w) := by
  unfold updateZonePreference
  split
  · exact (feed_sensors_carries read (fun _ => 0) pref z.sensors z w).trans
      (feed_sensors_carries read id pref _ _ _)
  · exact .refl z w

omit [CdevClass.Stores δ] in
/-- A change of the preference only works for the trips of the zone. -/
theorem update_zone_preference_notifies (z : Zone) (read : Int → Nat) (pref : Pref) (k : Nat)
    (w : World δ) : Notifies pref (fun _ => True) k z w (z.updateZonePreference read pref w) := by
  unfold updateZonePreference
  split
  · exact (feed_sensors_notifies read (fun _ => 0) z.sensors z w fun _ _ => trivial).trans
      (feed_sensors_notifies read id _ _ _ fun _ _ => trivial)
  · exact .refl z w

end Zone

namespace Engine

variable {δ : Type} [CdevClass δ] [StdSort] {zones rest : List Zone} {z : Zone} {i j : Nat}
  {w : World δ} {t : TripPoint}

/-- The trip is at a place of a zone, all other trips of all zones are foreign to it, and its
devices are a staircase. -/
structure Holds (zones : List Zone) (i j : Nat) (w : World δ) (t : TripPoint) : Prop where
  zone : ∃ z, zones[i]? = some z ∧ Zone.Holds z.tripPoints j w t
  others : ∀ i' z', i' ≠ i → zones[i']? = some z' → z'.Foreign t

omit [CdevClass δ] [StdSort] in
theorem holds_zero :
    Holds (z :: rest) 0 j w t ↔ Zone.Holds z.tripPoints j w t ∧ ∀ z' ∈ rest, z'.Foreign t := by
  constructor
  · intro h
    obtain ⟨z', hz', hzone⟩ := h.zone
    rw [← Option.some.inj hz'] at hzone
    refine ⟨hzone, fun z' hz' => ?_⟩
    obtain ⟨i', hi'⟩ := List.mem_iff_getElem?.mp hz'
    exact h.others (i' + 1) z' (by omega) hi'
  · intro ⟨hzone, hothers⟩
    refine ⟨⟨z, rfl, hzone⟩, fun i' z' hne hget => ?_⟩
    cases i' with
    | zero => exact absurd rfl hne
    | succ i' => exact hothers z' (List.mem_of_getElem? hget)

omit [CdevClass δ] [StdSort] in
theorem holds_succ : Holds (z :: rest) (i + 1) j w t ↔ z.Foreign t ∧ Holds rest i j w t := by
  constructor
  · intro h
    exact ⟨h.others 0 z (by omega) rfl, h.zone, fun i' z' hne hget =>
      h.others (i' + 1) z' (by omega) hget⟩
  · intro ⟨hforeign, h⟩
    refine ⟨h.zone, fun i' z' hne hget => ?_⟩
    cases i' with
    | zero =>
        rw [← Option.some.inj hget]
        exact hforeign
    | succ i' => exact h.others i' z' (by omega) hget

omit [CdevClass δ] [StdSort] in
theorem Holds.frame (h : Holds zones i j w t) {w' : World δ}
    (hframe : ∀ k, t.Binds k → w'.cdevs k = w.cdevs k) : Holds zones i j w' t := by
  obtain ⟨⟨z, hz, hzone⟩, hothers⟩ := h
  exact ⟨⟨z, hz, hzone.frame hframe⟩, hothers⟩

omit [CdevClass δ] [StdSort] in
/-- A zone that has kept its trips is as foreign as before. -/
theorem foreign_of_same {t' : TripPoint} {z' : Zone} (h : z.Foreign t) (ht : t.Same t')
    (hz : z.Same z') : z'.Foreign t' := by
  intro u' hu'
  obtain ⟨u, hu, hsame⟩ := forall₂_mem_right hz.tripPoints hu'
  exact (h u hu).of_same ht hsame

/-- Notifying the zones one after the other. -/
theorem Holds.for_zones {f : Zone → World δ → Zone × World δ} {pref : Pref}
    (hcarries : ∀ z w, Zone.Carries j z w (f z w))
    (hnotifies : ∀ k z w, Zone.Notifies pref (fun _ => True) k z w (f z w))
    (h : Holds zones i j w t) :
    ∃ t', t.Same t' ∧ Holds (forZones f zones w).1 i j (forZones f zones w).2 t' := by
  induction zones generalizing i w with
  | nil =>
      obtain ⟨⟨z, hz, -⟩, -⟩ := h
      exact absurd hz (by simp)
  | cons z rest ih =>
      obtain ⟨hsame, -⟩ := hnotifies 0 z w
      rw [forZones]
      simp only
      cases i with
      | zero =>
          -- the zone of the trip comes first, and the other zones leave its devices alone
          obtain ⟨hzone, hothers⟩ := holds_zero.mp h
          obtain ⟨t', hsame', hzone'⟩ := hcarries z w t hzone
          obtain ⟨hrest, -⟩ := for_zones_notifies
            (fun z (_ : z ∈ rest) w => hnotifies 0 z w) (f z w).2
          refine ⟨t', hsame', holds_zero.mpr ⟨hzone'.frame fun k hk => ?_, fun z' hz' => ?_⟩⟩
          · obtain ⟨-, ops, hops, hacts⟩ := for_zones_notifies
              (fun z (_ : z ∈ rest) w => hnotifies k z w) (f z w).2
            refine hacts.eq_of_none fun op hop => ?_
            obtain ⟨z', hz', hop⟩ := hops op hop
            obtain ⟨u, hu, hbinds⟩ := hop.binds
            exact hothers z' hz' u hu k (hsame'.binds.mp hk) hbinds
          · obtain ⟨z₀, hz₀, hz⟩ := forall₂_mem_right hrest hz'
            exact foreign_of_same (hothers z₀ hz₀) hsame' hz
      | succ i =>
          obtain ⟨hforeign, hrest⟩ := holds_succ.mp h
          obtain ⟨t', hsame', hholds⟩ :=
            ih (hrest.frame fun k hk => (hnotifies k z w).frame hforeign hk)
          exact ⟨t', hsame', holds_succ.mpr ⟨foreign_of_same hforeign hsame' hsame, hholds⟩⟩

variable [CdevClass.Stores δ]

/-- A reset of a zone. -/
theorem Holds.zone_reset (h : Holds zones i j w t) (force : Bool) (hz : z ∈ zones) :
    Holds zones i j (z.zoneReset force w) t := by
  obtain ⟨⟨z₀, hz₀, hzone⟩, hothers⟩ := h
  obtain ⟨i', hi'⟩ := List.mem_iff_getElem?.mp hz
  by_cases hi : i' = i
  · rw [hi, hz₀] at hi'
    rw [← Option.some.inj hi']
    exact ⟨⟨z₀, hz₀, hzone.zone_reset force⟩, hothers⟩
  · refine ⟨⟨z₀, hz₀, hzone.frame fun k hk => ?_⟩, hothers⟩
    refine (z.zone_reset_acts force k w).eq_of_none fun op hop => ?_
    have hof : op.OfZone .performance (fun _ => True) z k := Zone.of_mem_reset_ops hop
    obtain ⟨u, hu, hbinds⟩ := hof.binds
    exact hothers i' z hi hi' u hu k hk hbinds

/-- Resets of zones one after the other. -/
theorem Holds.reset_zones (h : Holds zones i j w t) (resets : List Zone)
    (hresets : ∀ z ∈ resets, z ∈ zones) :
    Holds zones i j (resets.foldl (fun w z => z.zoneReset true w) w) t := by
  induction resets generalizing w with
  | nil => exact h
  | cons z rest ih =>
      exact ih (h.zone_reset true (hresets z List.mem_cons_self)) fun z hz =>
        hresets z (List.mem_cons_of_mem _ hz)

/-- What happens to an engine: readings of all zones, changes of the preference, and resets of one
zone or of all zones. The times are part of each. -/
inductive ZoneStep where
  | poll (p : Poll)
  | processPrefChange (newPref : Pref) (p : Poll)
  | zoneReset (i : Nat) (force : Bool) (clock : Nat → Int)
  | resetZones (clock : Nat → Int)

/-- The engine afterwards. -/
def zoneStep (e : Engine δ) : ZoneStep → Engine δ
  | .poll p => e.poll p
  | .processPrefChange newPref p => e.processPrefChange newPref p
  | .zoneReset i force clock =>
    match e.zones[i]? with
    | none => e
    | some z => { e with world := z.zoneReset force (e.world.withClock clock) }
  | .resetZones clock => e.resetZones clock

/-- One step. -/
theorem Holds.zone_step {e : Engine δ} (h : Holds e.zones i j e.world t) (step : ZoneStep) :
    ∃ t', t.Same t' ∧ Holds (e.zoneStep step).zones i j (e.zoneStep step).world t' := by
  have hclock : ∀ clock, Holds e.zones i j (e.world.withClock clock) t := fun _ =>
    h.frame fun _ _ => rfl
  cases step with
  | poll p =>
      exact (hclock p.clock).for_zones
        (fun z w => z.read_zone_temp_carries (p.read z.index) e.preference w)
        (fun k z w => z.read_zone_temp_notifies (p.read z.index) e.preference k w)
  | processPrefChange newPref p =>
      show ∃ t', t.Same t' ∧ Holds (e.processPrefChange newPref p).zones i j
        (e.processPrefChange newPref p).world t'
      unfold processPrefChange
      split
      · exact ⟨t, .refl t, h⟩
      · exact (hclock p.clock).for_zones
          (fun z w => z.update_zone_preference_carries (p.read z.index) newPref w)
          (fun k z w => z.update_zone_preference_notifies (p.read z.index) newPref k w)
  | zoneReset i' force clock =>
      refine ⟨t, .refl t, ?_⟩
      unfold zoneStep
      simp only
      split
      · exact h
      · rename_i z hz
        exact (hclock clock).zone_reset force (List.mem_of_getElem? hz)
  | resetZones clock =>
      exact ⟨t, .refl t, (hclock clock).reset_zones e.zones fun _ hz => hz⟩

/-- A trip of an engine. -/
def tripAt (e : Engine δ) (i j : Nat) : Option TripPoint :=
  (e.zones[i]?).bind fun z => z.tripPoints[j]?

end Engine

/-- A device at rest for a sequential trip: at its minimum, held by no trip, without a controller of
its own. -/
structure Cdev.Idle {δ : Type} (d : Cdev δ) : Prop extends d.Ranged where
  pid : d.pidEnable = false
  limits : d.zoneTripLimits = []
  state : d.currState = d.minState

/-- A sequential trip without targets, limits, controllers and sampling periods has its devices for
itself, and all of them start at their minimum. Whatever is read and reset at whatever times, the
devices before some index are at their maximum and those behind it at their minimum. -/
theorem sequential_staircase {δ : Type} [CdevClass δ] [StdSort] [CdevClass.Stores δ] (e : Engine δ)
    {i j : Nat} {t : TripPoint} (ht : e.tripAt i j = some t) (hseq : t.controlType = .sequential)
    (hplain : ∀ b ∈ t.cdevs, b.Plain) (hdistinct : (t.cdevs.map (·.cdev)).Nodup)
    (hforeign : ∀ i' j' t', (i', j') ≠ (i, j) → e.tripAt i' j' = some t' → t.Foreign t')
    (hidle : ∀ b ∈ t.cdevs, (e.world.cdevs b.cdev).Idle) (steps : List Engine.ZoneStep) :
    ∃ t', (run Engine.zoneStep e steps).tripAt i j = some t' ∧ t.Same t' ∧
      ∃ k : Nat, ∀ (n : Nat) (b : TripCdev), t'.cdevs[n]? = some b →
        (n < k → ((run Engine.zoneStep e steps).world.cdevs b.cdev).IsMax) ∧
        (k < n → ((run Engine.zoneStep e steps).world.cdevs b.cdev).IsMin) := by
  obtain ⟨z, hz, hj⟩ := Option.bind_eq_some_iff.mp ht
  have hstart : Engine.Holds e.zones i j e.world t := by
    refine ⟨⟨z, hz, hj, fun j' t' hne hget => ?_, hseq, hplain, hdistinct, ?_, ?_⟩, ?_⟩
    · refine hforeign i j' t' (fun heq => hne (Prod.mk.inj heq).2) ?_
      exact Option.bind_eq_some_iff.mpr ⟨z, hz, hget⟩
    · intro k hk
      obtain ⟨b, hb, rfl⟩ := List.mem_map.mp hk
      have hdevice := hidle b hb
      refine ⟨hdevice.toRanged, hdevice.pid, .inl hdevice.limits, ?_, fun _ hmin => ?_⟩
      · show (e.world.cdevs b.cdev).InRange (e.world.cdevs b.cdev).currState
        rw [hdevice.state]
        exact Device.in_range_min _
      · exact absurd hdevice.state hmin
    · refine staircase_of_forall fun k hk => ?_
      obtain ⟨b, hb, rfl⟩ := List.mem_map.mp hk
      exact (hidle b hb).state
    · intro i' z' hne hget t' ht'
      obtain ⟨j', hj'⟩ := List.mem_iff_getElem?.mp ht'
      refine hforeign i' j' t' (fun heq => hne (Prod.mk.inj heq).1) ?_
      exact Option.bind_eq_some_iff.mpr ⟨z', hget, hj'⟩
  obtain ⟨t', hsame, ⟨z', hz', hholds⟩, -⟩ : ∃ t', t.Same t' ∧ Engine.Holds
      (run Engine.zoneStep e steps).zones i j (run Engine.zoneStep e steps).world t' := by
    refine run_history (I := fun _ (e' : Engine δ) => ∃ t', t.Same t' ∧
      Engine.Holds e'.zones i j e'.world t') ⟨t, .refl t, hstart⟩ ?_
    intro _ e' step _ ⟨t', hsame, h'⟩
    obtain ⟨t'', hsame', h''⟩ := h'.zone_step step
    exact ⟨t'', hsame.trans hsame', h''⟩
  refine ⟨t', Option.bind_eq_some_iff.mpr ⟨z', hz', hholds.get⟩, hsame, ?_⟩
  exact (staircase_map.mp hholds.climbs.stairs.parts).exists_index

/-- A device without a target. -/
def plainCdev (k : Nat) : TripCdev where
  cdev := k
  influence := 0
  samplingPriod := 0
  lastOpTime := 0
  targetStateValid := false
  targetState := tripPtInvalidTargetState
  pidParam := ⟨false, 0, 0, 0⟩
  pid := .init
  minMaxValid := false
  minState := 0
  maxState := 0

/-- A sequential trip at 50 degrees with two devices. -/
def twoCdevTrip : TripPoint :=
  { TripPoint.init 0 .passive 50000 0 0 0 .sequential with cdevs := [plainCdev 0, plainCdev 1] }

/-- An engine with this trip. The states of the first device count upwards and those of the other
one downwards. -/
def twoCdevs : Engine GenSysfs :=
  { Engine.atRest [Engine.sensorZone 0 "TCPU" [twoCdevTrip]] with
    world :=
      { (Engine.atRest []).world with
        cdevs := fun k =>
          if k = 0 then { Cdev.init 0 ⟨"", []⟩ with maxState := 3 }
          else { Cdev.init k ⟨"", []⟩ with minState := 100, currState := 100, incDecVal := -25 } } }

/-- Readings of 60 degrees, a reading of 40 degrees and a reset. -/
def twoCdevSteps : List Engine.ZoneStep :=
  [.poll (Engine.pollAt 100 fun _ => 60000), .poll (Engine.pollAt 110 fun _ => 60000),
    .poll (Engine.pollAt 120 fun _ => 40000), .zoneReset 0 false fun _ => 130]

/-- The two devices are a staircase. -/
theorem two_cdevs_staircase :
    letI := StdSort.insertion
    ∃ t', (run Engine.zoneStep twoCdevs twoCdevSteps).tripAt 0 0 = some t' ∧ twoCdevTrip.Same t' ∧
      ∃ k : Nat, ∀ (n : Nat) (b : TripCdev), t'.cdevs[n]? = some b →
        (n < k → ((run Engine.zoneStep twoCdevs twoCdevSteps).world.cdevs b.cdev).IsMax) ∧
        (k < n → ((run Engine.zoneStep twoCdevs twoCdevSteps).world.cdevs b.cdev).IsMin) := by
  have htrip : twoCdevs.tripAt 0 0 = some twoCdevTrip := rfl
  have hdistinct : (twoCdevTrip.cdevs.map (·.cdev)).Nodup := by decide
  refine @sequential_staircase GenSysfs _ StdSort.insertion _ twoCdevs 0 0 twoCdevTrip htrip rfl ?_
    hdistinct ?_ ?_ twoCdevSteps
  · intro b hb
    rcases List.mem_pair.mp hb with rfl | rfl
    · exact ⟨rfl, rfl, rfl, rfl⟩
    · exact ⟨rfl, rfl, rfl, rfl⟩
  · intro i' j' t' hne hget
    exfalso
    match i', j' with
    | 0, 0 => exact hne rfl
    | 0, j' + 1 => simp [Engine.tripAt, twoCdevs, Engine.atRest, Engine.sensorZone] at hget
    | i' + 1, j' => simp [Engine.tripAt, twoCdevs, Engine.atRest] at hget
  · intro b hb
    rcases List.mem_pair.mp hb with rfl | rfl
    · exact ⟨⟨by decide, by decide, by decide, by decide⟩, rfl, rfl, rfl⟩
    · exact ⟨⟨by decide, by decide, by decide, by decide⟩, rfl, rfl, rfl⟩

end Thermald
