import Thermald.Cooling.Polls
import Thermald.Cooling.Reset

/-!
# Changing the preference

A change of the preference shows every trip a reading of 0 before the true readings, so that the
trips of the old preference let go of their devices. But the trips are looked at under the new
preference, which passes over those of the old one. What releases them is the polling trip of the
zone: at a reading of 0 it resets the zone, and a reset reaches the devices in a fixed order. With
the preference that disables the daemon nothing is released at all.

`pref_change_releases` gives a condition on the state before the change under which no device keeps
a limit of a trip that the new preference does not evaluate.
-/

namespace Thermald

/-- The types of the trips that activate devices. -/
def TripPointType.drives (type : TripPointType) : Bool :=
  type = .active || type = .passive || type = .max

/-- The limit of this user is that of a trip which the preference does not evaluate. -/
def Stale (zones : List Zone) (pref : Pref) (user : Int × Int) : Prop :=
  ∃ z ∈ zones, ∃ t ∈ z.tripPoints, t.type.drives = true ∧ pref.applies t.type = false ∧
    (t.zoneId, t.index) = user

instance (zones : List Zone) (pref : Pref) (user : Int × Int) : Decidable (Stale zones pref user) :=
  inferInstanceAs (Decidable (∃ z ∈ zones, _))

/-- Zones that are kept have the same stale users. -/
theorem Stale.of_same {zones zones' : List Zone} {pref : Pref} {user : Int × Int}
    (h : Stale zones' pref user) (hsame : List.Forall₂ Zone.Same zones zones') :
    Stale zones pref user := by
  obtain ⟨z', hz', t', ht', hdrives, happlies, huser⟩ := h
  obtain ⟨z, hz, hzz'⟩ := forall₂_mem_right hsame hz'
  obtain ⟨t, ht, htt'⟩ := forall₂_mem_right hzz'.tripPoints ht'
  rw [htt'.type] at hdrives happlies
  exact ⟨z, hz, t, ht, hdrives, happlies, by rw [← huser, htt'.zoneId, htt'.index]⟩

/-! ## Releases of a throttled device -/

namespace Cdev

variable {δ : Type} [CdevClass δ] [StdSort] {d d' : Cdev δ}

/-- The limits of the device all have targets off its minimum, and while there are any it is not in
its minimum state. -/
structure Throttled (d : Cdev δ) : Prop where
  range : d.minState ≠ d.maxState
  targets : ∀ l ∈ d.zoneTripLimits,
    l.targetStateValid = true ∧ d.InRange l.targetValue ∧ l.targetValue ≠ d.minState
  above : d.zoneTripLimits ≠ [] → d.inMinState = false

omit [StdSort] in
/-- A device at the target of one of its limits is not in its minimum state. -/
theorem not_in_min_state {target : Int} (hrange : d.minState ≠ d.maxState)
    (htarget : d.InRange target) (hne : target ≠ d.minState) (hcurr : d.getCurrState = target) :
    d.inMinState = false := by
  refine Bool.eq_false_iff.mpr fun hmin => hne ?_
  rw [in_min_state_iff hrange, hcurr] at hmin
  exact Device.level_inj.mp (le_antisymm hmin htarget.level_bounds.1)

/-- A release keeps a device throttled. -/
theorem Throttled.release [CdevClass.Settable δ] (h : d.Throttled) {a : SetStateArgs} (pid : Pid)
    (tm : Int) (hstate : a.state = false) : (d.thdCdevSetState a pid tm).2.1.Throttled := by
  have hconfig : SameConfig d (d.thdCdevSetState a pid tm).2.1 := set_state_config
  have hlimits : (d.thdCdevSetState a pid tm).2.1.zoneTripLimits =
      withdraw ZoneTripLimit.user a.user d.zoneTripLimits := by
    rw [set_state_limits, hstate]
    rfl
  refine ⟨by rw [hconfig.minState, hconfig.maxState]; exact h.range, fun l hl => ?_, fun hne => ?_⟩
  · rw [hlimits] at hl
    rw [hconfig.in_range, hconfig.minState]
    exact h.targets l (withdraw_front.subset hl)
  · rcases List.eq_nil_or_concat d.zoneTripLimits with hnil | ⟨front, last, hlist⟩
    · exact absurd (by rw [hlimits, hnil]; rfl) hne
    rw [List.concat_eq_append] at hlist
    have hlast : d.zoneTripLimits.getLast? = some last := by simp [hlist]
    by_cases huser : last.user = a.user
    · -- the limit before the last one is applied
      rw [hlimits, hlist, ← huser, withdraw_concat_self] at hne
      obtain ⟨next, hnext⟩ := exists_last hne
      obtain ⟨hvalid, hrange, hmin⟩ := h.targets next (by simp [hlist, List.mem_of_getLast? hnext])
      have hcurr : (d.thdCdevSetState a pid tm).2.1.getCurrState = next.targetValue := by
        rw [set_state_release_next pid tm hstate hlast huser (by simpa [hlist] using hnext), hvalid]
        exact control_target hrange
      refine not_in_min_state ?_ (hconfig.in_range.mpr hrange) ?_ hcurr
      · rw [hconfig.minState, hconfig.maxState]
        exact h.range
      · rw [hconfig.minState]
        exact hmin
    · rw [set_state_release_of_ne pid tm hstate hlast huser]
      exact h.above (by simp [hlist])

end Cdev

/-- The operation does not activate the device. -/
def Op.Releases : Op → Prop
  | .on _ _ _ => False
  | .off _ _ _ => True
  | .reset _ _ _ => True

section Releases

variable {δ : Type} [CdevClass δ] [StdSort] [CdevClass.Settable δ] {clock : Nat → Int}
  {d d' : Cdev δ}

/-- A release of a throttled device withdraws its trip: the device is skipped only if there is
nothing to withdraw. -/
theorem Op.Releases.act {op : Op} (hop : op.Releases) (hd : d.Throttled) (h : op.Act clock d d') :
    d'.Throttled ∧ d'.zoneTripLimits = withdraw ZoneTripLimit.user op.user d.zoneTripLimits := by
  have hskip : d.inMinState = true →
      d.zoneTripLimits = withdraw ZoneTripLimit.user op.user d.zoneTripLimits := by
    intro hmin
    have hnil : d.zoneTripLimits = [] := by
      by_contra hne
      simp [hd.above hne] at hmin
    rw [hnil]
    rfl
  cases op with
  | on t b temp => exact hop.elim
  | off t b temp =>
      rcases h with ⟨hmin, rfl⟩ | ⟨-, pid, n, rfl⟩
      · exact ⟨hd, hskip hmin⟩
      · refine ⟨hd.release pid (clock n) rfl, ?_⟩
        rw [Cdev.set_state_limits]
        rfl
  | reset force zoneId tripId =>
      rcases h with ⟨-, hmin, rfl⟩ | ⟨-, n, rfl⟩
      · exact ⟨hd, hskip hmin⟩
      · refine ⟨?_, Cdev.set_min_state_limits zoneId tripId (clock n)⟩
        have htrend : ({ d with trendIncrease := false } : Cdev δ).Throttled :=
          ⟨hd.range, hd.targets, hd.above⟩
        exact htrend.release .init (clock n) rfl

/-- Releases of a throttled device that reach its trips from the last limit to the first leave no
limit. -/
theorem releases_clear {ops : List Op} (hops : ∀ op ∈ ops, op.Releases) (hd : d.Throttled)
    (hsub : (d.zoneTripLimits.map ZoneTripLimit.user).reverse.Sublist (ops.map Op.user))
    (h : Steps (Op.Act clock) ops d d') : d'.zoneTripLimits = [] := by
  have hall : d'.zoneTripLimits =
      withdrawAll ZoneTripLimit.user d.zoneTripLimits (ops.map Op.user) := by
    clear hsub
    induction h with
    | nil _ => rfl
    | cons hact _ ih =>
        obtain ⟨hd', hlimits⟩ := (hops _ List.mem_cons_self).act hd hact
        rw [ih (fun op hop => hops op (List.mem_cons_of_mem _ hop)) hd', hlimits]
        rfl
  rw [hall]
  exact (withdraw_all_eq_nil_iff _ _).mpr hsub

end Releases

/-! ## A reading of 0 -/

namespace TripPoint

/-- A polling trip that is on, for a sensor that the engine knows: any reading below it resets the
zone. -/
def pollsOn {δ : Type} (t : TripPoint) (w : World δ) : Bool :=
  t.type = .polling && t.sensorId ≠ defaultSensorId && t.pollOn && 0 < t.temp &&
    (w.getSensor t.sensorId).isSome

variable {δ : Type} [CdevClass δ] [StdSort] {t : TripPoint} {w : World δ}

/-- At a reading of 0 of its sensor such a trip asks for a reset. -/
theorem check_polls_on (h : t.pollsOn w = true) (pref : Pref) :
    (t.thdTripPointCheck t.sensorId 0 pref w).reset = true := by
  simp only [pollsOn, Bool.and_eq_true, decide_eq_true_eq] at h
  obtain ⟨⟨⟨⟨htype, hsensor⟩, hon⟩, htemp⟩, hknown⟩ := h
  obtain ⟨s, hs⟩ := Option.isSome_iff_exists.mp hknown
  have hdepend : t.dependencyFails 0 w = false := by
    unfold dependencyFails
    split
    · rfl
    · simp [not_le.mpr htemp]
  have hcounts : t.counts = false := by simp [counts, htype]
  simp [thdTripPointCheck, htype, hdepend, otherSensor, hcounts, hsensor, checkPolling, hs, hon,
    htemp, not_le.mpr htemp]

omit [CdevClass δ] [StdSort] in
/-- The sensors that the engine knows stay the same. -/
theorem polls_on_frame {w' : World δ} (h : w.Frame w') : t.pollsOn w' = t.pollsOn w := by
  unfold pollsOn World.getSensor
  rw [h.sensors]

/-- A reading of another sensor leaves the trip as it is. -/
theorem check_other_sensor {id : Int} (h : t.otherSensor id = true) (temp : Nat) (pref : Pref) :
    (t.thdTripPointCheck id temp pref w).trip = t := by
  unfold thdTripPointCheck
  split
  · rfl
  split
  · rfl
  · rfl

end TripPoint

namespace Zone

variable {δ : Type} [CdevClass δ] [StdSort] {pref : Pref} {k : Nat}

/-- A polling trip that is on asks for a reset of the zone. -/
theorem check_trips_reset {trips : List TripPoint} {t : TripPoint} (ht : t ∈ trips) {w : World δ}
    (h : t.pollsOn w = true) : (checkTrips t.sensorId 0 pref trips w).2.1 = true := by
  induction trips generalizing w with
  | nil => simp at ht
  | cons t' rest ih =>
      rw [checkTrips]
      simp only
      split
      · rfl
      · rename_i hreset
        rcases List.mem_cons.mp ht with rfl | ht
        · exact absurd (TripPoint.check_polls_on h pref) hreset
        · obtain ⟨-, -, ops, -, hacts⟩ := t'.check_acts t.sensorId 0 pref 0 w
          exact ih ht (by rw [TripPoint.polls_on_frame hacts.toFrame, h])

/-- Trips of other sensors are kept as they are. -/
theorem mem_check_trips {trips : List TripPoint} {t : TripPoint} (ht : t ∈ trips) {id : Int}
    (h : t.otherSensor id = true) (temp : Nat) (w : World δ) :
    t ∈ (checkTrips id temp pref trips w).1 := by
  induction trips generalizing w with
  | nil => simp at ht
  | cons t' rest ih =>
      rw [checkTrips]
      simp only
      split
      · rcases List.mem_cons.mp ht with rfl | ht
        · rw [TripPoint.check_other_sensor h]
          exact List.mem_cons_self
        · exact List.mem_cons_of_mem _ ht
      · rcases List.mem_cons.mp ht with rfl | ht
        · simp only [TripPoint.check_other_sensor h]
          exact List.mem_cons_self
        · exact List.mem_cons_of_mem _ (ih ht _)

omit [StdSort] in
/-- Zones that are kept are reset in the same way. -/
theorem Same.reset_ops {z z' : Zone} (h : z.Same z') (force : Bool) (k : Nat) :
    z'.resetOps force k = z.resetOps force k := by
  have hcdevs : ∀ {bs bs' : List TripCdev}, List.Forall₂ TripCdev.Same bs bs' →
      bs'.map (fun b => b.cdev) = bs.map fun b => b.cdev := by
    intro bs bs' hbs
    induction hbs with
    | nil => rfl
    | cons hb _ ih => rw [List.map_cons, List.map_cons, hb.cdev, ih]
  have htrip : ∀ {t t' : TripPoint}, t.Same t' →
      t'.opsReset force k t'.cdevs.reverse = t.opsReset force k t.cdevs.reverse := by
    intro t t' htt'
    have hlength : ∀ bs : List TripCdev, (bs.filter fun b => b.cdev = k).length =
        (bs.map fun b => b.cdev).count k := by
      intro bs
      induction bs with
      | nil => rfl
      | cons b rest ih =>
          rw [List.filter_cons, List.map_cons, List.count_cons]
          split <;> simp_all
    unfold TripPoint.opsReset
    rw [List.map_const', List.map_const', htt'.zoneId, htt'.index, hlength, hlength,
      List.map_reverse, List.map_reverse, hcdevs htt'.cdevs]
  have hlist : ∀ {l l' : List TripPoint}, List.Forall₂ TripPoint.Same l l' →
      l'.flatMap (fun t => t.opsReset force k t.cdevs.reverse) =
        l.flatMap fun t => t.opsReset force k t.cdevs.reverse := by
    intro l l' hl
    induction hl with
    | nil => rfl
    | cons ht _ ih => rw [List.flatMap_cons, List.flatMap_cons, htrip ht, ih]
  unfold resetOps
  rw [h.zoneActive, hlist (List.rel_reverse h.tripPoints)]

/-- A reading treats the device on behalf of trips of the zone; if a trip asks for a reset, the
operations end with it. -/
theorem temp_change_resets (z : Zone) (id : Int) (temp : Nat) (pref : Pref) (k : Nat)
    (w : World δ) :
    ∃ ops, (∀ op ∈ ops, op.OfZone pref (· = temp) z k) ∧
      ((checkTrips id temp pref z.tripPoints w).2.1 = true → (z.resetOps false k).Sublist ops) ∧
      w.Acts k ops (z.thermalZoneTempChange id temp pref w).2 := by
  obtain ⟨hsame, -⟩ := z.thermal_zone_temp_change_acts id temp pref k w
  obtain ⟨-, ops, hops, hacts⟩ := check_trips_acts id temp pref k z.tripPoints w
  have hops' : ∀ op ∈ ops, op.OfZone pref (· = temp) z k := by
    intro op hop
    obtain ⟨t, ht, hop⟩ := hops op hop
    exact ⟨t, ht, t, .refl t, hop⟩
  unfold thermalZoneTempChange at hsame ⊢
  simp only at hsame ⊢
  split
  · have hreset := zone_reset_acts { z with
      tripPoints := (checkTrips id temp pref z.tripPoints w).1 } false k
      (checkTrips id temp pref z.tripPoints w).2.2
    rw [hsame.reset_ops] at hreset
    refine ⟨_, fun op hop => ?_, fun _ => List.sublist_append_right _ _, hacts.trans hreset⟩
    rcases List.mem_append.mp hop with hop | hop
    · exact hops' op hop
    · exact of_mem_reset_ops hop
  · rename_i hnone
    exact ⟨ops, hops', fun h => absurd h hnone, hacts⟩

/-- The zone has a polling trip that is on for one of its sensors. -/
def pollsOn (z : Zone) (w : World δ) : Bool :=
  z.sensors.any fun s => z.tripPoints.any fun t => t.sensorId = s.index && t.pollsOn w

/-- The trips on whose behalf a reading of 0 resets device `k`, in the order of the requests. -/
def zeroResets (z : Zone) (w : World δ) (k : Nat) : List (Int × Int) :=
  if z.pollsOn w then (z.resetOps false k).map Op.user else []

omit [CdevClass δ] [StdSort] in
/-- The engine knows the same sensors throughout. -/
theorem zero_resets_frame {w w' : World δ} (h : w.Frame w') (z : Zone) :
    z.zeroResets w' k = z.zeroResets w k := by
  unfold zeroResets pollsOn
  simp only [TripPoint.polls_on_frame h]

/-- Showing the readings of 0 to a list of sensors resets the zone if a polling trip of one of them
is on. -/
theorem feed_zero_resets (pref : Pref) (read : Int → Nat) {sensors : List Sensor} {z : Zone}
    {t : TripPoint} {w : World δ} (ht : t ∈ z.tripPoints) (hon : t.pollsOn w = true)
    (hs : ∃ s ∈ sensors, t.sensorId = s.index) :
    ∃ ops, (∀ op ∈ ops, op.OfZone pref (· = 0) z k) ∧ (z.resetOps false k).Sublist ops ∧
      w.Acts k ops (feedSensors read (fun _ => 0) pref sensors z w).2 := by
  induction sensors generalizing z w with
  | nil => simp at hs
  | cons s rest ih =>
      rw [feedSensors]
      simp only
      generalize hz' : { z with zoneTemp := read s.index } = z'
      have hsame : z.Same z' := by
        rw [← hz']
        exact ⟨rfl, rfl, rfl, rfl, rfl, List.forall₂_same.mpr fun t _ => .refl t⟩
      have ht' : t ∈ z'.tripPoints := by
        rw [← hz']
        exact ht
      obtain ⟨ops, hops, hreset, hacts⟩ := z'.temp_change_resets s.index 0 pref k w
      have hkept := (z'.thermal_zone_temp_change_acts s.index 0 pref k w).1
      by_cases heq : t.sensorId = s.index
      · -- this sensor resets the zone
        have hdone : (checkTrips s.index 0 pref z'.tripPoints w).2.1 = true := by
          rw [← heq]
          exact check_trips_reset ht' hon
        have hrest : Notifies pref (· = 0) k (z'.thermalZoneTempChange s.index 0 pref w).1
            (z'.thermalZoneTempChange s.index 0 pref w).2 _ :=
          feed_sensors_notifies read (fun _ => 0) rest _ _ fun _ _ => rfl
        obtain ⟨-, ops', hops', hacts'⟩ := hrest
        refine ⟨ops ++ ops', fun op hop => ?_, ?_, hacts.trans hacts'⟩
        · rcases List.mem_append.mp hop with hop | hop
          · exact (hops op hop).of_same hsame
          · exact ((hops' op hop).of_same hkept).of_same hsame
        · rw [← hsame.reset_ops]
          exact (hreset hdone).trans (List.sublist_append_left _ _)
      · -- a later one does
        have hother : t.otherSensor s.index = true := by
          simp only [TripPoint.pollsOn, Bool.and_eq_true, decide_eq_true_eq] at hon
          simp [TripPoint.otherSensor, hon.1.1.1.2, heq]
        have hlater : ∃ s ∈ rest, t.sensorId = s.index := by
          obtain ⟨s', hs', heq'⟩ := hs
          rcases List.mem_cons.mp hs' with rfl | hs'
          · exact absurd heq' heq
          · exact ⟨s', hs', heq'⟩
        obtain ⟨ops', hops', hsub, hacts'⟩ :=
          ih (z := (z'.thermalZoneTempChange s.index 0 pref w).1) (mem_check_trips ht' hother 0 w)
            (by rw [TripPoint.polls_on_frame hacts.toFrame]; exact hon) hlater
        refine ⟨ops ++ ops', fun op hop => ?_, ?_, hacts.trans hacts'⟩
        · rcases List.mem_append.mp hop with hop | hop
          · exact (hops op hop).of_same hsame
          · exact ((hops' op hop).of_same hkept).of_same hsame
        · rw [← hsame.reset_ops, ← hkept.reset_ops]
          exact hsub.trans (List.sublist_append_right _ _)

/-- The first half of `update_zone_preference` treats the device at a reading of 0 and resets it if
a polling trip is on, the second half treats it at the true readings. -/
theorem update_zone_preference_acts (z : Zone) (read : Int → Nat) (pref : Pref) (k : Nat)
    (w : World δ) :
    z.Same (z.updateZonePreference read pref w).1 ∧
      ∃ zero now, (∀ op ∈ zero, op.OfZone pref (· = 0) z k) ∧
        (∀ op ∈ now, op.OfZone pref (fun temp => ∃ s ∈ z.sensors, read s.index = temp) z k) ∧
        (z.zeroResets w k).Sublist (zero.map Op.user) ∧
        w.Acts k (zero ++ now) (z.updateZonePreference read pref w).2 := by
  unfold updateZonePreference
  cases hactive : z.zoneActive with
  | false =>
      have hnone : z.zeroResets w k = [] := by simp [zeroResets, resetOps, hactive]
      rw [hnone]
      exact ⟨.refl z, [], [], by simp, by simp, List.nil_sublist _, .refl k w⟩
  | true =>
      simp only [if_true]
      have hfirst : Notifies pref (· = 0) k z w
          (feedSensors read (fun _ => 0) pref z.sensors z w) :=
        feed_sensors_notifies read (fun _ => 0) z.sensors z w fun _ _ => rfl
      obtain ⟨hsame, zero, hzero, hacts⟩ := hfirst
      generalize hr : feedSensors read (fun _ => 0) pref z.sensors z w = r at hsame hacts
      have hsecond : Notifies pref (fun temp => ∃ s ∈ z.sensors, read s.index = temp) k r.1 r.2
          (feedSensors read id pref r.1.sensors r.1 r.2) :=
        feed_sensors_notifies read id r.1.sensors r.1 r.2 fun s hs => ⟨s, hsame.sensors ▸ hs, rfl⟩
      obtain ⟨hsame', now, hnow, hacts'⟩ := hsecond
      have hnow' : ∀ op ∈ now, op.OfZone pref
          (fun temp => ∃ s ∈ z.sensors, read s.index = temp) z k :=
        fun op hop => (hnow op hop).of_same hsame
      refine ⟨hsame.trans hsame', ?_⟩
      cases hon : z.pollsOn w with
      | false =>
          have hnone : z.zeroResets w k = [] := by simp [zeroResets, hon]
          rw [hnone]
          exact ⟨zero, now, hzero, hnow', List.nil_sublist _, hacts.trans hacts'⟩
      | true =>
          have hsome := hon
          simp only [pollsOn, List.any_eq_true, Bool.and_eq_true, decide_eq_true_eq] at hsome
          obtain ⟨s, hs, t, ht, hsensor, hpolls⟩ := hsome
          obtain ⟨zero, hzero, hsub, hacts⟩ := feed_zero_resets (k := k) pref read ht hpolls
            ⟨s, hs, hsensor⟩
          rw [hr] at hacts
          refine ⟨zero, now, hzero, hnow', ?_, hacts.trans hacts'⟩
          unfold zeroResets
          rw [if_pos hon]
          exact hsub.map _

/-- No trip that the preference evaluates reaches device `k` at these readings. -/
def Quiet (pref : Pref) (temps : Nat → Prop) (k : Nat) (z : Zone) : Prop :=
  ∀ t ∈ z.tripPoints, pref.applies t.type = true → t.Binds k → ∀ temp, temps temp → temp < t.temp

omit [StdSort] in
/-- The operations of a quiet zone are releases. -/
theorem Quiet.releases {z : Zone} {temps : Nat → Prop} (h : z.Quiet pref temps k) {op : Op}
    (hop : op.OfZone pref temps z k) : op.Releases := by
  obtain ⟨t₀, ht₀, t, hsame, hop⟩ := hop
  cases op with
  | on t' b temp =>
      obtain ⟨rfl, happlies, htemp, hle, hcdev, b', hb', hbb'⟩ := hop
      obtain ⟨b₀, hb₀, hbb₀⟩ := forall₂_mem_right hsame.cdevs hb'
      have hlt := h t₀ ht₀ (hsame.type ▸ happlies)
        ⟨b₀, hb₀, by rw [← hbb₀.cdev, ← hbb'.cdev, hcdev]⟩ temp htemp
      rw [hsame.temp] at hle
      exact absurd hle (not_le.mpr hlt)
  | off t' b temp => trivial
  | reset force zoneId tripId => trivial

end Zone

/-! ## The change of the preference -/

namespace Engine

section

variable {δ : Type} [CdevClass δ] [StdSort] {e : Engine δ} {pref : Pref} {p : Poll} {k : Nat}

/-- Device `k` holds no limit of a trip that the preference does not evaluate. -/
def Fresh (e : Engine δ) (pref : Pref) (k : Nat) : Prop :=
  ∀ l ∈ (e.world.cdevs k).zoneTripLimits, ¬ Stale e.zones pref l.user

instance (e : Engine δ) (pref : Pref) (k : Nat) : Decidable (e.Fresh pref k) :=
  inferInstanceAs (Decidable (∀ l ∈ (e.world.cdevs k).zoneTripLimits, _))

/-- No trip that the preference evaluates has the zone and index of one that it does not. -/
def UsersAgree (zones : List Zone) (pref : Pref) : Prop :=
  ∀ z ∈ zones, ∀ t ∈ z.tripPoints, pref.applies t.type = true →
    ¬ Stale zones pref (t.zoneId, t.index)

instance (zones : List Zone) (pref : Pref) : Decidable (UsersAgree zones pref) :=
  inferInstanceAs (Decidable (∀ z ∈ zones, _))

/-- A change to the preference clears device `k`: up to some zone no trip activates the device
again, and the polling trips that are on reset the zones so that the trips which hold the device
are reached from the last limit to the first. -/
structure Clears (e : Engine δ) (pref : Pref) (p : Poll) (k : Nat) : Prop where
  enabled : pref ≠ .disabled
  throttled : (e.world.cdevs k).Throttled
  resets : ∃ front z rest, e.zones = front ++ z :: rest ∧
    (∀ z' ∈ front, z'.Quiet pref
      (fun temp => temp = 0 ∨ ∃ s ∈ z'.sensors, p.read z'.index s.index = temp) k) ∧
    z.Quiet pref (· = 0) k ∧
    ((e.world.cdevs k).zoneTripLimits.map ZoneTripLimit.user).reverse.Sublist
      ((front ++ [z]).flatMap fun z => z.zeroResets e.world k)

/-- Every device holds no limit to be released, or the change clears it. -/
structure Releases (e : Engine δ) (pref : Pref) (p : Poll) : Prop where
  agree : pref ≠ .disabled → UsersAgree e.zones pref
  devices : ∀ k, e.Fresh pref k ∨ e.Clears pref p k

omit [CdevClass δ] [StdSort] in
/-- Going through a list of zones is going through its parts. -/
theorem for_zones_append (f : Zone → World δ → Zone × World δ) (first second : List Zone)
    (w : World δ) :
    (forZones f (first ++ second) w).2 = (forZones f second (forZones f first w).2).2 := by
  induction first generalizing w with
  | nil => rfl
  | cons z rest ih => exact ih _

/-- Operations under a preference only add limits of trips that it evaluates. -/
theorem op_fresh {zones : List Zone} (hagree : UsersAgree zones pref) {op : Op} {z : Zone}
    (hz : z ∈ zones) {temps : Nat → Prop} (hop : op.OfZone pref temps z k) {clock : Nat → Int}
    {d d' : Cdev δ} (hact : op.Act clock d d')
    (hd : ∀ l ∈ d.zoneTripLimits, ¬ Stale zones pref l.user) :
    ∀ l ∈ d'.zoneTripLimits, ¬ Stale zones pref l.user := by
  intro l hl
  rcases hact.limit_cases hl with hl | ⟨t, b, temp, rfl, huser⟩
  · exact hd l hl
  · obtain ⟨t₀, ht₀, t', hsame, rfl, happlies, -⟩ := hop
    rw [huser, hsame.zoneId, hsame.index]
    exact hagree z hz t₀ ht₀ (hsame.type ▸ happlies)

/-- Quiet zones only release the device, and their polling trips reset it. -/
theorem quiet_zones_acts {front : List Zone} (hquiet : ∀ z ∈ front, z.Quiet pref
      (fun temp => temp = 0 ∨ ∃ s ∈ z.sensors, p.read z.index s.index = temp) k) (w : World δ) :
    ∃ ops, (∀ op ∈ ops, op.Releases) ∧
      (front.flatMap fun z => z.zeroResets w k).Sublist (ops.map Op.user) ∧
      w.Acts k ops (forZones (fun z w => z.updateZonePreference (p.read z.index) pref w)
        front w).2 := by
  induction front generalizing w with
  | nil => exact ⟨[], by simp, List.nil_sublist _, .refl k w⟩
  | cons z rest ih =>
      obtain ⟨-, zero, now, hzero, hnow, hsub, hacts⟩ :=
        z.update_zone_preference_acts (p.read z.index) pref k w
      obtain ⟨ops, hops, hsub', hacts'⟩ := ih (fun z hz => hquiet z (List.mem_cons_of_mem _ hz))
        (z.updateZonePreference (p.read z.index) pref w).2
      have hz := hquiet z List.mem_cons_self
      refine ⟨(zero ++ now) ++ ops, fun op hop => ?_, ?_, hacts.trans hacts'⟩
      · rcases List.mem_append.mp hop with hop | hop
        · rcases List.mem_append.mp hop with hop | hop
          · exact hz.releases ((hzero op hop).mono fun _ h => .inl h)
          · exact hz.releases ((hnow op hop).mono fun _ h => .inr h)
        · exact hops op hop
      · rw [List.flatMap_cons, List.map_append, List.map_append]
        refine List.Sublist.append (hsub.trans (List.sublist_append_left _ _)) ?_
        simpa only [Zone.zero_resets_frame hacts.toFrame] using hsub'

/-- Once a device holds no stale limit, the zones that follow add none. -/
theorem zones_fresh {zones all : List Zone} (hagree : UsersAgree all pref)
    (hzones : ∀ z ∈ zones, z ∈ all) (w : World δ)
    (hd : ∀ l ∈ (w.cdevs k).zoneTripLimits, ¬ Stale all pref l.user) :
    ∀ l ∈ ((forZones (fun z w => z.updateZonePreference (p.read z.index) pref w)
      zones w).2.cdevs k).zoneTripLimits, ¬ Stale all pref l.user := by
  induction zones generalizing w with
  | nil => exact hd
  | cons z rest ih =>
      obtain ⟨-, zero, now, hzero, hnow, -, hacts⟩ :=
        z.update_zone_preference_acts (p.read z.index) pref k w
      refine ih (fun z hz => hzones z (List.mem_cons_of_mem _ hz)) _ ?_
      refine hacts.steps.invariant
        (I := fun d => ∀ l ∈ d.zoneTripLimits, ¬ Stale all pref l.user) ?_ hd
      intro op hop d d' hact hfresh
      rcases List.mem_append.mp hop with hop | hop
      · exact op_fresh hagree (hzones z List.mem_cons_self) (hzero op hop) hact hfresh
      · exact op_fresh hagree (hzones z List.mem_cons_self) (hnow op hop) hact hfresh

/-- The zones that clear the device leave it without stale limits. -/
theorem Clears.fresh [CdevClass.Settable δ] (h : e.Clears pref p k)
    (hagree : UsersAgree e.zones pref) :
    ∀ l ∈ ((forZones (fun z w => z.updateZonePreference (p.read z.index) pref w)
      e.zones (e.world.withClock p.clock)).2.cdevs k).zoneTripLimits,
      ¬ Stale e.zones pref l.user := by
  obtain ⟨front, z, rest, hzones, hfront, hz, hsub⟩ := h.resets
  generalize hw : e.world.withClock p.clock = w
  have hdevice : w.cdevs k = e.world.cdevs k := by
    rw [← hw]
    rfl
  have hresets : ∀ z : Zone, z.zeroResets e.world k = z.zeroResets w k := by
    intro z
    rw [← hw]
    rfl
  obtain ⟨ops, hops, hsubFront, hactsFront⟩ := quiet_zones_acts hfront w
  rw [hzones, for_zones_append]
  generalize (forZones (fun z w => z.updateZonePreference (p.read z.index) pref w)
    front w).2 = w₁ at hactsFront
  obtain ⟨-, zero, now, hzero, hnow, hsubZone, hacts⟩ :=
    z.update_zone_preference_acts (p.read z.index) pref k w₁
  have hmem : z ∈ front ++ z :: rest := by simp
  rw [hzones] at hagree
  refine zones_fresh hagree
    (fun z' hz' => List.mem_append_right _ (List.mem_cons_of_mem z hz')) _ ?_
  -- the device has no limit at all between the two halves of the zone
  obtain ⟨d, hfirst, hsecond⟩ := Steps.append_iff.mp hacts.steps
  have hnil : d.zoneTripLimits = [] := by
    have hsteps := hactsFront.steps.append (hactsFront.clock ▸ hfirst)
    refine releases_clear ?_ (hdevice ▸ h.throttled) ?_ hsteps
    · intro op hop
      rcases List.mem_append.mp hop with hop | hop
      · exact hops op hop
      · exact hz.releases (hzero op hop)
    · rw [hdevice]
      refine hsub.trans ?_
      simp only [hresets, List.flatMap_append, List.flatMap_cons, List.flatMap_nil, List.append_nil,
        List.map_append]
      refine hsubFront.append ?_
      rwa [Zone.zero_resets_frame hactsFront.toFrame] at hsubZone
  refine hsecond.invariant (I := fun d => ∀ l ∈ d.zoneTripLimits,
    ¬ Stale (front ++ z :: rest) pref l.user) ?_ (by simp [hnil])
  exact fun op hop d d' hact hfresh => op_fresh hagree hmem (hnow op hop) hact hfresh

end

end Engine

/-! ## Limits that survive the change -/

namespace Engine

/-- A zone with the sensor whose polling trip is at 45 degrees. -/
def polledZone (index : Int) (typeStr : String) (tripPoints : List TripPoint) : Zone :=
  sensorZone index typeStr
    (tripPoints ++ [.init tripPoints.length .polling 45000 0 index 0 .parallel])

/-- Two zones with polling trips that share a device. -/
def polledPair : Engine GenSysfs :=
  atRest [polledZone 0 "first" [targetTrip 0 0 .passive 3],
    polledZone 1 "second" [targetTrip 1 0 .passive 5]]

/-- A zone with a passive and an active trip. -/
def mixedZone : Zone :=
  polledZone 0 "cpu" [targetTrip 0 0 .passive 5, targetTrip 0 1 .active 7]

end Engine

end Thermald
