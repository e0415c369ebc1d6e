import Thermald.Cooling.Engine
import Thermald.Cooling.TargetUsers
import Thermald.Cooling.ZoneEffects

/-!
# Resetting all zones

Before a policy is replaced every zone is reset with force, which asks each device to release each
trip that binds it. A release only removes the last limit of a device, so the order of the
requests decides whether all limits go: `reset_zones_clears_iff` says that a device is cleared
exactly when the requests reach the trips that hold it in the order from its last limit to its
first.
-/

namespace Thermald

namespace Cdev

variable {δ : Type} [CdevClass δ] [StdSort] {d : Cdev δ}

/-- The device is in its minimum state. A device whose range is a single state never reports so by
`in_min_state`. -/
def AtMin (d : Cdev δ) : Prop :=
  d.inMinState = true ∨ d.getCurrState = d.minState

/-- No trip holds the device and it is in its minimum state. -/
def Cleared (d : Cdev δ) : Prop :=
  d.zoneTripLimits = [] ∧ d.AtMin

/-- A forced release withdraws its trip. -/
theorem set_min_state_limits (zoneId tripId tm : Int) :
    (d.thdCdevSetMinState zoneId tripId tm).zoneTripLimits =
      withdraw ZoneTripLimit.user (zoneId, tripId) d.zoneTripLimits := by
  unfold thdCdevSetMinState
  rw [set_state_limits]
  rfl

/-- A forced release of a device without limits sends it to its minimum unless it is there. -/
theorem set_state_release_forced (pid : Pid) (tm : Int) {a : SetStateArgs}
    (hstate : a.state = false)
    (hforce : a.force = true) (hnil : d.zoneTripLimits = []) (hmin : d.inMinState = false) :
    (d.thdCdevSetState a pid tm).2.1 =
      ({ d with zoneTripLimits := [] }.control a pid tm true d.minState a.minState
        a.maxState).1 := by
  simp [thdCdevSetState, hstate, hmin, release, hnil, hforce]

variable [CdevClass.Settable δ]

/-- A forced release that leaves no limit leaves the device in its minimum state. -/
theorem set_min_state_at_min {zoneId tripId tm : Int}
    (hnil : (d.thdCdevSetMinState zoneId tripId tm).zoneTripLimits = []) :
    (d.thdCdevSetMinState zoneId tripId tm).AtMin := by
  rw [set_min_state_limits] at hnil
  unfold thdCdevSetMinState
  generalize hd : { d with trendIncrease := false } = d₀
  have hlimits : d₀.zoneTripLimits = d.zoneTripLimits := by rw [← hd]
  simp only
  have hcontrol : ∀ limits, ({ d₀ with zoneTripLimits := limits }.control
      (d₀.minStateArgs zoneId tripId) .init tm true d₀.minState 0 0).1.AtMin := by
    intro limits
    refine .inr ?_
    rw [control_min_state]
    exact control_target d₀.in_range_min
  rcases List.eq_nil_or_concat d.zoneTripLimits with hempty | ⟨front, last, hlast⟩
  · rw [hempty] at hlimits
    cases hmin : d₀.inMinState with
    | true =>
        rw [set_state_release_of_min _ _ rfl hlimits hmin]
        exact .inl hmin
    | false =>
        rw [set_state_release_forced _ _ rfl rfl hlimits hmin]
        exact hcontrol []
  · rw [List.concat_eq_append] at hlast
    by_cases huser : last.user = (zoneId, tripId)
    · -- the last entry goes, so it was the only one
      rw [hlast, ← huser, withdraw_concat_self] at hnil
      subst hnil
      rw [set_state_release_single (a := d₀.minStateArgs zoneId tripId) _ _ rfl rfl
        (hlimits.trans hlast) huser (.inr rfl)]
      exact hcontrol []
    · rw [hlast, withdraw_concat_of_ne huser] at hnil
      simp at hnil

end Cdev

/-! ## Sequences of forced releases -/

section Releases

variable {δ : Type} [CdevClass δ] [StdSort] {clock : Nat → Int} {d d' : Cdev δ} {ops : List Op}

/-- Every operation is a forced release. -/
def Op.Forced (op : Op) : Prop :=
  op = .reset true op.user.1 op.user.2

/-- A forced release is never skipped. -/
theorem Op.Forced.act {op : Op} (hop : op.Forced) (h : op.Act clock d d') :
    ∃ n, d' = d.thdCdevSetMinState op.user.1 op.user.2 (clock n) := by
  rw [hop] at h
  rcases h with ⟨hfalse, -, -⟩ | ⟨-, n, heq⟩
  · simp at hfalse
  · exact ⟨n, heq⟩

/-- Forced releases withdraw their trips one after the other. -/
theorem forced_limits (hops : ∀ op ∈ ops, op.Forced) (h : Steps (Op.Act clock) ops d d') :
    d'.zoneTripLimits =
      withdrawAll ZoneTripLimit.user d.zoneTripLimits (ops.map Op.user) := by
  induction h with
  | nil _ => rfl
  | cons hstep _ ih =>
      obtain ⟨n, rfl⟩ := (hops _ List.mem_cons_self).act hstep
      rw [ih fun op hop => hops op (List.mem_cons_of_mem _ hop), Cdev.set_min_state_limits]
      rfl

/-- Forced releases that leave no limit leave the device in its minimum state. -/
theorem forced_at_min [CdevClass.Settable δ] (hops : ∀ op ∈ ops, op.Forced) (hne : ops ≠ [])
    (h : Steps (Op.Act clock) ops d d') (hnil : d'.zoneTripLimits = []) : d'.AtMin := by
  obtain ⟨front, last, rfl⟩ := List.eq_nil_or_concat ops |>.resolve_left hne
  rw [List.concat_eq_append, Steps.append_iff] at h
  obtain ⟨d₁, -, hlast⟩ := h
  obtain ⟨d₂, hact, hrest⟩ := Steps.cons_iff.mp hlast
  obtain rfl := Steps.nil_iff.mp hrest
  obtain ⟨n, rfl⟩ := (hops last (by simp)).act hact
  exact Cdev.set_min_state_at_min hnil

end Releases

namespace Engine

variable {δ : Type} [CdevClass δ] [StdSort]

/-- The trips on whose behalf a reset of all zones releases device `k`, in the order of the
requests: the zones in their order, in each the trips and their devices from the last to the
first. -/
def resetUsers (zones : List Zone) (k : Nat) : List (Int × Int) :=
  (zones.filter fun z => z.zoneActive).flatMap fun z => z.tripPoints.reverse.flatMap fun t =>
    (t.cdevs.reverse.filter fun b => b.cdev = k).map fun _ => (t.zoneId, t.index)

/-- The operations of a reset of all zones on device `k`. -/
theorem reset_zones_acts (e : Engine δ) (clock : Nat → Int) (k : Nat) :
    (e.world.withClock clock).Acts k (e.zones.flatMap fun z => z.resetOps true k)
      (e.resetZones clock).world := by
  have hfold : ∀ (zones : List Zone) (w : World δ),
      w.Acts k (zones.flatMap fun z => z.resetOps true k)
        (zones.foldl (fun w z => z.zoneReset true w) w) := by
    intro zones
    induction zones with
    | nil => exact fun w => .refl k w
    | cons z rest ih => exact fun w => (z.zone_reset_acts true k w).trans (ih _)
  exact hfold e.zones _

omit [StdSort] in
/-- These are forced releases on behalf of the trips above. -/
theorem reset_ops_users (zones : List Zone) (k : Nat) :
    (∀ op ∈ zones.flatMap (fun z => z.resetOps true k), op.Forced) ∧
      (zones.flatMap fun z => z.resetOps true k).map Op.user = resetUsers zones k := by
  constructor
  · intro op hop
    obtain ⟨z, -, hop⟩ := List.mem_flatMap.mp hop
    unfold Zone.resetOps at hop
    split at hop
    · obtain ⟨t, -, hop⟩ := List.mem_flatMap.mp hop
      obtain ⟨b, -, rfl⟩ := List.mem_map.mp hop
      rfl
    · simp at hop
  · induction zones with
    | nil => rfl
    | cons z rest ih =>
        unfold resetUsers at ih ⊢
        rw [List.flatMap_cons, List.map_append, ih]
        cases hactive : z.zoneActive with
        | false => simp [Zone.resetOps, hactive]
        | true =>
            simp only [Zone.resetOps, hactive, if_true, List.map_flatMap, TripPoint.opsReset,
              List.map_map, List.filter_cons, List.flatMap_cons]
            rfl

/-- The device is bound by a trip of an active zone. -/
def BoundActive (e : Engine δ) (k : Nat) : Prop :=
  ∃ z ∈ e.zones, z.zoneActive = true ∧ ∃ t ∈ z.tripPoints, t.Binds k

instance (e : Engine δ) (k : Nat) : Decidable (e.BoundActive k) :=
  inferInstanceAs (Decidable (∃ z ∈ e.zones, z.zoneActive = true ∧ ∃ t ∈ z.tripPoints, t.Binds k))

omit [CdevClass δ] [StdSort] in
/-- A bound device is asked at least once. -/
theorem reset_users_ne_nil {e : Engine δ} {k : Nat} (h : e.BoundActive k) :
    resetUsers e.zones k ≠ [] := by
  obtain ⟨z, hz, hactive, t, ht, b, hb, hk⟩ := h
  refine List.ne_nil_of_mem (a := (t.zoneId, t.index)) ?_
  refine List.mem_flatMap.mpr ⟨z, List.mem_filter.mpr ⟨hz, hactive⟩, ?_⟩
  refine List.mem_flatMap.mpr ⟨t, List.mem_reverse.mpr ht, ?_⟩
  refine List.mem_map.mpr ⟨b, List.mem_filter.mpr ⟨List.mem_reverse.mpr hb, ?_⟩, rfl⟩
  exact decide_eq_true hk

/-- A reset of all zones clears a bound device exactly when it reaches the trips that hold it from
the last limit to the first. -/
theorem reset_zones_cleared_iff [CdevClass.Settable δ] (e : Engine δ) (clock : Nat → Int) {k : Nat}
    (hbound : e.BoundActive k) :
    ((e.resetZones clock).world.cdevs k).Cleared ↔
      ((e.world.cdevs k).zoneTripLimits.map ZoneTripLimit.user).reverse.Sublist
        (resetUsers e.zones k) := by
  obtain ⟨hforced, husers⟩ := reset_ops_users e.zones k
  have hsteps := (e.reset_zones_acts clock k).steps
  have hne : (e.zones.flatMap fun z => z.resetOps true k) ≠ [] := by
    intro hnil
    exact reset_users_ne_nil hbound (by rw [← husers, hnil]; rfl)
  have hlimits := forced_limits hforced hsteps
  rw [husers] at hlimits
  rw [← withdraw_all_eq_nil_iff]
  show _ ↔ withdrawAll _ ((e.world.withClock clock).cdevs k).zoneTripLimits _ = []
  rw [← hlimits]
  constructor
  · exact fun h => h.1
  · intro hnil
    exact ⟨hnil, forced_at_min hforced hne hsteps hnil⟩

/-- A reset of all zones clears every device that their trips bind exactly when, for each of them,
the requests reach the trips that hold it from its last limit to its first. -/
theorem reset_zones_clears_iff [CdevClass.Settable δ] (e : Engine δ) (clock : Nat → Int) :
    (∀ k, e.BoundActive k → ((e.resetZones clock).world.cdevs k).Cleared) ↔
      ∀ k, e.BoundActive k →
        ((e.world.cdevs k).zoneTripLimits.map ZoneTripLimit.user).reverse.Sublist
          (resetUsers e.zones k) :=
  forall_congr' fun _ => forall_congr' fun hbound => e.reset_zones_cleared_iff clock hbound

end Engine

/-! ## Two zones that share a device

The device of `tenStates` is bound by one passive trip of each of two zones. -/

namespace Engine

/-- A sensor read from sysfs. -/
def sysfsSensor : Sensor where
  index := 0
  type := .thermalSysfs
  typeStr := "cpu"
  asyncCapable := false
  virtualSensor := false

/-- A parallel trip of the sensor at 50 degrees that sets device 0 to a target. -/
def targetTrip (zoneId index : Int) (type : TripPointType) (target : Int) : TripPoint :=
  { TripPoint.init index type 50000 0 zoneId 0 .parallel with
    cdevs := [{ cdev := 0, influence := 0, samplingPriod := 0, lastOpTime := 0,
                targetStateValid := true, targetState := target, pidParam := ⟨false, 0, 0, 0⟩,
                pid := .init, minMaxValid := false, minState := 0, maxState := 0 }] }

/-- An active zone with the sensor. -/
def sensorZone (index : Int) (typeStr : String) (tripPoints : List TripPoint) : Zone :=
  { Zone.init index typeStr .independent with tripPoints, zoneActive := true,
                                              sensors := [sysfsSensor] }

/-- An engine at rest with the device of `tenStates` and the sensor. -/
def atRest (zones : List Zone) : Engine GenSysfs where
  zones := zones
  world :=
    { cdevs := fun _ => Cdev.tenStates, cdevCount := 1, sensors := [sysfsSensor],
      pollIntervalSec := 4, ignoreCritical := false, clock := fun _ => 0, ticks := 0, events := [] }
  preference := .energyConserve
  status := true
  currentZoneIndex := zones.length

/-- A poll at a time at which the zones read the given temperatures. -/
def pollAt (tm : Int) (read : Int → Nat) : Poll where
  read z _ := read z
  clock _ := tm

/-- Zone 0 sets the device to 3 and zone 1 to 5. -/
def sharedDevice : Engine GenSysfs :=
  atRest [sensorZone 0 "first" [targetTrip 0 0 .passive 3],
    sensorZone 1 "second" [targetTrip 1 0 .passive 5]]

/-- First zone 0 is hot, then both are. -/
def bothHot : List Poll :=
  [pollAt 10 fun z => if z = 0 then 60000 else 40000, pollAt 20 fun _ => 60000]

/-- A reset in the order of the zones leaves the limit of the first zone, which keeps the device
throttled. -/
theorem reset_leaves_limit :
    letI := StdSort.insertion
    (run poll sharedDevice bothHot).BoundActive 0 ∧
      ((((run poll sharedDevice bothHot).resetZones fun _ => 30).world.cdevs 0).zoneTripLimits.map
        ZoneTripLimit.user) = [(0, 0)] ∧
      (((run poll sharedDevice bothHot).resetZones fun _ => 30).world.cdevs 0).getCurrState = 3 ∧
      ¬ (((run poll sharedDevice bothHot).resetZones fun _ => 30).world.cdevs 0).Cleared := by
  refine ⟨by decide, by decide, by decide, fun hcleared => ?_⟩
  have hnil := congrArg (List.map ZoneTripLimit.user) hcleared.1
  revert hnil
  decide

/-- With the zones the other way round everything is cleared. -/
theorem reset_clears_reversed :
    letI := StdSort.insertion
    (((run poll { sharedDevice with zones := sharedDevice.zones.reverse }
      bothHot).resetZones fun _ => 30).world.cdevs 0).Cleared := by
  let _ := StdSort.insertion
  refine (reset_zones_clears_iff _ _).mpr (fun k _ => ?_) 0 (by decide)
  cases k with
  | zero => decide
  | succ k => exact List.nil_sublist _

end Engine

end Thermald
