import Thermald.Lib.Merged
import Thermald.Cooling.Effects
import Thermald.Cooling.Zone
import Thermald.Lib.Run

/-!
# Parallel trips

A parallel trip is to act on all of its devices. A device may have a sampling period, which is to
pass between two operations on it. The loop over the devices is the one of the sequential trips: it
ends at the first device whose period has not passed, so a device with a long period keeps the
devices behind it from being activated. It also notes the time of an operation before it finds out
that the device is in its maximum state and that there is nothing to do.

`parallel_serves_iff` says for every history of checks when each check activates every device that
is not in its maximum state and whose period has passed since it was activated last.
-/

namespace Thermald

variable {δ : Type} [CdevClass δ] [StdSort]

/-- A device that is activated, and the time at which the loop has come to it. -/
structure Activation where
  cdev : Nat
  time : Int

namespace TripPoint

/-- `activateCdevs`, with the devices whose state is set. -/
def tracedActivate (t : TripPoint) (readTemp : Nat) :
    List TripCdev → World δ → (List TripCdev × World δ) × List Activation
  | [], w => (([], w), [])
  | b :: rest, w =>
    let (tm, w') := w.time
    if b.samplingPriod ≠ 0 ∧ tm - b.lastOpTime < b.samplingPriod then ((b :: rest, w'), [])
    else
      let (b, w) := if b.samplingPriod ≠ 0 then ({ b with lastOpTime := tm }, w') else (b, w)
      if (w.cdevs b.cdev).inMaxState then
        let ((rest, w), activations) := tracedActivate t readTemp rest w
        ((b :: rest, w), activations)
      else
        let (ret, b, w) := t.setState b readTemp true w
        if t.controlType = .sequential ∧ ret = thdSuccess then
          ((b :: rest, w), [⟨b.cdev, tm⟩])
        else
          let ((rest, w), activations) := tracedActivate t readTemp rest w
          ((b :: rest, w), ⟨b.cdev, tm⟩ :: activations)

/-- The loop does what `activateCdevs` does. -/
theorem traced_activate_fst (t : TripPoint) (readTemp : Nat) (bs : List TripCdev) (w : World δ) :
    (t.tracedActivate readTemp bs w).1 = t.activateCdevs readTemp bs w := by
  induction bs generalizing w with
  | nil => rfl
  | cons b rest ih =>
      rw [tracedActivate, activateCdevs]
      dsimp only
      split
      · rfl
      · generalize (if b.samplingPriod ≠ 0 then ({ b with lastOpTime := w.time.1 }, w.time.2)
          else (b, w)) = visited
        split
        · rw [← ih]
        · split
          · rfl
          · rw [← ih]

/-- The check comes to the devices of the trip, and the reading is at or above the trip. -/
structure EvaluatedOn (t : TripPoint) (id : Int) (readTemp : Nat) (pref : Pref) (w : World δ) :
    Prop where
  applies : pref.applies t.type = true
  sensor : t.otherSensor id = false
  dependency : t.dependencyFails readTemp w = false
  above : t.temp ≤ readTemp

instance (t : TripPoint) (id : Int) (readTemp : Nat) (pref : Pref) (w : World δ) :
    Decidable (t.EvaluatedOn id readTemp pref w) :=
  decidable_of_iff (pref.applies t.type = true ∧ t.otherSensor id = false ∧
    t.dependencyFails readTemp w = false ∧ t.temp ≤ readTemp)
    ⟨fun h => ⟨h.1, h.2.1, h.2.2.1, h.2.2.2⟩, fun h => ⟨h.1, h.2, h.3, h.4⟩⟩

/-- Then the devices of the trip are activated. -/
theorem EvaluatedOn.check_eq {t : TripPoint} {id : Int} {readTemp : Nat} {pref : Pref} {w : World δ}
    (h : t.EvaluatedOn id readTemp pref w) :
    t.thdTripPointCheck id readTemp pref w =
      ⟨true, false, { t with cdevs := (t.activateCdevs readTemp t.cdevs w).1, tripOn := true },
        (t.activateCdevs readTemp t.cdevs w).2⟩ := by
  have hcounts := t.counts_of_applies h.applies
  have hother : t.type ≠ .invalidTripType ∧ t.type ≠ .polling := by
    have happlies := h.applies
    constructor
    · intro htype
      rw [htype] at happlies
      cases pref <;> simp [Pref.applies] at happlies
    · intro htype
      rw [htype] at happlies
      cases pref <;> simp [Pref.applies] at happlies
  have hdecision : t.decision readTemp = .on := if_pos h.above
  simp [thdTripPointCheck, hother.1, hother.2, h.dependency, h.sensor, hcounts, h.applies, evaluate,
    hdecision]

end TripPoint

/-! ## The devices that the loop comes to -/

/-- The calls of `time` for a device that the loop passes. -/
def timeCalls (w : World δ) (b : TripCdev) : Nat :=
  (if b.samplingPriod ≠ 0 then 1 else 0) + (if (w.cdevs b.cdev).inMaxState then 0 else 1)

/-- The device is too early when the loop comes to it. -/
def TripCdev.TooEarly (b : TripCdev) (now : Int) : Prop :=
  b.samplingPriod ≠ 0 ∧ now - b.lastOpTime < b.samplingPriod

instance (b : TripCdev) (now : Int) : Decidable (b.TooEarly now) :=
  inferInstanceAs (Decidable (_ ∧ _))

/-- The devices before the first one that is too early, from some call of `time` on. -/
def beforeTooEarly (w : World δ) : List TripCdev → Nat → List TripCdev
  | [], _ => []
  | b :: rest, ticks =>
    if b.TooEarly (w.clock ticks) then []
    else b :: beforeTooEarly w rest (ticks + timeCalls w b)

omit [StdSort] in
/-- They are the first ones of the trip. -/
theorem before_too_early_initial (w : World δ) (bs : List TripCdev) (ticks : Nat) :
    beforeTooEarly w bs ticks <+: bs := by
  induction bs generalizing ticks with
  | nil => exact List.prefix_rfl
  | cons b rest ih =>
      rw [beforeTooEarly]
      split
      · exact List.nil_prefix
      · exact List.cons_prefix_cons.mpr ⟨rfl, ih _⟩

/-- Setting the state of a device takes one call of `time` and changes no other device. -/
theorem TripPoint.set_state_frame (t : TripPoint) (b : TripCdev) (readTemp : Nat) (state : Bool)
    (w : World δ) :
    (t.setState b readTemp state w).2.2.clock = w.clock ∧
      (t.setState b readTemp state w).2.2.ticks = w.ticks + 1 ∧
      ∀ k, k ≠ b.cdev → (t.setState b readTemp state w).2.2.cdevs k = w.cdevs k := by
  refine ⟨rfl, rfl, fun k hk => ?_⟩
  unfold TripPoint.setState World.setState World.setCdev World.time
  have hcdev : ∀ d : Device δ, (b.fixTarget d).cdev = b.cdev := TripCdev.fix_target_cdev b
  simp only [hcdev]
  exact Function.update_of_ne hk _ _

/-- A parallel trip activates the devices before the first one that is too early, except for those
in their maximum state. -/
theorem TripPoint.traced_activate_cdevs {t : TripPoint} (hpar : t.controlType = .parallel)
    (readTemp : Nat) (w v : World δ) {bs : List TripCdev} (hdistinct : (bs.map (·.cdev)).Nodup)
    (hclock : v.clock = w.clock) (hcdevs : ∀ b ∈ bs, v.cdevs b.cdev = w.cdevs b.cdev) :
    (t.tracedActivate readTemp bs v).2.map (·.cdev) =
      ((beforeTooEarly w bs v.ticks).filter fun b => !(w.cdevs b.cdev).inMaxState).map
        (·.cdev) := by
  induction bs generalizing v with
  | nil => rfl
  | cons b rest ih =>
      rw [List.map_cons, List.nodup_cons] at hdistinct
      obtain ⟨hnew, hdistinct⟩ := hdistinct
      have hothers : ∀ b' ∈ rest, b'.cdev ≠ b.cdev := fun b' hb' heq =>
        hnew (heq ▸ List.mem_map_of_mem hb')
      rw [tracedActivate, beforeTooEarly]
      dsimp only
      have hearly : (b.samplingPriod ≠ 0 ∧ v.time.1 - b.lastOpTime < b.samplingPriod) ↔
          b.TooEarly (w.clock v.ticks) := by
        rw [← hclock]
        rfl
      by_cases h : b.TooEarly (w.clock v.ticks)
      · rw [if_pos h, if_pos (hearly.mpr h)]
        rfl
      rw [if_neg h, if_neg (mt hearly.mp h)]
      -- the binding and the world with which the device is visited
      obtain ⟨b', v', hvisit, hsame, hclock', hticks, hworld⟩ : ∃ b' v',
          (if b.samplingPriod ≠ 0 then ({ b with lastOpTime := v.time.1 }, v.time.2) else (b, v)) =
            (b', v') ∧ b'.cdev = b.cdev ∧ v'.clock = w.clock ∧
          v'.ticks = v.ticks + (if b.samplingPriod ≠ 0 then 1 else 0) ∧ v'.cdevs = v.cdevs := by
        split
        · exact ⟨_, _, rfl, rfl, hclock, rfl, rfl⟩
        · exact ⟨_, _, rfl, rfl, hclock, rfl, rfl⟩
      rw [hvisit]
      dsimp only
      have hvisited : v'.cdevs b'.cdev = w.cdevs b.cdev := by
        rw [hsame, hworld]
        exact hcdevs b List.mem_cons_self
      rw [hvisited]
      by_cases hmax : (w.cdevs b.cdev).inMaxState
      · have hcalls : v'.ticks = v.ticks + timeCalls w b := by
          rw [hticks, timeCalls, if_pos hmax, Nat.add_zero]
        have hrest := ih v' hdistinct hclock' fun b₁ hb₁ => by
          rw [hworld]
          exact hcdevs b₁ (List.mem_cons_of_mem _ hb₁)
        rw [if_pos hmax, ← hcalls, List.filter_cons_of_neg (by simp [hmax])]
        exact hrest
      · have hcalls : v'.ticks + 1 = v.ticks + timeCalls w b := by
          rw [hticks, timeCalls, if_neg hmax, Nat.add_assoc]
        obtain ⟨hclock'', hticks'', hframe⟩ := t.set_state_frame b' readTemp true v'
        have hrest := ih (t.setState b' readTemp true v').2.2 hdistinct (hclock''.trans hclock')
          fun b₁ hb₁ => by
            rw [hframe b₁.cdev (by rw [hsame]; exact hothers b₁ hb₁), hworld]
            exact hcdevs b₁ (List.mem_cons_of_mem _ hb₁)
        have hpar' : ¬ (t.controlType = .sequential ∧
            (t.setState b' readTemp true v').1 = thdSuccess) := by
          rw [hpar]
          rintro ⟨hseq, -⟩
          cases hseq
        have hset : (t.setState b' readTemp true v').2.1.cdev = b.cdev :=
          (t.set_state_same readTemp true (b := b') (w := v')).cdev.trans hsame
        rw [hticks'', hcalls] at hrest
        rw [if_neg hmax, if_neg hpar', List.filter_cons_of_pos (by simp [hmax])]
        simp only [List.map_cons, hset, hrest]

/-! ## Histories -/

/-- A call of `thd_trip_point_check`, with the world that it finds. -/
structure TripCheck (δ : Type) where
  id : Int
  readTemp : Nat
  pref : Pref
  world : World δ

/-- A trip, and the time at which it has activated each device last. -/
structure WatchedTrip where
  trip : TripPoint
  lastActivation : Nat → Option Int

namespace WatchedTrip

/-- The activations of a check. -/
def activations (s : WatchedTrip) (c : TripCheck δ) : List Activation :=
  if s.trip.EvaluatedOn c.id c.readTemp c.pref c.world then
    (s.trip.tracedActivate c.readTemp s.trip.cdevs c.world).2
  else []

/-- A check of the trip. -/
def check (s : WatchedTrip) (c : TripCheck δ) : WatchedTrip where
  trip := (s.trip.thdTripPointCheck c.id c.readTemp c.pref c.world).trip
  lastActivation k :=
    match (s.activations c).find? (·.cdev = k) with
    | some a => some a.time
    | none => s.lastActivation k

/-- The device is not in its maximum state, and its sampling period has passed since it was
activated last. -/
def Due (s : WatchedTrip) (c : TripCheck δ) (b : TripCdev) : Prop :=
  (c.world.cdevs b.cdev).inMaxState = false ∧
    (b.samplingPriod = 0 ∨
      ∀ last ∈ s.lastActivation b.cdev, b.samplingPriod ≤ c.world.time.1 - last)

/-- A check that evaluates the trip above its temperature activates every device that is due. -/
def Serves (s : WatchedTrip) (c : TripCheck δ) : Prop :=
  s.trip.EvaluatedOn c.id c.readTemp c.pref c.world →
    ∀ b ∈ s.trip.cdevs, s.Due c b → b.cdev ∈ (s.activations c).map (·.cdev)

/-- In such a check, no device is due from the first one on whose noted time is too recent when the
loop comes to it. -/
def NoneDueBehind (s : WatchedTrip) (c : TripCheck δ) : Prop :=
  s.trip.EvaluatedOn c.id c.readTemp c.pref c.world →
    ∀ b ∈ s.trip.cdevs.drop (beforeTooEarly c.world s.trip.cdevs c.world.ticks).length, ¬ s.Due c b

/-- The trip is parallel and has no device twice. -/
structure IsParallel (s : WatchedTrip) : Prop where
  controlType : s.trip.controlType = .parallel
  distinct : (s.trip.cdevs.map (·.cdev)).Nodup

/-- A check leaves the devices of the trip. -/
theorem IsParallel.check {s : WatchedTrip} (h : s.IsParallel) (c : TripCheck δ) :
    (s.check c).IsParallel := by
  obtain ⟨hsame, -⟩ := s.trip.check_acts c.id c.readTemp c.pref 0 c.world
  have hcdevs : ∀ {bs bs' : List TripCdev}, List.Forall₂ TripCdev.Same bs bs' →
      bs'.map (·.cdev) = bs.map (·.cdev) := by
    intro bs bs' hall
    induction hall with
    | nil => rfl
    | cons hb _ ih => rw [List.map_cons, List.map_cons, hb.cdev, ih]
  refine ⟨hsame.controlType.trans h.controlType, ?_⟩
  show ((s.trip.thdTripPointCheck c.id c.readTemp c.pref c.world).trip.cdevs.map (·.cdev)).Nodup
  rw [hcdevs hsame.cdevs]
  exact h.distinct

/-- A check activates every due device exactly if none is due behind a device that is too early. -/
theorem serves_iff {s : WatchedTrip} (h : s.IsParallel) (c : TripCheck δ) :
    s.Serves c ↔ s.NoneDueBehind c := by
  refine forall_congr' fun hon => ?_
  have hactivated := TripPoint.traced_activate_cdevs h.controlType c.readTemp c.world c.world
    h.distinct rfl fun _ _ => rfl
  have hactivations : (s.activations c).map (·.cdev) =
      ((beforeTooEarly c.world s.trip.cdevs c.world.ticks).filter fun b =>
        !(c.world.cdevs b.cdev).inMaxState).map (·.cdev) := by
    rw [activations, if_pos hon]
    exact hactivated
  have hbefore := List.prefix_iff_eq_take.mp
    (before_too_early_initial c.world s.trip.cdevs c.world.ticks)
  rw [hactivations]
  generalize beforeTooEarly c.world s.trip.cdevs c.world.ticks = before at hbefore ⊢
  have hsplit : before ++ s.trip.cdevs.drop before.length = s.trip.cdevs := by
    conv => lhs; arg 1; rw [hbefore]
    exact List.take_append_drop ..
  have hdistinct := h.distinct
  rw [← hsplit, List.map_append, List.nodup_append] at hdistinct
  constructor
  · intro hserves b hb hdue
    have hmem : b ∈ s.trip.cdevs := List.mem_of_mem_drop hb
    obtain ⟨b', hb', heq⟩ := List.mem_map.mp (hserves b hmem hdue)
    exact hdistinct.2.2 _ (List.mem_map_of_mem (List.mem_filter.mp hb').1) _
      (List.mem_map_of_mem hb) heq
  · intro hnone b hb hdue
    rw [← hsplit] at hb
    rcases List.mem_append.mp hb with hb | hb
    · refine List.mem_map_of_mem (List.mem_filter.mpr ⟨hb, ?_⟩)
      rw [hdue.1]
      rfl
    · exact absurd hdue (hnone b hb)

end WatchedTrip

/-- In a history of checks of a parallel trip, each check activates all devices that are due exactly
if in none of the checks a device is due behind one that is too early. -/
theorem parallel_serves_iff {s : WatchedTrip} (h : s.IsParallel) (checks : List (TripCheck δ)) :
    Meets WatchedTrip.check WatchedTrip.Serves s checks ↔
      Meets WatchedTrip.check WatchedTrip.NoneDueBehind s checks := by
  induction checks generalizing s with
  | nil => exact Iff.rfl
  | cons c checks ih => exact and_congr (s.serves_iff h c) (ih (h.check c))

omit [CdevClass δ] in
/-- `trip_cdev_add` never binds a device twice: what it compares are the types of the devices. -/
theorem trip_cdev_add_distinct {t : TripPoint} (h : (t.cdevs.map (·.cdev)).Nodup) (b : TripCdev)
    (w : World δ) : ((t.tripCdevAdd b w).cdevs.map (·.cdev)).Nodup := by
  unfold TripPoint.tripCdevAdd
  dsimp only
  rw [((StdSort.perm TripPoint.tripCdevSort _).map (·.cdev)).nodup_iff]
  split
  · rename_i i _
    have hsame : (t.cdevs.modify i fun c => { c with influence := b.influence }).map (·.cdev) =
        t.cdevs.map (·.cdev) := by
      refine map_modify_same (fun _ => ?_) t.cdevs i
      rfl
    rw [hsame]
    exact h
  · rename_i hnone
    rw [List.map_append, List.map_singleton]
    refine List.nodup_append.mpr ⟨h, List.nodup_singleton _, ?_⟩
    intro k hk k' hk' heq
    obtain ⟨c, hc, rfl⟩ := List.mem_map.mp hk
    rw [List.mem_singleton.mp hk'] at heq
    have hdiffers := List.findIdx?_eq_none_iff.mp hnone c hc
    rw [heq] at hdiffers
    exact absurd (decide_eq_true rfl) (Bool.eq_false_iff.mp hdiffers)

/-! ## An example -/

/-- A device of a trip with a sampling period. -/
def sampledCdev (k : Nat) (samplingPriod : Int) : TripCdev where
  cdev := k
  influence := 0
  samplingPriod := samplingPriod
  lastOpTime := 0
  targetStateValid := false
  targetState := tripPtInvalidTargetState
  pidParam := ⟨false, 0, 0, 0⟩
  pid := .init
  minMaxValid := false
  minState := 0
  maxState := 0

/-- A parallel trip at 50 degrees with two devices, of which the first has a sampling period of 10
seconds. -/
def slowFirst : WatchedTrip where
  trip := { TripPoint.init 0 .passive 50000 0 0 0 .parallel with
    cdevs := [sampledCdev 0 10, sampledCdev 1 0] }
  lastActivation _ := none

/-- A check at 60 degrees. Both devices have states from 0 to 3 and are in state 0. -/
def checkAt (now : Int) : TripCheck GenSysfs where
  id := 0
  readTemp := 60000
  pref := .energyConserve
  world :=
    { cdevs := fun k => { Cdev.init k ⟨"", []⟩ with maxState := 3 }, cdevCount := 2, sensors := [],
      pollIntervalSec := 4, ignoreCritical := false, clock := fun _ => now, ticks := 0,
      events := [] }

omit [StdSort] in
/-- Five seconds after a first check, the second device is not activated. -/
theorem slow_first_blocks :
    letI := StdSort.insertion
    slowFirst.IsParallel ∧
      ¬ Meets WatchedTrip.check WatchedTrip.Serves slowFirst [checkAt 100, checkAt 105] := by
  let _ := StdSort.insertion
  refine ⟨⟨rfl, by decide⟩, fun h => ?_⟩
  have hserves := h.2.1
  have hcdevs : ((slowFirst.check (checkAt 100)).trip.cdevs.map
      fun b => (b.cdev, b.samplingPriod)) = [(0, 10), (1, 0)] := by
    decide +kernel
  have hnone : ((slowFirst.check (checkAt 100)).activations (checkAt 105)).map (·.cdev) = [] := by
    decide +kernel
  have hon : (slowFirst.check (checkAt 100)).trip.EvaluatedOn (checkAt 105).id
      (checkAt 105).readTemp (checkAt 105).pref (checkAt 105).world := by
    decide +kernel
  have hsecond : ((1, 0) : Nat × Int) ∈ (slowFirst.check (checkAt 100)).trip.cdevs.map
      fun b => (b.cdev, b.samplingPriod) := by
    rw [hcdevs]
    exact List.mem_cons_of_mem _ List.mem_cons_self
  obtain ⟨b, hb, heq⟩ := List.mem_map.mp hsecond
  obtain ⟨hcdev, hperiod⟩ := Prod.mk.inj heq
  have hdue : (slowFirst.check (checkAt 100)).Due (checkAt 105) b := ⟨rfl, .inl hperiod⟩
  have hactivated := hserves hon b hb hdue
  rw [hnone] at hactivated
  exact absurd hactivated List.not_mem_nil

omit [StdSort] in
/-- Ten seconds after it, no device is too early. -/
theorem slow_first_in_time :
    letI := StdSort.insertion
    slowFirst.IsParallel ∧
      (Meets WatchedTrip.check WatchedTrip.Serves slowFirst [checkAt 100, checkAt 110] ↔
        Meets WatchedTrip.check WatchedTrip.NoneDueBehind slowFirst
          [checkAt 100, checkAt 110]) := by
  let _ := StdSort.insertion
  have hpar : slowFirst.IsParallel := ⟨rfl, by decide⟩
  exact ⟨hpar, parallel_serves_iff hpar _⟩

end Thermald
