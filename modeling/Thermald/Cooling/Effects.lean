import Mathlib.Data.List.Forall2
import Thermald.Lib.Run
import Thermald.Cooling.Limits
import Thermald.Cooling.Zone

/-!
# What zones do to a device

Everything a zone does reaches a device as a sequence of three kinds of operations: a trip that is
on activates it, a trip that is off releases it, and a reset releases it on behalf of a trip.
`World.Acts k ops w w'` says that a function took the world from `w` to `w'` and treated device
`k` with the operations `ops`. The results below give these operations for each function up to
`readZoneTemp` and `zoneReset`; what the operations do to the limits of one device is then a
question about `Op.Act` alone.

Checks also write to the trips: `Zone.Same` collects what they leave alone.
-/

namespace Thermald

/-! ## What checks leave alone -/

/-- The members of a binding that no check changes. A target is only filled in if it is missing. -/
structure TripCdev.Same (b b' : TripCdev) : Prop where
  cdev : b'.cdev = b.cdev
  influence : b'.influence = b.influence
  samplingPriod : b'.samplingPriod = b.samplingPriod
  targetStateValid : b'.targetStateValid = b.targetStateValid
  targetState : b.targetState ≠ tripPtInvalidTargetState → b'.targetState = b.targetState
  minMaxValid : b'.minMaxValid = b.minMaxValid
  minState : b'.minState = b.minState
  maxState : b'.maxState = b.maxState

theorem TripCdev.Same.refl (b : TripCdev) : b.Same b :=
  ⟨rfl, rfl, rfl, rfl, fun _ => rfl, rfl, rfl, rfl⟩

theorem TripCdev.Same.trans {b₁ b₂ b₃ : TripCdev} (h : b₁.Same b₂) (h' : b₂.Same b₃) :
    b₁.Same b₃ where
  cdev := h'.cdev.trans h.cdev
  influence := h'.influence.trans h.influence
  samplingPriod := h'.samplingPriod.trans h.samplingPriod
  targetStateValid := h'.targetStateValid.trans h.targetStateValid
  targetState hne := by
    have heq := h.targetState hne
    rw [h'.targetState (heq ▸ hne), heq]
  minMaxValid := h'.minMaxValid.trans h.minMaxValid
  minState := h'.minState.trans h.minState
  maxState := h'.maxState.trans h.maxState

/-- Chains of related lists. -/
theorem forall₂_trans {α : Type} {R : α → α → Prop} (htrans : ∀ a b c, R a b → R b c → R a c)
    {l₁ l₂ l₃ : List α} (h : List.Forall₂ R l₁ l₂) (h' : List.Forall₂ R l₂ l₃) :
    List.Forall₂ R l₁ l₃ := by
  induction h generalizing l₃ with
  | nil => exact h'
  | cons hab _ ih =>
      cases h' with
      | cons hbc hrest => exact .cons (htrans _ _ _ hab hbc) (ih hrest)

/-- Every element of the second list is related to one of the first. -/
theorem forall₂_mem_right {α : Type} {R : α → α → Prop} {l l' : List α} {a' : α}
    (h : List.Forall₂ R l l') (ha : a' ∈ l') : ∃ a ∈ l, R a a' := by
  induction h with
  | nil => simp at ha
  | cons hab _ ih =>
      rcases List.mem_cons.mp ha with rfl | ha
      · exact ⟨_, List.mem_cons_self, hab⟩
      · obtain ⟨a, hmem, hrel⟩ := ih ha
        exact ⟨a, List.mem_cons_of_mem _ hmem, hrel⟩

/-- Every element of the first list is related to one of the second. -/
theorem forall₂_mem_left {α : Type} {R : α → α → Prop} {l l' : List α} {a : α}
    (h : List.Forall₂ R l l') (ha : a ∈ l) : ∃ a' ∈ l', R a a' :=
  forall₂_mem_right (R := fun a' a => R a a') h.flip ha

/-- The members of a trip that no check changes. -/
structure TripPoint.Same (t t' : TripPoint) : Prop where
  index : t'.index = t.index
  type : t'.type = t.type
  temp : t'.temp = t.temp
  hyst : t'.hyst = t.hyst
  controlType : t'.controlType = t.controlType
  zoneId : t'.zoneId = t.zoneId
  sensorId : t'.sensorId = t.sensorId
  depend : t'.depend = t.depend
  cdevs : List.Forall₂ TripCdev.Same t.cdevs t'.cdevs

theorem TripPoint.Same.refl (t : TripPoint) : t.Same t :=
  ⟨rfl, rfl, rfl, rfl, rfl, rfl, rfl, rfl, List.forall₂_same.mpr fun b _ => .refl b⟩

theorem TripPoint.Same.trans {t₁ t₂ t₃ : TripPoint} (h : t₁.Same t₂) (h' : t₂.Same t₃) :
    t₁.Same t₃ where
  index := h'.index.trans h.index
  type := h'.type.trans h.type
  temp := h'.temp.trans h.temp
  hyst := h'.hyst.trans h.hyst
  controlType := h'.controlType.trans h.controlType
  zoneId := h'.zoneId.trans h.zoneId
  sensorId := h'.sensorId.trans h.sensorId
  depend := h'.depend.trans h.depend
  cdevs := forall₂_trans (R := TripCdev.Same) (fun _ _ _ => .trans) h.cdevs h'.cdevs

/-- The members of a zone that no notification changes. -/
structure Zone.Same (z z' : Zone) : Prop where
  index : z'.index = z.index
  zoneActive : z'.zoneActive = z.zoneActive
  typeStr : z'.typeStr = z.typeStr
  sensors : z'.sensors = z.sensors
  sensorRel : z'.sensorRel = z.sensorRel
  tripPoints : List.Forall₂ TripPoint.Same z.tripPoints z'.tripPoints

theorem Zone.Same.refl (z : Zone) : z.Same z :=
  ⟨rfl, rfl, rfl, rfl, rfl, List.forall₂_same.mpr fun t _ => .refl t⟩

theorem Zone.Same.trans {z₁ z₂ z₃ : Zone} (h : z₁.Same z₂) (h' : z₂.Same z₃) : z₁.Same z₃ where
  index := h'.index.trans h.index
  zoneActive := h'.zoneActive.trans h.zoneActive
  typeStr := h'.typeStr.trans h.typeStr
  sensors := h'.sensors.trans h.sensors
  sensorRel := h'.sensorRel.trans h.sensorRel
  tripPoints := forall₂_trans (R := TripPoint.Same) (fun _ _ _ => .trans) h.tripPoints h'.tripPoints

/-! ## Operations on one device -/

/-- What a zone does to a device. -/
inductive Op where
  | on (t : TripPoint) (b : TripCdev) (readTemp : Nat)
  | off (t : TripPoint) (b : TripCdev) (readTemp : Nat)
  | reset (force : Bool) (zoneId tripId : Int)

/-- The zone and trip on whose behalf an operation is done. -/
def Op.user : Op → Int × Int
  | .on t _ _ => (t.zoneId, t.index)
  | .off t _ _ => (t.zoneId, t.index)
  | .reset _ zoneId tripId => (zoneId, tripId)

/-- The trip has the device among its own. -/
def TripPoint.Binds (t : TripPoint) (k : Nat) : Prop :=
  ∃ b ∈ t.cdevs, b.cdev = k

instance (t : TripPoint) (k : Nat) : Decidable (t.Binds k) :=
  inferInstanceAs (Decidable (∃ b ∈ t.cdevs, b.cdev = k))

namespace TripPoint

variable {t : TripPoint} {temp k : Nat}

/-- The operations on device `k` of a trip that is on, for a list of its bindings. -/
def opsOn (t : TripPoint) (temp k : Nat) (bs : List TripCdev) : List Op :=
  (bs.filter fun b => b.cdev = k).map fun b => .on t b temp

/-- The operations on device `k` of a trip that is off, for a list of its bindings. -/
def opsOff (t : TripPoint) (temp k : Nat) (bs : List TripCdev) : List Op :=
  (bs.filter fun b => b.cdev = k).map fun b => .off t b temp

/-- The operations on device `k` of a reset, for a list of bindings. -/
def opsReset (t : TripPoint) (force : Bool) (k : Nat) (bs : List TripCdev) : List Op :=
  (bs.filter fun b => b.cdev = k).map fun _ => .reset force t.zoneId t.index

theorem ops_on_cons (b : TripCdev) (bs : List TripCdev) :
    t.opsOn temp k (b :: bs) =
      (if b.cdev = k then [.on t b temp] else []) ++ t.opsOn temp k bs := by
  unfold opsOn
  by_cases h : b.cdev = k <;> simp [h]

theorem ops_off_cons (b : TripCdev) (bs : List TripCdev) :
    t.opsOff temp k (b :: bs) =
      (if b.cdev = k then [.off t b temp] else []) ++ t.opsOff temp k bs := by
  unfold opsOff
  by_cases h : b.cdev = k <;> simp [h]

theorem ops_reset_cons {force : Bool} (b : TripCdev) (bs : List TripCdev) :
    t.opsReset force k (b :: bs) =
      (if b.cdev = k then [.reset force t.zoneId t.index] else []) ++ t.opsReset force k bs := by
  unfold opsReset
  by_cases h : b.cdev = k <;> simp [h]

end TripPoint

/-- The operation is done on device `k` on behalf of the trip: with one of its bindings, a reading
among `temps` and a preference that evaluates the trip, or as a reset. -/
def Op.OfTrip (pref : Pref) (temps : Nat → Prop) (t : TripPoint) (k : Nat) : Op → Prop
  | .on t' b temp => t' = t ∧ pref.applies t.type = true ∧ temps temp ∧ t.temp ≤ temp ∧
      b.cdev = k ∧ ∃ b₀ ∈ t.cdevs, b₀.Same b
  | .off t' b temp => t' = t ∧ pref.applies t.type = true ∧ temps temp ∧ temp < t.temp ∧
      b.cdev = k ∧ ∃ b₀ ∈ t.cdevs, b₀.Same b
  | .reset _ zoneId tripId => zoneId = t.zoneId ∧ tripId = t.index ∧ t.Binds k

variable {δ : Type} [CdevClass δ] [StdSort]

/-- The effect of an operation on a device, at some time of the clock. A trip that is on skips a
device in its maximum state, and the others skip a device in its minimum state unless forced. -/
def Op.Act (clock : Nat → Int) : Op → Cdev δ → Cdev δ → Prop
  | .on t b temp, d, d' =>
    (d.inMaxState = true ∧ d' = d) ∨ (d.inMaxState = false ∧ ∃ pid n,
      d' = (d.thdCdevSetState (t.stateArgs (b.fixTarget d.toDevice) d temp true) pid
        (clock n)).2.1)
  | .off t b temp, d, d' =>
    (d.inMinState = true ∧ d' = d) ∨ (d.inMinState = false ∧ ∃ pid n,
      d' = (d.thdCdevSetState (t.stateArgs (b.fixTarget d.toDevice) d temp false) pid
        (clock n)).2.1)
  | .reset force zoneId tripId, d, d' =>
    (force = false ∧ d.inMinState = true ∧ d' = d) ∨
      ((force = true ∨ d.inMinState = false) ∧ ∃ n,
        d' = d.thdCdevSetMinState zoneId tripId (clock n))

/-- A forced release is a release. -/
theorem Cdev.set_min_state_config (d : Cdev δ) (zoneId tripId tm : Int) :
    Cdev.SameConfig d (d.thdCdevSetMinState zoneId tripId tm) := by
  have h : Cdev.SameConfig d { d with trendIncrease := false } := ⟨rfl, rfl, rfl, rfl, rfl, rfl⟩
  exact h.trans Cdev.set_state_config

/-- No operation changes the parameters of the device. -/
theorem Op.Act.config {clock : Nat → Int} {op : Op} {d d' : Cdev δ} (h : op.Act clock d d') :
    Cdev.SameConfig d d' := by
  cases op with
  | on t b temp =>
      rcases h with ⟨-, rfl⟩ | ⟨-, pid, n, rfl⟩
      · exact .refl _
      · exact Cdev.set_state_config
  | off t b temp =>
      rcases h with ⟨-, rfl⟩ | ⟨-, pid, n, rfl⟩
      · exact .refl _
      · exact Cdev.set_state_config
  | reset force zoneId tripId =>
      rcases h with ⟨-, -, rfl⟩ | ⟨-, n, rfl⟩
      · exact .refl _
      · exact d.set_min_state_config zoneId tripId (clock n)

namespace World

/-- What no function changes: the number of devices, the sensors, the options and the clock. -/
structure Frame (w w' : World δ) : Prop where
  cdevCount : w'.cdevCount = w.cdevCount
  sensors : w'.sensors = w.sensors
  pollIntervalSec : w'.pollIntervalSec = w.pollIntervalSec
  ignoreCritical : w'.ignoreCritical = w.ignoreCritical
  clock : w'.clock = w.clock

/-- The operations take device `k` from its state in one world to that in another. -/
structure Acts (k : Nat) (ops : List Op) (w w' : World δ) : Prop extends w.Frame w' where
  steps : Steps (Op.Act w.clock) ops (w.cdevs k) (w'.cdevs k)

variable {k : Nat} {ops ops' : List Op} {w w' w'' : World δ}

theorem Acts.refl (k : Nat) (w : World δ) : w.Acts k [] w :=
  ⟨⟨rfl, rfl, rfl, rfl, rfl⟩, .nil _⟩

theorem Acts.trans (h : w.Acts k ops w') (h' : w'.Acts k ops' w'') :
    w.Acts k (ops ++ ops') w'' where
  cdevCount := h'.cdevCount.trans h.cdevCount
  sensors := h'.sensors.trans h.sensors
  pollIntervalSec := h'.pollIntervalSec.trans h.pollIntervalSec
  ignoreCritical := h'.ignoreCritical.trans h.ignoreCritical
  clock := h'.clock.trans h.clock
  steps := h.steps.append (h.clock ▸ h'.steps)

/-- A function that only sends events does nothing to the devices. -/
theorem acts_emit (events : List Event) : w.Acts k [] (w.emit events) :=
  ⟨⟨rfl, rfl, rfl, rfl, rfl⟩, .nil _⟩

/-- Reading the clock does nothing to the devices. -/
theorem acts_time : w.Acts k [] w.time.2 :=
  ⟨⟨rfl, rfl, rfl, rfl, rfl⟩, .nil _⟩

/-- A reset of one device. -/
theorem acts_set_min_state (j : Nat) (force : Bool) (zoneId tripId : Int)
    (hskip : force = true ∨ (w.cdevs j).inMinState = false) :
    w.Acts k (if j = k then [.reset force zoneId tripId] else [])
      (w.setMinState j zoneId tripId) := by
  refine ⟨⟨rfl, rfl, rfl, rfl, rfl⟩, ?_⟩
  unfold setMinState setCdev time
  by_cases h : j = k
  · subst h
    simp only [if_true, Function.update_self]
    exact .single (.inr ⟨hskip, w.ticks, rfl⟩)
  · simp only [h, if_false, Function.update_of_ne (Ne.symm h)]
    exact .nil _

end World

/-! ## Trip points -/

omit [CdevClass δ] [StdSort] in
/-- Filling in the target leaves the rest of a binding alone. -/
theorem TripCdev.fix_target_same (b : TripCdev) (d : Device δ) : b.Same (b.fixTarget d) := by
  unfold TripCdev.fixTarget
  split
  · rename_i hmissing
    exact ⟨rfl, rfl, rfl, rfl, fun hne => absurd hmissing hne, rfl, rfl, rfl⟩
  · exact .refl b

omit [CdevClass δ] [StdSort] in
@[simp] theorem TripCdev.fix_target_cdev (b : TripCdev) (d : Device δ) :
    (b.fixTarget d).cdev = b.cdev :=
  (b.fix_target_same d).cdev

namespace TripPoint

variable (t : TripPoint) {b : TripCdev} (temp : Nat) {k : Nat} {w : World δ}

/-- Setting the state of a device changes a binding only in its controller and its target. -/
theorem set_state_same (state : Bool) : b.Same (t.setState b temp state w).2.1 := by
  have h := b.fix_target_same (w.cdevs b.cdev).toDevice
  exact ⟨h.cdev, h.influence, h.samplingPriod, h.targetStateValid, h.targetState, h.minMaxValid,
    h.minState, h.maxState⟩

/-- Setting the state of a device that is not skipped is one operation on it. -/
theorem set_state_acts (state : Bool) {op : Op}
    (hop : ∀ d d' : Cdev δ, d = w.cdevs b.cdev → ∀ pid n, d' = (d.thdCdevSetState (t.stateArgs
      (b.fixTarget d.toDevice) d temp state) pid (w.clock n)).2.1 → op.Act w.clock d d') :
    w.Acts k (if b.cdev = k then [op] else []) (t.setState b temp state w).2.2 := by
  refine ⟨⟨rfl, rfl, rfl, rfl, rfl⟩, ?_⟩
  unfold setState World.setState World.setCdev World.time
  simp only [TripCdev.fix_target_cdev]
  by_cases h : b.cdev = k
  · subst h
    simp only [if_true, Function.update_self]
    exact .single (hop _ _ rfl _ w.ticks rfl)
  · simp only [h, if_false, Function.update_of_ne (Ne.symm h)]
    exact .nil _

/-- The trip activates a device that is not in its maximum state. -/
theorem set_state_on_acts (hmax : (w.cdevs b.cdev).inMaxState = false) :
    w.Acts k (if b.cdev = k then [.on t b temp] else []) (t.setState b temp true w).2.2 :=
  set_state_acts t temp true fun _ _ hd pid n hd' => .inr ⟨hd ▸ hmax, pid, n, hd'⟩

/-- The trip releases a device that is not in its minimum state. -/
theorem set_state_off_acts (hmin : (w.cdevs b.cdev).inMinState = false) :
    w.Acts k (if b.cdev = k then [.off t b temp] else []) (t.setState b temp false w).2.2 :=
  set_state_acts t temp false fun _ _ hd pid n hd' => .inr ⟨hd ▸ hmin, pid, n, hd'⟩

/-- A device in its maximum state is skipped by a trip that is on. -/
theorem skip_on_acts (hmax : (w.cdevs b.cdev).inMaxState = true) :
    w.Acts k (if b.cdev = k then [.on t b temp] else []) w := by
  refine ⟨⟨rfl, rfl, rfl, rfl, rfl⟩, ?_⟩
  split
  · rename_i h
    exact .single (.inl ⟨h ▸ hmax, rfl⟩)
  · exact .nil _

/-- A device in its minimum state is skipped by a trip that is off. -/
theorem skip_off_acts (hmin : (w.cdevs b.cdev).inMinState = true) :
    w.Acts k (if b.cdev = k then [.off t b temp] else []) w := by
  refine ⟨⟨rfl, rfl, rfl, rfl, rfl⟩, ?_⟩
  split
  · rename_i h
    exact .single (.inl ⟨h ▸ hmin, rfl⟩)
  · exact .nil _

/-- The bindings that a trip which is on visits: all of them up to a break, with the time of the
visit noted. A parallel trip without sampling periods has no break. -/
theorem activate_cdevs_acts (t : TripPoint) (temp k : Nat) (bs : List TripCdev) (w : World δ) :
    List.Forall₂ TripCdev.Same bs (t.activateCdevs temp bs w).1 ∧
      ∃ visited, (∀ b ∈ visited, ∃ b₀ ∈ bs, b₀.Same b) ∧
        (t.controlType = .parallel → (∀ b ∈ bs, b.samplingPriod = 0) → visited = bs) ∧
        w.Acts k (t.opsOn temp k visited) (t.activateCdevs temp bs w).2 := by
  induction bs generalizing w with
  | nil => exact ⟨.nil, [], by simp, fun _ _ => rfl, .refl k w⟩
  | cons b rest ih =>
      have hrest : List.Forall₂ TripCdev.Same rest rest := List.forall₂_same.mpr fun b _ => .refl b
      rw [activateCdevs]
      simp only
      split
      · -- the sampling period has not passed
        rename_i hearly
        refine ⟨.cons (.refl b) hrest, [], by simp, fun _ hnone => ?_, World.acts_time⟩
        exact absurd (hnone b List.mem_cons_self) hearly.1
      · rename_i hearly
        -- the binding and the world in which the device is visited
        obtain ⟨b', w', hvisit, hsame, hplain, hacts⟩ : ∃ b' w',
            (if b.samplingPriod ≠ 0 then ({ b with lastOpTime := w.time.1 }, w.time.2)
              else (b, w)) = (b', w') ∧ b.Same b' ∧ (b.samplingPriod = 0 → b' = b) ∧
            w.Acts k [] w' := by
          split
          · rename_i hsampling
            exact ⟨_, _, rfl, ⟨rfl, rfl, rfl, rfl, fun _ => rfl, rfl, rfl, rfl⟩,
              fun hzero => absurd hzero hsampling, World.acts_time⟩
          · exact ⟨_, _, rfl, .refl b, fun _ => rfl, .refl k w⟩
        rw [hvisit]
        simp only
        split
        · rename_i hmax
          obtain ⟨hforall, visited, hmem, hall, hsteps⟩ := ih w'
          refine ⟨.cons hsame hforall, b' :: visited, ?_, ?_, ?_⟩
          · rintro c (_ | ⟨_, hc⟩)
            · exact ⟨b, List.mem_cons_self, hsame⟩
            · obtain ⟨b₀, hb₀, hc⟩ := hmem c hc
              exact ⟨b₀, List.mem_cons_of_mem _ hb₀, hc⟩
          · intro hpar hnone
            rw [hall hpar fun c hc => hnone c (List.mem_cons_of_mem _ hc),
              hplain (hnone b List.mem_cons_self)]
          · rw [ops_on_cons]
            exact hacts.trans ((skip_on_acts t temp hmax).trans hsteps)
        · rename_i hmax
          have hone := hacts.trans (set_state_on_acts (k := k) t temp
            (Bool.not_eq_true _ ▸ hmax))
          split
          · rename_i hseq
            refine ⟨.cons (hsame.trans (set_state_same t temp true)) hrest, [b'], ?_, ?_, ?_⟩
            · rintro c (_ | ⟨_, ⟨⟩⟩)
              exact ⟨b, List.mem_cons_self, hsame⟩
            · intro hpar
              rw [hpar] at hseq
              exact absurd hseq.1 (by simp)
            · rw [ops_on_cons]
              exact hone.trans (.refl k _)
          · obtain ⟨hforall, visited, hmem, hall, hsteps⟩ := ih (t.setState b' temp true w').2.2
            refine ⟨.cons (hsame.trans (set_state_same t temp true)) hforall, b' :: visited,
              ?_, ?_, ?_⟩
            · rintro c (_ | ⟨_, hc⟩)
              · exact ⟨b, List.mem_cons_self, hsame⟩
              · obtain ⟨b₀, hb₀, hc⟩ := hmem c hc
                exact ⟨b₀, List.mem_cons_of_mem _ hb₀, hc⟩
            · intro hpar hnone
              rw [hall hpar fun c hc => hnone c (List.mem_cons_of_mem _ hc),
                hplain (hnone b List.mem_cons_self)]
            · rw [ops_on_cons]
              exact hone.trans hsteps

/-- The bindings that a trip which is off visits: all of them up to a break. A parallel trip has no
break. -/
theorem release_cdevs_acts (t : TripPoint) (temp k : Nat) (bs : List TripCdev) (w : World δ) :
    List.Forall₂ TripCdev.Same bs (t.releaseCdevs temp bs w).1 ∧
      ∃ visited, visited <+: bs ∧ (t.controlType = .parallel → visited = bs) ∧
        w.Acts k (t.opsOff temp k visited) (t.releaseCdevs temp bs w).2 := by
  induction bs generalizing w with
  | nil => exact ⟨.nil, [], List.prefix_refl _, fun _ => rfl, .refl k w⟩
  | cons b rest ih =>
      have hrest : List.Forall₂ TripCdev.Same rest rest := List.forall₂_same.mpr fun b _ => .refl b
      rw [releaseCdevs]
      split
      · rename_i hmin
        obtain ⟨hforall, visited, hpre, hall, hsteps⟩ := ih w
        refine ⟨.cons (.refl b) hforall, b :: visited, ?_, fun hpar => by rw [hall hpar], ?_⟩
        · exact List.cons_prefix_cons.mpr ⟨rfl, hpre⟩
        · rw [ops_off_cons]
          exact (skip_off_acts t temp hmin).trans hsteps
      · rename_i hmin
        have hone := set_state_off_acts (k := k) t temp (Bool.not_eq_true _ ▸ hmin)
        simp only
        split
        · rename_i hseq
          refine ⟨.cons (set_state_same t temp false) hrest, [b], ?_, ?_, ?_⟩
          · exact List.cons_prefix_cons.mpr ⟨rfl, List.nil_prefix⟩
          · intro hpar
            exact absurd (hpar ▸ hseq) (by simp)
          · rw [ops_off_cons]
            exact hone.trans (.refl k _)
        · obtain ⟨hforall, visited, hpre, hall, hsteps⟩ := ih (t.setState b temp false w).2.2
          refine ⟨.cons (set_state_same t temp false) hforall, b :: visited, ?_,
            fun hpar => by rw [hall hpar], ?_⟩
          · exact List.cons_prefix_cons.mpr ⟨rfl, hpre⟩
          · rw [ops_off_cons]
            exact hone.trans hsteps

/-- A reset visits all bindings. -/
theorem reset_cdevs_acts (t : TripPoint) (force : Bool) (k : Nat) (bs : List TripCdev)
    (w : World δ) : w.Acts k (t.opsReset force k bs) (t.resetCdevs force bs w) := by
  induction bs generalizing w with
  | nil => exact .refl k w
  | cons b rest ih =>
      rw [resetCdevs, ops_reset_cons]
      by_cases hskip : (!force && (w.cdevs b.cdev).inMinState) = true
      · rw [if_pos hskip]
        rw [Bool.and_eq_true, Bool.not_eq_true'] at hskip
        refine World.Acts.trans ⟨⟨rfl, rfl, rfl, rfl, rfl⟩, ?_⟩ (ih w)
        split
        · rename_i h
          exact .single (.inl ⟨hskip.1, h ▸ hskip.2, rfl⟩)
        · exact .nil _
      · rw [if_neg hskip]
        refine (World.acts_set_min_state b.cdev force t.zoneId t.index ?_).trans (ih _)
        cases force
        · exact .inr (by simpa using hskip)
        · exact .inl rfl

/-- The operations with which a trip that is evaluated treats device `k`. -/
def ops (t : TripPoint) (temp k : Nat) : List Op :=
  match t.decision temp with
  | .on => t.opsOn temp k t.cdevs
  | .off => t.opsOff temp k t.cdevs.reverse
  | .keep => []

/-- Evaluating a trip visits its devices on behalf of the trip; a parallel trip without sampling
periods visits all of them. -/
theorem evaluate_acts {pref : Pref} (t : TripPoint) (temp k : Nat) (w : World δ)
    (hpref : pref.applies t.type = true) :
    (t.evaluate temp w).reset = false ∧ t.Same (t.evaluate temp w).trip ∧
      ∃ ops, (∀ op ∈ ops, op.OfTrip pref (· = temp) t k) ∧
        (t.controlType = .parallel → (∀ b ∈ t.cdevs, b.samplingPriod = 0) → ops = t.ops temp k) ∧
        w.Acts k ops (t.evaluate temp w).world := by
  unfold evaluate TripPoint.ops
  cases hdec : t.decision temp with
  | on =>
      have hon : t.temp ≤ temp := by
        unfold decision at hdec
        split_ifs at hdec
        assumption
      obtain ⟨hsame, visited, hmem, hall, hacts⟩ := activate_cdevs_acts t temp k t.cdevs w
      refine ⟨rfl, ⟨rfl, rfl, rfl, rfl, rfl, rfl, rfl, rfl, hsame⟩, _, ?_, ?_, hacts⟩
      · intro op hop
        obtain ⟨b, hb, rfl⟩ := List.mem_map.mp hop
        obtain ⟨hb, hcdev⟩ := List.mem_filter.mp hb
        exact ⟨rfl, hpref, rfl, hon, of_decide_eq_true hcdev, hmem b hb⟩
      · intro hpar hnone
        rw [hall hpar hnone]
  | off =>
      have hoff : temp < t.temp := by
        unfold decision at hdec
        split_ifs at hdec with hle
        exact not_le.mp hle
      obtain ⟨hsame, visited, hpre, hall, hacts⟩ :=
        release_cdevs_acts t temp k t.cdevs.reverse w
      refine ⟨rfl, ⟨rfl, rfl, rfl, rfl, rfl, rfl, rfl, rfl, ?_⟩, _, ?_, ?_, hacts⟩
      · rw [← List.forall₂_reverse_iff, List.reverse_reverse]
        exact hsame
      · intro op hop
        obtain ⟨b, hb, rfl⟩ := List.mem_map.mp hop
        obtain ⟨hb, hcdev⟩ := List.mem_filter.mp hb
        exact ⟨rfl, hpref, rfl, hoff, of_decide_eq_true hcdev, b,
          List.mem_reverse.mp (hpre.subset hb), .refl b⟩
      · intro hpar hnone
        rw [hall hpar]
  | keep => exact ⟨rfl, .refl t, [], by simp, fun _ _ => rfl, .refl k w⟩

omit [StdSort] in
/-- The trips that a preference evaluates do not count critical events. -/
theorem counts_of_applies {pref : Pref} (h : pref.applies t.type = true) : t.counts = false := by
  unfold counts
  cases pref <;> cases htype : t.type <;> simp_all [Pref.applies]

/-- The check of a polling trip touches no device. It asks for a reset only if the reading is
below the trip. -/
theorem check_polling_acts (k : Nat) (w : World δ) :
    t.Same (t.checkPolling temp w).trip ∧ w.Acts k [] (t.checkPolling temp w).world ∧
      ((t.checkPolling temp w).reset = true → temp < t.temp) := by
  have hsame : ∀ pollOn, t.Same { t with pollOn } := fun _ =>
    ⟨rfl, rfl, rfl, rfl, rfl, rfl, rfl, rfl, List.forall₂_same.mpr fun b _ => .refl b⟩
  unfold checkPolling
  split
  · exact ⟨.refl t, .refl k w, by simp⟩
  · simp only
    split
    · exact ⟨hsame true, World.acts_emit _, by simp⟩
    · split
      · rename_i hoff
        rw [Bool.and_eq_true, decide_eq_true_eq] at hoff
        exact ⟨hsame false, World.acts_emit _, fun _ => hoff.2⟩
      · exact ⟨.refl t, .refl k w, by simp⟩

/-- The reaction to a critical or hot trip touches no device. -/
theorem critical_event_acts (k : Nat) (w : World δ) :
    t.Same (t.criticalEvent w).trip ∧ w.Acts k [] (t.criticalEvent w).world ∧
      (t.criticalEvent w).reset = false := by
  have hsame : ∀ critTripCount, t.Same { t with critTripCount } := fun _ =>
    ⟨rfl, rfl, rfl, rfl, rfl, rfl, rfl, rfl, List.forall₂_same.mpr fun b _ => .refl b⟩
  unfold criticalEvent
  split
  · exact ⟨hsame _, .refl k w, rfl⟩
  · exact ⟨hsame 0, World.acts_emit _, rfl⟩

/-- What a check can do: nothing to the devices, or what the evaluation of the trip does. Only a
polling trip above the reading asks for a reset. -/
theorem check_cases (t : TripPoint) (id : Int) (temp : Nat) (pref : Pref) (k : Nat) (w : World δ) :
    (t.Same (t.thdTripPointCheck id temp pref w).trip ∧
      w.Acts k [] (t.thdTripPointCheck id temp pref w).world ∧
      ((t.thdTripPointCheck id temp pref w).reset = true → t.type = .polling ∧ temp < t.temp)) ∨
    (pref.applies t.type = true ∧ t.thdTripPointCheck id temp pref w = t.evaluate temp w) := by
  have hsame : t.Same { t with critTripCount := 0 } :=
    ⟨rfl, rfl, rfl, rfl, rfl, rfl, rfl, rfl, List.forall₂_same.mpr fun b _ => .refl b⟩
  unfold thdTripPointCheck
  split
  · exact .inl ⟨.refl t, .refl k w, by simp⟩
  split
  · exact .inl ⟨.refl t, .refl k w, by simp⟩
  split
  · exact .inl ⟨.refl t, .refl k w, by simp⟩
  split
  · obtain ⟨h, hacts, hreset⟩ := t.critical_event_acts k w
    exact .inl ⟨h, hacts, by simp [hreset]⟩
  · obtain ⟨t', ht', htsame, hnot⟩ : ∃ t', (if t.counts = true then { t with critTripCount := 0 }
        else t) = t' ∧ t.Same t' ∧ (t.counts = false → t' = t) := by
      split
      · exact ⟨_, rfl, hsame, by simp_all⟩
      · exact ⟨_, rfl, .refl t, fun _ => rfl⟩
    simp only [ht']
    split
    · rename_i hpoll
      obtain ⟨h, hacts, hreset⟩ := t'.check_polling_acts temp k w
      refine .inl ⟨htsame.trans h, hacts, fun hr => ⟨htsame.type ▸ hpoll.1, ?_⟩⟩
      exact htsame.temp ▸ hreset hr
    split
    · rename_i happlies
      have hp : pref.applies t.type = true := htsame.type ▸ happlies
      rw [hnot (t.counts_of_applies hp)]
      exact .inr ⟨hp, rfl⟩
    · exact .inl ⟨htsame, .refl k w, by simp⟩

/-- A check keeps the trip and treats the devices on its behalf. -/
theorem check_acts (t : TripPoint) (id : Int) (temp : Nat) (pref : Pref) (k : Nat) (w : World δ) :
    t.Same (t.thdTripPointCheck id temp pref w).trip ∧
      ((t.thdTripPointCheck id temp pref w).reset = true → t.type = .polling ∧ temp < t.temp) ∧
      ∃ ops, (∀ op ∈ ops, op.OfTrip pref (· = temp) t k) ∧
        w.Acts k ops (t.thdTripPointCheck id temp pref w).world := by
  rcases t.check_cases id temp pref k w with ⟨hsame, hacts, hreset⟩ | ⟨hpref, heq⟩
  · exact ⟨hsame, hreset, [], by simp, hacts⟩
  · obtain ⟨hreset, hsame, ops, hops, -, hacts⟩ := t.evaluate_acts temp k w hpref
    rw [heq]
    exact ⟨hsame, by simp [hreset], ops, hops, hacts⟩

/-- The trip is evaluated at every reading of the sensor. -/
structure Evaluated (t : TripPoint) (id : Int) (pref : Pref) : Prop where
  applies : pref.applies t.type = true
  sensor : t.otherSensor id = false
  independent : t.depend = none

/-- A trip without a dependency, for the sensor read and of a type that the preference applies to
is evaluated. -/
theorem Evaluated.check_eq {t : TripPoint} {id : Int} {pref : Pref} (h : t.Evaluated id pref)
    (temp : Nat) (w : World δ) :
    t.thdTripPointCheck id temp pref w = t.evaluate temp w := by
  have hcounts := t.counts_of_applies h.applies
  have hinvalid : t.type ≠ .invalidTripType := by
    intro htype
    have happlies := h.applies
    rw [htype] at happlies
    cases pref <;> simp [Pref.applies] at happlies
  have hpolling : t.type ≠ .polling := by
    intro htype
    have happlies := h.applies
    rw [htype] at happlies
    cases pref <;> simp [Pref.applies] at happlies
  simp [thdTripPointCheck, hinvalid, dependencyFails, h.independent, h.sensor, hcounts, hpolling,
    h.applies]

end TripPoint

end Thermald
