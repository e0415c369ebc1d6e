import Thermald.Config.Indices

/-!
# Trips as configured

`TripPoint.Realises` says that a trip is what a trip point of the configuration asks for: its type,
temperature, hysteresis, sensor and control type, and each of its devices that is there, bound with
the configured influence, sampling period, target, limits and controller. A device type is bound
only once to a trip, and a second binding changes nothing but the influence. So the trip that is
made from a trip point is what it asks for exactly if its bindings to devices of one type agree and
the parameters of its controllers are passed on (`configured_trip_realises_iff`).
-/

namespace Thermald

/-! ## Bindings -/

/-- What the binding of a device to a trip says. -/
structure BindingView where
  cdev : Nat
  influence : Int
  samplingPeriod : Int
  target : Option Int
  minMax : Option (Int × Int)
  pid : Option (Float × Float × Float)

/-- What a bound device says. -/
def TripCdev.view (b : TripCdev) : BindingView where
  cdev := b.cdev
  influence := b.influence
  samplingPeriod := b.samplingPriod
  target := if b.targetStateValid then some b.targetState else none
  minMax := if b.minMaxValid then some (b.minState, b.maxState) else none
  pid := if b.pidParam.valid then some (b.pid.kp, b.pid.ki, b.pid.kd) else none

/-- What a configured binding to a device says. -/
def TripCdevConf.view (b : TripCdevConf) (k : Nat) : BindingView where
  cdev := k
  influence := b.influence
  samplingPeriod := b.samplingPeriod
  target := if b.targetStateValid then some b.targetState else none
  minMax := if b.minMaxValid then some (b.targetMinState, b.targetMaxState) else none
  pid := if b.pidParam.valid then some (b.pidParam.kp, b.pidParam.ki, b.pidParam.kd) else none

/-- The part that is passed on, with or without the controller. -/
def TripCdevConf.passed (b : TripCdevConf) (withPid : Bool) (k : Nat) : BindingView :=
  { b.view k with pid := if withPid then (b.view k).pid else none }

section Bindings

variable {δ : Type} (w : World δ)

/-- Bindings that go to devices of one type agree. -/
def BindingsAgree (bs : List TripCdevConf) : Prop :=
  ∀ b ∈ bs, ∀ b' ∈ bs, ∀ k k', w.searchCdev b.type = some k → w.searchCdev b'.type = some k' →
    (w.cdevs k).typeStr = (w.cdevs k').typeStr → b.view k = b'.view k'

/-- No binding to a device has parameters of a controller. -/
def NoPid (bs : List TripCdevConf) : Prop :=
  ∀ b ∈ bs, (w.searchCdev b.type).isSome = true → b.pidParam.valid = false

/-- All bindings to devices are there. -/
def AllBound (bs : List TripCdevConf) (cdevs : List TripCdev) : Prop :=
  ∀ b ∈ bs, ∀ k, w.searchCdev b.type = some k → ∃ c ∈ cdevs, c.view = b.view k

/-- The type of the device of a binding. -/
def cdevType (c : TripCdev) : String := (w.cdevs c.cdev).typeStr

/-- A change of the influence keeps the types of the devices. -/
theorem types_set_influence {cdevs : List TripCdev} {i : Nat} {c : TripCdev}
    (hi : cdevs[i]? = some c) (influence : Int) :
    (cdevs.set i { c with influence }).map (cdevType w) = cdevs.map (cdevType w) := by
  obtain ⟨hlt, heq⟩ := List.getElem?_eq_some_iff.mp hi
  rw [List.map_set]
  show (cdevs.map (cdevType w)).set i (cdevType w c) = _
  rw [← heq, ← List.getElem_map (cdevType w) (h := by simpa using hlt), List.set_getElem_self]

variable [StdSort] (withPid : Bool) {w}

/-- Binding a configured device: the influence of the first device of the same type is changed, or
the device is added. -/
theorem bind_configured_cases (t : TripPoint) {b : TripCdevConf} {k : Nat}
    (hk : w.searchCdev b.type = some k) :
    (∃ i c, t.cdevs[i]? = some c ∧ cdevType w c = (w.cdevs k).typeStr ∧
        (t.bindConfigured w withPid b).cdevs.Perm
          (t.cdevs.set i { c with influence := b.influence })) ∨
      ∃ c, c.view = b.passed withPid k ∧
        (∀ c' ∈ t.cdevs, cdevType w c' ≠ (w.cdevs k).typeStr) ∧
        (t.bindConfigured w withPid b).cdevs.Perm (c :: t.cdevs) := by
  unfold TripPoint.bindConfigured
  rw [hk]
  dsimp only [TripPoint.thdTripPointAddCdev, TripPoint.tripCdevAdd]
  split
  · left
    rename_i i hi
    obtain ⟨hlt, htype, -⟩ := List.findIdx?_eq_some_iff_getElem.mp hi
    refine ⟨i, t.cdevs[i], List.getElem?_eq_getElem hlt, of_decide_eq_true htype, ?_⟩
    refine (StdSort.perm ..).trans (.of_eq ?_)
    rw [List.modify_eq_set_getElem?, List.getElem?_eq_getElem hlt]
    rfl
  · right
    rename_i hnone
    refine ⟨_, ?_, ?_, (StdSort.perm ..).trans (List.perm_append_singleton ..)⟩
    · cases hlimits : b.minMaxValid <;> cases hvalid : b.pidParam.valid <;> cases withPid <;>
        simp [TripCdev.view, TripCdevConf.passed, TripCdevConf.view, Option.filter, Pid.setPidParam,
          hlimits, hvalid]
    · intro c hc htype
      have hno := List.findIdx?_eq_none_iff.mp hnone c hc
      exact absurd htype (of_decide_eq_false hno)

/-- The devices of a trip have distinct types. -/
theorem bind_configured_distinct {t : TripPoint} (ht : (t.cdevs.map (cdevType w)).Nodup)
    (b : TripCdevConf) : ((t.bindConfigured w withPid b).cdevs.map (cdevType w)).Nodup := by
  cases hk : w.searchCdev b.type with
  | none =>
      unfold TripPoint.bindConfigured
      rw [hk]
      exact ht
  | some k =>
      obtain ⟨i, c, hi, -, hperm⟩ | ⟨c, hview, hno, hperm⟩ := bind_configured_cases withPid t hk
      · rw [(hperm.map _).nodup_iff, types_set_influence w hi]
        exact ht
      · have hcdev : c.cdev = k := congrArg BindingView.cdev hview
        rw [(hperm.map _).nodup_iff, List.map_cons, List.nodup_cons]
        refine ⟨fun hmem => ?_, ht⟩
        obtain ⟨c', hc', heq⟩ := List.mem_map.mp hmem
        apply hno c' hc'
        rw [heq, cdevType, hcdev]

/-- Without the controllers no device of the trip has one. -/
theorem bind_configured_no_pid {t : TripPoint} (ht : ∀ c ∈ t.cdevs, c.view.pid = none)
    (b : TripCdevConf) : ∀ c ∈ (t.bindConfigured w false b).cdevs, c.view.pid = none := by
  intro c hc
  cases hk : w.searchCdev b.type with
  | none =>
      unfold TripPoint.bindConfigured at hc
      rw [hk] at hc
      exact ht c hc
  | some k =>
      obtain ⟨i, c', hi, -, hperm⟩ | ⟨c', hview, -, hperm⟩ := bind_configured_cases false t hk
      · rcases List.mem_or_eq_of_mem_set (hperm.mem_iff.mp hc) with hc | heq
        · exact ht c hc
        · rw [heq]
          exact ht c' (List.mem_of_getElem? hi)
      · rcases List.mem_cons.mp (hperm.mem_iff.mp hc) with heq | hc
        · rw [heq, hview]
          rfl
        · exact ht c hc

variable (w) in
/-- Every device of the trip is bound as one of the bindings says. -/
def BoundFrom (bs : List TripCdevConf) (cdevs : List TripCdev) : Prop :=
  ∀ c ∈ cdevs, ∃ b ∈ bs, ∃ k, w.searchCdev b.type = some k ∧ c.view = b.passed withPid k

/-- Where the bindings agree, binding one of them adds it or finds it there. -/
theorem bind_configured_agree {bs : List TripCdevConf} (hagree : BindingsAgree w bs)
    {t : TripPoint} (ht : BoundFrom w withPid bs t.cdevs) {b : TripCdevConf} (hb : b ∈ bs)
    {k : Nat} (hk : w.searchCdev b.type = some k) :
    ∃ c, c.view = b.passed withPid k ∧
      ((c ∈ t.cdevs ∧ (t.bindConfigured w withPid b).cdevs.Perm t.cdevs) ∨
        (t.bindConfigured w withPid b).cdevs.Perm (c :: t.cdevs)) := by
  obtain ⟨i, c, hi, htype, hperm⟩ | ⟨c, hview, -, hperm⟩ := bind_configured_cases withPid t hk
  · have hc := List.mem_of_getElem? hi
    obtain ⟨b', hb', k', hk', hview⟩ := ht c hc
    have hcdev : c.cdev = k' := congrArg BindingView.cdev hview
    rw [cdevType, hcdev] at htype
    have hsame : b'.passed withPid k' = b.passed withPid k := by
      unfold TripCdevConf.passed
      rw [hagree b' hb' b hb k' k hk' hk htype]
    rw [hsame] at hview
    have hinfluence : c.influence = b.influence := congrArg BindingView.influence hview
    -- The influence is the one that the device has already.
    rw [← hinfluence] at hperm
    obtain ⟨hlt, heq⟩ := List.getElem?_eq_some_iff.mp hi
    refine ⟨c, hview, .inl ⟨hc, hperm.trans (.of_eq ?_)⟩⟩
    show t.cdevs.set i c = t.cdevs
    rw [← heq, List.set_getElem_self]
  · exact ⟨c, hview, .inr hperm⟩

/-- Where the bindings agree, all of them are bound one after the other. -/
theorem foldl_bind_configured_agree {bs : List TripCdevConf} (hagree : BindingsAgree w bs)
    (rest : List TripCdevConf) (hrest : ∀ b ∈ rest, b ∈ bs) (t : TripPoint)
    (ht : BoundFrom w withPid bs t.cdevs) :
    (∀ c ∈ t.cdevs, c ∈ (rest.foldl (TripPoint.bindConfigured w withPid) t).cdevs) ∧
      ∀ b ∈ rest, ∀ k, w.searchCdev b.type = some k →
        ∃ c ∈ (rest.foldl (TripPoint.bindConfigured w withPid) t).cdevs,
          c.view = b.passed withPid k := by
  induction rest generalizing t with
  | nil => exact ⟨fun c hc => hc, fun b hb => absurd hb List.not_mem_nil⟩
  | cons b rest ih =>
      have hrest' : ∀ b ∈ rest, b ∈ bs := fun b hb => hrest b (List.mem_cons_of_mem _ hb)
      cases hk : w.searchCdev b.type with
      | none =>
          have hskip : t.bindConfigured w withPid b = t := by
            unfold TripPoint.bindConfigured
            rw [hk]
          obtain ⟨hkeep, hall⟩ := ih hrest' t ht
          rw [List.foldl_cons, hskip]
          refine ⟨hkeep, fun b' hb' k' hk' => ?_⟩
          rcases List.mem_cons.mp hb' with heq | hb'
          · rw [heq, hk] at hk'
            exact absurd hk' (by simp)
          · exact hall b' hb' k' hk'
      | some k =>
          obtain ⟨c, hview, hcases⟩ :=
            bind_configured_agree withPid hagree ht (hrest b List.mem_cons_self) hk
          have hmem : ∀ c', c' ∈ (t.bindConfigured w withPid b).cdevs ↔ c' = c ∨ c' ∈ t.cdevs := by
            intro c'
            rcases hcases with ⟨hc, hperm⟩ | hperm
            · rw [hperm.mem_iff]
              exact ⟨.inr, fun h => h.elim (fun heq => heq ▸ hc) id⟩
            · rw [hperm.mem_iff, List.mem_cons]
          have hfrom : BoundFrom w withPid bs (t.bindConfigured w withPid b).cdevs := by
            intro c' hc'
            rcases (hmem c').mp hc' with heq | hc'
            · rw [heq]
              exact ⟨b, hrest b List.mem_cons_self, k, hk, hview⟩
            · exact ht c' hc'
          obtain ⟨hkeep, hall⟩ := ih hrest' _ hfrom
          refine ⟨fun c' hc' => hkeep c' ((hmem c').mpr (.inr hc')), fun b' hb' k' hk' => ?_⟩
          rcases List.mem_cons.mp hb' with heq | hb'
          · rw [heq, hk] at hk'
            rw [heq, ← Option.some.inj hk']
            exact ⟨c, hkeep c ((hmem c).mpr (.inl rfl)), hview⟩
          · exact hall b' hb' k' hk'

/-- All bindings are there in the end exactly if those to devices of one type agree and, where the
controllers are not passed on, there are none. -/
theorem all_bound_iff (bs : List TripCdevConf) {t : TripPoint} (ht : t.cdevs = []) :
    AllBound w bs (bs.foldl (TripPoint.bindConfigured w withPid) t).cdevs ↔
      BindingsAgree w bs ∧ (withPid = false → NoPid w bs) := by
  constructor
  · intro hall
    refine ⟨fun b hb b' hb' k k' hk hk' htype => ?_, fun hpid b hb hsome => ?_⟩
    · obtain ⟨c, hc, hview⟩ := hall b hb k hk
      obtain ⟨c', hc', hview'⟩ := hall b' hb' k' hk'
      -- the devices of the trip have different types, so the two bindings ended in one device
      have hdistinct : ((bs.foldl (TripPoint.bindConfigured w withPid) t).cdevs.map
          (cdevType w)).Nodup := by
        refine List.foldlRecOn bs (TripPoint.bindConfigured w withPid)
          (motive := fun t => (t.cdevs.map (cdevType w)).Nodup) ?_
          fun t ht b _ => bind_configured_distinct withPid ht b
        rw [ht]
        exact List.nodup_nil
      have hcdev : c.cdev = k := congrArg BindingView.cdev hview
      have hcdev' : c'.cdev = k' := congrArg BindingView.cdev hview'
      have heq : c = c' := by
        refine List.inj_on_of_nodup_map hdistinct hc hc' ?_
        rw [cdevType, cdevType, hcdev, hcdev']
        exact htype
      rw [← hview, ← hview', heq]
    · obtain ⟨k, hk⟩ := Option.isSome_iff_exists.mp hsome
      obtain ⟨c, hc, hview⟩ := hall b hb k hk
      have hnone : c.view.pid = none := by
        rw [hpid] at hc
        refine List.foldlRecOn bs (TripPoint.bindConfigured w false)
          (motive := fun t => ∀ c ∈ t.cdevs, c.view.pid = none) ?_
          (fun t ht b _ => bind_configured_no_pid ht b) c hc
        rw [ht]
        exact fun c hc => absurd hc List.not_mem_nil
      rw [hview] at hnone
      simpa [TripCdevConf.view] using hnone
  · intro hex b hb k hk
    obtain ⟨hagree, hpid⟩ := hex
    have hfrom : BoundFrom w withPid bs t.cdevs := by
      rw [ht]
      exact fun c hc => absurd hc List.not_mem_nil
    obtain ⟨c, hc, hview⟩ :=
      (foldl_bind_configured_agree withPid hagree bs (fun b hb => hb) t hfrom).2 b hb k hk
    refine ⟨c, hc, hview.trans ?_⟩
    cases withPid with
    | true => rfl
    | false =>
        have hvalid := hpid rfl b hb (by simp [hk])
        simp [TripCdevConf.passed, TripCdevConf.view, hvalid]

end Bindings

/-! ## Trips and zones -/

section Trips

variable {δ : Type} (w : World δ)

/-- The trip is what the trip point asks for. -/
structure TripPoint.Realises (t : TripPoint) (c : TripPointConf) : Prop where
  type : t.type = c.tripPtType
  temp : t.temp = (uint32 c.temperature).toNat
  hyst : t.hyst = (uint32 c.hyst).toNat
  sensor : ∃ s, w.searchSensor c.sensorType = some s ∧ t.sensorId = s.index
  controlType : t.controlType = c.controlType
  bound : AllBound w c.cdevTrips t.cdevs

/-- One of the trips of the zone is what the trip point asks for. -/
def Zone.Realises (z : Zone) (c : TripPointConf) : Prop := ∃ t ∈ z.tripPoints, t.Realises w c

variable {w} [StdSort]

/-- The trip that is made from a trip point is what the trip point asks for exactly if its bindings
agree and, where the controllers are not passed on, there are none. -/
theorem configured_trip_realises_iff (withPid : Bool) (index zoneIndex : Int) {s : Sensor}
    {c : TripPointConf} (hs : w.searchSensor c.sensorType = some s) :
    (configuredTrip w withPid index zoneIndex s c).Realises w c ↔
      BindingsAgree w c.cdevTrips ∧ (withPid = false → NoPid w c.cdevTrips) := by
  obtain ⟨depend, heq⟩ := Zone.configured_trip_eq w withPid index zoneIndex s c
  rw [heq]
  generalize hstart : { TripPoint.init index c.tripPtType (uint32 c.temperature).toNat
    (uint32 c.hyst).toNat zoneIndex s.index c.controlType with depend } = t
  have hnil : t.cdevs = [] := by
    rw [← hstart]
    rfl
  rw [← all_bound_iff withPid c.cdevTrips hnil]
  constructor
  · exact fun h => h.bound
  · intro hbound
    obtain ⟨cdevs, hfold⟩ := Zone.foldl_bind_configured_fields w withPid c.cdevTrips t
    rw [hfold] at hbound ⊢
    rw [← hstart]
    exact ⟨rfl, rfl, rfl, ⟨s, hs, rfl⟩, rfl, hbound⟩

end Trips

/-! ## Names -/

namespace World.SameNames

variable {δ : Type} {w w' : World δ} (h : w.SameNames w')

include h

theorem symm : w'.SameNames w :=
  ⟨h.cdevCount.symm, h.sensors.symm, fun k => (h.typeStr k).symm, fun k => (h.aliasStr k).symm⟩

/-- What a trip realises depends on the names of sensors and devices only. -/
theorem trip_realises {t : TripPoint} {c : TripPointConf} (ht : t.Realises w c) :
    t.Realises w' c where
  type := ht.type
  temp := ht.temp
  hyst := ht.hyst
  sensor := by
    rw [h.search_sensor_eq]
    exact ht.sensor
  controlType := ht.controlType
  bound b hb k hk := by
    rw [h.search_cdev_eq] at hk
    exact ht.bound b hb k hk

theorem zone_realises {z : Zone} {c : TripPointConf} (hz : z.Realises w c) : z.Realises w' c := by
  obtain ⟨t, ht, hrealises⟩ := hz
  exact ⟨t, ht, h.trip_realises hrealises⟩

theorem bindings_agree {bs : List TripCdevConf} (hbs : BindingsAgree w bs) :
    BindingsAgree w' bs := by
  intro b hb b' hb' k k' hk hk' htype
  rw [h.search_cdev_eq] at hk hk'
  rw [h.typeStr, h.typeStr] at htype
  exact hbs b hb b' hb' k k' hk hk' htype

theorem adds_eq (c : TripPointConf) : c.adds w' = c.adds w := by
  unfold TripPointConf.adds
  rw [h.search_sensor_eq]

end World.SameNames

end Thermald
