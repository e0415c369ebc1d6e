import Thermald.Cooling.SetState

/-!
# What one call does to a cooling device

The equations of `thdCdevSetState` that every later proof uses. `set_state_limits` gives the
limits after any call: an activation adds its trip if it is absent, a release withdraws it if it
is last. `set_state_config` says that the range and the timing parameters of a device never
change. `set_state_release_cases` and `set_state_activate_cases` describe the resulting state for
trips with valid targets.
-/

namespace Thermald

/-- A state between the minimum and the maximum of a device, in either orientation. -/
def Device.InRange {δ : Type} (d : Device δ) (state : Int) : Prop :=
  (d.minState ≤ state ∧ state ≤ d.maxState) ∨ (d.maxState ≤ state ∧ state ≤ d.minState)

instance {δ : Type} (d : Device δ) (state : Int) : Decidable (d.InRange state) :=
  inferInstanceAs (Decidable (_ ∨ _))

/-- How constraining a state is: the state itself, or its negation where the states count
downwards. -/
def Device.level {δ : Type} (d : Device δ) (state : Int) : Int :=
  if d.minState < d.maxState then state else -state

/-- Equally constraining states are equal. -/
theorem Device.level_inj {δ : Type} {d : Device δ} {s t : Int} :
    d.level s = d.level t ↔ s = t := by
  unfold Device.level
  split <;> omega

/-- A state in range lies between the least and the most constraining one. -/
theorem Device.InRange.level_bounds {δ : Type} {d : Device δ} {s : Int} (h : d.InRange s) :
    d.level d.minState ≤ d.level s ∧ d.level s ≤ d.level d.maxState := by
  unfold Device.InRange at h
  unfold Device.level
  split <;> omega

/-- The minimum is in range. -/
theorem Device.in_range_min {δ : Type} (d : Device δ) : d.InRange d.minState := by
  unfold Device.InRange
  omega

/-- Setting a state in range succeeds: the device reports the state that was asked for. Classes
that report the recorded state satisfy this whatever they write. -/
class CdevClass.Settable (δ : Type) [CdevClass δ] : Prop where
  get_set : ∀ (d : Device δ) (state : Int) (arg : Bool), d.InRange state →
    CdevClass.getCurrState
      { d with currState := state, priv := (CdevClass.setCurrStateRaw d state arg).2 } = state

/-- The class takes target states as they are, without a unit of its own. -/
class CdevClass.PlainTarget (δ : Type) [CdevClass δ] : Prop where
  map_target : ∀ (d : Device δ) (valid : Bool) (target : Int),
    CdevClass.mapTargetState d valid target = target

instance : CdevClass.Settable GenSysfs := ⟨fun _ _ _ _ => rfl⟩

instance : CdevClass.PlainTarget GenSysfs := ⟨fun _ _ _ => rfl⟩

namespace Cdev

variable {δ : Type} [CdevClass δ] {d : Cdev δ} {a : SetStateArgs} {pid : Pid} {tm : Int}

/-- The device parameters that no call changes. -/
structure SameConfig (d d' : Cdev δ) : Prop where
  index : d'.index = d.index
  minState : d'.minState = d.minState
  maxState : d'.maxState = d.maxState
  debounceInterval : d'.debounceInterval = d.debounceInterval
  typeStr : d'.typeStr = d.typeStr
  aliasStr : d'.aliasStr = d.aliasStr

omit [CdevClass δ] in
theorem SameConfig.refl (d : Cdev δ) : SameConfig d d :=
  ⟨rfl, rfl, rfl, rfl, rfl, rfl⟩

omit [CdevClass δ] in
theorem SameConfig.trans {d₁ d₂ d₃ : Cdev δ} (h : SameConfig d₁ d₂) (h' : SameConfig d₂ d₃) :
    SameConfig d₁ d₃ :=
  ⟨h'.index.trans h.index, h'.minState.trans h.minState, h'.maxState.trans h.maxState,
    h'.debounceInterval.trans h.debounceInterval, h'.typeStr.trans h.typeStr,
    h'.aliasStr.trans h.aliasStr⟩

omit [CdevClass δ] in
theorem SameConfig.in_range {d d' : Cdev δ} (h : SameConfig d d') {state : Int} :
    d'.InRange state ↔ d.InRange state := by
  rw [Device.InRange, Device.InRange, h.minState, h.maxState]

omit [CdevClass δ] in
theorem SameConfig.level {d d' : Cdev δ} (h : SameConfig d d') (state : Int) :
    d'.level state = d.level state := by
  rw [Device.level, Device.level, h.minState, h.maxState]

omit [CdevClass δ] in
/-- The limits are no parameter of the device. -/
theorem limits_config (d : Cdev δ) (limits : List ZoneTripLimit) :
    SameConfig { d with zoneTripLimits := limits } d :=
  ⟨rfl, rfl, rfl, rfl, rfl, rfl⟩

/-! ## Orientation -/

/-- The state is at most as constraining as the current one. -/
theorem cmp_current_state_nonpos (hne : d.minState ≠ d.maxState) {state : Int} :
    d.cmpCurrentState state ≤ 0 ↔ d.level state ≤ d.level d.getCurrState := by
  unfold cmpCurrentState Device.level
  split_ifs <;> omega

theorem in_min_state_iff (hne : d.minState ≠ d.maxState) :
    d.inMinState = true ↔ d.level d.getCurrState ≤ d.level d.minState := by
  simp only [inMinState, Device.level, Bool.or_eq_true, Bool.and_eq_true, decide_eq_true_eq]
  split <;> omega

theorem in_max_state_iff (hne : d.minState ≠ d.maxState) :
    d.inMaxState = true ↔ d.level d.maxState ≤ d.level d.getCurrState := by
  simp only [inMaxState, Device.level, Bool.or_eq_true, Bool.and_eq_true, decide_eq_true_eq]
  split <;> omega

@[simp] theorem map_target_state_plain [CdevClass.PlainTarget δ] (valid : Bool) (target : Int) :
    d.mapTargetState valid target = target :=
  CdevClass.PlainTarget.map_target _ _ _

/-! ## The controlling part -/

theorem begin_control_config (state : Bool) : SameConfig d (d.beginControl state tm) :=
  ⟨rfl, rfl, rfl, rfl, rfl, rfl⟩

/-- The members that the controllers leave alone. -/
structure SameBook (d d' : Cdev δ) : Prop extends SameConfig d d' where
  limits : d'.zoneTripLimits = d.zoneTripLimits
  lastState : d'.lastState = d.lastState
  lastActionTime : d'.lastActionTime = d.lastActionTime

theorem set_curr_state_raw_book (state : Int) (arg : Bool) :
    SameBook d (d.setCurrStateRaw state arg) :=
  ⟨⟨rfl, rfl, rfl, rfl, rfl, rfl⟩, rfl, rfl, rfl⟩

theorem exponential_controller_book (state : Bool) (minState maxState : Int) :
    SameBook d (d.thdCdevExponentialController state minState maxState) := by
  unfold thdCdevExponentialController
  split <;> exact ⟨⟨rfl, rfl, rfl, rfl, rfl, rfl⟩, rfl, rfl, rfl⟩

/-- Whatever controller is chosen, it works on the device after the bookkeeping. -/
theorem control_book (valid : Bool) (target minState maxState : Int) :
    SameBook (d.beginControl a.state tm)
      (d.control a pid tm valid target minState maxState).1 := by
  unfold control
  simp only
  split
  · exact ⟨⟨rfl, rfl, rfl, rfl, rfl, rfl⟩, rfl, rfl, rfl⟩
  split
  · exact set_curr_state_raw_book _ _
  split
  · exact set_curr_state_raw_book _ _
  split
  · exact ⟨⟨rfl, rfl, rfl, rfl, rfl, rfl⟩, rfl, rfl, rfl⟩
  split
  · exact exponential_controller_book true minState maxState
  · exact exponential_controller_book false 0 0

/-- No controller changes the range. -/
theorem control_min_state (valid : Bool) (target minState maxState : Int) :
    (d.control a pid tm valid target minState maxState).1.minState = d.minState :=
  (control_book valid target minState maxState).minState

/-- A valid target in range is the state afterwards. -/
theorem control_target [CdevClass.Settable δ] {target minState maxState : Int}
    (htarget : d.InRange target) :
    (d.control a pid tm true target minState maxState).1.getCurrState = target :=
  CdevClass.Settable.get_set (d.beginControl a.state tm).toDevice target a.state htarget

variable [StdSort]

/-! ## The limits -/

@[simp] theorem activate_limits :
    (d.activate a tm).1 = if d.holds a.user then d.zoneTripLimits else d.addLimit a := by
  unfold activate
  simp only
  split
  · rfl
  · split_ifs <;> rfl

omit [CdevClass δ] [StdSort] in
@[simp] theorem release_limits :
    (d.release a).1 = withdraw ZoneTripLimit.user a.user d.zoneTripLimits := by
  unfold release withdraw
  rcases List.eq_nil_or_concat d.zoneTripLimits with h | ⟨front, last, h⟩
  · simp only [h, List.getLast?_nil, Option.map_none, reduceCtorEq, if_false]
    split <;> rfl
  · simp only [h, List.concat_eq_append, List.getLast?_append, List.getLast?_singleton,
      Option.some_or, Option.map_some, Option.some.injEq]
    split
    · split
      · rfl
      · split_ifs <;> rfl
    · rfl

/-- The limits after any call. -/
theorem set_state_limits :
    (d.thdCdevSetState a pid tm).2.1.zoneTripLimits =
      if a.state then (if d.holds a.user then d.zoneTripLimits else d.addLimit a)
      else withdraw ZoneTripLimit.user a.user d.zoneTripLimits := by
  unfold thdCdevSetState
  split
  · rename_i hskip
    simp only [Bool.and_eq_true, Bool.not_eq_true', List.isEmpty_iff] at hskip
    simp [hskip.1.1, hskip.2]
  · cases hstate : a.state
    · simp only [Bool.false_eq_true, if_false]
      cases hr : (d.release a).2 with
      | done => simp
      | control valid target lo hi =>
          simp only
          rw [(control_book _ _ _ _).limits]
          exact release_limits
    · simp only [if_true]
      cases hr : (d.activate a tm).2 with
      | done => simp
      | control valid target lo hi =>
          simp only
          rw [(control_book _ _ _ _).limits]
          exact activate_limits

/-- The limits that an activation works with. -/
def limitsWith (d : Cdev δ) (a : SetStateArgs) : List ZoneTripLimit :=
  if d.holds a.user then d.zoneTripLimits else d.addLimit a

omit [CdevClass δ] in
/-- An activation never works with an empty list. -/
theorem limits_with_ne_nil : d.limitsWith a ≠ [] := by
  unfold limitsWith
  split
  · rename_i hholds
    intro hnil
    simp [holds, hnil] at hholds
  · unfold addLimit
    simp only
    split_ifs <;> simp

omit [CdevClass δ] in
/-- The limits that an activation works with are those that were there and, for a trip without one,
its own. -/
theorem mem_limits_with {limit : ZoneTripLimit} :
    limit ∈ d.limitsWith a ↔
      limit ∈ d.zoneTripLimits ∨ (d.holds a.user = false ∧ limit = d.newLimit a) := by
  unfold limitsWith
  cases hholds : d.holds a.user with
  | true => simp
  | false =>
      have hsort : ∀ (lt : ZoneTripLimit → ZoneTripLimit → Bool) (limits : List ZoneTripLimit),
          limit ∈ StdSort.sort lt limits ↔ limit ∈ limits := fun lt limits => StdSort.mem_sort
      unfold addLimit
      simp only [Bool.false_eq_true, if_false, true_and]
      split_ifs <;> simp [hsort]

/-- The limits after an activation. -/
theorem set_state_limits_with (hstate : a.state = true) :
    (d.thdCdevSetState a pid tm).2.1.zoneTripLimits = d.limitsWith a := by
  rw [set_state_limits, if_pos hstate]
  rfl

/-- An activation whose most constraining limit has a target either applies that target, or only
records its trip: because the device is constrained enough already, or because the previous
activation was too recent. -/
theorem set_state_activate_cases [CdevClass.PlainTarget δ] (pid : Pid) (tm : Int)
    (hne : d.minState ≠ d.maxState) (hstate : a.state = true) {last : ZoneTripLimit}
    (hlast : (d.limitsWith a).getLast? = some last) (hvalid : last.targetStateValid = true) :
    ((d.thdCdevSetState a pid tm).2.1 = { d with zoneTripLimits := d.limitsWith a } ∧
      ((d.zoneTripLimits ≠ [] ∧ d.level last.targetValue ≤ d.level d.getCurrState) ∨
        (d.lastState = true ∧ tm - d.lastActionTime ≤ d.debounceInterval))) ∨
    ((d.thdCdevSetState a pid tm).2.1 =
        ({ d with zoneTripLimits := d.limitsWith a }.control a pid tm true last.targetValue
          last.minState last.maxState).1 ∧
      (d.zoneTripLimits ≠ [] → d.level d.getCurrState < d.level last.targetValue)) := by
  unfold thdCdevSetState activate
  have hlimits : (if d.holds a.user = true then d.zoneTripLimits else d.addLimit a) =
      d.limitsWith a := rfl
  simp only [hstate, hlimits, hlast, map_target_state_plain, hvalid, Bool.not_true, Bool.false_and,
    Bool.false_eq_true, if_false, if_true, Bool.and_true, Bool.and_eq_true, Bool.not_eq_true',
    decide_eq_true_eq, cmp_current_state_nonpos hne, List.isEmpty_eq_false_iff]
  split_ifs with hcmp hdebounce
  · exact .inl ⟨rfl, .inl hcmp⟩
  · exact .inl ⟨rfl, .inr ⟨hdebounce.1.2, hdebounce.2⟩⟩
  · exact .inr ⟨rfl, fun hlist => not_le.mp fun hle => hcmp ⟨hlist, hle⟩⟩

omit [CdevClass δ] [StdSort] in
/-- A release that does not find its trip last changes nothing. -/
theorem release_of_ne {last : ZoneTripLimit} (hlast : d.zoneTripLimits.getLast? = some last)
    (hne : last.user ≠ a.user) : d.release a = (d.zoneTripLimits, .done) := by
  simp [release, hlast, hne]

/-- A release by a trip that is not last leaves the device as it is. -/
theorem set_state_release_of_ne (pid : Pid) (tm : Int) (hstate : a.state = false)
    {last : ZoneTripLimit}
    (hlast : d.zoneTripLimits.getLast? = some last) (hne : last.user ≠ a.user) :
    (d.thdCdevSetState a pid tm).2.1 = d := by
  have hlist : d.zoneTripLimits ≠ [] := by
    intro hnil
    simp [hnil] at hlast
  simp [thdCdevSetState, hstate, hlist, release_of_ne hlast hne]

/-- A release without limits at the minimum leaves the device as it is. -/
theorem set_state_release_of_min (pid : Pid) (tm : Int) (hstate : a.state = false)
    (hnil : d.zoneTripLimits = [])
    (hmin : d.inMinState = true) : (d.thdCdevSetState a pid tm).2.1 = d := by
  simp [thdCdevSetState, hstate, hnil, hmin]

/-- A release by the last trip applies the entry that becomes the last one. -/
theorem set_state_release_next (pid : Pid) (tm : Int) (hstate : a.state = false)
    {last next : ZoneTripLimit}
    (hlast : d.zoneTripLimits.getLast? = some last) (huser : last.user = a.user)
    (hnext : d.zoneTripLimits.dropLast.getLast? = some next) :
    (d.thdCdevSetState a pid tm).2.1 =
      ({ d with zoneTripLimits := d.zoneTripLimits.dropLast }.control a pid tm
        next.targetStateValid next.targetValue next.minState next.maxState).1 := by
  have hlist : d.zoneTripLimits ≠ [] := by
    intro hnil
    simp [hnil] at hlast
  simp [thdCdevSetState, hstate, hlist, release, hlast, huser, hnext]

/-- The release of the only limit sends the device to its minimum, if the limit had a target or
the release is forced. -/
theorem set_state_release_single (pid : Pid) (tm : Int) (hstate : a.state = false)
    (hvalid : a.targetStateValid = true)
    {last : ZoneTripLimit} (hlast : d.zoneTripLimits = [last]) (huser : last.user = a.user)
    (htarget : last.targetStateValid = true ∨ a.force = true) :
    (d.thdCdevSetState a pid tm).2.1 =
      ({ d with zoneTripLimits := [] }.control a pid tm true d.minState a.minState
        a.maxState).1 := by
  rcases htarget with htarget | htarget <;>
    simp [thdCdevSetState, hstate, release, hlast, huser, hvalid, htarget]

/-- No call changes the parameters of the device. -/
theorem set_state_config : SameConfig d (d.thdCdevSetState a pid tm).2.1 := by
  unfold thdCdevSetState
  split
  · exact .refl d
  · simp only
    split
    · exact ⟨rfl, rfl, rfl, rfl, rfl, rfl⟩
    · refine SameConfig.trans ?_
        ((begin_control_config a.state).trans (control_book _ _ _ _).toSameConfig)
      exact ⟨rfl, rfl, rfl, rfl, rfl, rfl⟩

/-- The time of the last action is kept or becomes the time of the call. -/
theorem set_state_last_action_time (pid : Pid) (tm : Int) :
    (d.thdCdevSetState a pid tm).2.1.lastActionTime = d.lastActionTime ∨
      (d.thdCdevSetState a pid tm).2.1.lastActionTime = tm := by
  unfold thdCdevSetState
  split
  · exact .inl rfl
  · simp only
    split
    · exact .inl rfl
    · exact .inr (control_book _ _ _ _).lastActionTime

end Cdev

end Thermald
