import Mathlib.Algebra.Order.Ring.Int
import Thermald.Lib.Run
import Thermald.Cooling.Rapl

/-!
# The range of a cooling device

A state is confined at several places. `set_curr_state_raw` of the base class and the controllers do
it, but a target is recorded as it was given, `cthd_gen_sysfs_cdev` writes it as it is, and the
exponential controller only checks the end of the range to which it moves. `states_in_range` says
for which calls the recorded state and everything that is written stay between the minimum and the
maximum of the device.
-/

namespace Thermald

/-! ## Ranges -/

/-- The state is not on the wrong side of the minimum. -/
def Device.Beyond {δ : Type} (d : Device δ) (state : Int) : Prop :=
  (d.minState ≤ d.maxState → d.minState ≤ state) ∧ (d.maxState < d.minState → state ≤ d.minState)

theorem Device.in_range_max {δ : Type} (d : Device δ) : d.InRange d.maxState := by
  unfold Device.InRange
  omega

namespace Cdev

variable {δ : Type} [CdevClass δ] {d : Cdev δ}

omit [CdevClass δ] in
/-- After `thd_clamp_state_min` a state is not on the wrong side of the minimum. -/
theorem clamp_state_min_beyond (state tempMinState : Int) :
    d.Beyond (d.thdClampStateMin state tempMinState) := by
  unfold thdClampStateMin Device.Beyond
  simp only
  split_ifs <;> omega

omit [CdevClass δ] in
/-- After `thd_clamp_state_max` such a state is in range, if the maximum of the trip is. -/
theorem clamp_state_max_in_range {state tempMaxState : Int} (hstate : d.Beyond state)
    (hmax : tempMaxState = 0 ∨ d.Beyond tempMaxState) :
    d.InRange (d.thdClampStateMax state tempMaxState) := by
  unfold Device.Beyond at hstate hmax
  unfold thdClampStateMax Device.InRange
  simp only
  split_ifs <;> omega

omit [CdevClass δ] in
/-- The range check on the output of a controller. -/
theorem clamp_range_in_range (state : Int) : d.InRange (d.clampRange state) := by
  unfold clampRange Device.InRange
  simp only
  split_ifs <;> omega

end Cdev

/-! ## Classes -/

/-- What setting a state must do to keep the recorded state and the written ones in range. -/
structure Device.Kept {δ : Type} (writes : δ → List Int) (Sound : Int → Int → δ → Prop)
    (d : Device δ) (result : Int × δ) : Prop where
  state : d.InRange result.1
  writes : ∀ v ∈ writes result.2, v ∈ writes d.priv ∨ d.InRange v
  sound : Sound d.minState d.maxState result.2

/-- One more value is written, which is in range. -/
theorem Device.written_concat {δ : Type} {d : Device δ} {old : List Int} {state : Int}
    (hstate : d.InRange state) : ∀ v ∈ old ++ [state], v ∈ old ∨ d.InRange v := by
  intro v hv
  rcases List.mem_append.mp hv with hv | hv
  · exact .inl hv
  · rw [List.mem_singleton.mp hv]
    exact .inr hstate

/-- A class of devices that keeps to the range, given states that do. -/
class KeepsRange (δ : Type) [CdevClass δ] where
  /-- The states written so far. -/
  writes : δ → List Int
  /-- The class confines the states itself. -/
  confines : Bool
  /-- What else the class needs, for a minimum and a maximum. -/
  Sound : Int → Int → δ → Prop
  get_curr_state : ∀ d : Device δ, CdevClass.getCurrState d = d.currState
  set_curr_state : ∀ (d : Device δ) (state : Int) (arg : Bool), d.InRange d.currState →
    Sound d.minState d.maxState d.priv → confines = true ∨ d.InRange state →
    d.Kept writes Sound (CdevClass.setCurrState d state arg)
  set_curr_state_raw : ∀ (d : Device δ) (state : Int) (arg : Bool), d.InRange d.currState →
    Sound d.minState d.maxState d.priv → d.InRange state →
    d.Kept writes Sound (CdevClass.setCurrStateRaw d state arg)

/-- The base class. Where the states count downwards its check yields the minimum. -/
instance : KeepsRange BaseCdev where
  writes b := b.states
  confines := false
  Sound _ _ _ := True
  get_curr_state _ := rfl
  set_curr_state d state _ hcurr _ hstate := by
    have hrange : d.InRange state := hstate.resolve_left Bool.false_ne_true
    exact ⟨hcurr, Device.written_concat hrange, trivial⟩
  set_curr_state_raw d state _ hcurr _ hstate := by
    refine ⟨hcurr, Device.written_concat ?_, trivial⟩
    unfold Device.InRange at hstate ⊢
    split_ifs <;> omega

/-- `cthd_gen_sysfs_cdev`. -/
instance : KeepsRange GenSysfs where
  writes g := g.writes
  confines := false
  Sound _ _ _ := True
  get_curr_state _ := rfl
  set_curr_state d state _ _ _ hstate := by
    have hrange : d.InRange state := hstate.resolve_left Bool.false_ne_true
    exact ⟨hrange, Device.written_concat hrange, trivial⟩
  set_curr_state_raw d state _ _ _ hstate :=
    ⟨hstate, Device.written_concat hstate, trivial⟩

/-- The limits of a power limit device are powers, and the limit that it restores is one of its
states. -/
structure Rapl.Sound (minState maxState : Int) (r : Rapl) : Prop where
  min : 0 ≤ minState ∧ minState ≤ intMax
  max : 0 ≤ maxState ∧ maxState ≤ intMax
  powerOn : r.powerOnConstraintPwr ≠ 0 →
    (minState ≤ r.powerOnConstraintPwr ∧ r.powerOnConstraintPwr ≤ maxState) ∨
      (maxState ≤ r.powerOnConstraintPwr ∧ r.powerOnConstraintPwr ≤ minState)

/-- Whatever state is asked for, a power limit device stays in range. -/
theorem Rapl.set_curr_state_kept (d : Device Rapl) (state : Int) (control : Bool)
    (h : Rapl.Sound d.minState d.maxState d.priv) :
    d.Kept Rapl.powerLimits Rapl.Sound (Rapl.setCurrState d state control) := by
  have hwrite : ∀ (r : Rapl) (value : Int), r.powerLimits = d.priv.powerLimits →
      r.powerOnConstraintPwr = d.priv.powerOnConstraintPwr → d.InRange value →
      d.Kept Rapl.powerLimits Rapl.Sound (value, r.raplUpdatePl1 value) := by
    intro r value hlimits hpower hvalue
    have hnat : 0 ≤ value ∧ value < 4294967296 := by
      obtain ⟨hmin, hmax⟩ := And.intro h.min h.max
      simp only [intMax] at hmin hmax
      unfold Device.InRange at hvalue
      omega
    refine ⟨hvalue, fun v hv => ?_, ⟨h.min, h.max, fun hne => ?_⟩⟩
    · rw [Rapl.power_limits_update, hlimits, uint32_eq_self hnat.1 hnat.2] at hv
      exact Device.written_concat hvalue v hv
    · have heq : (r.raplUpdatePl1 value).powerOnConstraintPwr =
          d.priv.powerOnConstraintPwr := hpower
      rw [heq] at hne ⊢
      exact h.powerOn hne
  unfold Rapl.setCurrState
  simp only
  split
  · refine ⟨?_, fun v hv => .inl hv, h⟩
    split
    · exact d.in_range_min
    · exact d.in_range_max
  · generalize hnew : (if state < d.maxState then d.maxState else state) = newState
    have hlow : d.maxState ≤ newState := by
      rw [← hnew]
      split <;> omega
    split
    · refine hwrite _ _ (Rapl.power_limits_unconstrain _) ?_ ?_
      · unfold Rapl.unconstrain
        simp only
        split <;> rfl
      · split
        · rename_i hne
          exact h.powerOn hne
        · exact d.in_range_min
    · rename_i hhigh
      refine hwrite _ _ ?_ ?_ (.inr ⟨hlow, by omega⟩)
      · split
        · exact Rapl.power_limits_constrain _
        · rfl
      · split
        · unfold Rapl.constrain
          simp only
          generalize (if d.priv.pl0MinWindow ≠ 0 then d.priv.pl0MinWindow
            else Rapl.defRaplTimeWindow) = window
          split <;> rfl
        · rfl

/-- `cthd_sysfs_cdev_rapl`. -/
instance : KeepsRange Rapl where
  writes := Rapl.powerLimits
  confines := true
  Sound := Rapl.Sound
  get_curr_state _ := rfl
  set_curr_state d state arg _ hsound _ := Rapl.set_curr_state_kept d state arg hsound
  set_curr_state_raw d state arg _ hsound _ := Rapl.set_curr_state_kept d state arg hsound

namespace Cdev

open KeepsRange (writes confines Sound)

variable {δ : Type} [CdevClass δ] [KeepsRange δ] {d : Cdev δ}

/-! ## Activations -/

/-- The step of an activation. -/
def increment (d : Cdev δ) : Int := if d.incVal ≠ 0 then d.incVal else d.incDecVal

/-- The device is activated again, away from its minimum. -/
def rising (d : Cdev δ) : Bool := d.trendIncrease && d.getCurrState ≠ d.minState

/-- The sum that an activation computes, before it is reduced to 32 bits. -/
def increased (d : Cdev δ) (tempMinState : Int) : Int :=
  let curr := d.thdClampStateMin d.readCurrState tempMinState
  if d.rising then
    (if d.currPow = 0 then curr else d.basePowState) +
      2 ^ (if d.currPow < defaultMaxExponent then d.currPow + 1 else d.currPow) * d.increment
  else curr + d.increment

/-- An activation moves towards the maximum: its step does, and its sum does not overflow. A
repeated activation with `inc_val` checks for overflow itself. -/
structure StepsUp (d : Cdev δ) (tempMinState : Int) : Prop where
  toward : (d.minState ≤ d.maxState → 0 ≤ d.increment) ∧
    (d.maxState < d.minState → d.increment ≤ 0)
  fits : (d.rising = true ∧ d.incVal ≠ 0) ∨
    (-2147483648 ≤ d.increased tempMinState ∧ d.increased tempMinState ≤ intMax)

/-- The recorded state and all states written are in range. -/
def WithinRange (d : Cdev δ) : Prop :=
  d.InRange d.currState ∧ ∀ v ∈ writes d.priv, d.InRange v

/-- A limit that may be applied. -/
structure Applicable (d : Cdev δ) (limit : ZoneTripLimit) : Prop where
  target : limit.targetStateValid = true → d.InRange limit.targetValue
  max : confines δ = false → limit.targetStateValid = false →
    limit.maxState = 0 ∨ d.Beyond limit.maxState

/-- The invariant of the calls. -/
structure Confined (d : Cdev δ) : Prop where
  sound : Sound d.minState d.maxState d.priv
  state : d.InRange d.currState
  writes : ∀ v ∈ writes d.priv, d.InRange v
  base : d.currPow ≠ 0 → d.Beyond d.basePowState
  limits : ∀ limit ∈ d.zoneTripLimits, d.Applicable limit

omit [CdevClass δ] [KeepsRange δ] in
/-- The state that an activation asks for before the maximum is applied. -/
theorem increased_beyond {base state : Int} {pow : Nat} (hbase : d.Beyond base)
    (htoward : (d.minState ≤ d.maxState → 0 ≤ d.increment) ∧
      (d.maxState < d.minState → d.increment ≤ 0))
    (hstate : state = int32 (base + 2 ^ pow * d.increment))
    (hfits : d.incVal ≠ 0 ∨ (-2147483648 ≤ base + 2 ^ pow * d.increment ∧
      base + 2 ^ pow * d.increment ≤ intMax)) :
    d.Beyond (if (d.incVal < 0 ∧ base < state) ∨ (0 < d.incVal ∧ state < base) then d.maxState
      else state) := by
  have hpow : (0 : Int) ≤ 2 ^ pow := pow_nonneg (by decide) pow
  split
  · exact ⟨fun h => h, fun h => le_of_lt h⟩
  · rename_i hwrap
    rcases hfits with hinc | ⟨hlo, hhi⟩
    · -- the check excludes a result on the wrong side of the base
      have hval : d.increment = d.incVal := if_pos hinc
      rw [hval] at htoward
      obtain ⟨hup, hdown⟩ := htoward
      obtain ⟨hbaseUp, hbaseDown⟩ := hbase
      constructor
      · intro h
        have := hup h
        have := hbaseUp h
        omega
      · intro h
        have := hdown h
        have := hbaseDown h
        omega
    · rw [int32_eq_self hlo hhi] at hstate
      subst hstate
      constructor
      · intro h
        have hprod : 0 ≤ 2 ^ pow * d.increment := mul_nonneg hpow (htoward.1 h)
        have := hbase.1 h
        omega
      · intro h
        have hprod : 2 ^ pow * d.increment ≤ 0 :=
          mul_nonpos_of_nonneg_of_nonpos hpow (htoward.2 h)
        have := hbase.2 h
        omega

omit [KeepsRange δ] in
/-- What `set_curr_state` is asked for by an activation. -/
theorem exponential_increase_eq (htrend : d.trendIncrease = d.rising)
    (hbase : d.currPow ≠ 0 → d.Beyond d.basePowState) (tempMinState tempMaxState : Int) :
    ∃ base pow state, (pow ≠ 0 → d.Beyond base) ∧ (d.StepsUp tempMinState → d.Beyond state) ∧
      d.exponentialIncrease tempMinState tempMaxState =
        { d with basePowState := base, currPow := pow, trendIncrease := true }.setCurrState
          (d.thdClampStateMax state tempMaxState) true := by
  have hcurr : d.Beyond (d.thdClampStateMin d.readCurrState tempMinState) :=
    clamp_state_min_beyond _ _
  unfold exponentialIncrease
  cases hrising : d.rising with
  | true =>
      rw [hrising] at htrend
      have hbeyond : d.Beyond (if d.currPow = 0 then
          d.thdClampStateMin d.readCurrState tempMinState else d.basePowState) := by
        split
        · exact hcurr
        · exact hbase ‹_›
      refine ⟨_, _, _, fun _ => ?_, fun hsteps => ?_, rfl⟩
      · simpa [htrend] using hbeyond
      · have hfits := hsteps.fits
        simp only [increased, hrising, if_true, true_and] at hfits
        simp only [htrend, Bool.true_and, decide_eq_true_eq, if_true]
        exact increased_beyond hbeyond hsteps.toward rfl hfits
  | false =>
      rw [hrising] at htrend
      refine ⟨_, _, _, fun hpow => ?_, fun hsteps => ?_, rfl⟩
      · simp [htrend] at hpow
      · have hfits := hsteps.fits
        simp only [increased, hrising, Bool.false_eq_true, if_false, false_and, false_or] at hfits
        simp only [htrend, Bool.false_eq_true, if_false]
        show d.Beyond (int32 (d.thdClampStateMin d.readCurrState tempMinState + d.increment))
        rw [int32_eq_self hfits.1 hfits.2]
        obtain ⟨hup, hdown⟩ := hsteps.toward
        constructor
        · intro h
          have := hup h
          have := hcurr.1 h
          omega
        · intro h
          have := hdown h
          have := hcurr.2 h
          omega

/-- What may be applied only depends on the range of the device. -/
theorem Applicable.of_range {d' : Cdev δ} {limit : ZoneTripLimit}
    (h : d.Applicable limit) (hmin : d'.minState = d.minState) (hmax : d'.maxState = d.maxState) :
    d'.Applicable limit := by
  have hrange : ∀ state, d'.InRange state ↔ d.InRange state := by
    intro state
    unfold Device.InRange
    rw [hmin, hmax]
  have hbeyond : ∀ state, d'.Beyond state ↔ d.Beyond state := by
    intro state
    unfold Device.Beyond
    rw [hmin, hmax]
  refine ⟨fun hvalid => (hrange _).mpr (h.target hvalid), fun hclass hvalid => ?_⟩
  rw [hbeyond]
  exact h.max hclass hvalid

/-- A device with the range and the limits of a confined one has limits that may be applied. -/
theorem Confined.same_limits {d' : Cdev δ} (h : d.Confined) (hmin : d'.minState = d.minState)
    (hmax : d'.maxState = d.maxState) (hlimits : d'.zoneTripLimits = d.zoneTripLimits) :
    ∀ limit ∈ d'.zoneTripLimits, d'.Applicable limit := by
  intro limit hlimit
  rw [hlimits] at hlimit
  exact (h.limits limit hlimit).of_range hmin hmax

/-- A device stays confined when the class keeps to the range. -/
theorem Confined.of_kept (h : d.Confined) {result : Int × δ}
    (hkept : d.Kept KeepsRange.writes Sound result) :
    Confined { d with currState := result.1, priv := result.2 } := by
  refine ⟨hkept.sound, hkept.state, fun v hv => ?_, h.base, h.same_limits rfl rfl rfl⟩
  rcases hkept.writes v hv with hv | hv
  · exact h.writes v hv
  · exact hv

/-- Setting a state that the class accepts keeps a device confined. -/
theorem Confined.set_curr_state (h : d.Confined) {state : Int}
    (hstate : confines δ = true ∨ d.InRange state) (arg : Bool) :
    (d.setCurrState state arg).Confined :=
  h.of_kept (KeepsRange.set_curr_state d.toDevice state arg h.state h.sound hstate)

/-- So does setting a state in range without the checks. -/
theorem Confined.set_curr_state_raw (h : d.Confined) {state : Int} (hstate : d.InRange state)
    (arg : Bool) : (d.setCurrStateRaw state arg).Confined :=
  h.of_kept (KeepsRange.set_curr_state_raw d.toDevice state arg h.state h.sound hstate)

/-- An activation by the exponential controller. -/
theorem Confined.exponential_increase (h : d.Confined) (htrend : d.trendIncrease = d.rising)
    {tempMinState tempMaxState : Int} (hsteps : confines δ = false → d.StepsUp tempMinState)
    (hmax : confines δ = false → tempMaxState = 0 ∨ d.Beyond tempMaxState) :
    (d.exponentialIncrease tempMinState tempMaxState).Confined := by
  obtain ⟨base, pow, state, hbase, hstate, heq⟩ :=
    exponential_increase_eq htrend h.base tempMinState tempMaxState
  rw [heq]
  have hconfined :
      Confined { d with basePowState := base, currPow := pow, trendIncrease := true } :=
    ⟨h.sound, h.state, h.writes, hbase, h.same_limits rfl rfl rfl⟩
  refine hconfined.set_curr_state ?_ true
  cases hclass : confines δ with
  | true => exact .inl rfl
  | false => exact .inr (clamp_state_max_in_range (hstate (hsteps hclass)) (hmax hclass))

/-- A release by the exponential controller, which checks both ends of the range. -/
theorem Confined.exponential_decrease (h : d.Confined) : (d.exponentialDecrease 0 0).Confined := by
  unfold exponentialDecrease
  have hconfined : Confined { d with currPow := 0, trendIncrease := false } :=
    ⟨h.sound, h.state, h.writes, fun hpow => absurd rfl hpow, h.same_limits rfl rfl rfl⟩
  refine hconfined.set_curr_state (.inr ?_) false
  exact clamp_state_max_in_range (clamp_state_min_beyond _ _) (.inl rfl)

/-- The bookkeeping before the state is changed. -/
theorem Confined.begin_control (h : d.Confined) (state : Bool) (tm : Int) :
    (d.beginControl state tm).Confined := by
  have hget : d.getCurrState = d.currState := KeepsRange.get_curr_state d.toDevice
  refine ⟨h.sound, ?_, h.writes, fun hpow => ?_, h.same_limits rfl rfl rfl⟩
  · show d.InRange d.getCurrState
    rw [hget]
    exact h.state
  · refine h.base fun hzero => hpow ?_
    show (if d.getCurrState = d.minState then 0 else d.currPow) = 0
    rw [hzero, ite_self]

/-- A device at its minimum starts afresh, so only an activation away from it is a repeated one. -/
theorem begin_control_rising (state : Bool) (tm : Int) :
    (d.beginControl state tm).trendIncrease = d.rising ∧
      (d.beginControl state tm).rising = d.rising := by
  have hget : (d.beginControl state tm).getCurrState = d.getCurrState :=
    KeepsRange.get_curr_state _
  have htrend : (d.beginControl state tm).trendIncrease = d.rising := by
    show (if d.getCurrState = d.minState then false else d.trendIncrease) = d.rising
    unfold rising
    split <;> simp [*]
  refine ⟨htrend, ?_⟩
  unfold rising at htrend ⊢
  rw [htrend, hget]
  show (d.trendIncrease && decide (d.getCurrState ≠ d.minState) &&
    decide (d.getCurrState ≠ d.minState)) = _
  rw [Bool.and_assoc, Bool.and_self]

/-- The bookkeeping does not matter for the next sum. -/
theorem StepsUp.begin_control {tempMinState : Int} (h : d.StepsUp tempMinState) (state : Bool)
    (tm : Int) : (d.beginControl state tm).StepsUp tempMinState := by
  have hrising := (begin_control_rising (d := d) state tm).2
  have hsum : (d.beginControl state tm).increased tempMinState = d.increased tempMinState := by
    have hread : (d.beginControl state tm).readCurrState = d.readCurrState := by
      have hget : d.getCurrState = d.currState := KeepsRange.get_curr_state d.toDevice
      show CdevClass.readCurrState { d.toDevice with currState := d.getCurrState } = _
      rw [hget]
      rfl
    unfold increased
    simp only
    rw [hread, hrising]
    split
    · rename_i hup
      have hcurr : d.getCurrState ≠ d.minState := by
        unfold rising at hup
        simp only [Bool.and_eq_true, decide_eq_true_eq] at hup
        exact hup.2
      have hpow : (d.beginControl state tm).currPow = d.currPow := if_neg hcurr
      rw [hpow]
      rfl
    · rfl
  refine ⟨h.toward, ?_⟩
  rw [hsum, hrising]
  exact h.fits

/-! ## Calls -/

/-- An activation that comes to the exponential controller, unless there is a target. -/
def Stepwise (d : Cdev δ) (a : SetStateArgs) : Prop :=
  a.state = true ∧ a.hardTarget = false ∧ (a.pidParam.map (·.valid)).getD false = false ∧
    d.pidEnable = false

/-- The controlling part keeps a device confined. -/
theorem Confined.control (h : d.Confined) {a : SetStateArgs} (pid : Pid) (tm : Int) {valid : Bool}
    {target tempMinState tempMaxState : Int} (htarget : valid = true → d.InRange target)
    (hsteps : confines δ = false → valid = false → d.Stepwise a →
      d.StepsUp tempMinState ∧ (tempMaxState = 0 ∨ d.Beyond tempMaxState)) :
    (d.control a pid tm valid target tempMinState tempMaxState).1.Confined := by
  have hbegin := h.begin_control a.state tm
  unfold Cdev.control
  simp only
  split
  · rename_i hvalid
    have hrange : (d.beginControl a.state tm).InRange target := htarget hvalid
    have hset := hbegin.set_curr_state_raw hrange a.state
    exact ⟨hset.sound, hrange, hset.writes, hset.base, hset.same_limits rfl rfl rfl⟩
  rename_i hvalid
  split
  · exact hbegin.set_curr_state_raw (Device.in_range_max _) a.state
  rename_i hhard
  split
  · exact hbegin.set_curr_state_raw (clamp_range_in_range _) a.state
  rename_i hpid
  split
  · have hcontroller : ∀ pidCtrl, Confined { d.beginControl a.state tm with pidCtrl } :=
      fun _ => ⟨hbegin.sound, hbegin.state, hbegin.writes, hbegin.base,
        hbegin.same_limits rfl rfl rfl⟩
    exact (hcontroller _).set_curr_state_raw (clamp_range_in_range _) a.state
  rename_i henable
  split
  · rename_i hstate
    have hstep (hclass : confines δ = false) := hsteps hclass (Bool.not_eq_true _ ▸ hvalid)
      ⟨hstate, Bool.not_eq_true _ ▸ hhard, Bool.not_eq_true _ ▸ hpid, Bool.not_eq_true _ ▸ henable⟩
    have hrising := begin_control_rising (d := d) a.state tm
    refine hbegin.exponential_increase (hrising.1.trans hrising.2.symm) (fun hclass => ?_)
      (fun hclass => (hstep hclass).2)
    exact (hstep hclass).1.begin_control a.state tm
  · exact hbegin.exponential_decrease

omit [CdevClass δ] [KeepsRange δ] in
/-- A release asks for the minimum, for its own target or for that of another limit. -/
theorem release_target {a : SetStateArgs} {P : Int → Prop} (hmin : P d.minState)
    (hargs : a.targetStateValid = true → P a.targetValue)
    (hlimits : ∀ limit ∈ d.zoneTripLimits, limit.targetStateValid = true → P limit.targetValue)
    {valid : Bool} {target lo hi : Int} (h : (d.release a).2 = .control valid target lo hi)
    (hvalid : valid = true) : P target := by
  subst hvalid
  unfold release at h
  split at h
  · split at h
    · cases h
      exact hmin
    · cases h
  · rename_i limit hlast
    split at h
    · simp only at h
      split at h
      · rename_i next hnext
        have hmem : next ∈ d.zoneTripLimits :=
          List.dropLast_subset _ (List.mem_of_getLast? hnext)
        rw [Request.control.injEq] at h
        obtain ⟨hvalid, rfl, -⟩ := h
        exact hlimits next hmem hvalid
      · split at h
        · rw [Request.control.injEq] at h
          obtain ⟨-, rfl, -⟩ := h
          exact hmin
        · split at h
          · cases h
            exact hmin
          · rw [Request.control.injEq] at h
            obtain ⟨hvalid, rfl, -⟩ := h
            exact hargs hvalid
    · cases h

variable [StdSort]

omit [KeepsRange δ] in
/-- An activation applies one of the limits that it works with. -/
theorem activate_request {a : SetStateArgs} {tm : Int} {valid : Bool} {target lo hi : Int}
    (h : (d.activate a tm).2 = .control valid target lo hi) :
    ∃ limit ∈ d.limitsWith a, valid = limit.targetStateValid ∧ target = limit.targetValue ∧
      lo = limit.minState ∧ hi = limit.maxState := by
  unfold activate at h
  have hlimits : (if d.holds a.user = true then d.zoneTripLimits else d.addLimit a) =
      d.limitsWith a := rfl
  simp only [hlimits] at h
  split at h
  · cases h
  · rename_i limit hlast
    refine ⟨limit, List.mem_of_getLast? hlast, ?_⟩
    split at h
    · cases h
    · split at h
      · cases h
      · cases h
        exact ⟨rfl, rfl, rfl, rfl⟩

/-- The condition on the arguments of a call: a target is in range, and for a class that does not
confine the states itself the maximum of the trip is not on the wrong side of the minimum of the
device and the exponential controller moves towards the maximum. -/
structure Proper (d : Cdev δ) (a : SetStateArgs) : Prop where
  target : a.targetStateValid = true → d.InRange a.targetValue
  max : confines δ = false → a.state = true → a.targetStateValid = false → a.minMaxValid = true →
    a.maxState ≠ 0 → a.maxState ≠ tripPtInvalidTargetState → d.Beyond a.maxState
  steps : confines δ = false → d.Stepwise a → ∀ limit ∈ d.newLimit a :: d.zoneTripLimits,
    limit.targetStateValid = false → d.StepsUp limit.minState

omit [StdSort] in
/-- The new entry of such a call may be applied. -/
theorem Proper.new_limit {a : SetStateArgs} (h : d.Proper a) (hstate : a.state = true) :
    d.Applicable (d.newLimit a) := by
  refine ⟨h.target, fun hclass hvalid => ?_⟩
  show (if a.minMaxValid = true then
      if a.maxState = tripPtInvalidTargetState ∨ a.maxState = 0 then d.maxState else a.maxState
    else 0) = 0 ∨ d.Beyond (if a.minMaxValid = true then
      if a.maxState = tripPtInvalidTargetState ∨ a.maxState = 0 then d.maxState else a.maxState
    else 0)
  split
  · rename_i hminmax
    right
    split
    · exact ⟨fun h => h, fun h => le_of_lt h⟩
    · rename_i hmax
      exact h.max hclass hstate hvalid hminmax (fun hzero => hmax (.inr hzero))
        fun hinvalid => hmax (.inl hinvalid)
  · exact .inl rfl

/-- A call of `thd_cdev_set_state` keeps a device confined. -/
theorem Confined.set_state (h : d.Confined) {a : SetStateArgs} (ha : d.Proper a) (pid : Pid)
    (tm : Int) : (d.thdCdevSetState a pid tm).2.1.Confined := by
  have hwith : ∀ limits, (∀ limit ∈ limits, d.Applicable limit) →
      Confined { d with zoneTripLimits := limits } := fun limits hlimits =>
    ⟨h.sound, h.state, h.writes, h.base,
      fun limit hlimit => (hlimits limit hlimit).of_range rfl rfl⟩
  unfold thdCdevSetState
  split
  · exact h
  · cases hstate : a.state with
    | true =>
        have hmem : ∀ limit ∈ d.limitsWith a, d.Applicable limit := by
          intro limit hlimit
          obtain hlimit | ⟨-, rfl⟩ := mem_limits_with.mp hlimit
          · exact h.limits limit hlimit
          · exact ha.new_limit hstate
        have hconfined : Confined { d with zoneTripLimits := (d.activate a tm).1 } := by
          rw [activate_limits]
          exact hwith _ hmem
        simp only [if_true]
        cases hrequest : (d.activate a tm).2 with
        | done => exact hconfined
        | control valid target lo hi =>
            obtain ⟨limit, hlimit, rfl, rfl, rfl, rfl⟩ := activate_request hrequest
            refine hconfined.control pid tm (hmem limit hlimit).target ?_
            intro hclass hvalid hstepwise
            refine ⟨?_, (hmem limit hlimit).max hclass hvalid⟩
            have hmember : limit ∈ d.newLimit a :: d.zoneTripLimits := by
              obtain hold | ⟨-, rfl⟩ := mem_limits_with.mp hlimit
              · exact List.mem_cons_of_mem _ hold
              · exact List.mem_cons_self
            obtain ⟨htoward, hfits⟩ := ha.steps hclass hstepwise limit hmember hvalid
            exact ⟨htoward, hfits⟩
    | false =>
        have hconfined : Confined { d with zoneTripLimits := (d.release a).1 } := by
          rw [release_limits]
          refine hwith _ fun limit hlimit => h.limits limit ?_
          unfold withdraw at hlimit
          split at hlimit
          · exact List.dropLast_subset _ hlimit
          · exact hlimit
        simp only [Bool.false_eq_true, if_false]
        cases hrequest : (d.release a).2 with
        | done => exact hconfined
        | control valid target lo hi =>
            refine hconfined.control pid tm ?_ ?_
            · exact release_target (P := d.InRange) d.in_range_min ha.target
                (fun limit hlimit => (h.limits limit hlimit).target) hrequest
            · intro _ _ hstepwise
              exact absurd (hstate.symm.trans hstepwise.1) (by decide)

/-- `thd_cdev_set_min_state` keeps a device confined. -/
theorem Confined.set_min_state (h : d.Confined) (zoneId tripId tm : Int) :
    (d.thdCdevSetMinState zoneId tripId tm).Confined := by
  have htrend : Confined { d with trendIncrease := false } :=
    ⟨h.sound, h.state, h.writes, h.base, h.same_limits rfl rfl rfl⟩
  refine htrend.set_state
    ⟨fun _ => Device.in_range_min _, fun _ hstate => ?_, fun _ hstepwise => ?_⟩ .init tm
  · exact absurd hstate Bool.false_ne_true
  · exact absurd hstepwise.1 Bool.false_ne_true

end Cdev

/-! ## Runs -/

/-- What happens to a device: the two calls, and a change of what can be read from it. -/
inductive DeviceStep (δ : Type) where
  | setState (a : SetStateArgs) (pid : Pid) (tm : Int)
  | setMinState (zoneId tripId tm : Int)
  | outside (priv : δ)

namespace DeviceStep

open KeepsRange (writes Sound)

variable {δ : Type} [CdevClass δ] [StdSort]

/-- The device afterwards. -/
def apply (d : Cdev δ) : DeviceStep δ → Cdev δ
  | .setState a pid tm => (d.thdCdevSetState a pid tm).2.1
  | .setMinState zoneId tripId tm => d.thdCdevSetMinState zoneId tripId tm
  | .outside priv => { d with priv }

variable [KeepsRange δ]

/-- The condition on a call. A change outside is none of what was written or is assumed of the
class. -/
def StaysInRange (d : Cdev δ) : DeviceStep δ → Prop
  | .setState a _ _ => d.Proper a
  | .setMinState _ _ _ => True
  | .outside priv => writes priv = writes d.priv ∧ Sound d.minState d.maxState priv

/-- One step. -/
theorem confined_apply {d : Cdev δ} {call : DeviceStep δ} (h : d.Confined)
    (hcall : call.StaysInRange d) :
    (call.apply d).Confined := by
  cases call with
  | setState a pid tm => exact h.set_state hcall pid tm
  | setMinState zoneId tripId tm => exact h.set_min_state zoneId tripId tm
  | outside priv =>
      obtain ⟨hwrites, hsound⟩ := hcall
      exact ⟨hsound, h.state, fun v hv => h.writes v (hwrites ▸ hv), h.base,
        h.same_limits rfl rfl rfl⟩

end DeviceStep

/-- From a device whose recorded state is in range and that has not been activated, calls that meet
their condition keep the recorded state and all states that are written in range. -/
theorem states_in_range {δ : Type} [CdevClass δ] [StdSort] [KeepsRange δ] {d : Cdev δ}
    (hsound : KeepsRange.Sound d.minState d.maxState d.priv) (hstate : d.WithinRange)
    (hpow : d.currPow = 0) (hlimits : d.zoneTripLimits = []) {calls : List (DeviceStep δ)}
    (hcalls : Meets DeviceStep.apply (fun d call => call.StaysInRange d) d calls) :
    ∀ pre, pre <+: calls → (run DeviceStep.apply d pre).WithinRange := by
  have hstart : d.Confined :=
    ⟨hsound, hstate.1, hstate.2, fun hne => absurd hpow hne, by simp [hlimits]⟩
  intro pre hpre
  have hconfined : (run DeviceStep.apply d pre).Confined :=
    run_invariant hstart (fun d call _ hd hcall => DeviceStep.confined_apply hd hcall)
      (hcalls.of_prefix hpre)
  exact ⟨hconfined.state, hconfined.writes⟩

/-- An activation, with a target or by steps. -/
def activation {δ : Type} (target : Option Int) (tm : Int) : DeviceStep δ :=
  .setState
    { targetTemp := 0, temperature := 0, hardTarget := false, state := true, zoneId := 0
      tripId := 0, targetStateValid := target.isSome, targetValue := target.getD 0, pidParam := none
      force := false, minMaxValid := false, minState := 0, maxState := 0 } .init tm

/-- A device with the states 0 to 10. -/
def upToTen {δ : Type} (priv : δ) : Cdev δ := { Cdev.init 0 priv with maxState := 10 }

/-- A power limit between 10 and 25 watts. -/
def powerLimit : Cdev Rapl :=
  { Cdev.init 0
      { biosLocked := false, constrained := false, powerOnConstraintPwr := 0
        powerOnConstraintTimeWindow := 28000000, powerOnEnableStatus := 1, pl0MinWindow := 0
        dynamicPhyMaxEnable := false, pl1 := 25000000, power := 9000000, updateResult := 8
        writes := [] } with
    minState := 25000000, maxState := 10000000, currState := 25000000, incDecVal := -500000 }

/-- A device of each class: a target, a step and a power limit. -/
theorem activations_in_range :
    letI := StdSort.insertion
    (run DeviceStep.apply (upToTen (⟨[]⟩ : BaseCdev)) [activation (some 7) 100]).WithinRange ∧
      (run DeviceStep.apply (upToTen (⟨"", []⟩ : GenSysfs)) [activation none 100]).WithinRange ∧
      (run DeviceStep.apply powerLimit
        [activation none 100, .setMinState 0 0 105]).WithinRange := by
  let _ := StdSort.insertion
  refine ⟨?_, ?_, ?_⟩
  · refine states_in_range trivial ⟨by decide, by decide⟩ rfl rfl
      (show Meets _ _ _ [_] from ⟨?_, trivial⟩) _ (List.prefix_refl _)
    refine ⟨fun _ => by decide, fun _ _ h => absurd h (by decide), ?_⟩
    intro _ _ limit hlimit hvalid
    rw [List.mem_singleton.mp hlimit] at hvalid
    exact absurd hvalid (by decide)
  · refine states_in_range trivial ⟨by decide, by decide⟩ rfl rfl
      (show Meets _ _ _ [_] from ⟨?_, trivial⟩) _ (List.prefix_refl _)
    refine ⟨fun h => absurd h (by decide), fun _ _ _ h => absurd h (by decide), ?_⟩
    intro _ _ limit hlimit _
    rw [List.mem_singleton.mp hlimit]
    exact ⟨⟨fun _ => by decide, fun h => absurd h (by decide)⟩, .inr ⟨by decide, by decide⟩⟩
  · have hsound : Rapl.Sound 25000000 10000000 powerLimit.priv :=
      ⟨by decide, by decide, fun h => absurd rfl h⟩
    refine states_in_range (d := powerLimit) hsound ⟨by decide, by decide⟩ rfl rfl
      (show Meets _ _ _ [activation none 100, .setMinState 0 0 105] from ⟨?_, trivial, trivial⟩) _
      (List.prefix_refl _)
    exact ⟨fun h => absurd h (by decide), fun h => absurd h (by decide),
      fun h => absurd h (by decide)⟩

/-- A target above the maximum is recorded as it is. -/
theorem target_recorded_out_of_range :
    letI := StdSort.insertion
    ¬ (run DeviceStep.apply (upToTen (⟨[]⟩ : BaseCdev))
      [activation (some 20) 100]).WithinRange := by
  let _ := StdSort.insertion
  intro h
  obtain ⟨hstate, -⟩ := h
  have hcurr : ¬ (run DeviceStep.apply (upToTen (⟨[]⟩ : BaseCdev))
      [activation (some 20) 100]).InRange
      (run DeviceStep.apply (upToTen (⟨[]⟩ : BaseCdev)) [activation (some 20) 100]).currState := by
    decide +kernel
  exact hcurr hstate

end Thermald
