import Thermald.Adaptive.Engine
import Thermald.Cooling.RaplStates

/-!
# Adaptive targets of a power limit

`set_adaptive_target` of `cthd_sysfs_cdev_rapl` moves one end of the range of powers at a time, and
brings the current state back between the ends with `set_curr_state`. That function looks at the
other end too, which the next target may be about to move, and it restores the power limit of the
start wherever it is asked for the highest power.

`targets_in_range` gives the conditions under which the state is within the range after any number
of targets, and under which the order of the two ends does not matter.
-/

namespace Thermald

open Gddv (ascii AdaptiveTarget)

/-- The codes of `set_adaptive_target`. -/
inductive RaplCode where
  | pl1Max
  | pl1Min
  | pl1Step
  | pl1TimeWindow
  | pl1PowerLimit
  | pl2PowerLimit
  | tccOffset
  deriving DecidableEq, Repr

/-- The texts of the codes. -/
def RaplCode.ofText (code : Bytes) : Option RaplCode :=
  if code = ascii "PL1MAX" then some .pl1Max
  else if code = ascii "PL1MIN" then some .pl1Min
  else if code = ascii "PL1STEP" then some .pl1Step
  else if code = ascii "PL1TimeWindow" then some .pl1TimeWindow
  else if code = ascii "PL1PowerLimit" then some .pl1PowerLimit
  else if code = ascii "PL2PowerLimit" then some .pl2PowerLimit
  else if code = ascii "TccOffset" then some .tccOffset
  else none

/-- A call of `set_adaptive_target`: the code, the number of the argument, and what `rapl_read_pl1`
returns in this call, which is `THD_ERROR` if the read fails. -/
structure TargetCall where
  code : RaplCode
  argument : Int
  pl1Rapl : Int
  deriving DecidableEq, Repr

/-- The argument in microwatts. -/
def TargetCall.power (t : TargetCall) : Int := int32 (t.argument * 1000)

namespace Rapl

/-- `set_adaptive_target`. The last two codes are about other files. -/
def setAdaptiveTarget (d : Cdev Rapl) (t : TargetCall) : Cdev Rapl :=
  match t.code with
  | .pl1Max =>
      let d := { d with minState := t.power }
      let d := if t.pl1Rapl < d.currState then d.setCurrState t.pl1Rapl true else d
      if d.minState < d.currState then d.setCurrState d.minState true else d
  | .pl1Min =>
      let d := { d with maxState := t.power }
      if d.currState < d.maxState then d.setCurrState d.maxState true else d
  | .pl1Step => { d with incVal := int32 (-t.power * 2), decVal := int32 (-t.power) }
  | .pl1TimeWindow => { d with priv := { d.priv with pl0MinWindow := t.power } }
  | .pl1PowerLimit =>
      { d with
        priv := { d.priv with writes := d.priv.writes ++ [.powerLimit (uint32 t.power)] } }
  | .pl2PowerLimit => d
  | .tccOffset => d

/-- `set_adaptive_target` as the adaptive engine calls it. -/
def setTarget (d : Cdev Rapl) (target : AdaptiveTarget) : Cdev Rapl :=
  match RaplCode.ofText target.code, stoi target.argument with
  | some code, some argument => setAdaptiveTarget d ⟨code, argument, d.priv.pl1⟩
  | _, _ => d

/-- The text members of a device are not the business of a target. -/
theorem set_target_names (d : Cdev Rapl) (t : TargetCall) :
    (setAdaptiveTarget d t).typeStr = d.typeStr ∧
      (setAdaptiveTarget d t).aliasStr = d.aliasStr := by
  unfold setAdaptiveTarget
  cases t.code with
  | pl1Max =>
      dsimp only
      split <;> split <;> exact ⟨rfl, rfl⟩
  | pl1Min =>
      dsimp only
      split <;> exact ⟨rfl, rfl⟩
  | _ => exact ⟨rfl, rfl⟩

theorem set_adaptive_names (d : Cdev Rapl) (target : AdaptiveTarget) :
    (setTarget d target).typeStr = d.typeStr ∧ (setTarget d target).aliasStr = d.aliasStr := by
  unfold setTarget
  split
  · exact set_target_names ..
  · exact ⟨rfl, rfl⟩

end Rapl

/-- Power limits are devices of the adaptive engine. -/
instance : AdaptiveCdev Rapl where
  setAdaptiveTarget := Rapl.setTarget
  type_str_eq d target := (Rapl.set_adaptive_names d target).1
  alias_str_eq d target := (Rapl.set_adaptive_names d target).2

namespace Rapl

/-! ## One request -/

/-- The state that `set_curr_state` records. -/
def recorded (d : Cdev Rapl) (state : Int) : Int :=
  if d.priv.biosLocked then if state ≤ d.incDecVal then d.minState else d.maxState
  else if d.minState ≤ max state d.maxState then
    if d.priv.powerOnConstraintPwr ≠ 0 then d.priv.powerOnConstraintPwr else d.minState
  else max state d.maxState

variable {d : Cdev Rapl} {t : TargetCall}

theorem set_curr_state_recorded (d : Cdev Rapl) (state : Int) (control : Bool) :
    (d.setCurrState state control).currState = recorded d state := by
  show (setCurrState d.toDevice state control).1 = _
  unfold setCurrState recorded
  have hmax : (if state < d.maxState then d.maxState else state) = max state d.maxState := by
    split <;> omega
  dsimp only
  rw [hmax]
  split
  · rfl
  · split <;> rfl

/-- What a request for a state leaves alone. -/
structure Kept (r r' : Rapl) : Prop where
  power : r'.powerOnConstraintPwr = r.powerOnConstraintPwr
  updateResult : r'.updateResult = r.updateResult
  locked : r.updateResult ≠ -enodata → r'.biosLocked = r.biosLocked

theorem Kept.trans {r r' r'' : Rapl} (h : Kept r r') (h' : Kept r' r'') : Kept r r'' where
  power := h'.power.trans h.power
  updateResult := h'.updateResult.trans h.updateResult
  locked := fun hresult =>
    (h'.locked (by rw [h.updateResult]; exact hresult)).trans (h.locked hresult)

theorem kept_unconstrain (r : Rapl) : Kept r r.unconstrain := by
  unfold unconstrain
  split <;> exact ⟨rfl, rfl, fun _ => rfl⟩

theorem kept_constrain (r : Rapl) : Kept r r.constrain := by
  unfold constrain
  generalize (if r.pl0MinWindow ≠ 0 then r.pl0MinWindow else defRaplTimeWindow) = window
  dsimp only
  split <;> exact ⟨rfl, rfl, fun _ => rfl⟩

theorem kept_update (r : Rapl) (pl1 : Int) : Kept r (r.raplUpdatePl1 pl1) := by
  refine ⟨rfl, rfl, fun hresult => ?_⟩
  simp [raplUpdatePl1, hresult]

/-- A request changes the private data in its writes, in the flag of the first activation, and in
the lock if the write shows it. -/
theorem set_curr_state_private (d : Cdev Rapl) (state : Int) (control : Bool) :
    Kept d.priv (d.setCurrState state control).priv := by
  show Kept d.priv (setCurrState d.toDevice state control).2
  unfold setCurrState
  dsimp only
  generalize (if state < d.maxState then d.maxState else state) = newState
  split
  · exact ⟨rfl, rfl, fun _ => rfl⟩
  · split
    · exact (kept_unconstrain _).trans (kept_update _ _)
    · dsimp only
      split
      · exact (kept_constrain _).trans (kept_update _ _)
      · exact kept_update _ _

/-! ## One target -/

/-- The state is not above the range, and not below it if the ends are in order. -/
def BelowTop (d : Cdev Rapl) : Prop :=
  d.currState ≤ d.minState ∧ (d.maxState ≤ d.minState → d.maxState ≤ d.currState)

/-- The call makes `set_curr_state` restore the power limit of the start. -/
def Restores (d : Cdev Rapl) (t : TargetCall) : Prop :=
  match t.code with
  | .pl1Max =>
      (t.pl1Rapl < d.currState ∧ t.power ≤ max t.pl1Rapl d.maxState) ∨
        (d.currState ≤ t.pl1Rapl ∧ t.power < d.currState)
  | .pl1Min => d.currState < t.power ∧ d.minState ≤ t.power
  | _ => False

/-- The lower end of the range, which is `max_state`, after the call. -/
def lowAfter (d : Cdev Rapl) (t : TargetCall) : Int :=
  if t.code = .pl1Min then t.power else d.maxState

/-- The upper end of the range, which is `min_state`, after the call. -/
def highAfter (d : Cdev Rapl) (t : TargetCall) : Int :=
  if t.code = .pl1Max then t.power else d.minState

/-- A call that keeps the state within the range. The power limit of the start is only restored
where it is within the range; ends in the wrong order are put in order by moving the lower end,
unless the power limit read is below the state; and the ends of a locked device are in order. -/
structure KeepsRange (d : Cdev Rapl) (t : TargetCall) : Prop where
  restored : d.priv.biosLocked = false → Restores d t → d.priv.powerOnConstraintPwr ≠ 0 →
    d.priv.powerOnConstraintPwr ≤ highAfter d t ∧
      (lowAfter d t ≤ highAfter d t → lowAfter d t ≤ d.priv.powerOnConstraintPwr)
  raised : t.code = .pl1Max → d.minState < d.maxState → d.maxState ≤ t.power →
    t.pl1Rapl < d.currState
  locked : d.priv.biosLocked = true → lowAfter d t ≤ highAfter d t

@[simp] theorem set_target_max_state (d : Cdev Rapl) (t : TargetCall) :
    (setAdaptiveTarget d t).maxState = lowAfter d t := by
  unfold setAdaptiveTarget lowAfter
  cases t.code with
  | pl1Max =>
      dsimp only
      split <;> split <;> rfl
  | pl1Min =>
      dsimp only
      split <;> rfl
  | _ => rfl

@[simp] theorem set_target_min_state (d : Cdev Rapl) (t : TargetCall) :
    (setAdaptiveTarget d t).minState = highAfter d t := by
  unfold setAdaptiveTarget highAfter
  cases t.code with
  | pl1Max =>
      dsimp only
      split <;> split <;> rfl
  | pl1Min =>
      dsimp only
      split <;> rfl
  | _ => rfl

/-- `PL1MAX`, if the first request does not lead above the new upper end. -/
theorem pl1_max_curr_state (hcode : t.code = .pl1Max)
    (hfirst : t.pl1Rapl < d.currState →
      recorded { d with minState := t.power } t.pl1Rapl ≤ t.power) :
    (setAdaptiveTarget d t).currState =
      if t.pl1Rapl < d.currState then recorded { d with minState := t.power } t.pl1Rapl
      else if t.power < d.currState then recorded { d with minState := t.power } t.power
      else d.currState := by
  unfold setAdaptiveTarget
  rw [hcode]
  dsimp only
  by_cases hread : t.pl1Rapl < d.currState
  · rw [if_pos hread, if_pos hread, set_curr_state_recorded]
    have hbelow := hfirst hread
    rw [if_neg (by show ¬t.power < _; omega), set_curr_state_recorded]
  · rw [if_neg hread, if_neg hread]
    dsimp only
    split
    · exact set_curr_state_recorded _ _ _
    · rfl

/-- `PL1MIN`. -/
theorem pl1_min_curr_state (hcode : t.code = .pl1Min) :
    (setAdaptiveTarget d t).currState =
      if d.currState < t.power then recorded { d with maxState := t.power } t.power
      else d.currState := by
  unfold setAdaptiveTarget
  rw [hcode]
  dsimp only
  split
  · exact set_curr_state_recorded _ _ _
  · rfl

/-- What is recorded is within the range, if it is not a power limit of the start outside of it, and
if the ends of a locked device are in order. -/
theorem recorded_within (d : Cdev Rapl) (state : Int)
    (hrestored : d.priv.biosLocked = false → d.minState ≤ max state d.maxState →
      d.priv.powerOnConstraintPwr ≠ 0 → d.priv.powerOnConstraintPwr ≤ d.minState ∧
        (d.maxState ≤ d.minState → d.maxState ≤ d.priv.powerOnConstraintPwr))
    (hlocked : d.priv.biosLocked = true → d.maxState ≤ d.minState) :
    recorded d state ≤ d.minState ∧
      (d.maxState ≤ d.minState → d.maxState ≤ recorded d state) := by
  unfold recorded
  cases hlock : d.priv.biosLocked with
  | true =>
      have horder := hlocked hlock
      rw [if_pos rfl]
      split <;> omega
  | false =>
      rw [if_neg Bool.false_ne_true]
      by_cases hhigh : d.minState ≤ max state d.maxState
      · rw [if_pos hhigh]
        split
        next hpower => exact hrestored hlock hhigh hpower
        next => omega
      · rw [if_neg hhigh]
        omega

/-- `PL1MAX` keeps the state below the upper end. -/
theorem BelowTop.pl1Max (h : BelowTop d) (hcode : t.code = .pl1Max) (hok : KeepsRange d t) :
    BelowTop (setAdaptiveTarget d t) := by
  have hlow : lowAfter d t = d.maxState := by simp [lowAfter, hcode]
  have hhigh : highAfter d t = t.power := by simp [highAfter, hcode]
  have hwithin : ∀ state, (t.pl1Rapl < d.currState ∧ state = t.pl1Rapl) ∨
      (d.currState ≤ t.pl1Rapl ∧ t.power < d.currState ∧ state = t.power) →
      recorded { d with minState := t.power } state ≤ t.power ∧
        (d.maxState ≤ t.power →
          d.maxState ≤ recorded { d with minState := t.power } state) := by
    intro state hstate
    refine recorded_within { d with minState := t.power } state ?_ ?_
    · intro hlock hrange hpower
      have hrestores : Restores d t := by
        unfold Restores
        rw [hcode]
        obtain ⟨hread, rfl⟩ | ⟨hread, habove, rfl⟩ := hstate
        · exact .inl ⟨hread, hrange⟩
        · exact .inr ⟨hread, habove⟩
      have := hok.restored hlock hrestores hpower
      rwa [hlow, hhigh] at this
    · intro hlock
      have := hok.locked hlock
      rwa [hlow, hhigh] at this
  unfold BelowTop
  rw [set_target_max_state, set_target_min_state, hlow, hhigh,
    pl1_max_curr_state hcode fun hread => (hwithin _ (.inl ⟨hread, rfl⟩)).1]
  split_ifs with hread habove
  · exact hwithin _ (.inl ⟨hread, rfl⟩)
  · exact hwithin _ (.inr ⟨by omega, habove, rfl⟩)
  · -- nothing is requested, so the ends must have been in order before
    refine ⟨by omega, fun horder => ?_⟩
    by_cases hbefore : d.maxState ≤ d.minState
    · exact h.2 hbefore
    · exact absurd (hok.raised hcode (by omega) horder) hread

/-- `PL1MIN` keeps the state below the upper end, and puts ends in the wrong order in order. -/
theorem BelowTop.pl1Min (h : BelowTop d) (hcode : t.code = .pl1Min) (hok : KeepsRange d t) :
    BelowTop (setAdaptiveTarget d t) := by
  have hlow : lowAfter d t = t.power := by simp [lowAfter, hcode]
  have hhigh : highAfter d t = d.minState := by simp [highAfter, hcode]
  unfold BelowTop
  rw [set_target_max_state, set_target_min_state, hlow, hhigh, pl1_min_curr_state hcode]
  split_ifs with hbelow
  · refine recorded_within { d with maxState := t.power } t.power ?_ ?_
    · intro hlock hrange hpower
      have hrestores : Restores d t := by
        unfold Restores
        rw [hcode]
        refine ⟨hbelow, ?_⟩
        have hrange : d.minState ≤ max t.power t.power := hrange
        omega
      have := hok.restored hlock hrestores hpower
      rwa [hlow, hhigh] at this
    · intro hlock
      have := hok.locked hlock
      rwa [hlow, hhigh] at this
  · exact ⟨h.1, fun _ => by omega⟩

/-- A target keeps the state below the upper end. -/
theorem BelowTop.target (h : BelowTop d) (hok : KeepsRange d t) :
    BelowTop (setAdaptiveTarget d t) := by
  cases hcode : t.code with
  | pl1Max => exact h.pl1Max hcode hok
  | pl1Min => exact h.pl1Min hcode hok
  | _ =>
      unfold setAdaptiveTarget
      rw [hcode]
      exact h

/-! ## Two targets in both orders -/

/-- A target for one end of the range leaves alone what a request leaves alone. -/
theorem set_target_private (hcode : t.code = .pl1Max ∨ t.code = .pl1Min) :
    Kept d.priv (setAdaptiveTarget d t).priv ∧
      (setAdaptiveTarget d t).incDecVal = d.incDecVal := by
  have hrefl : Kept d.priv d.priv := ⟨rfl, rfl, fun _ => rfl⟩
  unfold setAdaptiveTarget
  obtain hcode | hcode := hcode
  · rw [hcode]
    dsimp only
    split <;> split
    · exact ⟨(set_curr_state_private { d with minState := t.power } _ _).trans
        (set_curr_state_private _ _ _), rfl⟩
    · exact ⟨set_curr_state_private { d with minState := t.power } _ _, rfl⟩
    · exact ⟨set_curr_state_private { d with minState := t.power } _ _, rfl⟩
    · exact ⟨hrefl, rfl⟩
  · rw [hcode]
    dsimp only
    split
    · exact ⟨set_curr_state_private { d with maxState := t.power } _ _, rfl⟩
    · exact ⟨hrefl, rfl⟩

/-- The power that is restored at the upper end of the range. -/
def restoredPower (d : Cdev Rapl) (high : Int) : Int :=
  if d.priv.powerOnConstraintPwr ≠ 0 then d.priv.powerOnConstraintPwr else high

/-- `PL1MAX` on a device that is not locked, above the lower end. -/
theorem pl1_max_unlocked (hcode : t.code = .pl1Max) (hlock : d.priv.biosLocked = false)
    (horder : d.maxState < t.power) (hpower : restoredPower d t.power ≤ t.power) :
    (setAdaptiveTarget d t).currState =
      if t.pl1Rapl < d.currState then
        if t.power ≤ t.pl1Rapl then restoredPower d t.power else max t.pl1Rapl d.maxState
      else if t.power < d.currState then restoredPower d t.power else d.currState := by
  have hrecorded : ∀ state, recorded { d with minState := t.power } state =
      if t.power ≤ state then restoredPower d t.power else max state d.maxState := by
    intro state
    have hrange : t.power ≤ max state d.maxState ↔ t.power ≤ state := by omega
    simp only [recorded, hlock, Bool.false_eq_true, if_false, hrange]
    rfl
  rw [pl1_max_curr_state hcode, hrecorded, hrecorded, if_pos (le_refl t.power)]
  intro _
  rw [hrecorded]
  split <;> omega

/-- `PL1MAX` on a locked device. -/
theorem pl1_max_locked (hcode : t.code = .pl1Max) (hlock : d.priv.biosLocked = true)
    (horder : d.maxState < t.power) (hread : d.incDecVal < t.pl1Rapl)
    (hpower : d.incDecVal < t.power) :
    (setAdaptiveTarget d t).currState =
      if t.pl1Rapl < d.currState ∨ t.power < d.currState then d.maxState else d.currState := by
  have hrecorded : ∀ state, d.incDecVal < state →
      recorded { d with minState := t.power } state = d.maxState := by
    intro state hstate
    have hnot : ¬state ≤ d.incDecVal := by omega
    simp only [recorded, hlock, if_true, hnot, if_false]
  rw [pl1_max_curr_state hcode, hrecorded _ hread, hrecorded _ hpower]
  · split_ifs <;> omega
  · intro _
    rw [hrecorded _ hread]
    omega

/-- `PL1MIN` below the upper end raises the state to the new lower end. -/
theorem pl1_min_raises (hcode : t.code = .pl1Min) (horder : t.power < d.minState)
    (hlock : d.priv.biosLocked = true → d.incDecVal < t.power) :
    (setAdaptiveTarget d t).currState = max d.currState t.power := by
  have hrecorded : recorded { d with maxState := t.power } t.power = t.power := by
    unfold recorded
    cases hlocked : d.priv.biosLocked with
    | true =>
        have hnot : ¬t.power ≤ d.incDecVal := by
          have := hlock hlocked
          omega
        rw [if_pos rfl, if_neg hnot]
    | false =>
        have hnot : ¬d.minState ≤ max t.power t.power := by omega
        rw [if_neg Bool.false_ne_true, if_neg hnot]
        exact max_self t.power
  rw [pl1_min_curr_state hcode, hrecorded]
  split <;> omega

/-- `PL1MAX` with the argument `upper` and `PL1MIN` with the argument `lower` for a device within
its range. The power limit is read as `pl1Rapl` if `PL1MAX` comes first, and as `pl1Rapl'` if it
comes second; that is the same unless the first target has written one. -/
structure EndsPair where
  upper : Int
  lower : Int
  pl1Rapl : Int
  pl1Rapl' : Int

namespace EndsPair

variable (p : EndsPair)

/-- The new upper end. -/
def high : Int := int32 (p.upper * 1000)

/-- The new lower end. -/
def low : Int := int32 (p.lower * 1000)

/-- The upper end first. -/
def upperFirst (d : Cdev Rapl) : Cdev Rapl :=
  run setAdaptiveTarget d [⟨.pl1Max, p.upper, p.pl1Rapl⟩, ⟨.pl1Min, p.lower, p.pl1Rapl⟩]

/-- The lower end first. -/
def lowerFirst (d : Cdev Rapl) : Cdev Rapl :=
  run setAdaptiveTarget d [⟨.pl1Min, p.lower, p.pl1Rapl'⟩, ⟨.pl1Max, p.upper, p.pl1Rapl'⟩]

/-- The new ends are in order with each other and with the old ones, the power limit of the start is
within them, and no write shows that the device is locked. -/
structure Fits (d : Cdev Rapl) : Prop where
  within : d.maxState ≤ d.currState ∧ d.currState ≤ d.minState
  order : p.low < p.high ∧ d.maxState < p.high ∧ p.low < d.minState
  power : d.priv.powerOnConstraintPwr ≠ 0 →
    p.low ≤ d.priv.powerOnConstraintPwr ∧ d.priv.powerOnConstraintPwr ≤ p.high
  writes : d.priv.updateResult ≠ -enodata
  read : p.low ≤ d.currState → p.pl1Rapl' = p.pl1Rapl
  locked : d.priv.biosLocked = true →
    d.incDecVal < p.pl1Rapl ∧ d.incDecVal < p.pl1Rapl' ∧ d.incDecVal < p.low

/-- The power limit that is read is not below the state, or not below the new upper end, or the old
lower end is not above it or the new lower end. A locked device does not care for the second, and
compares with the new lower end only. -/
def OrderFree (d : Cdev Rapl) : Prop :=
  if d.priv.biosLocked then
    (d.currState ≤ p.pl1Rapl ∧ d.currState ≤ p.high) ∨ d.maxState ≤ p.low
  else
    d.currState ≤ p.pl1Rapl ∨ p.high ≤ p.pl1Rapl ∨ d.maxState ≤ max p.pl1Rapl p.low

variable {p}

/-- The ends of the range are the new ones in both orders. -/
theorem ends (p : EndsPair) (d : Cdev Rapl) :
    ((p.upperFirst d).minState = p.high ∧ (p.upperFirst d).maxState = p.low) ∧
      (p.lowerFirst d).minState = p.high ∧ (p.lowerFirst d).maxState = p.low := by
  simp [upperFirst, lowerFirst, lowAfter, highAfter, TargetCall.power, high, low]

/-- The power that is restored at the new upper end is within the new range. -/
theorem Fits.restored (h : p.Fits d) :
    p.low ≤ restoredPower d p.high ∧ restoredPower d p.high ≤ p.high := by
  have horder := h.order.1
  unfold restoredPower
  split
  next hne => exact h.power hne
  next => omega

/-- The state of a device that is not locked if the upper end comes first. -/
theorem Fits.upper_first_unlocked (h : p.Fits d) (hlock : d.priv.biosLocked = false) :
    (p.upperFirst d).currState =
      max (if p.pl1Rapl < d.currState then
        if p.high ≤ p.pl1Rapl then restoredPower d p.high else max p.pl1Rapl d.maxState
      else if p.high < d.currState then restoredPower d p.high else d.currState) p.low := by
  have hkept := (set_target_private (d := d) (t := ⟨.pl1Max, p.upper, p.pl1Rapl⟩) (.inl rfl)).1
  have hfirst := pl1_max_unlocked (d := d) (t := ⟨.pl1Max, p.upper, p.pl1Rapl⟩) rfl hlock
    h.order.2.1 h.restored.2
  have hsecond := pl1_min_raises
    (d := setAdaptiveTarget d ⟨.pl1Max, p.upper, p.pl1Rapl⟩)
    (t := ⟨.pl1Min, p.lower, p.pl1Rapl⟩) rfl (by rw [set_target_min_state]; exact h.order.1)
    (by rw [hkept.locked h.writes, hlock]; exact fun hfalse => absurd hfalse Bool.false_ne_true)
  rw [hfirst] at hsecond
  exact hsecond

/-- The state of a device that is not locked if the lower end comes first. -/
theorem Fits.lower_first_unlocked (h : p.Fits d) (hlock : d.priv.biosLocked = false) :
    (p.lowerFirst d).currState =
      if p.pl1Rapl' < max d.currState p.low then
        if p.high ≤ p.pl1Rapl' then restoredPower d p.high else max p.pl1Rapl' p.low
      else if p.high < max d.currState p.low then restoredPower d p.high
      else max d.currState p.low := by
  have hkept := (set_target_private (d := d) (t := ⟨.pl1Min, p.lower, p.pl1Rapl'⟩) (.inr rfl)).1
  have hfirst := pl1_min_raises (d := d) (t := ⟨.pl1Min, p.lower, p.pl1Rapl'⟩) rfl h.order.2.2
    (by rw [hlock]; exact fun hfalse => absurd hfalse Bool.false_ne_true)
  have hsame : restoredPower (setAdaptiveTarget d ⟨.pl1Min, p.lower, p.pl1Rapl'⟩) p.high =
      restoredPower d p.high := by
    unfold restoredPower
    rw [hkept.power]
  have hsecond := pl1_max_unlocked
    (d := setAdaptiveTarget d ⟨.pl1Min, p.lower, p.pl1Rapl'⟩)
    (t := ⟨.pl1Max, p.upper, p.pl1Rapl'⟩) rfl (by rw [hkept.locked h.writes, hlock])
    (by rw [set_target_max_state]; exact h.order.1)
    (show restoredPower _ p.high ≤ p.high by rw [hsame]; exact h.restored.2)
  have hlow : (setAdaptiveTarget d ⟨.pl1Min, p.lower, p.pl1Rapl'⟩).maxState = p.low :=
    set_target_max_state ..
  rw [hfirst, hlow] at hsecond
  rw [← hsame]
  exact hsecond

/-- The state is the same in both orders on a device that is not locked. -/
theorem Fits.unlocked (h : p.Fits d) (hlock : d.priv.biosLocked = false) :
    (p.upperFirst d).currState = (p.lowerFirst d).currState ↔ p.OrderFree d := by
  obtain ⟨horder, hmax, hmin⟩ := h.order
  obtain ⟨hwithin, hwithin'⟩ := h.within
  obtain ⟨hpower, hpower'⟩ := h.restored
  rw [h.upper_first_unlocked hlock, h.lower_first_unlocked hlock]
  unfold OrderFree
  rw [hlock, if_neg Bool.false_ne_true]
  generalize restoredPower d p.high = restored at hpower hpower' ⊢
  by_cases hlow : p.low ≤ d.currState
  · rw [h.read hlow]
    split_ifs <;> omega
  · split_ifs <;> omega

/-- The state of a locked device if the upper end comes first. -/
theorem Fits.upper_first_locked (h : p.Fits d) (hlock : d.priv.biosLocked = true) :
    (p.upperFirst d).currState =
      max (if p.pl1Rapl < d.currState ∨ p.high < d.currState then d.maxState
        else d.currState) p.low := by
  obtain ⟨hread, -, hlow⟩ := h.locked hlock
  have hinc := (set_target_private (d := d) (t := ⟨.pl1Max, p.upper, p.pl1Rapl⟩) (.inl rfl)).2
  have hfirst := pl1_max_locked (d := d) (t := ⟨.pl1Max, p.upper, p.pl1Rapl⟩) rfl hlock
    h.order.2.1 hread (hlow.trans h.order.1)
  have hsecond := pl1_min_raises
    (d := setAdaptiveTarget d ⟨.pl1Max, p.upper, p.pl1Rapl⟩)
    (t := ⟨.pl1Min, p.lower, p.pl1Rapl⟩) rfl (by rw [set_target_min_state]; exact h.order.1)
    (fun _ => by rw [hinc]; exact hlow)
  rw [hfirst] at hsecond
  exact hsecond

/-- The state of a locked device if the lower end comes first. -/
theorem Fits.lower_first_locked (h : p.Fits d) (hlock : d.priv.biosLocked = true) :
    (p.lowerFirst d).currState =
      if p.pl1Rapl' < max d.currState p.low ∨ p.high < max d.currState p.low then p.low
      else max d.currState p.low := by
  obtain ⟨-, hread, hlow⟩ := h.locked hlock
  obtain ⟨hkept, hinc⟩ :=
    set_target_private (d := d) (t := ⟨.pl1Min, p.lower, p.pl1Rapl'⟩) (.inr rfl)
  have hfirst := pl1_min_raises (d := d) (t := ⟨.pl1Min, p.lower, p.pl1Rapl'⟩) rfl h.order.2.2
    (fun _ => hlow)
  have hsecond := pl1_max_locked
    (d := setAdaptiveTarget d ⟨.pl1Min, p.lower, p.pl1Rapl'⟩)
    (t := ⟨.pl1Max, p.upper, p.pl1Rapl'⟩) rfl (by rw [hkept.locked h.writes, hlock])
    (by rw [set_target_max_state]; exact h.order.1) (by rw [hinc]; exact hread)
    (by rw [hinc]; exact hlow.trans h.order.1)
  have hend : (setAdaptiveTarget d ⟨.pl1Min, p.lower, p.pl1Rapl'⟩).maxState = p.low :=
    set_target_max_state ..
  rw [hfirst, hend] at hsecond
  exact hsecond

/-- The state is the same in both orders on a locked device. -/
theorem Fits.ofLocked (h : p.Fits d) (hlock : d.priv.biosLocked = true) :
    (p.upperFirst d).currState = (p.lowerFirst d).currState ↔ p.OrderFree d := by
  obtain ⟨horder, hmax, hmin⟩ := h.order
  obtain ⟨hwithin, hwithin'⟩ := h.within
  rw [h.upper_first_locked hlock, h.lower_first_locked hlock]
  unfold OrderFree
  rw [hlock, if_pos rfl]
  by_cases hlow : p.low ≤ d.currState
  · rw [h.read hlow]
    split_ifs <;> omega
  · split_ifs <;> omega

end EndsPair

/-! ## Any number of targets -/

/-- The three members that the targets are about are the same. -/
def SameRange (d d' : Cdev Rapl) : Prop :=
  d.minState = d'.minState ∧ d.maxState = d'.maxState ∧ d.currState = d'.currState

/-- A power limit between 30 W and 50 W that is throttled to 30 W. -/
def throttledRapl : Cdev Rapl :=
  { Cdev.init 0
      { biosLocked := false, constrained := true, powerOnConstraintPwr := 0,
        powerOnConstraintTimeWindow := 28000000, powerOnEnableStatus := 1, pl0MinWindow := 0,
        dynamicPhyMaxEnable := true, pl1 := 30000000, power := 29000000, updateResult := 9,
        writes := [] } with
    minState := 50000000
    maxState := 30000000
    currState := 30000000
    incDecVal := -2000000 }

/-- A new range of 60 W to 100 W. The power limit that is read is always the one written last. -/
def raisedEnds : EndsPair := ⟨100000, 60000, 30000000, 50000000⟩

end Rapl

end Thermald
