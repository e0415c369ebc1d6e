import Thermald.Lib.Run
import Thermald.Cooling.Rapl

/-!
# What a power limit records

The loops of a trip point ask a device `in_min_state` and `in_max_state` to find out whether it is
done. Both look at the state that `set_curr_state` recorded. For `cthd_sysfs_cdev_rapl` this is the
power that was requested last, whatever became of the request:

* a request for the minimum records the power limit of the start, which may be below the minimum,
* a request whose write fails records the requested power; the value meant for this case is
  overwritten,
* a locked device compares the requested power with its increment.

`set_curr_state_in_min_state` and `requests_record_max_state` say exactly when a trip point sees
what it should.
-/

namespace Thermald

namespace Rapl

variable {d : Cdev Rapl}

/-! ## One request -/

/-- A locked device leaves the power limit alone and records one end of its range. -/
theorem curr_state_locked (hlocked : d.priv.biosLocked = true) (state : Int) (control : Bool) :
    (d.setCurrState state control).currState =
      if state ≤ d.incDecVal then d.minState else d.maxState := by
  show (setCurrState d.toDevice state control).1 = _
  simp only [setCurrState, hlocked, if_true]

/-- A request for the minimum or more records the power limit of the start, if there was one. -/
theorem curr_state_restored (hlocked : d.priv.biosLocked = false) (hrange : d.maxState < d.minState)
    {state : Int} (hstate : d.minState ≤ state) (control : Bool) :
    (d.setCurrState state control).currState =
      if d.priv.powerOnConstraintPwr ≠ 0 then d.priv.powerOnConstraintPwr else d.minState := by
  have hmax : ¬ state < d.maxState := by omega
  show (setCurrState d.toDevice state control).1 = _
  simp only [setCurrState, hlocked, Bool.false_eq_true, if_false, hmax, hstate, if_true]

/-- A throttling request is recorded as it is, also when the write fails. -/
theorem curr_state_throttled (hlocked : d.priv.biosLocked = false) {state : Int}
    (hmax : d.maxState ≤ state) (hmin : state < d.minState) (control : Bool) :
    (d.setCurrState state control).currState = state := by
  have hlow : ¬ state < d.maxState := by omega
  have hhigh : ¬ d.minState ≤ state := by omega
  show (setCurrState d.toDevice state control).1 = _
  simp only [setCurrState, hlocked, Bool.false_eq_true, if_false, hlow, hhigh]

/-- For a range that counts downwards, `in_min_state` compares the recorded state with the
minimum. -/
theorem in_min_state_downwards (hrange : d.maxState < d.minState) :
    d.inMinState = true ↔ d.minState ≤ d.currState := by
  have hup : ¬ d.minState < d.maxState := by omega
  show (d.minState < d.maxState && d.currState ≤ d.minState ||
    (d.maxState < d.minState && d.minState ≤ d.currState)) = true ↔ _
  simp [hup, hrange]

/-- After a request for the minimum or more, the device is in its minimum exactly when the lock
does not come before the increment and the power limit of the start is not a lower one. -/
theorem set_curr_state_in_min_state (d : Cdev Rapl) (state : Int) (control : Bool)
    (hrange : d.maxState < d.minState) (hstate : d.minState ≤ state) :
    (d.setCurrState state control).inMinState = true ↔
      if d.priv.biosLocked then state ≤ d.incDecVal
      else d.priv.powerOnConstraintPwr = 0 ∨ d.minState ≤ d.priv.powerOnConstraintPwr := by
  rw [in_min_state_downwards (d := d.setCurrState state control) hrange]
  show d.minState ≤ (d.setCurrState state control).currState ↔ _
  cases hlocked : d.priv.biosLocked with
  | true =>
      rw [curr_state_locked hlocked, if_pos rfl]
      split_ifs with hinc
      · exact iff_of_true le_rfl hinc
      · exact iff_of_false (by omega) hinc
  | false =>
      rw [curr_state_restored hlocked hrange hstate, if_neg Bool.false_ne_true]
      split_ifs with hpower
      · exact ⟨Or.inr, fun h => h.resolve_left hpower⟩
      · exact iff_of_true le_rfl (Or.inl (not_not.mp hpower))

/-- A power limit as `update` leaves it on a platform without power range: the range is
`rapl_max_sane_phy_max`, the increment `rapl_min_default_step`, and the limit of the start is
15 W. -/
def dynamicRapl : Cdev Rapl :=
  { Cdev.init 0
      { biosLocked := false, constrained := false, powerOnConstraintPwr := 15000000,
        powerOnConstraintTimeWindow := 28000000, powerOnEnableStatus := 1, pl0MinWindow := 0,
        dynamicPhyMaxEnable := true, pl1 := 15000000, power := 9000000, updateResult := 8,
        writes := [] } with
    minState := 100000000
    maxState := 0
    currState := 100000000
    incDecVal := -2000000 }

/-- The limit of the start is restored, and the device does not report its minimum. -/
theorem restored_not_in_min_state :
    dynamicRapl.maxState < dynamicRapl.minState ∧
      (dynamicRapl.setCurrState dynamicRapl.minState false).inMinState = false := by
  decide

/-- Where no limit was found at the start, the minimum is recorded. -/
theorem unlimited_in_min_state :
    ({ dynamicRapl with priv := { dynamicRapl.priv with powerOnConstraintPwr := 0 } }.setCurrState
      100000000 false).inMinState = true :=
  (set_curr_state_in_min_state
    { dynamicRapl with priv := { dynamicRapl.priv with powerOnConstraintPwr := 0 } } 100000000 false
    (show (0 : Int) < 100000000 by omega) (le_refl (100000000 : Int))).mpr (Or.inl rfl)

/-! ## Runs of requests -/

/-- A call of `set_curr_state`, with what the write of the power limit returns if there is one. -/
structure Request where
  state : Int
  control : Bool
  writeResult : Int

/-- The next write of the power limit returns this. -/
def withWriteResult (d : Cdev Rapl) (result : Int) : Cdev Rapl :=
  { d with priv := { d.priv with updateResult := result } }

/-- `set_curr_state` with the result of its write. -/
def request (d : Cdev Rapl) (r : Request) : Cdev Rapl :=
  (withWriteResult d r.writeResult).setCurrState r.state r.control

/-- The request is for a state between `max_state` and `min_state`. -/
def Throttles (d : Cdev Rapl) (r : Request) : Prop :=
  d.maxState ≤ r.state ∧ r.state < d.minState

/-- The device cannot act on the request: the write fails, or it is an activation and the device is
known to be locked. -/
def CannotAct (d : Cdev Rapl) (r : Request) : Prop :=
  if d.priv.biosLocked then r.control = true else r.writeResult ≤ 0

/-- A throttling request on which the device cannot act records `max_state`. -/
def RecordsMax (d : Cdev Rapl) (r : Request) : Prop :=
  Throttles d r → CannotAct d r →
    (request d r).currState = d.maxState ∧ (request d r).inMaxState = true

/-- A request for which the recorded state is `max_state` anyway: `max_state` itself is requested,
or the device is locked and the requested power is above the increment. -/
def AsksForMax (d : Cdev Rapl) (r : Request) : Prop :=
  Throttles d r → CannotAct d r →
    if d.priv.biosLocked then d.incDecVal < r.state else r.state = d.maxState

/-- One request records `max_state` exactly if it asks for it. -/
theorem records_max_iff (d : Cdev Rapl) (r : Request) : RecordsMax d r ↔ AsksForMax d r := by
  refine imp_congr_right fun hthrottles => imp_congr_right fun _ => ?_
  obtain ⟨hmax, hmin⟩ := hthrottles
  have hreports : (request d r).currState = d.maxState → (request d r).inMaxState = true := by
    intro hcurr
    have hmaxState : (request d r).maxState = d.maxState := rfl
    have hminState : (request d r).minState = d.minState := rfl
    rw [Cdev.in_max_state_iff (by omega), Device.level, Device.level]
    show _ ≤ if _ then (request d r).currState else -(request d r).currState
    rw [hcurr, hmaxState]
  have hrecorded : (request d r).currState = d.maxState ↔
      if d.priv.biosLocked then d.incDecVal < r.state else r.state = d.maxState := by
    unfold request
    cases hlocked : d.priv.biosLocked with
    | true =>
        rw [curr_state_locked (d := withWriteResult d r.writeResult) hlocked, if_pos rfl]
        show (if r.state ≤ d.incDecVal then d.minState else d.maxState) = d.maxState ↔ _
        split_ifs <;> omega
    | false =>
        rw [curr_state_throttled (d := withWriteResult d r.writeResult) hlocked hmax hmin,
          if_neg Bool.false_ne_true]
  exact ⟨fun h => hrecorded.mp h.1, fun h => ⟨hrecorded.mpr h, hreports (hrecorded.mpr h)⟩⟩

/-- Every throttling request of a run on which the device cannot act records `max_state`, exactly if
each of them asks for it. -/
theorem requests_record_max_state (d : Cdev Rapl) (requests : List Request) :
    (∀ past r, past ++ [r] <+: requests → RecordsMax (run request d past) r) ↔
      Meets request AsksForMax d requests := by
  rw [meets_iff_inputs]
  exact forall_congr' fun past => forall_congr' fun r => imp_congr_right fun _ =>
    records_max_iff (run request d past) r

/-- The first request finds the device locked, and the requested power is recorded as if it were
set. -/
theorem failed_write_recorded :
    ¬ RecordsMax dynamicRapl ⟨10000000, true, -enodata⟩ ∧
      (request dynamicRapl ⟨10000000, true, -enodata⟩).currState = 10000000 ∧
      (request dynamicRapl ⟨10000000, true, -enodata⟩).priv.biosLocked = true := by
  refine ⟨fun h => ?_, by decide, by decide⟩
  have hcurr := (h ⟨by decide, by decide⟩ (show (-enodata : Int) ≤ 0 by decide)).1
  exact absurd hcurr (by decide)

end Rapl

end Thermald
