import Thermald.Cooling.Limits

/-!
# Power limits as cooling devices

`cthd_sysfs_cdev_rapl` sets the long term power limit of a package. Its states are powers, so they
count downwards: `minState` is the highest power. `set_curr_state` confines a state itself, and it
gives the limit back that was there at the start when the minimum is reached. The class does not use
the range check of `set_curr_state_raw`.

Also in this module is the base class, which has no device behind it.
-/

namespace Thermald

/-- The private data of a device of the base class: the states with which `set_curr_state` was
called. The function itself does nothing. -/
structure BaseCdev where
  states : List Int

/-- `cthd_cdev` itself. -/
instance : CdevClass BaseCdev where
  setCurrState d state _ := (d.currState, ⟨d.priv.states ++ [state]⟩)

/-- What is written to the attributes of a power limit. -/
inductive RaplWrite where
  | powerLimit (value : Int)
  | timeWindow (value : Int)
  | enabled (value : Int)
  deriving DecidableEq, Repr

/-- The private data of `cthd_sysfs_cdev_rapl`, with what it can read and what it wrote. -/
structure Rapl where
  biosLocked : Bool
  constrained : Bool
  /-- `power_on_constraint_0_pwr`, or 0. -/
  powerOnConstraintPwr : Int
  powerOnConstraintTimeWindow : Int
  powerOnEnableStatus : Int
  pl0MinWindow : Int
  dynamicPhyMaxEnable : Bool
  /-- The result of `rapl_read_pl1`. -/
  pl1 : Int
  /-- The measured power of the package. -/
  power : Int
  /-- The result of the next write of the power limit: the bytes written, or 0 or less if it
  fails. -/
  updateResult : Int
  writes : List RaplWrite

namespace Rapl

/-- `def_rapl_time_window`. -/
abbrev defRaplTimeWindow : Int := 1000000

/-- `ENODATA`. -/
abbrev enodata : Int := 61

/-- `rapl_update_time_window`. -/
def raplUpdateTimeWindow (r : Rapl) (window : Int) : Rapl :=
  { r with writes := r.writes ++ [.timeWindow (uint32 window)] }

/-- `rapl_update_enable_status`. -/
def raplUpdateEnableStatus (r : Rapl) (enable : Int) : Rapl :=
  { r with writes := r.writes ++ [.enabled (uint32 enable)] }

/-- `rapl_update_pl1`, and the lock that its failure may show. -/
def raplUpdatePl1 (r : Rapl) (pl1 : Int) : Rapl :=
  { r with
    writes := r.writes ++ [.powerLimit (uint32 pl1)]
    biosLocked := r.biosLocked || r.updateResult = -enodata }

/-- Back at the minimum: the time window of the start is restored, and the limit is switched off if
it was off then. -/
def unconstrain (r : Rapl) : Rapl :=
  let r := if r.powerOnEnableStatus = 0 then r.raplUpdateEnableStatus 0 else r
  { r.raplUpdateTimeWindow r.powerOnConstraintTimeWindow with constrained := false }

/-- The first activation: the time window is set and the limit is switched on. -/
def constrain (r : Rapl) : Rapl :=
  let r := r.raplUpdateTimeWindow (if r.pl0MinWindow ≠ 0 then r.pl0MinWindow else defRaplTimeWindow)
  let r := if r.powerOnEnableStatus = 0 then r.raplUpdateEnableStatus 1 else r
  { r with constrained := true }

/-- `set_curr_state` of `cthd_sysfs_cdev_rapl`. The state recorded when the write fails is
overwritten at the end. -/
def setCurrState (d : Device Rapl) (state : Int) (control : Bool) : Int × Rapl :=
  let r := d.priv
  if r.biosLocked then (if state ≤ d.incDecVal then d.minState else d.maxState, r)
  else
    let newState := if state < d.maxState then d.maxState else state
    if d.minState ≤ newState then
      let newState := if r.powerOnConstraintPwr ≠ 0 then r.powerOnConstraintPwr else d.minState
      (newState, r.unconstrain.raplUpdatePl1 newState)
    else
      let r := if control && !r.constrained then r.constrain else r
      (newState, r.raplUpdatePl1 newState)

/-- `get_curr_state(true)`: the measured power, or the power limit if that is lower. -/
def readCurrState (d : Device Rapl) : Int :=
  let r := d.priv
  if r.dynamicPhyMaxEnable then
    if r.pl1 ≠ thdError ∧ r.pl1 < r.power then r.pl1 else r.power
  else d.currState

/-- The power limits among what was written. -/
def powerLimits (r : Rapl) : List Int :=
  r.writes.filterMap fun
    | .powerLimit value => some value
    | _ => none

@[simp] theorem power_limits_time_window (r : Rapl) (window : Int) :
    (r.raplUpdateTimeWindow window).powerLimits = r.powerLimits := by
  simp [powerLimits, raplUpdateTimeWindow]

@[simp] theorem power_limits_enable_status (r : Rapl) (enable : Int) :
    (r.raplUpdateEnableStatus enable).powerLimits = r.powerLimits := by
  simp [powerLimits, raplUpdateEnableStatus]

@[simp] theorem power_limits_update (r : Rapl) (pl1 : Int) :
    (r.raplUpdatePl1 pl1).powerLimits = r.powerLimits ++ [uint32 pl1] := by
  simp [powerLimits, raplUpdatePl1]

/-- No power limit is written before the last step. -/
@[simp] theorem power_limits_unconstrain (r : Rapl) :
    r.unconstrain.powerLimits = r.powerLimits := by
  have hsame : ∀ r : Rapl, ({ r with constrained := false } : Rapl).powerLimits = r.powerLimits :=
    fun _ => rfl
  unfold unconstrain
  simp only [hsame, power_limits_time_window]
  split
  · exact power_limits_enable_status r 0
  · rfl

@[simp] theorem power_limits_constrain (r : Rapl) : r.constrain.powerLimits = r.powerLimits := by
  have hsame : ∀ r : Rapl, ({ r with constrained := true } : Rapl).powerLimits = r.powerLimits :=
    fun _ => rfl
  unfold constrain
  simp only [hsame]
  generalize (if r.pl0MinWindow ≠ 0 then r.pl0MinWindow else defRaplTimeWindow) = window
  split
  · rw [power_limits_enable_status, power_limits_time_window]
  · rw [power_limits_time_window]

end Rapl

/-- `cthd_sysfs_cdev_rapl`. -/
instance : CdevClass Rapl where
  setCurrState := Rapl.setCurrState
  setCurrStateRaw := Rapl.setCurrState
  readCurrState := Rapl.readCurrState

end Thermald
