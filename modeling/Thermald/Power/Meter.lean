import Mathlib.Tactic.Common
import Thermald.Lib.MachineInt
import Thermald.Lib.Run

/-!
# The RAPL power meter

The meter keeps one record for each powercap domain that it measures. `rapl_energy_loop` reads the
energy counter of every domain, which the hardware lets wrap around at the end of its range, and
derives from it the energy used since the start and the power since the loop before. All members
are in milli-units; the files are in micro-units.

A domain is changed by the loop in two parts, `readRange` and `account`. `step_domain` says what
one call of the loop makes of one domain.
-/

namespace Thermald

/-- `domain_type`. -/
inductive DomainType where
  | invalid
  | package
  | dram
  | core
  | uncore
  deriving DecidableEq, Repr

/-- `rapl_domain_t`, without the name that only the log prints. -/
structure RaplDomain where
  type : DomainType
  path : String
  maxEnergyRange : Int
  maxEnergyRangeThreshold : Int
  halfWay : Bool
  energyCumulativeCounter : Int
  energyCounter : Int
  power : Int
  maxPower : Int
  minPower : Int
  deriving DecidableEq, Repr

/-- The files of the file system that hold an `unsigned long`. A read of one may fail. -/
abbrev SysFs := String → Option Nat

namespace RaplDomain

/-- A domain as `rapl_read_domains` enters it. -/
def fresh (type : DomainType) (path : String) : RaplDomain where
  type := type
  path := path
  maxEnergyRange := 0
  maxEnergyRangeThreshold := 0
  halfWay := false
  energyCumulativeCounter := 0
  energyCounter := 0
  power := 0
  maxPower := 0
  minPower := 0

/-- The file with the last value of the energy counter. -/
def rangePath (path : String) : String := path ++ "/" ++ "max_energy_range_uj"

/-- The file with the energy counter. -/
def energyPath (path : String) : String := path ++ "/" ++ "energy_uj"

/-- The first part of the loop body: the range is read as long as it is zero. -/
def readRange (d : RaplDomain) (fs : SysFs) : RaplDomain :=
  if d.maxEnergyRange = 0 then
    let range : Int :=
      match fs (rangePath d.path) with
      | some value => (value : Int) / 1000
      | none => d.maxEnergyRange
    { d with maxEnergyRange := range, maxEnergyRangeThreshold := range / 2 }
  else d

/-- The test for a wrap around: the counter was in the upper half and is in the lower half now. -/
def wraps (d : RaplDomain) (energyCounter : Int) : Bool :=
  d.halfWay && decide (energyCounter < d.maxEnergyRangeThreshold)

/-- The second part of the loop body, after the energy has been read. -/
def account (d : RaplDomain) (energyUj : Nat) (elapsed : Int) : RaplDomain :=
  let energyCounter : Int := (energyUj : Int) / 1000
  let wrapped := d.wraps energyCounter
  let cumulative :=
    if wrapped then uint64 (d.energyCumulativeCounter + d.maxEnergyRange)
    else d.energyCumulativeCounter
  let diff := if wrapped then uint64 (d.maxEnergyRange - d.energyCounter) else 0
  let counter := if wrapped then 0 else d.energyCounter
  let halfWay :=
    if wrapped then false else d.halfWay || decide (d.maxEnergyRangeThreshold < energyCounter)
  -- no division without a previous counter, and that is also what a wrap around looks like
  let power :=
    if counter ≠ 0 then uint32 (uint64 (energyCounter - counter + diff) / elapsed) else d.power
  { d with
    energyCounter := energyCounter
    energyCumulativeCounter := cumulative
    halfWay := halfWay
    power := power
    maxPower := if d.maxPower < power then power else d.maxPower
    minPower :=
      if d.minPower = 0 then power else if power < d.minPower then power else d.minPower }

/-- The body of the loop for one domain. -/
def sample (d : RaplDomain) (fs : SysFs) (elapsed : Int) : RaplDomain :=
  let d := d.readRange fs
  match fs (energyPath d.path) with
  | some energyUj => d.account energyUj elapsed
  | none => d

/-- `energy_counter + energy_cumulative_counter`, an `unsigned long long`. -/
def energyTotal (d : RaplDomain) : Int :=
  uint64 (d.energyCounter + d.energyCumulativeCounter)

end RaplDomain

/-- `cthd_rapl_power_meter`. -/
structure RaplPowerMeter where
  raplPresent : Bool
  domainList : List RaplDomain
  lastTime : Int
  enableMeasurement : Bool
  deriving DecidableEq, Repr

/-- What a call of the loop finds: the time in seconds and the files. -/
structure LoopCall where
  currTime : Int
  fs : SysFs

namespace RaplPowerMeter

/-- `rapl_energy_loop`, with its result. -/
def raplEnergyLoop (m : RaplPowerMeter) (c : LoopCall) : Bool × RaplPowerMeter :=
  if !m.enableMeasurement then (false, m)
  else if c.currTime - m.lastTime ≤ 0 then (true, m)
  else
    let elapsed := c.currTime - m.lastTime
    (true,
      { m with
        domainList := m.domainList.map fun d => d.sample c.fs elapsed
        lastTime := c.currTime })

/-- The meter after a call of the loop. -/
def step (m : RaplPowerMeter) (c : LoopCall) : RaplPowerMeter :=
  (m.raplEnergyLoop c).2

/-- The energy of the first domain of a type, in microjoules. -/
def energyOf (m : RaplPowerMeter) (type : DomainType) : Option Int :=
  (m.domainList.find? fun d => decide (type = d.type)).map fun d => uint64 (d.energyTotal * 1000)

/-- The power of the first domain of a type, in microwatts. -/
def powerOf (m : RaplPowerMeter) (type : DomainType) : Option Int :=
  (m.domainList.find? fun d => decide (type = d.type)).map fun d => uint32 (d.power * 1000)

/-- `rapl_action_get_energy`. The call is the one that is made when there is no energy yet. -/
def raplActionGetEnergy (m : RaplPowerMeter) (type : DomainType) (c : LoopCall) :
    Int × RaplPowerMeter :=
  match m.energyOf type with
  | none => (0, m)
  | some value =>
      if value = 0 then (((m.step c).energyOf type).getD 0, m.step c) else (value, m)

/-- `rapl_action_get_power`. The two calls, a second apart, are made when there is no power yet. -/
def raplActionGetPower (m : RaplPowerMeter) (type : DomainType) (c c' : LoopCall) :
    Int × RaplPowerMeter :=
  if !m.raplPresent then (0, m)
  else
    match m.powerOf type with
    | none => (0, m)
    | some value =>
        if value = 0 then
          ((((m.step c).step c').powerOf type).getD 0, (m.step c).step c')
        else (value, m)

/-- The call gets past the checks at the top of the loop. -/
def samples (m : RaplPowerMeter) (c : LoopCall) : Bool :=
  m.enableMeasurement && decide (m.lastTime < c.currTime)

/-- The energy that a call reads for the domain with this path. -/
def sampled (m : RaplPowerMeter) (path : String) (c : LoopCall) : Option Nat :=
  if m.samples c then c.fs (RaplDomain.energyPath path) else none

/-- The energies that a sequence of calls reads for the domain with this path. -/
def readings (path : String) : RaplPowerMeter → List LoopCall → List Nat
  | _, [] => []
  | m, c :: rest => (m.sampled path c).toList ++ readings path (m.step c) rest

end RaplPowerMeter

namespace RaplDomain

variable (d : RaplDomain) (fs : SysFs) (energyUj : Nat) (elapsed : Int)

@[simp] theorem readRange_path : (d.readRange fs).path = d.path := by
  unfold readRange
  split <;> rfl

@[simp] theorem readRange_energyCounter : (d.readRange fs).energyCounter = d.energyCounter := by
  unfold readRange
  split <;> rfl

@[simp] theorem readRange_energyCumulativeCounter :
    (d.readRange fs).energyCumulativeCounter = d.energyCumulativeCounter := by
  unfold readRange
  split <;> rfl

@[simp] theorem readRange_halfWay : (d.readRange fs).halfWay = d.halfWay := by
  unfold readRange
  split <;> rfl

@[simp] theorem account_path : (d.account energyUj elapsed).path = d.path := rfl

@[simp] theorem account_energyCounter :
    (d.account energyUj elapsed).energyCounter = (energyUj : Int) / 1000 := rfl

@[simp] theorem account_maxEnergyRange :
    (d.account energyUj elapsed).maxEnergyRange = d.maxEnergyRange := rfl

@[simp] theorem account_maxEnergyRangeThreshold :
    (d.account energyUj elapsed).maxEnergyRangeThreshold = d.maxEnergyRangeThreshold := rfl

/-- The power after a reading that does not count as a wrap around and has a previous counter. -/
theorem account_power (hwraps : d.wraps ((energyUj : Int) / 1000) = false)
    (hcounter : d.energyCounter ≠ 0) :
    (d.account energyUj elapsed).power =
      uint32 (uint64 ((energyUj : Int) / 1000 - d.energyCounter) / elapsed) := by
  simp [account, hwraps, hcounter]

/-- A domain whose energy cannot be read keeps its counters. -/
theorem sample_of_failed (hread : fs (energyPath d.path) = none) :
    d.sample fs elapsed = d.readRange fs := by
  simp [sample, hread]

/-- A domain whose energy can be read is brought up to date with it. -/
theorem sample_of_read (hread : fs (energyPath d.path) = some energyUj) :
    d.sample fs elapsed = (d.readRange fs).account energyUj elapsed := by
  simp [sample, hread]

@[simp] theorem sample_path : (d.sample fs elapsed).path = d.path := by
  cases hread : fs (energyPath d.path) with
  | none => simp [sample_of_failed d fs elapsed hread]
  | some energyUj => simp [sample_of_read d fs energyUj elapsed hread]

end RaplDomain

namespace RaplPowerMeter

variable {m : RaplPowerMeter} {c : LoopCall} {i : Nat} {d : RaplDomain} {path : String}

@[simp] theorem step_enableMeasurement : (m.step c).enableMeasurement = m.enableMeasurement := by
  unfold step raplEnergyLoop
  split
  · rfl
  · split <;> rfl

/-- What one call of the loop makes of one domain. -/
theorem step_domain (hd : m.domainList[i]? = some d) :
    (m.step c).domainList[i]? =
      some (if m.samples c then d.sample c.fs (c.currTime - m.lastTime) else d) := by
  unfold step raplEnergyLoop samples
  by_cases hen : m.enableMeasurement = true
  · by_cases htime : c.currTime - m.lastTime ≤ 0
    · have hlate : ¬m.lastTime < c.currTime := by omega
      simp [hen, htime, hlate, hd]
    · have hlate : m.lastTime < c.currTime := by omega
      simp [hen, htime, hlate, hd]
  · simp [hen, hd]

/-- A call that gets past the checks leaves its time behind. -/
theorem step_lastTime (hsamples : m.samples c = true) : (m.step c).lastTime = c.currTime := by
  unfold samples at hsamples
  obtain ⟨hen, hlate⟩ := Bool.and_eq_true_iff.mp hsamples
  have htime : ¬c.currTime - m.lastTime ≤ 0 := by
    have := of_decide_eq_true hlate
    omega
  simp [step, raplEnergyLoop, hen, htime]

@[simp] theorem readings_append {calls more : List LoopCall} :
    readings path m (calls ++ more) =
      readings path m calls ++ readings path (run step m calls) more := by
  induction calls generalizing m with
  | nil => rfl
  | cons c rest ih => simp [readings, ih]

/-- Asking for the energy calls the loop at most once. -/
theorem rapl_action_get_energy_run (m : RaplPowerMeter) (type : DomainType) (c : LoopCall) :
    ∃ calls, calls <+: [c] ∧ (m.raplActionGetEnergy type c).2 = run step m calls := by
  unfold raplActionGetEnergy
  split
  · exact ⟨[], List.nil_prefix, rfl⟩
  · split
    · exact ⟨[c], List.prefix_refl _, rfl⟩
    · exact ⟨[], List.nil_prefix, rfl⟩

/-- Asking for the power calls the loop twice or not at all. -/
theorem rapl_action_get_power_run (m : RaplPowerMeter) (type : DomainType) (c c' : LoopCall) :
    ∃ calls, calls <+: [c, c'] ∧ (m.raplActionGetPower type c c').2 = run step m calls := by
  unfold raplActionGetPower
  split
  · exact ⟨[], List.nil_prefix, rfl⟩
  · split
    · exact ⟨[], List.nil_prefix, rfl⟩
    · split
      · exact ⟨[c, c'], List.prefix_refl _, rfl⟩
      · exact ⟨[], List.nil_prefix, rfl⟩

end RaplPowerMeter

end Thermald
