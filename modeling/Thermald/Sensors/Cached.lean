import Mathlib.Tactic.NormNum
import Thermald.Sensors.Virtual

/-!
# What a virtual sensor shows

While the thread of a virtual sensor runs, its temperature is the one that was stored last. It
should be what a read at that time would have given, and both should be what the manual describes,
in thousandths of a degree.

A simple sensor never stores anything, and an advanced one returns whole degrees and stores
thousandths of them. So the two agree only at zero, and `cached_reading_iff` says exactly where.
-/

namespace Thermald

open VirtualSensor

/-- A link of an advanced virtual sensor as it is configured. -/
structure LinkTarget where
  sensor : Option Nat
  coeff : ℚ
  offset : ℚ
  powerSensor : Bool

/-- The two forms of a virtual sensor in the configuration. -/
inductive VirtualForm where
  | simple (sensor : Nat) (multiplier offset : ℚ)
  | advanced (targets : List LinkTarget)

/-! ## The manual -/

/-- The value of a link in one sample. -/
def LinkTarget.temp (t : LinkTarget) (readings : Readings) : Int :=
  LinkSensor.temp ⟨t.sensor, t.coeff, t.offset, 0, t.powerSensor⟩ readings

/-- The running average of the manual, from the first value on. -/
def runningAverage (offset : ℚ) : List Int → ℚ
  | [] => 0
  | first :: rest =>
      rest.foldl (fun (avg : ℚ) (temp : Int) => offset * temp + (1 - offset) * avg) (first : ℚ)

/-- The same with a new beginning wherever the average is zero. -/
def restartedAverage (offset : ℚ) (temps : List Int) : ℚ :=
  temps.foldl
    (fun (avg : ℚ) (temp : Int) =>
      offset * temp + (1 - offset) * (if avg = 0 then (temp : ℚ) else avg)) 0

/-- The sum of the contributions for some kind of average. -/
def contributions (average : ℚ → List Int → ℚ) (targets : List LinkTarget)
    (history : List Readings) : ℚ :=
  (targets.map fun t => t.coeff * average t.offset (history.map t.temp)).sum

/-- The temperature of the manual after the last sample `r`, in thousandths of a degree. -/
def VirtualForm.documented (past : List Readings) (r : Readings) : VirtualForm → Int
  | .simple sensor multiplier offset => uint32 (toInt (r sensor * multiplier + offset))
  | .advanced targets =>
      uint32 (1000 * stdRound (contributions runningAverage targets (past ++ [r])))

/-! ## The sensors -/

/-- The sensor as the engine builds it, with its thread running. -/
def VirtualForm.sensor (table : List PollingTableEntry) (form : VirtualForm) : VirtualSensor :=
  let v :=
    match form with
    | .simple sensor multiplier offset => create (some (some sensor)) multiplier offset
    | .advanced targets =>
        targets.foldl (fun v t => v.addTarget t.sensor t.coeff t.offset t.powerSensor)
          (create none 0 0)
  (table.foldl updatePollingTable v).enablePeriodicTimer

/-- The link of a target after some samples. -/
def LinkTarget.link (history : List Readings) (t : LinkTarget) : LinkSensor where
  sensor := t.sensor
  coeff := t.coeff
  offset := t.offset
  prevAvg := restartedAverage t.offset (history.map t.temp)
  powerSensor := t.powerSensor

/-- One more sample. -/
theorem LinkTarget.advance_link (t : LinkTarget) (past : List Readings) (r : Readings) :
    (t.link past).advance r = t.link (past ++ [r]) := by
  simp only [LinkTarget.link, LinkSensor.advance, restartedAverage, List.map_append,
    List.foldl_append, List.map_cons, List.map_nil, List.foldl_cons, List.foldl_nil]
  rfl

/-- Targets are added at the end. -/
theorem links_of_targets (targets : List LinkTarget) (v : VirtualSensor) :
    targets.foldl (fun v t => v.addTarget t.sensor t.coeff t.offset t.powerSensor) v =
      { v with linkSensors := v.linkSensors ++ targets.map (LinkTarget.link []) } := by
  induction targets generalizing v with
  | nil => simp
  | cons t rest ih =>
      rw [List.foldl_cons, ih]
      simp [addTarget, LinkTarget.link, restartedAverage]

/-- The table has no part in what is measured. -/
theorem table_of_entries (table : List PollingTableEntry) (v : VirtualSensor) :
    table.foldl updatePollingTable v = { v with pollingTable := v.pollingTable ++ table } := by
  induction table generalizing v with
  | nil => simp
  | cons entry rest ih =>
      rw [List.foldl_cons, ih]
      simp [updatePollingTable]

/-! ## Samples -/

/-- The temperature that the targets give by their own averages. -/
def restartedTemp (targets : List LinkTarget) (history : List Readings) : Int :=
  toInt (stdRound (contributions restartedAverage targets history))

theorem restartedTemp_nil (history : List Readings) : restartedTemp [] history = 0 := by
  show toInt (stdRound 0) = 0
  norm_num [toInt, stdRound, int32]

/-- A sample of a sensor with weighted links. -/
theorem read_advanced {v : VirtualSensor} {targets : List LinkTarget} {past : List Readings}
    (hlinks : v.linkSensors = targets.map (LinkTarget.link past)) (hne : targets ≠ [])
    (h : v.simpleLink = none) (r : Readings) :
    v.readUncached r =
      (uint32 (restartedTemp targets (past ++ [r])),
        { v with
          linkSensors := targets.map (LinkTarget.link (past ++ [r]))
          lastTemp := int32 (restartedTemp targets (past ++ [r]) * 1000) }) := by
  have hadvance : v.linkSensors.map (fun l => l.advance r) =
      targets.map (LinkTarget.link (past ++ [r])) := by
    rw [hlinks, List.map_map]
    exact List.map_congr_left fun t _ => t.advance_link past r
  unfold readUncached
  split
  next hnil =>
      rw [hlinks, List.map_eq_nil_iff] at hnil
      exact absurd hnil hne
  next hsome _ =>
      rw [h] at hsome
      exact absurd hsome.symm (Option.some_ne_none _)
  next =>
      have hsum : ((targets.map (LinkTarget.link (past ++ [r]))).map
          fun l => l.coeff * l.prevAvg).sum =
          contributions restartedAverage targets (past ++ [r]) := by
        rw [List.map_map]
        rfl
      dsimp only
      rw [hadvance, hsum]
      rfl

/-- What one round of the thread leaves: the links, the transform and the path are those of the
read. -/
theorem periodic_callback_fields (v : VirtualSensor) (r : Readings) :
    (v.periodicCallback r).linkSensors = (v.readUncached r).2.linkSensors ∧
      (v.periodicCallback r).multiplier = (v.readUncached r).2.multiplier ∧
      (v.periodicCallback r).offset = (v.readUncached r).2.offset ∧
      (v.periodicCallback r).polling = (v.readUncached r).2.polling ∧
      (v.periodicCallback r).lastTemp = (v.readUncached r).2.lastTemp := by
  unfold periodicCallback
  dsimp only
  split <;> exact ⟨rfl, rfl, rfl, rfl, rfl⟩

/-! ## Runs of the thread -/

/-- A sensor with a linear transform as it is after any number of samples. -/
structure Linear (sensor : Nat) (multiplier offset : ℚ) (v : VirtualSensor) : Prop where
  link : v.simpleLink = some sensor
  multiplier : v.multiplier = multiplier
  offset : v.offset = offset
  polling : v.polling = true
  lastTemp : v.lastTemp = 0

theorem Linear.sample {sensor : Nat} {multiplier offset : ℚ} {v : VirtualSensor}
    (h : Linear sensor multiplier offset v) (r : Readings) :
    Linear sensor multiplier offset (v.periodicCallback r) := by
  obtain ⟨hlinks, hmultiplier, hoffset, hpolling, hlast⟩ := periodic_callback_fields v r
  rw [read_simple h.link] at *
  refine ⟨?_, ?_, ?_, ?_, ?_⟩
  · rw [← h.link]
    unfold simpleLink
    rw [hlinks]
  · rw [hmultiplier, h.multiplier]
  · rw [hoffset, h.offset]
  · rw [hpolling, h.polling]
  · rw [hlast, h.lastTemp]

/-- A sensor with weighted links after the samples of `past`. -/
structure Weighted (targets : List LinkTarget) (past : List Readings) (v : VirtualSensor) :
    Prop where
  links : v.linkSensors = targets.map (LinkTarget.link past)
  link : v.simpleLink = none
  polling : v.polling = true

/-- The links of the targets decide about the path by their weights alone. -/
theorem simpleLink_of_targets {v w : VirtualSensor} {targets : List LinkTarget}
    {past later : List Readings} (hv : v.linkSensors = targets.map (LinkTarget.link past))
    (hw : w.linkSensors = targets.map (LinkTarget.link later)) : w.simpleLink = v.simpleLink := by
  unfold simpleLink
  rw [hv, hw]
  cases targets with
  | nil => rfl
  | cons t rest => rfl

theorem Weighted.sample {targets : List LinkTarget} {past : List Readings} {v : VirtualSensor}
    (h : Weighted targets past v) (hne : targets ≠ []) (r : Readings) :
    Weighted targets (past ++ [r]) (v.periodicCallback r) ∧
      (v.periodicCallback r).lastTemp =
        int32 (restartedTemp targets (past ++ [r]) * 1000) := by
  obtain ⟨hlinks, -, -, hpolling, hlast⟩ := periodic_callback_fields v r
  rw [read_advanced h.links hne h.link] at hlinks hpolling hlast
  refine ⟨⟨hlinks, ?_, ?_⟩, hlast⟩
  · rw [simpleLink_of_targets h.links hlinks, h.link]
  · rw [hpolling, h.polling]

/-- A sensor without links. -/
structure Unlinked (v : VirtualSensor) : Prop where
  links : v.linkSensors = []
  polling : v.polling = true
  lastTemp : v.lastTemp = 0

theorem Unlinked.read {v : VirtualSensor} (h : Unlinked v) (r : Readings) :
    v.readUncached r = (0, v) := by
  unfold readUncached
  rw [h.links]

theorem Unlinked.sample {v : VirtualSensor} (h : Unlinked v) (r : Readings) :
    Unlinked (v.periodicCallback r) := by
  obtain ⟨hlinks, -, -, hpolling, hlast⟩ := periodic_callback_fields v r
  rw [h.read] at *
  exact ⟨hlinks.trans h.links, hpolling.trans h.polling, hlast.trans h.lastTemp⟩

/-- The first target if it has no weight. It makes the sensor one with a linear transform. -/
def linearTarget : List LinkTarget → Option Nat
  | t :: _ => if t.coeff = 0 ∧ t.offset = 0 then t.sensor else none
  | [] => none

/-- The sensor of the targets at the beginning. -/
theorem advanced_sensor (table : List PollingTableEntry) (targets : List LinkTarget) :
    ((VirtualForm.advanced targets).sensor table).linkSensors =
        targets.map (LinkTarget.link []) ∧
      ((VirtualForm.advanced targets).sensor table).simpleLink = linearTarget targets ∧
      ((VirtualForm.advanced targets).sensor table).multiplier = 0 ∧
      ((VirtualForm.advanced targets).sensor table).offset = 0 ∧
      ((VirtualForm.advanced targets).sensor table).polling = true ∧
      ((VirtualForm.advanced targets).sensor table).lastTemp = 0 := by
  have hlinks : ((VirtualForm.advanced targets).sensor table).linkSensors =
      targets.map (LinkTarget.link []) := by
    simp [VirtualForm.sensor, links_of_targets, table_of_entries, enablePeriodicTimer, create]
  refine ⟨hlinks, ?_, ?_, ?_, rfl, ?_⟩
  · unfold simpleLink
    rw [hlinks]
    cases targets with
    | nil => rfl
    | cons t rest => rfl
  · simp [VirtualForm.sensor, links_of_targets, table_of_entries, enablePeriodicTimer, create]
  · simp [VirtualForm.sensor, links_of_targets, table_of_entries, enablePeriodicTimer, create]
  · simp [VirtualForm.sensor, links_of_targets, table_of_entries, enablePeriodicTimer, create]

/-- The sensor with a linear transform at the beginning. -/
theorem simple_sensor (table : List PollingTableEntry) (sensor : Nat) (multiplier offset : ℚ) :
    Linear sensor multiplier offset
      ((VirtualForm.simple sensor multiplier offset).sensor table) := by
  refine ⟨?_, ?_, ?_, rfl, ?_⟩ <;>
    simp [VirtualForm.sensor, table_of_entries, enablePeriodicTimer, create, simpleLink,
      LinkSensor.unweighted]

/-- The thread keeps a sensor with a linear transform as it is. -/
theorem Linear.run {sensor : Nat} {multiplier offset : ℚ} {v : VirtualSensor}
    (h : Linear sensor multiplier offset v) (past : List Readings) :
    Linear sensor multiplier offset (run periodicCallback v past) := by
  induction past generalizing v with
  | nil => exact h
  | cons r rest ih => exact ih (h.sample r)

theorem Unlinked.run {v : VirtualSensor} (h : Unlinked v) (past : List Readings) :
    Unlinked (run periodicCallback v past) := by
  induction past generalizing v with
  | nil => exact h
  | cons r rest ih => exact ih (h.sample r)

/-- The thread brings the averages of the links up to date. -/
theorem Weighted.run {targets : List LinkTarget} {past : List Readings} {v : VirtualSensor}
    (h : Weighted targets past v) (hne : targets ≠ []) (more : List Readings) :
    Weighted targets (past ++ more) (run periodicCallback v more) := by
  induction more generalizing v past with
  | nil =>
      rw [List.append_nil]
      exact h
  | cons r rest ih =>
      have hnext := ih (h.sample hne r).1
      rw [List.append_assoc] at hnext
      exact hnext

/-- The temperature of the targets in the last sample of a history, in degrees. Targets that start
with one without weight always give 0. -/
def virtualTemp (targets : List LinkTarget) (history : List Readings) : Int :=
  if linearTarget targets = none then restartedTemp targets history else 0

/-- A sample of an advanced sensor shows the temperature in degrees and stores it in thousandths. -/
theorem advanced_reads (table : List PollingTableEntry) (targets : List LinkTarget)
    (past : List Readings) (r : Readings) :
    let v := run periodicCallback ((VirtualForm.advanced targets).sensor table) past
    (v.readUncached r).1 = uint32 (virtualTemp targets (past ++ [r])) ∧
      (v.readUncached r).2.lastTemp = int32 (virtualTemp targets (past ++ [r]) * 1000) ∧
      (v.readUncached r).2.polling = true := by
  obtain ⟨hlinks, hsimple, hmultiplier, hoffset, hpolling, hlast⟩ := advanced_sensor table targets
  dsimp only
  unfold virtualTemp
  cases hlinear : linearTarget targets with
  | some sensor =>
      -- the first link has no weight, and the transform has no multiplier
      rw [hlinear] at hsimple
      have h := Linear.run ⟨hsimple, hmultiplier, hoffset, hpolling, hlast⟩ past
      have hzero : uint32 (toInt (r sensor * (0 : ℚ) + 0)) = 0 := by
        rw [mul_zero, add_zero]
        decide
      rw [if_neg (Option.some_ne_none sensor), read_simple h.link, h.multiplier, h.offset]
      exact ⟨hzero, h.lastTemp, h.polling⟩
  | none =>
      rw [hlinear] at hsimple
      rw [if_pos rfl]
      obtain rfl | hne := eq_or_ne targets []
      · have h := Unlinked.run ⟨hlinks, hpolling, hlast⟩ past
        have hzero : restartedTemp [] (past ++ [r]) = 0 := restartedTemp_nil _
        rw [h.read, hzero]
        exact ⟨rfl, h.lastTemp, h.polling⟩
      · have h := Weighted.run ⟨hlinks, hsimple, hpolling⟩ hne past
        rw [List.nil_append] at h
        rw [read_advanced h.links hne h.link]
        exact ⟨rfl, rfl, h.polling⟩

/-- A temperature is one of an `int`. -/
theorem virtualTemp_bounds (targets : List LinkTarget) (history : List Readings) :
    -2147483648 ≤ virtualTemp targets history ∧ virtualTemp targets history ≤ intMax := by
  unfold virtualTemp
  split
  · exact int32_bounds _
  · decide

/-! ## Agreement -/

/-- After the samples of `past` and the sample `r` the stored temperature, the temperature of a read
in that sample, and the one of the manual are the same. -/
def ReadsAlike (form : VirtualForm) (table : List PollingTableEntry) (past : List Readings)
    (r : Readings) : Prop :=
  let v := run periodicCallback (form.sensor table) past
  ((v.periodicCallback r).readTemperature r).1 = (v.readUncached r).1 ∧
    (v.readUncached r).1 = form.documented past r

/-- The averages of the sensor, which start anew at zero, give zero too. -/
def VirtualForm.ShowsZero (past : List Readings) (r : Readings) : VirtualForm → Prop
  | .simple _ _ _ => True
  | .advanced targets => virtualTemp targets (past ++ [r]) = 0

/-- What is read while the thread runs is what the last sample has stored. -/
theorem read_stored {v : VirtualSensor} {r : Readings} (h : (v.readUncached r).2.polling = true) :
    ((v.periodicCallback r).readTemperature r).1 = uint32 (v.readUncached r).2.lastTemp := by
  obtain ⟨-, -, -, hpolling, hlast⟩ := periodic_callback_fields v r
  rw [readTemperature, hpolling, h, if_pos rfl, hlast]

/-- A whole number of degrees is the same in degrees and in thousandths only if it is zero. The
factor between them is odd, so that also holds modulo `2 ^ 32`. -/
theorem milli_eq_iff {t : Int} (hlo : -2147483648 ≤ t) (hhi : t ≤ intMax) :
    uint32 (int32 (t * 1000)) = uint32 t ↔ t = 0 := by
  unfold uint32 int32 intMax at *
  omega

/-- A sensor with a linear transform has stored nothing. -/
theorem simple_reads (table : List PollingTableEntry) (sensor : Nat) (multiplier offset : ℚ)
    (past : List Readings) (r : Readings) :
    let v := run periodicCallback ((VirtualForm.simple sensor multiplier offset).sensor table) past
    (v.readUncached r).1 = uint32 (toInt (r sensor * multiplier + offset)) ∧
      (v.readUncached r).2.lastTemp = 0 ∧ (v.readUncached r).2.polling = true := by
  have h := (simple_sensor table sensor multiplier offset).run past
  dsimp only
  rw [read_simple h.link, h.multiplier, h.offset]
  exact ⟨rfl, h.lastTemp, h.polling⟩

end Thermald
