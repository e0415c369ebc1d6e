import Thermald.Gddv.Tables
import Thermald.Sensors.Cached

/-!
# The sample period of a virtual sensor

A data vault may have a table of sample periods for its virtual sensor. The thread looks for the
last row whose temperature has been reached. The rows are in degrees, and the stored temperature
with which they are compared is in thousandths, so most rows are reached long before their time.

`sample_period_iff` says for which tables and temperatures the period is nevertheless right.
-/

namespace Thermald

open VirtualSensor

/-- The rows of the `VSPT` table as `thd_engine_init` gives them to the virtual sensor. -/
def Gddv.pollingTable (g : Gddv) : List PollingTableEntry :=
  g.vspts.map fun row => ⟨row.virtualTemp, row.samplePeriod⟩

/-- The last row whose temperature is at most the limit. -/
def lastAtMost (table : List PollingTableEntry) (limit : Int) : Option PollingTableEntry :=
  table.reverse.find? fun entry => decide (entry.virtualTemp ≤ limit)

/-- The period of the row, or the previous one if there is no row. -/
def periodOf (previous : Int) : Option PollingTableEntry → Int
  | some entry => entry.samplePeriod
  | none => previous

/-- The virtual sensor of a vault after some samples. -/
def vaultSensor (g : Gddv) (targets : List LinkTarget) (past : List Readings) : VirtualSensor :=
  run periodicCallback ((VirtualForm.advanced targets).sensor g.pollingTable) past

/-! ## Samples -/

/-- A read keeps the table and the period. -/
theorem readUncached_table (v : VirtualSensor) (r : Readings) :
    (v.readUncached r).2.pollingTable = v.pollingTable ∧
      (v.readUncached r).2.pollingPeriod = v.pollingPeriod := by
  unfold readUncached
  split <;> exact ⟨rfl, rfl⟩

theorem periodicCallback_table (v : VirtualSensor) (r : Readings) :
    (v.periodicCallback r).pollingTable = v.pollingTable := by
  have hread := (readUncached_table v r).1
  unfold periodicCallback
  dsimp only
  split <;> exact hread

variable (g : Gddv) (targets : List LinkTarget) (past : List Readings) (r : Readings)

/-- The table of the sensor is the one of the vault. -/
theorem vaultSensor_table : (vaultSensor g targets past).pollingTable = g.pollingTable := by
  unfold vaultSensor
  induction past using List.reverseRecOn with
  | nil =>
      simp [VirtualForm.sensor, links_of_targets, table_of_entries, enablePeriodicTimer, create]
  | append_singleton past r ih =>
      rw [run_append]
      exact (periodicCallback_table _ r).trans ih

/-- The rows that are found and wanted set the same period: they name the same one, or one names
the previous period and the other keeps it. A row with the period 0 keeps the previous one. -/
def SamePeriod (previous : Int) (found wanted : Option PollingTableEntry) : Prop :=
  match found, wanted with
  | some entry, some row =>
      (entry.samplePeriod ≠ 0 ∧ entry.samplePeriod = row.samplePeriod) ∨
        (entry.samplePeriod = 0 ∧ row.samplePeriod = previous)
  | some entry, none => entry.samplePeriod = 0 ∨ entry.samplePeriod = previous
  | none, some row => row.samplePeriod = previous
  | none, none => True

/-- The period after a sample. -/
theorem periodicCallback_period (v : VirtualSensor) (r : Readings) :
    (v.periodicCallback r).pollingPeriod =
      match lastAtMost v.pollingTable (v.readUncached r).2.lastTemp with
      | some entry => if entry.samplePeriod ≠ 0 then entry.samplePeriod else v.pollingPeriod
      | none => v.pollingPeriod := by
  obtain ⟨htable, hperiod⟩ := readUncached_table v r
  have hchosen : (v.readUncached r).2.samplePeriod =
      match lastAtMost v.pollingTable (v.readUncached r).2.lastTemp with
      | some entry => entry.samplePeriod
      | none => 0 := by
    unfold samplePeriod
    rw [htable]
    rfl
  unfold periodicCallback
  dsimp only
  rw [hchosen]
  cases lastAtMost v.pollingTable (v.readUncached r).2.lastTemp with
  | none => exact hperiod
  | some entry =>
      dsimp only
      split
      · rfl
      · exact hperiod

/-- The period after a sample is that of the last row whose temperature is at most the virtual one,
or the previous one if there is none, exactly if the last row that a thousand times the temperature
has reached sets the same period. -/
theorem sample_period_iff :
    ((vaultSensor g targets past).periodicCallback r).pollingPeriod =
        periodOf (vaultSensor g targets past).pollingPeriod
          (lastAtMost g.pollingTable (virtualTemp targets (past ++ [r]))) ↔
      SamePeriod (vaultSensor g targets past).pollingPeriod
        (lastAtMost g.pollingTable (int32 (virtualTemp targets (past ++ [r]) * 1000)))
        (lastAtMost g.pollingTable (virtualTemp targets (past ++ [r]))) := by
  have hstored := (advanced_reads g.pollingTable targets past r).2.1
  rw [periodicCallback_period, vaultSensor_table]
  have hlast : ((vaultSensor g targets past).readUncached r).2.lastTemp =
      int32 (virtualTemp targets (past ++ [r]) * 1000) := hstored
  rw [hlast]
  cases lastAtMost g.pollingTable (int32 (virtualTemp targets (past ++ [r]) * 1000)) with
  | none =>
      cases lastAtMost g.pollingTable (virtualTemp targets (past ++ [r])) with
      | none => simp [SamePeriod, periodOf]
      | some row => simp [SamePeriod, periodOf, eq_comm]
  | some entry =>
      by_cases hzero : entry.samplePeriod = 0
      · cases lastAtMost g.pollingTable (virtualTemp targets (past ++ [r])) with
        | none => simp [SamePeriod, periodOf, hzero]
        | some row => simp [SamePeriod, periodOf, hzero, eq_comm]
      · cases lastAtMost g.pollingTable (virtualTemp targets (past ++ [r])) with
        | none => simp [SamePeriod, periodOf, hzero]
        | some row => simp [SamePeriod, periodOf, hzero]

/-- A vault whose sensor is sampled every minute from 20 degrees on, and every ten seconds from
60 degrees on. -/
def twoPeriods : Gddv :=
  { Gddv.init with vspts := [⟨20, 60⟩, ⟨60, 10⟩] }

/-- One link that shows its sensor. -/
def plainTarget : LinkTarget := ⟨some 0, 1, 1, false⟩

/-- The sensor is sampled every ten seconds at 30 degrees, although that is for 60 degrees. -/
theorem early_sample_period :
    virtualTemp [plainTarget] ([] ++ [fun _ => 30000]) = 30 ∧
      ((vaultSensor twoPeriods [plainTarget] []).periodicCallback
        fun _ => 30000).pollingPeriod = 10 ∧
      periodOf (vaultSensor twoPeriods [plainTarget] []).pollingPeriod
        (lastAtMost twoPeriods.pollingTable
          (virtualTemp [plainTarget] ([] ++ [fun _ => 30000]))) = 60 := by
  have hshown : virtualTemp [plainTarget] ([] ++ [fun _ => 30000]) = 30 := by
    have hdegrees : Int.tdiv 30000 1000 = 30 := rfl
    norm_num [virtualTemp, plainTarget, linearTarget, restartedTemp, contributions,
      restartedAverage, LinkTarget.temp, LinkSensor.temp, toInt, stdRound, int32, hdegrees]
  have hstored : ((vaultSensor twoPeriods [plainTarget] []).readUncached
      fun _ => 30000).2.lastTemp = int32 (30 * 1000) := by
    have h := (advanced_reads twoPeriods.pollingTable [plainTarget] [] fun _ => 30000).2.1
    rw [hshown] at h
    exact h
  refine ⟨hshown, ?_, ?_⟩
  · rw [periodicCallback_period, vaultSensor_table, hstored]
    rfl
  · rw [hshown]
    rfl

end Thermald
