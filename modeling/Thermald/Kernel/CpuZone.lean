import Mathlib.Data.List.Perm.Basic
import Thermald.Kernel.TripNumbers

/-!
# The temperatures of the processor zone

`cthd_zone_cpu::init` takes the lowest `temp*_crit` and the lowest `temp*_max` of the coretemp
sensors, and corrects a maximum that is too close to the critical temperature. The loop takes 0 for
"nothing seen yet", so a reading of 0 makes it forget what came before. `init_meets_iff` says for
which readings the outcome is as intended and does not depend on the order of the sensors.
-/

namespace Thermald

/-- The attributes `temp*_crit` and `temp*_max` of one number. -/
structure CoretempSensor where
  crit : NumberFile
  max : NumberFile

/-- The members of `cthd_zone_cpu` that `init` sets. -/
structure CpuZone where
  criticalTemp : Int
  maxTemp : Int
  psvTemp : Int
  sensorMask : Nat
  deriving DecidableEq

namespace CpuZone

def defOffsetFromCritical : Int := 10000

def defCriticalTemp : Int := 100000

/-- The variables of the loop. The reading stays what it was if an attribute is empty. -/
structure Scan where
  temp : Int
  criticalTemp : Int
  maxTemp : Int
  sensorMask : Nat
  found : Bool

/-- The lower one of two temperatures, where 0 stands for none. -/
def lowest (seen temp : Int) : Int :=
  if seen = 0 ∨ temp < seen then temp else seen

/-- The loop body up to `temp*_crit`. There is no result if the read fails. -/
def scanCrit (c : CoretempSensor) (s : Scan) : Option Scan :=
  if c.crit = .absent then some s
  else (c.crit.read s.temp).map fun temp =>
    { s with temp, criticalTemp := lowest s.criticalTemp temp }

/-- The loop body from `temp*_max` on, with the mark that the loop leaves before it reads. -/
def scanMax (c : CoretempSensor) (i : Nat) (s : Scan) : Bool × Scan :=
  if c.max = .absent then (true, s)
  else
    let s := { s with sensorMask := s.sensorMask ||| 1 <<< i }
    match c.max.read s.temp with
    | none => (false, s)
    | some temp => (true, { s with temp, maxTemp := lowest s.maxTemp temp, found := true })

/-- The loop over the sensors, from a number on. -/
def scanSensors : List CoretempSensor → Nat → Scan → Bool × Scan
  | [], _, s => (true, s)
  | c :: rest, i, s =>
    match scanCrit c s with
    | none => (false, s)
    | some s =>
      match scanMax c i s with
      | (false, s) => (false, s)
      | (true, s) => scanSensors rest (i + 1) s

/-- `init`, for the sensors in the order of their numbers. -/
def init (z : CpuZone) (sensors : List CoretempSensor) : Bool × CpuZone :=
  let (ok, s) := scanSensors sensors 0 ⟨0, 0, 0, z.sensorMask, false⟩
  let z := { z with
    criticalTemp := s.criticalTemp, maxTemp := s.maxTemp, sensorMask := s.sensorMask }
  if !ok || !s.found then (false, z)
  else
    let criticalTemp := if z.criticalTemp = 0 then defCriticalTemp else z.criticalTemp
    let maxTemp := if z.maxTemp = 0 then criticalTemp - defOffsetFromCritical else z.maxTemp
    let maxTemp :=
      if criticalTemp - maxTemp < defOffsetFromCritical then criticalTemp - defOffsetFromCritical
      else maxTemp
    let psvTemp := maxTemp + (criticalTemp - maxTemp).tdiv 2
    (true, { z with criticalTemp, maxTemp, psvTemp })

/-! ## Readings -/

/-- The number in an attribute. -/
def reading : NumberFile → Option Int
  | .value n => some n
  | _ => none

/-- The attribute is absent, or it has a reading that is not negative. -/
def Plausible (f : NumberFile) : Prop :=
  f = .absent ∨ ∃ n, f = .value n ∧ 0 ≤ n

/-- The readings of `temp*_crit`. -/
def critReadings (sensors : List CoretempSensor) : List Int :=
  sensors.filterMap fun c => reading c.crit

/-- The readings of `temp*_max`. -/
def maxReadings (sensors : List CoretempSensor) : List Int :=
  sensors.filterMap fun c => reading c.max

/-- The lowest reading that is positive. -/
def leastPositive (readings : List Int) : Option Int :=
  (readings.filter (0 < ·)).min?

/-- The critical temperature that is intended. -/
def intendedCritical (sensors : List CoretempSensor) : Int :=
  (leastPositive (critReadings sensors)).getD defCriticalTemp

/-- The same attributes at other sensors, those of the two kinds independently of each other. -/
structure Rearranged (sensors' sensors : List CoretempSensor) : Prop where
  crit : (sensors'.map (·.crit)).Perm (sensors.map (·.crit))
  max : (sensors'.map (·.max)).Perm (sensors.map (·.max))

/-- `init` succeeds with the intended critical temperature, a maximum that is far enough below it
and a passive temperature between the two, and the attributes in other places give no other
temperatures. -/
structure InitMeets (z : CpuZone) (sensors : List CoretempSensor) : Prop where
  succeeds : (z.init sensors).1 = true
  critical : (z.init sensors).2.criticalTemp = intendedCritical sensors
  far : (z.init sensors).2.maxTemp ≤ (z.init sensors).2.criticalTemp - defOffsetFromCritical
  between : (z.init sensors).2.maxTemp ≤ (z.init sensors).2.psvTemp ∧
    (z.init sensors).2.psvTemp ≤ (z.init sensors).2.criticalTemp
  permuted : ∀ sensors', Rearranged sensors' sensors →
    (z.init sensors').2.criticalTemp = (z.init sensors).2.criticalTemp ∧
    (z.init sensors').2.maxTemp = (z.init sensors).2.maxTemp ∧
    (z.init sensors').2.psvTemp = (z.init sensors).2.psvTemp

/-- The condition on the readings: where one of them is 0, forgetting positive ones changes
nothing. The positive critical temperatures are the default one, and the positive maxima are above
what a maximum is limited to. -/
structure ZerosHarmless (sensors : List CoretempSensor) : Prop where
  crit : 0 ∈ critReadings sensors → ∀ t ∈ critReadings sensors, 0 < t → t = defCriticalTemp
  max : 0 ∈ maxReadings sensors → ∀ t ∈ maxReadings sensors, 0 < t →
    intendedCritical sensors - defOffsetFromCritical ≤ t

/-! ## The lowest reading -/

/-- What the loop finds among some readings. -/
def found (readings : List Int) : Int := readings.foldl lowest 0

section Found

variable {readings : List Int} {t : Int}

theorem found_concat : found (readings ++ [t]) = lowest (found readings) t := by
  simp [found]

/-- It is one of the readings, or nothing has been seen. -/
theorem found_mem (readings : List Int) : found readings = 0 ∨ found readings ∈ readings := by
  induction readings using List.reverseRecOn with
  | nil => exact .inl rfl
  | append_singleton readings t ih =>
      rw [found_concat]
      unfold lowest
      split
      · exact .inr (by simp)
      · exact ih.imp_right fun hmem => List.mem_append_left _ hmem

/-- Readings are not negative, and so is what is found. -/
theorem found_nonneg (h : ∀ t ∈ readings, 0 ≤ t) : 0 ≤ found readings := by
  rcases found_mem readings with hzero | hmem
  · exact hzero.ge
  · exact h _ hmem

/-- A reading of 0 is as if nothing had been seen. -/
theorem found_zero (h : ∀ t ∈ readings, 0 ≤ t) : found (readings ++ [0]) = 0 := by
  have hnonneg := found_nonneg h
  rw [found_concat]
  unfold lowest
  split
  · rfl
  · omega

/-- The first reading behind it is taken. -/
theorem found_zero_next (h : ∀ t ∈ readings, 0 ≤ t) (t : Int) :
    found (readings ++ [0, t]) = t := by
  rw [show readings ++ [0, t] = readings ++ [0] ++ [t] by simp, found_concat, found_zero h]
  simp [lowest]

theorem least_positive_eq_some : leastPositive readings = some t ↔
    (t ∈ readings ∧ 0 < t) ∧ ∀ t' ∈ readings, 0 < t' → t ≤ t' := by
  unfold leastPositive
  rw [List.min?_eq_some_iff]
  simp

theorem least_positive_eq_none : leastPositive readings = none ↔ ∀ t ∈ readings, ¬ 0 < t := by
  unfold leastPositive
  rw [List.min?_eq_none_iff, List.filter_eq_nil_iff]
  simp

/-- The order plays no part. -/
theorem least_positive_perm {readings' : List Int} (h : readings'.Perm readings) :
    leastPositive readings' = leastPositive readings := by
  apply Option.ext
  intro t
  rw [least_positive_eq_some, least_positive_eq_some]
  simp only [h.mem_iff]

/-- If all readings are positive, it is positive and at most each of them. -/
theorem found_le (h : ∀ t ∈ readings, 0 < t) :
    ∀ t ∈ readings, 0 < found readings ∧ found readings ≤ t := by
  induction readings using List.reverseRecOn with
  | nil => exact fun t ht => absurd ht List.not_mem_nil
  | append_singleton readings last ih =>
      intro t ht
      have hlast : 0 < last :=
        h last (List.mem_append_right readings (List.mem_singleton_self last))
      have hpast := ih fun t ht => h t (List.mem_append_left _ ht)
      rw [found_concat]
      unfold lowest
      rcases List.mem_append.mp ht with ht | ht
      · have := hpast t ht
        split <;> omega
      · rw [List.mem_singleton.mp ht]
        rcases found_mem readings with hzero | hmem
        · simp [hzero, hlast]
        · have := hpast _ hmem
          split <;> omega

/-- Then it is the lowest one. -/
theorem found_eq (h : ∀ t ∈ readings, 0 < t) :
    found readings = (leastPositive readings).getD 0 := by
  rcases found_mem readings with hzero | hmem
  · have hnone : leastPositive readings = none :=
      least_positive_eq_none.mpr fun t ht _ => (found_le h t ht).1.ne' hzero
    rw [hzero, hnone]
    rfl
  · have hsome : leastPositive readings = some (found readings) :=
      least_positive_eq_some.mpr ⟨⟨hmem, h _ hmem⟩, fun t ht _ => (found_le h t ht).2⟩
    rw [hsome]
    rfl

theorem pos_of_no_zero (h : ∀ t ∈ readings, 0 ≤ t) (hzero : 0 ∉ readings) :
    ∀ t ∈ readings, 0 < t := by
  intro t ht
  refine lt_of_le_of_ne (h t ht) fun heq => ?_
  rw [heq] at hzero
  exact hzero ht

end Found

/-! ## What `init` computes -/

/-- The critical temperature, from the lowest reading. -/
def criticalOf (seen : Int) : Int :=
  if seen = 0 then defCriticalTemp else seen

/-- The maximum, from the critical temperature and the lowest reading. -/
def maxOf (criticalTemp seen : Int) : Int :=
  if seen = 0 then criticalTemp - defOffsetFromCritical
  else min seen (criticalTemp - defOffsetFromCritical)

/-- The passive temperature. -/
def psvOf (criticalTemp maxTemp : Int) : Int :=
  maxTemp + (criticalTemp - maxTemp).tdiv 2

section Values

variable {sensors : List CoretempSensor}

/-- The attributes of all sensors are absent or have readings. -/
def AllPlausible (sensors : List CoretempSensor) : Prop :=
  ∀ c ∈ sensors, Plausible c.crit ∧ Plausible c.max

theorem readings_nonneg {f : CoretempSensor → NumberFile} (h : ∀ c ∈ sensors, Plausible (f c)) :
    ∀ t ∈ sensors.filterMap fun c => reading (f c), 0 ≤ t := by
  intro t ht
  obtain ⟨c, hc, hreading⟩ := List.mem_filterMap.mp ht
  rcases h c hc with habsent | ⟨n, hvalue, hn⟩
  · rw [habsent] at hreading
    cases hreading
  · rw [hvalue] at hreading
    exact Option.some.inj hreading ▸ hn

/-- The first half of the loop body. -/
theorem scan_crit_eq {c : CoretempSensor} (h : Plausible c.crit) (s : Scan) :
    ∃ temp, scanCrit c s = some { s with
      temp, criticalTemp := (reading c.crit).toList.foldl lowest s.criticalTemp } := by
  unfold scanCrit
  rcases h with habsent | ⟨n, hvalue, -⟩
  · exact ⟨s.temp, by simp [habsent, reading]⟩
  · exact ⟨n, by simp [hvalue, reading, NumberFile.read]⟩

/-- The second half. -/
theorem scan_max_eq {c : CoretempSensor} (h : Plausible c.max) (i : Nat) (s : Scan) :
    ∃ temp sensorMask, scanMax c i s = (true, { s with
      temp, sensorMask, maxTemp := (reading c.max).toList.foldl lowest s.maxTemp
      found := s.found || (reading c.max).isSome }) := by
  unfold scanMax
  rcases h with habsent | ⟨n, hvalue, -⟩
  · exact ⟨s.temp, s.sensorMask, by simp [habsent, reading]⟩
  · exact ⟨n, s.sensorMask ||| 1 <<< i, by simp [hvalue, reading, NumberFile.read]⟩

/-- The loop goes through all sensors and takes the readings of each attribute one after the
other. -/
theorem scan_sensors_eq (h : AllPlausible sensors) (i : Nat) (s : Scan) :
    ∃ temp sensorMask, scanSensors sensors i s =
      (true, ⟨temp, (critReadings sensors).foldl lowest s.criticalTemp,
        (maxReadings sensors).foldl lowest s.maxTemp, sensorMask,
        s.found || (maxReadings sensors) ≠ []⟩) := by
  induction sensors generalizing i s with
  | nil => exact ⟨s.temp, s.sensorMask, by simp [scanSensors, critReadings, maxReadings]⟩
  | cons c rest ih =>
      obtain ⟨hcrit, hmax⟩ := h c List.mem_cons_self
      obtain ⟨temp₁, h₁⟩ := scan_crit_eq hcrit s
      obtain ⟨temp₂, mask₂, h₂⟩ := scan_max_eq hmax i { s with
        temp := temp₁, criticalTemp := (reading c.crit).toList.foldl lowest s.criticalTemp }
      obtain ⟨temp₃, mask₃, h₃⟩ := ih (fun c hc => h c (List.mem_cons_of_mem _ hc)) (i + 1) _
      refine ⟨temp₃, mask₃, ?_⟩
      unfold scanSensors
      rw [h₁]
      simp only
      rw [h₂]
      simp only
      rw [h₃]
      cases hcritReading : reading c.crit <;> cases hmaxReading : reading c.max <;>
        simp [critReadings, maxReadings, hcritReading, hmaxReading]

/-- The temperatures that `init` leaves. -/
theorem init_eq (z : CpuZone) (h : AllPlausible sensors) (hmax : maxReadings sensors ≠ []) :
    ∃ sensorMask, z.init sensors =
      (true, ⟨criticalOf (found (critReadings sensors)),
        maxOf (criticalOf (found (critReadings sensors))) (found (maxReadings sensors)),
        psvOf (criticalOf (found (critReadings sensors)))
          (maxOf (criticalOf (found (critReadings sensors))) (found (maxReadings sensors))),
        sensorMask⟩) := by
  obtain ⟨temp, sensorMask, hscan⟩ := scan_sensors_eq h 0 ⟨0, 0, 0, z.sensorMask, false⟩
  refine ⟨sensorMask, ?_⟩
  have hlimit (c seen : Int) : (if c - (if seen = 0 then c - defOffsetFromCritical else seen) <
      defOffsetFromCritical then c - defOffsetFromCritical
      else if seen = 0 then c - defOffsetFromCritical else seen) = maxOf c seen := by
    unfold maxOf
    split_ifs <;> omega
  unfold init
  rw [hscan]
  simp only [hmax, Bool.not_true, Bool.false_or, ne_eq, not_false_eq_true, decide_true,
    Bool.false_eq_true, if_false, hlimit]
  rfl

/-- The passive temperature is between the two. -/
theorem psv_of_between {c m : Int} (h : m ≤ c - defOffsetFromCritical) :
    m ≤ psvOf c m ∧ psvOf c m ≤ c := by
  unfold psvOf
  unfold defOffsetFromCritical at h
  rw [Int.tdiv_eq_ediv_of_nonneg (by omega)]
  omega

/-! ## Harmless zeros -/

variable {sensors' : List CoretempSensor}

/-- Sensors in another order. -/
theorem rearranged_of_perm (h : sensors'.Perm sensors) : Rearranged sensors' sensors :=
  ⟨h.map _, h.map _⟩

namespace Rearranged

variable (h : Rearranged sensors' sensors)

include h

theorem all_plausible (hvalid : AllPlausible sensors) : AllPlausible sensors' := by
  intro c hc
  obtain ⟨b, hb, hcrit⟩ := List.mem_map.mp (h.crit.mem_iff.mp (List.mem_map_of_mem hc))
  obtain ⟨b', hb', hmax⟩ := List.mem_map.mp (h.max.mem_iff.mp (List.mem_map_of_mem hc))
  rw [← hcrit, ← hmax]
  exact ⟨(hvalid b hb).1, (hvalid b' hb').2⟩

theorem crit_readings : (critReadings sensors').Perm (critReadings sensors) := by
  have hreadings := h.crit.filterMap reading
  rwa [List.filterMap_map, List.filterMap_map] at hreadings

theorem max_readings : (maxReadings sensors').Perm (maxReadings sensors) := by
  have hreadings := h.max.filterMap reading
  rwa [List.filterMap_map, List.filterMap_map] at hreadings

theorem max_readings_ne_nil (hmax : maxReadings sensors ≠ []) : maxReadings sensors' ≠ [] := by
  intro hnil
  have hperm := h.max_readings
  rw [hnil] at hperm
  exact hmax hperm.symm.eq_nil

theorem intended_critical : intendedCritical sensors' = intendedCritical sensors := by
  unfold intendedCritical
  rw [least_positive_perm h.crit_readings]

/-- The places play no part in the condition. -/
theorem zeros_harmless (hzeros : ZerosHarmless sensors) : ZerosHarmless sensors' where
  crit hzero t ht := hzeros.crit (h.crit_readings.mem_iff.mp hzero) t
    (h.crit_readings.mem_iff.mp ht)
  max hzero t ht := h.intended_critical ▸
    hzeros.max (h.max_readings.mem_iff.mp hzero) t (h.max_readings.mem_iff.mp ht)

end Rearranged

/-- Then the critical temperature is the intended one. -/
theorem ZerosHarmless.critical (h : ZerosHarmless sensors) (hvalid : AllPlausible sensors) :
    criticalOf (found (critReadings sensors)) = intendedCritical sensors := by
  have hnonneg : ∀ t ∈ critReadings sensors, 0 ≤ t :=
    readings_nonneg fun c hc => (hvalid c hc).1
  unfold intendedCritical
  by_cases hzero : 0 ∈ critReadings sensors
  · -- whatever is found, it is the default
    have hfound : criticalOf (found (critReadings sensors)) = defCriticalTemp := by
      unfold criticalOf
      split
      · rfl
      · rename_i hseen
        have hmem := (found_mem (critReadings sensors)).resolve_left hseen
        exact h.crit hzero _ hmem (lt_of_le_of_ne (hnonneg _ hmem) (Ne.symm hseen))
    rw [hfound]
    cases hleast : leastPositive (critReadings sensors) with
    | none => rfl
    | some t =>
        obtain ⟨⟨hmem, hpos⟩, -⟩ := least_positive_eq_some.mp hleast
        exact (h.crit hzero t hmem hpos).symm
  · have hpos := pos_of_no_zero hnonneg hzero
    rw [found_eq hpos]
    cases hleast : leastPositive (critReadings sensors) with
    | none => rfl
    | some t =>
        obtain ⟨⟨-, hpos⟩, -⟩ := least_positive_eq_some.mp hleast
        exact if_neg hpos.ne'

/-- The maximum that does not depend on the places of the attributes. -/
def intendedMax (sensors : List CoretempSensor) : Int :=
  min ((leastPositive (maxReadings sensors)).getD
    (intendedCritical sensors - defOffsetFromCritical))
    (intendedCritical sensors - defOffsetFromCritical)

theorem Rearranged.intended_max (h : Rearranged sensors' sensors) :
    intendedMax sensors' = intendedMax sensors := by
  unfold intendedMax
  rw [least_positive_perm h.max_readings, h.intended_critical]

/-- Then the maximum is this one. -/
theorem ZerosHarmless.maximum (h : ZerosHarmless sensors) (hvalid : AllPlausible sensors) :
    maxOf (intendedCritical sensors) (found (maxReadings sensors)) = intendedMax sensors := by
  have hnonneg : ∀ t ∈ maxReadings sensors, 0 ≤ t :=
    readings_nonneg fun c hc => (hvalid c hc).2
  unfold intendedMax
  by_cases hzero : 0 ∈ maxReadings sensors
  · -- whatever is found, it is above the limit
    have hfound : maxOf (intendedCritical sensors) (found (maxReadings sensors)) =
        intendedCritical sensors - defOffsetFromCritical := by
      unfold maxOf
      split
      · rfl
      · rename_i hseen
        have hmem := (found_mem (maxReadings sensors)).resolve_left hseen
        exact min_eq_right
          (h.max hzero _ hmem (lt_of_le_of_ne (hnonneg _ hmem) (Ne.symm hseen)))
    rw [hfound]
    cases hleast : leastPositive (maxReadings sensors) with
    | none => exact (min_self _).symm
    | some t =>
        obtain ⟨⟨hmem, hpos⟩, -⟩ := least_positive_eq_some.mp hleast
        exact (min_eq_right (h.max hzero t hmem hpos)).symm
  · have hpos := pos_of_no_zero hnonneg hzero
    rw [found_eq hpos]
    cases hleast : leastPositive (maxReadings sensors) with
    | none => exact (min_self _).symm
    | some t =>
        obtain ⟨⟨-, hpos⟩, -⟩ := least_positive_eq_some.mp hleast
        exact if_neg hpos.ne'

/-- The temperatures do not depend on the places of the attributes. -/
theorem ZerosHarmless.init (h : ZerosHarmless sensors) (z : CpuZone)
    (hvalid : AllPlausible sensors) (hmax : maxReadings sensors ≠ []) :
    ∃ sensorMask, z.init sensors = (true, ⟨intendedCritical sensors, intendedMax sensors,
      psvOf (intendedCritical sensors) (intendedMax sensors), sensorMask⟩) := by
  obtain ⟨sensorMask, hinit⟩ := init_eq z hvalid hmax
  rw [h.critical hvalid, h.maximum hvalid] at hinit
  exact ⟨sensorMask, hinit⟩

/-! ## Harmful zeros -/

/-- Two sensors that differ, moved to the end. -/
theorem exists_last_two {c c' : CoretempSensor} (hc : c ∈ sensors) (hc' : c' ∈ sensors)
    (hne : c ≠ c') : ∃ rest, (rest ++ [c, c']).Perm sensors ∧ (rest ++ [c', c]).Perm sensors := by
  have hnodup : [c, c'].Nodup := by simp [hne]
  have hsubset : [c, c'] ⊆ sensors :=
    List.cons_subset.mpr ⟨hc, List.cons_subset.mpr ⟨hc', List.nil_subset sensors⟩⟩
  obtain ⟨l, hl, hsub⟩ := List.subperm_of_subset hnodup hsubset
  obtain ⟨rest, hrest⟩ := hsub.exists_perm_append
  have hlast : (rest ++ [c, c']).Perm sensors :=
    (List.perm_append_comm.trans (hl.symm.append_right rest)).trans hrest.symm
  exact ⟨rest, hlast, ((List.Perm.swap c c' []).append_left rest).trans hlast⟩

/-- Of a reading of 0 and one that is not, the last one decides what is found. -/
theorem exists_arranged {f : CoretempSensor → NumberFile} (h : ∀ c ∈ sensors, Plausible (f c))
    (hzero : 0 ∈ sensors.filterMap fun c => reading (f c)) {t : Int}
    (ht : t ∈ sensors.filterMap fun c => reading (f c)) (hpos : 0 < t) :
    (∃ sensors' : List CoretempSensor, sensors'.Perm sensors ∧
      found (sensors'.filterMap fun c => reading (f c)) = 0) ∧
    ∃ sensors' : List CoretempSensor, sensors'.Perm sensors ∧
      found (sensors'.filterMap fun c => reading (f c)) = t := by
  obtain ⟨c, hc, hczero⟩ := List.mem_filterMap.mp hzero
  obtain ⟨c', hc', hct⟩ := List.mem_filterMap.mp ht
  have hne : c ≠ c' := by
    intro heq
    rw [heq, hct] at hczero
    exact hpos.ne' (Option.some.inj hczero)
  obtain ⟨rest, hperm, hperm'⟩ := exists_last_two hc hc' hne
  have hrest : ∀ t ∈ rest.filterMap fun c => reading (f c), 0 ≤ t :=
    readings_nonneg fun c hc => h c (hperm.mem_iff.mp (List.mem_append_left _ hc))
  refine ⟨⟨_, hperm', ?_⟩, _, hperm, ?_⟩
  · have hreadings : (rest ++ [c', c]).filterMap (fun c => reading (f c)) =
        rest.filterMap (fun c => reading (f c)) ++ [t] ++ [0] := by
      simp [hczero, hct]
    rw [hreadings]
    refine found_zero fun t' ht' => ?_
    rcases List.mem_append.mp ht' with ht' | ht'
    · exact hrest t' ht'
    · rw [List.mem_singleton.mp ht']
      exact hpos.le
  · have hreadings : (rest ++ [c, c']).filterMap (fun c => reading (f c)) =
        rest.filterMap (fun c => reading (f c)) ++ [0, t] := by
      simp [hczero, hct]
    rw [hreadings]
    exact found_zero_next hrest t

variable {z : CpuZone}

/-- What `init` leaves in another order. -/
theorem InitMeets.arranged (h : z.InitMeets sensors) (hvalid : AllPlausible sensors)
    (hmax : maxReadings sensors ≠ []) (hperm : sensors'.Perm sensors) :
    criticalOf (found (critReadings sensors')) = intendedCritical sensors ∧
      maxOf (intendedCritical sensors) (found (maxReadings sensors')) =
        (z.init sensors).2.maxTemp := by
  have hrearranged := rearranged_of_perm hperm
  obtain ⟨sensorMask, hinit⟩ := init_eq z (hrearranged.all_plausible hvalid)
    (hrearranged.max_readings_ne_nil hmax)
  obtain ⟨hcritical, hmaximum, -⟩ := h.permuted sensors' hrearranged
  rw [hinit] at hcritical hmaximum
  have hcritical : criticalOf (found (critReadings sensors')) = intendedCritical sensors :=
    hcritical.trans h.critical
  rw [hcritical] at hmaximum
  exact ⟨hcritical, hmaximum⟩

/-- If `init` meets its purpose then the zeros are harmless. -/
theorem InitMeets.harmless (h : z.InitMeets sensors) (hvalid : AllPlausible sensors)
    (hmax : maxReadings sensors ≠ []) : ZerosHarmless sensors where
  crit hzero t ht hpos := by
    obtain ⟨⟨s₀, hperm₀, hfound₀⟩, s₁, hperm₁, hfound₁⟩ :=
      exists_arranged (fun c hc => (hvalid c hc).1) hzero ht hpos
    have hdefault := (h.arranged hvalid hmax hperm₀).1
    have hlast := (h.arranged hvalid hmax hperm₁).1
    rw [critReadings, hfound₀] at hdefault
    rw [critReadings, hfound₁, criticalOf, if_neg hpos.ne'] at hlast
    exact hlast.trans hdefault.symm
  max hzero t ht hpos := by
    obtain ⟨⟨s₀, hperm₀, hfound₀⟩, s₁, hperm₁, hfound₁⟩ :=
      exists_arranged (fun c hc => (hvalid c hc).2) hzero ht hpos
    have hlimit := (h.arranged hvalid hmax hperm₀).2
    have hlast := (h.arranged hvalid hmax hperm₁).2
    rw [maxReadings, hfound₀, maxOf, if_pos rfl] at hlimit
    rw [maxReadings, hfound₁, maxOf, if_neg hpos.ne', ← hlimit] at hlast
    exact hlast.ge.trans (min_le_left _ _)

end Values

/-- For sensors whose attributes are absent or have readings that are not negative, with at least
one maximum, `init` leaves the intended temperatures, the same for the attributes in other places,
exactly if the readings of 0 are harmless. -/
theorem init_meets_iff (z : CpuZone) (sensors : List CoretempSensor)
    (hvalid : ∀ c ∈ sensors, Plausible c.crit ∧ Plausible c.max)
    (hmax : maxReadings sensors ≠ []) : z.InitMeets sensors ↔ ZerosHarmless sensors := by
  constructor
  · intro h
    exact h.harmless hvalid hmax
  · intro h
    obtain ⟨sensorMask, hinit⟩ := h.init z hvalid hmax
    have hfar : intendedMax sensors ≤ intendedCritical sensors - defOffsetFromCritical :=
      min_le_right _ _
    refine ⟨?_, ?_, ?_, ?_, fun sensors' hrearranged => ?_⟩
    · rw [hinit]
    · rw [hinit]
    · rw [hinit]
      exact hfar
    · rw [hinit]
      exact psv_of_between hfar
    · obtain ⟨sensorMask', hinit'⟩ := (hrearranged.zeros_harmless h).init z
        (hrearranged.all_plausible hvalid) (hrearranged.max_readings_ne_nil hmax)
      rw [hinit, hinit', hrearranged.intended_critical, hrearranged.intended_max]
      exact ⟨rfl, rfl, rfl⟩

/-- A processor zone before `init`. -/
def new : CpuZone := ⟨0, 0, 0, 0⟩

/-- A package and a core without a critical temperature. -/
def twoSensors : List CoretempSensor := [⟨.value 100000, .value 80000⟩, ⟨.absent, .value 84000⟩]

/-- They have no readings of 0. -/
theorem two_sensors_meet : new.InitMeets twoSensors := by
  refine (init_meets_iff new twoSensors ?_ (by decide)).mpr ⟨by decide, by decide⟩
  intro c hc
  rcases List.mem_cons.mp hc with rfl | hc
  · exact ⟨.inr ⟨100000, rfl, by decide⟩, .inr ⟨80000, rfl, by decide⟩⟩
  · rw [List.mem_singleton.mp hc]
    exact ⟨.inl rfl, .inr ⟨84000, rfl, by decide⟩⟩

/-- A core whose critical temperature reads 0. -/
def zeroCrit : List CoretempSensor := [⟨.value 90000, .value 80000⟩, ⟨.value 0, .absent⟩]

/-- It replaces the critical temperature of the package by the default. -/
theorem zero_crit_not_met :
    (∀ c ∈ zeroCrit, Plausible c.crit ∧ Plausible c.max) ∧ maxReadings zeroCrit ≠ [] ∧
      (∀ t ∈ critReadings zeroCrit, 0 < t → 10000 ≤ t) ∧
      (new.init zeroCrit).2.criticalTemp = 100000 ∧ ¬ new.InitMeets zeroCrit := by
  have hcritical : (new.init zeroCrit).2.criticalTemp = 100000 := by decide
  refine ⟨fun c hc => ?_, by decide, by decide, hcritical, fun h => ?_⟩
  · rcases List.mem_cons.mp hc with rfl | hc
    · exact ⟨.inr ⟨90000, rfl, by decide⟩, .inr ⟨80000, rfl, by decide⟩⟩
    · rw [List.mem_singleton.mp hc]
      exact ⟨.inr ⟨0, rfl, le_refl 0⟩, .inl rfl⟩
  · have hintended : intendedCritical zeroCrit = 90000 := by decide
    have heq := h.critical
    rw [hcritical, hintended] at heq
    exact absurd heq (by decide)

end CpuZone

end Thermald
