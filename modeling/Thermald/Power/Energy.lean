import Mathlib.Data.List.Chain
import Mathlib.Tactic.Common
import Mathlib.Tactic.Ring
import Thermald.Power.Meter

/-!
# The energy of a domain

The hardware counter of a domain wraps around at the end of its range. The meter notices it by a
flag that is set in the upper half of the range, and adds the range once for every wrap around.

`Metered` relates a domain to the energy that has really been used. A sample keeps it as long as the
counter moves by less than half of the range (`account_metered`), so the energy of the meter is the
true one, up to the rounding of the samples and of the range (`energy_total_tracks`). The sum is
kept in 64 bits: past that it starts again from zero (`energy_total_overflows`).
-/

namespace Thermald

open RaplDomain RaplPowerMeter

/-- The counters of a domain for an energy used since the zero of the hardware counter, which has
the range `R`. The flag is set exactly in the upper half. The range may not have been read yet. -/
structure Metered (R energy : Nat) (d : RaplDomain) : Prop where
  range : d.maxEnergyRange = 0 ∨ d.maxEnergyRange = (R : Int) / 1000
  threshold : d.maxEnergyRangeThreshold = d.maxEnergyRange / 2
  counter : d.energyCounter = ((energy % R : Nat) : Int) / 1000
  cumulative : d.energyCumulativeCounter = uint64 ((energy / R : Nat) * ((R : Int) / 1000))
  halfWay : d.halfWay = decide ((R : Int) / 1000 / 2 < ((energy % R : Nat) : Int) / 1000)

/-- Two consecutive energies that the meter tells apart from all others with the same counters: at
most half of the range less two millijoules has been used between them. -/
def HalfRangeApart (R e e' : Nat) : Prop :=
  e ≤ e' ∧ 2 * (e' - e) + 4000 ≤ R

namespace Metered

variable {R e e' : Nat} {d : RaplDomain} {fs : SysFs} {elapsed : Int}

/-- A domain at the start of the measurement. -/
theorem fresh (type : DomainType) (path : String) : Metered R 0 (RaplDomain.fresh type path) where
  range := .inl rfl
  threshold := rfl
  counter := by simp [RaplDomain.fresh]
  cumulative := by simp [RaplDomain.fresh, uint64]
  halfWay := by
    have hnot : ¬(R : Int) / 1000 / 2 < 0 := by omega
    simp [RaplDomain.fresh, hnot]

/-- Reading the range changes nothing else, and it is known from then on. -/
theorem readRange (h : Metered R e d) (hrange : fs (rangePath d.path) = some R) :
    Metered R e (d.readRange fs) ∧ (d.readRange fs).maxEnergyRange = (R : Int) / 1000 := by
  have hknown : (d.readRange fs).maxEnergyRange = (R : Int) / 1000 := by
    unfold RaplDomain.readRange
    obtain hzero | hread := h.range
    · simp [hzero, hrange]
    · split
      · simp [hrange]
      · exact hread
  refine ⟨⟨.inr hknown, ?_, ?_, ?_, ?_⟩, hknown⟩
  · unfold RaplDomain.readRange
    split
    · rfl
    · exact h.threshold
  · rw [readRange_energyCounter]
    exact h.counter
  · rw [readRange_energyCumulativeCounter]
    exact h.cumulative
  · rw [readRange_halfWay]
    exact h.halfWay

/-- A sample in the same lap of the counter. -/
theorem account_same_lap (h : Metered R e d) (hknown : d.maxEnergyRange = (R : Int) / 1000)
    (hle : e ≤ e') (hlap : e' / R = e / R) : Metered R e' (d.account (e' % R) elapsed) := by
  have hpos : e % R ≤ e' % R := by
    have h₁ := Nat.div_add_mod e R
    have h₂ := Nat.div_add_mod e' R
    rw [hlap] at h₂
    omega
  have hwraps : d.wraps (((e' % R : Nat) : Int) / 1000) = false := by
    unfold wraps
    rw [h.halfWay, h.threshold, hknown]
    by_cases hhalf : (R : Int) / 1000 / 2 < ((e % R : Nat) : Int) / 1000
    · have hnot : ¬((e' % R : Nat) : Int) / 1000 < (R : Int) / 1000 / 2 := by omega
      rw [decide_eq_false hnot, Bool.and_false]
    · rw [decide_eq_false hhalf, Bool.false_and]
  refine ⟨.inr hknown, h.threshold, rfl, ?_, ?_⟩
  · simp only [account, hwraps, Bool.false_eq_true, if_false]
    rw [h.cumulative, hlap]
  · simp only [account, hwraps, Bool.false_eq_true, if_false]
    rw [h.halfWay, h.threshold, hknown]
    by_cases hhalf : (R : Int) / 1000 / 2 < ((e % R : Nat) : Int) / 1000
    · have hhalf' : (R : Int) / 1000 / 2 < ((e' % R : Nat) : Int) / 1000 := by omega
      rw [decide_eq_true hhalf, decide_eq_true hhalf', Bool.true_or]
    · rw [decide_eq_false hhalf, Bool.false_or]

/-- A sample in the next lap, from the upper half of the range to the lower one. -/
theorem account_next_lap (h : Metered R e d) (hknown : d.maxEnergyRange = (R : Int) / 1000)
    (hlap : e' / R = e / R + 1)
    (hupper : (R : Int) / 1000 / 2 < ((e % R : Nat) : Int) / 1000)
    (hlower : ((e' % R : Nat) : Int) / 1000 < (R : Int) / 1000 / 2) :
    Metered R e' (d.account (e' % R) elapsed) := by
  have hwraps : d.wraps (((e' % R : Nat) : Int) / 1000) = true := by
    unfold wraps
    rw [h.halfWay, h.threshold, hknown, decide_eq_true hupper, decide_eq_true hlower]
    rfl
  refine ⟨.inr hknown, h.threshold, rfl, ?_, ?_⟩
  · simp only [account, hwraps, if_true]
    rw [h.cumulative, hknown, hlap]
    unfold uint64
    rw [Int.emod_add_emod]
    congr 1
    push_cast
    ring
  · have hnot : ¬(R : Int) / 1000 / 2 < ((e' % R : Nat) : Int) / 1000 := by omega
    simp only [account, hwraps, if_true]
    rw [decide_eq_false hnot]

/-- Within half of the range the counter stays in its lap or enters the next one. -/
theorem lap_cases (hR : 0 < R) (hapart : HalfRangeApart R e e') :
    e' / R = e / R ∨ e' / R = e / R + 1 := by
  obtain ⟨hle, hhalf⟩ := hapart
  have hlo : e / R ≤ e' / R := Nat.div_le_div_right hle
  have hhi : e' / R ≤ e / R + 1 := by
    rw [← Nat.add_div_right e hR]
    exact Nat.div_le_div_right (by omega)
  omega

/-- A lap is left from the upper half, and the next one entered in the lower half. The margin of
two millijoules is what the rounding of the counter and of the range can take away. -/
theorem halves_of_next_lap (hR : 0 < R) (hapart : HalfRangeApart R e e')
    (hlap : e' / R = e / R + 1) :
    (R : Int) / 1000 / 2 < ((e % R : Nat) : Int) / 1000 ∧
      ((e' % R : Nat) : Int) / 1000 < (R : Int) / 1000 / 2 := by
  obtain ⟨hle, hhalf⟩ := hapart
  have h₁ := Nat.div_add_mod e R
  have h₂ := Nat.div_add_mod e' R
  rw [hlap, Nat.mul_add, Nat.mul_one] at h₂
  have hmod := Nat.mod_lt e hR
  have hmod' := Nat.mod_lt e' hR
  omega

/-- A sample keeps the relation. -/
theorem account_metered (h : Metered R e d) (hknown : d.maxEnergyRange = (R : Int) / 1000)
    (hR : 0 < R) (hapart : HalfRangeApart R e e') : Metered R e' (d.account (e' % R) elapsed) := by
  obtain hsame | hnext := lap_cases hR hapart
  · exact h.account_same_lap hknown hapart.1 hsame
  · obtain ⟨hupper, hlower⟩ := halves_of_next_lap hR hapart hnext
    exact h.account_next_lap hknown hnext hupper hlower

/-- The sum of the counters, before it is reduced to 64 bits. -/
theorem energyTotal_eq (h : Metered R e d) :
    d.energyTotal = uint64 ((e % R / 1000 + e / R * (R / 1000) : Nat) : Int) := by
  unfold energyTotal
  rw [h.counter, h.cumulative]
  unfold uint64
  rw [Int.add_emod_emod]
  push_cast
  rfl

end Metered

/-! ## The sum of the counters -/

/-- The millijoules that the counters make of an energy. -/
def counted (R e : Nat) : Nat := e % R / 1000 + e / R * (R / 1000)

variable {R e e' : Nat}

/-- The counters never show more than has been used, and for every wrap around and for the present
lap at most a millijoule less. -/
theorem counted_bounds (R e : Nat) :
    1000 * counted R e ≤ e ∧ e ≤ 1000 * (counted R e + 1 + e / R) := by
  have hsplit := Nat.div_add_mod e R
  have hrange : 1000 * (e / R * (R / 1000)) ≤ R * (e / R) := by
    calc 1000 * (e / R * (R / 1000)) = 1000 * (R / 1000) * (e / R) := by ring
      _ ≤ R * (e / R) := Nat.mul_le_mul_right _ (Nat.mul_div_le R 1000)
  have hrange' : R * (e / R) ≤ 1000 * (e / R * (R / 1000)) + 1000 * (e / R) := by
    calc R * (e / R) ≤ (1000 * (R / 1000) + 1000) * (e / R) :=
          Nat.mul_le_mul_right _ (by omega)
      _ = 1000 * (e / R * (R / 1000)) + 1000 * (e / R) := by ring
  unfold counted
  omega

/-- More energy is never less on the counters. -/
theorem counted_mono (hR : 0 < R) (hle : e ≤ e') : counted R e ≤ counted R e' := by
  have hlo : e / R ≤ e' / R := Nat.div_le_div_right hle
  unfold counted
  obtain hsame | hlater : e / R = e' / R ∨ e / R + 1 ≤ e' / R := by omega
  · have h₁ := Nat.div_add_mod e R
    have h₂ := Nat.div_add_mod e' R
    rw [← hsame] at h₂ ⊢
    omega
  · -- a later lap starts with the whole range of this one added
    have hlap : (e / R + 1) * (R / 1000) ≤ e' / R * (R / 1000) := Nat.mul_le_mul_right _ hlater
    have hmod := Nat.mod_lt e hR
    rw [Nat.add_mul, Nat.one_mul] at hlap
    omega

/-! ## Runs -/

/-- A run in which the domain with the path `path` has a counter of the range `R`, and the energies
`E` have been used, from the zero of the counter on, when its samples are taken. -/
structure Consumption (R : Nat) (path : String) (m : RaplPowerMeter) (calls : List LoopCall)
    (E : List Nat) : Prop where
  range : ∀ c ∈ calls, c.fs (rangePath path) = some R
  reads : readings path m calls = E.map (· % R)
  zero : ∀ e ∈ E.head?, e < R
  apart : E.IsChain (HalfRangeApart R)

/-- The energy at the last sample of a part of the run. -/
def usedAfter (path : String) (m : RaplPowerMeter) (E : List Nat) (pre : List LoopCall) : Nat :=
  (0 :: E).getD (readings path m pre).length 0

namespace Consumption

variable {path : String} {m : RaplPowerMeter} {calls pre past : List LoopCall} {c : LoopCall}
  {E : List Nat} {i : Nat} {type : DomainType}

/-- A call that reads nothing for the domain is no sample. -/
theorem usedAfter_failed (hread : (run step m past).sampled path c = none) :
    usedAfter path m E (past ++ [c]) = usedAfter path m E past := by
  simp [usedAfter, readings, hread]

/-- A call that reads the counter is the next sample, and what it reads is the true energy up to
whole laps. -/
theorem usedAfter_read {value : Nat} (h : Consumption R path m calls E)
    (hpre : past ++ [c] <+: calls) (hread : (run step m past).sampled path c = some value) :
    value = usedAfter path m E (past ++ [c]) % R ∧
      (0 :: E)[(readings path m past).length]? = some (usedAfter path m E past) ∧
      E[(readings path m past).length]? = some (usedAfter path m E (past ++ [c])) := by
  obtain ⟨more, hmore⟩ := hpre
  have hall := h.reads
  rw [← hmore, readings_append, readings_append] at hall
  simp only [readings, hread, Option.toList_some, List.append_nil] at hall
  have hlen : (readings path m past).length < E.length := by
    have := congrArg List.length hall
    simp only [List.length_append, List.length_map, List.length_singleton] at this
    omega
  have hat := congrArg (fun l => l[(readings path m past).length]?) hall
  simp only [List.append_assoc, le_refl, List.getElem?_append_right, Nat.sub_self,
    List.singleton_append, List.getElem?_cons_zero, List.getElem?_map] at hat
  rw [List.getElem?_eq_getElem hlen] at hat
  have hlast : usedAfter path m E (past ++ [c]) = E[(readings path m past).length] := by
    simp [usedAfter, readings, hread, hlen]
  refine ⟨?_, ?_, ?_⟩
  · rw [hlast]
    simpa using hat
  · unfold usedAfter
    rw [List.getD_eq_getElem?_getD, List.getElem?_eq_getElem (by simp; omega), Option.getD_some]
  · rw [hlast, List.getElem?_eq_getElem hlen]

/-- Consecutive samples follow each other within half of the range, or the second one is the first
of the run. -/
theorem consecutive {n : Nat} (h : Consumption R path m calls E)
    (hfirst : (0 :: E)[n]? = some e) (hsecond : E[n]? = some e') :
    HalfRangeApart R e e' ∨ (e ≤ e' ∧ e' / R = e / R) := by
  cases n with
  | zero =>
      have hzero : (0 : Nat) = e := by simpa using hfirst
      have hhead : e' ∈ E.head? := by
        rw [List.head?_eq_getElem?]
        exact hsecond
      subst hzero
      exact .inr ⟨Nat.zero_le _, by rw [Nat.div_eq_of_lt (h.zero e' hhead), Nat.zero_div]⟩
  | succ n =>
      obtain ⟨hlt, hsecond⟩ := List.getElem?_eq_some_iff.mp hsecond
      have hfirst : E[n]? = some e := hfirst
      obtain ⟨_, hfirst⟩ := List.getElem?_eq_some_iff.mp hfirst
      have := List.isChain_iff_getElem.mp h.apart n hlt
      rw [hfirst, hsecond] at this
      exact .inl this

/-- One call of the loop keeps the relation between the domain and the energy used so far. -/
theorem metered_step {d : RaplDomain} (h : Consumption R path m calls E) (hR : 0 < R)
    (hpre : past ++ [c] <+: calls) (hpath : d.path = path)
    (hd : (run step m past).domainList[i]? = some d)
    (hmetered : Metered R (usedAfter path m E past) d) :
    ∃ d', (run step m (past ++ [c])).domainList[i]? = some d' ∧ d'.path = path ∧
      Metered R (usedAfter path m E (past ++ [c])) d' := by
  have hrange : c.fs (rangePath d.path) = some R := by
    rw [hpath]
    exact h.range c (hpre.subset (by simp))
  have hstep := step_domain (c := c) hd
  rw [run_append]
  by_cases hsamples : (run step m past).samples c = true
  · rw [if_pos hsamples] at hstep
    have hsampled : (run step m past).sampled path c = c.fs (energyPath d.path) := by
      rw [sampled, if_pos hsamples, hpath]
    refine ⟨_, hstep, by rw [sample_path, hpath], ?_⟩
    obtain ⟨hready, hknown⟩ := hmetered.readRange hrange
    cases hread : c.fs (energyPath d.path) with
    | none =>
        rw [sample_of_failed _ _ _ hread, usedAfter_failed (by rw [hsampled, hread])]
        exact hready
    | some value =>
        obtain ⟨hvalue, hfirst, hsecond⟩ := h.usedAfter_read hpre (by rw [hsampled, hread])
        rw [sample_of_read _ _ _ _ hread, hvalue]
        obtain hapart | hlap := h.consecutive hfirst hsecond
        · exact hready.account_metered hknown hR hapart
        · exact hready.account_same_lap hknown hlap.1 hlap.2
  · rw [if_neg hsamples] at hstep
    refine ⟨d, hstep, hpath, ?_⟩
    rw [usedAfter_failed (by rw [sampled, if_neg hsamples])]
    exact hmetered

/-- After every part of the run the domain shows the energy used so far. -/
theorem metered (h : Consumption R path m calls E) (hR : 0 < R)
    (hd : m.domainList[i]? = some (fresh type path)) (hpre : pre <+: calls) :
    ∃ d, (run step m pre).domainList[i]? = some d ∧ d.path = path ∧
      Metered R (usedAfter path m E pre) d := by
  induction pre using List.reverseRecOn with
  | nil => exact ⟨_, hd, rfl, Metered.fresh type path⟩
  | append_singleton past c ih =>
      obtain ⟨d, hdomain, hpath, hmetered⟩ := ih ((List.prefix_append ..).trans hpre)
      exact h.metered_step hR hpre hpath hdomain hmetered

/-- The energy used is never less after one more call. -/
theorem usedAfter_mono (h : Consumption R path m calls E) (hpre : past ++ [c] <+: calls) :
    usedAfter path m E past ≤ usedAfter path m E (past ++ [c]) := by
  cases hread : (run step m past).sampled path c with
  | none => rw [usedAfter_failed hread]
  | some value =>
      obtain ⟨_, hfirst, hsecond⟩ := h.usedAfter_read hpre hread
      obtain hapart | hlap := h.consecutive hfirst hsecond
      · exact hapart.1
      · exact hlap.1

/-- The energy used is that of a sample, or zero before the first one. -/
theorem usedAfter_mem (path : String) (m : RaplPowerMeter) (E : List Nat) (pre : List LoopCall) :
    usedAfter path m E pre = 0 ∨ usedAfter path m E pre ∈ E := by
  unfold usedAfter
  rw [List.getD_eq_getElem?_getD]
  cases hat : (0 :: E)[(readings path m pre).length]? with
  | none => exact .inl rfl
  | some e =>
      obtain heq | hmem := List.mem_cons.mp (List.mem_of_getElem? hat)
      · exact .inl heq
      · exact .inr hmem

/-- A bound on the samples bounds the energy used. -/
theorem usedAfter_lt (path : String) (m : RaplPowerMeter) (pre : List LoopCall)
    (hbound : ∀ e ∈ E, e < 1000 * 2 ^ 64) : usedAfter path m E pre < 1000 * 2 ^ 64 := by
  obtain hzero | hmem := usedAfter_mem path m E pre
  · rw [hzero]
    decide
  · exact hbound _ hmem

/-- As long as the energy used stays below `2 ^ 64` millijoules, the sum shows it. -/
theorem energyTotal_counted {d : RaplDomain} (hbound : ∀ e ∈ E, e < 1000 * 2 ^ 64)
    (hmetered : Metered R (usedAfter path m E pre) d) :
    d.energyTotal = (counted R (usedAfter path m E pre) : Int) := by
  have hlt := usedAfter_lt path m pre hbound
  have hcounted := (counted_bounds R (usedAfter path m E pre)).1
  rw [hmetered.energyTotal_eq]
  show uint64 (counted R (usedAfter path m E pre) : Int) = _
  unfold uint64
  omega

/-- The same for what has been added at the ends of the laps. -/
theorem cumulative_eq {d : RaplDomain} (hbound : ∀ e ∈ E, e < 1000 * 2 ^ 64)
    (hmetered : Metered R (usedAfter path m E pre) d) :
    d.energyCumulativeCounter = ((usedAfter path m E pre / R * (R / 1000) : Nat) : Int) := by
  have hlt := usedAfter_lt path m pre hbound
  have hcounted := (counted_bounds R (usedAfter path m E pre)).1
  unfold counted at hcounted
  rw [hmetered.cumulative]
  have hcast : ((usedAfter path m E pre / R : Nat) : Int) * ((R : Int) / 1000) =
      ((usedAfter path m E pre / R * (R / 1000) : Nat) : Int) := by
    push_cast
    rfl
  rw [hcast]
  unfold uint64
  omega

end Consumption

/-- The energy of the domain at `i` is that used, in millijoules, up to one and the number of wraps
around, which are all counted once, and it never decreases. -/
structure ShowsEnergy (R : Nat) (path : String) (m : RaplPowerMeter) (calls : List LoopCall)
    (E : List Nat) (i : Nat) : Prop where
  wraps : ∀ pre, pre <+: calls → ∀ d, (run step m pre).domainList[i]? = some d →
    d.energyCumulativeCounter = ((usedAfter path m E pre / R * (R / 1000) : Nat) : Int)
  close : ∀ pre, pre <+: calls → ∀ d, (run step m pre).domainList[i]? = some d →
    1000 * (d.energyTotal - 1 - (usedAfter path m E pre / R : Nat)) ≤ usedAfter path m E pre ∧
      (usedAfter path m E pre : Int) ≤
        1000 * (d.energyTotal + 1 + (usedAfter path m E pre / R : Nat))
  mono : ∀ past c, past ++ [c] <+: calls → ∀ d d',
    (run step m past).domainList[i]? = some d →
    (run step m (past ++ [c])).domainList[i]? = some d' → d.energyTotal ≤ d'.energyTotal

/-- As long as less than `2 ^ 64` millijoules have been used, the energy is right at every sample
of a run whose samples are at most half of the range, less two millijoules, apart. -/
theorem energy_total_tracks {path : String} {m : RaplPowerMeter} {calls : List LoopCall}
    {E : List Nat} {i : Nat} {type : DomainType} (hR : 0 < R)
    (hd : m.domainList[i]? = some (fresh type path)) (h : Consumption R path m calls E)
    (hbound : ∀ e ∈ E, e < 1000 * 2 ^ 64) : ShowsEnergy R path m calls E i := by
  refine ⟨?_, ?_, ?_⟩
  · intro pre hpre d hdomain
    obtain ⟨d', hdomain', _, hmetered⟩ := h.metered hR hd hpre
    obtain rfl := Option.some.inj (hdomain.symm.trans hdomain')
    exact Consumption.cumulative_eq hbound hmetered
  · intro pre hpre d hdomain
    obtain ⟨d', hdomain', _, hmetered⟩ := h.metered hR hd hpre
    obtain rfl := Option.some.inj (hdomain.symm.trans hdomain')
    rw [Consumption.energyTotal_counted hbound hmetered]
    have hcounted := counted_bounds R (usedAfter path m E pre)
    omega
  · intro past c hpre d d' hdomain hdomain'
    obtain ⟨d₁, hdomain₁, _, hmetered⟩ := h.metered hR hd ((List.prefix_append ..).trans hpre)
    obtain ⟨d₂, hdomain₂, _, hmetered'⟩ := h.metered hR hd hpre
    obtain rfl := Option.some.inj (hdomain.symm.trans hdomain₁)
    obtain rfl := Option.some.inj (hdomain'.symm.trans hdomain₂)
    rw [Consumption.energyTotal_counted hbound hmetered,
      Consumption.energyTotal_counted hbound hmetered']
    exact Int.ofNat_le.mpr (counted_mono hR (h.usedAfter_mono hpre))

/-! ## Sixty-four bits are not enough -/

/-- A call at the second `t` in which the files of one domain can be read. -/
def readable (R : Nat) (path : String) (t : Int) (e : Nat) : LoopCall where
  currTime := t
  fs := fun file =>
    if file = rangePath path then some R
    else if file = energyPath path then some (e % R) else none

/-- One such call a second, from the second `t` on. -/
def everySecond (R : Nat) (path : String) : Int → List Nat → List LoopCall
  | _, [] => []
  | t, e :: rest => readable R path t e :: everySecond R path (t + 1) rest

/-- The files of a domain have different names. -/
theorem energyPath_ne_rangePath (path : String) : energyPath path ≠ rangePath path := by
  intro heq
  have hlen := congrArg String.length heq
  simp only [energyPath, rangePath, String.length_append] at hlen
  have hne : "energy_uj".length ≠ "max_energy_range_uj".length := by decide
  omega

theorem readable_energy {path : String} {t : Int} :
    (readable R path t e).fs (energyPath path) = some (e % R) := by
  simp [readable, energyPath_ne_rangePath]

/-- The calls of every second read the range. -/
theorem everySecond_range {path : String} {t : Int} {E : List Nat} :
    ∀ c ∈ everySecond R path t E, c.fs (rangePath path) = some R := by
  induction E generalizing t with
  | nil => simp [everySecond]
  | cons e rest ih =>
      intro c hc
      obtain rfl | hc := List.mem_cons.mp hc
      · simp [readable]
      · exact ih c hc

/-- The calls of every second read all of the energies. -/
theorem everySecond_reads {path : String} {m : RaplPowerMeter} {t : Int} {E : List Nat}
    (hen : m.enableMeasurement = true) (ht : m.lastTime < t) :
    readings path m (everySecond R path t E) = E.map (· % R) := by
  induction E generalizing m t with
  | nil => rfl
  | cons e rest ih =>
      have hsamples : ∀ c : LoopCall, c.currTime = t → m.samples c = true := by
        intro c hc
        simp [samples, hen, hc, ht]
      simp only [everySecond, readings, List.map_cons]
      rw [sampled, if_pos (hsamples _ rfl), readable_energy,
        ih (by rw [step_enableMeasurement, hen])]
      · rfl
      · rw [step_lastTime (hsamples _ rfl)]
        show t < t + 1
        omega

/-- Samples are taken in their order. -/
theorem everySecond_append {path : String} {t : Int} {E F : List Nat} :
    everySecond R path t (E ++ F) =
      everySecond R path t E ++ everySecond R path (t + E.length) F := by
  induction E generalizing t with
  | nil => simp [everySecond]
  | cons e rest ih =>
      have hlen : t + 1 + (rest.length : Int) = t + ((rest.length + 1 : Nat) : Int) := by
        push_cast
        ring
      simp only [List.cons_append, everySecond, ih, List.length_cons, hlen]

/-- The energy used is that of the last sample. -/
theorem usedAfter_everySecond {path : String} {m : RaplPowerMeter} {t : Int} {E more : List Nat}
    {e : Nat} (hen : m.enableMeasurement = true) (ht : m.lastTime < t) :
    usedAfter path m (E ++ e :: more) (everySecond R path t (E ++ [e])) = e := by
  simp [usedAfter, everySecond_reads hen ht]

/-- A meter with one domain, before its first sample. -/
def idleMeter : RaplPowerMeter where
  raplPresent := true
  domainList := [fresh .package "intel-rapl:0"]
  lastTime := 0
  enableMeasurement := true

/-- A range of `9223372036854775` millijoules. -/
abbrev wideRange : Nat := 9223372036854775000

/-- A sample in every quarter of a lap. -/
def quarterLaps (n : Nat) : List Nat :=
  (List.range n).map fun k => k * (wideRange / 4)

/-- Two thousand laps, and two joules in the next one. -/
def longUse : List Nat :=
  quarterLaps 8001 ++ [2000 * wideRange + 2000000]

/-- The samples of the long use are a quarter of the range apart. -/
theorem longUse_apart : longUse.IsChain (HalfRangeApart wideRange) := by
  unfold longUse quarterLaps
  rw [List.isChain_append]
  refine ⟨?_, List.isChain_singleton _, ?_⟩
  · rw [List.isChain_iff_getElem]
    intro k hk
    simp only [List.getElem_map, List.getElem_range, HalfRangeApart, wideRange]
    omega
  · intro e he e' he'
    simp only [List.getLast?_map, List.getLast?_range, Option.mem_def] at he
    simp only [List.head?_cons, Option.mem_def, Option.some.injEq] at he'
    norm_num at he
    subst he he'
    simp only [HalfRangeApart, wideRange]
    omega

/-- The long use, sampled every second. -/
theorem longUse_consumption :
    Consumption wideRange "intel-rapl:0" idleMeter
      (everySecond wideRange "intel-rapl:0" 1 longUse) longUse where
  range := everySecond_range
  reads := everySecond_reads rfl (show (0 : Int) < 1 from Int.one_pos)
  zero := by
    intro e he
    have hzero : e = 0 := by
      simp only [longUse, quarterLaps, List.head?_append, List.head?_map, List.head?_range] at he
      simpa using he.symm
    rw [hzero]
    decide
  apart := longUse_apart

/-- The sum of the counters does not show what has been used, nor does it keep growing: between
the last two samples it falls from `2 ^ 64 - 1616` to `384`. -/
theorem energy_total_overflows :
    0 < wideRange ∧
      idleMeter.domainList[0]? = some (fresh .package "intel-rapl:0") ∧
      Consumption wideRange "intel-rapl:0" idleMeter
        (everySecond wideRange "intel-rapl:0" 1 longUse) longUse ∧
      ¬ShowsEnergy wideRange "intel-rapl:0" idleMeter
        (everySecond wideRange "intel-rapl:0" 1 longUse) longUse 0 := by
  refine ⟨by decide, rfl, longUse_consumption, fun hshows => ?_⟩
  have hsplit : everySecond wideRange "intel-rapl:0" 1 longUse =
      everySecond wideRange "intel-rapl:0" 1 (quarterLaps 8001) ++
        everySecond wideRange "intel-rapl:0" (1 + (quarterLaps 8001).length)
          [2000 * wideRange + 2000000] := everySecond_append
  have hlast : quarterLaps 8001 = quarterLaps 8000 ++ [8000 * (wideRange / 4)] := by
    rw [quarterLaps, List.range_succ, List.map_append]
    rfl
  have hdomain₀ : idleMeter.domainList[0]? = some (fresh .package "intel-rapl:0") := rfl
  have hused : usedAfter "intel-rapl:0" idleMeter longUse
      (everySecond wideRange "intel-rapl:0" 1 (quarterLaps 8001)) = 8000 * (wideRange / 4) := by
    unfold longUse
    rw [hlast, List.append_assoc]
    exact usedAfter_everySecond rfl (show (0 : Int) < 1 from Int.one_pos)
  have hused' : usedAfter "intel-rapl:0" idleMeter longUse
      (everySecond wideRange "intel-rapl:0" 1 longUse) = 2000 * wideRange + 2000000 :=
    usedAfter_everySecond rfl (show (0 : Int) < 1 from Int.one_pos)
  obtain ⟨d, hdomain, _, hmetered⟩ := longUse_consumption.metered (by decide) hdomain₀
    (show everySecond wideRange "intel-rapl:0" 1 (quarterLaps 8001) <+: _ by
      rw [hsplit]
      exact List.prefix_append ..)
  obtain ⟨d', hdomain', _, hmetered'⟩ := longUse_consumption.metered (by decide) hdomain₀
    (List.prefix_refl _)
  have hmono := hshows.mono _ _ (hsplit ▸ List.prefix_refl _) d d' hdomain (hsplit ▸ hdomain')
  rw [hused] at hmetered
  rw [hused'] at hmetered'
  rw [hmetered.energyTotal_eq, hmetered'.energyTotal_eq] at hmono
  exact absurd hmono (by decide)

/-- Four samples with a wrap around before the last. -/
theorem energy_total_tracks_wrap :
    ShowsEnergy 1000000 "intel-rapl:0" idleMeter
      (everySecond 1000000 "intel-rapl:0" 1 [100000, 500000, 900000, 1300000])
      [100000, 500000, 900000, 1300000] 0 := by
  refine energy_total_tracks (by decide) (show idleMeter.domainList[0]? = some _ from rfl)
    ⟨everySecond_range, everySecond_reads rfl (show (0 : Int) < 1 from Int.one_pos), ?_, ?_⟩ ?_
  · simp
  · simp [HalfRangeApart]
  · simp

end Thermald
