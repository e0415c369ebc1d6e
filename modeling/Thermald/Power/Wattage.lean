import Mathlib.Tactic.Common
import Thermald.Power.Energy

/-!
# The power of a domain

After a sample the power of a domain should be the energy used since the sample before, divided by
the seconds in between. The loop divides the difference of the two counters by the seconds since
its last call, whether or not that call could read this domain, and does not divide at all when
the counter was below a millijoule or has wrapped around: then the power stays as it was.

`power_matches` says that all other samples are right, after any history, and `power_after_wrap`
is a sample that is wrong.
-/

namespace Thermald

open RaplDomain RaplPowerMeter

/-- The power is the energy used between two samples, up to the rounding of the counter and of the
range, divided by the seconds between them. -/
def PowerMatches (R e e' : Nat) (seconds power : Int) : Prop :=
  ∃ used : Int,
    1000 * used < (e' : Int) - e + 1000 * (1 + (e' / R : Nat) - (e / R : Nat)) ∧
      (e' : Int) - e < 1000 * used + 1000 * (1 + (e' / R : Nat) - (e / R : Nat)) ∧
      power = used / seconds

/-- Two successful samples `first` and `next` of the domain at a path that follow each other, with
the failed ones in between, at the end of a run in which the time always goes on. The energies `e`
and `e'` have been used up to then, and the counter has the range `R`. -/
structure SamplePair (R : Nat) (path : String) (m : RaplPowerMeter) (past : List LoopCall)
    (first : LoopCall) (mid : List LoopCall) (next : LoopCall) (e e' : Nat) : Prop where
  later : Meets step (fun m c => m.samples c = true) m (past ++ [first] ++ mid ++ [next])
  range : R < 2 ^ 64
  firstRead : first.fs (energyPath path) = some (e % R)
  failed : ∀ c ∈ mid, c.fs (energyPath path) = none
  nextRead : next.fs (energyPath path) = some (e' % R)
  used : e ≤ e' ∧ 2 * (e' - e) < R

/-- The second of two successful samples comes right after the first, in the same lap of the
counter, from a counter of a millijoule or more. The range is not read in it for the first time, or
the counter is in its upper half, and the power fits an `unsigned int`. -/
structure PlainSample (R e e' : Nat) (d : RaplDomain) (first : LoopCall) (mid : List LoopCall)
    (next : LoopCall) : Prop where
  direct : mid = []
  lap : e' / R = e / R
  counter : 1000 ≤ e % R
  range : (d.readRange next.fs).maxEnergyRange = d.maxEnergyRange ∨
    (d.readRange next.fs).maxEnergyRangeThreshold ≤ ((e' % R : Nat) : Int) / 1000
  fits : (((e' % R : Nat) : Int) / 1000 - ((e % R : Nat) : Int) / 1000) /
    (next.currTime - first.currTime) < 4294967296

/-- The flag is only set in the upper half of the range. -/
def Flagged (d : RaplDomain) : Prop :=
  d.halfWay = true → d.maxEnergyRangeThreshold ≤ d.energyCounter

section Account

variable {d : RaplDomain} {fs : SysFs} {energyUj : Nat} {elapsed : Int}

/-- Every sample leaves the flag in this state, whatever it was before. -/
theorem account_flagged : Flagged (d.account energyUj elapsed) := by
  intro hhalf
  show d.maxEnergyRangeThreshold ≤ (energyUj : Int) / 1000
  cases hwraps : d.wraps ((energyUj : Int) / 1000) with
  | true => simp [account, hwraps] at hhalf
  | false =>
      simp only [account, hwraps, Bool.false_eq_true, if_false, Bool.or_eq_true,
        decide_eq_true_eq] at hhalf
      obtain hset | habove := hhalf
      · simpa [wraps, hset] using hwraps
      · omega

/-- The threshold is half of the range, read or not. -/
def Halved (d : RaplDomain) : Prop :=
  d.maxEnergyRangeThreshold = d.maxEnergyRange / 2

/-- Reading the range sets the threshold with it. -/
theorem Halved.readRange (h : Halved d) : Halved (d.readRange fs) := by
  unfold RaplDomain.readRange
  split
  · rfl
  · exact h

/-- A call of the loop keeps the path and the threshold of a domain. -/
theorem Halved.sample (h : Halved d) : Halved (d.sample fs elapsed) := by
  have hrange : Halved (d.readRange fs) := h.readRange
  cases hread : fs (energyPath d.path) with
  | none =>
      rw [sample_of_failed d fs elapsed hread]
      exact hrange
  | some energyUj =>
      rw [sample_of_read d fs energyUj elapsed hread]
      exact hrange

/-- The counter does not look like one that has wrapped around when it has not: it is not below a
counter for which the flag was set, and a range that is new is none that it is in the lower half
of. -/
theorem wraps_eq_false (hhalf : Halved d) (hflag : Flagged d) (c' : Int)
    (hle : d.energyCounter ≤ c')
    (hrange : (d.readRange fs).maxEnergyRange = d.maxEnergyRange ∨
      (d.readRange fs).maxEnergyRangeThreshold ≤ c') :
    (d.readRange fs).wraps c' = false := by
  unfold wraps
  rw [readRange_halfWay]
  cases hset : d.halfWay with
  | false => rfl
  | true =>
      have hupper : (d.readRange fs).maxEnergyRangeThreshold ≤ c' := by
        obtain hkept | hupper := hrange
        · calc (d.readRange fs).maxEnergyRangeThreshold
              = (d.readRange fs).maxEnergyRange / 2 := hhalf.readRange
            _ = d.maxEnergyRangeThreshold := by rw [hkept, hhalf]
            _ ≤ d.energyCounter := hflag hset
            _ ≤ c' := hle
        · exact hupper
      simp [hupper]

/-- Two successful samples in one lap of the counter, the first at a millijoule or more: the power
is the difference of the counters in the time between them. -/
theorem sample_power (hhalf : Halved d) (hflag : Flagged d) {value value' : Nat}
    (hcounter : d.energyCounter = (value : Int) / 1000)
    (hread : fs (energyPath d.path) = some value') (hle : value ≤ value')
    (hbound : value' < 2 ^ 64) (hmilli : 1000 ≤ value)
    (hrange : (d.readRange fs).maxEnergyRange = d.maxEnergyRange ∨
      (d.readRange fs).maxEnergyRangeThreshold ≤ (value' : Int) / 1000)
    (helapsed : 0 < elapsed)
    (hfits : ((value' : Int) / 1000 - (value : Int) / 1000) / elapsed < 4294967296) :
    (d.sample fs elapsed).power = ((value' : Int) / 1000 - (value : Int) / 1000) / elapsed := by
  have hwraps := wraps_eq_false hhalf hflag ((value' : Int) / 1000) (by rw [hcounter]; omega) hrange
  have hnonzero : (d.readRange fs).energyCounter ≠ 0 := by
    rw [readRange_energyCounter, hcounter]
    omega
  have huint64 : uint64 ((value' : Int) / 1000 - (value : Int) / 1000) =
      (value' : Int) / 1000 - (value : Int) / 1000 := by
    unfold uint64
    omega
  rw [sample_of_read _ _ _ _ hread, account_power _ _ _ hwraps hnonzero, readRange_energyCounter,
    hcounter, huint64]
  exact uint32_eq_self (Int.ediv_nonneg (by omega) helapsed.le) hfits

end Account

variable {R e e' : Nat} {path : String} {m : RaplPowerMeter} {past mid : List LoopCall}
  {first next : LoopCall} {i : Nat} {type : DomainType}

/-- The domain at a place of the list keeps its path, and its threshold is half of its range. -/
theorem run_domain (hd : m.domainList[i]? = some (fresh type path)) (calls : List LoopCall) :
    ∃ d, (run step m calls).domainList[i]? = some d ∧ d.path = path ∧ Halved d := by
  induction calls using List.reverseRecOn with
  | nil => exact ⟨_, hd, rfl, rfl⟩
  | append_singleton past c ih =>
      obtain ⟨d, hdomain, hpath, hhalf⟩ := ih
      rw [run_append]
      refine ⟨_, step_domain hdomain, ?_⟩
      split
      · exact ⟨by rw [sample_path, hpath], hhalf.sample⟩
      · exact ⟨hpath, hhalf⟩

/-- The domain after a successful sample: the counter is the one that was read, and the flag fits
to it. -/
theorem domain_after_sample {value : Nat} {c : LoopCall}
    (hd : m.domainList[i]? = some (fresh type path))
    (hsamples : (run step m past).samples c = true)
    (hread : c.fs (energyPath path) = some value) :
    ∃ d, (run step m (past ++ [c])).domainList[i]? = some d ∧ d.path = path ∧ Halved d ∧
      Flagged d ∧ d.energyCounter = (value : Int) / 1000 := by
  obtain ⟨d, hdomain, hpath, hhalf⟩ := run_domain hd past
  have hstep := step_domain (c := c) hdomain
  rw [if_pos hsamples, sample_of_read _ _ _ _ (by rw [hpath, hread])] at hstep
  rw [run_append]
  exact ⟨_, hstep, by rw [account_path, readRange_path, hpath], hhalf.readRange, account_flagged,
    rfl⟩

/-- A sample of the plain kind gives the power since the sample before it, whatever the run was
like until then. -/
theorem power_matches (hd : m.domainList[i]? = some (fresh type path))
    (hpair : SamplePair R path m past first mid next e e')
    (hplain : ∀ d, (run step m (past ++ [first] ++ mid)).domainList[i]? = some d →
      PlainSample R e e' d first mid next) :
    ∃ d, (run step m (past ++ [first] ++ mid ++ [next])).domainList[i]? = some d ∧
      PowerMatches R e e' (next.currTime - first.currTime) d.power := by
  obtain ⟨hbefore, hnext, -⟩ := meets_append.mp hpair.later
  obtain ⟨hbefore, -⟩ := meets_append.mp hbefore
  obtain ⟨-, hfirst, -⟩ := meets_append.mp hbefore
  obtain ⟨d, hdomain, hpath, hhalf, hflag, hcounter⟩ :=
    domain_after_sample hd hfirst hpair.firstRead
  obtain ⟨d₀, hdomain₀, -, -⟩ := run_domain hd (past ++ [first] ++ mid)
  obtain ⟨hdirect, -⟩ := hplain d₀ hdomain₀
  subst hdirect
  rw [List.append_nil] at *
  obtain ⟨-, hlap, hmilli, hrange, hfits⟩ := hplain d hdomain
  -- in one lap the counters are as far apart as the energies
  have hsplit := Nat.div_add_mod e R
  have hsplit' := Nat.div_add_mod e' R
  rw [hlap] at hsplit'
  have hmono := hpair.used.1
  have hbound : e' % R < 2 ^ 64 :=
    (Nat.mod_lt e' (by have := hpair.used.2; omega)).trans hpair.range
  have hseconds : (run step m (past ++ [first])).lastTime = first.currTime := by
    rw [run_append]
    exact step_lastTime hfirst
  have hlater : 0 < next.currTime - first.currTime := by
    have hlate := (Bool.and_eq_true_iff.mp hnext).2
    rw [hseconds] at hlate
    have := of_decide_eq_true hlate
    omega
  have hstep := step_domain (c := next) hdomain
  rw [if_pos hnext, hseconds] at hstep
  rw [run_append]
  refine ⟨_, hstep, ((e' % R : Nat) : Int) / 1000 - ((e % R : Nat) : Int) / 1000, ?_, ?_, ?_⟩
  · rw [hlap]
    omega
  · rw [hlap]
    omega
  · exact sample_power hhalf hflag hcounter (by rw [hpath, hpair.nextRead]) (by omega) hbound hmilli
      hrange hlater hfits

/-- A sample two joules after the one before. -/
theorem power_matches_two_watts :
    ∃ d, (run step idleMeter ([] ++ [readable 10000000 "intel-rapl:0" 1 3000000] ++ [] ++
        [readable 10000000 "intel-rapl:0" 2 5000000])).domainList[0]? = some d ∧
      PowerMatches 10000000 3000000 5000000 (2 - 1) d.power := by
  refine power_matches (show idleMeter.domainList[0]? = some _ from rfl)
    ⟨⟨rfl, rfl, trivial⟩, by decide, readable_energy, by simp, readable_energy, by decide⟩ ?_
  intro d hd
  obtain rfl := Option.some.inj hd
  exact ⟨rfl, by decide, by decide, .inl (by decide), by decide⟩

/-- Two joules in a second across the end of the range are no power at all. -/
theorem power_after_wrap :
    SamplePair 10000000 "intel-rapl:0" idleMeter []
        (readable 10000000 "intel-rapl:0" 1 9000000) []
        (readable 10000000 "intel-rapl:0" 2 11000000) 9000000 11000000 ∧
      ∀ d, (run step idleMeter [readable 10000000 "intel-rapl:0" 1 9000000,
          readable 10000000 "intel-rapl:0" 2 11000000]).domainList[0]? = some d →
        ¬PowerMatches 10000000 9000000 11000000 (2 - 1) d.power := by
  constructor
  · exact ⟨⟨rfl, rfl, trivial⟩, by omega, readable_energy, by simp, readable_energy, by omega⟩
  intro d hd
  obtain rfl := Option.some.inj hd
  intro hmatches
  obtain ⟨used, _, hlow, hpower⟩ := hmatches
  have hzero : (0 : Int) = used / (2 - 1) := hpower
  omega

end Thermald
