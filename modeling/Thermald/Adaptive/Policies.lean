import Thermald.Adaptive.Effects
import Thermald.Lib.Run

/-!
# The policy in force

`updateEngineState` acts only when the result of the conditions differs from the result that it has
acted on last. The cached result begins as -1, as if the default table had been installed at the
start, but `thdEngineStart` installs it only if its own evaluation fails. `policy_in_force_iff` says
when the last policy is always the one of the last result.

With a fallback target the result is always -1, which is the cached one, so the branch that executes
the fallback target is never entered: `fallback_never_executed`.
-/

namespace Thermald

open Gddv (AdaptiveTarget ascii)

namespace AdaptiveEngine

variable {δ : Type}

/-- The policy that executes some targets, with the default table if none of them installs a
table. -/
def policyFor (a : AdaptiveEngine δ) (targets : List AdaptiveTarget) : Policy where
  executed := targets.map fun t => (t, a.installs t)
  default := !targets.any a.installs

/-- The policy of a result: all targets of the id, or the default table for -1. -/
def policyOf (a : AdaptiveEngine δ) (result : Int) : Policy :=
  if result = -1 then ⟨[], true⟩ else a.policyFor (a.gddv.targetsOf result)

/-- Unless the process has ended, the last policy is the one of the result. -/
def Follows (a : AdaptiveEngine δ) (result : Int) : Prop :=
  a.process = .running → a.policies.getLast? = some (a.policyOf result)

/-- The targets that an update executes for a result. -/
def executedFor (g : Gddv) (result : Int) : List AdaptiveTarget :=
  if 0 < result then g.targetsOf result else []

/-- All targets of the id are executed: it is positive, there are none, or it is -1. -/
def Executable (g : Gddv) (result : Int) : Prop :=
  0 < result ∨ result = -1 ∨ g.targetsOf result = []

/-- An update executes the targets of the result exactly if they are executable. -/
theorem policy_for_executed_iff (a : AdaptiveEngine δ) (result : Int) :
    a.policyFor (executedFor a.gddv result) = a.policyOf result ↔ Executable a.gddv result := by
  unfold executedFor policyOf Executable
  by_cases hpos : 0 < result
  · have hne : result ≠ -1 := by omega
    simp [hpos, hne]
  · by_cases hdefault : result = -1
    · simp [hdefault, policyFor]
    · simp only [hpos, hdefault, if_false, false_or]
      constructor
      · intro h
        have hexecuted := congrArg (fun p : Policy => p.executed) h
        simpa [policyFor] using hexecuted.symm
      · intro h
        rw [h]

/-- The policy of a result is the same at all times. -/
theorem Updates.policy_for_eq {a a' : AdaptiveEngine δ} (h : a.Updates a')
    (targets : List AdaptiveTarget) : a'.policyFor targets = a.policyFor targets := by
  simp only [policyFor, h.installs_eq]

section Runs

variable [AdaptiveCdev δ] [StdSort]

/-! ## The start -/

section Start

variable (engine : Engine δ) (gddv : Gddv) (path : Bytes) (debug : Bool) (s : Start)

/-- The default table as a policy of its own. -/
theorem apply_default_spec (a : AdaptiveEngine δ) :
    a.Updates a.applyDefault ∧ a.applyDefault.process = a.process ∧
      a.applyDefault.currentMatchedTarget = a.currentMatchedTarget ∧
      a.applyDefault.policyActive = a.policyActive ∧
      a.applyDefault.policies = a.policies ++ [⟨[], true⟩] := by
  have h := a.install_passive_default_keeps
  exact ⟨⟨h.names, h.gddv, h.fallbackId, h.int3400Path, h.passiveDefOnly⟩,
    a.install_passive_default_process.1, h.currentMatchedTarget, h.policyActive, rfl⟩

/-- The state in which the first update finds an engine. -/
structure Started (a : AdaptiveEngine δ) : Prop where
  process : a.process = .running
  currentMatchedTarget : a.currentMatchedTarget = -1
  policyActive : a.policyActive = false
  policies : ∀ p ∈ a.policies, p = ⟨[], true⟩

omit [AdaptiveCdev δ] [StdSort] in
theorem init_started (def_only : Bool) : (init engine gddv path def_only debug).Started :=
  ⟨rfl, rfl, rfl, by simp [init]⟩

/-- Installing the default table leaves the cached result alone. -/
theorem Started.apply_default {a : AdaptiveEngine δ} (h : a.Started) : a.applyDefault.Started := by
  obtain ⟨-, hprocess, hcurrent, hactive, hpolicies⟩ := a.apply_default_spec
  refine ⟨hprocess.trans h.process, hcurrent.trans h.currentMatchedTarget,
    hactive.trans h.policyActive, ?_⟩
  intro p hp
  rw [hpolicies] at hp
  rcases List.mem_append.mp hp with hp | hp
  · exact h.policies p hp
  · exact List.mem_singleton.mp hp

/-- A start leaves the cached result alone, whatever it finds. -/
theorem start_started {a : AdaptiveEngine δ} (h : a.Started) : (a.thdEngineStart s).2.Started := by
  have hfallback : a.startFallback.2.Started := by
    unfold startFallback
    dsimp only
    split
    · exact ⟨h.process, h.currentMatchedTarget, h.policyActive, h.policies⟩
    · split
      · exact h.apply_default
      · exact h
  unfold thdEngineStart
  split
  · exact h.apply_default
  · have hnext : (if a.needsFallback s then a.startFallback else (true, a)).2.Started := by
      split
      · exact hfallback
      · exact h
    generalize (if a.needsFallback s then a.startFallback else (true, a)) = next at hnext
    cases next with
    | mk goesOn a' =>
        cases goesOn with
        | false => exact hnext
        | true =>
            show (if s.second = -1 then a'.applyDefault else a').Started
            split
            · exact hnext.apply_default
            · exact hnext

/-- The branches of a start with conditions: a fallback target, the default table in its place,
neither of them, or conditions that can be evaluated. -/
theorem start_cases {a : AdaptiveEngine δ} (hdef : a.passiveDefOnly = false) :
    (a.needsFallback s = true ∧ 0 ≤ a.gddv.findAgressiveTarget ∧ a.thdEngineStart s = (thdSuccess,
      if s.second = -1 then applyDefault { a with fallbackId := a.gddv.findAgressiveTarget }
      else { a with fallbackId := a.gddv.findAgressiveTarget })) ∨
    (a.needsFallback s = true ∧ a.gddv.findAgressiveTarget < 0 ∧
      a.gddv.findDefPsvt.isSome = true ∧ a.thdEngineStart s = (thdSuccess,
        if s.second = -1 then a.applyDefault.applyDefault else a.applyDefault)) ∨
    (a.needsFallback s = true ∧ a.gddv.findAgressiveTarget < 0 ∧
      a.gddv.findDefPsvt.isSome = false ∧ a.thdEngineStart s = (thdError, a)) ∨
    (a.needsFallback s = false ∧ a.thdEngineStart s = (thdSuccess,
      if s.second = -1 then a.applyDefault else a)) := by
  have hno : ¬ a.passiveDefOnly = true := by simp [hdef]
  simp only [thdEngineStart, if_neg hno]
  cases hneeds : a.needsFallback s with
  | false => exact .inr (.inr (.inr ⟨rfl, rfl⟩))
  | true =>
      simp only [if_true, startFallback]
      by_cases hfound : 0 ≤ a.gddv.findAgressiveTarget
      · left
        simp [hfound]
      · cases htable : a.gddv.findDefPsvt.isSome with
        | true =>
            right; left
            simp [hfound, not_le.mp hfound]
        | false =>
            right; right; left
            simp [hfound, not_le.mp hfound]

/-- The default table is installed at the start, provided no fallback target is chosen. -/
def startsWithDefault (a : AdaptiveEngine δ) (s : Start) : Bool :=
  a.needsFallback s || s.second = -1

/-- After a successful start without fallback target there is a policy exactly if the default table
was installed. -/
theorem start_policies
    (hstart : ((init engine gddv path false debug).thdEngineStart s).1 = thdSuccess)
    (hfallback : ((init engine gddv path false debug).thdEngineStart s).2.fallbackId < 0) :
    (((init engine gddv path false debug).thdEngineStart s).2.policies ≠ [] ↔
      (init engine gddv path false debug).startsWithDefault s = true) ∧
    (init engine gddv path false debug).Updates
      ((init engine gddv path false debug).thdEngineStart s).2 := by
  generalize ha : init engine gddv path false debug = a at *
  have hdef : a.passiveDefOnly = false := by rw [← ha]; rfl
  have hempty : a.policies = [] := by rw [← ha]; rfl
  obtain ⟨hup, -, -, -, hpol⟩ := a.apply_default_spec
  obtain ⟨-, hfound, heq⟩ | ⟨hneeds, -, -, heq⟩ | ⟨-, -, -, heq⟩ | ⟨hneeds, heq⟩ :=
    start_cases s hdef
  · -- a fallback target was chosen, and the default table does not take it back
    exfalso
    rw [heq] at hfallback
    dsimp only at hfallback
    split at hfallback
    · have hkeeps := ({ a with fallbackId := a.gddv.findAgressiveTarget } :
        AdaptiveEngine δ).apply_default_spec.1.fallbackId
      rw [hkeeps] at hfallback
      exact absurd hfallback (not_lt.mpr hfound)
    · exact absurd hfallback (not_lt.mpr hfound)
  · rw [heq]
    dsimp only
    split
    · obtain ⟨hup', -, -, -, hpol'⟩ := a.applyDefault.apply_default_spec
      exact ⟨by simp [hpol', startsWithDefault, hneeds], hup.trans hup'⟩
    · exact ⟨by simp [hpol, startsWithDefault, hneeds], hup⟩
  · rw [heq] at hstart
    simp [thdError, thdSuccess] at hstart
  · rw [heq]
    dsimp only
    split
    · rename_i hsecond
      exact ⟨by simp [hpol, startsWithDefault, hsecond], hup⟩
    · rename_i hsecond
      exact ⟨by simp [hempty, startsWithDefault, hneeds, hsecond], .refl a⟩

end Start

variable [StdFloat]

/-! ## One update -/

/-- Executing targets as a policy: all of them, and then the default table if it is needed. -/
theorem apply_targets_spec (a : AdaptiveEngine δ) (targets : List AdaptiveTarget) :
    a.Updates (a.applyTargets targets) ∧
      (a.applyTargets targets).currentMatchedTarget = a.currentMatchedTarget ∧
      ((a.applyTargets targets).process = .running →
        (a.applyTargets targets).policies = a.policies ++ [a.policyFor targets]) := by
  have hbegin : a.Keeps { a with int3400Installed := false } := .of_names (.refl _) false _
  obtain ⟨hloop, hspec⟩ := execute_targets_spec targets { a with int3400Installed := false }
  have hkeeps := hbegin.trans hloop
  unfold applyTargets
  dsimp only
  split
  · rename_i hended
    exact ⟨hkeeps.toUpdates, hkeeps.currentMatchedTarget, fun hrunning => absurd hrunning hended⟩
  · rename_i hrunning
    obtain ⟨hexecuted, htable⟩ := hspec (not_not.mp hrunning)
    have hinstalls : installs { a with int3400Installed := false } = a.installs := rfl
    rw [hinstalls] at hexecuted htable
    split
    · rename_i hinstalled
      refine ⟨⟨hkeeps.names, hkeeps.gddv, hkeeps.fallbackId, hkeeps.int3400Path,
        hkeeps.passiveDefOnly⟩, hkeeps.currentMatchedTarget, fun _ => ?_⟩
      rw [htable] at hinstalled
      simp only [Bool.false_or] at hinstalled
      simp only [policyFor, hinstalled, hexecuted, hkeeps.policies, Bool.not_true]
    · rename_i hinstalled
      have hdefault := hkeeps.trans (install_passive_default_keeps _)
      refine ⟨⟨hdefault.names, hdefault.gddv, hdefault.fallbackId, hdefault.int3400Path,
        hdefault.passiveDefOnly⟩, hdefault.currentMatchedTarget, fun _ => ?_⟩
      rw [htable] at hinstalled
      simp only [Bool.false_or, Bool.not_eq_true] at hinstalled
      simp only [policyFor, hinstalled, hexecuted, hkeeps.policies, Bool.not_false]

/-- Without targets the process goes on. -/
theorem apply_no_targets_process (a : AdaptiveEngine δ) :
    (a.applyTargets []).process = a.process := by
  unfold applyTargets executeTargets
  dsimp only
  split
  · rfl
  · split
    · rfl
    · exact (install_passive_default_process _).1

/-- An update of a running engine without fallback target: nothing if the result is the cached one,
and else the policy of the targets that it executes. -/
theorem update_cases (a : AdaptiveEngine δ) (result : Int) (hrunning : a.process = .running)
    (hdef : a.passiveDefOnly = false) (hfallback : a.fallbackId < 0) :
    (a.currentMatchedTarget = result ∧ a.updateEngineState result = a) ∨
      (a.Updates (a.updateEngineState result) ∧
        (a.updateEngineState result).currentMatchedTarget = result ∧
        (result ≤ 0 → (a.updateEngineState result).process = .running) ∧
        ((a.updateEngineState result).process = .running →
          (a.updateEngineState result).policies =
            a.policies ++ [a.policyFor (executedFor a.gddv result)])) := by
  by_cases hsame : a.currentMatchedTarget = result
  · left
    simp [updateEngineState, hrunning, hdef, hfallback, hsame]
  · right
    have hbegin : a.Updates { a with currentMatchedTarget := result } :=
      ⟨.refl _, rfl, rfl, rfl, rfl⟩
    by_cases hpos : 0 < result
    · have heq : a.updateEngineState result =
          { applyTargets { a with currentMatchedTarget := result } (a.gddv.targetsOf result) with
            policyActive := true } := by
        simp [updateEngineState, hrunning, hdef, hfallback, hsame, hpos,
          show ¬ (0 ≤ a.fallbackId) by omega]
      obtain ⟨hupdates, hcurrent, hpolicies⟩ := apply_targets_spec
        { a with currentMatchedTarget := result } (a.gddv.targetsOf result)
      rw [heq]
      refine ⟨?_, hcurrent, fun h => absurd hpos (by omega), ?_⟩
      · exact ⟨hupdates.names, hupdates.gddv, hupdates.fallbackId, hupdates.int3400Path,
          hupdates.passiveDefOnly⟩
      · intro hrunning'
        rw [executedFor, if_pos hpos]
        exact hpolicies hrunning'
    · have heq : a.updateEngineState result =
          applyTargets { a with currentMatchedTarget := result } [] := by
        simp [updateEngineState, hrunning, hdef, hfallback, hsame, hpos,
          show ¬ (0 ≤ a.fallbackId) by omega]
      obtain ⟨hupdates, hcurrent, hpolicies⟩ := apply_targets_spec
        { a with currentMatchedTarget := result } []
      rw [heq]
      refine ⟨hbegin.trans hupdates, hcurrent, fun _ => ?_, ?_⟩
      · rw [apply_no_targets_process]
        exact hrunning
      · intro hrunning'
        rw [executedFor, if_neg hpos]
        exact hpolicies hrunning'

/-- An ended process stays ended. -/
theorem update_ended {a : AdaptiveEngine δ} (h : a.process ≠ .running) (result : Int) :
    a.updateEngineState result = a := by
  simp [updateEngineState, h]

/-! ## Runs without fallback target -/

/-- The results so far and the state: the last result is the cached one, and the last policy is that
of the targets executed for it. Before a policy is installed all results have been -1. -/
def Tracked (start : AdaptiveEngine δ) (past : List Int) (a : AdaptiveEngine δ) : Prop :=
  start.Updates a ∧ (a.process = .running → a.currentMatchedTarget = past.getLastD (-1) ∧
    (a.policies.getLast? = some (a.policyFor (executedFor a.gddv a.currentMatchedTarget)) ∨
      (a.policies = [] ∧ start.policies = [] ∧ ∀ r ∈ past, r = -1)))

omit [StdSort] [StdFloat] [AdaptiveCdev δ] in
/-- An engine that has been started is tracked. -/
theorem Started.tracked {start : AdaptiveEngine δ} (h : start.Started) :
    Tracked start [] start := by
  refine ⟨.refl _, fun _ => ⟨h.currentMatchedTarget, ?_⟩⟩
  cases hlast : start.policies.getLast? with
  | none =>
      right
      have hnil := List.getLast?_eq_none_iff.mp hlast
      exact ⟨hnil, hnil, by simp⟩
  | some p =>
      left
      rw [h.policies p (List.mem_of_getLast? hlast), h.currentMatchedTarget]
      rfl

/-- An update keeps the state tracked. -/
theorem Tracked.update {start a : AdaptiveEngine δ} {past : List Int}
    (hdef : start.passiveDefOnly = false) (hfallback : start.fallbackId < 0)
    (h : Tracked start past a) (result : Int) :
    Tracked start (past ++ [result]) (a.updateEngineState result) := by
  obtain ⟨hupdates, htracked⟩ := h
  by_cases hrunning : a.process = .running
  · obtain ⟨hcurrent, hpolicies⟩ := htracked hrunning
    obtain ⟨hsame, heq⟩ | ⟨hup, hcurrent', -, hlast⟩ := a.update_cases result hrunning
      (hupdates.passiveDefOnly.trans hdef) (hupdates.fallbackId ▸ hfallback)
    · rw [heq]
      refine ⟨hupdates, fun _ => ⟨by simpa using hsame, ?_⟩⟩
      obtain hpolicies | ⟨hnil, hstart, hpast⟩ := hpolicies
      · exact .inl hpolicies
      · refine .inr ⟨hnil, hstart, fun r hr => ?_⟩
        rcases List.mem_append.mp hr with hr | hr
        · exact hpast r hr
        · rw [List.mem_singleton.mp hr, ← hsame, hcurrent]
          -- the cached result is the last one, and all of them have been -1
          cases hlast : past.getLast? with
          | none => simp [List.getLastD_eq_getLast?, hlast]
          | some r =>
              rw [List.getLastD_eq_getLast?, hlast]
              exact hpast r (List.mem_of_getLast? hlast)
    · refine ⟨hupdates.trans hup, fun hrunning' => ⟨by simpa using hcurrent', .inl ?_⟩⟩
      rw [hlast hrunning', hcurrent', hup.policy_for_eq, hup.gddv]
      simp
  · rw [update_ended hrunning]
    exact ⟨hupdates, fun hrunning' => absurd hrunning' hrunning⟩

/-- Every run is tracked. -/
theorem Started.tracked_run {start : AdaptiveEngine δ} (h : start.Started)
    (hdef : start.passiveDefOnly = false) (hfallback : start.fallbackId < 0) (results : List Int) :
    Tracked start results (run updateEngineState start results) := by
  apply run_history (I := Tracked start) h.tracked
  intro past a result _ htracked
  exact htracked.update hdef hfallback result

omit [AdaptiveCdev δ] [StdSort] [StdFloat] in
/-- The property after an update, given that the state is tracked: there must be a policy, and the
result must be one whose targets are executed. -/
theorem Tracked.follows_iff {start a : AdaptiveEngine δ} {past : List Int} {result : Int}
    (h : Tracked start (past ++ [result]) a) :
    a.Follows result ↔ (a.process = .running → a.policies ≠ [] ∧ Executable a.gddv result) := by
  unfold Follows
  constructor
  · intro hfollows hrunning
    have hlast := hfollows hrunning
    have hne : a.policies ≠ [] := by
      intro hnil
      simp [hnil] at hlast
    refine ⟨hne, ?_⟩
    obtain ⟨hcurrent, hpolicies⟩ := h.2 hrunning
    have hcurrent : a.currentMatchedTarget = result := by simpa using hcurrent
    obtain hpolicies | ⟨hnil, -⟩ := hpolicies
    · rw [hlast, hcurrent] at hpolicies
      exact (a.policy_for_executed_iff result).mp (Option.some.inj hpolicies).symm
    · exact absurd hnil hne
  · intro hok hrunning
    obtain ⟨hne, hexecutable⟩ := hok hrunning
    obtain ⟨hcurrent, hpolicies⟩ := h.2 hrunning
    have hcurrent : a.currentMatchedTarget = result := by simpa using hcurrent
    obtain hpolicies | ⟨hnil, -⟩ := hpolicies
    · rw [hpolicies, hcurrent]
      exact congrArg some ((a.policy_for_executed_iff result).mpr hexecutable)
    · exact absurd hnil hne

/-- The process does not end in an update that executes nothing. -/
theorem Tracked.running_of_not_executable {start a : AdaptiveEngine δ} {past : List Int}
    {result : Int} (hdef : start.passiveDefOnly = false) (hfallback : start.fallbackId < 0)
    (h : Tracked start past a) (hrunning : a.process = .running)
    (hno : ¬ Executable a.gddv result) : (a.updateEngineState result).process = .running := by
  obtain ⟨-, heq⟩ | ⟨-, -, hprocess, -⟩ := a.update_cases result hrunning
    (h.1.passiveDefOnly.trans hdef) (h.1.fallbackId ▸ hfallback)
  · rw [heq]
    exact hrunning
  · apply hprocess
    by_contra hpos
    exact hno (.inl (by omega))

/-- Along a run without fallback target the vault stays the same. -/
theorem Started.run_gddv {start : AdaptiveEngine δ} (h : start.Started)
    (hdef : start.passiveDefOnly = false) (hfallback : start.fallbackId < 0)
    (past : List Int) (result : Int) :
    (run updateEngineState start (past ++ [result])).gddv =
      (run updateEngineState start past).gddv := by
  obtain ⟨hupdates, -⟩ := h.tracked_run hdef hfallback past
  obtain ⟨hupdates', -⟩ := h.tracked_run hdef hfallback (past ++ [result])
  exact hupdates'.gddv.trans hupdates.gddv.symm

/-- If the property holds after every update, all results of the running process are ones whose
targets are executed. -/
theorem Started.meets_of_follows {start : AdaptiveEngine δ} (h : start.Started)
    (hdef : start.passiveDefOnly = false) (hfallback : start.fallbackId < 0) {results : List Int}
    (hfollows : ∀ past result, past ++ [result] <+: results →
      (run updateEngineState start (past ++ [result])).Follows result) :
    Meets updateEngineState (fun a result => a.process = .running → Executable a.gddv result)
      start results := by
  have htracked := h.tracked_run hdef hfallback
  have hgddv := h.run_gddv hdef hfallback
  rw [← meets_iff_prefixes (I := fun past a => ∀ before result, past = before ++ [result] →
    (run updateEngineState start before).process = .running → Executable a.gddv result)
    (by simp)]
  · intro past hpast before result heq hrunning
    subst heq
    by_contra hno
    -- an update that executes nothing does not end the process
    have hstill := (htracked before).running_of_not_executable hdef hfallback hrunning
      (hgddv before result ▸ hno)
    have hprop := hfollows before result hpast
    rw [(htracked _).follows_iff] at hprop
    exact hno (hprop (by simpa using hstill)).2
  · intro past result _ _
    have hsame : (updateEngineState (run updateEngineState start past) result).gddv =
        (run updateEngineState start past).gddv := by
      simpa using hgddv past result
    rw [hsame]
    constructor
    · intro h hrunning
      exact h past result rfl hrunning
    · intro h before result' heq hrunning
      obtain ⟨rfl, hresult⟩ := List.append_inj' heq rfl
      rw [← List.singleton_inj.mp hresult]
      exact h hrunning

/-- If the first result -1 finds the property true, there was a policy at the start. -/
theorem Started.policies_of_follows {start : AdaptiveEngine δ} (h : start.Started)
    (hdef : start.passiveDefOnly = false) (hfallback : start.fallbackId < 0)
    (hfollows : (run updateEngineState start ([] ++ [-1])).Follows (-1)) :
    start.policies ≠ [] := by
  rw [(h.tracked_run hdef hfallback ([] ++ [-1])).follows_iff] at hfollows
  -- the first result is the cached one, so nothing has happened since the start
  have heq : run updateEngineState start ([] ++ [-1]) = start := by
    have hrunning := h.process
    simp [updateEngineState, hrunning, hdef, hfallback, h.currentMatchedTarget]
  rw [heq] at hfollows
  exact (hfollows h.process).1

omit [AdaptiveCdev δ] [StdSort] [StdFloat] in
/-- If a policy is there at the start or the first result is not -1, there is one after every
update of the running process. -/
theorem Tracked.policies_ne_nil {start a : AdaptiveEngine δ} {past : List Int} {result : Int}
    (h : Tracked start (past ++ [result]) a) (hrunning : a.process = .running)
    (hfirst : (past ++ [result]).head? = some (-1) → start.policies ≠ []) : a.policies ≠ [] := by
  obtain ⟨-, hlast⟩ := h.2 hrunning
  obtain hlast | ⟨-, hempty, hall⟩ := hlast
  · intro hnil
    rw [hnil] at hlast
    simp at hlast
  · exfalso
    apply hfirst
    · cases past with
      | nil => simp [hall result (by simp)]
      | cons r rest => simp [hall r (by simp)]
    · exact hempty

/-- In a run without fallback target the last policy is after every update the one of its result,
exactly if the default table was installed at the start or the first result is not -1, and no
update gets an id below 1 other than -1 that has targets. -/
theorem policy_in_force_iff (engine : Engine δ) (gddv : Gddv) (path : Bytes) (debug : Bool)
    (s : Start) (results : List Int)
    (hstart : ((init engine gddv path false debug).thdEngineStart s).1 = thdSuccess)
    (hfallback : ((init engine gddv path false debug).thdEngineStart s).2.fallbackId < 0) :
    (∀ past result, past ++ [result] <+: results →
      (run updateEngineState ((init engine gddv path false debug).thdEngineStart s).2
        (past ++ [result])).Follows result) ↔
    (results.head? = some (-1) →
      (init engine gddv path false debug).startsWithDefault s = true) ∧
    Meets updateEngineState (fun a result => a.process = .running → Executable a.gddv result)
      ((init engine gddv path false debug).thdEngineStart s).2 results := by
  obtain ⟨hpolicies, hupdates⟩ := start_policies engine gddv path debug s hstart hfallback
  have hstarted := start_started s (init_started engine gddv path debug false)
  generalize ((init engine gddv path false debug).thdEngineStart s).2 = start at *
  have hdef : start.passiveDefOnly = false := hupdates.passiveDefOnly
  constructor
  · intro hfollows
    refine ⟨fun hhead => hpolicies.mp ?_, hstarted.meets_of_follows hdef hfallback hfollows⟩
    obtain ⟨rest, rfl⟩ := List.head?_eq_some_iff.mp hhead
    exact hstarted.policies_of_follows hdef hfallback (hfollows [] (-1) ⟨rest, rfl⟩)
  · intro hok past result hpre
    obtain ⟨hhead, hmeets⟩ := hok
    have htracked := hstarted.tracked_run hdef hfallback (past ++ [result])
    rw [htracked.follows_iff]
    intro hrunning
    have hrunning' : (run updateEngineState start past).process = .running := by
      by_contra hended
      rw [run_append, run_cons, run_nil, update_ended hended] at hrunning
      exact hended hrunning
    constructor
    · refine htracked.policies_ne_nil hrunning fun hfirst => hpolicies.mpr (hhead ?_)
      obtain ⟨more, rfl⟩ := hpre
      rw [List.head?_append, hfirst]
      rfl
    · rw [hstarted.run_gddv hdef hfallback]
      exact (meets_append.mp (hmeets.of_prefix hpre)).2.1 hrunning'

end Runs

/-- `std::stof` on the texts of whole numbers. -/
@[reducible] def wholeFloat : StdFloat := ⟨fun text => (scanInt text).map fun n => int32 (n * 1000)⟩

/-- The processor as a zone, with a sensor and a device. -/
def sampleEngine : Engine GenSysfs where
  zones := [(Zone.init 0 "TCPU" .independent).bindSensor ⟨0, .raw, "TCPU", false, false⟩]
  world :=
    { cdevs := fun k => { Cdev.init k ⟨"", []⟩ with typeStr := "B0D4", maxState := 10 }
      cdevCount := 1
      sensors := [⟨0, .raw, "TCPU", false, false⟩]
      pollIntervalSec := 0
      ignoreCritical := false
      clock := fun n => n
      ticks := 0
      events := [] }
  preference := .energyConserve
  status := true
  currentZoneIndex := 1

/-- A row for the processor at 70 degrees. -/
def sampleRow : Gddv.Psv where
  source := ascii "TCPU"
  target := ascii "TCPU"
  priority := 0
  samplePeriod := 10
  temp := 3432
  domain := 0
  controlKnob := 0
  limit := ascii "MAX"
  stepSize := 0
  limitCoeff := 0
  unlimitCoeff := 0

/-- A vault with a default table and a power limit while the lid is open. -/
def sampleVault : Gddv :=
  { Gddv.init with
    psvts := [⟨ascii "IETM.D0", [sampleRow]⟩]
    conditions := [[{ Gddv.Condition.init 5 with condition := 10, comparison := 1, argument := 1 }]]
    targets := [⟨5, ascii "open", ascii "TCPU", 0, ascii "PL1MAX", ascii "15"⟩] }

/-- The engine with this vault before its start. -/
def sampleInit : AdaptiveEngine GenSysfs := init sampleEngine sampleVault [] false false

/-- The lid is closed at the start, opened and closed again. -/
theorem closed_lid_followed :
    letI := StdSort.insertion
    letI := wholeFloat
    (sampleInit.thdEngineStart ⟨true, true, -1, -1⟩).1 = thdSuccess ∧
      (run updateEngineState (sampleInit.thdEngineStart ⟨true, true, -1, -1⟩).2
        ([-1, 5] ++ [-1])).Follows (-1) := by
  let _ := StdSort.insertion
  let _ := wholeFloat
  refine ⟨by decide +kernel, ?_⟩
  refine (policy_in_force_iff sampleEngine sampleVault [] false ⟨true, true, -1, -1⟩ [-1, 5, -1]
    (by decide +kernel) (by decide +kernel)).mpr ⟨fun _ => by decide +kernel, ?_⟩ [-1, 5] (-1)
      (List.prefix_refl _)
  exact ⟨fun _ => .inr (.inl rfl), fun _ => .inl (by decide), fun _ => .inr (.inl rfl), trivial⟩

/-- The lid is open at the start and closed before the first update, which then does nothing: no
policy is in force at all. -/
theorem open_lid_no_policy :
    letI := StdSort.insertion
    letI := wholeFloat
    (sampleInit.thdEngineStart ⟨true, true, 5, 5⟩).1 = thdSuccess ∧
      (sampleInit.thdEngineStart ⟨true, true, 5, 5⟩).2.fallbackId < 0 ∧
      ¬ (run updateEngineState (sampleInit.thdEngineStart ⟨true, true, 5, 5⟩).2
        [-1]).Follows (-1) := by
  refine ⟨by decide +kernel, by decide +kernel, ?_⟩
  intro h
  have hlast := h (by decide +kernel)
  revert hlast
  decide +kernel

/-! ## Runs with a fallback target -/

section Fallback

variable [AdaptiveCdev δ] [StdSort] [StdFloat]

/-- All targets that have been executed so far, in their order. -/
def executedTargets (a : AdaptiveEngine δ) : List AdaptiveTarget :=
  a.policies.flatMap fun p => p.executed.map (·.1)

/-- The targets with the id of the fallback target. -/
def fallbackTargets (a : AdaptiveEngine δ) : List AdaptiveTarget :=
  match a.gddv.targets[a.fallbackId.toNat]? with
  | none => []
  | some fallback => a.gddv.targets.filter fun t => t.targetId = fallback.targetId

/-- The targets of the fallback id have been executed, exactly once, and a policy is active. -/
def FallbackExecuted (a : AdaptiveEngine δ) : Prop :=
  a.executedTargets.filter (fun t => t ∈ a.fallbackTargets) = a.fallbackTargets ∧
    a.policyActive = true

/-- With a fallback target every update finds its result cached. -/
theorem update_fallback {a : AdaptiveEngine δ} (h : a.Started) (hfallback : 0 ≤ a.fallbackId)
    (result : Int) : a.updateEngineState result = a := by
  simp [updateEngineState, h.process, h.currentMatchedTarget, show ¬ a.fallbackId < 0 by omega]

omit [StdSort] [StdFloat] in
/-- The place that `find_agressive_target` returns is one of the list. -/
theorem find_agressive_from_lt (maxPl1Max maxTargetId : Int) (i : Nat)
    (targets : List AdaptiveTarget) :
    Gddv.findAgressiveFrom maxPl1Max maxTargetId i targets = maxTargetId ∨
      ∃ j < i + targets.length,
        Gddv.findAgressiveFrom maxPl1Max maxTargetId i targets = (j : Nat) := by
  induction targets generalizing maxPl1Max maxTargetId i with
  | nil => exact .inl rfl
  | cons t rest ih =>
      have hskip := ih maxPl1Max maxTargetId (i + 1)
      unfold Gddv.findAgressiveFrom
      rw [List.length_cons, show i + (rest.length + 1) = i + 1 + rest.length by omega]
      split
      · exact hskip
      · rename_i argument _
        split
        · obtain htake | htake := ih argument i (i + 1)
          · exact .inr ⟨i, by omega, htake⟩
          · exact .inr htake
        · exact hskip

/-- The vault of the start, and no fallback target or the one of `find_agressive_target`. -/
structure ChoosesFrom (gddv : Gddv) (a : AdaptiveEngine δ) : Prop where
  vault : a.gddv = gddv
  choice : a.fallbackId = -1 ∨ a.fallbackId = gddv.findAgressiveTarget

omit [StdSort] [StdFloat] [AdaptiveCdev δ] in
/-- The targets of a fallback target that was chosen so are there. -/
theorem ChoosesFrom.targets_ne_nil {gddv : Gddv} {a : AdaptiveEngine δ} (h : ChoosesFrom gddv a)
    (hpos : 0 ≤ a.fallbackId) : a.fallbackTargets ≠ [] := by
  obtain hid | hid := h.choice
  · omega
  · obtain hnone | ⟨j, hj, hplace⟩ := find_agressive_from_lt 0 (-1) 0 gddv.targets
    · rw [hid, Gddv.findAgressiveTarget, hnone] at hpos
      exact absurd hpos (by decide)
    · rw [Nat.zero_add] at hj
      have hget : gddv.targets[a.fallbackId.toNat]? = some gddv.targets[j] := by
        rw [hid, Gddv.findAgressiveTarget, hplace, Int.toNat_natCast]
        exact List.getElem?_eq_getElem hj
      have hmem : gddv.targets[j] ∈ a.fallbackTargets := by
        simp [fallbackTargets, hget, h.vault]
      exact List.ne_nil_of_mem hmem

omit [StdFloat] in
/-- Installing the default table does not change the choice. -/
theorem ChoosesFrom.apply_default {gddv : Gddv} {a : AdaptiveEngine δ} (h : ChoosesFrom gddv a) :
    ChoosesFrom gddv a.applyDefault := by
  have hup := a.apply_default_spec.1
  refine ⟨hup.gddv.trans h.vault, ?_⟩
  rw [hup.fallbackId]
  exact h.choice

omit [StdFloat] in
/-- A start that chooses a fallback target takes the one of `find_agressive_target`. -/
theorem start_chooses_from (engine : Engine δ) (gddv : Gddv) (path : Bytes)
    (def_only debug : Bool) (s : Start) :
    ChoosesFrom gddv ((init engine gddv path def_only debug).thdEngineStart s).2 := by
  have hinit : ChoosesFrom gddv (init engine gddv path def_only debug) := ⟨rfl, .inl rfl⟩
  cases def_only with
  | true => exact hinit.apply_default
  | false =>
      obtain ⟨-, -, heq⟩ | ⟨-, -, -, heq⟩ | ⟨-, -, -, heq⟩ | ⟨-, heq⟩ :=
        start_cases s (a := init engine gddv path false debug) rfl
      · have hchosen : ChoosesFrom gddv { init engine gddv path false debug with
            fallbackId := gddv.findAgressiveTarget } := ⟨rfl, .inr rfl⟩
        rw [heq]
        dsimp only
        split
        · exact hchosen.apply_default
        · exact hchosen
      · rw [heq]
        dsimp only
        split
        · exact hinit.apply_default.apply_default
        · exact hinit.apply_default
      · rw [heq]
        exact hinit
      · rw [heq]
        dsimp only
        split
        · exact hinit.apply_default
        · exact hinit

/-- Whatever the vault holds, if the start chooses a fallback target then its targets are not
executed in any run, nor is any other target. -/
theorem fallback_never_executed (engine : Engine δ) (gddv : Gddv) (path : Bytes)
    (def_only debug : Bool) (s : Start) (results : List Int)
    (hfallback : 0 ≤ ((init engine gddv path def_only debug).thdEngineStart s).2.fallbackId) :
    (run updateEngineState ((init engine gddv path def_only debug).thdEngineStart s).2
      results).fallbackTargets ≠ [] ∧
    (run updateEngineState ((init engine gddv path def_only debug).thdEngineStart s).2
      results).executedTargets = [] ∧
    ¬ (run updateEngineState ((init engine gddv path def_only debug).thdEngineStart s).2
      results).FallbackExecuted := by
  have hstarted := start_started s (init_started engine gddv path debug def_only)
  have htargets :=
    (start_chooses_from engine gddv path def_only debug s).targets_ne_nil hfallback
  generalize ((init engine gddv path def_only debug).thdEngineStart s).2 = start at *
  have hrun : run updateEngineState start results = start := by
    induction results with
    | nil => rfl
    | cons r rest ih => rw [run_cons, update_fallback hstarted hfallback r, ih]
  rw [hrun]
  refine ⟨htargets, ?_, ?_⟩
  · apply List.flatMap_eq_nil_iff.mpr
    intro p hp
    rw [hstarted.policies p hp]
    rfl
  · intro h
    obtain ⟨-, hactive⟩ := h
    rw [hstarted.policyActive] at hactive
    exact absurd hactive (by decide)

end Fallback

/-- Without a lid device the condition cannot be evaluated, and the power limit becomes the fallback
target. -/
theorem missing_lid_fallback :
    letI := StdSort.insertion
    letI := wholeFloat
    (sampleInit.thdEngineStart ⟨false, true, -1, -1⟩).2.fallbackId = 0 ∧
      (run updateEngineState (sampleInit.thdEngineStart ⟨false, true, -1, -1⟩).2
        [-1, -1]).executedTargets = [] := by
  let _ := StdSort.insertion
  let _ := wholeFloat
  refine ⟨by decide +kernel, ?_⟩
  exact (fallback_never_executed sampleEngine sampleVault [] false false ⟨false, true, -1, -1⟩
    [-1, -1] (by decide +kernel)).2.1

/-- One update does not execute the fallback target. -/
theorem missing_lid_not_executed :
    letI := StdSort.insertion
    letI := wholeFloat
    (sampleInit.thdEngineStart ⟨false, true, -1, -1⟩).2.fallbackId = 0 ∧
      ¬ (run updateEngineState (sampleInit.thdEngineStart ⟨false, true, -1, -1⟩).2
        [-1]).FallbackExecuted := by
  refine ⟨by decide +kernel, ?_⟩
  intro h
  obtain ⟨-, hactive⟩ := h
  revert hactive
  decide +kernel

end AdaptiveEngine

end Thermald
