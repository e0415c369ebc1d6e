import Thermald.Loop.Operations

/-!
# Control of the kernel in the loop

In exclusive mode the daemon takes the kernel's zones over when it starts and whenever a message
about the preference arrives, unless the daemon is disabled. The control is driven by these
takeovers (`step_control`). Whatever the threads do, the policies come back at the end if the first
takeover could read them (`policies_restored`).
-/

namespace Thermald

namespace MainLoop

variable {ε δ : Type} [EngineClass ε δ] {s : MainLoop ε}

/-- The message makes the daemon take over. -/
def takesOver (s : MainLoop ε) (c : MessageCapsul) (i : ThreadInput) : Bool :=
  MessageName.ofCode c.msgId = some MessageName.prefChanged && i.newPref ≠ .disabled &&
    s.control.controlMode = .exclusive

/-- The policies that a takeover of a step can read, if it has one. -/
def takeovers (s : MainLoop ε) (a : LoopAction) : List PolicyReads :=
  match a with
  | .thread i => (s.handled a).flatMap fun c => if s.takesOver c i then [i.policyReads] else []
  | _ => []

variable [CdevClass δ] [StdSort]

/-- A message takes over if it is one about the preference. -/
theorem proc_message_control (s : MainLoop ε) (c : MessageCapsul) (i : ThreadInput) :
    (s.procMessage c i).control = run ThermalControl.takeoverThermalControl s.control
      (if s.takesOver c i then [i.policyReads] else []) := by
  unfold procMessage takesOver
  cases MessageName.ofCode c.msgId with
  | none => rfl
  | some name =>
      cases name with
      | prefChanged =>
          have hsame : (s.setBase (s.base.processPrefChange i.newPref i.readings)).control =
            s.control := rfl
          dsimp only
          unfold processPrefChange
          dsimp only
          rw [hsame]
          by_cases htakes : i.newPref ≠ .disabled ∧ s.control.controlMode = .exclusive
          · rw [if_pos htakes, if_pos (by simp [htakes])]
            rfl
          · rw [if_neg htakes, if_neg (by simpa using htakes)]
            rfl
      | thermalZoneNotify =>
          show (if s.base.status then _ else s).control = s.control
          split
          · rfl
          · rfl
      | _ => rfl

/-- The control is driven by the takeovers of the steps. -/
theorem step_control (s : MainLoop ε) (a : LoopAction) :
    (s.step a).control = run ThermalControl.takeoverThermalControl s.control (s.takeovers a) := by
  have hstep := s.step_cases a
  generalize s.step a = s' at hstep ⊢
  have hnone (h : s.handled a = []) : s.takeovers a = [] := by
    cases a with
    | thread i => simp [takeovers, h]
    | send c room => rfl
    | user op => rfl
  cases hstep with
  | stopped a hrun =>
      rw [hnone (by simp [handled, pipeOps, hrun])]
      rfl
  | write i c rest hrun houtbox =>
      rw [hnone (by simp [handled, pipeOps, hrun, houtbox, RecordFormat.taken])]
      rfl
  | poll i hrun houtbox hplace =>
      rw [hnone (by simp [handled, pipeOps, houtbox, hplace])]
      obtain ⟨-, heq⟩ | ⟨-, place, heq⟩ := s.at_poll_cases i
      · rw [heq]
        rfl
      · rw [heq]
        rfl
  | uevent i tm thermal wakeup hrun houtbox hplace =>
      rw [hnone (by simp [handled, pipeOps, houtbox, hplace])]
      obtain ⟨-, heq⟩ | ⟨-, heq⟩ := s.at_uevent_cases i tm thermal wakeup
      · rw [heq]
        rfl
      · rw [heq]
        rfl
  | wakeup i tm wakeup hrun houtbox hplace =>
      have hops : s.pipeOps (.thread i) = if wakeup then [.read] else [] := by
        cases wakeup with
        | true => simp [pipeOps, hrun, houtbox, hplace]
        | false => simp [pipeOps, hrun, houtbox, hplace]
      unfold takeovers handled atWakeup
      dsimp only
      rw [hops]
      cases wakeup with
      | false => rfl
      | true =>
          by_cases hempty : s.pipe = []
          · simp [hempty, RecordFormat.taken]
          · have htaken : outputs MessageCapsul.format.step MessageCapsul.format.taken s.pipe
                [.read] = [s.pipe.take MessageCapsul.size] := by
              simp [RecordFormat.taken, hempty, MessageCapsul.format]
            rw [if_pos rfl, if_neg hempty, if_pos rfl, htaken]
            exact (proc_message_control { s with pipe := s.pipe.drop MessageCapsul.size }
              (MessageCapsul.ofBytes (s.pipe.take MessageCapsul.size ++ i.junk)) i).trans
                (congrArg _ (List.append_nil _).symm)
  | update i tm hrun houtbox hplace =>
      rw [hnone (by simp [handled, pipeOps, houtbox, hplace])]
      unfold atUpdate
      split_ifs <;> rfl
  | ended i hrun houtbox hplace =>
      rw [hnone (by simp [handled, pipeOps, houtbox, hplace])]
      rfl
  | send c room hrun => rfl
  | user op hrun => rfl

/-- Where the takeover at the start could read every policy, `process_terminate` gives each zone of
the kernel its policy back after any run of the loop. -/
theorem policies_restored (s : MainLoop ε) (c : ThermalControl) (reads : PolicyReads)
    (actions : List LoopAction) (hmode : c.controlMode = .exclusive)
    (hfresh : c.zonePreferences = []) (hstart : s.control = c.takeoverThermalControl reads)
    (hreads : ∀ z ∈ c.zones, z.policy ≠ none → reads z.number = true) :
    ∃ c', (run step s actions).control.giveupThermalControl = some c' ∧
      c'.policies = c.policies := by
  have hcontrol : (run step s actions).control = run ThermalControl.takeoverThermalControl c
      (reads :: outputs step takeovers s actions) := by
    rw [part_run step_control, hstart]
    rfl
  obtain ⟨hrunMode, hpreferences, htaken⟩ :=
    ThermalControl.run_takeover c hfresh (reads :: outputs step takeovers s actions)
  rw [hcontrol]
  unfold ThermalControl.giveupThermalControl
  rw [if_neg (not_not.mpr (hrunMode.trans hmode)), hpreferences]
  split
  · rename_i hfound
    exact ⟨_, rfl, ThermalControl.policies_of_found_nil htaken hfound⟩
  · have hprefix := ThermalControl.restorable_of_first c.zones reads
      (outputs step takeovers s actions) hreads
    obtain ⟨zones, hloop, hpolicies⟩ :=
      (ThermalControl.giveup_zones_iff htaken _ 0).mpr hprefix
    exact ⟨_, Option.bind_eq_some_iff.mpr ⟨zones, hloop, rfl⟩, hpolicies⟩

omit [StdSort] in
/-- The policies of two zones after a turn. -/
theorem warm_turn_restored :
    letI := StdSort.insertion
    ∃ c', (run step warmLoop (warmTurn .prefChanged 10)).control.giveupThermalControl = some c' ∧
      c'.policies = [some "step_wise", some "fair_share"] := by
  let _ := StdSort.insertion
  exact policies_restored warmLoop ⟨.exclusive, [⟨0, some "step_wise", some "acpitz", none⟩,
    ⟨1, some "fair_share", some "pch", none⟩], []⟩ (fun _ => true) (warmTurn .prefChanged 10) rfl
    rfl rfl fun _ _ _ => rfl

end MainLoop

end Thermald
