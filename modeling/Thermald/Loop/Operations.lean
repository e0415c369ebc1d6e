import Thermald.Loop.Delivery

/-!
# The engine in its loop

Each step of the loop does one operation on the engine at most: it notifies the zones, handles a
message, lets the engine update its state, or serves the user. The engine is driven by these
operations (`step_engine`), so what every operation keeps holds in every state of the loop, however
the threads interleave (`engine_invariant`).
-/

namespace Thermald

/-- The operations on the engine. -/
inductive EngineOp where
  | notify (p : Poll)
  | prefChange (newPref : Pref) (p : Poll)
  | zoneChange (p : Poll)
  | reload (zones : List Zone) (currentZoneIndex : Int)
  | update (result : Int) (clock : Nat → Int)
  | user (op : UserOp)

section

variable {ε δ : Type} [EngineClass ε δ] [CdevClass δ] [StdSort]

/-- The engine after an operation. -/
def EngineOp.apply (x : ε) (op : EngineOp) : ε :=
  let e := EngineClass.base x
  match op with
  | .notify p => EngineClass.withBase x (e.poll p)
  | .prefChange newPref p => EngineClass.withBase x (e.processPrefChange newPref p)
  | .zoneChange p => EngineClass.withBase x (e.thermalZoneChange p)
  | .reload zones currentZoneIndex =>
    EngineClass.withBase x (e.thdEngineReloadZones zones currentZoneIndex)
  | .update result clock =>
    EngineClass.updateEngineState (EngineClass.withBase x (e.withClock clock)) result
  | .user op => EngineClass.withBase x (e.userStep op)

end

namespace MainLoop

variable {ε δ : Type} [EngineClass ε δ] {s : MainLoop ε}

/-- The operation that a message stands for. -/
def messageOps (s : MainLoop ε) (c : MessageCapsul) (i : ThreadInput) : List EngineOp :=
  match MessageName.ofCode c.msgId with
  | some .prefChanged => [.prefChange i.newPref i.readings]
  | some .thermalZoneNotify => if s.base.status then [.zoneChange i.readings] else []
  | some .reloadZones => [.reload i.zones i.currentZoneIndex]
  | _ => []

/-- The turn begins with a notification of the zones. -/
def notifies (s : MainLoop ε) (i : ThreadInput) : Bool :=
  !s.terminate && !i.failed && !(!s.ready i && s.pollState.pollTimeoutMsec < 0) &&
    s.tempIndDue i && s.base.status

/-- The uevent is evaluated. -/
def evaluatesUevent (s : MainLoop ε) (i : ThreadInput) (thermal : Bool) : Bool :=
  thermal && i.thermalEvent && thzNotifyDebounceInterval ≤ i.now - s.thzLastUeventTime

/-- The operations of a step on the engine. -/
def engineOps (s : MainLoop ε) (a : LoopAction) : List EngineOp :=
  if EngineClass.running s.engine then
    match a with
    | .thread i =>
      match s.outbox, s.place with
      | [], .poll => if s.notifies i then [.notify i.readings] else []
      | [], .uevent _ thermal _ => if s.evaluatesUevent i thermal then [.notify i.readings] else []
      | [], .wakeup _ _ => (s.handled a).flatMap fun c => s.messageOps c i
      | [], .update tm =>
        if s.thdPollInterval ≤ tm - s.thzLastUpdateEventTime then
          [.update i.result i.readings.clock]
        else []
      | _, _ => []
    | .send _ _ => []
    | .user op => [.user op]
  else []

variable [CdevClass δ] [StdSort]

theorem proc_message_engine (s : MainLoop ε) (c : MessageCapsul) (i : ThreadInput) :
    (s.procMessage c i).engine = run EngineOp.apply s.engine (s.messageOps c i) := by
  unfold procMessage messageOps
  cases MessageName.ofCode c.msgId with
  | none => rfl
  | some name =>
      cases name with
      | prefChanged =>
          dsimp only
          unfold processPrefChange
          dsimp only
          split_ifs <;> rfl
      | thermalZoneNotify =>
          dsimp only
          split_ifs <;> rfl
      | _ => rfl

/-- The beginning of a turn notifies the zones, or only moves on. -/
theorem at_poll_cases (s : MainLoop ε) (i : ThreadInput) :
    (s.notifies i = true ∧ s.atPoll i =
      { s.notifyZones i.readings with
        thzLastTempIndTime := i.now
        place := .uevent i.now (s.ueventReady i) s.wakeupReady }) ∨
      (s.notifies i = false ∧ ∃ place, s.atPoll i = { s with place }) := by
  unfold atPoll notifies
  dsimp only
  split_ifs with hterminate hfailed hwaits hdue hstatus
  · exact .inr ⟨by simp [hterminate], _, rfl⟩
  · exact .inr ⟨by simp [hfailed], _, rfl⟩
  · exact .inr ⟨by simp only [hwaits, Bool.not_true, Bool.and_false, Bool.false_and], _, rfl⟩
  · refine .inl ⟨?_, rfl⟩
    simp only [Bool.not_eq_true] at hterminate hfailed hwaits
    simp only [hterminate, hfailed, hwaits, hdue, hstatus, Bool.not_false, Bool.and_self]
  · refine .inr ⟨?_, _, rfl⟩
    simp only [Bool.not_eq_true] at hstatus
    simp only [hstatus, Bool.and_false]
  · refine .inr ⟨?_, _, rfl⟩
    simp only [Bool.not_eq_true] at hdue
    simp only [hdue, Bool.and_false, Bool.false_and]

/-- The part for uevents notifies the zones, or only moves on. -/
theorem at_uevent_cases (s : MainLoop ε) (i : ThreadInput) (tm : Int) (thermal wakeup : Bool) :
    (s.evaluatesUevent i thermal = true ∧ s.atUevent i tm thermal wakeup =
      { s.notifyZones i.readings with
        thzLastUeventTime := i.now
        place := .wakeup tm wakeup }) ∨
      (s.evaluatesUevent i thermal = false ∧ s.atUevent i tm thermal wakeup =
        { s with
          thzLastUeventTime := if thermal && i.thermalEvent then i.now else s.thzLastUeventTime
          place := .wakeup tm wakeup }) := by
  unfold atUevent evaluatesUevent
  cases thermal && i.thermalEvent with
  | false => exact .inr ⟨rfl, rfl⟩
  | true =>
      by_cases hlong : thzNotifyDebounceInterval ≤ i.now - s.thzLastUeventTime
      · refine .inl ⟨by simpa using hlong, ?_⟩
        simp only [if_true, hlong]
      · refine .inr ⟨by simpa using hlong, ?_⟩
        simp only [if_true, hlong, if_false]

/-- The engine is driven by the operations of the steps. -/
theorem step_engine (s : MainLoop ε) (a : LoopAction) :
    (s.step a).engine = run EngineOp.apply s.engine (s.engineOps a) := by
  have hstep := s.step_cases a
  generalize s.step a = s' at hstep ⊢
  unfold engineOps
  cases hstep with
  | stopped a hrun => simp [hrun]
  | write i c rest hrun houtbox => simp [hrun, houtbox]
  | poll i hrun houtbox hplace =>
      rw [if_pos hrun, houtbox, hplace]
      dsimp only
      obtain ⟨hnotifies, heq⟩ | ⟨hnotifies, place, heq⟩ := s.at_poll_cases i
      · rw [heq, if_pos hnotifies]
        rfl
      · rw [heq, hnotifies]
        rfl
  | uevent i tm thermal wakeup hrun houtbox hplace =>
      rw [if_pos hrun, houtbox, hplace]
      dsimp only
      obtain ⟨hevaluates, heq⟩ | ⟨hevaluates, heq⟩ := s.at_uevent_cases i tm thermal wakeup
      · rw [heq, if_pos hevaluates]
        rfl
      · rw [heq, hevaluates]
        rfl
  | wakeup i tm wakeup hrun houtbox hplace =>
      have hops : s.pipeOps (.thread i) = if wakeup then [.read] else [] := by
        cases wakeup with
        | true => simp [pipeOps, hrun, houtbox, hplace]
        | false => simp [pipeOps, hrun, houtbox, hplace]
      have hengine := proc_message_engine { s with pipe := s.pipe.drop MessageCapsul.size }
        (MessageCapsul.ofBytes (s.pipe.take MessageCapsul.size ++ i.junk)) i
      rw [if_pos hrun, houtbox, hplace]
      dsimp only
      unfold handled atWakeup
      rw [hops]
      cases wakeup with
      | false => rfl
      | true =>
          by_cases hempty : s.pipe = []
          · simp [hempty, RecordFormat.taken]
          · have htaken : outputs MessageCapsul.format.step MessageCapsul.format.taken s.pipe
                [.read] = [s.pipe.take MessageCapsul.size] := by
              simp [RecordFormat.taken, hempty, MessageCapsul.format]
            rw [if_pos rfl, if_neg hempty, if_pos rfl, htaken]
            exact hengine.trans (congrArg _ (List.append_nil _).symm)
  | update i tm hrun houtbox hplace =>
      rw [if_pos hrun, houtbox, hplace]
      dsimp only
      unfold atUpdate
      split_ifs
      · rfl
      · rfl
  | ended i hrun houtbox hplace => simp [hrun, houtbox, hplace]
  | send c room hrun => simp [hrun]
  | user op hrun => simp [hrun, setBase, setEngine, EngineOp.apply, base]

/-- The engine after a run of the loop. -/
theorem run_engine (s : MainLoop ε) (actions : List LoopAction) :
    (run step s actions).engine = run EngineOp.apply s.engine (outputs step engineOps s actions) :=
  part_run step_engine

/-- What every operation keeps holds in every state of the loop. -/
theorem engine_invariant {I : ε → Prop} (hop : ∀ x op, I x → I (EngineOp.apply x op))
    (s : MainLoop ε) (hinit : I s.engine) (actions : List LoopAction) :
    I (run step s actions).engine := by
  rw [run_engine]
  have hmeets : Meets EngineOp.apply (fun _ _ => True) s.engine
      (outputs step engineOps s actions) :=
    meets_iff_inputs.mpr fun _ _ _ => trivial
  exact run_invariant hinit (fun x op _ hx _ => hop x op hx) hmeets

end MainLoop

end Thermald
