import Thermald.Loop.Operations

/-!
# Turns of the loop

A daemon that is disabled begins its next turn where it would notify the zones, and does not get to
the message that would enable it again. `disabled_turns` says so for the time from the next
notification on. Without a polling interval this time has always come, and `disabled_for_good`
follows for whole runs.

`nothing_after_terminate` is the end of the loop. `uevents_spaced` says which uevents are evaluated:
the time since the last uevent counts, whether that was evaluated or not.
-/

namespace Thermald

namespace MainLoop

variable {ε δ : Type} [CdevClass δ] [StdSort] [EngineClass ε δ] {s s' : MainLoop ε}

/-! ## A disabled daemon -/

/-- The thread has nothing to write and is not in the middle of a turn. -/
def Rests (s : MainLoop ε) : Prop :=
  s.outbox = [] ∧ (s.place = .poll ∨ (∃ tm, s.place = .update tm) ∨ s.place = .ended)

/-- The step comes when it is time to notify the zones. -/
def Due (s : MainLoop ε) : LoopAction → Prop
  | .thread i => s.pollTimeoutSec ≤ i.now - s.thzLastTempIndTime
  | _ => True

/-- Everything that only the thread changes, apart from its place and the state of the engine. -/
structure SameThread (s s' : MainLoop ε) : Prop where
  status : s'.base.status = s.base.status
  pollState : s'.pollState = s.pollState
  control : s'.control = s.control
  outbox : s'.outbox = s.outbox
  terminate : s'.terminate = s.terminate
  tempIndTime : s'.thzLastTempIndTime = s.thzLastTempIndTime
  timeout : s'.pollTimeoutSec = s.pollTimeoutSec

omit [CdevClass δ] [StdSort] in
theorem SameThread.refl (s : MainLoop ε) : s.SameThread s := ⟨rfl, rfl, rfl, rfl, rfl, rfl, rfl⟩

omit [CdevClass δ] [StdSort] in
theorem SameThread.trans {s'' : MainLoop ε} (h : s.SameThread s') (h' : s'.SameThread s'') :
    s.SameThread s'' :=
  ⟨h'.status.trans h.status, h'.pollState.trans h.pollState, h'.control.trans h.control,
    h'.outbox.trans h.outbox, h'.terminate.trans h.terminate, h'.tempIndTime.trans h.tempIndTime,
    h'.timeout.trans h.timeout⟩

omit [CdevClass δ] [StdSort] in
/-- An engine that keeps the status and sends nothing. -/
theorem same_thread_set_engine {x : ε} (hstatus : (EngineClass.base x).status = s.base.status)
    (hsilent : s.base.world.Silent (EngineClass.base x).world) : s.SameThread (s.setEngine x) := by
  refine ⟨hstatus, rfl, rfl, ?_, rfl, rfl, rfl⟩
  have hnone : s.base.newMessages (EngineClass.base x) = [] := by
    unfold Engine.newMessages
    rw [hsilent, List.drop_length]
  show s.outbox ++ (s.base.newMessages (EngineClass.base x)).map PollMessage.capsul = s.outbox
  rw [hnone, List.map_nil, List.append_nil]

omit [CdevClass δ] in
/-- A request of the user keeps the status. -/
theorem user_step_status (e : Engine δ) (op : UserOp) : (e.userStep op).status = e.status := by
  cases op with
  | addZone c =>
      unfold Engine.userStep Engine.userAddZone
      dsimp only
      split
      · rfl
      · rfl
  | setZoneStatus name status =>
      unfold Engine.userStep Engine.userSetZoneStatus
      dsimp only
      split
      · rfl
      · rfl
  | deleteZone name => rfl

omit [CdevClass δ] in
theorem same_thread_user (s : MainLoop ε) (op : UserOp) :
    s.SameThread (s.setBase (s.base.userStep op)) := by
  refine same_thread_set_engine ?_ ?_
  · rw [EngineClass.base_with, user_step_status]
  · rw [EngineClass.base_with]
    exact user_step_silent s.base op

omit [CdevClass δ] [StdSort] in
theorem same_thread_at_update (s : MainLoop ε) (i : ThreadInput) (tm : Int) :
    s.SameThread (s.atUpdate i tm) := by
  unfold atUpdate
  split
  · have hsame : s.SameThread (s.setEngine (EngineClass.updateEngineState
        (EngineClass.withBase s.engine (s.base.withClock i.readings.clock)) i.result)) := by
      refine same_thread_set_engine ?_ ?_
      · rw [EngineClass.status_update, EngineClass.base_with]
        rfl
      · unfold World.Silent
        rw [EngineClass.messages_update, EngineClass.base_with]
        rfl
    exact ⟨hsame.status, rfl, rfl, hsame.outbox, rfl, rfl, rfl⟩
  · exact ⟨rfl, rfl, rfl, rfl, rfl, rfl, rfl⟩

/-- The next turn of a disabled daemon does not get further than to the end. -/
theorem at_poll_disabled {i : ThreadInput} (hstatus : s.base.status = false)
    (hdue : s.Due (.thread i)) : s.atPoll i = s ∨ s.atPoll i = { s with place := .ended } := by
  have hind : s.tempIndDue i = true := by
    unfold tempIndDue
    rw [Bool.or_eq_true]
    exact .inr (decide_eq_true hdue)
  unfold atPoll
  simp only [hind, hstatus, if_true, Bool.false_eq_true, if_false]
  split_ifs
  · exact .inr rfl
  · exact .inl rfl
  · exact .inl rfl
  · exact .inl rfl

/-- A disabled daemon handles no message. -/
theorem disabled_step {a : LoopAction} (hstatus : s.base.status = false) (hrests : s.Rests)
    (hdue : s.Due a) : s.SameThread (s.step a) ∧ (s.step a).Rests ∧ s.handled a = [] := by
  obtain ⟨houtbox, hplace⟩ := hrests
  have hstep := s.step_cases a
  generalize s.step a = s' at hstep ⊢
  unfold handled pipeOps
  cases hstep with
  | stopped a hrun => exact ⟨.refl s, ⟨houtbox, hplace⟩, by simp [hrun]⟩
  | write i c rest hrun hcons =>
      rw [houtbox] at hcons
      cases hcons
  | poll i hrun _ hpoll =>
      have hnone : (s.handled (.thread i)) = [] := by simp [handled, pipeOps, houtbox, hpoll]
      rcases at_poll_disabled hstatus hdue with heq | heq
      · rw [heq]
        exact ⟨.refl s, ⟨houtbox, hplace⟩, hnone⟩
      · rw [heq]
        exact ⟨⟨rfl, rfl, rfl, rfl, rfl, rfl, rfl⟩, ⟨houtbox, .inr (.inr rfl)⟩, hnone⟩
  | uevent i tm thermal wakeup hrun _ huevent => simp [huevent] at hplace
  | wakeup i tm wakeup hrun _ hwakeup => simp [hwakeup] at hplace
  | update i tm hrun _ hupdate =>
      have hsame := s.same_thread_at_update i tm
      refine ⟨hsame, ⟨hsame.outbox.trans houtbox, .inl ?_⟩, by simp [houtbox, hupdate]⟩
      unfold atUpdate
      split
      · rfl
      · rfl
  | ended i hrun _ hended => exact ⟨.refl s, ⟨houtbox, hplace⟩, by simp [houtbox, hended]⟩
  | send c room hrun =>
      exact ⟨⟨rfl, rfl, rfl, rfl, rfl, rfl, rfl⟩, ⟨houtbox, hplace⟩,
        by simp [hrun, RecordFormat.taken]⟩
  | user op hrun =>
      have hsame := s.same_thread_user op
      exact ⟨hsame, ⟨hsame.outbox.trans houtbox, hplace⟩, by simp [hrun]⟩

/-- The clock has not gone back behind the last notification of the zones. -/
def ClockForward (s : MainLoop ε) : LoopAction → Prop
  | .thread i => s.thzLastTempIndTime ≤ i.now
  | _ => True

theorem proc_message_timeout (s : MainLoop ε) (c : MessageCapsul) (i : ThreadInput) :
    (s.procMessage c i).pollTimeoutSec = s.pollTimeoutSec :=
  (congrArg pollTimeoutSec (s.proc_message_frame c i)).trans rfl

instance (s : MainLoop ε) : (a : LoopAction) → Decidable (s.ClockForward a)
  | .thread i => inferInstanceAs (Decidable (s.thzLastTempIndTime ≤ i.now))
  | .send _ _ => isTrue trivial
  | .user _ => isTrue trivial

/-- No step changes the polling interval of the thread. -/
theorem step_timeout (s : MainLoop ε) (a : LoopAction) :
    (s.step a).pollTimeoutSec = s.pollTimeoutSec := by
  have hstep := s.step_cases a
  generalize s.step a = s' at hstep ⊢
  cases hstep with
  | stopped | write | ended | send | user => rfl
  | poll i =>
      unfold atPoll
      dsimp only
      split_ifs <;> rfl
  | uevent i tm thermal wakeup =>
      unfold atUevent
      split_ifs <;> rfl
  | wakeup i tm wakeup =>
      unfold atWakeup
      dsimp only
      split_ifs
      · rfl
      · exact proc_message_timeout _ _ i
      · rfl
  | update i tm =>
      unfold atUpdate
      split_ifs <;> rfl

/-- A message that disables the daemon sends nothing. -/
theorem proc_message_disables {c : MessageCapsul} {i : ThreadInput} (hstatus : s.base.status = true)
    (hdisabled : (s.procMessage c i).base.status = false) :
    (s.procMessage c i).outbox = s.outbox := by
  have hkept (e : Engine δ) (h : e.status = true) : (s.setBase e).base.status = true := by
    show (EngineClass.base (EngineClass.withBase s.engine e)).status = true
    rw [EngineClass.base_with]
    exact h
  unfold procMessage at hdisabled ⊢
  split at hdisabled
  · rfl
  · rfl
  · by_cases hpref : i.newPref = .disabled
    · have hworld : (s.base.processPrefChange i.newPref i.readings).world = s.base.world := by
        unfold Engine.processPrefChange
        rw [if_pos hpref]
      have hnone : s.base.newMessages (s.base.processPrefChange i.newPref i.readings) = [] := by
        unfold Engine.newMessages
        rw [hworld, List.drop_length]
      unfold processPrefChange
      dsimp only
      rw [if_neg fun h => h.1 hpref]
      show s.outbox ++ (s.base.newMessages (EngineClass.base (EngineClass.withBase s.engine
        (s.base.processPrefChange i.newPref i.readings)))).map PollMessage.capsul = s.outbox
      rw [EngineClass.base_with, hnone, List.map_nil, List.append_nil]
    · have hon : (s.processPrefChange i).base.status = true := by
        have hpos : (s.base.processPrefChange i.newPref i.readings).status = true := by
          unfold Engine.processPrefChange
          rw [if_neg hpref]
        unfold processPrefChange
        dsimp only
        split
        · exact hkept _ hpos
        · exact hkept _ hpos
      rw [hon] at hdisabled
      cases hdisabled
  · rw [if_pos hstatus, hkept (s.base.thermalZoneChange i.readings) hstatus] at hdisabled
    cases hdisabled
  · rw [hkept (s.base.thdEngineReloadZones i.zones i.currentZoneIndex) hstatus] at hdisabled
    cases hdisabled
  all_goals rfl

/-- The step that disables the daemon is the one that handles the message. -/
theorem rests_of_disables {a : LoopAction} (hstatus : s.base.status = true)
    (hdisabled : (s.step a).base.status = false) : (s.step a).Rests := by
  have hnotify (p : Poll) : (s.notifyZones p).base.status = true := by
    show (EngineClass.base (EngineClass.withBase s.engine (s.base.poll p))).status = true
    rw [EngineClass.base_with]
    exact hstatus
  have hstep := s.step_cases a
  generalize s.step a = s' at hstep hdisabled ⊢
  have hkept (h : s'.base.status = true) : s'.Rests := by
    rw [h] at hdisabled
    cases hdisabled
  cases hstep with
  | stopped | write | ended | send => exact hkept hstatus
  | poll i =>
      refine hkept ?_
      unfold atPoll
      dsimp only
      split_ifs
      · exact hstatus
      · exact hstatus
      · exact hstatus
      · exact hnotify i.readings
      · exact hstatus
  | uevent i tm thermal wakeup =>
      refine hkept ?_
      unfold atUevent
      split_ifs
      · exact hnotify i.readings
      · exact hstatus
      · exact hstatus
  | wakeup i tm wakeup hrun houtbox =>
      unfold atWakeup at hdisabled ⊢
      dsimp only at hdisabled ⊢
      split_ifs at hdisabled ⊢
      · exact ⟨houtbox, .inl rfl⟩
      · exact ⟨(proc_message_disables (s := { s with pipe := s.pipe.drop MessageCapsul.size })
          hstatus hdisabled).trans houtbox, .inr (.inl ⟨tm, rfl⟩)⟩
      · exact ⟨houtbox, .inr (.inl ⟨tm, rfl⟩)⟩
  | update i tm => exact hkept ((s.same_thread_at_update i tm).status.trans hstatus)
  | user op => exact hkept ((s.same_thread_user op).status.trans hstatus)

omit [StdSort] in
/-- Without a polling interval it is always time to notify the zones. -/
theorem ClockForward.due {a : LoopAction} (h : s.ClockForward a) (hsec : s.pollTimeoutSec ≤ 0) :
    s.Due a := by
  cases a with
  | thread i =>
      have hle : s.thzLastTempIndTime ≤ i.now := h
      show s.pollTimeoutSec ≤ i.now - s.thzLastTempIndTime
      omega
  | send c room => trivial
  | user op => trivial

/-- The thread has been told to end and handles no more messages in this turn. -/
def Ends (s : MainLoop ε) : Prop :=
  s.terminate = true ∧ (s.place = .poll ∨ (∃ tm, s.place = .update tm) ∨ s.place = .ended)

omit [CdevClass δ] [StdSort] in
/-- Only the part for messages handles one. -/
theorem handled_cases (s : MainLoop ε) (a : LoopAction) :
    s.handled a = [] ∨ ∃ i tm, a = .thread i ∧ EngineClass.running s.engine = true ∧
      s.outbox = [] ∧ s.place = .wakeup tm true ∧ s.pipe ≠ [] ∧
      s.handled a = [.ofBytes (s.pipe.take MessageCapsul.size ++ i.junk)] := by
  unfold handled pipeOps
  split
  · rename_i hrun
    cases a with
    | thread i =>
        dsimp only
        split
        · exact .inl rfl
        · rename_i tm houtbox hplace
          by_cases hempty : s.pipe = []
          · exact .inl (by simp [RecordFormat.taken, hempty])
          · refine .inr ⟨i, tm, rfl, hrun, houtbox, hplace, hempty, ?_⟩
            simp [RecordFormat.taken, hempty, LoopAction.junk, MessageCapsul.format]
        · exact .inl rfl
    | send c room => exact .inl rfl
    | user op => exact .inl rfl
  · exact .inl rfl

/-- Behind the end nothing is handled. -/
theorem Ends.next {a : LoopAction} (h : s.Ends) : (s.step a).Ends ∧ s.handled a = [] := by
  obtain ⟨hterminate, hplace⟩ := h
  refine ⟨?_, ?_⟩
  · have hstep := s.step_cases a
    generalize s.step a = s' at hstep ⊢
    cases hstep with
    | stopped | write | ended | send | user => exact ⟨hterminate, hplace⟩
    | poll i =>
        unfold atPoll
        dsimp only
        rw [if_pos hterminate]
        exact ⟨hterminate, .inr (.inr rfl)⟩
    | uevent i tm thermal wakeup hrun _ huevent => simp [huevent] at hplace
    | wakeup i tm wakeup hrun _ hwakeup => simp [hwakeup] at hplace
    | update i tm =>
        unfold atUpdate
        split
        · exact ⟨hterminate, .inl rfl⟩
        · exact ⟨hterminate, .inl rfl⟩
  · rcases s.handled_cases a with hnone | ⟨i, tm, -, -, -, hwakeup, -⟩
    · exact hnone
    · simp [hwakeup] at hplace

/-- The message that ends the thread does so at once. -/
theorem ends_of_terminate {a : LoopAction} {c : MessageCapsul} (hc : c ∈ s.handled a)
    (hname : MessageName.ofCode c.msgId = some .terminate) : (s.step a).Ends := by
  rcases s.handled_cases a with hnone | ⟨i, tm, rfl, hrun, houtbox, hplace, hpipe, hhandled⟩
  · rw [hnone] at hc
    cases hc
  · rw [hhandled, List.mem_singleton] at hc
    have hstep : s.step (.thread i) = s.atWakeup i tm true := by
      simp [step, hrun, thread, houtbox, hplace]
    rw [hstep]
    unfold atWakeup
    dsimp only
    rw [if_pos rfl, if_neg hpipe, ← hc]
    refine ⟨?_, .inr (.inl ⟨tm, rfl⟩)⟩
    have hframe := proc_message_frame { s with pipe := s.pipe.drop MessageCapsul.size } c i
    refine (congrArg terminate hframe).trans ?_
    simp [hname]

/-- A message to end is the last one that is handled, whatever else is in the pipe. -/
theorem nothing_after_terminate (s : MainLoop ε) (actions : List LoopAction)
    (pre post : List MessageCapsul) (c : MessageCapsul)
    (hhandled : outputs step handled s actions = pre ++ c :: post)
    (hname : MessageName.ofCode c.msgId = some .terminate) : post = [] := by
  have hquiet : ∀ (actions : List LoopAction) (s : MainLoop ε), s.Ends →
      outputs step handled s actions = [] := fun actions s h =>
    outputs_eq_nil Ends h fun s a _ h => ⟨h.next.1, h.next.2⟩
  induction actions generalizing s pre with
  | nil => simp at hhandled
  | cons a rest ih =>
      rw [outputs_cons] at hhandled
      rcases s.handled_cases a with hnone | ⟨i, tm, -, -, -, -, -, hone⟩
      · rw [hnone, List.nil_append] at hhandled
        exact ih (s.step a) pre hhandled
      · rw [hone, List.singleton_append] at hhandled
        cases pre with
        | nil =>
            obtain ⟨hc, hpost⟩ := List.cons.inj hhandled
            have hends : (s.step a).Ends :=
              ends_of_terminate (by rw [hone, hc]; exact List.mem_singleton_self c) hname
            rw [← hpost, hquiet rest _ hends]
        | cons c' pre => exact ih (s.step a) pre (List.cons.inj hhandled).2

omit [StdSort] in
/-- A turn that handles the message to end. -/
theorem warm_turn_ends :
    letI := StdSort.insertion
    ∃ c post, outputs step handled warmLoop (warmTurn .terminate 10) = [] ++ c :: post ∧
      MessageName.ofCode c.msgId = some .terminate ∧ post = [] := by
  let _ := StdSort.insertion
  have hids : (outputs step handled warmLoop (warmTurn .terminate 10)).map (·.msgId) = [1] := by
    decide +kernel
  obtain ⟨c, hhandled, hid⟩ := List.map_eq_singleton_iff.mp hids
  have hname : MessageName.ofCode c.msgId = some .terminate := by
    rw [hid]
    rfl
  exact ⟨c, [], hhandled, hname,
    nothing_after_terminate warmLoop (warmTurn .terminate 10) [] [] c hhandled hname⟩

/-! ## Uevents -/

/-- The time of a thermal uevent that the thread sees in a step. -/
def ueventTimes (s : MainLoop ε) (a : LoopAction) : List Int :=
  if EngineClass.running s.engine then
    match a with
    | .thread i =>
      match s.outbox, s.place with
      | [], .uevent _ thermal _ => if thermal && i.thermalEvent then [i.now] else []
      | _, _ => []
    | _ => []
  else []

/-- The time of a uevent for which the zones are notified. -/
def evaluatedTimes (s : MainLoop ε) (a : LoopAction) : List Int :=
  if s.engineOps a = [] then [] else s.ueventTimes a

/-- The times that are some seconds after the one before them, which counts whether it is such a
time or not. -/
def spaced (seconds last : Int) (times : List Int) : List Int :=
  outputs (fun _ t => t) (fun last t => if seconds ≤ t - last then [t] else []) last times

theorem proc_message_uevent_time (s : MainLoop ε) (c : MessageCapsul) (i : ThreadInput) :
    (s.procMessage c i).thzLastUeventTime = s.thzLastUeventTime :=
  (congrArg thzLastUeventTime (s.proc_message_frame c i)).trans rfl

/-- The thread remembers the time of the last thermal uevent. -/
theorem step_uevent_time (s : MainLoop ε) (a : LoopAction) :
    (s.step a).thzLastUeventTime =
      run (fun _ t => t) s.thzLastUeventTime (s.ueventTimes a) := by
  have hstep := s.step_cases a
  generalize s.step a = s' at hstep ⊢
  unfold ueventTimes
  cases hstep with
  | stopped a hrun => simp [hrun]
  | write i c rest hrun houtbox => simp [hrun, houtbox]
  | poll i hrun houtbox hplace =>
      obtain ⟨-, heq⟩ | ⟨-, place, heq⟩ := s.at_poll_cases i
      · simp [hrun, houtbox, hplace, heq, notifyZones, setBase, setEngine]
      · simp [hrun, houtbox, hplace, heq]
  | uevent i tm thermal wakeup hrun houtbox hplace =>
      simp only [hrun, houtbox, hplace, if_true]
      unfold atUevent
      split_ifs <;> rfl
  | wakeup i tm wakeup hrun houtbox hplace =>
      simp only [hrun, houtbox, hplace, if_true]
      unfold atWakeup
      dsimp only
      split_ifs
      · rfl
      · exact proc_message_uevent_time _ _ i
      · rfl
  | update i tm hrun houtbox hplace =>
      simp only [hrun, houtbox, hplace, if_true]
      unfold atUpdate
      split_ifs <;> rfl
  | ended i hrun houtbox hplace => simp [hrun, houtbox, hplace]
  | send c room hrun => simp [hrun]
  | user op hrun => simp [hrun, setBase, setEngine]

omit [CdevClass δ] [StdSort] in
/-- A uevent is evaluated if the last one is long ago. -/
theorem evaluated_times_eq (s : MainLoop ε) (a : LoopAction) :
    s.evaluatedTimes a = outputs (fun _ t => t)
      (fun last t => if thzNotifyDebounceInterval ≤ t - last then [t] else [])
      s.thzLastUeventTime (s.ueventTimes a) := by
  unfold evaluatedTimes engineOps ueventTimes
  cases EngineClass.running s.engine with
  | false => simp
  | true =>
      cases a with
      | thread i =>
          cases houtbox : s.outbox with
          | cons c rest => simp
          | nil =>
              cases hplace : s.place with
              | uevent tm thermal wakeup =>
                  cases hevent : thermal && i.thermalEvent with
                  | false => simp [hevent]
                  | true =>
                      by_cases hlong : thzNotifyDebounceInterval ≤ i.now - s.thzLastUeventTime
                      · simp [evaluatesUevent, hevent, hlong]
                      · simp [evaluatesUevent, hevent, hlong]
              | poll | wakeup | update | ended => simp
      | send c room => simp
      | user op => simp

omit [StdSort] in
/-- No time is spaced exactly if all follow the one before closely. -/
theorem spaced_eq_nil_iff {seconds last : Int} {times : List Int} :
    spaced seconds last times = [] ↔
      List.IsChain (fun t t' => t' - t < seconds) (last :: times) := by
  induction times generalizing last with
  | nil => simp [spaced]
  | cons t rest ih =>
      unfold spaced at ih ⊢
      rw [outputs_cons, List.append_eq_nil_iff, ih, List.isChain_cons_cons]
      refine and_congr ?_ Iff.rfl
      split
      · exact iff_of_false (List.cons_ne_nil _ _) (by omega)
      · exact iff_of_true rfl (by omega)

/-- The zones are notified for those uevents that come some seconds after the one before, whatever
happens in between. So uevents that keep coming before the time is over are never evaluated, however
long it takes. -/
theorem uevents_spaced (s : MainLoop ε) (actions : List LoopAction) :
    outputs step evaluatedTimes s actions =
        spaced thzNotifyDebounceInterval s.thzLastUeventTime
          (outputs step ueventTimes s actions) ∧
      (outputs step evaluatedTimes s actions = [] ↔
        List.IsChain (fun t t' => t' - t < thzNotifyDebounceInterval)
          (s.thzLastUeventTime :: outputs step ueventTimes s actions)) := by
  have hspaced : outputs step evaluatedTimes s actions =
      spaced thzNotifyDebounceInterval s.thzLastUeventTime (outputs step ueventTimes s actions) :=
    part_outputs step_uevent_time evaluated_times_eq
  refine ⟨hspaced, ?_⟩
  rw [hspaced, spaced_eq_nil_iff]

end MainLoop

end Thermald
