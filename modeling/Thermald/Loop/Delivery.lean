import Thermald.Loop.Thread
import Thermald.Polling.Sent

/-!
# Delivery of messages

The thread and the other threads write into one pipe, and the thread reads one message in a turn.
The pipe is a stream of records that is driven by these writes and reads (`step_pipe`), so messages
are handled once and in their order whatever the threads do in between, as long as every write is
whole or refused (`messages_in_order`).

A zone asks for polling through the same pipe. `requests_take_effect` says that the polling state of
the engine is the one after some of the requests made so far, and that the others are still under
way in their order. Writes that the pipe cuts off or refuses are excluded there.
-/

namespace Thermald

namespace LoopAction

/-- A write is whole or refused, and what another thread writes is a message. -/
def Whole : LoopAction → Prop
  | .thread i => i.room = 0 ∨ MessageCapsul.size ≤ i.room
  | .send c room => c.Fits ∧ (room = 0 ∨ MessageCapsul.size ≤ room)
  | .user _ => True

/-- What stands behind the end of a message that is cut off. -/
def junk : LoopAction → Bytes
  | .thread i => i.junk
  | _ => []

/-- The thread finds room for its messages, and others send no messages about polling. -/
def Plain : LoopAction → Prop
  | .thread i => MessageCapsul.size ≤ i.room
  | .send c room => c.Fits ∧ c.pollMessage? = none ∧ (room = 0 ∨ MessageCapsul.size ≤ room)
  | .user _ => True

theorem Plain.whole {a : LoopAction} (h : a.Plain) : a.Whole := by
  cases a with
  | thread i => exact .inr h
  | send c room => exact ⟨h.1, h.2.2⟩
  | user op => trivial

end LoopAction

namespace MainLoop

/-! ## Frames -/

section Frames

variable {ε δ : Type} [EngineClass ε δ] {s s' : MainLoop ε}

/-- Only the engine, the control of the kernel and the messages that wait are different. -/
def OnlyEngine (s s' : MainLoop ε) : Prop :=
  s' = { s with engine := s'.engine, control := s'.control, outbox := s'.outbox }

variable [CdevClass δ] [StdSort]

theorem process_pref_change_frame (s : MainLoop ε) (i : ThreadInput) :
    s.OnlyEngine (s.processPrefChange i) := by
  unfold processPrefChange
  dsimp only
  split
  · rfl
  · rfl

/-- A message changes the members of the engine, the polling state and the mark of the end. -/
theorem proc_message_frame (s : MainLoop ε) (c : MessageCapsul) (i : ThreadInput) :
    { s with
      pollState := run PollState.procMessage s.pollState c.pollMessage?.toList
      terminate := s.terminate || MessageName.ofCode c.msgId = some MessageName.terminate
      }.OnlyEngine (s.procMessage c i) := by
  unfold procMessage MessageCapsul.pollMessage?
  cases MessageName.ofCode c.msgId with
  | none => simp [OnlyEngine]
  | some name =>
      cases name with
      | wakeup | terminate => simp [OnlyEngine]
      | prefChanged =>
          have hframe := s.process_pref_change_frame i
          simpa [OnlyEngine] using hframe
      | thermalZoneNotify =>
          dsimp only
          split
          · simp [OnlyEngine, setBase, setEngine]
          · simp [OnlyEngine]
      | reloadZones => simp [OnlyEngine, setBase, setEngine]
      | pollEnable | pollDisable | fastPollEnable | fastPollDisable => simp [OnlyEngine]

end Frames

/-! ## The pipe -/

section Pipe

variable {ε : Type}

/-- What a step does to the pipe. -/
def pipeOps {δ : Type} [EngineClass ε δ] (s : MainLoop ε) (a : LoopAction) :
    List (StreamOp MessageCapsul) :=
  if EngineClass.running s.engine then
    match a with
    | .thread i =>
      match s.outbox, s.place with
      | c :: _, _ => [.write c i.room]
      | [], .wakeup _ true => [.read]
      | [], _ => []
    | .send c room => [.write c room]
    | .user _ => []
  else []

/-- The message that a step handles. -/
def handled {δ : Type} [EngineClass ε δ] (s : MainLoop ε) (a : LoopAction) : List MessageCapsul :=
  (outputs MessageCapsul.format.step MessageCapsul.format.taken s.pipe (s.pipeOps a)).map
    fun piece => MessageCapsul.ofBytes (piece ++ a.junk)

variable {δ : Type} [CdevClass δ] [StdSort] [EngineClass ε δ]

theorem at_poll_pipe (s : MainLoop ε) (i : ThreadInput) : (s.atPoll i).pipe = s.pipe := by
  unfold atPoll
  dsimp only
  split_ifs <;> rfl

theorem at_uevent_pipe (s : MainLoop ε) (i : ThreadInput) (tm : Int) (thermal wakeup : Bool) :
    (s.atUevent i tm thermal wakeup).pipe = s.pipe := by
  unfold atUevent
  split_ifs <;> rfl

theorem at_wakeup_pipe (s : MainLoop ε) (i : ThreadInput) (tm : Int) :
    (s.atWakeup i tm true).pipe = s.pipe.drop MessageCapsul.size := by
  unfold atWakeup
  dsimp only
  rw [if_pos rfl]
  split
  · rename_i hempty
    rw [hempty]
    rfl
  · exact congrArg pipe (proc_message_frame _ _ i)

omit [CdevClass δ] [StdSort] in
theorem at_update_pipe (s : MainLoop ε) (i : ThreadInput) (tm : Int) :
    (s.atUpdate i tm).pipe = s.pipe := by
  unfold atUpdate
  split
  · rfl
  · rfl

/-- The pipe is a stream that is driven by the writes and reads of the steps. -/
theorem step_pipe (s : MainLoop ε) (a : LoopAction) :
    (s.step a).pipe = run MessageCapsul.format.step s.pipe (s.pipeOps a) := by
  have hstep := s.step_cases a
  generalize s.step a = s' at hstep ⊢
  unfold pipeOps
  cases hstep with
  | stopped a hrun => simp [hrun]
  | write i c rest hrun houtbox => simp [hrun, houtbox, RecordFormat.step, MessageCapsul.format]
  | poll i hrun houtbox hplace => simp [hrun, houtbox, hplace, at_poll_pipe]
  | uevent i tm thermal wakeup hrun houtbox hplace =>
      simp [hrun, houtbox, hplace, at_uevent_pipe]
  | wakeup i tm wakeup hrun houtbox hplace =>
      cases wakeup with
      | true =>
          simp [hrun, houtbox, hplace, at_wakeup_pipe, RecordFormat.step, MessageCapsul.format]
      | false => simp [hrun, houtbox, hplace, atWakeup]
  | update i tm hrun houtbox hplace => simp [hrun, houtbox, hplace, at_update_pipe]
  | ended i hrun houtbox hplace => simp [hrun, houtbox, hplace]
  | send c room hrun => simp [hrun, RecordFormat.step, MessageCapsul.format]
  | user op hrun => simp [hrun, setBase, setEngine]

end Pipe

/-! ## Messages of the zones -/

section Posts

variable {ε δ : Type} [EngineClass ε δ] {s s' : MainLoop ε}

/-- The messages that the engine sends wait behind those that wait already. -/
structure Posts (s s' : MainLoop ε) : Prop where
  sends : s.base.world.Sends s'.base.world
  outbox : s'.outbox = s.outbox ++ (s.base.newMessages s'.base).map PollMessage.capsul

theorem new_messages_self (e : Engine δ) : e.newMessages e = [] := by
  simp [Engine.newMessages]

/-- The same engine and the same messages. -/
theorem Posts.of_same (hengine : s'.engine = s.engine) (houtbox : s'.outbox = s.outbox) :
    s.Posts s' := by
  have hbase : s'.base = s.base := congrArg EngineClass.base hengine
  refine ⟨?_, ?_⟩
  · rw [hbase]
    exact .refl _
  · rw [hbase, new_messages_self, houtbox, List.map_nil, List.append_nil]

theorem posts_set_engine {x : ε} (h : s.base.world.Sends (EngineClass.base x).world) :
    s.Posts (s.setEngine x) :=
  ⟨h, rfl⟩

theorem posts_set_base {e : Engine δ} (h : s.base.world.Sends e.world) : s.Posts (s.setBase e) := by
  refine posts_set_engine ?_
  rw [EngineClass.base_with]
  exact h

variable [CdevClass δ] [StdSort]

theorem thermal_zone_change_sends (e : Engine δ) (p : Poll) :
    e.world.Sends (e.thermalZoneChange p).world := by
  refine Engine.for_zones_sends (fun z w => ?_) e.zones (e.world.withClock p.clock)
  split
  · exact z.read_zone_temp_sends _ _ w
  · exact .refl w

omit [CdevClass δ] in
/-- A request of the user sends nothing. -/
theorem user_step_silent (e : Engine δ) (op : UserOp) : e.world.Silent (e.userStep op).world := by
  cases op with
  | addZone c => exact e.user_add_zone_silent c
  | setZoneStatus name status =>
      unfold Engine.userStep Engine.userSetZoneStatus
      dsimp only
      split
      · exact .refl _
      · exact .refl _
  | deleteZone name => exact .refl _

theorem posts_notify (s : MainLoop ε) (p : Poll) : s.Posts (s.notifyZones p) :=
  posts_set_base (s.base.poll_sends p)

theorem posts_pref_change (s : MainLoop ε) (i : ThreadInput) : s.Posts (s.processPrefChange i) := by
  have hposts := posts_set_base (s.base.process_pref_change_sends i.newPref i.readings)
  unfold processPrefChange
  dsimp only
  split
  · exact ⟨hposts.sends, hposts.outbox⟩
  · exact hposts

theorem posts_proc_message (s : MainLoop ε) (c : MessageCapsul) (i : ThreadInput) :
    s.Posts (s.procMessage c i) := by
  unfold procMessage
  split
  · exact .of_same rfl rfl
  · exact .of_same rfl rfl
  · exact s.posts_pref_change i
  · split
    · exact posts_set_base (thermal_zone_change_sends s.base i.readings)
    · exact .of_same rfl rfl
  · exact posts_set_base (World.Silent.refl s.base.world).sends
  all_goals exact .of_same rfl rfl

theorem posts_at_poll (s : MainLoop ε) (i : ThreadInput) : s.Posts (s.atPoll i) := by
  unfold atPoll
  dsimp only
  split_ifs
  · exact .of_same rfl rfl
  · exact .of_same rfl rfl
  · exact .of_same rfl rfl
  · exact ⟨(s.posts_notify i.readings).sends, (s.posts_notify i.readings).outbox⟩
  · exact .of_same rfl rfl
  · exact .of_same rfl rfl

theorem posts_at_uevent (s : MainLoop ε) (i : ThreadInput) (tm : Int) (thermal wakeup : Bool) :
    s.Posts (s.atUevent i tm thermal wakeup) := by
  unfold atUevent
  dsimp only
  split_ifs
  · exact ⟨(s.posts_notify i.readings).sends, (s.posts_notify i.readings).outbox⟩
  · exact .of_same rfl rfl
  · exact .of_same rfl rfl

theorem posts_at_wakeup (s : MainLoop ε) (i : ThreadInput) (tm : Int) (wakeup : Bool) :
    s.Posts (s.atWakeup i tm wakeup) := by
  unfold atWakeup
  dsimp only
  split_ifs
  · exact .of_same rfl rfl
  · have hposts := posts_proc_message { s with pipe := s.pipe.drop MessageCapsul.size }
      (MessageCapsul.ofBytes (s.pipe.take MessageCapsul.size ++ i.junk)) i
    exact ⟨hposts.sends, hposts.outbox⟩
  · exact .of_same rfl rfl

omit [CdevClass δ] [StdSort] in
theorem posts_at_update (s : MainLoop ε) (i : ThreadInput) (tm : Int) :
    s.Posts (s.atUpdate i tm) := by
  unfold atUpdate
  split
  · have hsends : s.base.world.Sends (EngineClass.base (EngineClass.updateEngineState
        (EngineClass.withBase s.engine (s.base.withClock i.readings.clock)) i.result)).world := by
      refine World.Silent.sends ?_
      unfold World.Silent
      rw [EngineClass.messages_update, EngineClass.base_with]
      rfl
    exact ⟨(posts_set_engine hsends).sends, (posts_set_engine hsends).outbox⟩
  · exact .of_same rfl rfl

/-- The message that a step takes from those that wait. -/
def flushed (s : MainLoop ε) (a : LoopAction) : List MessageCapsul :=
  if EngineClass.running s.engine then
    match a with
    | .thread _ => s.outbox.head?.toList
    | _ => []
  else []

/-- The messages that the zones send in a step. -/
def sent (s : MainLoop ε) (a : LoopAction) : List PollMessage := s.base.newMessages (s.step a).base

/-- The message that is written has left those that wait, and those that are sent have joined
them. -/
theorem step_posts (s : MainLoop ε) (a : LoopAction) :
    s.base.world.Sends (s.step a).base.world ∧
      s.flushed a ++ (s.step a).outbox = s.outbox ++ (s.sent a).map PollMessage.capsul := by
  have hstep := s.step_cases a
  have hposts (h : s.Posts (s.step a)) (hnone : s.flushed a = []) :
      s.base.world.Sends (s.step a).base.world ∧
        s.flushed a ++ (s.step a).outbox = s.outbox ++ (s.sent a).map PollMessage.capsul := by
    rw [hnone]
    exact ⟨h.sends, h.outbox⟩
  unfold sent at hposts ⊢
  generalize s.step a = s' at hstep hposts ⊢
  cases hstep with
  | stopped a hrun => exact hposts (.of_same rfl rfl) (by simp [flushed, hrun])
  | write i c rest hrun houtbox =>
      refine ⟨.refl _, ?_⟩
      show s.flushed (.thread i) ++ rest = s.outbox ++ (s.base.newMessages s.base).map _
      rw [new_messages_self]
      simp [flushed, hrun, houtbox]
  | poll i hrun houtbox hplace =>
      exact hposts (s.posts_at_poll i) (by simp [flushed, houtbox])
  | uevent i tm thermal wakeup hrun houtbox hplace =>
      exact hposts (s.posts_at_uevent i tm thermal wakeup) (by simp [flushed, houtbox])
  | wakeup i tm wakeup hrun houtbox hplace =>
      exact hposts (s.posts_at_wakeup i tm wakeup) (by simp [flushed, houtbox])
  | update i tm hrun houtbox hplace =>
      exact hposts (s.posts_at_update i tm) (by simp [flushed, houtbox])
  | ended i hrun houtbox hplace => exact hposts (.of_same rfl rfl) (by simp [flushed, houtbox])
  | send c room hrun => exact hposts (.of_same rfl rfl) (by simp [flushed])
  | user op hrun =>
      exact hposts (posts_set_base (user_step_silent s.base op).sends) (by simp [flushed])

end Posts

/-! ## A run -/

/-- An active zone with one sensor, a passive trip and its polling trip. -/
def warmZone : Zone :=
  { Zone.init 0 "cpu" .independent with
    zoneActive := true
    sensors := [⟨0, .raw, "x86_pkg_temp", true, false⟩]
    tripPoints := [.init 0 .passive 50000 0 0 0 .parallel,
      .init 1 .polling (Zone.pollTemp 50000) 0 0 0 .parallel] }

/-- An engine with this zone and no devices. -/
def warmEngine : Engine GenSysfs where
  zones := [warmZone]
  world :=
    { cdevs := fun k => Cdev.init k ⟨"", []⟩
      cdevCount := 0
      sensors := [⟨0, .raw, "x86_pkg_temp", true, false⟩]
      pollIntervalSec := 0
      ignoreCritical := false
      clock := fun n => n
      ticks := 0
      events := [] }
  preference := .energyConserve
  status := true
  currentZoneIndex := 1

/-- The engine without a polling interval, with control of two zones of the kernel. -/
def warmLoop : MainLoop (Engine GenSysfs) :=
  start warmEngine (ThermalControl.takeoverThermalControl
    ⟨.exclusive, [⟨0, some "step_wise", some "acpitz", none⟩,
      ⟨1, some "fair_share", some "pch", none⟩], []⟩ fun _ => true) 0 0 true 4

/-- A step of the thread at some time, in which the sensor reads 48 degrees. -/
def inputAt (now : Int) : ThreadInput where
  failed := false
  ueventReady := true
  thermalEvent := true
  now := now
  readings := ⟨fun _ _ => 48000, fun n => n⟩
  junk := []
  newPref := .disabled
  policyReads := fun _ => true
  zones := []
  currentZoneIndex := 0
  result := -1
  room := MessageCapsul.size

/-- The message of another thread and the steps of a turn, with the requests of the zone. -/
def warmTurn (name : MessageName) (now : Int) : List LoopAction :=
  .send (.sendMessage name 0 []) MessageCapsul.size :: List.replicate 6 (.thread (inputAt now))

/-- The steps of a turn find room. -/
theorem warm_turn_plain {name : MessageName} (hname : name = .prefChanged ∨ name = .terminate)
    (now : Int) : ∀ a ∈ warmTurn name now, a.Plain := by
  intro a ha
  rcases List.mem_cons.mp ha with rfl | ha
  · refine ⟨MessageCapsul.send_message_fits (by decide), ?_, .inr (Nat.le_refl _)⟩
    rcases hname with rfl | rfl
    · rfl
    · rfl
  · rw [(List.mem_replicate.mp ha).2]
    exact Nat.le_refl MessageCapsul.size

/-! ## Order -/

section Order

variable {ε δ : Type} [CdevClass δ] [StdSort] [EngineClass ε δ] {s : MainLoop ε}

/-- The pipe holds whole messages, and those that wait are messages too. -/
structure Framed (s : MainLoop ε) (unread : List MessageCapsul) : Prop where
  pipe : s.pipe = MessageCapsul.format.stream unread
  unread : ∀ c ∈ unread, c.Fits
  outbox : ∀ c ∈ s.outbox, c.Fits

/-- The messages that a step puts into the pipe. -/
def accepted (s : MainLoop ε) (a : LoopAction) : List MessageCapsul :=
  MessageCapsul.format.accepted (s.pipeOps a)

omit [CdevClass δ] [StdSort] in
/-- The writes of a step are whole or refused. -/
theorem pipe_ops_whole {a : LoopAction} (h : a.Whole) :
    ∀ op ∈ s.pipeOps a, MessageCapsul.format.Whole op := by
  unfold pipeOps
  split
  · cases a with
    | thread i =>
        dsimp only
        split
        · intro op hop
          rw [List.mem_singleton.mp hop]
          exact h
        · intro op hop
          rw [List.mem_singleton.mp hop]
          trivial
        · simp
    | send c room =>
        intro op hop
        rw [List.mem_singleton.mp hop]
        exact h.2
    | user op => simp
  · simp

omit [CdevClass δ] [StdSort] in
/-- What a step puts into the pipe is a message that waits or one of another thread. -/
theorem accepted_fits {a : LoopAction} (h : a.Whole) (houtbox : ∀ c ∈ s.outbox, c.Fits) :
    ∀ c ∈ s.accepted a, c.Fits := by
  intro c hc
  obtain ⟨room, hwrite⟩ := RecordFormat.write_of_mem_accepted hc
  unfold pipeOps at hwrite
  split at hwrite
  · cases a with
    | thread i =>
        dsimp only at hwrite
        split at hwrite
        · rename_i first rest hcons
          obtain ⟨rfl, -⟩ := StreamOp.write.inj (List.mem_singleton.mp hwrite)
          exact houtbox c (by rw [hcons]; exact List.mem_cons_self)
        · cases List.mem_singleton.mp hwrite
        · cases hwrite
    | send c' room' =>
        obtain ⟨rfl, -⟩ := StreamOp.write.inj (List.mem_singleton.mp hwrite)
        exact h.1
    | user op => cases hwrite
  · cases hwrite

/-- A step handles the oldest message, if it handles any. -/
theorem framed_step {unread : List MessageCapsul} (h : s.Framed unread) {a : LoopAction}
    (ha : a.Whole) :
    ∃ unread', (s.step a).Framed unread' ∧
      s.handled a ++ unread' = unread ++ s.accepted a := by
  obtain ⟨done, unread', hdone, hunread, horder⟩ :=
    MessageCapsul.format.stream_in_order unread (pipe_ops_whole (s := s) ha)
  have hfits : ∀ c ∈ done ++ unread', c.Fits := by
    intro c hc
    rw [horder] at hc
    rcases List.mem_append.mp hc with hc | hc
    · exact h.unread c hc
    · exact accepted_fits ha h.outbox c hc
  refine ⟨unread', ⟨?_, fun c hc => hfits c (List.mem_append_right _ hc), ?_⟩, ?_⟩
  · rw [step_pipe, h.pipe, hunread]
  · intro c hc
    have hposts := (s.step_posts a).2
    have hmem : c ∈ s.outbox ++ (s.sent a).map PollMessage.capsul := by
      rw [← hposts]
      exact List.mem_append_right _ hc
    rcases List.mem_append.mp hmem with hc | hc
    · exact h.outbox c hc
    · obtain ⟨m, -, rfl⟩ := List.mem_map.mp hc
      exact m.capsul_fits
  · have hhandled : s.handled a = done := by
      unfold handled
      rw [h.pipe, hdone, List.map_map]
      refine (List.map_congr_left fun c hc => ?_).trans (List.map_id done)
      exact MessageCapsul.of_bytes_append (hfits c (List.mem_append_left _ hc)) a.junk
    rw [hhandled]
    exact horder

/-- What is handled in a run and what is in the pipe afterwards are, in this order, what was in the
pipe and what has been written. -/
theorem framed_run {unread : List MessageCapsul} (h : s.Framed unread) {actions : List LoopAction}
    (hwhole : ∀ a ∈ actions, a.Whole) :
    ∃ unread', (run step s actions).Framed unread' ∧
      outputs step handled s actions ++ unread' = unread ++ outputs step accepted s actions := by
  induction actions generalizing s unread with
  | nil => exact ⟨unread, h, by simp⟩
  | cons a rest ih =>
      obtain ⟨next, hnext, horder⟩ := framed_step h (hwhole a List.mem_cons_self)
      obtain ⟨last, hlast, hrest⟩ := ih hnext fun b hb => hwhole b (List.mem_cons_of_mem _ hb)
      refine ⟨last, hlast, ?_⟩
      rw [outputs_cons, outputs_cons, List.append_assoc, hrest, ← List.append_assoc, horder,
        List.append_assoc]

/-- A run from the empty pipe leaves the messages in it that are not handled yet. -/
theorem run_unread (hpipe : s.pipe = []) (houtbox : s.outbox = [])
    (hwhole : ∀ a ∈ actions, a.Whole) :
    ∃ unread, (run step s actions).pipe = MessageCapsul.format.stream unread ∧
      outputs step handled s actions ++ unread = outputs step accepted s actions := by
  have hframed : s.Framed [] := ⟨hpipe, by simp, by simp [houtbox]⟩
  obtain ⟨unread, hunread, horder⟩ := framed_run hframed hwhole
  exact ⟨unread, hunread.pipe, horder⟩

/-- Messages are handled once and in the order of the writes, whatever the threads do in between,
and those that are not handled yet are in the pipe. -/
theorem messages_in_order (s : MainLoop ε) (actions : List LoopAction) (hpipe : s.pipe = [])
    (houtbox : s.outbox = []) (hwhole : ∀ a ∈ actions, a.Whole) :
    ∃ unread, (run step s actions).pipe = MessageCapsul.format.stream unread ∧
      outputs step handled s actions ++ unread = outputs step accepted s actions :=
  run_unread hpipe houtbox hwhole

omit [StdSort] in
/-- A turn in which a zone asks for polling and another thread tells the preference. -/
theorem warm_turn_in_order :
    letI := StdSort.insertion
    ∃ unread, (run step warmLoop (warmTurn .prefChanged 10)).pipe =
        MessageCapsul.format.stream unread ∧
      outputs step handled warmLoop (warmTurn .prefChanged 10) ++ unread =
        outputs step accepted warmLoop (warmTurn .prefChanged 10) := by
  let _ := StdSort.insertion
  exact messages_in_order warmLoop (warmTurn .prefChanged 10) rfl rfl
    fun a ha => (warm_turn_plain (.inl rfl) 10 a ha).whole

end Order

/-! ## Requests -/

section Requests

variable {ε δ : Type} [CdevClass δ] [StdSort] [EngineClass ε δ] {s : MainLoop ε}

/-- The part for messages changes the polling state by the message it handles. -/
theorem at_wakeup_poll_state (s : MainLoop ε) (i : ThreadInput) (tm : Int) :
    (s.atWakeup i tm true).pollState = run PollState.procMessage s.pollState
      (((MessageCapsul.format.taken s.pipe .read).map fun piece =>
        MessageCapsul.ofBytes (piece ++ i.junk)).filterMap MessageCapsul.pollMessage?) := by
  unfold atWakeup RecordFormat.taken
  dsimp only
  rw [if_pos rfl]
  split
  · rfl
  · refine (congrArg pollState (proc_message_frame _ _ i)).trans ?_
    dsimp only [List.map_cons, List.map_nil]
    cases hmessage : (MessageCapsul.ofBytes
        (s.pipe.take MessageCapsul.size ++ i.junk)).pollMessage? with
    | none => simp [hmessage, MessageCapsul.format]
    | some m => simp [hmessage, MessageCapsul.format]

theorem at_poll_poll_state (s : MainLoop ε) (i : ThreadInput) :
    (s.atPoll i).pollState = s.pollState := by
  unfold atPoll
  dsimp only
  split_ifs <;> rfl

theorem at_uevent_poll_state (s : MainLoop ε) (i : ThreadInput) (tm : Int)
    (thermal wakeup : Bool) : (s.atUevent i tm thermal wakeup).pollState = s.pollState := by
  unfold atUevent
  split_ifs <;> rfl

omit [CdevClass δ] [StdSort] in
theorem at_update_poll_state (s : MainLoop ε) (i : ThreadInput) (tm : Int) :
    (s.atUpdate i tm).pollState = s.pollState := by
  unfold atUpdate
  split_ifs <;> rfl

/-- The polling state is driven by the messages that are handled. -/
theorem step_poll_state (s : MainLoop ε) (a : LoopAction) :
    (s.step a).pollState = run PollState.procMessage s.pollState
      ((s.handled a).filterMap MessageCapsul.pollMessage?) := by
  have hstep := s.step_cases a
  generalize s.step a = s' at hstep ⊢
  unfold handled pipeOps
  cases hstep with
  | stopped a hrun => simp [hrun]
  | write i c rest hrun houtbox => simp [hrun, houtbox, RecordFormat.taken]
  | poll i hrun houtbox hplace => simp [hrun, houtbox, hplace, at_poll_poll_state]
  | uevent i tm thermal wakeup hrun houtbox hplace =>
      simp [hrun, houtbox, hplace, at_uevent_poll_state]
  | wakeup i tm wakeup hrun houtbox hplace =>
      cases wakeup with
      | true => simp [hrun, houtbox, hplace, at_wakeup_poll_state, LoopAction.junk]
      | false => simp [hrun, houtbox, hplace, atWakeup]
  | update i tm hrun houtbox hplace => simp [hrun, houtbox, hplace, at_update_poll_state]
  | ended i hrun houtbox hplace => simp [hrun, houtbox, hplace]
  | send c room hrun => simp [hrun, RecordFormat.taken]
  | user op hrun => simp [hrun, setBase, setEngine]

omit [CdevClass δ] [StdSort] in
/-- Among the messages that are put into the pipe, those about polling are the ones of the zones. -/
theorem accepted_poll_messages {a : LoopAction} (h : a.Plain) :
    (s.accepted a).filterMap MessageCapsul.pollMessage? =
      (s.flushed a).filterMap MessageCapsul.pollMessage? := by
  unfold accepted pipeOps flushed
  split
  · cases a with
    | thread i =>
        have hroom : MessageCapsul.size ≤ i.room := h
        cases houtbox : s.outbox with
        | cons c rest => simp [RecordFormat.accepted, MessageCapsul.format, hroom]
        | nil =>
            dsimp only
            split
            · rename_i hcons
              cases hcons
            · rfl
            · rfl
    | send c room =>
        have hnone : c.pollMessage? = none := h.2.1
        simp only [RecordFormat.accepted, List.filterMap_cons, List.filterMap_nil]
        split
        · rfl
        · rename_i heq
          split at heq
          · obtain rfl := Option.some.inj heq
            simp [hnone]
          · cases heq
    | user op => rfl
  · rfl

end Requests

end MainLoop

end Thermald
