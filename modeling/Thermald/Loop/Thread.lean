import Thermald.Kernel.Takeover
import Thermald.Loop.Messages
import Thermald.Polling.Requests

/-!
# The thread of the engine

`thd_engine_thread` waits for a uevent or a message, notifies the zones when it is time to, handles
one message and lets the engine update its state. Other threads write messages into the pipe and
change zones while it waits or between its steps, so a turn of the loop is cut into steps: the
wait, the uevent, the message and the update. Messages that the zones send during a step wait in
`outbox` until the thread has written them, one after the other, with whatever others write between
them.

A write may find room for a part of the message only, because a message is larger than what a pipe
takes at once. What the outside decides is an argument of the step.
-/

namespace Thermald

/-- An engine of some kind: the members it has from `cthd_engine`, and what it overrides. -/
class EngineClass (ε : Type) (δ : outParam Type) where
  base : ε → Engine δ
  withBase : ε → Engine δ → ε
  running : ε → Bool := fun _ => true
  updateEngineState : ε → Int → ε := fun x _ => x
  base_with : ∀ x e, base (withBase x e) = e
  running_with : ∀ x e, running (withBase x e) = running x
  status_update : ∀ x result, (base (updateEngineState x result)).status = (base x).status
  messages_update : ∀ x result,
    (base (updateEngineState x result)).world.messages = (base x).world.messages

/-- The engine of a thread without a class above it does not update its state. -/
instance (δ : Type) : EngineClass (Engine δ) δ where
  base e := e
  withBase _ e := e
  base_with _ _ := rfl
  running_with _ _ := rfl
  status_update _ _ := rfl
  messages_update _ _ := rfl

/-- `thz_notify_debounce_interval`, in seconds. -/
abbrev thzNotifyDebounceInterval : Int := 3

/-- Where the thread is in its loop: before `poll`, or behind it with the time that it read and
what the call has reported. -/
inductive Place where
  | poll
  | uevent (tm : Int) (thermal wakeup : Bool)
  | wakeup (tm : Int) (wakeup : Bool)
  | update (tm : Int)
  | ended
  deriving DecidableEq, Repr

/-- The engine with the members that its thread uses, the pipe, and the place of the thread. -/
structure MainLoop (ε : Type) where
  engine : ε
  pollState : PollState
  control : ThermalControl
  pipe : Bytes
  outbox : List MessageCapsul
  ueventFd : Bool
  thzLastUeventTime : Int
  thzLastTempIndTime : Int
  thzLastUpdateEventTime : Int
  terminate : Bool
  pollTimeoutSec : Int
  thdPollInterval : Int
  place : Place

/-- What the outside gives to one step of the thread: whether `poll` fails, whether a uevent has
arrived and is a thermal one, the time, what the zones read, what stands behind the end of a message
that is cut off, the preference in its file, the policies that can be read, the zones that are
found, the result of the conditions and the room in the pipe. -/
structure ThreadInput where
  failed : Bool
  ueventReady : Bool
  thermalEvent : Bool
  now : Int
  readings : Poll
  junk : Bytes
  newPref : Pref
  policyReads : PolicyReads
  zones : List Zone
  currentZoneIndex : Int
  result : Int
  room : Nat

/-- The requests of the user that change zones. -/
inductive UserOp where
  | addZone (c : DynamicZone)
  | setZoneStatus (name : String) (status : Bool)
  | deleteZone (name : String)

/-- What happens to the engine and its pipe: a step of the thread, a message of another thread, or
a request of the user. -/
inductive LoopAction where
  | thread (i : ThreadInput)
  | send (c : MessageCapsul) (room : Nat)
  | user (op : UserOp)

namespace Engine

variable {δ : Type} [CdevClass δ] [StdSort]

/-- `thermal_zone_change`. -/
def thermalZoneChange (e : Engine δ) (p : Poll) : Engine δ :=
  let (zones, world) :=
    forZones
      (fun z w => if z.zoneActive then z.readZoneTemp (p.read z.index) e.preference w else (z, w))
      e.zones (e.world.withClock p.clock)
  { e with zones, world }

/-- A request of the user. -/
def userStep (e : Engine δ) : UserOp → Engine δ
  | .addZone c => (e.userAddZone c).2
  | .setZoneStatus name status => (e.userSetZoneStatus name status).2
  | .deleteZone name => (e.userDeleteZone name).2

/-- The messages that an operation has sent. -/
def newMessages (e e' : Engine δ) : List PollMessage :=
  e'.world.messages.drop e.world.messages.length

/-- The engine with the clock of the next operation. -/
def withClock (e : Engine δ) (clock : Nat → Int) : Engine δ :=
  { e with world := e.world.withClock clock }

end Engine

namespace MainLoop

variable {ε δ : Type} [CdevClass δ] [StdSort] [EngineClass ε δ]

/-- The members from `cthd_engine`. -/
def base (s : MainLoop ε) : Engine δ := EngineClass.base s.engine

/-- Another engine, and the messages that wait for being written. -/
def setEngine (s : MainLoop ε) (x : ε) : MainLoop ε :=
  { s with
    engine := x
    outbox := s.outbox ++ (s.base.newMessages (EngineClass.base x)).map PollMessage.capsul }

/-- Other members from `cthd_engine`. -/
def setBase (s : MainLoop ε) (e : Engine δ) : MainLoop ε :=
  s.setEngine (EngineClass.withBase s.engine e)

/-- `zone_temperature_notification` on all zones. -/
def notifyZones (s : MainLoop ε) (p : Poll) : MainLoop ε := s.setBase (s.base.poll p)

/-- `process_pref_change`. -/
def processPrefChange (s : MainLoop ε) (i : ThreadInput) : MainLoop ε :=
  let s := s.setBase (s.base.processPrefChange i.newPref i.readings)
  if i.newPref ≠ .disabled ∧ s.control.controlMode = .exclusive then
    { s with control := s.control.takeoverThermalControl i.policyReads }
  else s

/-- `proc_message`. -/
def procMessage (s : MainLoop ε) (c : MessageCapsul) (i : ThreadInput) : MainLoop ε :=
  match MessageName.ofCode c.msgId with
  | some .wakeup => s
  | some .terminate => { s with terminate := true }
  | some .prefChanged => s.processPrefChange i
  | some .thermalZoneNotify =>
    if s.base.status then s.setBase (s.base.thermalZoneChange i.readings) else s
  | some .reloadZones => s.setBase (s.base.thdEngineReloadZones i.zones i.currentZoneIndex)
  | some .pollEnable => { s with pollState := s.pollState.procMessage (.pollEnable c.sensorId) }
  | some .pollDisable => { s with pollState := s.pollState.procMessage (.pollDisable c.sensorId) }
  | some .fastPollEnable =>
    { s with pollState := s.pollState.procMessage (.fastPollEnable c.sensorId) }
  | some .fastPollDisable =>
    { s with pollState := s.pollState.procMessage (.fastPollDisable c.sensorId) }
  | none => s

/-! ## A turn of the loop -/

/-- A uevent has arrived. -/
def ueventReady (s : MainLoop ε) (i : ThreadInput) : Bool := s.ueventFd && i.ueventReady

/-- A message, or a part of one, has arrived. -/
def wakeupReady (s : MainLoop ε) : Bool := s.pipe ≠ []

/-- `poll` returns that something has arrived. -/
def ready (s : MainLoop ε) (i : ThreadInput) : Bool := s.ueventReady i || s.wakeupReady

/-- It is time to notify the zones: `poll` has returned because of its timeout, or the last time is
long ago. -/
def tempIndDue (s : MainLoop ε) (i : ThreadInput) : Bool :=
  !s.ready i || s.pollTimeoutSec ≤ i.now - s.thzLastTempIndTime

/-- The beginning of a turn. A daemon that is disabled begins the next turn if it would be time to
notify the zones. Without a timeout `poll` waits until something arrives. -/
def atPoll (s : MainLoop ε) (i : ThreadInput) : MainLoop ε :=
  let next : Place := .uevent i.now (s.ueventReady i) s.wakeupReady
  if s.terminate then { s with place := .ended }
  else if i.failed then s
  else if !s.ready i && s.pollState.pollTimeoutMsec < 0 then s
  else if s.tempIndDue i then
    if s.base.status then
      { s.notifyZones i.readings with thzLastTempIndTime := i.now, place := next }
    else s
  else { s with place := next }

/-- The part for uevents, with its own time. -/
def atUevent (s : MainLoop ε) (i : ThreadInput) (tm : Int) (thermal wakeup : Bool) : MainLoop ε :=
  if thermal && i.thermalEvent then
    let s :=
      if thzNotifyDebounceInterval ≤ i.now - s.thzLastUeventTime then s.notifyZones i.readings
      else s
    { s with thzLastUeventTime := i.now, place := .wakeup tm wakeup }
  else { s with place := .wakeup tm wakeup }

/-- The part for messages. Where the read fails the turn is over. -/
def atWakeup (s : MainLoop ε) (i : ThreadInput) (tm : Int) (wakeup : Bool) : MainLoop ε :=
  if wakeup then
    if s.pipe = [] then { s with place := .poll }
    else
      let c := MessageCapsul.ofBytes (s.pipe.take MessageCapsul.size ++ i.junk)
      { { s with pipe := s.pipe.drop MessageCapsul.size }.procMessage c i with
        place := .update tm }
  else { s with place := .update tm }

/-- The end of a turn. -/
def atUpdate (s : MainLoop ε) (i : ThreadInput) (tm : Int) : MainLoop ε :=
  if s.thdPollInterval ≤ tm - s.thzLastUpdateEventTime then
    let x := EngineClass.withBase s.engine (s.base.withClock i.readings.clock)
    { s.setEngine (EngineClass.updateEngineState x i.result) with
      thzLastUpdateEventTime := tm, place := .poll }
  else { s with place := .poll }

/-- A step of the thread: the write of a message that waits, or the next part of the turn. -/
def thread (s : MainLoop ε) (i : ThreadInput) : MainLoop ε :=
  match s.outbox with
  | c :: rest => { s with pipe := s.pipe ++ c.toBytes.take i.room, outbox := rest }
  | [] =>
    match s.place with
    | .poll => s.atPoll i
    | .uevent tm thermal wakeup => s.atUevent i tm thermal wakeup
    | .wakeup tm wakeup => s.atWakeup i tm wakeup
    | .update tm => s.atUpdate i tm
    | .ended => s

/-- A step of the system, while the process runs. -/
def step (s : MainLoop ε) (a : LoopAction) : MainLoop ε :=
  if EngineClass.running s.engine then
    match a with
    | .thread i => s.thread i
    | .send c room => { s with pipe := s.pipe ++ c.toBytes.take room }
    | .user op => s.setBase (s.base.userStep op)
  else s

/-- What a step does, by the place of the thread. -/
inductive StepCase (s : MainLoop ε) : LoopAction → MainLoop ε → Prop
  | stopped (a : LoopAction) (hrun : EngineClass.running s.engine = false) : StepCase s a s
  | write (i : ThreadInput) (c : MessageCapsul) (rest : List MessageCapsul)
      (hrun : EngineClass.running s.engine = true) (houtbox : s.outbox = c :: rest) :
      StepCase s (.thread i) { s with pipe := s.pipe ++ c.toBytes.take i.room, outbox := rest }
  | poll (i : ThreadInput) (hrun : EngineClass.running s.engine = true) (houtbox : s.outbox = [])
      (hplace : s.place = .poll) : StepCase s (.thread i) (s.atPoll i)
  | uevent (i : ThreadInput) (tm : Int) (thermal wakeup : Bool)
      (hrun : EngineClass.running s.engine = true) (houtbox : s.outbox = [])
      (hplace : s.place = .uevent tm thermal wakeup) :
      StepCase s (.thread i) (s.atUevent i tm thermal wakeup)
  | wakeup (i : ThreadInput) (tm : Int) (wakeup : Bool)
      (hrun : EngineClass.running s.engine = true) (houtbox : s.outbox = [])
      (hplace : s.place = .wakeup tm wakeup) : StepCase s (.thread i) (s.atWakeup i tm wakeup)
  | update (i : ThreadInput) (tm : Int) (hrun : EngineClass.running s.engine = true)
      (houtbox : s.outbox = []) (hplace : s.place = .update tm) :
      StepCase s (.thread i) (s.atUpdate i tm)
  | ended (i : ThreadInput) (hrun : EngineClass.running s.engine = true) (houtbox : s.outbox = [])
      (hplace : s.place = .ended) : StepCase s (.thread i) s
  | send (c : MessageCapsul) (room : Nat) (hrun : EngineClass.running s.engine = true) :
      StepCase s (.send c room) { s with pipe := s.pipe ++ c.toBytes.take room }
  | user (op : UserOp) (hrun : EngineClass.running s.engine = true) :
      StepCase s (.user op) (s.setBase (s.base.userStep op))

/-- Every step is one of these. -/
theorem step_cases (s : MainLoop ε) (a : LoopAction) : StepCase s a (s.step a) := by
  unfold step
  cases hrun : EngineClass.running s.engine with
  | false => exact .stopped a hrun
  | true =>
      cases a with
      | thread i =>
          dsimp only [if_true]
          unfold thread
          cases houtbox : s.outbox with
          | cons c rest => exact .write i c rest hrun houtbox
          | nil =>
              cases hplace : s.place with
              | poll => exact .poll i hrun houtbox hplace
              | uevent tm thermal wakeup => exact .uevent i tm thermal wakeup hrun houtbox hplace
              | wakeup tm wakeup => exact .wakeup i tm wakeup hrun houtbox hplace
              | update tm => exact .update i tm hrun houtbox hplace
              | ended => exact .ended i hrun houtbox hplace
      | send c room => exact .send c room hrun
      | user op => exact .user op hrun

/-! ## The start -/

/-- The polling interval of `thd_engine_start` from the command line and the configuration file, 0
where there is none, and the zones. The timeout of the file takes effect, and without an interval
polling is forced if a sensor of an active zone cannot notify. -/
def startPolling (pollIntervalSec xmlPollSecs : Int) (zones : List Zone) : PollState :=
  let interval := if xmlPollSecs ≠ 0 then xmlPollSecs else pollIntervalSec
  { pollIntervalSec := interval
    pollTimeoutMsec :=
      if interval ≠ 0 then interval * 1000
      else if zones.any fun z => z.zoneActive && !z.sensors.all (·.asyncCapable) then
        defPollInterval
      else -1
    pollSensorMask := 0
    fastPollSensorMask := 0
    savedPollInterval := 0 }

/-- The members as `thd_engine_start` leaves them to the thread. Uevents are listened to without a
polling interval, unless the features switch them off or the socket cannot be opened. -/
def start (engine : ε) (control : ThermalControl) (pollIntervalSec xmlPollSecs : Int)
    (kobjectUevent : Bool) (thdPollInterval : Int) : MainLoop ε :=
  let pollState := startPolling pollIntervalSec xmlPollSecs (EngineClass.base engine).zones
  { engine := engine
    pollState := pollState
    control := control
    pipe := []
    outbox := []
    ueventFd := pollState.pollIntervalSec = 0 && kobjectUevent
    thzLastUeventTime := 0
    thzLastTempIndTime := 0
    thzLastUpdateEventTime := 0
    terminate := false
    pollTimeoutSec := pollState.pollTimeoutMsec.tdiv 1000
    thdPollInterval := thdPollInterval
    place := .poll }

end MainLoop

end Thermald
