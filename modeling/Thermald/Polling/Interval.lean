import Mathlib.Tactic.Common
import Thermald.Lib.Run

/-!
# The poll interval

Polling trips send messages to the engine that switch polling and fast polling on and off for a
sensor. The engine keeps a bit for each sensor and kind, and derives its poll timeout from them.

The four messages write the timeout without regard to each other: an enable of polling overwrites
the timeout of fast polling, the last disable of polling stops polling although fast polling is on,
and the interval saved at the first fast enable is restored long after it is out of date.
`timeout_iff` says exactly which sequences of messages are free of this.
-/

namespace Thermald

/-- The messages about polling, each with the index of a sensor. -/
inductive PollMessage where
  | pollEnable (sensorId : Int)
  | pollDisable (sensorId : Int)
  | fastPollEnable (sensorId : Int)
  | fastPollDisable (sensorId : Int)
  deriving DecidableEq, Repr

/-- The sensor that a message is about. -/
def PollMessage.sensorId : PollMessage → Int
  | .pollEnable s => s
  | .pollDisable s => s
  | .fastPollEnable s => s
  | .fastPollDisable s => s

/-- `def_poll_interval`. -/
abbrev defPollInterval : Int := 4000

/-- The members of `cthd_engine` that hold the poll interval. -/
structure PollState where
  pollIntervalSec : Int
  pollTimeoutMsec : Int
  pollSensorMask : BitVec 32
  fastPollSensorMask : BitVec 32
  savedPollInterval : Int
  deriving DecidableEq, Repr

/-- `1 << sensor_id`. For 32 and more this is undefined; the processor takes the remainder. -/
def sensorBit (sensorId : Int) : BitVec 32 := 1#32 <<< (sensorId % 32).toNat

namespace PollState

/-- `poll_enable_disable`. -/
def pollEnableDisable (e : PollState) (status : Bool) (sensorId : Int) : PollState :=
  if status then
    { e with
      pollSensorMask := e.pollSensorMask ||| sensorBit sensorId
      pollTimeoutMsec := defPollInterval }
  else
    let mask := e.pollSensorMask &&& ~~~sensorBit sensorId
    { e with
      pollSensorMask := mask
      pollTimeoutMsec := if mask = 0 then -1 else e.pollTimeoutMsec }

/-- `fast_poll_enable_disable`. -/
def fastPollEnableDisable (e : PollState) (status : Bool) (sensorId : Int) : PollState :=
  if status then
    { e with
      fastPollSensorMask := e.fastPollSensorMask ||| sensorBit sensorId
      savedPollInterval :=
        if e.savedPollInterval = 0 then e.pollTimeoutMsec else e.savedPollInterval
      pollTimeoutMsec := 1000 }
  else
    let mask := e.fastPollSensorMask &&& ~~~sensorBit sensorId
    { e with
      fastPollSensorMask := mask
      pollTimeoutMsec :=
        if mask = 0 ∧ e.savedPollInterval ≠ 0 then e.savedPollInterval else e.pollTimeoutMsec }

/-- `proc_message` on a message about polling. With a fixed interval the messages about normal
polling are ignored. -/
def procMessage (e : PollState) : PollMessage → PollState
  | .pollEnable s => if e.pollIntervalSec = 0 then e.pollEnableDisable true s else e
  | .pollDisable s => if e.pollIntervalSec = 0 then e.pollEnableDisable false s else e
  | .fastPollEnable s => e.fastPollEnableDisable true s
  | .fastPollDisable s => e.fastPollEnableDisable false s

/-- The engine before the first message, with some timeout. -/
def start (timeout : Int) : PollState where
  pollIntervalSec := 0
  pollTimeoutMsec := timeout
  pollSensorMask := 0
  fastPollSensorMask := 0
  savedPollInterval := 0

end PollState

/-! ## Sensors that are on -/

section On

/-- Whether a sensor is on after a message, for the kind of polling that the two messages switch. -/
def onAfter (enable disable : Int → PollMessage) (s : Int) (on : Bool) (m : PollMessage) : Bool :=
  if m = enable s then true else if m = disable s then false else on

/-- The sensor has polling on after the messages. -/
def pollOn (msgs : List PollMessage) (s : Int) : Bool :=
  msgs.foldl (onAfter .pollEnable .pollDisable s) false

/-- The sensor has fast polling on after the messages. -/
def fastPollOn (msgs : List PollMessage) (s : Int) : Bool :=
  msgs.foldl (onAfter .fastPollEnable .fastPollDisable s) false

/-- A message that changes what it is about: an enable of what is off or a disable of what is on. -/
def Changes (past : List PollMessage) : PollMessage → Prop
  | .pollEnable s => pollOn past s = false
  | .pollDisable s => pollOn past s = true
  | .fastPollEnable s => fastPollOn past s = false
  | .fastPollDisable s => fastPollOn past s = true

instance (past : List PollMessage) (m : PollMessage) : Decidable (Changes past m) :=
  match m with
  | .pollEnable s => inferInstanceAs (Decidable (pollOn past s = false))
  | .pollDisable s => inferInstanceAs (Decidable (pollOn past s = true))
  | .fastPollEnable s => inferInstanceAs (Decidable (fastPollOn past s = false))
  | .fastPollDisable s => inferInstanceAs (Decidable (fastPollOn past s = true))

/-- Enables and disables of each sensor and kind alternate, beginning with an enable. -/
def Alternating (msgs : List PollMessage) : Prop :=
  ∀ past m, past ++ [m] <+: msgs → Changes past m

theorem alternating_iff {msgs : List PollMessage} :
    (∀ pre ∈ msgs.inits, ∀ m ∈ pre.getLast?, Changes pre.dropLast m) ↔ Alternating msgs := by
  constructor
  · intro h past m hpre
    have hlast := h _ ((List.mem_inits ..).2 hpre) m (by simp)
    rw [List.dropLast_concat] at hlast
    exact hlast
  · intro h pre hpre m hm
    refine h _ m ?_
    rw [List.dropLast_append_getLast? m hm]
    exact (List.mem_inits ..).1 hpre

instance (msgs : List PollMessage) : Decidable (Alternating msgs) :=
  decidable_of_iff _ alternating_iff

/-- The timeout that is wanted: fast if a sensor has fast polling on, else the default if one has
polling on, else the initial one. -/
def TimeoutRight (initial : Int) (msgs : List PollMessage) (e : PollState) : Prop :=
  ((∃ s, fastPollOn msgs s = true) → e.pollTimeoutMsec = 1000) ∧
    ((∀ s, fastPollOn msgs s = false) → (∃ s, pollOn msgs s = true) →
      e.pollTimeoutMsec = defPollInterval) ∧
    ((∀ s, fastPollOn msgs s = false) → (∀ s, pollOn msgs s = false) → e.pollTimeoutMsec = initial)

end On

/-! ## Masks -/

/-- The mask has exactly the bits of the sensors that are on. -/
def Tracks (mask : BitVec 32) (on : Int → Bool) : Prop :=
  ∀ s, on s = true ↔ 0 ≤ s ∧ s < 32 ∧ mask.getLsbD s.toNat = true

/-- The bits of a sensor bit. -/
theorem get_sensor_bit {s : Int} (h0 : 0 ≤ s) (h1 : s < 32) (i : Nat) :
    (sensorBit s).getLsbD i = decide (i = s.toNat) := by
  have hmod : (s % 32).toNat = s.toNat := by omega
  unfold sensorBit
  rw [hmod, BitVec.getLsbD_shiftLeft, BitVec.getLsbD_one]
  by_cases hi : i = s.toNat
  · have hlt : s.toNat < 32 := by omega
    simp [hi, hlt]
  · rw [decide_eq_false hi, Bool.eq_false_iff]
    intro h
    simp only [Bool.and_eq_true, decide_eq_true_eq, Bool.not_eq_true', decide_eq_false_iff_not] at h
    omega

section Tracks

variable {mask : BitVec 32} {on : Int → Bool} {s : Int}

/-- No bit is set if and only if no sensor is on. -/
theorem Tracks.eq_zero_iff (h : Tracks mask on) : mask = 0 ↔ ∀ s, on s = false := by
  constructor
  · intro hzero s
    rw [Bool.eq_false_iff]
    intro hon
    have hbit := ((h s).1 hon).2.2
    rw [hzero] at hbit
    simp at hbit
  · intro hoff
    apply BitVec.eq_of_getLsbD_eq
    intro i hi
    have hlt : (i : Int) < 32 := by omega
    have hbit := h i
    rw [hoff, Int.toNat_natCast] at hbit
    rw [BitVec.ofNat_eq_ofNat, BitVec.getLsbD_zero, Bool.eq_false_iff]
    intro hset
    exact absurd (hbit.2 ⟨Int.natCast_nonneg i, hlt, hset⟩) (by decide)

/-- A sensor is switched on. -/
theorem Tracks.set (h : Tracks mask on) (h0 : 0 ≤ s) (h1 : s < 32) :
    Tracks (mask ||| sensorBit s) fun t => if t = s then true else on t := by
  intro t
  rw [BitVec.getLsbD_or, get_sensor_bit h0 h1]
  by_cases ht : t = s
  · simp [ht, h0, h1]
  · have hne : 0 ≤ t → t.toNat ≠ s.toNat := by omega
    simp only [if_neg ht]
    rw [h t]
    constructor
    · intro hbit
      exact ⟨hbit.1, hbit.2.1, by rw [hbit.2.2, Bool.true_or]⟩
    · intro hbit
      refine ⟨hbit.1, hbit.2.1, ?_⟩
      have hor := hbit.2.2
      rw [decide_eq_false (hne hbit.1), Bool.or_false] at hor
      exact hor

/-- A sensor is switched off. -/
theorem Tracks.clear (h : Tracks mask on) (h0 : 0 ≤ s) (h1 : s < 32) :
    Tracks (mask &&& ~~~sensorBit s) fun t => if t = s then false else on t := by
  intro t
  rw [BitVec.getLsbD_and, BitVec.getLsbD_not, get_sensor_bit h0 h1]
  by_cases ht : t = s
  · simp [ht]
  · simp only [if_neg ht]
    rw [h t]
    constructor
    · intro hbit
      have hne : t.toNat ≠ s.toNat := by omega
      have hlt : t.toNat < 32 := by omega
      refine ⟨hbit.1, hbit.2.1, ?_⟩
      rw [hbit.2.2, decide_eq_false hne, decide_eq_true hlt]
      rfl
    · intro hbit
      exact ⟨hbit.1, hbit.2.1, (Bool.and_eq_true_iff.1 hbit.2.2).1⟩

end Tracks

/-! ## Messages -/

/-- The masks hold the sensors that the messages have switched on. -/
structure PollState.Mirrors (e : PollState) (msgs : List PollMessage) : Prop where
  interval : e.pollIntervalSec = 0
  poll : Tracks e.pollSensorMask (pollOn msgs)
  fast : Tracks e.fastPollSensorMask (fastPollOn msgs)

/-- The sensors with polling on after one more message. -/
theorem poll_on_append (past : List PollMessage) (m : PollMessage) :
    pollOn (past ++ [m]) = match m with
      | .pollEnable t => fun s => if s = t then true else pollOn past s
      | .pollDisable t => fun s => if s = t then false else pollOn past s
      | _ => pollOn past := by
  funext s
  rw [pollOn, List.foldl_append]
  show onAfter _ _ s (pollOn past s) m = _
  cases m with
  | pollEnable t => simp [onAfter, eq_comm]
  | pollDisable t => simp [onAfter, eq_comm]
  | fastPollEnable t => simp [onAfter]
  | fastPollDisable t => simp [onAfter]

/-- The sensors with fast polling on after one more message. -/
theorem fast_poll_on_append (past : List PollMessage) (m : PollMessage) :
    fastPollOn (past ++ [m]) = match m with
      | .fastPollEnable t => fun s => if s = t then true else fastPollOn past s
      | .fastPollDisable t => fun s => if s = t then false else fastPollOn past s
      | _ => fastPollOn past := by
  funext s
  rw [fastPollOn, List.foldl_append]
  show onAfter _ _ s (fastPollOn past s) m = _
  cases m with
  | pollEnable t => simp [onAfter]
  | pollDisable t => simp [onAfter]
  | fastPollEnable t => simp [onAfter, eq_comm]
  | fastPollDisable t => simp [onAfter, eq_comm]

/-- A message keeps the masks right. -/
theorem mirrors_step {e : PollState} {past : List PollMessage} {m : PollMessage}
    (h : e.Mirrors past) (h0 : 0 ≤ m.sensorId) (h1 : m.sensorId < 32) :
    (e.procMessage m).Mirrors (past ++ [m]) := by
  cases m with
  | pollEnable t =>
      rw [PollState.procMessage, if_pos h.interval]
      refine ⟨h.interval, ?_, ?_⟩
      · rw [poll_on_append]
        exact h.poll.set h0 h1
      · rw [fast_poll_on_append]
        exact h.fast
  | pollDisable t =>
      rw [PollState.procMessage, if_pos h.interval]
      refine ⟨h.interval, ?_, ?_⟩
      · rw [poll_on_append]
        exact h.poll.clear h0 h1
      · rw [fast_poll_on_append]
        exact h.fast
  | fastPollEnable t =>
      refine ⟨h.interval, ?_, ?_⟩
      · rw [poll_on_append]
        exact h.poll
      · rw [fast_poll_on_append]
        exact h.fast.set h0 h1
  | fastPollDisable t =>
      refine ⟨h.interval, ?_, ?_⟩
      · rw [poll_on_append]
        exact h.poll
      · rw [fast_poll_on_append]
        exact h.fast.clear h0 h1

/-! ## Timeouts -/

namespace PollState

/-- The timeout that the masks ask for. -/
def wanted (initial : Int) (e : PollState) : Int :=
  if e.fastPollSensorMask = 0 then if e.pollSensorMask = 0 then initial else defPollInterval
  else 1000

/-- The message does not spoil the timeout: no enable of polling while fast polling is on, no last
disable of polling while fast polling is on or if the initial timeout was not -1, and no last
disable of fast polling after which the saved interval is not the one that is wanted. -/
def Allows (initial : Int) (e : PollState) : PollMessage → Prop
  | .pollEnable _ => e.fastPollSensorMask = 0
  | .pollDisable s =>
    e.pollSensorMask &&& ~~~sensorBit s = 0 → e.fastPollSensorMask = 0 ∧ initial = -1
  | .fastPollEnable _ => True
  | .fastPollDisable s =>
    e.fastPollSensorMask &&& ~~~sensorBit s = 0 →
      (if e.savedPollInterval = 0 then 1000 else e.savedPollInterval) =
        if e.pollSensorMask = 0 then initial else defPollInterval

end PollState

/-- The timeout is right if it is the one that the masks ask for. -/
theorem timeout_right_iff {initial : Int} {e : PollState} {msgs : List PollMessage}
    (h : e.Mirrors msgs) : TimeoutRight initial msgs e ↔ e.pollTimeoutMsec = e.wanted initial := by
  have hfast : (∃ s, fastPollOn msgs s = true) ↔ e.fastPollSensorMask ≠ 0 := by
    rw [Ne, h.fast.eq_zero_iff]
    simp
  have hpoll : (∃ s, pollOn msgs s = true) ↔ e.pollSensorMask ≠ 0 := by
    rw [Ne, h.poll.eq_zero_iff]
    simp
  unfold TimeoutRight PollState.wanted
  rw [hfast, hpoll, ← h.fast.eq_zero_iff, ← h.poll.eq_zero_iff]
  by_cases hf : e.fastPollSensorMask = 0
  · rw [if_pos hf]
    by_cases hp : e.pollSensorMask = 0
    · rw [if_pos hp]
      exact ⟨fun h => h.2.2 hf hp,
        fun h => ⟨fun hn => absurd hf hn, fun _ hn => absurd hp hn, fun _ _ => h⟩⟩
    · rw [if_neg hp]
      exact ⟨fun h => h.2.1 hf hp,
        fun h => ⟨fun hn => absurd hf hn, fun _ _ => h, fun _ hz => absurd hz hp⟩⟩
  · rw [if_neg hf]
    exact ⟨fun h => h.1 hf, fun h => ⟨fun _ => h, fun hz => absurd hz hf, fun hz => absurd hz hf⟩⟩

section Step

variable {initial : Int} {e : PollState} {past : List PollMessage}

/-- Where a sensor is on, the mask is not empty. -/
theorem Tracks.ne_zero {mask : BitVec 32} {on : Int → Bool} {s : Int} (h : Tracks mask on)
    (hon : on s = true) : mask ≠ 0 := by
  intro hzero
  rw [h.eq_zero_iff.1 hzero s] at hon
  cases hon

/-- Where the timeout is right, it is right after a message if and only if the message is
allowed. -/
theorem timeout_step {m : PollMessage} (h : e.Mirrors past) (hchanges : Changes past m)
    (h0 : 0 ≤ m.sensorId) (h1 : m.sensorId < 32) (hright : e.pollTimeoutMsec = e.wanted initial) :
    (e.procMessage m).pollTimeoutMsec = (e.procMessage m).wanted initial ↔ e.Allows initial m := by
  unfold PollState.wanted at hright ⊢
  cases m with
  | pollEnable t =>
      have hset : e.pollSensorMask ||| sensorBit t ≠ 0 :=
        (h.poll.set h0 h1).ne_zero (s := t) (if_pos rfl)
      rw [PollState.procMessage, if_pos h.interval]
      show defPollInterval = (if e.fastPollSensorMask = 0 then
        if e.pollSensorMask ||| sensorBit t = 0 then initial else defPollInterval else 1000) ↔
          e.fastPollSensorMask = 0
      rw [if_neg hset]
      split
      · exact iff_of_true rfl ‹_›
      · exact iff_of_false (by decide) ‹_›
  | pollDisable t =>
      have hpoll : e.pollSensorMask ≠ 0 := h.poll.ne_zero hchanges
      rw [PollState.procMessage, if_pos h.interval]
      show (if e.pollSensorMask &&& ~~~sensorBit t = 0 then -1 else e.pollTimeoutMsec) =
        (if e.fastPollSensorMask = 0 then
          if e.pollSensorMask &&& ~~~sensorBit t = 0 then initial else defPollInterval else 1000) ↔
        (e.pollSensorMask &&& ~~~sensorBit t = 0 → e.fastPollSensorMask = 0 ∧ initial = -1)
      rw [if_neg hpoll] at hright
      by_cases hlast : e.pollSensorMask &&& ~~~sensorBit t = 0
      · rw [if_pos hlast, if_pos hlast]
        split
        · rename_i hfast
          exact ⟨fun heq _ => ⟨hfast, heq.symm⟩, fun hallow => (hallow hlast).2.symm⟩
        · rename_i hfast
          exact iff_of_false (by decide) fun hallow => hfast (hallow hlast).1
      · rw [if_neg hlast, if_neg hlast]
        exact iff_of_true hright fun hzero => absurd hzero hlast
  | fastPollEnable t =>
      have hset : e.fastPollSensorMask ||| sensorBit t ≠ 0 :=
        (h.fast.set h0 h1).ne_zero (s := t) (if_pos rfl)
      show 1000 = (if e.fastPollSensorMask ||| sensorBit t = 0 then
        if e.pollSensorMask = 0 then initial else defPollInterval else 1000) ↔ True
      rw [if_neg hset]
      exact iff_of_true rfl trivial
  | fastPollDisable t =>
      have hfast : e.fastPollSensorMask ≠ 0 := h.fast.ne_zero hchanges
      rw [if_neg hfast] at hright
      show (if e.fastPollSensorMask &&& ~~~sensorBit t = 0 ∧ e.savedPollInterval ≠ 0 then
          e.savedPollInterval else e.pollTimeoutMsec) =
        (if e.fastPollSensorMask &&& ~~~sensorBit t = 0 then
          if e.pollSensorMask = 0 then initial else defPollInterval else 1000) ↔
        (e.fastPollSensorMask &&& ~~~sensorBit t = 0 →
          (if e.savedPollInterval = 0 then 1000 else e.savedPollInterval) =
            if e.pollSensorMask = 0 then initial else defPollInterval)
      by_cases hlast : e.fastPollSensorMask &&& ~~~sensorBit t = 0
      · rw [if_pos hlast, hright]
        have hsaved : (if e.fastPollSensorMask &&& ~~~sensorBit t = 0 ∧ e.savedPollInterval ≠ 0 then
            e.savedPollInterval else 1000) =
            if e.savedPollInterval = 0 then 1000 else e.savedPollInterval := by
          by_cases hzero : e.savedPollInterval = 0
          · rw [if_pos hzero, if_neg fun hboth => hboth.2 hzero]
          · rw [if_neg hzero, if_pos ⟨hlast, hzero⟩]
        rw [hsaved]
        exact ⟨fun heq _ => heq, fun hallow => hallow hlast⟩
      · rw [if_neg hlast, if_neg fun hboth => hlast hboth.1]
        exact iff_of_true hright fun hzero => absurd hzero hlast

end Step

/-! ## Runs -/

/-- In a run of messages about the sensors 0 to 31 whose enables and disables alternate, the timeout
is right after every message if and only if every message is allowed in the state before it. -/
theorem timeout_iff (initial : Int) {msgs : List PollMessage} (halternating : Alternating msgs)
    (hids : ∀ m ∈ msgs, 0 ≤ m.sensorId ∧ m.sensorId < 32) :
    (∀ pre, pre <+: msgs →
        TimeoutRight initial pre (run PollState.procMessage (.start initial) pre)) ↔
      Meets PollState.procMessage (PollState.Allows initial) (.start initial) msgs := by
  have hmem : ∀ past m, past ++ [m] <+: msgs → m ∈ msgs := by
    intro past m hpre
    exact hpre.subset (List.mem_append_right _ (List.mem_singleton_self m))
  have hzero : ∀ on : Int → Bool, (∀ s, on s = false) → Tracks 0 on := by
    intro on hoff s
    simp [hoff]
  have hstart : (PollState.start initial).Mirrors [] :=
    ⟨rfl, hzero _ fun _ => rfl, hzero _ fun _ => rfl⟩
  have hmirrors : ∀ pre, pre <+: msgs →
      (run PollState.procMessage (.start initial) pre).Mirrors pre := by
    intro pre hpre
    refine run_history (I := fun past (e : PollState) => e.Mirrors past) hstart ?_
    intro past e m hpast h
    obtain ⟨h0, h1⟩ := hids m (hmem past m (hpast.trans hpre))
    exact mirrors_step h h0 h1
  refine meets_iff_prefixes (I := TimeoutRight initial) ?_ ?_
  · rw [timeout_right_iff hstart]
    rfl
  · intro past m hpre hright
    have hpast := hmirrors past ((List.prefix_append ..).trans hpre)
    obtain ⟨h0, h1⟩ := hids m (hmem past m hpre)
    rw [timeout_right_iff hpast] at hright
    rw [timeout_right_iff (mirrors_step hpast h0 h1)]
    exact timeout_step hpast (halternating past m hpre) h0 h1 hright

/-- A sensor is polled, then fast, and both are switched off in the same order: the daemon goes on
polling although it began without. -/
theorem poll_first_never_stops :
    Alternating [.pollEnable 0, .fastPollEnable 0, .pollDisable 0, .fastPollDisable 0] ∧
    ¬ ∀ pre, pre <+: [PollMessage.pollEnable 0, .fastPollEnable 0, .pollDisable 0,
        .fastPollDisable 0] →
      TimeoutRight (-1) pre (run PollState.procMessage (.start (-1)) pre) := by
  refine ⟨by decide, fun h => ?_⟩
  have hlast := (h _ (List.prefix_refl _)).2.2 ?_ ?_
  · exact absurd hlast (by decide)
  · intro s
    by_cases hs : s = 0
    · rw [hs]
      rfl
    · simp [fastPollOn, onAfter]
  · intro s
    by_cases hs : s = 0
    · rw [hs]
      rfl
    · simp [pollOn, onAfter]

/-- In the opposite order the timeout is right. -/
theorem fast_first_right :
    TimeoutRight (-1)
      [PollMessage.pollEnable 0, .fastPollEnable 0, .fastPollDisable 0, .pollDisable 0]
      (run PollState.procMessage (.start (-1))
        [PollMessage.pollEnable 0, .fastPollEnable 0, .fastPollDisable 0, .pollDisable 0]) := by
  have hright := (timeout_iff (-1) (by decide) (by decide)).2
    (show Meets _ _ _
      [PollMessage.pollEnable 0, .fastPollEnable 0, .fastPollDisable 0, .pollDisable 0] from
      ⟨rfl, trivial, fun _ => rfl, fun _ => ⟨rfl, rfl⟩, trivial⟩)
  exact hright _ (List.prefix_refl _)

end Thermald
