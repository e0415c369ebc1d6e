import Thermald.Gddv.Buffer
import Thermald.Lib.Records
import Thermald.Polling.Interval

/-!
# Messages to the engine

`send_message` fills a `message_capsul_t` and writes its bytes into a pipe that the thread of the
engine reads. The structure has one size for all messages: a number of one byte, three bytes that
align the length, the length, and `MAX_MSG_SIZE` words for the contents. A sensor is sent as the
four bytes of its index and read back as an `unsigned int`, so that a negative index comes back as
another number; as a bit of a mask it stands for the same sensor (`proc_message_wire`).
-/

namespace Thermald

/-- `message_name_t`. -/
inductive MessageName where
  | wakeup
  | terminate
  | prefChanged
  | thermalZoneNotify
  | reloadZones
  | pollEnable
  | pollDisable
  | fastPollEnable
  | fastPollDisable
  deriving DecidableEq, Repr

namespace MessageName

/-- The names in the order of their numbers. -/
def all : List MessageName :=
  [.wakeup, .terminate, .prefChanged, .thermalZoneNotify, .reloadZones, .pollEnable, .pollDisable,
    .fastPollEnable, .fastPollDisable]

/-- The number of a name. -/
def code : MessageName → UInt8
  | .wakeup => 0
  | .terminate => 1
  | .prefChanged => 2
  | .thermalZoneNotify => 3
  | .reloadZones => 4
  | .pollEnable => 5
  | .pollDisable => 6
  | .fastPollEnable => 7
  | .fastPollDisable => 8

/-- The name with a number, if there is one. -/
def ofCode (code : UInt8) : Option MessageName := all[code.toNat]?

@[simp] theorem of_code_code (name : MessageName) : ofCode name.code = some name := by
  cases name <;> rfl

end MessageName

/-- `MAX_MSG_SIZE`. -/
abbrev maxMsgSize : Nat := 512

/-- The size of the contents, an array of `unsigned long`. -/
abbrev msgBytes : Nat := 8 * maxMsgSize

/-- `message_capsul_t`. -/
structure MessageCapsul where
  msgId : UInt8
  msgSize : Int
  msg : Bytes
  length_msg : msg.length = msgBytes
  deriving DecidableEq

/-- As many bytes as asked for, with zeros behind the given ones. -/
def padded (n : Nat) (bytes : Bytes) : Bytes :=
  bytes.take n ++ List.replicate (n - bytes.length) 0

@[simp] theorem length_padded (n : Nat) (bytes : Bytes) : (padded n bytes).length = n := by
  simp only [padded, List.length_append, List.length_take, List.length_replicate]
  omega

namespace MessageCapsul

/-- `sizeof(message_capsul_t)`. -/
abbrev size : Nat := 8 + msgBytes

/-- The bytes of a message. -/
def toBytes (c : MessageCapsul) : Bytes :=
  c.msgId :: List.replicate 3 0 ++ toLittleEndian 4 (uint32 c.msgSize).toNat ++ c.msg

/-- The message in a buffer. -/
def ofBytes (buf : Bytes) : MessageCapsul where
  msgId := buf.headD 0
  msgSize := int32 (littleEndian (slice buf 4 4))
  msg := padded msgBytes (buf.drop 8)
  length_msg := length_padded msgBytes _

/-- Messages as records of the pipe. -/
def format : RecordFormat MessageCapsul UInt8 where
  size := size
  size_pos := by decide
  encode := toBytes
  length_encode c := by
    simp only [toBytes, List.length_append, List.length_cons, List.length_replicate,
      length_to_little_endian, c.length_msg]

/-- The length of a message is an `int`. -/
def Fits (c : MessageCapsul) : Prop := -2147483648 ≤ c.msgSize ∧ c.msgSize ≤ intMax

/-- A message is read as it was written, whatever stands behind it. -/
theorem of_bytes_append {c : MessageCapsul} (h : c.Fits) (junk : Bytes) :
    ofBytes (c.toBytes ++ junk) = c := by
  obtain ⟨msgId, msgSize, msg, hmsg⟩ := c
  obtain ⟨hge, hle⟩ := h
  have hsize : slice (toBytes ⟨msgId, msgSize, msg, hmsg⟩ ++ junk) 4 4 =
      toLittleEndian 4 (uint32 msgSize).toNat := by
    refine slice_middle (a := msgId :: List.replicate 3 0) (c := msg ++ junk) ?_ rfl
      (length_to_little_endian 4 _).symm
    simp only [toBytes, List.append_assoc, List.cons_append]
  have hdrop : (toBytes ⟨msgId, msgSize, msg, hmsg⟩ ++ junk).drop 8 = msg ++ junk := by
    rw [toBytes, List.append_assoc]
    refine List.drop_left' ?_
    simp
  have hmsg' : padded msgBytes (msg ++ junk) = msg := by
    rw [padded, List.take_left' hmsg, List.length_append, hmsg]
    simp
  have hvalue : int32 (littleEndian (toLittleEndian 4 (uint32 msgSize).toNat) : Nat) = msgSize := by
    rw [little_endian_of_value]
    have hle : msgSize ≤ 2147483647 := hle
    have hge : -2147483648 ≤ msgSize := hge
    unfold uint32 int32
    omega
  simp only [ofBytes, hsize, hdrop, hmsg', hvalue]
  rfl

/-- `send_message`, up to the write. The length is cut off at the number of words. -/
def sendMessage (name : MessageName) (size : Int) (contents : Bytes) : MessageCapsul :=
  let msgSize := if (maxMsgSize : Int) < size then (maxMsgSize : Int) else size
  { msgId := name.code
    msgSize := msgSize
    msg := padded msgBytes (contents.take msgSize.toNat)
    length_msg := length_padded msgBytes _ }

theorem send_message_fits {name : MessageName} {size : Int} {contents : Bytes}
    (h : -2147483648 ≤ size) : (sendMessage name size contents).Fits := by
  show -2147483648 ≤ (if ((512 : Nat) : Int) < size then ((512 : Nat) : Int) else size) ∧
    (if ((512 : Nat) : Int) < size then ((512 : Nat) : Int) else size) ≤ 2147483647
  split <;> omega

/-- The sensor that a message is about: the first `unsigned int` of its contents. -/
def sensorId (c : MessageCapsul) : Int := littleEndian (slice c.msg 0 4)

end MessageCapsul

namespace PollMessage

/-- The same message about another sensor. -/
def about : PollMessage → Int → PollMessage
  | .pollEnable _, s => .pollEnable s
  | .pollDisable _, s => .pollDisable s
  | .fastPollEnable _, s => .fastPollEnable s
  | .fastPollDisable _, s => .fastPollDisable s

/-- The name of a message about polling. -/
def name : PollMessage → MessageName
  | .pollEnable _ => .pollEnable
  | .pollDisable _ => .pollDisable
  | .fastPollEnable _ => .fastPollEnable
  | .fastPollDisable _ => .fastPollDisable

/-- `thd_engine_poll_enable` and its siblings, up to the write. -/
def capsul (m : PollMessage) : MessageCapsul :=
  MessageCapsul.sendMessage m.name 4 (toLittleEndian 4 (uint32 m.sensorId).toNat)

/-- The message that arrives: the index of the sensor is read as an `unsigned int`. -/
def wire (m : PollMessage) : PollMessage := m.about (uint32 m.sensorId)

end PollMessage

namespace MessageCapsul

/-- The message about polling that is read from a capsule. -/
def pollMessage? (c : MessageCapsul) : Option PollMessage :=
  match MessageName.ofCode c.msgId with
  | some .pollEnable => some (.pollEnable c.sensorId)
  | some .pollDisable => some (.pollDisable c.sensorId)
  | some .fastPollEnable => some (.fastPollEnable c.sensorId)
  | some .fastPollDisable => some (.fastPollDisable c.sensorId)
  | _ => none

end MessageCapsul

namespace PollMessage

theorem capsul_fits (m : PollMessage) : m.capsul.Fits :=
  MessageCapsul.send_message_fits (by decide)

/-- The index of the sensor in the capsule. -/
theorem capsul_sensor_id (m : PollMessage) : m.capsul.sensorId = uint32 m.sensorId := by
  have hmsg : slice m.capsul.msg 0 4 = toLittleEndian 4 (uint32 m.sensorId).toNat := by
    have hlength := length_to_little_endian 4 (uint32 m.sensorId).toNat
    refine slice_middle (a := []) (c := List.replicate (msgBytes - 4) 0) ?_ rfl hlength.symm
    show padded msgBytes ((toLittleEndian 4 (uint32 m.sensorId).toNat).take 4) = _
    rw [List.take_of_length_le hlength.le, padded, hlength, List.take_of_length_le
      (by rw [hlength]; decide), List.nil_append]
  unfold MessageCapsul.sensorId
  rw [hmsg, little_endian_of_value]
  unfold uint32
  omega

/-- What is read from the capsule of a message. -/
theorem poll_message_capsul (m : PollMessage) : m.capsul.pollMessage? = some m.wire := by
  have hsensor := m.capsul_sensor_id
  have hname : MessageName.ofCode m.capsul.msgId = some m.name := MessageName.of_code_code m.name
  unfold MessageCapsul.pollMessage?
  rw [hname, hsensor]
  cases m <;> rfl

/-- The bit of a sensor is that of the index read. -/
theorem sensor_bit_uint32 (s : Int) : sensorBit (uint32 s) = sensorBit s := by
  have hmod : uint32 s % 32 = s % 32 := by
    unfold uint32
    omega
  unfold sensorBit
  rw [hmod]

/-- The message that arrives does what the one that was sent says. -/
theorem proc_message_wire (e : PollState) (m : PollMessage) :
    e.procMessage m.wire = e.procMessage m := by
  cases m with
  | pollEnable s | pollDisable s | fastPollEnable s | fastPollDisable s =>
      simp only [wire, about, sensorId, PollState.procMessage, PollState.pollEnableDisable,
        PollState.fastPollEnableDisable, sensor_bit_uint32]

/-- The messages that arrive do what those that were sent say. -/
theorem run_wire (e : PollState) (msgs : List PollMessage) :
    run PollState.procMessage e (msgs.map wire) = run PollState.procMessage e msgs := by
  induction msgs generalizing e with
  | nil => rfl
  | cons m rest ih => rw [List.map_cons, run_cons, run_cons, proc_message_wire, ih]

/-- What is read from the capsules of messages. -/
theorem poll_messages_capsul (msgs : List PollMessage) :
    (msgs.map capsul).filterMap MessageCapsul.pollMessage? = msgs.map wire := by
  rw [List.filterMap_map]
  have hsome : (fun m => (capsul m).pollMessage?) = some ∘ wire := funext poll_message_capsul
  exact (congrArg (List.filterMap · msgs) hsome).trans (congrFun List.filterMap_eq_map msgs)

end PollMessage

end Thermald
