import Thermald.Gddv.Frames

/-!
# String fields

A string field of a table has a length in front of it, but `get_string_obj` returns a pointer to
its first byte, and the decoders make a string of all bytes up to the next NUL. The fields of an
ITMT table of version 3 have 64 bytes each and are taken in the same way.

`StringTable.fields` goes through a table as its decoder does and returns where the strings come
from that are stored. `forall_declared_iff` is about one list of fields: their strings are those of
the declared bytes exactly if each field has a NUL among these bytes or right behind them.
-/

namespace Thermald.Gddv

/-! ## Fields -/

/-- Where a stored string comes from: the place and the declared length of a field, or a text that
the decoder makes by itself. -/
inductive Origin where
  | field (start : Int) (length : Nat)
  | text (s : Bytes)
  deriving DecidableEq

namespace Origin

/-- The declared bytes, up to the first NUL among them. -/
def declared (buf : Bytes) : Origin → Bytes
  | field start length => (slice buf start length).takeWhile fun b => b ≠ 0
  | text s => s

/-- There is a NUL among the declared bytes or right behind them. -/
def Closed (buf : Bytes) : Origin → Prop
  | field start length => 0 ∈ slice buf start (length + 1)
  | text _ => True

instance (buf : Bytes) (o : Origin) : Decidable (o.Closed buf) :=
  match o with
  | field start length => inferInstanceAs (Decidable (0 ∈ slice buf start (length + 1)))
  | text _ => .isTrue trivial

/-- The string that is made of the pointer to a field. -/
def Read (buf : Bytes) (o : Origin) (s : Bytes) : Prop :=
  match o with
  | field start _ => 0 ∈ buf.drop start.toNat ∧
      s = (buf.drop start.toNat).takeWhile fun b => b ≠ 0
  | text t => s = t

end Origin

/-- `get_string`, with the length that it reads. -/
def getField (object : Bytes) : Decoder Origin := do
  let length ← getTagged object 8
  let c ← get
  if intMax < length ∨ c.gddv.gddvCurBufLen < int32 (c.offset + length) then throw .gddvException
  else
    set { c with offset := int32 (c.offset + length) }
    pure (.field c.offset length)

/-! ## The fields of a table -/

/-- The strings of a row of the APPC table. -/
def appcFields (appc : Bytes) (fields : List Origin) : Decoder (List Origin) := do
  let _ ← getUint64 appc
  let name ← getField appc
  let participant ← getField appc
  let _ ← getUint64 appc
  let _ ← getUint64 appc
  pure (fields ++ [name, participant])

/-- The strings of a row of the APAT table. -/
def apatFields (apat : Bytes) (fields : List Origin) : Decoder (List Origin) := do
  let _ ← getUint64 apat
  let name ← getField apat
  let participant ← getField apat
  let _ ← getUint64 apat
  let code ← getField apat
  let argument ← getField apat
  pure (fields ++ [name, participant, code, argument])

/-- The counter of a condition set and the strings of its conditions so far. -/
structure SetFields where
  i : Int
  fields : List Origin

/-- The string of a condition of version 1, which is not in the table. -/
def conditionFields1 (apct : Bytes) (len : Int) (v : SetFields) : Decoder SetFields := do
  if len ≤ (← get).offset then throw .gddvException
  else
    let _ ← getUint64 apct
    let _ ← getUint64 apct
    let _ ← getUint64 apct
    if v.i < 9 then
      let operation ← getUint64 apct
      if operation % 2 ^ 8 = opFor then
        skip
        let _ ← getUint64 apct
        let _ ← getUint64 apct
        skip
        pure ⟨int32 (v.i + 1 + 1), v.fields ++ [.text []]⟩
      else pure ⟨int32 (v.i + 1), v.fields ++ [.text []]⟩
    else pure ⟨int32 (v.i + 1), v.fields ++ [.text []]⟩

/-- The string of a condition of version 2. -/
def conditionFields2 (apct : Bytes) (len : Int) (count : Nat) (v : SetFields) :
    Decoder SetFields := do
  if len ≤ (← get).offset then throw .gddvException
  else
    let _ ← getUint64 apct
    let device ← getField apct
    skip
    let _ ← getUint64 apct
    let _ ← getUint64 apct
    if v.i < int32 (uint64 (count - 1)) then
      let operation ← getUint64 apct
      if operation % 2 ^ 8 = opFor then
        skip
        let _ ← getString apct
        skip
        let _ ← getUint64 apct
        let _ ← getUint64 apct
        skip
        pure ⟨int32 (v.i + 1 + 1), v.fields ++ [device]⟩
      else pure ⟨int32 (v.i + 1), v.fields ++ [device]⟩
    else pure ⟨int32 (v.i + 1), v.fields ++ [device]⟩

/-- The strings of a condition set. -/
def conditionSetFields (fuel : Nat) (count : Int) (body : SetFields → Decoder SetFields)
    (fields : List Origin) : Decoder (List Origin) := do
  let v ← loopM .outOfFuel (fun (v : SetFields) _ => decide (v.i < count)) body fuel ⟨0, []⟩
  pure (fields ++ v.fields)

/-- The strings of a set of version 1. -/
def setFields1 (fuel : Nat) (apct : Bytes) (len : Int) (fields : List Origin) :
    Decoder (List Origin) := do
  let target ← getUint64 apct
  if int32 target = -1 then throw .gddvException
  else conditionSetFields fuel 10 (conditionFields1 apct len) fields

/-- The strings of a set of version 2. -/
def setFields2 (fuel : Nat) (apct : Bytes) (len : Int) (fields : List Origin) :
    Decoder (List Origin) := do
  let target ← getUint64 apct
  if int32 target = -1 then throw .gddvException
  else
    let count ← getUint64 apct
    conditionSetFields fuel (int32 count) (conditionFields2 apct len count) fields

/-- The limit of a row of the PSVT table, if it is a string. -/
def limitField (buf : Bytes) : Decoder Origin := do
  if (← getType buf) = 8 then getField buf
  else
    let tmp ← getUint64 buf
    pure (.text (ascii (toString tmp)))

/-- The strings of a row of the PSVT table. -/
def psvFields (buf : Bytes) (fields : List Origin) : Decoder (List Origin) := do
  let source ← getField buf
  let target ← getField buf
  let _ ← getUint64 buf
  let _ ← getUint64 buf
  let _ ← getUint64 buf
  let _ ← getUint64 buf
  let _ ← getUint64 buf
  let limit ← limitField buf
  let _ ← getUint64 buf
  let _ ← getUint64 buf
  let _ ← getUint64 buf
  skip
  pure (fields ++ [source, target, limit])

/-- The strings of an entry of the ITMT table of version 3, which have 64 bytes each. -/
def itmt3EntryFields (buf : Bytes) : Decoder (List Origin) := do
  let offset := (← get).offset
  let _ ← readUint64 buf (offset + 64)
  set { (← get) with offset := uint32 (offset + itmt3Size) }
  pure [.field offset 64, .field (offset + 80) 64, .field (offset + 144) 64, .text []]

/-- The strings of the entries, or nothing if the last one is not complete. -/
def itmt3Fields (len : Int) (buf : Bytes) (fields : Option (List Origin)) :
    Decoder (Option (List Origin)) := do
  if uint32 (len - (← get).offset) < itmt3Size then pure none
  else
    let entry ← itmt3EntryFields buf
    pure (fields.map fun fs => fs ++ entry)

/-- The strings of an entry of the ITMT table of version 1 or 2. -/
def itmtEntryFields (version : Int) (buf : Bytes) (fields : List Origin) :
    Decoder (List Origin) := do
  let target ← getField buf
  let _ ← getUint64 buf
  let pl1Min ← getField buf
  let pl1Max ← getField buf
  let unused ← getField buf
  if version = 2 then
    let _ ← getUint64 buf
    let _ ← getField buf
    let _ ← getUint64 buf
    let _ ← getUint64 buf
    pure (fields ++ [target, pl1Min, pl1Max, unused])
  else
    skip
    pure (fields ++ [target, pl1Min, pl1Max, unused])

/-- The string of a row of the VSCT table. -/
def vsctFields (buf : Bytes) (fields : List Origin) : Decoder (List Origin) := do
  let target ← getField buf
  let _ ← getUint64 buf
  let _ ← getUint64 buf
  let _ ← getUint64 buf
  let _ ← getUint64 buf
  let _ ← getUint64 buf
  let _ ← getUint64 buf
  pure (fields ++ [target])

/-! ## Tables with strings -/

/-- The strings of an entry of an ITMT table. -/
def ItmtEntry.strings (entry : ItmtEntry) : List Bytes :=
  [entry.target, entry.pl1Min, entry.pl1Max, entry.unused]

/-- The tables in which strings are stored, with their names in the vault. -/
inductive StringTable where
  | appc
  | apat
  | apct
  | psvt (name : Option Bytes)
  | itmt (name : Option Bytes)
  | itmt3 (name : Option Bytes)
  | vsct (name : Option Bytes)

namespace StringTable

variable (fuel : Nat) (buf : Bytes) (len : Int)

/-- The decoder of the table. -/
def parse : StringTable → Decoder Int
  | appc => parseAppc fuel buf len
  | apat => parseApat fuel buf len
  | apct => parseApct fuel buf len
  | psvt name => parsePsvt fuel name buf len
  | itmt name => parseItmt fuel name buf len
  | itmt3 name => parseItmt3 fuel name buf len
  | vsct name => parseVsct fuel name buf len

/-- The strings of the rows that are stored for the table. -/
def strings (g : Gddv) : StringTable → List Bytes
  | appc => g.customConditions.flatMap fun row => [row.name, row.participant]
  | apat => g.targets.flatMap fun row => [row.name, row.participant, row.code, row.argument]
  | apct => g.conditions.flatMap fun cs => cs.map fun condition => condition.device
  | psvt _ => g.psvts.flatMap fun t => t.psvs.flatMap fun row => [row.source, row.target, row.limit]
  | itmt _ | itmt3 _ => g.itmts.flatMap fun t => t.itmtEntries.flatMap ItmtEntry.strings
  | vsct _ => g.vscts.map fun row => row.target

/-- Where the strings of the table come from, in their order. -/
def fields : StringTable → Decoder (List Origin)
  | appc => do
    begin len
    if len < 1 then pure []
    else
      let first ← readByte buf 0
      if first ≠ 4 then pure []
      else
        let version ← getUint64 buf
        if version ≠ 1 then pure []
        else whileBelow fuel len (appcFields buf) []
  | apat => do
    begin len
    let version ← getUint64 buf
    if version ≠ 2 then throw .gddvException
    else whileBelow fuel len (apatFields buf) []
  | apct => do
    begin len
    let version ← getUint64 buf
    if version = 1 then whileBelow fuel len (setFields1 fuel buf len) []
    else if version = 2 then whileBelow fuel len (setFields2 fuel buf len) []
    else throw .gddvException
  | psvt _ => do
    begin len
    let version ← getUint64 buf
    if 2 < int32 version then throw .gddvException
    else whileBelow fuel len (psvFields buf) []
  | itmt _ => do
    begin len
    let version ← getUint64 buf
    if 2 < int32 version then pure []
    else whileBelow fuel len (itmtEntryFields (int32 version) buf) []
  | itmt3 _ => do
    begin len
    if len < itmt3HeaderSize then pure []
    else
      set { (← get) with offset := uint32 itmt3HeaderSize }
      if uint32 (len - itmt3HeaderSize) < itmt3Size then pure []
      else
        let fields ← loopM .outOfFuel
          (fun (fs : Option (List Origin)) c => fs.isSome && decide (c.offset < len))
          (itmt3Fields len buf) fuel (some [])
        pure (fields.getD [])
  | vsct _ => do
    begin len
    let version ← getUint64 buf
    if 1 < int32 version then pure []
    else whileBelow fuel len (vsctFields buf) []

end StringTable

/-! ## A field and its string -/

/-- What is read up to the next NUL is what is declared exactly if there is a NUL among the declared
bytes or right behind them. -/
theorem take_while_take_iff {l : Bytes} (h : 0 ∈ l) (n : Nat) :
    l.takeWhile (fun b => b ≠ 0) = (l.take n).takeWhile (fun b => b ≠ 0) ↔
      0 ∈ l.take (n + 1) := by
  induction l generalizing n with
  | nil => cases h
  | cons b rest ih =>
      by_cases hb : b = 0
      · subst hb
        cases n <;> simp
      · have hrest : 0 ∈ rest := by
          rcases List.mem_cons.mp h with heq | hmem
          · exact absurd heq.symm hb
          · exact hmem
        have hne : ¬ (0 : UInt8) = b := fun heq => hb heq.symm
        cases n with
        | zero => simp [hb, hne]
        | succ n => simpa [List.takeWhile_cons, hb, hne] using ih hrest n

/-- The string of a field is what is declared exactly if the field is closed. -/
theorem Origin.Read.declared_iff {buf : Bytes} {o : Origin} {s : Bytes} (h : o.Read buf s) :
    s = o.declared buf ↔ o.Closed buf := by
  cases o with
  | field start length =>
      obtain ⟨hnul, rfl⟩ := h
      exact take_while_take_iff hnul length
  | text t => exact iff_of_true h trivial

/-- So are all strings of a list of fields. -/
theorem forall_declared_iff {buf : Bytes} {fields : List Origin} {strings : List Bytes}
    (h : List.Forall₂ (Origin.Read buf) fields strings) :
    strings = fields.map (Origin.declared buf) ↔ ∀ o ∈ fields, o.Closed buf := by
  induction h with
  | nil => simp
  | cons hread _ ih =>
      rw [List.map_cons, List.cons.injEq, hread.declared_iff, ih, List.forall_mem_cons]

/-! ## Readers -/

section Readers

variable {α β : Type} {buf : Bytes}

/-- The computation moves the offset, in a way that depends only on the offset and the length of the
buffer. -/
structure Reader (m : Decoder α) : Prop where
  moves : ∀ {o g a c'}, Returns m ⟨o, g⟩ a c' → ∃ o', c' = ⟨o', g⟩ ∧
    ∀ g' : Gddv, g'.gddvCurBufLen = g.gddvCurBufLen → Returns m ⟨o, g'⟩ a ⟨o', g'⟩

namespace Reader

protected theorem pure (a : α) : Reader (pure a : Decoder α) := by
  refine ⟨fun {o g a' c'} h => ?_⟩
  obtain ⟨rfl, rfl⟩ := h.of_pure
  exact ⟨o, rfl, fun g' _ => .pure a' _⟩

protected theorem throw (e : Stop) : Reader (throw e : Decoder α) :=
  ⟨fun h => h.of_throw.elim⟩

protected theorem bind {m : Decoder α} {f : α → Decoder β} (h : Reader m)
    (hf : ∀ a, Reader (f a)) : Reader (m >>= f) := by
  refine ⟨fun {o g b c''} hret => ?_⟩
  obtain ⟨a, c', hm, hfa⟩ := hret.of_bind
  obtain ⟨o', rfl, hmoves⟩ := h.moves hm
  obtain ⟨o'', rfl, hmoves'⟩ := (hf a).moves hfa
  exact ⟨o'', rfl, fun g' hg' => (hmoves g' hg').bind (hmoves' g' hg')⟩

protected theorem ite {c : Prop} {_ : Decidable c} {m m' : Decoder α} (h : Reader m)
    (h' : Reader m') : Reader (if c then m else m') := by
  split
  · exact h
  · exact h'

protected theorem map {m : Decoder α} {f : α → β} (h : Reader m) : Reader (f <$> m) := by
  rw [map_eq_pure_bind]
  exact h.bind fun a => .pure (f a)

/-- The offset and the length of the buffer are looked at. -/
theorem place {f : Int → Int → Decoder α} (hf : ∀ o n, Reader (f o n)) :
    Reader (get >>= fun c => f c.offset c.gddv.gddvCurBufLen) := by
  refine ⟨fun {o g a c'} h => ?_⟩
  obtain ⟨_, _, hget, h⟩ := h.of_bind
  cases hget
  obtain ⟨o', rfl, hmoves⟩ := (hf o g.gddvCurBufLen).moves h
  refine ⟨o', rfl, fun g' hg' => (Returns.get _).bind ?_⟩
  dsimp only
  rw [hg']
  exact hmoves g' hg'

end Reader

theorem reader_read_bytes (i : Int) (n : Nat) : Reader (readBytes buf i n : Decoder Bytes) := by
  unfold readBytes
  exact .ite (.pure _) (.ite (.pure _) (.throw _))

theorem reader_skip : Reader skip := by
  refine ⟨fun {o g a c'} h => ?_⟩
  cases h
  exact ⟨_, rfl, fun g' _ => .modify _ _⟩

theorem reader_get_type : Reader (getType buf) := by
  unfold getType
  refine .place (f := fun o n => if o < 0 ∨ n < int32 (o + 4) then throw .gddvException
    else readUint32 buf o >>= fun type => pure (int32 type)) fun o n => ?_
  exact .ite (.throw _) (.bind (reader_read_bytes ..).map fun _ => .pure _)

/-- A reader of a tag and eight bytes behind it. -/
theorem reader_get_tagged (expected : Int) : Reader (getTagged buf expected) := by
  refine ⟨fun {o g a c'} h => ?_⟩
  unfold getTagged at h ⊢
  obtain ⟨_, _, hget, h⟩ := h.of_bind
  cases hget
  split at h
  · exact h.of_throw.elim
  rename_i hplace
  obtain ⟨type, c₂, htype, h⟩ := h.of_bind
  split at h
  · exact h.of_throw.elim
  rename_i hexpected
  obtain ⟨_, _, hset, h⟩ := h.of_bind
  cases hset
  split at h
  · exact h.of_throw.elim
  rename_i hroom
  obtain ⟨value, c₃, hvalue, h⟩ := h.of_bind
  obtain ⟨_, _, hset, h⟩ := h.of_bind
  cases hset
  obtain ⟨rfl, rfl⟩ := h.of_pure
  obtain ⟨_, -, htype⟩ := (reader_read_bytes _ _).map.moves htype
  obtain ⟨_, -, hvalue⟩ := (reader_read_bytes _ _).map.moves hvalue
  refine ⟨_, rfl, fun g' hg' => (Returns.get _).bind ?_⟩
  dsimp only at hplace hroom ⊢
  rw [hg', if_neg hplace]
  refine (htype g' hg').bind ?_
  rw [if_neg hexpected]
  refine (Returns.set _ _).bind ?_
  rw [if_neg hroom]
  exact (hvalue g' hg').bind ((Returns.set _ _).bind (.pure _ _))

theorem reader_get_uint64 : Reader (getUint64 buf) :=
  reader_get_tagged 4

theorem reader_read_uint64 (i : Int) : Reader (readUint64 buf i : Decoder Nat) :=
  (reader_read_bytes i 8).map

/-- `get_string` moves as it does when its length is kept. -/
theorem get_string_field {o : Int} {g : Gddv} {p : Int} {c' : Cursor}
    (h : Returns (getString buf) ⟨o, g⟩ p c') : ∃ o' length, c' = ⟨o', g⟩ ∧
      ∀ g' : Gddv, g'.gddvCurBufLen = g.gddvCurBufLen →
        Returns (getString buf) ⟨o, g'⟩ p ⟨o', g'⟩ ∧
          Returns (getField buf) ⟨o, g'⟩ (.field p length) ⟨o', g'⟩ := by
  unfold getString at h
  obtain ⟨length, c₁, hlength, h⟩ := h.of_bind
  obtain ⟨o₁, rfl, hmoves⟩ := (reader_get_tagged 8).moves hlength
  obtain ⟨_, _, hget, h⟩ := h.of_bind
  cases hget
  split at h
  · exact h.of_throw.elim
  rename_i hroom
  obtain ⟨_, _, hset, h⟩ := h.of_bind
  cases hset
  obtain ⟨rfl, rfl⟩ := h.of_pure
  refine ⟨_, length, rfl, fun g' hg' => ?_⟩
  dsimp only at hroom
  rw [← hg'] at hroom
  constructor
  · unfold getString
    refine (hmoves g' hg').bind ((Returns.get _).bind ?_)
    rw [if_neg hroom]
    exact (Returns.set _ _).bind (.pure _ _)
  · unfold getField
    refine (hmoves g' hg').bind ((Returns.get _).bind ?_)
    rw [if_neg hroom]
    exact (Returns.set _ _).bind (.pure _ _)

theorem reader_get_string : Reader (getString buf) := by
  refine ⟨fun {o g a c'} h => ?_⟩
  obtain ⟨o', _, rfl, hmoves⟩ := get_string_field h
  exact ⟨o', rfl, fun g' hg' => (hmoves g' hg').1⟩

/-- A string and the field from which it is made. -/
theorem get_std_string_field {o : Int} {g : Gddv} {s : Bytes} {c' : Cursor}
    (h : Returns (getStdString buf) ⟨o, g⟩ s c') : ∃ o' field, c' = ⟨o', g⟩ ∧
      Origin.Read buf field s ∧ ∀ g' : Gddv, g'.gddvCurBufLen = g.gddvCurBufLen →
        Returns (getField buf) ⟨o, g'⟩ field ⟨o', g'⟩ := by
  unfold getStdString getStringObj at h
  obtain ⟨p, c₁, hobj, h⟩ := h.of_bind
  obtain ⟨_, _, hget, hobj⟩ := hobj.of_bind
  cases hget
  obtain ⟨start, c₂, hstring, hobj⟩ := hobj.of_bind
  obtain ⟨o', length, rfl, hmoves⟩ := get_string_field hstring
  obtain ⟨_, _, hget, hobj⟩ := hobj.of_bind
  cases hget
  dsimp only at hobj
  split at hobj
  · obtain ⟨rfl, rfl⟩ := hobj.of_pure
    exact h.of_throw.elim
  · obtain ⟨rfl, rfl⟩ := hobj.of_pure
    dsimp only at h
    unfold cString at h
    split at h
    · rename_i hnul
      obtain ⟨rfl, rfl⟩ := h.of_pure
      exact ⟨o', .field start length, rfl, ⟨hnul.2, rfl⟩, fun g' hg' => (hmoves g' hg').2⟩
    · exact h.of_throw.elim

end Readers

end Thermald.Gddv
