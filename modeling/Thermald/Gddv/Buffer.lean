import Thermald.Lib.MachineInt
import Thermald.Lib.Trace

/-!
# Buffers

A buffer is the list of its bytes, from the pointer that the code holds to the end of the
allocation, and a pointer into it is an index. Every access goes through `readBytes`, `readByte`,
`cString` or `writeBytes`, which stop with `outOfBounds` at the first byte outside. What the code
would do after such an access is undefined, so the model ends there; that an access is in bounds
is a statement about how a computation stops.

Integers are stored with the least significant byte first.
-/

namespace Thermald

/-- The bytes of a buffer or of a C++ string. -/
abbrev Bytes := List UInt8

/-- Why a computation ends without a result. -/
inductive Stop where
  /-- `gddv_exception`. -/
  | gddvException
  /-- `std::bad_alloc`. -/
  | badAlloc
  /-- An access to a byte outside of a buffer. -/
  | outOfBounds (index : Int)
  /-- A string is built from a null pointer. -/
  | nullPointer
  /-- The fuel of the model does not suffice. -/
  | outOfFuel
  deriving DecidableEq, Repr

/-- The value of bytes with the least significant one first. -/
def littleEndian : Bytes → Nat
  | [] => 0
  | b :: rest => b.toNat + 256 * littleEndian rest

/-- The bytes of a value, the least significant one first. -/
def toLittleEndian : Nat → Nat → Bytes
  | 0, _ => []
  | n + 1, value => UInt8.ofNat value :: toLittleEndian n (value / 256)

@[simp] theorem length_to_little_endian (n value : Nat) :
    (toLittleEndian n value).length = n := by
  induction n generalizing value with
  | zero => rfl
  | succ n ih => simp [toLittleEndian, ih]

/-- The bytes of a value give it back, up to their width. -/
theorem little_endian_of_value (n value : Nat) :
    littleEndian (toLittleEndian n value) = value % 256 ^ n := by
  induction n generalizing value with
  | zero => simp [littleEndian, toLittleEndian, Nat.mod_one]
  | succ n ih =>
      have hsplit : value % 256 ^ (n + 1) = value % 256 + 256 * (value / 256 % 256 ^ n) := by
        rw [Nat.pow_succ', Nat.mod_mul]
      simp only [toLittleEndian, littleEndian, ih, hsplit]
      simp [UInt8.toNat_ofNat']

/-- A value of `n` bytes is below `256 ^ n`. -/
theorem little_endian_lt (bs : Bytes) : littleEndian bs < 256 ^ bs.length := by
  induction bs with
  | nil => simp [littleEndian]
  | cons b rest ih =>
      have hb := b.toNat_lt
      rw [littleEndian, List.length_cons, Nat.pow_succ]
      omega

/-- The `n` bytes from an index on. -/
def slice (buf : Bytes) (i : Int) (n : Nat) : Bytes :=
  (buf.drop i.toNat).take n

/-- The first byte of a range that is outside of the buffer. -/
def firstOutside (buf : Bytes) (i : Int) : Int :=
  if i < 0 then i else max i buf.length

/-- The range lies in the buffer. -/
def InBounds (buf : Bytes) (i : Int) (n : Nat) : Prop :=
  0 ≤ i ∧ i + n ≤ buf.length

instance (buf : Bytes) (i : Int) (n : Nat) : Decidable (InBounds buf i n) :=
  inferInstanceAs (Decidable (_ ∧ _))

/-- A part of a buffer with the parts before and behind it. -/
theorem slice_middle {buf a b c : Bytes} {i : Int} {n : Nat} (h : buf = a ++ b ++ c)
    (hi : i = a.length) (hn : n = b.length) : slice buf i n = b := by
  subst h hi hn
  simp [slice]

theorem in_bounds_middle {buf a b c : Bytes} {i : Int} {n : Nat} (h : buf = a ++ b ++ c)
    (hi : i = a.length) (hn : n = b.length) : InBounds buf i n := by
  subst h hi hn
  refine ⟨Int.natCast_nonneg _, ?_⟩
  simp only [List.length_append]
  omega

section Access

variable {σ : Type}

/-- Read or copy `n` bytes. -/
def readBytes (buf : Bytes) (i : Int) (n : Nat) : EStateM Stop σ Bytes :=
  if n = 0 then pure []
  else if InBounds buf i n then pure (slice buf i n)
  else throw (.outOfBounds (firstOutside buf i))

/-- Read one byte. -/
def readByte (buf : Bytes) (i : Int) : EStateM Stop σ Nat :=
  littleEndian <$> readBytes buf i 1

/-- Read a `uint16_t`. -/
def readUint16 (buf : Bytes) (i : Int) : EStateM Stop σ Nat :=
  littleEndian <$> readBytes buf i 2

/-- Read a `uint32_t`. -/
def readUint32 (buf : Bytes) (i : Int) : EStateM Stop σ Nat :=
  littleEndian <$> readBytes buf i 4

/-- Read a `uint64_t`. -/
def readUint64 (buf : Bytes) (i : Int) : EStateM Stop σ Nat :=
  littleEndian <$> readBytes buf i 8

/-- Build a `std::string` from a pointer: all bytes up to a NUL are read. -/
def cString (buf : Bytes) (i : Int) : EStateM Stop σ Bytes :=
  if 0 ≤ i ∧ 0 ∈ buf.drop i.toNat then pure ((buf.drop i.toNat).takeWhile fun b => b ≠ 0)
  else throw (.outOfBounds (firstOutside buf i))

/-- Overwrite bytes from an index on. -/
def writeBytes (buf : Bytes) (i : Int) (bs : Bytes) : EStateM Stop σ Bytes :=
  if bs = [] then pure buf
  else if InBounds buf i bs.length then
    pure (buf.take i.toNat ++ bs ++ buf.drop (i.toNat + bs.length))
  else throw (.outOfBounds (firstOutside buf i))

variable {buf : Bytes} {i : Int} {n : Nat} {P : σ → Prop} {E : Stop → σ → Prop}

/-- A slice has the length that was asked for. -/
theorem InBounds.length_slice (h : InBounds buf i n) : (slice buf i n).length = n := by
  obtain ⟨h0, hn⟩ := h
  simp only [slice, List.length_take, List.length_drop]
  omega

/-- A copy in bounds succeeds. -/
theorem InBounds.read_bytes (h : InBounds buf i n) :
    (readBytes buf i n : EStateM Stop σ Bytes) = pure (slice buf i n) := by
  unfold readBytes
  split
  · rename_i hn
    simp [slice, hn]
  · rfl

/-- A value read in bounds. -/
theorem InBounds.read_value (h : InBounds buf i n) :
    Triple P (littleEndian <$> readBytes buf i n : EStateM Stop σ Nat)
      (fun v s => v = littleEndian (slice buf i n) ∧ v < 256 ^ n ∧ P s) E := by
  rw [h.read_bytes]
  refine ⟨fun s hs => ?_⟩
  have hlt := little_endian_lt (slice buf i n)
  rw [h.length_slice] at hlt
  exact ⟨rfl, hlt, hs⟩

theorem InBounds.read_byte (h : InBounds buf i 1) :
    Triple P (readByte buf i : EStateM Stop σ Nat)
      (fun v s => v = littleEndian (slice buf i 1) ∧ v < 256 ^ 1 ∧ P s) E :=
  h.read_value

theorem InBounds.read_uint32 (h : InBounds buf i 4) :
    Triple P (readUint32 buf i : EStateM Stop σ Nat)
      (fun v s => v = littleEndian (slice buf i 4) ∧ v < 256 ^ 4 ∧ P s) E :=
  h.read_value

theorem InBounds.read_uint64 (h : InBounds buf i 8) :
    Triple P (readUint64 buf i : EStateM Stop σ Nat)
      (fun v s => v = littleEndian (slice buf i 8) ∧ v < 256 ^ 8 ∧ P s) E :=
  h.read_value

/-- A string with a NUL somewhere behind its start is read. -/
theorem Triple.c_string (h0 : 0 ≤ i) (hnul : 0 ∈ buf.drop i.toNat) :
    Triple P (cString buf i : EStateM Stop σ Bytes) (fun _ s => P s) E := by
  unfold cString
  rw [if_pos ⟨h0, hnul⟩]
  exact .pure fun _ h => h

end Access

end Thermald
