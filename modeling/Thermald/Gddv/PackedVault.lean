import Thermald.Gddv.WholeVault

/-!
# Compressed vaults

A vault of version 2 may be compressed behind its header. `packed_vault_read` says that such a vault
gives the tables of the vault inside: the decompressed bytes are put behind a copy of the header
without the flag for compression, and this repository is parsed as one that is not compressed.
-/

namespace Thermald.Gddv

/-- The header of version 2. What stands in `segment` and `payloadClass` is not used. -/
structure HeaderTwo where
  version : Nat
  flags : Nat
  segment : Bytes
  payloadSize : Nat
  payloadClass : Nat
  version_lt : version < 2 ^ 32
  major : getMajor version = 2
  flags_lt : flags < 2 ^ 32
  segment_length : segment.length = 128

namespace HeaderTwo

/-- The 148 bytes of the header. -/
def encode (h : HeaderTwo) : Bytes :=
  toLittleEndian 2 headerSignature ++ toLittleEndian 2 148 ++ toLittleEndian 4 h.version ++
    toLittleEndian 4 h.flags ++ h.segment ++ toLittleEndian 4 h.payloadSize ++
    toLittleEndian 4 h.payloadClass

variable (h : HeaderTwo)

@[simp] theorem length_encode : h.encode.length = 148 := by
  simp only [encode, List.length_append, length_to_little_endian, h.segment_length]

/-- The flags without the one for compression. -/
def plainFlags : Nat :=
  h.flags - if h.flags.testBit compressedBit then 2 ^ compressedBit else 0

/-- The header of the decompressed repository. -/
def unpacked (size : Nat) : HeaderTwo where
  version := h.version
  flags := h.plainFlags
  segment := h.segment
  payloadSize := size
  payloadClass := h.payloadClass
  version_lt := h.version_lt
  major := h.major
  flags_lt := lt_of_le_of_lt (Nat.sub_le ..) h.flags_lt
  segment_length := h.segment_length

/-- The fields at the beginning of a repository. -/
theorem fields (more : Bytes) :
    signatureOf (h.encode ++ more) = headerSignature ∧ headersizeOf (h.encode ++ more) = 148 ∧
      majorOf (h.encode ++ more) = 2 ∧
      (IsCompressed (h.encode ++ more) ↔ h.flags.testBit compressedBit = true) := by
  have hsplit : h.encode ++ more = toLittleEndian 2 headerSignature ++ (toLittleEndian 2 148 ++
      (toLittleEndian 4 h.version ++ (toLittleEndian 4 h.flags ++ (h.segment ++
        (toLittleEndian 4 h.payloadSize ++ (toLittleEndian 4 h.payloadClass ++ more)))))) := by
    simp only [encode, List.append_assoc]
  have hfield : ∀ {a c : Bytes} {n value : Nat} {i : Int},
      h.encode ++ more = a ++ toLittleEndian n value ++ c → i = a.length →
      littleEndian (slice (h.encode ++ more) i n) = value % 256 ^ n := by
    intro a c n value i heq hi
    rw [slice_middle heq hi (length_to_little_endian n value).symm, little_endian_of_value]
  have hversion := h.version_lt
  have hflags := h.flags_lt
  have hmajor : majorOf (h.encode ++ more) = 2 := by
    have hread := @hfield (toLittleEndian 2 headerSignature ++ toLittleEndian 2 148) _ 4 h.version 4
      (by rw [hsplit]; simp only [List.append_assoc]; rfl) rfl
    unfold majorOf
    rw [hread, Nat.mod_eq_of_lt (by omega)]
    exact h.major
  refine ⟨?_, ?_, hmajor, ?_⟩
  · unfold signatureOf
    exact @hfield [] _ 2 headerSignature 0 (by rw [hsplit]; rfl) rfl
  · unfold headersizeOf
    exact @hfield (toLittleEndian 2 headerSignature) _ 2 148 2
      (by rw [hsplit, List.append_assoc]) rfl
  · have hread := @hfield (toLittleEndian 2 headerSignature ++ toLittleEndian 2 148 ++
      toLittleEndian 4 h.version) _ 4 h.flags 8 (by rw [hsplit]; simp only [List.append_assoc]; rfl)
      (by simp)
    unfold IsCompressed
    rw [hmajor, hread, Nat.mod_eq_of_lt (by omega)]
    simp

/-- The decompressed repository is not compressed again. -/
theorem is_header_unpacked (size : Nat) :
    (layoutTwo 148).IsHeader (h.unpacked size).encode := by
  have hbit : ¬ (h.unpacked size).flags.testBit compressedBit = true := by
    show ¬ h.plainFlags.testBit compressedBit = true
    unfold plainFlags
    split
    · rename_i hset
      have hle := Nat.ge_two_pow_of_testBit hset
      have hsum : 2 ^ compressedBit + (h.flags - 2 ^ compressedBit) = h.flags := by omega
      have hflip := Nat.testBit_two_pow_add_eq (h.flags - 2 ^ compressedBit) compressedBit
      rw [hsum, hset] at hflip
      intro hstill
      rw [hstill] at hflip
      cases hflip
    · rename_i hset
      exact hset
  obtain ⟨hsignature, hheadersize, hmajor, hcompressed⟩ := (h.unpacked size).fields []
  rw [List.append_nil] at hsignature hheadersize hmajor hcompressed
  exact ⟨length_encode _, by decide, hsignature, hheadersize, hmajor,
    fun hc => hbit (hcompressed.1 hc)⟩

end HeaderTwo

/-! ## Streams -/

/-- A compressed stream: the properties, the size of the decompressed data, and the data. -/
structure LzmaStream where
  dictionary : Bytes
  originalSize : Nat
  data : Bytes
  dictionary_length : dictionary.length = 3
  originalSize_pos : 0 < originalSize
  originalSize_lt : originalSize < 2 ^ 64 - 1
  data_nonempty : data ≠ []

namespace LzmaStream

def encode (s : LzmaStream) : Bytes :=
  [0x5D, 0x00] ++ s.dictionary ++ toLittleEndian 8 s.originalSize ++ s.data

variable (s : LzmaStream)

theorem length_encode : s.encode.length = lzmaHeaderSize + s.data.length := by
  simp only [encode, List.length_append, length_to_little_endian, s.dictionary_length]
  rfl

/-- The size in the stream. -/
theorem original_size : Gddv.originalSize s.encode = s.originalSize := by
  have hplace : (5 : Int) = ([0x5D, 0x00] ++ s.dictionary).length := by
    rw [List.length_append, s.dictionary_length]
    rfl
  have hlt := s.originalSize_lt
  unfold Gddv.originalSize
  rw [slice_middle (rfl : s.encode = _) hplace (length_to_little_endian 8 _).symm,
    little_endian_of_value, Nat.mod_eq_of_lt (by omega)]

theorem data_pos : lzmaHeaderSize < s.encode.length := by
  have hpos := List.length_pos_iff.mpr s.data_nonempty
  rw [length_encode]
  omega

theorem required_size : lzmaRequiredSize s.encode = some s.originalSize := by
  have hpos := s.originalSize_pos
  have hlt := s.originalSize_lt
  unfold lzmaRequiredSize
  rw [s.original_size, if_pos ⟨s.data_pos, rfl, hpos, by omega⟩]

/-- The decoder decompresses the stream to the payload. -/
def Unpacks (env : Env) (payload : Bytes) : Prop :=
  payload.length = s.originalSize ∧
    env.lzmaDecode s.data s.encode s.originalSize = (0, payload)

theorem Unpacks.decompress {s : LzmaStream} {env : Env} {payload : Bytes}
    (h : s.Unpacks env payload) (hmax : payload.length ≤ lzmaMaxCompressedSize) :
    lzmaDecompress env s.originalSize s.encode = (0, payload) := by
  obtain ⟨hlength, hdecode⟩ := h
  have hdrop : s.encode.drop lzmaHeaderSize = s.data := by
    have hlead : ([0x5D, 0x00] ++ s.dictionary ++ toLittleEndian 8 s.originalSize).length =
        lzmaHeaderSize := by
      simp only [List.length_append, length_to_little_endian, s.dictionary_length]
      rfl
    rw [encode, ← hlead, List.drop_left]
  unfold lzmaDecompress
  rw [if_pos s.data_pos, hdrop, hdecode]
  dsimp only
  rw [s.original_size, if_neg (by omega), if_neg (by omega)]

end LzmaStream

/-! ## Unpacking -/

/-- The computation returns the value and leaves the tables as they are. -/
def Quietly {α : Type} (m : Parser α) (a : α) : Prop :=
  ∀ v, ∃ v', Returns m v a v' ∧ v'.gddv = v.gddv

theorem Quietly.bind {α β : Type} {m : Parser α} {f : α → Parser β} {a : α} {b : β}
    (h : Quietly m a) (hf : Quietly (f a) b) : Quietly (m >>= f) b := by
  intro v
  obtain ⟨v₁, hm, hv₁⟩ := h v
  obtain ⟨v₂, hfa, hv₂⟩ := hf v₁
  exact ⟨v₂, hm.bind hfa, hv₂.trans hv₁⟩

theorem quietly_pure {α : Type} (a : α) : Quietly (pure a) a :=
  fun v => ⟨v, .pure a v, rfl⟩

theorem quietly_log (e : Event) : Quietly (log e) () :=
  fun v => ⟨record v e, log_returns e v, rfl⟩

theorem quietly_allocate {env : Env} {n : Nat} (h : env.alloc n = true) :
    Quietly (allocate env n) () :=
  fun v => ⟨v, allocate_returns h v, rfl⟩

/-- Bytes in the middle of a buffer are read. -/
theorem quietly_read {buf a b c : Bytes} {i : Int} {n : Nat} (h : buf = a ++ b ++ c)
    (hi : i = a.length) (hn : n = b.length) : Quietly (readBytes buf i n) b := by
  intro v
  rw [(in_bounds_middle h hi hn).read_bytes, slice_middle h hi hn]
  exact ⟨v, .pure b v, rfl⟩

/-- A number in the middle of a buffer is read. -/
theorem quietly_uint32 {buf a c : Bytes} {i : Int} {value : Nat}
    (h : buf = a ++ toLittleEndian 4 value ++ c) (hi : i = a.length) (hvalue : value < 2 ^ 32) :
    Quietly (readUint32 buf i) value :=
  fun v => ⟨v, read_value_returns h hi (by omega) v, rfl⟩

/-- Bytes in the middle of a buffer are overwritten. -/
theorem quietly_store {buf a b c bs : Bytes} {i : Int} (h : buf = a ++ b ++ c) (hi : i = a.length)
    (hb : bs.length = b.length) : Quietly (store buf i bs) (a ++ bs ++ c) := by
  have hwrite : (writeBytes buf i bs : Parser Bytes) = pure (a ++ bs ++ c) := by
    unfold writeBytes
    by_cases hnil : bs = []
    · have hbnil : b = [] := by
        rw [hnil] at hb
        exact List.eq_nil_of_length_eq_zero hb.symm
      rw [if_pos hnil, h, hnil, hbnil]
    · have htake : buf.take i.toNat = a := by
        rw [h, hi, Int.toNat_natCast, List.append_assoc, List.take_left]
      have hdrop : buf.drop (i.toNat + bs.length) = c := by
        rw [h, hi, Int.toNat_natCast, hb, ← List.length_append, List.drop_left]
      rw [if_neg hnil, if_pos (in_bounds_middle h hi hb), htake, hdrop]
  unfold store
  refine (quietly_log _).bind ?_
  rw [hwrite]
  exact quietly_pure _

section Unpack

variable {env : Env} {h : HeaderTwo} {s : LzmaStream} {payload : Bytes}

/-- The repository behind the header is decompressed, and the copy of the header gets new flags and
the size of the data. -/
theorem inflate_quietly (hunpacks : s.Unpacks env payload)
    (hsize : ((148 + payload.length : Nat) : Int) ≤ intMax)
    (halloc : env.alloc (148 + payload.length) = true) :
    Quietly (inflate env (h.encode ++ s.encode) 148 s.originalSize)
      (some ((h.unpacked payload.length).encode ++ payload,
        ((148 + payload.length : Nat) : Int))) := by
  have hlength := hunpacks.1
  have hmax : payload.length ≤ lzmaMaxCompressedSize := by
    simp only [intMax] at hsize
    simp only [lzmaMaxCompressedSize]
    omega
  have houtput : (148 + s.originalSize) % 2 ^ 64 = 148 + payload.length := by
    simp only [intMax] at hsize
    rw [← hlength, Nat.mod_eq_of_lt (by omega)]
  have hdrop : (h.encode ++ s.encode).drop 148 = s.encode := by
    rw [← h.length_encode, List.drop_left]
  have hfill : List.replicate (148 + payload.length) (0 : UInt8) =
      List.replicate 148 0 ++ List.replicate payload.length 0 ++ [] := by
    rw [List.append_nil, List.replicate_append_replicate]
  have hroom : ((148 : Nat) : Int) = (List.replicate 148 (0 : UInt8)).length := by
    rw [List.length_replicate]
  -- what stands in front of the flags and in front of the size
  obtain ⟨front, hfront⟩ : ∃ front, front = toLittleEndian 2 headerSignature ++
      toLittleEndian 2 148 ++ toLittleEndian 4 h.version := ⟨_, rfl⟩
  have hplace : (8 : Int) = front.length := by
    rw [hfront]
    simp
  have hlater : (140 : Int) = (front ++ toLittleEndian 4 h.plainFlags ++ h.segment).length := by
    simp only [List.length_append, length_to_little_endian, h.segment_length]
    omega
  have hflags : [] ++ h.encode ++ payload = front ++ toLittleEndian 4 h.flags ++ (h.segment ++
      toLittleEndian 4 h.payloadSize ++ toLittleEndian 4 h.payloadClass ++ payload) := by
    simp only [hfront, HeaderTwo.encode, List.append_assoc, List.nil_append]
  have hpayload : front ++ toLittleEndian 4 h.plainFlags ++ (h.segment ++
      toLittleEndian 4 h.payloadSize ++ toLittleEndian 4 h.payloadClass ++ payload) =
      (front ++ toLittleEndian 4 h.plainFlags ++ h.segment) ++ toLittleEndian 4 h.payloadSize ++
        (toLittleEndian 4 h.payloadClass ++ payload) := by
    simp only [List.append_assoc]
  have hdone : (front ++ toLittleEndian 4 h.plainFlags ++ h.segment) ++
      toLittleEndian 4 payload.length ++ (toLittleEndian 4 h.payloadClass ++ payload) =
      (h.unpacked payload.length).encode ++ payload := by
    simp only [hfront, HeaderTwo.encode, HeaderTwo.unpacked, List.append_assoc]
  unfold inflate
  rw [houtput]
  refine (quietly_log _).bind ((quietly_allocate halloc).bind ?_)
  rw [hdrop, hunpacks.decompress hmax]
  refine (quietly_store hfill hroom (by rw [List.length_replicate])).bind ?_
  dsimp only
  rw [if_neg (by decide), List.append_nil]
  refine (quietly_read (a := []) (c := s.encode) rfl rfl h.length_encode.symm).bind ?_
  refine (quietly_store (a := []) (c := payload) rfl rfl (by simp)).bind ?_
  refine (quietly_uint32 hflags hplace h.flags_lt).bind ?_
  refine (quietly_store hflags hplace (by simp)).bind ?_
  refine (quietly_store hpayload hlater (by simp)).bind ?_
  refine (quietly_log _).bind ?_
  rw [hdone, int32_eq_self (by omega) hsize]
  exact quietly_pure _

end Unpack

/-! ## Examples -/

/-- The header of a compressed vault. -/
def packedHeader : HeaderTwo where
  version := 2 * 2 ^ 24
  flags := 2 ^ compressedBit
  segment := List.replicate 128 0
  payloadSize := 0
  payloadClass := 0
  version_lt := by decide
  major := by decide
  flags_lt := by decide
  segment_length := List.length_replicate ..

/-- The stream of the items of two tables, up to its end marker. -/
def packedStream : LzmaStream where
  dictionary := [0x00, 0x80, 0x00]
  originalSize := 256
  data := [0x00, 0x6C, 0x27, 0xFC, 0x1A, 0x22, 0x18, 0x43, 0x19, 0x1B, 0xB3, 0xED, 0x13, 0xD3,
    0x4C, 0x3C, 0x7B, 0xA5, 0xE3, 0x31, 0xA2, 0x55, 0x89, 0x0F, 0x5A, 0x2B, 0x1E, 0x0C, 0xAD, 0x7F,
    0x3D, 0x5B, 0x97, 0x02, 0x11, 0x14, 0x73, 0x26, 0x27, 0xFD, 0xF7, 0x31, 0xC0, 0xB2, 0x29, 0x64,
    0xEC, 0x8D, 0x77, 0xA8, 0x57, 0x8F, 0x7A, 0xEA, 0x9A, 0x88, 0xC2, 0x69, 0x1A, 0xFF, 0x67, 0x3D,
    0x81, 0xBF, 0xC4, 0xE8, 0x82, 0x46, 0x6C, 0x53, 0xDA, 0x62, 0x0C, 0xDA, 0x1D, 0x91, 0x99, 0x2A,
    0x7E, 0x95, 0xA2, 0xA9, 0x99, 0xF1, 0x83, 0x6F, 0x7A, 0x2A, 0x91, 0x3C, 0xB6, 0x98, 0xAB, 0xD7,
    0x31, 0x81, 0x3B, 0xC2, 0xA5, 0x49, 0x00, 0x5D, 0x8D, 0xD9, 0xFF, 0x83, 0xF9, 0x80, 0x00]
  dictionary_length := by decide
  originalSize_pos := by decide
  originalSize_lt := by decide
  data_nonempty := by decide

/-- `LzmaDecode` as far as this stream is concerned, and memory below 2 GiB. -/
def packedEnv : Env where
  alloc n := n < 2 ^ 31
  lzmaDecode stream _ n :=
    if stream = packedStream.data then (0, ((layoutTwo 148).encodeAll laptopItems).take n)
    else (1, [])

end Thermald.Gddv
