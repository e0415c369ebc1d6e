import Thermald.Adaptive.Engine
import Thermald.Gddv.Psvt

/-!
# Policy support

The IDSP table of a vault lists the policies that the platform supports, each by a UUID of 16 bytes.
The decoder prints a UUID in upper case, with its first three groups reversed, and `search_idsp`
compares the first 36 characters of what it has printed with a given text.

`search_idsp_iff` says that a search for a UUID succeeds exactly if the first 16 bytes of some entry
encode it. The text and the bytes determine each other (`idsp_string_eq_iff`), and the decoder walks
through entries of any lengths without losing one (`parse_idsp_returns`).
-/

namespace Thermald.Gddv

/-! ## Hexadecimal digits -/

/-- A hexadecimal digit in upper case. -/
def IsUpperHex (c : UInt8) : Prop :=
  48 ≤ c ∧ c ≤ 57 ∨ 65 ≤ c ∧ c ≤ 70

/-- The value of an upper-case hexadecimal digit. -/
def hexValue (c : UInt8) : Nat :=
  if c ≤ 57 then c.toNat - 48 else c.toNat - 55

/-- Pairs of digits as bytes. -/
def hexBytes : Bytes → Bytes
  | high :: low :: rest => UInt8.ofNat (16 * hexValue high + hexValue low) :: hexBytes rest
  | _ => []

/-- Bytes as upper-case digits. -/
def upperHex (bs : Bytes) : Bytes :=
  (hexString bs).map toUpper

/-- The digit of a value has this value. -/
theorem hex_value_digit : ∀ n < 16, hexValue (toUpper (hexDigit n)) = n := by
  decide

/-- The digit of the value of a digit is this digit. -/
theorem digit_hex_value {c : UInt8} (h : IsUpperHex c) : toUpper (hexDigit (hexValue c)) = c := by
  have hall : ∀ n < 256, IsUpperHex (UInt8.ofNat n) →
      toUpper (hexDigit (hexValue (UInt8.ofNat n))) = UInt8.ofNat n := by
    unfold IsUpperHex
    decide +kernel
  have hc := hall c.toNat c.toNat_lt
  rw [UInt8.ofNat_toNat] at hc
  exact hc h

/-- The value of a digit is below 16. -/
theorem hex_value_lt {c : UInt8} (h : IsUpperHex c) : hexValue c < 16 := by
  unfold IsUpperHex at h
  simp only [UInt8.le_iff_toNat_le, UInt8.reduceToNat] at h
  unfold hexValue
  simp only [UInt8.le_iff_toNat_le, UInt8.reduceToNat]
  split <;> omega

theorem upper_hex_cons (b : UInt8) (bs : Bytes) :
    upperHex (b :: bs) =
      toUpper (hexDigit (b.toNat / 16)) :: toUpper (hexDigit (b.toNat % 16)) :: upperHex bs :=
  rfl

theorem length_upper_hex (bs : Bytes) : (upperHex bs).length = 2 * bs.length := by
  induction bs with
  | nil => rfl
  | cons b bs ih =>
      rw [upper_hex_cons, List.length_cons, List.length_cons, List.length_cons, ih]
      omega

/-- The bytes of the digits of some bytes. -/
theorem hex_bytes_upper_hex (bs : Bytes) : hexBytes (upperHex bs) = bs := by
  induction bs with
  | nil => rfl
  | cons b bs ih =>
      have hb := b.toNat_lt
      rw [upper_hex_cons, hexBytes, hex_value_digit _ (by omega), hex_value_digit _ (by omega), ih,
        Nat.div_add_mod, UInt8.ofNat_toNat]

/-- The digits of the bytes of some digits. -/
theorem upper_hex_hex_bytes {n : Nat} {s : Bytes} (hlen : s.length = 2 * n)
    (hs : ∀ c ∈ s, IsUpperHex c) : upperHex (hexBytes s) = s ∧ (hexBytes s).length = n := by
  induction n generalizing s with
  | zero =>
      obtain rfl := List.length_eq_zero_iff.mp hlen
      exact ⟨rfl, rfl⟩
  | succ n ih =>
      match s, hlen with
      | high :: low :: rest, hlen =>
          have hhigh := hs high List.mem_cons_self
          have hlow := hs low (List.mem_cons_of_mem _ List.mem_cons_self)
          obtain ⟨htext, hcount⟩ := ih (s := rest) (by simp only [List.length_cons] at hlen; omega)
            fun c hc => hs c (List.mem_cons_of_mem _ (List.mem_cons_of_mem _ hc))
          have hvalue : (UInt8.ofNat (16 * hexValue high + hexValue low)).toNat =
              16 * hexValue high + hexValue low := by
            have h₁ := hex_value_lt hhigh
            have h₂ := hex_value_lt hlow
            rw [UInt8.toNat_ofNat']
            omega
          have hquot : (16 * hexValue high + hexValue low) / 16 = hexValue high := by
            have h₂ := hex_value_lt hlow
            omega
          have hrem : (16 * hexValue high + hexValue low) % 16 = hexValue low := by
            have h₂ := hex_value_lt hlow
            omega
          rw [hexBytes, upper_hex_cons, hvalue, hquot, hrem, digit_hex_value hhigh,
            digit_hex_value hlow, htext, List.length_cons, hcount]
          exact ⟨rfl, rfl⟩

/-! ## UUIDs -/

/-- The text of a UUID: groups of 8, 4, 4, 4 and 12 upper-case digits with dashes between them. -/
structure Guid where
  timeLow : Bytes
  timeMid : Bytes
  timeHigh : Bytes
  clock : Bytes
  node : Bytes
  timeLow_length : timeLow.length = 8
  timeMid_length : timeMid.length = 4
  timeHigh_length : timeHigh.length = 4
  clock_length : clock.length = 4
  node_length : node.length = 12
  digits : ∀ c ∈ timeLow ++ timeMid ++ timeHigh ++ clock ++ node, IsUpperHex c

namespace Guid

/-- The 36 characters. -/
def text (u : Guid) : Bytes :=
  u.timeLow ++ ascii "-" ++ u.timeMid ++ ascii "-" ++ u.timeHigh ++ ascii "-" ++ u.clock ++
    ascii "-" ++ u.node

/-- The mixed-endian encoding in 16 bytes: the first three groups have their least significant byte
first. -/
def encode (u : Guid) : Bytes :=
  (hexBytes u.timeLow).reverse ++ (hexBytes u.timeMid).reverse ++ (hexBytes u.timeHigh).reverse ++
    hexBytes u.clock ++ hexBytes u.node

/-- The text as a string. -/
def string (u : Guid) : String :=
  String.ofList (u.text.map fun c => Char.ofNat c.toNat)

theorem ascii_string (u : Guid) : ascii u.string = u.text := by
  unfold ascii string
  rw [String.toList_ofList, List.map_map]
  refine (List.map_congr_left fun c _ => ?_).trans (List.map_id _)
  have hall : ∀ n < 256, (Char.ofNat n).toNat = n := by decide +kernel
  rw [Function.comp_apply, hall _ c.toNat_lt, UInt8.ofNat_toNat]
  rfl

end Guid

/-- Digits are those of some bytes exactly if these are the bytes of the digits. -/
theorem upper_hex_eq_iff {n : Nat} {x s : Bytes} (hlen : s.length = 2 * n)
    (hs : ∀ c ∈ s, IsUpperHex c) : upperHex x = s ↔ x = hexBytes s := by
  constructor
  · rintro rfl
    exact (hex_bytes_upper_hex x).symm
  · rintro rfl
    exact (upper_hex_hex_bytes hlen hs).1

/-- Two concatenations whose first parts have the same length. -/
theorem append_eq_append_iff_of_length {x y u v : Bytes} (h : x.length = y.length) :
    x ++ u = y ++ v ↔ x = y ∧ u = v := by
  constructor
  · exact fun heq => List.append_inj heq h
  · rintro ⟨rfl, rfl⟩
    rfl

/-- What the decoder prints, group by group. -/
theorem idsp_string_eq (b : Bytes) :
    idspString b = upperHex (slice b 0 4).reverse ++ ascii "-" ++ upperHex (slice b 4 2).reverse ++
      ascii "-" ++ upperHex (slice b 6 2).reverse ++ ascii "-" ++ upperHex (slice b 8 2) ++
      ascii "-" ++ upperHex (slice b 10 6) ++ ascii "\n" := by
  have hdash : (ascii "-").map toUpper = ascii "-" := by decide
  have hnewline : (ascii "\n").map toUpper = ascii "\n" := by decide
  unfold idspString
  simp only [List.map_append, hdash, hnewline, upperHex]

/-- A range of the bytes has its length. -/
theorem slice_length {b : Bytes} (hb : b.length = 16) {i n : Nat} (h : i + n ≤ 16) :
    (slice b i n).length = n := by
  simp only [slice, List.length_take, List.length_drop, Int.toNat_natCast]
  omega

/-- The bytes are their five parts. -/
theorem sixteen_parts {b : Bytes} (hb : b.length = 16) :
    b = slice b 0 4 ++ slice b 4 2 ++ slice b 6 2 ++ slice b 8 2 ++ slice b 10 6 := by
  have hfrom (i n : Nat) : slice b i n ++ b.drop (i + n) = b.drop i := by
    unfold slice
    rw [Int.toNat_natCast, ← List.drop_drop, List.take_append_drop]
  have h0 : slice b 0 4 ++ b.drop 4 = b := hfrom 0 4
  have h4 : slice b 4 2 ++ b.drop 6 = b.drop 4 := hfrom 4 2
  have h6 : slice b 6 2 ++ b.drop 8 = b.drop 6 := hfrom 6 2
  have h8 : slice b 8 2 ++ b.drop 10 = b.drop 8 := hfrom 8 2
  have h10 : slice b 10 6 ++ b.drop 16 = b.drop 10 := hfrom 10 6
  rw [List.drop_eq_nil_of_le (by omega : b.length ≤ 16), List.append_nil] at h10
  rw [List.append_assoc, List.append_assoc, List.append_assoc, h10, h8, h6, h4, h0]

section Parts

variable {b₁ b₂ b₃ b₄ b₅ : Bytes} (h₁ : b₁.length = 4) (h₂ : b₂.length = 2) (h₃ : b₃.length = 2)
  (h₄ : b₄.length = 2)

include h₁ h₂ h₃ h₄

/-- The parts in hexadecimal digits are those of a UUID. -/
theorem parts_text_iff (u : Guid) :
    upperHex b₁.reverse ++ ascii "-" ++ upperHex b₂.reverse ++ ascii "-" ++
        upperHex b₃.reverse ++ ascii "-" ++ upperHex b₄ ++ ascii "-" ++ upperHex b₅ = u.text ↔
      upperHex b₁.reverse = u.timeLow ∧ upperHex b₂.reverse = u.timeMid ∧
        upperHex b₃.reverse = u.timeHigh ∧ upperHex b₄ = u.clock ∧ upperHex b₅ = u.node := by
  unfold Guid.text
  simp only [List.append_assoc]
  rw [append_eq_append_iff_of_length, List.append_right_inj, append_eq_append_iff_of_length,
    List.append_right_inj, append_eq_append_iff_of_length, List.append_right_inj,
    append_eq_append_iff_of_length, List.append_right_inj]
  · rw [length_upper_hex, h₄, u.clock_length]
  · rw [length_upper_hex, List.length_reverse, h₃, u.timeHigh_length]
  · rw [length_upper_hex, List.length_reverse, h₂, u.timeMid_length]
  · rw [length_upper_hex, List.length_reverse, h₁, u.timeLow_length]

/-- The parts encode a UUID. -/
theorem parts_encode_iff (u : Guid) : b₁ ++ b₂ ++ b₃ ++ b₄ ++ b₅ = u.encode ↔
    b₁.reverse = hexBytes u.timeLow ∧ b₂.reverse = hexBytes u.timeMid ∧
      b₃.reverse = hexBytes u.timeHigh ∧ b₄ = hexBytes u.clock ∧ b₅ = hexBytes u.node := by
  have k₁ := (upper_hex_hex_bytes (n := 4) u.timeLow_length
    fun c hc => u.digits c (by simp [hc])).2
  have k₂ := (upper_hex_hex_bytes (n := 2) u.timeMid_length
    fun c hc => u.digits c (by simp [hc])).2
  have k₃ := (upper_hex_hex_bytes (n := 2) u.timeHigh_length
    fun c hc => u.digits c (by simp [hc])).2
  have k₄ := (upper_hex_hex_bytes (n := 2) u.clock_length
    fun c hc => u.digits c (by simp [hc])).2
  unfold Guid.encode
  simp only [List.append_assoc, List.reverse_eq_iff]
  rw [append_eq_append_iff_of_length, append_eq_append_iff_of_length,
    append_eq_append_iff_of_length, append_eq_append_iff_of_length]
  · rw [h₄, k₄]
  · rw [h₃, List.length_reverse, k₃]
  · rw [h₂, List.length_reverse, k₂]
  · rw [h₁, List.length_reverse, k₁]

end Parts

/-- The first 36 characters of what the decoder prints are the text of a UUID exactly if the bytes
encode the UUID. -/
theorem idsp_string_eq_iff {b : Bytes} (hb : b.length = 16) (u : Guid) :
    (idspString b).take 36 = u.text ↔ b = u.encode := by
  have h₁ : (slice b 0 4).length = 4 := slice_length hb (by decide)
  have h₂ : (slice b 4 2).length = 2 := slice_length hb (by decide)
  have h₃ : (slice b 6 2).length = 2 := slice_length hb (by decide)
  have h₄ : (slice b 8 2).length = 2 := slice_length hb (by decide)
  have h₅ : (slice b 10 6).length = 6 := slice_length hb (by decide)
  have hparts := sixteen_parts hb
  have hdash : (ascii "-").length = 1 := by decide
  rw [idsp_string_eq, List.take_left']
  · generalize slice b 0 4 = b₁ at *
    generalize slice b 4 2 = b₂ at *
    generalize slice b 6 2 = b₃ at *
    generalize slice b 8 2 = b₄ at *
    generalize slice b 10 6 = b₅ at *
    have g₁ := upper_hex_eq_iff (x := b₁.reverse) (n := 4) u.timeLow_length
      fun c hc => u.digits c (by simp [hc])
    have g₂ := upper_hex_eq_iff (x := b₂.reverse) (n := 2) u.timeMid_length
      fun c hc => u.digits c (by simp [hc])
    have g₃ := upper_hex_eq_iff (x := b₃.reverse) (n := 2) u.timeHigh_length
      fun c hc => u.digits c (by simp [hc])
    have g₄ := upper_hex_eq_iff (x := b₄) (n := 2) u.clock_length
      fun c hc => u.digits c (by simp [hc])
    have g₅ := upper_hex_eq_iff (x := b₅) (n := 6) u.node_length
      fun c hc => u.digits c (by simp [hc])
    rw [hparts, parts_text_iff h₁ h₂ h₃ h₄, parts_encode_iff h₁ h₂ h₃ h₄, g₁, g₂, g₃, g₄, g₅]
  · simp only [List.length_append, length_upper_hex, List.length_reverse, h₁, h₂, h₃, h₄, h₅, hdash]

/-! ## The table -/

/-- An entry of the table: the tag, of which the first byte is 7, the length of the content, and the
content, which begins with the UUID. -/
structure IdspEntry where
  tag : Bytes
  content : Bytes
  tag_length : tag.length = 3
  content_length : 16 ≤ content.length

/-- The bytes of an entry. -/
def IdspEntry.encode (e : IdspEntry) : Bytes :=
  7 :: e.tag ++ toLittleEndian 8 e.content.length ++ e.content

/-- The bytes of a table. -/
def idspTable (entries : List IdspEntry) : Bytes :=
  entries.flatMap IdspEntry.encode

theorem IdspEntry.length_encode (e : IdspEntry) : e.encode.length = 12 + e.content.length := by
  simp only [encode, List.length_append, List.length_cons, length_to_little_endian, e.tag_length]

/-- A number begins with its lower part. -/
theorem to_little_endian_add (m n value : Nat) :
    toLittleEndian (m + n) value =
      toLittleEndian m value ++ toLittleEndian n (value / 256 ^ m) := by
  induction m generalizing value with
  | zero => rw [Nat.zero_add, Nat.pow_zero, Nat.div_one, toLittleEndian, List.nil_append]
  | succ m ih =>
      rw [Nat.succ_add, toLittleEndian, toLittleEndian, ih, Nat.div_div_eq_div_mul, ← Nat.pow_succ',
        List.cons_append]

/-- The offsets within an entry are not narrowed. -/
theorem idsp_offsets {o n : Nat} {length : Int} (hlen : o + (12 + n : Nat) ≤ length)
    (hmax : length ≤ intMax) :
    int32 (length - o) = length - o ∧ int32 (o + 4) = (o + 4 : Nat) ∧
      int32 ((o + 4 : Nat) + 8) = (o + 12 : Nat) ∧
      int32 (int32 (length - (o + 4 : Nat)) - 8) = length - o - 12 ∧ int32 n = n ∧
      int32 ((o + 12 : Nat) + n) = (o + (12 + n) : Nat) := by
  have hself : ∀ x : Int, 0 ≤ x → x ≤ length → int32 x = x := fun x h0 hx =>
    int32_eq_self (by omega) (hx.trans hmax)
  have h4 : ((o + 4 : Nat) : Int) + 8 = (o + 12 : Nat) := by omega
  have hn : ((o + 12 : Nat) : Int) + n = (o + (12 + n) : Nat) := by omega
  have hleft : length - (o + 4 : Nat) - 8 = length - o - 12 := by omega
  rw [h4, hn, hself (length - (o + 4 : Nat)) (by omega) (by omega), hleft]
  exact ⟨hself _ (by omega) (by omega), hself _ (by omega) (by omega),
    hself _ (by omega) (by omega), hself _ (by omega) (by omega), hself _ (by omega) (by omega),
    hself _ (by omega) (by omega)⟩

/-- The checks of a pass accept a length that fits. -/
theorem idsp_checks {o n : Nat} {length : Int} (hlen : o + (12 + n : Nat) ≤ length)
    (hmax : length ≤ intMax) (hn : 16 ≤ n) :
    n < 256 ^ 4 ∧ ¬ length - o < 28 ∧ ¬ ((n : Int) < 16 ∨ length - o - 12 < (n : Int)) := by
  have hbound : intMax = 2147483647 := rfl
  rw [hbound] at hmax
  exact ⟨by omega, by omega, by omega⟩

/-- A pass of the loop reads an entry and moves behind it. -/
theorem parse_idsp_entry_returns {e : IdspEntry} {buf before rest : Bytes} {length : Int}
    (hbuf : buf = before ++ e.encode ++ rest) (hlen : before.length + e.encode.length ≤ length)
    (hmax : length ≤ intMax) (c : Cursor) :
    Returns (parseIdspEntry buf length (some before.length)) c
      (some ((before.length + e.encode.length : Nat) : Int))
      { c with gddv := { c.gddv with
        idsps := c.gddv.idsps ++ [idspString (e.content.take 16)] } } := by
  have hsize := e.length_encode
  have hcontent := e.content_length
  have htag := e.tag_length
  rw [hsize] at hlen ⊢
  have hlead : (before ++ 7 :: e.tag).length = before.length + 4 := by
    simp only [List.length_append, List.length_cons, htag]
  obtain ⟨hsmall, hroom, hfits⟩ := idsp_checks hlen hmax hcontent
  obtain ⟨hrest, h4, h12, hleft, hvalue, hnext⟩ := idsp_offsets hlen hmax
  have hfirst : Returns (readByte buf before.length) c 7 c := by
    have hsplit : buf = before ++ toLittleEndian 1 7 ++
        (e.tag ++ toLittleEndian 8 e.content.length ++ e.content ++ rest) := by
      rw [hbuf, IdspEntry.encode]
      simp [toLittleEndian]
    exact read_value_returns hsplit rfl (by decide) c
  have hlength : Returns (readUint32 buf (before.length + 4 : Nat)) c e.content.length c := by
    have hsplit : buf = (before ++ 7 :: e.tag) ++ toLittleEndian 4 e.content.length ++
        (toLittleEndian 4 (e.content.length / 256 ^ 4) ++ e.content ++ rest) := by
      rw [hbuf, IdspEntry.encode, to_little_endian_add 4 4]
      simp only [List.append_assoc, List.cons_append]
    exact read_value_returns hsplit (by rw [hlead]) hsmall c
  have hcontents : (readBytes buf (before.length + 12 : Nat) 16 : Decoder Bytes) =
      pure (e.content.take 16) := by
    have hsplit : buf = (before ++ (7 :: e.tag ++ toLittleEndian 8 e.content.length)) ++
        e.content.take 16 ++ (e.content.drop 16 ++ rest) := by
      rw [hbuf, IdspEntry.encode]
      have hjoin := List.take_append_drop 16 e.content
      simp only [List.append_assoc]
      rw [← List.append_assoc (e.content.take 16), hjoin]
    have hplace : ((before.length + 12 : Nat) : Int) =
        (before ++ (7 :: e.tag ++ toLittleEndian 8 e.content.length)).length := by
      simp only [List.length_append, List.length_cons, length_to_little_endian, htag]
    have hcount : 16 = (e.content.take 16).length := by
      rw [List.length_take, Nat.min_eq_left hcontent]
    rw [(in_bounds_middle hsplit hplace hcount).read_bytes, slice_middle hsplit hplace hcount]
  unfold parseIdspEntry
  dsimp only
  rw [hrest, if_neg hroom]
  refine hfirst.bind ?_
  rw [if_neg (by decide), h4, hleft, h12]
  refine hlength.bind ?_
  rw [hvalue, if_neg hfits, hcontents, pure_bind, hnext]
  exact (Returns.modify _ c).bind (.pure _ _)

/-- The loop walks through the entries that are left. -/
theorem idsp_loop_returns {entries : List IdspEntry} {buf before rest : Bytes} {length : Int}
    (hbuf : buf = before ++ idspTable entries ++ rest)
    (hlen : length = (before.length + (idspTable entries).length : Nat)) (hmax : length ≤ intMax)
    {fuel : Nat} (hfuel : entries.length ≤ fuel) (c : Cursor) :
    Returns (loopM .outOfFuel
        (fun (i : Option Int) _ => (i.map fun i => decide (i < length)).getD false)
        (parseIdspEntry buf length) fuel (some before.length)) c (some length)
      { c with gddv := { c.gddv with
        idsps := c.gddv.idsps ++ entries.map fun e => idspString (e.content.take 16) } } := by
  induction entries generalizing before fuel c with
  | nil =>
      have hend : length = before.length := by
        rw [hlen]
        rfl
      rw [List.map_nil, List.append_nil, hend]
      exact .loop_done (decide_eq_false (lt_irrefl _))
  | cons e entries ih =>
      obtain ⟨fuel, rfl⟩ : ∃ n, fuel = n + 1 := ⟨fuel - 1, by simp at hfuel; omega⟩
      have htable : idspTable (e :: entries) = e.encode ++ idspTable entries := rfl
      have hsize := e.length_encode
      rw [htable] at hbuf
      rw [htable, List.length_append] at hlen
      have hthis : buf = before ++ e.encode ++ (idspTable entries ++ rest) := by
        simp only [hbuf, List.append_assoc]
      have hothers : buf = (before ++ e.encode) ++ idspTable entries ++ rest := by
        simp only [hbuf, List.append_assoc]
      have hfuel : entries.length ≤ fuel := by simpa using hfuel
      have hstep := parse_idsp_entry_returns hthis (by omega) hmax c
      have hloop := ih hothers (by rw [hlen, List.length_append]; omega) hfuel
        { c with gddv := { c.gddv with
          idsps := c.gddv.idsps ++ [idspString (e.content.take 16)] } }
      rw [List.length_append] at hloop
      simp only [List.append_assoc, List.singleton_append] at hloop
      refine Eq.trans (Returns.loop_eq (decide_eq_true ?_) hstep) hloop
      omega

/-- The decoder stores the text of the UUID of each entry, in this order. -/
theorem parse_idsp_returns (entries : List IdspEntry) (rest : Bytes)
    (hmax : ((idspTable entries).length : Int) ≤ intMax) {fuel : Nat}
    (hfuel : entries.length ≤ fuel) (c : Cursor) :
    Returns (parseIdsp fuel (idspTable entries ++ rest) (idspTable entries).length) c 0
      { c with gddv := { c.gddv with
        idsps := c.gddv.idsps ++ entries.map fun e => idspString (e.content.take 16) } } := by
  unfold parseIdsp
  rw [if_neg (by omega)]
  have hbuf : idspTable entries ++ rest = [] ++ idspTable entries ++ rest := rfl
  have hlen : ((idspTable entries).length : Int) =
      (([] : Bytes).length + (idspTable entries).length : Nat) := by
    simp
  have hloop := idsp_loop_returns hbuf hlen hmax hfuel c
  exact hloop.bind (.pure _ _)

/-- After the table has been decoded, a search for a UUID succeeds exactly if the first 16 bytes of
some entry encode it. -/
theorem search_idsp_iff (entries : List IdspEntry) (rest : Bytes)
    (hsize : (idspTable entries).length < 2 ^ 31) {fuel : Nat} (hfuel : entries.length ≤ fuel)
    {c : Cursor} (hempty : c.gddv.idsps = []) (u : Guid) :
    ∃ c', Returns (parseIdsp fuel (idspTable entries ++ rest) (idspTable entries).length) c 0 c' ∧
      (c'.gddv.searchIdsp u.string = true ↔ ∃ e ∈ entries, e.content.take 16 = u.encode) := by
  refine ⟨_, parse_idsp_returns entries rest (by simp only [intMax]; omega) hfuel c, ?_⟩
  unfold searchIdsp
  rw [hempty, List.nil_append, u.ascii_string, List.any_map, List.any_eq_true]
  refine exists_congr fun e => and_congr_right fun _ => ?_
  have hlen : (e.content.take 16).length = 16 := by
    have hcontent := e.content_length
    rw [List.length_take]
    omega
  rw [Function.comp_apply, decide_eq_true_eq]
  exact idsp_string_eq_iff hlen u

/-- The UUID of the first version of the adaptive performance policy. -/
def adaptiveGuid : Guid where
  timeLow := ascii "63BE270F"
  timeMid := ascii "1C11"
  timeHigh := ascii "48FD"
  clock := ascii "A6F7"
  node := ascii "3AF253FF3E2D"
  timeLow_length := by decide
  timeMid_length := by decide
  timeHigh_length := by decide
  clock_length := by decide
  node_length := by decide
  digits := by
    unfold IsUpperHex
    decide +kernel

/-- An entry with this UUID. -/
def adaptiveEntry : IdspEntry where
  tag := [0, 0, 0]
  content := [0x0F, 0x27, 0xBE, 0x63, 0x11, 0x1C, 0xFD, 0x48, 0xA6, 0xF7, 0x3A, 0xF2, 0x53, 0xFF,
    0x3E, 0x2D]
  tag_length := by decide
  content_length := by decide

/-- The UUID is found in a table with this entry only. -/
theorem adaptive_guid_found :
    ∃ c', Returns (parseIdsp 1 (idspTable [adaptiveEntry] ++ []) (idspTable [adaptiveEntry]).length)
        ⟨0, init⟩ 0 c' ∧ c'.gddv.searchIdsp adaptiveGuid.string = true := by
  obtain ⟨c', hreturns, hiff⟩ :=
    search_idsp_iff [adaptiveEntry] [] (by decide) (show [adaptiveEntry].length ≤ 1 by decide)
      (c := ⟨0, init⟩) rfl adaptiveGuid
  exact ⟨c', hreturns, hiff.mpr ⟨adaptiveEntry, List.mem_singleton_self _, by decide⟩⟩

end Thermald.Gddv
