import Thermald.Gddv.Buffer
import Thermald.Lib.ShiftRegister

/-!
# The name of a data vault file

A data vault may be kept in a file whose name is made of four checksums, one for each of four DMI
strings of the platform. The daemon computes the name in `format_dv_filename`; the program
`format_dv_name` prints it, so that a vault can be stored where the daemon looks for it. Both have a
copy of `crc32`. The daemon's copy reads the string through `char`, which is signed, so a byte from
`0x80` on is added to the register with its upper 24 bits set; the program's copy reads it through
`unsigned char`. The program also reads at most 255 bytes of a string.

The register is linear, so the two checksums differ by what the sign extensions alone leave in it
(`crc32_eq_xor`): they are equal exactly if that is zero, and the two names are the same exactly if
for each string the sign extensions leave what the bytes that the program does not read leave
(`crc32_and_name_agree_iff`).
-/

namespace Thermald.Gddv

open ShiftRegister

/-- The polynomial of `crc32`, the constant `0xedb88320` of the inner loop. -/
def crcTaps : BitVec 32 := 0xedb88320#32

/-- `cthd_gddv::crc32`: `crc ^= *p++` and eight shifts for each byte. `*p` is a `char`; it is
promoted to `int`, so its sign is extended. -/
def crc32 (p : Bytes) (len : BitVec 32) : BitVec 32 :=
  feed crcTaps 8 0#32 ((p.take len.toNat).map fun c => c.toBitVec.signExtend 32)

/-- `getline` on the content of a file: the bytes before the first newline. An empty file gives no
line. -/
def getline : Bytes → Option Bytes
  | [] => none
  | content => some (content.takeWhile (· ≠ 10))

/-- The four files under `/sys/class/dmi/id`; `none` is a file that cannot be opened. -/
structure DmiFiles where
  sysVendor : Option Bytes
  productName : Option Bytes
  productFamily : Option Bytes
  productSku : Option Bytes

/-- `crc32(s.c_str(), s.length())`, written in decimal. -/
def decimal (crc : BitVec 32) : List Char :=
  Nat.toDigits 10 crc.toNat

/-- The part of the name that the daemon and the program share, from the four checksums. -/
def dataVaultName (sysVendor productFamily productName productSku : BitVec 32) : List Char :=
  "dtt_data_vault_".toList ++ (decimal sysVendor ++ '_' :: (decimal productFamily ++
    '_' :: (decimal productName ++ '_' :: (decimal productSku ++ ".bin".toList))))

/-- `crc32` of a whole string. -/
def crc32String (s : Bytes) : BitVec 32 :=
  crc32 s (BitVec.ofNat 32 s.length)

/-- `format_dv_filename`: `none` stands for `THD_ERROR`. -/
def formatDvFilename (dmi : DmiFiles) : Option (List Char) := do
  let sysVendor ← dmi.sysVendor.bind getline
  let productName ← dmi.productName.bind getline
  let productFamily ← dmi.productFamily.bind getline
  let productSku ← dmi.productSku.bind getline
  pure ("/lib/firmware/intel/dtt/".toList ++ dataVaultName (crc32String sysVendor)
    (crc32String productFamily) (crc32String productName) (crc32String productSku))

namespace FormatDvName

/-- The program's copy of `crc32`: `p` is an `unsigned char` pointer. -/
def crc32 (p : Bytes) (len : BitVec 32) : BitVec 32 :=
  feed crcTaps 8 0#32 ((p.take len.toNat).map fun c => c.toBitVec.setWidth 32)

/-- `fgets`: the bytes through the first newline, at most `size - 1` of them. -/
def fgets (size : Nat) : Bytes → Option Bytes
  | [] => none
  | content =>
      let line := content.take (size - 1)
      some (line.take (line.idxOf 10 + 1))

/-- `read_dmi_attribute`: the C string that is left in `out` after
`out[strcspn(out, "\n")] = '\0'`. -/
def readDmiAttribute (file : Option Bytes) (outSize : Nat) : Option Bytes := do
  let out ← file.bind (fgets outSize)
  pure (out.takeWhile fun c => c ≠ 10 ∧ c ≠ 0)

/-- `crc32(s, strlen(s))`. -/
def crc32String (s : Bytes) : BitVec 32 :=
  crc32 s (BitVec.ofNat 32 s.length)

/-- The name that `main` prints. A file that cannot be read leaves its array uninitialised, so
there is no name then. -/
def main (dmi : DmiFiles) : Option (List Char) := do
  let sysVendor ← readDmiAttribute dmi.sysVendor 256
  let productName ← readDmiAttribute dmi.productName 256
  let productFamily ← readDmiAttribute dmi.productFamily 256
  let productSku ← readDmiAttribute dmi.productSku 256
  pure (dataVaultName (crc32String sysVendor) (crc32String productFamily)
    (crc32String productName) (crc32String productSku))

end FormatDvName

/-- A DMI string of the platform. The kernel keeps it as a C string, and prints it into one page
with a newline behind it. -/
structure DmiString where
  bytes : Bytes
  no_nul : 0 ∉ bytes
  below_page : bytes.length < 4096

namespace DmiString

variable (s : DmiString)

/-- The content of the file of a string. -/
def file : Bytes :=
  s.bytes ++ [10]

/-- The line that the daemon reads. -/
def line : Bytes :=
  s.bytes.takeWhile (· ≠ 10)

end DmiString

/-- The four DMI strings. -/
structure DmiStrings where
  sysVendor : DmiString
  productName : DmiString
  productFamily : DmiString
  productSku : DmiString

namespace DmiStrings

/-- The files of the strings. -/
def files (dmi : DmiStrings) : DmiFiles where
  sysVendor := some dmi.sysVendor.file
  productName := some dmi.productName.file
  productFamily := some dmi.productFamily.file
  productSku := some dmi.productSku.file

/-- The strings, in the order of the name. -/
def all (dmi : DmiStrings) : List DmiString :=
  [dmi.sysVendor, dmi.productFamily, dmi.productName, dmi.productSku]

end DmiStrings

/-! ## The sign extensions -/

/-- The upper 24 bits that the sign extension of a byte adds. -/
def signBits (c : UInt8) : BitVec 32 :=
  if 0x80 ≤ c then 0xffffff00#32 else 0#32

/-- What the sign extensions of the bytes alone leave in the register. It depends on nothing but
the places of the bytes from `0x80` on. -/
def signExtensions (s : Bytes) : BitVec 32 :=
  feed crcTaps 8 0#32 (s.map signBits)

/-- What the bytes behind the first 255 change in the register. -/
def unreadBytes (s : Bytes) : BitVec 32 :=
  let read := feed crcTaps 8 0#32 ((s.take 255).map fun c => c.toBitVec.setWidth 32)
  feed crcTaps 8 read ((s.drop 255).map fun c => c.toBitVec.setWidth 32) ^^^ read

/-- The bits of the mask. -/
theorem sign_mask_bit : ∀ i < 32, (0xffffff00#32).getLsbD i = decide (8 ≤ i) := by
  decide

/-- The sign of a byte. -/
theorem msb_eq (c : UInt8) : c.toBitVec.msb = decide (0x80 ≤ c) := by
  rw [BitVec.msb_eq_decide]
  exact decide_eq_decide.mpr (UInt8.le_iff_toNat_le (a := 0x80)).symm

/-- A byte with its sign extended is the byte with the upper bits added. -/
theorem sign_extend_eq_xor (c : UInt8) :
    c.toBitVec.signExtend 32 = c.toBitVec.setWidth 32 ^^^ signBits c := by
  apply BitVec.eq_of_getLsbD_eq
  intro i hi
  rw [BitVec.getLsbD_signExtend, BitVec.getLsbD_xor, BitVec.getLsbD_setWidth, msb_eq, signBits]
  by_cases hlow : i < 8
  · have hbit : (if 0x80 ≤ c then 0xffffff00#32 else 0#32).getLsbD i = false := by
      split
      · rw [sign_mask_bit i hi]
        exact decide_eq_false (by omega)
      · exact BitVec.getLsbD_zero
    rw [hbit, if_pos hlow, Bool.xor_false]
  · have hout : c.toBitVec.getLsbD i = false := BitVec.getLsbD_of_ge _ _ (by omega)
    rw [hout, if_neg hlow, Bool.and_false, Bool.false_xor]
    by_cases h : 0x80 ≤ c
    · rw [if_pos h, sign_mask_bit i hi]
      simp [h, hi, Nat.le_of_not_lt hlow]
    · rw [if_neg h, BitVec.getLsbD_zero]
      simp [h]

/-- The two checksums differ by what the sign extensions leave in the register. -/
theorem crc32_eq_xor (p : Bytes) (len : BitVec 32) :
    crc32 p len = FormatDvName.crc32 p len ^^^ signExtensions (p.take len.toNat) := by
  have h := feed_map_xor crcTaps 8 (fun c : UInt8 => c.toBitVec.setWidth 32) signBits
    (p.take len.toNat) 0#32 0#32
  rw [BitVec.xor_self] at h
  simp only [← sign_extend_eq_xor] at h
  exact h

/-- A string without a byte from `0x80` on has no sign extensions. -/
theorem sign_extensions_of_low {s : Bytes} (h : ∀ c ∈ s, c < 0x80) : signExtensions s = 0#32 := by
  apply feed_zero
  intro word hmem
  obtain ⟨c, hc, rfl⟩ := List.mem_map.mp hmem
  exact if_neg (UInt8.not_le.mpr (h c hc))

/-- The checksums of a string are the same exactly if its sign extensions cancel. -/
theorem crc32_eq_iff (p : Bytes) (len : BitVec 32) :
    crc32 p len = FormatDvName.crc32 p len ↔ signExtensions (p.take len.toNat) = 0#32 := by
  rw [crc32_eq_xor]
  constructor
  · intro h
    have hcancel := congrArg (FormatDvName.crc32 p len ^^^ ·) h
    simpa only [← BitVec.xor_assoc, BitVec.xor_self, BitVec.zero_xor] using hcancel
  · intro h
    rw [h, BitVec.xor_zero]

/-! ## The strings that the two programs read -/

/-- A prefix through the first newline has the same part before the newline. -/
theorem take_while_take_idx_of (l : Bytes) (keep : UInt8 → Bool) (hkeep : keep 10 = false) :
    (l.take (l.idxOf 10 + 1)).takeWhile keep = l.takeWhile keep := by
  induction l with
  | nil => rfl
  | cons c l ih =>
      by_cases hc : c = 10
      · subst hc
        simp [hkeep]
      · rw [List.idxOf_cons_ne _ hc, List.take_succ_cons]
        simp only [List.takeWhile_cons]
        rw [ih]

/-- Tests that agree on a list take the same part of it. -/
theorem take_while_congr {l : Bytes} {keep keep' : UInt8 → Bool}
    (h : ∀ c ∈ l, keep c = keep' c) : l.takeWhile keep = l.takeWhile keep' := by
  induction l with
  | nil => rfl
  | cons c l ih =>
      have hrest := ih fun c' hmem => h c' (List.mem_cons_of_mem _ hmem)
      rw [List.takeWhile_cons, List.takeWhile_cons, h c List.mem_cons_self, hrest]

namespace DmiString

variable (s : DmiString)

/-- The file holds the line up to its first newline. -/
theorem take_while_file : s.file.takeWhile (· ≠ 10) = s.line := by
  unfold file line
  rw [List.takeWhile_append]
  split
  · rename_i hlen
    rw [List.takeWhile_cons_of_neg (by simp), List.append_nil]
    have hwhole := (List.takeWhile_prefix (fun c : UInt8 => decide (c ≠ 10))).eq_of_length hlen
    exact hwhole.symm
  · rfl

/-- The daemon reads the line. -/
theorem getline_file : getline s.file = some s.line := by
  have hline := s.take_while_file
  cases hfile : s.file with
  | nil => exact absurd hfile (by simp [file])
  | cons c rest =>
      rw [hfile] at hline
      exact congrArg some hline

/-- The program reads the first 255 bytes of the line. -/
theorem read_dmi_attribute_file :
    FormatDvName.readDmiAttribute (some s.file) 256 = some (s.line.take 255) := by
  -- There is no NUL in the file, so only the newline and the size of the buffer cut the string.
  have hkeep : (s.file.take 255).takeWhile (fun c => decide (c ≠ 10 ∧ c ≠ 0)) =
      (s.file.take 255).takeWhile (· ≠ 10) := by
    apply take_while_congr
    intro c hmem
    have hnul : c ≠ 0 := by
      rintro rfl
      have hfile := List.mem_of_mem_take hmem
      simp [file, s.no_nul] at hfile
    simp [hnul]
  have hread : (s.file.take 255).takeWhile (fun c => decide (c ≠ 10 ∧ c ≠ 0)) =
      s.line.take 255 := by
    rw [hkeep, ← List.take_takeWhile, s.take_while_file]
  have hcut := take_while_take_idx_of (s.file.take 255) (fun c => decide (c ≠ 10 ∧ c ≠ 0)) rfl
  cases hfile : s.file with
  | nil => exact absurd hfile (by simp [file])
  | cons c rest =>
      rw [hfile] at hcut hread
      rw [FormatDvName.readDmiAttribute]
      show some _ = some _
      exact congrArg some (hcut.trans hread)

/-- The length of the line is not narrowed. -/
theorem take_line_length : s.line.take (BitVec.ofNat 32 s.line.length).toNat = s.line := by
  have hlen : s.line.length ≤ s.bytes.length := (List.takeWhile_prefix _).length_le
  have hpage := s.below_page
  rw [BitVec.toNat_ofNat, Nat.mod_eq_of_lt (by omega), List.take_length]

end DmiString

/-- The daemon's checksum of a string is the program's exactly if the sign extensions leave in the
register what the bytes leave that the program does not read. -/
theorem crc32String_line_eq_iff (s : DmiString) :
    crc32String s.line = FormatDvName.crc32String (s.line.take 255) ↔
      signExtensions s.line = unreadBytes s.line := by
  have htool : FormatDvName.crc32String (s.line.take 255) =
      feed crcTaps 8 0#32 ((s.line.take 255).map fun c => c.toBitVec.setWidth 32) := by
    have hlen : (s.line.take 255).length < 2 ^ 32 := by
      have hle := List.length_take_le 255 s.line
      omega
    rw [FormatDvName.crc32String, FormatDvName.crc32, BitVec.toNat_ofNat, Nat.mod_eq_of_lt hlen,
      List.take_length]
  have hdaemon : crc32String s.line = (unreadBytes s.line ^^^
      FormatDvName.crc32String (s.line.take 255)) ^^^ signExtensions s.line := by
    rw [crc32String, crc32_eq_xor, FormatDvName.crc32, s.take_line_length, htool, unreadBytes]
    rw [BitVec.xor_assoc (feed _ _ _ _), BitVec.xor_self, BitVec.xor_zero, ← feed_append,
      ← List.map_append, List.take_append_drop]
  rw [hdaemon, BitVec.xor_comm (unreadBytes s.line), BitVec.xor_assoc]
  constructor
  · intro h
    have hzero : unreadBytes s.line ^^^ signExtensions s.line = 0#32 := by
      have hcancel := congrArg (FormatDvName.crc32String (s.line.take 255) ^^^ ·) h
      simpa only [← BitVec.xor_assoc, BitVec.xor_self, BitVec.zero_xor] using hcancel
    have hsigns := congrArg (unreadBytes s.line ^^^ ·) hzero
    simpa only [← BitVec.xor_assoc, BitVec.xor_self, BitVec.zero_xor, BitVec.xor_zero] using hsigns
  · intro h
    rw [h, BitVec.xor_self, BitVec.xor_zero]

/-! ## The name -/

/-- Two texts with a separator behind a part without it. -/
theorem append_cons_inj {x y : List Char} {c : Char} {u v : List Char} (hx : c ∉ x) (hy : c ∉ y) :
    x ++ c :: u = y ++ c :: v ↔ x = y ∧ u = v := by
  constructor
  · intro h
    have hbefore : ∀ z : List Char, c ∉ z → ∀ w, (z ++ c :: w).takeWhile (· ≠ c) = z := by
      intro z hz w
      rw [List.takeWhile_append_of_pos fun a ha => decide_eq_true (ne_of_mem_of_not_mem ha hz)]
      simp
    have hxy : x = y := by
      rw [← hbefore x hx u, h, hbefore y hy v]
    subst hxy
    exact ⟨rfl, (List.cons.inj (List.append_cancel_left h)).2⟩
  · rintro ⟨rfl, rfl⟩
    rfl

/-- No decimal number has the separator in it. -/
theorem underscore_not_mem_decimal (crc : BitVec 32) : '_' ∉ decimal crc :=
  Nat.underscore_not_in_toDigits

/-- Decimal numbers are different for different checksums. -/
theorem decimal_inj {crc crc' : BitVec 32} : decimal crc = decimal crc' ↔ crc = crc' := by
  constructor
  · intro h
    have hvalue := congrArg (fun digits => Nat.ofDigitChars 10 digits 0) h
    simp only [decimal, Nat.ofDigitChars_ten_toDigits] at hvalue
    exact BitVec.eq_of_toNat_eq hvalue
  · rintro rfl
    rfl

/-- Two names are the same exactly if the four checksums are. -/
theorem dataVaultName_inj {a b c d a' b' c' d' : BitVec 32} :
    dataVaultName a b c d = dataVaultName a' b' c' d' ↔ a = a' ∧ b = b' ∧ c = c' ∧ d = d' := by
  unfold dataVaultName
  rw [List.append_right_inj,
    append_cons_inj (underscore_not_mem_decimal a) (underscore_not_mem_decimal a'),
    append_cons_inj (underscore_not_mem_decimal b) (underscore_not_mem_decimal b'),
    append_cons_inj (underscore_not_mem_decimal c) (underscore_not_mem_decimal c'),
    List.append_left_inj, decimal_inj, decimal_inj, decimal_inj, decimal_inj]

/-- The name that the daemon looks for. -/
theorem formatDvFilename_files (dmi : DmiStrings) :
    formatDvFilename dmi.files = some ("/lib/firmware/intel/dtt/".toList ++
      dataVaultName (crc32String dmi.sysVendor.line) (crc32String dmi.productFamily.line)
        (crc32String dmi.productName.line) (crc32String dmi.productSku.line)) := by
  simp [formatDvFilename, DmiStrings.files, DmiString.getline_file]

/-- The name that the program prints. -/
theorem main_files (dmi : DmiStrings) :
    FormatDvName.main dmi.files = some (dataVaultName
      (FormatDvName.crc32String (dmi.sysVendor.line.take 255))
      (FormatDvName.crc32String (dmi.productFamily.line.take 255))
      (FormatDvName.crc32String (dmi.productName.line.take 255))
      (FormatDvName.crc32String (dmi.productSku.line.take 255))) := by
  simp [FormatDvName.main, DmiStrings.files, DmiString.read_dmi_attribute_file]

/-- The name that the daemon looks for is the one that the program prints, in the directory of the
vault files. -/
def SameName (dmi : DmiStrings) : Prop :=
  formatDvFilename dmi.files =
    (FormatDvName.main dmi.files).map ("/lib/firmware/intel/dtt/".toList ++ ·)

/-- The names are the same exactly if the checksums of each string are. -/
theorem same_name_iff (dmi : DmiStrings) :
    SameName dmi ↔ ∀ s ∈ dmi.all, crc32String s.line =
      FormatDvName.crc32String (s.line.take 255) := by
  unfold SameName
  rw [formatDvFilename_files, main_files, Option.map_some, Option.some_inj, List.append_right_inj,
    dataVaultName_inj]
  simp [DmiStrings.all]

/-- A string of at most 255 bytes is read whole. -/
theorem unread_bytes_of_short {s : Bytes} (h : s.length ≤ 255) : unreadBytes s = 0#32 := by
  simp only [unreadBytes, List.drop_eq_nil_of_le h, List.map_nil]
  exact BitVec.xor_self

/-- For ASCII strings of at most 255 bytes the names are the same. -/
theorem same_name_of_ascii (dmi : DmiStrings)
    (h : ∀ s ∈ dmi.all, s.line.length ≤ 255 ∧ ∀ c ∈ s.line, c < 0x80) : SameName dmi := by
  rw [same_name_iff]
  intro s hmem
  rw [crc32String_line_eq_iff, unread_bytes_of_short (h s hmem).1,
    sign_extensions_of_low (h s hmem).2]

/-- The checksums of a byte string are the same exactly if the sign extensions of its bytes cancel
in the register. The names for four DMI strings are the same exactly if, for each of them, the sign
extensions leave in the register what the bytes behind the first 255 leave; that is nothing for a
string of at most 255 bytes. -/
theorem crc32_and_name_agree_iff (p : Bytes) (len : BitVec 32) (dmi : DmiStrings) :
    (crc32 p len = FormatDvName.crc32 p len ↔ signExtensions (p.take len.toNat) = 0#32) ∧
    (SameName dmi ↔ ∀ s ∈ dmi.all, signExtensions s.line = unreadBytes s.line) := by
  refine ⟨crc32_eq_iff p len, ?_⟩
  rw [same_name_iff]
  exact forall₂_congr fun s _ => crc32String_line_eq_iff s

/-- The string of the single byte `0x80`. -/
def highString : DmiString where
  bytes := [0x80]
  no_nul := by decide
  below_page := by decide

/-- A vendor with a byte outside of ASCII: the checksums and the names differ. -/
theorem crc32_and_name_differ :
    ¬ ((∀ p len, crc32 p len = FormatDvName.crc32 p len) ∧ ∀ dmi, SameName dmi) ∧
      crc32 [0x80] 1#32 ≠ FormatDvName.crc32 [0x80] 1#32 ∧
      ¬ SameName ⟨highString, highString, highString, highString⟩ := by
  have hcrc : crc32 [0x80] 1#32 ≠ FormatDvName.crc32 [0x80] 1#32 := by decide
  have hname : ¬ SameName ⟨highString, highString, highString, highString⟩ := by
    intro h
    exact hcrc ((same_name_iff _).mp h highString List.mem_cons_self)
  exact ⟨fun h => hcrc (h.1 _ _), hcrc, hname⟩

end Thermald.Gddv
