import Thermald.Gddv.FlatVault

/-!
# The test generator and the PSVT decoder

The repository has a generator of vaults with PSVT tables, `gddv_test_gen.py`, which the tests of
the parser use. `createGddv` follows it: nothing is written where `to_bytes` refuses a number that
is too large for its width. `psvt_round_trip` says that the parser gives back the tables that the
generator has written.

The way there is `Reads`: a reader at the beginning of an encoding returns the value and moves
behind the encoding. It composes along sequences, so a row is read field by field, a table row by
row, and the file key by key.
-/

namespace Thermald.Gddv

/-! ## The generator -/

/-- The limit of a row. -/
inductive TestLimit where
  | min
  | max
  | number (value : Nat)

/-- The limit as a string. -/
def TestLimit.text : TestLimit → Bytes
  | .min => ascii "MIN"
  | .max => ascii "MAX"
  | .number value => ascii (toString value)

/-- A row of a table. The temperature is in degrees Celsius. -/
structure TestRow where
  source : Bytes
  target : Bytes
  priority : Nat
  samplePeriod : Nat
  temperature : Nat
  domain : Nat
  controlKnob : Nat
  limit : TestLimit
  stepSize : Nat
  limitCoeff : Nat
  unlimitCoeff : Nat

/-- A table. -/
structure TestTable where
  name : Bytes
  table : List TestRow

/-- `int.to_bytes`, which raises an error if the number is too large. -/
def toBytes (n value : Nat) : Option Bytes :=
  if value < 256 ^ n then some (toLittleEndian n value) else none

/-- `create_uintu64`. -/
def createUintu64 (value : Nat) : Option Bytes := do
  let bytes ← toBytes 8 value
  pure ([0x04, 0x00, 0x00, 0x00] ++ bytes)

/-- `create_string`. -/
def createString (value : Bytes) : Option Bytes := do
  let length ← toBytes 8 (value.length + 1)
  pure ([0x08, 0x00, 0x00, 0x00] ++ length ++ (value ++ [0x00]))

/-- `create_key`. -/
def createKey (key val : Bytes) : Option Bytes := do
  let keyLength ← toBytes 4 (key.length + 1)
  let valLength ← toBytes 4 val.length
  pure ([0x00, 0x00, 0x00, 0x00] ++ keyLength ++ (key ++ [0x00]) ++ [0x00, 0x00, 0x00, 0x00] ++
    valLength ++ val)

/-- `create_header`. -/
def createHeader : Bytes :=
  [0xE5, 0x1F, 0x0C, 0x00, 0x00, 0x00, 0x00, 0x01, 0x00, 0x00, 0x00, 0x00]

/-- The limit of a row in `create_psvt`. -/
def createLimit : TestLimit → Option Bytes
  | .number value => createUintu64 value
  | limit => createString limit.text

/-- A row in `create_psvt`. -/
def createRow (row : TestRow) : Option Bytes := do
  let source ← createString row.source
  let target ← createString row.target
  let priority ← createUintu64 row.priority
  let samplePeriod ← createUintu64 row.samplePeriod
  let temp ← createUintu64 (row.temperature * 10 + 2727)
  let domain ← createUintu64 row.domain
  let controlKnob ← createUintu64 row.controlKnob
  let limit ← createLimit row.limit
  let stepSize ← createUintu64 row.stepSize
  let limitCoeff ← createUintu64 row.limitCoeff
  let unlimitCoeff ← createUintu64 row.unlimitCoeff
  pure (source ++ target ++ priority ++ samplePeriod ++ temp ++ domain ++ controlKnob ++ limit ++
    stepSize ++ limitCoeff ++ unlimitCoeff ++ List.replicate 12 0x00)

/-- The value of a table in `create_psvt`. -/
def createRows (rows : List TestRow) : Option Bytes := do
  let version ← createUintu64 2
  let rows ← rows.mapM createRow
  pure (version ++ rows.flatten)

/-- A table in `create_psvt`. -/
def createPsvt (table : TestTable) : Option Bytes := do
  let psvtEntry ← createRows table.table
  createKey (ascii "/shared/tables/psvt/" ++ table.name) psvtEntry

/-- `create_gddv`. -/
def createGddv (tables : List TestTable) : Option Bytes := do
  let keys ← tables.mapM createPsvt
  pure (createHeader ++ keys.flatten)

/-! ## Well-formed input -/

/-- ASCII characters other than NUL. -/
def IsText (s : Bytes) : Prop := ∀ b ∈ s, 0 < b ∧ b < 128

instance (s : Bytes) : Decidable (IsText s) := inferInstanceAs (Decidable (∀ b ∈ s, _))

/-- The numbers of the row fit into an `int`, and the temperature is at least 1 degree. -/
structure TestRow.WellFormed (row : TestRow) : Prop where
  source : IsText row.source
  target : IsText row.target
  numbers : ∀ n ∈ [row.priority, row.samplePeriod, row.temperature * 10 + 2727, row.domain,
    row.controlKnob, row.stepSize, row.limitCoeff, row.unlimitCoeff], (n : Int) ≤ intMax
  temperature : 1 ≤ row.temperature

/-- The name is a component of a path, and there is a row. -/
structure TestTable.WellFormed (table : TestTable) : Prop where
  name : table.name ≠ []
  text : IsText table.name
  component : UInt8.ofNat '/'.toNat ∉ table.name
  rows : table.table ≠ []
  wellFormed : ∀ row ∈ table.table, row.WellFormed

/-- The decoded row is that of the generator. -/
structure Psv.Matches (psv : Psv) (row : TestRow) : Prop where
  source : psv.source = row.source
  target : psv.target = row.target
  priority : psv.priority = row.priority
  samplePeriod : psv.samplePeriod = row.samplePeriod
  temp : deciKelvinToCelsius psv.temp = row.temperature
  domain : psv.domain = row.domain
  controlKnob : psv.controlKnob = row.controlKnob
  limit : psv.limit = row.limit.text
  stepSize : psv.stepSize = row.stepSize
  limitCoeff : psv.limitCoeff = row.limitCoeff
  unlimitCoeff : psv.unlimitCoeff = row.unlimitCoeff

/-- The decoded table has the same name and the same rows. -/
structure Psvt.Matches (psvt : Psvt) (table : TestTable) : Prop where
  name : psvt.name = table.name
  rows : List.Forall₂ Psv.Matches psvt.psvs table.table

/-! ## Reading what was written -/

section Reads

variable {α β : Type}

/-- At the beginning of the encoding the reader returns the value and moves behind the encoding. -/
def Reads (m : Bytes → Decoder α) (data : Bytes) (a : α) : Prop :=
  ∀ (buf before rest : Bytes) (c : Cursor), buf = before ++ data ++ rest →
    c.offset = before.length → (before.length + data.length : Int) ≤ c.gddv.gddvCurBufLen →
    c.gddv.gddvCurBufLen ≤ intMax →
    Returns (m buf) c a { c with offset := (before.length + data.length : Nat) }

/-- Encodings one after the other. -/
theorem Reads.bind {m : Bytes → Decoder α} {f : α → Bytes → Decoder β} {data data' : Bytes} {a : α}
    {b : β} (h : Reads m data a) (hf : Reads (f a) data' b) :
    Reads (fun buf => m buf >>= fun a => f a buf) (data ++ data') b := by
  intro buf before rest c hbuf hoffset hlen hmax
  rw [List.length_append] at hlen ⊢
  have hfirst : Returns (m buf) c a { c with offset := (before.length + data.length : Nat) } := by
    refine h buf before (data' ++ rest) c ?_ hoffset (by omega) hmax
    simp only [hbuf, List.append_assoc]
  refine hfirst.bind ?_
  have hsecond := hf buf (before ++ data) rest
    { c with offset := (before.length + data.length : Nat) }
    (by simp only [hbuf, List.append_assoc]) (by simp only [List.length_append])
    (by simp only [List.length_append]; omega) hmax
  rw [List.length_append, Nat.add_assoc] at hsecond
  exact hsecond

/-- A value computed from what was read. -/
theorem Reads.map {m : Bytes → Decoder α} {f : α → β} {data : Bytes} {a : α} (h : Reads m data a) :
    Reads (fun buf => m buf >>= fun a => pure (f a)) data (f a) := by
  intro buf before rest c hbuf hoffset hlen hmax
  exact (h buf before rest c hbuf hoffset hlen hmax).bind (.pure _ _)

/-- `offset += 12` over bytes that nobody looks at. -/
theorem reads_skip {data : Bytes} (h : data.length = 12) : Reads (fun _ => skip) data () := by
  intro buf before rest c _ hoffset hlen hmax
  have hint : int32 (c.offset + 12) = (before.length + data.length : Nat) := by
    rw [int32_eq_self (by omega) (by omega)]
    omega
  refine (Returns.modify _ c).eq.trans ?_
  rw [hint]

/-- A field of the buffer is read. -/
theorem read_value_returns {σ : Type} {buf before rest : Bytes} {i : Int} {n value : Nat}
    (h : buf = before ++ toLittleEndian n value ++ rest) (hi : i = before.length)
    (hvalue : value < 256 ^ n) (s : σ) :
    Returns (littleEndian <$> readBytes buf i n) s value s := by
  have hn := (length_to_little_endian n value).symm
  rw [(in_bounds_middle h hi hn).read_bytes, slice_middle h hi hn, map_pure, little_endian_of_value,
    Nat.mod_eq_of_lt hvalue]
  exact .pure _ _

/-- The type of a field is read and the offset stays. -/
theorem get_type_returns {buf before more rest : Bytes} {c : Cursor} {type : Nat}
    (h : buf = before ++ (toLittleEndian 4 type ++ more) ++ rest) (htype : (type : Int) ≤ intMax)
    (hoffset : c.offset = before.length) (hlen : (before.length + 4 : Int) ≤ c.gddv.gddvCurBufLen)
    (hmax : c.gddv.gddvCurBufLen ≤ intMax) : Returns (getType buf) c type c := by
  simp only [intMax] at htype hmax
  have hint : int32 (c.offset + 4) = c.offset + 4 :=
    int32_eq_self (by omega) (by simp only [intMax]; omega)
  have hsplit : buf = before ++ toLittleEndian 4 type ++ (more ++ rest) := by
    simp only [h, List.append_assoc]
  have hread : Returns (readUint32 buf c.offset) c type c :=
    read_value_returns hsplit hoffset (by omega) c
  unfold getType
  refine (Returns.get c).bind ?_
  rw [if_neg (by omega)]
  refine hread.bind ?_
  rw [int32_eq_self (by omega) (by simp only [intMax]; omega)]
  exact .pure _ _

/-- The part that `get_uint64` and `get_string` have in common. -/
theorem reads_tagged {type value : Nat} (htype : (type : Int) ≤ intMax) (hvalue : value < 256 ^ 8) :
    Reads (fun buf => getTagged buf type)
      (toLittleEndian 4 type ++ toLittleEndian 8 value) value := by
  intro buf before rest c hbuf hoffset hlen hmax
  rw [List.length_append, length_to_little_endian, length_to_little_endian] at hlen ⊢
  simp only [intMax] at htype hmax
  have hint : int32 (c.offset + 4) = (before ++ toLittleEndian 4 type).length := by
    rw [List.length_append, length_to_little_endian,
      int32_eq_self (by omega) (by simp only [intMax]; omega)]
    omega
  have hend : int32 ((before ++ toLittleEndian 4 type).length + 8) =
      (before.length + (4 + 8) : Nat) := by
    rw [List.length_append, length_to_little_endian,
      int32_eq_self (by omega) (by simp only [intMax]; omega)]
    omega
  have hfirst : Returns (readUint32 buf c.offset) c type c := by
    have hsplit : buf = before ++ toLittleEndian 4 type ++ (toLittleEndian 8 value ++ rest) := by
      simp only [hbuf, List.append_assoc]
    exact read_value_returns hsplit hoffset (by omega) c
  have hsecond : ∀ c' : Cursor, Returns (readUint64 buf
      ((before ++ toLittleEndian 4 type).length : Int)) c' value c' := by
    intro c'
    have hsplit : buf = (before ++ toLittleEndian 4 type) ++ toLittleEndian 8 value ++ rest := by
      simp only [hbuf, List.append_assoc]
    exact read_value_returns hsplit rfl hvalue c'
  unfold getTagged
  refine (Returns.get c).bind ?_
  rw [hint, List.length_append, length_to_little_endian, if_neg (by omega)]
  refine hfirst.bind ?_
  rw [int32_eq_self (by omega) (by simp only [intMax]; omega), if_neg (not_not.2 rfl)]
  refine (Returns.set c _).bind ?_
  rw [List.length_append, length_to_little_endian] at hend hsecond
  rw [hend, if_neg (by omega)]
  refine (hsecond _).bind ?_
  exact (Returns.set _ _).bind (.pure _ _)

/-- `get_uint64` reads what `create_uintu64` has written. -/
theorem reads_uint64 {value : Nat} {data : Bytes} (h : createUintu64 value = some data) :
    Reads getUint64 data value ∧ data.length = 12 := by
  unfold createUintu64 toBytes at h
  split at h
  · rename_i hvalue
    cases h
    exact ⟨@reads_tagged 4 value (by decide) hvalue, by simp⟩
  · cases h

/-- `get_string` returns where the string starts and moves behind its NUL. -/
theorem get_string_returns {value buf before rest : Bytes} {c : Cursor}
    (hlength : value.length + 1 < 256 ^ 8)
    (hbuf : buf = before ++ (toLittleEndian 4 8 ++ toLittleEndian 8 (value.length + 1) ++
      (value ++ [0x00])) ++ rest)
    (hoffset : c.offset = before.length)
    (hlen : (before.length + (12 + (value.length + 1)) : Int) ≤ c.gddv.gddvCurBufLen)
    (hmax : c.gddv.gddvCurBufLen ≤ intMax) :
    Returns (getString buf) c (before.length + 12 : Nat)
      { c with offset := (before.length + (12 + (value.length + 1)) : Nat) } := by
  have hhead := @reads_tagged 8 (value.length + 1) (by decide) hlength
  have hheadlen : (toLittleEndian 4 8 ++ toLittleEndian 8 (value.length + 1)).length = 12 := by
    rw [List.length_append, length_to_little_endian, length_to_little_endian]
  generalize toLittleEndian 4 8 ++ toLittleEndian 8 (value.length + 1) = head at *
  simp only [intMax] at hmax
  have htagged : Returns (getTagged buf 8) c (value.length + 1)
      { c with offset := (before.length + 12 : Nat) } := by
    have hread := hhead buf before (value ++ [0x00] ++ rest) c
      (by simp only [hbuf, List.append_assoc]) hoffset (by rw [hheadlen]; omega)
      (by simp only [intMax]; omega)
    rw [hheadlen] at hread
    exact hread
  have hend : int32 ((before.length + 12 : Nat) + (value.length + 1 : Nat)) =
      (before.length + (12 + (value.length + 1)) : Nat) := by
    rw [int32_eq_self (by omega) (by simp only [intMax]; omega)]
    omega
  unfold getString
  refine htagged.bind ((Returns.get _).bind ?_)
  show Returns (if intMax < ((value.length + 1 : Nat) : Int) ∨ c.gddv.gddvCurBufLen <
    int32 ((before.length + 12 : Nat) + (value.length + 1 : Nat)) then _ else _) _ _ _
  rw [hend, if_neg (by simp only [intMax]; omega)]
  exact (Returns.set _ _).bind (.pure _ _)

/-- A string without a NUL in it is read. -/
theorem reads_string {value : Bytes} (htext : 0 ∉ value) (hlength : value.length + 1 < 256 ^ 8) :
    Reads getStdString (toLittleEndian 4 8 ++ toLittleEndian 8 (value.length + 1) ++
      (value ++ [0x00])) value := by
  intro buf before rest c hbuf hoffset hlen hmax
  have hheadlen : (toLittleEndian 4 8 ++ toLittleEndian 8 (value.length + 1)).length = 12 := by
    rw [List.length_append, length_to_little_endian, length_to_little_endian]
  rw [List.length_append, hheadlen, List.length_append, List.length_singleton] at hlen ⊢
  have hstring := get_string_returns hlength hbuf hoffset (by omega) hmax
  generalize toLittleEndian 4 8 ++ toLittleEndian 8 (value.length + 1) = head at *
  simp only [intMax] at hmax
  -- the string starts behind its length, and the offset moves behind its NUL
  have hobj : Returns (getStringObj buf) c (some ((before.length + 12 : Nat) : Int))
      { c with offset := (before.length + (12 + (value.length + 1)) : Nat) } := by
    have hconsumed : int32 ((before.length + (12 + (value.length + 1)) : Nat) - c.offset) =
        12 + (value.length + 1 : Nat) := by
      rw [int32_eq_self (by omega) (by simp only [intMax]; omega)]
      omega
    unfold getStringObj
    refine (Returns.get c).bind (hstring.bind ((Returns.get _).bind ?_))
    dsimp only
    rw [hconsumed, int32_eq_self (by omega) (by simp only [intMax]; omega), if_neg (by omega)]
    exact .pure _ _
  have hdrop : buf.drop (before.length + 12) = value ++ 0x00 :: rest := by
    have hpre : buf = (before ++ head) ++ (value ++ 0x00 :: rest) := by
      simp only [hbuf, List.append_assoc, List.singleton_append]
    rw [hpre, ← hheadlen, ← List.length_append, List.drop_left]
  have htake : (value ++ 0x00 :: rest).takeWhile (fun b => b ≠ 0) = value := by
    refine List.takeWhile_append_of_pos (fun b hb => ?_) |>.trans ?_
    · exact decide_eq_true fun hzero => htext (hzero ▸ hb)
    · rw [List.takeWhile_cons_of_neg (by simp), List.append_nil]
  unfold getStdString
  refine hobj.bind ?_
  show cString buf ((before.length + 12 : Nat) : Int) _ = _
  unfold cString
  rw [Int.toNat_natCast, hdrop, htake, if_pos ⟨Int.natCast_nonneg _, by simp⟩]
  rfl

/-- `get_string_obj` reads what `create_string` has written. -/
theorem reads_std_string {value data : Bytes} (htext : IsText value)
    (h : createString value = some data) : Reads getStdString data value ∧ 13 ≤ data.length := by
  unfold createString toBytes at h
  split at h
  case isFalse => cases h
  rename_i hlength
  cases h
  refine ⟨reads_string (fun hzero => ?_) hlength, by simp; omega⟩
  exact absurd (htext 0 hzero).1 (by decide)

/-- The limit of a row. -/
theorem reads_limit {limit : TestLimit} {data : Bytes} (h : createLimit limit = some data) :
    Reads getLimit data limit.text ∧ 12 ≤ data.length := by
  have htext : ∀ {s : Bytes}, IsText s → createString s = some data →
      Reads getLimit data s ∧ 12 ≤ data.length := by
    intro s hs hdata
    obtain ⟨hread, hlen⟩ := reads_std_string hs hdata
    refine ⟨?_, by omega⟩
    intro buf before rest c hbuf hoffset hroom hmax
    obtain ⟨more, rfl⟩ : ∃ more, data = toLittleEndian 4 8 ++ more := by
      unfold createString toBytes at hdata
      split at hdata
      · cases hdata
        exact ⟨_, rfl⟩
      · cases hdata
    have htype : Returns (getType buf) c (8 : Nat) c :=
      get_type_returns hbuf (by decide) hoffset (by omega) hmax
    unfold getLimit
    refine htype.bind ?_
    rw [if_pos (by decide)]
    exact hread buf before rest c hbuf hoffset hroom hmax
  cases limit with
  | min => exact htext (by decide +kernel) h
  | max => exact htext (by decide +kernel) h
  | number value =>
      obtain ⟨hread, hlen⟩ := reads_uint64 h
      refine ⟨?_, by omega⟩
      intro buf before rest c hbuf hoffset hroom hmax
      obtain ⟨more, rfl⟩ : ∃ more, data = toLittleEndian 4 4 ++ more := by
        unfold createLimit createUintu64 toBytes at h
        dsimp only at h
        split at h
        · cases h
          exact ⟨_, rfl⟩
        · cases h
      have htype : Returns (getType buf) c (4 : Nat) c :=
        get_type_returns hbuf (by decide) hoffset (by omega) hmax
      unfold getLimit
      refine htype.bind ?_
      rw [if_neg (by decide)]
      exact (hread buf before rest c hbuf hoffset hroom hmax).bind (.pure _ _)

end Reads

/-! ## Rows -/

/-- The row as the decoder stores it, with the temperature in tenths of a Kelvin. -/
def TestRow.psv (row : TestRow) : Psv where
  source := row.source
  target := row.target
  priority := row.priority
  samplePeriod := row.samplePeriod
  temp := (row.temperature * 10 + 2727 : Nat)
  domain := row.domain
  controlKnob := row.controlKnob
  limit := row.limit.text
  stepSize := row.stepSize
  limitCoeff := row.limitCoeff
  unlimitCoeff := row.unlimitCoeff

theorem TestRow.WellFormed.matches {row : TestRow} (h : row.WellFormed) : row.psv.Matches row := by
  refine ⟨rfl, rfl, rfl, rfl, ?_, rfl, rfl, rfl, rfl, rfl, rfl⟩
  have hsmall := h.numbers (row.temperature * 10 + 2727) (by simp)
  have hone := h.temperature
  simp only [intMax] at hsmall
  show deciKelvinToCelsius ((row.temperature * 10 + 2727 : Nat) : Int) = row.temperature
  have hshift : int32 (((row.temperature * 10 + 2727 : Nat) : Int) - 2732) =
      (row.temperature * 10 - 5 : Nat) := by
    rw [int32_eq_self (by omega) (by simp only [intMax]; omega)]
    omega
  have hround : int32 (((row.temperature * 10 - 5 : Nat) : Int) + 5) =
      (row.temperature * 10 : Nat) := by
    rw [int32_eq_self (by omega) (by simp only [intMax]; omega)]
    omega
  unfold deciKelvinToCelsius
  rw [hshift, if_pos (Int.natCast_nonneg _), hround, Int.natCast_mul]
  exact Int.mul_tdiv_cancel _ (by decide)

/-- A row is read back. -/
theorem reads_row {row : TestRow} {data : Bytes} (hrow : row.WellFormed)
    (h : createRow row = some data) (psvs : List Psv) :
    Reads (fun buf => parsePsv buf psvs) data (psvs ++ [row.psv]) ∧ 146 ≤ data.length := by
  obtain ⟨source, hsource, h⟩ := Option.bind_eq_some_iff.mp h
  obtain ⟨target, htarget, h⟩ := Option.bind_eq_some_iff.mp h
  obtain ⟨priority, hpriority, h⟩ := Option.bind_eq_some_iff.mp h
  obtain ⟨samplePeriod, hsamplePeriod, h⟩ := Option.bind_eq_some_iff.mp h
  obtain ⟨temp, htemp, h⟩ := Option.bind_eq_some_iff.mp h
  obtain ⟨domain, hdomain, h⟩ := Option.bind_eq_some_iff.mp h
  obtain ⟨controlKnob, hcontrolKnob, h⟩ := Option.bind_eq_some_iff.mp h
  obtain ⟨limit, hlimit, h⟩ := Option.bind_eq_some_iff.mp h
  obtain ⟨stepSize, hstepSize, h⟩ := Option.bind_eq_some_iff.mp h
  obtain ⟨limitCoeff, hlimitCoeff, h⟩ := Option.bind_eq_some_iff.mp h
  obtain ⟨unlimitCoeff, hunlimitCoeff, h⟩ := Option.bind_eq_some_iff.mp h
  cases h
  obtain ⟨hsource, hlen₁⟩ := reads_std_string hrow.source hsource
  obtain ⟨htarget, hlen₂⟩ := reads_std_string hrow.target htarget
  obtain ⟨hpriority, hlen₃⟩ := reads_uint64 hpriority
  obtain ⟨hsamplePeriod, hlen₄⟩ := reads_uint64 hsamplePeriod
  obtain ⟨htemp, hlen₅⟩ := reads_uint64 htemp
  obtain ⟨hdomain, hlen₆⟩ := reads_uint64 hdomain
  obtain ⟨hcontrolKnob, hlen₇⟩ := reads_uint64 hcontrolKnob
  obtain ⟨hlimit, hlen₈⟩ := reads_limit hlimit
  obtain ⟨hstepSize, hlen₉⟩ := reads_uint64 hstepSize
  obtain ⟨hlimitCoeff, hlen₁₀⟩ := reads_uint64 hlimitCoeff
  obtain ⟨hunlimitCoeff, hlen₁₁⟩ := reads_uint64 hunlimitCoeff
  refine ⟨?_, ?_⟩
  · have hint : ∀ n ∈ [row.priority, row.samplePeriod, row.temperature * 10 + 2727, row.domain,
        row.controlKnob, row.stepSize, row.limitCoeff, row.unlimitCoeff], int32 n = n := by
      intro n hn
      exact int32_eq_self (by omega) (hrow.numbers n hn)
    simp only [List.forall_mem_cons] at hint
    obtain ⟨h₁, h₂, h₃, h₄, h₅, h₆, h₇, h₈, -⟩ := hint
    simp only [List.append_assoc]
    unfold parsePsv
    refine hsource.bind (htarget.bind (hpriority.bind (hsamplePeriod.bind (htemp.bind ?_))))
    refine hdomain.bind (hcontrolKnob.bind (hlimit.bind (hstepSize.bind (hlimitCoeff.bind ?_))))
    refine hunlimitCoeff.bind ?_
    rw [h₁, h₂, h₃, h₄, h₅, h₆, h₇, h₈]
    exact (reads_skip (List.length_replicate ..)).map
  · simp only [List.length_append, List.length_replicate]
    omega

/-- What is written for the elements of a list. -/
theorem map_m_some {α β : Type} {f : α → Option β} {xs : List α} {ys : List β}
    (h : xs.mapM f = some ys) : List.Forall₂ (fun x y => f x = some y) xs ys := by
  induction xs generalizing ys with
  | nil =>
      cases h
      exact .nil
  | cons x xs ih =>
      simp only [List.mapM_cons, Option.bind_eq_bind, Option.bind_eq_some_iff] at h
      obtain ⟨y, hy, ys', hys, heq⟩ := h
      cases heq
      exact .cons hy (ih hys)

/-- The loop over the rows of a table, from some row on. -/
theorem rows_return {rows : List TestRow} {datas : List Bytes} {buf rest : Bytes}
    (hwf : ∀ row ∈ rows, row.WellFormed)
    (hdatas : List.Forall₂ (fun row data => createRow row = some data) rows datas)
    (before : Bytes) (c : Cursor) (psvs : List Psv) (fuel : Nat) (hfuel : rows.length < fuel)
    (hbuf : buf = before ++ datas.flatten ++ rest) (hoffset : c.offset = before.length)
    (hlen : c.gddv.gddvCurBufLen = (before.length + datas.flatten.length : Nat))
    (hmax : c.gddv.gddvCurBufLen ≤ intMax) :
    Returns (whileBelow fuel c.gddv.gddvCurBufLen (parsePsv buf) psvs) c
      (psvs ++ rows.map TestRow.psv) { c with offset := c.gddv.gddvCurBufLen } := by
  induction hdatas generalizing before c psvs fuel with
  | nil =>
      have hend : c.offset = c.gddv.gddvCurBufLen := by
        rw [hoffset, hlen]
        rfl
      rw [List.map_nil, List.append_nil, ← hend]
      exact .loop_done (decide_eq_false (lt_irrefl _))
  | @cons row data rows datas hrow _ ih =>
      obtain ⟨fuel, rfl⟩ : ∃ n, fuel = n + 1 := ⟨fuel - 1, by omega⟩
      obtain ⟨hwf, hrest⟩ := List.forall_mem_cons.1 hwf
      obtain ⟨hread, hsize⟩ := reads_row hwf hrow psvs
      rw [List.flatten_cons] at hbuf hlen
      rw [List.length_append] at hlen
      have hstep := hread buf before (datas.flatten ++ rest) c
        (by simp only [hbuf, List.append_assoc]) hoffset (by omega) hmax
      have hlen' : c.gddv.gddvCurBufLen =
          ((before ++ data).length + datas.flatten.length : Nat) := by
        rw [hlen, List.length_append]
        omega
      have hloop := ih hrest (before ++ data)
        { c with offset := (before.length + data.length : Nat) } (psvs ++ [row.psv]) fuel
        (by simpa using hfuel) (by simp only [hbuf, List.append_assoc])
        (by simp only [List.length_append]) hlen' hmax
      rw [List.append_assoc] at hloop
      refine Eq.trans (Returns.loop_eq (decide_eq_true ?_) hstep) hloop
      omega

/-! ## Tables -/

/-- The table as the decoder stores it. -/
def TestTable.psvt (table : TestTable) : Psvt where
  name := table.name
  psvs := table.table.map TestRow.psv

theorem TestTable.WellFormed.matches {table : TestTable} (h : table.WellFormed) :
    table.psvt.Matches table := by
  refine ⟨rfl, ?_⟩
  show List.Forall₂ Psv.Matches (table.table.map TestRow.psv) table.table
  rw [List.forall₂_map_left_iff, List.forall₂_same]
  exact fun row hrow => (h.wellFormed row hrow).matches

/-- A row has at least 146 bytes. -/
theorem length_rows {rows : List TestRow} {datas : List Bytes} (hwf : ∀ row ∈ rows, row.WellFormed)
    (hdatas : List.Forall₂ (fun row data => createRow row = some data) rows datas) :
    rows.length ≤ datas.flatten.length ∧ (rows ≠ [] → 146 ≤ datas.flatten.length) := by
  induction hdatas with
  | nil => exact ⟨le_rfl, fun h => absurd rfl h⟩
  | cons hrow _ ih =>
      obtain ⟨hwf, hrest⟩ := List.forall_mem_cons.1 hwf
      obtain ⟨-, hsize⟩ := reads_row hwf hrow []
      have hle := (ih hrest).1
      simp only [List.flatten_cons, List.length_append, List.length_cons]
      omega

/-- A table with a row has at least 158 bytes. -/
theorem length_create_rows {rows : List TestRow} {val : Bytes}
    (hwf : ∀ row ∈ rows, row.WellFormed) (hval : createRows rows = some val) (hne : rows ≠ []) :
    158 ≤ val.length := by
  simp only [createRows, Option.bind_eq_bind, Option.bind_eq_some_iff] at hval
  obtain ⟨version, hversion, datas, hdatas, hval⟩ := hval
  cases hval
  have hsize := (reads_uint64 hversion).2
  have hroom := (length_rows hwf (map_m_some hdatas)).2 hne
  rw [List.length_append]
  omega

/-- The decoder reads the rows of a table. -/
theorem parse_psvt_returns {rows : List TestRow} {val : Bytes} (hwf : ∀ row ∈ rows, row.WellFormed)
    (hval : createRows rows = some val) (hlen : (val.length : Int) ≤ intMax) {fuel : Nat}
    (hfuel : val.length < fuel) (name : Bytes) (c : Cursor) :
    Returns (parsePsvt fuel (some name) (terminated val) val.length) c 0
      ⟨val.length, { c.gddv with
        psvts := c.gddv.psvts ++ [⟨name, rows.map TestRow.psv⟩]
        gddvCurBufLen := val.length }⟩ := by
  simp only [createRows, Option.bind_eq_bind, Option.bind_eq_some_iff] at hval
  obtain ⟨version, hversion, datas, hdatas, hval⟩ := hval
  cases hval
  obtain ⟨hread, hsize⟩ := reads_uint64 hversion
  have hdatas := map_m_some hdatas
  obtain ⟨hcount, -⟩ := length_rows hwf hdatas
  have htotal : (version ++ datas.flatten).length = 12 + datas.flatten.length := by
    rw [List.length_append, hsize]
  let c₁ : Cursor := ⟨0, { c.gddv with gddvCurBufLen := (version ++ datas.flatten).length }⟩
  have hfirst : Returns (getUint64 (terminated (version ++ datas.flatten))) c₁ 2
      { c₁ with offset := (([] : Bytes).length + version.length : Nat) } := by
    refine hread _ [] (datas.flatten ++ [0]) c₁ ?_ rfl ?_ hlen
    · simp only [terminated, List.nil_append, List.append_assoc]
    · show ((0 : Nat) + (version.length : Int)) ≤ ((version ++ datas.flatten).length : Int)
      rw [htotal, hsize]
      omega
  have hrows := rows_return hwf hdatas version
    { c₁ with offset := (([] : Bytes).length + version.length : Nat) } [] fuel (by omega)
    (show terminated (version ++ datas.flatten) = version ++ datas.flatten ++ [0] from rfl)
    (by rw [List.length_nil, Nat.zero_add])
    (show ((version ++ datas.flatten).length : Int) = _ by rw [List.length_append]) hlen
  unfold parsePsvt
  refine (Returns.modify _ c).bind (hfirst.bind ?_)
  rw [if_neg (by decide)]
  exact hrows.bind ((Returns.modify _ _).bind (.pure _ _))

/-- The item of a table. -/
def psvtItem (name val : Bytes) : Item where
  flags := 0
  key := ascii "/shared/tables/psvt/" ++ name ++ [0x00]
  type := 0
  val := val

/-- The components of the key of a table. -/
theorem tokens_psvt {table : TestTable} (h : table.WellFormed) :
    tokens ((psvtItem table.name []).key.takeWhile fun b => b ≠ 0) =
      [ascii "shared", ascii "tables", ascii "psvt", table.name] := by
  have hzero : ∀ b ∈ ascii "/shared/tables/psvt/" ++ table.name, decide (b ≠ 0) = true := by
    intro b hb
    rw [decide_eq_true_eq]
    intro heq
    subst heq
    rcases List.mem_append.1 hb with hb | hb
    · exact absurd hb (by decide +kernel)
    · exact absurd (h.text 0 hb).1 (by decide)
  have htake : (psvtItem table.name []).key.takeWhile (fun b => b ≠ 0) =
      ascii "/shared/tables/psvt" ++ UInt8.ofNat '/'.toNat :: table.name := by
    show (ascii "/shared/tables/psvt/" ++ table.name ++ [0x00]).takeWhile _ = _
    rw [List.takeWhile_append_of_pos hzero, List.takeWhile_cons_of_neg (by simp), List.append_nil]
    simp [ascii]
  have hsplit : (ascii "/shared/tables/psvt").splitOn (UInt8.ofNat '/'.toNat) =
      [[], ascii "shared", ascii "tables", ascii "psvt"] := by decide +kernel
  rw [htake]
  unfold tokens
  rw [List.splitOn_append_cons_self, hsplit, List.splitOn_eq_singleton h.component]
  simp only [List.cons_append, List.nil_append]
  rw [List.filter_cons_of_neg (by simp), List.filter_cons_of_pos (by decide +kernel),
    List.filter_cons_of_pos (by decide +kernel), List.filter_cons_of_pos (by decide +kernel),
    List.filter_cons_of_pos (by simpa using h.name), List.filter_nil]

/-- The decoder that the key of a table names. -/
theorem decoders_psvt (fuel : Nat) (name val : Bytes) (len : Int) :
    decoders fuel (keyPath (ascii "shared") [ascii "tables", ascii "psvt", name]) val len =
      [parsePsvt fuel (some name) val len] := by
  have hpath : keyPath (ascii "shared") [ascii "tables", ascii "psvt", name] =
      ⟨none, some (ascii "psvt"), some name⟩ := by
    unfold keyPath
    rw [if_neg (by decide +kernel), if_pos (by decide +kernel)]
    simp only [List.getElem?_cons_zero, List.getElem?_cons_succ, Option.getD_some]
    rw [if_pos (by decide +kernel)]
  rw [hpath]
  unfold decoders
  dsimp only
  rw [if_neg (by decide +kernel), if_pos (by decide +kernel)]
  iterate 10 rw [if_neg (by decide +kernel)]
  rfl

/-- The tables after the item of a table. -/
theorem psvt_accepted {env : Env} {fuel : Nat} {table : TestTable} {val : Bytes}
    (htable : table.WellFormed) (hval : createRows table.table = some val)
    (hlen : (val.length : Int) ≤ intMax) (hfuel : val.length < fuel)
    (hkey : env.alloc ((psvtItem table.name val).key.length + 1) = true)
    (halloc : env.alloc (val.length + 1) = true) (g : Gddv) :
    acceptedTables env fuel (psvtItem table.name val) g =
      some { g with psvts := g.psvts ++ [table.psvt], gddvCurBufLen := val.length } := by
  have hnonempty : (psvtItem table.name val).key ≠ [] := by
    simp [psvtItem]
  have hdispatch : dispatch fuel (psvtItem table.name val).key val ⟨g, []⟩ =
      .ok () ⟨{ g with psvts := g.psvts ++ [table.psvt], gddvCurBufLen := val.length }, []⟩ := by
    unfold dispatch
    rw [show (psvtItem table.name val).key = (psvtItem table.name []).key from rfl,
      tokens_psvt htable]
    dsimp only
    rw [decoders_psvt]
    have hdecode : Returns (decode (parsePsvt fuel (some table.name) (terminated val) val.length))
        ⟨g, []⟩ 0
        ⟨{ g with psvts := g.psvts ++ [table.psvt], gddvCurBufLen := val.length }, []⟩ := by
      have hparse := parse_psvt_returns htable.wellFormed hval hlen hfuel table.name ⟨0, g⟩
      unfold Returns decode
      rw [hparse.eq]
      rfl
    exact hdecode.bind (.pure _ _)
  have hitem : (psvtItem table.name val).val = val := rfl
  unfold acceptedTables decodedTables
  rw [if_pos ⟨hnonempty, hkey, halloc⟩, hitem, hdispatch]

/-! ## Files -/

/-- The item is what is written for the table. -/
def Encodes (table : TestTable) (it : Item) : Prop :=
  ∃ val, createRows table.table = some val ∧ it = psvtItem table.name val

/-- A file is a flat vault of version 1. -/
theorem create_gddv_items {tables : List TestTable} {file : Bytes}
    (h : createGddv tables = some file) :
    ∃ its, file = (layoutOne 12).vault createHeader its ∧ List.Forall₂ Encodes tables its := by
  have hkey : ∀ table data, createPsvt table = some data →
      ∃ it, data = (layoutOne 12).encode it ∧ Encodes table it := by
    intro table data hdata
    simp only [createPsvt, createKey, toBytes, Option.bind_eq_bind, Option.bind_eq_some_iff,
      Option.ite_none_right_eq_some] at hdata
    obtain ⟨val, hval, keyLength, ⟨-, hkeyLength⟩, valLength, ⟨-, hvalLength⟩, hdata⟩ := hdata
    cases hdata
    cases hkeyLength
    cases hvalLength
    refine ⟨psvtItem table.name val, ?_, val, hval, rfl⟩
    have hlength : (psvtItem table.name val).key.length =
        (ascii "/shared/tables/psvt/" ++ table.name).length + 1 := by
      simp only [psvtItem, List.length_append, List.length_singleton]
    have hzero : toLittleEndian 4 0 = [0x00, 0x00, 0x00, 0x00] := rfl
    show _ = (psvtItem table.name val).body
    unfold Item.body
    rw [hlength]
    show _ = toLittleEndian 4 0 ++ _ ++ (ascii "/shared/tables/psvt/" ++ table.name ++ [0x00]) ++
      toLittleEndian 4 0 ++ toLittleEndian 4 val.length ++ val
    rw [hzero]
  simp only [createGddv, Option.bind_eq_bind, Option.bind_eq_some_iff] at h
  obtain ⟨datas, hdatas, hfile⟩ := h
  cases hfile
  have hitems : ∃ its, datas.flatten = (layoutOne 12).encodeAll its ∧
      List.Forall₂ Encodes tables its := by
    replace hdatas := map_m_some hdatas
    induction hdatas with
    | nil => exact ⟨[], rfl, .nil⟩
    | cons hdata _ ih =>
        obtain ⟨it, rfl, hencodes⟩ := hkey _ _ hdata
        obtain ⟨its, hits, hall⟩ := ih
        refine ⟨it :: its, ?_, .cons hencodes hall⟩
        rw [List.flatten_cons, hits]
        rfl
  obtain ⟨its, hits, hall⟩ := hitems
  exact ⟨its, congrArg (createHeader ++ ·) hits, hall⟩

/-- The tables after all items. -/
theorem items_accepted {env : Env} {fuel size : Nat} {tables : List TestTable} {its : List Item}
    (hsize : (size : Int) ≤ intMax) (hfuel : size ≤ fuel) (halloc : ∀ n ≤ size, env.alloc n = true)
    (htables : ∀ table ∈ tables, table.WellFormed) (hall : List.Forall₂ Encodes tables its)
    (hits : ∀ it ∈ its, it.body.length ≤ size) (g : Gddv) :
    ∃ g', acceptedAll env fuel its g = some g' ∧
      g'.psvts = g.psvts ++ tables.map TestTable.psvt := by
  induction hall generalizing g with
  | nil => exact ⟨g, rfl, (List.append_nil _).symm⟩
  | @cons table it tables its hencodes _ ih =>
      obtain ⟨val, hval, rfl⟩ := hencodes
      obtain ⟨htable, hrest⟩ := List.forall_mem_cons.1 htables
      obtain ⟨hbody, hits⟩ := List.forall_mem_cons.1 hits
      have hlength : (psvtItem table.name val).body.length =
          16 + (psvtItem table.name val).key.length + val.length := Item.length_body _
      have hshort : val.length < fuel := by omega
      have haccepted := psvt_accepted htable hval (by omega) hshort (halloc _ (by omega))
        (halloc _ (by omega)) g
      obtain ⟨g', hg', hpsvts⟩ := ih hrest hits
        { g with psvts := g.psvts ++ [table.psvt], gddvCurBufLen := val.length }
      refine ⟨g', ?_, ?_⟩
      · rw [acceptedAll, haccepted]
        exact hg'
      · rw [hpsvts, List.append_assoc]
        rfl

/-- The items are long. -/
theorem length_psvt_items {tables : List TestTable} {its : List Item}
    (htables : ∀ table ∈ tables, table.WellFormed) (hall : List.Forall₂ Encodes tables its) :
    (tables ≠ [] → 158 ≤ ((layoutOne 12).encodeAll its).length) ∧
      ∀ it ∈ its, 158 ≤ it.body.length := by
  induction hall with
  | nil => exact ⟨fun h => absurd rfl h, nofun⟩
  | @cons table it tables its hencodes _ ih =>
      obtain ⟨val, hval, rfl⟩ := hencodes
      obtain ⟨htable, hrest⟩ := List.forall_mem_cons.1 htables
      have hlong : 158 ≤ val.length := length_create_rows htable.wellFormed hval htable.rows
      have hlength : (psvtItem table.name val).body.length =
          16 + (psvtItem table.name val).key.length + val.length := Item.length_body _
      refine ⟨fun _ => ?_, List.forall_mem_cons.2 ⟨by omega, (ih hrest).2⟩⟩
      rw [Layout.encodeAll, List.flatMap_cons, List.length_append]
      show 158 ≤ (psvtItem table.name val).body.length + _
      omega

/-- The parser gives back the tables from which the generator has made a file, if the file has at
most `INT_MAX - 12` bytes. -/
theorem psvt_round_trip (env : Env) {tables : List TestTable} (hne : tables ≠ [])
    (htables : ∀ table ∈ tables, table.WellFormed) {file : Bytes}
    (hfile : createGddv tables = some file) (hsize : (file.length : Int) ≤ intMax - 12)
    (halloc : ∀ n ≤ file.length, env.alloc n = true) {fuel : Nat} (hfuel : file.length < fuel)
    (v : Vault) :
    ∃ endOffset v' psvts, Returns (parseGddv env fuel false file (int32 file.length)) v
        (gddvSuccess, endOffset) v' ∧
      v'.gddv.psvts = v.gddv.psvts ++ psvts ∧ List.Forall₂ Psvt.Matches psvts tables := by
  obtain ⟨its, rfl, hall⟩ := create_gddv_items hfile
  obtain ⟨fuel, rfl⟩ : ∃ n, fuel = n + 1 := ⟨fuel - 1, by omega⟩
  simp only [intMax] at hsize
  have hmax : (((layoutOne 12).vault createHeader its).length : Int) ≤ intMax := by
    simp only [intMax]
    omega
  have hheader : (layoutOne 12).IsHeader createHeader := by
    refine ⟨?_, ?_, ?_, ?_, ?_, ?_⟩ <;> decide +kernel
  have hlen : ((layoutOne 12).vault createHeader its).length =
      12 + ((layoutOne 12).encodeAll its).length := by
    unfold Layout.vault
    rw [List.length_append]
    rfl
  obtain ⟨hcount, hbody⟩ := length_le_encode_all (layoutOne 12) its
  obtain ⟨hfirst, hlong⟩ := length_psvt_items htables hall
  have hstruct : headerStructSize ≤ ((layoutOne 12).vault createHeader its).length := by
    have := hfirst hne
    simp only [headerStructSize]
    omega
  have htails : (layoutOne 12).LongTails its := by
    rw [long_tails_iff]
    intro it hit
    have hitem := hlong it (List.mem_of_getLast? hit)
    show 12 < it.body.length
    omega
  have hsum : ((((layoutOne 12).vault createHeader its).length + 12 : Nat) : Int) ≤ intMax := by
    simp only [intMax]
    omega
  obtain ⟨g', haccepted, hpsvts⟩ := @items_accepted env fuel _ tables its hmax (by omega) halloc
    htables hall (fun it hit => by have := hbody it hit; omega) v.gddv
  obtain ⟨hiff, hgddv⟩ := flat_vault_returns_iff hheader its env (.inl rfl)
    (fun nested => layout_one_sound env fuel nested hmax 12) hstruct hmax (by omega) v
  obtain ⟨endOffset, v', hreturns, hcalls⟩ := hiff.2 ⟨by rw [haccepted]; rfl, htails, hsum⟩
  refine ⟨endOffset, v', tables.map TestTable.psvt, ?_, ?_, ?_⟩
  · rw [int32_eq_self (by omega) hmax]
    exact hreturns
  · have hgddv := (hgddv _ v' hreturns hcalls).symm.trans haccepted
    rw [Option.some.inj hgddv, hpsvts]
  · rw [List.forall₂_map_left_iff, List.forall₂_same]
    exact fun table htable => (htables table htable).matches

/-! ## Examples -/

/-- A row with some source. -/
def rowOf (source : Bytes) : TestRow where
  source := source
  target := ascii "B0D4"
  priority := 1
  samplePeriod := 50
  temperature := 60
  domain := 9
  controlKnob := 65536
  limit := .min
  stepSize := 500
  limitCoeff := 10
  unlimitCoeff := 10

/-- A table with this row. -/
def tableOf (source : Bytes) : TestTable where
  name := ascii "a"
  table := [rowOf source]

theorem table_of_well_formed {source : Bytes} (h : IsText source) :
    (tableOf source).WellFormed := by
  refine ⟨?_, ?_, ?_, List.cons_ne_nil _ _, ?_⟩
  · show ascii "a" ≠ []
    decide
  · show IsText (ascii "a")
    decide +kernel
  · show _ ∉ ascii "a"
    decide
  · intro row hrow
    obtain rfl := List.mem_singleton.1 hrow
    refine ⟨h, ?_, ?_, ?_⟩
    · show IsText (ascii "B0D4")
      decide +kernel
    · show ∀ n ∈ ([1, 50, 60 * 10 + 2727, 9, 65536, 500, 10, 10] : List Nat), (n : Int) ≤ intMax
      decide
    · show 1 ≤ 60
      decide

theorem create_uintu64_some {value : Nat} (h : value < 256 ^ 8) :
    ∃ data, createUintu64 value = some data ∧ data.length = 12 := by
  refine ⟨[0x04, 0x00, 0x00, 0x00] ++ toLittleEndian 8 value, ?_, by simp⟩
  unfold createUintu64 toBytes
  rw [if_pos h]
  rfl

theorem create_string_some {value : Bytes} (h : value.length + 1 < 256 ^ 8) :
    ∃ data, createString value = some data ∧ data.length = value.length + 13 := by
  refine ⟨[0x08, 0x00, 0x00, 0x00] ++ toLittleEndian 8 (value.length + 1) ++ (value ++ [0x00]), ?_,
    by simp; omega⟩
  unfold createString toBytes
  rw [if_pos h]
  rfl

theorem create_key_some {key val : Bytes} (hkey : key.length + 1 < 256 ^ 4)
    (hval : val.length < 256 ^ 4) :
    ∃ data, createKey key val = some data ∧ data.length = key.length + val.length + 17 := by
  refine ⟨[0x00, 0x00, 0x00, 0x00] ++ toLittleEndian 4 (key.length + 1) ++ (key ++ [0x00]) ++
    [0x00, 0x00, 0x00, 0x00] ++ toLittleEndian 4 val.length ++ val, ?_, by simp; omega⟩
  unfold createKey toBytes
  rw [if_pos hkey, if_pos hval]
  rfl

theorem create_row_of {source : Bytes} (h : source.length + 1 < 256 ^ 8) :
    ∃ data, createRow (rowOf source) = some data ∧ data.length = source.length + 154 := by
  have huint : ∀ value < 2 ^ 16 + 1, ∃ data, createUintu64 value = some data ∧ data.length = 12 :=
    fun value hvalue => create_uintu64_some (by omega)
  obtain ⟨s₁, h₁, l₁⟩ := create_string_some h
  obtain ⟨s₂, h₂, l₂⟩ := create_string_some (show (ascii "B0D4").length + 1 < 256 ^ 8 by decide)
  obtain ⟨s₃, h₃, l₃⟩ := create_string_some (show (ascii "MIN").length + 1 < 256 ^ 8 by decide)
  obtain ⟨n₁, k₁, m₁⟩ := huint 1 (by decide)
  obtain ⟨n₂, k₂, m₂⟩ := huint 50 (by decide)
  obtain ⟨n₃, k₃, m₃⟩ := huint (60 * 10 + 2727) (by decide)
  obtain ⟨n₄, k₄, m₄⟩ := huint 9 (by decide)
  obtain ⟨n₅, k₅, m₅⟩ := huint 65536 (by decide)
  obtain ⟨n₆, k₆, m₆⟩ := huint 500 (by decide)
  obtain ⟨n₇, k₇, m₇⟩ := huint 10 (by decide)
  have hlimit : createLimit .min = some s₃ := h₃
  have htarget : (ascii "B0D4").length = 4 := rfl
  have hmin : (ascii "MIN").length = 3 := rfl
  refine ⟨s₁ ++ s₂ ++ n₁ ++ n₂ ++ n₃ ++ n₄ ++ n₅ ++ s₃ ++ n₆ ++ n₇ ++ n₇ ++ List.replicate 12 0x00,
    ?_, ?_⟩
  · simp only [createRow, rowOf, h₁, h₂, hlimit, k₁, k₂, k₃, k₄, k₅, k₆, k₇]
    rfl
  · simp only [List.length_append, List.length_replicate]
    omega

/-- The file of this table. -/
theorem create_table_of {source : Bytes} (h : source.length < 4294967000) :
    ∃ file, createGddv [tableOf source] = some file ∧ file.length = source.length + 216 := by
  obtain ⟨row, hrow, hrowlen⟩ := create_row_of (show source.length + 1 < 256 ^ 8 by omega)
  obtain ⟨version, hversion, hversionlen⟩ := create_uintu64_some (show 2 < 256 ^ 8 by decide)
  have hrows : createRows [rowOf source] = some (version ++ row) := by
    simp only [createRows, hversion, hrow, List.mapM_cons, List.mapM_nil]
    simp
  have hval : (version ++ row).length = source.length + 166 := by
    rw [List.length_append]
    omega
  have hname : (ascii "/shared/tables/psvt/" ++ ascii "a").length = 21 := rfl
  obtain ⟨key, hkey, hkeylen⟩ := create_key_some (show (ascii "/shared/tables/psvt/" ++
    ascii "a").length + 1 < 256 ^ 4 by decide) (show (version ++ row).length < 256 ^ 4 by omega)
  have hpsvt : createPsvt (tableOf source) = some key := by
    simp only [createPsvt, tableOf, hrows]
    exact hkey
  refine ⟨createHeader ++ key, ?_, ?_⟩
  · simp only [createGddv, hpsvt, List.mapM_cons, List.mapM_nil]
    simp
  · rw [List.length_append]
    show 12 + key.length = _
    omega

/-- A source of 2 GiB makes a file whose size is negative as an `int`. -/
theorem large_source_rejected :
    (tableOf (List.replicate (2 ^ 31) 97)).WellFormed ∧
    ∃ file, createGddv [tableOf (List.replicate (2 ^ 31) 97)] = some file ∧
      ∀ env fuel, ¬ ∃ endOffset v', Returns (parseGddv env fuel false file (int32 file.length))
        Vault.start (gddvSuccess, endOffset) v' := by
  have hlen : (List.replicate (2 ^ 31) (97 : UInt8)).length = 2 ^ 31 := List.length_replicate ..
  have htext : IsText (List.replicate (2 ^ 31) 97) := by
    intro b hb
    rw [List.eq_of_mem_replicate hb]
    decide
  generalize List.replicate (2 ^ 31) (97 : UInt8) = source at hlen htext
  obtain ⟨file, hfile, hsize⟩ := create_table_of (show source.length < 4294967000 by omega)
  refine ⟨table_of_well_formed htext, file, hfile, ?_⟩
  intro env fuel hreturns
  obtain ⟨endOffset, v', hreturns⟩ := hreturns
  have hnegative : int32 file.length < headerStructSize := by
    simp only [headerStructSize]
    unfold int32
    omega
  cases fuel with
  | zero => exact absurd hreturns (Fails.throw _ _).not_returns
  | succ fuel =>
      rw [Returns, parse_gddv_short env fuel false hnegative, (log_returns _ _).bind_eq] at hreturns
      cases hreturns

/-- A small table is given back. -/
theorem small_table_given_back :
    ∃ file endOffset v' psvts, createGddv [tableOf (ascii "TCPU")] = some file ∧
      Returns (parseGddv sampleEnv 300 false file (int32 file.length)) Vault.start
        (gddvSuccess, endOffset) v' ∧
      v'.gddv.psvts = psvts ∧ List.Forall₂ Psvt.Matches psvts [tableOf (ascii "TCPU")] := by
  obtain ⟨file, hfile, hsize⟩ := create_table_of (show (ascii "TCPU").length < 4294967000 by decide)
  have hlen : file.length = 220 := hsize
  have halloc : ∀ n ≤ file.length, sampleEnv.alloc n = true := by
    intro n hn
    show decide (n < 2 ^ 31) = true
    exact decide_eq_true (by omega)
  have hwf : ∀ table ∈ [tableOf (ascii "TCPU")], table.WellFormed := by
    intro table htable
    obtain rfl := List.mem_singleton.1 htable
    exact table_of_well_formed (by decide +kernel)
  obtain ⟨endOffset, v', psvts, hreturns, hpsvts, hmatches⟩ := psvt_round_trip sampleEnv
    (List.cons_ne_nil _ _) hwf hfile (by rw [hlen]; decide) halloc (show file.length < 300 by omega)
    Vault.start
  exact ⟨file, endOffset, v', psvts, hfile, hreturns, hpsvts, hmatches⟩

end Thermald.Gddv
