import Thermald.Gddv.TableValues

/-!
# Power limits, trip points and keys

The values without rows, of a power limit and of a trip point, are decoded to what was written. The
path of a key is split into its components, and `decoders_of_type` says which decoder the type in a
path runs.
-/

namespace Thermald.Gddv

/-! ## Power limits and trip points -/

/-- The fields of a value with two limits. What stands in front of a limit is not used. -/
structure PpccValue where
  revision : Nat
  index : Nat
  powerLimitMin : Int
  powerLimitMax : Int
  timeWindMin : Int
  timeWindMax : Int
  stepSize : Int
  index1 : Nat
  powerLimit1Min : Int
  powerLimit1Max : Int
  timeWind1Min : Int
  timeWind1Max : Int
  step1Size : Int
  revision_lt : revision < 2 ^ 64
  index_lt : index < 2 ^ 64
  index1_lt : index1 < 2 ^ 64
  limit_int : IsInt powerLimitMin ∧ IsInt powerLimitMax ∧ IsInt timeWindMin ∧
    IsInt timeWindMax ∧ IsInt stepSize
  limit1_int : IsInt powerLimit1Min ∧ IsInt powerLimit1Max ∧ IsInt timeWind1Min ∧
    IsInt timeWind1Max ∧ IsInt step1Size

namespace PpccValue

/-- The numbers as they are written. -/
def numbers (v : PpccValue) : List Nat :=
  [v.revision, v.index, (uint64 v.powerLimitMin).toNat, (uint64 v.powerLimitMax).toNat,
    (uint64 v.timeWindMin).toNat, (uint64 v.timeWindMax).toNat, (uint64 v.stepSize).toNat,
    v.index1, (uint64 v.powerLimit1Min).toNat, (uint64 v.powerLimit1Max).toNat,
    (uint64 v.timeWind1Min).toNat, (uint64 v.timeWind1Max).toNat, (uint64 v.step1Size).toNat]

def encode (v : PpccValue) : Bytes := v.numbers.flatMap uintField

/-- The record that is stored. -/
def ppcc (name : Bytes) (v : PpccValue) : Ppcc where
  name
  valid := 1
  powerLimitMin := v.powerLimitMin
  powerLimitMax := v.powerLimitMax
  timeWindMin := v.timeWindMin
  timeWindMax := v.timeWindMax
  stepSize := v.stepSize
  limit1Valid :=
    if v.powerLimit1Max ≠ 0 ∧ v.powerLimit1Min ≠ 0 ∧ v.timeWind1Min ≠ 0 ∧ v.timeWind1Max ≠ 0 ∧
      v.step1Size ≠ 0 then 1 else 0
  powerLimit1Min := v.powerLimit1Min
  powerLimit1Max := v.powerLimit1Max
  timeWind1Min := v.timeWind1Min
  timeWind1Max := v.timeWind1Max
  step1Size := v.step1Size

end PpccValue

/-- A number in a row of numbers. -/
theorem uint64_at_field {numbers : List Nat} (h : ∀ n ∈ numbers, n < 2 ^ 64) (i : Nat)
    (hi : i < numbers.length) :
    uint64At (numbers.flatMap uintField) (12 * i + 4) = numbers[i] := by
  have hplace : numbers.flatMap uintField =
      ((numbers.take i).flatMap uintField ++ toLittleEndian 4 4) ++ toLittleEndian 8 numbers[i] ++
        (numbers.drop (i + 1)).flatMap uintField := by
    conv_lhs => rw [← List.take_append_drop i numbers, List.drop_eq_getElem_cons hi]
    simp only [List.flatMap_append, List.flatMap_cons, uintField, List.append_assoc]
  have hlength : ∀ ns : List Nat, (ns.flatMap uintField).length = 12 * ns.length := by
    intro ns
    induction ns with
    | nil => rfl
    | cons n ns ih =>
        rw [List.flatMap_cons, List.length_append, length_uint_field, ih, List.length_cons]
        omega
  have hstart : ((12 * i + 4 : Nat) : Int) =
      ((numbers.take i).flatMap uintField ++ toLittleEndian 4 4).length := by
    rw [List.length_append, hlength, List.length_take, length_to_little_endian,
      Nat.min_eq_left (by omega)]
  have hsmall := h numbers[i] (List.getElem_mem hi)
  unfold uint64At
  rw [slice_middle hplace hstart (by simp), little_endian_of_value, Nat.mod_eq_of_lt (by omega)]

/-- The record of a value is the one that was written. -/
theorem PpccValue.ppcc_of_encode (name : Bytes) (v : PpccValue) :
    ppccOf name v.encode = v.ppcc name := by
  have hlt : ∀ n ∈ v.numbers, n < 2 ^ 64 := by
    have huint : ∀ x : Int, (uint64 x).toNat < 2 ^ 64 := by
      intro x
      unfold uint64
      omega
    unfold numbers
    simp only [List.forall_mem_cons]
    exact ⟨v.revision_lt, v.index_lt, huint _, huint _, huint _, huint _, huint _, v.index1_lt,
      huint _, huint _, huint _, huint _, huint _, List.forall_mem_nil _⟩
  have hat : ∀ (i : Nat) (hi : i < 13) {n : Int}, IsInt n →
      v.numbers.get ⟨i, hi⟩ = (uint64 n).toNat →
        int32 (uint64At v.encode (12 * i + 4) : Nat) = n := by
    intro i hi n hn hget
    have hfield : uint64At v.encode (12 * i + 4) = v.numbers.get ⟨i, hi⟩ := uint64_at_field hlt i hi
    rw [hfield, hget]
    exact hn.narrowed
  obtain ⟨h₁, h₂, h₃, h₄, h₅⟩ := v.limit_int
  obtain ⟨k₁, k₂, k₃, k₄, k₅⟩ := v.limit1_int
  have e₁ := hat 2 (by decide) h₁ rfl
  have e₂ := hat 3 (by decide) h₂ rfl
  have e₃ := hat 4 (by decide) h₃ rfl
  have e₄ := hat 5 (by decide) h₄ rfl
  have e₅ := hat 6 (by decide) h₅ rfl
  have f₁ := hat 8 (by decide) k₁ rfl
  have f₂ := hat 9 (by decide) k₂ rfl
  have f₃ := hat 10 (by decide) k₃ rfl
  have f₄ := hat 11 (by decide) k₄ rfl
  have f₅ := hat 12 (by decide) k₅ rfl
  unfold ppccOf PpccValue.ppcc
  simp only [e₁, e₂, e₃, e₄, e₅, f₁, f₂, f₃, f₄, f₅]

/-- The decoder stores the record of a value with two limits. -/
theorem ppcc_value_returns (g : Gddv) (name : Bytes) (v : PpccValue) :
    Returns (parsePpcc name (terminated v.encode) v.encode.length) ⟨0, g⟩ 0
      ⟨0, { g with ppccs := g.ppccs ++ [v.ppcc name] }⟩ := by
  have hlength : v.encode.length = 156 := by
    simp only [PpccValue.encode, PpccValue.numbers, List.flatMap_cons, List.flatMap_nil,
      List.length_append, length_uint_field, List.length_nil]
  have hfield : ∀ i : Nat, i + 8 ≤ 156 →
      ppccField (terminated v.encode) i = pure (int32 (uint64At v.encode i)) := by
    intro i hi
    exact ppcc_field_eq (by omega)
  have hrun : parsePpcc name (terminated v.encode) v.encode.length =
      (update fun g => { g with ppccs := g.ppccs ++ [ppccOf name v.encode] }) >>=
        fun _ => pure 0 := by
    unfold parsePpcc
    rw [hlength, if_neg (by decide), show ppccField _ 28 = _ from hfield 28 (by decide),
      show ppccField _ 40 = _ from hfield 40 (by decide),
      show ppccField _ 52 = _ from hfield 52 (by decide),
      show ppccField _ 64 = _ from hfield 64 (by decide),
      show ppccField _ 76 = _ from hfield 76 (by decide)]
    simp only [pure_bind]
    rw [if_neg (by decide), show ppccField _ (76 + 12 + 12) = _ from hfield 100 (by decide),
      show ppccField _ (76 + 12 + 24) = _ from hfield 112 (by decide),
      show ppccField _ (76 + 12 + 36) = _ from hfield 124 (by decide),
      show ppccField _ (76 + 12 + 48) = _ from hfield 136 (by decide),
      show ppccField _ (76 + 12 + 60) = _ from hfield 148 (by decide)]
    simp only [pure_bind]
    rfl
  rw [hrun, v.ppcc_of_encode]
  exact (Returns.modify _ _).bind (.pure _ _)

/-- The value of a trip point. -/
def tripValue (temp : Int) : Bytes := toLittleEndian 4 (uint32 temp).toNat

theorem parse_trip_point_returns (g : Gddv) (name type : Bytes) {temp : Int} (h : IsInt temp) :
    Returns (parseTripPoint name type (terminated (tripValue temp)) (tripValue temp).length)
      ⟨0, g⟩ 0
      ⟨0, { g with trippoints := g.trippoints ++
        [⟨name, type, trippointType type, deciKelvinToCelsius temp⟩] }⟩ := by
  obtain ⟨hge, hle⟩ := h
  simp only [intMax] at hle
  have hsmall : (uint32 temp).toNat < 256 ^ 4 := by
    unfold uint32
    omega
  have hvalue : int32 ((uint32 temp).toNat : Int) = temp := by
    unfold int32 uint32
    omega
  have hsplit : terminated (tripValue temp) =
      [] ++ toLittleEndian 4 (uint32 temp).toNat ++ [0] := rfl
  have hread : Returns (readUint32 (terminated (tripValue temp)) 0) (Cursor.mk 0 g)
      (uint32 temp).toNat ⟨0, g⟩ :=
    read_value_returns hsplit rfl hsmall _
  have hlength : ((tripValue temp).length : Int) = 4 := by
    rw [tripValue, length_to_little_endian]
    rfl
  unfold parseTripPoint
  rw [hlength, if_neg (by decide)]
  refine hread.bind ?_
  rw [hvalue]
  exact (Returns.modify _ _).bind (.pure _ _)

/-! ## Keys -/

/-- A component of a path. -/
structure IsComponent (s : Bytes) : Prop where
  nonempty : s ≠ []
  text : 0 ∉ s
  component : UInt8.ofNat '/'.toNat ∉ s

/-- The key of a path. -/
def pathKey (path : List Bytes) : Bytes :=
  path.flatMap (fun s => UInt8.ofNat '/'.toNat :: s) ++ [0]

/-- The tokens of a key are the components of its path. -/
theorem tokens_path {path : List Bytes} (h : ∀ s ∈ path, IsComponent s) :
    tokens ((pathKey path).takeWhile fun b => b ≠ 0) = path := by
  have hzero : ∀ b ∈ path.flatMap (fun s => UInt8.ofNat '/'.toNat :: s),
      decide (b ≠ 0) = true := by
    intro b hb
    obtain ⟨s, hs, hb⟩ := List.mem_flatMap.1 hb
    rcases List.mem_cons.1 hb with rfl | hb
    · decide
    · exact decide_eq_true fun heq => (h s hs).text (heq ▸ hb)
  have htake : (pathKey path).takeWhile (fun b => b ≠ 0) =
      path.flatMap (fun s => UInt8.ofNat '/'.toNat :: s) := by
    rw [pathKey, List.takeWhile_append_of_pos hzero, List.takeWhile_cons_of_neg (by simp),
      List.append_nil]
  have hsplit : ∀ s : Bytes, UInt8.ofNat '/'.toNat ∉ s →
      (s ++ path.flatMap (fun s => UInt8.ofNat '/'.toNat :: s)).splitOn (UInt8.ofNat '/'.toNat) =
        s :: path := by
    clear htake hzero
    induction path with
    | nil =>
        intro s hs
        rw [List.flatMap_nil, List.append_nil, List.splitOn_eq_singleton hs]
    | cons t path ih =>
        intro s hs
        obtain ⟨ht, hpath⟩ := List.forall_mem_cons.1 h
        rw [List.flatMap_cons, List.cons_append, List.splitOn_append_cons_self,
          List.splitOn_eq_singleton hs, ih hpath t ht.component]
        rfl
  have hfull := hsplit [] (List.not_mem_nil)
  rw [List.nil_append] at hfull
  rw [htake]
  unfold tokens
  rw [hfull, List.filter_cons_of_neg (by simp)]
  exact List.filter_eq_self.2 fun s hs => decide_eq_true (h s hs).nonempty

/-- The types of keys that name a decoder. -/
inductive KeyType where
  | ppcc | psvt | appc | apct | apat | itmt | idsp | trippoint | trt | vsct | vspt
  deriving DecidableEq

/-- The component of a path that stands for the type. -/
def KeyType.text : KeyType → Bytes
  | .ppcc => ascii "ppcc"
  | .psvt => ascii "psvt"
  | .appc => ascii "appc"
  | .apct => ascii "apct"
  | .apat => ascii "apat"
  | .itmt => ascii "itmt"
  | .idsp => ascii "idsp"
  | .trippoint => ascii "trippoint"
  | .trt => ascii "_trt"
  | .vsct => ascii "vsct"
  | .vspt => ascii "vspt"

/-- The decoders of a type. -/
def KeyType.decoders (k : KeyType) (fuel : Nat) (name point : Option Bytes) (val : Bytes)
    (len : Int) : List (Decoder Int) :=
  match k with
  | .ppcc => name.toList.map fun name => parsePpcc name val len
  | .psvt => [parsePsvt fuel (point.or name) val len]
  | .appc => [parseAppc fuel val len]
  | .apct => [parseApct fuel val len]
  | .apat => [parseApat fuel val len]
  | .itmt => [parseItmt fuel (point.or name) val len]
  | .idsp => name.toList.map fun _ => parseIdsp fuel val len
  | .trippoint => name.toList.flatMap fun name => point.toList.map fun point =>
      parseTripPoint name point val len
  | .trt => [parseTrt fuel val len]
  | .vsct => [parseVsct fuel (point.or name) val len]
  | .vspt => [parseVspt fuel val len]

/-- The types are told apart. -/
theorem thd_strcmp_text (k k' : KeyType) : thdStrcmpN k.text k'.text = decide (k = k') := by
  cases k <;> cases k' <;> decide +kernel

/-- A key of a type goes to the decoders of this type and to no others. -/
theorem decoders_of_type (k : KeyType) (fuel : Nat) (name point : Option Bytes) (val : Bytes)
    (len : Int) :
    Gddv.decoders fuel ⟨name, some k.text, point⟩ val len =
      k.decoders fuel name point val len := by
  have hitmt3 : k.text.take 5 ≠ ascii "itmt3" := by
    cases k <;> decide +kernel
  have hppcc : thdStrcmpN k.text (ascii "ppcc") = decide (k = .ppcc) := thd_strcmp_text k .ppcc
  have hpsvt : thdStrcmpN k.text (ascii "psvt") = decide (k = .psvt) := thd_strcmp_text k .psvt
  have happc : thdStrcmpN k.text (ascii "appc") = decide (k = .appc) := thd_strcmp_text k .appc
  have hapct : thdStrcmpN k.text (ascii "apct") = decide (k = .apct) := thd_strcmp_text k .apct
  have hapat : thdStrcmpN k.text (ascii "apat") = decide (k = .apat) := thd_strcmp_text k .apat
  have hitmt : thdStrcmpN k.text (ascii "itmt") = decide (k = .itmt) := thd_strcmp_text k .itmt
  have hidsp : thdStrcmpN k.text (ascii "idsp") = decide (k = .idsp) := thd_strcmp_text k .idsp
  have htrip : thdStrcmpN k.text (ascii "trippoint") = decide (k = .trippoint) :=
    thd_strcmp_text k .trippoint
  have htrt : thdStrcmpN k.text (ascii "_trt") = decide (k = .trt) := thd_strcmp_text k .trt
  have hvsct : thdStrcmpN k.text (ascii "vsct") = decide (k = .vsct) := thd_strcmp_text k .vsct
  have hvspt : thdStrcmpN k.text (ascii "vspt") = decide (k = .vspt) := thd_strcmp_text k .vspt
  unfold Gddv.decoders
  simp only [if_neg hitmt3, hppcc, hpsvt, happc, hapct, hapat, hitmt, hidsp, htrip, htrt, hvsct,
    hvspt]
  cases k <;> simp [KeyType.decoders]

/-- A key of a participant. -/
theorem key_path_participant (rest : List Bytes) :
    keyPath (ascii "participants") rest = ⟨rest[0]?, rest[1]?, rest[2]?⟩ := by
  unfold keyPath
  rw [if_pos (by decide +kernel)]

/-- A key of a shared table. -/
theorem key_path_shared (type : Bytes) (rest : List Bytes) :
    keyPath (ascii "shared") (ascii "tables" :: type :: rest) = ⟨none, some type, rest[0]?⟩ := by
  unfold keyPath
  rw [if_neg (by decide +kernel), if_pos (by decide +kernel)]
  simp only [List.getElem?_cons_zero, List.getElem?_cons_succ, Option.getD_some]
  rw [if_pos (by decide +kernel)]

end Thermald.Gddv
