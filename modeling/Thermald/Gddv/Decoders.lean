import Thermald.Gddv.Tables

/-!
# Decoding the tables

The readers `get_type`, `get_uint64`, `get_string` and `get_string_obj`, and the decoders that
`parse_gddv_key` chooses from. A decoder gets a value with the NUL byte that the caller has put
behind it, and its length without that byte. Its local variable `offset` is part of the state, as
the readers move it; all arithmetic on it is that of `int`.

The loops of the source run on fuel. A decoder returns what the function in the source returns; the
functions without a result return 0.
-/

namespace Thermald

/-- `THD_SUCCESS`, as the result of a parser. -/
abbrev gddvSuccess : Int := 0

/-- `THD_ERROR`, as the result of a parser. -/
abbrev gddvError : Int := -1

namespace Gddv

/-- The state of a decoder: its offset and the members of the class. -/
structure Cursor where
  offset : Int
  gddv : Gddv

/-- A computation of a decoder. -/
abbrev Decoder (α : Type) := EStateM Stop Cursor α

/-- The signed 64-bit value of an unsigned one. -/
def int64 (x : Int) : Int := (x + 9223372036854775808) % 18446744073709551616 - 9223372036854775808

/-- The characters of a literal. -/
def ascii (s : String) : Bytes := s.toList.map fun c => UInt8.ofNat c.toNat

/-! ## Readers -/

/-- `get_type`. -/
def getType (object : Bytes) : Decoder Int := do
  let c ← get
  if c.offset < 0 ∨ c.gddv.gddvCurBufLen < int32 (c.offset + 4) then throw .gddvException
  else
    let type ← readUint32 object c.offset
    pure (int32 type)

/-- The common part of `get_uint64` and `get_string`: the type, which must be the expected one, and
the eight bytes behind it. -/
def getTagged (object : Bytes) (expected : Int) : Decoder Nat := do
  let c ← get
  if c.offset < 0 ∨ c.gddv.gddvCurBufLen < int32 (c.offset + 4) then throw .gddvException
  else
    let type ← readUint32 object c.offset
    if int32 type ≠ expected then throw .gddvException
    else
      let offset := int32 (c.offset + 4)
      set { c with offset }
      if c.gddv.gddvCurBufLen < int32 (offset + 8) then throw .gddvException
      else
        let value ← readUint64 object offset
        set { c with offset := int32 (offset + 8) }
        pure value

/-- `get_uint64`. -/
def getUint64 (object : Bytes) : Decoder Nat :=
  getTagged object 4

/-- `get_string`: the start of the string. A length is rejected if it does not fit into an `int` or
leads beyond the buffer. -/
def getString (object : Bytes) : Decoder Int := do
  let length ← getTagged object 8
  let c ← get
  if intMax < length ∨ c.gddv.gddvCurBufLen < int32 (c.offset + length) then throw .gddvException
  else
    set { c with offset := int32 (c.offset + length) }
    pure c.offset

/-- `get_string_obj`: no pointer if the offset has moved by less than the fixed part. -/
def getStringObj (object : Bytes) : Decoder (Option Int) := do
  let saved := (← get).offset
  let p ← getString object
  let consumed := int32 ((← get).offset - saved)
  let length := int32 (consumed - 12)
  if length < 0 then pure none else pure (some p)

/-- A `std::string` made of what `get_string_obj` returns. -/
def getStdString (object : Bytes) : Decoder Bytes := do
  match ← getStringObj object with
  | none => throw .nullPointer
  | some p => cString object p

/-- `offset += 12`. -/
def skip : Decoder Unit :=
  modify fun c => { c with offset := int32 (c.offset + 12) }

/-- Assign to the members. -/
def update (f : Gddv → Gddv) : Decoder Unit :=
  modify fun c => { c with gddv := f c.gddv }

/-- `gddv_cur_buf_len = len`, with a new offset. -/
def begin (len : Int) : Decoder Unit :=
  modify fun c => { offset := 0, gddv := { c.gddv with gddvCurBufLen := len } }

/-- `while (offset < len)`. -/
def whileBelow {β : Type} (fuel : Nat) (len : Int) (body : β → Decoder β) (b : β) : Decoder β :=
  loopM .outOfFuel (fun _ c => decide (c.offset < len)) body fuel b

/-! ## APPC and APAT -/

/-- `parse_appc`. A malformed table is ignored. -/
def parseAppc (fuel : Nat) (appc : Bytes) (len : Int) : Decoder Int := do
  begin len
  if len < 1 then pure 0
  else
    let first ← readByte appc 0
    if first ≠ 4 then pure 0
    else
      let version ← getUint64 appc
      if version ≠ 1 then pure 0
      else
        whileBelow fuel len (fun _ => do
          let condition ← getUint64 appc
          let name ← getStdString appc
          let participant ← getStdString appc
          let domain ← getUint64 appc
          let type ← getUint64 appc
          update fun g => { g with customConditions := g.customConditions ++
            [{ condition := condition % 2 ^ 32, name, participant, domain := int32 domain,
               type := int32 type }] }) ()
        pure 0

/-- `parse_apat`. -/
def parseApat (fuel : Nat) (apat : Bytes) (len : Int) : Decoder Int := do
  begin len
  let version ← getUint64 apat
  if version ≠ 2 then throw .gddvException
  else
    whileBelow fuel len (fun _ => do
      let targetId ← getUint64 apat
      let name ← getStdString apat
      let participant ← getStdString apat
      let domain ← getUint64 apat
      let code ← getStdString apat
      let argument ← getStdString apat
      update fun g => { g with targets := g.targets ++
        [{ targetId, name, participant, domain, code, argument }] }) ()
    pure 0

/-! ## APCT -/

/-- The loop variables of a condition set: the counter and the conditions read so far. -/
structure SetState where
  i : Int
  conditionSet : List Condition

/-- A condition of version 1, and the counter after it: the time condition behind `FOR` is counted
too. -/
def parseCondition1 (apct : Bytes) (len : Int) (target : Int) (v : SetState) :
    Decoder SetState := do
  if len ≤ (← get).offset then throw .gddvException
  else
    let condition ← getUint64 apct
    let comparison ← getUint64 apct
    let argument ← getUint64 apct
    let c : Condition :=
      { Condition.init target with
        condition := condition % 2 ^ 32
        comparison := comparison % 2 ^ 8
        argument := int32 argument }
    if v.i < 9 then
      let operation ← getUint64 apct
      let c := { c with operation := operation % 2 ^ 8 }
      if c.operation = opFor then
        skip
        let timeComparison ← getUint64 apct
        let time ← getUint64 apct
        skip
        pure ⟨int32 (v.i + 1 + 1), v.conditionSet ++
          [{ c with timeComparison := timeComparison % 2 ^ 8, time := int64 time }]⟩
      else pure ⟨int32 (v.i + 1), v.conditionSet ++ [c]⟩
    else pure ⟨int32 (v.i + 1), v.conditionSet ++ [c]⟩

/-- A condition of version 2. -/
def parseCondition2 (apct : Bytes) (len : Int) (target : Int) (count : Nat) (v : SetState) :
    Decoder SetState := do
  if len ≤ (← get).offset then throw .gddvException
  else
    let condition ← getUint64 apct
    let device ← getStdString apct
    skip
    let comparison ← getUint64 apct
    let argument ← getUint64 apct
    let c : Condition :=
      { Condition.init target with
        condition := condition % 2 ^ 32
        device
        comparison := comparison % 2 ^ 8
        argument := int32 argument }
    if v.i < int32 (uint64 (count - 1)) then
      let operation ← getUint64 apct
      let c := { c with operation := operation % 2 ^ 8 }
      if c.operation = opFor then
        skip
        let _ ← getString apct
        skip
        let timeComparison ← getUint64 apct
        let time ← getUint64 apct
        skip
        pure ⟨int32 (v.i + 1 + 1), v.conditionSet ++
          [{ c with timeComparison := timeComparison % 2 ^ 8, time := int64 time }]⟩
      else pure ⟨int32 (v.i + 1), v.conditionSet ++ [c]⟩
    else pure ⟨int32 (v.i + 1), v.conditionSet ++ [c]⟩

/-- The conditions of one target: `body` reads one of them while the counter is below `count`. -/
def parseConditionSet (fuel : Nat) (count : Int) (body : SetState → Decoder SetState) :
    Decoder Unit := do
  let v ← loopM .outOfFuel (fun (v : SetState) _ => decide (v.i < count)) body fuel ⟨0, []⟩
  update fun g => { g with conditions := g.conditions ++ [v.conditionSet] }

/-- `parse_apct`. -/
def parseApct (fuel : Nat) (apct : Bytes) (len : Int) : Decoder Int := do
  begin len
  let version ← getUint64 apct
  if version = 1 then
    whileBelow fuel len (fun _ => do
      let target ← getUint64 apct
      if int32 target = -1 then throw .gddvException
      else parseConditionSet fuel 10 (parseCondition1 apct len (int32 target))) ()
    pure 0
  else if version = 2 then
    whileBelow fuel len (fun _ => do
      let target ← getUint64 apct
      if int32 target = -1 then throw .gddvException
      else
        let count ← getUint64 apct
        parseConditionSet fuel (int32 count) (parseCondition2 apct len (int32 target) count)) ()
    pure 0
  else throw .gddvException

/-! ## PPCC -/

/-- A field of the PPCC table. -/
def ppccField (buf : Bytes) (i : Int) : Decoder Int := do
  let value ← readUint64 buf i
  pure (int32 value)

/-- `parse_ppcc`. The record is kept only if the value also has the second limit. -/
def parsePpcc (name : Bytes) (buf : Bytes) (len : Int) : Decoder Int := do
  if len < 84 then pure 0
  else
    let powerLimitMin ← ppccField buf 28
    let powerLimitMax ← ppccField buf 40
    let timeWindMin ← ppccField buf 52
    let timeWindMax ← ppccField buf 64
    let stepSize ← ppccField buf 76
    if len < 156 then pure 0
    else
      let start := 76 + 12
      let powerLimit1Min ← ppccField buf (start + 12)
      let powerLimit1Max ← ppccField buf (start + 24)
      let timeWind1Min ← ppccField buf (start + 36)
      let timeWind1Max ← ppccField buf (start + 48)
      let step1Size ← ppccField buf (start + 60)
      let limit1Valid :=
        if powerLimit1Max ≠ 0 ∧ powerLimit1Min ≠ 0 ∧ timeWind1Min ≠ 0 ∧ timeWind1Max ≠ 0 ∧
          step1Size ≠ 0 then 1 else 0
      update fun g => { g with ppccs := g.ppccs ++
        [{ name, valid := 1, powerLimitMin, powerLimitMax, timeWindMin, timeWindMax, stepSize,
           limit1Valid, powerLimit1Min, powerLimit1Max, timeWind1Min, timeWind1Max, step1Size }] }
      pure 0

/-! ## PSVT -/

/-- The limit of a row of the PSVT table, which is a string or a number. -/
def getLimit (buf : Bytes) : Decoder Bytes := do
  if (← getType buf) = 8 then getStdString buf
  else
    let tmp ← getUint64 buf
    pure (ascii (toString tmp))

/-- A row of the PSVT table. -/
def parsePsv (buf : Bytes) (psvs : List Psv) : Decoder (List Psv) := do
  let source ← getStdString buf
  let target ← getStdString buf
  let priority ← getUint64 buf
  let samplePeriod ← getUint64 buf
  let temp ← getUint64 buf
  let domain ← getUint64 buf
  let controlKnob ← getUint64 buf
  let limit ← getLimit buf
  let stepSize ← getUint64 buf
  let limitCoeff ← getUint64 buf
  let unlimitCoeff ← getUint64 buf
  skip
  pure (psvs ++ [{ source, target, priority := int32 priority, samplePeriod := int32 samplePeriod,
                   temp := int32 temp, domain := int32 domain, controlKnob := int32 controlKnob,
                   limit, stepSize := int32 stepSize, limitCoeff := int32 limitCoeff,
                   unlimitCoeff := int32 unlimitCoeff }])

/-- `parse_psvt`. -/
def parsePsvt (fuel : Nat) (name : Option Bytes) (buf : Bytes) (len : Int) : Decoder Int := do
  begin len
  let version ← getUint64 buf
  if 2 < int32 version then throw .gddvException
  else
    let psvs ← whileBelow fuel len (parsePsv buf) []
    update fun g => { g with psvts := g.psvts ++ [{ name := name.getD (ascii "Default"), psvs }] }
    pure 0

/-! ## ITMT -/

/-- The size of `struct itmt3_header`. -/
abbrev itmt3HeaderSize : Int := 12

/-- The size of `struct itmt3`. -/
abbrev itmt3Size : Int := 296

/-- An entry of the ITMT table of version 3. The strings start at fixed places and end at their
NUL. -/
def parseItmt3Entry (buf : Bytes) : Decoder ItmtEntry := do
  let offset := (← get).offset
  let target ← cString buf offset
  let temp ← readUint64 buf (offset + 64)
  let pl1Min ← cString buf (offset + 80)
  let pl1Max ← cString buf (offset + 144)
  set { (← get) with offset := uint32 (offset + itmt3Size) }
  pure { target, tripPoint := int32 temp, pl1Min, pl1Max, unused := [] }

/-- The loop of `parse_itmt3`: nothing if the last entry is not complete. -/
def parseItmt3Entries (len : Int) (buf : Bytes) (entries : Option (List ItmtEntry)) :
    Decoder (Option (List ItmtEntry)) := do
  if uint32 (len - (← get).offset) < itmt3Size then pure none
  else
    let entry ← parseItmt3Entry buf
    pure (entries.map fun es => es ++ [entry])

/-- `parse_itmt3`. The length is unsigned here. -/
def parseItmt3 (fuel : Nat) (name : Option Bytes) (buf : Bytes) (len : Int) : Decoder Int := do
  begin len
  if len < itmt3HeaderSize then pure gddvError
  else
    set { (← get) with offset := uint32 itmt3HeaderSize }
    if uint32 (len - itmt3HeaderSize) < itmt3Size then pure gddvError
    else
      let entries ← loopM .outOfFuel
        (fun (es : Option (List ItmtEntry)) c => es.isSome && decide (c.offset < len))
        (parseItmt3Entries len buf) fuel (some [])
      match entries with
      | none => pure gddvError
      | some itmtEntries =>
        update fun g => { g with itmts := g.itmts ++
          [{ version := 3, name := name.getD (ascii "Default"), itmtEntries }] }
        pure 0

/-- An entry of the ITMT table of version 1 or 2. Version 2 has four further fields, which are not
used. -/
def parseItmtEntry (version : Int) (buf : Bytes) (entries : List ItmtEntry) :
    Decoder (List ItmtEntry) := do
  let target ← getStdString buf
  let tripPoint ← getUint64 buf
  let pl1Min ← getStdString buf
  let pl1Max ← getStdString buf
  let unused ← getStdString buf
  if version = 2 then
    let _ ← getUint64 buf
    let _ ← getStdString buf
    let _ ← getUint64 buf
    let _ ← getUint64 buf
    pure (entries ++ [{ target, tripPoint := int32 tripPoint, pl1Min, pl1Max, unused }])
  else
    skip
    pure (entries ++ [{ target, tripPoint := int32 tripPoint, pl1Min, pl1Max, unused }])

/-- `parse_itmt`. -/
def parseItmt (fuel : Nat) (name : Option Bytes) (buf : Bytes) (len : Int) : Decoder Int := do
  begin len
  let version ← getUint64 buf
  if 2 < int32 version then pure gddvError
  else
    let itmtEntries ← whileBelow fuel len (parseItmtEntry (int32 version) buf) []
    update fun g => { g with itmts := g.itmts ++
      [{ version := 1, name := name.getD (ascii "Default"), itmtEntries }] }
    pure 0

/-! ## VSPT and VSCT -/

/-- `parse_vspt`. -/
def parseVspt (fuel : Nat) (buf : Bytes) (len : Int) : Decoder Int := do
  begin len
  let version ← getUint64 buf
  if 1 < int32 version then pure gddvError
  else
    whileBelow fuel len (fun _ => do
      let virtualTemp ← getUint64 buf
      let samplePeriod ← getUint64 buf
      update fun g => { g with vspts := g.vspts ++
        [{ virtualTemp := deciKelvinToCelsius (int32 virtualTemp),
           samplePeriod := int32 (samplePeriod / 10 : Nat) }] }) ()
    pure gddvSuccess

/-- `parse_vsct`. -/
def parseVsct (fuel : Nat) (name : Option Bytes) (buf : Bytes) (len : Int) : Decoder Int := do
  update fun g => { g with vsctsName := name.getD (ascii "vsct") }
  begin len
  let version ← getUint64 buf
  if 1 < int32 version then pure gddvError
  else
    whileBelow fuel len (fun _ => do
      let target ← getStdString buf
      let domainType ← getUint64 buf
      let coeffType ← getUint64 buf
      let coeff ← getUint64 buf
      let operation ← getUint64 buf
      let alpha ← getUint64 buf
      let triggerPoint ← getUint64 buf
      update fun g => { g with vscts := g.vscts ++
        [{ target, domainType := int32 domainType, coeffType := int32 coeffType,
           coeff := int32 coeff, operation := int32 operation, alpha := int32 alpha,
           triggerPoint := int32 triggerPoint }] }) ()
    pure gddvSuccess

/-! ## TRT, IDSP and trip points -/

/-- `parse_trt`. The entries are only logged. -/
def parseTrt (fuel : Nat) (buf : Bytes) (len : Int) : Decoder Int := do
  begin len
  whileBelow fuel len (fun _ => do
    let _ ← getStdString buf
    let _ ← getStdString buf
    let _ ← getUint64 buf
    let _ ← getUint64 buf
    let _ ← getUint64 buf
    let _ ← getUint64 buf
    let _ ← getUint64 buf
    let _ ← getUint64 buf
    pure ()) ()
  pure gddvSuccess

/-- A hexadecimal digit of `%x`. -/
def hexDigit (n : Nat) : UInt8 :=
  if n < 10 then UInt8.ofNat (48 + n) else UInt8.ofNat (87 + n)

/-- `toupper`. -/
def toUpper (b : UInt8) : UInt8 :=
  if 97 ≤ b ∧ b ≤ 122 then b - 32 else b

/-- Bytes printed with `%02x`. -/
def hexString (bs : Bytes) : Bytes :=
  bs.flatMap fun b => [hexDigit (b.toNat / 16), hexDigit (b.toNat % 16)]

/-- The text of the UUID in 16 bytes: the first three groups are stored backwards. -/
def idspString (b : Bytes) : Bytes :=
  (hexString (slice b 0 4).reverse ++ ascii "-" ++ hexString (slice b 4 2).reverse ++ ascii "-" ++
    hexString (slice b 6 2).reverse ++ ascii "-" ++ hexString (slice b 8 2) ++ ascii "-" ++
    hexString (slice b 10 6) ++ ascii "\n").map toUpper

/-- One pass of the loop of `parse_idsp`, from index `i` on: the next index, or nothing where the
loop is left. -/
def parseIdspEntry (start : Bytes) (length : Int) (i : Option Int) : Decoder (Option Int) := do
  match i with
  | none => pure none
  | some i =>
    if int32 (length - i) < 28 then pure none
    else
      let first ← readByte start i
      if first ≠ 7 then pure none
      else
        let i := int32 (i + 4)
        let value ← readUint32 start i
        let len := int32 value
        if len < 16 ∨ int32 (int32 (length - i) - 8) < len then pure none
        else
          let i := int32 (i + 8)
          let bytes ← readBytes start i 16
          update fun g => { g with idsps := g.idsps ++ [idspString bytes] }
          pure (some (int32 (i + len)))

/-- `parse_idsp`. -/
def parseIdsp (fuel : Nat) (start : Bytes) (length : Int) : Decoder Int := do
  if length < 0 then pure 0
  else
    let _ ← loopM .outOfFuel
      (fun (i : Option Int) _ => (i.map fun i => decide (i < length)).getD false)
      (parseIdspEntry start length) fuel (some 0)
    pure 0

/-- The type of a trip from the name of its entry. -/
def trippointType (typeStr : Bytes) : TripPointType :=
  if typeStr.take 2 = ascii "_c" then .critical
  else if typeStr.take 2 = ascii "_p" then .passive
  else if typeStr.take 2 = ascii "_h" then .hot
  else if typeStr.take 2 = ascii "_a" then .active
  else .invalidTripType

/-- `parse_trip_point`. -/
def parseTripPoint (name type : Bytes) (val : Bytes) (len : Int) : Decoder Int := do
  if len < 4 then pure 0
  else
    let temp ← readUint32 val 0
    update fun g => { g with trippoints := g.trippoints ++
      [{ name, typeStr := type, type := trippointType type,
         temp := deciKelvinToCelsius (int32 temp) }] }
    pure 0

end Gddv

end Thermald
