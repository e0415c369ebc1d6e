import Thermald.Gddv.Decoders

/-!
# Walking through a data vault

A data vault is a repository: a header and behind it items, each a key with its value or another
repository. `parseGddv` goes through the items of a repository, `parseGddvKey` takes a key and its
value and hands the value to the decoder of its table, and `handleCompressedGddv` decompresses a
repository and parses the result.

A call gets the bytes that it may touch, so its buffer has as many bytes as its size says. Offsets
are of type `int`; `parseGddvKey` gets the buffer of its caller and the offset at which its own
one begins.

`LzmaDecode` and the allocator are parameters. The trace is not part of the code: it records the
calls, the accepted lengths and the writes that the statements about the parser speak of.
-/

namespace Thermald

namespace Gddv

/-- What the parser relies on: whether memory of some size can be allocated, and `LzmaDecode`, which
gets the stream, the properties and the room for the result, and returns its code and the bytes that
it has written. -/
structure Env where
  alloc : Nat → Bool
  lzmaDecode : Bytes → Bytes → Nat → Int × Bytes

/-- The lengths that `parse_gddv_key` checks. -/
inductive Field where
  | key
  | valueHeader
  | value
  deriving DecidableEq, Repr

/-- What the parser does with buffers. -/
inductive Event where
  /-- `parse_gddv` is called, inside another repository or not. -/
  | enter (nested : Bool) (buf : Bytes) (size : Int)
  /-- An iteration of the item loop begins. -/
  | item (buf : Bytes) (size offset : Int)
  /-- `parse_gddv_key` is called on the part of a buffer that begins at an offset. -/
  | key (buf : Bytes) (base size : Int)
  /-- Bytes of the buffer of some size are read or copied. -/
  | read (offset count size : Int)
  /-- A length has passed its check. -/
  | accept (field : Field) (offset length size : Int)
  /-- The value of a key goes to the decoders, which add to the tables. -/
  | dispatch (tables : Gddv) (key val : Bytes)
  /-- The size of the output is computed from that of the header and that of the data. -/
  | outputSize (headersize destlen outputSize : Nat)
  /-- Bytes of a buffer of some size are written. -/
  | write (offset count size : Int)
  /-- A buffer is handed over as one of some size. -/
  | handOver (allocated : Nat) (size : Int)
  deriving DecidableEq, Repr

end Gddv

/-- The state of the parser with the trace. -/
structure Vault where
  gddv : Gddv
  trace : List Gddv.Event

namespace Gddv

/-- A computation of the parser. -/
abbrev Parser (α : Type) := EStateM Stop Vault α

/-- The start of a parse. -/
def Vault.start : Vault := ⟨Gddv.init, []⟩

/-- Record an event. -/
def log (e : Event) : Parser Unit :=
  modify fun v => { v with trace := v.trace ++ [e] }

/-- Run a decoder. -/
def decode (m : Decoder Int) : Parser Int := fun v =>
  match m ⟨0, v.gddv⟩ with
  | .ok a c => .ok a { v with gddv := c.gddv }
  | .error e c => .error e { v with gddv := c.gddv }

/-- Copy bytes from the part of a buffer that begins at `base` and has the size `size`. -/
def fetch (buf : Bytes) (base size i : Int) (n : Nat) : Parser Bytes := do
  log (.read i n size)
  readBytes buf (base + i) n

/-- Read an unsigned integer of `n` bytes in this way. -/
def fetchUint (buf : Bytes) (base size i : Int) (n : Nat) : Parser Nat :=
  littleEndian <$> fetch buf base size i n

/-- `new char[n]`. -/
def allocate (env : Env) (n : Nat) : Parser Unit :=
  if env.alloc n then pure () else throw .badAlloc

/-- `ESIFDV_HEADER_SIGNATURE`. -/
abbrev headerSignature : Nat := 0x1FE5

/-- `ESIFDV_ITEM_KEYS_REV0_SIGNATURE`. -/
abbrev keysSignature : Nat := 0xA0D8

/-- `ESIF_SERVICE_CONFIG_COMPRESSED`, the bit of the flags. -/
abbrev compressedBit : Nat := 30

/-- The size of `struct header`. -/
abbrev headerStructSize : Int := 148

/-- `ESIFHDR_GET_MAJOR`. -/
def getMajor (version : Nat) : Nat := version / 2 ^ 24 % 256

/-! ## Keys -/

/-- The tokens that `strtok` finds in a string. -/
def tokens (s : Bytes) : List Bytes :=
  (s.splitOn (UInt8.ofNat '/'.toNat)).filter fun t => t ≠ []

/-- `thd_strcmp_n` on equal strings. Only some thousand characters are looked at. -/
def thdStrcmpN (a b : Bytes) : Bool :=
  let n := max (min a.length 4096) (min b.length 4096)
  a.take n = b.take n

/-- The name, the type and the point that a key gives. -/
structure KeyPath where
  name : Option Bytes
  type : Option Bytes
  point : Option Bytes

/-- The path of a key: that of a participant or that of a shared table. -/
def keyPath (str : Bytes) (rest : List Bytes) : KeyPath :=
  if thdStrcmpN str (ascii "participants") then
    { name := rest[0]?, type := rest[1]?, point := rest[2]? }
  else if thdStrcmpN str (ascii "shared") then
    { name := none
      type := rest[1]?
      point := if thdStrcmpN (rest[0]?.getD []) (ascii "tables") then rest[2]? else none }
  else { name := none, type := none, point := none }

/-- The decoders that apply to a path, in the order of the source. The table of a point is named
after it. -/
def decoders (fuel : Nat) (p : KeyPath) (val : Bytes) (vallength : Int) : List (Decoder Int) :=
  match p.type with
  | none => []
  | some type =>
    let table := p.point.or p.name
    let is (s : String) : Bool := thdStrcmpN type (ascii s)
    (if is "ppcc" then p.name.toList.map fun name => parsePpcc name val vallength else []) ++
    (if is "psvt" then [parsePsvt fuel table val vallength] else []) ++
    (if is "appc" then [parseAppc fuel val vallength] else []) ++
    (if is "apct" then [parseApct fuel val vallength] else []) ++
    (if is "apat" then [parseApat fuel val vallength] else []) ++
    (if type.take 5 = ascii "itmt3" then [parseItmt3 fuel table val vallength] else []) ++
    (if is "itmt" then [parseItmt fuel table val vallength] else []) ++
    (if is "idsp" then p.name.toList.map fun _ => parseIdsp fuel val vallength else []) ++
    (if is "trippoint" then
      p.name.toList.flatMap fun name => p.point.toList.map fun point =>
        parseTripPoint name point val vallength
     else []) ++
    (if is "_trt" then [parseTrt fuel val vallength] else []) ++
    (if is "vsct" then [parseVsct fuel table val vallength] else []) ++
    (if is "vspt" then [parseVspt fuel val vallength] else [])

/-- Run decoders one after the other. -/
def runDecoders : List (Decoder Int) → Parser Unit
  | [] => pure ()
  | m :: rest => do
    let _ ← decode m
    runDecoders rest

/-- The end of `parse_gddv_key`: hand the value to the decoders that the key names. -/
def dispatch (fuel : Nat) (key val : Bytes) : Parser Unit :=
  match tokens (key.takeWhile fun b => b ≠ 0) with
  | [] => pure ()
  | str :: rest => runDecoders (decoders fuel (keyPath str rest) (val ++ [0]) val.length)

/-- The same with the tables at this time recorded. -/
def recordedDispatch (fuel : Nat) (key val : Bytes) : Parser Unit := do
  let v ← get
  log (.dispatch v.gddv key val)
  dispatch fuel key val

/-- `parse_gddv_key` behind the key, with the end offset that it reports. -/
def parseGddvValue (env : Env) (fuel : Nat) (buf : Bytes) (base size : Int) (key : Bytes)
    (offset : Int) : Parser (Int × Int) := do
  if size < int32 (offset + 8) then throw .gddvException
  else
    log (.accept .valueHeader offset 8 size)
    let _ ← fetchUint buf base size offset 4
    let offset := int32 (offset + 4)
    let vallength ← fetchUint buf base size offset 4
    let offset := int32 (offset + 4)
    if intMax ≤ vallength ∨ size < int32 (offset + vallength) then throw .gddvException
    else
      log (.accept .value offset vallength size)
      allocate env (vallength + 1)
      let val ← fetch buf base size offset vallength
      let endOffset := int32 (offset + vallength)
      recordedDispatch fuel key val
      pure (gddvSuccess, endOffset)

/-- `parse_gddv_key` on the part of the buffer that begins at `base`. -/
def parseGddvKey (env : Env) (fuel : Nat) (buf : Bytes) (base size : Int) :
    Parser (Int × Int) := do
  log (.key buf base size)
  if size < 8 then throw .gddvException
  else
    let _ ← fetchUint buf base size 0 4
    let keylength ← fetchUint buf base size 4 4
    if keylength = 0 ∨ intMax ≤ keylength ∨ size < int32 (8 + keylength) then throw .gddvException
    else
      log (.accept .key 8 keylength size)
      allocate env (keylength + 1)
      let key ← fetch buf base size 8 keylength
      parseGddvValue env fuel buf base size key (int32 (8 + keylength))

/-! ## Compressed repositories -/

/-- The size of `struct LzmaHeader`. -/
abbrev lzmaHeaderSize : Nat := 13

/-- `LZMA_MAX_COMPRESSED_SIZE`. -/
abbrev lzmaMaxCompressedSize : Nat := 2 ^ 63 - 2

/-- The member `original_size` of a `struct LzmaHeader`. -/
def originalSize (src : Bytes) : Nat := littleEndian (slice src 5 8)

/-- `lzma_decompress` without a destination: the size that the data will have. -/
def lzmaRequiredSize (src : Bytes) : Option Nat :=
  if lzmaHeaderSize < src.length ∧ src.take 2 = [0x5D, 0x00] ∧ 0 < originalSize src ∧
      originalSize src ≠ 2 ^ 64 - 1 then
    some (originalSize src)
  else none

/-- `lzma_decompress` with room for `destLen` bytes: the return code and the bytes written. -/
def lzmaDecompress (env : Env) (destLen : Nat) (src : Bytes) : Int × Bytes :=
  if lzmaHeaderSize < src.length then
    let (rc, out) := env.lzmaDecode (src.drop lzmaHeaderSize) src destLen
    if out.length < originalSize src then (gddvError, out)
    else if lzmaMaxCompressedSize < out.length then (gddvError, out)
    else (rc, out)
  else (gddvError, [])

/-- Write to a buffer and record it. -/
def store (buf : Bytes) (i : Int) (bs : Bytes) : Parser Bytes := do
  log (.write i bs.length buf.length)
  writeBytes buf i bs

/-- `handle_compressed_gddv` from the size of the output on: the decompressed repository and the
size that the recursive call gets. -/
def inflate (env : Env) (buf : Bytes) (headersize destlen : Nat) :
    Parser (Option (Bytes × Int)) := do
  let outputSize := (headersize + destlen) % 2 ^ 64
  log (.outputSize headersize destlen outputSize)
  allocate env outputSize
  let data := lzmaDecompress env destlen (buf.drop headersize)
  let decompressed ← store (List.replicate outputSize 0) headersize data.2
  if data.1 ≠ 0 then pure none
  else
    let header ← readBytes buf 0 headersize
    let decompressed ← store decompressed 0 header
    let flags ← readUint32 decompressed 8
    let decompressed ← store decompressed 8
      (toLittleEndian 4 (flags - if flags.testBit compressedBit then 2 ^ compressedBit else 0))
    let decompressed ← store decompressed 140 (toLittleEndian 4 data.2.length)
    log (.handOver outputSize (int32 outputSize))
    pure (some (decompressed, int32 outputSize))

/-- `handle_compressed_gddv` up to the recursive call. -/
def decompressGddv (env : Env) (buf : Bytes) (size : Int) : Parser (Option (Bytes × Int)) := do
  if size ≤ headerStructSize then pure none
  else
    let headersize ← readUint16 buf 2
    if size < headersize then pure none
    else
      match lzmaRequiredSize (buf.drop headersize) with
      | none => pure none
      | some destlen => inflate env buf headersize destlen

/-! ## Repositories -/

/-- The variables of the item loop: the offset, and the result once the loop is left early. -/
structure Walk where
  offset : Int
  ret : Option Int

/-- The condition of the item loop. -/
def Walk.goesOn (headersize : Nat) (size : Int) (w : Walk) : Bool :=
  w.ret.isNone && decide (int32 (w.offset + headersize) < size)

/-- The rest of an iteration, after a call on the part of the buffer that begins at `offset`. -/
def Walk.next (offset : Int) : Int × Int → Walk
  | (res, endOffset) =>
    if res ≠ gddvSuccess then ⟨offset, some res⟩ else ⟨int32 (offset + endOffset), none⟩

/-- An iteration of the item loop, given the parser of nested repositories. -/
def parseItem (env : Env) (fuel : Nat) (nested : Bytes → Int → Parser (Int × Int)) (major : Nat)
    (buf : Bytes) (size : Int) (w : Walk) : Parser Walk := do
  log (.item buf size w.offset)
  if major = 2 then
    let signature ← fetchUint buf 0 size w.offset 2
    if signature = keysSignature then
      let offset := int32 (w.offset + 2)
      let r ← parseGddvKey env fuel buf offset (int32 (size - offset))
      pure (Walk.next offset r)
    else if signature = headerSignature then
      let r ← nested (buf.drop w.offset.toNat) (int32 (size - w.offset))
      pure (Walk.next w.offset r)
    else pure ⟨w.offset, some gddvError⟩
  else
    let r ← parseGddvKey env fuel buf w.offset (int32 (size - w.offset))
    pure (Walk.next w.offset r)

/-- The item loop, with the end offset that is reported. -/
def parseItems (env : Env) (fuel : Nat) (nested : Bytes → Int → Parser (Int × Int))
    (major headersize : Nat) (buf : Bytes) (size : Int) : Parser (Int × Int) := do
  let w ← loopM .outOfFuel (fun (w : Walk) _ => w.goesOn headersize size)
    (parseItem env fuel nested major buf size) fuel ⟨headersize, none⟩
  match w.ret with
  | some res => pure (res, 0)
  | none => pure (gddvSuccess, w.offset)

/-- `parse_gddv`, with the end offset that it reports. The result of a compressed repository comes
without an end offset. -/
def parseGddv (env : Env) : Nat → Bool → Bytes → Int → Parser (Int × Int)
  | 0, _, _, _ => throw .outOfFuel
  | fuel + 1, isNested, buf, size => do
    log (.enter isNested buf size)
    if size < headerStructSize then pure (gddvError, 0)
    else
      let signature ← readUint16 buf 0
      if signature ≠ headerSignature then throw .gddvException
      else
        let version ← readUint32 buf 4
        if getMajor version ≠ 1 ∧ getMajor version ≠ 2 then pure (gddvError, 0)
        else
          let headersize ← readUint16 buf 2
          let flags ← readUint32 buf 8
          if getMajor version = 2 ∧ flags.testBit compressedBit then
            -- `handle_compressed_gddv`
            match ← decompressGddv env buf size with
            | none => pure (gddvError, 0)
            | some (decompressed, outputSize) =>
              let (res, _) ←
                parseGddv env fuel false (decompressed.take outputSize.toNat) outputSize
              pure (res, 0)
          else parseItems env fuel (parseGddv env fuel true) (getMajor version) headersize buf size

end Gddv

end Thermald
