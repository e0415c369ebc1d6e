import Thermald.Gddv.Steps

/-!
# Decompressing a repository

`handle_compressed_gddv` takes the size of the header from the header and the size of the data from
the stream, allocates a buffer for both, and writes the data, a copy of the header and two of its
fields into it. `Event.Contained` says of each of these steps what it needs for memory safety, and
`decompress_contained_iff` says of which repositories it holds: those whose two sizes have a sum
that fits into 64 bits and, where the data is decompressed completely, that reaches to the end of
the last field written and fits into an `int`. The code checks none of these.
-/

namespace Thermald.Gddv

/-- The compressed stream of a repository. -/
def streamOf (buf : Bytes) : Bytes := buf.drop (headersizeOf buf)

/-- The size that the decompressed data of a repository is going to have; there is none if the
sizes or the header of the stream are refused. -/
def inflatedSize (buf : Bytes) : Option Nat :=
  if headerStructSize < buf.length ∧ headersizeOf buf ≤ buf.length then
    lzmaRequiredSize (streamOf buf)
  else none

/-- The sum of the sizes is the exact one, a write stays inside of its buffer, and a buffer is
handed over with its own size. -/
def Event.Contained : Event → Prop
  | .outputSize headersize destlen output => output = headersize + destlen
  | .write offset count size => 0 ≤ offset ∧ offset + count ≤ size
  | .handOver allocated size => size = allocated
  | _ => True

instance : DecidablePred Event.Contained := fun e =>
  match e with
  | .outputSize .. => inferInstanceAs (Decidable (_ = _))
  | .write .. => inferInstanceAs (Decidable (_ ∧ _))
  | .handOver .. => inferInstanceAs (Decidable (_ = _))
  | .enter .. | .item .. | .key .. | .read .. | .accept .. | .dispatch .. =>
    inferInstanceAs (Decidable True)

/-- All steps of a run are contained and no access is out of bounds. -/
def RunContained (new : List Event) (stop : Option Stop) : Prop :=
  (∀ e ∈ new, e.Contained) ∧ ∀ i, stop ≠ some (.outOfBounds i)

/-! ## Inflating -/

/-- The event belongs to the decompression of a repository. -/
def Event.OfInflate : Event → Prop
  | .outputSize .. | .write .. | .handOver .. => True
  | _ => False

/-- Whatever the sizes are, only the steps of a decompression are taken, and a repository that is
handed over has its size. -/
theorem inflate_emits (env : Env) (buf : Bytes) {headersize : Nat} (hlen : headersize ≤ buf.length)
    (destlen : Nat) :
    Emits Vault.trace (inflate env buf headersize destlen)
      (fun new r => (.outputSize headersize destlen ((headersize + destlen) % 2 ^ 64) ∈ new ∧
        ∀ e ∈ new, e.OfInflate) ∧
        ∀ d n, r = some (d, n) → Sized (d.take n.toNat) n ∧ ∃ a, .handOver a n ∈ new)
      fun new e => (.outputSize headersize destlen ((headersize + destlen) % 2 ^ 64) ∈ new ∧
        ∀ e ∈ new, e.OfInflate) ∧ e ≠ .outOfFuel := by
  have hheader : InBounds buf 0 headersize := ⟨le_refl 0, by omega⟩
  unfold inflate
  generalize (headersize + destlen) % 2 ^ 64 = outputSize
  refine Emits.log_bind (Emits.allocate_bind (fun _ => ?_) fun _ => by simp [Event.OfInflate])
  refine Emits.store_bind (fun d₁ h₁ => ?_) fun _ _ _ => by simp [Event.OfInflate]
  refine .ite (fun _ => .pure (by simp [Event.OfInflate])) fun _ => ?_
  rw [hheader.read_bytes, pure_bind]
  refine Emits.store_bind (fun d₂ h₂ => ?_) fun _ _ _ => by simp [Event.OfInflate]
  refine Emits.read_bind (by decide) (fun _ => ?_) fun _ _ => by simp [Event.OfInflate]
  refine Emits.store_bind (fun d₃ h₃ => ?_) fun _ _ _ => by simp [Event.OfInflate]
  refine Emits.store_bind (fun d₄ h₄ => ?_) fun _ _ _ => by simp [Event.OfInflate]
  refine Emits.log_bind (.pure ⟨by simp [Event.OfInflate], fun d n hr => ?_⟩)
  cases hr
  have hlen : d₄.length = outputSize := by
    rw [h₄, h₃, h₂, h₁, List.length_replicate]
  rw [← hlen]
  exact ⟨sized_take d₄, d₄.length, by simp⟩

/-- The header of a repository that is decompressed ends in the buffer. -/
theorem headersize_le_of_inflated_size {buf : Bytes} {destlen : Nat}
    (h : inflatedSize buf = some destlen) : headersizeOf buf ≤ buf.length := by
  unfold inflatedSize at h
  split at h
  · omega
  · cases h

/-- What the parser does with a compressed repository. -/
theorem decompress_gddv_eq (env : Env) (buf : Bytes) :
    decompressGddv env buf buf.length =
      match inflatedSize buf with
      | none => pure none
      | some destlen => inflate env buf (headersizeOf buf) destlen := by
  unfold decompressGddv inflatedSize
  by_cases hheader : headerStructSize < buf.length
  · have hb : InBounds buf 2 2 := ⟨by decide, by simp only [headerStructSize] at hheader; omega⟩
    rw [if_neg (by omega), readUint16, hb.read_bytes, map_pure, pure_bind]
    show (if (buf.length : Int) < headersizeOf buf then pure none else
      match lzmaRequiredSize (streamOf buf) with
      | none => pure none
      | some destlen => inflate env buf (headersizeOf buf) destlen) = _
    by_cases hsize : (buf.length : Int) < headersizeOf buf
    · rw [if_pos hsize, if_neg (by omega)]
    · rw [if_neg hsize, if_pos ⟨hheader, by omega⟩]
  · rw [if_pos (by omega), if_neg (by omega)]

/-- The same for the whole of `handle_compressed_gddv`. -/
theorem decompress_emits (env : Env) (buf : Bytes) :
    Emits Vault.trace (decompressGddv env buf buf.length)
      (fun new r => (∀ e ∈ new, e.OfInflate) ∧
        ∀ d n, r = some (d, n) → Sized (d.take n.toNat) n ∧ ∃ a, .handOver a n ∈ new)
      fun new e => (∀ e ∈ new, e.OfInflate) ∧ e ≠ .outOfFuel := by
  rw [decompress_gddv_eq]
  cases hsize : inflatedSize buf with
  | none => exact .pure (by simp)
  | some destlen =>
      refine (inflate_emits env buf (headersize_le_of_inflated_size hsize) destlen).conseq ?_ ?_
      · intro new r hpost
        obtain ⟨⟨-, hall⟩, hr⟩ := hpost
        exact ⟨hall, hr⟩
      · intro new e hpost
        obtain ⟨⟨-, hall⟩, he⟩ := hpost
        exact ⟨hall, he⟩

/-! ## When the steps are contained -/

/-- The end of the member `payload_size` of the header of version 2. -/
abbrev payloadSizeEnd : Nat := 144

/-- If the data is decompressed, the sum of the sizes reaches to the end of the fields that are
written, and it is an `int`. -/
def OutputFits (env : Env) (buf : Bytes) (headersize destlen : Nat) : Prop :=
  env.alloc (headersize + destlen) = true →
    (lzmaDecompress env destlen (buf.drop headersize)).1 = gddvSuccess →
    payloadSizeEnd ≤ headersize + destlen ∧ ((headersize + destlen : Nat) : Int) ≤ intMax

/-- `lzma_decompress` writes as many bytes as `LzmaDecode`. -/
theorem lzma_decompress_length_le {env : Env}
    (hlzma : ∀ stream props n, (env.lzmaDecode stream props n).2.length ≤ n) (destlen : Nat)
    (src : Bytes) : (lzmaDecompress env destlen src).2.length ≤ destlen := by
  have h := hlzma (src.drop lzmaHeaderSize) src destlen
  unfold lzmaDecompress
  split
  · dsimp only
    split
    · exact h
    · split <;> exact h
  · exact Nat.zero_le _

/-- The first step and the rest. -/
theorem RunContained.cons_iff {e : Event} {new : List Event} {stop : Option Stop} :
    RunContained (e :: new) stop ↔ e.Contained ∧ RunContained new stop := by
  simp [RunContained, and_assoc]

theorem RunContained.nil_iff {stop : Option Stop} :
    RunContained [] stop ↔ ∀ i, stop ≠ some (.outOfBounds i) := by
  simp [RunContained]

/-- Without an overflow of the sum, the steps are contained if and only if the output fits. -/
theorem inflate_contained_iff {env : Env}
    (hlzma : ∀ stream props n, (env.lzmaDecode stream props n).2.length ≤ n) {buf : Bytes}
    {headersize destlen : Nat} (hlen : headersize ≤ buf.length)
    (hsum : headersize + destlen < 2 ^ 64) :
    Emits Vault.trace (inflate env buf headersize destlen)
      (fun new _ => RunContained new none ↔ OutputFits env buf headersize destlen)
      fun new e => RunContained new (some e) ↔ OutputFits env buf headersize destlen := by
  have hheader : InBounds buf 0 headersize := ⟨le_refl 0, by omega⟩
  have hout := lzma_decompress_length_le hlzma destlen (buf.drop headersize)
  unfold inflate
  rw [Nat.mod_eq_of_lt hsum]
  have hstore : InBounds (List.replicate (headersize + destlen) 0) headersize
      (lzmaDecompress env destlen (buf.drop headersize)).2.length := by
    rw [InBounds, List.length_replicate]
    omega
  refine Emits.log_bind (Emits.allocate_bind (fun halloc => ?_) fun halloc => ?_)
  swap
  · simp [RunContained.cons_iff, RunContained.nil_iff, Event.Contained, OutputFits, halloc]
  refine Emits.store_bind (fun d₁ h₁ => ?_) fun _ hb => absurd hstore hb
  rw [List.length_replicate] at h₁
  refine .ite (fun hrc => .pure ?_) fun hrc => ?_
  · have hfail : (lzmaDecompress env destlen (buf.drop headersize)).1 ≠ gddvSuccess := hrc
    simp [RunContained.cons_iff, RunContained.nil_iff, Event.Contained, OutputFits, hfail]
    omega
  -- the data is complete, so that the output fits if and only if its two bounds hold
  have hfits : OutputFits env buf headersize destlen ↔
      144 ≤ headersize + destlen ∧ ((headersize + destlen : Nat) : Int) ≤ intMax :=
    ⟨fun h => h halloc (not_not.1 hrc), fun h _ _ => h⟩
  rw [hheader.read_bytes, pure_bind]
  refine Emits.store_bind (fun d₂ h₂ => ?_) fun _ hb => absurd ⟨le_refl 0, ?_⟩ hb
  swap
  · rw [hheader.length_slice]
    omega
  rw [h₁] at h₂
  refine Emits.read_bind (by decide) (fun hflags => ?_) fun hflags j => ?_
  · refine Emits.store_bind (fun d₃ h₃ => ?_) fun _ hb => absurd hflags hb
    rw [h₂] at h₃
    refine Emits.store_bind (fun d₄ h₄ => ?_) fun _ hb j => ?_
    · have hint : int32 (headersize + destlen : Nat) = (headersize + destlen : Nat) ↔
          ((headersize + destlen : Nat) : Int) ≤ intMax :=
        ⟨fun h => h ▸ (int32_bounds _).2, int32_eq_self (by omega)⟩
      refine Emits.log_bind (.pure ?_)
      simp only [RunContained.cons_iff, RunContained.nil_iff, Event.Contained, hfits, hint,
        hheader.length_slice, length_to_little_endian, List.length_replicate, h₁, h₂, h₃]
      constructor
      · intro hex
        obtain ⟨-, -, -, -, ⟨-, hend⟩, hmax, -⟩ := hex
        exact ⟨by omega, hmax⟩
      · intro hex
        obtain ⟨hend, hmax⟩ := hex
        exact ⟨trivial, by omega, by omega, by omega, by omega, hmax, fun _ h => nomatch h⟩
    · have hend : ¬ 144 ≤ headersize + destlen := by
        rw [InBounds, length_to_little_endian, h₃] at hb
        omega
      simp [RunContained, hfits, hend]
  · have hend : ¬ 144 ≤ headersize + destlen := by
      rw [InBounds, h₂] at hflags
      omega
    simp [RunContained, hfits, hend]

/-- A sum that overflows is not the size of the output. -/
theorem inflate_overflow (env : Env) {buf : Bytes} {headersize destlen : Nat}
    (hlen : headersize ≤ buf.length) (hsum : ¬ headersize + destlen < 2 ^ 64) :
    Emits Vault.trace (inflate env buf headersize destlen)
      (fun new _ => ¬ RunContained new none) fun new e => ¬ RunContained new (some e) := by
  have hwrap :
      ¬ (Event.outputSize headersize destlen ((headersize + destlen) % 2 ^ 64)).Contained := by
    show ¬ (headersize + destlen) % 2 ^ 64 = headersize + destlen
    omega
  refine (inflate_emits env buf hlen destlen).conseq ?_ ?_
  · intro new _ hpost hholds
    obtain ⟨⟨hmem, -⟩, -⟩ := hpost
    obtain ⟨hall, -⟩ := hholds
    exact hwrap (hall _ hmem)
  · intro new _ hpost hholds
    obtain ⟨⟨hmem, -⟩, -⟩ := hpost
    obtain ⟨hall, -⟩ := hholds
    exact hwrap (hall _ hmem)

/-- The decompression of a repository is contained if and only if, for the size that its data is
going to have, the sum with the size of the header does not overflow and the output fits. -/
theorem decompress_contained_iff {env : Env}
    (hlzma : ∀ stream props n, (env.lzmaDecode stream props n).2.length ≤ n) (buf : Bytes)
    {v : Vault} (hv : v.trace = []) :
    RunContained (finalState (decompressGddv env buf buf.length v)).trace
        (stopOf (decompressGddv env buf buf.length v)) ↔
      ∀ destlen, inflatedSize buf = some destlen →
        headersizeOf buf + destlen < 2 ^ 64 ∧ OutputFits env buf (headersizeOf buf) destlen := by
  rw [decompress_gddv_eq]
  cases hsize : inflatedSize buf with
  | none =>
      show RunContained v.trace none ↔ _
      simp [hv, RunContained.nil_iff]
  | some destlen =>
      have hlen := headersize_le_of_inflated_size hsize
      simp only [Option.some.injEq, forall_eq']
      by_cases hsum : headersizeOf buf + destlen < 2 ^ 64
      · simp only [hsum, true_and]
        exact Emits.final (P := fun new stop => RunContained new stop ↔ _)
          (inflate_contained_iff hlzma hlen hsum) hv
      · simp only [hsum, false_and, iff_false]
        exact Emits.final (P := fun new stop => ¬ RunContained new stop)
          (inflate_overflow env hlen hsum) hv

/-! ## Examples -/

/-- A stream that decodes to four bytes, up to its end marker. -/
def sampleStream : Bytes :=
  [0x00, 0x23, 0x91, 0x2C, 0xAD, 0x07, 0xFF, 0xFF, 0xFF, 0xFF, 0x80, 0x00, 0x00, 0x00]

/-- `LzmaDecode` as far as the sample stream is concerned, and memory below 2 GiB. -/
def sampleEnv : Env where
  alloc n := n < 2 ^ 31
  lzmaDecode stream _ n := if stream = sampleStream then (0, (ascii "GDDV").take n) else (1, [])

/-- The header of a repository of version 2. -/
def sampleHeader (headersize flags : Nat) : Bytes :=
  toLittleEndian 2 headerSignature ++ toLittleEndian 2 headersize ++
    toLittleEndian 4 (2 * 2 ^ 24) ++ toLittleEndian 4 flags ++ List.replicate 136 0

/-- A compressed repository with the sample stream, which promises some size. -/
def sampleRepository (headersize originalSize : Nat) : Bytes :=
  sampleHeader headersize (2 ^ compressedBit) ++ [0x5D, 0x00, 0x00, 0x00, 0x01] ++
    toLittleEndian 8 originalSize ++ sampleStream

/-- A stream that promises almost `2 ^ 64` bytes gets a buffer of 146 bytes, less than the
header. -/
theorem promised_size_overflows :
    ¬ RunContained
      (finalState (parseGddv sampleEnv 1 false (sampleRepository 148 (2 ^ 64 - 2)) 175
        Vault.start)).trace
      (stopOf (parseGddv sampleEnv 1 false (sampleRepository 148 (2 ^ 64 - 2)) 175 Vault.start)) ∧
    ¬ RunContained
      (finalState (decompressGddv sampleEnv (sampleRepository 148 (2 ^ 64 - 2)) 175
        Vault.start)).trace
      (stopOf (decompressGddv sampleEnv (sampleRepository 148 (2 ^ 64 - 2)) 175 Vault.start)) := by
  have hwrap : ¬ (Event.outputSize 148 (2 ^ 64 - 2) 146).Contained := by decide +kernel
  refine ⟨fun h => hwrap (h.1 _ ?_), fun h => hwrap (h.1 _ ?_)⟩
  · decide +kernel
  · decide +kernel

/-- The same repository with the true size of its data is decompressed safely. -/
theorem true_size_contained :
    RunContained
      (finalState (decompressGddv sampleEnv (sampleRepository 148 4) 175 Vault.start)).trace
      (stopOf (decompressGddv sampleEnv (sampleRepository 148 4) 175 Vault.start)) := by
  have hlzma : ∀ stream props n, (sampleEnv.lzmaDecode stream props n).2.length ≤ n := by
    intro stream props n
    show (if stream = sampleStream then ((0 : Int), (ascii "GDDV").take n)
      else (1, [])).2.length ≤ n
    split
    · exact List.length_take_le _ _
    · exact Nat.zero_le n
  refine (decompress_contained_iff hlzma (sampleRepository 148 4) (v := Vault.start) rfl).2 ?_
  intro destlen hsize
  have hheader : headersizeOf (sampleRepository 148 4) = 148 := by decide +kernel
  have hfour : inflatedSize (sampleRepository 148 4) = some 4 := by decide +kernel
  obtain rfl : 4 = destlen := Option.some.inj (hfour.symm.trans hsize)
  rw [hheader]
  exact ⟨by decide, fun _ _ => by decide⟩

end Thermald.Gddv
