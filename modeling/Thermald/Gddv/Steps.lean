import Thermald.Gddv.Vault

/-!
# Rules for the steps of the parser

The fields of the header of a repository, the rules of `Emits` for the steps that the parser takes,
and the two equations of `parseGddv`: on fewer bytes than a header has it fails, and otherwise all
fields of the header are there and the parser is a case distinction on them.
-/

namespace Thermald.Gddv

/-! ## Headers -/

/-- The member `signature` of the header of a repository. -/
def signatureOf (buf : Bytes) : Nat := littleEndian (slice buf 0 2)

/-- The member `headersize`. -/
def headersizeOf (buf : Bytes) : Nat := littleEndian (slice buf 2 2)

theorem headersize_lt (buf : Bytes) : headersizeOf buf < 65536 := by
  have hlt := little_endian_lt (slice buf 2 2)
  have hlen : (slice buf 2 2).length ≤ 2 := List.length_take_le _ _
  have hpow : 256 ^ (slice buf 2 2).length ≤ 256 ^ 2 := Nat.pow_le_pow_right (by decide) hlen
  exact Nat.lt_of_lt_of_le hlt hpow

/-- The major version. -/
def majorOf (buf : Bytes) : Nat := getMajor (littleEndian (slice buf 4 4))

/-- The repository is a compressed one of version 2. -/
def IsCompressed (buf : Bytes) : Prop :=
  majorOf buf = 2 ∧ (littleEndian (slice buf 8 4)).testBit compressedBit = true

instance (buf : Bytes) : Decidable (IsCompressed buf) := inferInstanceAs (Decidable (_ ∧ _))

/-- A call gets as many bytes as its size says, and none if the size is negative. -/
def Sized (buf : Bytes) (size : Int) : Prop := size ≤ intMax ∧ size.toNat = buf.length

/-- The part of a buffer that its length as an `int` gives. -/
theorem sized_take (d : Bytes) : Sized (d.take (int32 d.length).toNat) (int32 d.length) := by
  have hle : int32 d.length ≤ d.length := by
    unfold int32
    omega
  refine ⟨(int32_bounds _).2, ?_⟩
  rw [List.length_take, Nat.min_eq_left (Int.toNat_le.2 hle)]

/-- The part of a buffer that begins at an offset. -/
theorem sized_drop {buf : Bytes} {offset : Int} (hmax : (buf.length : Int) ≤ intMax)
    (h0 : 0 ≤ offset) (hle : offset ≤ buf.length) :
    Sized (buf.drop offset.toNat) (int32 (buf.length - offset)) := by
  simp only [intMax] at hmax
  rw [int32_eq_self (by omega) (by simp only [intMax]; omega)]
  refine ⟨by simp only [intMax]; omega, ?_⟩
  rw [List.length_drop]
  omega

/-! ## Steps -/

section Steps

variable {α : Type} {Q : List Event → α → Prop} {E : List Event → Stop → Prop}

/-- An event stands before those of the rest. -/
theorem Emits.log_bind {f : Unit → Parser α} {e : Event}
    (h : Emits Vault.trace (f ()) (fun more => Q (e :: more)) fun more => E (e :: more)) :
    Emits Vault.trace (log e >>= f) Q E := by
  have hlog : Emits Vault.trace (log e) (fun new _ => new = [e]) E := .modify (fun _ => rfl) rfl
  refine .bind hlog ?_
  intro _ _ heq
  subst heq
  exact h

/-- Memory is allocated or not. -/
theorem Emits.allocate_bind {env : Env} {n : Nat} {f : Unit → Parser α}
    (hok : env.alloc n = true → Emits Vault.trace (f ()) Q E)
    (hbad : env.alloc n = false → E [] .badAlloc) :
    Emits Vault.trace (allocate env n >>= f) Q E := by
  unfold allocate
  cases h : env.alloc n with
  | true =>
      rw [if_pos rfl, pure_bind]
      exact hok h
  | false =>
      rw [if_neg (by simp)]
      refine .bind (Q := fun _ _ => False) (.throw (hbad h)) ?_
      rintro _ _ ⟨⟩

/-- A value is read inside of the buffer, or the run stops there. -/
theorem Emits.read_bind {buf : Bytes} {i : Int} {n : Nat} {f : Nat → Parser α} (hn : n ≠ 0)
    (hin : InBounds buf i n → Emits Vault.trace (f (littleEndian (slice buf i n))) Q E)
    (hout : ¬ InBounds buf i n → ∀ j, E [] (.outOfBounds j)) :
    Emits Vault.trace ((littleEndian <$> readBytes buf i n) >>= f) Q E := by
  by_cases hb : InBounds buf i n
  · rw [hb.read_bytes, map_pure, pure_bind]
    exact hin hb
  · unfold readBytes
    rw [if_neg hn, if_neg hb]
    refine .bind (Q := fun _ _ => False) (.throw (hout hb _)) ?_
    rintro _ _ ⟨⟩

/-- A write stays inside of the buffer and keeps its length, or the run stops there. -/
theorem Emits.store_bind {buf bs : Bytes} {i : Int} {f : Bytes → Parser α}
    (hin : ∀ buf', buf'.length = buf.length → Emits Vault.trace (f buf')
      (fun more => Q (.write i bs.length buf.length :: more))
      fun more => E (.write i bs.length buf.length :: more))
    (hout : bs ≠ [] → ¬ InBounds buf i bs.length →
      ∀ j, E [.write i bs.length buf.length] (.outOfBounds j)) :
    Emits Vault.trace (store buf i bs >>= f) Q E := by
  unfold store
  rw [bind_assoc]
  refine log_bind ?_
  unfold writeBytes
  split
  · rw [pure_bind]
    exact hin buf rfl
  · rename_i hbs
    split
    · rename_i hb
      obtain ⟨h0, hend⟩ := hb
      rw [pure_bind]
      refine hin _ ?_
      simp only [List.length_append, List.length_take, List.length_drop]
      omega
    · rename_i hb
      refine .bind (Q := fun _ _ => False) (.throw (hout hbs hb _)) ?_
      rintro _ _ ⟨⟩

/-- Bytes of a part of the buffer are copied, or the run stops there. -/
theorem Emits.fetch_bind {buf : Bytes} {base size i : Int} {n : Nat} {f : Bytes → Parser α}
    (hin : n = 0 ∨ InBounds buf (base + i) n → Emits Vault.trace (f (slice buf (base + i) n))
      (fun more => Q (.read i n size :: more)) fun more => E (.read i n size :: more))
    (hout : n ≠ 0 → ¬ InBounds buf (base + i) n → ∀ j, E [.read i n size] (.outOfBounds j)) :
    Emits Vault.trace (fetch buf base size i n >>= f) Q E := by
  unfold fetch
  rw [bind_assoc]
  refine Emits.log_bind ?_
  unfold readBytes
  split
  · rename_i hn
    have hslice : slice buf (base + i) n = [] := by simp [slice, hn]
    rw [pure_bind, ← hslice]
    exact hin (.inl hn)
  · rename_i hn
    split
    · rename_i hb
      rw [pure_bind]
      exact hin (.inr hb)
    · rename_i hb
      refine .bind (Q := fun _ _ => False) (.throw (hout hn hb _)) ?_
      rintro _ _ ⟨⟩

theorem Emits.fetch_uint_bind {buf : Bytes} {base size i : Int} {n : Nat} {f : Nat → Parser α}
    (hin : n = 0 ∨ InBounds buf (base + i) n →
      Emits Vault.trace (f (littleEndian (slice buf (base + i) n)))
        (fun more => Q (.read i n size :: more)) fun more => E (.read i n size :: more))
    (hout : n ≠ 0 → ¬ InBounds buf (base + i) n → ∀ j, E [.read i n size] (.outOfBounds j)) :
    Emits Vault.trace (fetchUint buf base size i n >>= f) Q E := by
  unfold fetchUint
  rw [map_eq_pure_bind, bind_assoc]
  refine Emits.fetch_bind (fun hb => ?_) hout
  rw [pure_bind]
  exact hin hb

/-- Decoders leave the trace as it is, and what they do does not depend on it. -/
theorem run_decoders_trace (ms : List (Decoder Int)) (g : Gddv) (t : List Event) :
    finalState (runDecoders ms ⟨g, t⟩) = ⟨(finalState (runDecoders ms ⟨g, []⟩)).gddv, t⟩ ∧
      stopOf (runDecoders ms ⟨g, t⟩) = stopOf (runDecoders ms ⟨g, []⟩) := by
  induction ms generalizing g with
  | nil => exact ⟨rfl, rfl⟩
  | cons m rest ih =>
      have hrun : ∀ t', runDecoders (m :: rest) ⟨g, t'⟩ =
          EStateM.bind (decode m) (fun _ => runDecoders rest) ⟨g, t'⟩ := fun _ => rfl
      rw [hrun, hrun]
      unfold EStateM.bind decode
      cases m ⟨0, g⟩ with
      | ok a c => exact ih c.gddv
      | error e c => exact ⟨rfl, rfl⟩

theorem dispatch_trace (fuel : Nat) (key val : Bytes) (g : Gddv) (t : List Event) :
    finalState (dispatch fuel key val ⟨g, t⟩) =
        ⟨(finalState (dispatch fuel key val ⟨g, []⟩)).gddv, t⟩ ∧
      stopOf (dispatch fuel key val ⟨g, t⟩) = stopOf (dispatch fuel key val ⟨g, []⟩) := by
  unfold dispatch
  cases tokens (key.takeWhile fun b => b ≠ 0) with
  | nil => exact ⟨rfl, rfl⟩
  | cons str rest => exact run_decoders_trace _ g t

/-- The value of a key is decoded on some tables, or the decoders stop on them. -/
theorem Emits.recorded_dispatch (fuel : Nat) (key val : Bytes) :
    Emits Vault.trace (recordedDispatch fuel key val)
      (fun new _ => ∃ g, new = [.dispatch g key val] ∧
        stopOf (dispatch fuel key val ⟨g, []⟩) = none)
      fun new e => ∃ g, new = [.dispatch g key val] ∧
        stopOf (dispatch fuel key val ⟨g, []⟩) = some e := by
  refine ⟨fun t => ⟨fun v hv => ?_⟩⟩
  obtain ⟨hfinal, hstop⟩ :=
    dispatch_trace fuel key val v.gddv (v.trace ++ [.dispatch v.gddv key val])
  have htrace := congrArg Vault.trace hfinal
  show Ends _ _ (dispatch fuel key val ⟨v.gddv, v.trace ++ [.dispatch v.gddv key val]⟩)
  cases heq : dispatch fuel key val ⟨v.gddv, v.trace ++ [.dispatch v.gddv key val]⟩ with
  | ok _ v' =>
      rw [heq] at htrace hstop
      exact ⟨_, hv ▸ htrace, v.gddv, rfl, hstop.symm⟩
  | error e v' =>
      rw [heq] at htrace hstop
      exact ⟨_, hv ▸ htrace, v.gddv, rfl, hstop.symm⟩

end Steps

/-! ## Repositories -/

section Repositories

variable (env : Env) (fuel : Nat) (isNested : Bool) {buf : Bytes} {size : Int}

/-- Too few bytes for a header. -/
theorem parse_gddv_short (hshort : size < headerStructSize) :
    parseGddv env (fuel + 1) isNested buf size =
      log (.enter isNested buf size) >>= fun _ => pure (gddvError, 0) := by
  rw [parseGddv]
  simp only [if_pos hshort]

/-- A repository with its header. -/
theorem parse_gddv_eq (hlen : headerStructSize ≤ buf.length) :
    parseGddv env (fuel + 1) isNested buf buf.length = (do
      log (.enter isNested buf buf.length)
      if signatureOf buf ≠ headerSignature then throw .gddvException
      else if majorOf buf ≠ 1 ∧ majorOf buf ≠ 2 then pure (gddvError, 0)
      else if IsCompressed buf then
        match ← decompressGddv env buf buf.length with
        | none => pure (gddvError, 0)
        | some (decompressed, outputSize) =>
          let (res, _) ← parseGddv env fuel false (decompressed.take outputSize.toNat) outputSize
          pure (res, 0)
      else
        parseItems env fuel (parseGddv env fuel true) (majorOf buf) (headersizeOf buf) buf
          buf.length) := by
  have hread : ∀ (i : Int) (n : Nat), 0 ≤ i → i + n ≤ 148 →
      (littleEndian <$> readBytes buf i n : Parser Nat) = pure (littleEndian (slice buf i n)) := by
    intro i n h0 hn
    have hb : InBounds buf i n := ⟨h0, le_trans hn hlen⟩
    rw [hb.read_bytes, map_pure]
  rw [parseGddv, if_neg (not_lt.2 hlen)]
  simp only [readUint16, readUint32, hread 0 2 (by decide) (by decide),
    hread 4 4 (by decide) (by decide), hread 2 2 (by decide) (by decide),
    hread 8 4 (by decide) (by decide), pure_bind]
  rfl

end Repositories

end Thermald.Gddv
