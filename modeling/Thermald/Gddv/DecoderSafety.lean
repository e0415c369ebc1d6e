import Thermald.Gddv.Decoders

/-!
# The decoders stay inside their buffers

For every value, whatever its tags, lengths and counts are, each decoder ends, and the only way it
stops without a result is `gddv_exception`: it neither reads outside of the value and the NUL behind
it nor runs on for ever.

The argument is about the offset. A reader checks it before it reads, and when it returns, the
offset has moved forward by at least 12, or the length of a string has carried it beyond `INT_MAX`
and it is negative (`Moved`). Unchecked steps of 12 bytes do not make a negative offset positive
again, so that the next reader refuses it. `Advances` is this property of a computation and
`Continues` that of the computations behind one that advances; sequences and loops of them have it
too.
-/

namespace Thermald.Gddv

/-- The only error is the exception of the parser. -/
def OnlyThrows (e : Stop) (_ : Cursor) : Prop := e = .gddvException

/-- The computation ends with a result or with the exception of the parser. -/
def Decodes {α : Type} (m : Decoder α) : Prop :=
  Triple (fun _ => True) m (fun _ _ => True) OnlyThrows

/-- From the offset `o` to `o'`: forward by at least 12, and at most `k` beyond the end, or by a
length that does not fit to a negative offset which stays negative for some unchecked steps. -/
def Moved (len k o o' : Int) : Prop :=
  0 ≤ o ∧ o + 12 ≤ len ∧
    (o + 12 ≤ o' ∧ o' ≤ len + k ∨ -2147483648 ≤ o' ∧ o' ≤ k - 66)

/-- The state of a decoder of a value of length `len` whose offset has moved from `o`. -/
def At (len k o : Int) (c : Cursor) : Prop :=
  c.gddv.gddvCurBufLen = len ∧ Moved len k o c.offset

/-- The state of a decoder of a value of length `len` at the offset `o`. -/
def Stands (len o : Int) (c : Cursor) : Prop :=
  c.gddv.gddvCurBufLen = len ∧ c.offset = o

variable {α β : Type} {len k k' o : Int}

/-- From any offset that may have been reached the computation moves it or throws. -/
def Advances (len k : Int) (m : Decoder α) : Prop :=
  ∀ o, -2147483648 ≤ o → o ≤ len + 24 →
    Triple (Stands len o) m (fun _ c => At len k o c) OnlyThrows

/-- The computation keeps what a computation before it has achieved. -/
def Continues (len k k' o : Int) (m : Decoder α) : Prop :=
  Triple (At len k o) m (fun _ c => At len k' o c) OnlyThrows

/-! ## Sequences -/

/-- A computation that advances continues another one. -/
theorem Advances.continues {m : Decoder α} (h : Advances len k' m) (hk : k ≤ 24) :
    Continues len k k' o m := by
  refine ⟨fun c hc => ?_⟩
  obtain ⟨hlen, hmoved⟩ := hc
  have hnear : -2147483648 ≤ c.offset ∧ c.offset ≤ len + 24 := by
    unfold Moved at hmoved
    omega
  have hm := (h c.offset hnear.1 hnear.2).run c ⟨hlen, rfl⟩
  cases heq : m c with
  | ok a c' =>
      rw [heq] at hm
      obtain ⟨hlen', hmoved'⟩ := hm
      refine ⟨hlen', ?_⟩
      unfold Moved at hmoved hmoved' ⊢
      omega
  | error e c' =>
      rw [heq] at hm
      exact hm

/-- Computations that continue an advance make an advance. -/
theorem Advances.bind {m : Decoder α} {f : α → Decoder β} (h : Advances len k m)
    (hf : ∀ a o, Continues len k k' o (f a)) : Advances len k' (m >>= f) :=
  fun o hlo hhi => .bind (h o hlo hhi) fun a => hf a o

theorem Continues.bind {k'' : Int} {m : Decoder α} {f : α → Decoder β} (h : Continues len k k' o m)
    (hf : ∀ a, Continues len k' k'' o (f a)) : Continues len k k'' o (m >>= f) :=
  Triple.bind h hf

theorem Continues.pure (a : α) : Continues len k k o (pure a) :=
  Triple.pure fun _ h => h

theorem Continues.throw : Continues len k k' o (throw .gddvException : Decoder α) :=
  Triple.throw fun _ _ => rfl

theorem Continues.ite {c : Prop} {_ : Decidable c} {m m' : Decoder α} (h : Continues len k k' o m)
    (h' : Continues len k k' o m') : Continues len k k' o (if c then m else m') :=
  Triple.ite (fun _ => h) fun _ => h'

/-- The offset may be beyond the end by an unchecked step. -/
theorem Continues.mono {m : Decoder α} (h : Continues len k 0 o m) :
    Continues len k 12 o m := by
  refine h.post fun _ c hc => ⟨hc.1, ?_⟩
  have hmoved := hc.2
  unfold Moved at hmoved ⊢
  omega

/-- Assignments to the tables do not concern the offset. -/
theorem Continues.update {f : Gddv → Gddv}
    (hf : ∀ g, (f g).gddvCurBufLen = g.gddvCurBufLen) : Continues len k k o (update f) :=
  Triple.modify fun c hc => ⟨(hf c.gddv).trans hc.1, hc.2⟩

/-- An unchecked step. -/
theorem Continues.skip (hlen : len ≤ intMax - 64) (hk : k ≤ 12) :
    Continues len k (k + 12) o Gddv.skip := by
  refine Triple.modify fun c hc => ⟨hc.1, ?_⟩
  have hmoved := hc.2
  show Moved len (k + 12) o (int32 (c.offset + 12))
  unfold Moved at hmoved ⊢
  simp only [intMax] at hlen
  rw [int32_eq_self (by omega) (by simp only [intMax]; omega)]
  omega

theorem Advances.mono {m : Decoder α} (h : Advances len 0 m) : Advances len 12 m :=
  fun o hlo hhi => (h o hlo hhi).post fun _ c hc => by
    refine ⟨hc.1, ?_⟩
    have hmoved := hc.2
    unfold Moved at hmoved ⊢
    omega

/-- A loop of computations that advance ends. It keeps what every move of the offset keeps. -/
theorem advances_loop {cond : β → Cursor → Bool} {body : β → Decoder β} {J : Int → Prop}
    (hnear : ∀ o, J o → -2147483648 ≤ o ∧ o ≤ len + 24)
    (hmove : ∀ o o', J o → Moved len k o o' → J o')
    (hbody : ∀ b, Advances len k (body b)) (hk : k ≤ 24) (hlen : 0 ≤ len) {fuel : Nat}
    (hfuel : len < fuel) (b : β) :
    Triple (fun c => c.gddv.gddvCurBufLen = len ∧ J c.offset) (loopM .outOfFuel cond body fuel b)
      (fun _ c => c.gddv.gddvCurBufLen = len ∧ J c.offset) OnlyThrows := by
  -- a negative offset makes the next iteration throw, so it has the least rank
  refine (Triple.loop (I := fun _ c => c.gddv.gddvCurBufLen = len ∧ J c.offset)
    (fun _ c => if c.offset < 0 then 0 else (len - c.offset).toNat) ?_ fuel b).conseq ?_ ?_
    fun _ _ h => h
  · intro b n
    refine .start fun c hc => ?_
    obtain ⟨⟨hcur, hJ⟩, -, hrank⟩ := hc
    obtain ⟨hlo, hhi⟩ := hnear _ hJ
    refine (hbody b c.offset hlo hhi).conseq ?_ ?_ fun _ _ h => h
    · intro c' heq
      subst heq
      exact ⟨hcur, rfl⟩
    · intro b' c' hpost
      obtain ⟨hcur', hmoved⟩ := hpost
      refine ⟨⟨hcur', hmove _ _ hJ hmoved⟩, fun _ => ?_⟩
      unfold Moved at hmoved
      split at hrank <;> split <;> omega
  · intro c hc
    refine ⟨hc, fun _ => ?_⟩
    split <;> omega
  · exact fun _ _ h => h.1

theorem Continues.loop {cond : β → Cursor → Bool} {body : β → Decoder β}
    (hbody : ∀ b, Advances len k (body b)) (hk : k ≤ 24) (hlen : 0 ≤ len) {fuel : Nat}
    (hfuel : len < fuel) (b : β) : Continues len k k o (loopM .outOfFuel cond body fuel b) := by
  refine advances_loop (fun o' h => ?_) (fun o₁ o₂ h h' => ?_) hbody hk hlen hfuel b
  · unfold Moved at h
    omega
  · unfold Moved at h h' ⊢
    omega

/-- A decoder starts at the offset 0. -/
theorem Decodes.begin {m : Decoder α}
    (h : Triple (Stands len 0) m (fun _ _ => True) OnlyThrows) :
    Decodes (Gddv.begin len >>= fun _ => m) :=
  Triple.bind (.modify fun _ _ => ⟨rfl, rfl⟩) fun _ => h

/-- A computation that advances ends. -/
theorem Advances.ends {m : Decoder α} (h : Advances len k m) (hlen : 0 ≤ len) :
    Triple (Stands len 0) m (fun _ _ => True) OnlyThrows :=
  (h 0 (by omega) (by omega)).post fun _ _ _ => trivial

/-! ## Readers -/

/-- A value with the NUL behind it. -/
abbrev terminated (val : Bytes) : Bytes := val ++ [0]

section Readers

variable {val : Bytes}

/-- A range within the value is in the buffer. -/
theorem in_bounds_terminated {i : Int} {n : Nat} (h0 : 0 ≤ i) (hn : i + n ≤ val.length) :
    InBounds (terminated val) i n := by
  refine ⟨h0, ?_⟩
  simp only [List.length_append, List.length_singleton]
  omega

/-- There is a NUL behind every place of the value. -/
theorem nul_behind {i : Nat} (h : i ≤ val.length) : 0 ∈ (terminated val).drop i := by
  rw [List.drop_append_of_le_length h]
  exact List.mem_append_right _ List.mem_cons_self

/-- The tagged readers advance by exactly 12. -/
theorem get_tagged_triple (expected : Int) (hlen : (val.length : Int) ≤ intMax - 64)
    (hlo : -2147483648 ≤ o) (hhi : o ≤ val.length + 24) :
    Triple (Stands val.length o) (getTagged (terminated val) expected)
      (fun _ c => Stands val.length (o + 12) c ∧ 0 ≤ o ∧ o + 12 ≤ val.length) OnlyThrows := by
  unfold getTagged
  refine .bind (.get (Q := fun s c => s = c ∧ Stands val.length o c)
    fun s hs => ⟨rfl, hs⟩) fun c => ?_
  refine .ite (fun _ => .throw fun _ _ => rfl) fun hcheck => ?_
  refine .start fun s hs => ?_
  obtain ⟨rfl, hcur, rfl⟩ := hs
  have h4 : int32 (c.offset + 4) = c.offset + 4 := int32_eq_self (by omega) (by omega)
  have h8 : int32 (c.offset + 4 + 8) = c.offset + 12 := by
    rw [int32_eq_self (by omega) (by omega)]
    omega
  simp only [hcur, h4, h8, not_or, not_lt] at hcheck ⊢
  refine .bind (in_bounds_terminated hcheck.1 (by omega)).read_uint32 fun type => ?_
  refine .ite (fun _ => .throw fun _ _ => rfl) fun _ => ?_
  refine .bind (.set (Q := fun _ _ => True) fun _ _ => trivial) fun _ => ?_
  refine .ite (fun _ => .throw fun _ _ => rfl) fun hroom => ?_
  refine .bind (in_bounds_terminated (by omega) (by omega)).read_uint64 fun value => ?_
  refine .bind (.set (Q := fun _ c' => Stands val.length (c.offset + 12) c')
    fun _ _ => ⟨hcur, rfl⟩) fun _ => .pure fun c' hc' => ?_
  exact ⟨hc', hcheck.1, not_lt.mp hroom⟩

variable (hlen : (val.length : Int) ≤ intMax - 64)

include hlen

theorem advances_get_uint64 : Advances val.length 0 (getUint64 (terminated val)) := by
  intro o hlo hhi
  refine (get_tagged_triple 4 hlen hlo hhi).post fun _ c hc => ?_
  obtain ⟨⟨hcur, hoff⟩, h0, hle⟩ := hc
  refine ⟨hcur, ?_⟩
  rw [hoff]
  unfold Moved
  omega

/-- A string starts in the value. Behind it the offset is in the value again or negative. -/
theorem get_string_triple (hlo : -2147483648 ≤ o) (hhi : o ≤ val.length + 24) :
    Triple (Stands val.length o) (getString (terminated val))
      (fun p c => At val.length 0 o c ∧ p = o + 12 ∧ 0 ≤ int32 (int32 (c.offset - o) - 12))
      OnlyThrows := by
  unfold getString
  refine .bind (get_tagged_triple 8 hlen hlo hhi) fun length => ?_
  refine .start fun c hc => ?_
  obtain ⟨⟨hcur, hoff⟩, h0, hle⟩ := hc
  refine .bind (.get (Q := fun s c' => s = c ∧ c' = c) ?_) fun s => ?_
  · intro s heq
    subst heq
    exact ⟨rfl, rfl⟩
  refine .of_pure fun hs => ?_
  subst hs
  refine .ite (fun _ => .throw fun _ _ => rfl) fun hcheck => ?_
  simp only [not_or, not_lt, hcur, hoff] at hcheck ⊢
  obtain ⟨hmax, hroom⟩ := hcheck
  simp only [intMax] at hmax hlen
  have hint := (int32_bounds (o + 12 + length)).1
  -- the length fits into an `int`, so the offset stays or wraps around once
  have hcases : int32 (o + 12 + length) = o + 12 + length ∨
      int32 (o + 12 + length) = o + 12 + length - 4294967296 := by
    by_cases hsmall : o + 12 + length ≤ intMax
    · exact .inl (int32_eq_self (by omega) hsmall)
    · exact .inr (int32_wrap (not_le.mp hsmall) (by simp only [intMax]; omega))
  have hconsumed : int32 (int32 (int32 (o + 12 + length) - o) - 12) = length := by
    unfold int32 at hcases ⊢
    omega
  refine .bind (.set (Q := fun _ c' => Stands val.length (int32 (o + 12 + length)) c')
    fun _ _ => ⟨hcur, rfl⟩) fun _ => .pure fun c' hc' => ?_
  obtain ⟨hcur', hoff'⟩ := hc'
  refine ⟨⟨hcur', ?_⟩, rfl, ?_⟩
  · rw [hoff']
    unfold Moved
    omega
  · rw [hoff', hconsumed]
    omega

theorem advances_get_string : Advances val.length 0 (getString (terminated val)) :=
  fun _ hlo hhi => (get_string_triple hlen hlo hhi).post fun _ _ h => h.1

/-- The string is not null and has a NUL behind it. -/
theorem advances_get_std_string : Advances val.length 0 (getStdString (terminated val)) := by
  intro o hlo hhi
  unfold getStdString getStringObj
  refine .bind (Q := fun p c => At val.length 0 o c ∧ p = some (o + 12)) ?_ fun p => ?_
  · refine .bind (.get (Q := fun s c => s.offset = o ∧ Stands val.length o c)
      fun s hs => ⟨hs.2, hs⟩) fun s => ?_
    refine .of_pure fun hs => ?_
    rw [hs]
    refine .bind (get_string_triple hlen hlo hhi) fun p => ?_
    refine .bind (.get (Q := fun s c => s = c ∧ At val.length 0 o c ∧ p = o + 12 ∧
      0 ≤ int32 (int32 (c.offset - o) - 12)) fun s hs => ⟨rfl, hs⟩) fun s => ?_
    refine .start fun c hc => ?_
    obtain ⟨rfl, hat, rfl, hlength⟩ := hc
    rw [if_neg (not_lt.mpr hlength)]
    refine .pure fun c hc => ?_
    subst hc
    exact ⟨hat, rfl⟩
  · refine .start fun c hc => ?_
    obtain ⟨hat, rfl⟩ := hc
    have hstart : 0 ≤ o ∧ o + 12 ≤ val.length := ⟨hat.2.1, hat.2.2.1⟩
    refine (Triple.c_string (P := (· = c)) (by omega) (nul_behind (by omega))).post ?_
    intro s c' heq
    subst heq
    exact hat

theorem continues_get_uint64 (hk : k ≤ 24) :
    Continues val.length k 0 o (getUint64 (terminated val)) :=
  (advances_get_uint64 hlen).continues hk

theorem continues_get_std_string (hk : k ≤ 24) :
    Continues val.length k 0 o (getStdString (terminated val)) :=
  (advances_get_std_string hlen).continues hk

/-- `get_type` reads without moving the offset. -/
theorem continues_get_type (hk : k ≤ 24) :
    Continues val.length k k o (getType (terminated val)) := by
  unfold getType
  refine Triple.bind (.get (Q := fun s c => s = c ∧ At val.length k o c)
    fun s hs => ⟨rfl, hs⟩) fun c => ?_
  refine .ite (fun _ => .throw fun _ _ => rfl) fun hcheck => ?_
  refine .start fun s hs => ?_
  obtain ⟨rfl, hcur, hmoved⟩ := hs
  have h4 : int32 (c.offset + 4) = c.offset + 4 := by
    unfold Moved at hmoved
    exact int32_eq_self (by omega) (by omega)
  simp only [hcur, h4, not_or, not_lt] at hcheck
  refine .bind (P := (· = c)) (in_bounds_terminated hcheck.1 (by omega)).read_uint32 fun type => ?_
  refine .pure fun c' hc' => ?_
  obtain ⟨-, -, rfl⟩ := hc'
  exact ⟨hcur, hmoved⟩

end Readers

/-! ## Decoders -/

section Decoders

variable {val : Bytes} (hlen : (val.length : Int) ≤ intMax - 64) {fuel : Nat}
  (hfuel : val.length < fuel)

section

include hlen

/-- A decoder that reads a version and then a table row by row. -/
theorem decodes_rows {m : Nat → Decoder α}
    (h : ∀ version o, Continues val.length 12 12 o (m version)) :
    Decodes (Gddv.begin val.length >>= fun _ => getUint64 (terminated val) >>= m) := by
  refine .begin (Advances.ends (k := 12) ?_ (by omega))
  exact ((advances_get_uint64 hlen).mono).bind h

end

include hfuel in
/-- The rows of a table. -/
theorem continues_rows {body : β → Decoder β} (hbody : ∀ b, Advances val.length 12 (body b))
    (b : β) :
    Continues val.length 12 12 o (whileBelow fuel val.length body b) :=
  .loop hbody (by omega) (by omega) (by omega) b

include hlen hfuel

theorem decodes_appc : Decodes (parseAppc fuel (terminated val) val.length) := by
  unfold parseAppc
  refine .begin (.ite (fun _ => .pure fun _ _ => trivial) fun hpos => ?_)
  refine .bind (in_bounds_terminated (i := 0) le_rfl (by omega)).read_byte fun first => ?_
  refine .ite (fun _ => .pure fun _ _ => trivial) fun _ => ?_
  refine .pre (P := Stands val.length 0) (Advances.ends (k := 12) ?_ (by omega)) fun c hc => hc.2.2
  refine ((advances_get_uint64 hlen).mono).bind fun version o => ?_
  refine .ite (.pure 0) (.bind (continues_rows hfuel ?_ ()) fun _ => .pure 0)
  intro _
  exact .mono ((advances_get_uint64 hlen).bind fun _ _ =>
    .bind (continues_get_std_string hlen (by omega)) fun _ =>
    .bind (continues_get_std_string hlen (by omega)) fun _ =>
    .bind (continues_get_uint64 hlen (by omega)) fun _ =>
    .bind (continues_get_uint64 hlen (by omega)) fun _ =>
    .update fun _ => rfl)

theorem decodes_apat : Decodes (parseApat fuel (terminated val) val.length) := by
  refine decodes_rows hlen fun version o => ?_
  refine .ite .throw (.bind (continues_rows hfuel ?_ ()) fun _ => .pure 0)
  intro _
  exact .mono ((advances_get_uint64 hlen).bind fun _ _ =>
    .bind (continues_get_std_string hlen (by omega)) fun _ =>
    .bind (continues_get_std_string hlen (by omega)) fun _ =>
    .bind (continues_get_uint64 hlen (by omega)) fun _ =>
    .bind (continues_get_std_string hlen (by omega)) fun _ =>
    .bind (continues_get_std_string hlen (by omega)) fun _ =>
    .update fun _ => rfl)

omit hlen hfuel in
/-- The offset is looked at before a condition is read. -/
theorem advances_guarded {m : Decoder α} (h : Advances val.length k m) :
    Advances val.length k (do
      if (val.length : Int) ≤ (← get).offset then throw .gddvException else m) := by
  intro o hlo hhi
  refine .bind (.get (Q := fun _ c => Stands val.length o c) fun _ hs => hs) fun s => ?_
  exact .ite (fun _ => .throw fun _ _ => rfl) fun _ => h o hlo hhi

omit hfuel in
theorem advances_condition1 (target : Int) (v : SetState) :
    Advances val.length 12 (parseCondition1 (terminated val) val.length target v) := by
  refine advances_guarded ?_
  refine (advances_get_uint64 hlen).bind fun _ _ =>
    .bind (continues_get_uint64 hlen (by omega)) fun _ =>
    .bind (continues_get_uint64 hlen (by omega)) fun _ => ?_
  refine .ite (.bind (continues_get_uint64 hlen (by omega)) fun operation => .ite ?_ ?_) ?_
  · -- the time condition stands between two steps of 12
    exact .bind (.skip hlen (by omega)) fun _ =>
      .bind (continues_get_uint64 hlen (by omega)) fun _ =>
      .bind (continues_get_uint64 hlen (by omega)) fun _ =>
      .bind (.skip hlen (by omega)) fun _ => .pure _
  · exact (Continues.pure _).mono
  · exact (Continues.pure _).mono

omit hfuel in
theorem advances_condition2 (target : Int) (count : Nat) (v : SetState) :
    Advances val.length 12 (parseCondition2 (terminated val) val.length target count v) := by
  refine advances_guarded ?_
  refine (advances_get_uint64 hlen).bind fun _ _ =>
    .bind (continues_get_std_string hlen (by omega)) fun _ =>
    .bind (.skip hlen (by omega)) fun _ =>
    .bind (continues_get_uint64 hlen (by omega)) fun _ =>
    .bind (continues_get_uint64 hlen (by omega)) fun _ => ?_
  refine .ite (.bind (continues_get_uint64 hlen (by omega)) fun operation => .ite ?_ ?_) ?_
  · exact .bind (.skip hlen (by omega)) fun _ =>
      .bind ((advances_get_string hlen).continues (by omega)) fun _ =>
      .bind (.skip hlen (by omega)) fun _ =>
      .bind (continues_get_uint64 hlen (by omega)) fun _ =>
      .bind (continues_get_uint64 hlen (by omega)) fun _ =>
      .bind (.skip hlen (by omega)) fun _ => .pure _
  · exact (Continues.pure _).mono
  · exact (Continues.pure _).mono

omit hlen in
/-- The conditions of one target. -/
theorem continues_condition_set {count : Int} {body : SetState → Decoder SetState}
    (hbody : ∀ v, Advances val.length 12 (body v)) :
    Continues val.length 12 12 o (parseConditionSet fuel count body) :=
  .bind (.loop hbody (by omega) (by omega) (by omega) _) fun _ => .update fun _ => rfl

theorem decodes_apct : Decodes (parseApct fuel (terminated val) val.length) := by
  refine decodes_rows hlen fun version o => .ite ?_ (.ite ?_ .throw)
  · refine .bind (continues_rows hfuel ?_ ()) fun _ => .pure 0
    intro _
    refine ((advances_get_uint64 hlen).mono).bind fun target _ => ?_
    exact .ite .throw (continues_condition_set hfuel (advances_condition1 hlen _))
  · refine .bind (continues_rows hfuel ?_ ()) fun _ => .pure 0
    intro _
    refine ((advances_get_uint64 hlen).mono).bind fun target _ => .ite .throw ?_
    refine .bind ((continues_get_uint64 hlen (by omega)).mono) fun count => ?_
    exact continues_condition_set hfuel (advances_condition2 hlen _ count)

omit hfuel in
theorem continues_get_limit : Continues val.length 0 0 o (getLimit (terminated val)) := by
  refine .bind (continues_get_type hlen (by omega)) fun type => .ite ?_ ?_
  · exact continues_get_std_string hlen (by omega)
  · exact .bind (continues_get_uint64 hlen (by omega)) fun _ => .pure _

omit hfuel in
theorem advances_psv (psvs : List Psv) :
    Advances val.length 12 (parsePsv (terminated val) psvs) := by
  exact (advances_get_std_string hlen).bind fun _ _ =>
    .bind (continues_get_std_string hlen (by omega)) fun _ =>
    .bind (continues_get_uint64 hlen (by omega)) fun _ =>
    .bind (continues_get_uint64 hlen (by omega)) fun _ =>
    .bind (continues_get_uint64 hlen (by omega)) fun _ =>
    .bind (continues_get_uint64 hlen (by omega)) fun _ =>
    .bind (continues_get_uint64 hlen (by omega)) fun _ =>
    .bind (continues_get_limit hlen) fun _ =>
    .bind (continues_get_uint64 hlen (by omega)) fun _ =>
    .bind (continues_get_uint64 hlen (by omega)) fun _ =>
    .bind (continues_get_uint64 hlen (by omega)) fun _ =>
    .bind (.skip hlen (by omega)) fun _ => .pure _

theorem decodes_psvt (name : Option Bytes) :
    Decodes (parsePsvt fuel name (terminated val) val.length) := by
  refine decodes_rows hlen fun version o => .ite .throw ?_
  exact .bind (continues_rows hfuel (advances_psv hlen) []) fun _ =>
    .bind (.update fun _ => rfl) fun _ => .pure 0

omit hfuel in
theorem advances_itmt_entry (version : Int) (entries : List ItmtEntry) :
    Advances val.length 12 (parseItmtEntry version (terminated val) entries) := by
  refine (advances_get_std_string hlen).bind fun _ _ =>
    .bind (continues_get_uint64 hlen (by omega)) fun _ =>
    .bind (continues_get_std_string hlen (by omega)) fun _ =>
    .bind (continues_get_std_string hlen (by omega)) fun _ =>
    .bind (continues_get_std_string hlen (by omega)) fun _ => .ite ?_ ?_
  · exact .mono (.bind (continues_get_uint64 hlen (by omega)) fun _ =>
      .bind (continues_get_std_string hlen (by omega)) fun _ =>
      .bind (continues_get_uint64 hlen (by omega)) fun _ =>
      .bind (continues_get_uint64 hlen (by omega)) fun _ => .pure _)
  · exact .bind (.skip hlen (by omega)) fun _ => .pure _

theorem decodes_itmt (name : Option Bytes) :
    Decodes (parseItmt fuel name (terminated val) val.length) := by
  refine decodes_rows hlen fun version o => .ite (.pure _) ?_
  exact .bind (continues_rows hfuel (advances_itmt_entry hlen _) []) fun _ =>
    .bind (.update fun _ => rfl) fun _ => .pure 0

theorem decodes_vspt : Decodes (parseVspt fuel (terminated val) val.length) := by
  refine decodes_rows hlen fun version o => .ite (.pure _) ?_
  refine .bind (continues_rows hfuel ?_ ()) fun _ => .pure _
  intro _
  exact .mono ((advances_get_uint64 hlen).bind fun _ _ =>
    .bind (continues_get_uint64 hlen (by omega)) fun _ => .update fun _ => rfl)

theorem decodes_vsct (name : Option Bytes) :
    Decodes (parseVsct fuel name (terminated val) val.length) := by
  refine Triple.bind (.modify (Q := fun _ _ => True) fun _ _ => trivial) fun _ => ?_
  refine decodes_rows hlen fun version o => .ite (.pure _) ?_
  refine .bind (continues_rows hfuel ?_ ()) fun _ => .pure _
  intro _
  exact .mono ((advances_get_std_string hlen).bind fun _ _ =>
    .bind (continues_get_uint64 hlen (by omega)) fun _ =>
    .bind (continues_get_uint64 hlen (by omega)) fun _ =>
    .bind (continues_get_uint64 hlen (by omega)) fun _ =>
    .bind (continues_get_uint64 hlen (by omega)) fun _ =>
    .bind (continues_get_uint64 hlen (by omega)) fun _ =>
    .bind (continues_get_uint64 hlen (by omega)) fun _ =>
    .update fun _ => rfl)

theorem decodes_trt : Decodes (parseTrt fuel (terminated val) val.length) := by
  have hbody : ∀ _ : Unit, Advances val.length 0 (do
      let _ ← getStdString (terminated val)
      let _ ← getStdString (terminated val)
      let _ ← getUint64 (terminated val)
      let _ ← getUint64 (terminated val)
      let _ ← getUint64 (terminated val)
      let _ ← getUint64 (terminated val)
      let _ ← getUint64 (terminated val)
      let _ ← getUint64 (terminated val)
      pure ()) := by
    intro _
    exact (advances_get_std_string hlen).bind fun _ _ =>
      .bind (continues_get_std_string hlen (by omega)) fun _ =>
      .bind (continues_get_uint64 hlen (by omega)) fun _ =>
      .bind (continues_get_uint64 hlen (by omega)) fun _ =>
      .bind (continues_get_uint64 hlen (by omega)) fun _ =>
      .bind (continues_get_uint64 hlen (by omega)) fun _ =>
      .bind (continues_get_uint64 hlen (by omega)) fun _ =>
      .bind (continues_get_uint64 hlen (by omega)) fun _ => .pure _
  refine .begin (.bind (.pre (advances_loop (J := fun o => -2147483648 ≤ o ∧ o ≤ val.length)
    (fun o h => ?_) (fun o o' h h' => ?_) hbody (by omega) (by omega) (by omega) ()) fun c hc => ?_)
    fun _ => .pure fun _ _ => trivial)
  · omega
  · unfold Moved at h'
    omega
  · refine ⟨hc.1, ?_⟩
    have hzero := hc.2
    omega

omit hfuel in
/-- The fields of an entry of version 3 lie in the value, and so do its strings. -/
theorem itmt3_entry_triple (h0 : 0 ≤ o) (hroom : o + 296 ≤ val.length) :
    Triple (fun c => c.offset = o) (parseItmt3Entry (terminated val))
      (fun _ c => c.offset = o + 296) OnlyThrows := by
  simp only [intMax] at hlen
  have hbelow : uint32 (o + itmt3Size) = o + 296 := by
    show uint32 (o + 296) = o + 296
    exact uint32_eq_self (by omega) (by omega)
  unfold parseItmt3Entry
  refine .bind (.get (Q := fun s c => s.offset = o ∧ c.offset = o) fun _ hs => ⟨hs, hs⟩) fun s => ?_
  refine .of_pure fun hs => ?_
  simp only [hs, hbelow]
  refine .bind (.c_string h0 (nul_behind (by omega))) fun _ => ?_
  refine .bind (in_bounds_terminated (i := o + 64) (by omega) (by omega)).read_uint64 fun _ => ?_
  refine .bind (.c_string (i := o + 80) (by omega) (nul_behind (by omega))) fun _ => ?_
  refine .bind (.c_string (i := o + 144) (by omega) (nul_behind (by omega))) fun _ => ?_
  refine .bind (.get (Q := fun _ _ => True) fun _ _ => trivial) fun c => ?_
  exact .bind (.set (Q := fun _ c => c.offset = o + 296) fun _ _ => rfl) fun _ =>
    .pure fun _ h => h

/-- The offset is in the value. -/
def Inside (len : Int) (c : Cursor) : Prop :=
  0 ≤ c.offset ∧ c.offset ≤ len

theorem decodes_itmt3 (name : Option Bytes) :
    Decodes (parseItmt3 fuel name (terminated val) val.length) := by
  refine .begin (.ite (fun _ => .pure fun _ _ => trivial) fun hheader => ?_)
  refine .bind (.get (Q := fun _ _ => True) fun _ _ => trivial) fun c => ?_
  refine .bind (.set (Q := fun _ c => Inside val.length c) fun _ _ => ?_) fun _ => ?_
  · show 0 ≤ uint32 12 ∧ uint32 12 ≤ val.length
    rw [uint32_eq_self (by omega) (by omega)]
    exact ⟨by omega, not_lt.mp hheader⟩
  refine .ite (fun _ => .pure fun _ _ => trivial) fun _ =>
    .bind (Q := fun _ _ => True) ?_ fun es => ?_
  · refine ((Triple.loop (I := fun _ c => Inside val.length c)
      (fun _ c => (val.length - c.offset).toNat) ?_ fuel (some [])).pre ?_).post
      fun _ _ _ => trivial
    · intro es n
      refine .start fun c hc => ?_
      obtain ⟨⟨h0, hle⟩, -, hrank⟩ := hc
      unfold parseItmt3Entries
      refine .bind (.get (Q := fun s c' => s = c ∧ c' = c) ?_) fun s => .of_pure fun hs => ?_
      · intro s heq
        subst heq
        exact ⟨rfl, rfl⟩
      subst hs
      have hdiff : uint32 (val.length - s.offset) = val.length - s.offset := by
        simp only [intMax] at hlen
        exact uint32_eq_self (by omega) (by omega)
      rw [hdiff]
      refine .ite (fun _ => .pure fun c hc => ?_) fun hroom => ?_
      · subst hc
        exact ⟨⟨h0, hle⟩, by simp⟩
      · have hroom : s.offset + 296 ≤ val.length := by
          simp only [itmt3Size] at hroom
          omega
        refine .bind ((itmt3_entry_triple hlen h0 hroom).pre fun c hc => by rw [hc]) fun _ =>
          .pure fun c hc => ?_
        unfold Inside
        rw [hc]
        exact ⟨by omega, fun _ => by omega⟩
    · intro c hc
      have hin := hc
      unfold Inside at hin
      exact ⟨hc, fun _ => by omega⟩
  · cases es with
    | none => exact .pure fun _ _ => trivial
    | some entries =>
        exact .bind (.modify (Q := fun _ _ => True) fun _ _ => trivial) fun _ =>
          .pure fun _ _ => trivial

omit hfuel in
/-- A pass of the loop over the entries stays in the value and goes further in it. -/
theorem idsp_entry_triple {i : Int} (h0 : 0 ≤ i) (hlt : i < val.length) :
    Triple (fun _ => True) (parseIdspEntry (terminated val) val.length (some i))
      (fun r _ => ∀ i', r = some i' → i < i' ∧ i' ≤ val.length) OnlyThrows := by
  simp only [intMax] at hlen
  have hrest : int32 (val.length - i) = val.length - i :=
    int32_eq_self (by omega) (by simp only [intMax]; omega)
  have hnone : ∀ i', (none : Option Int) = some i' → i < i' ∧ i' ≤ val.length := by simp
  unfold parseIdspEntry
  simp only [hrest]
  refine .ite (fun _ => .pure fun _ _ => hnone) fun hroom => ?_
  rw [not_lt] at hroom
  have h4 : int32 (i + 4) = i + 4 := int32_eq_self (by omega) (by simp only [intMax]; omega)
  have h12 : int32 (i + 4 + 8) = i + 12 := by
    rw [int32_eq_self (by omega) (by simp only [intMax]; omega)]
    omega
  have hleft : int32 (int32 (val.length - (i + 4)) - 8) = val.length - i - 12 := by
    rw [int32_eq_self (x := val.length - (i + 4)) (by omega) (by simp only [intMax]; omega),
      int32_eq_self (by omega) (by simp only [intMax]; omega)]
    omega
  simp only [h4, h12, hleft]
  refine .bind (in_bounds_terminated h0 (by omega)).read_byte fun first => ?_
  refine .ite (fun _ => .pure fun _ _ => hnone) fun _ => ?_
  refine .bind (in_bounds_terminated (i := i + 4) (by omega) (by omega)).read_uint32 fun value => ?_
  refine .ite (fun _ => .pure fun _ _ => hnone) fun hvalue => ?_
  simp only [not_or, not_lt] at hvalue
  have hnext : int32 (i + 12 + int32 value) = i + 12 + int32 value :=
    int32_eq_self (by omega) (by simp only [intMax]; omega)
  rw [(in_bounds_terminated (i := i + 12) (by omega) (by omega)).read_bytes]
  refine .bind (Triple.pure (Q := fun _ _ => True) fun _ _ => trivial) fun bytes => ?_
  refine .bind (.modify (Q := fun _ _ => True) fun _ _ => trivial) fun _ => .pure fun _ _ => ?_
  intro i' hi'
  rw [Option.some.injEq] at hi'
  omega

theorem decodes_idsp : Decodes (parseIdsp fuel (terminated val) val.length) := by
  unfold parseIdsp
  refine .ite (fun _ => .pure fun _ _ => trivial) fun _ => ?_
  refine .bind (Q := fun _ _ => True) ?_ fun _ => .pure fun _ _ => trivial
  -- the rank is the part of the value that is left
  refine ((Triple.loop (I := fun (r : Option Int) _ => ∀ i, r = some i → 0 ≤ i ∧ i ≤ val.length)
    (fun (r : Option Int) _ => (r.map fun i : Int => (val.length - i).toNat).getD 0)
    ?_ fuel (some 0)).pre ?_).post fun _ _ _ => trivial
  · intro r n
    refine .start fun c hc => ?_
    obtain ⟨hin, hcond, hrank⟩ := hc
    cases r with
    | none => simp at hcond
    | some i =>
        simp only [Option.map_some, Option.getD_some, decide_eq_true_eq] at hcond hrank
        obtain ⟨h0, -⟩ := hin i rfl
        refine (idsp_entry_triple hlen h0 hcond).conseq (fun _ _ => trivial) ?_ fun _ _ h => h
        intro r c hnext
        refine ⟨fun i' hi' => ?_, fun hcond' => ?_⟩
        · have := hnext i' hi'
          omega
        · cases r with
          | none => simp at hcond'
          | some i' =>
              have := hnext i' rfl
              simp only [Option.map_some, Option.getD_some]
              omega
  · intro c _
    refine ⟨fun i hi => ?_, fun _ => ?_⟩
    · rw [Option.some.injEq] at hi
      omega
    · simpa using hfuel

omit hlen hfuel in
/-- A field of the PPCC table lies in a value that is long enough. -/
theorem ppcc_field_triple {i : Int} (h0 : 0 ≤ i) (hroom : i + 8 ≤ val.length) :
    Triple (fun _ => True) (ppccField (terminated val) i) (fun _ _ => True) OnlyThrows :=
  .bind (in_bounds_terminated h0 hroom).read_uint64 fun _ => .pure fun _ _ => trivial

omit hlen hfuel in
theorem decodes_ppcc (name : Bytes) : Decodes (parsePpcc name (terminated val) val.length) := by
  unfold parsePpcc
  refine .ite (fun _ => .pure fun _ _ => trivial) fun hfirst => ?_
  refine .bind (ppcc_field_triple (by omega) (by omega)) fun _ => ?_
  refine .bind (ppcc_field_triple (by omega) (by omega)) fun _ => ?_
  refine .bind (ppcc_field_triple (by omega) (by omega)) fun _ => ?_
  refine .bind (ppcc_field_triple (by omega) (by omega)) fun _ => ?_
  refine .bind (ppcc_field_triple (by omega) (by omega)) fun _ => ?_
  refine .ite (fun _ => .pure fun _ _ => trivial) fun hsecond => ?_
  refine .bind (ppcc_field_triple (by omega) (by omega)) fun _ => ?_
  refine .bind (ppcc_field_triple (by omega) (by omega)) fun _ => ?_
  refine .bind (ppcc_field_triple (by omega) (by omega)) fun _ => ?_
  refine .bind (ppcc_field_triple (by omega) (by omega)) fun _ => ?_
  refine .bind (ppcc_field_triple (by omega) (by omega)) fun _ => ?_
  exact .bind (.modify (Q := fun _ _ => True) fun _ _ => trivial) fun _ => .pure fun _ _ => trivial

omit hlen hfuel in
theorem decodes_trip_point (name type : Bytes) :
    Decodes (parseTripPoint name type (terminated val) val.length) := by
  unfold parseTripPoint
  refine .ite (fun _ => .pure fun _ _ => trivial) fun hroom => ?_
  refine .bind (in_bounds_terminated (i := 0) le_rfl (by omega)).read_uint32 fun _ => ?_
  exact .bind (.modify (Q := fun _ _ => True) fun _ _ => trivial) fun _ => .pure fun _ _ => trivial

end Decoders

/-- Every decoder ends on every value, and the only way it stops is the exception of the parser:
no byte outside of the value and its NUL is read. -/
theorem decoders_safe (val : Bytes) (hlen : (val.length : Int) ≤ intMax - 64) (fuel : Nat)
    (hfuel : val.length < fuel) (name : Option Bytes) (participant point : Bytes) :
    Decodes (parseAppc fuel (terminated val) val.length) ∧
      Decodes (parseApat fuel (terminated val) val.length) ∧
      Decodes (parseApct fuel (terminated val) val.length) ∧
      Decodes (parsePsvt fuel name (terminated val) val.length) ∧
      Decodes (parseItmt fuel name (terminated val) val.length) ∧
      Decodes (parseItmt3 fuel name (terminated val) val.length) ∧
      Decodes (parseVspt fuel (terminated val) val.length) ∧
      Decodes (parseVsct fuel name (terminated val) val.length) ∧
      Decodes (parseTrt fuel (terminated val) val.length) ∧
      Decodes (parseIdsp fuel (terminated val) val.length) ∧
      Decodes (parsePpcc participant (terminated val) val.length) ∧
      Decodes (parseTripPoint participant point (terminated val) val.length) :=
  ⟨decodes_appc hlen hfuel, decodes_apat hlen hfuel, decodes_apct hlen hfuel,
    decodes_psvt hlen hfuel name, decodes_itmt hlen hfuel name, decodes_itmt3 hlen hfuel name,
    decodes_vspt hlen hfuel, decodes_vsct hlen hfuel name, decodes_trt hlen hfuel,
    decodes_idsp hlen hfuel, decodes_ppcc participant, decodes_trip_point participant point⟩

/-- A VSCT table whose first string is said to have `INT_MAX` bytes. -/
def wrappingTable : Bytes :=
  toLittleEndian 4 4 ++ toLittleEndian 8 1 ++ toLittleEndian 4 8 ++ toLittleEndian 8 2147483647

/-- The length carries the offset beyond `INT_MAX` and passes the check of `get_string`, and the
next reader throws. -/
theorem wrapped_length_caught :
    stopOf (parseVsct 40 none (terminated wrappingTable) wrappingTable.length ⟨0, Gddv.init⟩) =
        some .gddvException ∧
      Decodes (parseVsct 40 none (terminated wrappingTable) wrappingTable.length) :=
  ⟨by decide +kernel, (decoders_safe wrappingTable (by decide +kernel) 40 (by decide +kernel)
    none [] []).2.2.2.2.2.2.2.1⟩

end Thermald.Gddv
