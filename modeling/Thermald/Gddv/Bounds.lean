import Thermald.Gddv.Compressed

/-!
# The reads of the parser

Every buffer that the parser looks at has as many bytes as its size says, and every length is
compared with what is left before it is used. The comparisons add a length to an offset in an `int`,
and a sum beyond `INT_MAX` is negative and passes. `parse_inside_iff` says that this is the only way
out of the buffer: in a run of the parser every read is inside of its buffer and every accepted
length ends in it if and only if no sum that the run compares overflows.
-/

namespace Thermald.Gddv

/-- The `keylength` of the key that begins at an offset. -/
def keylengthAt (buf : Bytes) (base : Int) : Nat := littleEndian (slice buf (base + 4) 4)

/-- The `vallength` of the value whose header is at an offset behind the key. -/
def vallengthAt (buf : Bytes) (base offset : Int) : Nat :=
  littleEndian (slice buf (base + (offset + 4)) 4)

/-- A read stays inside of its buffer, and an accepted length ends in it. -/
def Event.Inside : Event → Prop
  | .read offset count size => 0 ≤ offset ∧ offset + count ≤ size
  | .accept _ offset length size => offset + length ≤ size
  | _ => True

instance : DecidablePred Event.Inside := fun e =>
  match e with
  | .read .. => inferInstanceAs (Decidable (_ ∧ _))
  | .accept .. => inferInstanceAs (Decidable (_ ≤ _))
  | .enter .. | .item .. | .key .. | .dispatch .. | .outputSize .. | .write ..
  | .handOver .. => inferInstanceAs (Decidable True)

/-- The sums that are compared behind the key are not beyond `INT_MAX`. -/
def ValueSumsFit (buf : Bytes) (base size offset : Int) : Prop :=
  offset + 8 ≤ intMax ∧
    (offset + 8 ≤ size → vallengthAt buf base offset < intMax →
      offset + 8 + vallengthAt buf base offset ≤ intMax)

/-- No sum that `parse_gddv_key` compares with the size is beyond `INT_MAX`. -/
def KeySumsFit (env : Env) (buf : Bytes) (base size : Int) : Prop :=
  8 ≤ size → keylengthAt buf base ≠ 0 → keylengthAt buf base < intMax →
    8 + keylengthAt buf base ≤ intMax ∧
      (8 + keylengthAt buf base ≤ size → env.alloc (keylengthAt buf base + 1) = true →
        ValueSumsFit buf base size (8 + keylengthAt buf base))

/-- The sums that a call or an iteration is going to compare fit. An iteration of version 2 has come
to an offset that did not overflow, and the sum with the size of the header does not overflow
either unless a signature is left. -/
def Event.SumsFit (env : Env) : Event → Prop
  | .key buf base size => KeySumsFit env buf base size
  | .item buf size offset =>
    majorOf buf = 2 → 0 ≤ offset ∧ (offset + headersizeOf buf ≤ intMax ∨ offset + 2 ≤ size)
  | _ => True

instance (buf : Bytes) (base size offset : Int) : Decidable (ValueSumsFit buf base size offset) :=
  inferInstanceAs (Decidable (_ ∧ (_ → _ → _)))

instance (env : Env) (buf : Bytes) (base size : Int) : Decidable (KeySumsFit env buf base size) :=
  inferInstanceAs (Decidable (_ → _ → _ → _ ∧ (_ → _ → _)))

instance (env : Env) : DecidablePred (Event.SumsFit env) := fun e =>
  match e with
  | .key .. => inferInstanceAs (Decidable (KeySumsFit _ _ _ _))
  | .item .. => inferInstanceAs (Decidable (_ → _ ∧ (_ ∨ _)))
  | .enter .. | .read .. | .accept .. | .dispatch .. | .outputSize .. | .write ..
  | .handOver .. => inferInstanceAs (Decidable True)

/-! ## Keys -/

/-- The sums fit if and only if the reads are inside, for the events of a part of a run. -/
def Balanced (env : Env) (new : List Event) : Prop :=
  (∀ e ∈ new, e.SumsFit env) ↔ ∀ e ∈ new, e.Inside

/-- The sums fit and the reads are inside. -/
structure Clean (env : Env) (new : List Event) : Prop where
  fit : ∀ e ∈ new, e.SumsFit env
  inside : ∀ e ∈ new, e.Inside

section Clean

variable {env : Env} {e : Event} {new more : List Event}

theorem Clean.balanced (h : Clean env new) : Balanced env new :=
  iff_of_true h.fit h.inside

theorem Clean.nil : Clean env [] := ⟨by simp, by simp⟩

theorem Clean.cons (hfit : e.SumsFit env) (hin : e.Inside) (h : Clean env new) :
    Clean env (e :: new) :=
  ⟨List.forall_mem_cons.2 ⟨hfit, h.fit⟩, List.forall_mem_cons.2 ⟨hin, h.inside⟩⟩

theorem Clean.append (h : Clean env new) (h' : Clean env more) : Clean env (new ++ more) :=
  ⟨List.forall_mem_append.2 ⟨h.fit, h'.fit⟩, List.forall_mem_append.2 ⟨h.inside, h'.inside⟩⟩

/-- What follows on clean steps decides whether the whole is balanced. -/
theorem Clean.append_balanced (h : Clean env new) (h' : Balanced env more) :
    Balanced env (new ++ more) := by
  unfold Balanced
  rw [List.forall_mem_append, List.forall_mem_append]
  exact ⟨fun hfit => ⟨h.inside, h'.1 hfit.2⟩, fun hin => ⟨h.fit, h'.2 hin.2⟩⟩

theorem Balanced.cons (hfit : e.SumsFit env) (hin : e.Inside) (h : Balanced env new) :
    Balanced env (e :: new) :=
  (Clean.nil.cons hfit hin).append_balanced h

end Clean

section Keys

variable (env : Env) (fuel : Nat) {buf : Bytes} {base size : Int} (hbase : 0 ≤ base)
  (hend : base + size = buf.length) (hsize : size ≤ intMax)

include hbase hend hsize

/-- Behind a key that ends in the buffer, the reads are inside and the lengths accepted rightly if
and only if the sums fit, and if there is a result, they do. -/
theorem parse_gddv_value_inside (key : Bytes) {offset : Int} (h0 : 0 ≤ offset)
    (hoffset : offset ≤ size) :
    Emits Vault.trace (parseGddvValue env fuel buf base size key offset)
      (fun new r => (∀ e ∈ new, e.SumsFit env) ∧ (∀ e ∈ new, e.Inside) ∧
        ValueSumsFit buf base size offset ∧ r.1 = gddvSuccess ∧ offset + 8 ≤ r.2 ∧ r.2 ≤ size)
      fun new _ => (∀ e ∈ new, e.SumsFit env) ∧
        ((∀ e ∈ new, e.Inside) ↔ ValueSumsFit buf base size offset) := by
  simp only [intMax] at hsize
  unfold parseGddvValue
  refine .ite (fun hshort => .throw ?_) fun hlong => Emits.log_bind ?_
  · have hsum : offset + 8 ≤ intMax := by
      unfold int32 at hshort
      simp only [intMax]
      omega
    rw [int32_eq_self (by omega) hsum] at hshort
    simp [ValueSumsFit, hsum]
    omega
  by_cases hroom : offset + 8 ≤ size
  · rw [int32_eq_self (by omega) (by simp only [intMax]; omega)]
    refine Emits.fetch_uint_bind (fun _ => ?_) fun _ hb => absurd ⟨by omega, by omega⟩ hb
    refine Emits.fetch_uint_bind (fun _ => ?_) fun _ hb => absurd ⟨by omega, by omega⟩ hb
    rw [int32_eq_self (by omega) (by simp only [intMax]; omega)]
    generalize hval : littleEndian (slice buf (base + (offset + 4)) 4) = vallength
    have hfits : ValueSumsFit buf base size offset ↔
        (vallength < 2147483647 → offset + 8 + vallength ≤ 2147483647) := by
      rw [ValueSumsFit, vallengthAt, hval]
      simp only [intMax]
      omega
    rw [hfits]
    refine .ite (fun hrefused => .throw ?_) fun haccepted => Emits.log_bind ?_
    · simp [Event.SumsFit, Event.Inside]
      unfold int32 intMax at hrefused
      omega
    simp only [not_or, not_le, not_lt, intMax] at haccepted
    by_cases hvalue : offset + 8 + vallength ≤ size
    · rw [int32_eq_self (by omega) (by simp only [intMax]; omega)]
      refine Emits.allocate_bind (fun _ => ?_) fun _ => ?_
      · refine Emits.fetch_bind (fun _ => ?_) fun _ hb => absurd ⟨by omega, by omega⟩ hb
        refine .bind ((Emits.recorded_dispatch fuel key _).conseq (fun _ _ h => h) ?_) ?_
        · intro _ _ hpost
          obtain ⟨g, rfl, -⟩ := hpost
          simp [Event.SumsFit, Event.Inside]
          omega
        · intro _ _ hpost
          obtain ⟨g, rfl, -⟩ := hpost
          refine .pure ?_
          simp [Event.SumsFit, Event.Inside]
          omega
      · simp [Event.SumsFit, Event.Inside]
        omega
    · -- the sum is negative, and the value does not end in the buffer
      have hsum : ¬ (vallength < 2147483647 → offset + 8 + vallength ≤ 2147483647) := by
        unfold int32 at haccepted
        omega
      refine Emits.allocate_bind (fun _ => ?_) fun _ => ?_
      · refine Emits.fetch_bind (fun hb => ?_) fun _ _ _ => ?_
        · unfold InBounds at hb
          omega
        · simp [Event.SumsFit, Event.Inside, hsum]
          omega
      · simp [Event.SumsFit, Event.Inside, hsum]
        omega
  · -- the sum is negative, and the second field of the header is not in the buffer
    have hsum : ¬ ValueSumsFit buf base size offset := by
      unfold int32 at hlong
      simp only [ValueSumsFit, intMax]
      omega
    refine Emits.fetch_uint_bind (fun hb => ?_) fun _ _ _ => ?_
    · refine Emits.fetch_uint_bind (fun hb' => ?_) fun _ _ _ => ?_
      · unfold InBounds int32 at *
        omega
      · simp [Event.SumsFit, Event.Inside, hsum, hroom]
    · simp [Event.SumsFit, Event.Inside, hsum, hroom]

/-- A call of `parse_gddv_key` on the bytes from `base` to the end of the buffer reads inside and
accepts rightly if and only if its sums fit, and if there is a result, they do. -/
theorem parse_gddv_key_inside :
    Emits Vault.trace (parseGddvKey env fuel buf base size)
      (fun new r => Clean env new ∧ r.1 = gddvSuccess ∧ 17 ≤ r.2 ∧ r.2 ≤ size)
      fun new _ => Balanced env new := by
  have hmax : size ≤ 2147483647 := hsize
  unfold parseGddvKey
  refine Emits.log_bind (.ite (fun h8 => .throw ?_) fun h8 => ?_)
  · simp [Balanced, Event.SumsFit, Event.Inside, KeySumsFit, h8]
  refine Emits.fetch_uint_bind (fun _ => ?_) fun _ hb => absurd ⟨by omega, by omega⟩ hb
  refine Emits.fetch_uint_bind (fun _ => ?_) fun _ hb => absurd ⟨by omega, by omega⟩ hb
  generalize hkey : littleEndian (slice buf (base + 4) 4) = keylength
  have hfits : KeySumsFit env buf base size ↔ (keylength ≠ 0 → keylength < intMax →
      8 + keylength ≤ intMax ∧ (8 + keylength ≤ size → env.alloc (keylength + 1) = true →
        ValueSumsFit buf base size (8 + keylength))) := by
    rw [KeySumsFit, keylengthAt, hkey]
    exact ⟨fun h => h (not_lt.1 h8), fun h _ => h⟩
  refine .ite (fun hrefused => .throw ?_) fun haccepted => Emits.log_bind ?_
  · have hfit : KeySumsFit env buf base size := by
      refine hfits.2 fun hne hlt => ?_
      unfold int32 at hrefused
      simp only [intMax] at hrefused hlt ⊢
      exact ⟨by omega, fun h => absurd h (by omega)⟩
    simp [Balanced, Event.SumsFit, Event.Inside, hfit]
    omega
  simp only [not_or, not_le, not_lt] at haccepted
  obtain ⟨hne, hlt, haccepted⟩ := haccepted
  by_cases hroom : 8 + keylength ≤ size
  · have hsum : 8 + (keylength : Int) ≤ intMax := le_trans hroom hsize
    have hfits : KeySumsFit env buf base size ↔ (env.alloc (keylength + 1) = true →
        ValueSumsFit buf base size (8 + keylength)) :=
      hfits.trans ⟨fun h => (h hne hlt).2 hroom, fun h _ _ => ⟨hsum, fun _ => h⟩⟩
    refine Emits.allocate_bind (fun halloc => ?_) fun halloc => ?_
    · refine Emits.fetch_bind (fun _ => ?_) fun _ hb => absurd ⟨by omega, by omega⟩ hb
      rw [int32_eq_self (by omega) hsum]
      refine (parse_gddv_value_inside env fuel hbase hend hsize _ (by omega) hroom).conseq ?_ ?_
      · intro new r hpost
        obtain ⟨hall, hin, hvalue, hres, hlo, hhi⟩ := hpost
        have hfit : KeySumsFit env buf base size := hfits.2 fun _ => hvalue
        refine ⟨⟨?_, ?_⟩, hres, by omega, hhi⟩
        · simpa [Event.SumsFit, hfit] using hall
        · simp only [List.forall_mem_cons, Event.Inside, true_and]
          exact ⟨by omega, by omega, by omega, by omega, hin⟩
      · intro new e hpost
        obtain ⟨hall, hiff⟩ := hpost
        have hfit : KeySumsFit env buf base size ↔ ∀ e ∈ new, e.Inside := by
          rw [hfits, hiff]
          exact ⟨fun h => h halloc, fun h _ => h⟩
        simp only [Balanced, List.forall_mem_cons, Event.SumsFit, Event.Inside, true_and, hfit]
        exact ⟨fun h => ⟨by omega, by omega, by omega, by omega, h.1⟩, fun h => ⟨h.2.2.2.2, hall⟩⟩
    · have hfit : KeySumsFit env buf base size := hfits.2 fun h => by simp [h] at halloc
      simp [Balanced, Event.SumsFit, Event.Inside, hfit]
      omega
  · -- the sum is negative, and the key does not end in the buffer
    have hfit : ¬ KeySumsFit env buf base size := by
      intro h
      have hsum := (hfits.1 h hne hlt).1
      rw [int32_eq_self (by omega) hsum] at haccepted
      exact hroom haccepted
    have hout : ¬ InBounds buf (base + 8) keylength := by
      unfold InBounds
      omega
    refine Emits.allocate_bind (fun _ => Emits.fetch_bind (fun hb => ?_) fun _ _ _ => ?_)
      fun _ => ?_
    · exact absurd hb (not_or.2 ⟨hne, hout⟩)
    · simp [Balanced, Event.SumsFit, Event.Inside, hfit, hroom]
    · simp [Balanced, Event.SumsFit, Event.Inside, hfit, hroom]

end Keys

/-! ## Items -/

/-- A repository of version 2 whose header has the size 0: its first item is the repository
itself. -/
def SelfNested (buf : Bytes) : Prop :=
  headerStructSize ≤ buf.length ∧ signatureOf buf = headerSignature ∧ majorOf buf = 2 ∧
    ¬ IsCompressed buf ∧ headersizeOf buf = 0

section Items

variable {env : Env} (fuel : Nat) {nested : Bytes → Int → Parser (Int × Int)} {buf : Bytes}

/-- An item of version 1, at an offset in the buffer. -/
theorem parse_item_inside_one (hmax : (buf.length : Int) ≤ intMax) (hmajor : majorOf buf = 1)
    {w : Walk} (h0 : 0 ≤ w.offset) (hle : w.offset ≤ buf.length) :
    Emits Vault.trace (parseItem env fuel nested (majorOf buf) buf buf.length w)
      (fun new w' => Clean env new ∧ 0 ≤ w'.offset ∧ w'.offset ≤ buf.length)
      fun new _ => Balanced env new := by
  have hmax' : (buf.length : Int) ≤ 2147483647 := hmax
  have hitem : (Event.item buf buf.length w.offset).SumsFit env := by
    intro h
    rw [hmajor] at h
    cases h
  unfold parseItem
  rw [if_neg (by rw [hmajor]; decide), int32_eq_self (by omega) (by simp only [intMax]; omega)]
  refine Emits.log_bind (.bind ((parse_gddv_key_inside env fuel h0 (by omega)
    (by simp only [intMax]; omega)).conseq (fun _ _ h => h) fun _ _ h => ?_) ?_)
  · exact h.cons hitem trivial
  · intro new r hpost
    obtain ⟨res, endOffset⟩ := r
    obtain ⟨hclean, hres, hlo, hhi⟩ := hpost
    have hnext : Walk.next w.offset (res, endOffset) = ⟨w.offset + endOffset, none⟩ := by
      dsimp only at hres hhi hlo
      rw [Walk.next, if_neg (not_not.2 hres),
        int32_eq_self (by omega) (by simp only [intMax]; omega)]
    refine .pure ⟨(hclean.cons hitem trivial).append .nil, ?_⟩
    rw [hnext]
    dsimp only at hhi hlo ⊢
    omega

/-- Where an iteration has no room for a signature, one of its sums overflows: without an overflow
the condition of the loop leaves room. -/
theorem item_overflows (hlen : headerStructSize ≤ buf.length) (hmax : (buf.length : Int) ≤ intMax)
    (hmajor : majorOf buf = 2) {w : Walk} (hzero : headersizeOf buf = 0 → w.offset = 0)
    (hgo : w.goesOn (headersizeOf buf) buf.length = true)
    (hout : ¬ (0 ≤ w.offset ∧ w.offset + 2 ≤ buf.length)) :
    ¬ (Event.item buf buf.length w.offset).SumsFit env := by
  have hmax' : (buf.length : Int) ≤ 2147483647 := hmax
  intro h
  obtain ⟨h0, hsum | hsum⟩ := h hmajor
  · have hlt : w.offset + headersizeOf buf < buf.length := by
      have hgo' := (Bool.and_eq_true_iff.1 hgo).2
      rw [int32_eq_self (by omega) hsum] at hgo'
      exact of_decide_eq_true hgo'
    have hroom : headersizeOf buf = 0 ∨ w.offset + 2 ≤ buf.length := by omega
    obtain hz | hroom := hroom
    · rw [hzero hz] at hout
      simp only [headerStructSize] at hlen
      omega
    · exact hout ⟨h0, hroom⟩
  · exact hout ⟨h0, hsum⟩

/-- An item of version 2, wherever the offset is. If the header has the size 0, the offset is 0, and
the iteration does not end because the nested call does not return. -/
theorem parse_item_inside_two (hlen : headerStructSize ≤ buf.length)
    (hmax : (buf.length : Int) ≤ intMax) (hsignature : signatureOf buf = headerSignature)
    (hmajor : majorOf buf = 2) (hflat : ¬ IsCompressed buf)
    (hnested : ∀ sub subSize, Sized sub subSize → Emits Vault.trace (nested sub subSize)
      (fun new _ => Clean env new ∧ ¬ SelfNested sub) fun new _ => Balanced env new)
    {w : Walk} (hlo : -2147483648 ≤ w.offset) (hhi : w.offset ≤ intMax)
    (hzero : headersizeOf buf = 0 → w.offset = 0)
    (hgo : w.goesOn (headersizeOf buf) buf.length = true) :
    Emits Vault.trace (parseItem env fuel nested (majorOf buf) buf buf.length w)
      (fun new w' => Clean env new ∧ -2147483648 ≤ w'.offset ∧ w'.offset ≤ intMax ∧
        headersizeOf buf ≠ 0)
      fun new _ => Balanced env new := by
  have hmax' : (buf.length : Int) ≤ 2147483647 := hmax
  unfold parseItem
  rw [if_pos hmajor]
  refine Emits.log_bind (Emits.fetch_uint_bind (fun hb => ?_) fun _ hb _ => ?_)
  · have hin : 0 ≤ w.offset ∧ w.offset + 2 ≤ buf.length := by
      unfold InBounds at hb
      omega
    have hitem : Clean env
        [.item buf buf.length w.offset, .read w.offset (2 : Nat) buf.length] :=
      ⟨by simp [Event.SumsFit, hin], by simp [Event.Inside, hin]⟩
    refine .ite (fun hkeys => ?_) fun _ => .ite (fun hsub => ?_) fun hnone => ?_
    · have hne : headersizeOf buf ≠ 0 := by
        intro h
        rw [hzero h] at hkeys
        exact absurd (hsignature.symm.trans hkeys) (by decide)
      rw [int32_eq_self (by omega) (by simp only [intMax]; omega)]
      dsimp only
      rw [int32_eq_self (by omega) (by simp only [intMax]; omega)]
      refine .bind ((parse_gddv_key_inside env fuel (by omega) (by omega)
        (by simp only [intMax]; omega)).conseq (fun _ _ h => h)
        fun _ _ h => hitem.append_balanced h) ?_
      intro new r hpost
      obtain ⟨hclean, hres, -⟩ := hpost
      refine .pure ⟨hitem.append (hclean.append .nil), ?_⟩
      rw [Walk.next, if_neg (not_not.2 hres)]
      have hb := int32_bounds (w.offset + 2 + r.2)
      exact ⟨hb.1, hb.2, hne⟩
    · refine .bind ((hnested _ _ (sized_drop hmax hin.1 (by omega))).conseq (fun _ _ h => h)
        fun _ _ h => hitem.append_balanced h) ?_
      intro new r hpost
      obtain ⟨hclean, hself⟩ := hpost
      have hne : headersizeOf buf ≠ 0 := by
        intro h
        rw [hzero h] at hself
        exact hself ⟨hlen, hsignature, hmajor, hflat, h⟩
      refine .pure ⟨hitem.append (hclean.append .nil), ?_⟩
      have hb := int32_bounds (w.offset + r.2)
      rw [Walk.next]
      split
      · exact ⟨hlo, hhi, hne⟩
      · exact ⟨hb.1, hb.2, hne⟩
    · refine .pure ⟨hitem.append .nil, hlo, hhi, fun h => hnone ?_⟩
      rw [hzero h]
      exact hsignature
  · have hout : ¬ (0 ≤ w.offset ∧ w.offset + 2 ≤ buf.length) := by
      unfold InBounds at hb
      omega
    have hitem : ¬ (Event.item buf buf.length w.offset).SumsFit env :=
      item_overflows hlen hmax hmajor hzero hgo hout
    refine iff_of_false (fun h => hitem (h _ ?_)) fun h => hout (h (.read w.offset (2 : Nat) _) ?_)
    · exact List.mem_cons_self
    · exact List.mem_cons_of_mem _ List.mem_cons_self

/-- Where the item loop can be. In version 1 the offset is in the buffer when an iteration begins,
in version 2 it is any `int`, but it does not leave 0 if the header has the size 0. -/
structure Placed (buf : Bytes) (w : Walk) : Prop where
  one : majorOf buf = 1 → 0 ≤ w.offset ∧
    (w.goesOn (headersizeOf buf) buf.length = true → w.offset ≤ buf.length)
  two : majorOf buf = 2 → -2147483648 ≤ w.offset ∧ w.offset ≤ intMax
  zero : majorOf buf = 2 → headersizeOf buf = 0 → w = ⟨0, none⟩

/-- The loop begins behind the header. -/
theorem placed_start (buf : Bytes) : Placed buf ⟨headersizeOf buf, none⟩ := by
  have hbound := headersize_lt buf
  refine ⟨fun _ => ?_, fun _ => ?_, fun _ h => ?_⟩
  · refine ⟨Int.natCast_nonneg _, fun hgo => ?_⟩
    have hlt : int32 (headersizeOf buf + headersizeOf buf) < buf.length :=
      of_decide_eq_true (Bool.and_eq_true_iff.1 hgo).2
    rw [int32_eq_self (by omega) (by simp only [intMax]; omega)] at hlt
    show (headersizeOf buf : Int) ≤ buf.length
    omega
  · show -2147483648 ≤ (headersizeOf buf : Int) ∧ (headersizeOf buf : Int) ≤ 2147483647
    omega
  · rw [h]
    rfl

/-- An iteration of the item loop. -/
theorem parse_item_inside (hlen : headerStructSize ≤ buf.length)
    (hmax : (buf.length : Int) ≤ intMax) (hsignature : signatureOf buf = headerSignature)
    (hmajor : majorOf buf = 1 ∨ majorOf buf = 2) (hflat : ¬ IsCompressed buf)
    (hnested : ∀ sub subSize, Sized sub subSize → Emits Vault.trace (nested sub subSize)
      (fun new _ => Clean env new ∧ ¬ SelfNested sub) fun new _ => Balanced env new)
    {w : Walk} (hplaced : Placed buf w) (hgo : w.goesOn (headersizeOf buf) buf.length = true) :
    Emits Vault.trace (parseItem env fuel nested (majorOf buf) buf buf.length w)
      (fun new w' => Clean env new ∧ Placed buf w') fun new _ => Balanced env new := by
  rcases hmajor with hmajor | hmajor
  · obtain ⟨h0, hle⟩ := hplaced.one hmajor
    refine (parse_item_inside_one fuel hmax hmajor h0 (hle hgo)).conseq ?_ fun _ _ h => h
    intro new w' hpost
    obtain ⟨hclean, h0', hle'⟩ := hpost
    refine ⟨hclean, fun _ => ⟨h0', fun _ => hle'⟩, fun h => ?_, fun h => ?_⟩ <;> omega
  · obtain ⟨hlo, hhi⟩ := hplaced.two hmajor
    refine (parse_item_inside_two fuel hlen hmax hsignature hmajor hflat hnested hlo hhi ?_
      hgo).conseq ?_ fun _ _ h => h
    · intro hz
      rw [hplaced.zero hmajor hz]
    · intro new w' hpost
      obtain ⟨hclean, hlo', hhi', hne⟩ := hpost
      exact ⟨hclean, fun h => by omega, fun _ => ⟨hlo', hhi'⟩, fun _ h => absurd h hne⟩

/-- The item loop. -/
theorem parse_items_inside (hlen : headerStructSize ≤ buf.length)
    (hmax : (buf.length : Int) ≤ intMax) (hsignature : signatureOf buf = headerSignature)
    (hmajor : majorOf buf = 1 ∨ majorOf buf = 2) (hflat : ¬ IsCompressed buf)
    (hnested : ∀ sub subSize, Sized sub subSize → Emits Vault.trace (nested sub subSize)
      (fun new _ => Clean env new ∧ ¬ SelfNested sub) fun new _ => Balanced env new) :
    Emits Vault.trace
      (parseItems env fuel nested (majorOf buf) (headersizeOf buf) buf buf.length)
      (fun new _ => Clean env new ∧ ¬ SelfNested buf) fun new _ => Balanced env new := by
  unfold parseItems
  refine .bind (Emits.loop (I := fun _ new w => Clean env new ∧ Placed buf w)
    (E := fun new _ => Balanced env new) ?_ ?_ fuel [] _ ⟨.nil, placed_start buf⟩) ?_
  · intro _ new w hpost hgo
    obtain ⟨hclean, hplaced⟩ := hpost
    refine (parse_item_inside fuel hlen hmax hsignature hmajor hflat hnested hplaced hgo).conseq ?_
      fun _ _ h => hclean.append_balanced h
    intro more w' hpost
    obtain ⟨hmore, hplaced'⟩ := hpost
    exact ⟨hclean.append hmore, hplaced'⟩
  · intro new w hpost _
    obtain ⟨hclean, -⟩ := hpost
    exact hclean.balanced
  · intro new w hpost
    obtain ⟨hstop, -, hclean, hplaced⟩ := hpost
    have hself : ¬ SelfNested buf := by
      intro hex
      obtain ⟨-, -, htwo, -, hz⟩ := hex
      have hgo : Walk.goesOn 0 buf.length ⟨0, none⟩ = true :=
        Bool.and_eq_true_iff.2 ⟨rfl, decide_eq_true (lt_of_lt_of_le (by decide) hlen)⟩
      rw [hplaced.zero htwo hz, hz, hgo] at hstop
      cases hstop
    have hend : Clean env (new ++ []) ∧ ¬ SelfNested buf := ⟨hclean.append .nil, hself⟩
    cases w.ret with
    | none => exact .pure hend
    | some res => exact .pure hend

end Items

/-! ## Repositories -/

/-- The steps of a decompression are none of the item loop. -/
theorem clean_of_inflate {env : Env} {new : List Event} (h : ∀ e ∈ new, e.OfInflate) :
    Clean env new := by
  refine ⟨fun e he => ?_, fun e he => ?_⟩
  · have hof := h e he
    cases e <;> first | exact trivial | cases hof
  · have hof := h e he
    cases e <;> first | exact trivial | cases hof

/-- The parser, by induction on the fuel: a nested or a decompressed repository is parsed with
less. -/
theorem parse_gddv_inside (env : Env) (fuel : Nat) (isNested : Bool) {buf : Bytes} {size : Int}
    (hsized : Sized buf size) :
    Emits Vault.trace (parseGddv env fuel isNested buf size)
      (fun new _ => Clean env new ∧ ¬ SelfNested buf) fun new _ => Balanced env new := by
  induction fuel generalizing isNested buf size with
  | zero => exact .throw Clean.nil.balanced
  | succ fuel ih =>
      obtain ⟨hmax, hlen⟩ := hsized
      by_cases hshort : size < headerStructSize
      · rw [parse_gddv_short env fuel isNested hshort]
        refine Emits.log_bind (.pure ⟨Clean.nil.cons trivial trivial, fun hself => ?_⟩)
        have hlong := hself.1
        simp only [headerStructSize] at hshort hlong
        omega
      obtain rfl : size = buf.length := by
        simp only [headerStructSize] at hshort
        omega
      have henter : Clean env [.enter isNested buf buf.length] := Clean.nil.cons trivial trivial
      rw [parse_gddv_eq env fuel isNested (not_lt.1 hshort)]
      refine Emits.log_bind (.ite (fun _ => .throw henter.balanced) fun hsignature => ?_)
      refine .ite (fun hmajor => .pure ⟨henter, fun hself => hmajor.2 hself.2.2.1⟩) fun hmajor => ?_
      refine .ite (fun hflag => ?_) fun hflat => ?_
      · have hself : ¬ SelfNested buf := fun hself => hself.2.2.2.1 hflag
        refine .bind ((decompress_emits env buf).conseq (fun _ _ h => h) fun _ _ h =>
          henter.append_balanced (clean_of_inflate h.1).balanced) ?_
        intro new r hpost
        obtain ⟨hinflate, hr⟩ := hpost
        have hbefore := henter.append (clean_of_inflate hinflate)
        cases r with
        | none => exact .pure ⟨hbefore.append .nil, hself⟩
        | some out =>
            obtain ⟨d, n⟩ := out
            obtain ⟨hsub, -⟩ := hr d n rfl
            refine .bind ((ih false hsub).conseq (fun _ _ h => h) fun _ _ h =>
              hbefore.append_balanced h) ?_
            intro more result hpost
            obtain ⟨res, endOffset⟩ := result
            obtain ⟨hmore, -⟩ := hpost
            exact .pure ⟨hbefore.append (hmore.append .nil), hself⟩
      · refine (parse_items_inside fuel (not_lt.1 hshort) hmax (not_not.1 hsignature) (by omega)
          hflat fun sub subSize hsub => ih true hsub).conseq ?_ ?_
        · intro new _ hpost
          obtain ⟨hclean, hself⟩ := hpost
          exact ⟨henter.append hclean, hself⟩
        · exact fun _ _ h => henter.append_balanced h

/-- In every run of the parser, the reads of the item loop and of `parse_gddv_key` are inside of
their buffers and the accepted lengths end in them if and only if no sum that the run compares
overflows. -/
theorem parse_inside_iff (env : Env) (fuel : Nat) (isNested : Bool) {buf : Bytes}
    (hmax : (buf.length : Int) ≤ intMax) {v : Vault} (hv : v.trace = []) :
    (∀ e ∈ (finalState (parseGddv env fuel isNested buf buf.length v)).trace, e.Inside) ↔
      ∀ e ∈ (finalState (parseGddv env fuel isNested buf buf.length v)).trace,
        e.SumsFit env := by
  have hsized : Sized buf buf.length := ⟨hmax, Int.toNat_natCast _⟩
  have hrun := (parse_gddv_inside env fuel isNested hsized).conseq
    (fun _ _ h => h.1.balanced) fun _ _ h => h
  exact (Emits.final (P := fun new _ => Balanced env new) hrun hv).symm

/-! ## Examples -/

/-- A vault with a key that claims some length. -/
def keyVault (keylength : Nat) : Bytes :=
  sampleHeader 148 0 ++ toLittleEndian 2 keysSignature ++ toLittleEndian 4 0 ++
    toLittleEndian 4 keylength ++ List.replicate 142 0

/-- A key of almost 2 GiB is accepted in a buffer of 300 bytes. -/
theorem long_key_accepted :
    ¬ ∀ e ∈ (finalState (parseGddv sampleEnv 3 false (keyVault 2147483646) 300 Vault.start)).trace,
      e.Inside := by
  intro h
  have hmem : Event.accept .key 8 2147483646 150 ∈
      (finalState (parseGddv sampleEnv 3 false (keyVault 2147483646) 300 Vault.start)).trace := by
    decide +kernel
  exact absurd (h _ hmem) (by decide)

/-- A key of four bytes in the same place is read inside of the buffer. -/
theorem short_key_inside :
    ((keyVault 4).length : Int) = 300 ∧
      ∀ e ∈ (finalState (parseGddv sampleEnv 3 false (keyVault 4) 300 Vault.start)).trace,
        e.Inside := by
  have hlen : ((keyVault 4).length : Int) = 300 := by decide +kernel
  refine ⟨hlen, ?_⟩
  have hiff := parse_inside_iff sampleEnv 3 false (hlen.trans_le (by decide)) (v := Vault.start) rfl
  rw [hlen] at hiff
  exact hiff.2 (by decide +kernel)

end Thermald.Gddv
