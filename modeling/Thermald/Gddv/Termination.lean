import Thermald.Gddv.Bounds
import Thermald.Gddv.MoreFuel

/-!
# When the parser ends

The item loop moves on by the end offsets of the calls that it makes, and the parser calls itself on
nested and on decompressed repositories. A run that goes on has three reasons only: it enters a
repository of version 2 whose header has the size 0, which is its own first item; it decompresses
one repository after the other, because compressed repositories are nested for ever or because a
nested one that has been parsed is found again, as its end offset is not reported; or a decoder
does not end. `parse_ends_iff` says that the parser ends if and only if none of these happens.
-/

namespace Thermald.Gddv

/-- The decoders of a key end on its value and some tables. -/
def DecodersEnd (fuel : Nat) (g : Gddv) (key val : Bytes) : Prop :=
  stopOf (dispatch fuel key val ⟨g, []⟩) ≠ some .outOfFuel

/-- The parser does not get stuck in a call: it is not on a repository that is its own first item,
and decoders end with some fuel. -/
def Event.Proceeds (fuel : Nat) : Event → Prop
  | .enter _ buf _ => ¬ SelfNested buf
  | .dispatch g path val => DecodersEnd fuel g path val
  | _ => True

instance (fuel : Nat) (g : Gddv) (key val : Bytes) : Decidable (DecodersEnd fuel g key val) :=
  inferInstanceAs (Decidable (_ ≠ _))

instance (buf : Bytes) : Decidable (SelfNested buf) :=
  inferInstanceAs (Decidable (_ ∧ _ ∧ _ ∧ _ ∧ _))

instance (fuel : Nat) : DecidablePred (Event.Proceeds fuel) := fun e =>
  match e with
  | .enter .. => inferInstanceAs (Decidable (¬ SelfNested _))
  | .dispatch .. => inferInstanceAs (Decidable (DecodersEnd _ _ _ _))
  | .item .. | .key .. | .read .. | .accept .. | .outputSize .. | .write .. | .handOver .. =>
    inferInstanceAs (Decidable True)

/-- A decompressed repository is handed over. -/
def Event.isHandOver : Event → Bool
  | .handOver .. => true
  | _ => false

/-- The number of repositories that have been decompressed. -/
def decompressions (new : List Event) : Nat := new.countP Event.isHandOver

/-- Decoders that end with some fuel end with more. -/
theorem proceeds_mono {fuel fuel' : Nat} (hle : fuel ≤ fuel') {e : Event}
    (h : e.Proceeds fuel) : e.Proceeds fuel' := by
  cases e with
  | enter isNested buf size => exact h
  | dispatch g key val =>
      show stopOf (dispatch fuel' key val ⟨g, []⟩) ≠ some .outOfFuel
      rw [(dispatch_settles hle key val).eq _ h]
      exact h
  | item | key | read | accept | outputSize | write | handOver => exact trivial

/-! ## Keys -/

/-- The computation runs out of fuel exactly if it gets stuck in one of its steps. -/
def Proceeding {α : Type} (fuel : Nat) (m : Parser α) : Prop :=
  Emits Vault.trace m (fun new _ => ∀ e ∈ new, e.Proceeds fuel)
    fun new stop => (∀ e ∈ new, e.Proceeds fuel) ↔ stop ≠ .outOfFuel

namespace Proceeding

variable {α β : Type} {fuel : Nat} {m : Parser α}

protected theorem pure (a : α) : Proceeding fuel (pure a : Parser α) :=
  Emits.pure (by simp)

protected theorem throw {e : Stop} (h : e ≠ .outOfFuel) : Proceeding fuel (throw e : Parser α) :=
  Emits.throw (by simp [h])

protected theorem bind {f : α → Parser β} (h : Proceeding fuel m)
    (hf : ∀ a, Proceeding fuel (f a)) : Proceeding fuel (m >>= f) := by
  refine Emits.bind h fun new a hnew => (hf a).conseq ?_ ?_
  · intro more b hmore
    exact List.forall_mem_append.2 ⟨hnew, hmore⟩
  · intro more e hmore
    rw [List.forall_mem_append, hmore]
    exact ⟨fun h => h.2, fun h => ⟨hnew, h⟩⟩

protected theorem ite {c : Prop} {_ : Decidable c} {m' : Parser α} (h : Proceeding fuel m)
    (h' : Proceeding fuel m') : Proceeding fuel (if c then m else m') :=
  Emits.ite (fun _ => h) fun _ => h'

protected theorem log {e : Event} (h : e.Proceeds fuel) : Proceeding fuel (log e) :=
  Emits.modify (fun _ => rfl) (by simpa using h)

protected theorem allocate (env : Env) (n : Nat) : Proceeding fuel (allocate env n) :=
  .ite (.pure ()) (.throw nofun)

protected theorem fetch (buf : Bytes) (base size i : Int) (n : Nat) :
    Proceeding fuel (fetch buf base size i n) :=
  .bind (.log trivial) fun _ => .ite (.pure _) (.ite (.pure _) (.throw nofun))

protected theorem fetch_uint (buf : Bytes) (base size i : Int) (n : Nat) :
    Proceeding fuel (fetchUint buf base size i n) := by
  unfold fetchUint
  rw [map_eq_pure_bind]
  exact .bind (.fetch buf base size i n) fun _ => .pure _

protected theorem recorded_dispatch (key val : Bytes) :
    Proceeding fuel (recordedDispatch fuel key val) := by
  refine (Emits.recorded_dispatch fuel key val).conseq ?_ ?_
  · intro _ _ hpost
    obtain ⟨g, rfl, hstop⟩ := hpost
    simp [Event.Proceeds, DecodersEnd, hstop]
  · intro _ e hpost
    obtain ⟨g, rfl, hstop⟩ := hpost
    simp [Event.Proceeds, DecodersEnd, hstop]

end Proceeding

/-- A call of `parse_gddv_key` runs out of fuel exactly if the decoders of its key do. -/
theorem parse_gddv_key_proceeding (env : Env) (fuel : Nat) (buf : Bytes) (base size : Int) :
    Proceeding fuel (parseGddvKey env fuel buf base size) := by
  have hvalue : ∀ key offset,
      Proceeding fuel (parseGddvValue env fuel buf base size key offset) := by
    intro key offset
    unfold parseGddvValue
    refine .ite (.throw nofun) (.bind (.log trivial) fun _ => ?_)
    refine .bind (.fetch_uint _ _ _ _ _) fun _ => .bind (.fetch_uint _ _ _ _ _) fun _ => ?_
    refine .ite (.throw nofun) (.bind (.log trivial) fun _ => ?_)
    refine .bind (.allocate _ _) fun _ => .bind (.fetch _ _ _ _ _) fun _ => ?_
    exact .bind (.recorded_dispatch _ _) fun _ => .pure _
  unfold parseGddvKey
  refine .bind (.log trivial) fun _ => .ite (.throw nofun) ?_
  refine .bind (.fetch_uint _ _ _ _ _) fun _ => .bind (.fetch_uint _ _ _ _ _) fun _ => ?_
  refine .ite (.throw nofun) (.bind (.log trivial) fun _ => ?_)
  exact .bind (.allocate _ _) fun _ => .bind (.fetch _ _ _ _ _) fun key => hvalue key _

/-! ## Progress -/

/-- What a successful call on a nested repository has achieved: it reports an offset further on, or
it has decompressed a repository. -/
def Progress (size : Int) (new : List Event) (endOffset : Int) : Prop :=
  0 < endOffset ∧ endOffset ≤ size + 65535 ∨ endOffset = 0 ∧ 0 < decompressions new

/-- Fuel for a repository of some size, with `k` of it for the decoders and at most `d`
decompressions. -/
def fuelFor (k d : Nat) (size : Int) : Nat := k + 2 + size.toNat + d * 2147483650

/-- A run that does not get stuck and does not decompress too often does not run out of enough
fuel. -/
def Suffices (fuel : Nat) (size : Int) (new : List Event) (stop : Stop) : Prop :=
  ∀ k d, fuelFor k d size ≤ fuel → (∀ e ∈ new, e.Proceeds k) → decompressions new ≤ d →
    stop ≠ .outOfFuel

@[simp] theorem decompressions_append (new more : List Event) :
    decompressions (new ++ more) = decompressions new + decompressions more :=
  List.countP_append

/-- Earlier steps do not matter. -/
theorem Suffices.append {fuel : Nat} {size : Int} {more : List Event} {stop : Stop}
    (h : Suffices fuel size more stop) (new : List Event) :
    Suffices fuel size (new ++ more) stop := by
  intro k d hfuel hall hcount
  rw [decompressions_append] at hcount
  exact h k d hfuel (List.forall_mem_append.1 hall).2 (by omega)

/-- A stop for another reason. -/
theorem suffices_of_ne {fuel : Nat} {size : Int} {new : List Event} {stop : Stop}
    (h : stop ≠ .outOfFuel) : Suffices fuel size new stop :=
  fun _ _ _ _ _ => h

section Items

variable {env : Env} {fuel : Nat} {nested : Bytes → Int → Parser (Int × Int)} {buf : Bytes}
  (hmax : (buf.length : Int) ≤ intMax)

include hmax

/-- A key of the repository. -/
theorem parse_gddv_key_steps {base : Int} (h0 : 0 ≤ base) (hle : base ≤ buf.length) :
    Emits Vault.trace (parseGddvKey env fuel buf base (int32 (buf.length - base)))
      (fun _ r => r.1 = gddvSuccess ∧ 17 ≤ r.2 ∧ r.2 ≤ buf.length - base)
      (Suffices (fuel + 1) buf.length) := by
  simp only [intMax] at hmax
  rw [int32_eq_self (by omega) (by simp only [intMax]; omega)]
  have hend : base + (buf.length - base) = buf.length := by omega
  have hinside := parse_gddv_key_inside env fuel h0 hend (by simp only [intMax]; omega)
  refine (hinside.and (parse_gddv_key_proceeding env fuel buf base _)).conseq ?_ ?_
  · intro _ r hpost
    obtain ⟨⟨-, hr⟩, -⟩ := hpost
    exact hr
  · intro new stop hpost k d hfuel hall _
    obtain ⟨-, hiff⟩ := hpost
    refine hiff.1 fun e he => proceeds_mono ?_ (hall e he)
    unfold fuelFor at hfuel
    omega

/-- An iteration of the item loop that goes on: it has read inside of the buffer, and the offset has
become negative, has moved forward, or has stayed where it was after a decompression. -/
structure Stepped (buf : Bytes) (w w' : Walk) (more : List Event) : Prop where
  inside : 0 ≤ w.offset ∧ w.offset + 2 ≤ buf.length
  next : w'.offset ≤ -2147418113 ∨ w.offset < w'.offset ∧ w'.offset ≤ buf.length + 65535 ∨
    w'.offset = w.offset ∧ 0 < decompressions more

/-- The offset after a call at an offset of the buffer. -/
theorem stepped_next {w : Walk} {base endOffset : Int} {more : List Event}
    (hinside : 0 ≤ w.offset ∧ w.offset + 2 ≤ buf.length)
    (hbase : w.offset ≤ base ∧ base ≤ buf.length)
    (hend : 0 < endOffset ∧ endOffset ≤ buf.length - base + 65535 ∨
      base = w.offset ∧ endOffset = 0 ∧ 0 < decompressions more) :
    Stepped buf w ⟨int32 (base + endOffset), none⟩ more := by
  simp only [intMax] at hmax
  refine ⟨hinside, ?_⟩
  show int32 (base + endOffset) ≤ _ ∨ _ < int32 (base + endOffset) ∧
    int32 (base + endOffset) ≤ _ ∨ int32 (base + endOffset) = _ ∧ _
  unfold int32
  omega

/-- An iteration of the item loop. -/
theorem parse_item_steps (hmajor : majorOf buf = 1 ∨ majorOf buf = 2)
    (hnested : ∀ sub subSize, Sized sub subSize → Emits Vault.trace (nested sub subSize)
      (fun new r => r.1 = gddvSuccess → Progress subSize new r.2) (Suffices fuel subSize))
    {w : Walk} (hplaced : Placed buf w) (hgo : w.goesOn (headersizeOf buf) buf.length = true) :
    Emits Vault.trace (parseItem env fuel nested (majorOf buf) buf buf.length w)
      (fun more w' => (∀ res, w'.ret = some res → res ≠ gddvSuccess) ∧
        (w'.ret = none → Stepped buf w w' more))
      fun more stop =>
        (majorOf buf = 2 → w.offset ≠ 0) → Suffices (fuel + 1) buf.length more stop := by
  have hmax' : (buf.length : Int) ≤ 2147483647 := hmax
  unfold parseItem
  refine Emits.log_bind (.ite (fun htwo => ?_) fun htwo => ?_)
  · refine Emits.fetch_uint_bind (fun hb => ?_) fun _ _ _ _ => suffices_of_ne fun h => by cases h
    have hin : 0 ≤ w.offset ∧ w.offset + 2 ≤ buf.length := by
      unfold InBounds at hb
      omega
    refine .ite (fun _ => ?_) fun _ => .ite (fun _ => ?_) fun _ => .pure ⟨?_, fun h => by cases h⟩
    · rw [int32_eq_self (by omega) (by simp only [intMax]; omega)]
      refine .bind ((parse_gddv_key_steps hmax (show 0 ≤ w.offset + 2 by omega) hin.2).conseq
        (fun _ _ h => h) fun _ _ h _ => h.append [_, _]) ?_
      intro new r hpost
      obtain ⟨hres, hlo, hhi⟩ := hpost
      refine .pure ?_
      rw [Walk.next, if_neg (not_not.2 hres)]
      refine ⟨fun _ h => (by cases h), fun _ => ?_⟩
      exact stepped_next hmax hin ⟨by omega, hin.2⟩ (.inl ⟨by omega, by omega⟩)
    · have hsize : int32 (buf.length - w.offset) = buf.length - w.offset :=
        int32_eq_self (by omega) (by simp only [intMax]; omega)
      refine .bind ((hnested _ _ (sized_drop hmax hin.1 (by omega))).conseq (fun _ _ h => h) ?_) ?_
      · intro new stop h hzero k d hfuel
        refine h.append [_, _] k d ?_
        rw [hsize]
        have hne := hzero htwo
        unfold fuelFor at hfuel ⊢
        omega
      · intro new r hr
        refine .pure ?_
        rw [Walk.next]
        split
        · rename_i hres
          refine ⟨fun res h => ?_, fun h => by cases h⟩
          cases h
          exact hres
        · rename_i hres
          refine ⟨fun _ h => (by cases h), fun _ => ?_⟩
          refine stepped_next hmax hin ⟨le_refl _, by omega⟩ ?_
          have hprogress := hr (not_not.1 hres)
          unfold Progress at hprogress
          rw [hsize] at hprogress
          have hcount : decompressions (.item buf buf.length w.offset ::
              .read w.offset (2 : Nat) buf.length :: (new ++ [])) = decompressions new := by
            simp [decompressions, Event.isHandOver]
          rw [hcount]
          omega
    · intro res h
      cases h
      decide
  · obtain ⟨h0, hle⟩ := hplaced.one (hmajor.resolve_right htwo)
    refine .bind ((parse_gddv_key_steps hmax h0 (hle hgo)).conseq (fun _ _ h => h)
      fun _ _ h _ => h.append [_]) ?_
    intro new r hpost
    obtain ⟨hres, hlo, hhi⟩ := hpost
    refine .pure ?_
    rw [Walk.next, if_neg (not_not.2 hres)]
    refine ⟨fun _ h => (by cases h), fun _ => ?_⟩
    exact stepped_next hmax ⟨h0, by omega⟩ ⟨le_refl _, hle hgo⟩ (.inl ⟨by omega, by omega⟩)

/-- How far the loop still has to go. A negative offset makes the next iteration stop. -/
def remaining (buf : Bytes) (w : Walk) : Nat :=
  if w.offset < 0 then 0 else (buf.length - w.offset).toNat

/-- Where the item loop can be when it goes on: the offset is not before the end of the header, and
not far behind the buffer, or it is negative. -/
structure Located (buf : Bytes) (w : Walk) : Prop where
  placed : Placed buf w
  ahead : w.ret = none → headersizeOf buf ≤ w.offset ∧ w.offset ≤ buf.length + 65535 ∨
    w.offset ≤ -2147418113
  failed : ∀ res, w.ret = some res → res ≠ gddvSuccess

omit hmax in
/-- An iteration brings the loop closer to its end, or it takes a decompression. -/
theorem Stepped.closer {w w' : Walk} {more : List Event} (h : Stepped buf w w' more) :
    remaining buf w' < remaining buf w ∨
      remaining buf w' = remaining buf w ∧ 0 < decompressions more := by
  obtain ⟨hin, hnext⟩ := h
  unfold remaining
  split <;> split <;> omega

omit hmax in
/-- An iteration of the loop leads from one place to another. -/
theorem Located.step {w w' : Walk} {more : List Event} (h : Located buf w)
    (hgo : w.goesOn (headersizeOf buf) buf.length = true) (hplaced : Placed buf w')
    (hfailed : ∀ res, w'.ret = some res → res ≠ gddvSuccess)
    (hstep : w'.ret = none → Stepped buf w w' more) : Located buf w' := by
  refine ⟨hplaced, fun hret => ?_, hfailed⟩
  have hnone : w.ret = none := Option.isNone_iff_eq_none.1 (Bool.and_eq_true_iff.1 hgo).1
  have hahead := h.ahead hnone
  obtain ⟨hin, hnext⟩ := hstep hret
  omega

/-- When the loop ends at an offset, it has made progress. -/
theorem Located.progress {w : Walk} (h : Located buf w) (hlen : headerStructSize ≤ buf.length)
    (hmajor : majorOf buf = 1 ∨ majorOf buf = 2)
    (hstop : w.goesOn (headersizeOf buf) buf.length = false) (hret : w.ret = none) :
    0 < w.offset ∧ w.offset ≤ buf.length + 65535 := by
  have hbound := headersize_lt buf
  have hge : ¬ int32 (w.offset + headersizeOf buf) < buf.length := by
    intro hlt
    simp [Walk.goesOn, hret, hlt] at hstop
  simp only [headerStructSize, intMax] at hlen hmax
  have hlo : -2147483648 ≤ w.offset := by
    rcases hmajor with hone | htwo
    · have h0 := (h.placed.one hone).1
      omega
    · exact (h.placed.two htwo).1
  have hahead := h.ahead hret
  unfold int32 at hge
  omega

/-- The item loop, given what holds of nested repositories. -/
theorem parse_items_steps (hlen : headerStructSize ≤ buf.length)
    (hsignature : signatureOf buf = headerSignature)
    (hmajor : majorOf buf = 1 ∨ majorOf buf = 2) (hflat : ¬ IsCompressed buf)
    (hinside : ∀ sub subSize, Sized sub subSize → Emits Vault.trace (nested sub subSize)
      (fun new _ => Clean env new ∧ ¬ SelfNested sub) fun new _ => Balanced env new)
    (hnested : ∀ sub subSize, Sized sub subSize → Emits Vault.trace (nested sub subSize)
      (fun new r => r.1 = gddvSuccess → Progress subSize new r.2) (Suffices fuel subSize)) :
    Emits Vault.trace
      (parseItems env fuel nested (majorOf buf) (headersizeOf buf) buf buf.length)
      (fun new r => r.1 = gddvSuccess → Progress buf.length new r.2)
      fun new stop => ¬ SelfNested buf → Suffices (fuel + 1) buf.length new stop := by
  have hstart : Located buf ⟨headersizeOf buf, none⟩ := by
    have hbound := headersize_lt buf
    refine ⟨placed_start buf, fun _ => .inl ⟨le_refl _, ?_⟩, nofun⟩
    show (headersizeOf buf : Int) ≤ buf.length + 65535
    omega
  unfold parseItems
  -- the fuel of the loop exceeds what remains and the decompressions that are still allowed
  refine .bind (Emits.loop (I := fun left new w => Located buf w ∧ ∀ k d,
      fuelFor k d buf.length ≤ fuel + 1 → decompressions new ≤ d →
      w.goesOn (headersizeOf buf) buf.length = true →
      remaining buf w + (d - decompressions new) < left)
    (E := fun new stop => ¬ SelfNested buf → Suffices (fuel + 1) buf.length new stop)
    ?_ ?_ fuel [] _ ⟨hstart, ?_⟩) ?_
  · intro left new w hpost hgo
    obtain ⟨hloc, hrank⟩ := hpost
    have hnone : w.ret = none := Option.isNone_iff_eq_none.1 (Bool.and_eq_true_iff.1 hgo).1
    refine ((parse_item_inside fuel hlen hmax hsignature hmajor hflat hinside hloc.placed hgo).and
      (parse_item_steps hmax hmajor hnested hloc.placed hgo)).conseq ?_ ?_
    · intro more w' hpost
      obtain ⟨⟨-, hplaced⟩, hfailed, hstep⟩ := hpost
      refine ⟨hloc.step hgo hplaced hfailed hstep, fun k d hfuel hcount hgo' => ?_⟩
      have hret : w'.ret = none := Option.isNone_iff_eq_none.1 (Bool.and_eq_true_iff.1 hgo').1
      have hcloser := (hstep hret).closer
      rw [decompressions_append] at hcount ⊢
      have hbefore := hrank k d hfuel (by omega) hgo
      omega
    · intro more stop hpost hself
      obtain ⟨-, hstop⟩ := hpost
      refine (hstop fun htwo hzero => hself ⟨hlen, hsignature, htwo, hflat, ?_⟩).append new
      have hahead := hloc.ahead hnone
      omega
  · intro new w hpost hgo _ k d hfuel _ hcount
    obtain ⟨-, hrank⟩ := hpost
    exact absurd (hrank k d hfuel hcount hgo) (Nat.not_lt_zero _)
  · intro k d hfuel _ _
    have hle : remaining buf ⟨headersizeOf buf, none⟩ ≤ buf.length := by
      unfold remaining
      split <;> omega
    unfold fuelFor at hfuel
    have hnil : decompressions [] = 0 := rfl
    omega
  · intro new w hpost
    obtain ⟨hstop, -, hloc, -⟩ := hpost
    cases hret : w.ret with
    | none => exact .pure fun _ => .inl (hloc.progress hmax hlen hmajor hstop hret)
    | some res => exact .pure fun h => absurd h (hloc.failed res hret)

end Items

/-! ## Enough fuel -/

/-- A repository that is handed over has been decompressed. -/
theorem decompressions_pos {new : List Event} {allocated : Nat} {size : Int}
    (h : .handOver allocated size ∈ new) : 0 < decompressions new :=
  List.countP_pos_iff.2 ⟨_, h, rfl⟩

/-- The parser, by induction on the fuel. -/
theorem parse_gddv_steps (env : Env) (fuel : Nat) (isNested : Bool) {buf : Bytes} {size : Int}
    (hsized : Sized buf size) :
    Emits Vault.trace (parseGddv env fuel isNested buf size)
      (fun new r => r.1 = gddvSuccess → Progress size new r.2) (Suffices fuel size) := by
  induction fuel generalizing isNested buf size with
  | zero =>
      refine .throw fun k d hfuel => ?_
      unfold fuelFor at hfuel
      omega
  | succ fuel ih =>
      obtain ⟨hmax, hlen⟩ := hsized
      by_cases hshort : size < headerStructSize
      · rw [parse_gddv_short env fuel isNested hshort]
        exact Emits.log_bind (.pure nofun)
      obtain rfl : size = buf.length := by
        simp only [headerStructSize] at hshort
        omega
      rw [parse_gddv_eq env fuel isNested (not_lt.1 hshort)]
      refine Emits.log_bind (.ite (fun _ => .throw (suffices_of_ne nofun)) fun hsignature => ?_)
      refine .ite (fun _ => .pure nofun) fun hmajor => .ite (fun hflag => ?_) fun hflat => ?_
      · refine .bind ((decompress_emits env buf).conseq (fun _ _ h => h) fun _ _ h =>
          suffices_of_ne h.2) ?_
        intro new r hpost
        obtain ⟨-, hr⟩ := hpost
        cases r with
        | none => exact .pure nofun
        | some out =>
            obtain ⟨d, n⟩ := out
            obtain ⟨hsub, a, hmem⟩ := hr d n rfl
            have hpos := decompressions_pos hmem
            refine .bind ((ih false hsub).conseq (fun _ _ h => h) ?_) ?_
            · -- the decompression that has happened is one less for the rest
              intro more stop h k d hfuel hall hcount
              rw [← List.singleton_append, decompressions_append, decompressions_append] at hcount
              have hmore : ∀ e ∈ more, e.Proceeds k := fun e he =>
                hall e (List.mem_cons_of_mem _ (List.mem_append_right new he))
              refine h k (d - 1) ?_ hmore (by omega)
              have hn : n ≤ 2147483647 := hsub.1
              unfold fuelFor at hfuel ⊢
              omega
            · intro more result _
              obtain ⟨res, endOffset⟩ := result
              refine .pure fun _ => .inr ⟨rfl, ?_⟩
              rw [← List.singleton_append, decompressions_append, decompressions_append]
              omega
      · refine (parse_items_steps hmax (not_lt.1 hshort) (not_not.1 hsignature) (by omega) hflat
          (fun sub subSize hsub => parse_gddv_inside env fuel true hsub)
          fun sub subSize hsub => ih true hsub).conseq ?_ ?_
        · intro new r h hres
          refine (h hres).imp id fun hzero => ⟨hzero.1, ?_⟩
          rw [← List.singleton_append, decompressions_append]
          exact Nat.add_pos_right _ hzero.2
        · intro new stop h k d hfuel hall
          have hself : ¬ SelfNested buf := hall (.enter isNested buf buf.length) List.mem_cons_self
          exact (h hself).append [_] k d hfuel hall


/-! ## Getting stuck -/

/-- A repository that is its own first item is parsed until the fuel is used up. -/
theorem self_nested_stuck (env : Env) (fuel : Nat) (isNested : Bool) {buf : Bytes}
    (hmax : (buf.length : Int) ≤ intMax) (hself : SelfNested buf) :
    Emits Vault.trace (parseGddv env fuel isNested buf buf.length) (fun _ _ => False)
      fun _ stop => stop = .outOfFuel := by
  obtain ⟨hlen, hsignature, htwo, hflat, hzero⟩ := hself
  induction fuel generalizing isNested with
  | zero => exact .throw rfl
  | succ fuel ih =>
      rw [parse_gddv_eq env fuel isNested hlen]
      refine Emits.log_bind (.ite (fun h => absurd hsignature h) fun _ => ?_)
      refine .ite (fun h => absurd htwo h.2) fun _ => .ite (fun h => absurd h hflat) fun _ => ?_
      have hgo : Walk.goesOn (headersizeOf buf) buf.length ⟨0, none⟩ = true := by
        rw [hzero]
        exact Bool.and_eq_true_iff.2 ⟨rfl, decide_eq_true (lt_of_lt_of_le (by decide) hlen)⟩
      have hstart : (⟨headersizeOf buf, none⟩ : Walk) = ⟨0, none⟩ := by
        rw [hzero]
        rfl
      unfold parseItems
      refine .bind (Emits.loop (I := fun _ _ (w : Walk) => w = ⟨0, none⟩)
        (E := fun _ stop => stop = Stop.outOfFuel) ?_ (fun _ _ _ _ => rfl) fuel [] _ hstart) ?_
      · intro _ new w heq _
        subst heq
        -- the signature of the item is that of the repository itself
        have hb : InBounds buf (0 + 0) 2 := ⟨le_refl 0, le_trans (by decide) hlen⟩
        have hsize : int32 (buf.length - 0) = buf.length := by
          rw [Int.sub_zero]
          exact int32_eq_self (by omega) hmax
        unfold parseItem
        refine Emits.log_bind (.ite (fun _ => ?_) fun h => absurd htwo h)
        refine Emits.fetch_uint_bind (fun _ => ?_) fun _ h => absurd hb h
        refine .ite (fun h => absurd (hsignature.symm.trans h) (by decide)) fun _ => ?_
        refine .ite (fun _ => ?_) fun h => absurd hsignature h
        refine .bind (Q := fun _ _ => False) ?_ (fun _ _ h => h.elim)
        rw [hsize]
        exact ih true
      · intro new w hpost
        obtain ⟨hstop, -, rfl⟩ := hpost
        rw [hgo] at hstop
        cases hstop

/-- A computation that does not run out of fuel does not get stuck in any of its steps. -/
def Unstuck {α : Type} (fuel : Nat) (m : Parser α) : Prop :=
  Emits Vault.trace m (fun new _ => ∀ e ∈ new, e.Proceeds fuel)
    fun new stop => stop ≠ .outOfFuel → ∀ e ∈ new, e.Proceeds fuel

section Unstuck

variable {α β : Type} {fuel fuel' : Nat} {m : Parser α}

theorem Unstuck.bind {f : α → Parser β} (h : Unstuck fuel m) (hf : ∀ a, Unstuck fuel (f a)) :
    Unstuck fuel (m >>= f) := by
  refine Emits.bind h fun new a hnew => (hf a).conseq ?_ ?_
  · intro more b hmore
    exact List.forall_mem_append.2 ⟨hnew, hmore⟩
  · intro more e hmore he
    exact List.forall_mem_append.2 ⟨hnew, hmore he⟩

theorem Unstuck.ite {c : Prop} {_ : Decidable c} {m' : Parser α} (h : c → Unstuck fuel m)
    (h' : ¬ c → Unstuck fuel m') : Unstuck fuel (if c then m else m') :=
  Emits.ite h h'

theorem Unstuck.mono (hle : fuel ≤ fuel') (h : Unstuck fuel m) : Unstuck fuel' m :=
  h.conseq (fun _ _ h e he => proceeds_mono hle (h e he))
    fun _ _ h hstop e he => proceeds_mono hle (h hstop e he)

theorem Proceeding.unstuck (h : Proceeding fuel m) : Unstuck fuel m :=
  h.conseq (fun _ _ h => h) fun _ _ h => h.2

theorem Unstuck.log {e : Event} (h : e.Proceeds fuel) : Unstuck fuel (log e) :=
  (Proceeding.log h).unstuck

theorem Unstuck.fetch_uint_bind {buf : Bytes} {base size i : Int} {n : Nat} {f : Nat → Parser α}
    (hf : n = 0 ∨ InBounds buf (base + i) n →
      Unstuck fuel (f (littleEndian (slice buf (base + i) n)))) :
    Unstuck fuel (fetchUint buf base size i n >>= f) := by
  refine Emits.fetch_uint_bind (fun hb => (hf hb).conseq ?_ ?_) fun _ _ _ _ => ?_
  · exact fun _ _ h => List.forall_mem_cons.2 ⟨trivial, h⟩
  · exact fun _ _ h hstop => List.forall_mem_cons.2 ⟨trivial, h hstop⟩
  · exact List.forall_mem_cons.2 ⟨trivial, nofun⟩

/-- The item loop. -/
theorem parse_items_unstuck (env : Env) {nested : Bytes → Int → Parser (Int × Int)} {buf : Bytes}
    (hmax : (buf.length : Int) ≤ intMax)
    (hnested : ∀ sub subSize, Sized sub subSize → Unstuck fuel (nested sub subSize))
    (major headersize : Nat) :
    Unstuck fuel (parseItems env fuel nested major headersize buf buf.length) := by
  have hkey : ∀ base size, Unstuck fuel (parseGddvKey env fuel buf base size) := fun base size =>
    (parse_gddv_key_proceeding env fuel buf base size).unstuck
  have hpure : ∀ {α : Type} (a : α), Unstuck fuel (pure a) := fun a => (Proceeding.pure a).unstuck
  have hitem : ∀ w, Unstuck fuel (parseItem env fuel nested major buf buf.length w) := by
    intro w
    unfold parseItem
    refine .bind (.log trivial) fun _ => .ite (fun _ => .fetch_uint_bind fun hb => ?_) fun _ => ?_
    · have hin : 0 ≤ w.offset ∧ w.offset ≤ buf.length := by
        unfold InBounds at hb
        omega
      refine .ite (fun _ => .bind (hkey _ _) fun _ => hpure _) fun _ => .ite (fun _ => ?_) fun _ =>
        hpure _
      exact .bind (hnested _ _ (sized_drop hmax hin.1 hin.2)) fun _ => hpure _
    · exact .bind (hkey _ _) fun _ => hpure _
  refine Unstuck.bind ?_ fun w => ?_
  · refine (Emits.loop (I := fun _ new _ => ∀ e ∈ new, Event.Proceeds fuel e)
      (E := fun new stop => stop ≠ Stop.outOfFuel → ∀ e ∈ new, Event.Proceeds fuel e) ?_
      (fun _ _ _ _ h => absurd rfl h) fuel [] _ (by simp)).conseq ?_ fun _ _ h => h
    · intro left new w hnew _
      refine (hitem w).conseq ?_ ?_
      · exact fun more _ hmore => List.forall_mem_append.2 ⟨hnew, hmore⟩
      · exact fun more _ hmore hstop => List.forall_mem_append.2 ⟨hnew, hmore hstop⟩
    · intro new w hpost
      obtain ⟨-, -, hnew⟩ := hpost
      exact hnew
  · cases w.ret with
    | none => exact hpure _
    | some res => exact hpure _

end Unstuck

/-- The parser. -/
theorem parse_gddv_unstuck (env : Env) (fuel : Nat) (isNested : Bool) {buf : Bytes} {size : Int}
    (hsized : Sized buf size) : Unstuck fuel (parseGddv env fuel isNested buf size) := by
  induction fuel generalizing isNested buf size with
  | zero => exact Emits.throw fun h => absurd rfl h
  | succ fuel ih =>
      have hle : fuel ≤ fuel + 1 := Nat.le_succ fuel
      have hpure : ∀ {α : Type} (a : α), Unstuck (fuel + 1) (pure a) := fun a =>
        (Proceeding.pure a).unstuck
      obtain ⟨hmax, hlen⟩ := hsized
      by_cases hshort : size < headerStructSize
      · rw [parse_gddv_short env fuel isNested hshort]
        refine .bind (.log fun hself => ?_) fun _ => hpure _
        have hlong := hself.1
        simp only [headerStructSize] at hshort hlong
        omega
      obtain rfl : size = buf.length := by
        simp only [headerStructSize] at hshort
        omega
      by_cases hself : SelfNested buf
      · exact (self_nested_stuck env (fuel + 1) isNested hmax hself).conseq (fun _ _ h => h.elim)
          fun _ _ h hstop => absurd h hstop
      rw [parse_gddv_eq env fuel isNested (not_lt.1 hshort)]
      have hthrow : Unstuck (fuel + 1) (throw .gddvException : Parser (Int × Int)) :=
        (Proceeding.throw (e := .gddvException) nofun).unstuck
      refine .bind (.log hself) fun _ => .ite (fun _ => hthrow) fun _ => ?_
      refine .ite (fun _ => hpure _) fun _ => .ite (fun _ => ?_) fun _ => ?_
      · have hinflate : ∀ new : List Event, (∀ e ∈ new, e.OfInflate) →
            ∀ e ∈ new, e.Proceeds (fuel + 1) := by
          intro new hall e he
          have hof := hall e he
          cases e <;> first | exact trivial | cases hof
        refine Emits.bind ((decompress_emits env buf).conseq (fun _ _ h => h) fun _ _ h _ =>
          hinflate _ h.1) ?_
        intro new r hpost
        obtain ⟨hall, hr⟩ := hpost
        cases r with
        | none => exact .pure (by simpa using hinflate new hall)
        | some out =>
            obtain ⟨hsub, -⟩ := hr out.1 out.2 rfl
            refine (Unstuck.bind ((ih false hsub).mono hle) fun _ => hpure _).conseq ?_ ?_
            · exact fun _ _ h => List.forall_mem_append.2 ⟨hinflate new hall, h⟩
            · exact fun _ _ h hstop => List.forall_mem_append.2 ⟨hinflate new hall, h hstop⟩
      · exact (parse_items_unstuck env hmax (fun sub subSize hsub => ih true hsub) _ _).mono hle

/-! ## When the parser ends -/

/-- The parser ends if and only if, with all fuel from some amount on, it enters no repository that
is its own first item, its decoders end, and the number of repositories that it decompresses is
bounded. -/
theorem parse_ends_iff (env : Env) {buf : Bytes} (hmax : (buf.length : Int) ≤ intMax) {v : Vault}
    (hv : v.trace = []) :
    (∃ n, ∀ fuel, n ≤ fuel →
        stopOf (parseGddv env fuel false buf buf.length v) ≠ some .outOfFuel) ↔
      ∃ n d, ∀ fuel, n ≤ fuel →
        (∀ e ∈ (finalState (parseGddv env fuel false buf buf.length v)).trace, e.Proceeds n) ∧
        decompressions (finalState (parseGddv env fuel false buf buf.length v)).trace ≤ d := by
  have hsized : Sized buf buf.length := ⟨hmax, Int.toNat_natCast _⟩
  constructor
  · intro hex
    obtain ⟨n, hends⟩ := hex
    -- all runs with at least this fuel are the same
    have hsame : ∀ fuel, n ≤ fuel → parseGddv env fuel false buf buf.length v =
        parseGddv env n false buf buf.length v := fun fuel hle =>
      (parse_gddv_settles hle env false buf buf.length).eq v (hends n le_rfl)
    have hall := Emits.final (P := fun new stop => stop ≠ some Stop.outOfFuel →
      ∀ e ∈ new, Event.Proceeds n e) ((parse_gddv_unstuck env n false hsized).conseq
        (fun _ _ h _ => h) fun _ _ h hstop => h fun heq => hstop (by rw [heq])) hv
    refine ⟨n, decompressions (finalState (parseGddv env n false buf buf.length v)).trace,
      fun fuel hle => ?_⟩
    rw [hsame fuel hle]
    exact ⟨hall (hends n le_rfl), le_rfl⟩
  · intro hex
    obtain ⟨n, d, hrun⟩ := hex
    refine ⟨max n (fuelFor n d buf.length), fun fuel hle => ?_⟩
    obtain ⟨hall, hcount⟩ := hrun fuel (le_trans (le_max_left _ _) hle)
    exact Emits.final (P := fun new stop => (∀ e ∈ new, Event.Proceeds n e) →
      decompressions new ≤ d → stop ≠ some Stop.outOfFuel)
      ((parse_gddv_steps env fuel false hsized).conseq (fun _ _ _ _ _ => nofun)
        fun _ _ h hall hcount heq =>
          h n d (le_trans (le_max_right _ _) hle) hall hcount (Option.some.inj heq)) hv hall hcount

/-! ## Examples -/

/-- Nothing but a header that says that it has the size 0. -/
theorem empty_header_never_ends :
    ¬ ∃ n, ∀ fuel, n ≤ fuel →
      stopOf (parseGddv sampleEnv fuel false (sampleHeader 0 0) 148 Vault.start) ≠
        some .outOfFuel := by
  intro hex
  obtain ⟨n, hends⟩ := hex
  have hlen : ((sampleHeader 0 0).length : Int) = 148 := by decide +kernel
  have hself : SelfNested (sampleHeader 0 0) := by decide +kernel
  have hstuck := Emits.final (P := fun _ stop => stop = some Stop.outOfFuel)
    ((self_nested_stuck sampleEnv n false (hlen.trans_le (by decide)) hself).conseq
      (fun _ _ h => h.elim) fun _ _ h => congrArg some h) (s := Vault.start) rfl
  rw [hlen] at hstuck
  exact hends n le_rfl hstuck

/-- A vault with a key of four bytes is parsed to its end. -/
theorem short_key_ends :
    ∃ n, ∀ fuel, n ≤ fuel →
      stopOf (parseGddv sampleEnv fuel false (keyVault 4) 300 Vault.start) ≠ some .outOfFuel := by
  have hlen : ((keyVault 4).length : Int) = 300 := by decide +kernel
  have hiff := parse_ends_iff sampleEnv (hlen.trans_le (by decide)) (v := Vault.start) rfl
  rw [hlen] at hiff
  refine hiff.2 ⟨3, 0, fun fuel hle => ?_⟩
  rw [(parse_gddv_settles hle sampleEnv false (keyVault 4) 300).eq Vault.start (by decide +kernel)]
  exact ⟨by decide +kernel, by decide +kernel⟩

end Thermald.Gddv
