import Thermald.Gddv.Decoders
import Thermald.Lib.Returns

/-!
# What decoders leave alone

`Keeps part m` says that a part of the tables is the same after the computation `m` as before it.
The readers move the offset only (`keeps_get_uint64`, `keeps_get_std_string` and so on), so whether
a decoder keeps a part of the tables is a question about its assignments. The readers of rows keep
all tables: a row is stored by the loop around them.
-/

namespace Thermald.Gddv

deriving instance DecidableEq for Cursor

variable {α β γ : Type} {part : Gddv → γ}

/-- The part of the tables is the same when the computation returns. -/
structure Keeps (part : Gddv → γ) (m : Decoder α) : Prop where
  eq : ∀ {c a c'}, Returns m c a c' → part c'.gddv = part c.gddv

namespace Keeps

protected theorem pure (a : α) : Keeps part (pure a : Decoder α) := by
  refine ⟨fun {c b c'} h => ?_⟩
  rw [h.of_pure.2]

protected theorem throw (e : Stop) : Keeps part (throw e : Decoder α) :=
  ⟨fun h => h.of_throw.elim⟩

protected theorem bind {m : Decoder α} {f : α → Decoder β} (h : Keeps part m)
    (hf : ∀ a, Keeps part (f a)) : Keeps part (m >>= f) := by
  refine ⟨fun {c b c''} hret => ?_⟩
  obtain ⟨a, c', hm, hfa⟩ := hret.of_bind
  exact ((hf a).eq hfa).trans (h.eq hm)

protected theorem ite {c : Prop} {_ : Decidable c} {m m' : Decoder α} (h : Keeps part m)
    (h' : Keeps part m') : Keeps part (if c then m else m') := by
  split
  · exact h
  · exact h'

protected theorem map {m : Decoder α} {f : α → β} (h : Keeps part m) : Keeps part (f <$> m) := by
  rw [map_eq_pure_bind]
  exact h.bind fun a => .pure (f a)

protected theorem get : Keeps part (get : Decoder Cursor) := by
  refine ⟨fun {c b c'} h => ?_⟩
  cases h
  rfl

/-- The offset is moved. -/
theorem set_offset {o : Int} {f : PUnit → Decoder α} (hf : ∀ u, Keeps part (f u)) :
    Keeps part (get >>= fun c => set { c with offset := o } >>= f) := by
  refine ⟨fun {c b c'} h => ?_⟩
  obtain ⟨_, _, hget, h⟩ := h.of_bind
  cases hget
  obtain ⟨_, _, hset, h⟩ := h.of_bind
  cases hset
  have hkept := (hf _).eq h
  exact hkept

/-- An assignment to another part. -/
protected theorem update {f : Gddv → Gddv} (hf : ∀ g, part (f g) = part g) :
    Keeps part (update f) := by
  refine ⟨fun {c b c'} h => ?_⟩
  cases h
  exact hf c.gddv

/-- `gddv_cur_buf_len` is not looked at. -/
protected theorem begin {len : Int} (hf : ∀ g, part { g with gddvCurBufLen := len } = part g) :
    Keeps part (begin len) := by
  refine ⟨fun {c b c'} h => ?_⟩
  cases h
  exact hf c.gddv

protected theorem skip : Keeps part skip := by
  refine ⟨fun {c b c'} h => ?_⟩
  cases h
  rfl

/-- The body of a loop keeps what the loop keeps. -/
protected theorem loop {cond : β → Cursor → Bool} {body : β → Decoder β}
    (hbody : ∀ b, Keeps part (body b)) (fuel : Nat) (b : β) :
    Keeps part (loopM .outOfFuel cond body fuel b) := by
  refine ⟨fun {c b' c'} h => ?_⟩
  have hinv := Returns.loop_invariant (I := fun _ s => part s.gddv = part c.gddv)
    (fun b s b' s' hs _ hstep => ((hbody b).eq hstep).trans hs) rfl h
  exact hinv.1

/-- A loop over a table. -/
protected theorem while_below {body : β → Decoder β} (hbody : ∀ b, Keeps part (body b))
    (fuel : Nat) (len : Int) (b : β) : Keeps part (whileBelow fuel len body b) :=
  .loop hbody fuel b

end Keeps

/-- Every result of the computation has the property. -/
structure Yields (Q : α → Prop) (m : Decoder α) : Prop where
  holds : ∀ {c a c'}, Returns m c a c' → Q a

namespace Yields

variable {Q : β → Prop}

protected theorem pure {b : β} (h : Q b) : Yields Q (pure b : Decoder β) := by
  refine ⟨fun {c a c'} hret => ?_⟩
  rw [hret.of_pure.1]
  exact h

protected theorem throw (e : Stop) : Yields Q (throw e : Decoder β) :=
  ⟨fun hret => hret.of_throw.elim⟩

protected theorem bind {m : Decoder α} {f : α → Decoder β} (hf : ∀ a, Yields Q (f a)) :
    Yields Q (m >>= f) := by
  refine ⟨fun {c b c''} hret => ?_⟩
  obtain ⟨a, c', -, hfa⟩ := hret.of_bind
  exact (hf a).holds hfa

protected theorem ite {c : Prop} {_ : Decidable c} {m m' : Decoder β} (h : Yields Q m)
    (h' : Yields Q m') : Yields Q (if c then m else m') := by
  split
  · exact h
  · exact h'

end Yields

/-! ## Readers -/

variable (buf : Bytes)

theorem keeps_read_bytes (i : Int) (n : Nat) : Keeps part (readBytes buf i n : Decoder Bytes) := by
  unfold readBytes
  exact .ite (.pure _) (.ite (.pure _) (.throw _))

theorem keeps_c_string (i : Int) : Keeps part (cString buf i : Decoder Bytes) := by
  unfold cString
  exact .ite (.pure _) (.throw _)

theorem keeps_get_type : Keeps part (getType buf) := by
  unfold getType
  refine .bind .get fun c => .ite (.throw _) ?_
  exact .bind (keeps_read_bytes ..).map fun _ => .pure _

theorem keeps_get_tagged (expected : Int) : Keeps part (getTagged buf expected) := by
  refine ⟨fun {c a c'} h => ?_⟩
  unfold getTagged at h
  obtain ⟨c₁, c₂, hget, h⟩ := h.of_bind
  cases hget
  split at h
  · exact h.of_throw.elim
  obtain ⟨type, c₂, htype, h⟩ := h.of_bind
  split at h
  · exact h.of_throw.elim
  obtain ⟨_, c₃, hset, h⟩ := h.of_bind
  cases hset
  split at h
  · exact h.of_throw.elim
  -- the offset is all that the two assignments change
  obtain ⟨value, c₃, hvalue, h⟩ := h.of_bind
  obtain ⟨_, c₄, hset, h⟩ := h.of_bind
  cases hset
  cases h
  rfl

theorem keeps_get_uint64 : Keeps part (getUint64 buf) :=
  keeps_get_tagged buf 4

theorem keeps_get_string : Keeps part (getString buf) := by
  refine ⟨fun {c a c'} h => ?_⟩
  unfold getString at h
  obtain ⟨length, c₁, htagged, h⟩ := h.of_bind
  have hkept : part c₁.gddv = part c.gddv := (keeps_get_tagged buf 8).eq htagged
  obtain ⟨_, _, hget, h⟩ := h.of_bind
  cases hget
  split at h
  · exact h.of_throw.elim
  obtain ⟨_, _, hset, h⟩ := h.of_bind
  cases hset
  cases h
  exact hkept

theorem keeps_get_std_string : Keeps part (getStdString buf) := by
  unfold getStdString getStringObj
  refine .bind (.bind .get fun _ => .bind (keeps_get_string buf) fun p => .bind .get fun _ =>
    .ite (.pure _) (.pure _)) fun p => ?_
  cases p with
  | none => exact .throw _
  | some p => exact keeps_c_string buf p

/-! ## Rows -/

theorem keeps_condition1 (len target : Int) (v : SetState) :
    Keeps part (parseCondition1 buf len target v) := by
  unfold parseCondition1
  refine .bind .get fun _ => .ite (.throw _) ?_
  refine .bind (keeps_get_uint64 _) fun _ => .bind (keeps_get_uint64 _) fun _ => ?_
  refine .bind (keeps_get_uint64 _) fun _ => .ite ?_ (.pure _)
  refine .bind (keeps_get_uint64 _) fun _ => .ite ?_ (.pure _)
  refine .bind .skip fun _ => .bind (keeps_get_uint64 _) fun _ => ?_
  exact .bind (keeps_get_uint64 _) fun _ => .bind .skip fun _ => .pure _

theorem keeps_condition2 (len target : Int) (count : Nat) (v : SetState) :
    Keeps part (parseCondition2 buf len target count v) := by
  unfold parseCondition2
  refine .bind .get fun _ => .ite (.throw _) ?_
  refine .bind (keeps_get_uint64 _) fun _ => .bind (keeps_get_std_string _) fun _ => ?_
  refine .bind .skip fun _ => .bind (keeps_get_uint64 _) fun _ => ?_
  refine .bind (keeps_get_uint64 _) fun _ => .ite ?_ (.pure _)
  refine .bind (keeps_get_uint64 _) fun _ => .ite ?_ (.pure _)
  refine .bind .skip fun _ => .bind (keeps_get_string _) fun _ => .bind .skip fun _ => ?_
  refine .bind (keeps_get_uint64 _) fun _ => .bind (keeps_get_uint64 _) fun _ => ?_
  exact .bind .skip fun _ => .pure _

theorem keeps_psv (psvs : List Psv) : Keeps part (parsePsv buf psvs) := by
  have hlimit : Keeps part (getLimit buf) := by
    unfold getLimit
    refine .bind (keeps_get_type _) fun _ => .ite (keeps_get_std_string _) ?_
    exact .bind (keeps_get_uint64 _) fun _ => .pure _
  unfold parsePsv
  refine .bind (keeps_get_std_string _) fun _ => .bind (keeps_get_std_string _) fun _ => ?_
  refine .bind (keeps_get_uint64 _) fun _ => .bind (keeps_get_uint64 _) fun _ => ?_
  refine .bind (keeps_get_uint64 _) fun _ => .bind (keeps_get_uint64 _) fun _ => ?_
  refine .bind (keeps_get_uint64 _) fun _ => .bind hlimit fun _ => ?_
  refine .bind (keeps_get_uint64 _) fun _ => .bind (keeps_get_uint64 _) fun _ => ?_
  exact .bind (keeps_get_uint64 _) fun _ => .bind .skip fun _ => .pure _

theorem keeps_itmt_entry (version : Int) (entries : List ItmtEntry) :
    Keeps part (parseItmtEntry version buf entries) := by
  unfold parseItmtEntry
  refine .bind (keeps_get_std_string _) fun _ => .bind (keeps_get_uint64 _) fun _ => ?_
  refine .bind (keeps_get_std_string _) fun _ => .bind (keeps_get_std_string _) fun _ => ?_
  refine .bind (keeps_get_std_string _) fun _ => .ite ?_ (.bind .skip fun _ => .pure _)
  refine .bind (keeps_get_uint64 _) fun _ => .bind (keeps_get_std_string _) fun _ => ?_
  exact .bind (keeps_get_uint64 _) fun _ => .bind (keeps_get_uint64 _) fun _ => .pure _

theorem keeps_itmt3_entries (len : Int) (entries : Option (List ItmtEntry)) :
    Keeps part (parseItmt3Entries len buf entries) := by
  have hentry : Keeps part (parseItmt3Entry buf) := by
    unfold parseItmt3Entry
    refine .bind .get fun _ => .bind (keeps_c_string ..) fun _ => ?_
    refine .bind (keeps_read_bytes ..).map fun _ => .bind (keeps_c_string ..) fun _ => ?_
    exact .bind (keeps_c_string ..) fun _ => .set_offset fun _ => .pure _
  unfold parseItmt3Entries
  exact .bind .get fun _ => .ite (.pure _) (.bind hentry fun _ => .pure _)

end Thermald.Gddv
