import Thermald.Gddv.StringFields
import Thermald.Lib.Simulation

/-!
# Declared strings

The decoder of a table and the search for its string fields go through the table in step: they are
at the same place, and the strings that the decoder has stored are those of the fields found so far.
Rows are gone through field by field (`simulates_read`, `simulates_string`) and tables row by row
(`simulates_while`).

`strings_declared_iff` says that a table that is decoded has its strings from the declared bytes
exactly if each of its string fields has a NUL among these bytes or right behind them.
-/

namespace Thermald.Gddv

/-! ## In step with a decoder -/

/-- The two decoders are at the same place, and the tables of the first one have the property. -/
structure SamePlace (K : Gddv → Prop) (c d : Cursor) : Prop where
  offset : c.offset = d.offset
  len : c.gddv.gddvCurBufLen = d.gddv.gddvCurBufLen
  tables : K c.gddv

/-- The strings of the tables are those from before and those of the fields. -/
def Stores (buf : Bytes) (t : StringTable) (base : List Bytes) (fields : List Origin) (g : Gddv) :
    Prop :=
  ∃ new, t.strings g = base ++ new ∧ List.Forall₂ (Origin.Read buf) fields new

section Step

variable {α β γ : Type} {buf : Bytes} {K L : Gddv → Prop} {Q : α → β → Cursor → Cursor → Prop}

theorem SamePlace.mono {c d : Cursor} (h : SamePlace K c d) (hK : ∀ g, K g → L g) :
    SamePlace L c d :=
  ⟨h.offset, h.len, hK _ h.tables⟩

/-- Both read the same. -/
theorem simulates_read {m : Decoder γ} {f : γ → Decoder α} {w : γ → Decoder β} (hm : Reader m)
    (hf : ∀ a, Simulates (SamePlace K) (f a) (w a) Q) :
    Simulates (SamePlace K) (m >>= f) (m >>= w) Q := by
  refine .bind_fact (p := fun a b => a = b) (R := fun _ _ => SamePlace K)
    ⟨fun {c d a c'} hP hret => ?_⟩ fun a b hab => ?_
  · obtain ⟨o', rfl, hmoves⟩ := hm.moves hret
    refine ⟨a, ⟨o', d.gddv⟩, ?_, rfl, rfl, hP.len, hP.tables⟩
    have hmoved := hmoves d.gddv hP.len.symm
    rwa [hP.offset] at hmoved
  · subst hab
    exact hf a

/-- The first one makes a string of a field, and the second one keeps the field. -/
theorem simulates_string {f : Bytes → Decoder α} {w : Origin → Decoder β}
    (hf : ∀ s o, Origin.Read buf o s → Simulates (SamePlace K) (f s) (w o) Q) :
    Simulates (SamePlace K) (getStdString buf >>= f) (getField buf >>= w) Q := by
  refine .bind_fact (p := fun s o => Origin.Read buf o s) (R := fun _ _ => SamePlace K)
    ⟨fun {c d s c'} hP hret => ?_⟩ hf
  obtain ⟨o', field, rfl, hread, hmoves⟩ := get_std_string_field hret
  refine ⟨field, ⟨o', d.gddv⟩, ?_, hread, rfl, hP.len, hP.tables⟩
  have hmoved := hmoves d.gddv hP.len.symm
  rwa [hP.offset] at hmoved

/-- The first one assigns to the tables. -/
theorem simulates_update {h : Gddv → Gddv} {f : PUnit → Decoder α} {w : Decoder β}
    (hlen : ∀ g, (h g).gddvCurBufLen = g.gddvCurBufLen) (hK : ∀ g, K g → L (h g))
    (hf : Simulates (SamePlace L) (f ⟨⟩) w Q) : Simulates (SamePlace K) (update h >>= f) w Q := by
  refine .left (S := fun _ c d => SamePlace L c d) (fun hP hret => ?_) fun _ => hf
  cases hret
  exact ⟨hP.offset, (hlen _).trans hP.len, hK _ hP.tables⟩

/-- The first one ends with an assignment to the tables. -/
theorem simulates_store {h : Gddv → Gddv} {b : β} {Q : PUnit → β → Cursor → Cursor → Prop}
    (hlen : ∀ g, (h g).gddvCurBufLen = g.gddvCurBufLen) (hK : ∀ g, K g → L (h g))
    (hQ : ∀ c d, SamePlace L c d → Q ⟨⟩ b c d) :
    Simulates (SamePlace K) (update h) (pure b) Q := by
  rw [← bind_pure (update h)]
  exact simulates_update hlen hK (.pure hQ)

/-- Both begin with a table. -/
theorem simulates_begin {f : PUnit → Decoder α} {w : PUnit → Decoder β} {len : Int}
    (hK : ∀ g, K g → K { g with gddvCurBufLen := len })
    (hf : Simulates (SamePlace K) (f ⟨⟩) (w ⟨⟩) Q) :
    Simulates (SamePlace K) (begin len >>= f) (begin len >>= w) Q := by
  refine .bind (R := fun _ _ => SamePlace K) ⟨fun {c d u c'} hP hret => ?_⟩ fun _ _ => hf
  cases hret
  exact ⟨⟨⟩, _, .modify _ d, rfl, rfl, hK _ hP.tables⟩

/-- The last thing that is read is a string. -/
theorem simulates_last_string :
    Simulates (SamePlace K) (getStdString buf) (getField buf)
      fun s o c d => Origin.Read buf o s ∧ SamePlace K c d := by
  rw [← bind_pure (getStdString buf), ← bind_pure (getField buf)]
  exact simulates_string fun _ _ hread => .pure fun _ _ h => ⟨hread, h⟩

/-- The first one makes a string from a fixed place. -/
theorem simulates_c_string {f : Bytes → Decoder α} {w : Decoder β} {i : Int} (n : Nat)
    (hf : ∀ s, Origin.Read buf (.field i n) s → Simulates (SamePlace K) (f s) w Q) :
    Simulates (SamePlace K) (cString buf i >>= f) w Q := by
  refine .left (S := fun s c d => Origin.Read buf (.field i n) s ∧ SamePlace K c d)
    (fun {c d s c'} hP hret => ?_) fun s => .given (fun _ _ h => h.1) fun hread => ?_
  · unfold cString at hret
    split at hret
    · rename_i hnul
      obtain ⟨rfl, rfl⟩ := hret.of_pure
      exact ⟨⟨hnul.2, rfl⟩, hP⟩
    · exact hret.of_throw.elim
  · exact (hf s hread).pre fun _ _ h => h.2

/-- Both look at their place. -/
theorem simulates_get {f : Cursor → Decoder α} {w : Cursor → Decoder β}
    (hf : ∀ c d : Cursor, c.offset = d.offset → Simulates (SamePlace K) (f c) (w d) Q) :
    Simulates (SamePlace K) (get >>= f) (get >>= w) Q := by
  refine ⟨fun {c d a c'} hP hret => ?_⟩
  obtain ⟨_, _, hget, hret⟩ := hret.of_bind
  cases hget
  obtain ⟨b, d', hw, hQ⟩ := (hf c d hP.offset).run hP hret
  exact ⟨b, d', (Returns.get d).bind hw, hQ⟩

/-- Both move to the same place. -/
theorem simulates_set_offset {f : PUnit → Decoder α} {w : PUnit → Decoder β} {o : Int}
    (hf : Simulates (SamePlace K) (f ⟨⟩) (w ⟨⟩) Q) :
    Simulates (SamePlace K) (get >>= fun c => set { c with offset := o } >>= f)
      (get >>= fun c => set { c with offset := o } >>= w) Q := by
  refine ⟨fun {c d a c'} hP hret => ?_⟩
  obtain ⟨_, _, hget, hret⟩ := hret.of_bind
  cases hget
  obtain ⟨_, _, hset, hret⟩ := hret.of_bind
  cases hset
  have hmoved : SamePlace K { c with offset := o } { d with offset := o } :=
    ⟨rfl, hP.len, hP.tables⟩
  obtain ⟨b, d', hw, hQ⟩ := hf.run hmoved hret
  exact ⟨b, d', (Returns.get d).bind ((Returns.set _ _).bind hw), hQ⟩

/-- Loops over a table. -/
theorem simulates_while {K : α → β → Gddv → Prop} {body : α → Decoder α} {walk : β → Decoder β}
    (hbody : ∀ a b, Simulates (SamePlace (K a b)) (body a) (walk b) fun a' b' =>
      SamePlace (K a' b')) (fuel : Nat) (len : Int) (a : α) (b : β) :
    Simulates (SamePlace (K a b)) (whileBelow fuel len body a) (whileBelow fuel len walk b)
      fun a' b' => SamePlace (K a' b') := by
  refine .loop (fun a b c d h => ?_) hbody fuel a b
  rw [h.offset]

end Step

/-- More fields and their strings. -/
theorem Stores.append {buf : Bytes} {t : StringTable} {base : List Bytes}
    {fields more : List Origin} {g g' : Gddv} (h : Stores buf t base fields g) (new : List Bytes)
    (hstrings : t.strings g' = t.strings g ++ new)
    (hread : List.Forall₂ (Origin.Read buf) more new) : Stores buf t base (fields ++ more) g' := by
  obtain ⟨old, hold, hfields⟩ := h
  refine ⟨old ++ new, ?_, List.rel_append hfields hread⟩
  rw [hstrings, hold, List.append_assoc]

/-! ## The decoders -/

section Tables

variable {buf : Bytes} {base : List Bytes} (fuel : Nat) (len : Int)

/-- The fields of the table are found by its decoder in step. -/
def InStep (t : StringTable) (buf : Bytes) (base : List Bytes) (fuel : Nat) (len : Int) : Prop :=
  Simulates (SamePlace (Stores buf t base [])) (t.parse fuel buf len) (t.fields fuel buf len)
    fun _ fields c _ => Stores buf t base fields c.gddv

/-- Both end with what has been found so far. -/
theorem simulates_done {t : StringTable} (r : Int) (fields : List Origin) :
    Simulates (SamePlace (Stores buf t base fields)) (pure r : Decoder Int)
      (pure fields : Decoder (List Origin)) fun _ fields c _ => Stores buf t base fields c.gddv :=
  .pure fun _ _ h => h.tables

theorem appc_in_step : InStep .appc buf base fuel len := by
  refine simulates_begin (fun _ h => h) (.ite (simulates_done ..) ?_)
  refine simulates_read (reader_read_bytes ..).map fun first => .ite (simulates_done ..) ?_
  refine simulates_read reader_get_uint64 fun version => .ite (simulates_done ..) ?_
  refine .behind (simulates_while (K := fun _ fields => Stores buf .appc base fields)
    (fun _ fields => ?_) fuel len () []) fun _ fields => simulates_done ..
  refine simulates_read reader_get_uint64 fun condition => ?_
  refine simulates_string fun name o₁ h₁ => simulates_string fun participant o₂ h₂ => ?_
  refine simulates_read reader_get_uint64 fun domain => ?_
  refine simulates_read reader_get_uint64 fun type => ?_
  refine simulates_store (fun _ => rfl) (fun g h => h.append [name, participant] ?_
    (.cons h₁ (.cons h₂ .nil))) fun _ _ h => h
  simp [StringTable.strings]

theorem apat_in_step : InStep .apat buf base fuel len := by
  refine simulates_begin (fun _ h => h) (simulates_read reader_get_uint64 fun version => ?_)
  refine .ite (.throw _) (.behind (simulates_while
    (K := fun _ fields => Stores buf .apat base fields) (fun _ fields => ?_) fuel len () [])
    fun _ fields => simulates_done ..)
  refine simulates_read reader_get_uint64 fun targetId => ?_
  refine simulates_string fun name o₁ h₁ => simulates_string fun participant o₂ h₂ => ?_
  refine simulates_read reader_get_uint64 fun domain => ?_
  refine simulates_string fun code o₃ h₃ => simulates_string fun argument o₄ h₄ => ?_
  refine simulates_store (fun _ => rfl) (fun g h => h.append [name, participant, code, argument] ?_
    (.cons h₁ (.cons h₂ (.cons h₃ (.cons h₄ .nil))))) fun _ _ h => h
  simp [StringTable.strings]

theorem vsct_in_step (name : Option Bytes) : InStep (.vsct name) buf base fuel len := by
  refine simulates_update (L := Stores buf (.vsct name) base []) (fun _ => rfl) (fun _ h => h) ?_
  refine simulates_begin (fun _ h => h) (simulates_read reader_get_uint64 fun version => ?_)
  refine .ite (simulates_done ..) (.behind (simulates_while
    (K := fun _ fields => Stores buf (.vsct name) base fields) (fun _ fields => ?_) fuel len () [])
    fun _ fields => simulates_done ..)
  refine simulates_string fun target o h => ?_
  refine simulates_read reader_get_uint64 fun domainType => ?_
  refine simulates_read reader_get_uint64 fun coeffType => ?_
  refine simulates_read reader_get_uint64 fun coeff => ?_
  refine simulates_read reader_get_uint64 fun operation => ?_
  refine simulates_read reader_get_uint64 fun alpha => ?_
  refine simulates_read reader_get_uint64 fun triggerPoint => ?_
  refine simulates_store (fun _ => rfl) (fun g hg => hg.append [target] ?_ (.cons h .nil))
    fun _ _ h => h
  simp [StringTable.strings]

/-- The rows that a loop has collected, with their strings and fields, while the tables stay the
same. -/
structure Collected {ρ : Type} (buf : Bytes) (t : StringTable) (base : List Bytes)
    (rowStrings : ρ → List Bytes) (rows : List ρ) (fields : List Origin) (g : Gddv) : Prop where
  strings : t.strings g = base
  read : List.Forall₂ (Origin.Read buf) fields (rows.flatMap rowStrings)

/-- One more row. -/
theorem Collected.append {ρ : Type} {t : StringTable} {rowStrings : ρ → List Bytes}
    {rows : List ρ} {fields more : List Origin} {g : Gddv}
    (h : Collected buf t base rowStrings rows fields g) {row : ρ}
    (hread : List.Forall₂ (Origin.Read buf) more (rowStrings row)) :
    Collected buf t base rowStrings (rows ++ [row]) (fields ++ more) g := by
  refine ⟨h.strings, ?_⟩
  rw [List.flatMap_append, List.flatMap_singleton]
  exact List.rel_append h.read hread

/-- The limit of a row, which is a string of the table or made of a number. -/
theorem limit_in_step {K : Gddv → Prop} :
    Simulates (SamePlace K) (getLimit buf) (limitField buf)
      fun limit o c d => Origin.Read buf o limit ∧ SamePlace K c d := by
  refine simulates_read reader_get_type fun type => .ite simulates_last_string ?_
  exact simulates_read reader_get_uint64 fun _ => .pure fun _ _ h => ⟨rfl, h⟩

theorem psvt_in_step (name : Option Bytes) : InStep (.psvt name) buf base fuel len := by
  refine simulates_begin (fun _ h => h) (simulates_read reader_get_uint64 fun version => ?_)
  refine .ite (.throw _) ?_
  let K (psvs : List Psv) (fields : List Origin) : Gddv → Prop :=
    Collected buf (.psvt name) base (fun row => [row.source, row.target, row.limit]) psvs fields
  refine .pre (.behind (simulates_while (K := K) (fun psvs fields => ?_) fuel len [] [])
    fun psvs fields => ?_) fun _ _ h => h.mono fun g hg => ?_
  · refine simulates_string fun source o₁ h₁ => simulates_string fun target o₂ h₂ => ?_
    refine simulates_read reader_get_uint64 fun priority => ?_
    refine simulates_read reader_get_uint64 fun samplePeriod => ?_
    refine simulates_read reader_get_uint64 fun temp => ?_
    refine simulates_read reader_get_uint64 fun domain => ?_
    refine simulates_read reader_get_uint64 fun controlKnob => ?_
    refine .bind_fact limit_in_step fun limit o₃ h₃ => ?_
    refine simulates_read reader_get_uint64 fun stepSize => ?_
    refine simulates_read reader_get_uint64 fun limitCoeff => ?_
    refine simulates_read reader_get_uint64 fun unlimitCoeff => ?_
    refine simulates_read reader_skip fun _ => .pure fun _ _ h => h.mono fun g hg => ?_
    exact hg.append (.cons h₁ (.cons h₂ (.cons h₃ .nil)))
  · refine simulates_update (L := Stores buf (.psvt name) base fields) (fun _ => rfl)
      (fun g hg => ⟨_, ?_, hg.read⟩) (simulates_done ..)
    rw [← hg.strings]
    simp [StringTable.strings]
  · obtain ⟨new, hnew, hread⟩ := hg
    cases hread
    exact ⟨hnew.trans (List.append_nil _), .nil⟩

theorem itmt_in_step (name : Option Bytes) : InStep (.itmt name) buf base fuel len := by
  refine simulates_begin (fun _ h => h) (simulates_read reader_get_uint64 fun version => ?_)
  refine .ite (simulates_done ..) ?_
  let K : List ItmtEntry → List Origin → Gddv → Prop :=
    Collected buf (.itmt name) base ItmtEntry.strings
  refine .pre (.behind (simulates_while (K := K) (fun entries fields => ?_) fuel len [] [])
    fun entries fields => ?_) fun _ _ h => h.mono fun g hg => ?_
  · refine simulates_string fun target o₁ h₁ => ?_
    refine simulates_read reader_get_uint64 fun tripPoint => ?_
    refine simulates_string fun pl1Min o₂ h₂ => simulates_string fun pl1Max o₃ h₃ => ?_
    refine simulates_string fun unused o₄ h₄ => ?_
    have hdone : Simulates (SamePlace (K entries fields))
        (pure (entries ++ [{ target, tripPoint := int32 tripPoint, pl1Min, pl1Max, unused }]) :
          Decoder (List ItmtEntry))
        (pure (fields ++ [o₁, o₂, o₃, o₄]) : Decoder (List Origin))
        fun entries' fields' => SamePlace (K entries' fields') :=
      .pure fun _ _ h => h.mono fun g hg =>
        hg.append (.cons h₁ (.cons h₂ (.cons h₃ (.cons h₄ .nil))))
    refine .ite ?_ (simulates_read reader_skip fun _ => hdone)
    refine simulates_read reader_get_uint64 fun _ => simulates_string fun _ _ _ => ?_
    refine simulates_read reader_get_uint64 fun _ => ?_
    exact simulates_read reader_get_uint64 fun _ => hdone
  · refine simulates_update (L := Stores buf (.itmt name) base fields) (fun _ => rfl)
      (fun g hg => ⟨_, ?_, hg.read⟩) (simulates_done ..)
    rw [← hg.strings]
    simp [StringTable.strings]
  · obtain ⟨new, hnew, hread⟩ := hg
    cases hread
    exact ⟨hnew.trans (List.append_nil _), .nil⟩

/-- An entry with strings at fixed places. -/
theorem itmt3_entry_in_step {K : Gddv → Prop} :
    Simulates (SamePlace K) (parseItmt3Entry buf) (itmt3EntryFields buf)
      fun entry fields c d => List.Forall₂ (Origin.Read buf) fields entry.strings ∧
        SamePlace K c d := by
  refine simulates_get fun c d h => ?_
  dsimp only
  rw [h]
  refine simulates_c_string 64 fun target h₁ => ?_
  refine simulates_read (reader_read_uint64 _) fun temp => ?_
  refine simulates_c_string 64 fun pl1Min h₂ => simulates_c_string 64 fun pl1Max h₃ => ?_
  refine simulates_set_offset (.pure fun _ _ h => ⟨?_, h⟩)
  exact .cons h₁ (.cons h₂ (.cons h₃ (.cons rfl .nil)))

theorem itmt3_in_step (name : Option Bytes) : InStep (.itmt3 name) buf base fuel len := by
  refine simulates_begin (fun _ h => h) (.ite (simulates_done ..) ?_)
  refine simulates_set_offset (.ite (simulates_done ..) ?_)
  let K (entries : Option (List ItmtEntry)) (fields : Option (List Origin)) (g : Gddv) : Prop :=
    entries.isSome = fields.isSome ∧ Collected buf (.itmt3 name) base ItmtEntry.strings
      (entries.getD []) (fields.getD []) g
  refine .pre (.bind (.loop (I := fun entries fields => SamePlace (K entries fields))
    (fun entries fields c d h => ?_) (fun entries fields => ?_) fuel (some []) (some []))
    fun entries fields => ?_) fun _ _ h => h.mono fun g hg => ?_
  · rw [h.tables.1, h.offset]
  · refine simulates_get fun c d h => ?_
    rw [h]
    refine .ite (.pure fun _ _ h => h.mono fun g hg => ⟨rfl, hg.2.strings, .nil⟩) ?_
    refine .bind_fact itmt3_entry_in_step fun entry more hread => ?_
    refine .pure fun _ _ h => h.mono fun g hg => ?_
    obtain ⟨hsome, hcollected⟩ := hg
    cases entries with
    | none =>
        cases fields with
        | none => exact ⟨rfl, hcollected⟩
        | some fields => cases hsome
    | some entries =>
        cases fields with
        | none => cases hsome
        | some fields => exact ⟨rfl, hcollected.append hread⟩
  · refine .given (fun _ _ h => h.tables.1) fun hsome => ?_
    cases entries with
    | none =>
        cases fields with
        | none =>
            refine .pure fun _ _ h => ⟨[], ?_, .nil⟩
            rw [h.tables.2.strings, List.append_nil]
        | some fields => cases hsome
    | some entries =>
        cases fields with
        | none => cases hsome
        | some fields =>
            refine simulates_update (L := Stores buf (.itmt3 name) base fields) (fun _ => rfl)
              (fun g hg => ⟨_, ?_, hg.2.read⟩) (simulates_done ..)
            rw [← hg.2.strings]
            simp [StringTable.strings]
  · obtain ⟨new, hnew, hread⟩ := hg
    cases hread
    exact ⟨rfl, hnew.trans (List.append_nil _), .nil⟩

/-- The conditions of a set that have been read, with their devices and the fields, behind the
strings of the sets before. -/
structure SetRead (buf : Bytes) (base : List Bytes) (before : List Origin) (v : SetState)
    (w : SetFields) (g : Gddv) : Prop where
  i : v.i = w.i
  stores : Stores buf .apct base before g
  read : List.Forall₂ (Origin.Read buf) w.fields (v.conditionSet.map fun c => c.device)

variable {before : List Origin}

/-- One more condition. -/
theorem simulates_condition {i j : Int} {cs : List Condition} {fs : List Origin} {o : Origin}
    {condition : Condition} (h : Origin.Read buf o condition.device) :
    Simulates (SamePlace (SetRead buf base before ⟨i, cs⟩ ⟨i, fs⟩))
      (pure ⟨j, cs ++ [condition]⟩ : Decoder SetState)
      (pure ⟨j, fs ++ [o]⟩ : Decoder SetFields)
      fun v w => SamePlace (SetRead buf base before v w) := by
  refine .pure fun _ _ hplace => hplace.mono fun g hg => ⟨rfl, hg.stores, ?_⟩
  rw [List.map_append]
  exact List.rel_append hg.read (.cons h .nil)

theorem condition1_in_step (target : Int) (v : SetState) (w : SetFields) :
    Simulates (SamePlace (SetRead buf base before v w)) (parseCondition1 buf len target v)
      (conditionFields1 buf len w) fun v w => SamePlace (SetRead buf base before v w) := by
  obtain ⟨i, cs⟩ := v
  obtain ⟨j, fs⟩ := w
  refine .given (fun _ _ h => h.tables.i) fun hi => ?_
  obtain rfl : i = j := hi
  refine simulates_get fun c d h => ?_
  rw [h]
  refine .ite (.throw _) ?_
  refine simulates_read reader_get_uint64 fun condition => ?_
  refine simulates_read reader_get_uint64 fun comparison => ?_
  refine simulates_read reader_get_uint64 fun argument => ?_
  refine .ite ?_ (simulates_condition rfl)
  refine simulates_read reader_get_uint64 fun operation => .ite ?_ (simulates_condition rfl)
  refine simulates_read reader_skip fun _ => simulates_read reader_get_uint64 fun _ => ?_
  refine simulates_read reader_get_uint64 fun _ => simulates_read reader_skip fun _ => ?_
  exact simulates_condition rfl

theorem condition2_in_step (target : Int) (count : Nat) (v : SetState) (w : SetFields) :
    Simulates (SamePlace (SetRead buf base before v w)) (parseCondition2 buf len target count v)
      (conditionFields2 buf len count w) fun v w => SamePlace (SetRead buf base before v w) := by
  obtain ⟨i, cs⟩ := v
  obtain ⟨j, fs⟩ := w
  refine .given (fun _ _ h => h.tables.i) fun hi => ?_
  obtain rfl : i = j := hi
  refine simulates_get fun c d h => ?_
  rw [h]
  refine .ite (.throw _) ?_
  refine simulates_read reader_get_uint64 fun condition => simulates_string fun device o h => ?_
  refine simulates_read reader_skip fun _ => simulates_read reader_get_uint64 fun comparison => ?_
  refine simulates_read reader_get_uint64 fun argument => ?_
  refine .ite ?_ (simulates_condition h)
  refine simulates_read reader_get_uint64 fun operation => .ite ?_ (simulates_condition h)
  refine simulates_read reader_skip fun _ => simulates_read reader_get_string fun _ => ?_
  refine simulates_read reader_skip fun _ => simulates_read reader_get_uint64 fun _ => ?_
  refine simulates_read reader_get_uint64 fun _ => simulates_read reader_skip fun _ => ?_
  exact simulates_condition h

/-- A set whose conditions are read in step. -/
theorem condition_set_in_step (count : Int) {body : SetState → Decoder SetState}
    {walk : SetFields → Decoder SetFields}
    (hbody : ∀ v w, Simulates (SamePlace (SetRead buf base before v w)) (body v) (walk w)
      fun v w => SamePlace (SetRead buf base before v w)) :
    Simulates (SamePlace (Stores buf .apct base before)) (parseConditionSet fuel count body)
      (conditionSetFields fuel count walk before)
      fun _ fields => SamePlace (Stores buf .apct base fields) := by
  refine .pre (.bind (.loop (I := fun v w => SamePlace (SetRead buf base before v w))
    (fun v w _ _ h => ?_) hbody fuel ⟨0, []⟩ ⟨0, []⟩) fun v w => ?_)
    fun _ _ h => h.mono fun g hg => ⟨rfl, hg, .nil⟩
  · rw [h.tables.i]
  · refine simulates_store (fun _ => rfl) (fun g hg => hg.stores.append _ ?_ hg.read)
      fun _ _ h => h
    simp [StringTable.strings]

theorem apct_in_step : InStep .apct buf base fuel len := by
  refine simulates_begin (fun _ h => h) (simulates_read reader_get_uint64 fun version => ?_)
  refine .ite ?_ (.ite ?_ (.throw _))
  · refine .behind (simulates_while (K := fun _ fields => Stores buf .apct base fields)
      (fun _ fields => ?_) fuel len () []) fun _ fields => simulates_done ..
    refine simulates_read reader_get_uint64 fun target => .ite (.throw _) ?_
    exact condition_set_in_step fuel 10 fun v w => condition1_in_step len (int32 target) v w
  · refine .behind (simulates_while (K := fun _ fields => Stores buf .apct base fields)
      (fun _ fields => ?_) fuel len () []) fun _ fields => simulates_done ..
    refine simulates_read reader_get_uint64 fun target => .ite (.throw _) ?_
    refine simulates_read reader_get_uint64 fun count => ?_
    exact condition_set_in_step fuel (int32 count) fun v w =>
      condition2_in_step len (int32 target) count v w

/-- Every table is gone through in step. -/
theorem tables_in_step (t : StringTable) : InStep t buf base fuel len := by
  cases t with
  | appc => exact appc_in_step fuel len
  | apat => exact apat_in_step fuel len
  | apct => exact apct_in_step fuel len
  | psvt name => exact psvt_in_step fuel len name
  | itmt name => exact itmt_in_step fuel len name
  | itmt3 name => exact itmt3_in_step fuel len name
  | vsct name => exact vsct_in_step fuel len name

end Tables

/-- A table that is decoded has its strings from the declared bytes, up to the first NUL among them,
exactly if there is a NUL among the bytes of each field or right behind them. -/
theorem strings_declared_iff (t : StringTable) {fuel : Nat} {buf : Bytes} {len r : Int}
    {c c' : Cursor} (h : Returns (t.parse fuel buf len) c r c') :
    ∃ fields d, Returns (t.fields fuel buf len) c fields d ∧
      (t.strings c'.gddv = t.strings c.gddv ++ fields.map (Origin.declared buf) ↔
        ∀ o ∈ fields, o.Closed buf) := by
  have hstart : SamePlace (Stores buf t (t.strings c.gddv) []) c c :=
    ⟨rfl, rfl, [], (List.append_nil _).symm, .nil⟩
  obtain ⟨fields, d, hfields, new, hnew, hread⟩ := (tables_in_step fuel len t).run hstart h
  refine ⟨fields, d, hfields, ?_⟩
  rw [hnew, List.append_cancel_left_eq]
  exact forall_declared_iff hread

/-! ## An example -/

/-- A field of a table: its type, its number or length, and the bytes of a string. -/
def tableField (type value : Nat) (bytes : Bytes) : Bytes :=
  toLittleEndian 4 type ++ toLittleEndian 8 value ++ bytes

/-- An APAT table with one target, whose name is in these bytes, and the NUL behind the table. -/
def targetTable (name : Bytes) : Bytes :=
  tableField 4 2 [] ++ tableField 4 1 [] ++ tableField 8 name.length name ++
    tableField 8 5 (ascii "TCPU" ++ [0]) ++ tableField 4 0 [] ++
    tableField 8 5 (ascii "PSVT" ++ [0]) ++ tableField 8 2 (ascii "a" ++ [0]) ++ [0]

/-- The tables with a target of this name, after a table of some length. -/
def targetCursor (name : Bytes) (len : Int) : Cursor :=
  ⟨len, { init with
    targets := [⟨1, name, ascii "TCPU", 0, ascii "PSVT", ascii "a"⟩], gddvCurBufLen := len }⟩

/-- A name of no bytes becomes a string of one byte, which is the type of the next field. -/
theorem empty_name_misread :
    Returns (StringTable.apat.parse 2 (targetTable []) 96) ⟨0, init⟩ 0 (targetCursor [8] 96) ∧
      ∃ fields d, Returns (StringTable.apat.fields 2 (targetTable []) 96) ⟨0, init⟩ fields d ∧
        StringTable.apat.strings (targetCursor [8] 96).gddv ≠
          StringTable.apat.strings init ++ fields.map (Origin.declared (targetTable [])) := by
  refine ⟨by decide +kernel, [.field 36 0, .field 48 5, .field 77 5, .field 94 2],
    ⟨96, { init with gddvCurBufLen := 96 }⟩, by decide +kernel, by decide +kernel⟩

/-- A name that ends with a NUL is read as it is declared, and so are the other strings. -/
theorem ended_name_read :
    ∃ fields d, Returns (StringTable.apat.fields 2 (targetTable (ascii "n" ++ [0])) 98) ⟨0, init⟩
        fields d ∧
      StringTable.apat.strings (targetCursor (ascii "n") 98).gddv =
        StringTable.apat.strings init ++
          fields.map (Origin.declared (targetTable (ascii "n" ++ [0]))) := by
  have hparse : Returns (StringTable.apat.parse 2 (targetTable (ascii "n" ++ [0])) 98) ⟨0, init⟩ 0
      (targetCursor (ascii "n") 98) := by
    decide +kernel
  have hfields : Returns (StringTable.apat.fields 2 (targetTable (ascii "n" ++ [0])) 98) ⟨0, init⟩
      [.field 36 2, .field 50 5, .field 79 5, .field 96 2]
      ⟨98, { init with gddvCurBufLen := 98 }⟩ := by
    decide +kernel
  obtain ⟨fields, d, hret, hiff⟩ := strings_declared_iff .apat hparse
  obtain ⟨rfl, -⟩ := hret.unique hfields
  exact ⟨_, d, hret, hiff.mpr (by decide +kernel)⟩

end Thermald.Gddv
