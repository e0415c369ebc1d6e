import Mathlib.Algebra.GroupWithZero.Nat
import Thermald.Gddv.ConditionSets
import Thermald.Gddv.Psvt

/-!
# Condition sets in a table

A table of condition sets is a sequence of sets, each of which is a sequence of conditions with
operations between them. The operation `FOR` is followed by a time condition, which the decoder
folds into the condition before it. Behind a time condition the decoder skips the operation that
joins it to the next condition, and it does so behind the last condition too, where no operation
follows.

`parse_apct_iff` says that the sets of a table are read back, each from the byte behind the set
before it, exactly if no set but the last one ends with a time condition.
-/

namespace Thermald.Gddv

/-! ## Sets and their encoding -/

/-- The version of a table. -/
inductive ApctVersion where
  | one
  | two
  deriving DecidableEq

/-- The number that stands for the version. -/
def ApctVersion.number : ApctVersion → Nat
  | .one => 1
  | .two => 2

/-- A condition in a table. Version 1 has neither device nor domain. -/
structure ApctCondition where
  condition : Nat
  device : Bytes
  domain : Nat
  comparison : Nat
  argument : Int
  condition_lt : condition < 2 ^ 32
  device_text : 0 ∉ device
  domain_lt : domain < 2 ^ 64
  comparison_lt : comparison < 2 ^ 8
  argument_ge : -2147483648 ≤ argument
  argument_le : argument ≤ intMax

/-- A time condition: the decoder looks at the comparison and the duration only. -/
structure ApctTime where
  condition : Nat
  device : Bytes
  domain : Nat
  comparison : Nat
  time : Int
  condition_lt : condition < 2 ^ 64
  domain_lt : domain < 2 ^ 64
  comparison_lt : comparison < 2 ^ 8
  time_ge : -9223372036854775808 ≤ time
  time_le : time ≤ 9223372036854775807

/-- A condition with the time condition that `FOR` joins to it. -/
structure ApctElement where
  condition : ApctCondition
  time : Option ApctTime

/-- An operation other than `FOR`. -/
structure ApctJoiner where
  operation : Nat
  operation_lt : operation < 2 ^ 8
  operation_ne : operation ≠ opFor

/-- A set: its target, the conditions with the operations behind them, and the last condition. The
decoder rejects the target -1. -/
structure ApctSet where
  target : Int
  others : List (ApctElement × ApctJoiner)
  last : ApctElement
  target_ge : -2147483648 ≤ target
  target_le : target ≤ intMax
  target_ne : target ≠ -1

/-- A signed number of 64 bits. -/
def intField (value : Int) : Bytes :=
  uintField (uint64 value).toNat

/-- A string with its NUL. -/
def stringField (value : Bytes) : Bytes :=
  toLittleEndian 4 8 ++ toLittleEndian 8 (value.length + 1) ++ (value ++ [0])

/-- The fields of a condition in front of its operation. -/
def apctFields (version : ApctVersion) (condition : Nat) (device : Bytes)
    (domain comparison : Nat) (argument : Int) : Bytes :=
  match version with
  | .one => uintField condition ++ (uintField comparison ++ intField argument)
  | .two => uintField condition ++ (stringField device ++ (uintField domain ++
      (uintField comparison ++ intField argument)))

def ApctCondition.encode (version : ApctVersion) (c : ApctCondition) : Bytes :=
  apctFields version c.condition c.device c.domain c.comparison c.argument

def ApctTime.encode (version : ApctVersion) (t : ApctTime) : Bytes :=
  apctFields version t.condition t.device t.domain t.comparison t.time

/-- A condition, and `FOR` and the time condition if there is one. -/
def ApctElement.encode (version : ApctVersion) (e : ApctElement) : Bytes :=
  match e.time with
  | none => e.condition.encode version
  | some t => e.condition.encode version ++ (uintField opFor ++ t.encode version)

/-- How many of the conditions of the set it is. -/
def ApctElement.count (e : ApctElement) : Nat :=
  if e.time.isSome then 2 else 1

/-- The number of conditions, time conditions included. -/
def ApctSet.count (s : ApctSet) : Nat :=
  (s.others.map fun e => e.1.count).sum + s.last.count

/-- The conditions of a set and the operations between them. -/
def ApctSet.conditions (version : ApctVersion) (s : ApctSet) : Bytes :=
  s.others.flatMap (fun e => e.1.encode version ++ uintField e.2.operation) ++
    s.last.encode version

/-- A set. Version 2 stores the number of conditions. -/
def ApctSet.encode (version : ApctVersion) (s : ApctSet) : Bytes :=
  match version with
  | .one => intField s.target ++ s.conditions .one
  | .two => intField s.target ++ (uintField s.count ++ s.conditions .two)

/-- A table. -/
def apctTable (version : ApctVersion) (sets : List ApctSet) : Bytes :=
  uintField version.number ++ sets.flatMap (ApctSet.encode version)

/-- A condition as it is stored, without an operation. -/
def ApctCondition.decoded (version : ApctVersion) (target : Int) (c : ApctCondition) : Condition :=
  { Condition.init target with
    condition := c.condition
    device := if version = .two then c.device else []
    comparison := c.comparison
    argument := c.argument }

/-- A condition as it is stored. The operation is the one behind the condition itself. -/
def ApctElement.decoded (version : ApctVersion) (target : Int) (operation : Nat)
    (e : ApctElement) : Condition :=
  let c := e.condition.decoded version target
  match e.time with
  | none => { c with operation }
  | some t => { c with operation := opFor, timeComparison := t.comparison, time := t.time }

/-- A set as it is stored. -/
def ApctSet.decoded (version : ApctVersion) (s : ApctSet) : List Condition :=
  s.others.map (fun e => e.1.decoded version s.target e.2.operation) ++
    [s.last.decoded version s.target 0]

/-- The last two conditions of the set are joined by `FOR`. -/
def ApctSet.EndsTimed (s : ApctSet) : Prop :=
  s.last.time.isSome = true

instance (s : ApctSet) : Decidable s.EndsTimed :=
  inferInstanceAs (Decidable (_ = true))

/-! ## Reading with a jump at the end -/

section Leads

variable {α β : Type} {len jump : Int}

/-- In a table of the given length, at the beginning of the encoding, the reader returns the value
and moves behind the encoding and over some more bytes, which need not exist. -/
def Leads (len : Int) (m : Bytes → Decoder α) (data : Bytes) (jump : Int) (a : α) : Prop :=
  ∀ (buf before rest : Bytes) (c : Cursor), buf = before ++ data ++ rest →
    c.offset = before.length → (before.length + data.length : Int) ≤ len →
    c.gddv.gddvCurBufLen = len → len ≤ intMax →
    Returns (m buf) c a { c with offset := int32 ((before.length + data.length : Nat) + jump) }

/-- An offset in the table is not narrowed. -/
theorem int32_offset {n : Nat} (h : (n : Int) ≤ len) (hmax : len ≤ intMax) :
    int32 ((n : Int) + 0) = n := by
  rw [Int.add_zero]
  exact int32_eq_self (by omega) (h.trans hmax)

/-- A reader that moves behind the encoding. -/
theorem Reads.leads {m : Bytes → Decoder α} {data : Bytes} {a : α} (h : Reads m data a) :
    Leads len m data 0 a := by
  intro buf before rest c hbuf hoffset hlen hcur hmax
  rw [int32_offset (by omega) hmax]
  exact h buf before rest c hbuf hoffset (by omega) (by omega)

/-- Encodings one after the other. -/
theorem Leads.bind {m : Bytes → Decoder α} {f : α → Bytes → Decoder β} {data data' : Bytes} {a : α}
    {b : β} (h : Leads len m data 0 a) (hf : Leads len (f a) data' jump b) :
    Leads len (fun buf => m buf >>= fun a => f a buf) (data ++ data') jump b := by
  intro buf before rest c hbuf hoffset hlen hcur hmax
  rw [List.length_append] at hlen ⊢
  have hfirst := h buf before (data' ++ rest) c (by simp only [hbuf, List.append_assoc]) hoffset
    (by omega) hcur hmax
  rw [int32_offset (by omega) hmax] at hfirst
  have hsecond := hf buf (before ++ data) rest
    { c with offset := (before.length + data.length : Nat) }
    (by simp only [hbuf, List.append_assoc]) (by simp only [List.length_append])
    (by simp only [List.length_append]; omega) hcur hmax
  rw [List.length_append, Nat.add_assoc] at hsecond
  exact hfirst.bind hsecond

/-- A value computed from what was read. -/
theorem Leads.map {m : Bytes → Decoder α} {f : α → β} {data : Bytes} {a : α} {b : β}
    (h : Leads len m data jump a) (hf : f a = b) :
    Leads len (fun buf => m buf >>= fun a => pure (f a)) data jump b := by
  subst hf
  intro buf before rest c hbuf hoffset hlen hcur hmax
  exact (h buf before rest c hbuf hoffset hlen hcur hmax).bind (.pure _ _)

/-- `offset += 12` at the end. -/
theorem leads_skip : Leads len (fun _ => skip) [] 12 () := by
  intro buf before rest c _ hoffset _ _ _
  refine (Returns.modify _ c).eq.trans ?_
  rw [hoffset]
  rfl

/-- The bytes that are jumped over may be there. -/
theorem Leads.over {m : Bytes → Decoder α} {data more : Bytes} {a : α} {n : Nat}
    (h : Leads len m data n a) (hmore : more.length = n) : Leads len m (data ++ more) 0 a := by
  intro buf before rest c hbuf hoffset hlen hcur hmax
  rw [List.length_append, hmore] at hlen ⊢
  have hret := h buf before (more ++ rest) c (by simp only [hbuf, List.append_assoc]) hoffset
    (by omega) hcur hmax
  have hend : ((before.length + data.length : Nat) : Int) + n =
      ((before.length + (data.length + n) : Nat) : Int) + 0 := by
    omega
  rw [← hend]
  exact hret

/-- The check for the end of the table. -/
theorem Leads.check {m : Bytes → Decoder α} {data : Bytes} {a : α} (h : Leads len m data jump a)
    (hdata : data ≠ []) :
    Leads len (fun buf => do
      if len ≤ (← get).offset then throw .gddvException
      else m buf) data jump a := by
  intro buf before rest c hbuf hoffset hlen hcur hmax
  have hpos := List.length_pos_iff.mpr hdata
  refine (Returns.get c).bind ?_
  rw [if_neg (by omega)]
  exact h buf before rest c hbuf hoffset hlen hcur hmax

end Leads

/-! ## Fields -/

section Fields

variable {len : Int}

theorem length_uint_field (value : Nat) : (uintField value).length = 12 := by
  rw [uintField, List.length_append, length_to_little_endian, length_to_little_endian]

theorem reads_uint_field {value : Nat} (h : value < 2 ^ 64) :
    Reads getUint64 (uintField value) value :=
  @reads_tagged 4 value (by decide) (by omega)

/-- A signed number is read as an unsigned one. -/
theorem reads_int_field (value : Int) : Reads getUint64 (intField value) (uint64 value).toNat := by
  refine reads_uint_field ?_
  unfold uint64
  omega

/-- A number in the range of `int` survives. -/
theorem int32_uint64 {value : Int} (hge : -2147483648 ≤ value) (hle : value ≤ intMax) :
    int32 ((uint64 value).toNat : Int) = value := by
  unfold int32 uint64
  simp only [intMax] at hle
  omega

/-- A number of 64 bits survives. -/
theorem int64_uint64 {value : Int} (hge : -9223372036854775808 ≤ value)
    (hle : value ≤ 9223372036854775807) : int64 ((uint64 value).toNat : Int) = value := by
  unfold int64 uint64
  omega

/-- A string is read if it is in the table at all. -/
theorem leads_string_field {value : Bytes} (htext : 0 ∉ value) :
    Leads len getStdString (stringField value) 0 value := by
  intro buf before rest c hbuf hoffset hlen hcur hmax
  have hsize : (stringField value).length = 12 + (value.length + 1) := by
    simp only [stringField, List.length_append, length_to_little_endian, List.length_singleton]
  have hlength : value.length + 1 < 256 ^ 8 := by
    simp only [intMax] at hmax
    omega
  exact (reads_string htext hlength).leads buf before rest c hbuf hoffset hlen hcur hmax

/-- A string that nobody looks at is skipped. -/
theorem leads_get_string (value : Bytes) :
    Leads len (fun buf => getString buf >>= fun _ => pure ()) (stringField value) 0 () := by
  intro buf before rest c hbuf hoffset hlen hcur hmax
  have hsize : (stringField value).length = 12 + (value.length + 1) := by
    simp only [stringField, List.length_append, length_to_little_endian, List.length_singleton]
  have hlength : value.length + 1 < 256 ^ 8 := by
    simp only [intMax] at hmax
    omega
  rw [int32_offset (by omega) hmax, hsize]
  rw [hsize] at hlen
  exact (get_string_returns hlength hbuf hoffset (by omega) (by omega)).bind (.pure _ _)

/-- A field that is skipped. -/
theorem leads_skip_field (value : Nat) : Leads len (fun _ => skip) (uintField value) 0 () :=
  (reads_skip (length_uint_field value)).leads

/-- A number. -/
theorem leads_uint_field {value : Nat} (h : value < 2 ^ 64) :
    Leads len getUint64 (uintField value) 0 value :=
  (reads_uint_field h).leads

theorem leads_int_field (value : Int) :
    Leads len getUint64 (intField value) 0 (uint64 value).toNat :=
  (reads_int_field value).leads

end Fields

/-! ## Conditions -/

/-- The decoder of a condition. -/
def parseCondition (version : ApctVersion) (len target : Int) (count : Nat) (apct : Bytes)
    (v : SetState) : Decoder SetState :=
  match version with
  | .one => parseCondition1 apct len target v
  | .two => parseCondition2 apct len target count v

/-- The fields of a condition in front of its operation. -/
def conditionHead (version : ApctVersion) (target : Int) (apct : Bytes) : Decoder Condition :=
  match version with
  | .one => do
      let condition ← getUint64 apct
      let comparison ← getUint64 apct
      let argument ← getUint64 apct
      pure { Condition.init target with
        condition := condition % 2 ^ 32
        comparison := comparison % 2 ^ 8
        argument := int32 argument }
  | .two => do
      let condition ← getUint64 apct
      let device ← getStdString apct
      skip
      let comparison ← getUint64 apct
      let argument ← getUint64 apct
      pure { Condition.init target with
        condition := condition % 2 ^ 32
        device
        comparison := comparison % 2 ^ 8
        argument := int32 argument }

/-- The comparison and the time of a time condition. -/
def timeHead (version : ApctVersion) (apct : Bytes) : Decoder (Nat × Nat) :=
  match version with
  | .one => do
      skip
      let timeComparison ← getUint64 apct
      let time ← getUint64 apct
      pure (timeComparison, time)
  | .two => do
      skip
      getString apct >>= fun _ => pure ()
      skip
      let timeComparison ← getUint64 apct
      let time ← getUint64 apct
      pure (timeComparison, time)

/-- The counter from which on no operation is read. -/
def lastIndex (version : ApctVersion) (count : Nat) : Int :=
  match version with
  | .one => 9
  | .two => int32 (uint64 (count - 1))

/-- What is done behind the fields of a condition. -/
def conditionTail (version : ApctVersion) (count : Nat) (v : SetState) (c : Condition)
    (apct : Bytes) : Decoder SetState := do
  if v.i < lastIndex version count then
    let operation ← getUint64 apct
    let c := { c with operation := operation % 2 ^ 8 }
    if c.operation = opFor then
      let (timeComparison, time) ← timeHead version apct
      skip
      pure ⟨int32 (v.i + 1 + 1), v.conditionSet ++
        [{ c with timeComparison := timeComparison % 2 ^ 8, time := int64 time }]⟩
    else pure ⟨int32 (v.i + 1), v.conditionSet ++ [c]⟩
  else pure ⟨int32 (v.i + 1), v.conditionSet ++ [c]⟩

/-- The two versions differ in the fields only. -/
theorem parse_condition_eq (version : ApctVersion) (len target : Int) (count : Nat) (apct : Bytes)
    (v : SetState) :
    parseCondition version len target count apct v = (do
      if len ≤ (← get).offset then throw .gddvException
      else
        let c ← conditionHead version target apct
        conditionTail version count v c apct) := by
  cases version with
  | one =>
      simp only [parseCondition, parseCondition1, conditionHead, conditionTail, timeHead, lastIndex,
        bind_assoc, pure_bind]
  | two =>
      simp only [parseCondition, parseCondition2, conditionHead, conditionTail, timeHead, lastIndex,
        bind_assoc, pure_bind]

section Conditions

variable {version : ApctVersion} {len target : Int} {count : Nat} {v : SetState}

/-- The fields of a condition are read. -/
theorem leads_condition_head (c : ApctCondition) :
    Leads len (conditionHead version target) (c.encode version) 0 (c.decoded version target) := by
  have hcode : c.condition % 2 ^ 32 = c.condition := Nat.mod_eq_of_lt c.condition_lt
  have hcomp : c.comparison % 2 ^ 8 = c.comparison := Nat.mod_eq_of_lt c.comparison_lt
  have hargument := int32_uint64 c.argument_ge c.argument_le
  have hcondition : c.condition < 2 ^ 64 := c.condition_lt.trans (by decide)
  have hcomparison : c.comparison < 2 ^ 64 := c.comparison_lt.trans (by decide)
  cases version with
  | one =>
      refine (leads_uint_field hcondition).bind ((leads_uint_field hcomparison).bind ?_)
      rw [hcode, hcomp]
      refine (leads_int_field c.argument).map ?_
      rw [hargument]
      rfl
  | two =>
      refine (leads_uint_field hcondition).bind ((leads_string_field c.device_text).bind ?_)
      refine (leads_skip_field c.domain).bind ((leads_uint_field hcomparison).bind ?_)
      rw [hcode, hcomp]
      refine (leads_int_field c.argument).map ?_
      rw [hargument]
      rfl

/-- The comparison and the time of a time condition are read. -/
theorem leads_time_head (t : ApctTime) :
    Leads len (timeHead version) (t.encode version) 0 (t.comparison, (uint64 t.time).toNat) := by
  have hcomparison : t.comparison < 2 ^ 64 := t.comparison_lt.trans (by decide)
  cases version with
  | one =>
      refine (leads_skip_field t.condition).bind ((leads_uint_field hcomparison).bind ?_)
      exact (leads_int_field t.time).map rfl
  | two =>
      refine (leads_skip_field t.condition).bind ((leads_get_string t.device).bind ?_)
      refine (leads_skip_field t.domain).bind ((leads_uint_field hcomparison).bind ?_)
      exact (leads_int_field t.time).map rfl

/-- The result of reading a condition. -/
def ApctElement.after (version : ApctVersion) (target : Int) (operation : Nat) (e : ApctElement)
    (v : SetState) : SetState :=
  ⟨int32 (if e.time.isSome then v.i + 1 + 1 else v.i + 1),
    v.conditionSet ++ [e.decoded version target operation]⟩

/-- The check in front of a condition does not fail. -/
theorem leads_condition {c : ApctCondition} {more : Bytes} {jump : Int} {v' : SetState}
    (h : Leads len (conditionTail version count v (c.decoded version target)) more jump v') :
    Leads len (parseCondition version len target count · v) (c.encode version ++ more) jump v' := by
  have hne : c.encode version ++ more ≠ [] := by
    cases version <;> exact List.cons_ne_nil _ _
  have hread := ((leads_condition_head c).bind h).check hne
  intro buf before rest cursor hbuf hoffset hlen hcur hmax
  dsimp only
  rw [parse_condition_eq]
  exact hread buf before rest cursor hbuf hoffset hlen hcur hmax

/-- The last condition of a set, if no time condition follows. -/
theorem leads_plain_last {e : ApctElement} (htime : e.time = none)
    (hlast : ¬ v.i < lastIndex version count) :
    Leads len (parseCondition version len target count · v) (e.encode version) 0
      (e.after version target 0 v) := by
  obtain ⟨c, time⟩ := e
  obtain rfl : time = none := htime
  have htail : Leads len (conditionTail version count v (c.decoded version target)) [] 0
      (ApctElement.after version target 0 ⟨c, none⟩ v) := by
    intro buf before rest cursor _ hoffset hlen _ hmax
    rw [int32_offset (by omega) hmax, List.length_nil, Nat.add_zero, ← hoffset]
    unfold conditionTail
    rw [if_neg hlast]
    exact .pure _ _
  have hread := leads_condition htail
  rw [List.append_nil] at hread
  exact hread

/-- Another condition without a time condition. -/
theorem leads_plain_joined {e : ApctElement} {o : ApctJoiner} (htime : e.time = none)
    (hjoined : v.i < lastIndex version count) :
    Leads len (parseCondition version len target count · v)
      (e.encode version ++ uintField o.operation) 0 (e.after version target o.operation v) := by
  obtain ⟨c, time⟩ := e
  obtain rfl : time = none := htime
  have hop : o.operation % 2 ^ 8 = o.operation := Nat.mod_eq_of_lt o.operation_lt
  have hread : Leads len getUint64 (uintField o.operation) 0 o.operation :=
    leads_uint_field (o.operation_lt.trans (by decide))
  refine leads_condition ?_
  intro buf before rest cursor hbuf hoffset hlen hcur hmax
  unfold conditionTail
  rw [if_pos hjoined]
  refine (hread buf before rest cursor hbuf hoffset hlen hcur hmax).bind ?_
  dsimp only
  rw [hop, if_neg o.operation_ne]
  exact .pure _ _

/-- A condition with a time condition: the skip behind it is a jump. -/
theorem leads_timed {e : ApctElement} {t : ApctTime} (htime : e.time = some t)
    (hjoined : v.i < lastIndex version count) (operation : Nat) :
    Leads len (parseCondition version len target count · v) (e.encode version) 12
      (e.after version target operation v) := by
  obtain ⟨c, time⟩ := e
  obtain rfl : time = some t := htime
  have hop : opFor % 2 ^ 8 = opFor := rfl
  have hcomp : t.comparison % 2 ^ 8 = t.comparison := Nat.mod_eq_of_lt t.comparison_lt
  have htime := int64_uint64 t.time_ge t.time_le
  have hread : Leads len getUint64 (uintField opFor) 0 opFor := leads_uint_field (by decide)
  have hskip : Leads len (fun buf => timeHead version buf >>= fun (timeComparison, time) => do
      skip
      pure ⟨int32 (v.i + 1 + 1), v.conditionSet ++ [{ c.decoded version target with
        operation := opFor, timeComparison := timeComparison % 2 ^ 8, time := int64 time }]⟩)
      (t.encode version ++ []) 12 (ApctElement.after version target operation ⟨c, some t⟩ v) := by
    refine (leads_time_head t).bind ?_
    unfold ApctElement.after ApctElement.decoded
    dsimp only
    rw [hcomp, htime]
    exact leads_skip.map rfl
  rw [List.append_nil] at hskip
  refine leads_condition ?_
  unfold conditionTail
  simp only [if_pos hjoined]
  refine hread.bind ?_
  simp only [hop, if_true]
  exact hskip

/-- How far the decoder stands behind the last condition of a set. -/
def ApctElement.jump (e : ApctElement) : Int :=
  if e.time.isSome then 12 else 0

theorem ApctElement.count_eq (e : ApctElement) :
    e.time = none ∧ e.count = 1 ∧ e.jump = 0 ∨
      ∃ t, e.time = some t ∧ e.count = 2 ∧ e.jump = 12 := by
  unfold count jump
  cases htime : e.time with
  | none => exact .inl ⟨rfl, rfl, rfl⟩
  | some t => exact .inr ⟨t, rfl, rfl, rfl⟩

/-- The counter counts the time condition. -/
theorem ApctElement.after_eq (version : ApctVersion) (target : Int) (operation : Nat)
    (e : ApctElement) {i : Nat} (conditions : List Condition)
    (hmax : ((i + e.count : Nat) : Int) ≤ intMax) :
    e.after version target operation ⟨i, conditions⟩ =
      ⟨(i + e.count : Nat), conditions ++ [e.decoded version target operation]⟩ := by
  unfold after
  obtain ⟨htime, hcount, -⟩ | ⟨t, htime, hcount, -⟩ := e.count_eq
  · rw [hcount] at hmax ⊢
    simp only [htime, Option.isSome_none, Bool.false_eq_true, if_false, SetState.mk.injEq,
      and_true]
    exact int32_eq_self (by omega) (by omega)
  · rw [hcount] at hmax ⊢
    simp only [htime, Option.isSome_some, if_true, SetState.mk.injEq, and_true]
    rw [int32_eq_self (by omega) (by omega)]
    omega

/-- A condition in front of an operation other than `FOR`. -/
theorem leads_joined (len target : Int) (e : ApctElement) (o : ApctJoiner) {i : Nat}
    (conditions : List Condition) (hlast : lastIndex version count = count - 1)
    (hcount : i + e.count < count)
    (hmax : (count : Int) ≤ intMax) :
    Leads len (parseCondition version len target count · ⟨i, conditions⟩)
      (e.encode version ++ uintField o.operation) 0
      ⟨(i + e.count : Nat), conditions ++ [e.decoded version target o.operation]⟩ := by
  rw [← e.after_eq version target o.operation conditions (by omega)]
  obtain ⟨htime, hone, -⟩ | ⟨t, htime, htwo, -⟩ := e.count_eq
  · exact leads_plain_joined htime (by rw [hlast]; dsimp only; omega)
  · exact (leads_timed htime (by rw [hlast]; dsimp only; omega) o.operation).over
      (length_uint_field _)

/-- The last condition of a set. -/
theorem leads_last (len target : Int) (e : ApctElement) {i : Nat} (conditions : List Condition)
    (hlast : lastIndex version count = count - 1) (hcount : i + e.count = count)
    (hmax : (count : Int) ≤ intMax) :
    Leads len (parseCondition version len target count · ⟨i, conditions⟩) (e.encode version) e.jump
      ⟨count, conditions ++ [e.decoded version target 0]⟩ := by
  have hafter := e.after_eq version target 0 (i := i) conditions (by omega)
  rw [hcount] at hafter
  rw [← hafter]
  obtain ⟨htime, hone, hjump⟩ | ⟨t, htime, htwo, hjump⟩ := e.count_eq
  · rw [hjump]
    exact leads_plain_last htime (by rw [hlast]; dsimp only; omega)
  · rw [hjump]
    exact leads_timed htime (by rw [hlast]; dsimp only; omega) 0

/-- The loop over the conditions of a set. -/
theorem leads_conditions (others : List (ApctElement × ApctJoiner)) (last : ApctElement)
    (hlast : lastIndex version count = count - 1) (hmax : (count : Int) ≤ intMax) {i fuel : Nat}
    (hcount : i + (others.map fun e => e.1.count).sum + last.count = count)
    (hfuel : others.length < fuel) (conditions : List Condition) :
    Leads len
      (fun buf => loopM .outOfFuel (fun (v : SetState) _ => decide (v.i < count))
        (parseCondition version len target count buf) fuel ⟨i, conditions⟩)
      (others.flatMap (fun e => e.1.encode version ++ uintField e.2.operation) ++
        last.encode version) last.jump
      ⟨count, conditions ++ (others.map (fun e => e.1.decoded version target e.2.operation) ++
        [last.decoded version target 0])⟩ := by
  have hpos : ∀ e : ApctElement, 0 < e.count := by
    intro e
    obtain ⟨-, h, -⟩ | ⟨-, -, h, -⟩ := e.count_eq <;> omega
  induction others generalizing i fuel conditions with
  | nil =>
      obtain ⟨fuel, rfl⟩ : ∃ n, fuel = n + 1 := ⟨fuel - 1, by omega⟩
      have hlt := hpos last
      have hread := leads_last len target last (i := i) conditions hlast (by simpa using hcount)
        hmax
      intro buf before rest c hbuf hoffset hlen hcur hmax
      have hret := hread buf before rest c hbuf hoffset hlen hcur hmax
      refine Eq.trans (Returns.loop_eq (decide_eq_true ?_) hret) ?_
      · simp only [List.map_nil, List.sum_nil] at hcount
        dsimp only
        omega
      · exact Returns.loop_done (decide_eq_false (lt_irrefl _))
  | cons e others ih =>
      obtain ⟨fuel, rfl⟩ : ∃ n, fuel = n + 1 := ⟨fuel - 1, by omega⟩
      have hlt := hpos last
      simp only [List.map_cons, List.sum_cons] at hcount
      have hread := leads_joined len target e.1 e.2 (i := i) conditions hlast (by omega) hmax
      have hfuel : others.length < fuel := by simpa using hfuel
      have hrest := ih (i := i + e.1.count) (by omega) hfuel
        (conditions ++ [e.1.decoded version target e.2.operation])
      have hall := hread.bind (f := fun v buf => loopM .outOfFuel
        (fun (v : SetState) _ => decide (v.i < count))
        (parseCondition version len target count buf) fuel v) hrest
      simp only [List.append_assoc, List.singleton_append] at hall
      intro buf before rest c hbuf hoffset hlen hcur hmax
      simp only [List.flatMap_cons, List.append_assoc, List.map_cons,
        List.cons_append] at hbuf hlen ⊢
      have hret := hall buf before rest c (by simp only [hbuf, List.append_assoc]) hoffset hlen hcur
        hmax
      refine Eq.trans (loop_step (decide_eq_true ?_)) hret
      dsimp only
      omega

end Conditions

/-! ## Sets -/

/-- A pass of the loop over the sets. -/
def parseSet (version : ApctVersion) (fuel : Nat) (len : Int) (apct : Bytes) : Decoder Unit :=
  match version with
  | .one => do
      let target ← getUint64 apct
      if int32 target = -1 then throw .gddvException
      else parseConditionSet fuel 10 (parseCondition1 apct len (int32 target))
  | .two => do
      let target ← getUint64 apct
      if int32 target = -1 then throw .gddvException
      else
        let count ← getUint64 apct
        parseConditionSet fuel (int32 count) (parseCondition2 apct len (int32 target) count)

/-- The conditions that a pass reads. -/
def readSet (version : ApctVersion) (fuel : Nat) (len : Int) (apct : Bytes) : Decoder SetState := do
  let target ← getUint64 apct
  if int32 target = -1 then throw .gddvException
  else
    let count ← match version with
      | .one => pure 10
      | .two => getUint64 apct
    loopM .outOfFuel (fun (v : SetState) _ => decide (v.i < int32 count))
      (parseCondition version len (int32 target) count apct) fuel ⟨0, []⟩

/-- A pass reads the conditions of a set and stores them. -/
theorem parse_set_eq (version : ApctVersion) (fuel : Nat) (len : Int) (apct : Bytes) :
    parseSet version fuel len apct = readSet version fuel len apct >>= fun v =>
      update fun g => { g with conditions := g.conditions ++ [v.conditionSet] } := by
  cases version with
  | one =>
      simp only [parseSet, readSet, bind_assoc, pure_bind]
      refine bind_congr fun target => ?_
      split <;> rfl
  | two =>
      simp only [parseSet, readSet, bind_assoc]
      refine bind_congr fun target => ?_
      split
      · rfl
      · rw [bind_assoc]
        rfl

/-- How far the decoder stands behind a set. -/
def ApctSet.jump (s : ApctSet) : Int :=
  s.last.jump

section Sets

variable {version : ApctVersion} {len : Int} {fuel : Nat}

/-- A condition has at least one byte. -/
theorem ApctElement.count_le (version : ApctVersion) (e : ApctElement) :
    e.count ≤ (e.encode version).length := by
  have hfields : ∀ (condition : Nat) (device : Bytes) (domain comparison : Nat) (argument : Int),
      36 ≤ (apctFields version condition device domain comparison argument).length := by
    intro condition device domain comparison argument
    cases version <;>
      · simp only [apctFields, intField, List.length_append, length_uint_field]
        omega
  have hhead : 36 ≤ (e.condition.encode version).length := hfields ..
  unfold count encode
  cases e.time with
  | none => exact le_trans (by decide : 1 ≤ 36) hhead
  | some t =>
      rw [List.length_append]
      exact le_trans (by decide : 2 ≤ 36) (hhead.trans (Nat.le_add_right _ _))

/-- There are at most as many conditions as bytes. -/
theorem ApctSet.count_le (version : ApctVersion) (s : ApctSet) :
    s.count ≤ (s.conditions version).length ∧ s.others.length < (s.conditions version).length := by
  have hlast : 1 ≤ s.last.count := by
    obtain ⟨-, h, -⟩ | ⟨-, -, h, -⟩ := s.last.count_eq <;> omega
  have hothers : ∀ others : List (ApctElement × ApctJoiner),
      (others.map fun e => e.1.count).sum ≤
        (others.flatMap fun e => e.1.encode version ++ uintField e.2.operation).length ∧
      others.length ≤
        (others.flatMap fun e => e.1.encode version ++ uintField e.2.operation).length := by
    intro others
    induction others with
    | nil => exact ⟨le_rfl, le_rfl⟩
    | cons e others ih =>
        have he := e.1.count_le version
        simp only [List.map_cons, List.sum_cons, List.flatMap_cons, List.length_append,
          List.length_cons, length_uint_field]
        omega
  have hsum := hothers s.others
  have hle := s.last.count_le version
  unfold ApctSet.count ApctSet.conditions
  rw [List.length_append]
  omega

/-- A set has more than its target. -/
theorem ApctSet.length_encode (version : ApctVersion) (s : ApctSet) :
    12 < (s.encode version).length := by
  have hpos := (s.count_le version).2
  cases version <;>
    · simp only [ApctSet.encode, intField, List.length_append, length_uint_field]
      omega

/-- The conditions of a set are read. -/
theorem leads_read_set {s : ApctSet} (hcount : version = .one → s.count = 10)
    (hmax : ((s.encode version).length : Int) ≤ intMax)
    (hfuel : (s.encode version).length ≤ fuel) :
    Leads len (readSet version fuel len) (s.encode version) s.jump
      ⟨s.count, s.decoded version⟩ := by
  have htarget := int32_uint64 s.target_ge s.target_le
  obtain ⟨hcounts, hothers⟩ := s.count_le version
  have hsize : (s.conditions version).length ≤ (s.encode version).length := by
    cases version <;> simp only [ApctSet.encode, List.length_append] <;> omega
  have hcounter : int32 (s.count : Int) = s.count := int32_eq_self (by omega) (by omega)
  have hpos : 1 ≤ s.count := by
    unfold ApctSet.count
    obtain ⟨-, h, -⟩ | ⟨-, -, h, -⟩ := s.last.count_eq <;> omega
  have hloop : lastIndex version s.count = s.count - 1 → Leads len
      (fun buf => loopM .outOfFuel (fun (v : SetState) _ => decide (v.i < int32 s.count))
        (parseCondition version len (int32 (uint64 s.target).toNat) s.count buf) fuel ⟨0, []⟩)
      (s.conditions version) s.jump ⟨s.count, s.decoded version⟩ := by
    intro hlast
    rw [hcounter, htarget]
    exact leads_conditions s.others s.last (i := 0) hlast (by omega)
      (by rw [Nat.zero_add]; rfl) (by omega) []
  cases version with
  | one =>
      have hten := hcount rfl
      refine (leads_int_field s.target).bind ?_
      rw [hten, htarget] at hloop
      simp only [htarget, if_neg s.target_ne, pure_bind, hten]
      exact hloop rfl
  | two =>
      have hsmall : s.count ≤ 2147483647 := by
        simp only [intMax] at hmax
        omega
      have hlast : lastIndex .two s.count = s.count - 1 := by
        have hself : uint64 ((s.count : Int) - 1) = s.count - 1 := by
          unfold uint64
          omega
        unfold lastIndex
        rw [hself, int32_eq_self (by omega) (by omega)]
      have hnumber : s.count < 2 ^ 64 := by omega
      refine (leads_int_field s.target).bind ?_
      simp only [htarget, if_neg s.target_ne]
      rw [htarget] at hloop
      exact (leads_uint_field hnumber).bind (hloop hlast)

/-- A pass stores the set that it has read. -/
theorem parse_set_returns (fuel : Nat) {s : ApctSet} {c : Cursor} {buf before rest : Bytes}
    (hcount : version = .one → s.count = 10)
    (hbuf : buf = before ++ s.encode version ++ rest) (hoffset : c.offset = before.length)
    (hlen : (before.length + (s.encode version).length : Int) ≤ len)
    (hcur : c.gddv.gddvCurBufLen = len) (hmax : len ≤ intMax)
    (hfuel : (s.encode version).length ≤ fuel) :
    Returns (parseSet version fuel len buf) c ()
      ⟨int32 ((before.length + (s.encode version).length : Nat) + s.jump),
        { c.gddv with conditions := c.gddv.conditions ++ [s.decoded version] }⟩ := by
  have hread := leads_read_set hcount (by omega) hfuel buf before rest c hbuf hoffset
    hlen hcur hmax
  rw [parse_set_eq]
  exact hread.bind (.modify _ _)

end Sets

/-! ## Tables -/

/-- A pass, with the offset where it begins. -/
def startedSet (version : ApctVersion) (fuel : Nat) (apct : Bytes) (len : Int) : Decoder Int := do
  let c ← get
  parseSet version fuel len apct
  pure c.offset

/-- `parse_apct`, with the offsets where the passes begin. -/
def apctStarts (fuel : Nat) (apct : Bytes) (len : Int) : Decoder (List Int) := do
  begin len
  let version ← getUint64 apct
  if version = 1 then setCounts fuel len (startedSet .one fuel apct len)
  else if version = 2 then setCounts fuel len (startedSet .two fuel apct len)
  else throw .gddvException

/-- The table is read and stored as `parse_apct` does it. -/
theorem parse_apct_eq_starts (fuel : Nat) (apct : Bytes) (len : Int) :
    parseApct fuel apct len = (fun _ => 0) <$> apctStarts fuel apct len := by
  have hset : ∀ version, (fun _ => ()) <$> startedSet version fuel apct len =
      parseSet version fuel len apct := by
    intro version
    have hinner : ∀ c : Cursor, (fun _ => ()) <$> (parseSet version fuel len apct >>= fun _ =>
        pure c.offset) = parseSet version fuel len apct := by
      intro c
      rw [map_bind]
      exact bind_pure _
    unfold startedSet
    rw [map_bind, funext hinner]
    rfl
  have hparse : parseApct fuel apct len = (begin len >>= fun _ => getUint64 apct >>= fun version =>
      if version = 1 then
        whileBelow fuel len (fun _ => parseSet .one fuel len apct) () >>= fun _ => pure 0
      else if version = 2 then
        whileBelow fuel len (fun _ => parseSet .two fuel len apct) () >>= fun _ => pure 0
      else throw .gddvException) := rfl
  rw [hparse, ← hset .one, ← hset .two]
  unfold apctStarts
  rw [map_bind]
  refine bind_congr fun _ => ?_
  rw [map_bind]
  refine bind_congr fun version => ?_
  split
  · exact (map_setCounts ..).symm
  · split
    · exact (map_setCounts ..).symm
    · rfl

/-- The offsets of sets that stand one behind the other. -/
def setOffsets (version : ApctVersion) : Nat → List ApctSet → List Int
  | _, [] => []
  | offset, s :: sets =>
      offset :: setOffsets version (offset + (s.encode version).length) sets

/-- No set but the last one ends with a time condition, and behind this one the offset stays in the
range of `int`. -/
def Separated (len : Int) : List ApctSet → Prop
  | [] => True
  | s :: sets => if s.EndsTimed then sets = [] ∧ len + 12 ≤ intMax else Separated len sets

section Tables

variable {version : ApctVersion} {len : Int} {fuel n : Nat} {buf : Bytes}

/-- The loop over the sets. -/
abbrev setLoop (version : ApctVersion) (fuel n : Nat) (len : Int) (buf : Bytes)
    (starts : List Int) : Decoder (List Int) :=
  whileBelow n len (fun starts => do
    let start ← startedSet version fuel buf len
    pure (starts ++ [start])) starts

/-- Below the end of the table a pass begins. -/
theorem starts_extend {starts starts' : List Int} {c c' : Cursor} (hc : c.offset < len)
    (h : Returns (setLoop version fuel n len buf starts) c starts' c') :
    starts ++ [c.offset] <+: starts' := by
  have hinv := Returns.loop_invariant
    (I := fun s t => s = starts ∧ t = c ∨ starts ++ [c.offset] <+: s) ?_ (.inl ⟨rfl, rfl⟩) h
  · obtain ⟨⟨rfl, rfl⟩ | hprefix, hend⟩ := hinv
    · exact absurd hc (of_decide_eq_false hend)
    · exact hprefix
  · rintro s t s' t' hs - hbody
    obtain ⟨start, t₁, hstart, hpure⟩ := hbody.of_bind
    obtain ⟨rfl, rfl⟩ := hpure.of_pure
    right
    obtain ⟨rfl, rfl⟩ | hprefix := hs
    · unfold startedSet at hstart
      obtain ⟨t₂, t₃, hget, hstart⟩ := hstart.of_bind
      obtain ⟨-, t₄, -, hpure⟩ := hstart.of_bind
      obtain ⟨rfl, -⟩ := hpure.of_pure
      cases hget
      exact List.prefix_rfl
    · exact hprefix.trans (List.prefix_append _ _)

/-- A pass that begins somewhere else does not begin at a place. -/
theorem not_begun_at {starts more : List Int} {place : Int} {c c' : Cursor} (hc : c.offset < len)
    (hne : c.offset ≠ place) :
    ¬ Returns (setLoop version fuel n len buf starts) c (starts ++ place :: more) c' := by
  intro hret
  have hprefix := starts_extend hc hret
  rw [List.prefix_append_right_inj, List.cons_prefix_cons] at hprefix
  exact hne hprefix.1

/-- Behind a set at the end of the table that ends with a time condition the loop is done if the
place 12 bytes further is an `int`. If it is not, the offset is negative and another pass begins. -/
theorem end_jump_iff {starts : List Int} {c : Cursor} (hzero : 0 ≤ len) (hmax : len ≤ intMax)
    (hoffset : c.offset = int32 (len + 12)) {P : Cursor → Prop} (hP : P c) :
    (∃ c', Returns (setLoop version fuel n len buf starts) c starts c' ∧ P c') ↔
      len + 12 ≤ intMax := by
  constructor
  · rintro ⟨c', hret, -⟩
    by_contra hover
    have hneg : c.offset < len := by
      have hbound : intMax = 2147483647 := rfl
      rw [hoffset, int32_wrap (by omega) (by omega)]
      omega
    have hlong := (starts_extend hneg hret).length_le
    rw [List.length_append, List.length_singleton] at hlong
    omega
  · intro hroom
    have hdone : ¬ c.offset < len := by
      rw [hoffset, int32_eq_self (by omega) hroom]
      omega
    exact ⟨c, Returns.loop_done (decide_eq_false hdone), hP⟩

/-- The passes begin at the sets and read them exactly if the sets are separated. -/
theorem set_loop_iff (fuel : Nat) {sets : List ApctSet}
    (hcount : version = .one → ∀ s ∈ sets, s.count = 10)
    (hn : sets.length ≤ n) {before rest : Bytes} {c : Cursor}
    (hbuf : buf = before ++ sets.flatMap (ApctSet.encode version) ++ rest)
    (hoffset : c.offset = before.length)
    (hlen : (before.length + (sets.flatMap (ApctSet.encode version)).length : Int) = len)
    (hcur : c.gddv.gddvCurBufLen = len) (hmax : len ≤ intMax)
    (hfuel : (sets.flatMap (ApctSet.encode version)).length ≤ fuel) (starts : List Int) :
    (∃ c', Returns (setLoop version fuel n len buf starts) c
        (starts ++ setOffsets version before.length sets) c' ∧
      c'.gddv.conditions = c.gddv.conditions ++ sets.map (ApctSet.decoded version)) ↔
      Separated len sets := by
  induction sets generalizing before c starts n with
  | nil =>
      have hend : ¬ c.offset < len := by
        simp only [List.flatMap_nil, List.length_nil] at hlen
        omega
      simp only [Separated, iff_true, setOffsets, List.append_nil, List.map_nil]
      exact ⟨c, .loop_done (decide_eq_false hend), rfl⟩
  | cons s sets ih =>
      obtain ⟨n, rfl⟩ : ∃ m, n = m + 1 := ⟨n - 1, by simp at hn; omega⟩
      rw [List.flatMap_cons] at hbuf hlen hfuel
      rw [List.length_append] at hlen hfuel
      have hthis : buf = before ++ s.encode version ++
          (sets.flatMap (ApctSet.encode version) ++ rest) := by
        simp only [hbuf, List.append_assoc]
      have hpass := parse_set_returns fuel (fun h => hcount h s List.mem_cons_self) hthis hoffset
        (by omega) hcur hmax (by omega)
      obtain ⟨c₁, hc₁⟩ : ∃ c₁ : Cursor, c₁ =
          ⟨int32 ((before.length + (s.encode version).length : Nat) + s.jump),
            { c.gddv with conditions := c.gddv.conditions ++ [s.decoded version] }⟩ := ⟨_, rfl⟩
      rw [← hc₁] at hpass
      have hstarted : Returns (startedSet version fuel buf len) c before.length c₁ := by
        rw [← hoffset]
        exact (Returns.get c).bind (hpass.bind (.pure _ _))
      have hloop : setLoop version fuel (n + 1) len buf starts c =
          setLoop version fuel n len buf (starts ++ [(before.length : Int)]) c₁ := by
        refine Returns.loop_eq (decide_eq_true ?_) (hstarted.bind (.pure _ _))
        have hsize := s.length_encode version
        omega
      have hgddv : c₁.gddv.conditions = c.gddv.conditions ++ [s.decoded version] := by
        rw [hc₁]
      simp only [Returns, hloop, setOffsets, Separated, List.map_cons]
      by_cases htimed : s.EndsTimed
      · have hjump : s.jump = 12 := if_pos htimed
        rw [hjump] at hc₁
        rw [if_pos htimed]
        match sets with
        | [] =>
            have hend : ((before.length + (s.encode version).length : Nat) : Int) = len := by
              simp only [List.flatMap_nil, List.length_nil] at hlen
              omega
            rw [hend] at hc₁
            simp only [setOffsets, List.map_nil, true_and]
            exact end_jump_iff (by omega) hmax (by rw [hc₁]) hgddv
        | s' :: sets =>
            have hnext := s'.length_encode version
            rw [List.flatMap_cons, List.length_append] at hlen
            refine iff_of_false ?_ (fun h => List.cons_ne_nil _ _ h.1)
            rintro ⟨c', hret, -⟩
            -- the next pass begins 12 bytes behind the beginning of the next set
            have hplace : c₁.offset = (before.length + (s.encode version).length : Nat) + 12 := by
              rw [hc₁]
              exact int32_eq_self (by omega) (by omega)
            have hsplit (more : List Int) : starts ++ (before.length : Int) :: more =
                (starts ++ [(before.length : Int)]) ++ more := by
              rw [List.append_assoc, List.singleton_append]
            rw [hsplit (setOffsets version _ (s' :: sets))] at hret
            exact not_begun_at (by omega) (by omega) hret
      · have hjump : s.jump = 0 := if_neg htimed
        rw [hjump, int32_offset (by omega) hmax] at hc₁
        rw [if_neg htimed]
        have hothers : buf = (before ++ s.encode version) ++
            sets.flatMap (ApctSet.encode version) ++ rest := by
          simp only [hbuf, List.append_assoc]
        have hrest := ih (fun h s hs => hcount h s (List.mem_cons_of_mem _ hs)) (n := n)
          (by simpa using hn) (c := c₁) hothers (by rw [hc₁, List.length_append])
          (by rw [List.length_append]; omega) (by rw [hc₁]; exact hcur) (by omega)
          (starts ++ [(before.length : Int)])
        rw [List.length_append, hgddv] at hrest
        simp only [List.append_assoc, List.singleton_append] at hrest
        exact hrest

end Tables

/-- Only the last set may end with a time condition. -/
theorem separated_iff {len : Int} {sets : List ApctSet} :
    Separated len sets ↔ (∀ s ∈ sets.dropLast, ¬ s.EndsTimed) ∧
      ∀ s ∈ sets.getLast?, s.EndsTimed → len + 12 ≤ intMax := by
  induction sets with
  | nil => simp [Separated]
  | cons s sets ih =>
      unfold Separated
      match sets with
      | [] => simp [Separated]
      | s' :: sets =>
          rw [List.dropLast_cons_cons, List.forall_mem_cons, List.getLast?_cons_cons, and_assoc,
            ← ih]
          split
          · simp_all
          · simp_all

/-- The decoder gives the sets back, and each pass begins behind the set before it. -/
def ReadsBack (version : ApctVersion) (sets : List ApctSet) (fuel : Nat) (c : Cursor) : Prop :=
  ∃ c', Returns (apctStarts fuel (terminated (apctTable version sets))
      (apctTable version sets).length) c (setOffsets version 12 sets) c' ∧
    c'.gddv.conditions = c.gddv.conditions ++ sets.map (ApctSet.decoded version)

theorem length_apct_table (version : ApctVersion) (sets : List ApctSet) :
    (apctTable version sets).length = 12 + (sets.flatMap (ApctSet.encode version)).length := by
  rw [apctTable, List.length_append, length_uint_field]

/-- There are at most as many sets as bytes. -/
theorem sets_le_bytes (version : ApctVersion) (sets : List ApctSet) :
    sets.length ≤ (sets.flatMap (ApctSet.encode version)).length := by
  induction sets with
  | nil => exact le_rfl
  | cons s sets ih =>
      have hs := s.length_encode version
      rw [List.flatMap_cons, List.length_append, List.length_cons]
      omega

/-- Behind the version of the table the loop over its sets begins. -/
theorem apct_starts_run {version : ApctVersion} {sets : List ApctSet} {table : Bytes}
    (htable : table = apctTable version sets) (hlen : (table.length : Int) ≤ intMax) (fuel : Nat)
    (c : Cursor) :
    apctStarts fuel (terminated table) table.length c =
      setLoop version fuel fuel table.length (terminated table) []
        ⟨12, { c.gddv with gddvCurBufLen := table.length }⟩ := by
  have hsize := length_apct_table version sets
  rw [← htable] at hsize
  have hroom : (([] : Bytes).length + (uintField version.number).length : Int) ≤ table.length := by
    rw [length_uint_field, List.length_nil]
    omega
  have hversion : Returns (begin table.length >>= fun _ => getUint64 (terminated table)) c
      version.number ⟨12, { c.gddv with gddvCurBufLen := table.length }⟩ := by
    refine (Returns.modify _ c).bind ?_
    have hnumber : version.number < 2 ^ 64 := by cases version <;> decide
    have hread := (leads_uint_field hnumber) (terminated table) []
      (sets.flatMap (ApctSet.encode version) ++ [0])
      ⟨0, { c.gddv with gddvCurBufLen := table.length }⟩
      (by simp only [htable, terminated, apctTable, List.nil_append, List.append_assoc]) rfl hroom
      rfl hlen
    rw [int32_offset (by exact_mod_cast hroom) hlen,
      length_uint_field] at hread
    exact hread
  have hbind : apctStarts fuel (terminated table) table.length =
      (begin table.length >>= fun _ => getUint64 (terminated table)) >>= fun number =>
        if number = 1 then
          setCounts fuel table.length (startedSet .one fuel (terminated table) table.length)
        else if number = 2 then
          setCounts fuel table.length (startedSet .two fuel (terminated table) table.length)
        else throw .gddvException := by
    rw [bind_assoc]
    rfl
  rw [hbind, hversion.bind_eq]
  cases version <;> rfl

/-- A table is read back exactly if no set but the last one ends with a time condition, and if the
last one does, the offset behind it stays in the range of `int`. -/
theorem parse_apct_iff {version : ApctVersion} {sets : List ApctSet}
    (hcount : version = .one → ∀ s ∈ sets, s.count = 10)
    (hlen : ((apctTable version sets).length : Int) ≤ intMax) {fuel : Nat}
    (hfuel : (apctTable version sets).length ≤ fuel) (c : Cursor) :
    ReadsBack version sets fuel c ↔
      (∀ s ∈ sets.dropLast, ¬ s.EndsTimed) ∧
        ∀ s ∈ sets.getLast?, s.EndsTimed → (apctTable version sets).length + 12 ≤ intMax := by
  have hsize := length_apct_table version sets
  have hsets := sets_le_bytes version sets
  have hrun := apct_starts_run (rfl : apctTable version sets = _) hlen fuel c
  have hbuf : terminated (apctTable version sets) =
      uintField version.number ++ sets.flatMap (ApctSet.encode version) ++ [0] := rfl
  have hloop := set_loop_iff fuel (n := fuel) hcount (by omega)
    (c := ⟨12, { c.gddv with gddvCurBufLen := (apctTable version sets).length }⟩) hbuf
    (by rw [length_uint_field]; rfl) (by rw [length_uint_field, hsize]; rfl) rfl hlen (by omega) []
  rw [length_uint_field] at hloop
  simp only [Returns, List.nil_append, ← hrun] at hloop
  exact hloop.trans separated_iff

/-- A condition on the temperature of a sensor. -/
def warm : ApctCondition where
  condition := 17
  device := ascii "T"
  domain := 0
  comparison := 3
  argument := 3000
  condition_lt := by decide
  device_text := by decide
  domain_lt := by decide
  comparison_lt := by decide
  argument_ge := by decide
  argument_le := by decide

/-- For at least ten seconds. -/
def tenSeconds : ApctTime where
  condition := 17
  device := ascii "T"
  domain := 0
  comparison := 3
  time := 10
  condition_lt := by decide
  domain_lt := by decide
  comparison_lt := by decide
  time_ge := by decide
  time_le := by decide

/-- A set of one condition that holds for some time. -/
def warmForLong : ApctSet where
  target := 1
  others := []
  last := ⟨warm, some tenSeconds⟩
  target_ge := by decide
  target_le := by decide
  target_ne := by decide

/-- A set of such a condition and another one. -/
def warmForLongAnd : ApctSet where
  target := 1
  others := [(⟨warm, some tenSeconds⟩, ⟨1, by decide, by decide⟩)]
  last := ⟨warm, none⟩
  target_ge := by decide
  target_le := by decide
  target_ne := by decide

/-- Behind a set that ends with a time condition the next set is misread, and the whole table is
rejected. -/
theorem timed_set_misread :
    ¬ ReadsBack .two [warmForLong, warmForLong] 400 ⟨0, init⟩ ∧
      ∃ c', parseApct 400 (terminated (apctTable .two [warmForLong, warmForLong]))
        (apctTable .two [warmForLong, warmForLong]).length ⟨0, init⟩ =
          .error .gddvException c' := by
  have hthrow : ∃ c', parseApct 400 (terminated (apctTable .two [warmForLong, warmForLong]))
      (apctTable .two [warmForLong, warmForLong]).length ⟨0, init⟩ = .error .gddvException c' := by
    have hrun : (match parseApct 400 (terminated (apctTable .two [warmForLong, warmForLong]))
        (apctTable .two [warmForLong, warmForLong]).length ⟨0, init⟩ with
        | .error e _ => decide (e = .gddvException)
        | .ok _ _ => false) = true := by
      decide +kernel
    split at hrun
    · rename_i e c' heq
      rw [of_decide_eq_true hrun] at heq
      exact ⟨c', heq⟩
    · cases hrun
  refine ⟨?_, hthrow⟩
  obtain ⟨c', hthrow⟩ := hthrow
  rintro ⟨c'', hret, -⟩
  have hparse := hret.map (g := fun _ => (0 : Int))
  rw [← parse_apct_eq_starts, Returns, hthrow] at hparse
  cases hparse

/-- Within a set a time condition does not disturb what follows. -/
theorem timed_condition_read :
    ReadsBack .two [warmForLongAnd, warmForLong] 500 ⟨0, init⟩ := by
  have hlen : (apctTable .two [warmForLongAnd, warmForLong]).length = 406 := by
    decide +kernel
  have hcount : ApctVersion.two = .one → ∀ s ∈ [warmForLongAnd, warmForLong], s.count = 10 := nofun
  have hmax : ((apctTable .two [warmForLongAnd, warmForLong]).length : Int) ≤ intMax := by
    rw [hlen]
    decide
  have hfuel : (apctTable .two [warmForLongAnd, warmForLong]).length ≤ 500 := by
    rw [hlen]
    decide
  rw [parse_apct_iff hcount hmax hfuel ⟨0, init⟩, hlen]
  exact ⟨by decide, fun _ _ _ => by decide⟩

end Thermald.Gddv
