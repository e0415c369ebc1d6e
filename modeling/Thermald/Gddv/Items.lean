import Thermald.Gddv.DecoderSafety
import Thermald.Gddv.MoreFuel
import Thermald.Gddv.Steps
import Thermald.Lib.Returns

/-!
# The items of a vault

How an item, a key with its value, is written, and what the parser makes of it:
`parse_gddv_key_item` follows one call of `parse_gddv_key` on an item, and `loop_items` the item
loop through items that stand one after the other. Both versions of the format are instances of a
layout, which says what stands before an item.
-/

namespace Thermald.Gddv

/-! ## Encoding -/

/-- A key with its value. -/
structure Item where
  flags : Nat
  key : Bytes
  type : Nat
  val : Bytes

/-- The bytes that `parse_gddv_key` gets. -/
def Item.body (it : Item) : Bytes :=
  toLittleEndian 4 it.flags ++ toLittleEndian 4 it.key.length ++ it.key ++
    toLittleEndian 4 it.type ++ toLittleEndian 4 it.val.length ++ it.val

/-- The item with its signature. -/
def Item.encode (it : Item) : Bytes := toLittleEndian 2 keysSignature ++ it.body

theorem Item.length_body (it : Item) : it.body.length = 16 + it.key.length + it.val.length := by
  simp only [Item.body, List.length_append, length_to_little_endian]
  omega

/-- The tables after the value of a key has been decoded, if the decoders accept it. -/
def decodedTables (fuel : Nat) (it : Item) (g : Gddv) : Option Gddv :=
  match dispatch fuel it.key it.val ⟨g, []⟩ with
  | .ok _ v => some v.gddv
  | .error _ _ => none

/-! ## Fields -/

/-- Record an event. -/
def record (v : Vault) (e : Event) : Vault := { v with trace := v.trace ++ [e] }

theorem log_returns (e : Event) (v : Vault) : Returns (log e) v () (record v e) := rfl

theorem allocate_returns {env : Env} {n : Nat} (h : env.alloc n = true) (v : Vault) :
    Returns (allocate env n) v () v := by
  unfold allocate
  rw [if_pos h]
  rfl

theorem allocate_fails {env : Env} {n : Nat} (h : ¬ env.alloc n = true) (v : Vault) :
    Fails (allocate env n) v := by
  unfold allocate
  rw [if_neg h]
  exact .throw _ _

section Fields

variable {buf a b c : Bytes} {base size i : Int} {n : Nat}

/-- A field of the buffer is copied. -/
theorem fetch_returns (h : buf = a ++ b ++ c) (hi : base + i = a.length) (hn : n = b.length)
    (v : Vault) : Returns (fetch buf base size i n) v b (record v (.read i n size)) := by
  have hread : (readBytes buf (base + i) n : Parser Bytes) = pure b := by
    rw [(in_bounds_middle h hi hn).read_bytes, slice_middle h hi hn]
  unfold fetch
  rw [hread]
  rfl

/-- A number in the buffer is read. -/
theorem fetch_uint_returns {value : Nat} (h : buf = a ++ toLittleEndian n value ++ c)
    (hi : base + i = a.length) (v : Vault) :
    Returns (fetchUint buf base size i n) v (value % 256 ^ n) (record v (.read i n size)) := by
  have hfetch : Returns (fetch buf base size i n) v (toLittleEndian n value)
      (record v (.read i n size)) :=
    fetch_returns h hi (length_to_little_endian n value).symm v
  rw [← little_endian_of_value]
  exact hfetch.map

end Fields

/-- The event is a call of `parse_gddv_key`. -/
def Event.isKey : Event → Bool
  | .key .. => true
  | _ => false

/-- The calls of `parse_gddv_key` in a trace. -/
def keyCalls (t : List Event) : List Event := t.filter Event.isKey

@[simp] theorem key_calls_append (t t' : List Event) :
    keyCalls (t ++ t') = keyCalls t ++ keyCalls t' :=
  List.filter_append ..

@[simp] theorem key_calls_record (v : Vault) (e : Event) :
    keyCalls (record v e).trace = keyCalls v.trace ++ keyCalls [e] :=
  key_calls_append ..

@[simp] theorem record_gddv (v : Vault) (e : Event) : (record v e).gddv = v.gddv := rfl

/-- The value of a key is accepted by the decoders. -/
theorem recorded_dispatch_returns {fuel : Nat} {it : Item} {v : Vault} {g : Gddv}
    (h : decodedTables fuel it v.gddv = some g) :
    Returns (recordedDispatch fuel it.key it.val) v ()
      ⟨g, (record v (.dispatch v.gddv it.key it.val)).trace⟩ := by
  obtain ⟨hfinal, hstop⟩ := dispatch_trace fuel it.key it.val v.gddv
    (record v (.dispatch v.gddv it.key it.val)).trace
  show dispatch fuel it.key it.val ⟨v.gddv, (record v (.dispatch v.gddv it.key it.val)).trace⟩ = _
  unfold decodedTables at h
  cases hnil : dispatch fuel it.key it.val ⟨v.gddv, []⟩ with
  | ok _ v' =>
      rw [hnil] at h hfinal hstop
      cases hrun : dispatch fuel it.key it.val
        ⟨v.gddv, (record v (.dispatch v.gddv it.key it.val)).trace⟩ with
      | ok _ v'' =>
          rw [hrun] at hfinal
          cases hfinal
          cases h
          rfl
      | error e v'' =>
          rw [hrun] at hstop
          cases hstop
  | error e v' =>
      rw [hnil] at h
      cases h

theorem recorded_dispatch_fails {fuel : Nat} {it : Item} {v : Vault}
    (h : decodedTables fuel it v.gddv = none) :
    Fails (recordedDispatch fuel it.key it.val) v := by
  obtain ⟨-, hstop⟩ := dispatch_trace fuel it.key it.val v.gddv
    (record v (.dispatch v.gddv it.key it.val)).trace
  show ∃ e v', dispatch fuel it.key it.val
    ⟨v.gddv, (record v (.dispatch v.gddv it.key it.val)).trace⟩ = .error e v'
  unfold decodedTables at h
  cases hnil : dispatch fuel it.key it.val ⟨v.gddv, []⟩ with
  | ok _ v' =>
      rw [hnil] at h
      cases h
  | error e v' =>
      rw [hnil] at hstop
      cases hrun : dispatch fuel it.key it.val
        ⟨v.gddv, (record v (.dispatch v.gddv it.key it.val)).trace⟩ with
      | ok _ v'' =>
          rw [hrun] at hstop
          cases hstop
      | error e' v'' => exact ⟨e', v'', rfl⟩

/-! ## Keys -/

section Keys

variable (env : Env) {fuel : Nat} {buf before rest : Bytes} {it : Item} {size : Int}
  (hbuf : buf = before ++ it.body ++ rest) (hmax : (buf.length : Int) ≤ intMax)
  (hsize : before.length + size = buf.length) {v : Vault}

/-- The tables after an item, if its key is not empty, there is memory for copies of the key and of
the value, and the decoders accept the value. -/
def acceptedTables (env : Env) (fuel : Nat) (it : Item) (g : Gddv) : Option Gddv :=
  if it.key ≠ [] ∧ env.alloc (it.key.length + 1) = true ∧ env.alloc (it.val.length + 1) = true then
    decodedTables fuel it g
  else none

include hbuf hmax hsize

/-- The sizes of an item and of the buffer. -/
theorem item_sizes : size = it.body.length + rest.length ∧
    (16 + it.key.length + it.val.length + rest.length : Int) ≤ 2147483647 ∧
    it.body.length = 16 + it.key.length + it.val.length := by
  have hlen := it.length_body
  have htotal : buf.length = before.length + it.body.length + rest.length := by
    simp only [hbuf, List.length_append]
  simp only [intMax] at hmax
  omega

/-- Behind the key of an item, the value goes to the decoders if there is memory for it. -/
theorem parse_gddv_value_item :
    (env.alloc (it.val.length + 1) = true →
      ∃ v', v'.gddv = v.gddv ∧ keyCalls v'.trace = keyCalls v.trace ∧
        parseGddvValue env fuel buf before.length size it.key (8 + it.key.length) v =
          (recordedDispatch fuel it.key it.val >>= fun _ =>
            pure (gddvSuccess, (it.body.length : Int))) v') ∧
    (¬ env.alloc (it.val.length + 1) = true →
      Fails (parseGddvValue env fuel buf before.length size it.key (8 + it.key.length)) v) := by
  obtain ⟨hsum, hle, hlen⟩ := item_sizes hbuf hmax hsize
  have htype : ∀ v, Returns (fetchUint buf before.length size (8 + it.key.length) 4) v
      (it.type % 256 ^ 4) (record v (.read (8 + it.key.length) (4 : Nat) size)) := by
    refine fetch_uint_returns (a := before ++ toLittleEndian 4 it.flags ++
      toLittleEndian 4 it.key.length ++ it.key)
      (c := toLittleEndian 4 it.val.length ++ it.val ++ rest) ?_ ?_
    · simp only [hbuf, Item.body, List.append_assoc]
    · simp only [List.length_append, length_to_little_endian]
      omega
  have hlength : ∀ v, Returns (fetchUint buf before.length size (8 + it.key.length + 4) 4) v
      (it.val.length % 256 ^ 4) (record v (.read (8 + it.key.length + 4) (4 : Nat) size)) := by
    refine fetch_uint_returns (a := before ++ toLittleEndian 4 it.flags ++
      toLittleEndian 4 it.key.length ++ it.key ++ toLittleEndian 4 it.type)
      (c := it.val ++ rest) ?_ ?_
    · simp only [hbuf, Item.body, List.append_assoc]
    · simp only [List.length_append, length_to_little_endian]
      omega
  have hval : ∀ v,
      Returns (fetch buf before.length size (8 + it.key.length + 4 + 4) it.val.length) v it.val
      (record v (.read (8 + it.key.length + 4 + 4) it.val.length size)) := by
    refine fetch_returns (a := before ++ toLittleEndian 4 it.flags ++
      toLittleEndian 4 it.key.length ++ it.key ++ toLittleEndian 4 it.type ++
      toLittleEndian 4 it.val.length) (c := rest) ?_ ?_ rfl
    · simp only [hbuf, Item.body, List.append_assoc]
    · simp only [List.length_append, length_to_little_endian]
      omega
  have hmod : it.val.length % 256 ^ 4 = it.val.length := Nat.mod_eq_of_lt (by omega)
  have hint : ∀ x : Int, 0 ≤ x → x ≤ 2147483647 → int32 x = x := fun x h0 hx =>
    int32_eq_self (by omega) hx
  unfold parseGddvValue Fails
  rw [hint (8 + it.key.length + 8) (by omega) (by omega), if_neg (by omega)]
  rw [(log_returns _ _).bind_eq, (htype _).bind_eq]
  rw [hint (8 + it.key.length + 4) (by omega) (by omega)]
  dsimp only
  rw [(hlength _).bind_eq, hmod, hint (8 + it.key.length + 4 + 4) (by omega) (by omega)]
  rw [hint (8 + it.key.length + 4 + 4 + it.val.length) (by omega) (by omega)]
  rw [if_neg (by simp only [intMax]; omega), (log_returns _ _).bind_eq]
  refine ⟨fun hfits => ?_, fun hfits => (allocate_fails hfits _).bind⟩
  have hend : (8 + it.key.length + 4 + 4 + it.val.length : Int) = it.body.length := by omega
  rw [(allocate_returns hfits _).bind_eq, (hval _).bind_eq, hend]
  refine ⟨_, ?_, ?_, rfl⟩
  · simp only [record_gddv]
  · simp only [key_calls_record]
    simp [keyCalls, Event.isKey]

/-- A call of `parse_gddv_key` on an item returns the length of the item if the item is accepted,
and fails otherwise. -/
theorem parse_gddv_key_item :
    (∀ g, acceptedTables env fuel it v.gddv = some g →
      ∃ t, keyCalls t = keyCalls v.trace ++ [.key buf before.length size] ∧
        Returns (parseGddvKey env fuel buf before.length size) v
          (gddvSuccess, (it.body.length : Int)) ⟨g, t⟩) ∧
    (acceptedTables env fuel it v.gddv = none →
      Fails (parseGddvKey env fuel buf before.length size) v) := by
  obtain ⟨hsum, hle, hlen⟩ := item_sizes hbuf hmax hsize
  have hflags : ∀ v, Returns (fetchUint buf before.length size 0 4) v
      (it.flags % 256 ^ 4) (record v (.read 0 (4 : Nat) size)) := by
    refine fetch_uint_returns (a := before) (c := toLittleEndian 4 it.key.length ++ it.key ++
      toLittleEndian 4 it.type ++ toLittleEndian 4 it.val.length ++ it.val ++ rest) ?_ ?_
    · simp only [hbuf, Item.body, List.append_assoc]
    · omega
  have hlength : ∀ v, Returns (fetchUint buf before.length size 4 4) v
      (it.key.length % 256 ^ 4) (record v (.read 4 (4 : Nat) size)) := by
    refine fetch_uint_returns (a := before ++ toLittleEndian 4 it.flags) (c := it.key ++
      toLittleEndian 4 it.type ++ toLittleEndian 4 it.val.length ++ it.val ++ rest) ?_ ?_
    · simp only [hbuf, Item.body, List.append_assoc]
    · simp only [List.length_append, length_to_little_endian]
      omega
  have hkey : ∀ v, Returns (fetch buf before.length size 8 it.key.length) v
      it.key (record v (.read 8 it.key.length size)) := by
    refine fetch_returns (a := before ++ toLittleEndian 4 it.flags ++
      toLittleEndian 4 it.key.length) (c := toLittleEndian 4 it.type ++
      toLittleEndian 4 it.val.length ++ it.val ++ rest) ?_ ?_ rfl
    · simp only [hbuf, Item.body, List.append_assoc]
    · simp only [List.length_append, length_to_little_endian]
      omega
  have hmod : it.key.length % 256 ^ 4 = it.key.length := Nat.mod_eq_of_lt (by omega)
  have hint : int32 (8 + it.key.length) = 8 + it.key.length :=
    int32_eq_self (by omega) (by simp only [intMax]; omega)
  unfold parseGddvKey Returns Fails
  rw [(log_returns _ _).bind_eq, if_neg (by omega), (hflags _).bind_eq, (hlength _).bind_eq, hmod]
  rw [hint]
  by_cases hempty : it.key = []
  · have hnone : acceptedTables env fuel it v.gddv = none := if_neg fun h => h.1 hempty
    rw [hnone, if_pos (.inl (by rw [hempty]; rfl))]
    exact ⟨nofun, fun _ => Fails.throw _ _⟩
  have hpos : 0 < it.key.length := List.length_pos_iff.2 hempty
  rw [if_neg (by simp only [intMax]; omega), (log_returns _ _).bind_eq]
  by_cases hfits : env.alloc (it.key.length + 1) = true
  · rw [(allocate_returns hfits _).bind_eq, (hkey _).bind_eq]
    generalize hrec : record (record (record (record (record v _) _) _) _) _ = v₁
    have htables : v₁.gddv = v.gddv := by
      rw [← hrec]
      rfl
    have hcalls : keyCalls v₁.trace = keyCalls v.trace ++ [.key buf before.length size] := by
      rw [← hrec]
      simp only [key_calls_record]
      simp [keyCalls, Event.isKey]
    obtain ⟨hok, hbad⟩ := @parse_gddv_value_item env fuel _ _ _ _ _ hbuf hmax hsize v₁
    by_cases hfits' : env.alloc (it.val.length + 1) = true
    · have haccepted : acceptedTables env fuel it v.gddv = decodedTables fuel it v₁.gddv := by
        rw [htables]
        exact if_pos ⟨hempty, hfits, hfits'⟩
      obtain ⟨v₂, htables', hcalls', hrun⟩ := hok hfits'
      rw [haccepted, hrun, ← htables']
      refine ⟨fun g hg => ⟨_, ?_, (recorded_dispatch_returns hg).bind (.pure _ _)⟩, fun hnone =>
        (recorded_dispatch_fails hnone).bind⟩
      rw [key_calls_record, hcalls', hcalls]
      simp [keyCalls, Event.isKey]
    · have hnone : acceptedTables env fuel it v.gddv = none := if_neg fun h => hfits' h.2.2
      rw [hnone]
      exact ⟨nofun, fun _ => hbad hfits'⟩
  · have hnone : acceptedTables env fuel it v.gddv = none := if_neg fun h => hfits h.2.1
    rw [hnone]
    exact ⟨nofun, fun _ => (allocate_fails hfits _).bind⟩

end Keys

/-! ## The item loop -/

/-- How the items of a repository are written: with a signature in version 2. -/
structure Layout where
  major : Nat
  headersize : Nat
  lead : Bytes

/-- An item in a layout. -/
def Layout.encode (l : Layout) (it : Item) : Bytes := l.lead ++ it.body

/-- The items one after the other. -/
def Layout.encodeAll (l : Layout) (its : List Item) : Bytes := its.flatMap l.encode

/-- The calls of `parse_gddv_key` that hand over the items from an offset on, one for each and in
their order. -/
def Layout.handOvers (l : Layout) (buf : Bytes) : Nat → List Item → List Event
  | _, [] => []
  | offset, it :: rest =>
    .key buf (offset + l.lead.length : Nat) (buf.length - (offset + l.lead.length : Nat)) ::
      l.handOvers buf (offset + (l.encode it).length) rest

/-- The tables after items, if all of them are accepted. -/
def acceptedAll (env : Env) (fuel : Nat) : List Item → Gddv → Option Gddv
  | [], g => some g
  | it :: rest, g => (acceptedTables env fuel it g).bind (acceptedAll env fuel rest)

/-- Wherever the loop stands in the items, more bytes are left than the header has. -/
def Layout.LongTails (l : Layout) : List Item → Prop
  | [] => True
  | it :: rest => l.headersize < (l.encodeAll (it :: rest)).length ∧ l.LongTails rest

/-- The parser hands an item over and steps over it, or fails if the item is not accepted; and it
fails behind the last item. -/
structure Layout.Sound (l : Layout) (env : Env) (fuel : Nat)
    (nested : Bytes → Int → Parser (Int × Int)) (buf : Bytes) : Prop where
  ok : ∀ before it rest v g, buf = before ++ l.encode it ++ rest →
    acceptedTables env fuel it v.gddv = some g →
    ∃ t, keyCalls t = keyCalls v.trace ++
        [.key buf (before.length + l.lead.length : Nat)
          (buf.length - (before.length + l.lead.length : Nat))] ∧
      Returns (parseItem env fuel nested l.major buf buf.length ⟨before.length, none⟩) v
        ⟨(before.length + (l.encode it).length : Nat), none⟩ ⟨g, t⟩
  bad : ∀ before it rest v, buf = before ++ l.encode it ++ rest →
    acceptedTables env fuel it v.gddv = none →
    Fails (parseItem env fuel nested l.major buf buf.length ⟨before.length, none⟩) v
  atEnd : ∀ v, Fails (parseItem env fuel nested l.major buf buf.length ⟨buf.length, none⟩) v

section Loop

variable {l : Layout} {env : Env} {fuel : Nat} {nested : Bytes → Int → Parser (Int × Int)}
  {buf : Bytes} (hsound : l.Sound env fuel nested buf) (hmax : (buf.length : Int) ≤ intMax)
  (hheader : l.headersize < 65536)

/-- The item loop of a layout, with some fuel for itself. -/
def Layout.loop (l : Layout) (env : Env) (fuel : Nat) (nested : Bytes → Int → Parser (Int × Int))
    (buf : Bytes) (left offset : Nat) : Parser Walk :=
  loopM .outOfFuel (fun (w : Walk) _ => w.goesOn l.headersize buf.length)
    (parseItem env fuel nested l.major buf buf.length) left ⟨offset, none⟩

/-- What the loop makes of items from an offset on. It ends at an offset with all of them handed
over if and only if all are accepted, the items are long enough, and the sum of the offset and the
size of the header does not overflow. If it ends, it is at an offset, and with all items handed over
the tables are those of the items. -/
def Layout.HandsOver (l : Layout) (env : Env) (fuel : Nat)
    (nested : Bytes → Int → Parser (Int × Int)) (buf : Bytes) (left offset : Nat)
    (its : List Item) (v : Vault) : Prop :=
  ((∃ w v', Returns (l.loop env fuel nested buf left offset) v w v' ∧
      keyCalls v'.trace = keyCalls v.trace ++ l.handOvers buf offset its) ↔
    (acceptedAll env fuel its v.gddv).isSome ∧ l.LongTails its ∧
      ((buf.length + l.headersize : Nat) : Int) ≤ intMax) ∧
  ∀ w v', Returns (l.loop env fuel nested buf left offset) v w v' → w.ret = none ∧
    (keyCalls v'.trace = keyCalls v.trace ++ l.handOvers buf offset its →
      acceptedAll env fuel its v.gddv = some v'.gddv)

/-- A loop that fails, where one of the conditions is missing. -/
theorem Layout.HandsOver.of_fails {left offset : Nat} {its : List Item} {v : Vault}
    (hfails : Fails (l.loop env fuel nested buf left offset) v)
    (hno : ¬ ((acceptedAll env fuel its v.gddv).isSome ∧ l.LongTails its ∧
      ((buf.length + l.headersize : Nat) : Int) ≤ intMax)) :
    l.HandsOver env fuel nested buf left offset its v := by
  refine ⟨iff_of_false ?_ hno, fun w v' h => absurd h hfails.not_returns⟩
  intro hex
  obtain ⟨w, v', h, -⟩ := hex
  exact hfails.not_returns h

/-- A loop that stops before the items, which are then too short. -/
theorem Layout.HandsOver.of_stops {left offset : Nat} {it : Item} {rest : List Item} {v : Vault}
    (hdone : Returns (l.loop env fuel nested buf left offset) v ⟨offset, none⟩ v)
    (hshort : ¬ l.headersize < (l.encodeAll (it :: rest)).length) :
    l.HandsOver env fuel nested buf left offset (it :: rest) v := by
  have hmissing : keyCalls v.trace ≠
      keyCalls v.trace ++ l.handOvers buf offset (it :: rest) := by
    intro hcalls
    have hnil := congrArg List.length hcalls
    simp [Layout.handOvers] at hnil
  refine ⟨iff_of_false ?_ fun h => hshort h.2.1.1, fun w v' h => ?_⟩
  · intro hex
    obtain ⟨w, v', h, hcalls⟩ := hex
    obtain ⟨-, rfl⟩ := hdone.unique h
    exact hmissing hcalls
  · obtain ⟨rfl, rfl⟩ := hdone.unique h
    exact ⟨rfl, fun hcalls => absurd hcalls hmissing⟩

/-- A loop that hands an item over, which is accepted, and goes on. -/
theorem Layout.HandsOver.of_step {left offset : Nat} {it : Item} {rest : List Item} {v : Vault}
    {g : Gddv} {t : List Event} (haccepted : acceptedTables env fuel it v.gddv = some g)
    (hcalls : keyCalls t = keyCalls v.trace ++
      [.key buf (offset + l.lead.length : Nat) (buf.length - (offset + l.lead.length : Nat))])
    (hloop : l.loop env fuel nested buf (left + 1) offset v =
      l.loop env fuel nested buf left (offset + (l.encode it).length) ⟨g, t⟩)
    (hlong : ((buf.length + l.headersize : Nat) : Int) ≤ intMax →
      l.headersize < (l.encodeAll (it :: rest)).length)
    (h : l.HandsOver env fuel nested buf left (offset + (l.encode it).length) rest ⟨g, t⟩) :
    l.HandsOver env fuel nested buf (left + 1) offset (it :: rest) v := by
  obtain ⟨hiff, hret⟩ := h
  have hrest : acceptedAll env fuel (it :: rest) v.gddv = acceptedAll env fuel rest g := by
    rw [acceptedAll, haccepted]
    rfl
  have hevents : ∀ t', keyCalls t' = keyCalls v.trace ++ l.handOvers buf offset (it :: rest) ↔
      keyCalls t' = keyCalls t ++ l.handOvers buf (offset + (l.encode it).length) rest := by
    intro t'
    rw [hcalls, List.append_assoc]
    rfl
  simp only [Layout.HandsOver, Returns, hloop, hevents, hrest]
  refine ⟨hiff.trans (and_congr_right fun _ => ?_), hret⟩
  exact ⟨fun h => ⟨⟨hlong h.2, h.1⟩, h.2⟩, fun h => ⟨h.1.2, h.2⟩⟩

include hheader

omit hsound hmax in
/-- When the loop goes on at an offset of the buffer. -/
theorem goes_on_iff {offset : Nat} (hle : (offset : Int) ≤ intMax) :
    (⟨offset, none⟩ : Walk).goesOn l.headersize buf.length = true ↔
      (intMax < (offset + l.headersize : Nat) ∨ offset + l.headersize < buf.length) := by
  simp only [Walk.goesOn, Option.isNone_none, Bool.true_and, decide_eq_true_eq]
  simp only [intMax] at hle ⊢
  unfold int32
  omega

include hsound hmax

/-- Behind the last item the loop ends, unless the sum overflows. -/
theorem loop_behind_items (left : Nat) (v : Vault) :
    l.HandsOver env fuel nested buf (left + 1) buf.length [] v := by
  have hgo : (⟨buf.length, none⟩ : Walk).goesOn l.headersize buf.length = true ↔
      (intMax < (buf.length + l.headersize : Nat) ∨ buf.length + l.headersize < buf.length) :=
    goes_on_iff hheader hmax
  by_cases hsum : intMax < (buf.length + l.headersize : Nat)
  · -- the sum is negative, and the loop goes on behind the last item
    exact .of_fails (Fails.loop_step (hgo.2 (.inl hsum)) (hsound.atEnd v))
      fun h => absurd hsum (not_lt.2 h.2.2)
  · have hdone : Returns (l.loop env fuel nested buf (left + 1) buf.length) v
        ⟨buf.length, none⟩ v := by
      refine .loop_done (Bool.eq_false_iff.2 fun hc => ?_)
      have := hgo.1 hc
      omega
    refine ⟨iff_of_true ⟨_, v, hdone, (List.append_nil _).symm⟩
      ⟨rfl, trivial, not_lt.1 hsum⟩, ?_⟩
    intro w v' h
    obtain ⟨rfl, rfl⟩ := hdone.unique h
    exact ⟨rfl, fun _ => rfl⟩

/-- The loop over the items of a buffer, by induction on the items. -/
theorem loop_items (its : List Item) {before : Bytes} (hbuf : buf = before ++ l.encodeAll its)
    {left : Nat} (hleft : its.length < left) (v : Vault) :
    l.HandsOver env fuel nested buf left before.length its v := by
  induction its generalizing before v left with
  | nil =>
      obtain ⟨left, rfl⟩ : ∃ n, left = n + 1 := ⟨left - 1, by omega⟩
      obtain rfl : before = buf := by
        rw [hbuf]
        exact (List.append_nil _).symm
      exact loop_behind_items hsound hmax hheader left v
  | cons it rest ih =>
      obtain ⟨left, rfl⟩ : ∃ n, left = n + 1 := ⟨left - 1, by omega⟩
      have hsplit : buf = before ++ l.encode it ++ l.encodeAll rest := by
        rw [hbuf, List.append_assoc]
        rfl
      have hlen : buf.length = before.length + (l.encodeAll (it :: rest)).length := by
        rw [hbuf, List.length_append]
      have hgo : (⟨before.length, none⟩ : Walk).goesOn l.headersize buf.length = true ↔
          (intMax < (before.length + l.headersize : Nat) ∨
            before.length + l.headersize < buf.length) := by
        refine goes_on_iff hheader ?_
        simp only [intMax] at hmax ⊢
        omega
      by_cases hc : (⟨before.length, none⟩ : Walk).goesOn l.headersize buf.length = true
      · cases haccepted : acceptedTables env fuel it v.gddv with
        | none =>
            have hnone : acceptedAll env fuel (it :: rest) v.gddv = none := by
              rw [acceptedAll, haccepted]
              rfl
            refine .of_fails (Fails.loop_step hc (hsound.bad before it _ v hsplit haccepted)) ?_
            intro h
            rw [hnone] at h
            cases h.1
        | some g =>
            obtain ⟨t, hcalls, hstep⟩ := hsound.ok before it _ v g hsplit haccepted
            have hnext := ih hsplit (show rest.length < left by simpa using hleft) ⟨g, t⟩
            rw [List.length_append] at hnext
            refine .of_step haccepted hcalls (Returns.loop_eq hc hstep) (fun hfits => ?_) hnext
            -- without an overflow, that the loop goes on says that the rest is long enough
            have hlong := hgo.1 hc
            simp only [intMax] at hfits hlong
            omega
      · refine .of_stops (.loop_done (Bool.eq_false_iff.2 hc)) fun hlong => ?_
        exact hc (hgo.2 (.inr (by omega)))

end Loop

/-! ## Versions -/

section Versions

variable (env : Env) (fuel : Nat) (nested : Bytes → Int → Parser (Int × Int)) {buf : Bytes}
  (hmax : (buf.length : Int) ≤ intMax)

/-- The layout of version 1. -/
def layoutOne (headersize : Nat) : Layout := ⟨1, headersize, []⟩

/-- The layout of version 2. -/
def layoutTwo (headersize : Nat) : Layout := ⟨2, headersize, toLittleEndian 2 keysSignature⟩

include hmax

/-- The call of `parse_gddv_key` in an iteration. -/
theorem key_call_returns {before rest : Bytes} {it : Item} (hbuf : buf = before ++ it.body ++ rest)
    (v : Vault) :
    (∀ g, acceptedTables env fuel it v.gddv = some g →
      ∃ t, keyCalls t = keyCalls v.trace ++ [.key buf before.length (buf.length - before.length)] ∧
        Returns (parseGddvKey env fuel buf before.length (int32 (buf.length - before.length)) >>=
            fun r => pure (Walk.next before.length r)) v
          ⟨(before.length + it.body.length : Nat), none⟩ ⟨g, t⟩) ∧
    (acceptedTables env fuel it v.gddv = none →
      Fails (parseGddvKey env fuel buf before.length (int32 (buf.length - before.length)) >>=
        fun r => pure (Walk.next before.length r)) v) := by
  have hlen : buf.length = before.length + it.body.length + rest.length := by
    simp only [hbuf, List.length_append]
  have hint : int32 (buf.length - before.length) = buf.length - before.length := by
    simp only [intMax] at hmax
    exact int32_eq_self (by omega) (by simp only [intMax]; omega)
  rw [hint]
  obtain ⟨hok, hbad⟩ := @parse_gddv_key_item env fuel _ _ _ _ (buf.length - before.length) hbuf hmax
    (by omega) v
  refine ⟨fun g hg => ?_, fun hnone => (hbad hnone).bind⟩
  obtain ⟨t, hcalls, hret⟩ := hok g hg
  have hnext : Walk.next before.length (gddvSuccess, (it.body.length : Int)) =
      ⟨(before.length + it.body.length : Nat), none⟩ := by
    simp only [intMax] at hmax
    rw [Walk.next, if_neg (by simp), int32_eq_self (by omega) (by simp only [intMax]; omega)]
    rfl
  exact ⟨t, hcalls, hret.bind (congrArg (EStateM.Result.ok · _) hnext)⟩

theorem layout_one_sound (headersize : Nat) :
    (layoutOne headersize).Sound env fuel nested buf := by
  have hitem : ∀ (before : Nat) v, parseItem env fuel nested 1 buf buf.length ⟨before, none⟩ v =
      (parseGddvKey env fuel buf before (int32 (buf.length - before)) >>= fun r =>
        pure (Walk.next before r)) (record v (.item buf buf.length before)) := by
    intro before v
    unfold parseItem
    rw [(log_returns _ _).bind_eq, if_neg (by decide)]
  refine ⟨fun before it rest v g hbuf hg => ?_, fun before it rest v hbuf hnone => ?_, fun v => ?_⟩
  · obtain ⟨t, hcalls, hret⟩ := (key_call_returns env fuel hmax hbuf
      (record v (.item buf buf.length before.length))).1 g hg
    have hnone : keyCalls [.item buf buf.length before.length] = [] := rfl
    rw [key_calls_record, hnone, List.append_nil] at hcalls
    exact ⟨t, hcalls, (hitem before.length v).trans hret⟩
  · obtain ⟨e, v', hfails⟩ := (key_call_returns env fuel hmax hbuf
      (record v (.item buf buf.length before.length))).2 hnone
    exact ⟨e, v', (hitem before.length v).trans hfails⟩
  · have hshort : ∀ v, Fails (parseGddvKey env fuel buf buf.length (int32 0)) v := by
      intro v
      unfold parseGddvKey
      exact (log_returns _ v).bind_fails (.throw _ _)
    show ∃ e v', parseItem env fuel nested 1 buf buf.length ⟨buf.length, none⟩ v = .error e v'
    rw [hitem buf.length v, Int.sub_self]
    exact (hshort _).bind

theorem layout_two_sound (headersize : Nat) :
    (layoutTwo headersize).Sound env fuel nested buf := by
  have hitem : ∀ before it rest v, buf = before ++ (layoutTwo headersize).encode it ++ rest →
      ∃ v', v'.gddv = v.gddv ∧ keyCalls v'.trace = keyCalls v.trace ∧
        parseItem env fuel nested 2 buf buf.length ⟨before.length, none⟩ v =
          (parseGddvKey env fuel buf (before ++ toLittleEndian 2 keysSignature).length
              (int32 (buf.length - (before ++ toLittleEndian 2 keysSignature).length)) >>= fun r =>
            pure (Walk.next (before ++ toLittleEndian 2 keysSignature).length r)) v' := by
    intro before it rest v hbuf
    have hlen : ((before ++ toLittleEndian 2 keysSignature).length : Int) = before.length + 2 := by
      rw [List.length_append, length_to_little_endian]
      rfl
    have hle : before.length + 2 ≤ buf.length := by
      have hlen := congrArg List.length hbuf
      simp only [Layout.encode, layoutTwo, List.length_append, length_to_little_endian] at hlen
      omega
    have hsignature : ∀ v, Returns (fetchUint buf 0 buf.length before.length 2) v
        (keysSignature % 256 ^ 2) (record v (.read before.length (2 : Nat) buf.length)) := by
      refine fetch_uint_returns (a := before) (c := it.body ++ rest) ?_ (Int.zero_add _)
      rw [hbuf]
      simp only [Layout.encode, layoutTwo, List.append_assoc]
    have hint : int32 ((⟨before.length, none⟩ : Walk).offset + 2) = before.length + 2 := by
      simp only [intMax] at hmax
      show int32 ((before.length : Int) + 2) = before.length + 2
      exact int32_eq_self (by omega) (by simp only [intMax]; omega)
    unfold parseItem
    rw [(log_returns _ _).bind_eq, if_pos rfl, (hsignature _).bind_eq, if_pos (by decide), hint,
      hlen]
    refine ⟨_, ?_, ?_, rfl⟩
    · rfl
    · simp only [key_calls_record]
      simp [keyCalls, Event.isKey]
  have hbody : ∀ before it rest, buf = before ++ (layoutTwo headersize).encode it ++ rest →
      buf = (before ++ toLittleEndian 2 keysSignature) ++ it.body ++ rest := by
    intro before it rest hbuf
    rw [hbuf]
    simp only [Layout.encode, layoutTwo, List.append_assoc]
  refine ⟨fun before it rest v g hbuf hg => ?_, fun before it rest v hbuf hnone => ?_, fun v => ?_⟩
  · obtain ⟨v', htables, hcalls', hrun⟩ := hitem before it rest v hbuf
    obtain ⟨t, hcalls, hret⟩ := (key_call_returns env fuel hmax (hbody before it rest hbuf) v').1 g
      (by rw [htables]; exact hg)
    rw [hcalls', List.length_append] at hcalls
    refine ⟨t, hcalls, hrun.trans ?_⟩
    rw [hret.eq]
    simp only [Layout.encode, layoutTwo, List.length_append]
    rw [Nat.add_assoc]
  · obtain ⟨v', htables, -, hrun⟩ := hitem before it rest v hbuf
    obtain ⟨e, v'', hfails⟩ := (key_call_returns env fuel hmax (hbody before it rest hbuf) v').2
      (by rw [htables]; exact hnone)
    exact ⟨e, v'', hrun.trans hfails⟩
  · have hread : ∀ v, Fails (fetchUint buf 0 buf.length buf.length 2) v := by
      intro v
      have hout : ¬ InBounds buf (0 + buf.length) 2 := by
        unfold InBounds
        omega
      unfold fetchUint fetch readBytes
      rw [map_eq_pure_bind, if_neg (by decide), if_neg hout]
      exact ((log_returns _ v).bind_fails (.throw _ _)).bind
    show Fails (parseItem env fuel nested 2 buf buf.length ⟨buf.length, none⟩) v
    unfold parseItem
    rw [if_pos rfl]
    exact (log_returns _ v).bind_fails (hread _).bind

end Versions

end Thermald.Gddv
