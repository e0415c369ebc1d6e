import Thermald.Gddv.Compressed
import Thermald.Gddv.Items

/-!
# Vaults without nested repositories

A flat vault is a header and behind it items, and nothing else. `flat_vault_returns_iff` says of
which flat vaults the parser hands over all items and succeeds, in both versions. The item loop
compares the sum of its offset and the size of the header with the size of the vault, although the
offset already counts the header: it ends as soon as no more bytes are left than the header has, so
the last item has to be longer than the header. For version 2 this is `parse_items_iff`.
-/

namespace Thermald.Gddv

/-! ## Fuel for the decoders -/

section Fuel

variable {fuel fuel' : Nat} {val : Bytes} (hlen : (val.length : Int) ≤ intMax - 64)
  (hfuel : val.length < fuel)

include hlen hfuel

/-- All decoders that a key can name end. -/
theorem decoders_decode (p : KeyPath) :
    ∀ m ∈ decoders fuel p (terminated val) val.length, Decodes m := by
  intro m hm
  unfold decoders at hm
  cases htype : p.type with
  | none =>
      rw [htype] at hm
      cases hm
  | some type =>
      rw [htype] at hm
      simp only [List.mem_append, List.mem_ite_nil_right, List.mem_singleton, List.mem_map,
        List.mem_flatMap] at hm
      rcases hm with ((((((((((⟨-, name, -, rfl⟩ | ⟨-, rfl⟩) | ⟨-, rfl⟩) | ⟨-, rfl⟩) | ⟨-, rfl⟩) |
        ⟨-, rfl⟩) | ⟨-, rfl⟩) | ⟨-, name, -, rfl⟩) | ⟨-, name, -, point, -, rfl⟩) | ⟨-, rfl⟩) |
        ⟨-, rfl⟩) | ⟨-, rfl⟩
      · exact decodes_ppcc name
      · exact decodes_psvt hlen hfuel _
      · exact decodes_appc hlen hfuel
      · exact decodes_apct hlen hfuel
      · exact decodes_apat hlen hfuel
      · exact decodes_itmt3 hlen hfuel _
      · exact decodes_itmt hlen hfuel _
      · exact decodes_idsp hlen hfuel
      · exact decodes_trip_point name point
      · exact decodes_trt hlen hfuel
      · exact decodes_vsct hlen hfuel _
      · exact decodes_vspt hlen hfuel

omit hlen hfuel in
/-- Decoders that end do not run out of fuel. -/
theorem run_decoders_ends {ms : List (Decoder Int)} (h : ∀ m ∈ ms, Decodes m) (v : Vault) :
    stopOf (runDecoders ms v) ≠ some .outOfFuel := by
  induction ms generalizing v with
  | nil => nofun
  | cons m rest ih =>
      obtain ⟨hm, hrest⟩ := List.forall_mem_cons.1 h
      show stopOf (EStateM.bind (decode m) (fun _ => runDecoders rest) v) ≠ some .outOfFuel
      unfold EStateM.bind decode
      cases heq : m ⟨0, v.gddv⟩ with
      | ok a c => exact ih hrest _
      | error e c =>
          have hthrows : e = .gddvException := hm.error trivial heq
          rw [hthrows]
          nofun

theorem dispatch_ends (key : Bytes) (v : Vault) :
    stopOf (dispatch fuel key val v) ≠ some .outOfFuel := by
  unfold dispatch
  cases tokens (key.takeWhile fun b => b ≠ 0) with
  | nil => nofun
  | cons str rest => exact run_decoders_ends (decoders_decode hlen hfuel _) v

end Fuel

/-- More fuel than a value has bytes does not change what the decoders make of it. -/
theorem accepted_tables_fuel {env : Env} {it : Item} {fuel fuel' : Nat}
    (hlen : (it.val.length : Int) ≤ intMax - 64) (hfuel : it.val.length < fuel)
    (hle : fuel ≤ fuel') (g : Gddv) :
    acceptedTables env fuel' it g = acceptedTables env fuel it g := by
  unfold acceptedTables decodedTables
  rw [(dispatch_settles hle it.key it.val).eq _ (dispatch_ends hlen hfuel it.key _)]

theorem accepted_all_fuel {env : Env} {its : List Item} {fuel fuel' : Nat}
    (hlen : ∀ it ∈ its, (it.val.length : Int) ≤ intMax - 64 ∧ it.val.length < fuel)
    (hle : fuel ≤ fuel') (g : Gddv) :
    acceptedAll env fuel' its g = acceptedAll env fuel its g := by
  induction its generalizing g with
  | nil => rfl
  | cons it rest ih =>
      obtain ⟨⟨hval, hfuel⟩, hrest⟩ := List.forall_mem_cons.1 hlen
      rw [acceptedAll, acceptedAll, accepted_tables_fuel hval hfuel hle]
      exact Option.bind_congr fun g' _ => ih hrest g'

/-! ## Headers -/

/-- The header of a flat vault in a layout. -/
structure Layout.IsHeader (l : Layout) (header : Bytes) : Prop where
  length : header.length = l.headersize
  fields : 12 ≤ l.headersize
  signature : signatureOf header = headerSignature
  headersize : headersizeOf header = l.headersize
  major : majorOf header = l.major
  plain : ¬ IsCompressed header

/-- A flat vault. -/
def Layout.vault (l : Layout) (header : Bytes) (its : List Item) : Bytes :=
  header ++ l.encodeAll its

/-- What is read from the beginning of a buffer does not depend on the rest. -/
theorem slice_append {a : Bytes} (b : Bytes) {i n : Nat} (h : i + n ≤ a.length) :
    slice (a ++ b) i n = slice a i n := by
  unfold slice
  rw [Int.toNat_natCast, List.drop_append_of_le_length (by omega)]
  exact List.take_append_of_le_length (by rw [List.length_drop]; omega)

section Vault

variable {l : Layout} {header : Bytes} (hheader : l.IsHeader header) (its : List Item)

include hheader

/-- The fields of the header are those of the vault. -/
theorem vault_fields :
    signatureOf (l.vault header its) = headerSignature ∧
      headersizeOf (l.vault header its) = l.headersize ∧
      majorOf (l.vault header its) = l.major ∧ ¬ IsCompressed (l.vault header its) := by
  have hslice : ∀ {i n : Nat}, i + n ≤ 12 → slice (l.vault header its) i n = slice header i n := by
    intro i n h
    refine slice_append _ (le_trans h ?_)
    rw [hheader.length]
    exact hheader.fields
  have hsignature : slice (l.vault header its) 0 2 = slice header 0 2 :=
    hslice (i := 0) (by decide)
  have hsize : slice (l.vault header its) 2 2 = slice header 2 2 := hslice (i := 2) (by decide)
  have hversion : slice (l.vault header its) 4 4 = slice header 4 4 := hslice (i := 4) (by decide)
  have hflags : slice (l.vault header its) 8 4 = slice header 8 4 := hslice (i := 8) (by decide)
  have hmajor : majorOf (l.vault header its) = majorOf header := by
    unfold majorOf
    rw [hversion]
  refine ⟨?_, ?_, hmajor.trans hheader.major, ?_⟩
  · unfold signatureOf
    rw [hsignature]
    exact hheader.signature
  · unfold headersizeOf
    rw [hsize]
    exact hheader.headersize
  · unfold IsCompressed
    rw [hmajor, hflags]
    exact hheader.plain

/-- The parser goes to the item loop of a flat vault. -/
theorem parse_gddv_flat (env : Env) (fuel : Nat) (hmajor : l.major = 1 ∨ l.major = 2)
    (hlen : headerStructSize ≤ (l.vault header its).length) (v : Vault) :
    parseGddv env (fuel + 1) false (l.vault header its) (l.vault header its).length v =
      parseItems env fuel (parseGddv env fuel true) l.major l.headersize (l.vault header its)
        (l.vault header its).length
        (record v (.enter false (l.vault header its) (l.vault header its).length)) := by
  obtain ⟨hsignature, hsize, hversion, hplain⟩ := vault_fields hheader its
  rw [parse_gddv_eq env fuel false hlen, (log_returns _ _).bind_eq,
    if_neg (not_not.2 hsignature), if_neg (by rw [hversion]; omega), if_neg hplain, hversion, hsize]

omit hheader in
/-- The end of the item loop. -/
theorem parse_items_returns {env : Env} {fuel : Nat} {nested : Bytes → Int → Parser (Int × Int)}
    {buf : Bytes} {v v' : Vault} {w : Walk}
    (hloop : Returns (l.loop env fuel nested buf fuel l.headersize) v w v') (hret : w.ret = none) :
    Returns (parseItems env fuel nested l.major l.headersize buf buf.length) v
      (gddvSuccess, w.offset) v' := by
  unfold parseItems
  refine hloop.bind ?_
  rw [hret]
  rfl

/-- The parser succeeds on a flat vault and hands over every item, once and in order, if and only if
the items are accepted, the loop goes on up to the last of them, and the sum of the size of the
vault and that of the header does not overflow; and then the tables are those of the items. -/
theorem flat_vault_returns_iff (env : Env) {fuel : Nat} (hmajor : l.major = 1 ∨ l.major = 2)
    (hsound : ∀ nested, l.Sound env fuel nested (l.vault header its))
    (hlen : headerStructSize ≤ (l.vault header its).length)
    (hmax : ((l.vault header its).length : Int) ≤ intMax) (hfuel : its.length < fuel) (v : Vault) :
    ((∃ endOffset v', Returns (parseGddv env (fuel + 1) false (l.vault header its)
          (l.vault header its).length) v (gddvSuccess, endOffset) v' ∧
        keyCalls v'.trace = keyCalls v.trace ++
          l.handOvers (l.vault header its) l.headersize its) ↔
      (acceptedAll env fuel its v.gddv).isSome ∧ l.LongTails its ∧
        (((l.vault header its).length + l.headersize : Nat) : Int) ≤ intMax) ∧
    ∀ r v', Returns (parseGddv env (fuel + 1) false (l.vault header its)
        (l.vault header its).length) v r v' →
      keyCalls v'.trace = keyCalls v.trace ++ l.handOvers (l.vault header its) l.headersize its →
      acceptedAll env fuel its v.gddv = some v'.gddv := by
  have hsmall : l.headersize < 65536 := by
    rw [← hheader.headersize]
    exact headersize_lt header
  let v₁ := record v (.enter false (l.vault header its) (l.vault header its).length)
  have hcalls : keyCalls v₁.trace = keyCalls v.trace := by
    show keyCalls (v.trace ++ _) = _
    rw [key_calls_append]
    exact List.append_nil _
  obtain ⟨hiff, hret⟩ := loop_items (hsound (parseGddv env fuel true)) hmax hsmall its rfl hfuel v₁
  rw [hheader.length, hcalls] at hiff
  rw [hheader.length, hcalls] at hret
  have hflat : ∀ w v', Returns (l.loop env fuel (parseGddv env fuel true) (l.vault header its) fuel
      l.headersize) v₁ w v' → Returns (parseGddv env (fuel + 1) false (l.vault header its)
        (l.vault header its).length) v (gddvSuccess, w.offset) v' := by
    intro w v' hloop
    rw [Returns, parse_gddv_flat hheader its env fuel hmajor hlen]
    exact parse_items_returns hloop (hret w v' hloop).1
  have hloop : ∀ {r v'}, Returns (parseGddv env (fuel + 1) false (l.vault header its)
      (l.vault header its).length) v r v' → ∃ w, Returns (l.loop env fuel (parseGddv env fuel true)
        (l.vault header its) fuel l.headersize) v₁ w v' := by
    intro r v' hreturns
    rcases fails_or_returns (l.loop env fuel (parseGddv env fuel true) (l.vault header its) fuel
      l.headersize) v₁ with hfails | ⟨w, v'', hloop⟩
    · rw [Returns, parse_gddv_flat hheader its env fuel hmajor hlen] at hreturns
      exact absurd hreturns hfails.bind.not_returns
    · obtain ⟨-, rfl⟩ := (hflat w v'' hloop).unique hreturns
      exact ⟨w, hloop⟩
  refine ⟨Iff.trans ⟨?_, ?_⟩ hiff, fun r v' hreturns => ?_⟩
  · intro h
    obtain ⟨endOffset, v', hreturns, hevents⟩ := h
    obtain ⟨w, hloop⟩ := hloop hreturns
    exact ⟨w, v', hloop, hevents⟩
  · intro h
    obtain ⟨w, v', hloop, hevents⟩ := h
    exact ⟨w.offset, v', hflat w v' hloop, hevents⟩
  · obtain ⟨w, hloop⟩ := hloop hreturns
    exact (hret w v' hloop).2

end Vault

/-! ## Version 2 -/

/-- The loop gets to the last item if and only if this one is longer than the header. -/
theorem long_tails_iff (l : Layout) (its : List Item) :
    l.LongTails its ↔ ∀ it ∈ its.getLast?, l.headersize < (l.encode it).length := by
  induction its with
  | nil => simp [Layout.LongTails]
  | cons it rest ih =>
      rw [Layout.LongTails, ih]
      cases rest with
      | nil => simp [Layout.encodeAll]
      | cons next rest =>
          rw [List.getLast?_cons_cons]
          refine ⟨fun h => h.2, fun h => ⟨?_, h⟩⟩
          obtain ⟨before, last, hsplit⟩ : ∃ before last, next :: rest = before ++ [last] :=
            ⟨_, _, (List.dropLast_append_getLast (List.cons_ne_nil next rest)).symm⟩
          have hlast := h last (by rw [hsplit]; simp)
          rw [hsplit]
          simp only [Layout.encodeAll, List.flatMap_cons, List.flatMap_append, List.flatMap_nil,
            List.length_append]
          omega

/-- Items have bytes. -/
theorem length_le_encode_all (l : Layout) (its : List Item) :
    its.length ≤ (l.encodeAll its).length ∧
      ∀ it ∈ its, it.body.length ≤ (l.encodeAll its).length := by
  induction its with
  | nil => exact ⟨le_rfl, nofun⟩
  | cons it rest ih =>
      have hall : (l.encodeAll (it :: rest)).length =
          l.lead.length + it.body.length + (l.encodeAll rest).length := by
        simp only [Layout.encodeAll, Layout.encode, List.flatMap_cons, List.length_append]
      have hbody := it.length_body
      rw [hall, List.length_cons, List.forall_mem_cons]
      refine ⟨by omega, by omega, fun other hother => ?_⟩
      have hle := ih.2 other hother
      omega

/-- A well-formed vault of version 2 is parsed with success and every item is handed over, once and
in order, if and only if the last item is longer than the header, the size of the vault is at most
`INT_MAX - 148`, and the items are accepted one after the other. -/
theorem parse_items_iff (env : Env) {header : Bytes} (hheader : (layoutTwo 148).IsHeader header)
    (its : List Item) (hmax : (((layoutTwo 148).vault header its).length : Int) ≤ intMax)
    (fuel : Nat) (hfuel : ((layoutTwo 148).vault header its).length < fuel) (v : Vault) :
    (∃ endOffset v', Returns (parseGddv env fuel false ((layoutTwo 148).vault header its)
          ((layoutTwo 148).vault header its).length) v (gddvSuccess, endOffset) v' ∧
        keyCalls v'.trace = keyCalls v.trace ++
          (layoutTwo 148).handOvers ((layoutTwo 148).vault header its) 148 its) ↔
      (∀ it ∈ its.getLast?, 148 < it.encode.length) ∧
        (((layoutTwo 148).vault header its).length : Int) ≤ intMax - 148 ∧
        (acceptedAll env ((layoutTwo 148).vault header its).length its v.gddv).isSome := by
  have hlen : ((layoutTwo 148).vault header its).length =
      148 + ((layoutTwo 148).encodeAll its).length := by
    unfold Layout.vault
    rw [List.length_append, hheader.length]
    rfl
  obtain ⟨fuel, rfl⟩ : ∃ n, fuel = n + 1 := ⟨fuel - 1, by omega⟩
  obtain ⟨hcount, hbody⟩ := length_le_encode_all (layoutTwo 148) its
  refine (flat_vault_returns_iff hheader its env (.inr rfl)
    (fun nested => layout_two_sound env fuel nested hmax 148) ?_ hmax (by omega) v).1.trans ?_
  · simp only [headerStructSize]
    omega
  rw [long_tails_iff]
  -- the values are short enough for the decoders once the sum does not overflow
  have hsame : (((layoutTwo 148).vault header its).length : Int) ≤ intMax - 148 →
      acceptedAll env fuel its v.gddv =
        acceptedAll env ((layoutTwo 148).vault header its).length its v.gddv := by
    intro hfits
    refine accepted_all_fuel (fun it hit => ?_) (by omega) v.gddv
    have hle := hbody it hit
    have hval := it.length_body
    simp only [intMax] at hfits ⊢
    omega
  have hsum : (((((layoutTwo 148).vault header its).length + 148 : Nat) : Int) ≤ intMax) ↔
      (((layoutTwo 148).vault header its).length : Int) ≤ intMax - 148 := by
    simp only [intMax]
    omega
  constructor
  · intro h
    obtain ⟨haccepted, hlong, hfits⟩ := h
    have hfits := hsum.1 hfits
    exact ⟨hlong, hfits, hsame hfits ▸ haccepted⟩
  · intro h
    obtain ⟨hlong, hfits, haccepted⟩ := h
    exact ⟨(hsame hfits).symm ▸ haccepted, hlong, hsum.2 hfits⟩

/-- An item whose key names no table. -/
def plainItem (n : Nat) : Item where
  flags := 0
  key := ascii "/a"
  type := 7
  val := List.replicate n 0

theorem sample_header_two : (layoutTwo 148).IsHeader (sampleHeader 148 0) := by
  refine ⟨?_, ?_, ?_, ?_, ?_, ?_⟩ <;> decide +kernel

/-- An item of 20 bytes is lost, although the parser reports success. -/
theorem short_item_dropped :
    ¬ ∃ endOffset v', Returns (parseGddv sampleEnv 200 false
          ((layoutTwo 148).vault (sampleHeader 148 0) [plainItem 0]) 168) Vault.start
          (gddvSuccess, endOffset) v' ∧
        keyCalls v'.trace = (layoutTwo 148).handOvers
          ((layoutTwo 148).vault (sampleHeader 148 0) [plainItem 0]) 148 [plainItem 0] := by
  intro h
  obtain ⟨endOffset, v', hreturns, hcalls⟩ := h
  have htrace : keyCalls (finalState (parseGddv sampleEnv 200 false
      ((layoutTwo 148).vault (sampleHeader 148 0) [plainItem 0]) 168 Vault.start)).trace = [] := by
    decide +kernel
  rw [hreturns.eq] at htrace
  cases hcalls.symm.trans htrace

/-- An item longer than the header is handed over. -/
theorem long_item_parsed :
    ∃ endOffset v', Returns (parseGddv sampleEnv 400 false
          ((layoutTwo 148).vault (sampleHeader 148 0) [plainItem 132]) 300) Vault.start
          (gddvSuccess, endOffset) v' ∧
        keyCalls v'.trace = (layoutTwo 148).handOvers
          ((layoutTwo 148).vault (sampleHeader 148 0) [plainItem 132]) 148 [plainItem 132] := by
  have hlen : ((layoutTwo 148).vault (sampleHeader 148 0) [plainItem 132]).length = 300 := by
    decide +kernel
  have hiff := parse_items_iff sampleEnv sample_header_two [plainItem 132]
    (by rw [hlen]; decide) 400 (by rw [hlen]; decide) Vault.start
  rw [hlen] at hiff
  exact hiff.2 ⟨by decide +kernel, by decide, by decide +kernel⟩

end Thermald.Gddv
