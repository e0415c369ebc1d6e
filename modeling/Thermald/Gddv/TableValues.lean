import Thermald.Gddv.Ppcc
import Thermald.Gddv.TableRows

/-!
# The values of a vault

How a table with rows is written as the value of a key, and that the decoder of the key stores it:
one lemma for each decoder, from the runs over its rows. Only rows of an ITMT table of version 3,
which have a fixed size, are left out.
-/

namespace Thermald.Gddv

/-! ## Version and rows -/

/-- The tables while a value is decoded. -/
def sized (g : Gddv) (val : Bytes) : Gddv := { g with gddvCurBufLen := val.length }

section Tables

variable {ρ β : Type} {enc : ρ → Bytes} {version : Nat} {rows : List ρ} {val : Bytes}
  (hval : val = uintField version ++ rows.flatMap enc) (hmax : (val.length : Int) ≤ intMax)

include hval hmax

/-- The version of a table is read. -/
theorem version_returns (hversion : version < 2 ^ 64) (g : Gddv) :
    Returns (getUint64 (terminated val)) ⟨0, sized g val⟩ version
      ⟨12, sized g val⟩ := by
  have hsize : val.length = 12 + (rows.flatMap enc).length := by
    rw [hval, List.length_append, length_uint_field]
  have hread := leads_uint_field hversion (terminated val) [] (rows.flatMap enc ++ [0])
    ⟨0, sized g val⟩
    (by simp only [hval, terminated, List.nil_append, List.append_assoc]) rfl
    (by rw [length_uint_field, List.length_nil]; show _ ≤ (val.length : Int); omega) rfl hmax
  have hplace : int32 ((([] : Bytes).length + (uintField version).length : Nat) + 0) = 12 := by
    rw [length_uint_field]
    rfl
  rw [hplace] at hread
  exact hread

/-- The rows behind the version are read. -/
theorem table_rows_return {m : Bytes → β → Decoder β} {f : ρ → Gddv → Gddv} {k : β → ρ → β}
    (hrow : ∀ row ∈ rows, enc row ≠ [] ∧
      ∀ b, Loads val.length (fun buf => m buf b) (enc row) (f row) (k b row))
    (hkeeps : ∀ row g, (f row g).gddvCurBufLen = g.gddvCurBufLen) {fuel : Nat}
    (hfuel : val.length ≤ fuel) (b : β) (g : Gddv) :
    Returns (whileBelow fuel val.length (m (terminated val)) b)
      ⟨12, sized g val⟩ (rows.foldl k b)
      ⟨val.length, rows.foldl (fun g row => f row g) (sized g val)⟩ := by
  have hcount := length_rows_le fun row hmem => (hrow row hmem).1
  have hsize : val.length = 12 + (rows.flatMap enc).length := by
    rw [hval, List.length_append, length_uint_field]
  have hbuf : terminated val = uintField version ++ rows.flatMap enc ++ [0] := by
    rw [terminated, hval]
  refine rows_load hrow hkeeps hbuf ?_ ?_ rfl hmax (by omega)
  · rw [length_uint_field]
    rfl
  · rw [length_uint_field]
    omega

end Tables

section Values

variable {fuel : Nat} (g : Gddv)

/-! ## Tables with rows -/

/-- A table of custom conditions. -/
def appcTable (rows : List CustomCondition) : Bytes :=
  uintField 1 ++ rows.flatMap CustomCondition.encode

theorem parse_appc_returns {rows : List CustomCondition} (hrows : ∀ row ∈ rows, row.Fits)
    (hmax : ((appcTable rows).length : Int) ≤ intMax) (hfuel : (appcTable rows).length ≤ fuel) :
    Returns (parseAppc fuel (terminated (appcTable rows)) (appcTable rows).length) ⟨0, g⟩ 0
      ⟨(appcTable rows).length, { sized g (appcTable rows) with
        customConditions := g.customConditions ++ rows }⟩ := by
  have hversion := version_returns (rfl : appcTable rows = _) hmax (by decide) g
  have hloop := table_rows_return (rfl : appcTable rows = _) hmax (k := fun b _ => b)
    (m := fun buf _ => parseAppcRow buf)
    (fun row hrow => ⟨uint_field_ne _ _, fun _ => loads_custom_condition (hrows row hrow)⟩)
    (fun _ _ => rfl) hfuel () g
  have hfold := foldl_stores
    (fun rows (g : Gddv) => { g with customConditions := g.customConditions ++ rows })
    (fun g => by simp) (fun row rows g => by simp)
  rw [hfold] at hloop
  have hsplit : terminated (appcTable rows) =
      [] ++ toLittleEndian 1 4 ++ (terminated (appcTable rows)).tail := rfl
  have hfirst : Returns (readByte (terminated (appcTable rows)) 0)
      (Cursor.mk 0 (sized g (appcTable rows))) 4
      ⟨0, sized g (appcTable rows)⟩ :=
    read_value_returns hsplit rfl (by decide) _
  have hpos : 12 ≤ (appcTable rows).length := by
    rw [appcTable, List.length_append, length_uint_field]
    omega
  unfold parseAppc
  refine (Returns.modify _ _).bind ?_
  rw [if_neg (by omega)]
  refine hfirst.bind ?_
  rw [if_neg (not_not.2 rfl)]
  refine hversion.bind ?_
  rw [if_neg (not_not.2 rfl)]
  exact hloop.bind (.pure _ _)

/-- A table of targets. -/
def apatTable (rows : List AdaptiveTarget) : Bytes :=
  uintField 2 ++ rows.flatMap AdaptiveTarget.encode

theorem parse_apat_returns {rows : List AdaptiveTarget} (hrows : ∀ row ∈ rows, row.Fits)
    (hmax : ((apatTable rows).length : Int) ≤ intMax) (hfuel : (apatTable rows).length ≤ fuel) :
    Returns (parseApat fuel (terminated (apatTable rows)) (apatTable rows).length) ⟨0, g⟩ 0
      ⟨(apatTable rows).length, { sized g (apatTable rows) with
        targets := g.targets ++ rows }⟩ := by
  have hversion := version_returns (rfl : apatTable rows = _) hmax (by decide) g
  have hloop := table_rows_return (rfl : apatTable rows = _) hmax (k := fun b _ => b)
    (m := fun buf _ => parseApatRow buf)
    (fun row hrow => ⟨uint_field_ne _ _, fun _ => loads_adaptive_target (hrows row hrow)⟩)
    (fun _ _ => rfl) hfuel () g
  have hfold := foldl_stores (fun rows (g : Gddv) => { g with targets := g.targets ++ rows })
    (fun g => by simp) (fun row rows g => by simp)
  rw [hfold] at hloop
  unfold parseApat
  refine (Returns.modify _ _).bind (hversion.bind ?_)
  rw [if_neg (not_not.2 rfl)]
  exact hloop.bind (.pure _ _)

/-- A table of passive trips. -/
def psvtTable (rows : List Psv) : Bytes :=
  uintField 2 ++ rows.flatMap Psv.encode

theorem foldl_append_singleton {α ρ : Type} (f : ρ → α) (rows : List ρ) (xs : List α) :
    rows.foldl (fun xs row => xs ++ [f row]) xs = xs ++ rows.map f := by
  induction rows generalizing xs with
  | nil => simp
  | cons row rows ih => simp [ih]

theorem foldl_unchanged {ρ γ : Type} (rows : List ρ) (g : γ) : rows.foldl (fun g _ => g) g = g := by
  induction rows with
  | nil => rfl
  | cons row rows ih => exact ih

theorem psvt_table_returns {rows : List Psv} (hrows : ∀ row ∈ rows, row.Fits) (name : Bytes)
    (hmax : ((psvtTable rows).length : Int) ≤ intMax) (hfuel : (psvtTable rows).length ≤ fuel) :
    Returns (parsePsvt fuel (some name) (terminated (psvtTable rows)) (psvtTable rows).length)
      ⟨0, g⟩ 0
      ⟨(psvtTable rows).length, { sized g (psvtTable rows) with
        psvts := g.psvts ++ [⟨name, rows⟩] }⟩ := by
  have hversion := version_returns (rfl : psvtTable rows = _) hmax (by decide) g
  have hloop := table_rows_return (rfl : psvtTable rows = _) hmax (f := fun _ => id)
    (k := fun psvs row => psvs ++ [row]) (m := parsePsv)
    (fun row hrow => ⟨string_field_ne _ _, fun psvs => loads_psv (hrows row hrow) psvs⟩)
    (fun _ _ => rfl) hfuel [] g
  have hfold := foldl_append_singleton (fun row : Psv => row) rows []
  rw [List.map_id', List.nil_append] at hfold
  simp only [id, hfold, foldl_unchanged] at hloop
  unfold parsePsvt
  refine (Returns.modify _ _).bind (hversion.bind ?_)
  rw [if_neg (by decide)]
  exact hloop.bind ((Returns.modify _ _).bind (.pure _ _))

/-- A table of power limits for temperatures. -/
def itmtTable (version : ItmtVersion) (rows : List ItmtRow) : Bytes :=
  uintField version.number ++ rows.flatMap (ItmtRow.encode version)

theorem parse_itmt_returns {version : ItmtVersion} {rows : List ItmtRow}
    (hrows : ∀ row ∈ rows, row.entry.Fits) (name : Bytes)
    (hmax : ((itmtTable version rows).length : Int) ≤ intMax)
    (hfuel : (itmtTable version rows).length ≤ fuel) :
    Returns (parseItmt fuel (some name) (terminated (itmtTable version rows))
        (itmtTable version rows).length) ⟨0, g⟩ 0
      ⟨(itmtTable version rows).length, { sized g (itmtTable version rows) with
        itmts := g.itmts ++ [⟨1, name, rows.map ItmtRow.entry⟩] }⟩ := by
  have hnumber : version.number < 2 ^ 64 ∧ ¬ 2 < int32 version.number ∧
      int32 version.number = version.number := by
    cases version <;> decide
  have hversion := version_returns (rfl : itmtTable version rows = _) hmax hnumber.1 g
  have hloop := table_rows_return (rfl : itmtTable version rows = _) hmax (f := fun _ => id)
    (k := fun entries row => entries ++ [row.entry]) (m := parseItmtEntry version.number)
    (fun row hrow => ⟨string_field_ne _ _, fun entries => loads_itmt_row (hrows row hrow) entries⟩)
    (fun _ _ => rfl) hfuel [] g
  simp only [id, foldl_append_singleton, List.nil_append, foldl_unchanged] at hloop
  unfold parseItmt
  refine (Returns.modify _ _).bind (hversion.bind ?_)
  rw [if_neg hnumber.2.1, hnumber.2.2]
  exact hloop.bind ((Returns.modify _ _).bind (.pure _ _))

/-- A table of coefficients of virtual sensors. -/
def vsctTable (rows : List VsctEntry) : Bytes :=
  uintField 1 ++ rows.flatMap VsctEntry.encode

theorem parse_vsct_returns {rows : List VsctEntry} (hrows : ∀ row ∈ rows, row.Fits) (name : Bytes)
    (hmax : ((vsctTable rows).length : Int) ≤ intMax) (hfuel : (vsctTable rows).length ≤ fuel) :
    Returns (parseVsct fuel (some name) (terminated (vsctTable rows)) (vsctTable rows).length)
      ⟨0, g⟩ 0
      ⟨(vsctTable rows).length, { sized g (vsctTable rows) with
        vsctsName := name
        vscts := g.vscts ++ rows }⟩ := by
  have hversion := version_returns (rfl : vsctTable rows = _) hmax (by decide)
    { g with vsctsName := name }
  have hloop := table_rows_return (rfl : vsctTable rows = _) hmax (k := fun b _ => b)
    (m := fun buf _ => parseVsctRow buf)
    (fun row hrow => ⟨string_field_ne _ _, fun _ => loads_vsct_entry (hrows row hrow)⟩)
    (fun _ _ => rfl) hfuel () { g with vsctsName := name }
  have hfold := foldl_stores (fun rows (g : Gddv) => { g with vscts := g.vscts ++ rows })
    (fun g => by simp) (fun row rows g => by simp)
  rw [hfold] at hloop
  unfold parseVsct
  refine (Returns.modify _ _).bind ((Returns.modify _ _).bind (hversion.bind ?_))
  rw [if_neg (by decide)]
  exact hloop.bind (.pure _ _)

/-- A table of sampling periods of virtual sensors. -/
def vsptTable (rows : List VsptRow) : Bytes :=
  uintField 1 ++ rows.flatMap VsptRow.encode

theorem parse_vspt_returns {rows : List VsptRow}
    (hmax : ((vsptTable rows).length : Int) ≤ intMax) (hfuel : (vsptTable rows).length ≤ fuel) :
    Returns (parseVspt fuel (terminated (vsptTable rows)) (vsptTable rows).length) ⟨0, g⟩ 0
      ⟨(vsptTable rows).length, { sized g (vsptTable rows) with
        vspts := g.vspts ++ rows.map VsptRow.entry }⟩ := by
  have hversion := version_returns (rfl : vsptTable rows = _) hmax (by decide) g
  have hloop := table_rows_return (rfl : vsptTable rows = _) hmax (k := fun b _ => b)
    (m := fun buf _ => parseVsptRow buf)
    (fun row _ => ⟨uint_field_ne _ _, fun _ => loads_vspt_row row⟩) (fun _ _ => rfl) hfuel () g
  have hfold := foldl_stores
    (fun rows (g : Gddv) => { g with vspts := g.vspts ++ rows.map VsptRow.entry })
    (fun g => by simp) (fun row rows g => by simp)
  have hone : ∀ (row : VsptRow) (g : Gddv), { g with vspts := g.vspts ++ [row.entry] } =
      { g with vspts := g.vspts ++ [row].map VsptRow.entry } := fun _ _ => rfl
  simp only [hone, hfold] at hloop
  unfold parseVspt
  refine (Returns.modify _ _).bind (hversion.bind ?_)
  rw [if_neg (by decide)]
  exact hloop.bind (.pure _ _)

/-- A table of thermal relationships, which has no version. -/
def trtTable (rows : List TrtEntry) : Bytes :=
  rows.flatMap TrtEntry.encode

theorem parse_trt_returns {rows : List TrtEntry}
    (hmax : ((trtTable rows).length : Int) ≤ intMax) (hfuel : (trtTable rows).length ≤ fuel) :
    Returns (parseTrt fuel (terminated (trtTable rows)) (trtTable rows).length) ⟨0, g⟩ 0
      ⟨(trtTable rows).length, sized g (trtTable rows)⟩ := by
  have hrow : ∀ row ∈ rows, row.encode ≠ [] ∧ ∀ _ : Unit, Loads (trtTable rows).length
      (fun buf => parseTrtRow buf) row.encode id () :=
    fun row _ => ⟨string_field_ne _ _, fun _ => loads_trt_entry row⟩
  have hcount := length_rows_le fun row hmem => (hrow row hmem).1
  have hbuf : terminated (trtTable rows) = [] ++ rows.flatMap TrtEntry.encode ++ [0] := rfl
  have hloop := rows_load (m := fun buf _ => parseTrtRow buf) (f := fun _ => id)
    (k := fun b _ => b) (b := ()) (c := ⟨0, sized g (trtTable rows)⟩) hrow (fun _ _ => rfl) hbuf
    rfl (by rw [List.length_nil, trtTable]; omega) rfl hmax (le_trans hcount hfuel)
  simp only [id, foldl_unchanged] at hloop
  unfold parseTrt
  exact (Returns.modify _ _).bind (hloop.bind (.pure _ _))

/-! ## Condition sets -/

/-- The sets of a table. Only the last one may end with a time condition. -/
structure ApctFits (version : ApctVersion) (sets : List ApctSet) : Prop where
  count : version = .one → ∀ s ∈ sets, s.count = 10
  separated : Separated (apctTable version sets).length sets

/-- A set that does not end with a time condition is stored. -/
theorem loads_set {version : ApctVersion} {len : Int} {s : ApctSet}
    (hcount : version = .one → s.count = 10) (hends : ¬ s.EndsTimed)
    (hfuel : (s.encode version).length ≤ fuel) :
    Loads len (parseSet version fuel len) (s.encode version)
      (fun g => { g with conditions := g.conditions ++ [s.decoded version] }) () := by
  intro buf before rest c hbuf hoffset hlen hcur hmax
  have hret := parse_set_returns fuel hcount hbuf hoffset hlen hcur hmax hfuel
  have hjump : s.jump = 0 := if_neg hends
  rw [hjump, int32_offset (by omega) hmax] at hret
  exact hret

/-- The sets in front of the last one do not end with a time condition. -/
theorem Separated.split {len : Int} {sets : List ApctSet} (h : Separated len sets) :
    (∀ s ∈ sets, ¬ s.EndsTimed) ∨ ∃ others last, sets = others ++ [last] ∧
      (∀ s ∈ others, ¬ s.EndsTimed) ∧ last.EndsTimed ∧ len + 12 ≤ intMax := by
  induction sets with
  | nil => exact .inl (List.forall_mem_nil _)
  | cons s sets ih =>
      unfold Separated at h
      by_cases hends : s.EndsTimed
      · rw [if_pos hends] at h
        obtain ⟨rfl, hroom⟩ := h
        exact .inr ⟨[], s, rfl, List.forall_mem_nil _, hends, hroom⟩
      · rw [if_neg hends] at h
        rcases ih h with hall | ⟨others, last, rfl, hothers, hlast, hroom⟩
        · exact .inl (List.forall_mem_cons.2 ⟨hends, hall⟩)
        · exact .inr ⟨s :: others, last, rfl, List.forall_mem_cons.2 ⟨hends, hothers⟩, hlast,
            hroom⟩

section Sets

variable {version : ApctVersion} {sets : List ApctSet} {c : Cursor} {before rest buf : Bytes}
  {len : Int} {n : Nat} (hcount : version = .one → ∀ s ∈ sets, s.count = 10)
  (hbuf : buf = before ++ sets.flatMap (ApctSet.encode version) ++ rest)
  (hoffset : c.offset = before.length) (hcur : c.gddv.gddvCurBufLen = len) (hmax : len ≤ intMax)
  (hfuel : (sets.flatMap (ApctSet.encode version)).length ≤ fuel)

include hcount hbuf hoffset hcur hmax hfuel

/-- The loop goes through sets that do not end with a time condition. -/
theorem sets_run (hends : ∀ s ∈ sets, ¬ s.EndsTimed)
    (hlen : (before.length + (sets.flatMap (ApctSet.encode version)).length : Int) ≤ len) :
    whileBelow (n + sets.length) len (fun _ => parseSet version fuel len buf) () c =
      whileBelow n len (fun _ => parseSet version fuel len buf) ()
        ⟨(before.length + (sets.flatMap (ApctSet.encode version)).length : Nat), { c.gddv with
          conditions := c.gddv.conditions ++ sets.map (ApctSet.decoded version) }⟩ := by
  have hrow : ∀ s ∈ sets, s.encode version ≠ [] ∧ ∀ _ : Unit,
      Loads len (parseSet version fuel len) (s.encode version)
        (fun g => { g with conditions := g.conditions ++ [s.decoded version] }) () := by
    intro s hs
    have hsize := s.length_encode version
    have hle := (List.sublist_flatten_of_mem (List.mem_map_of_mem (f := ApctSet.encode version)
      hs)).length_le
    rw [← List.flatMap_def] at hle
    refine ⟨List.length_pos_iff.mp (by omega), fun _ => ?_⟩
    exact loads_set (fun hone => hcount hone s hs) (hends s hs) (by omega)
  have hrun := rows_run (m := fun buf _ => parseSet version fuel len buf) (k := fun b _ => b)
    (b := ()) (n := n) hrow (fun _ _ => rfl) hbuf hoffset hlen hcur hmax
  have hfold := foldl_stores (fun sets (g : Gddv) =>
    { g with conditions := g.conditions ++ sets.map (ApctSet.decoded version) })
    (fun g => by simp) (fun s sets g => by simp) sets c.gddv
  have hone : ∀ (s : ApctSet) (g : Gddv),
      { g with conditions := g.conditions ++ [s.decoded version] } =
        { g with conditions := g.conditions ++ [s].map (ApctSet.decoded version) } :=
    fun _ _ => rfl
  simp only [hone, hfold] at hrun
  exact hrun

/-- The loop over the sets of a table stores them all. -/
theorem sets_return (hseparated : Separated len sets)
    (hlen : (before.length + (sets.flatMap (ApctSet.encode version)).length : Int) = len)
    (hn : sets.length ≤ n) :
    ∃ o, Returns (whileBelow n len (fun _ => parseSet version fuel len buf) ()) c ()
      ⟨o, { c.gddv with
        conditions := c.gddv.conditions ++ sets.map (ApctSet.decoded version) }⟩ := by
  rcases hseparated.split with hall | ⟨others, last, rfl, hothers, hlast, hroom⟩
  · obtain ⟨n, rfl⟩ : ∃ k, n = k + sets.length := ⟨n - sets.length, by omega⟩
    have hrun := sets_run (n := n) hcount hbuf hoffset hcur hmax hfuel hall hlen.le
    have hplace : ((before.length + (sets.flatMap (ApctSet.encode version)).length : Nat) : Int) =
        len := by
      omega
    rw [hplace] at hrun
    exact ⟨len, hrun.trans (Returns.loop_done (decide_eq_false (lt_irrefl _)))⟩
  · -- behind the last set the offset is beyond the end of the table
    obtain ⟨n, rfl⟩ : ∃ k, n = (k + 1) + others.length := by
      rw [List.length_append, List.length_singleton] at hn
      exact ⟨n - 1 - others.length, by omega⟩
    rw [List.flatMap_append, List.flatMap_singleton] at hbuf hlen hfuel
    rw [List.length_append] at hlen hfuel
    have hsize := last.length_encode version
    have hfirst : buf = before ++ others.flatMap (ApctSet.encode version) ++
        (last.encode version ++ rest) := by
      simp only [hbuf, List.append_assoc]
    have hsecond : buf = (before ++ others.flatMap (ApctSet.encode version)) ++
        last.encode version ++ rest := by
      simp only [hbuf, List.append_assoc]
    have hshort : (others.flatMap (ApctSet.encode version)).length ≤ fuel := by omega
    have hrun := sets_run (n := n + 1)
      (fun hone s hs => hcount hone s (List.mem_append_left _ hs)) hfirst hoffset hcur hmax
      hshort hothers (by omega)
    have hpass := parse_set_returns fuel
      (c := ⟨(before.length + (others.flatMap (ApctSet.encode version)).length : Nat), { c.gddv with
        conditions := c.gddv.conditions ++ others.map (ApctSet.decoded version) }⟩)
      (fun hone => hcount hone last (List.mem_append_right _ (List.mem_singleton_self last)))
      hsecond (by rw [List.length_append]) (by rw [List.length_append]; omega) hcur hmax (by omega)
    have hjump : last.jump = 12 := if_pos hlast
    have hend : int32 (((before ++ others.flatMap (ApctSet.encode version)).length +
        (last.encode version).length : Nat) + 12) = len + 12 := by
      rw [List.length_append, int32_eq_self (by omega) (by omega)]
      omega
    rw [hjump, hend] at hpass
    have hbelow : ((before.length + (others.flatMap (ApctSet.encode version)).length : Nat) : Int) <
        len := by
      omega
    have hover : ¬ len + 12 < len := by omega
    refine ⟨len + 12, Eq.trans hrun (Eq.trans (Returns.loop_eq (decide_eq_true ?_) hpass) ?_)⟩
    · exact hbelow
    · rw [List.map_append, List.map_singleton, ← List.append_assoc]
      exact Returns.loop_done (decide_eq_false hover)

end Sets

theorem parse_apct_returns {version : ApctVersion} {sets : List ApctSet}
    (hsets : ApctFits version sets) (hmax : ((apctTable version sets).length : Int) ≤ intMax)
    (hfuel : (apctTable version sets).length ≤ fuel) :
    ∃ o, Returns (parseApct fuel (terminated (apctTable version sets))
        (apctTable version sets).length) ⟨0, g⟩ 0
      ⟨o, { sized g (apctTable version sets) with
        conditions := g.conditions ++ sets.map (ApctSet.decoded version) }⟩ := by
  have hnumber : version.number < 2 ^ 64 := by cases version <;> decide
  have hversion := version_returns (rfl : apctTable version sets = _) hmax hnumber g
  have hsize := length_apct_table version sets
  have hbuf : terminated (apctTable version sets) = uintField version.number ++
      sets.flatMap (ApctSet.encode version) ++ [0] := rfl
  have hcount := sets_le_bytes version sets
  have hshort : (sets.flatMap (ApctSet.encode version)).length ≤ fuel := by omega
  have hplace : (12 : Int) = (uintField version.number).length := by
    rw [length_uint_field]
    rfl
  have hend : ((uintField version.number).length +
      (sets.flatMap (ApctSet.encode version)).length : Int) = (apctTable version sets).length := by
    rw [length_uint_field, hsize]
    rfl
  obtain ⟨o, hloop⟩ := sets_return (n := fuel) (c := ⟨12, sized g (apctTable version sets)⟩)
    hsets.count hbuf hplace rfl hmax hshort hsets.separated hend (by omega)
  refine ⟨o, ?_⟩
  unfold parseApct
  refine (Returns.modify _ _).bind (hversion.bind ?_)
  cases version with
  | one => exact hloop.bind (.pure _ _)
  | two => exact hloop.bind (.pure _ _)

end Values

end Thermald.Gddv
