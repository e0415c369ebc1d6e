import Thermald.Gddv.Apct
import Thermald.Gddv.Idsp

/-!
# Rows of a table

Most tables of a vault are a version and rows behind it, and a decoder reads rows as long as bytes
are left. `Loads` is `Leads` for a reader that also changes the tables, and `rows_load` goes from
one row to all of them: the loop moves to the end of the table, and what the rows store is stored
one after the other.
-/

namespace Thermald.Gddv

section Loads

variable {α β ρ : Type} {len : Int}

/-- In a table of the given length, at the beginning of the encoding, the reader returns the value,
moves behind the encoding and changes the tables. -/
def Loads (len : Int) (m : Bytes → Decoder α) (data : Bytes) (f : Gddv → Gddv) (a : α) : Prop :=
  ∀ (buf before rest : Bytes) (c : Cursor), buf = before ++ data ++ rest →
    c.offset = before.length → (before.length + data.length : Int) ≤ len →
    c.gddv.gddvCurBufLen = len → len ≤ intMax →
    Returns (m buf) c a ⟨(before.length + data.length : Nat), f c.gddv⟩

/-- A reader that changes nothing. -/
theorem Leads.loads {m : Bytes → Decoder α} {data : Bytes} {a : α} (h : Leads len m data 0 a) :
    Loads len m data id a := by
  intro buf before rest c hbuf hoffset hlen hcur hmax
  have hret := h buf before rest c hbuf hoffset hlen hcur hmax
  rw [int32_offset (by omega) hmax] at hret
  exact hret

/-- What is read comes before what is stored. -/
theorem Leads.before {m : Bytes → Decoder α} {f : α → Bytes → Decoder β} {data data' : Bytes}
    {g : Gddv → Gddv} {a : α} {b : β} (h : Leads len m data 0 a)
    (hf : Loads len (f a) data' g b) :
    Loads len (fun buf => m buf >>= fun a => f a buf) (data ++ data') g b := by
  intro buf before rest c hbuf hoffset hlen hcur hmax
  rw [List.length_append] at hlen ⊢
  have hfirst := h buf before (data' ++ rest) c (by simp only [hbuf, List.append_assoc]) hoffset
    (by omega) hcur hmax
  rw [int32_offset (by omega) hmax] at hfirst
  have hsecond := hf buf (before ++ data) rest
    { c with offset := (before.length + data.length : Nat) }
    (by simp only [hbuf, List.append_assoc]) (by simp only [List.length_append])
    (by simp only [List.length_append]; omega) hcur hmax
  rw [List.length_append, Nat.add_assoc] at hsecond
  exact hfirst.bind hsecond

/-- The last value of a row is read and the row is stored. -/
theorem Leads.store {m : Bytes → Decoder α} {data : Bytes} {a : α} {h : α → Gddv → Gddv}
    {g : Gddv → Gddv} (hm : Leads len m data 0 a) (hg : h a = g) :
    Loads len (fun buf => m buf >>= fun a => update (h a)) data g () := by
  subst hg
  intro buf before rest c hbuf hoffset hlen hcur hmax
  have hret := hm buf before rest c hbuf hoffset hlen hcur hmax
  rw [int32_offset (by omega) hmax] at hret
  exact hret.bind (.modify _ _)

/-- The loop goes through rows that stand one behind the other. -/
theorem rows_run {enc : ρ → Bytes} {m : Bytes → β → Decoder β} {f : ρ → Gddv → Gddv}
    {k : β → ρ → β} {rows : List ρ} {buf before rest : Bytes} {c : Cursor} {b : β} {n : Nat}
    (hrow : ∀ row ∈ rows, enc row ≠ [] ∧
      ∀ b, Loads len (fun buf => m buf b) (enc row) (f row) (k b row))
    (hkeeps : ∀ row g, (f row g).gddvCurBufLen = g.gddvCurBufLen)
    (hbuf : buf = before ++ rows.flatMap enc ++ rest) (hoffset : c.offset = before.length)
    (hlen : (before.length + (rows.flatMap enc).length : Int) ≤ len)
    (hcur : c.gddv.gddvCurBufLen = len) (hmax : len ≤ intMax) :
    whileBelow (n + rows.length) len (m buf) b c =
      whileBelow n len (m buf) (rows.foldl k b)
        ⟨(before.length + (rows.flatMap enc).length : Nat),
          rows.foldl (fun g row => f row g) c.gddv⟩ := by
  induction rows generalizing before c b with
  | nil =>
      have hplace : ((before.length + (List.flatMap enc []).length : Nat) : Int) = c.offset :=
        hoffset.symm
      rw [hplace]
      rfl
  | cons row rows ih =>
      obtain ⟨⟨hne, hthis⟩, hrest⟩ := List.forall_mem_cons.1 hrow
      have hpos := List.length_pos_iff.mpr hne
      rw [List.flatMap_cons] at hbuf hlen ⊢
      rw [List.length_append] at hlen ⊢
      have hstep := hthis b buf before (rows.flatMap enc ++ rest) c
        (by simp only [hbuf, List.append_assoc]) hoffset (by omega) hcur hmax
      have hothers : buf = (before ++ enc row) ++ rows.flatMap enc ++ rest := by
        simp only [hbuf, List.append_assoc]
      have hloop := ih (b := k b row)
        (c := ⟨(before.length + (enc row).length : Nat), f row c.gddv⟩) hrest hothers
        (by simp only [List.length_append]) (by rw [List.length_append]; omega)
        ((hkeeps row c.gddv).trans hcur)
      rw [List.length_append, Nat.add_assoc] at hloop
      refine Eq.trans (Returns.loop_eq (decide_eq_true ?_) hstep) hloop
      omega

/-- The loop over the rows of a table ends at the end of the table. -/
theorem rows_load {enc : ρ → Bytes} {m : Bytes → β → Decoder β} {f : ρ → Gddv → Gddv}
    {k : β → ρ → β} {rows : List ρ} {buf before rest : Bytes} {c : Cursor} {b : β} {fuel : Nat}
    (hrow : ∀ row ∈ rows, enc row ≠ [] ∧
      ∀ b, Loads len (fun buf => m buf b) (enc row) (f row) (k b row))
    (hkeeps : ∀ row g, (f row g).gddvCurBufLen = g.gddvCurBufLen)
    (hbuf : buf = before ++ rows.flatMap enc ++ rest) (hoffset : c.offset = before.length)
    (hlen : (before.length + (rows.flatMap enc).length : Int) = len)
    (hcur : c.gddv.gddvCurBufLen = len) (hmax : len ≤ intMax) (hfuel : rows.length ≤ fuel) :
    Returns (whileBelow fuel len (m buf) b) c (rows.foldl k b)
      ⟨len, rows.foldl (fun g row => f row g) c.gddv⟩ := by
  obtain ⟨fuel, rfl⟩ : ∃ n, fuel = n + rows.length := ⟨fuel - rows.length, by omega⟩
  have hplace : ((before.length + (rows.flatMap enc).length : Nat) : Int) = len := by omega
  rw [Returns, rows_run hrow hkeeps hbuf hoffset hlen.le hcur hmax, hplace]
  exact Returns.loop_done (decide_eq_false (lt_irrefl _))

end Loads

/-- Storing rows one after the other is storing them all. -/
theorem foldl_stores {ρ γ : Type} (add : List ρ → γ → γ) (hnil : ∀ g, add [] g = g)
    (hcons : ∀ row rows g, add rows (add [row] g) = add (row :: rows) g) (rows : List ρ) (g : γ) :
    rows.foldl (fun g row => add [row] g) g = add rows g := by
  induction rows generalizing g with
  | nil => exact (hnil g).symm
  | cons row rows ih => rw [List.foldl_cons, ih, hcons]

/-! ## Numbers and texts -/

/-- The number is in the range of `int`. -/
def IsInt (n : Int) : Prop := -2147483648 ≤ n ∧ n ≤ intMax

instance (n : Int) : Decidable (IsInt n) := inferInstanceAs (Decidable (_ ∧ _))

theorem IsInt.narrowed {n : Int} (h : IsInt n) : int32 ((uint64 n).toNat : Int) = n :=
  int32_uint64 h.1 h.2

theorem uint_field_ne (value : Nat) (more : Bytes) : uintField value ++ more ≠ [] := by
  rw [← List.length_pos_iff, List.length_append, length_uint_field]
  omega

theorem string_field_ne (value more : Bytes) : stringField value ++ more ≠ [] := by
  simp [stringField]

/-- There are at most as many rows as bytes. -/
theorem length_rows_le {ρ : Type} {enc : ρ → Bytes} {rows : List ρ}
    (h : ∀ row ∈ rows, enc row ≠ []) : rows.length ≤ (rows.flatMap enc).length := by
  induction rows with
  | nil => exact le_rfl
  | cons row rows ih =>
      obtain ⟨hrow, hrows⟩ := List.forall_mem_cons.1 h
      have hpos := List.length_pos_iff.mpr hrow
      have hle := ih hrows
      rw [List.flatMap_cons, List.length_append, List.length_cons]
      omega

end Thermald.Gddv
