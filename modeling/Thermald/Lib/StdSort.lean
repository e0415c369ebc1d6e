import Mathlib.Data.List.Sort
import Mathlib.Data.List.Basic

/-!
# The unspecified sort of the standard library

`std::sort` returns a permutation in which no element is preceded by one the comparison puts
after it. The order of equivalent elements is left open by the language standard, so the model
takes the sort as a parameter: `StdSort` carries the function with the two guarantees, and every
result below holds for all implementations. `StdSort.insertion` is the stable implementation
that closed computations use.
-/

namespace Thermald

/-- The comparison orders the elements by a key, as every comparison passed to the sort does. -/
def KeyOrder {α : Type} (lt : α → α → Bool) : Prop :=
  ∃ key : α → Int, ∀ a b, lt a b = decide (key a < key b)

/-- An implementation of `std::sort`. -/
class StdSort where
  sort : {α : Type} → (α → α → Bool) → List α → List α
  perm : ∀ {α : Type} (lt : α → α → Bool) (l : List α), (sort lt l).Perm l
  sorted : ∀ {α : Type} (lt : α → α → Bool) (l : List α), KeyOrder lt →
    (sort lt l).Pairwise fun a b => lt b a = false

namespace StdSort

section Laws

variable [StdSort] {α : Type} {lt : α → α → Bool} {l : List α}

/-- Sorting neither loses nor invents an element. -/
@[simp] theorem mem_sort {a : α} : a ∈ sort lt l ↔ a ∈ l :=
  (perm lt l).mem_iff

/-- Sorting a nonempty list leaves it nonempty. -/
@[simp] theorem sort_eq_nil : sort lt l = [] ↔ l = [] := by
  constructor
  · intro h
    exact (h ▸ perm lt l : ([] : List α).Perm l).nil_eq.symm
  · intro heq
    subst heq
    exact (perm lt []).eq_nil

end Laws

/-- Insertion behind all elements that the comparison does not put after the new one. -/
def insertLast {α : Type} (lt : α → α → Bool) (a : α) : List α → List α
  | [] => [a]
  | b :: rest => if lt a b then a :: b :: rest else b :: insertLast lt a rest

/-- Inserting adds the element and keeps the others. -/
theorem insert_last_perm {α : Type} (lt : α → α → Bool) (a : α) (l : List α) :
    (insertLast lt a l).Perm (a :: l) := by
  induction l with
  | nil => exact .refl _
  | cons b rest ih =>
      unfold insertLast
      split
      · exact .refl _
      · exact (ih.cons b).trans (.swap a b rest)

/-- Inserting into a sorted list keeps it sorted. -/
theorem insert_last_sorted {α : Type} {lt : α → α → Bool} (hlt : KeyOrder lt) (a : α)
    {l : List α} (hl : l.Pairwise fun x y => lt y x = false) :
    (insertLast lt a l).Pairwise fun x y => lt y x = false := by
  obtain ⟨key, hkey⟩ := hlt
  simp only [hkey, decide_eq_false_iff_not, not_lt] at hl ⊢
  induction l with
  | nil => simp [insertLast]
  | cons b rest ih =>
      unfold insertLast
      have hhead : ∀ {c}, c ∈ rest → key b ≤ key c := List.rel_of_pairwise_cons hl
      split
      · rename_i hab
        rw [hkey, decide_eq_true_eq] at hab
        refine List.pairwise_cons.mpr ⟨fun c hc => ?_, hl⟩
        rcases List.mem_cons.mp hc with rfl | hc
        · exact le_of_lt hab
        · exact (le_of_lt hab).trans (hhead hc)
      · rename_i hab
        rw [hkey, decide_eq_true_eq, not_lt] at hab
        refine List.pairwise_cons.mpr ⟨fun c hc => ?_, ih (List.Pairwise.of_cons hl)⟩
        rcases List.mem_cons.mp ((insert_last_perm lt a rest).mem_iff.mp hc) with rfl | hc
        · exact hab
        · exact hhead hc

/-- The stable insertion sort, one admissible implementation. -/
@[reducible] def insertion : StdSort where
  sort lt l := l.foldl (fun sorted a => insertLast lt a sorted) []
  perm lt l := by
    have h : ∀ (l acc : List _),
        (l.foldl (fun sorted a => insertLast lt a sorted) acc).Perm (acc ++ l) := by
      intro l
      induction l with
      | nil => intro acc; simp
      | cons a rest ih =>
          intro acc
          refine (ih _).trans ?_
          exact ((insert_last_perm lt a acc).append_right rest).trans List.perm_middle.symm
    simpa using h l []
  sorted lt l hlt := by
    have h : ∀ (l acc : List _), acc.Pairwise (fun x y => lt y x = false) →
        (l.foldl (fun sorted a => insertLast lt a sorted) acc).Pairwise
          fun x y => lt y x = false := by
      intro l
      induction l with
      | nil => intro acc hacc; exact hacc
      | cons a rest ih => intro acc hacc; exact ih _ (insert_last_sorted hlt a hacc)
    exact h l [] .nil

/-! ## Sorting again -/

section Again

variable {α : Type} {lt : α → α → Bool} {l : List α}

/-- If no two different elements are equivalent, a sorted list is left as it is. -/
theorem sort_sort [StdSort] (hlt : KeyOrder lt)
    (h : ∀ a ∈ l, ∀ b ∈ l, lt a b = false → lt b a = false → a = b) :
    sort lt (sort lt l) = sort lt l := by
  refine List.Perm.eq_of_pairwise (fun a b ha hb hba hab => ?_) (sorted lt _ hlt)
    (sorted lt _ hlt) (perm lt _)
  rw [mem_sort, mem_sort] at ha
  rw [mem_sort] at hb
  exact h a ha b hb hab hba

/-- Two elements of a list in exchanged places. -/
theorem exchange_perm (front middle back : List α) (a b : α) :
    (front ++ b :: (middle ++ a :: back)).Perm (front ++ a :: (middle ++ b :: back)) := by
  refine List.Perm.append_left front ?_
  have hout : (b :: (middle ++ a :: back)).Perm (b :: a :: (middle ++ back)) :=
    List.perm_middle.cons b
  exact (hout.trans (.swap a b _)).trans (List.perm_middle.symm.cons a)

/-- Two different elements with the same key can be exchanged without a change of the keys. -/
theorem exists_exchanged {κ : Type} (key : α → κ) {a b : α} (ha : a ∈ l) (hb : b ∈ l) (hne : a ≠ b)
    (hkey : key a = key b) : ∃ l' : List α, l'.Perm l ∧ l' ≠ l ∧ l'.map key = l.map key := by
  obtain ⟨front, back, rfl⟩ := List.append_of_mem ha
  rcases List.mem_append.mp hb with hfront | hback
  · obtain ⟨front, middle, rfl⟩ := List.append_of_mem hfront
    rw [List.append_assoc, List.cons_append]
    exact ⟨_, exchange_perm front middle back b a, by simp [hne], by simp [hkey]⟩
  · rcases List.mem_cons.mp hback with heq | hback
    · exact absurd heq.symm hne
    · obtain ⟨middle, back, rfl⟩ := List.append_of_mem hback
      exact ⟨_, exchange_perm front middle back a b, by simp [hne.symm], by simp [hkey]⟩

open Classical in
/-- An admissible implementation that leaves no list alone if it may return another one. -/
@[reducible] noncomputable def restless : StdSort where
  sort lt l :=
    if h : ∃ l' : List _, l'.Perm l ∧ l' ≠ l ∧
        (KeyOrder lt → l'.Pairwise fun a b => lt b a = false) then h.choose
    else insertion.sort lt l
  perm lt l := by
    split
    next h => exact h.choose_spec.1
    next => exact insertion.perm lt l
  sorted lt l hlt := by
    split
    next h => exact h.choose_spec.2.2 hlt
    next => exact insertion.sorted lt l hlt

/-- It exchanges equivalent elements of a sorted list. -/
theorem restless_sort_ne (hlt : KeyOrder lt) (hl : l.Pairwise fun a b => lt b a = false) {a b : α}
    (ha : a ∈ l) (hb : b ∈ l) (hne : a ≠ b) (hab : lt a b = false) (hba : lt b a = false) :
    restless.sort lt l ≠ l := by
  obtain ⟨key, hkey⟩ := hlt
  rw [hkey, decide_eq_false_iff_not] at hab hba
  obtain ⟨l', hperm, hdiffers, hkeys⟩ := exists_exchanged key ha hb hne (by omega)
  have hsorted : l'.Pairwise fun a b => lt b a = false := by
    have hmap : (l.map key).Pairwise fun i j => decide (j < i) = false := by
      rw [List.pairwise_map]
      simpa only [hkey] using hl
    rw [← hkeys, List.pairwise_map] at hmap
    simpa only [hkey] using hmap
  have h : ∃ l' : List α, l'.Perm l ∧ l' ≠ l ∧
      (KeyOrder lt → l'.Pairwise fun a b => lt b a = false) :=
    ⟨l', hperm, hdiffers, fun _ => hsorted⟩
  have hsort : restless.sort lt l = h.choose := dif_pos h
  rw [hsort]
  exact h.choose_spec.2.1

end Again

end StdSort

end Thermald
