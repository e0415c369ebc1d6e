import Mathlib.Data.List.Basic

/-!
# Lists in two parts

In a staircase all entries before some place have one property and all entries behind it another
one; the entry at the place itself is free. A loop that only changes the first entry without the
first property, or the last one without the second property, keeps a staircase (`staircase_cons`
and `staircase_reverse` are the steps of such loops).
-/

namespace Thermald

variable {α : Type} {P Q : α → Prop} {l : List α} {a : α}

/-- The entries before some place are `P` and those behind it are `Q`. -/
def Staircase (P Q : α → Prop) (l : List α) : Prop :=
  l = [] ∨ ∃ front a back, l = front ++ a :: back ∧ (∀ b ∈ front, P b) ∧ ∀ b ∈ back, Q b

/-- All entries are `Q`. -/
theorem staircase_of_forall (h : ∀ b ∈ l, Q b) : Staircase P Q l := by
  cases l with
  | nil => exact .inl rfl
  | cons a l =>
      exact .inr ⟨[], a, l, rfl, by simp, fun b hb => h b (List.mem_cons_of_mem _ hb)⟩

/-- The first entry is `P` and a staircase follows, or all others are `Q`. -/
theorem staircase_cons :
    Staircase P Q (a :: l) ↔ (P a ∧ Staircase P Q l) ∨ ∀ b ∈ l, Q b := by
  constructor
  · rintro (h | ⟨front, b, back, heq, hfront, hback⟩)
    · cases h
    · cases front with
      | nil =>
          right
          rw [(List.cons.inj heq).2]
          exact hback
      | cons c front =>
          obtain ⟨rfl, rfl⟩ := List.cons.inj heq
          exact .inl ⟨hfront a List.mem_cons_self, .inr ⟨front, b, back, rfl,
            fun x hx => hfront x (List.mem_cons_of_mem _ hx), hback⟩⟩
  · rintro (⟨ha, h | ⟨front, b, back, rfl, hfront, hback⟩⟩ | h)
    · subst h
      exact .inr ⟨[], a, [], rfl, by simp, by simp⟩
    · refine .inr ⟨a :: front, b, back, rfl, fun x hx => ?_, hback⟩
      rcases List.mem_cons.mp hx with rfl | hx
      · exact ha
      · exact hfront x hx
    · exact .inr ⟨[], a, l, rfl, by simp, h⟩

/-- Read from the other end, a staircase is one with its parts exchanged. -/
theorem staircase_reverse : Staircase P Q l.reverse ↔ Staircase Q P l := by
  have hone : ∀ {P Q : α → Prop} {l : List α}, Staircase Q P l → Staircase P Q l.reverse := by
    rintro P Q l (rfl | ⟨front, a, back, rfl, hfront, hback⟩)
    · exact .inl rfl
    · refine .inr ⟨back.reverse, a, front.reverse, by simp, fun b hb => ?_, fun b hb => ?_⟩
      · exact hback b (List.mem_reverse.mp hb)
      · exact hfront b (List.mem_reverse.mp hb)
  exact ⟨fun h => List.reverse_reverse l ▸ hone h, hone⟩

/-- A staircase stays one when all entries keep what they have. -/
theorem Staircase.imp {P' Q' : α → Prop} (h : Staircase P Q l) (hP : ∀ b ∈ l, P b → P' b)
    (hQ : ∀ b ∈ l, Q b → Q' b) : Staircase P' Q' l := by
  rcases h with rfl | ⟨front, a, back, rfl, hfront, hback⟩
  · exact .inl rfl
  · exact .inr ⟨front, a, back, rfl, fun b hb => hP b (by simp [hb]) (hfront b hb),
      fun b hb => hQ b (by simp [hb]) (hback b hb)⟩

/-- The staircase of the images of a list. -/
theorem staircase_map {β : Type} {f : β → α} {l : List β} :
    Staircase P Q (l.map f) ↔ Staircase (fun b => P (f b)) (fun b => Q (f b)) l := by
  induction l with
  | nil => exact ⟨fun _ => .inl rfl, fun _ => .inl rfl⟩
  | cons b l ih =>
      rw [List.map_cons, staircase_cons, staircase_cons, ih]
      simp

/-- The place, as an index. -/
theorem Staircase.exists_index (h : Staircase P Q l) :
    ∃ k : Nat, ∀ (i : Nat) (b : α), l[i]? = some b → (i < k → P b) ∧ (k < i → Q b) := by
  rcases h with rfl | ⟨front, a, back, rfl, hfront, hback⟩
  · exact ⟨0, by simp⟩
  · refine ⟨front.length, fun i b hget => ⟨fun hi => ?_, fun hi => ?_⟩⟩
    · rw [List.getElem?_append_left hi] at hget
      exact hfront b (List.mem_of_getElem? hget)
    · rw [List.getElem?_append_right (by omega)] at hget
      obtain ⟨j, hj⟩ : ∃ j, i - front.length = j + 1 := ⟨i - front.length - 1, by omega⟩
      rw [hj, List.getElem?_cons_succ] at hget
      exact hback b (List.mem_of_getElem? hget)

end Thermald
