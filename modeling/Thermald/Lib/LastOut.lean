import Mathlib.Data.List.Basic
import Mathlib.Data.List.Sublists

/-!
# Lists that give back only their last entry

A resource records its users in a list and a user can withdraw only while it stands at the end.
`withdraw` is one such request and `withdrawAll` a sequence of them. `withdraw_all_eq_nil_iff`
says which sequences empty the list: those in which the users, read from the end of the list to
its front, occur in that order.
-/

namespace Thermald

variable {α κ : Type} [DecidableEq κ] (key : α → κ)

/-- Remove the last entry if it belongs to the user, else leave the list as it is. -/
def withdraw (user : κ) (l : List α) : List α :=
  if l.getLast?.map key = some user then l.dropLast else l

/-- The requests of a sequence of users, in order. -/
def withdrawAll (l : List α) (users : List κ) : List α :=
  users.foldl (fun l user => withdraw key user l) l

variable {key} {user : κ} {l : List α}

@[simp] theorem withdraw_nil : withdraw key user [] = [] := rfl

@[simp] theorem withdraw_all_nil : withdrawAll key l [] = l := rfl

@[simp] theorem withdraw_all_cons {users : List κ} :
    withdrawAll key l (user :: users) = withdrawAll key (withdraw key user l) users := rfl

/-- A list that is not empty has a last entry. -/
theorem exists_last (h : l ≠ []) : ∃ a, l.getLast? = some a :=
  ⟨_, List.getLast?_eq_some_getLast h⟩

/-- An empty list stays empty. -/
@[simp] theorem withdraw_all_of_nil (users : List κ) :
    withdrawAll key ([] : List α) users = [] := by
  induction users with
  | nil => rfl
  | cons user users ih => exact ih

/-- The owner of the last entry withdraws it. -/
theorem withdraw_concat_self (a : α) : withdraw key (key a) (l ++ [a]) = l := by
  simp [withdraw]

/-- Nobody else does. -/
theorem withdraw_concat_of_ne {a : α} (h : key a ≠ user) :
    withdraw key user (l ++ [a]) = l ++ [a] := by
  simp [withdraw, h]

/-- A request leaves a front part of the list. -/
theorem withdraw_front : withdraw key user l <+: l := by
  unfold withdraw
  split
  · exact List.dropLast_prefix l
  · exact List.prefix_refl l

/-- The requests empty the list exactly when they visit its users from the last to the first. -/
theorem withdraw_all_eq_nil_iff (users : List κ) (l : List α) :
    withdrawAll key l users = [] ↔ (l.map key).reverse.Sublist users := by
  induction users generalizing l with
  | nil => simp
  | cons user users ih =>
      rcases List.eq_nil_or_concat l with rfl | ⟨front, a, rfl⟩
      · simp
      · by_cases h : key a = user
        · subst h
          simp [withdraw_concat_self, ih, List.concat_eq_append]
        · rw [List.concat_eq_append, withdraw_all_cons, withdraw_concat_of_ne h, ih]
          simp only [List.map_append, List.map_cons, List.map_nil, List.reverse_append,
            List.reverse_cons, List.reverse_nil, List.nil_append, List.singleton_append]
          constructor
          · exact fun hsub => hsub.cons user
          · intro hsub
            cases hsub with
            | cons _ hsub => exact hsub
            | cons_cons => exact (h rfl).elim

end Thermald
