import Mathlib.Data.List.Nodup
import Mathlib.Tactic.Common

/-!
# Records merged by key

Records are added to a list one after the other. A record whose key is new becomes an entry, and
one whose key is known updates the entry. `Merged` relates the list to all records added so far,
the first and the last one of each key in particular, and both ways of adding keep it.
-/

namespace Thermald

variable {α β κ : Type}

/-- A change of one entry that a function does not see. -/
theorem map_modify_same {f : α → α} {g : α → β} (h : ∀ a, g (f a) = g a) (l : List α) (i : Nat) :
    (l.modify i f).map g = l.map g := by
  apply List.ext_getElem?
  intro j
  rw [List.getElem?_map, List.getElem?_map, List.getElem?_modify]
  cases l[j]? with
  | none => rfl
  | some a => by_cases hij : i = j <;> simp [hij, h]

/-- A record takes some of its fields over from a later one with its key. -/
structure Updates (key : α → κ) (update : α → α → α) : Prop where
  key_update : ∀ old new, key (update old new) = key old
  update_self : ∀ a, update a a = a
  update_update : ∀ a b c, update (update a b) c = update a c

variable [DecidableEq κ] {key : α → κ} {update : α → α → α} {added l : List α} {a : α}

/-- The records with a key. -/
def withKey (key : α → κ) (k : κ) (added : List α) : List α :=
  added.filter fun a => key a = k

/-- One entry for each key that was ever added: the first record with the key, updated with the
last one. -/
structure Merged (key : α → κ) (update : α → α → α) (added l : List α) : Prop where
  distinct : (l.map key).Nodup
  complete : ∀ k, k ∈ l.map key ↔ k ∈ added.map key
  fields : ∀ b ∈ l, ∃ first last, (withKey key (key b) added).head? = some first ∧
    (withKey key (key b) added).getLast? = some last ∧ b = update first last

theorem with_key_append_self : withKey key (key a) (added ++ [a]) =
    withKey key (key a) added ++ [a] := by
  simp [withKey]

theorem with_key_append_ne {k : κ} (h : key a ≠ k) :
    withKey key k (added ++ [a]) = withKey key k added := by
  simp [withKey, h]

namespace Merged

/-- No records, no entries. -/
theorem nil : Merged key update ([] : List α) [] :=
  ⟨List.nodup_nil, fun _ => Iff.rfl, fun _ hb => absurd hb List.not_mem_nil⟩

/-- The order of the entries plays no part. -/
theorem perm {l' : List α} (h : Merged key update added l) (hperm : l'.Perm l) :
    Merged key update added l' where
  distinct := (hperm.map key).nodup_iff.mpr h.distinct
  complete k := (hperm.map key).mem_iff.trans (h.complete k)
  fields b hb := h.fields b (hperm.mem_iff.mp hb)

/-- A record with a new key becomes an entry. -/
theorem add_new (h : Merged key update added l) (hupdate : Updates key update)
    (hnew : ∀ b ∈ l, key b ≠ key a) : Merged key update (added ++ [a]) (l ++ [a]) where
  distinct := by
    rw [List.map_append, List.map_singleton, List.nodup_append]
    refine ⟨h.distinct, List.nodup_singleton _, fun k hk k' hk' => ?_⟩
    obtain ⟨b, hb, rfl⟩ := List.mem_map.mp hk
    rw [List.mem_singleton.mp hk']
    exact hnew b hb
  complete k := by
    rw [List.map_append, List.map_append, List.mem_append, List.mem_append, h.complete]
  fields b hb := by
    rcases List.mem_append.mp hb with hb | hb
    · rw [with_key_append_ne (hnew b hb).symm]
      exact h.fields b hb
    · obtain rfl := List.mem_singleton.mp hb
      -- nothing with its key was added before
      have hnone : withKey key (key b) added = [] := by
        refine List.filter_eq_nil_iff.mpr fun c hc hkey => ?_
        have hmem : key b ∈ l.map key :=
          (h.complete _).mpr (of_decide_eq_true hkey ▸ List.mem_map_of_mem hc)
        obtain ⟨b', hb', heq⟩ := List.mem_map.mp hmem
        exact hnew b' hb' heq
      refine ⟨b, b, ?_, ?_, (hupdate.update_self b).symm⟩
      · rw [with_key_append_self, hnone]
        rfl
      · rw [with_key_append_self, hnone]
        rfl

/-- A record with a known key updates the entry. -/
theorem add_known (h : Merged key update added l) (hupdate : Updates key update) {i : Nat} {old : α}
    (hold : l[i]? = some old) (hkey : key old = key a) :
    Merged key update (added ++ [a]) (l.modify i fun b => update b a) := by
  have hkeys : (l.modify i fun b => update b a).map key = l.map key :=
    map_modify_same (fun b => hupdate.key_update b a) l i
  have hmem : key a ∈ added.map key :=
    (h.complete _).mp (hkey ▸ List.mem_map_of_mem (List.mem_of_getElem? hold))
  refine ⟨hkeys ▸ h.distinct, fun k => ?_, fun b hb => ?_⟩
  · rw [hkeys, h.complete, List.map_append, List.map_singleton, List.mem_append,
      List.mem_singleton]
    exact ⟨.inl, fun hk => hk.elim id fun heq => heq ▸ hmem⟩
  · obtain ⟨j, hj⟩ := List.mem_iff_getElem?.mp hb
    rw [List.getElem?_modify] at hj
    by_cases hij : i = j
    · subst hij
      obtain rfl : update old a = b := by simpa [hold] using hj
      obtain ⟨first, last, hfirst, -, rfl⟩ := h.fields old (List.mem_of_getElem? hold)
      rw [hupdate.key_update, hkey, with_key_append_self]
      refine ⟨first, a, ?_, List.getLast?_concat .., hupdate.update_update first last a⟩
      rw [hkey] at hfirst
      rw [List.head?_append, hfirst]
      rfl
    · have hb : l[j]? = some b := by simpa [hij] using hj
      have hne : key a ≠ key b := by
        intro heq
        have hsame : (l.map key)[i]? = (l.map key)[j]? := by
          simp [hold, hb, hkey, heq]
        have hi : i < (l.map key).length := by
          rw [List.length_map]
          exact (List.getElem?_eq_some_iff.mp hold).1
        exact hij ((List.getElem?_inj hi h.distinct).mp hsame)
      rw [with_key_append_ne hne]
      exact h.fields b (List.mem_of_getElem? hb)

end Merged

end Thermald
