import Mathlib.Data.List.Induction
import Mathlib.Data.List.Nodup
import Mathlib.Tactic.Common
import Thermald.Lib.Merged

/-!
# Grouping in order of first appearance

Entries with a key and an item are put one after the other into the group of their key, which is
made at the end of the list when the key appears for the first time. `Grouped` says which groups
there are and what each has taken, and `collect` keeps it. The second part is about the places of
a key in a list of keys.
-/

namespace Thermald

variable {κ ι γ : Type} [DecidableEq κ]

/-! ## First appearances -/

section Order

variable {keys : List κ} {k : κ}

/-- A key that is there already is no new appearance. -/
theorem erase_dups_concat : (keys ++ [k]).eraseDups =
    if k ∈ keys then keys.eraseDups else keys.eraseDups ++ [k] := by
  rw [List.eraseDups_append]
  split
  · rename_i hmem
    simp [List.removeAll, hmem]
  · rename_i hnew
    simp [List.removeAll, hnew, List.eraseDups_cons]

/-- The keys stand in the order in which they appear first. -/
theorem erase_dups_order (keys : List κ) :
    keys.eraseDups.Pairwise fun k k' => keys.idxOf k < keys.idxOf k' := by
  induction keys using List.reverseRecOn with
  | nil => exact .nil
  | append_singleton keys k ih =>
      have hold : keys.eraseDups.Pairwise fun k₁ k₂ =>
          (keys ++ [k]).idxOf k₁ < (keys ++ [k]).idxOf k₂ := by
        refine ih.imp_of_mem fun {k₁ k₂} h₁ h₂ hlt => ?_
        rwa [List.idxOf_append_of_mem (List.mem_eraseDups.mp h₁),
          List.idxOf_append_of_mem (List.mem_eraseDups.mp h₂)]
      rw [erase_dups_concat]
      split
      · exact hold
      · rename_i hnew
        refine List.pairwise_append.mpr ⟨hold, List.pairwise_singleton _ _, fun k₁ h₁ k₂ h₂ => ?_⟩
        have hmem : k₁ ∈ keys := List.mem_eraseDups.mp h₁
        rw [List.mem_singleton.mp h₂, List.idxOf_append_of_mem hmem,
          List.idxOf_append_of_notMem hnew]
        exact Nat.lt_add_right _ (List.idxOf_lt_length_iff.mpr hmem)

/-- No key appears twice. -/
theorem erase_dups_nodup (keys : List κ) : keys.eraseDups.Nodup := by
  refine (erase_dups_order keys).imp fun {k k'} hlt heq => ?_
  rw [heq] at hlt
  exact Nat.lt_irrefl _ hlt

end Order

/-! ## Groups -/

variable (key : γ → κ) (fresh : κ → ι → γ) (push : ι → γ → γ)

/-- The group of the key takes the item. -/
def collect (groups : List γ) (entry : κ × ι) : List γ :=
  match groups.findIdx? fun g => key g = entry.1 with
  | none => groups ++ [push entry.2 (fresh entry.1 entry.2)]
  | some i => groups.modify i (push entry.2)

/-- The items of a key. -/
def itemsOf (entries : List (κ × ι)) (k : κ) : List ι :=
  (entries.filter fun e => e.1 = k).map (·.2)

/-- A new group takes the items of its key. -/
def build (k : κ) (first : ι) (rest : List ι) : γ :=
  rest.foldl (fun g i => push i g) (push first (fresh k first))

/-- The groups of some entries: one for each key, in the order of first appearance, that has taken
the items of its key in their order. -/
structure Grouped (entries : List (κ × ι)) (groups : List γ) : Prop where
  keys : groups.map key = (entries.map (·.1)).eraseDups
  built : ∀ g ∈ groups, ∃ first rest,
    itemsOf entries (key g) = first :: rest ∧ g = build fresh push (key g) first rest

variable {key fresh push} {entries : List (κ × ι)} {groups : List γ} {k : κ} {i : ι}

theorem items_of_append (more : List (κ × ι)) :
    itemsOf (entries ++ more) k = itemsOf entries k ++ itemsOf more k := by
  simp [itemsOf]

theorem items_of_self : itemsOf [(k, i)] k = [i] := by
  simp [itemsOf]

theorem items_of_ne {k' : κ} (h : k ≠ k') : itemsOf [(k, i)] k' = [] := by
  simp [itemsOf, h]

omit [DecidableEq κ] in
/-- One more item. -/
theorem build_concat (first : ι) (rest : List ι) :
    build fresh push k first (rest ++ [i]) = push i (build fresh push k first rest) := by
  simp [build]

omit [DecidableEq κ] in
/-- The key of a group is the one that it was made for. -/
theorem key_build (hfresh : ∀ k i, key (fresh k i) = k) (hpush : ∀ i g, key (push i g) = key g)
    (first : ι) (rest : List ι) : key (build fresh push k first rest) = k := by
  induction rest using List.reverseRecOn with
  | nil => rw [build, List.foldl_nil, hpush, hfresh]
  | append_singleton rest i ih => rw [build_concat, hpush, ih]

/-- An item that goes to another group. -/
theorem Grouped.built_ne (h : Grouped key fresh push entries groups) {g : γ} (hg : g ∈ groups)
    (hne : k ≠ key g) : ∃ first rest, itemsOf (entries ++ [(k, i)]) (key g) = first :: rest ∧
      g = build fresh push (key g) first rest := by
  obtain ⟨first, rest, hitems, heq⟩ := h.built g hg
  refine ⟨first, rest, ?_, heq⟩
  rw [items_of_append, items_of_ne hne, List.append_nil, hitems]

/-- One entry keeps the groups those of all entries so far. -/
theorem Grouped.collect (hfresh : ∀ k i, key (fresh k i) = k)
    (hpush : ∀ i g, key (push i g) = key g) (h : Grouped key fresh push entries groups)
    (entry : κ × ι) :
    Grouped key fresh push (entries ++ [entry]) (collect key fresh push groups entry) := by
  obtain ⟨k, i⟩ := entry
  have hkeys : ((entries ++ [(k, i)]).map (·.1)).eraseDups =
      if k ∈ entries.map (·.1) then groups.map key else groups.map key ++ [k] := by
    rw [h.keys, List.map_append, List.map_singleton, erase_dups_concat]
  have hmem : k ∈ entries.map (·.1) ↔ k ∈ groups.map key := by
    rw [h.keys, List.mem_eraseDups]
  unfold Thermald.collect
  cases hfind : groups.findIdx? fun g => key g = k with
  | none =>
      have hnone : ∀ g ∈ groups, key g ≠ k := fun g hg =>
        of_decide_eq_false (List.findIdx?_eq_none_iff.mp hfind g hg)
      have hnew : k ∉ entries.map (·.1) := by
        rw [hmem]
        intro hk
        obtain ⟨g, hg, heq⟩ := List.mem_map.mp hk
        exact hnone g hg heq
      have hkey : key (push i (fresh k i)) = k := (hpush i _).trans (hfresh k i)
      refine ⟨?_, fun g hg => ?_⟩
      · rw [hkeys, if_neg hnew, List.map_append, List.map_singleton, hkey]
      · rcases List.mem_append.mp hg with hg | hg
        · exact h.built_ne hg (hnone g hg).symm
        · obtain rfl := List.mem_singleton.mp hg
          refine ⟨i, [], ?_, ?_⟩
          · have hnil : itemsOf entries k = [] := by
              refine List.map_eq_nil_iff.mpr (List.filter_eq_nil_iff.mpr fun e he hek => ?_)
              exact hnew (of_decide_eq_true hek ▸ List.mem_map_of_mem he)
            rw [hkey, items_of_append, hnil, items_of_self]
            rfl
          · rw [hkey]
            rfl
  | some j =>
      obtain ⟨hj, hjk, -⟩ := List.findIdx?_eq_some_iff_getElem.mp hfind
      have hjk : key groups[j] = k := of_decide_eq_true hjk
      have hold : k ∈ entries.map (·.1) :=
        hmem.mpr (hjk ▸ List.mem_map_of_mem (List.getElem_mem hj))
      have hsame : (groups.modify j (push i)).map key = groups.map key :=
        map_modify_same (hpush i) groups j
      refine ⟨?_, fun g hg => ?_⟩
      · rw [hkeys, if_pos hold]
        exact hsame
      · obtain ⟨j', hj'⟩ := List.mem_iff_getElem?.mp hg
        rw [List.getElem?_modify] at hj'
        by_cases heq : j = j'
        · subst heq
          obtain rfl : push i groups[j] = g := by simpa [hj] using hj'
          obtain ⟨first, rest, hitems, hbuilt⟩ := h.built _ (List.getElem_mem hj)
          rw [hjk] at hitems hbuilt
          refine ⟨first, rest ++ [i], ?_, ?_⟩
          · rw [hpush, hjk, items_of_append, hitems, items_of_self]
            rfl
          · rw [hpush, hjk, build_concat, ← hbuilt]
        · have hg : groups[j']? = some g := by simpa [heq] using hj'
          refine h.built_ne (List.mem_of_getElem? hg) fun hk => ?_
          -- two groups with one key
          have hnodup : (groups.map key).Nodup := h.keys ▸ erase_dups_nodup _
          have hplace : (groups.map key)[j]? = (groups.map key)[j']? := by
            simp [hg, hj, hjk, hk]
          have hlen : j < (groups.map key).length := by
            rw [List.length_map]
            exact hj
          exact heq ((List.getElem?_inj hlen hnodup).mp hplace)

/-- The groups of all entries. -/
theorem grouped_foldl (hfresh : ∀ k i, key (fresh k i) = k) (hpush : ∀ i g, key (push i g) = key g)
    (entries : List (κ × ι)) :
    Grouped key fresh push entries (entries.foldl (collect key fresh push) []) := by
  induction entries using List.reverseRecOn with
  | nil => exact ⟨rfl, fun g hg => absurd hg List.not_mem_nil⟩
  | append_singleton entries entry ih =>
      rw [List.foldl_append]
      exact ih.collect hfresh hpush entry

/-! ## Places -/

/-- The places of a key. -/
def placesOf (keys : List κ) (k : κ) : List Nat :=
  (keys.zipIdx.filter fun e => e.1 = k).map (·.2)

@[simp] theorem mem_places_of {keys : List κ} {n : Nat} :
    n ∈ placesOf keys k ↔ keys[n]? = some k := by
  unfold placesOf
  rw [List.mem_map]
  constructor
  · rintro ⟨e, he, rfl⟩
    obtain ⟨hmem, hk⟩ := List.mem_filter.mp he
    rw [← of_decide_eq_true hk]
    exact List.mem_zipIdx_iff_getElem?.mp hmem
  · intro h
    refine ⟨(k, n), List.mem_filter.mpr ⟨List.mem_zipIdx_iff_getElem?.mpr h, ?_⟩, rfl⟩
    exact decide_eq_true rfl

/-- The places are in ascending order. -/
theorem places_of_ascending (keys : List κ) (k : κ) : (placesOf keys k).Pairwise (· < ·) := by
  have hsub : (placesOf keys k).Sublist (keys.zipIdx.map (·.2)) := List.filter_sublist.map _
  refine List.Pairwise.sublist hsub ?_
  rw [List.zipIdx_map_snd]
  exact List.pairwise_lt_range'

/-- The entries at the places of a key are the entries with this key. -/
theorem filter_map_places_of {α : Type} (key : α → κ) (table : List α) (k : κ) :
    (placesOf (table.map key) k).filterMap (fun n => table[n]?) =
      table.filter fun a => key a = k := by
  unfold placesOf
  rw [List.zipIdx_map, List.filter_map, List.map_map, List.filterMap_map]
  have hget : ∀ e ∈ table.zipIdx.filter (fun e => decide (key e.1 = k)),
      table[e.2]? = some e.1 := by
    intro e he
    exact List.mem_zipIdx_iff_getElem?.mp (List.mem_filter.mp he).1
  calc (table.zipIdx.filter fun e => decide (key e.1 = k)).filterMap (fun e => table[e.2]?)
    _ = (table.zipIdx.filter fun e => decide (key e.1 = k)).map (·.1) := by
        rw [← List.filterMap_eq_map]
        exact List.filterMap_congr hget
    _ = (table.zipIdx.map (·.1)).filter fun a => decide (key a = k) := by
        rw [List.filter_map]
        rfl
    _ = table.filter fun a => decide (key a = k) := by
        rw [List.zipIdx_map_fst]

/-- A key has no places exactly if no entry has it. -/
theorem places_of_eq_nil {α : Type} (key : α → κ) (table : List α) (k : κ) :
    placesOf (table.map key) k = [] ↔ (table.filter fun a => key a = k) = [] := by
  unfold placesOf
  rw [List.map_eq_nil_iff, List.filter_eq_nil_iff, List.filter_eq_nil_iff]
  constructor
  · intro h a ha
    obtain ⟨n, hn, rfl⟩ := List.mem_iff_getElem.mp ha
    refine h (key table[n], n) (List.mem_zipIdx_iff_getElem?.mpr ?_)
    rw [List.getElem?_map, List.getElem?_eq_getElem hn]
    rfl
  · intro h e he
    have hget := List.mem_zipIdx_iff_getElem?.mp he
    rw [List.getElem?_map, Option.map_eq_some_iff] at hget
    obtain ⟨a, ha, heq⟩ := hget
    rw [← heq]
    exact h a (List.mem_of_getElem? ha)

/-- The places of all keys are all places, each of them once. -/
theorem places_of_perm {keys ks : List κ} (hnodup : ks.Nodup) (hall : ∀ k ∈ keys, k ∈ ks) :
    (ks.flatMap (placesOf keys)).Perm (List.range keys.length) := by
  refine (List.perm_ext_iff_of_nodup ?_ List.nodup_range).mpr fun n => ?_
  · refine List.nodup_flatMap.mpr ⟨fun k _ => (places_of_ascending keys k).imp Nat.ne_of_lt, ?_⟩
    refine hnodup.imp fun {k k'} hne n hn hn' => hne ?_
    rw [mem_places_of] at hn hn'
    exact Option.some.inj (hn.symm.trans hn')
  · rw [List.mem_flatMap, List.mem_range]
    constructor
    · rintro ⟨k, -, hn⟩
      exact (List.getElem?_eq_some_iff.mp (mem_places_of.mp hn)).1
    · intro hn
      exact ⟨keys[n], hall _ (List.getElem_mem hn),
        mem_places_of.mpr (List.getElem?_eq_getElem hn)⟩

end Thermald
