import Mathlib.Data.Option.Basic
import Mathlib.Tactic.Common

/-!
# Members of a record under partial functions

A partial function on a record acts on one of its members if what it leaves there depends on that
member alone. It sets the member if what it leaves does not depend on anything; otherwise it fails
from every record, or from none and tells different values apart. The two kinds compose, so that
for a loop it is enough to know each step: the loop sets the member if some step does
(`ActsOn.foldlM`), and two runs that do not fail leave the same in the member exactly if the loop
sets it or the records agree on it (`ActsOn.eq_iff`). A property that each step of a loop keeps is
kept by the loop (`Preserves.foldlM`). Where the record has no part in whether a step fails, a loop
has a result exactly if each of its steps does (`SucceedsIff.foldlM`).
-/

namespace Thermald

variable {σ τ α β ι : Type}

/-- The function acts on the member, and sets it or tells different values apart. -/
def ActsOn (member : σ → α) (f : σ → Option σ) (sets : Bool) : Prop :=
  ∃ g : α → Option α, (∀ s, (f s).map member = g (member s)) ∧
    if sets then ∀ x y, g x = g y
    else (∀ x, g x = none) ∨ (∀ x, (g x).isSome = true) ∧ Function.Injective g

namespace ActsOn

variable {member : σ → α} {f f' : σ → Option σ} {sets sets' : Bool}

/-- A member that is left alone. -/
theorem keeps (h : ∀ s, (f s).map member = some (member s)) : ActsOn member f false :=
  ⟨some, h, .inr ⟨fun _ => rfl, Option.some_injective α⟩⟩

/-- A member that gets the same value, or the same failure, from every record. -/
theorem writes {v : Option α} (h : ∀ s, (f s).map member = v) : ActsOn member f true :=
  ⟨fun _ => v, h, fun _ _ => rfl⟩

/-- A list that is appended to. -/
theorem appends {member : σ → List β} {l : List β}
    (h : ∀ s, (f s).map member = some (member s ++ l)) : ActsOn member f false := by
  refine ⟨fun x => some (x ++ l), h, .inr ⟨fun _ => rfl, fun x y heq => ?_⟩⟩
  exact List.append_cancel_right (Option.some.inj heq)

/-- A function that always fails. -/
theorem fails (h : ∀ s, f s = none) : ActsOn member f false := by
  refine ⟨fun _ => none, fun s => ?_, .inl fun _ => rfl⟩
  rw [h]
  rfl

/-- A member of a record in a record. -/
theorem inside {inner : τ → σ} {F : τ → Option τ} (h : ActsOn member f sets)
    (hF : ∀ t, (F t).map (fun t => member (inner t)) = (f (inner t)).map member) :
    ActsOn (fun t => member (inner t)) F sets := by
  obtain ⟨g, hg, hsets⟩ := h
  exact ⟨g, fun t => (hF t).trans (hg (inner t)), hsets⟩

/-- A function that leaves the member alone, before. -/
theorem after {before : σ → σ} (h : ActsOn member f sets)
    (hbefore : ∀ s, member (before s) = member s) :
    ActsOn member (fun s => f (before s)) sets := by
  obtain ⟨g, hg, hsets⟩ := h
  refine ⟨g, fun s => ?_, hsets⟩
  rw [hg, hbefore]

/-- Two runs leave the same in the member exactly if it is set or they start with the same. -/
theorem eq_iff (h : ActsOn member f sets) {s t : σ} (hs : f s = some t) (s' : σ) :
    (f s).map member = (f s').map member ↔ sets = true ∨ member s = member s' := by
  obtain ⟨g, hg, hsets⟩ := h
  rw [hg, hg]
  cases sets with
  | true => exact iff_of_true (hsets _ _) (.inl rfl)
  | false =>
      obtain hnone | ⟨-, hinj⟩ := hsets
      · have hmember := hg s
        rw [hs, hnone] at hmember
        exact absurd hmember (Option.some_ne_none _)
      · simp [hinj.eq_iff]

/-- One function after the other. -/
theorem comp (h : ActsOn member f sets) (h' : ActsOn member f' sets') :
    ActsOn member (fun s => (f s).bind f') (sets || sets') := by
  obtain ⟨g, hg, hsets⟩ := h
  obtain ⟨g', hg', hsets'⟩ := h'
  refine ⟨fun x => (g x).bind g', fun s => ?_, ?_⟩
  · show ((f s).bind f').map member = (g (member s)).bind g'
    rw [← hg s]
    cases f s with
    | none => rfl
    | some t => exact hg' t
  · show if sets || sets' then ∀ x y, (g x).bind g' = (g y).bind g'
      else (∀ x, (g x).bind g' = none) ∨
        (∀ x, ((g x).bind g').isSome = true) ∧ Function.Injective fun x => (g x).bind g'
    cases sets with
    | true =>
        intro x y
        rw [hsets x y]
    | false =>
        obtain hnone | ⟨htotal, hinj⟩ := hsets
        · have hbind (x : α) : (g x).bind g' = none := by
            rw [hnone x]
            rfl
          cases sets' with
          | true => exact fun x y => (hbind x).trans (hbind y).symm
          | false => exact .inl hbind
        -- the first function does not fail, so the second one decides
        have hbind (x : α) : ∃ x', g x = some x' ∧ (g x).bind g' = g' x' := by
          obtain ⟨x', hx⟩ := Option.isSome_iff_exists.mp (htotal x)
          refine ⟨x', hx, ?_⟩
          rw [hx]
          rfl
        cases sets' with
        | true =>
            intro x y
            obtain ⟨x', -, hx⟩ := hbind x
            obtain ⟨y', -, hy⟩ := hbind y
            rw [hx, hy]
            exact hsets' x' y'
        | false =>
            obtain hnone' | ⟨htotal', hinj'⟩ := hsets'
            · refine .inl fun x => ?_
              obtain ⟨x', -, hx⟩ := hbind x
              rw [hx]
              exact hnone' x'
            · refine .inr ⟨fun x => ?_, fun x y heq => ?_⟩
              · obtain ⟨x', -, hx⟩ := hbind x
                rw [hx]
                exact htotal' x'
              · obtain ⟨x', hgx, hx⟩ := hbind x
                obtain ⟨y', hgy, hy⟩ := hbind y
                have heq' : g' x' = g' y' := by rw [← hx, ← hy]; exact heq
                apply hinj
                rw [hgx, hgy, hinj' heq']

/-- A loop. -/
theorem foldlM {step : σ → ι → Option σ} {sets : ι → Bool}
    (h : ∀ i, ActsOn member (fun s => step s i) (sets i)) (inputs : List ι) :
    ActsOn member (fun s => inputs.foldlM step s) (inputs.any sets) := by
  induction inputs with
  | nil => exact keeps fun _ => rfl
  | cons i rest ih => exact (h i).comp ih

end ActsOn

/-! ## Members that depend on nothing else -/

/-- What the function leaves in the member depends on that member alone. -/
def Determines (member : σ → α) (f : σ → Option σ) : Prop :=
  ∀ s s', member s = member s' → (f s).map member = (f s').map member

namespace Determines

variable {member : σ → α} {f f' : σ → Option σ}

/-- The part of a record in which some members are blanked. -/
theorem of_blank {blank : σ → σ} (h : ∀ s, (f s).map blank = (f (blank s)).map blank) :
    Determines blank f := by
  intro s s' heq
  rw [h s, h s', heq]

/-- Two runs that do not fail. -/
theorem eq_of_some (h : Determines member f) {s s' t t' : σ} (ht : f s = some t)
    (ht' : f s' = some t') (heq : member s = member s') : member t = member t' := by
  have hmap := h s s' heq
  rw [ht, ht'] at hmap
  exact Option.some.inj hmap

/-- One function after the other. -/
theorem comp (h : Determines member f) (h' : Determines member f') :
    Determines member fun s => (f s).bind f' := by
  intro s s' heq
  have hfirst := h s s' heq
  show ((f s).bind f').map member = ((f s').bind f').map member
  cases hs : f s with
  | none =>
      rw [hs] at hfirst
      rw [Option.map_eq_none_iff.mp hfirst.symm]
  | some t =>
      rw [hs] at hfirst
      obtain ⟨t', ht', hmember⟩ := Option.map_eq_some_iff.mp hfirst.symm
      rw [ht']
      exact h' t t' hmember.symm

/-- A loop. -/
theorem foldlM {step : σ → ι → Option σ} (h : ∀ i, Determines member fun s => step s i)
    (inputs : List ι) : Determines member fun s => inputs.foldlM step s := by
  induction inputs with
  | nil => exact fun s s' heq => congrArg some heq
  | cons i rest ih => exact (h i).comp ih

end Determines

/-! ## Properties of the whole record -/

/-- The function keeps the property. -/
def Preserves (P : σ → Prop) (f : σ → Option σ) : Prop := ∀ s t, P s → f s = some t → P t

namespace Preserves

variable {P : σ → Prop}

/-- A function that cannot fail. -/
theorem total {g : σ → σ} (h : ∀ s, P s → P (g s)) : Preserves P fun s => some (g s) := by
  intro s t hs ht
  cases ht
  exact h s hs

/-- A function that fails if it does not get a value. -/
theorem bound {m : σ → Option α} {g : σ → α → σ} (h : ∀ s a, P s → P (g s a)) :
    Preserves P fun s => (m s).bind fun a => some (g s a) := by
  intro s t hs ht
  obtain ⟨a, -, ht⟩ := Option.bind_eq_some_iff.mp ht
  cases ht
  exact h s a hs

/-- A loop. -/
theorem foldlM {step : σ → ι → Option σ} (h : ∀ i, Preserves P fun s => step s i)
    (inputs : List ι) : Preserves P fun s => inputs.foldlM step s := by
  induction inputs with
  | nil =>
      intro s t hs ht
      cases ht
      exact hs
  | cons i rest ih =>
      intro s t hs ht
      obtain ⟨s', hstep, hrest⟩ := Option.bind_eq_some_iff.mp ht
      exact ih s' t (h i s s' hs hstep) hrest

end Preserves

/-- The function has a result exactly if this holds, whatever the record is. -/
def SucceedsIff (f : σ → Option τ) (ok : Prop) : Prop := ∀ s, (f s).isSome = true ↔ ok

namespace SucceedsIff

variable {f : σ → Option τ} {ok ok' : Prop}

/-- A function that cannot fail. -/
theorem total (h : ∀ s, (f s).isSome = true) (hok : ok) : SucceedsIff f ok :=
  fun s => iff_of_true (h s) hok

/-- The condition in other words. -/
theorem congr (h : SucceedsIff f ok) (hok : ok ↔ ok') : SucceedsIff f ok' :=
  fun s => (h s).trans hok

/-- A function that has a result together with another one. -/
theorem inside {g : ι → Option α} (inner : ι → σ) (h : SucceedsIff f ok)
    (hg : ∀ i, (g i).isSome = (f (inner i)).isSome) : SucceedsIff g ok := by
  intro i
  rw [hg i]
  exact h (inner i)

/-- A loop. -/
theorem foldlM {step : σ → ι → Option σ} {ok : ι → Prop}
    (h : ∀ i, SucceedsIff (fun s => step s i) (ok i)) (inputs : List ι) :
    SucceedsIff (fun s => inputs.foldlM step s) (∀ i ∈ inputs, ok i) := by
  induction inputs with
  | nil => exact .total (fun _ => rfl) (List.forall_mem_nil ok)
  | cons i rest ih =>
      intro s
      have hfirst : (step s i).isSome = true ↔ ok i := h i s
      rw [List.forall_mem_cons]
      show ((step s i).bind fun s => rest.foldlM step s).isSome = true ↔ _
      cases hstep : step s i with
      | none =>
          rw [hstep] at hfirst
          exact iff_of_false Bool.false_ne_true fun hall =>
            Bool.false_ne_true (hfirst.mpr hall.1)
      | some s' =>
          rw [hstep] at hfirst
          exact (ih s').trans (and_iff_right (hfirst.mp rfl)).symm

end SucceedsIff

end Thermald
