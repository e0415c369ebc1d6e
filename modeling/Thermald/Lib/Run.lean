import Mathlib.Data.List.Infix
import Mathlib.Tactic.Common

/-!
# Runs of a deterministic step function

A system takes a list of inputs one after the other. `Meets` says that every step of the run
finds a condition on the state before it and the input, and `run_invariant` and `run_history`
derive a property of the state after the run, the second one relative to the inputs so far and
for all runs. `Steps` is the same for a step relation.
-/

namespace Thermald

variable {σ ι : Type} (step : σ → ι → σ) (ok : σ → ι → Prop)

/-- The state after a list of inputs. -/
def run (s : σ) (inputs : List ι) : σ :=
  inputs.foldl step s

/-- Every step of the run meets the condition in the state before it. -/
def Meets : σ → List ι → Prop
  | _, [] => True
  | s, i :: rest => ok s i ∧ Meets (step s i) rest

variable {step ok} {s : σ} {inputs : List ι}

@[simp] theorem run_nil : run step s [] = s := rfl

@[simp] theorem run_cons {i : ι} : run step s (i :: inputs) = run step (step s i) inputs := rfl

@[simp] theorem run_append {more : List ι} :
    run step s (inputs ++ more) = run step (run step s inputs) more :=
  List.foldl_append ..

@[simp] theorem meets_nil : Meets step ok s [] := trivial

instance instDecidableMeets [∀ s i, Decidable (ok s i)] :
    (inputs : List ι) → (s : σ) → Decidable (Meets step ok s inputs)
  | [], _ => isTrue trivial
  | i :: rest, s =>
    have := instDecidableMeets rest (step s i)
    inferInstanceAs (Decidable (ok s i ∧ Meets step ok (step s i) rest))

@[simp] theorem meets_append {more : List ι} :
    Meets step ok s (inputs ++ more) ↔
      Meets step ok s inputs ∧ Meets step ok (run step s inputs) more := by
  induction inputs generalizing s with
  | nil => simp
  | cons i rest ih => simp [Meets, ih, and_assoc]

/-- Every part of a run from its start meets the condition too. -/
theorem Meets.of_prefix {pre : List ι} (h : Meets step ok s inputs) (hpre : pre <+: inputs) :
    Meets step ok s pre := by
  obtain ⟨more, rfl⟩ := hpre
  exact (meets_append.mp h).1

/-- All steps of a run meet the condition exactly if each of its inputs finds it in the state that
the inputs before it lead to. -/
theorem meets_iff_inputs :
    Meets step ok s inputs ↔
      ∀ past i, past ++ [i] <+: inputs → ok (run step s past) i := by
  constructor
  · intro h past i hpre
    exact (meets_append.mp (h.of_prefix hpre)).2.1
  · intro h
    induction inputs using List.reverseRecOn with
    | nil => trivial
    | append_singleton past i ih =>
        refine meets_append.mpr ⟨ih fun past' i' hpre => ?_, h past i List.prefix_rfl, trivial⟩
        exact h past' i' (hpre.trans (List.prefix_append ..))

/-- A property of the inputs so far and the state, kept by every step, holds after the run. -/
theorem run_history {I : List ι → σ → Prop} (hinit : I [] s)
    (hstep : ∀ past s i, past ++ [i] <+: inputs → I past s → I (past ++ [i]) (step s i)) :
    I inputs (run step s inputs) := by
  have h : ∀ pre, pre <+: inputs → I pre (run step s pre) := by
    intro pre
    induction pre using List.reverseRecOn with
    | nil => exact fun _ => hinit
    | append_singleton past i ih =>
        intro hpre
        rw [run_append]
        exact hstep past _ i hpre (ih ((List.prefix_append ..).trans hpre))
  exact h inputs (List.prefix_refl _)

/-- An invariant of the steps that meet the condition is an invariant of the run. -/
theorem run_invariant {I : σ → Prop} (hinit : I s)
    (hstep : ∀ s, ∀ i ∈ inputs, I s → ok s i → I (step s i)) (hmeets : Meets step ok s inputs) :
    I (run step s inputs) := by
  induction inputs generalizing s with
  | nil => exact hinit
  | cons i rest ih =>
      refine ih (hstep s i List.mem_cons_self hinit hmeets.1) (fun s j hj => ?_) hmeets.2
      exact hstep s j (List.mem_cons_of_mem _ hj)

/-- Where a step keeps a property exactly when it meets the condition, the property holds after
every part of the run exactly when all steps meet the condition. -/
theorem meets_iff_prefixes {I : List ι → σ → Prop} (hinit : I [] s)
    (hstep : ∀ past i, past ++ [i] <+: inputs → I past (run step s past) →
      (I (past ++ [i]) (step (run step s past) i) ↔ ok (run step s past) i)) :
    (∀ pre, pre <+: inputs → I pre (run step s pre)) ↔ Meets step ok s inputs := by
  constructor
  · intro hall
    have h : ∀ pre, pre <+: inputs → Meets step ok s pre := by
      intro pre
      induction pre using List.reverseRecOn with
      | nil => exact fun _ => trivial
      | append_singleton past i ih =>
          intro hpre
          have hpast : past <+: inputs := (List.prefix_append ..).trans hpre
          have hnext := hall _ hpre
          rw [run_append] at hnext
          exact meets_append.mpr
            ⟨ih hpast, (hstep past i hpre (hall past hpast)).mp hnext, trivial⟩
    exact h inputs (List.prefix_refl _)
  · intro hmeets pre hpre
    induction pre using List.reverseRecOn with
    | nil => exact hinit
    | append_singleton past i ih =>
        have hpast := ih ((List.prefix_append ..).trans hpre)
        rw [run_append]
        exact (hstep past i hpre hpast).mpr (meets_append.mp (hmeets.of_prefix hpre)).2.1

/-! ## Outputs -/

section Outputs

variable {ο : Type} (out : σ → ι → List ο)

/-- What the steps of a run put out, one after the other. -/
def outputs (step : σ → ι → σ) (out : σ → ι → List ο) : σ → List ι → List ο
  | _, [] => []
  | s, i :: rest => out s i ++ outputs step out (step s i) rest

variable {out}

@[simp] theorem outputs_nil : outputs step out s [] = [] := rfl

@[simp] theorem outputs_cons {i : ι} :
    outputs step out s (i :: inputs) = out s i ++ outputs step out (step s i) inputs := rfl

@[simp] theorem outputs_append {more : List ι} :
    outputs step out s (inputs ++ more) =
      outputs step out s inputs ++ outputs step out (run step s inputs) more := by
  induction inputs generalizing s with
  | nil => rfl
  | cons i rest ih =>
      rw [List.cons_append, outputs_cons, ih, outputs_cons, List.append_assoc]
      rfl

/-- Nothing is put out where no step of the run puts out anything. -/
theorem outputs_eq_nil (I : σ → Prop) (hinit : I s)
    (hstep : ∀ s, ∀ i ∈ inputs, I s → I (step s i) ∧ out s i = []) :
    outputs step out s inputs = [] := by
  induction inputs generalizing s with
  | nil => rfl
  | cons i rest ih =>
      obtain ⟨hnext, hquiet⟩ := hstep s i List.mem_cons_self hinit
      rw [outputs_cons, hquiet, List.nil_append]
      exact ih hnext fun s j hj => hstep s j (List.mem_cons_of_mem _ hj)

/-- What is put out, filtered and converted. -/
theorem outputs_filterMap {ο' : Type} (f : ο → Option ο') :
    (outputs step out s inputs).filterMap f =
      outputs step (fun s i => (out s i).filterMap f) s inputs := by
  induction inputs generalizing s with
  | nil => rfl
  | cons i rest ih => rw [outputs_cons, List.filterMap_append, ih, outputs_cons]

/-- What is put out, converted. -/
theorem outputs_map {ο' : Type} (f : ο → ο') :
    (outputs step out s inputs).map f = outputs step (fun s i => (out s i).map f) s inputs := by
  induction inputs generalizing s with
  | nil => rfl
  | cons i rest ih => rw [outputs_cons, List.map_append, ih, outputs_cons]

/-- Steps that put out the same on these inputs. -/
theorem outputs_congr {out' : σ → ι → List ο} (h : ∀ s, ∀ i ∈ inputs, out s i = out' s i) :
    outputs step out s inputs = outputs step out' s inputs := by
  induction inputs generalizing s with
  | nil => rfl
  | cons i rest ih =>
      rw [outputs_cons, outputs_cons, h s i List.mem_cons_self,
        ih fun s j hj => h s j (List.mem_cons_of_mem _ hj)]

/-- A queue that loses nothing: what has left it and what it holds are what it held and what has
entered it, in this order. -/
theorem queue_conserved (queue : σ → List ο) {entered : σ → ι → List ο}
    (h : ∀ s i, out s i ++ queue (step s i) = queue s ++ entered s i) :
    outputs step out s inputs ++ queue (run step s inputs) =
      queue s ++ outputs step entered s inputs := by
  induction inputs generalizing s with
  | nil => simp
  | cons i rest ih =>
      rw [outputs_cons, run_cons, List.append_assoc, ih, ← List.append_assoc, h, outputs_cons,
        List.append_assoc]

/-- A log that is only written to holds what it held and what has been written. -/
theorem log_conserved (log : σ → List ο) {entered : σ → ι → List ο}
    (h : ∀ s i, log (step s i) = log s ++ entered s i) :
    log (run step s inputs) = log s ++ outputs step entered s inputs := by
  induction inputs generalizing s with
  | nil => simp
  | cons i rest ih => rw [run_cons, ih, h, outputs_cons, List.append_assoc]

/-! ### Parts of the state -/

variable {τ κ : Type} {part : σ → τ} {partStep : τ → κ → τ} {ops : σ → ι → List κ}

/-- A part of the state that each step changes by some operations of its own: the run changes it by
the operations of the steps. -/
theorem part_run (h : ∀ s i, part (step s i) = run partStep (part s) (ops s i)) :
    part (run step s inputs) = run partStep (part s) (outputs step ops s inputs) := by
  induction inputs generalizing s with
  | nil => rfl
  | cons i rest ih => rw [run_cons, ih, h, outputs_cons, run_append]

/-- Where each operation overwrites a part, the last one counts. -/
theorem run_overwrite (f : κ → τ) (t : τ) (l : List κ) :
    run (fun _ k => f k) t l = (l.getLast?.map f).getD t := by
  induction l using List.reverseRecOn with
  | nil => rfl
  | append_singleton past k _ => rw [run_append, List.getLast?_concat]; rfl

/-- What the operations of a part put out is what the steps put out. -/
theorem part_outputs {partOut : τ → κ → List ο}
    (h : ∀ s i, part (step s i) = run partStep (part s) (ops s i))
    (hout : ∀ s i, out s i = outputs partStep partOut (part s) (ops s i)) :
    outputs step out s inputs = outputs partStep partOut (part s) (outputs step ops s inputs) := by
  induction inputs generalizing s with
  | nil => rfl
  | cons i rest ih => rw [outputs_cons, ih, h, hout, outputs_cons, outputs_append]

end Outputs

/-! ## Relations -/

/-- A sequence of steps of a relation, one for each input. -/
inductive Steps (R : ι → σ → σ → Prop) : List ι → σ → σ → Prop
  | nil (s : σ) : Steps R [] s s
  | cons {i : ι} {rest : List ι} {s s' s'' : σ} :
      R i s s' → Steps R rest s' s'' → Steps R (i :: rest) s s''

namespace Steps

variable {R : ι → σ → σ → Prop} {first second : List ι} {s s' s'' : σ}

/-- A single step. -/
theorem single {i : ι} (h : R i s s') : Steps R [i] s s' :=
  .cons h (.nil s')

/-- Sequences compose. -/
theorem append (h : Steps R first s s') (h' : Steps R second s' s'') :
    Steps R (first ++ second) s s'' := by
  induction h with
  | nil _ => exact h'
  | cons hstep _ ih => exact .cons hstep (ih h')

/-- No inputs, no change. -/
@[simp] theorem nil_iff : Steps R [] s s' ↔ s' = s := by
  constructor
  · rintro ⟨⟩
    rfl
  · intro heq
    subst heq
    exact .nil _

/-- The first step and the others. -/
@[simp] theorem cons_iff {i : ι} {rest : List ι} :
    Steps R (i :: rest) s s'' ↔ ∃ s', R i s s' ∧ Steps R rest s' s'' := by
  constructor
  · rintro ⟨⟩
    exact ⟨_, ‹_›, ‹_›⟩
  · intro h
    obtain ⟨s', hstep, hrest⟩ := h
    exact .cons hstep hrest

/-- A sequence stops at every point of its inputs. -/
@[simp] theorem append_iff :
    Steps R (first ++ second) s s'' ↔ ∃ s', Steps R first s s' ∧ Steps R second s' s'' := by
  constructor
  · intro h
    induction first generalizing s with
    | nil => exact ⟨s, .nil s, h⟩
    | cons i rest ih =>
        obtain ⟨s', hstep, hrest⟩ := cons_iff.mp h
        obtain ⟨s'', hfirst, hsecond⟩ := ih hrest
        exact ⟨s'', .cons hstep hfirst, hsecond⟩
  · intro hex
    obtain ⟨s', hfirst, hsecond⟩ := hex
    exact hfirst.append hsecond

/-- What every step on one of the inputs keeps, the sequence keeps. -/
theorem invariant {I : σ → Prop} (h : Steps R first s s')
    (hstep : ∀ i ∈ first, ∀ s s', R i s s' → I s → I s') (hinit : I s) : I s' := by
  induction h with
  | nil _ => exact hinit
  | cons hfirst _ ih =>
      refine ih (fun i hi => hstep i (List.mem_cons_of_mem _ hi)) ?_
      exact hstep _ List.mem_cons_self _ _ hfirst hinit

end Steps

end Thermald
