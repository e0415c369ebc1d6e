import Mathlib.Tactic.Common

/-!
# Triples for computations with state and errors

`Triple P m Q E` says that from a state with `P` the computation `m` returns with `Q` or stops with
an error that meets `E`. The state at an error is kept, as in `EStateM`. There is one rule for each
way to build a computation; the rule for loops also counts the iterations, so that a loop with
enough fuel never runs out of it.
-/

namespace Thermald

variable {ε σ α β : Type}

/-- Repeat the body while the condition holds of the loop variable and the state. -/
def loopM (outOfFuel : ε) (cond : β → σ → Bool) (body : β → EStateM ε σ β) :
    Nat → β → EStateM ε σ β
  | 0, b => do if cond b (← get) then throw outOfFuel else pure b
  | fuel + 1, b => do
    if cond b (← get) then body b >>= loopM outOfFuel cond body fuel else pure b

/-- The result of a computation meets a condition for returns or one for errors. -/
def Ends (Q : α → σ → Prop) (E : ε → σ → Prop) : EStateM.Result ε σ α → Prop
  | .ok a s => Q a s
  | .error e s => E e s

/-- From every state with `P` the computation returns with `Q` or stops with `E`. -/
structure Triple (P : σ → Prop) (m : EStateM ε σ α) (Q : α → σ → Prop) (E : ε → σ → Prop) :
    Prop where
  run : ∀ s, P s → Ends Q E (m s)

namespace Triple

variable {P P' : σ → Prop} {Q Q' : α → σ → Prop} {E E' : ε → σ → Prop} {m : EStateM ε σ α}

/-- An error meets the error condition. -/
theorem error (h : Triple P m Q E) {s s' : σ} {e : ε} (hs : P s) (heq : m s = .error e s') :
    E e s' := by
  have hm := h.run s hs
  rw [heq] at hm
  exact hm

/-- The rule of consequence. -/
theorem conseq (h : Triple P m Q E) (hP : ∀ s, P' s → P s) (hQ : ∀ a s, Q a s → Q' a s)
    (hE : ∀ e s, E e s → E' e s) : Triple P' m Q' E' := by
  refine ⟨fun s hs => ?_⟩
  have hm := h.run s (hP s hs)
  cases heq : m s with
  | ok a s' =>
      rw [heq] at hm
      exact hQ a s' hm
  | error e s' =>
      rw [heq] at hm
      exact hE e s' hm

/-- A stronger precondition. -/
theorem pre (h : Triple P m Q E) (hP : ∀ s, P' s → P s) : Triple P' m Q E :=
  h.conseq hP (fun _ _ h => h) fun _ _ h => h

/-- A weaker postcondition. -/
theorem post (h : Triple P m Q E) (hQ : ∀ a s, Q a s → Q' a s) : Triple P m Q' E :=
  h.conseq (fun _ h => h) hQ fun _ _ h => h

/-- A precondition that does not speak of the state is a hypothesis. -/
theorem of_pure {p : Prop} (h : p → Triple P m Q E) : Triple (fun s => p ∧ P s) m Q E :=
  ⟨fun s hs => (h hs.1).run s hs.2⟩

/-- A fixed start. -/
theorem start (h : ∀ s, P s → Triple (· = s) m Q E) : Triple P m Q E :=
  ⟨fun s hs => (h s hs).run s rfl⟩

protected theorem pure {a : α} (h : ∀ s, P s → Q a s) : Triple P (pure a : EStateM ε σ α) Q E :=
  ⟨h⟩

protected theorem throw {e : ε} (h : ∀ s, P s → E e s) : Triple P (throw e : EStateM ε σ α) Q E :=
  ⟨h⟩

protected theorem get {Q : σ → σ → Prop} (h : ∀ s, P s → Q s s) :
    Triple P (get : EStateM ε σ σ) Q E :=
  ⟨h⟩

protected theorem set {s' : σ} {Q : PUnit → σ → Prop} (h : ∀ s, P s → Q ⟨⟩ s') :
    Triple P (set s' : EStateM ε σ PUnit) Q E :=
  ⟨h⟩

protected theorem modify {f : σ → σ} {Q : PUnit → σ → Prop} (h : ∀ s, P s → Q ⟨⟩ (f s)) :
    Triple P (modify f : EStateM ε σ PUnit) Q E :=
  ⟨h⟩

protected theorem bind {R : β → σ → Prop} {f : α → EStateM ε σ β} (h : Triple P m Q E)
    (hf : ∀ a, Triple (Q a) (f a) R E) : Triple P (m >>= f) R E := by
  refine ⟨fun s hs => ?_⟩
  have hm := h.run s hs
  show Ends R E (EStateM.bind m f s)
  unfold EStateM.bind
  cases heq : m s with
  | ok a s' =>
      rw [heq] at hm
      exact (hf a).run s' hm
  | error e s' =>
      rw [heq] at hm
      exact hm

protected theorem ite {c : Prop} {_ : Decidable c} {m' : EStateM ε σ α} (ht : c → Triple P m Q E)
    (hf : ¬ c → Triple P m' Q E) : Triple P (if c then m else m') Q E := by
  split
  · exact ht ‹_›
  · exact hf ‹_›

/-- A loop whose rank falls with every iteration keeps its invariant, ends, and does not run out of
fuel if there is more of it than the rank. -/
theorem loop {outOfFuel : ε} {cond : β → σ → Bool} {body : β → EStateM ε σ β}
    {I : β → σ → Prop} (rank : β → σ → Nat)
    (hbody : ∀ b n, Triple (fun s => I b s ∧ cond b s = true ∧ rank b s = n) (body b)
      (fun b' s' => I b' s' ∧ (cond b' s' = true → rank b' s' < n)) E) (fuel : Nat) (b : β) :
    Triple (fun s => I b s ∧ (cond b s = true → rank b s < fuel))
      (loopM outOfFuel cond body fuel b) (fun b' s' => I b' s' ∧ cond b' s' = false) E := by
  induction fuel generalizing b with
  | zero =>
      refine .bind (.get (Q := fun s s' => s = s' ∧ I b s ∧ cond b s = false) ?_) fun s => ?_
      · intro s hs
        refine ⟨rfl, hs.1, ?_⟩
        cases hc : cond b s with
        | false => rfl
        | true => exact absurd (hs.2 hc) (Nat.not_lt_zero _)
      · refine .ite (fun hc => ⟨fun s' hs' => ?_⟩) fun _ => .pure fun s' hs' => ?_
        · simp [hs'.2.2] at hc
        · rw [← hs'.1]
          exact hs'.2
  | succ fuel ih =>
      refine .bind (.get (Q := fun s s' => s = s' ∧ I b s ∧
        (cond b s = true → rank b s < fuel + 1)) fun s hs => ⟨rfl, hs⟩) fun s => ?_
      refine .ite (fun hc => ?_) fun hc => .pure fun s' hs' => ?_
      · refine .start fun s' hs' => ?_
        obtain ⟨rfl, hI, hrank⟩ := hs'
        refine .bind (Q := fun b' s' => I b' s' ∧ (cond b' s' = true → rank b' s' < fuel)) ?_ ih
        refine (hbody b (rank b s)).conseq ?_ ?_ fun _ _ h => h
        · intro s' heq
          subst heq
          exact ⟨hI, hc, rfl⟩
        · intro b' s' hpost
          obtain ⟨hI', hlt⟩ := hpost
          exact ⟨hI', fun hc' => Nat.lt_of_lt_of_le (hlt hc') (Nat.le_of_lt_succ (hrank hc))⟩
      · obtain ⟨rfl, hI, -⟩ := hs'
        exact ⟨hI, by simpa using hc⟩

end Triple

end Thermald
