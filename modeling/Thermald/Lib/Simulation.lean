import Thermald.Lib.Returns

/-!
# One computation follows another

`Simulates P m w Q` relates two computations on states of their own: from states related by `P`,
whenever `m` returns, `w` returns too, and the results and the states are related by `Q`. The rules
go through two programs of the same shape in step. `Simulates.loop` is the rule for two loops that
are entered and left together.
-/

namespace Thermald

variable {ε σ τ α α' β β' : Type}

/-- From related states, every result of the first computation is matched by one of the second. -/
structure Simulates (P : σ → τ → Prop) (m : EStateM ε σ α) (w : EStateM ε τ β)
    (Q : α → β → σ → τ → Prop) : Prop where
  run : ∀ {s t a s'}, P s t → Returns m s a s' → ∃ b t', Returns w t b t' ∧ Q a b s' t'

namespace Simulates

variable {P : σ → τ → Prop} {m : EStateM ε σ α} {w : EStateM ε τ β} {Q R : α → β → σ → τ → Prop}

/-- Both end. -/
protected theorem pure {a : α} {b : β} (h : ∀ s t, P s t → Q a b s t) :
    Simulates P (pure a : EStateM ε σ α) (pure b) Q := by
  refine ⟨fun {s t a' s'} hP hret => ?_⟩
  obtain ⟨rfl, rfl⟩ := hret.of_pure
  exact ⟨b, t, .pure b t, h _ _ hP⟩

/-- An error is not followed. -/
protected theorem throw (e : ε) : Simulates P (throw e : EStateM ε σ α) w Q :=
  ⟨fun _ hret => hret.of_throw.elim⟩

/-- Both go on from related results. -/
protected theorem bind {Q' : α' → β' → σ → τ → Prop} {f : α → EStateM ε σ α'}
    {g : β → EStateM ε τ β'} (h : Simulates P m w R)
    (hf : ∀ a b, Simulates (R a b) (f a) (g b) Q') : Simulates P (m >>= f) (w >>= g) Q' := by
  refine ⟨fun {s t a' s''} hP hret => ?_⟩
  obtain ⟨a, s', hm, hfa⟩ := hret.of_bind
  obtain ⟨b, t', hw, hR⟩ := h.run hP hm
  obtain ⟨b', t'', hg, hQ⟩ := (hf a b).run hR hfa
  exact ⟨b', t'', hw.bind hg, hQ⟩

/-- Both take the same branch. -/
protected theorem ite {c : Prop} {_ : Decidable c} {m' : EStateM ε σ α} {w' : EStateM ε τ β}
    (ht : Simulates P m w Q) (hf : Simulates P m' w' Q) :
    Simulates P (if c then m else m') (if c then w else w') Q := by
  split
  · exact ht
  · exact hf

/-- The first one does a step by itself. -/
theorem left {f : α → EStateM ε σ α'} {Q' : α' → β → σ → τ → Prop} {S : α → σ → τ → Prop}
    (hm : ∀ {s t a s'}, P s t → Returns m s a s' → S a s' t)
    (hf : ∀ a, Simulates (S a) (f a) w Q') : Simulates P (m >>= f) w Q' := by
  refine ⟨fun {s t a' s''} hP hret => ?_⟩
  obtain ⟨a, s', hma, hfa⟩ := hret.of_bind
  exact (hf a).run (hm hP hma) hfa

/-- The first one does something behind the end of the second. -/
theorem behind {f : α → EStateM ε σ α'} {Q' : α' → β → σ → τ → Prop} (h : Simulates P m w R)
    (hf : ∀ a b, Simulates (R a b) (f a) (pure b : EStateM ε τ β) Q') :
    Simulates P (m >>= f) w Q' := by
  rw [← bind_pure w]
  exact h.bind hf

/-- What follows for related states may be assumed. -/
theorem given {p : Prop} (hp : ∀ s t, P s t → p) (h : p → Simulates P m w Q) :
    Simulates P m w Q :=
  ⟨fun hP hret => (h (hp _ _ hP)).run hP hret⟩

/-- A stronger relation at the start. -/
theorem pre {P' : σ → τ → Prop} (h : Simulates P m w Q) (hP : ∀ s t, P' s t → P s t) :
    Simulates P' m w Q :=
  ⟨fun hP' hret => h.run (hP _ _ hP') hret⟩

/-- Both go on from results that have something in common. -/
theorem bind_fact {p : α → β → Prop} {Q' : α' → β' → σ → τ → Prop} {f : α → EStateM ε σ α'}
    {g : β → EStateM ε τ β'} (h : Simulates P m w fun a b s t => p a b ∧ R a b s t)
    (hf : ∀ a b, p a b → Simulates (R a b) (f a) (g b) Q') :
    Simulates P (m >>= f) (w >>= g) Q' :=
  h.bind fun a b => .given (fun _ _ h => h.1) fun hp => (hf a b hp).pre fun _ _ h => h.2

/-- Two loops that are entered together and whose bodies keep the relation. -/
theorem loop {stop : ε} {I : α → β → σ → τ → Prop} {cond : α → σ → Bool} {cond' : β → τ → Bool}
    {body : α → EStateM ε σ α} {body' : β → EStateM ε τ β}
    (hcond : ∀ a b s t, I a b s t → cond a s = cond' b t)
    (hbody : ∀ a b, Simulates (I a b) (body a) (body' b) I) (fuel : Nat) (a : α) (b : β) :
    Simulates (I a b) (loopM stop cond body fuel a) (loopM stop cond' body' fuel b) I := by
  refine ⟨fun {s t a' s'} hI hret => ?_⟩
  induction fuel generalizing a b s t with
  | zero =>
      have hc' := hcond a b s t hI
      cases hc : cond a s with
      | true =>
          rw [Returns, loop_empty hc] at hret
          cases hret
      | false =>
          rw [Returns, loop_done hc] at hret
          cases hret
          exact ⟨b, t, .loop_done (hc'.symm.trans hc), hI⟩
  | succ fuel ih =>
      have hc' := hcond a b s t hI
      cases hc : cond a s with
      | true =>
          rw [Returns, loop_step hc] at hret
          obtain ⟨a₁, s₁, hstep, hrest⟩ := Returns.of_bind hret
          obtain ⟨b₁, t₁, hstep', hI₁⟩ := (hbody a b).run hI hstep
          obtain ⟨b', t', hrest', hI'⟩ := ih a₁ b₁ hI₁ hrest
          exact ⟨b', t', (Returns.loop_eq (hc'.symm.trans hc) hstep').trans hrest', hI'⟩
      | false =>
          rw [Returns, loop_done hc] at hret
          cases hret
          exact ⟨b, t, .loop_done (hc'.symm.trans hc), hI⟩

end Simulates

end Thermald
