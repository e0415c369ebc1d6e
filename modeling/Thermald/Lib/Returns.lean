import Thermald.Lib.Fuel

/-!
# What a computation returns

`Returns m s a s'` says that from the state `s` the computation `m` returns `a` in the state `s'`,
and `Fails m s` that it stops with an error. Both are followed through sequences and loops, one call
after the other, where the run of a program on given data is to be known exactly.
-/

namespace Thermald

variable {ε σ α β : Type}

/-- From the state `s` the computation returns `a` in the state `s'`. -/
def Returns (m : EStateM ε σ α) (s : σ) (a : α) (s' : σ) : Prop := m s = .ok a s'

/-- A run on given data can be checked. -/
instance [DecidableEq α] [DecidableEq σ] (m : EStateM ε σ α) (s : σ) (a : α) (s' : σ) :
    Decidable (Returns m s a s') :=
  match h : m s with
  | .ok b t =>
      decidable_of_iff (b = a ∧ t = s') (by rw [Returns, h, EStateM.Result.ok.injEq])
  | .error _ _ => .isFalse (by rw [Returns, h]; nofun)

/-- From the state `s` the computation stops with an error. -/
def Fails (m : EStateM ε σ α) (s : σ) : Prop := ∃ e s', m s = .error e s'

section Returns

variable {m : EStateM ε σ α} {f : α → EStateM ε σ β} {s s' s'' : σ} {a : α} {b : β}

theorem Returns.eq (h : Returns m s a s') : m s = .ok a s' := h

protected theorem Returns.pure (a : α) (s : σ) : Returns (pure a : EStateM ε σ α) s a s := rfl

protected theorem Returns.get (s : σ) : Returns (get : EStateM ε σ σ) s s s := rfl

protected theorem Returns.set (s s' : σ) : Returns (set s' : EStateM ε σ PUnit) s ⟨⟩ s' := rfl

protected theorem Returns.modify (g : σ → σ) (s : σ) :
    Returns (modify g : EStateM ε σ PUnit) s ⟨⟩ (g s) := rfl

/-- A result goes on to the rest of the sequence. -/
theorem Returns.bind_eq (h : Returns m s a s') : (m >>= f) s = f a s' := by
  show EStateM.bind m f s = f a s'
  unfold EStateM.bind
  rw [h.eq]

protected theorem Returns.bind (h : Returns m s a s') (hf : Returns (f a) s' b s'') :
    Returns (m >>= f) s b s'' :=
  h.bind_eq.trans hf

/-- The result of a sequence comes from results of its parts. -/
theorem Returns.of_bind (h : Returns (m >>= f) s b s'') :
    ∃ a s', Returns m s a s' ∧ Returns (f a) s' b s'' := by
  cases hm : m s with
  | ok a s' =>
      refine ⟨a, s', hm, ?_⟩
      have hret : Returns m s a s' := hm
      exact hret.bind_eq.symm.trans h
  | error e s' =>
      have hbind : (m >>= f) s = .error e s' := by
        show EStateM.bind m f s = .error e s'
        unfold EStateM.bind
        rw [hm]
      rw [Returns, hbind] at h
      cases h

protected theorem Returns.map {g : α → β} (h : Returns m s a s') :
    Returns (g <$> m) s (g a) s' := by
  rw [map_eq_pure_bind]
  exact h.bind (.pure (g a) s')

/-- A computed result comes from a result. -/
theorem Returns.of_map {g : α → β} (h : Returns (g <$> m) s b s') :
    ∃ a, Returns m s a s' ∧ b = g a := by
  rw [map_eq_pure_bind] at h
  obtain ⟨a, s₁, hm, hpure⟩ := h.of_bind
  cases hpure
  exact ⟨a, hm, rfl⟩

/-- What `pure` returns. -/
theorem Returns.of_pure {a' : α} (h : Returns (pure a : EStateM ε σ α) s a' s') :
    a' = a ∧ s' = s := by
  cases h
  exact ⟨rfl, rfl⟩

/-- Nothing is returned from an error. -/
theorem Returns.of_throw {e : ε} (h : Returns (throw e : EStateM ε σ α) s a s') : False := by
  cases h

protected theorem Fails.throw (e : ε) (s : σ) : Fails (throw e : EStateM ε σ α) s := ⟨e, s, rfl⟩

/-- A failure ends a sequence. -/
protected theorem Fails.bind (h : Fails m s) : Fails (m >>= f) s := by
  obtain ⟨e, s', h⟩ := h
  refine ⟨e, s', ?_⟩
  show EStateM.bind m f s = .error e s'
  unfold EStateM.bind
  rw [h]

/-- What comes behind a result may fail. -/
protected theorem Returns.bind_fails (h : Returns m s a s') (hf : Fails (f a) s') :
    Fails (m >>= f) s := by
  obtain ⟨e, s'', hf⟩ := hf
  exact ⟨e, s'', h.bind_eq.trans hf⟩

/-- A computation that fails does not return. -/
theorem Fails.not_returns (h : Fails m s) : ¬ Returns m s a s' := by
  obtain ⟨e, s'', h⟩ := h
  intro hret
  rw [Returns, h] at hret
  cases hret

/-- A computation either fails or returns. -/
theorem fails_or_returns (m : EStateM ε σ α) (s : σ) : Fails m s ∨ ∃ a s', Returns m s a s' := by
  cases h : m s with
  | ok a s' => exact .inr ⟨a, s', h⟩
  | error e s' => exact .inl ⟨e, s', h⟩

/-- The result is the only one. -/
theorem Returns.unique {a' : α} (h : Returns m s a s') (h' : Returns m s a' s'') :
    a = a' ∧ s' = s'' := by
  have heq := h.eq.symm.trans h'.eq
  cases heq
  exact ⟨rfl, rfl⟩

end Returns

section Loop

variable {stop : ε} {cond : β → σ → Bool} {body : β → EStateM ε σ β} {fuel : Nat} {b b' : β}
  {s s' : σ}

/-- The end of a loop. -/
theorem Returns.loop_done (hc : cond b s = false) :
    Returns (loopM stop cond body fuel b) s b s :=
  Thermald.loop_done hc

/-- A loop after an iteration. -/
theorem Returns.loop_eq (hc : cond b s = true) (hbody : Returns (body b) s b' s') :
    loopM stop cond body (fuel + 1) b s = loopM stop cond body fuel b' s' :=
  (Thermald.loop_step hc).trans hbody.bind_eq

/-- What every iteration keeps holds when the loop ends. -/
theorem Returns.loop_invariant {I : β → σ → Prop}
    (hbody : ∀ b s b' s', I b s → cond b s = true → Returns (body b) s b' s' → I b' s')
    (hinit : I b s) (h : Returns (loopM stop cond body fuel b) s b' s') :
    I b' s' ∧ cond b' s' = false := by
  induction fuel generalizing b s with
  | zero =>
      cases hc : cond b s with
      | true =>
          rw [Returns, loop_empty hc] at h
          cases h
      | false =>
          rw [Returns, Thermald.loop_done hc] at h
          cases h
          exact ⟨hinit, hc⟩
  | succ fuel ih =>
      cases hc : cond b s with
      | true =>
          rw [Returns, Thermald.loop_step hc] at h
          obtain ⟨b₁, s₁, hstep, hrest⟩ := Returns.of_bind h
          exact ih (hbody b s b₁ s₁ hinit hc hstep) hrest
      | false =>
          rw [Returns, Thermald.loop_done hc] at h
          cases h
          exact ⟨hinit, hc⟩

/-- A loop whose variable carries more than another loop's does the same. -/
theorem map_loop {γ : Type} {g : β → γ} {cond' : γ → σ → Bool} {body' : γ → EStateM ε σ γ}
    (hcond : ∀ b s, cond b s = cond' (g b) s) (hbody : ∀ b, g <$> body b = body' (g b)) (fuel : Nat)
    (b : β) : g <$> loopM stop cond body fuel b = loopM stop cond' body' fuel (g b) := by
  have hmap : ∀ (m : EStateM ε σ β) s, (g <$> m) s = EStateM.map g m s := fun _ _ => rfl
  induction fuel generalizing b with
  | zero =>
      funext s
      rw [hmap, EStateM.map]
      cases hc : cond b s with
      | true => rw [loop_empty hc, loop_empty (hcond b s ▸ hc)]
      | false => rw [Thermald.loop_done hc, Thermald.loop_done (hcond b s ▸ hc)]
  | succ fuel ih =>
      funext s
      cases hc : cond b s with
      | true =>
          have hrest : g <$> (body b >>= loopM stop cond body fuel) =
              body' (g b) >>= loopM stop cond' body' fuel := by
            rw [← hbody, map_bind, bind_map_left]
            exact congrArg (body b >>= ·) (funext ih)
          rw [Thermald.loop_step (hcond b s ▸ hc), ← hrest, hmap, hmap, EStateM.map, EStateM.map,
            Thermald.loop_step hc]
      | false =>
          rw [hmap, EStateM.map, Thermald.loop_done hc, Thermald.loop_done (hcond b s ▸ hc)]

/-- An iteration that fails. -/
theorem Fails.loop_step (hc : cond b s = true) (hbody : Fails (body b) s) :
    Fails (loopM stop cond body (fuel + 1) b) s := by
  obtain ⟨e, s', h⟩ := hbody.bind (f := loopM stop cond body fuel)
  exact ⟨e, s', (Thermald.loop_step hc).trans h⟩

end Loop

end Thermald
