import Thermald.Lib.Trace

/-!
# More fuel

A computation with fuel stops with a special error if there is too little of it. `Settles stop m m'`
says that wherever `m` does not stop with this error, `m'` does the same as `m`; it relates a
computation to itself with more fuel, and it is kept by everything that computations are built of.
-/

namespace Thermald

variable {ε σ α β : Type}

section Loop

variable {stop : ε} {cond : β → σ → Bool} {body : β → EStateM ε σ β} {fuel : Nat} {b : β} {s : σ}

/-- A loop ends when its condition fails. -/
theorem loop_done (hc : cond b s = false) : loopM stop cond body fuel b s = .ok b s := by
  cases fuel with
  | zero =>
      show (if cond b s then (throw stop : EStateM ε σ β) else pure b) s = _
      rw [hc]
      rfl
  | succ fuel =>
      show (if cond b s then body b >>= loopM stop cond body fuel else pure b) s = _
      rw [hc]
      rfl

/-- A loop stops when it has no fuel left. -/
theorem loop_empty (hc : cond b s = true) : loopM stop cond body 0 b s = .error stop s := by
  show (if cond b s then (throw stop : EStateM ε σ β) else pure b) s = _
  rw [hc]
  rfl

/-- An iteration of a loop. -/
theorem loop_step (hc : cond b s = true) :
    loopM stop cond body (fuel + 1) b s = (body b >>= loopM stop cond body fuel) s := by
  show (if cond b s then body b >>= loopM stop cond body fuel else pure b) s = _
  rw [hc]
  rfl

end Loop

/-- Wherever `m` does not stop with the error `stop`, the computation `m'` does the same. -/
structure Settles (stop : ε) (m m' : EStateM ε σ α) : Prop where
  eq : ∀ s, stopOf (m s) ≠ some stop → m' s = m s

namespace Settles

variable {stop : ε} {m m' : EStateM ε σ α}

protected theorem refl (m : EStateM ε σ α) : Settles stop m m :=
  ⟨fun _ _ => rfl⟩

protected theorem bind {f f' : α → EStateM ε σ β} (h : Settles stop m m')
    (hf : ∀ a, Settles stop (f a) (f' a)) : Settles stop (m >>= f) (m' >>= f') := by
  refine ⟨fun s hs => ?_⟩
  have hm : ∀ {m : EStateM ε σ α} {f : α → EStateM ε σ β} {s : σ},
      (m >>= f) s = EStateM.bind m f s := rfl
  rw [hm] at hs
  rw [hm, hm]
  unfold EStateM.bind at hs ⊢
  cases heq : m s with
  | ok a s' =>
      rw [heq] at hs
      rw [h.eq s (by rw [heq]; nofun), heq]
      exact (hf a).eq s' hs
  | error e s' =>
      rw [heq] at hs
      rw [h.eq s (by rw [heq]; exact hs), heq]

protected theorem ite {c : Prop} {_ : Decidable c} {n n' : EStateM ε σ α}
    (ht : c → Settles stop m m') (hf : ¬ c → Settles stop n n') :
    Settles stop (if c then m else n) (if c then m' else n') := by
  split
  · exact ht ‹_›
  · exact hf ‹_›

/-- A loop with more fuel. -/
theorem loop {cond : β → σ → Bool} {body body' : β → EStateM ε σ β} {fuel fuel' : Nat}
    (hle : fuel ≤ fuel') (hbody : ∀ b, Settles stop (body b) (body' b)) (b : β) :
    Settles stop (loopM stop cond body fuel b) (loopM stop cond body' fuel' b) := by
  induction fuel generalizing fuel' b with
  | zero =>
      refine ⟨fun s hs => ?_⟩
      cases hc : cond b s with
      | false => rw [loop_done hc, loop_done hc]
      | true =>
          rw [loop_empty hc] at hs
          exact absurd rfl hs
  | succ fuel ih =>
      obtain ⟨more, rfl⟩ : ∃ more, fuel' = more + 1 := ⟨fuel' - 1, by omega⟩
      refine ⟨fun s hs => ?_⟩
      cases hc : cond b s with
      | false => rw [loop_done hc, loop_done hc]
      | true =>
          rw [loop_step hc] at hs
          rw [loop_step hc, loop_step hc]
          exact (Settles.bind (hbody b) fun b' => ih (by omega) b').eq s hs

end Settles

end Thermald
