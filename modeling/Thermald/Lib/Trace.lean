import Thermald.Lib.Triple

/-!
# Computations that leave a trace

`Emits trace m Q E` says that the computation `m` only appends to the trace of its state, and that
the appended events together with the result meet `Q`, or together with the error `E`. What is
said about a part of a computation is said about the events of this part, so that the rule for
sequences joins two lists of events and nothing has to be carried along.
-/

namespace Thermald

variable {ε σ τ α β : Type}

/-- The state in which a computation ends. -/
def finalState : EStateM.Result ε σ α → σ
  | .ok _ s => s
  | .error _ s => s

/-- Why a computation has ended without a result, if it has. -/
def stopOf : EStateM.Result ε σ α → Option ε
  | .ok _ _ => none
  | .error e _ => some e

/-- The computation appends events to the trace that meet `Q` or `E`. -/
structure Emits (trace : σ → List τ) (m : EStateM ε σ α) (Q : List τ → α → Prop)
    (E : List τ → ε → Prop) : Prop where
  triple : ∀ t, Triple (fun s => trace s = t) m
    (fun a s => ∃ new, trace s = t ++ new ∧ Q new a)
    (fun e s => ∃ new, trace s = t ++ new ∧ E new e)

namespace Emits

variable {trace : σ → List τ} {Q Q' : List τ → α → Prop} {E E' : List τ → ε → Prop}
  {m : EStateM ε σ α}

/-- What the events and the end of every run meet, those of a run from an empty trace meet. -/
theorem final {P : List τ → Option ε → Prop}
    (h : Emits trace m (fun new _ => P new none) fun new e => P new (some e)) {s : σ}
    (hs : trace s = []) : P (trace (finalState (m s))) (stopOf (m s)) := by
  have hm := (h.triple []).run s hs
  cases heq : m s with
  | ok a s' =>
      rw [heq] at hm
      obtain ⟨new, hnew, hP⟩ := hm
      show P (trace s') none
      rw [hnew]
      exact hP
  | error e s' =>
      rw [heq] at hm
      obtain ⟨new, hnew, hP⟩ := hm
      show P (trace s') (some e)
      rw [hnew]
      exact hP

/-- The rule of consequence. -/
theorem conseq (h : Emits trace m Q E) (hQ : ∀ new a, Q new a → Q' new a)
    (hE : ∀ new e, E new e → E' new e) : Emits trace m Q' E' := by
  refine ⟨fun t => (h.triple t).conseq (fun _ h => h) ?_ ?_⟩
  · intro a s hpost
    obtain ⟨new, hnew, ha⟩ := hpost
    exact ⟨new, hnew, hQ new a ha⟩
  · intro e s hpost
    obtain ⟨new, hnew, he⟩ := hpost
    exact ⟨new, hnew, hE new e he⟩

/-- Two facts about one computation speak of the same events. -/
protected theorem and (h : Emits trace m Q E) (h' : Emits trace m Q' E') :
    Emits trace m (fun new a => Q new a ∧ Q' new a) fun new e => E new e ∧ E' new e := by
  refine ⟨fun t => ⟨fun s hs => ?_⟩⟩
  have hm := (h.triple t).run s hs
  have hm' := (h'.triple t).run s hs
  cases heq : m s with
  | ok a s' =>
      rw [heq] at hm hm'
      obtain ⟨new, hnew, ha⟩ := hm
      obtain ⟨new', hnew', ha'⟩ := hm'
      obtain rfl : new = new' := List.append_cancel_left (hnew.symm.trans hnew')
      exact ⟨new, hnew, ha, ha'⟩
  | error e s' =>
      rw [heq] at hm hm'
      obtain ⟨new, hnew, he⟩ := hm
      obtain ⟨new', hnew', he'⟩ := hm'
      obtain rfl : new = new' := List.append_cancel_left (hnew.symm.trans hnew')
      exact ⟨new, hnew, he, he'⟩

protected theorem pure {a : α} (h : Q [] a) : Emits trace (pure a : EStateM ε σ α) Q E :=
  ⟨fun _ => .pure fun _ hs => ⟨[], by simpa using hs, h⟩⟩

protected theorem throw {e : ε} (h : E [] e) : Emits trace (throw e : EStateM ε σ α) Q E :=
  ⟨fun _ => .throw fun _ hs => ⟨[], by simpa using hs, h⟩⟩

/-- A change of the state that appends events. -/
protected theorem modify {f : σ → σ} {new : List τ} {Q : List τ → PUnit → Prop}
    (hf : ∀ s, trace (f s) = trace s ++ new) (h : Q new ⟨⟩) :
    Emits trace (modify f : EStateM ε σ PUnit) Q E :=
  ⟨fun _ => .modify fun s hs => ⟨new, by rw [hf s, hs], h⟩⟩

protected theorem bind {R : List τ → β → Prop} {f : α → EStateM ε σ β} (h : Emits trace m Q E)
    (hf : ∀ new a, Q new a →
      Emits trace (f a) (fun more => R (new ++ more)) fun more => E (new ++ more)) :
    Emits trace (m >>= f) R E := by
  refine ⟨fun t => .bind (h.triple t) fun a => ⟨fun s hs => ?_⟩⟩
  obtain ⟨new, hnew, ha⟩ := hs
  have hm := ((hf new a ha).triple (trace s)).run s rfl
  -- the events of both parts are those of the second one behind those of the first
  have hjoin : ∀ more, trace s ++ more = t ++ (new ++ more) := by
    intro more
    rw [hnew, List.append_assoc]
  cases heq : f a s with
  | ok b s' =>
      rw [heq] at hm
      obtain ⟨more, hmore, hb⟩ := hm
      exact ⟨new ++ more, hmore.trans (hjoin more), hb⟩
  | error e s' =>
      rw [heq] at hm
      obtain ⟨more, hmore, he⟩ := hm
      exact ⟨new ++ more, hmore.trans (hjoin more), he⟩

protected theorem ite {c : Prop} {_ : Decidable c} {m' : EStateM ε σ α}
    (ht : c → Emits trace m Q E) (hf : ¬ c → Emits trace m' Q E) :
    Emits trace (if c then m else m') Q E := by
  split
  · exact ht ‹_›
  · exact hf ‹_›

/-- A loop whose condition does not depend on the state. The invariant may speak of the fuel that is
left and of the events so far. -/
theorem loop {outOfFuel : ε} {cond : β → Bool} {body : β → EStateM ε σ β}
    {I : Nat → List τ → β → Prop}
    (hbody : ∀ fuel new b, I (fuel + 1) new b → cond b = true →
      Emits trace (body b) (fun more => I fuel (new ++ more)) fun more => E (new ++ more))
    (hfuel : ∀ new b, I 0 new b → cond b = true → E new outOfFuel) (fuel : Nat) (new : List τ)
    (b : β) (h : I fuel new b) :
    Emits trace (loopM outOfFuel (fun b _ => cond b) body fuel b)
      (fun more b' => cond b' = false ∧ ∃ fuel', I fuel' (new ++ more) b')
      fun more => E (new ++ more) := by
  induction fuel generalizing new b with
  | zero =>
      refine ⟨fun t => .bind (.get (Q := fun _ s => trace s = t) fun _ hs => hs) fun s => ?_⟩
      refine .ite (fun hc => .throw fun _ hs => ⟨[], ?_, ?_⟩) fun hc =>
        .pure fun _ hs => ⟨[], ?_, ?_⟩
      · simpa using hs
      · simpa using hfuel new b h hc
      · simpa using hs
      · exact ⟨by simpa using hc, 0, by simpa using h⟩
  | succ fuel ih =>
      refine ⟨fun t => .bind (.get (Q := fun _ s => trace s = t) fun _ hs => hs) fun s => ?_⟩
      refine .ite (fun hc => ?_) fun hc => .pure fun _ hs => ⟨[], ?_, ?_⟩
      · refine (Emits.bind (hbody fuel new b h hc) fun more b' hb' => ?_).triple t
        refine (ih (new ++ more) b' hb').conseq ?_ ?_
        · intro more' b'' hb''
          rw [← List.append_assoc]
          exact hb''
        · intro more' e he
          rw [← List.append_assoc]
          exact he
      · simpa using hs
      · exact ⟨by simpa using hc, fuel + 1, by simpa using h⟩

end Emits

end Thermald
