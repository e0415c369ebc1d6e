import Thermald.Loop.Operations

/-!
# The adaptive engine in the loop

An update of the adaptive engine puts a policy in force by a few operations on the engine: it clears
zones, adds rows, consolidates trips, sets the temperature of a trip and passes a target to a
device. What these operations keep, an update keeps (`Closed.update_engine_state`), so an update
sends no message, does not touch the status, and the thread can run an adaptive engine.
-/

namespace Thermald

namespace AdaptiveEngine

variable {δ : Type} [AdaptiveCdev δ] [StdSort]

/-- A relation between engines that is closed under the operations of a policy. -/
structure Closed (R : Engine δ → Engine δ → Prop) : Prop where
  refl : ∀ e, R e e
  trans : ∀ {e e' e''}, R e e' → R e' e'' → R e e''
  clear : ∀ e keep, R e (e.clearZones keep)
  row : ∀ e zone trip, R e (e.addRow zone trip)
  consolidate : ∀ e, R e e.psvtConsolidate
  setTrip : ∀ e target temp, R e (e.setTrip target temp)
  setTarget : ∀ e k target, R e
    { e with world := e.world.setCdev k (AdaptiveCdev.setAdaptiveTarget (e.world.cdevs k) target) }

namespace Closed

variable {R : Engine δ → Engine δ → Prop} (h : Closed R)
include h

theorem install_passive (e : Engine δ) (psv : Gddv.Psv) : R e (e.installPassive psv) := by
  unfold Engine.installPassive
  split
  · exact h.refl e
  · exact h.row _ _ _

theorem install_itmt (e : Engine δ) (entry : Gddv.ItmtEntry) : R e (e.installItmt entry) := by
  unfold Engine.installItmt
  split
  · exact h.refl e
  · exact h.row _ _ _

/-- Rows one after the other. -/
theorem rows {ρ : Type} {f : Engine δ → ρ → Engine δ} (hf : ∀ e r, R e (f e r)) (rows : List ρ)
    (e : Engine δ) : R e (rows.foldl f e) := by
  induction rows generalizing e with
  | nil => exact h.refl e
  | cons r rest ih => exact h.trans (hf e r) (ih _)

variable (a : AdaptiveEngine δ)

theorem install_itmt_table (t : Gddv.Itmt) : R a.engine (a.installItmtTable t).engine := by
  refine h.trans ?_ (h.rows h.install_itmt t.itmtEntries _)
  split
  · exact h.refl _
  · exact h.clear _ _

theorem install_psvt_table (t : Gddv.Psvt) : R a.engine (a.installPsvtTable t).engine := by
  refine h.trans ?_ (h.rows h.install_passive t.psvs _)
  split
  · exact h.refl _
  · exact h.clear _ _

theorem install_passive_default : R a.engine a.installPassiveDefault.engine := by
  unfold installPassiveDefault
  dsimp only
  split
  · exact h.clear _ _
  · exact h.trans (h.clear _ _) (h.trans (h.rows h.install_passive _ _) (h.consolidate _))

variable [StdFloat]

theorem finish_int3400_target (target : Gddv.AdaptiveTarget) :
    R a.engine (a.finishInt3400Target target).engine := by
  unfold finishInt3400Target
  dsimp only
  split
  · split
    · split
      · exact h.consolidate _
      · exact h.trans (h.consolidate _) (h.setTrip _ _ _)
    · exact h.consolidate _
  · exact h.consolidate _

theorem set_int3400_target (target : Gddv.AdaptiveTarget) :
    R a.engine (a.setInt3400Target target).engine := by
  unfold setInt3400Target
  split
  · split
    · exact h.finish_int3400_target a target
    · exact h.trans (h.install_itmt_table a _) (h.finish_int3400_target _ target)
  · split
    · split
      · exact h.refl _
      · exact h.trans (h.install_psvt_table a _) (h.finish_int3400_target _ target)
    · exact h.finish_int3400_target a target

theorem execute_target (target : Gddv.AdaptiveTarget) :
    R a.engine (a.executeTarget target).engine := by
  unfold executeTarget
  split
  · exact h.set_int3400_target a target
  · split
    · exact h.setTarget _ _ _
    · exact h.refl _

theorem execute_targets (targets : List Gddv.AdaptiveTarget) (a : AdaptiveEngine δ) :
    R a.engine (executeTargets targets a).2.engine := by
  induction targets generalizing a with
  | nil => exact h.refl _
  | cons t rest ih =>
      unfold executeTargets
      split
      · exact h.trans (h.execute_target a t) (ih _)
      · exact h.refl _

theorem apply_targets (targets : List Gddv.AdaptiveTarget) :
    R a.engine (a.applyTargets targets).engine := by
  have htargets := h.execute_targets targets { a with int3400Installed := false }
  unfold applyTargets
  dsimp only
  split
  · exact htargets
  · split
    · exact htargets
    · exact h.trans htargets (h.install_passive_default _)

theorem exec_fallback_target (target : Int) : R a.engine (a.execFallbackTarget target).engine :=
  h.execute_targets (a.gddv.targetsOf target) { a with int3400Installed := false }

/-- What the operations of a policy keep, an update keeps. -/
theorem update_engine_state (result : Int) : R a.engine (a.updateEngineState result).engine := by
  unfold updateEngineState
  split
  · exact h.refl _
  · generalize (if a.fallbackId < 0 then result else -1) = target
    dsimp only
    split
    · exact h.refl _
    · split
      · exact h.exec_fallback_target { a with currentMatchedTarget := target } _
      · split
        · exact h.apply_targets { a with currentMatchedTarget := target } _
        · exact h.apply_targets { a with currentMatchedTarget := target } _

end Closed

/-- The status is kept and no message is sent. -/
theorem closed_silent : Closed (δ := δ) fun e e' =>
    e'.status = e.status ∧ e.world.Silent e'.world where
  refl e := ⟨rfl, .refl _⟩
  trans h h' := ⟨h'.1.trans h.1, h.2.trans h'.2⟩
  clear e keep := ⟨rfl, e.clear_zones_silent keep⟩
  row e zone trip := by
    unfold Engine.addRow
    split
    · exact ⟨rfl, .refl _⟩
    · exact ⟨rfl, Zone.add_trip_silent ..⟩
  consolidate e := ⟨rfl, e.psvt_consolidate_silent⟩
  setTrip e target temp := by
    unfold Engine.setTrip
    split
    · exact ⟨rfl, .refl _⟩
    · exact ⟨rfl, .refl _⟩
  setTarget e k target := ⟨rfl, rfl⟩

/-- The adaptive engine. The process ends where an update says so. -/
instance [StdFloat] : EngineClass (AdaptiveEngine δ) δ where
  base a := a.engine
  withBase a e := { a with engine := e }
  running a := a.process = .running
  updateEngineState a result := a.updateEngineState result
  base_with _ _ := rfl
  running_with _ _ := rfl
  status_update a result := (closed_silent.update_engine_state a result).1
  messages_update a result := (closed_silent.update_engine_state a result).2

end AdaptiveEngine

end Thermald
