import Thermald.Config.Realised

/-!
# Zones that only the configuration has

Several elements of a configuration can name one zone, and a later one may undo what an earlier one
did. `new_zone_realised` is for an element whose zone neither exists before nor has another element:
whatever the other elements do, each of its trip points is realised in the end.
-/

namespace Thermald

/-- A zone of this type is found under the name: it is the name, or both begin with `pch_`. -/
def Called (name typeStr : String) : Prop :=
  typeStr = name ∨
    ("pch_".toList.isPrefixOf name.toList = true ∧ "pch_".toList.isPrefixOf typeStr.toList = true)

instance (name typeStr : String) : Decidable (Called name typeStr) :=
  inferInstanceAs (Decidable (_ ∨ _))

theorem Called.refl (name : String) : Called name name := .inl rfl

/-- Two names under which one zone is found. -/
theorem Called.of_common {name name' typeStr : String} (h : Called name typeStr)
    (h' : Called name' typeStr) : Called name name' := by
  rcases h with rfl | ⟨hname, htype⟩
  · rcases h' with rfl | ⟨hname', htype⟩
    · exact .refl _
    · exact .inr ⟨htype, hname'⟩
  · rcases h' with rfl | ⟨hname', -⟩
    · exact .inr ⟨hname, htype⟩
    · exact .inr ⟨hname, hname'⟩

namespace Engine

variable {δ : Type} {e : Engine δ} {name : String}

theorem search_zone_none_iff :
    e.searchZone name = none ↔ ∀ typeStr ∈ e.zones.map (·.typeStr), ¬ Called name typeStr := by
  unfold searchZone
  rw [List.findIdx?_eq_none_iff, List.forall_mem_map]
  refine forall₂_congr fun z _ => ?_
  unfold Called
  simp only [Bool.eq_false_iff, ne_eq, Bool.or_eq_true, Bool.and_eq_true, decide_eq_true_eq]

/-- The zone that is found has the name. -/
theorem search_zone_called {i : Nat} {z : Zone} (hi : e.searchZone name = some i)
    (hz : e.zones[i]? = some z) : Called name z.typeStr := by
  obtain ⟨hlt, hcalled, -⟩ := List.findIdx?_eq_some_iff_getElem.mp hi
  rw [(List.getElem?_eq_some_iff.mp hz).2] at hcalled
  unfold Called
  simpa using hcalled

section Reading

variable [StdSort] {ctx : ReadContext} {conf : ThermalZoneConf}

/-- The zones after an element are those before it, and perhaps a new one of its type. -/
theorem read_zone_types (ctx : ReadContext) (e : Engine δ) (conf : ThermalZoneConf) :
    (e.readThermalZone ctx conf).zones.map (·.typeStr) = e.zones.map (·.typeStr) ∨
      (e.readThermalZone ctx conf).zones.map (·.typeStr) =
        e.zones.map (·.typeStr) ++ [conf.type] := by
  unfold readThermalZone
  rw [disable_cpu_zone_map fun _ => rfl]
  split
  · split
    · exact .inl rfl
    · rename_i i _ z hget
      obtain ⟨htype, hnames, -⟩ := configure_keeps z conf e.world
      exact .inl (set_zone_names hget htype hnames).zones
  · split
    · exact .inl rfl
    · rename_i z w hgeneric
      refine .inr ?_
      show (e.zones ++ [z.setZoneActive true]).map (·.typeStr) = _
      rw [List.map_append]
      exact congrArg (_ ++ [·]) (Zone.generic_names hgeneric).1

/-- An element of another name adds no zone of this name. -/
theorem search_zone_none_read (hnone : e.searchZone name = none)
    (hother : ¬ Called name conf.type) : (e.readThermalZone ctx conf).searchZone name = none := by
  rw [search_zone_none_iff] at hnone ⊢
  intro typeStr hmem
  rcases e.read_zone_types ctx conf with heq | heq
  · rw [heq] at hmem
    exact hnone typeStr hmem
  · rw [heq, List.mem_append, List.mem_singleton] at hmem
    rcases hmem with hmem | rfl
    · exact hnone typeStr hmem
    · exact hother

/-- An element of another name leaves what is realised. -/
theorem Realises.read_other {c : TripPointConf} (h : e.Realises name c)
    (hother : ¬ Called name conf.type) : (e.readThermalZone ctx conf).Realises name c := by
  cases hzone : e.searchZone conf.type with
  | some i =>
      have hlt := search_zone_lt hzone
      have hget := List.getElem?_eq_getElem hlt
      obtain ⟨htype, hnames, -⟩ := configure_keeps e.zones[i] conf e.world
      rw [read_existing_zone hzone hget]
      refine Realises.disable_cpu_zone (realises_set_other hget htype hnames ?_ h) _ _
      intro hname
      have hcalled := search_zone_called hname hget
      exact hother (hcalled.of_common (search_zone_called hzone hget))
  | none =>
      unfold readThermalZone
      rw [hzone]
      dsimp only
      split
      · exact h.disable_cpu_zone _ _
      · rename_i z w hgeneric
        have hnames := (Zone.generic_names hgeneric).2
        exact (realises_append hnames h _).disable_cpu_zone _ _

/-- The element of a new zone, if each of its trip points is usable and has at most one binding,
without a controller. -/
theorem read_new_zone (hnew : e.searchZone conf.type = none) (husable : conf.usable e.world = true)
    (hsingle : ∀ c ∈ conf.tripPts, ∀ b ∈ c.cdevTrips, c.cdevTrips = [b] ∧ b.pidParam.valid = false)
    (husr : 0 < ctx.usrPsvTemp conf.type → ∀ c ∈ conf.tripPts, c.tripPtType ≠ .passive) :
    ∀ c ∈ conf.tripPts, (e.readThermalZone ctx conf).Realises conf.type c := by
  have hkeeps : Reading.Keeps ctx ⟨e, []⟩ conf := by
    refine ⟨fun i z hi => ?_, fun _ _ c hc => ?_, fun _ _ c hc b hb _ => ?_, fun _ _ => husr⟩
    · exact absurd (hnew.symm.trans hi) (by simp)
    · intro b hb b' hb' k k' hk hk' _
      rw [(hsingle c hc b hb).1, List.mem_singleton] at hb'
      subst hb'
      rw [Option.some.inj (hk.symm.trans hk')]
    · exact (hsingle c hc b hb).2
  have hstart : (⟨e, []⟩ : Reading δ).Realised := fun p hp => absurd hp List.not_mem_nil
  intro c hc
  exact (hstart.read_new hkeeps hnew (conf.type, c)
    (Reading.mem_read_done.mpr (.inr ⟨husable, rfl, hc⟩))).2

/-- A new zone whose name no other element has: its trip points are realised in the end. -/
theorem new_zone_realised {pre post : List ThermalZoneConf}
    (hpre : ∀ conf' ∈ pre, ¬ Called conf.type conf'.type)
    (hpost : ∀ conf' ∈ post, ¬ Called conf.type conf'.type)
    (hnew : e.searchZone conf.type = none) (husable : conf.usable e.world = true)
    (hsingle : ∀ c ∈ conf.tripPts, ∀ b ∈ c.cdevTrips, c.cdevTrips = [b] ∧ b.pidParam.valid = false)
    (husr : 0 < ctx.usrPsvTemp conf.type → ∀ c ∈ conf.tripPts, c.tripPtType ≠ .passive) :
    ∀ c ∈ conf.tripPts, (e.readThermalZones ctx (pre ++ conf :: post)).Realises conf.type c := by
  induction pre generalizing e with
  | nil =>
      intro c hc
      have hread := read_new_zone hnew husable hsingle husr c hc
      show (post.foldl (readThermalZone ctx) (e.readThermalZone ctx conf)).Realises conf.type c
      refine List.foldlRecOn post _
        (motive := fun (e : Engine δ) => e.Realises conf.type c) hread ?_
      exact fun e h conf' hconf' => h.read_other (hpost conf' hconf')
  | cons first rest ih =>
      have hworld := Reading.read_world ctx e first
      refine ih
        (fun conf' hconf' => hpre conf' (List.mem_cons_of_mem _ hconf'))
        (search_zone_none_read hnew (hpre first List.mem_cons_self)) ?_
      refine List.all_eq_true.mpr fun c hc => ?_
      exact (hworld.adds_eq c).trans (List.all_eq_true.mp husable c hc)

end Reading

end Engine

end Thermald
