import Thermald.Adaptive.Policies

/-!
# Switches that leave trips behind

A switch of the policy first deletes all trips. Where a target names a table, the engine looks
afterwards whether there is an active zone and otherwise ends the process. Where it falls back to
the default table nobody looks. `guarded_iff` says when a run has an active zone with a trip in
every state: whenever the default table is installed it exists and one of its rows refers to a zone,
a sensor and a device that are there.
-/

namespace Thermald

open Gddv (AdaptiveTarget ascii)

namespace Engine

variable {δ : Type}

/-! ## Zones -/

/-- Every active zone has a trip. -/
def ActiveHaveTrips (e : Engine δ) : Prop :=
  ∀ z ∈ e.zones, z.zoneActive = true → z.tripPoints ≠ []

/-- Each zone is what the function makes of it in some world. -/
theorem for_zones_forall₂ (f : Zone → World δ → Zone × World δ) (zones : List Zone) (w : World δ) :
    List.Forall₂ (fun z z' => ∃ w, z' = (f z w).1) zones (forZones f zones w).1 := by
  induction zones generalizing w with
  | nil => exact .nil
  | cons z rest ih => exact .cons ⟨w, rfl⟩ (ih _)

theorem any_active_iff {e : Engine δ} :
    e.anyActive = true ↔ ∃ z ∈ e.zones, z.zoneActive = true := by
  simp [anyActive]

variable [StdSort]

/-- A row makes its zone active, with a trip. -/
theorem add_row_zones (e : Engine δ) {zone : Nat} {trip : Zone → TripPoint}
    (hzone : zone < e.zones.length) (htype : ∀ z, (trip z).type ≠ .polling) :
    ∃ i z, i < e.zones.length ∧ (e.addRow zone trip).zones = e.zones.set i z ∧
      z.zoneActive = true ∧ z.tripPoints ≠ [] := by
  have hget := List.getElem?_eq_getElem hzone
  unfold addRow
  rw [hget]
  refine ⟨zone, _, hzone, rfl, rfl, ?_⟩
  exact Zone.add_trip_ne_nil _ (htype _) e.world

omit [StdSort] in
/-- A zone that is found is one of the list. -/
theorem search_zone_lt {e : Engine δ} {name : String} {i : Nat} (h : e.searchZone name = some i) :
    i < e.zones.length := by
  unfold searchZone at h
  rw [List.findIdx?_eq_some_iff_getElem] at h
  exact h.1

omit [StdSort] in
theorem table_zone_lt {e : Engine δ} {name found : Bytes} {i : Nat}
    (h : e.tableZone name = some (i, found)) : i < e.zones.length := by
  unfold tableZone at h
  split at h
  · rename_i hfound
    cases h
    exact search_zone_lt hfound
  · generalize (if beginsWith name "B0D4" then ascii "TCPU" else name) = name at h
    dsimp only at h
    split at h
    · rename_i hfound
      cases h
      exact search_zone_lt hfound
    · split at h
      · obtain ⟨j, hfound, heq⟩ := Option.map_eq_some_iff.mp h
        cases heq
        exact search_zone_lt hfound
      · exact absurd h (by simp)

omit [StdSort] in
theorem passive_row_lt {e : Engine δ} {psv : Gddv.Psv} {row : Row}
    (h : e.passiveRow psv = some row) : row.zone < e.zones.length := by
  unfold passiveRow at h
  simp only [Option.bind_eq_bind, Option.bind_eq_some_iff, Option.pure_def, Option.some.injEq] at h
  obtain ⟨⟨zone, name⟩, hzone, k, -, s, -, rfl⟩ := h
  exact table_zone_lt hzone

omit [StdSort] in
theorem itmt_row_lt {e : Engine δ} {entry : Gddv.ItmtEntry} {row : Row}
    (h : e.itmtRow entry = some row) : row.zone < e.zones.length := by
  unfold itmtRow at h
  simp only [Option.bind_eq_bind, Option.bind_eq_some_iff, Option.pure_def, Option.some.injEq] at h
  obtain ⟨⟨zone, name⟩, hzone, k, -, s, -, rfl⟩ := h
  exact table_zone_lt hzone

/-- What installing a row does to the zones: nothing, or one of them becomes active with a trip. -/
structure Installs (e e' : Engine δ) (resolved : Bool) : Prop where
  unresolved : resolved = false → e' = e
  resolved : resolved = true → ∃ i z, i < e.zones.length ∧ e'.zones = e.zones.set i z ∧
    z.zoneActive = true ∧ z.tripPoints ≠ []

theorem install_passive_installs (e : Engine δ) (psv : Gddv.Psv) :
    e.Installs (e.installPassive psv) (e.passiveRow psv).isSome := by
  unfold installPassive
  cases hrow : e.passiveRow psv with
  | none => exact ⟨fun _ => rfl, fun h => by simp at h⟩
  | some row =>
      refine ⟨fun h => by simp at h, fun _ => ?_⟩
      apply e.add_row_zones (passive_row_lt hrow)
      intro z
      show TripPointType.passive ≠ .polling
      exact TripPointType.noConfusion

theorem install_itmt_installs (e : Engine δ) (entry : Gddv.ItmtEntry) :
    e.Installs (e.installItmt entry) (e.itmtRow entry).isSome := by
  unfold installItmt
  cases hrow : e.itmtRow entry with
  | none => exact ⟨fun _ => rfl, fun h => by simp at h⟩
  | some row =>
      refine ⟨fun h => by simp at h, fun _ => ?_⟩
      apply e.add_row_zones (itmt_row_lt hrow)
      intro z
      show TripPointType.passive ≠ .polling
      exact TripPointType.noConfusion

omit [StdSort] in
/-- A row keeps it that active zones have trips. -/
theorem Installs.active_have_trips {e e' : Engine δ} {resolved : Bool}
    (h : e.Installs e' resolved) (he : e.ActiveHaveTrips) : e'.ActiveHaveTrips := by
  cases hres : resolved with
  | false =>
      rw [h.unresolved hres]
      exact he
  | true =>
      obtain ⟨i, z, -, hzones, -, htrips⟩ := h.resolved hres
      intro z' hz'
      rw [hzones] at hz'
      rcases List.mem_or_eq_of_mem_set hz' with hz' | rfl
      · exact he z' hz'
      · exact fun _ => htrips

omit [StdSort] in
/-- There is an active zone after a row if there was one before it or the row could be installed. -/
theorem Installs.any_active {e e' : Engine δ} {resolved : Bool} (h : e.Installs e' resolved) :
    e'.anyActive = (e.anyActive || resolved) := by
  cases hres : resolved with
  | false => simp [h.unresolved hres]
  | true =>
      obtain ⟨i, z, hi, hzones, hactive, -⟩ := h.resolved hres
      rw [Bool.or_true, any_active_iff, hzones]
      exact ⟨z, List.mem_set hi z, hactive⟩

omit [StdSort] in
/-- Rows one after the other keep it that active zones have trips. -/
theorem foldl_active_have_trips {ρ : Type} {f : Engine δ → ρ → Engine δ}
    (hf : ∀ e r, ∃ resolved, Installs e (f e r) resolved) (rows : List ρ) {e : Engine δ}
    (he : e.ActiveHaveTrips) : (rows.foldl f e).ActiveHaveTrips := by
  induction rows generalizing e with
  | nil => exact he
  | cons r rest ih =>
      obtain ⟨resolved, h⟩ := hf e r
      exact ih (h.active_have_trips he)

/-- There is an active zone after the rows of a table if there was one before or one of the rows
could be installed. -/
theorem foldl_install_passive_active (rows : List Gddv.Psv) (e : Engine δ) :
    (rows.foldl installPassive e).anyActive =
      (e.anyActive || rows.any fun psv => (e.passiveRow psv).isSome) := by
  induction rows generalizing e with
  | nil => simp
  | cons psv rest ih =>
      have hnames := e.install_passive_names psv
      rw [List.foldl_cons, ih, (e.install_passive_installs psv).any_active]
      simp only [hnames.passive_row_eq, List.any_cons, Bool.or_assoc]

/-- Consolidation keeps the active zones, and their trips are not lost. -/
theorem psvt_consolidate_active (e : Engine δ) :
    e.psvtConsolidate.anyActive = e.anyActive ∧
      (e.ActiveHaveTrips → e.psvtConsolidate.ActiveHaveTrips) := by
  have hzones := for_zones_forall₂ (fun z w => z.psvtConsolidate w) e.zones e.world
  have hactive (z : Zone) (w : World δ) : (z.psvtConsolidate w).1.zoneActive = z.zoneActive := by
    obtain ⟨⟨trips, hzone⟩, -⟩ := z.psvt_consolidate_edits w
    rw [hzone]
  constructor
  · rw [Bool.eq_iff_iff, any_active_iff, any_active_iff]
    constructor
    · intro hex
      obtain ⟨z', hz', h⟩ := hex
      obtain ⟨z, hz, w, rfl⟩ := forall₂_mem_right hzones hz'
      exact ⟨z, hz, (hactive z w).symm.trans h⟩
    · intro hex
      obtain ⟨z, hz, h⟩ := hex
      obtain ⟨z', hz', w, rfl⟩ := forall₂_mem_left hzones hz
      exact ⟨_, hz', (hactive z w).trans h⟩
  · intro he z' hz' h
    obtain ⟨z, hz, w, rfl⟩ := forall₂_mem_right hzones hz'
    exact Zone.psvt_consolidate_ne_nil (he z hz ((hactive z w).symm.trans h)) w

/-- The zones that are cleared are inactive. -/
theorem clear_zones_active [CdevClass δ] (e : Engine δ) (keep : Zone → Bool)
    (he : e.ActiveHaveTrips) : (e.clearZones keep).ActiveHaveTrips := by
  have hzones := for_zones_forall₂ (fun z w => if keep z then (z, w)
    else (z.tripDeleteAll.setZoneActive false, z.zoneReset true w)) e.zones e.world
  intro z' hz' h
  obtain ⟨z, hz, w, rfl⟩ := forall₂_mem_right hzones hz'
  split at h
  · rw [if_pos ‹_›]
    exact he z hz h
  · simp [Zone.setZoneActive] at h

theorem clear_all_zones [CdevClass δ] (e : Engine δ) :
    (e.clearZones fun _ => false).anyActive = false := by
  have hzones := for_zones_forall₂ (fun z w => if false then (z, w)
    else (z.tripDeleteAll.setZoneActive false, z.zoneReset true w)) e.zones e.world
  rw [Bool.eq_false_iff]
  intro h
  obtain ⟨z', hz', hactive⟩ := any_active_iff.mp h
  obtain ⟨z, -, w, rfl⟩ := forall₂_mem_right hzones hz'
  simp [Zone.setZoneActive] at hactive

omit [StdSort] in
/-- `set_trip` keeps the active zones and the number of their trips. -/
theorem set_trip_active (e : Engine δ) (target : Bytes) (temp : Nat) :
    (e.setTrip target temp).anyActive = e.anyActive ∧
      (e.ActiveHaveTrips → (e.setTrip target temp).ActiveHaveTrips) := by
  have hedit (z : Zone) : (z.setPassiveTemp temp).zoneActive = z.zoneActive ∧
      (z.tripPoints ≠ [] → (z.setPassiveTemp temp).tripPoints ≠ []) := by
    unfold Zone.setPassiveTemp
    split
    · exact ⟨rfl, id⟩
    · refine ⟨rfl, fun h => ?_⟩
      rw [← List.length_pos_iff] at h ⊢
      simpa using h
  unfold setTrip
  split
  · exact ⟨rfl, id⟩
  · rename_i i hi
    have hlt := search_zone_lt hi
    have hmodify : e.zones.modify i (fun z => z.setPassiveTemp temp) =
        e.zones.set i (e.zones[i].setPassiveTemp temp) := by
      rw [List.modify_eq_set_getElem?, List.getElem?_eq_getElem hlt]
      rfl
    constructor
    · rw [Bool.eq_iff_iff, any_active_iff, any_active_iff, hmodify]
      constructor
      · intro hex
        obtain ⟨z, hz, hactive⟩ := hex
        rcases List.mem_or_eq_of_mem_set hz with hz | rfl
        · exact ⟨z, hz, hactive⟩
        · exact ⟨_, List.getElem_mem hlt, (hedit _).1.symm.trans hactive⟩
      · intro hex
        obtain ⟨z, hz, hactive⟩ := hex
        obtain ⟨j, hj, rfl⟩ := List.getElem_of_mem hz
        by_cases hij : i = j
        · subst hij
          exact ⟨_, List.mem_set hlt _, (hedit _).1.trans hactive⟩
        · refine ⟨e.zones[j], ?_, hactive⟩
          have hj' : j < (e.zones.set i (e.zones[i].setPassiveTemp temp)).length := by
            simpa using hj
          have hget := List.getElem_set_ne hij hj'
          rw [← hget]
          exact List.getElem_mem hj'
    · intro he z hz hactive
      rw [hmodify] at hz
      rcases List.mem_or_eq_of_mem_set hz with hz | rfl
      · exact he z hz hactive
      · exact (hedit _).2 (he _ (List.getElem_mem hlt) ((hedit _).1.symm.trans hactive))

end Engine

namespace AdaptiveEngine

variable {δ : Type}

/-! ## Targets -/

/-- There is an active zone with a trip, or the process has exited to be restarted without the
adaptive engine. -/
def Guarded (a : AdaptiveEngine δ) : Prop :=
  a.process = .restart ∨ ∃ z ∈ a.engine.zones, z.zoneActive = true ∧ z.tripPoints ≠ []

/-- The same, as the engine itself can see it. -/
def seesZone (a : AdaptiveEngine δ) : Bool := a.process = .restart || a.engine.anyActive

theorem guarded_iff_sees_zone {a : AdaptiveEngine δ} (h : a.engine.ActiveHaveTrips) :
    a.Guarded ↔ a.seesZone = true := by
  simp only [Guarded, seesZone, Bool.or_eq_true, decide_eq_true_eq, Engine.any_active_iff]
  constructor
  · rintro (hexit | ⟨z, hz, hactive, -⟩)
    · exact .inl hexit
    · exact .inr ⟨z, hz, hactive⟩
  · rintro (hexit | ⟨z, hz, hactive⟩)
    · exact .inl hexit
    · exact .inr ⟨z, hz, hactive, h z hz hactive⟩

/-- Some row of the default table refers to things that are there. -/
def defaultUsable (a : AdaptiveEngine δ) : Bool :=
  match a.gddv.findDefPsvt with
  | none => false
  | some t => t.psvs.any fun psv => (a.engine.passiveRow psv).isSome

/-- The default table is usable at one time if it is usable at another. -/
theorem Updates.default_usable_eq {a a' : AdaptiveEngine δ} (h : a.Updates a') :
    a'.defaultUsable = a.defaultUsable := by
  simp only [defaultUsable, h.gddv, h.names.passive_row_eq]

/-- Executing the target throws an exception that nobody catches. -/
def aborts [StdFloat] (a : AdaptiveEngine δ) (target : AdaptiveTarget) : Bool :=
  a.isInt3400Target target && target.code = ascii "PSV" &&
    (StdFloat.stofMilli target.argument).isNone

theorem Updates.aborts_eq [StdFloat] {a a' : AdaptiveEngine δ} (h : a.Updates a') :
    a'.aborts = a.aborts := by
  funext t
  have hcdev : a'.targetCdev t = a.targetCdev t := h.names.table_cdev_eq _
  simp only [aborts, isInt3400Target, hcdev, h.int3400Path]

section Targets

variable [StdSort]

section Install

variable [AdaptiveCdev δ] (a : AdaptiveEngine δ)

/-- Every active zone has a trip after the rows of a table. -/
theorem install_tables_active (h : a.engine.ActiveHaveTrips) (t : Gddv.Itmt) (t' : Gddv.Psvt) :
    (a.installItmtTable t).engine.ActiveHaveTrips ∧
      (a.installPsvtTable t').engine.ActiveHaveTrips := by
  constructor
  · refine Engine.foldl_active_have_trips (fun e r => ⟨_, e.install_itmt_installs r⟩) _ ?_
    split
    · exact h
    · exact a.engine.clear_zones_active _ h
  · refine Engine.foldl_active_have_trips (fun e r => ⟨_, e.install_passive_installs r⟩) _ ?_
    split
    · exact h
    · exact a.engine.clear_zones_active _ h

/-- After the default table there is an active zone exactly if the table is usable. -/
theorem install_passive_default_active (h : a.engine.ActiveHaveTrips) :
    a.installPassiveDefault.engine.ActiveHaveTrips ∧
      a.installPassiveDefault.engine.anyActive = a.defaultUsable := by
  have hclear := a.engine.clear_zones_active (fun _ => false) h
  unfold installPassiveDefault defaultUsable
  cases a.gddv.findDefPsvt with
  | none => exact ⟨hclear, a.engine.clear_all_zones⟩
  | some t =>
      obtain ⟨hactive, htrips⟩ := Engine.psvt_consolidate_active
        (t.psvs.foldl Engine.installPassive (a.engine.clearZones fun _ => false))
      refine ⟨htrips ?_, ?_⟩
      · exact Engine.foldl_active_have_trips (fun e r => ⟨_, e.install_passive_installs r⟩) _ hclear
      · have hnames := a.engine.clear_zones_names fun _ => false
        rw [hactive, Engine.foldl_install_passive_active, Engine.clear_all_zones]
        simp only [hnames.passive_row_eq, Bool.false_or]

end Install

variable [StdFloat] (a : AdaptiveEngine δ) (target : AdaptiveTarget)

/-- The end of `set_int3400_target`: an active zone, or an exit. It ends the process only if there
is no active zone or the argument is no number. -/
theorem finish_int3400_target_active (h : a.engine.ActiveHaveTrips) :
    (a.finishInt3400Target target).engine.ActiveHaveTrips ∧
      (a.finishInt3400Target target).seesZone = true ∧
      (a.engine.anyActive = true → target.code ≠ ascii "PSV" ∨
        (StdFloat.stofMilli target.argument).isSome = true →
        (a.finishInt3400Target target).process = a.process) ∧
      (target.code = ascii "PSV" → StdFloat.stofMilli target.argument = none →
        (a.finishInt3400Target target).process ≠ .running) := by
  obtain ⟨hactive, htrips⟩ := a.engine.psvt_consolidate_active
  unfold finishInt3400Target
  dsimp only
  split
  · rename_i hany
    split
    · rename_i hcode
      split
      · rename_i hnone
        refine ⟨htrips h, by simp [seesZone, hany], fun _ hok => ?_, fun _ _ => Process.noConfusion⟩
        simp [hcode, hnone] at hok
      · rename_i temp hsome
        obtain ⟨hactive', htrips'⟩ := Engine.set_trip_active a.engine.psvtConsolidate
          target.participant (toTemp temp)
        refine ⟨htrips' (htrips h), by simp [seesZone, hactive', hany], fun _ _ => rfl, ?_⟩
        intro _ hnone
        simp [hnone] at hsome
    · rename_i hcode
      exact ⟨htrips h, by simp [seesZone, hany], fun _ _ => rfl, fun h => absurd h hcode⟩
  · rename_i hany
    refine ⟨htrips h, by simp [seesZone], fun hbefore => ?_, fun _ _ => Process.noConfusion⟩
    exact absurd (hactive.trans hbefore) hany

variable [AdaptiveCdev δ]

/-- An active zone that has a trip, or an exit, is kept by every target. -/
theorem execute_target_active (h : a.engine.ActiveHaveTrips) (hzone : a.seesZone = true) :
    (a.executeTarget target).engine.ActiveHaveTrips ∧ (a.executeTarget target).seesZone = true := by
  unfold executeTarget
  split
  · unfold setInt3400Target
    split
    · split
      · have hfinish := a.finish_int3400_target_active target h
        exact ⟨hfinish.1, hfinish.2.1⟩
      · rename_i t _
        have hfinish := finish_int3400_target_active (a.installItmtTable t) target
          (a.install_tables_active h t ⟨[], []⟩).1
        exact ⟨hfinish.1, hfinish.2.1⟩
    · split
      · split
        · exact ⟨h, hzone⟩
        · rename_i t _
          have hfinish := finish_int3400_target_active (a.installPsvtTable t) target
            (a.install_tables_active h ⟨0, [], []⟩ t).2
          exact ⟨hfinish.1, hfinish.2.1⟩
      · have hfinish := a.finish_int3400_target_active target h
        exact ⟨hfinish.1, hfinish.2.1⟩
  · split
    · exact ⟨h, hzone⟩
    · exact ⟨h, hzone⟩

/-- A target that installs no table and throws no exception leaves the process running. -/
theorem execute_target_running (h : a.engine.ActiveHaveTrips) (hany : a.engine.anyActive = true)
    (hinstalls : a.installs target = false) (haborts : a.aborts target = false) :
    (a.executeTarget target).process = a.process := by
  unfold executeTarget
  split
  · rename_i hint
    have hok : target.code ≠ ascii "PSV" ∨
        (StdFloat.stofMilli target.argument).isSome = true := by
      by_cases hcode : target.code = ascii "PSV"
      · right
        simpa [aborts, hint, hcode] using haborts
      · exact .inl hcode
    have hfinish := (a.finish_int3400_target_active target h).2.2.1 hany hok
    simp only [installs, hint, Bool.true_and] at hinstalls
    unfold setInt3400Target
    split
    · rename_i hitmt
      rw [if_pos hitmt] at hinstalls
      split
      · exact hfinish
      · rename_i t hsome
        simp [hsome] at hinstalls
    · rename_i hitmt
      rw [if_neg hitmt] at hinstalls
      split
      · rename_i hcode
        split
        · rfl
        · rename_i t hsome
          simp [hcode, hsome] at hinstalls
      · exact hfinish
  · split
    · rfl
    · rfl

/-- A target with an argument that is no number ends the process. -/
theorem execute_target_aborts (h : a.engine.ActiveHaveTrips) (haborts : a.aborts target = true) :
    (a.executeTarget target).process ≠ .running := by
  simp only [aborts, Bool.and_eq_true, decide_eq_true_eq, Option.isNone_iff_eq_none] at haborts
  obtain ⟨⟨hint, hcode⟩, hnone⟩ := haborts
  have hfinish := (a.finish_int3400_target_active target h).2.2.2 hcode hnone
  unfold executeTarget
  rw [if_pos hint]
  unfold setInt3400Target
  rw [if_neg (by rw [hcode]; decide), if_neg (by rw [hcode]; decide)]
  exact hfinish

/-- The loop over the targets keeps an active zone or exits, and it leaves the process running if no
target installs a table or throws an exception. A target that throws ends it. -/
theorem execute_targets_active (targets : List AdaptiveTarget) (a : AdaptiveEngine δ)
    (h : a.engine.ActiveHaveTrips) (hzone : a.seesZone = true) (hrunning : a.process = .running) :
    (executeTargets targets a).2.engine.ActiveHaveTrips ∧
      (executeTargets targets a).2.seesZone = true ∧
      (targets.any a.installs = false → targets.any a.aborts = false →
        (executeTargets targets a).2.process = .running) ∧
      (targets.any a.aborts = true → (executeTargets targets a).2.process ≠ .running) := by
  induction targets generalizing a with
  | nil => exact ⟨h, hzone, fun _ _ => hrunning, fun hno => by simp at hno⟩
  | cons t rest ih =>
      obtain ⟨htrips, hsees⟩ := a.execute_target_active t h hzone
      have hkeeps := (a.execute_target_keeps t).1
      have hloop : (executeTargets (t :: rest) a).2 =
          (executeTargets rest (a.executeTarget t)).2 := by
        simp [executeTargets, hrunning]
      rw [hloop]
      by_cases hnext : (a.executeTarget t).process = .running
      · obtain ⟨htrips', hsees', hgo, hstop⟩ := ih (a.executeTarget t) htrips hsees hnext
        rw [hkeeps.installs_eq, hkeeps.aborts_eq] at hgo
        rw [hkeeps.aborts_eq] at hstop
        refine ⟨htrips', hsees', fun hno hno' => ?_, fun hyes => ?_⟩
        · rw [List.any_cons, Bool.or_eq_false_iff] at hno hno'
          exact hgo hno.2 hno'.2
        · rw [List.any_cons, Bool.or_eq_true] at hyes
          rcases hyes with hyes | hyes
          · exact absurd hnext (a.execute_target_aborts t h hyes)
          · exact hstop hyes
      · -- the process has ended, so the loop stops here
        have hend : (executeTargets rest (a.executeTarget t)).2 = a.executeTarget t := by
          cases rest with
          | nil => rfl
          | cons t' rest' => simp [executeTargets, hnext]
        rw [hend]
        refine ⟨htrips, hsees, fun hno hno' => ?_, fun _ => hnext⟩
        rw [List.any_cons, Bool.or_eq_false_iff] at hno hno'
        have hany : a.engine.anyActive = true := by simpa [seesZone, hrunning] using hzone
        exact (a.execute_target_running t h hany hno.1 hno'.1).trans hrunning

/-! ## Updates -/

/-- Executing targets as a policy: there is an active zone or an exit, unless none of the targets
installs a table and the default table is not usable. -/
theorem apply_targets_active (targets : List AdaptiveTarget) (h : a.engine.ActiveHaveTrips)
    (hzone : a.seesZone = true) (hrunning : a.process = .running) :
    (a.applyTargets targets).engine.ActiveHaveTrips ∧
      ((a.applyTargets targets).seesZone = true ↔
        (targets.any a.installs = false → targets.any a.aborts = false →
          a.defaultUsable = true)) := by
  have hbegin : a.Keeps { a with int3400Installed := false } := .of_names (.refl _) false _
  obtain ⟨htrips, hsees, hgo, hstop⟩ :=
    execute_targets_active targets { a with int3400Installed := false } h hzone hrunning
  obtain ⟨hloop, hspec⟩ := execute_targets_spec targets { a with int3400Installed := false }
  have hkeeps := hbegin.trans hloop
  rw [hbegin.installs_eq, hbegin.aborts_eq] at hgo
  rw [hbegin.aborts_eq] at hstop
  rw [hbegin.installs_eq] at hspec
  unfold applyTargets
  dsimp only
  split
  · rename_i hended
    exact ⟨htrips, iff_of_true hsees fun hno hno' => absurd (hgo hno hno') hended⟩
  · rename_i hnotended
    have hstill := not_not.mp hnotended
    obtain ⟨-, htable⟩ := hspec hstill
    split
    · rename_i hinstalled
      rw [htable, Bool.false_or] at hinstalled
      exact ⟨htrips, iff_of_true hsees fun hno => absurd hinstalled (by rw [hno]; simp)⟩
    · rename_i hinstalled
      rw [htable, Bool.false_or, Bool.not_eq_true] at hinstalled
      obtain ⟨htrips', hactive⟩ := install_passive_default_active
        (executeTargets targets { a with int3400Installed := false }).2 htrips
      refine ⟨htrips', ?_⟩
      have hprocess := (install_passive_default_process
        (executeTargets targets { a with int3400Installed := false }).2).1.trans hstill
      have hno : targets.any a.aborts = false := by
        rw [Bool.eq_false_iff]
        exact fun hyes => hstop hyes hstill
      simp only [seesZone, hprocess, hactive, hkeeps.default_usable_eq, hinstalled, hno]
      simp

/-- The result of an update as it is compared with the cached one. -/
def updateTarget (a : AdaptiveEngine δ) (result : Int) : Int :=
  if a.fallbackId < 0 then result else -1

/-- An update executes the fallback target. -/
def takesFallback (a : AdaptiveEngine δ) (result : Int) : Bool :=
  a.updateTarget result = -1 && 0 ≤ a.fallbackId && !a.policyActive

/-- An update with this result falls back to the default table: the result has changed, and the
targets of its id are executed but install no table. -/
def fallsBack (a : AdaptiveEngine δ) (result : Int) : Bool :=
  a.process = .running && !a.passiveDefOnly && a.currentMatchedTarget ≠ a.updateTarget result &&
    !a.takesFallback result &&
    !(executedFor a.gddv (a.updateTarget result)).any a.installs &&
    !(executedFor a.gddv (a.updateTarget result)).any a.aborts

/-- An update: nothing, the fallback target, or the targets of the result. -/
theorem update_active_cases (result : Int) :
    (a.updateEngineState result = a ∧ a.fallsBack result = false) ∨
      (a.process = .running ∧ a.takesFallback result = true ∧
        a.updateEngineState result =
          { execFallbackTarget { a with currentMatchedTarget := -1 } a.fallbackTarget with
            policyActive := true }) ∨
      (a.process = .running ∧ a.passiveDefOnly = false ∧
        a.currentMatchedTarget ≠ a.updateTarget result ∧ a.takesFallback result = false ∧
        ∃ active, a.updateEngineState result =
          { applyTargets { a with currentMatchedTarget := a.updateTarget result }
              (executedFor a.gddv (a.updateTarget result)) with policyActive := active }) := by
  by_cases hskip : a.process ≠ .running ∨ a.passiveDefOnly = true
  · left
    refine ⟨by rw [updateEngineState, if_pos hskip], ?_⟩
    rcases hskip with hskip | hskip
    · simp [fallsBack, hskip]
    · simp [fallsBack, hskip]
  have hrunning : a.process = .running := by
    by_contra h
    exact hskip (.inl h)
  have hdef : a.passiveDefOnly = false := by
    by_contra h
    exact hskip (.inr (by simpa using h))
  by_cases hsame : a.currentMatchedTarget = a.updateTarget result
  · left
    constructor
    · rw [updateEngineState, if_neg hskip]
      exact if_pos hsame
    · simp [fallsBack, hsame]
  right
  have hchange : a.updateEngineState result =
      if a.updateTarget result = -1 ∧ 0 ≤ a.fallbackId ∧ a.policyActive = false then
        { execFallbackTarget { a with currentMatchedTarget := a.updateTarget result }
            a.fallbackTarget with policyActive := true }
      else if 0 < a.updateTarget result then
        { applyTargets { a with currentMatchedTarget := a.updateTarget result }
            (a.gddv.targetsOf (a.updateTarget result)) with policyActive := true }
      else applyTargets { a with currentMatchedTarget := a.updateTarget result } [] := by
    rw [updateEngineState, if_neg hskip]
    exact if_neg hsame
  by_cases htakes : a.updateTarget result = -1 ∧ 0 ≤ a.fallbackId ∧ a.policyActive = false
  · left
    refine ⟨hrunning, by simp [takesFallback, htakes], ?_⟩
    rw [hchange, if_pos htakes, htakes.1]
  · right
    refine ⟨hrunning, hdef, hsame, ?_, ?_⟩
    · simpa [takesFallback, and_assoc] using htakes
    · rw [hchange, if_neg htakes]
      by_cases hpos : 0 < a.updateTarget result
      · refine ⟨true, ?_⟩
        rw [if_pos hpos, executedFor, if_pos hpos]
      · refine ⟨(applyTargets { a with currentMatchedTarget := a.updateTarget result }
          []).policyActive, ?_⟩
        rw [if_neg hpos, executedFor, if_neg hpos]

/-- An update keeps it that active zones have trips, and it keeps an active zone or exits exactly if
the default table is usable where it is needed. -/
theorem update_active (result : Int) (h : a.engine.ActiveHaveTrips) (hzone : a.seesZone = true) :
    (a.updateEngineState result).engine.ActiveHaveTrips ∧
      ((a.updateEngineState result).seesZone = true ↔
        (a.fallsBack result = true → a.defaultUsable = true)) := by
  obtain ⟨heq, hno⟩ | ⟨hrunning, htakes, heq⟩ | ⟨hrunning, hdef, hsame, htakes, active, heq⟩ :=
    a.update_active_cases result
  · rw [heq, hno]
    exact ⟨h, iff_of_true hzone fun hno => absurd hno (by decide)⟩
  · rw [heq]
    obtain ⟨htrips, hsees, -⟩ := execute_targets_active
      (a.gddv.targetsOf a.fallbackTarget)
      { a with currentMatchedTarget := -1, int3400Installed := false } h hzone hrunning
    refine ⟨htrips, iff_of_true hsees ?_⟩
    simp [fallsBack, htakes]
  · rw [heq]
    have hbegin : a.Updates { a with currentMatchedTarget := a.updateTarget result } :=
      ⟨.refl _, rfl, rfl, rfl, rfl⟩
    obtain ⟨htrips, hiff⟩ := apply_targets_active
      { a with currentMatchedTarget := a.updateTarget result }
      (executedFor a.gddv (a.updateTarget result)) h hzone hrunning
    refine ⟨htrips, hiff.trans ?_⟩
    rw [hbegin.installs_eq, hbegin.aborts_eq, hbegin.default_usable_eq]
    simp only [fallsBack, hrunning, hdef, htakes, ne_eq, hsame, not_false_eq_true, decide_true,
      Bool.not_false, Bool.true_and, Bool.and_eq_true, Bool.not_eq_true', and_imp]

/-! ## Runs -/

omit [StdFloat] in
/-- The default table as a policy of its own. -/
theorem apply_default_active (h : a.engine.ActiveHaveTrips) (hrunning : a.process = .running) :
    a.applyDefault.engine.ActiveHaveTrips ∧ a.applyDefault.seesZone = a.defaultUsable := by
  obtain ⟨htrips, hactive⟩ := a.install_passive_default_active h
  refine ⟨htrips, ?_⟩
  have hprocess : a.applyDefault.process = .running :=
    a.install_passive_default_process.1.trans hrunning
  simp only [seesZone, hprocess, reduceCtorEq, decide_false, Bool.false_or]
  exact hactive

/-- A start installs the default table: there are no conditions, or they do not give a target. -/
def startInstallsDefault (a : AdaptiveEngine δ) (s : Start) : Bool :=
  a.passiveDefOnly ||
    if a.needsFallback s then
      if 0 ≤ a.gddv.findAgressiveTarget then s.second = -1 else a.gddv.findDefPsvt.isSome
    else s.second = -1

omit [StdFloat] in
/-- A start keeps an active zone exactly if the default table is usable where it is needed. -/
theorem start_active (s : Start) (h : a.engine.ActiveHaveTrips) (hzone : a.seesZone = true)
    (hrunning : a.process = .running) :
    (a.thdEngineStart s).2.engine.ActiveHaveTrips ∧
      ((a.thdEngineStart s).2.seesZone = true ↔
        (a.startInstallsDefault s = true → a.defaultUsable = true)) := by
  obtain ⟨htrips, hsees⟩ := a.apply_default_active h hrunning
  cases hdef : a.passiveDefOnly with
  | true =>
      have heq : (a.thdEngineStart s).2 = a.applyDefault := by simp [thdEngineStart, hdef]
      rw [heq, hsees]
      exact ⟨htrips, by simp [startInstallsDefault, hdef]⟩
  | false =>
      obtain ⟨hneeds, hfound, heq⟩ | ⟨hneeds, hfound, htable, heq⟩ | ⟨hneeds, hfound, htable, heq⟩ |
        ⟨hneeds, heq⟩ := start_cases s hdef
      · rw [heq]
        dsimp only
        split
        · rename_i hsecond
          obtain ⟨htrips', hsees'⟩ := apply_default_active
            { a with fallbackId := a.gddv.findAgressiveTarget } h hrunning
          refine ⟨htrips', ?_⟩
          rw [hsees']
          simp only [startInstallsDefault, hdef, hneeds, hfound, hsecond, if_true, decide_true,
            Bool.false_or, true_implies]
          rfl
        · rename_i hsecond
          refine ⟨h, iff_of_true hzone ?_⟩
          simp [startInstallsDefault, hdef, hneeds, hfound, hsecond]
      · have hup := a.apply_default_spec
        have hinstalls : a.startInstallsDefault s = true := by
          simp [startInstallsDefault, hdef, hneeds, not_le.mpr hfound, htable]
        rw [heq]
        dsimp only
        split
        · obtain ⟨htrips', hsees'⟩ := a.applyDefault.apply_default_active htrips
            (hup.2.1.trans hrunning)
          rw [hsees', hup.1.default_usable_eq]
          exact ⟨htrips', by simp [hinstalls]⟩
        · rw [hsees]
          exact ⟨htrips, by simp [hinstalls]⟩
      · rw [heq]
        refine ⟨h, iff_of_true hzone ?_⟩
        simp [startInstallsDefault, hdef, hneeds, not_le.mpr hfound, htable]
      · rw [heq]
        dsimp only
        split
        · rename_i hsecond
          rw [hsees]
          exact ⟨htrips, by simp [startInstallsDefault, hdef, hneeds, hsecond]⟩
        · rename_i hsecond
          refine ⟨h, iff_of_true hzone ?_⟩
          simp [startInstallsDefault, hdef, hneeds, hsecond]

omit [StdSort] [StdFloat] [AdaptiveCdev δ] in
theorem Guarded.sees_zone {a : AdaptiveEngine δ} (h : a.Guarded) : a.seesZone = true := by
  obtain hexit | ⟨z, hz, hactive, -⟩ := h
  · simp [seesZone, hexit]
  · simp [seesZone, Engine.any_active_iff.mpr ⟨z, hz, hactive⟩]

/-- A run that begins with an active zone, where active zones have trips, has an active zone with a
trip in every state or has exited, exactly if the default table is usable whenever the start or an
update falls back to it. -/
theorem guarded_iff (a : AdaptiveEngine δ) (s : Start) (results : List Int)
    (hrunning : a.process = .running) (hbegin : ∃ z ∈ a.engine.zones, z.zoneActive = true)
    (htrips : ∀ z ∈ a.engine.zones, z.zoneActive = true → z.tripPoints ≠ []) :
    (∀ past, past <+: results → (run updateEngineState (a.thdEngineStart s).2 past).Guarded) ↔
      (a.startInstallsDefault s = true → a.defaultUsable = true) ∧
        Meets updateEngineState (fun a result => a.fallsBack result = true → a.defaultUsable = true)
          (a.thdEngineStart s).2 results := by
  have hzone : a.seesZone = true := by
    simp [seesZone, Engine.any_active_iff.mpr hbegin]
  obtain ⟨hstart, hstartzone⟩ := a.start_active s htrips hzone hrunning
  generalize (a.thdEngineStart s).2 = start at *
  rw [← hstartzone]
  have hmeets (hinit : start.seesZone = true) := @meets_iff_prefixes _ _ updateEngineState
    (fun a result => a.fallsBack result = true → a.defaultUsable = true) start results
    (fun _ a => a.engine.ActiveHaveTrips ∧ a.seesZone = true) ⟨hstart, hinit⟩
    fun past result _ hpast => by
      obtain ⟨htrips', hiff⟩ := update_active _ result hpast.1 hpast.2
      rw [← hiff]
      exact ⟨fun h => h.2, fun h => ⟨htrips', h⟩⟩
  constructor
  · intro hall
    have hinit := (hall [] List.nil_prefix).sees_zone
    refine ⟨hinit, (hmeets hinit).mp fun past hpast => ⟨?_, (hall past hpast).sees_zone⟩⟩
    -- every state before an update has been guarded, so active zones keep having trips
    induction past using List.reverseRecOn with
    | nil => exact hstart
    | append_singleton before result ih =>
        have hbefore : before <+: results := (List.prefix_append ..).trans hpast
        rw [run_append]
        exact (update_active _ result (ih hbefore) (hall before hbefore).sees_zone).1
  · intro hok past hpast
    obtain ⟨htrips', hsees⟩ := (hmeets hok.1).mpr hok.2 past hpast
    exact (guarded_iff_sees_zone htrips').mpr hsees

end Targets

/-- The processor with a trip, which makes its zone active. -/
def activeEngine : Engine GenSysfs :=
  letI := StdSort.insertion
  sampleEngine.installPassive sampleRow

/-- The same vault with a default table for a zone that is not there. -/
def strangeVault : Gddv :=
  { sampleVault with psvts := [⟨ascii "IETM.D0", [{ sampleRow with target := ascii "TSKN" }]⟩] }

/-- The lid is opened and closed, and the default table is for a zone that is there. -/
theorem usable_default_guarded :
    letI := StdSort.insertion
    letI := wholeFloat
    (run updateEngineState ((init activeEngine sampleVault [] false false).thdEngineStart
      ⟨true, true, -1, -1⟩).2 [5, -1]).Guarded := by
  let _ := StdSort.insertion
  let _ := wholeFloat
  refine (guarded_iff (init activeEngine sampleVault [] false false) ⟨true, true, -1, -1⟩ [5, -1]
    rfl (by decide +kernel) (by decide +kernel)).mpr ⟨fun _ => by decide +kernel, ?_⟩ [5, -1]
      (List.prefix_refl _)
  exact ⟨fun _ => by decide +kernel, fun _ => by decide +kernel, trivial⟩

/-- The lid is open: its target installs no table, and after the default table no trip is left. -/
theorem strange_default_unguarded :
    letI := StdSort.insertion
    letI := wholeFloat
    (∃ z ∈ activeEngine.zones, z.zoneActive = true ∧ z.tripPoints ≠ []) ∧
      ¬ (run updateEngineState ((init activeEngine strangeVault [] false false).thdEngineStart
        ⟨true, true, 5, 5⟩).2 [5]).Guarded := by
  refine ⟨by decide +kernel, ?_⟩
  intro h
  have hzone := h.sees_zone
  revert hzone
  decide +kernel

end AdaptiveEngine

end Thermald
