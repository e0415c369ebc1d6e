import Thermald.Cooling.Polls
import Thermald.Cooling.Reset

/-!
# Who owns the limits of the devices

The limits of a device name the trips that hold it. They are added while zones are polled, but the
requests that switch off, delete or reload zones never touch the devices. `Engine.Owned` is the
invariant that one would expect, every limit names an active zone and a trip of it that binds the
device, and `owned_run` proves it for the runs in which each such request finds no limit of the
zones it takes away.
-/

namespace Thermald

/-- The trips of the zone carry its index, as their constructor is told. -/
def Zone.Numbered (z : Zone) : Prop :=
  ∀ t ∈ z.tripPoints, t.zoneId = z.index

/-- The operations of a run. Reloading finds arbitrary zones. -/
inductive Operation where
  | poll (p : Poll)
  | addZone (c : DynamicZone)
  | setZoneStatus (name : String) (status : Bool)
  | deleteZone (name : String)
  | reloadZones (zones : List Zone) (currentZoneIndex : Int)

/-- Modifying one place keeps the other elements. -/
theorem mem_modify_cases {α : Type} {f : α → α} {a : α} {l : List α} {i : Nat}
    (h : a ∈ l.modify i f) : a ∈ l ∨ ∃ b ∈ l, a = f b := by
  induction l generalizing i with
  | nil => simp at h
  | cons b rest ih =>
      cases i with
      | zero =>
          rcases List.mem_cons.mp (List.modify_zero_cons f b rest ▸ h) with rfl | h
          · exact .inr ⟨b, List.mem_cons_self, rfl⟩
          · exact .inl (List.mem_cons_of_mem _ h)
      | succ i =>
          rcases List.mem_cons.mp (List.modify_succ_cons f b rest i ▸ h) with rfl | h
          · exact .inl List.mem_cons_self
          · rcases ih h with h | ⟨c, hc, rfl⟩
            · exact .inl (List.mem_cons_of_mem _ h)
            · exact .inr ⟨c, List.mem_cons_of_mem _ hc, rfl⟩

/-- The first element with a property is the one that is found and the one that is modified. -/
theorem modify_find {α : Type} {f : α → α} {p : α → Bool} {l : List α} {i : Nat}
    (h : l.findIdx? p = some i) :
    ∃ l₁ a l₂, l = l₁ ++ a :: l₂ ∧ l.find? p = some a ∧ l.modify i f = l₁ ++ f a :: l₂ := by
  induction l generalizing i with
  | nil => simp at h
  | cons b rest ih =>
      rw [List.findIdx?_cons] at h
      split at h
      · rename_i hb
        obtain rfl : 0 = i := by simpa using h
        exact ⟨[], b, rest, rfl, List.find?_cons_of_pos hb, rfl⟩
      · rename_i hb
        obtain ⟨j, hj, rfl⟩ := Option.map_eq_some_iff.mp h
        obtain ⟨l₁, a, l₂, rfl, hfind, hmodify⟩ := ih hj
        refine ⟨b :: l₁, a, l₂, rfl, ?_, ?_⟩
        · rw [List.find?_cons_of_neg hb, hfind]
        · rw [List.modify_succ_cons, hmodify]
          rfl

namespace Engine

variable {δ : Type} [CdevClass δ] [StdSort] {e : Engine δ} {k : Nat}

/-- The state after an operation. -/
def step (e : Engine δ) : Operation → Engine δ
  | .poll p => e.poll p
  | .addZone c => (e.userAddZone c).2
  | .setZoneStatus name status => (e.userSetZoneStatus name status).2
  | .deleteZone name => (e.userDeleteZone name).2
  | .reloadZones zones currentZoneIndex => e.thdEngineReloadZones zones currentZoneIndex

/-- There is an active zone with this index that has a trip with this index which binds device
`k`. -/
def Owns (zones : List Zone) (k : Nat) (user : Int × Int) : Prop :=
  ∃ z ∈ zones, z.index = user.1 ∧ z.zoneActive = true ∧
    ∃ t ∈ z.tripPoints, t.index = user.2 ∧ t.Binds k

instance (zones : List Zone) (k : Nat) (user : Int × Int) : Decidable (Owns zones k user) :=
  inferInstanceAs (Decidable (∃ z ∈ zones, _))

/-- Every limit of every device names an active zone and a trip of it that binds the device. -/
def Owned (e : Engine δ) : Prop :=
  ∀ k, ∀ l ∈ (e.world.cdevs k).zoneTripLimits, Owns e.zones k l.user

/-- No device holds a limit of a zone with this index. -/
def Unlimited (e : Engine δ) (zone : Int) : Prop :=
  ∀ k, ∀ l ∈ (e.world.cdevs k).zoneTripLimits, l.zone ≠ zone

/-- An operation that takes zones away finds no limit of them. -/
def LeavesNoLimit (e : Engine δ) : Operation → Prop
  | .poll _ => True
  | .addZone _ => True
  | .setZoneStatus name status => status = false →
      ∀ z, e.zones.find? (fun z => z.typeStr = name) = some z → e.Unlimited z.index
  | .deleteZone name =>
      ∀ z, e.zones.find? (fun z => z.typeStr = name) = some z → e.Unlimited z.index
  | .reloadZones _ _ => ∀ k, (e.world.cdevs k).zoneTripLimits = []

/-! ## Polls -/

omit [CdevClass δ] [StdSort] in
/-- Zones that are kept own the same limits. -/
theorem Owns.of_same {zones zones' : List Zone} {user : Int × Int}
    (h : Owns zones k user) (hsame : List.Forall₂ Zone.Same zones zones') : Owns zones' k user := by
  obtain ⟨z, hz, hindex, hactive, t, ht, htrip, b, hb, hk⟩ := h
  obtain ⟨z', hz', hzz'⟩ := forall₂_mem_left hsame hz
  obtain ⟨t', ht', htt'⟩ := forall₂_mem_left hzz'.tripPoints ht
  obtain ⟨b', hb', hbb'⟩ := forall₂_mem_left htt'.cdevs hb
  exact ⟨z', hz', hzz'.index.trans hindex, hzz'.zoneActive.trans hactive, t', ht',
    htt'.index.trans htrip, b', hb', hbb'.cdev.trans hk⟩

/-- A poll only adds limits of the zones it notifies. -/
theorem Owned.poll (h : e.Owned) (hnum : ∀ z ∈ e.zones, z.Numbered) (p : Poll) :
    (e.poll p).Owned := by
  intro k
  obtain ⟨hsame, ops, hops, hacts⟩ := e.poll_notifies p k
  have hlimits : ∀ l ∈ ((e.poll p).world.cdevs k).zoneTripLimits, Owns e.zones k l.user := by
    refine hacts.steps.invariant (I := fun d => ∀ l ∈ d.zoneTripLimits, Owns e.zones k l.user)
      ?_ (h k)
    intro op hop d d' hact hd l hl
    rcases hact.limit_cases hl with hl | ⟨t, b, temp, rfl, huser⟩
    · exact hd l hl
    · obtain ⟨z, hz, t₀, ht₀, t', htt', hof⟩ := hops _ hop
      obtain ⟨rfl, -, hactive, -, hcdev, b₀, hb₀, hbb₀⟩ := hof
      obtain ⟨b₁, hb₁, hbb₁⟩ := forall₂_mem_right htt'.cdevs hb₀
      have hindex : t.zoneId = z.index := htt'.zoneId.trans (hnum z hz t₀ ht₀)
      rw [huser]
      refine ⟨z, hz, hindex.symm, hactive, t₀, ht₀, htt'.index.symm, b₁, hb₁, ?_⟩
      rw [← hbb₁.cdev, ← hbb₀.cdev, hcdev]
  exact fun l hl => (hlimits l hl).of_same hsame

omit [CdevClass δ] [StdSort] in
theorem numbered_of_same {zones zones' : List Zone} (h : ∀ z ∈ zones, z.Numbered)
    (hsame : List.Forall₂ Zone.Same zones zones') : ∀ z ∈ zones', z.Numbered := by
  intro z' hz' t' ht'
  obtain ⟨z, hz, hzz'⟩ := forall₂_mem_right hsame hz'
  obtain ⟨t, ht, htt'⟩ := forall₂_mem_right hzz'.tripPoints ht'
  rw [htt'.zoneId, hzz'.index]
  exact h z hz t ht

/-! ## Adding a zone -/

omit [CdevClass δ] in
/-- Sorting the trips and adding polling trips keeps the zone numbered. -/
theorem numbered_sort_and_update {z : Zone} (h : z.Numbered) (w : World δ) :
    (z.sortAndUpdatePollTrip w).1.Numbered := by
  have hadd : ∀ (temp : Nat) (sensors : List Sensor) (trips : List TripPoint),
      (∀ t ∈ trips, t.zoneId = z.index) →
        ∀ t ∈ z.addPollTrips temp sensors trips, t.zoneId = z.index := by
    intro temp sensors
    induction sensors with
    | nil => exact fun trips htrips => htrips
    | cons s rest ih =>
        intro trips htrips
        refine ih _ fun t ht => ?_
        rcases List.mem_append.mp ht with ht | ht
        · exact htrips t ht
        · rw [List.mem_singleton.mp ht]
          rfl
  unfold Zone.sortAndUpdatePollTrip
  simp only
  split
  · exact fun t ht => absurd ht (by simp)
  · rename_i t rest hsort
    refine hadd _ _ _ fun t' ht' => ?_
    rw [← hsort, StdSort.mem_sort] at ht'
    exact h t' (List.mem_of_mem_eraseP ht')

omit [CdevClass δ] in
/-- So does setting the temperature of a trip. -/
theorem numbered_update_highest {z : Zone} (h : z.Numbered) (trip : TripPoint) (w : World δ) :
    (z.updateHighestTripTemp trip w).1.Numbered := by
  unfold Zone.updateHighestTripTemp
  split
  · exact h
  · refine numbered_sort_and_update ?_ w
    intro t ht
    simp only at ht
    split at ht
    · rcases mem_modify_cases (List.mem_reverse.mp ht) with ht | ⟨t', ht', rfl⟩
      · exact h t (List.mem_reverse.mp ht)
      · exact h t' (List.mem_reverse.mp ht')
    · exact h t ht

omit [CdevClass δ] in
/-- Finishing the update of a zone keeps it numbered and leaves the devices alone. -/
theorem finish_update {z : Zone} (h : z.Numbered) (usrPsvTemp : Int) (w : World δ) :
    (z.finishUpdate usrPsvTemp w).1.Numbered ∧ (z.finishUpdate usrPsvTemp w).2.cdevs = w.cdevs := by
  have hsort : ∀ (z : Zone) (w : World δ), (z.sortAndUpdatePollTrip w).2.cdevs = w.cdevs := by
    intro z w
    unfold Zone.sortAndUpdatePollTrip
    simp only
    split <;> rfl
  unfold Zone.finishUpdate
  simp only
  split
  · refine ⟨numbered_sort_and_update (numbered_update_highest h _ w) _, ?_⟩
    rw [hsort]
    unfold Zone.updateHighestTripTemp
    split
    · rfl
    · exact hsort _ w
  · exact ⟨numbered_sort_and_update h w, hsort z w⟩

omit [CdevClass δ] in
/-- A zone added by the user is numbered. -/
theorem numbered_dynamic_zone {index : Int} {c : DynamicZone} {w w' : World δ} {z : Zone}
    (h : dynamicZone index c w = some (z, w')) : z.Numbered ∧ w'.cdevs = w.cdevs := by
  simp only [dynamicZone, Option.bind_eq_bind, Option.bind_eq_some_iff, Option.pure_def,
    Option.some.injEq] at h
  obtain ⟨s, -, t, ht, hz⟩ := h
  have hzone : t.zoneId = index := by
    simp only [dynamicTrip, Option.bind_eq_bind, Option.bind_eq_some_iff, Option.pure_def,
      Option.some.injEq] at ht
    obtain ⟨s', -, k, -, rfl⟩ := ht
    rfl
  have hinit : (Zone.init index c.name .independent).bindSensor s =
      { Zone.init index c.name .independent with sensors := [s] } := by
    simp [Zone.bindSensor, Zone.init]
  rw [hinit] at hz
  rw [← show _ = z from congrArg Prod.fst hz, ← show _ = w' from congrArg Prod.snd hz]
  refine finish_update (fun t' ht' => ?_) c.usrPsvTemp w
  rw [List.mem_singleton.mp ht']
  exact hzone

omit [CdevClass δ] in
/-- Adding a zone keeps the others and the devices. -/
theorem Owned.user_add_zone (h : e.Owned) (hnum : ∀ z ∈ e.zones, z.Numbered) (c : DynamicZone) :
    (e.userAddZone c).2.Owned ∧ ∀ z ∈ (e.userAddZone c).2.zones, z.Numbered := by
  unfold userAddZone
  split
  · exact ⟨h, hnum⟩
  · rename_i z world hzone
    obtain ⟨hz, hcdevs⟩ := numbered_dynamic_zone hzone
    constructor
    · intro k l hl
      rw [hcdevs] at hl
      obtain ⟨z', hz', hrest⟩ := h k l hl
      exact ⟨z', List.mem_append_left _ hz', hrest⟩
    · intro z' hz'
      rcases List.mem_append.mp hz' with hz' | hz'
      · exact hnum z' hz'
      · rw [List.mem_singleton.mp hz']
        exact hz

/-! ## Taking zones away -/

omit [CdevClass δ] [StdSort] in
/-- Switching a zone keeps the limits owned if it stays active or has none. -/
theorem Owned.user_set_zone_status (h : e.Owned) (hnum : ∀ z ∈ e.zones, z.Numbered) {name : String}
    {status : Bool} (hleaves : e.LeavesNoLimit (.setZoneStatus name status)) :
    (e.userSetZoneStatus name status).2.Owned ∧
      ∀ z ∈ (e.userSetZoneStatus name status).2.zones, z.Numbered := by
  unfold userSetZoneStatus findZone
  split
  · exact ⟨h, hnum⟩
  · rename_i i hi
    obtain ⟨l₁, a, l₂, hzones, hfind, hmodify⟩ :=
      modify_find (f := fun z => z.setZoneActive status) hi
    constructor
    · intro k l hl
      obtain ⟨z, hz, hindex, hactive, hrest⟩ := h k l hl
      simp only [hmodify]
      rw [hzones] at hz
      rcases List.mem_append.mp hz with hz | hz
      · exact ⟨z, List.mem_append_left _ hz, hindex, hactive, hrest⟩
      · rcases List.mem_cons.mp hz with rfl | hz
        · -- the limit names the zone that is switched
          cases status with
          | true => exact ⟨z.setZoneActive true, by simp, hindex, rfl, hrest⟩
          | false => exact absurd hindex.symm (hleaves rfl z hfind k l hl)
        · exact ⟨z, by simp [hz], hindex, hactive, hrest⟩
    · intro z hz
      rcases mem_modify_cases hz with hz | ⟨z', hz', rfl⟩
      · exact hnum z hz
      · exact hnum z' hz'

omit [CdevClass δ] [StdSort] in
/-- Deleting a zone keeps the limits owned if it has none. -/
theorem Owned.user_delete_zone (h : e.Owned) {name : String}
    (hleaves : e.LeavesNoLimit (.deleteZone name)) : (e.userDeleteZone name).2.Owned := by
  intro k l hl
  obtain ⟨z, hz, hindex, hrest⟩ := h k l hl
  refine ⟨z, ?_, hindex, hrest⟩
  by_cases hname : z.typeStr = name
  · obtain ⟨a, l₁, l₂, hfirst, ha, hzones, herase⟩ :=
      List.exists_of_eraseP (p := fun z : Zone => decide (z.typeStr = name)) hz
        (by simpa using hname)
    show z ∈ e.zones.eraseP _
    rw [herase]
    rw [hzones] at hz
    rcases List.mem_append.mp hz with hz | hz
    · exact List.mem_append_left _ hz
    · rcases List.mem_cons.mp hz with rfl | hz
      · have hfind : e.zones.find? (fun z => z.typeStr = name) = some z := by
          rw [hzones, List.find?_append, List.find?_eq_none.mpr (by simpa using hfirst),
            Option.none_or,
            List.find?_cons_of_pos (p := fun z : Zone => decide (z.typeStr = name)) ha]
        exact absurd hindex.symm (hleaves z hfind k l hl)
      · exact List.mem_append_right _ hz
  · exact (List.mem_eraseP_of_neg (by simpa using hname)).mpr hz

/-! ## Runs -/

/-- What reloading finds is numbered. -/
def Operation.Numbered : Operation → Prop
  | .reloadZones zones _ => ∀ z ∈ zones, z.Numbered
  | _ => True

/-- One operation that leaves no limit behind keeps the limits owned. -/
theorem Owned.step (h : e.Owned) (hnum : ∀ z ∈ e.zones, z.Numbered) (op : Operation)
    (hop : Operation.Numbered op) (hleaves : e.LeavesNoLimit op) :
    (e.step op).Owned ∧ ∀ z ∈ (e.step op).zones, z.Numbered := by
  cases op with
  | poll p => exact ⟨h.poll hnum p, numbered_of_same hnum (e.poll_same p)⟩
  | addZone c => exact h.user_add_zone hnum c
  | setZoneStatus name status => exact h.user_set_zone_status hnum hleaves
  | deleteZone name =>
      exact ⟨h.user_delete_zone hleaves, fun z hz => hnum z (List.mem_of_mem_eraseP hz)⟩
  | reloadZones zones currentZoneIndex =>
      refine ⟨fun k l hl => ?_, hop⟩
      change l ∈ (e.world.cdevs k).zoneTripLimits at hl
      simp [hleaves k] at hl

/-- In a run in which every operation that takes zones away finds no limit of them, every limit
names an active zone and a trip of it that binds the device, after every operation. -/
theorem owned_run (e : Engine δ) (ops : List Operation) (howned : e.Owned)
    (hnum : ∀ z ∈ e.zones, z.Numbered) (hops : ∀ op ∈ ops, Operation.Numbered op)
    (hleaves : Meets step LeavesNoLimit e ops) :
    ∀ pre, pre <+: ops → (run step e pre).Owned := by
  intro pre hpre
  have hrun : (run step e pre).Owned ∧ ∀ z ∈ (run step e pre).zones, z.Numbered := by
    refine run_invariant (I := fun e' : Engine δ => e'.Owned ∧ ∀ z ∈ e'.zones, z.Numbered)
      ⟨howned, hnum⟩ ?_ (hleaves.of_prefix hpre)
    intro e' op hop hinv hfree
    obtain ⟨howned', hnum'⟩ := hinv
    exact howned'.step hnum' op (hops op (hpre.subset hop)) hfree
  exact hrun.1

end Engine

/-! ## Limits that are left behind

One zone holds the device of `tenStates` at 3. -/

namespace Engine

/-- The zone is hot. -/
def hotZone : List Operation :=
  [.poll (pollAt 10 fun _ => 60000)]

/-- The zone has been hot and is cold again. -/
def cooledZone : List Operation :=
  [.poll (pollAt 10 fun _ => 60000), .poll (pollAt 20 fun _ => 40000)]

/-- An engine with one zone. -/
def oneZone : Engine GenSysfs :=
  atRest [sensorZone 0 "cpu" [targetTrip 0 0 .passive 3]]

/-- A hot zone that is switched off, deleted or reloaded leaves its limit on the device, which
stays throttled. -/
theorem limit_left_behind :
    letI := StdSort.insertion
    oneZone.Owned ∧ (∀ z ∈ oneZone.zones, z.Numbered) ∧
      ¬ (run step oneZone (hotZone ++ [.setZoneStatus "cpu" false])).Owned ∧
      ¬ (run step oneZone (hotZone ++ [.deleteZone "cpu"])).Owned ∧
      ¬ (run step oneZone (hotZone ++ [.reloadZones [] 0])).Owned ∧
      ((run step oneZone (hotZone ++ [.deleteZone "cpu"])).world.cdevs 0).getCurrState = 3 := by
  refine ⟨fun k l hl => ?_, ?_, fun h => absurd (h 0) (by decide),
    fun h => absurd (h 0) (by decide), fun h => absurd (h 0) (by decide), by decide⟩
  · exact absurd hl (by simp [oneZone, atRest, Cdev.tenStates, Cdev.init])
  · simp [oneZone, atRest, Zone.Numbered, sensorZone, targetTrip, TripPoint.init, Zone.init]

/-- A zone that has cooled down can be deleted. -/
theorem cooled_zone_deleted :
    letI := StdSort.insertion
    (run step oneZone (cooledZone ++ [.deleteZone "cpu"])).Owned := by
  let _ := StdSort.insertion
  refine owned_run oneZone _ ?_ ?_ ?_ ?_ _ (List.prefix_refl _)
  · exact fun k l hl => absurd hl (by simp [oneZone, atRest, Cdev.tenStates, Cdev.init])
  · simp [oneZone, atRest, Zone.Numbered, sensorZone, targetTrip, TripPoint.init, Zone.init]
  · simp [cooledZone, Operation.Numbered]
  · refine ⟨trivial, trivial, fun z _ k => ?_, trivial⟩
    cases k with
    | zero =>
        have hnil : ((run step oneZone cooledZone).world.cdevs 0).zoneTripLimits = [] := by decide
        exact fun l hl => absurd (hnil ▸ hl) List.not_mem_nil
    | succ k => exact fun l hl => absurd hl List.not_mem_nil

end Engine

end Thermald
