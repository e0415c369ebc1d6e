import Mathlib.Tactic.FinCases
import Thermald.Lib.Run
import Thermald.Cooling.Limits

/-!
# Devices shared by trips with target states

Several trips hold one device, each with a valid target of its own. `TargetLimits` is the shape
of the limits: one entry for each trip, with its target, the most constraining one last. Every
call keeps it (`TargetLimits.set_state`).

`tracks_iff_releases_last` is the main result. A device tracks its users when its limits are
those of the trips whose latest call was an activation and its state is the most constraining of
their targets. A run of calls keeps a device tracking its users exactly when each release by a
trip with a limit finds that limit last.
-/

namespace Thermald

/-- An activation that passes a valid target, and no range limits, for its trip. -/
structure SetStateArgs.PassesTarget (target : Int × Int → Int) (a : SetStateArgs) : Prop where
  valid : a.targetStateValid = true
  value : a.targetValue = target a.user
  noRange : a.minMaxValid = false

namespace Cdev

variable {δ : Type} {d : Cdev δ} {a : SetStateArgs} {target : Int × Int → Int}

/-- The limits of a device whose users all pass a valid target of their own. -/
structure TargetLimits (target : Int × Int → Int) (d : Cdev δ) : Prop where
  valid : ∀ l ∈ d.zoneTripLimits, l.targetStateValid = true ∧ l.targetValue = target l.user
  nodup : (d.zoneTripLimits.map ZoneTripLimit.user).Nodup
  sorted : d.zoneTripLimits.Pairwise fun l l' => d.level l.targetValue ≤ d.level l'.targetValue

/-- A trip holds the device when its entry is in the list. -/
theorem holds_iff {user : Int × Int} :
    d.holds user = true ↔ user ∈ d.zoneTripLimits.map ZoneTripLimit.user := by
  simp [holds]

section Adding

variable [StdSort]

/-- A new entry with a target is sorted in by how constraining it is. -/
theorem add_limit_eq (hvalid : a.targetStateValid = true) (hrange : a.minMaxValid = false) :
    ∃ lt : ZoneTripLimit → ZoneTripLimit → Bool,
      (∀ l l', lt l l' = decide (d.level l.targetValue < d.level l'.targetValue)) ∧
      d.addLimit a = StdSort.sort lt (d.zoneTripLimits ++ [d.newLimit a]) := by
  unfold addLimit Device.level
  by_cases h : d.minState < d.maxState
  · refine ⟨sortClampValuesAsc, fun l l' => ?_, ?_⟩ <;> simp [sortClampValuesAsc, h, hvalid, hrange]
  · refine ⟨sortClampValuesDec, fun l l' => ?_, ?_⟩ <;> simp [sortClampValuesDec, h, hvalid, hrange]

/-- The entries after adding one, in some order. -/
theorem add_limit_perm : (d.addLimit a).Perm (d.zoneTripLimits ++ [d.newLimit a]) := by
  unfold addLimit
  simp only
  split_ifs
  · exact (StdSort.perm _ _).trans (StdSort.perm _ _)
  · exact (StdSort.perm _ _).trans (StdSort.perm _ _)
  · exact StdSort.perm _ _
  · exact (StdSort.perm _ _).trans (StdSort.perm _ _)
  · exact (StdSort.perm _ _).trans (StdSort.perm _ _)
  · exact StdSort.perm _ _
  · exact StdSort.perm _ _
  · exact StdSort.perm _ _
  · exact .refl _

/-- The entry of a trip without one keeps the trips different. -/
theorem add_limit_nodup (h : (d.zoneTripLimits.map ZoneTripLimit.user).Nodup)
    (hnew : d.holds a.user = false) : ((d.addLimit a).map ZoneTripLimit.user).Nodup := by
  refine ((add_limit_perm.map _).nodup_iff).mpr ?_
  rw [List.map_append, List.map_singleton, List.nodup_append]
  refine ⟨h, List.nodup_singleton _, fun user hmem other hother heq => ?_⟩
  have hsame : user = a.user := heq.trans (List.mem_singleton.mp hother)
  subst hsame
  exact Bool.false_ne_true (hnew.symm.trans (holds_iff.mpr hmem))

/-- The entries after adding one are sorted. -/
theorem add_limit_sorted (hvalid : a.targetStateValid = true) (hrange : a.minMaxValid = false) :
    (d.addLimit a).Pairwise fun l l' => d.level l.targetValue ≤ d.level l'.targetValue := by
  obtain ⟨lt, hlt, heq⟩ := d.add_limit_eq hvalid hrange
  rw [heq]
  refine (StdSort.sorted lt _ ⟨fun l => d.level l.targetValue, hlt⟩).imp ?_
  intro l l' h
  simpa [hlt] using h

/-- Adding the entry of an absent trip keeps the shape of the limits. -/
theorem TargetLimits.add_limit (h : d.TargetLimits target) (ha : a.PassesTarget target)
    (hnew : d.holds a.user = false) :
    { d with zoneTripLimits := d.addLimit a }.TargetLimits target := by
  refine ⟨fun l hl => ?_, add_limit_nodup h.nodup hnew, d.add_limit_sorted ha.valid ha.noRange⟩
  rcases List.mem_append.mp (add_limit_perm.mem_iff.mp hl) with hl | hl
  · exact h.valid l hl
  · rw [List.mem_singleton.mp hl]
    exact ⟨ha.valid, ha.value⟩

end Adding

/-- Keeping a front part of the limits keeps their shape. -/
theorem TargetLimits.of_prefix (h : d.TargetLimits target) {limits : List ZoneTripLimit}
    (hpre : limits <+: d.zoneTripLimits) :
    { d with zoneTripLimits := limits }.TargetLimits target :=
  ⟨fun l hl => h.valid l (hpre.subset hl), h.nodup.sublist (hpre.sublist.map _),
    h.sorted.sublist hpre.sublist⟩

/-- The shape depends on the limits and the orientation only. -/
theorem TargetLimits.congr {d' : Cdev δ} (h : d.TargetLimits target)
    (hlimits : d'.zoneTripLimits = d.zoneTripLimits) (hconfig : SameConfig d d') :
    d'.TargetLimits target := by
  refine ⟨?_, ?_, ?_⟩
  · rw [hlimits]
    exact h.valid
  · rw [hlimits]
    exact h.nodup
  · rw [hlimits]
    exact h.sorted.imp fun hle => by rwa [hconfig.level, hconfig.level]

/-- The last entry of sorted ones is the most constraining one. -/
theorem level_le_last_of_sorted {limits : List ZoneTripLimit}
    (h : limits.Pairwise fun l l' => d.level l.targetValue ≤ d.level l'.targetValue)
    {l last : ZoneTripLimit} (hl : l ∈ limits) (hlast : limits.getLast? = some last) :
    d.level l.targetValue ≤ d.level last.targetValue := by
  obtain ⟨front, hfront⟩ := List.getLast?_eq_some_iff.mp hlast
  rw [hfront] at hl h
  rcases List.mem_append.mp hl with hl | hl
  · exact (List.pairwise_append.mp h).2.2 l hl last (by simp)
  · rw [List.mem_singleton.mp hl]

/-- The last entry is the most constraining one. -/
theorem TargetLimits.level_le_last (h : d.TargetLimits target) {l last : ZoneTripLimit}
    (hl : l ∈ d.zoneTripLimits) (hlast : d.zoneTripLimits.getLast? = some last) :
    d.level l.targetValue ≤ d.level last.targetValue :=
  level_le_last_of_sorted h.sorted hl hlast

/-! ## One call -/

variable [CdevClass δ] [StdSort] {pid : Pid} {tm : Int}

/-- Every call keeps the shape of the limits. -/
theorem TargetLimits.set_state (h : d.TargetLimits target)
    (ha : a.state = true → a.PassesTarget target) :
    (d.thdCdevSetState a pid tm).2.1.TargetLimits target := by
  have hconfig : ∀ limits, SameConfig { d with zoneTripLimits := limits }
      (d.thdCdevSetState a pid tm).2.1 := fun limits =>
    SameConfig.trans (d.limits_config limits) set_state_config
  have hlimits : (d.thdCdevSetState a pid tm).2.1.zoneTripLimits = _ := set_state_limits
  cases hstate : a.state
  · simp only [hstate, Bool.false_eq_true, if_false] at hlimits
    exact (h.of_prefix withdraw_front).congr hlimits (hconfig _)
  · simp only [hstate, if_true] at hlimits
    split at hlimits
    · exact h.congr hlimits set_state_config
    · rename_i hnew
      exact (h.add_limit (ha hstate) (by simpa using hnew)).congr hlimits (hconfig _)

/-- The limits have the shape above and the state is the target of the last one, or the minimum
without limits. -/
structure Settled (target : Int × Int → Int) (d : Cdev δ) : Prop extends
    d.TargetLimits target where
  idle : d.zoneTripLimits = [] → d.getCurrState = d.minState
  applied : ∀ last, d.zoneTripLimits.getLast? = some last → d.getCurrState = last.targetValue

variable [CdevClass.Settable δ] [CdevClass.PlainTarget δ]

/-- An activation leaves the device at the target of its most constraining limit. -/
theorem Settled.activate (h : d.Settled target) (hne : d.minState ≠ d.maxState)
    (htarget : ∀ user, d.InRange (target user)) (hstate : a.state = true)
    (ha : a.PassesTarget target) (hspaced : d.debounceInterval < tm - d.lastActionTime) :
    (d.thdCdevSetState a pid tm).2.1.Settled target := by
  have hshape : (d.thdCdevSetState a pid tm).2.1.TargetLimits target :=
    h.toTargetLimits.set_state fun _ => ha
  have hlimits : (d.thdCdevSetState a pid tm).2.1.zoneTripLimits = d.limitsWith a :=
    set_state_limits_with hstate
  obtain ⟨last, hlast⟩ := exists_last (limits_with_ne_nil (d := d) (a := a))
  have hmem : last ∈ d.limitsWith a := List.mem_of_getLast? hlast
  have hvalid := hshape.valid last (hlimits ▸ hmem)
  refine ⟨hshape, fun hnil => absurd (hlimits ▸ hnil) limits_with_ne_nil, ?_⟩
  intro last' hlast'
  rw [hlimits, hlast, Option.some.injEq] at hlast'
  subst hlast'
  rcases set_state_activate_cases pid tm hne hstate hlast hvalid.1 with
    ⟨heq, ⟨hlist, hle⟩ | ⟨-, hrecent⟩⟩ | ⟨heq, -⟩
  · -- the device is constrained enough: its old last entry is in the new list
    obtain ⟨old, hold⟩ := exists_last hlist
    have hcurr := h.applied old hold
    have hin : old ∈ (d.thdCdevSetState a pid tm).2.1.zoneTripLimits := by
      rw [hlimits]
      exact mem_limits_with.mpr (.inl (List.mem_of_getLast? hold))
    have hge := hshape.level_le_last hin (hlimits ▸ hlast)
    rw [set_state_config.level, set_state_config.level, ← hcurr] at hge
    rw [heq]
    exact Device.level_inj.mp (le_antisymm hge hle)
  · exact absurd hrecent (not_le.mpr hspaced)
  · rw [heq]
    refine control_target ?_
    rw [hvalid.2]
    exact htarget last.user

omit [CdevClass.PlainTarget δ] in
/-- A release leaves the device at the target of the limit that is last afterwards. -/
theorem Settled.release (h : d.Settled target) (hne : d.minState ≠ d.maxState)
    (htarget : ∀ user, d.InRange (target user)) (hstate : a.state = false)
    (hvalid : a.targetStateValid = true) : (d.thdCdevSetState a pid tm).2.1.Settled target := by
  have hshape : (d.thdCdevSetState a pid tm).2.1.TargetLimits target :=
    h.toTargetLimits.set_state fun hon => by simp [hstate] at hon
  rcases List.eq_nil_or_concat d.zoneTripLimits with hnil | ⟨front, last, hlist⟩
  · have hmin : d.inMinState = true := (in_min_state_iff hne).mpr (h.idle hnil ▸ le_refl _)
    rwa [set_state_release_of_min pid tm hstate hnil hmin]
  · rw [List.concat_eq_append] at hlist
    have hlast : d.zoneTripLimits.getLast? = some last := by simp [hlist]
    by_cases huser : last.user = a.user
    · have hlimits : (d.thdCdevSetState a pid tm).2.1.zoneTripLimits = front := by
        rw [set_state_limits, hstate, hlist, ← huser]
        exact withdraw_concat_self last
      rcases List.eq_nil_or_concat front with hfront | ⟨front', next, hfront⟩
      · have hsingle : d.zoneTripLimits = [last] := by simp [hlist, hfront]
        have htarget' := (h.valid last (by simp [hlist])).1
        have heq := set_state_release_single pid tm hstate hvalid hsingle huser
          (.inl htarget')
        refine ⟨hshape, fun _ => ?_, fun next hnext => by simp [hlimits, hfront] at hnext⟩
        rw [set_state_config.minState, heq]
        exact control_target d.in_range_min
      · rw [List.concat_eq_append] at hfront
        have hnext : d.zoneTripLimits.dropLast.getLast? = some next := by simp [hlist, hfront]
        have htarget' := h.valid next (by simp [hlist, hfront])
        have heq := set_state_release_next pid tm hstate hlast huser hnext
        refine ⟨hshape, fun hnil => by simp [hlimits, hfront] at hnil, fun next' hnext' => ?_⟩
        obtain rfl : next = next' := by simpa [hlimits, hfront] using hnext'
        rw [heq, htarget'.1]
        refine control_target ?_
        rw [htarget'.2]
        exact htarget next.user
    · rwa [set_state_release_of_ne pid tm hstate hlast huser]

end Cdev

/-! ## Runs of calls -/

/-- One call, with the controller of the trip and the time at which it is made. -/
structure Call where
  args : SetStateArgs
  pid : Pid
  tm : Int

/-- The latest call of the trip is an activation. -/
def active (calls : List Call) (user : Int × Int) : Bool :=
  (calls.filter fun c => c.args.user = user).getLast?.any fun c => c.args.state

@[simp] theorem active_nil (user : Int × Int) : active [] user = false := rfl

/-- A call decides for its own trip. -/
@[simp] theorem active_concat (calls : List Call) (c : Call) (user : Int × Int) :
    active (calls ++ [c]) user =
      if c.args.user = user then c.args.state else active calls user := by
  unfold active
  by_cases h : c.args.user = user <;> simp [h]

namespace Cdev

variable {δ : Type} [CdevClass δ] [StdSort] {target : Int × Int → Int} {d : Cdev δ}
  {calls : List Call} {c : Call}

/-- The device after a call. -/
def call (d : Cdev δ) (c : Call) : Cdev δ :=
  (d.thdCdevSetState c.args c.pid c.tm).2.1

/-- The limits are those of the trips whose latest call was an activation, one each, and the
state is the most constraining of their targets, or the minimum if there is none. -/
structure Tracks (target : Int × Int → Int) (calls : List Call) (d : Cdev δ) : Prop where
  limits : ∀ user, (d.zoneTripLimits.map ZoneTripLimit.user).count user =
    if active calls user then 1 else 0
  idle : (∀ user, active calls user = false) → d.getCurrState = d.minState
  most : ∀ user, active calls user = true → d.level (target user) ≤ d.level d.getCurrState
  attained : (∃ user, active calls user = true) →
    ∃ user, active calls user = true ∧ d.getCurrState = target user

/-- A release by a trip that has a limit finds it last. -/
def ReleasesLast (d : Cdev δ) (c : Call) : Prop :=
  c.args.state = false → d.holds c.args.user = true →
    d.zoneTripLimits.getLast?.map ZoneTripLimit.user = some c.args.user

omit [StdSort] in
/-- A settled device tracks its users once the trips with limits are the active ones. -/
theorem Settled.tracks_iff (h : d.Settled target) :
    d.Tracks target calls ↔
      ∀ user, user ∈ d.zoneTripLimits.map ZoneTripLimit.user ↔ active calls user = true := by
  constructor
  · intro htracks user
    rw [← List.count_pos_iff, htracks.limits]
    cases active calls user <;> simp
  · intro hmem
    refine ⟨fun user => ?_, fun hidle => ?_, fun user huser => ?_, fun ⟨user, huser⟩ => ?_⟩
    · rw [h.nodup.count]
      simp [hmem]
    · refine h.idle (List.eq_nil_iff_forall_not_mem.mpr fun l hl => ?_)
      have hactive := (hmem l.user).mp (List.mem_map_of_mem hl)
      simp [hidle] at hactive
    · obtain ⟨l, hl, rfl⟩ := List.mem_map.mp ((hmem user).mpr huser)
      obtain ⟨last, hlast⟩ := exists_last (List.ne_nil_of_mem hl)
      rw [h.applied last hlast, ← (h.valid l hl).2]
      exact h.level_le_last hl hlast
    · obtain ⟨l, hl, -⟩ := List.mem_map.mp ((hmem user).mpr huser)
      obtain ⟨last, hlast⟩ := exists_last (List.ne_nil_of_mem hl)
      have hin := List.mem_of_getLast? hlast
      refine ⟨last.user, (hmem _).mp (List.mem_map_of_mem hin), ?_⟩
      rw [h.applied last hlast, (h.valid last hin).2]

/-- After an activation the trips with limits are the old ones and the caller. -/
theorem mem_users_activate (hstate : c.args.state = true) (user : Int × Int) :
    user ∈ (d.call c).zoneTripLimits.map ZoneTripLimit.user ↔
      user ∈ d.zoneTripLimits.map ZoneTripLimit.user ∨ user = c.args.user := by
  rw [call, set_state_limits, if_pos hstate]
  split
  · rename_i hholds
    rw [holds_iff] at hholds
    constructor
    · exact .inl
    · rintro (hmem | rfl)
      · exact hmem
      · exact hholds
  · rw [(add_limit_perm.map _).mem_iff]
    simp only [List.map_append, List.map_singleton, List.mem_append, List.mem_singleton]
    rfl

/-- After a release that finds its limit last the trips with limits are the others. -/
theorem mem_users_release (h : d.TargetLimits target) (hstate : c.args.state = false)
    (hlast : d.zoneTripLimits.getLast?.map ZoneTripLimit.user = some c.args.user)
    (user : Int × Int) :
    user ∈ (d.call c).zoneTripLimits.map ZoneTripLimit.user ↔
      user ∈ d.zoneTripLimits.map ZoneTripLimit.user ∧ user ≠ c.args.user := by
  obtain ⟨last, hget, huser⟩ := Option.map_eq_some_iff.mp hlast
  obtain ⟨front, hfront⟩ := List.getLast?_eq_some_iff.mp hget
  have hnodup := h.nodup
  rw [hfront, List.map_append, List.map_singleton, List.nodup_append] at hnodup
  rw [call, set_state_limits, hstate, hfront, ← huser]
  simp only [Bool.false_eq_true, if_false, withdraw_concat_self, List.map_append,
    List.map_singleton, List.mem_append, List.mem_singleton]
  constructor
  · intro hmem
    exact ⟨.inl hmem, hnodup.2.2 user hmem last.user (by simp)⟩
  · intro h
    exact h.1.resolve_right h.2

/-- A call keeps the trips with limits equal to the active ones exactly when it is not a release
that finds its limit covered by another one. -/
theorem mem_users_iff_releases_last (h : d.TargetLimits target)
    (hmem : ∀ user, user ∈ d.zoneTripLimits.map ZoneTripLimit.user ↔ active calls user = true) :
    (∀ user, user ∈ (d.call c).zoneTripLimits.map ZoneTripLimit.user ↔
      active (calls ++ [c]) user = true) ↔ d.ReleasesLast c := by
  cases hstate : c.args.state with
  | true =>
      refine iff_of_true (fun user => ?_) (by simp [ReleasesLast, hstate])
      rw [mem_users_activate hstate, hmem, active_concat, hstate]
      rcases eq_or_ne user c.args.user with rfl | hu
      · simp
      · simp [hu, hu.symm]
  | false =>
      by_cases hholds : d.holds c.args.user = true
      · constructor
        · intro hafter _ _
          by_contra hlast
          have hsame : (d.call c).zoneTripLimits = d.zoneTripLimits := by
            rw [call, set_state_limits, hstate]
            simp [withdraw, hlast]
          have := (hafter c.args.user).mp (hsame ▸ holds_iff.mp hholds)
          simp [hstate] at this
        · intro hlast user
          rw [mem_users_release h hstate (hlast hstate hholds), hmem, active_concat, hstate]
          rcases eq_or_ne user c.args.user with rfl | hu
          · simp
          · simp [hu, hu.symm]
      · refine iff_of_true (fun user => ?_) (fun _ hh => absurd hh hholds)
        have hnot : c.args.user ∉ d.zoneTripLimits.map ZoneTripLimit.user :=
          fun hin => hholds (holds_iff.mpr hin)
        have hsame : (d.call c).zoneTripLimits = d.zoneTripLimits := by
          rw [call, set_state_limits, hstate]
          simp only [Bool.false_eq_true, if_false, withdraw]
          rw [if_neg]
          intro hlast
          obtain ⟨last, hget, huser⟩ := Option.map_eq_some_iff.mp hlast
          exact hnot (huser ▸ List.mem_map_of_mem (List.mem_of_getLast? hget))
        rw [hsame, hmem, active_concat, hstate]
        by_cases hu : c.args.user = user
        · rw [if_pos hu, ← hmem, ← hu]
          simpa using hnot
        · rw [if_neg hu]

/-- The calls are further apart than the debounce interval, from each other and from the last
action. -/
def Spaced (d : Cdev δ) (calls : List Call) : Prop :=
  (∀ c ∈ calls, d.debounceInterval < c.tm - d.lastActionTime) ∧
    calls.Pairwise fun c c' => d.debounceInterval < c'.tm - c.tm

variable [CdevClass.Settable δ] [CdevClass.PlainTarget δ]

/-- A device at rest is settled after every sequence of spaced calls. -/
theorem settled_run (hne : d.minState ≠ d.maxState) (hnil : d.zoneTripLimits = [])
    (hmin : d.getCurrState = d.minState) (htarget : ∀ user, d.InRange (target user))
    (hcalls : ∀ c ∈ calls, c.args.PassesTarget target) (hspaced : d.Spaced calls) :
    (run call d calls).Settled target ∧ SameConfig d (run call d calls) ∧
      ((run call d calls).lastActionTime = d.lastActionTime ∨
        ∃ c ∈ calls, (run call d calls).lastActionTime = c.tm) := by
  refine run_history (I := fun (past : List Call) (d' : Cdev δ) => d'.Settled target ∧
    SameConfig d d' ∧ (d'.lastActionTime = d.lastActionTime ∨
      ∃ c ∈ past, d'.lastActionTime = c.tm)) ?_ ?_
  · refine ⟨⟨⟨?_, ?_, ?_⟩, fun _ => hmin, ?_⟩, .refl d, .inl rfl⟩ <;> simp [hnil]
  · intro past d' c hpre hpost
    obtain ⟨hsettled, hconfig, htime⟩ := hpost
    have hmem : c ∈ calls := hpre.subset (by simp)
    have hapart : d'.debounceInterval < c.tm - d'.lastActionTime := by
      rw [hconfig.debounceInterval]
      rcases htime with htime | ⟨c', hc', htime⟩
      · rw [htime]
        exact hspaced.1 c hmem
      · rw [htime]
        have hpair := hspaced.2.sublist hpre.sublist
        exact (List.pairwise_append.mp hpair).2.2 c' hc' c (by simp)
    have hne' : d'.minState ≠ d'.maxState := by
      rw [hconfig.minState, hconfig.maxState]
      exact hne
    have htarget' : ∀ user, d'.InRange (target user) :=
      fun user => hconfig.in_range.mpr (htarget user)
    refine ⟨?_, hconfig.trans set_state_config, ?_⟩
    · cases hstate : c.args.state
      · exact hsettled.release hne' htarget' hstate (hcalls c hmem).valid
      · exact hsettled.activate hne' htarget' hstate (hcalls c hmem) hapart
    · rcases set_state_last_action_time (d := d') (a := c.args) c.pid c.tm with h | h
      · rcases htime with htime | ⟨c', hc', htime⟩
        · exact .inl (h.trans htime)
        · exact .inr ⟨c', by simp [hc'], h.trans htime⟩
      · exact .inr ⟨c, by simp, h⟩

/-- A device that starts at rest tracks its users after every call of a run exactly when every
release in the run by a trip with a limit finds that limit last. -/
theorem tracks_iff_releases_last (d : Cdev δ) (target : Int × Int → Int) (calls : List Call)
    (hne : d.minState ≠ d.maxState) (hnil : d.zoneTripLimits = [])
    (hmin : d.getCurrState = d.minState) (htarget : ∀ user, d.InRange (target user))
    (hcalls : ∀ c ∈ calls, c.args.PassesTarget target) (hspaced : d.Spaced calls) :
    (∀ pre, pre <+: calls → (run call d pre).Tracks target pre) ↔
      Meets call ReleasesLast d calls := by
  have hsettled : ∀ pre, pre <+: calls → (run call d pre).Settled target := fun pre hpre =>
    (settled_run hne hnil hmin htarget (fun c hc => hcalls c (hpre.subset hc))
      ⟨fun c hc => hspaced.1 c (hpre.subset hc), hspaced.2.sublist hpre.sublist⟩).1
  refine meets_iff_prefixes ?_ ?_
  · exact (hsettled [] List.nil_prefix).tracks_iff.mpr (by simp [hnil])
  · intro past c hpre htracks
    have hpast := hsettled past ((List.prefix_append ..).trans hpre)
    have hnext : ((run call d past).call c).Settled target := by
      simpa using hsettled (past ++ [c]) hpre
    rw [hnext.tracks_iff]
    exact mem_users_iff_releases_last hpast.toTargetLimits (hpast.tracks_iff.mp htracks)

end Cdev

/-! ## A covered release

Two zones hold a device with states 0 to 10, the first with target 5 and the second with
target 3. -/

namespace Cdev

/-- A call at the given time that passes a target. -/
def targetCall (tm : Int) (state : Bool) (user : Int × Int) (target : Int) : Call where
  args :=
    { targetTemp := 0, temperature := 0, hardTarget := false, state, zoneId := user.1,
      tripId := user.2, targetStateValid := true, targetValue := target, pidParam := none,
      force := false, minMaxValid := false, minState := 0, maxState := 0 }
  pid := .init
  tm := tm

/-- A device at rest with states 0 to 10. -/
def tenStates : Cdev GenSysfs :=
  { init 0 ⟨"", []⟩ with maxState := 10 }

/-- The targets of the two zones. -/
def twoTargets (user : Int × Int) : Int :=
  if user = (1, 0) then 5 else 3

/-- Both zones activate the device and then release it, the less constraining one first. -/
def coveredRelease : List Call :=
  [targetCall 10 true (1, 0) 5, targetCall 20 true (2, 0) 3,
    targetCall 30 false (2, 0) 3, targetCall 40 false (1, 0) 5]

/-- Both zones activate the device and release it, the more constraining one first. -/
def orderedRelease : List Call :=
  [targetCall 10 true (1, 0) 5, targetCall 20 true (2, 0) 3,
    targetCall 30 false (1, 0) 5, targetCall 40 false (2, 0) 3]

theorem two_targets_in_range (user : Int × Int) : tenStates.InRange (twoTargets user) := by
  unfold twoTargets
  split <;> decide

/-- The first release is ignored, so the second one leaves the device at the target of a zone
that has released it. -/
theorem covered_release_not_tracked :
    letI := StdSort.insertion
    tenStates.minState ≠ tenStates.maxState ∧ tenStates.zoneTripLimits = [] ∧
      tenStates.getCurrState = tenStates.minState ∧
      (∀ user, tenStates.InRange (twoTargets user)) ∧
      (∀ c ∈ coveredRelease, c.args.PassesTarget twoTargets) ∧
      tenStates.Spaced coveredRelease ∧
      (∀ user, active coveredRelease user = false) ∧
      (run call tenStates coveredRelease).getCurrState = 3 ∧
      ((run call tenStates coveredRelease).zoneTripLimits.map ZoneTripLimit.user) = [(2, 0)] ∧
      ¬ (run call tenStates coveredRelease).Tracks twoTargets coveredRelease := by
  have hactive : ∀ user, active coveredRelease user = false := by
    intro user
    rw [show coveredRelease = [targetCall 10 true (1, 0) 5] ++ [targetCall 20 true (2, 0) 3] ++
      [targetCall 30 false (2, 0) 3] ++ [targetCall 40 false (1, 0) 5] from rfl]
    simp only [active_concat]
    by_cases h₁ : (1, 0) = user <;> by_cases h₂ : (2, 0) = user <;>
      simp [targetCall, SetStateArgs.user, h₁, h₂, active]
  refine ⟨by decide, rfl, rfl, two_targets_in_range, ?_, by unfold Spaced; decide, hactive,
    by decide, by decide, ?_⟩
  · intro c hc
    fin_cases hc <;> exact ⟨rfl, rfl, rfl⟩
  · intro htracks
    have hstate := htracks.idle hactive
    revert hstate
    decide

/-- Releasing in the opposite order is tracked. -/
theorem ordered_release_tracked :
    letI := StdSort.insertion
    Meets call ReleasesLast tenStates orderedRelease ∧
      (run call tenStates orderedRelease).Tracks twoTargets orderedRelease := by
  let _ := StdSort.insertion
  have hmeets : Meets call ReleasesLast tenStates orderedRelease := by
    simp only [Meets, ReleasesLast, orderedRelease]
    decide
  refine ⟨hmeets, ?_⟩
  refine (tracks_iff_releases_last tenStates twoTargets orderedRelease (by decide) rfl rfl
    two_targets_in_range ?_ (by unfold Spaced; decide)).mpr hmeets _ (List.prefix_refl _)
  intro c hc
  fin_cases hc <;> exact ⟨rfl, rfl, rfl⟩

end Cdev

end Thermald
