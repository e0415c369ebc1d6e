import Mathlib.Order.MinMax
import Thermald.Cooling.TargetUsers

/-!
# Rounds of visits to a device

In every poll the trips of a device visit it in the same order: a hot trip activates it unless it
is in its maximum state, a cold trip releases it unless it is in its minimum state. With targets
that are all above the minimum, `Held` is what remains true of the device whatever the trips do.

Once the hot and the cold trips stay the same, `rounds_converge` shows that the device ends at the
largest target of a hot trip. A release that is ignored is repeated in the next round, so each
round removes at least one limit of a cold trip, or adds one of a hot trip, until a hot trip has
the largest target of the list (`Led`); one more round brings the largest hot target into the list
(`Topped`), and the next one applies it.
-/

namespace Thermald

/-- Fewer elements of a list have a property that implies another one, if some element has only
the other one. -/
theorem count_lt {α : Type} {p q : α → Bool} {l : List α} (himp : ∀ a ∈ l, p a = true → q a = true)
    {a : α} (ha : a ∈ l) (hp : p a = false) (hq : q a = true) : l.countP p < l.countP q := by
  induction l with
  | nil => simp at ha
  | cons b rest ih =>
      have hrest : ∀ c ∈ rest, p c = true → q c = true :=
        fun c hc => himp c (List.mem_cons_of_mem _ hc)
      have hle : rest.countP p ≤ rest.countP q := List.countP_mono_left hrest
      rw [List.countP_cons, List.countP_cons]
      rcases List.mem_cons.mp ha with rfl | ha
      · rw [hp, hq, if_neg (by simp), if_pos rfl]
        omega
      · have hlt := ih hrest ha
        have hb := himp b List.mem_cons_self
        cases hpb : p b with
        | false =>
            rw [if_neg (by simp)]
            omega
        | true =>
            rw [if_pos rfl, if_pos (hb hpb)]
            omega

/-- A trip that visits the device in every round. -/
structure Visit where
  user : Int × Int
  hot : Bool

namespace Cdev

variable {δ : Type} {d d' : Cdev δ} {target : Int × Int → Int}

/-- How constraining a state is where the states count upwards. -/
theorem level_up (hup : d.minState < d.maxState) (s : Int) : d.level s = s := by
  simp [Device.level, hup]

variable [CdevClass δ] [StdSort]

/-- The effect of a visit, at some time of the clock. -/
def VisitAct (target : Int × Int → Int) (clock : Nat → Int) (v : Visit) (d d' : Cdev δ) : Prop :=
  if v.hot then
    (d.inMaxState = true ∧ d' = d) ∨ (d.inMaxState = false ∧ ∃ a pid n, a.state = true ∧
      a.user = v.user ∧ a.PassesTarget target ∧ d' = (d.thdCdevSetState a pid (clock n)).2.1)
  else
    (d.inMinState = true ∧ d' = d) ∨ (d.inMinState = false ∧ ∃ a pid n, a.state = false ∧
      a.user = v.user ∧ a.targetStateValid = true ∧
      d' = (d.thdCdevSetState a pid (clock n)).2.1)

/-- A device whose users pass targets above its minimum: without limits it is at rest, and with
limits it is above its minimum and not beyond its last limit. -/
structure Held (target : Int × Int → Int) (d : Cdev δ) : Prop extends d.TargetLimits target where
  up : d.minState < d.maxState
  above : ∀ l ∈ d.zoneTripLimits, d.minState < l.targetValue ∧ l.targetValue ≤ d.maxState
  idle : d.zoneTripLimits = [] → d.getCurrState = d.minState ∧ d.lastState = false
  busy : ∀ last, d.zoneTripLimits.getLast? = some last →
    d.minState < d.getCurrState ∧ d.getCurrState ≤ last.targetValue

omit [StdSort] in
/-- A held device with a limit is above its minimum. -/
theorem Held.min_lt (h : d.Held target) (hne : d.zoneTripLimits ≠ []) :
    d.minState < d.getCurrState := by
  obtain ⟨last, hlast⟩ := exists_last hne
  exact (h.busy last hlast).1

omit [StdSort] in
/-- A held device is in its minimum state exactly when it has no limit. -/
theorem Held.in_min_state (h : d.Held target) : d.inMinState = true ↔ d.zoneTripLimits = [] := by
  rw [in_min_state_iff h.up.ne, level_up h.up, level_up h.up]
  constructor
  · intro hle
    by_contra hne
    exact absurd (h.min_lt hne) (not_lt.mpr hle)
  · exact fun hnil => le_of_eq (h.idle hnil).1

omit [CdevClass δ] [StdSort] in
/-- No limit exceeds the last one. -/
theorem Held.target_le_last [CdevClass δ] (h : d.Held target) {l last : ZoneTripLimit}
    (hl : l ∈ d.zoneTripLimits) (hlast : d.zoneTripLimits.getLast? = some last) :
    l.targetValue ≤ last.targetValue := by
  have hle := h.level_le_last hl hlast
  rwa [level_up h.up, level_up h.up] at hle

omit [StdSort] in
/-- A held device stays held with other limits, if the targets are in its range and the state fits
to the new list. -/
theorem Held.relimited (h : d.Held target) {d' : Cdev δ} {limits : List ZoneTripLimit}
    (hconfig : SameConfig d d') (hshape : d'.TargetLimits target)
    (hlimits : d'.zoneTripLimits = limits)
    (habove : ∀ l ∈ limits, d.minState < l.targetValue ∧ l.targetValue ≤ d.maxState)
    (hidle : limits = [] → d'.getCurrState = d.minState ∧ d'.lastState = false)
    (hbusy : ∀ last, limits.getLast? = some last →
      d.minState < d'.getCurrState ∧ d'.getCurrState ≤ last.targetValue) :
    d'.Held target := by
  subst hlimits
  refine ⟨hshape, ?_, ?_, ?_, ?_⟩
  · rw [hconfig.minState, hconfig.maxState]
    exact h.up
  · rw [hconfig.minState, hconfig.maxState]
    exact habove
  · rw [hconfig.minState]
    exact hidle
  · rw [hconfig.minState]
    exact hbusy

/-- The state or the time of the last action change together. -/
theorem set_state_stamp (a : SetStateArgs) (pid : Pid) (tm : Int) :
    ((d.thdCdevSetState a pid tm).2.1.lastState = d.lastState ∧
      (d.thdCdevSetState a pid tm).2.1.lastActionTime = d.lastActionTime) ∨
    ((d.thdCdevSetState a pid tm).2.1.lastState = a.state ∧
      (d.thdCdevSetState a pid tm).2.1.lastActionTime = tm) := by
  unfold thdCdevSetState
  split
  · exact .inl ⟨rfl, rfl⟩
  · simp only
    split
    · exact .inl ⟨rfl, rfl⟩
    · exact .inr ⟨(control_book _ _ _ _).lastState, (control_book _ _ _ _).lastActionTime⟩

variable [CdevClass.Settable δ] [CdevClass.PlainTarget δ]

/-- What an activation does to a held device: its trip is in the list afterwards, and the state is
the largest target, unless that is reached already or the last activation was too recent. -/
theorem Held.activate (h : d.Held target) {a : SetStateArgs} (pid : Pid) (tm : Int)
    (hstate : a.state = true) (ha : a.PassesTarget target)
    (habove : d.minState < target a.user ∧ target a.user ≤ d.maxState) :
    (d.thdCdevSetState a pid tm).2.1.Held target ∧
      (d.thdCdevSetState a pid tm).2.1.zoneTripLimits = d.limitsWith a ∧
      ((d.thdCdevSetState a pid tm).2.1.getCurrState = d.getCurrState ∧
          (d.thdCdevSetState a pid tm).2.1.lastState = d.lastState ∧
          (d.thdCdevSetState a pid tm).2.1.lastActionTime = d.lastActionTime ∧
          (∀ last, (d.limitsWith a).getLast? = some last →
            last.targetValue ≤ d.getCurrState ∨
              (d.lastState = true ∧ tm - d.lastActionTime ≤ d.debounceInterval)) ∨
        ∀ last, (d.limitsWith a).getLast? = some last →
          (d.thdCdevSetState a pid tm).2.1.getCurrState = last.targetValue) := by
  have hshape : (d.thdCdevSetState a pid tm).2.1.TargetLimits target :=
    h.toTargetLimits.set_state fun _ => ha
  have hconfig : SameConfig d (d.thdCdevSetState a pid tm).2.1 := set_state_config
  have hlimits : (d.thdCdevSetState a pid tm).2.1.zoneTripLimits = d.limitsWith a :=
    set_state_limits_with hstate
  obtain ⟨last, hlast⟩ := exists_last (limits_with_ne_nil (d := d) (a := a))
  have hmem : ∀ l ∈ d.limitsWith a,
      d.minState < l.targetValue ∧ l.targetValue ≤ d.maxState := by
    intro l hl
    obtain hl | ⟨-, rfl⟩ := mem_limits_with.mp hl
    · exact h.above l hl
    · show d.minState < a.targetValue ∧ a.targetValue ≤ d.maxState
      rwa [ha.value]
  have hvalid := hshape.valid last (hlimits ▸ List.mem_of_getLast? hlast)
  have habove' := hmem last (List.mem_of_getLast? hlast)
  have hnil : d.limitsWith a ≠ [] := limits_with_ne_nil
  rcases set_state_activate_cases pid tm h.up.ne hstate hlast hvalid.1 with
    ⟨heq, hwhy⟩ | ⟨heq, -⟩
  · have hcurr : (d.thdCdevSetState a pid tm).2.1.getCurrState = d.getCurrState := by
      rw [heq]
      rfl
    -- a device without limits has not just been activated
    have hlist : d.zoneTripLimits ≠ [] := by
      rcases hwhy with ⟨hlist, -⟩ | ⟨hrecent, -⟩
      · exact hlist
      · intro hempty
        simp [(h.idle hempty).2] at hrecent
    refine ⟨h.relimited hconfig hshape hlimits hmem (fun hempty => absurd hempty hnil) ?_, hlimits,
      .inl ⟨hcurr, ?_⟩⟩
    · intro last' hlast'
      obtain ⟨old, hold⟩ := exists_last hlist
      have hbusy := h.busy old hold
      have hin : old ∈ (d.thdCdevSetState a pid tm).2.1.zoneTripLimits := by
        rw [hlimits]
        exact mem_limits_with.mpr (.inl (List.mem_of_getLast? hold))
      have hle := hshape.level_le_last hin (hlimits ▸ hlast')
      have hup : (d.thdCdevSetState a pid tm).2.1.minState <
          (d.thdCdevSetState a pid tm).2.1.maxState := by
        rw [hconfig.minState, hconfig.maxState]
        exact h.up
      rw [level_up hup, level_up hup] at hle
      rw [hcurr]
      exact ⟨hbusy.1, hbusy.2.trans hle⟩
    · refine ⟨by rw [heq], by rw [heq], fun last' hlast' => ?_⟩
      rw [hlast, Option.some.injEq] at hlast'
      subst hlast'
      rw [level_up h.up, level_up h.up] at hwhy
      exact hwhy.imp And.right id
  · have hcurr : ∀ last', (d.limitsWith a).getLast? = some last' →
        (d.thdCdevSetState a pid tm).2.1.getCurrState = last'.targetValue := by
      intro last' hlast'
      rw [hlast, Option.some.injEq] at hlast'
      subst hlast'
      rw [heq]
      exact control_target (.inl ⟨habove'.1.le, habove'.2⟩)
    refine ⟨h.relimited hconfig hshape hlimits hmem (fun hempty => absurd hempty hnil) ?_, hlimits,
      .inr hcurr⟩
    intro last' hlast'
    rw [hcurr last' hlast']
    exact ⟨(hmem last' (List.mem_of_getLast? hlast')).1, le_refl _⟩

omit [CdevClass.PlainTarget δ] in
/-- What a release does to a held device: it withdraws its trip, and if that was the last limit
the state becomes the target of the limit before it, or the minimum. -/
theorem Held.release (h : d.Held target) {a : SetStateArgs} (pid : Pid) (tm : Int)
    (hstate : a.state = false) (hvalid : a.targetStateValid = true) :
    (d.thdCdevSetState a pid tm).2.1.Held target ∧
      ((d.thdCdevSetState a pid tm).2.1 = d ∧
          (∀ last, d.zoneTripLimits.getLast? = some last → last.user ≠ a.user) ∨
        ∃ front last, d.zoneTripLimits = front ++ [last] ∧ last.user = a.user ∧
          (d.thdCdevSetState a pid tm).2.1.zoneTripLimits = front ∧
          ∀ next, front.getLast? = some next →
            (d.thdCdevSetState a pid tm).2.1.getCurrState = next.targetValue) := by
  have hshape : (d.thdCdevSetState a pid tm).2.1.TargetLimits target :=
    h.toTargetLimits.set_state fun hon => by simp [hstate] at hon
  have hconfig : SameConfig d (d.thdCdevSetState a pid tm).2.1 := set_state_config
  rcases List.eq_nil_or_concat d.zoneTripLimits with hnil | ⟨front, last, hlist⟩
  · have heq := set_state_release_of_min pid tm hstate hnil (h.in_min_state.mpr hnil)
    rw [heq]
    exact ⟨h, .inl ⟨rfl, by simp [hnil]⟩⟩
  · rw [List.concat_eq_append] at hlist
    have hlast : d.zoneTripLimits.getLast? = some last := by simp [hlist]
    by_cases huser : last.user = a.user
    · have hlimits : (d.thdCdevSetState a pid tm).2.1.zoneTripLimits = front := by
        rw [set_state_limits, hstate, hlist, ← huser]
        exact withdraw_concat_self last
      have habove : ∀ l ∈ front, d.minState < l.targetValue ∧ l.targetValue ≤ d.maxState :=
        fun l hl => h.above l (by simp [hlist, hl])
      rcases List.eq_nil_or_concat front with hfront | ⟨front', next, hfront⟩
      · have hsingle : d.zoneTripLimits = [last] := by simp [hlist, hfront]
        have heq := set_state_release_single pid tm hstate hvalid hsingle huser
          (.inl (h.valid last (by simp [hlist])).1)
        refine ⟨h.relimited hconfig hshape hlimits habove (fun _ => ⟨?_, ?_⟩) ?_,
          .inr ⟨front, last, hlist, huser, hlimits, ?_⟩⟩
        · rw [heq]
          exact control_target d.in_range_min
        · rw [heq]
          exact (control_book _ _ _ _).lastState.trans hstate
        · intro last' hlast'
          simp [hfront] at hlast'
        · intro next hnext
          simp [hfront] at hnext
      · rw [List.concat_eq_append] at hfront
        have hnext : d.zoneTripLimits.dropLast.getLast? = some next := by simp [hlist, hfront]
        have hbound := habove next (by simp [hfront])
        have hcurr : ∀ next', front.getLast? = some next' →
            (d.thdCdevSetState a pid tm).2.1.getCurrState = next'.targetValue := by
          intro next' hnext'
          obtain rfl : next = next' := by simpa [hfront] using hnext'
          rw [set_state_release_next pid tm hstate hlast huser hnext,
            (h.valid next (by simp [hlist, hfront])).1]
          exact control_target (.inl ⟨hbound.1.le, hbound.2⟩)
        refine ⟨h.relimited hconfig hshape hlimits habove (fun hempty => ?_) ?_,
          .inr ⟨front, last, hlist, huser, hlimits, hcurr⟩⟩
        · simp [hfront] at hempty
        · intro last' hlast'
          rw [hcurr last' hlast']
          exact ⟨(habove last' (List.mem_of_getLast? hlast')).1, le_refl _⟩
    · rw [set_state_release_of_ne pid tm hstate hlast huser]
      refine ⟨h, .inl ⟨rfl, fun last' hlast' => ?_⟩⟩
      rw [hlast, Option.some.injEq] at hlast'
      exact hlast' ▸ huser

/-! ## One visit -/

/-- What a visit can do to a held device. -/
inductive VisitCases (target : Int × Int → Int) (clock : Nat → Int) (v : Visit) (d d' : Cdev δ) :
    Prop
  /-- Nothing, for one of the reasons given. -/
  | skip (heq : d' = d)
      (hwhy : (v.hot = true ∧ d.inMaxState = true) ∨
        (v.hot = false ∧ ∀ last, d.zoneTripLimits.getLast? = some last → last.user ≠ v.user))
  /-- A hot trip records its target, and the state is kept for one of two reasons. -/
  | record (hhot : v.hot = true) (hcurr : d'.getCurrState = d.getCurrState)
      (hstate : d'.lastState = d.lastState) (htime : d'.lastActionTime = d.lastActionTime)
      (hmem : ∀ l, l ∈ d.zoneTripLimits → l ∈ d'.zoneTripLimits)
      (husers : ∀ u, u ∈ d'.zoneTripLimits.map ZoneTripLimit.user ↔
        u ∈ d.zoneTripLimits.map ZoneTripLimit.user ∨ u = v.user)
      (hsame : d.holds v.user = true → d'.zoneTripLimits = d.zoneTripLimits)
      (hwhy : ∃ n, ∀ last, d'.zoneTripLimits.getLast? = some last →
        last.targetValue ≤ d.getCurrState ∨
          (d.lastState = true ∧ clock n - d.lastActionTime ≤ d.debounceInterval))
  /-- A hot trip records its target and the largest target is applied. -/
  | apply (hhot : v.hot = true)
      (hmem : ∀ l, l ∈ d.zoneTripLimits → l ∈ d'.zoneTripLimits)
      (husers : ∀ u, u ∈ d'.zoneTripLimits.map ZoneTripLimit.user ↔
        u ∈ d.zoneTripLimits.map ZoneTripLimit.user ∨ u = v.user)
      (hsame : d.holds v.user = true → d'.zoneTripLimits = d.zoneTripLimits)
      (hcurr : ∀ last, d'.zoneTripLimits.getLast? = some last →
        d'.getCurrState = last.targetValue)
  /-- A cold trip removes the last limit and the one before it is applied. -/
  | remove (last : ZoneTripLimit) (hcold : v.hot = false)
      (hlist : d.zoneTripLimits = d'.zoneTripLimits ++ [last]) (huser : last.user = v.user)
      (hcurr : ∀ next, d'.zoneTripLimits.getLast? = some next →
        d'.getCurrState = next.targetValue)

/-- A visit is one of these, and the device stays held. -/
theorem Held.visit (h : d.Held target) {clock : Nat → Int} {v : Visit}
    (habove : d.minState < target v.user ∧ target v.user ≤ d.maxState)
    (hact : VisitAct target clock v d d') : d'.Held target ∧ VisitCases target clock v d d' := by
  unfold VisitAct at hact
  split at hact
  · rename_i hhot
    rcases hact with ⟨hmax, rfl⟩ | ⟨-, a, pid, n, hstate, huser, ha, rfl⟩
    · exact ⟨h, .skip rfl (.inl ⟨hhot, hmax⟩)⟩
    · rw [← huser] at habove
      obtain ⟨hheld, hlimits, hcases⟩ := h.activate pid (clock n) hstate ha habove
      have hmem : ∀ l, l ∈ d.zoneTripLimits → l ∈ d.limitsWith a :=
        fun l hl => mem_limits_with.mpr (.inl hl)
      have husers : ∀ u, u ∈ (d.thdCdevSetState a pid (clock n)).2.1.zoneTripLimits.map
          ZoneTripLimit.user ↔ u ∈ d.zoneTripLimits.map ZoneTripLimit.user ∨ u = v.user := by
        intro u
        rw [← huser]
        exact mem_users_activate (c := ⟨a, pid, clock n⟩) hstate u
      have hsame : d.holds v.user = true → d.limitsWith a = d.zoneTripLimits := by
        intro hholds
        rw [limitsWith, huser, if_pos hholds]
      rw [← hlimits] at hmem hsame hcases
      rcases hcases with ⟨hcurr, hlast, htime, hwhy⟩ | hcurr
      · exact ⟨hheld, .record hhot hcurr hlast htime hmem husers hsame ⟨n, hwhy⟩⟩
      · exact ⟨hheld, .apply hhot hmem husers hsame hcurr⟩
  · rename_i hcold
    rw [Bool.not_eq_true] at hcold
    rcases hact with ⟨hmin, rfl⟩ | ⟨-, a, pid, n, hstate, huser, hvalid, rfl⟩
    · refine ⟨h, .skip rfl (.inr ⟨hcold, fun last hlast => ?_⟩)⟩
      rw [h.in_min_state.mp hmin] at hlast
      simp at hlast
    · obtain ⟨hheld, ⟨heq, hother⟩ | ⟨front, last, hlist, hlast, hfront, hcurr⟩⟩ :=
        h.release pid (clock n) hstate hvalid
      · exact ⟨hheld, .skip heq (.inr ⟨hcold, huser ▸ hother⟩)⟩
      · refine ⟨hheld, .remove last hcold ?_ (hlast.trans huser) ?_⟩
        · rw [hfront]
          exact hlist
        · rw [hfront]
          exact hcurr

end Cdev

/-! ## Rounds -/

/-- The trips that visit a device in every round, with their targets and the parameters of the
device. No trip visits twice in a round, and the targets lie above the minimum. -/
structure Rota where
  visits : List Visit
  target : Int × Int → Int
  lo : Int
  hi : Int
  debounce : Int
  nodup : (visits.map Visit.user).Nodup
  above : ∀ v ∈ visits, lo < target v.user ∧ target v.user ≤ hi

namespace Rota

/-- The trip is one of the hot ones. -/
def Hot (r : Rota) (user : Int × Int) : Prop :=
  ∃ v ∈ r.visits, v.user = user ∧ v.hot = true

/-- A visit is known by its trip. -/
theorem eq_of_user {r : Rota} {v v' : Visit} (hv : v ∈ r.visits) (hv' : v' ∈ r.visits)
    (h : v.user = v'.user) : v = v' :=
  List.inj_on_of_nodup_map r.nodup hv hv' h

/-- A trip that is cold is not hot. -/
theorem not_hot {r : Rota} {v : Visit} (hv : v ∈ r.visits) (hcold : v.hot = false) :
    ¬ r.Hot v.user := by
  intro h
  obtain ⟨v', hv', huser, hhot⟩ := h
  rw [r.eq_of_user hv' hv huser, hcold] at hhot
  exact Bool.false_ne_true hhot

variable {δ : Type} [CdevClass δ] {r : Rota} {d d' : Cdev δ} {v : Visit} {clock : Nat → Int}

/-- A device that the trips of the rota, and no others, hold. -/
structure Holds (r : Rota) (d : Cdev δ) : Prop extends d.Held r.target where
  known : ∀ l ∈ d.zoneTripLimits, ∃ v ∈ r.visits, v.user = l.user
  lo : d.minState = r.lo
  hi : d.maxState = r.hi
  debounce : d.debounceInterval = r.debounce

/-- A hot trip without a limit, or a cold trip with one. -/
def wrong (d : Cdev δ) (v : Visit) : Bool :=
  if v.hot then !d.holds v.user else d.holds v.user

/-- How many trips of the rota are in the wrong place. -/
def unsettled (r : Rota) (d : Cdev δ) : Nat :=
  r.visits.countP (wrong d)

omit [CdevClass δ] in
/-- The trips in the wrong place depend on the limits only. -/
theorem unsettled_congr {d₁ d₂ : Cdev δ} (h : d₁.zoneTripLimits = d₂.zoneTripLimits) :
    r.unsettled d₁ = r.unsettled d₂ := by
  unfold unsettled wrong Cdev.holds
  rw [h]

/-- Some hot trip has the largest target of the list. -/
def Led (r : Rota) (d : Cdev δ) : Prop :=
  ∀ last, d.zoneTripLimits.getLast? = some last →
    ∃ l ∈ d.zoneTripLimits, r.Hot l.user ∧ l.targetValue = last.targetValue

variable [StdSort] [CdevClass.Settable δ] [CdevClass.PlainTarget δ]

/-- A round of visits. -/
def Round (r : Rota) (clock : Nat → Int) (d d' : Cdev δ) : Prop :=
  Steps (Cdev.VisitAct r.target clock) r.visits d d'

/-- A visit by a trip of the rota, hot or cold, keeps the device held by these trips. -/
theorem Holds.visit_user (h : r.Holds d) (hknown : ∃ v' ∈ r.visits, v'.user = v.user)
    (hact : Cdev.VisitAct r.target clock v d d') :
    r.Holds d' ∧ Cdev.VisitCases r.target clock v d d' := by
  have habove : d.minState < r.target v.user ∧ r.target v.user ≤ d.maxState := by
    obtain ⟨v', hv', huser⟩ := hknown
    rw [h.lo, h.hi, ← huser]
    exact r.above v' hv'
  obtain ⟨hheld, hcases⟩ := h.toHeld.visit habove hact
  have hconfig : Cdev.SameConfig d d' := by
    unfold Cdev.VisitAct at hact
    split at hact
    · rcases hact with ⟨-, rfl⟩ | ⟨-, a, pid, n, -, -, -, rfl⟩
      · exact .refl _
      · exact Cdev.set_state_config
    · rcases hact with ⟨-, rfl⟩ | ⟨-, a, pid, n, -, -, -, rfl⟩
      · exact .refl _
      · exact Cdev.set_state_config
  refine ⟨⟨hheld, fun l hl => ?_, hconfig.minState.trans h.lo, hconfig.maxState.trans h.hi,
    hconfig.debounceInterval.trans h.debounce⟩, hcases⟩
  have hadd : (∀ u, u ∈ d'.zoneTripLimits.map ZoneTripLimit.user ↔
      u ∈ d.zoneTripLimits.map ZoneTripLimit.user ∨ u = v.user) →
      ∃ v ∈ r.visits, v.user = l.user := by
    intro husers
    rcases (husers l.user).mp (List.mem_map_of_mem hl) with hmem | huser
    · obtain ⟨l', hl', huser⟩ := List.mem_map.mp hmem
      exact huser ▸ h.known l' hl'
    · exact huser ▸ hknown
  cases hcases with
  | skip heq _ => exact h.known l (heq ▸ hl)
  | record _ _ _ _ _ husers _ _ => exact hadd husers
  | apply _ _ husers _ _ => exact hadd husers
  | remove last _ hlist _ _ => exact h.known l (by rw [hlist]; exact List.mem_append_left _ hl)

/-- A visit of the rota keeps the device held by its trips. -/
theorem Holds.visit (h : r.Holds d) (hv : v ∈ r.visits)
    (hact : Cdev.VisitAct r.target clock v d d') :
    r.Holds d' ∧ Cdev.VisitCases r.target clock v d d' :=
  h.visit_user ⟨v, hv, rfl⟩ hact

omit [CdevClass.PlainTarget δ] in
/-- So does a forced release. -/
theorem Holds.set_min_state (h : r.Holds d) (zoneId tripId tm : Int) :
    r.Holds (d.thdCdevSetMinState zoneId tripId tm) := by
  -- the trend of the device plays no part
  have h₀ : r.Holds { d with trendIncrease := false } :=
    ⟨⟨⟨h.valid, h.nodup, h.sorted⟩, h.up, h.above, h.idle, h.busy⟩, h.known, h.lo, h.hi,
      h.debounce⟩
  have hconfig : Cdev.SameConfig { d with trendIncrease := false }
      (d.thdCdevSetMinState zoneId tripId tm) := Cdev.set_state_config
  obtain ⟨hheld, hcases⟩ := h₀.toHeld.release
    (a := ({ d with trendIncrease := false } : Cdev δ).minStateArgs zoneId tripId) .init tm rfl rfl
  refine ⟨hheld, fun l hl => ?_, hconfig.minState.trans h.lo, hconfig.maxState.trans h.hi,
    hconfig.debounceInterval.trans h.debounce⟩
  rcases hcases with ⟨heq, -⟩ | ⟨front, last, hlist, -, hfront, -⟩
  · exact h₀.known l (heq ▸ hl)
  · refine h.known l ?_
    change d.zoneTripLimits = front ++ [last] at hlist
    rw [hlist]
    exact List.mem_append_left _ (hfront ▸ hl)

/-! ### Progress -/

/-- A visit that changes the limits puts its trip in the right place and no other one in a wrong
place. -/
theorem Holds.unsettled_visit (h : r.Holds d) (hv : v ∈ r.visits)
    (hact : Cdev.VisitAct r.target clock v d d') :
    d'.zoneTripLimits = d.zoneTripLimits ∨ r.unsettled d' < r.unsettled d := by
  obtain ⟨h', hcases⟩ := h.visit hv hact
  -- the trip of the visit is the only one whose place changes
  have hcount : wrong d' v = false → wrong d v = true →
      (∀ u, u ≠ v.user → d'.holds u = d.holds u) → r.unsettled d' < r.unsettled d := by
    intro hright hwrong hothers
    refine count_lt (fun v' hv' hw => ?_) hv hright hwrong
    by_cases huser : v'.user = v.user
    · rwa [r.eq_of_user hv' hv huser]
    · unfold wrong at hw ⊢
      rwa [hothers v'.user huser] at hw
  have hadd : v.hot = true → (∀ u, u ∈ d'.zoneTripLimits.map ZoneTripLimit.user ↔
      u ∈ d.zoneTripLimits.map ZoneTripLimit.user ∨ u = v.user) →
      (d.holds v.user = true → d'.zoneTripLimits = d.zoneTripLimits) →
      d'.zoneTripLimits = d.zoneTripLimits ∨ r.unsettled d' < r.unsettled d := by
    intro hhot husers hsame
    cases hholds : d.holds v.user with
    | true => exact .inl (hsame hholds)
    | false =>
        have hholds' : d'.holds v.user = true :=
          Cdev.holds_iff.mpr ((husers v.user).mpr (.inr rfl))
        refine .inr (hcount ?_ ?_ fun u hu => ?_)
        · simp [wrong, hhot, hholds']
        · simp [wrong, hhot, hholds]
        · rw [Bool.eq_iff_iff, Cdev.holds_iff, Cdev.holds_iff, husers]
          exact ⟨fun hor => hor.resolve_right hu, .inl⟩
  cases hcases with
  | skip heq _ => exact .inl (by rw [heq])
  | record hhot _ _ _ _ husers hsame _ => exact hadd hhot husers hsame
  | apply hhot _ husers hsame _ => exact hadd hhot husers hsame
  | remove last hcold hlist huser _ =>
      have hnodup := h.nodup
      rw [hlist, List.map_append, List.map_singleton, List.nodup_append] at hnodup
      have hgone : v.user ∉ d'.zoneTripLimits.map ZoneTripLimit.user := fun hmem =>
        hnodup.2.2 v.user hmem last.user (by simp) huser.symm
      have husers : ∀ u, u ∈ d.zoneTripLimits.map ZoneTripLimit.user ↔
          u ∈ d'.zoneTripLimits.map ZoneTripLimit.user ∨ u = v.user := by
        intro u
        rw [hlist, List.map_append, List.mem_append, List.map_singleton, List.mem_singleton, huser]
      refine .inr (hcount ?_ ?_ fun u hu => ?_)
      · simp only [wrong, hcold, Bool.false_eq_true, if_false]
        exact Bool.eq_false_iff.mpr fun hholds => hgone (Cdev.holds_iff.mp hholds)
      · simp only [wrong, hcold, Bool.false_eq_true, if_false]
        exact Cdev.holds_iff.mpr ((husers v.user).mpr (.inr rfl))
      · rw [Bool.eq_iff_iff, Cdev.holds_iff, Cdev.holds_iff, husers]
        exact ⟨.inl, fun hor => hor.resolve_right hu⟩

/-- Visits keep the device held, and either keep the limits or bring trips into the right place. -/
theorem Holds.steps (h : r.Holds d) {vs : List Visit} (hvs : ∀ v ∈ vs, v ∈ r.visits)
    (hsteps : Steps (Cdev.VisitAct r.target clock) vs d d') :
    r.Holds d' ∧ (d'.zoneTripLimits = d.zoneTripLimits ∨ r.unsettled d' < r.unsettled d) := by
  induction hsteps with
  | nil _ => exact ⟨h, .inl rfl⟩
  | cons hact _ ih =>
      have hv := hvs _ List.mem_cons_self
      obtain ⟨h₁, hrest⟩ := ih (h.visit hv hact).1 fun v hv => hvs v (List.mem_cons_of_mem _ hv)
      refine ⟨h₁, ?_⟩
      rcases h.unsettled_visit hv hact with heq | hlt
      · rcases hrest with heq' | hlt'
        · exact .inl (heq'.trans heq)
        · exact .inr (unsettled_congr heq ▸ hlt')
      · rcases hrest with heq' | hlt'
        · exact .inr (unsettled_congr heq' ▸ hlt)
        · exact .inr (hlt'.trans hlt)

/-- A round that brings no trip into the right place finds a hot trip last. -/
theorem Holds.round_progress (h : r.Holds d) (hround : r.Round clock d d') :
    r.Led d ∨ r.unsettled d' < r.unsettled d := by
  by_contra hnot
  obtain ⟨hled, hstuck⟩ := not_or.mp hnot
  obtain ⟨last, hlast⟩ : ∃ last, d.zoneTripLimits.getLast? = some last := by
    by_contra hnone
    exact hled fun last hlast => absurd ⟨last, hlast⟩ hnone
  have hmem := List.mem_of_getLast? hlast
  obtain ⟨v, hv, huser⟩ := h.known last hmem
  cases hhot : v.hot with
  | true =>
      refine hled fun last' hlast' => ?_
      rw [hlast, Option.some.injEq] at hlast'
      exact ⟨last, hmem, ⟨v, hv, huser, hhot⟩, by rw [hlast']⟩
  | false =>
      -- the round comes to the cold trip that is last
      obtain ⟨before, after, hsplit⟩ := List.append_of_mem hv
      have hin : ∀ v' ∈ before ++ v :: after, v' ∈ r.visits := fun v' hv' => hsplit ▸ hv'
      unfold Round at hround
      rw [hsplit, Steps.append_iff] at hround
      obtain ⟨d₁, hbefore, hrest⟩ := hround
      obtain ⟨d₂, hact, hafter⟩ := Steps.cons_iff.mp hrest
      obtain ⟨h₁, hfirst⟩ := h.steps (fun v' hv' => hin v' (by simp [hv'])) hbefore
      obtain ⟨h₂, hcases⟩ := h₁.visit hv hact
      obtain ⟨-, hsecond⟩ := h₂.steps (fun v' hv' => hin v' (by simp [hv'])) hafter
      have hle₁ : r.unsettled d₁ ≤ r.unsettled d :=
        hfirst.elim (fun heq => (unsettled_congr heq).le) le_of_lt
      have hle₂ : r.unsettled d' ≤ r.unsettled d₂ :=
        hsecond.elim (fun heq => (unsettled_congr heq).le) le_of_lt
      have hvisit := h₁.unsettled_visit hv hact
      have hkept : d₁.zoneTripLimits = d.zoneTripLimits := by
        refine hfirst.resolve_right fun hlt => hstuck ?_
        have hle : r.unsettled d₂ ≤ r.unsettled d₁ :=
          hvisit.elim (fun heq => (unsettled_congr heq).le) le_of_lt
        omega
      have hkept' : d₂.zoneTripLimits = d₁.zoneTripLimits :=
        hvisit.resolve_right fun hlt => hstuck (by omega)
      rw [← hkept] at hlast
      cases hcases with
      | skip _ hwhy =>
          rcases hwhy with ⟨hhot', -⟩ | ⟨-, hother⟩
          · exact Bool.false_ne_true (hhot.symm.trans hhot')
          · exact hother last hlast huser.symm
      | record hhot' _ _ _ _ _ _ _ => exact Bool.false_ne_true (hhot.symm.trans hhot')
      | apply hhot' _ _ _ _ => exact Bool.false_ne_true (hhot.symm.trans hhot')
      | remove last' _ hlist _ _ =>
          rw [hkept'] at hlist
          have hlen := congrArg List.length hlist
          simp at hlen

/-! ### The largest target belongs to a hot trip -/

/-- A visit keeps a hot trip with the largest target. -/
theorem Led.visit (hled : r.Led d) (h : r.Holds d) (hv : v ∈ r.visits)
    (hact : Cdev.VisitAct r.target clock v d d') : r.Led d' := by
  obtain ⟨h', hcases⟩ := h.visit hv hact
  have hadd : v.hot = true → (∀ l, l ∈ d.zoneTripLimits → l ∈ d'.zoneTripLimits) →
      (∀ u, u ∈ d'.zoneTripLimits.map ZoneTripLimit.user ↔
        u ∈ d.zoneTripLimits.map ZoneTripLimit.user ∨ u = v.user) → r.Led d' := by
    intro hhot hmem husers last' hlast'
    have hin' := List.mem_of_getLast? hlast'
    rcases (husers last'.user).mp (List.mem_map_of_mem hin') with hold | hnew
    · -- the largest target was there before, and so was a hot trip with it
      obtain ⟨l₀, hl₀, huser⟩ := List.mem_map.mp hold
      obtain ⟨last, hlast⟩ := exists_last (List.ne_nil_of_mem hl₀)
      obtain ⟨l, hl, hhot, htarget⟩ := hled last hlast
      have hup := h.target_le_last hl₀ hlast
      have hdown := h'.target_le_last (hmem l hl) hlast'
      rw [(h.valid l₀ hl₀).2, huser, ← (h'.valid last' hin').2] at hup
      exact ⟨l, hmem l hl, hhot, by omega⟩
    · exact ⟨last', hin', ⟨v, hv, hnew.symm, hhot⟩, rfl⟩
  cases hcases with
  | skip heq _ => rwa [heq]
  | record hhot _ _ _ hmem husers _ _ => exact hadd hhot hmem husers
  | apply hhot hmem husers _ _ => exact hadd hhot hmem husers
  | remove last hcold hlist huser _ =>
      intro next hnext
      have hlast : d.zoneTripLimits.getLast? = some last := by simp [hlist]
      have hin := List.mem_of_getLast? hnext
      obtain ⟨l, hl, hhot, htarget⟩ := hled last hlast
      have hl' : l ∈ d'.zoneTripLimits := by
        rw [hlist] at hl
        rcases List.mem_append.mp hl with hl | hl
        · exact hl
        · rw [List.mem_singleton.mp hl, huser] at hhot
          exact absurd hhot (r.not_hot hv hcold)
      have hup := h'.target_le_last hl' hnext
      have hdown := h.target_le_last (l := next) (by rw [hlist]; exact List.mem_append_left _ hin)
        hlast
      exact ⟨l, hl', hhot, by omega⟩

theorem Holds.round (h : r.Holds d) (hround : r.Round clock d d') : r.Holds d' :=
  (h.steps (fun _ hv => hv) hround).1

theorem Led.round (hled : r.Led d) (h : r.Holds d) (hround : r.Round clock d d') : r.Led d' :=
  (hround.invariant (I := fun d => r.Led d ∧ r.Holds d)
    (fun _ hv _ _ hact hd => ⟨hd.1.visit hd.2 hv hact, (hd.2.visit hv hact).1⟩) ⟨hled, h⟩).1

/-- After as many rounds as there are trips in the wrong place a hot trip has the largest target. -/
theorem Holds.led_of_rounds {clocks : List (Nat → Int)} (h : r.Holds d)
    (hrounds : Steps r.Round clocks d d') (hlen : r.unsettled d ≤ clocks.length) :
    r.Holds d' ∧ r.Led d' := by
  have hkeep : ∀ {clocks : List (Nat → Int)} {d d' : Cdev δ}, Steps r.Round clocks d d' →
      r.Holds d ∧ r.Led d → r.Holds d' ∧ r.Led d' := by
    intro clocks d d' hsteps hd
    exact hsteps.invariant (I := fun d => r.Holds d ∧ r.Led d)
      (fun _ _ _ _ hround hd => ⟨hd.1.round hround, hd.2.round hd.1 hround⟩) hd
  induction hrounds with
  | nil d =>
      refine ⟨h, fun last hlast => ?_⟩
      have hmem := List.mem_of_getLast? hlast
      obtain ⟨v, hv, huser⟩ := h.known last hmem
      have hright : wrong d v = false := by
        have hzero : r.visits.countP (wrong d) = 0 := Nat.le_zero.mp hlen
        simpa using List.countP_eq_zero.mp hzero v hv
      have hholds : d.holds v.user = true :=
        Cdev.holds_iff.mpr (huser ▸ List.mem_map_of_mem hmem)
      refine ⟨last, hmem, ⟨v, hv, huser, ?_⟩, rfl⟩
      by_contra hcold
      simp [wrong, hcold, hholds] at hright
  | cons hround hrest ih =>
      rcases h.round_progress hround with hled | hlt
      · exact hkeep (.cons hround hrest) ⟨h, hled⟩
      · refine ih (h.round hround) ?_
        rw [List.length_cons] at hlen
        omega

/-! ### The largest hot target is applied -/

/-- The target of a hot trip that no other hot trip exceeds. -/
structure IsTop (r : Rota) (top : Visit) : Prop where
  mem : top ∈ r.visits
  hot : top.hot = true
  largest : ∀ v ∈ r.visits, v.hot = true → r.target v.user ≤ r.target top.user

/-- The last limit has the largest hot target, and so has a limit of a hot trip. -/
def Topped (r : Rota) (top : Visit) (d : Cdev δ) : Prop :=
  r.Led d ∧ ∃ last, d.zoneTripLimits.getLast? = some last ∧ last.targetValue = r.target top.user

variable {top : Visit}

omit [StdSort] [CdevClass.Settable δ] [CdevClass.PlainTarget δ] in
/-- While a hot trip leads the list, no limit exceeds the largest hot target. -/
theorem Led.le_top (hled : r.Led d) (h : r.Holds d) (htop : r.IsTop top) {last : ZoneTripLimit}
    (hlast : d.zoneTripLimits.getLast? = some last) :
    last.targetValue ≤ r.target top.user := by
  obtain ⟨l, hl, ⟨v, hv, huser, hhot⟩, htarget⟩ := hled last hlast
  have hle := htop.largest v hv hhot
  rw [huser, ← (h.valid l hl).2, htarget] at hle
  exact hle

omit [StdSort] [CdevClass.Settable δ] [CdevClass.PlainTarget δ] in
/-- Then the state does not exceed it either. -/
theorem Topped.curr_le (ht : r.Topped top d) (h : r.Holds d) :
    d.getCurrState ≤ r.target top.user := by
  obtain ⟨-, last, hlast, htarget⟩ := ht
  exact htarget ▸ (h.busy last hlast).2

/-- The largest hot target stays in the list. -/
theorem Topped.visit (ht : r.Topped top d) (h : r.Holds d) (htop : r.IsTop top)
    (hv : v ∈ r.visits) (hact : Cdev.VisitAct r.target clock v d d') : r.Topped top d' := by
  have hled' := ht.1.visit h hv hact
  obtain ⟨h', hcases⟩ := h.visit hv hact
  obtain ⟨hled, last, hlast, htarget⟩ := ht
  obtain ⟨l, hl, hhot, hl_target⟩ := hled last hlast
  -- the limit of a hot trip with the largest hot target stays
  have hstay : l ∈ d'.zoneTripLimits := by
    cases hcases with
    | skip heq _ => rwa [heq]
    | record _ _ _ _ hmem _ _ _ => exact hmem l hl
    | apply _ hmem _ _ _ => exact hmem l hl
    | remove last' hcold hlist huser _ =>
        rw [hlist] at hl
        rcases List.mem_append.mp hl with hl | hl
        · exact hl
        · rw [List.mem_singleton.mp hl, huser] at hhot
          exact absurd hhot (r.not_hot hv hcold)
  obtain ⟨last', hlast'⟩ := exists_last (List.ne_nil_of_mem hstay)
  have hup := h'.target_le_last hstay hlast'
  have hdown := hled'.le_top h' htop hlast'
  exact ⟨hled', last', hlast', by omega⟩

theorem Topped.round (ht : r.Topped top d) (h : r.Holds d) (htop : r.IsTop top)
    (hround : r.Round clock d d') : r.Topped top d' :=
  (hround.invariant (I := fun d => r.Topped top d ∧ r.Holds d)
    (fun _ hv _ _ hact hd => ⟨hd.1.visit hd.2 htop hv hact, (hd.2.visit hv hact).1⟩)
    ⟨ht, h⟩).1

/-- A visit of the hot trip with the largest target puts this target into the list. -/
theorem Led.visit_top (hled : r.Led d) (h : r.Holds d) (htop : r.IsTop top)
    (hact : Cdev.VisitAct r.target clock top d d') : r.Topped top d' := by
  have hled' := hled.visit h htop.mem hact
  obtain ⟨h', hcases⟩ := h.visit htop.mem hact
  have hin : top.user ∈ d'.zoneTripLimits.map ZoneTripLimit.user → r.Topped top d' := by
    intro hmem
    obtain ⟨l, hl, huser⟩ := List.mem_map.mp hmem
    obtain ⟨last', hlast'⟩ := exists_last (List.ne_nil_of_mem hl)
    have hup := h'.target_le_last hl hlast'
    rw [(h'.valid l hl).2, huser] at hup
    exact ⟨hled', last', hlast', le_antisymm (hled'.le_top h' htop hlast') hup⟩
  cases hcases with
  | skip heq hwhy =>
      subst heq
      rcases hwhy with ⟨-, hmax⟩ | ⟨hcold, -⟩
      · -- a device in its maximum state is at the largest possible target
        rw [Cdev.in_max_state_iff h.up.ne, Cdev.level_up h.up, Cdev.level_up h.up] at hmax
        have hne : d'.zoneTripLimits ≠ [] := by
          intro hnil
          have hidle := (h.idle hnil).1
          have hup := h.up
          omega
        obtain ⟨last, hlast⟩ := exists_last hne
        have hle := hled.le_top h htop hlast
        have hbusy := (h.busy last hlast).2
        have hbound := (r.above top htop.mem).2
        rw [← h.hi] at hbound
        exact ⟨hled, last, hlast, by omega⟩
      · exact absurd (htop.hot.symm.trans hcold) (by simp)
  | record _ _ _ _ _ husers _ _ => exact hin ((husers top.user).mpr (.inr rfl))
  | apply _ _ husers _ _ => exact hin ((husers top.user).mpr (.inr rfl))
  | remove last hcold _ _ _ => exact absurd (htop.hot.symm.trans hcold) (by simp)

/-- A round brings the largest hot target into the list. -/
theorem Led.round_topped (hled : r.Led d) (h : r.Holds d) (htop : r.IsTop top)
    (hround : r.Round clock d d') : r.Topped top d' := by
  obtain ⟨before, after, hsplit⟩ := List.append_of_mem htop.mem
  have hin : ∀ v' ∈ before ++ top :: after, v' ∈ r.visits := fun v' hv' => hsplit ▸ hv'
  unfold Round at hround
  rw [hsplit, Steps.append_iff] at hround
  obtain ⟨d₁, hbefore, hrest⟩ := hround
  obtain ⟨d₂, hact, hafter⟩ := Steps.cons_iff.mp hrest
  have h₁ := hbefore.invariant (I := fun d => r.Led d ∧ r.Holds d)
    (fun v' hv' _ _ hact hd => ⟨hd.1.visit hd.2 (hin v' (by simp [hv'])) hact,
      (hd.2.visit (hin v' (by simp [hv'])) hact).1⟩) ⟨hled, h⟩
  have h₂ : r.Topped top d₂ ∧ r.Holds d₂ :=
    ⟨h₁.1.visit_top h₁.2 htop hact, (h₁.2.visit htop.mem hact).1⟩
  exact (hafter.invariant (I := fun d => r.Topped top d ∧ r.Holds d)
    (fun v' hv' _ _ hact hd => ⟨hd.1.visit hd.2 htop (hin v' (by simp [hv'])) hact,
      (hd.2.visit (hin v' (by simp [hv'])) hact).1⟩) h₂).1

/-- The last activation is further back than the debounce interval at all times of the clock. -/
def Fresh (clock : Nat → Int) (d : Cdev δ) : Prop :=
  d.lastState = true → ∀ n, d.debounceInterval < clock n - d.lastActionTime

/-- While the largest hot target is in the list, the state is kept or becomes that target; and it
becomes that target when the hot trip with this target visits a fresh device. -/
theorem Topped.visit_curr (ht : r.Topped top d) (h : r.Holds d) (htop : r.IsTop top)
    (hv : v ∈ r.visits) (hact : Cdev.VisitAct r.target clock v d d') :
    d'.getCurrState = r.target top.user ∨
      (d'.getCurrState = d.getCurrState ∧ d'.lastState = d.lastState ∧
        d'.lastActionTime = d.lastActionTime ∧ (v = top → Fresh clock d →
          d'.getCurrState = r.target top.user)) := by
  have ht' := ht.visit h htop hv hact
  have hle := ht.curr_le h
  obtain ⟨h', hcases⟩ := h.visit hv hact
  obtain ⟨-, last', hlast', htarget'⟩ := ht'
  cases hcases with
  | skip heq hwhy =>
      subst heq
      refine .inr ⟨rfl, rfl, rfl, fun hvt _ => ?_⟩
      rcases hwhy with ⟨-, hmax⟩ | ⟨hcold, -⟩
      · rw [Cdev.in_max_state_iff h.up.ne, Cdev.level_up h.up, Cdev.level_up h.up, h.hi] at hmax
        have hbound := (r.above top htop.mem).2
        omega
      · rw [hvt, htop.hot] at hcold
        exact absurd hcold (by simp)
  | record _ hcurr hstate htime _ _ _ hwhy =>
      refine .inr ⟨hcurr, hstate, htime, fun _ hfresh => ?_⟩
      obtain ⟨n, hwhy⟩ := hwhy
      rcases hwhy last' hlast' with hreached | ⟨hrecent, hsoon⟩
      · rw [hcurr]
        omega
      · exact absurd hsoon (not_le.mpr (hfresh hrecent n))
  | apply _ _ _ _ hcurr => exact .inl ((hcurr last' hlast').trans htarget')
  | remove last _ _ _ hcurr => exact .inl ((hcurr last' hlast').trans htarget')

/-- A round from a fresh device with the largest hot target in its list applies that target, and
further rounds keep it. -/
theorem Topped.round_curr (ht : r.Topped top d) (h : r.Holds d) (htop : r.IsTop top)
    (hfresh : Fresh clock d ∨ d.getCurrState = r.target top.user) (hround : r.Round clock d d') :
    d'.getCurrState = r.target top.user := by
  obtain ⟨before, after, hsplit⟩ := List.append_of_mem htop.mem
  have hin : ∀ v' ∈ before ++ top :: after, v' ∈ r.visits := fun v' hv' => hsplit ▸ hv'
  unfold Round at hround
  rw [hsplit, Steps.append_iff] at hround
  obtain ⟨d₁, hbefore, hrest⟩ := hround
  obtain ⟨d₂, hact, hafter⟩ := Steps.cons_iff.mp hrest
  -- until the trip is reached the device stays fresh or gets the target
  obtain ⟨ht₁, h₁, hfresh₁⟩ := hbefore.invariant
    (I := fun d => r.Topped top d ∧ r.Holds d ∧
      (Fresh clock d ∨ d.getCurrState = r.target top.user))
    (fun v' hv' e e' hact ⟨hte, he, hfresh⟩ => by
      have hv := hin v' (by simp [hv'])
      refine ⟨hte.visit he htop hv hact, (he.visit hv hact).1, ?_⟩
      rcases hte.visit_curr he htop hv hact with hcurr | ⟨hcurr, hstate, htime, -⟩
      · exact .inr hcurr
      · refine hfresh.imp (fun hf hrecent n => ?_) (fun heq => hcurr.trans heq)
        rw [htime, ((he.visit hv hact).1).debounce, ← he.debounce]
        exact hf (hstate ▸ hrecent) n) ⟨ht, h, hfresh⟩
  have hcurr₂ : d₂.getCurrState = r.target top.user := by
    rcases ht₁.visit_curr h₁ htop htop.mem hact with hcurr | ⟨hcurr, -, -, hreach⟩
    · exact hcurr
    · exact hfresh₁.elim (hreach rfl) fun heq => hcurr.trans heq
  exact (hafter.invariant (I := fun d => r.Topped top d ∧ r.Holds d ∧
      d.getCurrState = r.target top.user)
    (fun v' hv' e e' hact ⟨hte, he, heq⟩ => by
      have hv := hin v' (by simp [hv'])
      refine ⟨hte.visit he htop hv hact, (he.visit hv hact).1, ?_⟩
      rcases hte.visit_curr he htop hv hact with hcurr | ⟨hcurr, -, -, -⟩
      · exact hcurr
      · exact hcurr.trans heq)
    ⟨ht₁.visit h₁ htop htop.mem hact, (h₁.visit htop.mem hact).1, hcurr₂⟩).2.2

/-! ### The state after enough rounds -/

/-- The largest target of a hot trip, or the minimum of the device. -/
def goal (r : Rota) : Int :=
  ((r.visits.filter fun v => v.hot).map fun v => r.target v.user).foldr max r.lo

omit [CdevClass δ] [StdSort] [CdevClass.Settable δ] [CdevClass.PlainTarget δ] in
/-- The goal is the target of a hot trip that no other one exceeds, if there is a hot trip. -/
theorem goal_cases (r : Rota) :
    ((∀ v ∈ r.visits, v.hot = false) ∧ r.goal = r.lo) ∨
      ∃ top, r.IsTop top ∧ r.goal = r.target top.user := by
  have hfold : ∀ l : List Int, (∀ t ∈ l, t ≤ l.foldr max r.lo) ∧
      (l.foldr max r.lo = r.lo ∨ l.foldr max r.lo ∈ l) := by
    intro l
    induction l with
    | nil => exact ⟨by simp, .inl rfl⟩
    | cons t rest ih =>
        obtain ⟨hle, hmem⟩ := ih
        rw [List.foldr_cons]
        refine ⟨fun t' ht' => ?_, ?_⟩
        · rcases List.mem_cons.mp ht' with rfl | ht'
          · exact le_max_left _ _
          · exact (hle t' ht').trans (le_max_right _ _)
        · rcases max_choice t (rest.foldr max r.lo) with heq | heq
          · rw [heq]
            exact .inr List.mem_cons_self
          · rw [heq]
            exact hmem.imp id (List.mem_cons_of_mem _)
  obtain ⟨hle, hmem⟩ := hfold ((r.visits.filter fun v => v.hot).map fun v => r.target v.user)
  have hhot : ∀ v ∈ r.visits, v.hot = true → r.target v.user ≤ r.goal := fun v hv hv' =>
    hle _ (List.mem_map.mpr ⟨v, List.mem_filter.mpr ⟨hv, hv'⟩, rfl⟩)
  rcases hmem with hlo | hmem
  · refine .inl ⟨fun v hv => Bool.eq_false_iff.mpr fun hv' => ?_, hlo⟩
    have habove := (r.above v hv).1
    have hmax := hhot v hv hv'
    change r.goal = r.lo at hlo
    omega
  · obtain ⟨top, htop, heq⟩ := List.mem_map.mp hmem
    obtain ⟨hv, hv'⟩ := List.mem_filter.mp htop
    have hgoal : r.goal = r.target top.user := heq.symm
    exact .inr ⟨top, ⟨hv, hv', fun v hv hv' => hgoal ▸ hhot v hv hv'⟩, hgoal⟩

omit [CdevClass.Settable δ] [CdevClass.PlainTarget δ] in
/-- The last action of a device is one of before the round or one of the round. -/
theorem round_stamp (hround : r.Round clock d d') :
    (d'.lastState = d.lastState ∧ d'.lastActionTime = d.lastActionTime) ∨
      ∃ n, d'.lastActionTime = clock n := by
  refine hround.invariant (I := fun d' => (d'.lastState = d.lastState ∧
    d'.lastActionTime = d.lastActionTime) ∨ ∃ n, d'.lastActionTime = clock n) ?_ (.inl ⟨rfl, rfl⟩)
  intro v _ e e' hact he
  have hcall : e' = e ∨ ∃ a pid n, e' = (e.thdCdevSetState a pid (clock n)).2.1 := by
    unfold Cdev.VisitAct at hact
    split at hact
    · rcases hact with ⟨-, heq⟩ | ⟨-, a, pid, n, -, -, -, heq⟩
      · exact .inl heq
      · exact .inr ⟨a, pid, n, heq⟩
    · rcases hact with ⟨-, heq⟩ | ⟨-, a, pid, n, -, -, -, heq⟩
      · exact .inl heq
      · exact .inr ⟨a, pid, n, heq⟩
  rcases hcall with rfl | ⟨a, pid, n, rfl⟩
  · exact he
  · rcases Cdev.set_state_stamp (d := e) a pid (clock n) with
      ⟨hstate, htime⟩ | ⟨-, htime⟩
    · rw [hstate, htime]
      exact he
    · exact .inr ⟨n, htime⟩

/-- After two more rounds than there are trips, and in every round after that, the device is at the
largest target of a hot trip, or at its minimum if no trip is hot. -/
theorem rounds_converge {clocks : List (Nat → Int)} (h : r.Holds d)
    (hrounds : Steps r.Round clocks d d') (hlen : r.visits.length + 2 ≤ clocks.length)
    (hpast : d.lastState = true → ∀ c ∈ clocks, ∀ n, d.lastActionTime ≤ c n)
    (hspaced : clocks.Pairwise fun c c' => ∀ m n, r.debounce < c' n - c m) :
    d'.getCurrState = r.goal := by
  obtain ⟨first, x, y, rest, rfl, hfirst⟩ : ∃ first x y rest,
      clocks = first ++ x :: y :: rest ∧ first.length = r.visits.length := by
    refine ⟨clocks.take r.visits.length, ?_⟩
    match hdrop : clocks.drop r.visits.length with
    | [] => simp at hdrop; omega
    | [_] =>
        have hlength := congrArg List.length hdrop
        simp at hlength
        omega
    | x :: y :: rest =>
        refine ⟨x, y, rest, ?_, ?_⟩
        · rw [← hdrop, List.take_append_drop]
        · rw [List.length_take]
          omega
  obtain ⟨d₁, hsteps₁, hsteps⟩ := Steps.append_iff.mp hrounds
  obtain ⟨d₂, hx, hsteps⟩ := Steps.cons_iff.mp hsteps
  obtain ⟨d₃, hy, hsteps⟩ := Steps.cons_iff.mp hsteps
  obtain ⟨h₁, hled₁⟩ := h.led_of_rounds hsteps₁ (hfirst ▸ List.countP_le_length)
  rcases r.goal_cases with ⟨hcold, hgoal⟩ | ⟨top, htop, hgoal⟩
  · -- without hot trips the list is empty as soon as a hot trip would lead it
    obtain ⟨h', hled'⟩ := h.led_of_rounds hrounds
      (List.countP_le_length.trans (by omega))
    have hnil : d'.zoneTripLimits = [] := by
      by_contra hne
      obtain ⟨last, hlast⟩ := exists_last hne
      obtain ⟨l, -, ⟨v, hv, -, hhot⟩, -⟩ := hled' last hlast
      rw [hcold v hv] at hhot
      exact Bool.false_ne_true hhot
    rw [hgoal, (h'.idle hnil).1, h'.lo]
  · have ht₂ : r.Topped top d₂ := hled₁.round_topped h₁ htop hx
    have h₂ : r.Holds d₂ := h₁.round hx
    -- the last action was taken before the round of `y`
    have hfresh : Fresh y d₂ := by
      intro hrecent n
      have hstamp := (hsteps₁.append (.single hx)).invariant
        (I := fun e => (e.lastState = d.lastState ∧ e.lastActionTime = d.lastActionTime) ∨
          ∃ c ∈ first ++ [x], ∃ m, e.lastActionTime = c m)
        (fun c hc e e' hround he => by
          rcases round_stamp hround with ⟨hstate, htime⟩ | ⟨m, htime⟩
          · rw [hstate, htime]
            exact he
          · exact .inr ⟨c, hc, m, htime⟩) (.inl ⟨rfl, rfl⟩)
      have hapart : ∀ c ∈ first ++ [x], ∀ m, r.debounce < y n - c m := by
        intro c hc m
        rw [show first ++ x :: y :: rest = (first ++ [x]) ++ y :: rest by simp] at hspaced
        exact (List.pairwise_append.mp hspaced).2.2 c hc y List.mem_cons_self m n
      rw [h₂.debounce]
      rcases hstamp with ⟨hstate, htime⟩ | ⟨c, hc, m, htime⟩
      · have hbefore := hpast (hstate ▸ hrecent) x (by simp) 0
        have hlater := hapart x (by simp) 0
        omega
      · rw [htime]
        exact hapart c hc m
    have hcurr₃ := ht₂.round_curr h₂ htop (.inl hfresh) hy
    rw [hgoal]
    exact (hsteps.invariant (I := fun e => r.Topped top e ∧ r.Holds e ∧
        e.getCurrState = r.target top.user)
      (fun _ _ _ _ hround ⟨hte, he, heq⟩ => ⟨hte.round he htop hround, he.round hround,
        hte.round_curr he htop (.inr heq) hround⟩)
      ⟨ht₂.round h₂ htop hy, h₂.round hy, hcurr₃⟩).2.2

end Rota

end Thermald