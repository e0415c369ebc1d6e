import Thermald.Gddv.Tables
import Thermald.Lib.Run

/-!
# Conditions

A vault lists condition sets, each with a target. `evaluateConditions` finds the first set all of
whose conditions hold and returns its target. A condition may ask that its comparison has held for
some time: the time at which the comparison first held is kept in the condition.

This time is updated only when the condition is looked at, and the check of the time is left out for
the target that was matched last, also if it does not match any more. `timed_match` says under
which circumstances a set with a condition that must hold for at least some time is matched only if
the condition has really held for so long.
-/

namespace Thermald.Gddv

/-! ## Values -/

/-- What the conditions look at during a poll: its time, the `odvp` files, the temperatures of the
sensors by their names in millidegrees, the lid and tablet switches if there are such devices, the
power source if it is known, and the power slider. -/
structure Surroundings where
  time : Int
  odvp : Int → Option Int
  temperature : Bytes → Option Int
  lidClosed : Option Bool
  tabletMode : Option Bool
  onBattery : Option Bool
  powerSlider : Int

/-- The members of `enum adaptive_condition` that the daemon knows. -/
abbrev conditionDefault : Nat := 1

abbrev conditionMotion : Nat := 4

abbrev conditionWorkload : Nat := 6

abbrev conditionPowerSource : Nat := 8

abbrev conditionLidState : Nat := 10

abbrev conditionPlatformType : Nat := 11

abbrev conditionTemperature : Nat := 17

abbrev conditionOem0 : Nat := 19

abbrev conditionOem5 : Nat := 24

abbrev conditionTemperatureWithoutHysteresis : Nat := 48

abbrev conditionPowerSlider : Nat := 56

abbrev conditionOsType : Nat := 86

/-- `enum adaptive_comparison` on two numbers. -/
def compareValues (comparison : Nat) (value argument : Int) : Bool :=
  match comparison with
  | 1 => value = argument
  | 2 => value ≤ argument
  | 3 => argument ≤ value
  | 4 => value ≠ argument
  | _ => false

/-- `ADAPTIVE_GREATER_OR_EQUAL`. -/
abbrev greaterOrEqual : Nat := 3

/-- `compare_condition`. -/
def compareCondition (c : Condition) (value : Int) : Bool :=
  compareValues c.comparison value c.argument

/-- The part of a path behind its last dot. -/
def afterLastDot (s : Bytes) : Bytes :=
  (s.splitOn (UInt8.ofNat '.'.toNat)).getLastD []

/-- The condition is one of the OEM conditions. -/
def isOem (c : Condition) : Bool :=
  (conditionOem0 ≤ c.condition && c.condition ≤ conditionOem5) ||
    (0x1000 ≤ c.condition && c.condition < 0x10000)

/-- The condition is about a temperature. -/
def isTemperature (c : Condition) : Bool :=
  c.condition = conditionTemperature || c.condition = conditionTemperatureWithoutHysteresis ||
    c.condition = 0

/-- `evaluate_oem_condition`. -/
def evaluateOemCondition (w : Surroundings) (c : Condition) : Bool :=
  let oemCondition : Int :=
    if conditionOem0 ≤ c.condition ∧ c.condition ≤ conditionOem5 then c.condition - conditionOem0
    else c.condition - 0x1000 + 6
  match w.odvp oemCondition with
  | none => false
  | some value => compareCondition c value

/-- `evaluate_temperature_condition`, which works on a copy of the condition. -/
def evaluateTemperatureCondition (w : Surroundings) (c : Condition) : Bool :=
  if c.ignoreCondition ≠ 0 then false
  else
    match w.temperature (afterLastDot c.device) with
    | none => false
    | some value => compareCondition c (int32 (value.tdiv 100 + 2732))

/-- `evaluate_lid_condition`. -/
def evaluateLidCondition (w : Surroundings) (c : Condition) : Bool :=
  compareCondition c (match w.lidClosed with
    | some closed => if closed then 0 else 1
    | none => 0)

/-- `evaluate_platform_type_condition`. -/
def evaluatePlatformTypeCondition (w : Surroundings) (c : Condition) : Bool :=
  compareCondition c (if w.tabletMode = some true then 2 else 1)

/-- `evaluate_ac_condition`. -/
def evaluateAcCondition (w : Surroundings) (c : Condition) : Bool :=
  compareCondition c (if w.onBattery = some true then 1 else 0)

/-- The comparison of a condition, without its time. Conditions that the daemon does not know
fail. -/
def comparisonHolds (w : Surroundings) (c : Condition) : Bool :=
  if c.condition = conditionDefault then true
  else if c.condition = conditionOsType then compareCondition c 3
  else if isOem c then evaluateOemCondition w c
  else if isTemperature c then evaluateTemperatureCondition w c
  else if c.condition = conditionLidState then evaluateLidCondition w c
  else if c.condition = conditionPowerSource then evaluateAcCondition w c
  else if c.condition = conditionWorkload then compareCondition c 3
  else if c.condition = conditionPlatformType then evaluatePlatformTypeCondition w c
  else if c.condition = conditionPowerSlider then compareCondition c w.powerSlider
  else if c.condition = conditionMotion then c.argument = 0
  else false

/-! ## Evaluation -/

/-- `compare_time`. The elapsed time is an `int`. -/
def compareTime (c : Condition) (time : Int) : Bool :=
  compareValues c.timeComparison (int32 (time - c.stateEntryTime)) c.time

/-- `evaluate_condition`, with the condition afterwards. The time is not checked for the target that
was matched last. -/
def evaluateCondition (w : Surroundings) (currentTargetMatched : Int) (c : Condition) :
    Bool × Condition :=
  if c.condition = conditionDefault then (true, c)
  else if comparisonHolds w c then
    if c.target = currentTargetMatched then (true, c)
    else if c.time = 0 then (true, c)
    else if c.stateEntryTime = 0 then (false, { c with stateEntryTime := w.time })
    else if compareTime c w.time then (true, { c with stateEntryTime := 0 })
    else (false, c)
  else (false, { c with stateEntryTime := 0 })

/-- `evaluate_condition_set`: the conditions behind the first one that fails are not looked at. -/
def evaluateConditionSet (w : Surroundings) (currentTargetMatched : Int) :
    List Condition → Bool × List Condition
  | [] => (true, [])
  | c :: rest =>
    let (ok, c) := evaluateCondition w currentTargetMatched c
    if ok then
      let (ok, rest) := evaluateConditionSet w currentTargetMatched rest
      (ok, c :: rest)
    else (false, c :: rest)

/-- The sets of a vault with the target that was matched last. -/
structure Matcher where
  conditions : List (List Condition)
  currentTargetMatched : Int

/-- The target of a set, which is that of its first condition. What the source reads from an empty
set is undefined. -/
def setTarget (set : List Condition) : Int := (set.head?.map (·.target)).getD 0

/-- The loop of `evaluate_conditions`: the target of the first set that matches, if any, and the
sets afterwards. The sets behind it are not looked at. -/
def evaluateSets (w : Surroundings) (currentTargetMatched : Int) :
    List (List Condition) → Option Int × List (List Condition)
  | [] => (none, [])
  | set :: rest =>
    let (ok, set) := evaluateConditionSet w currentTargetMatched set
    if ok then (some (setTarget set), set :: rest)
    else
      let (target, rest) := evaluateSets w currentTargetMatched rest
      (target, set :: rest)

/-- `evaluate_conditions`. A target that does not match any more is still remembered. -/
def Matcher.evaluateConditions (g : Matcher) (w : Surroundings) : Int × Matcher :=
  let (target, conditions) := evaluateSets w g.currentTargetMatched g.conditions
  (target.getD (-1), ⟨conditions, target.getD g.currentTargetMatched⟩)

/-! ## What a call looks at -/

section Call

variable (w : Surroundings) (currentTargetMatched : Int)

/-- A set matches if all of its conditions do. -/
theorem set_matches_eq (set : List Condition) :
    (evaluateConditionSet w currentTargetMatched set).1 =
      set.all fun c => (evaluateCondition w currentTargetMatched c).1 := by
  induction set with
  | nil => rfl
  | cons c rest ih =>
      rw [evaluateConditionSet, List.all_cons]
      cases hok : (evaluateCondition w currentTargetMatched c).1 with
      | true => simpa [hok] using ih
      | false => simp [hok]

/-- The conditions of a set afterwards: a condition is evaluated if all before it hold. -/
theorem get_evaluated_set (set : List Condition) (j : Nat) :
    (evaluateConditionSet w currentTargetMatched set).2[j]? =
      if (set.take j).all fun c => (evaluateCondition w currentTargetMatched c).1 then
        set[j]?.map fun c => (evaluateCondition w currentTargetMatched c).2
      else set[j]? := by
  induction set generalizing j with
  | nil => simp [evaluateConditionSet]
  | cons c rest ih =>
      rw [evaluateConditionSet]
      cases hok : (evaluateCondition w currentTargetMatched c).1 with
      | true =>
          cases j with
          | zero => simp [hok]
          | succ j =>
              have hrest := ih j
              simpa [hok] using hrest
      | false =>
          cases j with
          | zero => simp [hok]
          | succ j => simp [hok]

/-- The sets afterwards: a set is evaluated if none before it matches. -/
theorem get_evaluated_sets (sets : List (List Condition)) (i : Nat) :
    (evaluateSets w currentTargetMatched sets).2[i]? =
      if (sets.take i).all fun set => !(evaluateConditionSet w currentTargetMatched set).1 then
        sets[i]?.map fun set => (evaluateConditionSet w currentTargetMatched set).2
      else sets[i]? := by
  induction sets generalizing i with
  | nil => simp [evaluateSets]
  | cons set rest ih =>
      rw [evaluateSets]
      cases hok : (evaluateConditionSet w currentTargetMatched set).1 with
      | true =>
          cases i with
          | zero => simp [hok]
          | succ i => simp [hok]
      | false =>
          cases i with
          | zero => simp [hok]
          | succ i =>
              have hrest := ih i
              simpa [hok] using hrest

end Call

namespace Matcher

variable (g : Matcher) (w : Surroundings)

/-- The condition at a place of a set. -/
def conditionAt (i j : Nat) : Option Condition := g.conditions[i]?.bind fun set => set[j]?

/-- The call looks at the condition at a place: no set before matches, and all conditions before it
in its set hold. -/
def looksAt (i j : Nat) : Bool :=
  ((g.conditions.take i).all fun set => !(evaluateConditionSet w g.currentTargetMatched set).1) &&
    ((g.conditions[i]?.getD []).take j).all fun c =>
      (evaluateCondition w g.currentTargetMatched c).1

/-- The set that makes the call return its target. -/
def matchedSet : Option Nat :=
  g.conditions.findIdx? fun set => (evaluateConditionSet w g.currentTargetMatched set).1

/-- A condition afterwards. -/
theorem condition_at_evaluated (i j : Nat) :
    (g.evaluateConditions w).2.conditionAt i j =
      if g.looksAt w i j then
        (g.conditionAt i j).map fun c => (evaluateCondition w g.currentTargetMatched c).2
      else g.conditionAt i j := by
  show (evaluateSets w g.currentTargetMatched g.conditions).2[i]?.bind (fun set => set[j]?) = _
  rw [get_evaluated_sets]
  unfold conditionAt looksAt
  cases hset : g.conditions[i]? with
  | none => simp
  | some set =>
      cases hbefore : (g.conditions.take i).all fun set =>
          !(evaluateConditionSet w g.currentTargetMatched set).1 with
      | false => simp
      | true => simpa using get_evaluated_set w g.currentTargetMatched set j

/-- A set that matches has been looked at, and all of its conditions hold. -/
theorem matched_set_holds {i j : Nat} {c : Condition} (h : g.matchedSet w = some i)
    (hc : g.conditionAt i j = some c) :
    g.looksAt w i j = true ∧ (evaluateCondition w g.currentTargetMatched c).1 = true := by
  obtain ⟨hlt, hmatch, hbefore⟩ := List.findIdx?_eq_some_iff_getElem.1 h
  have hset : g.conditions[i]? = some g.conditions[i] := List.getElem?_eq_getElem hlt
  unfold conditionAt at hc
  rw [hset, Option.bind_some] at hc
  rw [set_matches_eq, List.all_eq_true] at hmatch
  refine ⟨?_, hmatch c (List.mem_of_getElem? hc)⟩
  unfold looksAt
  rw [hset, Option.getD_some, Bool.and_eq_true, List.all_eq_true, List.all_eq_true]
  refine ⟨fun set hmem => ?_, fun c hmem => hmatch c (List.mem_of_mem_take hmem)⟩
  obtain ⟨k, hk, rfl⟩ := List.mem_take_iff_getElem.1 hmem
  rw [Bool.not_eq_true', Bool.eq_false_iff]
  exact hbefore k (by omega)

end Matcher

/-! ## Runs -/

/-- The matcher between two calls, with the result of the last one. -/
structure Watch where
  matcher : Matcher
  last : Option Int

/-- One call of `evaluate_conditions`. -/
def Watch.poll (g : Watch) (w : Surroundings) : Watch :=
  let (target, matcher) := g.matcher.evaluateConditions w
  ⟨matcher, some target⟩

/-- The parser has filled in the conditions and none has been evaluated. -/
def Matcher.Fresh (g : Matcher) : Prop :=
  g.currentTargetMatched = -1 ∧ ∀ set ∈ g.conditions, ∀ c ∈ set, c.stateEntryTime = 0

/-- The state of a timed condition and of the memory does not mislead the call: where the call does
not look at the condition, the comparison holds or no time is kept for it; and where the condition
holds and its target is remembered as the last match, the call before has returned this target. -/
def Watch.Reliable (i j : Nat) (g : Watch) (w : Surroundings) : Prop :=
  ∀ c ∈ g.matcher.conditionAt i j,
    (g.matcher.looksAt w i j = false → comparisonHolds w c = true ∨ c.stateEntryTime = 0) ∧
      (g.matcher.looksAt w i j = true → comparisonHolds w c = true →
        c.target = g.matcher.currentTargetMatched → g.last = some c.target)

instance (i j : Nat) (g : Watch) (w : Surroundings) : Decidable (g.Reliable i j w) :=
  inferInstanceAs (Decidable (∀ c ∈ g.matcher.conditionAt i j, _))

/-- The time kept for a condition is that of a poll since which the comparison has held. -/
def Held (past : List Surroundings) (c : Condition) : Prop :=
  c.stateEntryTime ≠ 0 →
    (∃ q ∈ past, q.time = c.stateEntryTime) ∧
      ∀ q ∈ past, c.stateEntryTime ≤ q.time → comparisonHolds q c = true

/-- A condition without its kept time. -/
def Condition.SameAs (c c₀ : Condition) : Prop := c = { c₀ with stateEntryTime := c.stateEntryTime }

section Step

variable {past : List Surroundings} {p : Surroundings} {c : Condition}

/-- While the comparison holds, the time is kept. -/
theorem Held.extend (h : Held past c) (hp : c.stateEntryTime ≠ 0 → comparisonHolds p c = true) :
    Held (past ++ [p]) c := by
  intro hentry
  obtain ⟨⟨q, hq, htime⟩, hall⟩ := h hentry
  refine ⟨⟨q, List.mem_append_left _ hq, htime⟩, fun r hr hle => ?_⟩
  rcases List.mem_append.1 hr with hr | hr
  · exact hall r hr hle
  · rw [List.mem_singleton.1 hr]
    exact hp hentry

/-- What an evaluation does to the kept time. -/
theorem held_evaluated (h : Held past c) (hlater : ∀ q ∈ past, q.time < p.time)
    (currentTargetMatched : Int) :
    Held (past ++ [p]) (evaluateCondition p currentTargetMatched c).2 := by
  unfold evaluateCondition
  split
  · rename_i hdefault
    refine h.extend fun _ => ?_
    unfold comparisonHolds
    rw [if_pos hdefault]
  split
  · rename_i hholds
    split
    · exact h.extend fun _ => hholds
    split
    · exact h.extend fun _ => hholds
    split
    · -- the comparison begins to hold, and all polls so far are before this one
      intro _
      refine ⟨⟨p, by simp, rfl⟩, fun q hq hle => ?_⟩
      rcases List.mem_append.1 hq with hq | hq
      · exact absurd (hlater q hq) (not_lt.2 hle)
      · rw [List.mem_singleton.1 hq]
        exact hholds
    split
    · exact fun hentry => absurd rfl hentry
    · exact h.extend fun _ => hholds
  · exact fun hentry => absurd rfl hentry

/-- An evaluation changes nothing but the kept time. -/
theorem same_evaluated {c₀ : Condition} (h : c.SameAs c₀) (w : Surroundings)
    (currentTargetMatched : Int) : (evaluateCondition w currentTargetMatched c).2.SameAs c₀ := by
  have hset : ∀ time, ({ c with stateEntryTime := time } : Condition).SameAs c₀ := by
    intro time
    unfold Condition.SameAs at h ⊢
    rw [h]
  have hself : c.SameAs c₀ := h
  unfold evaluateCondition
  split
  · exact hself
  split
  · split
    · exact hself
    split
    · exact hself
    split
    · exact hset _
    split
    · exact hset _
    · exact hself
  · exact hset _

/-- Why a condition that must hold for at least some time is fulfilled: its target is remembered, or
the comparison has held for so long. -/
theorem timed_fulfilled {currentTargetMatched : Int} (h : Held past c)
    (hlater : ∀ q ∈ past, q.time < p.time) (htime : 0 < c.time)
    (hcomparison : c.timeComparison = greaterOrEqual)
    (hok : (evaluateCondition p currentTargetMatched c).1 = true) :
    (comparisonHolds p c = true ∧ c.target = currentTargetMatched) ∨
      ∀ q ∈ past, p.time - c.time ≤ q.time → comparisonHolds q c = true := by
  unfold evaluateCondition at hok
  split at hok
  · rename_i hdefault
    refine .inr fun q _ _ => ?_
    unfold comparisonHolds
    rw [if_pos hdefault]
  split at hok
  · rename_i hholds
    split at hok
    · exact .inl ⟨hholds, ‹_›⟩
    split at hok
    · omega
    split at hok
    · cases hok
    split at hok
    · rename_i hentry hcompare
      obtain ⟨⟨q, hq, hqtime⟩, hall⟩ := h hentry
      have hearlier := hlater q hq
      have helapsed : c.time ≤ int32 (p.time - c.stateEntryTime) := by
        unfold compareTime at hcompare
        rw [hcomparison] at hcompare
        exact of_decide_eq_true hcompare
      have hwrap : int32 (p.time - c.stateEntryTime) ≤ p.time - c.stateEntryTime := by
        unfold int32
        omega
      refine .inr fun r hr hle => hall r hr ?_
      omega
    · cases hok
  · cases hok

end Step

/-- The timed condition after part of a run. -/
def Tracked (i j : Nat) (c₀ : Condition) (past : List Surroundings) (g : Watch) : Prop :=
  ∃ c, g.matcher.conditionAt i j = some c ∧ c.SameAs c₀ ∧ Held past c

theorem tracked_step {i j : Nat} {c₀ : Condition} {past : List Surroundings} {g : Watch}
    {p : Surroundings} (h : Tracked i j c₀ past g) (hlater : ∀ q ∈ past, q.time < p.time)
    (hreliable : g.Reliable i j p) : Tracked i j c₀ (past ++ [p]) (g.poll p) := by
  obtain ⟨c, hc, hsame, hheld⟩ := h
  have hafter : (g.poll p).matcher.conditionAt i j =
      if g.matcher.looksAt p i j then
        (g.matcher.conditionAt i j).map fun c =>
          (evaluateCondition p g.matcher.currentTargetMatched c).2
      else g.matcher.conditionAt i j := g.matcher.condition_at_evaluated p i j
  rw [hc, Option.map_some] at hafter
  cases hlooks : g.matcher.looksAt p i j with
  | true =>
      rw [hlooks, if_pos rfl] at hafter
      exact ⟨_, hafter, same_evaluated hsame p _, held_evaluated hheld hlater _⟩
  | false =>
      rw [hlooks, if_neg (by decide)] at hafter
      refine ⟨c, hafter, hsame, hheld.extend fun hentry => ?_⟩
      exact ((hreliable c hc).1 hlooks).resolve_right hentry

/-- A set with a condition that must hold for at least `c.time` seconds is matched only if the call
before has returned its target, or the comparison of the condition has held at every poll of the
last `c.time` seconds, provided that every call finds a reliable state. -/
theorem timed_match {g : Matcher} (hfresh : g.Fresh) {polls : List Surroundings}
    (hincreasing : polls.Pairwise fun p q => p.time < q.time) {i j : Nat} {c : Condition}
    (hc : g.conditionAt i j = some c) (hcomparison : c.timeComparison = greaterOrEqual)
    (htime : 0 < c.time) (hreliable : Meets Watch.poll (Watch.Reliable i j) ⟨g, none⟩ polls)
    {past : List Surroundings} {p : Surroundings} (hpre : past ++ [p] <+: polls)
    (hmatch : (run Watch.poll ⟨g, none⟩ past).matcher.matchedSet p = some i) :
    (run Watch.poll ⟨g, none⟩ past).last = some c.target ∨
      ∀ q ∈ past, p.time - c.time ≤ q.time → comparisonHolds q c = true := by
  have hlater : ∀ past p, past ++ [p] <+: polls → ∀ q ∈ past, q.time < p.time := by
    intro past p hpre q hq
    have hpairwise := hincreasing.sublist hpre.sublist
    exact (List.pairwise_append.1 hpairwise).2.2 q hq p (List.mem_singleton_self p)
  have hpast : past <+: polls := (List.prefix_append ..).trans hpre
  have hstart : Tracked i j c [] ⟨g, none⟩ := by
    refine ⟨c, hc, rfl, fun hentry => absurd ?_ hentry⟩
    unfold Matcher.conditionAt at hc
    obtain ⟨set, hset, hmem⟩ := Option.bind_eq_some_iff.1 hc
    exact hfresh.2 set (List.mem_of_getElem? hset) c (List.mem_of_getElem? hmem)
  have hok : ∀ past p, past ++ [p] <+: polls →
      (run Watch.poll ⟨g, none⟩ past).Reliable i j p := by
    intro past p hpre
    exact (meets_append.1 (hreliable.of_prefix hpre)).2.1
  have htracked : ∀ pre, pre <+: polls → Tracked i j c pre (run Watch.poll ⟨g, none⟩ pre) := by
    intro pre
    induction pre using List.reverseRecOn with
    | nil => exact fun _ => hstart
    | append_singleton past p ih =>
        intro hpre
        rw [run_append]
        exact tracked_step (ih ((List.prefix_append ..).trans hpre)) (hlater past p hpre)
          (hok past p hpre)
  obtain ⟨c', hc', hsame, hheld⟩ := htracked past hpast
  obtain ⟨hlooks, hholds⟩ := Matcher.matched_set_holds _ p hmatch hc'
  have hfields : c'.target = c.target ∧ c'.time = c.time ∧ c'.timeComparison = c.timeComparison ∧
      ∀ q, comparisonHolds q c' = comparisonHolds q c := by
    unfold Condition.SameAs at hsame
    rw [hsame]
    exact ⟨rfl, rfl, rfl, fun _ => rfl⟩
  obtain ⟨htarget, hsametime, hsamecomparison, hsameholds⟩ := hfields
  rcases timed_fulfilled hheld (hlater past p hpre) (by omega) (hsamecomparison.trans hcomparison)
    hholds with ⟨hcompare, hremembered⟩ | hlong
  · left
    rw [← htarget]
    exact (hok past p hpre c' hc').2 hlooks hcompare hremembered
  · right
    intro q hq hle
    rw [← hsameholds]
    exact hlong q hq (by omega)

/-! ## Examples -/

/-- A set with the target 3: the lid must be open for at least 10 seconds. -/
def lidForTenSeconds : Condition :=
  { Condition.init 3 with
    condition := conditionLidState
    comparison := 1
    argument := 1
    timeComparison := greaterOrEqual
    time := 10 }

/-- A poll that sees the lid open or closed. -/
def lidAt (time : Int) (closed : Bool) : Surroundings where
  time := time
  odvp _ := none
  temperature _ := none
  lidClosed := some closed
  tabletMode := none
  onBattery := none
  powerSlider := 75

/-- A vault with this set only. -/
def lidMatcher : Matcher := ⟨[[lidForTenSeconds]], -1⟩

theorem lid_matcher_fresh : lidMatcher.Fresh := by
  refine ⟨rfl, ?_⟩
  decide

/-- The lid has been open for ten seconds and is closed again. When it is opened once more the set
matches at once, although the call before has found nothing and the lid was just closed. -/
theorem reopened_lid_matches :
    lidMatcher.Fresh ∧
    ¬ ∀ past p, past ++ [p] <+:
        [lidAt 100 false, lidAt 110 false, lidAt 120 true, lidAt 121 false] →
      (run Watch.poll ⟨lidMatcher, none⟩ past).matcher.matchedSet p = some 0 →
      (run Watch.poll ⟨lidMatcher, none⟩ past).last = some 3 ∨
        ∀ q ∈ past, p.time - 10 ≤ q.time → comparisonHolds q lidForTenSeconds = true := by
  refine ⟨lid_matcher_fresh, fun h => ?_⟩
  have hlast := h [lidAt 100 false, lidAt 110 false, lidAt 120 true] (lidAt 121 false)
    (List.prefix_refl _) (by decide)
  rcases hlast with hlast | hlong
  · exact absurd hlast (by decide)
  · exact absurd (hlong (lidAt 120 true) (by simp) (by decide)) (by decide)

/-- A lid that stays open for ten seconds matches for this reason. -/
theorem open_lid_held :
    (run Watch.poll ⟨lidMatcher, none⟩ [lidAt 100 false, lidAt 105 false]).last = some 3 ∨
      ∀ q ∈ [lidAt 100 false, lidAt 105 false], (lidAt 110 false).time - 10 ≤ q.time →
        comparisonHolds q lidForTenSeconds = true := by
  have hincreasing : [lidAt 100 false, lidAt 105 false, lidAt 110 false].Pairwise
      fun p q => p.time < q.time := by
    simp [lidAt]
  exact timed_match lid_matcher_fresh hincreasing (i := 0) (j := 0) rfl rfl (by decide)
    ⟨by decide, by decide, by decide, trivial⟩ (List.prefix_refl _) (by decide)

end Thermald.Gddv
