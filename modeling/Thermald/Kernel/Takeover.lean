import Thermald.Lib.Run

/-!
# Taking over thermal control from the kernel

In exclusive mode the daemon writes `user_space` into the policy of every thermal zone of the
kernel, and gives the policies back when it ends. `takeover_thermal_control` keeps what it read in
one list, without the zones it belongs to, and every change of the preference takes over again and
appends to that list. `giveup_thermal_control` goes through the zones once more and takes the list
from its start, whatever each entry was read from.

`giveup_restores_iff` says exactly which histories of reads are undone. The uuid that the takeover
also sets is an attribute of another device.
-/

namespace Thermald

/-- `control_mode_t`. -/
inductive ControlMode where
  | complementry
  | exclusive
  deriving DecidableEq, Repr

/-- A `thermal_zone` directory: the number in its name and the contents of its files. A file that
does not exist is `none`. -/
structure KernelZone where
  number : Nat
  policy : Option String
  type : Option String
  mode : Option String
  deriving DecidableEq, Repr

/-- What the engine and the kernel know of each other. The zones are in directory order. -/
structure ThermalControl where
  controlMode : ControlMode
  zones : List KernelZone
  zonePreferences : List String

/-- Which policies can be read during one takeover, by the number of the zone. -/
abbrev PolicyReads := Nat → Bool

namespace KernelZone

/-- The value of `policy` under which the kernel leaves a zone to a program. -/
abbrev userSpace : String := "user_space"

/-- The mode of the firmware device changes along with the control. -/
def setMode (z : KernelZone) (mode : String) : KernelZone :=
  if z.type = some "INT3400" then { z with mode := some mode } else z

/-- The body of the loop of `takeover_thermal_control`: the policies recorded so far and the
zone. -/
def takeover (z : KernelZone) (readable : Bool) (preferences : List String) :
    List String × KernelZone :=
  match z.policy with
  | some policy =>
      if readable then
        (preferences ++ [policy], { z with policy := some userSpace }.setMode "enabled")
      else (preferences, z.setMode "enabled")
  | none => (preferences, z.setMode "enabled")

/-- The body of the loop of `giveup_thermal_control`, with the number of policies given back. There
is no result if the list of policies is read behind its end. -/
def giveup (z : KernelZone) (preferences : List String) (cnt : Nat) : Option (KernelZone × Nat) :=
  if z.policy.isSome then do
    let policy ← preferences[cnt]?
    pure ({ z with policy := some policy }.setMode "disabled", cnt + 1)
  else pure (z.setMode "disabled", cnt)

end KernelZone

namespace ThermalControl

/-- The loop of `takeover_thermal_control` over the directory. -/
def takeoverZones (reads : PolicyReads) :
    List String → List KernelZone → List String × List KernelZone
  | preferences, [] => (preferences, [])
  | preferences, z :: rest =>
      let (preferences, z) := z.takeover (reads z.number) preferences
      let (preferences, rest) := takeoverZones reads preferences rest
      (preferences, z :: rest)

/-- `takeover_thermal_control`. -/
def takeoverThermalControl (c : ThermalControl) (reads : PolicyReads) : ThermalControl :=
  let (zonePreferences, zones) := takeoverZones reads c.zonePreferences c.zones
  { c with zonePreferences, zones }

/-- The loop of `giveup_thermal_control` over the directory. -/
def giveupZones (preferences : List String) : Nat → List KernelZone → Option (List KernelZone)
  | _, [] => some []
  | cnt, z :: rest => do
      let (z, cnt) ← z.giveup preferences cnt
      let rest ← giveupZones preferences cnt rest
      pure (z :: rest)

/-- `giveup_thermal_control`. -/
def giveupThermalControl (c : ThermalControl) : Option ThermalControl :=
  if c.controlMode ≠ .exclusive then some c
  else if c.zonePreferences = [] then some c
  else do
    let zones ← giveupZones c.zonePreferences 0 c.zones
    pure { c with zones }

/-- The policies of the zones. -/
def policies (c : ThermalControl) : List (Option String) :=
  c.zones.map (·.policy)

/-! ## What the reads find -/

/-- What a policy holds after some takeovers: `user_space` once it could be read, and what was in it
until then. -/
def policyAfter (past : List PolicyReads) (z : KernelZone) : Option String :=
  z.policy.map fun policy => if past.any (· z.number) then KernelZone.userSpace else policy

/-- What one takeover finds in the policies it can read. -/
def foundBy (zones : List KernelZone) (past : List PolicyReads) (reads : PolicyReads) :
    List String :=
  zones.filterMap fun z => if reads z.number then policyAfter past z else none

/-- What all takeovers find, one after the other. -/
def found (zones : List KernelZone) (past : List PolicyReads) : List PolicyReads → List String
  | [] => []
  | reads :: later => foundBy zones past reads ++ found zones (past ++ [reads]) later

theorem found_append (zones : List KernelZone) (past calls : List PolicyReads)
    (reads : PolicyReads) :
    found zones past (calls ++ [reads]) =
      found zones past calls ++ foundBy zones (past ++ calls) reads := by
  induction calls generalizing past with
  | nil => simp [found]
  | cons first calls ih =>
      show foundBy zones past first ++ found zones (past ++ [first]) (calls ++ [reads]) = _
      rw [ih, ← List.append_assoc, List.append_assoc past]
      rfl

/-! ## The takeovers -/

@[simp] theorem set_mode_number (z : KernelZone) (mode : String) :
    (z.setMode mode).number = z.number := by
  unfold KernelZone.setMode
  split_ifs <;> rfl

@[simp] theorem set_mode_policy (z : KernelZone) (mode : String) :
    (z.setMode mode).policy = z.policy := by
  unfold KernelZone.setMode
  split_ifs <;> rfl

/-- The zones as some takeovers leave them. -/
def TakenOver (past : List PolicyReads) (start now : List KernelZone) : Prop :=
  List.Forall₂ (fun z z' => z'.number = z.number ∧ z'.policy = policyAfter past z) start now

theorem taken_over_nil (zones : List KernelZone) : TakenOver [] zones zones := by
  induction zones with
  | nil => exact .nil
  | cons z rest ih => exact .cons ⟨rfl, by simp [policyAfter]⟩ ih

/-- One takeover: it appends what it finds, and the zones it could read are taken over. -/
theorem takeover_zones_spec {past : List PolicyReads} {start now : List KernelZone}
    (h : TakenOver past start now) (reads : PolicyReads) (preferences : List String) :
    (takeoverZones reads preferences now).1 = preferences ++ foundBy start past reads ∧
      TakenOver (past ++ [reads]) start (takeoverZones reads preferences now).2 := by
  induction h generalizing preferences with
  | nil => exact ⟨(List.append_nil _).symm, .nil⟩
  | @cons z z' start now hz _ ih =>
      obtain ⟨hnumber, hpolicy⟩ := hz
      have hzone : (z'.takeover (reads z'.number) preferences).1 =
          preferences ++ (foundBy [z] past reads) ∧
          (z'.takeover (reads z'.number) preferences).2.number = z.number ∧
          (z'.takeover (reads z'.number) preferences).2.policy =
            policyAfter (past ++ [reads]) z := by
        rw [hnumber]
        unfold KernelZone.takeover
        cases hwas : z.policy with
        | none =>
            have hnow : z'.policy = none := by
              rw [hpolicy, policyAfter, hwas]
              rfl
            simp [hnow, hnumber, foundBy, policyAfter, hwas]
        | some policy =>
            have hnow : z'.policy =
                some (if past.any (· z.number) then KernelZone.userSpace else policy) := by
              rw [hpolicy, policyAfter, hwas]
              rfl
            cases hread : reads z.number with
            | true => simp [hnow, hnumber, foundBy, policyAfter, hwas, hread]
            | false => simp [hnow, hnumber, foundBy, policyAfter, hwas, hread]
      obtain ⟨hfound, hnumber', hpolicy'⟩ := hzone
      obtain ⟨hrest, htaken⟩ := ih (z'.takeover (reads z'.number) preferences).1
      refine ⟨?_, .cons ⟨hnumber', hpolicy'⟩ htaken⟩
      show (takeoverZones reads (z'.takeover (reads z'.number) preferences).1 now).1 = _
      rw [hrest, hfound, List.append_assoc]
      congr 1
      unfold foundBy
      rw [← List.filterMap_append, List.singleton_append]

/-- The takeovers record what they find. -/
theorem run_takeover (c : ThermalControl) (hstart : c.zonePreferences = [])
    (calls : List PolicyReads) :
    (run takeoverThermalControl c calls).controlMode = c.controlMode ∧
      (run takeoverThermalControl c calls).zonePreferences = found c.zones [] calls ∧
      TakenOver calls c.zones (run takeoverThermalControl c calls).zones := by
  refine run_history (I := fun past (s : ThermalControl) => s.controlMode = c.controlMode ∧
    s.zonePreferences = found c.zones [] past ∧ TakenOver past c.zones s.zones) ?_ ?_
  · exact ⟨rfl, hstart, taken_over_nil _⟩
  · intro past s reads _ h
    obtain ⟨hmode, hpreferences, htaken⟩ := h
    obtain ⟨hfound, hnext⟩ := takeover_zones_spec htaken reads s.zonePreferences
    refine ⟨hmode, ?_, hnext⟩
    rw [found_append, List.nil_append, ← hpreferences]
    exact hfound

/-! ## Giving the policies back -/

/-- The loop gives the zones their policies back exactly if these stand in the list, from this place
on. -/
theorem giveup_zones_iff {past : List PolicyReads} {start now : List KernelZone}
    (h : TakenOver past start now) (preferences : List String) (cnt : Nat) :
    (∃ zones, giveupZones preferences cnt now = some zones ∧
        zones.map (·.policy) = start.map (·.policy)) ↔
      start.filterMap (·.policy) <+: preferences.drop cnt := by
  -- a zone without a policy takes no entry of the list, so the place moves at the others only
  induction h generalizing cnt with
  | nil => exact iff_of_true ⟨[], rfl, rfl⟩ List.nil_prefix
  | @cons z z' start now hz _ ih =>
      have hpolicy := hz.2
      unfold giveupZones KernelZone.giveup
      cases hwas : z.policy with
      | none =>
          have hnow : z'.policy = none := by
            rw [hpolicy, policyAfter, hwas]
            rfl
          rw [List.filterMap_cons_none hwas, ← ih cnt]
          cases hrest : giveupZones preferences cnt now with
          | none => simp [hnow, hrest]
          | some rest => simp [hnow, hrest, hwas]
      | some policy =>
          have hnow : z'.policy.isSome = true := by
            rw [hpolicy, policyAfter, hwas]
            rfl
          rw [List.filterMap_cons_some hwas, if_pos hnow]
          cases hentry : preferences[cnt]? with
          | none =>
              have hend : preferences.drop cnt = [] :=
                List.drop_eq_nil_of_le (List.getElem?_eq_none_iff.mp hentry)
              simp [hend]
          | some entry =>
              have hhead : preferences.drop cnt = entry :: preferences.drop (cnt + 1) :=
                List.drop_eq_getElem?_toList_append .. |>.trans (by rw [hentry]; rfl)
              rw [hhead, List.cons_prefix_cons, ← ih (cnt + 1)]
              cases hrest : giveupZones preferences (cnt + 1) now with
              | none => simp [hrest]
              | some rest => simp [hrest, hwas, eq_comm]

/-- Where nothing is found, no zone that has a policy can be read. -/
theorem unread_of_found_nil {zones : List KernelZone} {past calls : List PolicyReads}
    (hfound : found zones past calls = []) {z : KernelZone} (hz : z ∈ zones)
    (hpolicy : z.policy ≠ none) : calls.any (· z.number) = false := by
  induction calls generalizing past with
  | nil => rfl
  | cons reads later ih =>
      obtain ⟨hfirst, hlater⟩ := List.append_eq_nil_iff.mp hfound
      have hread : reads z.number = false := by
        have hnone := List.filterMap_eq_nil_iff.mp hfirst z hz
        by_contra hread
        rw [if_pos (by simpa using hread), policyAfter] at hnone
        exact hpolicy (Option.map_eq_none_iff.mp hnone)
      rw [List.any_cons, hread, ih hlater]
      rfl

/-- Where no policy could be read, none is changed. -/
theorem policies_of_found_nil {zones now : List KernelZone} {calls : List PolicyReads}
    (htaken : TakenOver calls zones now) (hfound : found zones [] calls = []) :
    now.map (·.policy) = zones.map (·.policy) := by
  have hsame : ∀ z ∈ zones, policyAfter calls z = z.policy := by
    intro z hz
    unfold policyAfter
    cases hpolicy : z.policy with
    | none => rfl
    | some policy =>
        have hunread := unread_of_found_nil hfound hz (by rw [hpolicy]; exact Option.some_ne_none _)
        simp [hunread]
  clear hfound
  induction htaken with
  | nil => rfl
  | @cons z z' zones now hz _ ih =>
      rw [List.map_cons, List.map_cons, hz.2, hsame z List.mem_cons_self,
        ih fun z hz => hsame z (List.mem_cons_of_mem _ hz)]

/-- After takeovers from the first one on, giving up leaves every zone with the policy that it had
at first, and reads the list within its bounds, exactly if no policy could be read or the first
policies that were found are those of all zones. -/
theorem giveup_restores_iff (c : ThermalControl) (hmode : c.controlMode = .exclusive)
    (hstart : c.zonePreferences = []) (calls : List PolicyReads) :
    (∃ c', (run takeoverThermalControl c calls).giveupThermalControl = some c' ∧
        c'.policies = c.policies) ↔
      found c.zones [] calls = [] ∨ c.zones.filterMap (·.policy) <+: found c.zones [] calls := by
  obtain ⟨hrunMode, hpreferences, htaken⟩ := run_takeover c hstart calls
  unfold giveupThermalControl
  rw [if_neg (not_not.mpr (hrunMode.trans hmode)), hpreferences]
  by_cases hnil : found c.zones [] calls = []
  · rw [if_pos hnil]
    refine iff_of_true ⟨_, rfl, ?_⟩ (.inl hnil)
    exact policies_of_found_nil htaken hnil
  · rw [if_neg hnil]
    have hzones := giveup_zones_iff htaken (found c.zones [] calls) 0
    rw [List.drop_zero] at hzones
    rw [← hzones, or_iff_right hnil]
    constructor
    · intro h
      obtain ⟨c', hgiveup, hpolicies⟩ := h
      obtain ⟨zones, hloop, hresult⟩ := Option.bind_eq_some_iff.mp hgiveup
      cases hresult
      exact ⟨zones, hloop, hpolicies⟩
    · intro h
      obtain ⟨zones, hloop, hpolicies⟩ := h
      exact ⟨_, Option.bind_eq_some_iff.mpr ⟨zones, hloop, rfl⟩, hpolicies⟩

/-- A first takeover that can read every policy is enough, whatever follows. -/
theorem restorable_of_first (zones : List KernelZone) (reads : PolicyReads)
    (later : List PolicyReads) (hall : ∀ z ∈ zones, z.policy ≠ none → reads z.number = true) :
    zones.filterMap (·.policy) <+: found zones [] (reads :: later) := by
  have hfirst : foundBy zones [] reads = zones.filterMap (·.policy) := by
    refine List.filterMap_congr fun z hz => ?_
    cases hpolicy : z.policy with
    | none => simp [policyAfter, hpolicy]
    | some policy =>
        have hread := hall z hz (by rw [hpolicy]; exact Option.some_ne_none _)
        simp [policyAfter, hpolicy, hread]
  rw [← hfirst]
  exact List.prefix_append _ _

/-- Two zones with different policies, in exclusive mode. -/
def twoZones : ThermalControl where
  controlMode := .exclusive
  zones := [⟨0, some "step_wise", some "acpitz", none⟩, ⟨1, some "fair_share", some "pch", none⟩]
  zonePreferences := []

/-- The first policy cannot be read at the first takeover, and it can at the second. -/
def lateRead : List PolicyReads := [(· = 1), fun _ => true]

/-- The policies come back in the wrong zones: each one gets that of the other. -/
theorem policies_exchanged :
    ¬ ∃ c', (run takeoverThermalControl twoZones lateRead).giveupThermalControl = some c' ∧
      c'.policies = twoZones.policies := by
  intro h
  obtain ⟨c', hgiveup, hpolicies⟩ := h
  have hwrong : (run takeoverThermalControl twoZones lateRead).giveupThermalControl.map policies =
      some [some "fair_share", some "step_wise"] := by decide +kernel
  rw [hgiveup, Option.map_some, hpolicies] at hwrong
  exact absurd hwrong (by decide +kernel)

/-- Two takeovers that can read everything. -/
theorem policies_given_back :
    twoZones.controlMode = .exclusive ∧
      ∃ c', (run takeoverThermalControl twoZones
          [fun _ => true, fun _ => true]).giveupThermalControl = some c' ∧
        c'.policies = twoZones.policies :=
  ⟨rfl, (giveup_restores_iff twoZones rfl rfl _).mpr
    (.inr (restorable_of_first twoZones.zones _ _ fun _ _ _ => rfl))⟩

end ThermalControl

end Thermald
