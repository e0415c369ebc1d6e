import Thermald.Cooling.Engine
import Thermald.Cooling.Rounds
import Thermald.Cooling.ZoneEffects

/-!
# Polls as sequences of operations

A poll notifies the zones one after the other, and so treats a device with the operations of all
of them. `poll_notifies` says on whose behalf these are done, and `poll_same` that a poll keeps the
zones as they were configured. `Op.Act.limit_cases` says which limits an operation can add to a
device: only that of a trip that is on.
-/

namespace Thermald

variable {δ : Type} [CdevClass δ] [StdSort]

/-- The limits after a call are old ones, except that an activation may add that of its trip. -/
theorem Cdev.call_limit_cases {d : Cdev δ} {a : SetStateArgs} {pid : Pid} {tm : Int}
    {l : ZoneTripLimit} (hl : l ∈ (d.thdCdevSetState a pid tm).2.1.zoneTripLimits) :
    l ∈ d.zoneTripLimits ∨ (a.state = true ∧ l = d.newLimit a) := by
  rw [Cdev.set_state_limits] at hl
  split at hl
  · rename_i hstate
    split at hl
    · exact .inl hl
    · -- both sorts permute the old limits and the new one
      have hmem : l ∈ d.zoneTripLimits ++ [d.newLimit a] := by
        unfold Cdev.addLimit at hl
        simp only at hl
        split_ifs at hl <;> simpa only [StdSort.mem_sort] using hl
      rcases List.mem_append.mp hmem with hmem | hmem
      · exact .inl hmem
      · exact .inr ⟨hstate, List.mem_singleton.mp hmem⟩
  · exact .inl (withdraw_front.subset hl)

/-- The limits after an operation are old ones, except that a trip that is on may add its own. -/
theorem Op.Act.limit_cases {clock : Nat → Int} {op : Op} {d d' : Cdev δ} (h : op.Act clock d d')
    {l : ZoneTripLimit} (hl : l ∈ d'.zoneTripLimits) :
    l ∈ d.zoneTripLimits ∨ ∃ t b temp, op = .on t b temp ∧ l.user = (t.zoneId, t.index) := by
  cases op with
  | on t b temp =>
      rcases h with ⟨-, rfl⟩ | ⟨-, pid, n, rfl⟩
      · exact .inl hl
      · rcases Cdev.call_limit_cases hl with hl | ⟨-, rfl⟩
        · exact .inl hl
        · exact .inr ⟨t, b, temp, rfl, rfl⟩
  | off t b temp =>
      rcases h with ⟨-, rfl⟩ | ⟨-, pid, n, rfl⟩
      · exact .inl hl
      · rcases Cdev.call_limit_cases hl with hl | ⟨hstate, -⟩
        · exact .inl hl
        · exact absurd hstate (by simp [TripPoint.stateArgs])
  | reset force zoneId tripId =>
      rcases h with ⟨-, -, rfl⟩ | ⟨-, n, rfl⟩
      · exact .inl hl
      · rcases Cdev.call_limit_cases (d := { d with trendIncrease := false }) hl with
          hl | ⟨hstate, -⟩
        · exact .inl hl
        · exact absurd hstate (by simp [Cdev.minStateArgs])

/-- An operation keeps the time of the last action or sets it to one of the clock. -/
theorem Op.Act.stamp {clock : Nat → Int} {op : Op} {d d' : Cdev δ} (h : op.Act clock d d') :
    (d'.lastState = d.lastState ∧ d'.lastActionTime = d.lastActionTime) ∨
      ∃ n, d'.lastActionTime = clock n := by
  have hcall : ∀ (d : Cdev δ) (a : SetStateArgs) (pid : Pid) (n : Nat),
      ((d.thdCdevSetState a pid (clock n)).2.1.lastState = d.lastState ∧
        (d.thdCdevSetState a pid (clock n)).2.1.lastActionTime = d.lastActionTime) ∨
      ∃ n', (d.thdCdevSetState a pid (clock n)).2.1.lastActionTime = clock n' :=
    fun d a pid n => (Cdev.set_state_stamp a pid (clock n)).imp id fun h => ⟨n, h.2⟩
  cases op with
  | on t b temp =>
      rcases h with ⟨-, rfl⟩ | ⟨-, pid, n, rfl⟩
      · exact .inl ⟨rfl, rfl⟩
      · exact hcall d _ pid n
  | off t b temp =>
      rcases h with ⟨-, rfl⟩ | ⟨-, pid, n, rfl⟩
      · exact .inl ⟨rfl, rfl⟩
      · exact hcall d _ pid n
  | reset force zoneId tripId =>
      rcases h with ⟨-, -, rfl⟩ | ⟨-, n, rfl⟩
      · exact .inl ⟨rfl, rfl⟩
      · exact hcall { d with trendIncrease := false } _ .init n

namespace Engine

variable {pref : Pref} {k : Nat}

/-- Notifying the zones one after the other keeps each of them and treats the device on their
behalf. -/
theorem for_zones_notifies {f : Zone → World δ → Zone × World δ} {temps : Zone → Nat → Prop}
    {zones : List Zone} (hf : ∀ z ∈ zones, ∀ w, Zone.Notifies pref (temps z) k z w (f z w))
    (w : World δ) :
    List.Forall₂ Zone.Same zones (forZones f zones w).1 ∧
      ∃ ops, (∀ op ∈ ops, ∃ z ∈ zones, op.OfZone pref (temps z) z k) ∧
        w.Acts k ops (forZones f zones w).2 := by
  induction zones generalizing w with
  | nil => exact ⟨.nil, [], by simp, .refl k w⟩
  | cons z rest ih =>
      obtain ⟨hsame, ops, hops, hacts⟩ := hf z List.mem_cons_self w
      obtain ⟨hrest, ops', hops', hacts'⟩ :=
        ih (fun z hz => hf z (List.mem_cons_of_mem _ hz)) (f z w).2
      refine ⟨.cons hsame hrest, ops ++ ops', fun op hop => ?_, hacts.trans hacts'⟩
      rcases List.mem_append.mp hop with hop | hop
      · exact ⟨z, List.mem_cons_self, hops op hop⟩
      · obtain ⟨z', hz', hop⟩ := hops' op hop
        exact ⟨z', List.mem_cons_of_mem _ hz', hop⟩

/-- A poll treats the device on behalf of the trips of active zones. -/
theorem poll_notifies (e : Engine δ) (p : Poll) (k : Nat) :
    List.Forall₂ Zone.Same e.zones (e.poll p).zones ∧
      ∃ ops, (∀ op ∈ ops, ∃ z ∈ e.zones,
          op.OfZone e.preference (fun _ => z.zoneActive = true) z k) ∧
        (e.world.withClock p.clock).Acts k ops (e.poll p).world := by
  refine for_zones_notifies (fun z _ w => ?_) _
  cases hactive : z.zoneActive with
  | false =>
      rw [Zone.read_zone_temp_inactive hactive]
      exact .refl z w
  | true =>
      obtain ⟨hsame, ops, hops, hacts⟩ :=
        z.read_zone_temp_notifies (p.read z.index) e.preference k w
      exact ⟨hsame, ops, fun op hop => (hops op hop).mono fun _ _ => rfl, hacts⟩

/-- A poll keeps the zones as they were configured. -/
theorem poll_same (e : Engine δ) (p : Poll) : List.Forall₂ Zone.Same e.zones (e.poll p).zones :=
  (e.poll_notifies p 0).1

end Engine

end Thermald
