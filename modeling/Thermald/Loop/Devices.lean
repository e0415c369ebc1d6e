import Thermald.Cooling.ClampOrder
import Thermald.Cooling.Ownership
import Thermald.Cooling.Preference
import Thermald.Loop.Operations

/-!
# Devices in the loop

The trips of the zones act on the devices while the thread notifies zones and while it handles
messages, and requests of the user change zones in between. `Engine.Orderly` is what one expects of
the devices in every state: each limit names an active zone and a trip of it that binds the device,
and no trip has two limits. `orderly_in_loop` proves it for the runs of the loop in which each
operation that takes zones away finds no limit of them.
-/

namespace Thermald

namespace Engine

variable {δ : Type} [CdevClass δ] [StdSort] {e e' : Engine δ}

/-- The limits of the devices are owned by trips of active zones, no trip has two limits of a
device, and the trips carry the index of their zone. -/
structure Orderly (e : Engine δ) : Prop where
  owned : e.Owned
  distinct : ∀ k, (e.world.cdevs k).LimitsDistinct
  numbered : ∀ z ∈ e.zones, z.Numbered

/-- No operation of a zone gives a trip a second limit. -/
theorem act_distinct {clock : Nat → Int} {op : Op} {d d' : Cdev δ} (h : op.Act clock d d')
    (hd : d.LimitsDistinct) : d'.LimitsDistinct := by
  cases op with
  | on t b temp =>
      rcases h with ⟨-, rfl⟩ | ⟨-, pid, n, rfl⟩
      · exact hd
      · exact hd.set_state
  | off t b temp =>
      rcases h with ⟨-, rfl⟩ | ⟨-, pid, n, rfl⟩
      · exact hd
      · exact hd.set_state
  | reset force zoneId tripId =>
      rcases h with ⟨-, -, rfl⟩ | ⟨-, n, rfl⟩
      · exact hd
      · have hd' : Cdev.LimitsDistinct { d with trendIncrease := false } := hd
        exact hd'.set_state

/-- Zones that are notified keep the devices orderly: a limit that is added is one of an active zone
and a trip of it. -/
theorem Orderly.of_notifies (h : e.Orderly) {pref : Pref} {clock : Nat → Int}
    (hsame : List.Forall₂ Zone.Same e.zones e'.zones)
    (hacts : ∀ k, ∃ ops, (∀ op ∈ ops, ∃ z ∈ e.zones,
        op.OfZone pref (fun _ => z.zoneActive = true) z k) ∧
      (e.world.withClock clock).Acts k ops e'.world) : e'.Orderly := by
  refine ⟨fun k => ?_, fun k => ?_, numbered_of_same h.numbered hsame⟩
  · obtain ⟨ops, hops, hacts⟩ := hacts k
    have hlimits : ∀ l ∈ (e'.world.cdevs k).zoneTripLimits, Owns e.zones k l.user := by
      refine hacts.steps.invariant (I := fun d => ∀ l ∈ d.zoneTripLimits, Owns e.zones k l.user)
        ?_ (h.owned k)
      intro op hop d d' hact hd l hl
      rcases hact.limit_cases hl with hl | ⟨t, b, temp, rfl, huser⟩
      · exact hd l hl
      · obtain ⟨z, hz, t₀, ht₀, t', htt', hof⟩ := hops _ hop
        obtain ⟨rfl, -, hactive, -, hcdev, b₀, hb₀, hbb₀⟩ := hof
        obtain ⟨b₁, hb₁, hbb₁⟩ := forall₂_mem_right htt'.cdevs hb₀
        have hindex : t.zoneId = z.index := htt'.zoneId.trans (h.numbered z hz t₀ ht₀)
        rw [huser]
        refine ⟨z, hz, hindex.symm, hactive, t₀, ht₀, htt'.index.symm, b₁, hb₁, ?_⟩
        rw [← hbb₁.cdev, ← hbb₀.cdev, hcdev]
    exact fun l hl => (hlimits l hl).of_same hsame
  · obtain ⟨ops, hops, hacts⟩ := hacts k
    exact hacts.steps.invariant (fun op _ d d' hact hd => act_distinct hact hd) (h.distinct k)

theorem Orderly.poll (h : e.Orderly) (p : Poll) : (e.poll p).Orderly :=
  h.of_notifies (e.poll_same p) fun k => (e.poll_notifies p k).2

/-- What a change of the preference does to the zones and the devices. -/
theorem pref_change_notifies (e : Engine δ) {newPref : Pref} (hpref : newPref ≠ .disabled)
    (p : Poll) (k : Nat) :
    List.Forall₂ Zone.Same e.zones (e.processPrefChange newPref p).zones ∧
      ∃ ops, (∀ op ∈ ops, ∃ z ∈ e.zones,
          op.OfZone newPref (fun _ => z.zoneActive = true) z k) ∧
        (e.world.withClock p.clock).Acts k ops (e.processPrefChange newPref p).world := by
  unfold processPrefChange
  rw [if_neg hpref]
  refine for_zones_notifies (fun z _ w => ?_) (e.world.withClock p.clock)
  cases hactive : z.zoneActive with
  | false =>
      have hsame : z.updateZonePreference (p.read z.index) newPref w = (z, w) := by
        simp [Zone.updateZonePreference, hactive]
      rw [hsame]
      exact .refl z w
  | true =>
      obtain ⟨hsame, zero, now, hzero, hnow, -, hacts⟩ :=
        z.update_zone_preference_acts (p.read z.index) newPref k w
      refine ⟨hsame, zero ++ now, fun op hop => ?_, hacts⟩
      rcases List.mem_append.mp hop with hop | hop
      · exact (hzero op hop).mono fun _ _ => rfl
      · exact (hnow op hop).mono fun _ _ => rfl

theorem Orderly.process_pref_change (h : e.Orderly) (newPref : Pref) (p : Poll) :
    (e.processPrefChange newPref p).Orderly := by
  by_cases hpref : newPref = .disabled
  · unfold processPrefChange
    rw [if_pos hpref]
    exact ⟨h.owned, h.distinct, h.numbered⟩
  · exact h.of_notifies (e.pref_change_notifies hpref p 0).1
      fun k => (e.pref_change_notifies hpref p k).2

/-- A notification of the kernel does what a poll does: an inactive zone ignores both. -/
theorem thermal_zone_change_eq (e : Engine δ) (p : Poll) : e.thermalZoneChange p = e.poll p := by
  have hzone : (fun (z : Zone) (w : World δ) =>
      if z.zoneActive then z.readZoneTemp (p.read z.index) e.preference w else (z, w)) =
        fun z w => z.readZoneTemp (p.read z.index) e.preference w := by
    funext z w
    split
    · rfl
    · rename_i hinactive
      exact (Zone.read_zone_temp_inactive (by simpa using hinactive) _ _ w).symm
  unfold thermalZoneChange poll
  rw [hzone]

end Engine

/-! ## Operations -/

/-- The operation of a request of the user. -/
def UserOp.operation : UserOp → Operation
  | .addZone c => .addZone c
  | .setZoneStatus name status => .setZoneStatus name status
  | .deleteZone name => .deleteZone name

namespace EngineOp

variable {δ : Type} [CdevClass δ] [StdSort]

/-- An operation that takes zones away finds no limit of them, and zones that are found carry their
index. -/
def LeavesNoLimit (e : Engine δ) : EngineOp → Prop
  | .reload zones _ => (∀ z ∈ zones, z.Numbered) ∧ ∀ k, (e.world.cdevs k).zoneTripLimits = []
  | .user op => e.LeavesNoLimit op.operation
  | _ => True

/-- A request of the user is one of the operations on zones. -/
theorem user_step_eq (e : Engine δ) (op : UserOp) : e.userStep op = e.step op.operation := by
  cases op <;> rfl

omit [CdevClass δ] in
/-- A request of the user does nothing to the devices. -/
theorem user_step_cdevs (e : Engine δ) (op : UserOp) :
    (e.userStep op).world.cdevs = e.world.cdevs := by
  cases op with
  | addZone c =>
      unfold Engine.userStep Engine.userAddZone
      dsimp only
      split
      · rfl
      · rename_i z world hzone
        exact (Engine.numbered_dynamic_zone hzone).2
  | setZoneStatus name status =>
      unfold Engine.userStep Engine.userSetZoneStatus
      dsimp only
      split
      · rfl
      · rfl
  | deleteZone name => rfl

/-- An operation keeps the devices orderly if those that take zones away find no limit. -/
theorem orderly_apply {e : Engine δ} (h : e.Orderly) (op : EngineOp) (hop : op.LeavesNoLimit e) :
    (EngineOp.apply e op).Orderly := by
  cases op with
  | notify p => exact h.poll p
  | prefChange newPref p => exact h.process_pref_change newPref p
  | zoneChange p =>
      show (e.thermalZoneChange p).Orderly
      rw [e.thermal_zone_change_eq p]
      exact h.poll p
  | reload zones currentZoneIndex =>
      obtain ⟨howned, hnumbered⟩ := h.owned.step h.numbered (.reloadZones zones currentZoneIndex)
        hop.1 hop.2
      exact ⟨howned, h.distinct, hnumbered⟩
  | update result clock => exact ⟨h.owned, h.distinct, h.numbered⟩
  | user op =>
      have hnumbered : Engine.Operation.Numbered op.operation := by
        cases op <;> trivial
      obtain ⟨howned, hzones⟩ := h.owned.step h.numbered op.operation hnumbered hop
      rw [← user_step_eq] at howned hzones
      refine ⟨howned, fun k => ?_, hzones⟩
      show ((e.userStep op).world.cdevs k).LimitsDistinct
      rw [user_step_cdevs]
      exact h.distinct k

end EngineOp

end Thermald
