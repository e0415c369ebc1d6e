import Mathlib.Tactic.FinCases
import Thermald.Lib.Merged
import Thermald.Kernel.TripNumbers

/-!
# The devices of a trip

A trip is bound to devices by `thd_trip_point_add_cdev` and `thd_trip_point_add_cdev_index`. What
both compare is the type of a device: a second binding of a type only changes the influence of the
first one, and the list is sorted again. `trip_cdevs_merged` says what the list holds after any
sequence of such calls. The engine changes between the calls, but no device changes its type.
-/

namespace Thermald

/-- A call that binds a device, given itself or by its index. -/
inductive AddRequest where
  | addCdev (cdev : Nat) (influence samplingPeriod : Int) (targetStateValid : Bool)
      (targetState : Int) (pidParam : Option PidParam) (minMaxValid : Bool)
      (minState maxState : Int)
  | addCdevIndex (index influence : Int)

/-- A call and the engine at its time. -/
structure AddCall (δ : Type) where
  request : AddRequest
  world : World δ

variable {δ : Type}

/-- The record of a call, if there is a device with the index. -/
def AddCall.record (c : AddCall δ) : Option TripCdev :=
  match c.request with
  | .addCdev cdev influence samplingPeriod targetStateValid targetState pidParam minMaxValid
      minState maxState =>
    let valid := pidParam.filter (·.valid)
    some
      { cdev
        influence
        samplingPriod := samplingPeriod
        lastOpTime := 0
        targetStateValid
        targetState
        pidParam := valid.getD ⟨false, 0, 0, 0⟩
        pid := (valid.map fun p => Pid.init.setPidParam p.kp p.ki p.kd).getD .init
        minMaxValid
        minState := if minMaxValid then minState else 0
        maxState := if minMaxValid then maxState else 0 }
  | .addCdevIndex index influence =>
    (c.world.thdGetCdevAtIndex index).map fun k => SysfsZone.indexedCdev k influence

/-- A later binding of the type decides the influence only. -/
def TripCdev.takeInfluence (old new : TripCdev) : TripCdev :=
  { old with influence := new.influence }

/-- The type of a bound device. -/
def TripCdev.deviceType (types : Nat → String) (b : TripCdev) : String := types b.cdev

/-- The influence is no part of the key. -/
theorem take_influence_updates (types : Nat → String) :
    Updates (TripCdev.deviceType types) TripCdev.takeInfluence :=
  ⟨fun _ _ => rfl, fun _ => rfl, fun _ _ _ => rfl⟩

namespace TripPoint

variable [StdSort]

/-- A trip after a call. -/
def addDevice (t : TripPoint) (c : AddCall δ) : TripPoint :=
  match c.request with
  | .addCdev cdev influence samplingPeriod targetStateValid targetState pidParam minMaxValid
      minState maxState =>
    t.thdTripPointAddCdev cdev influence samplingPeriod targetStateValid targetState pidParam
      minMaxValid minState maxState c.world
  | .addCdevIndex index influence => SysfsZone.addCdevIndex t index influence c.world

/-- Both functions hand their record to `trip_cdev_add`. -/
theorem add_device_eq (t : TripPoint) (c : AddCall δ) :
    t.addDevice c = c.record.elim t fun b => t.tripCdevAdd b c.world := by
  obtain ⟨request, w⟩ := c
  cases request with
  | addCdev => rfl
  | addCdevIndex index influence =>
      show SysfsZone.addCdevIndex t index influence w =
        ((w.thdGetCdevAtIndex index).map fun k => SysfsZone.indexedCdev k influence).elim t
          fun b => t.tripCdevAdd b w
      unfold SysfsZone.addCdevIndex
      cases w.thdGetCdevAtIndex index with
      | none => rfl
      | some k => rfl

/-- The devices of a trip are those of the records, merged by type, and the one with the largest
influence comes first. -/
structure DevicesMerged (types : Nat → String) (added : List TripCdev) (t : TripPoint) : Prop where
  merged : Merged (TripCdev.deviceType types) TripCdev.takeInfluence added t.cdevs
  sorted : t.cdevs.Pairwise fun b b' => b'.influence ≤ b.influence

variable {types : Nat → String} {added : List TripCdev} {t : TripPoint}

/-- `trip_cdev_add` sorts the devices. -/
theorem trip_cdev_add_sorted (b : TripCdev) (w : World δ) :
    (t.tripCdevAdd b w).cdevs.Pairwise fun b b' => b'.influence ≤ b.influence := by
  have hkey : KeyOrder tripCdevSort := by
    refine ⟨fun b => -b.influence, fun b b' => ?_⟩
    show decide (b'.influence < b.influence) = decide (-b.influence < -b'.influence)
    exact decide_eq_decide.mpr Int.neg_lt_neg_iff.symm
  refine (StdSort.sorted tripCdevSort _ hkey).imp fun {b b'} h => ?_
  exact not_lt.mp (of_decide_eq_false h)

/-- `trip_cdev_add` merges its record. -/
theorem DevicesMerged.trip_cdev_add (h : t.DevicesMerged types added) (b : TripCdev) {w : World δ}
    (htypes : ∀ k, (w.cdevs k).typeStr = types k) :
    (t.tripCdevAdd b w).DevicesMerged types (added ++ [b]) := by
  refine ⟨?_, trip_cdev_add_sorted b w⟩
  have hupdates := take_influence_updates types
  unfold tripCdevAdd
  simp only [htypes]
  cases hfind : t.cdevs.findIdx? fun c => types c.cdev = types b.cdev with
  | none =>
      refine (h.merged.add_new hupdates fun c hc => ?_).perm (StdSort.perm _ _)
      exact of_decide_eq_false (List.findIdx?_eq_none_iff.mp hfind c hc)
  | some i =>
      obtain ⟨hi, htype, -⟩ := List.findIdx?_eq_some_iff_getElem.mp hfind
      have hold : t.cdevs[i]? = some t.cdevs[i] := List.getElem?_eq_getElem hi
      exact (h.merged.add_known hupdates hold (of_decide_eq_true htype)).perm (StdSort.perm _ _)

/-- So does each call, if it has a record. -/
theorem DevicesMerged.add_device (h : t.DevicesMerged types added) {c : AddCall δ}
    (htypes : ∀ k, (c.world.cdevs k).typeStr = types k) :
    (t.addDevice c).DevicesMerged types (added ++ c.record.toList) := by
  rw [add_device_eq]
  cases c.record with
  | none =>
      rw [Option.toList_none, List.append_nil]
      exact h
  | some b => exact h.trip_cdev_add b htypes

/-- After any calls a trip that had no devices has one for each type that was ever added: no two of
one type, the largest influence first, and each with the influence of the last call for its type
and the other fields of the first one. -/
theorem trip_cdevs_merged (types : Nat → String) (t : TripPoint) (hempty : t.cdevs = [])
    (calls : List (AddCall δ)) (htypes : ∀ c ∈ calls, ∀ k, (c.world.cdevs k).typeStr = types k) :
    (run addDevice t calls).DevicesMerged types (calls.filterMap AddCall.record) := by
  refine run_history (I := fun past (t : TripPoint) =>
    t.DevicesMerged types (past.filterMap AddCall.record)) ?_ ?_
  · rw [List.filterMap_nil]
    refine ⟨?_, ?_⟩
    · rw [hempty]
      exact Merged.nil
    · rw [hempty]
      exact .nil
  · intro past t c hpre h
    have hc : c ∈ calls := hpre.subset (List.mem_append_right past (List.mem_singleton_self c))
    rw [List.filterMap_append]
    have hone : [c].filterMap AddCall.record = c.record.toList := by
      cases hrecord : c.record <;> simp [hrecord]
    rw [hone]
    exact h.add_device (htypes c hc)

/-- Two fans. -/
def fans : World GenSysfs where
  cdevs k := { Cdev.init k ⟨"", []⟩ with typeStr := "Fan" }
  cdevCount := 2
  sensors := []
  pollIntervalSec := 4
  ignoreCritical := false
  clock _ := 0
  ticks := 0
  events := []

omit [StdSort] in
/-- The second fan changes the influence of the first one. -/
theorem two_fans_merged :
    letI := StdSort.insertion
    (run addDevice (.init 0 .passive 50000 0 0 0 .parallel)
      [⟨.addCdev 0 30 0 false 0 none false 0 0, fans⟩, ⟨.addCdevIndex 1 50, fans⟩]).DevicesMerged
        (fun _ => "Fan")
        [SysfsZone.indexedCdev 0 30, SysfsZone.indexedCdev 1 50] := by
  let _ := StdSort.insertion
  refine trip_cdevs_merged (fun _ => "Fan") (.init 0 .passive 50000 0 0 0 .parallel) rfl
    [⟨.addCdev 0 30 0 false 0 none false 0 0, fans⟩, ⟨.addCdevIndex 1 50, fans⟩] ?_
  intro c hc
  fin_cases hc <;> exact fun _ => rfl

end TripPoint

end Thermald
