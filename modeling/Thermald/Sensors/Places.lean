import Thermald.Sensors.Engine

/-!
# Sensors and their places

A polling trip keeps the index of its sensor, and the engine finds a sensor by taking its index for
its place. The numbers of the kernel's zones are not places: the directory is read in any order,
numbers may be missing, and a zone that is rejected leaves its number behind. A virtual sensor that
needs the power sensor has the same index as that one.

`in_place_iff` says exactly for which zones and which later sensors every sensor is at the place
that its index names.
-/

namespace Thermald

/-- What adds sensors after the zones of the kernel have been read: an input of the hardware
monitor, the power sensor of the debug mode, the configuration, the power floor, a data vault, and
users. -/
inductive SensorStep where
  | hwmon (path : String)
  | debugPower (updates : Bool)
  | configured (c : SensorConf)
  | powerFloor (updates : Bool)
  | vault (name : String) (targets : List TargetConf) (table : List PollingTableEntry)
      (updates : Bool)
  | userSensor (name path : String) (updates : Bool)
  | userVirtual (name depSensor : String) (slope intercept : ℚ)

namespace SensorEngine

/-- One step of adding sensors. -/
def step (e : SensorEngine) : SensorStep → SensorEngine
  | .hwmon path => e.addRaw "hwmon" path true
  | .debugPower updates => e.addRaw raplPkgPower "/sys/class/powercap/intel-rapl" updates
  | .configured c => e.addConfigured c
  | .powerFloor updates =>
      e.addRaw "power_floor" "/sys/bus/pci/devices/0000:00:04.0/power_limits/power_floor_status"
        updates
  | .vault name targets table updates => e.addVaultSensor name targets table updates
  | .userSensor name path updates => (e.userAddSensor name path updates).2
  | .userVirtual name depSensor slope intercept =>
      (e.userAddVirtualSensor name depSensor slope intercept).2

/-- `get_sensor` finds every sensor by its index. -/
def InPlace (e : SensorEngine) : Prop :=
  ∀ (place : Nat) s, e.sensors[place]? = some s → e.getSensor s.index = some place

/-! ## The numbers of sensors that a step appends -/

/-- The targets make the engine add the power sensor. -/
def needsPower (e : SensorEngine) (targets : List TargetConf) : Bool :=
  targets.any (fun t => t.powerSensor) && (e.searchSensor raplPkgPower).isNone

/-- The name is new and the path is one of a sensor. -/
def newFile (found : Option Nat) (path : String) (updates : Bool) : Bool :=
  found.isNone && sysPath path && updates

/-- How many sensors the step appends. -/
def pushes (e : SensorEngine) : SensorStep → Nat
  | .hwmon _ => 1
  | .debugPower updates => updates.toNat
  | .configured (.raw name path updates) => (newFile (e.searchSensor name) path updates).toNat
  | .configured (.linked name _ _ _ _) => (e.searchSensor name).isNone.toNat
  | .configured (.weighted name targets _ updates) =>
      if (e.searchSensor name).isSome then 0 else 1 + (e.needsPower targets && updates).toNat
  | .powerFloor updates => updates.toNat
  | .vault _ targets _ updates =>
      if e.needsPower targets && !updates then 0
      else 1 + (e.needsPower targets && updates).toNat
  | .userSensor name path updates =>
      (newFile (e.sensors.findIdx? fun s => decide (s.typeStr = name)) path updates).toNat
  | .userVirtual name _ _ _ =>
      (e.sensors.findIdx? fun s => decide (s.typeStr = name)).isNone.toNat

/-- The indices of the sensors. -/
def indices (e : SensorEngine) : List Int := e.sensors.map fun s => s.index

/-- The step has appended `n` sensors with the index that was current before it. -/
structure Grew (e : SensorEngine) (n : Nat) (e' : SensorEngine) : Prop where
  indices : e'.indices = e.indices ++ List.replicate n e.currentSensorIndex
  current : e'.currentSensorIndex = e.currentSensorIndex + n

variable {e : SensorEngine}

theorem Grew.refl (e : SensorEngine) : Grew e 0 e := ⟨by simp, by simp⟩

/-- A sensor with the current index is appended. -/
theorem grew_push {s : EngineSensor} (h : s.index = e.currentSensorIndex) :
    Grew e 1 (e.push s) := by
  constructor
  · simp [SensorEngine.indices, push, h]
  · simp [push]

theorem grew_addRaw (typeStr path : String) (updates : Bool) :
    Grew e updates.toNat (e.addRaw typeStr path updates) := by
  cases updates with
  | true => exact grew_push rfl
  | false => exact .refl e

/-- A sensor that is not new keeps its index. -/
theorem grew_updatePath (place : Nat) (path : String) : Grew e 0 (e.updatePath place path) := by
  unfold updatePath
  split
  · refine ⟨?_, by simp⟩
    rw [List.replicate_zero, List.append_nil]
    exact map_modify_same (fun s => s.index) e.sensors place fun _ => rfl
  · exact .refl e

/-- The power sensor is found once it is there. -/
theorem searchSensor_push {s : EngineSensor} (h : s.typeStr = raplPkgPower) :
    ((e.push s).searchSensor raplPkgPower).isSome = true := by
  simp [searchSensor, push, h]

/-- The power sensor is added where it is missing. -/
theorem addRaplPower_of_missing (h : (e.searchSensor raplPkgPower).isNone = true) (updates : Bool) :
    e.addRaplPower updates =
      e.addRaw raplPkgPower "/sys/class/powercap/intel-rapl" updates := by
  have hnot : ¬(e.searchSensor raplPkgPower).isSome = true := by
    rw [Option.isNone_iff_eq_none] at h
    simp [h]
  rw [addRaplPower, if_neg hnot]

/-- The loop over the targets adds the power sensor at most once. -/
theorem addTargets_engine (updates : Bool) (targets : List TargetConf) (v : VirtualSensor) :
    (targets.foldl (addTargets updates) (e, v)).1 =
      if e.needsPower targets && updates then e.addRaplPower true else e := by
  induction targets generalizing e v with
  | nil => rfl
  | cons t rest ih =>
      rw [List.foldl_cons]
      show (rest.foldl (addTargets updates)
        (if t.powerSensor then e.addRaplPower updates else e, _)).1 = _
      rw [ih]
      cases hpower : t.powerSensor with
      | false => simp [needsPower, hpower]
      | true =>
          rw [if_pos rfl]
          cases hfound : (e.searchSensor raplPkgPower).isNone with
          | false =>
              have hsome : (e.searchSensor raplPkgPower).isSome = true := by
                rw [← Option.not_isNone, hfound]
                rfl
              have hsame : e.addRaplPower updates = e := by rw [addRaplPower, if_pos hsome]
              rw [hsame]
              simp [needsPower, hfound]
          | true =>
              cases updates with
              | false => simp [addRaplPower_of_missing hfound, addRaw]
              | true =>
                  -- from now on the power sensor is there
                  have hthere : ((e.addRaplPower true).searchSensor raplPkgPower).isNone =
                      false := by
                    rw [addRaplPower_of_missing hfound, addRaw, if_pos rfl, ← Option.not_isSome,
                      searchSensor_push rfl]
                    rfl
                  simp [needsPower, hpower, hfound, hthere]

/-- The power sensor of the targets has the current index. -/
theorem grew_addTargets (updates : Bool) (targets : List TargetConf) (v : VirtualSensor) :
    Grew e (e.needsPower targets && updates).toNat
      (targets.foldl (addTargets updates) (e, v)).1 := by
  rw [addTargets_engine]
  cases hneeds : e.needsPower targets && updates with
  | false => exact .refl e
  | true =>
      have hmissing : (e.searchSensor raplPkgPower).isNone = true := by
        unfold needsPower at hneeds
        exact (Bool.and_eq_true_iff.mp (Bool.and_eq_true_iff.mp hneeds).1).2
      rw [if_pos rfl, addRaplPower_of_missing hmissing]
      exact grew_addRaw _ _ true

/-- A virtual sensor with the index from before is appended. -/
theorem Grew.push {n : Nat} {e' : SensorEngine} (h : Grew e n e') {s : EngineSensor}
    (hs : s.index = e.currentSensorIndex) : Grew e (1 + n) (e'.push s) := by
  constructor
  · have hindices : (e'.push s).indices = e'.indices ++ [s.index] := by
      simp [SensorEngine.indices, SensorEngine.push]
    rw [hindices, h.indices, hs, Nat.add_comm, List.replicate_succ', List.append_assoc]
  · show e'.currentSensorIndex + 1 = _
    rw [h.current]
    omega

/-- A file is a new sensor, the new path of a known one, or nothing. -/
theorem grew_file (found : Option Nat) (name path : String) (updates : Bool) :
    Grew e (newFile found path updates).toNat
      (match found with
      | some place => e.updatePath place path
      | none => if sysPath path then e.addRaw name path updates else e) := by
  cases found with
  | some place => exact grew_updatePath place path
  | none =>
      dsimp only
      unfold newFile
      cases hpath : sysPath path with
      | true =>
          rw [if_pos rfl]
          exact grew_addRaw name path updates
      | false =>
          rw [if_neg Bool.false_ne_true]
          exact .refl e

/-- One sensor of the configuration. -/
theorem grew_configured (c : SensorConf) :
    Grew e (e.pushes (.configured c)) (e.addConfigured c) := by
  cases c with
  | raw name path updates => exact grew_file (e.searchSensor name) name path updates
  | linked name link multiplier offset table =>
      unfold addConfigured pushes
      dsimp only
      cases e.searchSensor name with
      | some place => exact .refl e
      | none => exact grew_push rfl
  | weighted name targets table updates =>
      unfold addConfigured pushes
      dsimp only
      cases e.searchSensor name with
      | some place => exact .refl e
      | none => exact (grew_addTargets updates targets _).push rfl

/-- The virtual sensor of a data vault. -/
theorem grew_vault (name : String) (targets : List TargetConf) (table : List PollingTableEntry)
    (updates : Bool) :
    Grew e (e.pushes (.vault name targets table updates))
      (e.addVaultSensor name targets table updates) := by
  unfold addVaultSensor pushes
  dsimp only
  show Grew e _ (if e.needsPower targets && !updates then e else _)
  cases e.needsPower targets && !updates with
  | true => exact .refl e
  | false => exact (grew_addTargets updates targets _).push rfl

/-- A sensor of a user. -/
theorem grew_userSensor (name path : String) (updates : Bool) :
    Grew e (e.pushes (.userSensor name path updates)) (e.userAddSensor name path updates).2 := by
  have hfile := grew_file (e := e)
    (e.sensors.findIdx? fun s => decide (s.typeStr = name)) name path updates
  unfold userAddSensor
  cases hpath : sysPath path with
  | false =>
      have hzero : e.pushes (.userSensor name path updates) = 0 := by
        simp [pushes, newFile, hpath]
      rw [hzero]
      exact .refl e
  | true =>
      rw [hpath, if_pos rfl] at hfile
      rw [Bool.not_true, if_neg Bool.false_ne_true]
      show Grew e (newFile (e.sensors.findIdx? fun s => decide (s.typeStr = name))
        path updates).toNat _
      revert hfile
      cases e.sensors.findIdx? fun s => decide (s.typeStr = name) with
      | some place => exact id
      | none => exact id

/-- A virtual sensor of a user. One that is there is changed and keeps its index. -/
theorem grew_userVirtual (name depSensor : String) (slope intercept : ℚ) :
    Grew e (e.pushes (.userVirtual name depSensor slope intercept))
      (e.userAddVirtualSensor name depSensor slope intercept).2 := by
  unfold userAddVirtualSensor pushes
  dsimp only
  cases e.sensors.findIdx? fun s => decide (s.typeStr = name) with
  | none => exact grew_push rfl
  | some place =>
      dsimp only
      cases hat : e.sensors[place]? with
      | none => exact .refl e
      | some s =>
          dsimp only
          split
          next v _ =>
              refine ⟨?_, by simp⟩
              rw [Option.isNone_some, Bool.toNat_false, List.replicate_zero, List.append_nil]
              exact map_modify_same (fun s => s.index) e.sensors place fun _ => rfl
          next => exact .refl e

/-- Every step appends its number of sensors, all with the current index. -/
theorem grew_step (e : SensorEngine) (s : SensorStep) : Grew e (e.pushes s) (e.step s) := by
  cases s with
  | hwmon path => exact grew_addRaw _ _ true
  | debugPower updates => exact grew_addRaw _ _ updates
  | powerFloor updates => exact grew_addRaw _ _ updates
  | configured c => exact grew_configured c
  | vault name targets table updates => exact grew_vault name targets table updates
  | userSensor name path updates =>
      exact grew_userSensor name path updates
  | userVirtual name depSensor slope intercept =>
      exact grew_userVirtual name depSensor slope intercept

/-! ## Places -/

/-- Every sensor is at its place exactly if the indices count from zero. -/
theorem in_place_iff_indices (e : SensorEngine) :
    e.InPlace ↔ ∀ (place : Nat) (index : Int), e.indices[place]? = some index → index = place := by
  constructor
  · intro h place index hindex
    obtain ⟨s, hs, rfl⟩ := Option.map_eq_some_iff.mp (List.getElem?_map ▸ hindex)
    have hfound := h place s hs
    unfold getSensor at hfound
    split at hfound
    next hrange =>
        have := Option.some.inj hfound
        omega
    next => exact absurd hfound.symm (Option.some_ne_none place)
  · intro h place s hs
    have hlt := (List.getElem?_eq_some_iff.mp hs).1
    have hindex : s.index = place := h place s.index (by rw [indices, List.getElem?_map, hs]; rfl)
    rw [getSensor, if_pos ⟨by omega, by omega⟩, hindex, Int.toNat_natCast]

/-- A step fits if it appends at most one sensor, and the current index is the next place if it
appends one. -/
def Fits (e : SensorEngine) (s : SensorStep) : Prop :=
  e.pushes s ≤ 1 ∧ (e.pushes s = 1 → e.currentSensorIndex = e.sensors.length)

/-- No step puts a sensor right that is not at its place. -/
theorem Grew.in_place_before {n : Nat} {e' : SensorEngine} (h : Grew e n e') (hplace : e'.InPlace) :
    e.InPlace := by
  rw [in_place_iff_indices] at hplace ⊢
  intro place index hindex
  refine hplace place index ?_
  have hlt := (List.getElem?_eq_some_iff.mp hindex).1
  rw [h.indices, List.getElem?_append_left hlt]
  exact hindex

/-- A step keeps every sensor at its place exactly if it fits. -/
theorem step_in_place_iff (hplace : e.InPlace) (s : SensorStep) :
    (e.step s).InPlace ↔ e.Fits s := by
  have hgrew := grew_step e s
  have hlen : e.indices.length = e.sensors.length := List.length_map ..
  rw [in_place_iff_indices] at hplace ⊢
  unfold Fits
  rw [hgrew.indices]
  constructor
  · intro h
    have hat : ∀ k, k < e.pushes s → e.currentSensorIndex = (e.sensors.length + k : Nat) := by
      intro k hk
      refine h (e.sensors.length + k) e.currentSensorIndex ?_
      rw [List.getElem?_append_right (by omega), List.getElem?_replicate, if_pos (by omega)]
    refine ⟨?_, fun hone => ?_⟩
    · by_contra htwo
      have hfirst := hat 0 (by omega)
      have hsecond := hat 1 (by omega)
      omega
    · have hfirst := hat 0 (by omega)
      omega
  · intro h place index hindex
    by_cases hold : place < e.indices.length
    · rw [List.getElem?_append_left hold] at hindex
      exact hplace place index hindex
    · -- the only new place is the next one
      rw [List.getElem?_append_right (by omega), List.getElem?_replicate] at hindex
      split at hindex
      next hnew =>
          have hone : e.pushes s = 1 := by omega
          have hnext := h.2 hone
          have hvalue := Option.some.inj hindex
          omega
      next => exact absurd hindex.symm (Option.some_ne_none index)

/-- The zones that are accepted, in the order of the directory. -/
def accepted (zones : List ThermalZoneEntry) : List ThermalZoneEntry :=
  zones.filter fun z => z.typeStr.isSome

/-- The zones are numbered in the order of the directory, without a gap. -/
def NumberedInOrder (zones : List ThermalZoneEntry) : Prop :=
  ∀ (place : Nat) z, (accepted zones)[place]? = some z → z.number = place

/-- The sensors of the kernel have the numbers of their zones. -/
theorem default_indices (zones : List ThermalZoneEntry) :
    (init.thdReadDefaultThermalSensors zones).indices =
      (accepted zones).map fun z => z.number := by
  show List.map (fun s : EngineSensor => s.index)
    ([] ++ zones.filterMap fun z : ThermalZoneEntry => z.typeStr.map fun typeStr =>
      (⟨z.number, typeStr, z.path, none⟩ : EngineSensor)) = _
  rw [List.nil_append]
  induction zones with
  | nil => rfl
  | cons z rest ih =>
      cases htype : z.typeStr with
      | none => simpa [accepted, htype] using ih
      | some typeStr => simpa [accepted, htype] using ih

theorem default_in_place_iff (zones : List ThermalZoneEntry) :
    (init.thdReadDefaultThermalSensors zones).InPlace ↔ NumberedInOrder zones := by
  rw [in_place_iff_indices, default_indices]
  unfold NumberedInOrder
  constructor
  · intro h place z hz
    exact h place z.number (by rw [List.getElem?_map, hz]; rfl)
  · intro h place index hindex
    obtain ⟨z, hz, rfl⟩ := Option.map_eq_some_iff.mp (List.getElem?_map ▸ hindex)
    exact h place z hz

/-- Every sensor is found by its index after any later additions, exactly if the accepted zones are
numbered in the order of the directory without a gap, and every addition fits. -/
theorem in_place_iff (zones : List ThermalZoneEntry) (steps : List SensorStep) :
    (run step (init.thdReadDefaultThermalSensors zones) steps).InPlace ↔
      NumberedInOrder zones ∧
        Meets step Fits (init.thdReadDefaultThermalSensors zones) steps := by
  rw [← default_in_place_iff]
  generalize init.thdReadDefaultThermalSensors zones = e
  induction steps generalizing e with
  | nil => exact ⟨fun h => ⟨h, trivial⟩, fun h => h.1⟩
  | cons s rest ih =>
      rw [run_cons, ih]
      constructor
      · intro h
        have hplace := (grew_step e s).in_place_before h.1
        exact ⟨hplace, (step_in_place_iff hplace s).mp h.1, h.2⟩
      · intro h
        exact ⟨(step_in_place_iff h.1 s).mpr h.2.1, h.2.2⟩

/-- Two zones of the kernel, listed in the wrong order. -/
def swappedZones : List ThermalZoneEntry :=
  [⟨1, "/sys/class/thermal/thermal_zone1/", some "x86_pkg_temp"⟩,
    ⟨0, "/sys/class/thermal/thermal_zone0/", some "acpitz"⟩]

/-- The index of the first sensor leads to the second one. -/
theorem swapped_not_in_place :
    ¬(run step (init.thdReadDefaultThermalSensors swappedZones) []).InPlace := by
  intro h
  have hfirst := h 0 _ rfl
  exact absurd hfirst (by decide)

end SensorEngine

end Thermald
