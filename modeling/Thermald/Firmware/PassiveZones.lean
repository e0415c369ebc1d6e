import Thermald.Config.NewZones
import Thermald.Firmware.PassiveRoundTrip

/-!
# From the table to the zones

The rows of `PSVT` are written into a file, read by the parser and made into zones by the engine.
`passive_rows_realised` follows a row from one end to the other.
-/

namespace Thermald

namespace Firmware

open XmlText

/-- The type of the zone of a target. -/
def zoneName (devices : List PlatformDevice) (target : String) : String :=
  stringTrim (subtituteString devices .sourceDev target)

namespace FirmwareReads

/-- The targets that have a zone. -/
def zoneTargets (r : FirmwareReads) : List String :=
  (targets r.trtEntries r.artEntries ((r.psvt.getD []).map (·.toPsvtObject))).eraseDups.filter
    fun target => target ≠ ""

/-- The target of a row has a zone. -/
theorem row_target_mem {r : FirmwareReads} {row : PsvtEntry} (hrow : row ∈ r.psvt.getD [])
    (htarget : row.targetDevice ≠ "") : row.targetDevice ∈ r.zoneTargets := by
  unfold zoneTargets targets
  refine List.mem_filter.mpr ⟨List.mem_eraseDups.mpr ?_, decide_eq_true htarget⟩
  rw [List.map_map]
  exact List.mem_append_right _ (List.mem_map_of_mem hrow)

/-- The target has a zone of its own: the zones of the other targets have other names. -/
def Alone (r : FirmwareReads) (target : String) : Prop :=
  ∀ target' ∈ r.zoneTargets, target' ≠ target →
    ¬ Called (zoneName r.devices target) (zoneName r.devices target')

/-- The zones in front of the zone of a target and those behind it have other names. -/
theorem split_zones {r : FirmwareReads} {target : String} (hmem : target ∈ r.zoneTargets)
    (halone : r.Alone target) : ∃ pre post,
      r.zoneTargets.map (psvtZone r.devices (r.psvt.getD [])) =
        pre ++ psvtZone r.devices (r.psvt.getD []) target :: post ∧
      ∀ conf ∈ pre ++ post, ¬ Called (zoneName r.devices target) conf.type := by
  obtain ⟨pre, post, hsplit⟩ := List.append_of_mem hmem
  have hnodup : r.zoneTargets.Nodup := (erase_dups_nodup _).filter _
  refine ⟨pre.map (psvtZone r.devices (r.psvt.getD [])),
    post.map (psvtZone r.devices (r.psvt.getD [])), ?_, fun conf hconf => ?_⟩
  · rw [hsplit, List.map_append, List.map_cons]
  · rw [← List.map_append] at hconf
    obtain ⟨target', hother, rfl⟩ := List.mem_map.mp hconf
    rw [hsplit, List.nodup_middle, List.nodup_cons] at hnodup
    refine halone target' ?_ fun heq => hnodup.1 (heq ▸ hother)
    rw [hsplit]
    rcases List.mem_append.mp hother with hpre | hpost
    · exact List.mem_append_left _ hpre
    · exact List.mem_append_right _ (List.mem_cons_of_mem _ hpost)

end FirmwareReads

section Zones

variable {δ : Type}

/-- A zone of `PSVT` whose rows have a temperature is usable where its sensor is there. -/
theorem psvt_zone_usable {devices : List PlatformDevice} {psvt : List PsvtEntry} {target : String}
    {w : World δ} (htemp : ∀ row ∈ psvt, row.targetDevice = target → row.readTemperature ≠ 0)
    (hsensor : (w.searchSensor (stringTrim target)).isSome = true) :
    (psvtZone devices psvt target).usable w = true := by
  rw [ThermalZoneConf.usable_iff]
  intro c hc
  obtain ⟨row, hrow, rfl⟩ := List.mem_map.mp hc
  obtain ⟨hrow, htarget⟩ := List.mem_filter.mp hrow
  have htarget : row.targetDevice = target := of_decide_eq_true htarget
  refine ⟨htemp row hrow htarget, ?_, nofun⟩
  show ∃ s, w.searchSensor (stringTrim row.targetDevice) = some s
  rw [htarget]
  exact Option.isSome_iff_exists.mp hsensor

variable [StdSort] {ctx : Engine.ReadContext} {e : Engine δ}

/-- The rows of a target with a zone of its own are realised. -/
theorem psvt_rows_realised {r : FirmwareReads} {target : String} (hmem : target ∈ r.zoneTargets)
    (halone : r.Alone target) (hnew : e.searchZone (zoneName r.devices target) = none)
    (husable : (psvtZone r.devices (r.psvt.getD []) target).usable e.world = true)
    (husr : ctx.usrPsvTemp (zoneName r.devices target) ≤ 0) :
    ∀ c ∈ (psvtZone r.devices (r.psvt.getD []) target).tripPts,
      (e.readThermalZones ctx (r.zoneTargets.map (psvtZone r.devices (r.psvt.getD [])))).Realises
        (zoneName r.devices target) c := by
  obtain ⟨pre, post, hzones, hothers⟩ := FirmwareReads.split_zones hmem halone
  rw [hzones]
  refine Engine.new_zone_realised
    (fun conf hconf => hothers conf (List.mem_append_left _ hconf))
    (fun conf hconf => hothers conf (List.mem_append_right _ hconf)) hnew husable
    (fun c hc b hb => ?_) fun hpos => absurd hpos (Int.not_lt.mpr husr)
  obtain ⟨row', -, rfl⟩ := List.mem_map.mp hc
  obtain rfl := List.mem_singleton.mp hb
  exact ⟨rfl, rfl⟩

end Zones

/-- An engine with the sensor of the target and without zones. -/
def sensorEngine : Engine Unit where
  zones := []
  world :=
    { cdevs := fun k => { Cdev.init k () with typeStr := "rapl_controller" }
      cdevCount := 1
      sensors := [⟨0, .raw, "SEN1", false, false⟩]
      pollIntervalSec := 4
      ignoreCritical := false
      clock := fun n => n
      ticks := 0
      events := [] }
  preference := .energyConserve
  status := true
  currentZoneIndex := 0

end Firmware

end Thermald
