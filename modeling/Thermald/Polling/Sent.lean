import Mathlib.Data.List.Infix
import Thermald.Adaptive.Effects
import Thermald.Polling.Critical

/-!
# Which operations send messages

A poll and a change of the preference check the trips of the zones and only add to the messages
(`poll_sends`, `process_pref_change_sends`). The operations on the list of trips program thresholds
but send no message, and a reset of a zone sends nothing, so the requests of the user and the
replacement of a policy are silent.
-/

namespace Thermald

namespace World

variable {δ : Type} {w w' w'' : World δ}

/-- Messages are only added. -/
def Sends (w w' : World δ) : Prop := w.messages <+: w'.messages

/-- No message is sent. -/
def Silent (w w' : World δ) : Prop := w'.messages = w.messages

theorem Sends.refl (w : World δ) : w.Sends w := List.prefix_rfl

theorem Sends.trans (h : w.Sends w') (h' : w'.Sends w'') : w.Sends w'' := List.IsPrefix.trans h h'

theorem Silent.refl (w : World δ) : w.Silent w := rfl

theorem Silent.trans (h : w.Silent w') (h' : w'.Silent w'') : w.Silent w'' := Eq.trans h' h

theorem Silent.sends (h : w.Silent w') : w.Sends w' := by
  unfold Sends
  rw [h]

theorem Quiet.silent (h : w.Quiet w') : w.Silent w' := h.messages_eq

/-- Where events are added, so are messages. -/
theorem sends_of_events (h : ∃ more, w'.events = w.events ++ more) : w.Sends w' := by
  obtain ⟨more, hmore⟩ := h
  refine ⟨more.filterMap Event.message?, ?_⟩
  rw [messages, messages, hmore, List.filterMap_append]

/-- Programming a threshold sends no message. -/
theorem threshold_silent (w : World δ) (sensors : List Sensor) (pollIntervalSec : Int)
    (temp : Nat) :
    w.Silent (w.emit (sensors.flatMap fun s => s.setThreshold pollIntervalSec temp)) := by
  have hnone : (sensors.flatMap fun s => s.setThreshold pollIntervalSec temp).filterMap
      Event.message? = [] := by
    refine List.filterMap_eq_nil_iff.mpr fun event hevent => ?_
    obtain ⟨s, -, hs⟩ := List.mem_flatMap.mp hevent
    unfold Sensor.setThreshold at hs
    split at hs
    · rw [List.mem_singleton.mp hs]
      rfl
    · cases hs
  unfold Silent
  rw [messages_emit, hnone, List.append_nil]

end World

/-! ## Checks -/

namespace Zone

variable {δ : Type} [CdevClass δ] [StdSort]

/-- The loop over the trips only adds messages. -/
theorem check_trips_sends (id : Int) (temp : Nat) (pref : Pref) (trips : List TripPoint)
    (w : World δ) : w.Sends (checkTrips id temp pref trips w).2.2 := by
  induction trips generalizing w with
  | nil => exact .refl w
  | cons t rest ih =>
      have hcheck := World.sends_of_events (t.check_events id temp pref w)
      rw [checkTrips]
      dsimp only
      split
      · exact hcheck
      · exact hcheck.trans (ih _)

theorem thermal_zone_temp_change_sends (z : Zone) (id : Int) (temp : Nat) (pref : Pref)
    (w : World δ) : w.Sends (z.thermalZoneTempChange id temp pref w).2 := by
  have hcheck := check_trips_sends id temp pref z.tripPoints w
  unfold thermalZoneTempChange
  dsimp only
  split
  · exact hcheck.trans (zone_reset_quiet _ _ _).silent.sends
  · exact hcheck

theorem read_sensors_sends (read : Int → Nat) (pref : Pref) (sensors : List Sensor) (z : Zone)
    (w : World δ) : w.Sends (readSensors read pref sensors z w).2 := by
  induction sensors generalizing z w with
  | nil => exact .refl w
  | cons s rest ih =>
      rw [readSensors]
      dsimp only
      split
      · exact (thermal_zone_temp_change_sends _ _ _ _ w).trans (ih _ _)
      · exact ih _ _

theorem read_zone_temp_sends (z : Zone) (read : Int → Nat) (pref : Pref) (w : World δ) :
    w.Sends (z.readZoneTemp read pref w).2 := by
  have hread := read_sensors_sends read pref z.sensors { z with zoneTemp := 0 } w
  unfold readZoneTemp
  split
  · dsimp only
    split
    · split
      · exact hread.trans (thermal_zone_temp_change_sends _ _ _ _ _)
      · exact hread
    · exact hread
  · exact .refl w

theorem feed_sensors_sends (read : Int → Nat) (temp : Nat → Nat) (pref : Pref)
    (sensors : List Sensor) (z : Zone) (w : World δ) :
    w.Sends (feedSensors read temp pref sensors z w).2 := by
  induction sensors generalizing z w with
  | nil => exact .refl w
  | cons s rest ih => exact (thermal_zone_temp_change_sends _ _ _ _ w).trans (ih _ _)

theorem update_zone_preference_sends (z : Zone) (read : Int → Nat) (pref : Pref) (w : World δ) :
    w.Sends (z.updateZonePreference read pref w).2 := by
  unfold updateZonePreference
  split
  · exact (feed_sensors_sends ..).trans (feed_sensors_sends ..)
  · exact .refl w

/-! ## The list of trips -/

omit [CdevClass δ]

theorem sort_and_update_poll_trip_silent (z : Zone) (w : World δ) :
    w.Silent (z.sortAndUpdatePollTrip w).2 := by
  unfold sortAndUpdatePollTrip
  dsimp only
  split
  · exact .refl w
  · exact w.threshold_silent _ _ _

theorem add_trip_silent (z : Zone) (trip : TripPoint) (force : Bool) (w : World δ) :
    w.Silent (z.addTrip trip force w).2 :=
  sort_and_update_poll_trip_silent _ w

theorem psvt_consolidate_silent (z : Zone) (w : World δ) : w.Silent (z.psvtConsolidate w).2 := by
  obtain ⟨-, hrun⟩ | ⟨t, u, k, target, -, -, -, hrun⟩ := z.psvt_consolidate_cases w
  · rw [hrun]
    exact .refl w
  · rw [hrun]
    exact add_trip_silent ..

theorem update_highest_trip_temp_silent (z : Zone) (trip : TripPoint) (w : World δ) :
    w.Silent (z.updateHighestTripTemp trip w).2 := by
  unfold updateHighestTripTemp
  split
  · exact .refl w
  · exact sort_and_update_poll_trip_silent _ w

theorem finish_update_silent (z : Zone) (usrPsvTemp : Int) (w : World δ) :
    w.Silent (z.finishUpdate usrPsvTemp w).2 := by
  unfold finishUpdate
  dsimp only
  refine World.Silent.trans ?_ (sort_and_update_poll_trip_silent _ _)
  split
  · exact update_highest_trip_temp_silent ..
  · exact .refl w

end Zone

/-! ## The engine -/

namespace Engine

variable {δ : Type}

/-- What the zones do one after the other. -/
theorem for_zones_relates {R : World δ → World δ → Prop} (hrefl : ∀ w, R w w)
    (htrans : ∀ {w w' w''}, R w w' → R w' w'' → R w w'') {f : Zone → World δ → Zone × World δ}
    (hf : ∀ z w, R w (f z w).2) (zones : List Zone) (w : World δ) : R w (forZones f zones w).2 := by
  induction zones generalizing w with
  | nil => exact hrefl w
  | cons z rest ih => exact htrans (hf z w) (ih _)

theorem for_zones_sends {f : Zone → World δ → Zone × World δ} (hf : ∀ z w, World.Sends w (f z w).2)
    (zones : List Zone) (w : World δ) : w.Sends (forZones f zones w).2 :=
  for_zones_relates .refl .trans hf zones w

theorem for_zones_silent {f : Zone → World δ → Zone × World δ}
    (hf : ∀ z w, World.Silent w (f z w).2)
    (zones : List Zone) (w : World δ) : w.Silent (forZones f zones w).2 :=
  for_zones_relates .refl .trans hf zones w

variable [StdSort]

/-- A zone of the user is added silently. -/
theorem user_add_zone_silent (e : Engine δ) (c : DynamicZone) :
    e.world.Silent (e.userAddZone c).2.world := by
  unfold userAddZone
  split
  · exact .refl _
  · rename_i z world hzone
    unfold dynamicZone at hzone
    simp only [Option.bind_eq_bind, Option.pure_def, Option.bind_eq_some_iff, Option.some.injEq]
      at hzone
    obtain ⟨s, -, t, -, hfinish⟩ := hzone
    have hsilent : e.world.Silent (z, world).2 := by
      rw [← hfinish]
      exact Zone.finish_update_silent _ _ e.world
    exact hsilent

theorem psvt_consolidate_silent (e : Engine δ) : e.world.Silent e.psvtConsolidate.world :=
  for_zones_silent (fun z w => z.psvt_consolidate_silent w) e.zones e.world

variable [CdevClass δ]

/-- A poll of the zones only adds messages. -/
theorem poll_sends (e : Engine δ) (p : Poll) : e.world.Sends (e.poll p).world :=
  for_zones_sends (fun z w => z.read_zone_temp_sends _ _ w) e.zones (e.world.withClock p.clock)

/-- A change of the preference only adds messages. -/
theorem process_pref_change_sends (e : Engine δ) (newPref : Pref) (p : Poll) :
    e.world.Sends (e.processPrefChange newPref p).world := by
  unfold processPrefChange
  split
  · exact .refl _
  · exact for_zones_sends (fun z w => z.update_zone_preference_sends _ _ w) e.zones
      (e.world.withClock p.clock)

/-- The zones are cleared silently. -/
theorem clear_zones_silent (e : Engine δ) (keep : Zone → Bool) :
    e.world.Silent (e.clearZones keep).world := by
  refine for_zones_silent (fun z w => ?_) e.zones e.world
  split
  · exact .refl w
  · exact (z.zone_reset_quiet true w).silent

end Engine

end Thermald
