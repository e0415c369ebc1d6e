import Thermald.Lib.Merged
import Thermald.Config.Indices
import Thermald.Config.Info

/-!
# Trip numbers of the kernel

A thermal zone of the kernel has numbered trip points, and a link to each cooling device with the
number of the trip point that the device is for. `cthd_sysfs_zone` makes trips out of the trip
points that it can use, and takes the number of a link as a position in the list of these trips.
Trip points that it cannot use have no place in the list, and a passive temperature set by the user
sorts the list before the links are read.

`zone_update_binds_iff` says exactly when the devices end up at the trips made from the trip points
that the links name, and `placed_of_numbers` that it is enough if the numbers are the positions.
-/

namespace Thermald

/-! ## Files -/

/-- A file with a number, as `csys_fs::read` finds it. -/
inductive NumberFile where
  | absent
  | unreadable
  | empty
  | value (n : Int)
  deriving DecidableEq, Repr

/-- What is read over a default. There is no result if the read fails. -/
def NumberFile.read (f : NumberFile) (default : Int) : Option Int :=
  match f with
  | absent => some default
  | unreadable => none
  | empty => some default
  | value n => some n

/-- The files of a trip point. The text of a missing file is empty. -/
structure KernelTrip where
  type : String
  temp : NumberFile
  writable : Bool
  hyst : NumberFile

/-- The files of a link: the trip point and the target of the link. -/
structure KernelCdev where
  tripPoint : NumberFile
  link : Option String

/-- The directory of a zone, by the numbers in the names of the files. -/
structure ZoneFiles where
  trip : Nat → KernelTrip
  cdev : Nat → KernelCdev

/-- `max_trip_points`. -/
abbrev maxTripPoints : Nat := 50

/-- `max_cool_devs`. -/
abbrev maxCoolDevs : Nat := 50

namespace KernelTrip

/-- The type of a trip from the text of the kernel. -/
def tripType (t : KernelTrip) : TripPointType :=
  if t.type = "critical" then .critical
  else if t.type = "hot" then .max
  else if t.type = "active" then .active
  else if t.type = "passive" then .passive
  else .invalidTripType

/-- The hysteresis: a value that was read is replaced if it is out of range. -/
def readHyst (t : KernelTrip) : Option Int :=
  match t.hyst with
  | .absent => some 1
  | f => (f.read 1).map fun hyst => if hyst < 1000 ∨ 5000 < hyst then 1000 else hyst

/-- The mode of the temperature file has the write bit for the owner. -/
def wrMode (t : KernelTrip) : Bool :=
  t.temp ≠ .absent && t.writable

end KernelTrip

/-- `strstr`, from the end of what was found. -/
def behind (needle text : String) : Option String :=
  (text.toList.tails.find? fun rest => needle.toList.isPrefixOf rest).map fun rest =>
    String.ofList (rest.drop needle.toList.length)

/-- The number of a cooling device from the target of a link, of which 50 characters are read. -/
def KernelCdev.number (c : KernelCdev) : Option Int :=
  c.link.bind fun link => (behind "cooling_device" (String.ofList (link.toList.take 50))).map atoi

namespace World

variable {δ : Type}

/-- `thd_get_cdev_at_index`. -/
def thdGetCdevAtIndex (w : World δ) (index : Int) : Option Nat :=
  (List.range w.cdevCount).find? fun k => (w.cdevs k).index = index

/-- `set_async_capable(true)` on a sensor. -/
def setAsyncCapable (w : World δ) (index : Int) : World δ :=
  { w with sensors := w.sensors.map fun s =>
      if s.index = index then { s with asyncCapable := true } else s }

end World

/-! ## Zones -/

/-- `cthd_sysfs_zone`. -/
structure SysfsZone where
  zone : Zone
  tripPointCnt : Nat

namespace SysfsZone

variable {δ : Type} [StdSort]

/-- A new zone. -/
def init (index : Int) (typeStr : String) : SysfsZone where
  zone := .init index typeStr .independent
  tripPointCnt := 0

/-- Append a trip that is numbered by `trip_point_cnt`. -/
def addTrip (z : SysfsZone) (type : TripPointType) (temp hyst : Nat) (sensorId : Int) :
    SysfsZone where
  zone := { z.zone with tripPoints := z.zone.tripPoints ++
    [.init z.tripPointCnt type temp hyst z.zone.index sensorId .sequential] }
  tripPointCnt := z.tripPointCnt + 1

/-- The sensor of the zone has become asynchronous. -/
def setAsyncCapable (z : SysfsZone) (index : Int) : SysfsZone :=
  { z with zone := { z.zone with sensors := z.zone.sensors.map fun s =>
      if s.index = index then { s with asyncCapable := true } else s } }

/-- The loop of `read_trip_points` over some of the trip points. It stops at a file that cannot be
read. -/
def readTrips (k : ZoneFiles) : List Nat → SysfsZone → World δ → Bool × SysfsZone × World δ
  | [], z, w => (true, z, w)
  | i :: rest, z, w =>
    match (k.trip i).temp.read 0, (k.trip i).readHyst with
    | some temp, some hyst =>
      let type := (k.trip i).tripType
      match w.searchSensor z.zone.typeStr with
      | none => readTrips k rest z w
      | some s =>
        if (k.trip i).wrMode then
          readTrips k rest (z.setAsyncCapable s.index) (w.setAsyncCapable s.index)
        else if 0 < temp ∧ type ≠ .invalidTripType then
          readTrips k rest (z.addTrip type temp.toNat hyst.toNat s.index) w
        else readTrips k rest z w
    | _, _ => (false, z, w)

/-- `read_trip_points`: a zone without trips gets one that is never reached. -/
def readTripPoints (k : ZoneFiles) (z : SysfsZone) (w : World δ) : Bool × SysfsZone × World δ :=
  match z.readTrips k (List.range maxTripPoints) w with
  | (false, z, w) => (false, z, w)
  | (true, z, w) =>
    if z.tripPointCnt = 0 then
      match w.searchSensor z.zone.typeStr with
      | none => (false, z, w)
      | some s => (true, z.addTrip .passive 2147483647 0 s.index, w)
    else (true, z, w)

/-- A device as `thd_trip_point_add_cdev_index` binds it. -/
def indexedCdev (k : Nat) (influence : Int) : TripCdev where
  cdev := k
  influence := influence
  samplingPriod := 0
  lastOpTime := 0
  targetStateValid := false
  targetState := 0
  pidParam := ⟨false, 0, 0, 0⟩
  pid := .init
  minMaxValid := false
  minState := 0
  maxState := 0

/-- `thd_trip_point_add_cdev_index`. -/
def addCdevIndex (t : TripPoint) (index influence : Int) (w : World δ) : TripPoint :=
  match w.thdGetCdevAtIndex index with
  | none => t
  | some k => t.tripCdevAdd (indexedCdev k influence) w

/-- What is done for a link whose trip point has been read: the number is used as a position. -/
def bindCdev (z : SysfsZone) (c : KernelCdev) (tripCnt : Int) (w : World δ) : SysfsZone :=
  match c.number with
  | none => z
  | some number =>
    if 0 ≤ tripCnt ∧ tripCnt < z.tripPointCnt then
      { z with zone := { z.zone with
        tripPoints := z.zone.tripPoints.modify tripCnt.toNat fun t => addCdevIndex t number 0 w
        zoneCdevBindedStatus := true } }
    else z

/-- The loop of `read_cdev_trip_points` over some of the links. It stops at a file that cannot be
read. -/
def readCdevs (k : ZoneFiles) : List Nat → SysfsZone → World δ → SysfsZone
  | [], z, _ => z
  | i :: rest, z, w =>
    match (k.cdev i).tripPoint with
    | .absent => readCdevs k rest z w
    | f =>
      match f.read (-1) with
      | none => z
      | some tripCnt => readCdevs k rest (z.bindCdev (k.cdev i) tripCnt w) w

/-- `read_cdev_trip_points`. -/
def readCdevTripPoints (k : ZoneFiles) (z : SysfsZone) (w : World δ) : SysfsZone :=
  z.readCdevs k (List.range maxCoolDevs) w

/-- `zone_update`, given the passive temperature set by the user, if any. A failure to read the
links does not matter. -/
def zoneUpdate (k : ZoneFiles) (usrPsvTemp : Int) (z : SysfsZone) (w : World δ) :
    Int × SysfsZone × World δ :=
  match w.searchSensor z.zone.typeStr with
  | none => (thdError, z, w)
  | some s =>
    match readTripPoints k { z with zone := z.zone.bindSensor s } w with
    | (false, z, w) => (thdError, z, w)
    | (true, z, w) =>
      let (zone, w) :=
        if 0 < usrPsvTemp then
          z.zone.updateHighestTripTemp
            (.init 0 .passive usrPsvTemp.toNat 0 z.zone.index defaultSensorId .parallel) w
        else (z.zone, w)
      let z := readCdevTripPoints k { z with zone } w
      let (zone, w) := z.zone.sortAndUpdatePollTrip w
      (thdSuccess, { z with zone }, w)

end SysfsZone

/-! ## Trips and links -/

/-- A trip is made from the trip point. -/
def KernelTrip.accepted (t : KernelTrip) : Bool :=
  0 < (t.temp.read 0).getD 0 && t.tripType ≠ .invalidTripType && !t.wrMode

/-- The trip that is made from it. -/
def KernelTrip.trip (t : KernelTrip) (place : Nat) (zoneIndex sensorId : Int) : TripPoint :=
  .init place t.tripType ((t.temp.read 0).getD 0).toNat (t.readHyst.getD 0).toNat zoneIndex sensorId
    .sequential

namespace ZoneFiles

variable {δ : Type}

/-- The trip points from which trips are made. -/
def acceptedTrips (k : ZoneFiles) : List Nat :=
  (List.range maxTripPoints).filter fun i => (k.trip i).accepted

/-- The trips that are made, or the one that stands for none. -/
def trips (k : ZoneFiles) (zoneIndex sensorId : Int) : List TripPoint :=
  if k.acceptedTrips = [] then
    [.init 0 .passive 2147483647 0 zoneIndex sensorId .sequential]
  else k.acceptedTrips.zipIdx.map fun i => (k.trip i.1).trip i.2 zoneIndex sensorId

/-- The trip point from which a trip was made, by the index of the trip. -/
def kernelNumber (k : ZoneFiles) (t : TripPoint) : Option Nat :=
  if t.type = .polling then none else k.acceptedTrips[t.index.toNat]?

/-- The devices of some links that name a trip point. -/
def devicesFor (k : ZoneFiles) (w : World δ) (links : List Nat) (n : Int) : List Nat :=
  (links.filter fun i => (k.cdev i).tripPoint = .value n).filterMap fun i =>
    (k.cdev i).number.bind w.thdGetCdevAtIndex

/-- The devices for which the kernel names the trip point of a trip. -/
def named (k : ZoneFiles) (w : World δ) (t : TripPoint) : List Nat :=
  match k.kernelNumber t with
  | none => []
  | some n => k.devicesFor w (List.range maxCoolDevs) n

/-- The links in front of the first one that cannot be read. -/
def readableLinks (k : ZoneFiles) : List Nat :=
  (List.range maxCoolDevs).takeWhile fun i => (k.cdev i).tripPoint ≠ .unreadable

end ZoneFiles

/-- The last trip of a type gets a temperature and a hysteresis. -/
def setHighest (trips : List TripPoint) (trip : TripPoint) : List TripPoint :=
  match trips.reverse.findIdx? fun t => t.type = trip.type with
  | some i =>
    (trips.reverse.modify i fun t => { t with temp := trip.temp, hyst := trip.hyst }).reverse
  | none => trips

/-- The trips when the links are read: sorted if there is a passive temperature set by the user. -/
def ZoneFiles.tripsAtLinks [StdSort] (k : ZoneFiles) (usrPsvTemp zoneIndex sensorId : Int) :
    List TripPoint :=
  if 0 < usrPsvTemp then
    StdSort.sort Zone.tripSort (setHighest (k.trips zoneIndex sensorId)
      (.init 0 .passive usrPsvTemp.toNat 0 zoneIndex defaultSensorId .parallel))
  else k.trips zoneIndex sensorId

/-- A device is the first of its type in a list: a trip holds one device of each type. -/
def FirstOfType {δ : Type} (w : World δ) (devices : List Nat) (d : Nat) : Prop :=
  (devices.find? fun e => (w.cdevs e).typeStr = (w.cdevs d).typeStr) = some d

/-- Every trip is bound to the devices for which the kernel names its trip point. -/
def BoundAsNamed {δ : Type} (k : ZoneFiles) (w : World δ) (z : Zone) : Prop :=
  ∀ t ∈ z.tripPoints, ∀ d, (∃ b ∈ t.cdevs, b.cdev = d) ↔ FirstOfType w (k.named w t) d

/-- The links that name a position name the trip point from which the trip in this position was
made. -/
def PlacedAsNamed {δ : Type} [StdSort] (k : ZoneFiles) (w : World δ)
    (usrPsvTemp zoneIndex sensorId : Int) : Prop :=
  ∀ (p : Nat) (t : TripPoint), (k.tripsAtLinks usrPsvTemp zoneIndex sensorId)[p]? = some t →
    ∀ d, FirstOfType w (k.devicesFor w k.readableLinks p) d ↔ FirstOfType w (k.named w t) d

/-! ## Binding devices to a trip -/

section Binding

variable {δ : Type} {w : World δ}

/-- A device at the end of a list is the first of its type if there is none of the type before. -/
theorem first_of_type_append {ds : List Nat} {e d : Nat} :
    FirstOfType w (ds ++ [e]) d ↔ FirstOfType w ds d ∨
      d = e ∧ ∀ x ∈ ds, (w.cdevs x).typeStr ≠ (w.cdevs e).typeStr := by
  unfold FirstOfType
  rw [List.find?_append]
  cases hfind : ds.find? fun x => (w.cdevs x).typeStr = (w.cdevs d).typeStr with
  | some x =>
      have hx := List.mem_of_find?_eq_some hfind
      have htype : (w.cdevs x).typeStr = (w.cdevs d).typeStr := by
        simpa using List.find?_some hfind
      simp only [Option.some_or, Option.some.injEq, iff_self_or]
      rintro ⟨rfl, hnone⟩
      exact absurd htype (hnone x hx)
  | none =>
      have hnone : ∀ x ∈ ds, (w.cdevs x).typeStr ≠ (w.cdevs d).typeStr := by
        intro x hx
        simpa using List.find?_eq_none.mp hfind x hx
      simp only [Option.none_or, reduceCtorEq, false_or, List.find?_singleton]
      constructor
      · intro h
        split at h
        · cases h
          exact ⟨rfl, hnone⟩
        · cases h
      · rintro ⟨rfl, -⟩
        simp

/-- A list has a device of a type exactly if one of its devices is the first of this type. -/
theorem exists_first_of_type {ds : List Nat} {e : Nat} :
    (∃ d, FirstOfType w ds d ∧ (w.cdevs d).typeStr = (w.cdevs e).typeStr) ↔
      ∃ x ∈ ds, (w.cdevs x).typeStr = (w.cdevs e).typeStr := by
  constructor
  · rintro ⟨d, hd, htype⟩
    exact ⟨d, List.mem_of_find?_eq_some hd, htype⟩
  · rintro ⟨x, hx, htype⟩
    cases hfind : ds.find? fun x => (w.cdevs x).typeStr = (w.cdevs e).typeStr with
    | none =>
        have hnone := List.find?_eq_none.mp hfind x hx
        simp only [htype, decide_true, not_true_eq_false] at hnone
    | some d =>
        have hd : (w.cdevs d).typeStr = (w.cdevs e).typeStr := by
          simpa using List.find?_some hfind
        refine ⟨d, ?_, hd⟩
        unfold FirstOfType
        rw [hd]
        exact hfind

variable [StdSort]

/-- `trip_cdev_add` adds a device if there is none of its type. -/
theorem trip_cdev_add_devices {t : TripPoint} {b : TripCdev} {d : Nat} :
    (∃ c ∈ (t.tripCdevAdd b w).cdevs, c.cdev = d) ↔ (∃ c ∈ t.cdevs, c.cdev = d) ∨
      d = b.cdev ∧ ∀ c ∈ t.cdevs, (w.cdevs c.cdev).typeStr ≠ (w.cdevs b.cdev).typeStr := by
  unfold TripPoint.tripCdevAdd
  simp only [StdSort.mem_sort]
  cases hfind : t.cdevs.findIdx? fun c => (w.cdevs c.cdev).typeStr = (w.cdevs b.cdev).typeStr with
  | some i =>
      obtain ⟨hi, htype, -⟩ := List.findIdx?_eq_some_iff_getElem.mp hfind
      have hsame : (t.cdevs.modify i fun c => { c with influence := b.influence }).map (·.cdev) =
          t.cdevs.map (·.cdev) := by
        refine map_modify_same (fun _ => ?_) t.cdevs i
        rfl
      rw [← List.mem_map, ← List.mem_map, hsame, iff_self_or]
      rintro ⟨-, hnone⟩
      exact absurd (of_decide_eq_true htype) (hnone _ (List.getElem_mem hi))
  | none =>
      have hnone : ∀ c ∈ t.cdevs, (w.cdevs c.cdev).typeStr ≠ (w.cdevs b.cdev).typeStr := by
        intro c hc
        simpa using List.findIdx?_eq_none_iff.mp hfind c hc
      simp only [List.mem_append, List.mem_singleton, or_and_right, exists_or, exists_eq_left]
      exact or_congr Iff.rfl ⟨fun h => ⟨h.symm, hnone⟩, fun h => h.1.symm⟩

/-- Devices are bound one after the other. -/
def addAll (w : World δ) (t : TripPoint) (ds : List Nat) : TripPoint :=
  ds.foldl (fun t d => t.tripCdevAdd (SysfsZone.indexedCdev d 0) w) t

/-- Only the devices of the trip change. -/
theorem add_all_same (t : TripPoint) (ds : List Nat) :
    (addAll w t ds).index = t.index ∧ (addAll w t ds).type = t.type := by
  induction ds generalizing t with
  | nil => exact ⟨rfl, rfl⟩
  | cons d ds ih => exact ih _

/-- A trip without devices is bound to the first devices of their types. -/
theorem add_all_devices {t : TripPoint} (ht : t.cdevs = []) (ds : List Nat) (d : Nat) :
    (∃ b ∈ (addAll w t ds).cdevs, b.cdev = d) ↔ FirstOfType w ds d := by
  induction ds using List.reverseRecOn generalizing d with
  | nil => simp [addAll, ht, FirstOfType]
  | append_singleton ds e ih =>
      have hstep : addAll w t (ds ++ [e]) =
          (addAll w t ds).tripCdevAdd (SysfsZone.indexedCdev e 0) w := by
        simp [addAll]
      rw [hstep, trip_cdev_add_devices, ih, first_of_type_append]
      refine or_congr Iff.rfl (and_congr_right fun _ => ?_)
      -- the trip has a device of the type exactly if the list has one
      have hexists : (∃ c ∈ (addAll w t ds).cdevs, (w.cdevs c.cdev).typeStr = (w.cdevs e).typeStr) ↔
          ∃ x ∈ ds, (w.cdevs x).typeStr = (w.cdevs e).typeStr := by
        rw [← exists_first_of_type]
        constructor
        · rintro ⟨c, hc, htype⟩
          exact ⟨c.cdev, (ih c.cdev).mp ⟨c, hc, rfl⟩, htype⟩
        · rintro ⟨x, hx, htype⟩
          obtain ⟨c, hc, rfl⟩ := (ih x).mpr hx
          exact ⟨c, hc, htype⟩
      have hnot := not_congr hexists
      simp only [not_exists, not_and] at hnot
      exact hnot

end Binding

/-! ## The links -/

section Links

variable {δ : Type} {k : ZoneFiles} {w w' : World δ}

theorem SameCdevs.index_eq (h : SameCdevs w w') :
    w'.thdGetCdevAtIndex = w.thdGetCdevAtIndex := by
  funext index
  unfold World.thdGetCdevAtIndex
  rw [h.cdevs, h.cdevCount]

/-- The devices of a list of links after the first one. -/
theorem devices_for_cons (i : Nat) (links : List Nat) (n : Int) :
    k.devicesFor w (i :: links) n =
      (if (k.cdev i).tripPoint = .value n then
        ((k.cdev i).number.bind w.thdGetCdevAtIndex).toList else []) ++
        k.devicesFor w links n := by
  unfold ZoneFiles.devicesFor
  by_cases hn : (k.cdev i).tripPoint = .value n
  · rw [if_pos hn, List.filter_cons_of_pos (by simpa using hn), List.filterMap_cons]
    cases (k.cdev i).number.bind w.thdGetCdevAtIndex <;> rfl
  · rw [if_neg hn, List.filter_cons_of_neg (by simpa using hn), List.nil_append]

variable [StdSort]

/-- A link that has been read. -/
theorem bind_cdev_trips (hw : SameCdevs w w') (c : KernelCdev) (n : Int) (z : SysfsZone)
    (p : Nat) :
    (z.bindCdev c n w').tripPointCnt = z.tripPointCnt ∧
      (z.bindCdev c n w').zone.tripPoints[p]? = z.zone.tripPoints[p]?.map fun t => addAll w t
        (if n = p ∧ p < z.tripPointCnt then (c.number.bind w.thdGetCdevAtIndex).toList
          else []) := by
  have hself : ∀ t : Option TripPoint, t = t.map fun t => addAll w t [] := by
    intro t
    cases t <;> rfl
  unfold SysfsZone.bindCdev
  cases hnumber : c.number with
  | none =>
      simp only [Option.bind_none, Option.toList_none, ite_self, true_and]
      exact hself _
  | some number =>
      dsimp only
      split
      · rename_i hrange
        refine ⟨rfl, ?_⟩
        rw [List.getElem?_modify]
        cases z.zone.tripPoints[p]? with
        | none => rfl
        | some t =>
            refine congrArg some ?_
            dsimp only
            by_cases hn : n = p
            · subst hn
              rw [Int.toNat_natCast, if_pos rfl, if_pos ⟨rfl, by omega⟩, Option.bind_some]
              unfold SysfsZone.addCdevIndex
              rw [hw.index_eq]
              cases w.thdGetCdevAtIndex number with
              | none => rfl
              | some d => exact hw.add_eq _ _
            · rw [if_neg (by omega), if_neg (fun h => hn h.1)]
              rfl
      · rename_i hrange
        rw [if_neg (fun h => hrange (by omega))]
        exact ⟨rfl, hself _⟩

/-- The trip in a position is bound to the devices of the links with this number. -/
theorem read_cdevs_trips (hw : SameCdevs w w') (links : List Nat) (z : SysfsZone) (p : Nat) :
    (z.readCdevs k links w').zone.tripPoints[p]? = z.zone.tripPoints[p]?.map fun t =>
      addAll w t (if p < z.tripPointCnt then k.devicesFor w
        (links.takeWhile fun i => (k.cdev i).tripPoint ≠ .unreadable) p else []) := by
  have hself : ∀ t : Option TripPoint, t = t.map fun t => addAll w t [] := by
    intro t
    cases t <;> rfl
  induction links generalizing z with
  | nil =>
      have hnone : (if p < z.tripPointCnt then k.devicesFor w [] p else []) = [] := by
        split <;> rfl
      rw [List.takeWhile_nil, hnone]
      exact hself _
  | cons i links ih =>
      unfold SysfsZone.readCdevs
      by_cases hunreadable : (k.cdev i).tripPoint = .unreadable
      · have hnone : (if p < z.tripPointCnt then k.devicesFor w [] p else []) = [] := by
          split <;> rfl
        rw [hunreadable, List.takeWhile_cons_of_neg (by simpa using hunreadable), hnone]
        exact hself _
      · rw [List.takeWhile_cons_of_pos (by simpa using hunreadable), devices_for_cons]
        have hskip : z.bindCdev (k.cdev i) (-1) w' = z := by
          unfold SysfsZone.bindCdev
          split
          · rfl
          · rw [if_neg (by omega)]
        cases htrip : (k.cdev i).tripPoint with
        | absent =>
            have hother : ¬ NumberFile.absent = .value p := nofun
            rw [if_neg hother, List.nil_append]
            exact ih z
        | unreadable => exact absurd htrip hunreadable
        | empty =>
            have hother : ¬ NumberFile.empty = .value p := nofun
            dsimp only [NumberFile.read]
            rw [hskip, if_neg hother, List.nil_append]
            exact ih z
        | value n =>
            obtain ⟨hcnt, hbind⟩ := bind_cdev_trips hw (k.cdev i) n z p
            dsimp only [NumberFile.read]
            rw [ih, hcnt, hbind, Option.map_map]
            refine congrArg (z.zone.tripPoints[p]?.map ·) (funext fun t => ?_)
            rw [Function.comp_apply]
            by_cases hp : p < z.tripPointCnt
            · simp only [hp, and_true, if_true, NumberFile.value.injEq]
              exact (List.foldl_append ..).symm
            · simp only [hp, and_false, if_false]
              rfl

end Links

/-! ## The trip points -/

section TripPoints

variable {δ : Type} {k : ZoneFiles} {sensorId : Int}

/-- A sensor that becomes asynchronous is found as before. -/
theorem search_sensor_async (w : World δ) (name : String) (index : Int) :
    ((w.setAsyncCapable index).searchSensor name).map (·.index) =
      (w.searchSensor name).map (·.index) := by
  let async (s : Sensor) : Sensor := if s.index = index then { s with asyncCapable := true } else s
  have htype : ∀ s, (async s).typeStr = s.typeStr := by
    intro s
    dsimp only [async]
    split <;> rfl
  have hindex : ∀ s, (async s).index = s.index := by
    intro s
    dsimp only [async]
    split <;> rfl
  unfold World.searchSensor
  show ((w.sensors.map async).find? _).map _ = _
  rw [List.find?_map, Option.map_map]
  have hfind : ((fun s : Sensor => s.typeStr = name ||
      ("pch_".toList.isPrefixOf name.toList && "pch_".toList.isPrefixOf s.typeStr.toList)) ∘
        async) = fun s : Sensor => s.typeStr = name ||
      ("pch_".toList.isPrefixOf name.toList && "pch_".toList.isPrefixOf s.typeStr.toList) := by
    funext s
    simp only [Function.comp_apply, htype]
  rw [hfind]
  exact congrArg (fun f => Option.map f _) (funext hindex)

/-- Trips have been made from the trip points that are accepted. -/
structure TripsRead (k : ZoneFiles) (numbers : List Nat) (sensorId : Int) (z : SysfsZone)
    (w : World δ) (z' : SysfsZone) (w' : World δ) : Prop where
  trips : z'.zone.tripPoints = z.zone.tripPoints ++
    ((numbers.filter fun i => (k.trip i).accepted).zipIdx z.tripPointCnt).map fun i =>
      (k.trip i.1).trip i.2 z.zone.index sensorId
  cnt : z'.tripPointCnt =
    z.tripPointCnt + (numbers.filter fun i => (k.trip i).accepted).length
  index : z'.zone.index = z.zone.index
  typeStr : z'.zone.typeStr = z.zone.typeStr
  cdevs : SameCdevs w w'
  sensor : (w'.searchSensor z.zone.typeStr).map (·.index) =
    (w.searchSensor z.zone.typeStr).map (·.index)

/-- The loop over the trip points. -/
theorem read_trips_read {numbers : List Nat} {z z' : SysfsZone} {w w' : World δ}
    (hsensor : (w.searchSensor z.zone.typeStr).map (·.index) = some sensorId)
    (h : z.readTrips k numbers w = (true, z', w')) : TripsRead k numbers sensorId z w z' w' := by
  induction numbers generalizing z w with
  | nil =>
      cases h
      exact ⟨(List.append_nil _).symm, rfl, rfl, rfl, ⟨rfl, rfl⟩, rfl⟩
  | cons i numbers ih =>
      unfold SysfsZone.readTrips at h
      cases htemp : (k.trip i).temp.read 0 with
      | none => 
          rw [htemp] at h
          cases h
      | some temp =>
        cases hhyst : (k.trip i).readHyst with
        | none =>
            rw [htemp, hhyst] at h
            cases h
        | some hyst =>
          rw [htemp, hhyst] at h
          dsimp only at h
          obtain ⟨s, hs, rfl⟩ := Option.map_eq_some_iff.mp hsensor
          rw [hs] at h
          dsimp only at h
          have haccepted : (k.trip i).accepted =
              (decide (0 < temp) && decide ((k.trip i).tripType ≠ .invalidTripType) &&
                !(k.trip i).wrMode) := by
            unfold KernelTrip.accepted
            rw [htemp, Option.getD_some]
          have htrip : ∀ r, (k.trip i).trip r z.zone.index s.index =
              .init r (k.trip i).tripType temp.toNat hyst.toNat z.zone.index s.index
                .sequential := by
            intro r
            unfold KernelTrip.trip
            rw [htemp, hhyst]
            rfl
          split at h
          · rename_i hwr
            have hskip : ¬ (k.trip i).accepted = true := by simp [haccepted, hwr]
            have hasync : ((w.setAsyncCapable s.index).searchSensor z.zone.typeStr).map (·.index) =
                some s.index := by
              rw [search_sensor_async]
              exact hsensor
            obtain ⟨htrips, hcnt, hindex, htype, hcdevs, hsame⟩ := ih
              (z := z.setAsyncCapable s.index) hasync h
            rw [← List.filter_cons_of_neg (p := fun i => (k.trip i).accepted) hskip] at htrips hcnt
            refine ⟨htrips, hcnt, hindex, htype, ⟨hcdevs.cdevs, hcdevs.cdevCount⟩, ?_⟩
            exact hsame.trans (search_sensor_async ..)
          · rename_i hwr
            split at h
            · rename_i hused
              have hkeep : (k.trip i).accepted = true := by simp [haccepted, hwr, hused]
              obtain ⟨htrips, hcnt, hindex, htype, hcdevs, hsame⟩ := ih
                (z := z.addTrip (k.trip i).tripType temp.toNat hyst.toNat s.index) hsensor h
              have hfilter := List.filter_cons_of_pos (p := fun i => (k.trip i).accepted)
                (l := numbers) hkeep
              refine ⟨?_, ?_, hindex, htype, hcdevs, hsame⟩
              · rw [htrips, hfilter, List.zipIdx_cons, List.map_cons, htrip]
                exact List.append_assoc ..
              · rw [hcnt, hfilter, List.length_cons]
                show z.tripPointCnt + 1 + _ = _
                omega
            · rename_i hunused
              have hskip : ¬ (k.trip i).accepted = true := by
                rw [haccepted]
                simpa [hwr] using hunused
              obtain ⟨htrips, hcnt, hindex, htype, hcdevs, hsame⟩ := ih hsensor h
              rw [← List.filter_cons_of_neg (p := fun i => (k.trip i).accepted) hskip]
                at htrips hcnt
              exact ⟨htrips, hcnt, hindex, htype, hcdevs, hsame⟩

/-- The list of trips after `read_trip_points`. -/
theorem read_trip_points_read {z z' : SysfsZone} {w w' : World δ}
    (hsensor : (w.searchSensor z.zone.typeStr).map (·.index) = some sensorId)
    (hnew : z.zone.tripPoints = [] ∧ z.tripPointCnt = 0)
    (h : z.readTripPoints k w = (true, z', w')) :
    z'.zone.tripPoints = k.trips z.zone.index sensorId ∧
      z'.tripPointCnt = (k.trips z.zone.index sensorId).length ∧ z'.zone.index = z.zone.index ∧
      SameCdevs w w' := by
  unfold SysfsZone.readTripPoints at h
  split at h
  · cases h
  · rename_i z₁ w₁ hread
    obtain ⟨htrips, hcnt, hindex, htype, hcdevs, hsame⟩ := read_trips_read hsensor hread
    rw [hnew.1, hnew.2, List.nil_append] at htrips
    rw [hnew.2, Nat.zero_add] at hcnt
    have haccepted : k.acceptedTrips = (List.range maxTripPoints).filter fun i =>
        (k.trip i).accepted := rfl
    unfold ZoneFiles.trips
    rw [← haccepted] at htrips hcnt
    by_cases hnone : k.acceptedTrips = []
    · rw [hnone, List.length_nil] at hcnt
      rw [hnone] at htrips
      rw [htype, if_pos hcnt] at h
      obtain ⟨s, hs, rfl⟩ := Option.map_eq_some_iff.mp (hsame.trans hsensor)
      rw [hs] at h
      cases h
      rw [if_pos hnone]
      refine ⟨?_, ?_, hindex, hcdevs⟩
      · show z₁.zone.tripPoints ++ _ = _
        rw [htrips, hcnt, hindex]
        rfl
      · show z₁.tripPointCnt + 1 = 1
        rw [hcnt]
    · have hpos : ¬ z₁.tripPointCnt = 0 := by
        rw [hcnt]
        exact fun h0 => hnone (List.eq_nil_of_length_eq_zero h0)
      rw [if_neg hpos] at h
      cases h
      rw [if_neg hnone, htrips, hcnt]
      exact ⟨rfl, by simp, hindex, hcdevs⟩

/-- A trip that no link has been read for yet. -/
structure Fresh (t : TripPoint) : Prop where
  ordinary : t.type ≠ .polling
  cdevs : t.cdevs = []

/-- The type that the kernel gives is never that of a polling trip. -/
theorem trip_type_ne_polling (t : KernelTrip) : t.tripType ≠ .polling := by
  unfold KernelTrip.tripType
  split_ifs <;> decide

/-- The trips are fresh, and their indices are their places. -/
theorem trips_fresh {zoneIndex : Int} {p : Nat} {t : TripPoint}
    (ht : (k.trips zoneIndex sensorId)[p]? = some t) : Fresh t ∧ t.index = p := by
  unfold ZoneFiles.trips at ht
  split at ht
  · cases p with
    | zero =>
        cases ht
        exact ⟨⟨nofun, rfl⟩, rfl⟩
    | succ p => cases ht
  · rw [List.getElem?_map, List.getElem?_zipIdx] at ht
    cases hi : k.acceptedTrips[p]? with
    | none =>
        rw [hi] at ht
        cases ht
    | some i =>
        rw [hi] at ht
        cases ht
        exact ⟨⟨trip_type_ne_polling _, rfl⟩, by simp [KernelTrip.trip, TripPoint.init]⟩

/-- A trip is made from each trip point that is accepted. -/
theorem trips_complete {zoneIndex : Int} {i : Nat} (hi : i ∈ k.acceptedTrips) :
    ∃ t ∈ k.trips zoneIndex sensorId, k.kernelNumber t = some i := by
  obtain ⟨p, hp, rfl⟩ := List.mem_iff_getElem.mp hi
  have hne : k.acceptedTrips ≠ [] := List.ne_nil_of_mem hi
  refine ⟨(k.trip k.acceptedTrips[p]).trip p zoneIndex sensorId, ?_, ?_⟩
  · unfold ZoneFiles.trips
    rw [if_neg hne, List.mem_map]
    refine ⟨(k.acceptedTrips[p], p), ?_, rfl⟩
    exact List.mk_mem_zipIdx_iff_getElem?.mpr (List.getElem?_eq_getElem hp)
  · have htype : ((k.trip k.acceptedTrips[p]).trip p zoneIndex sensorId).type ≠ .polling :=
      trip_type_ne_polling _
    unfold ZoneFiles.kernelNumber
    rw [if_neg htype]
    exact List.getElem?_eq_getElem hp

/-- A new temperature changes neither index nor type nor devices of a trip. -/
theorem set_highest_same (trips : List TripPoint) (trip : TripPoint) :
    (setHighest trips trip).map (fun t => (t.index, t.type, t.cdevs)) =
      trips.map fun t => (t.index, t.type, t.cdevs) := by
  unfold setHighest
  split
  · rename_i i _
    have hmodify : (trips.reverse.modify i fun t =>
        { t with temp := trip.temp, hyst := trip.hyst }).map
          (fun t => (t.index, t.type, t.cdevs)) =
        trips.reverse.map fun t => (t.index, t.type, t.cdevs) := by
      apply List.ext_getElem?
      intro j
      rw [List.getElem?_map, List.getElem?_map, List.getElem?_modify]
      cases trips.reverse[j]? with
      | none => rfl
      | some t => by_cases hij : i = j <;> simp [hij]
    rw [List.map_reverse, hmodify, List.map_reverse, List.reverse_reverse]
  · rfl

end TripPoints

/-! ## The update of a zone -/

section Update

variable {δ : Type}

variable [StdSort] {k : ZoneFiles} {w w' : World δ}

omit [StdSort] in
/-- All trips that are made are fresh. -/
theorem all_trips_fresh {zoneIndex sensorId : Int} :
    ∀ t ∈ k.trips zoneIndex sensorId, Fresh t := by
  intro t ht
  obtain ⟨p, hp⟩ := List.mem_iff_getElem?.mp ht
  exact (trips_fresh hp).1

omit [StdSort] in
/-- A new temperature leaves them fresh. -/
theorem set_highest_fresh {trips : List TripPoint} (h : ∀ t ∈ trips, Fresh t) (trip : TripPoint) :
    ∀ t ∈ setHighest trips trip, Fresh t := by
  intro t ht
  have hsame := List.mem_map_of_mem (f := fun t : TripPoint => (t.index, t.type, t.cdevs)) ht
  rw [set_highest_same] at hsame
  obtain ⟨u, hu, heq⟩ := List.mem_map.mp hsame
  simp only [Prod.mk.injEq] at heq
  obtain ⟨-, htype, hcdevs⟩ := heq
  exact ⟨htype ▸ (h u hu).ordinary, hcdevs ▸ (h u hu).cdevs⟩

/-- The trips are still fresh when the links are read. -/
theorem at_links_fresh {usrPsvTemp zoneIndex sensorId : Int} {t : TripPoint}
    (ht : t ∈ k.tripsAtLinks usrPsvTemp zoneIndex sensorId) : Fresh t := by
  unfold ZoneFiles.tripsAtLinks at ht
  split at ht
  · rw [StdSort.mem_sort] at ht
    exact set_highest_fresh all_trips_fresh _ t ht
  · exact all_trips_fresh t ht

/-- The kernel's numbers of the trips are those of the trips that were made. -/
theorem at_links_numbers (k : ZoneFiles) (usrPsvTemp zoneIndex sensorId : Int) :
    ((k.tripsAtLinks usrPsvTemp zoneIndex sensorId).map k.kernelNumber).Perm
      ((k.trips zoneIndex sensorId).map k.kernelNumber) := by
  have hnumber : k.kernelNumber = (fun t : Int × TripPointType × List TripCdev =>
      if t.2.1 = .polling then none else k.acceptedTrips[t.1.toNat]?) ∘
        fun t => (t.index, t.type, t.cdevs) := rfl
  unfold ZoneFiles.tripsAtLinks
  split
  · refine ((StdSort.perm _ _).map _).trans (.of_eq ?_)
    rw [hnumber, ← List.map_map, set_highest_same, List.map_map]
  · exact .refl _

/-- A passive temperature set by the user sorts the trips. -/
theorem user_passive_trips {z : Zone} {sensorId : Int} (usrPsvTemp : Int)
    (htrips : z.tripPoints = k.trips z.index sensorId) (w : World δ) {z' : Zone} {w' : World δ}
    (h : (if 0 < usrPsvTemp then
      z.updateHighestTripTemp
        (.init 0 .passive usrPsvTemp.toNat 0 z.index defaultSensorId .parallel) w
      else (z, w)) = (z', w')) :
    (∃ added, z'.tripPoints = k.tripsAtLinks usrPsvTemp z.index sensorId ++ added ∧
      ∀ t ∈ added, PollOnly t) ∧ SameCdevs w w' := by
  unfold ZoneFiles.tripsAtLinks
  by_cases husr : 0 < usrPsvTemp
  · rw [if_pos husr] at h
    rw [if_pos husr]
    have hempty : ¬ z.tripPoints.isEmpty = true := by
      rw [htrips]
      unfold ZoneFiles.trips
      split
      · exact Bool.false_ne_true
      · rename_i hne
        simpa using hne
    unfold Zone.updateHighestTripTemp at h
    rw [if_neg hempty] at h
    let trip := TripPoint.init 0 .passive usrPsvTemp.toNat 0 z.index defaultSensorId .parallel
    have hupdate := sort_and_update_trips { z with tripPoints := setHighest z.tripPoints trip } w
    have hsorted : Zone.sortedTrips { z with tripPoints := setHighest z.tripPoints trip } =
        StdSort.sort Zone.tripSort (setHighest z.tripPoints trip) := by
      have hnone : ∀ t ∈ setHighest z.tripPoints trip, ¬ decide (t.type = .polling) = true := by
        intro t ht
        rw [htrips] at ht
        simpa using (set_highest_fresh all_trips_fresh trip t ht).ordinary
      exact congrArg _ (List.eraseP_of_forall_not hnone)
    have hrun : Zone.sortAndUpdatePollTrip { z with tripPoints := setHighest z.tripPoints trip } w =
        (z', w') := h
    rw [hsorted, htrips] at hupdate
    rw [htrips] at hrun
    rw [hrun] at hupdate
    exact hupdate
  · rw [if_neg husr] at h
    rw [if_neg husr]
    cases h
    exact ⟨⟨[], by rw [htrips, List.append_nil], by simp⟩, rfl, rfl⟩

/-- The trips after an update: those that were made, each bound to the devices of the links with its
position, and polling trips. -/
structure Updated (k : ZoneFiles) (w : World δ) (trips final : List TripPoint) : Prop where
  made : ∀ t ∈ final, PollOnly t ∨ ∃ (p : Nat) (u : TripPoint), trips[p]? = some u ∧
    t = addAll w u (k.devicesFor w k.readableLinks p)
  all : ∀ (p : Nat) (u : TripPoint), trips[p]? = some u →
    addAll w u (k.devicesFor w k.readableLinks p) ∈ final

/-- The links are read and the trips are sorted. -/
theorem links_updated {z : SysfsZone} {trips added : List TripPoint} (hw : SameCdevs w w')
    (hfresh : ∀ t ∈ trips, Fresh t) (hadded : ∀ t ∈ added, PollOnly t)
    (htrips : z.zone.tripPoints = trips ++ added) (hcnt : z.tripPointCnt = trips.length) :
    Updated k w trips
      ((z.readCdevTripPoints k w').zone.sortAndUpdatePollTrip w').1.tripPoints := by
  obtain ⟨⟨more, hmore, hpoll⟩, -⟩ :=
    sort_and_update_trips (z.readCdevTripPoints k w').zone w'
  have hplaces : ∀ p, (z.readCdevTripPoints k w').zone.tripPoints[p]? =
      (trips ++ added)[p]?.map fun t => addAll w t (if p < trips.length then
        k.devicesFor w k.readableLinks p else []) := by
    intro p
    have hread := read_cdevs_trips (k := k) hw (List.range maxCoolDevs) z p
    rw [htrips, hcnt] at hread
    exact hread
  rw [hmore]
  constructor
  · intro t ht
    rcases List.mem_append.mp ht with ht | ht
    · unfold Zone.sortedTrips at ht
      rw [StdSort.mem_sort] at ht
      obtain ⟨p, hp⟩ := List.mem_iff_getElem?.mp (List.mem_of_mem_eraseP ht)
      rw [hplaces] at hp
      obtain ⟨u, hu, rfl⟩ := Option.map_eq_some_iff.mp hp
      by_cases hlt : p < trips.length
      · rw [List.getElem?_append_left hlt] at hu
        rw [if_pos hlt]
        exact .inr ⟨p, u, hu, rfl⟩
      · rw [List.getElem?_append_right (by omega)] at hu
        rw [if_neg hlt]
        exact .inl (hadded u (List.mem_of_getElem? hu))
    · exact .inl (hpoll t ht)
  · intro p u hu
    have hlt : p < trips.length := (List.getElem?_eq_some_iff.mp hu).1
    have hplace := hplaces p
    rw [List.getElem?_append_left hlt, hu, if_pos hlt, Option.map_some] at hplace
    have htype : (addAll w u (k.devicesFor w k.readableLinks p)).type ≠ .polling := by
      rw [(add_all_same u _).2]
      exact (hfresh u (List.mem_of_getElem? hu)).ordinary
    refine List.mem_append_left _ ?_
    unfold Zone.sortedTrips
    rw [StdSort.mem_sort]
    exact (List.mem_eraseP_of_neg (by simpa using htype)).mpr (List.mem_of_getElem? hplace)

omit [StdSort] in
/-- A polling trip has no number in the kernel. -/
theorem PollOnly.named_nil {t : TripPoint} (h : PollOnly t) : k.named w t = [] := by
  unfold ZoneFiles.named ZoneFiles.kernelNumber
  rw [if_pos h.polling]

/-- The devices that the kernel names for a trip do not depend on those it is bound to. -/
theorem named_add_all (t : TripPoint) (ds : List Nat) :
    k.kernelNumber (addAll w t ds) = k.kernelNumber t ∧
      k.named w (addAll w t ds) = k.named w t := by
  obtain ⟨hindex, htype⟩ := add_all_same (w := w) t ds
  have hnumber : k.kernelNumber (addAll w t ds) = k.kernelNumber t := by
    unfold ZoneFiles.kernelNumber
    rw [hindex, htype]
  refine ⟨hnumber, ?_⟩
  unfold ZoneFiles.named
  rw [hnumber]

/-- Whether the trips are bound as the kernel says depends on the devices of their positions. -/
theorem Updated.bound_iff {z : Zone} {trips : List TripPoint}
    (h : Updated k w trips z.tripPoints) (hfresh : ∀ t ∈ trips, Fresh t) :
    BoundAsNamed k w z ↔ ∀ (p : Nat) (t : TripPoint), trips[p]? = some t →
      ∀ d, FirstOfType w (k.devicesFor w k.readableLinks p) d ↔
        FirstOfType w (k.named w t) d := by
  constructor
  · intro hbound p t ht d
    have hiff := hbound _ (h.all p t ht) d
    rw [add_all_devices (hfresh t (List.mem_of_getElem? ht)).cdevs, (named_add_all t _).2] at hiff
    exact hiff
  · intro hplaced t ht d
    obtain hpoll | ⟨p, u, hu, rfl⟩ := h.made t ht
    · rw [hpoll.named_nil, hpoll.cdevs]
      simp [FirstOfType]
    · rw [add_all_devices (hfresh u (List.mem_of_getElem? hu)).cdevs, (named_add_all u _).2]
      exact hplaced p u hu d

/-- After an update every trip is bound to the devices for which the kernel names its trip point
exactly if the links were taken for the right positions. -/
theorem zone_update_binds_iff {index usrPsvTemp : Int} {typeStr : String} {s : Sensor}
    (hsensor : w.searchSensor typeStr = some s) {z' : SysfsZone} {w' : World δ}
    (h : (SysfsZone.init index typeStr).zoneUpdate k usrPsvTemp w = (thdSuccess, z', w')) :
    (∀ i ∈ k.acceptedTrips, ∃ t ∈ z'.zone.tripPoints, k.kernelNumber t = some i) ∧
      (BoundAsNamed k w z'.zone ↔ PlacedAsNamed k w usrPsvTemp index s.index) := by
  have hupdated : Updated k w (k.tripsAtLinks usrPsvTemp index s.index) z'.zone.tripPoints := by
    unfold SysfsZone.zoneUpdate at h
    rw [show w.searchSensor (SysfsZone.init index typeStr).zone.typeStr = some s
      from hsensor] at h
    dsimp only at h
    split at h
    · cases h
    rename_i z₁ w₁ hread
    have hindex : ((SysfsZone.init index typeStr).zone.bindSensor s).index = index := by
      unfold Zone.bindSensor
      split <;> rfl
    have hnew : ((SysfsZone.init index typeStr).zone.bindSensor s).tripPoints = [] ∧ 0 = 0 := by
      unfold Zone.bindSensor
      split <;> exact ⟨rfl, rfl⟩
    have htype : ((SysfsZone.init index typeStr).zone.bindSensor s).typeStr = typeStr := by
      unfold Zone.bindSensor
      split <;> rfl
    have hfound : (w.searchSensor
        ((SysfsZone.init index typeStr).zone.bindSensor s).typeStr).map (·.index) =
          some s.index := by
      rw [htype, hsensor]
      rfl
    obtain ⟨htrips, hcnt, hzone, hcdevs⟩ := read_trip_points_read
      (z := ⟨(SysfsZone.init index typeStr).zone.bindSensor s, 0⟩) hfound hnew hread
    dsimp only at htrips hcnt hzone
    rw [hindex] at htrips hcnt hzone
    obtain ⟨zone, w₂, huser⟩ : ∃ (zone : Zone) (w₂ : World δ), (if 0 < usrPsvTemp then
      z₁.zone.updateHighestTripTemp
        (.init 0 .passive usrPsvTemp.toNat 0 z₁.zone.index defaultSensorId .parallel) w₁
      else (z₁.zone, w₁)) = (zone, w₂) := ⟨_, _, rfl⟩
    rw [huser] at h
    dsimp only at h
    cases h
    rw [← hzone] at htrips
    obtain ⟨⟨added, hadd, hpoll⟩, hsame⟩ := user_passive_trips usrPsvTemp htrips w₁ huser
    rw [hzone] at hadd
    refine links_updated (z := { z₁ with zone }) ?_ (fun t ht => at_links_fresh ht) hpoll hadd ?_
    · exact ⟨hsame.cdevs.trans hcdevs.cdevs, hsame.cdevCount.trans hcdevs.cdevCount⟩
    · have hlength := (at_links_numbers k usrPsvTemp index s.index).length_eq
      rw [List.length_map, List.length_map] at hlength
      rw [hlength]
      exact hcnt
  have hfresh : ∀ t ∈ k.tripsAtLinks usrPsvTemp index s.index, Fresh t :=
    fun t ht => at_links_fresh ht
  refine ⟨fun i hi => ?_, hupdated.bound_iff hfresh⟩
  obtain ⟨t, ht, hnumber⟩ : ∃ t ∈ k.trips index s.index, k.kernelNumber t = some i :=
    trips_complete hi
  have hnumbers := (at_links_numbers k usrPsvTemp index s.index).mem_iff (a := some i)
  obtain ⟨u, hu, hsame⟩ := List.mem_map.mp
    (hnumbers.mpr (List.mem_map.mpr ⟨t, ht, hnumber⟩))
  obtain ⟨p, hp⟩ := List.mem_iff_getElem?.mp hu
  exact ⟨_, hupdated.all p u hp, (named_add_all u _).1.trans hsame⟩

/-- It is enough that all links can be read and that the number in a link is the position of the
trip made from this trip point, and of no other trip. -/
theorem placed_of_numbers {usrPsvTemp zoneIndex sensorId : Int}
    (hreadable : k.readableLinks = List.range maxCoolDevs)
    (hnumbers : ∀ i < maxCoolDevs, ∀ n, (k.cdev i).tripPoint = .value n →
      ∀ (p : Nat) (t : TripPoint), (k.tripsAtLinks usrPsvTemp zoneIndex sensorId)[p]? = some t →
        (n = p ↔ (k.kernelNumber t).map (fun m : Nat => (m : Int)) = some n)) :
    PlacedAsNamed k w usrPsvTemp zoneIndex sensorId := by
  intro p t ht d
  have hlists : k.devicesFor w k.readableLinks p = k.named w t := by
    have hsame : ∀ i ∈ List.range maxCoolDevs, (k.cdev i).tripPoint = .value p ↔
        ∃ m : Nat, k.kernelNumber t = some m ∧ (k.cdev i).tripPoint = .value m := by
      intro i hi
      constructor
      · intro hvalue
        have hnumber := (hnumbers i (List.mem_range.mp hi) p hvalue p t ht).mp rfl
        obtain ⟨m, hm, hcast⟩ := Option.map_eq_some_iff.mp hnumber
        exact ⟨m, hm, by rw [hvalue, hcast]⟩
      · rintro ⟨m, hm, hvalue⟩
        have hplace := (hnumbers i (List.mem_range.mp hi) m hvalue p t ht).mpr (by rw [hm]; rfl)
        rw [hvalue, hplace]
    unfold ZoneFiles.named
    rw [hreadable]
    cases hnumber : k.kernelNumber t with
    | none =>
        have hnone : (List.range maxCoolDevs).filter
            (fun i => (k.cdev i).tripPoint = .value p) = [] := by
          refine List.filter_eq_nil_iff.mpr fun i hi => ?_
          rw [decide_eq_true_eq, hsame i hi, hnumber]
          exact fun ⟨_, h, _⟩ => nomatch h
        dsimp only
        unfold ZoneFiles.devicesFor
        rw [hnone, List.filterMap_nil]
    | some m =>
        unfold ZoneFiles.devicesFor
        refine congrArg _ (List.filter_congr fun i hi => decide_eq_decide.mpr ?_)
        rw [hsame i hi, hnumber]
        exact ⟨fun ⟨_, h, hvalue⟩ => Option.some.inj h ▸ hvalue, fun h => ⟨m, rfl, h⟩⟩
  rw [hlists]

end Update

/-! ## An example -/

/-- A zone with the given trip points and a link of one device to the trip point `n`. -/
def linkedZone (trips : List KernelTrip) (n : Int) : ZoneFiles where
  trip i := trips.getD i ⟨"", .absent, false, .absent⟩
  cdev i := if i = 0 then ⟨.value n, some "../cooling_device3"⟩ else ⟨.absent, none⟩

/-- An active trip point without a temperature, a passive one and a critical one. -/
def unusedFirst : List KernelTrip :=
  [⟨"active", .value 0, false, .absent⟩, ⟨"passive", .value 80000, false, .absent⟩,
    ⟨"critical", .value 100000, false, .absent⟩]

/-- A sensor and the cooling device 3. -/
def oneDevice : World GenSysfs where
  cdevs _ := { Cdev.init 3 ⟨"", []⟩ with typeStr := "Processor" }
  cdevCount := 1
  sensors := [⟨0, .thermalSysfs, "acpitz", false, false⟩]
  pollIntervalSec := 4
  ignoreCritical := false
  clock _ := 0
  ticks := 0
  events := []

/-- The device for the passive trip point is bound to the trip made from the critical one. -/
theorem link_misplaced :
    letI := StdSort.insertion
    ((SysfsZone.init 0 "acpitz").zoneUpdate (linkedZone unusedFirst 1) (-1) oneDevice).1 =
        thdSuccess ∧
      ¬ BoundAsNamed (linkedZone unusedFirst 1) oneDevice
        ((SysfsZone.init 0 "acpitz").zoneUpdate (linkedZone unusedFirst 1) (-1)
          oneDevice).2.1.zone := by
  let _ := StdSort.insertion
  refine ⟨by decide +kernel, fun hbound => ?_⟩
  have hfinal : ((SysfsZone.init 0 "acpitz").zoneUpdate (linkedZone unusedFirst 1) (-1)
      oneDevice).2.1.zone.tripPoints.map
        (fun t => (t.index, t.type, t.temp, t.cdevs.map (·.cdev))) =
      [(0, .passive, 80000, []), (1, .critical, 100000, [0]), (2, .polling, 72000, [])] := by
    decide +kernel
  have hcritical : ((1, .critical, 100000, [0]) : Int × TripPointType × Nat × List Nat) ∈
      ((SysfsZone.init 0 "acpitz").zoneUpdate (linkedZone unusedFirst 1) (-1)
        oneDevice).2.1.zone.tripPoints.map
          (fun t => (t.index, t.type, t.temp, t.cdevs.map (·.cdev))) := by
    rw [hfinal]
    exact List.mem_cons_of_mem _ List.mem_cons_self
  obtain ⟨t, ht, heq⟩ := List.mem_map.mp hcritical
  simp only [Prod.mk.injEq] at heq
  obtain ⟨hindex, htype, -, hcdevs⟩ := heq
  have hdevice : 0 ∈ t.cdevs.map (·.cdev) := by
    rw [hcdevs]
    exact List.mem_cons_self
  -- no link names the critical trip point
  have hnamed : (linkedZone unusedFirst 1).named oneDevice t = [] := by
    unfold ZoneFiles.named ZoneFiles.kernelNumber
    rw [htype, hindex]
    decide +kernel
  have hfirst := (hbound t ht 0).mp (List.mem_map.mp hdevice)
  rw [hnamed] at hfirst
  cases hfirst

/-- If the trip points that are used come first, the device is bound to the trip that is meant. -/
theorem link_placed :
    letI := StdSort.insertion
    ∃ z' w', (SysfsZone.init 0 "acpitz").zoneUpdate (linkedZone unusedFirst.tail 0) (-1) oneDevice =
        (thdSuccess, z', w') ∧
      BoundAsNamed (linkedZone unusedFirst.tail 0) oneDevice z'.zone := by
  let _ := StdSort.insertion
  have hsensor : oneDevice.searchSensor "acpitz" =
      some ⟨0, .thermalSysfs, "acpitz", false, false⟩ := by
    decide +kernel
  have hsuccess : ((SysfsZone.init 0 "acpitz").zoneUpdate (linkedZone unusedFirst.tail 0) (-1)
      oneDevice).1 = thdSuccess := by
    decide +kernel
  have hnumbers : ((linkedZone unusedFirst.tail 0).tripsAtLinks (-1) 0 0).map
      (linkedZone unusedFirst.tail 0).kernelNumber = [some 0, some 1] := by
    decide +kernel
  refine ⟨_, _, Prod.ext hsuccess rfl,
    ((zone_update_binds_iff hsensor (Prod.ext hsuccess rfl)).2).mpr ?_⟩
  intro p t ht d
  have hnumber : ([some 0, some 1] : List (Option Nat))[p]? =
      some ((linkedZone unusedFirst.tail 0).kernelNumber t) := by
    rw [← hnumbers, List.getElem?_map, ht]
    rfl
  match p with
  | 0 =>
      have hdevices : (linkedZone unusedFirst.tail 0).named oneDevice t =
          (linkedZone unusedFirst.tail 0).devicesFor oneDevice
            (linkedZone unusedFirst.tail 0).readableLinks 0 := by
        unfold ZoneFiles.named
        rw [← Option.some.inj hnumber]
        decide +kernel
      rw [hdevices]
      rfl
  | 1 =>
      have hdevices : (linkedZone unusedFirst.tail 0).named oneDevice t =
          (linkedZone unusedFirst.tail 0).devicesFor oneDevice
            (linkedZone unusedFirst.tail 0).readableLinks 1 := by
        unfold ZoneFiles.named
        rw [← Option.some.inj hnumber]
        decide +kernel
      rw [hdevices]
      rfl
  | p + 2 => cases hnumber

end Thermald
