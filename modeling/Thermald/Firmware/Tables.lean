import Thermald.Lib.Groups
import Thermald.Lib.MachineInt

/-!
# The relationship tables of the firmware

The firmware describes which device heats or cools which target: `_TRT` for passive cooling, `_ART`
for active cooling and `PSVT` for passive cooling with a temperature of its own. An entry names a
source and a target. `parse_target_devices` makes one object for each target, which points to the
entries of the target in each table. `parse_target_devices_groups` says that nothing is lost,
repeated or reordered.

A name is a text, of which only equality matters here, and a pointer into a table is a place in it.
-/

namespace Thermald

namespace Firmware

/-! ## Tables -/

/-- An entry of `_TRT`. -/
structure TrtObject where
  sourceDevice : String
  targetDevice : String
  influence : Nat
  samplePeriod : Nat

/-- An entry of `_ART`. -/
structure ArtObject where
  sourceDevice : String
  targetDevice : String
  weight : Nat

/-- An entry of `PSVT`. -/
structure PsvtObject where
  sourceDevice : String
  targetDevice : String
  samplePeriod : Nat
  passiveTemp : Nat
  stepSize : Nat

/-- `rel_object_t`. -/
structure RelObject where
  targetDevice : String
  targetSensor : String
  trtObjects : List Nat
  artObjects : List Nat
  psvtObjects : List Nat
  temperature : Int
  step : Int
  deriving DecidableEq

namespace RelObject

/-- The constructor of `rel_object_t`. -/
def init (name : String) (temperature step : Int) : RelObject where
  targetDevice := name
  targetSensor := name
  trtObjects := []
  artObjects := []
  psvtObjects := []
  temperature := temperature
  step := step

/-- `trt_objects.push_back`. -/
def pushTrt (place : Nat) (o : RelObject) : RelObject :=
  { o with trtObjects := o.trtObjects ++ [place] }

/-- `art_objects.push_back`. -/
def pushArt (place : Nat) (o : RelObject) : RelObject :=
  { o with artObjects := o.artObjects ++ [place] }

/-- `psvt_objects.push_back`. -/
def pushPsvt (place : Nat) (o : RelObject) : RelObject :=
  { o with psvtObjects := o.psvtObjects ++ [place] }

end RelObject

/-! ## `parse_target_devices` -/

/-- What the three loops do with the object that they make for an entry: an object with its name
takes the entry, and without one the new object takes it. -/
def addObject (relList : List RelObject) (relObj : RelObject) (push : RelObject → RelObject) :
    List RelObject :=
  match relList.findIdx? fun o => o.targetDevice = relObj.targetDevice with
  | none => relList ++ [push relObj]
  | some i => relList.modify i push

/-- The loop over `_TRT`. -/
def parseTrt (relList : List RelObject) (trt : List TrtObject) : List RelObject :=
  trt.zipIdx.foldl (fun relList e =>
    addObject relList (.init e.1.targetDevice 0 0) (.pushTrt e.2)) relList

/-- The loop over `_ART`. -/
def parseArt (relList : List RelObject) (art : List ArtObject) : List RelObject :=
  art.zipIdx.foldl (fun relList e =>
    addObject relList (.init e.1.targetDevice 0 0) (.pushArt e.2)) relList

/-- The loop over `PSVT`. -/
def parsePsvt (relList : List RelObject) (psvt : List PsvtObject) : List RelObject :=
  psvt.zipIdx.foldl (fun relList e =>
    addObject relList (.init e.1.targetDevice (int32 e.1.passiveTemp) (int32 e.1.stepSize))
      (.pushPsvt e.2)) relList

/-- `parse_target_devices`, which is called while `rel_list` is empty. -/
def parseTargetDevices (trt : List TrtObject) (art : List ArtObject) (psvt : List PsvtObject) :
    List RelObject :=
  parsePsvt (parseArt (parseTrt [] trt) art) psvt

/-! ## The three loops as one -/

/-- An entry of a table, as an item of the group of its target. -/
inductive Entry where
  | trt (place : Nat)
  | art (place : Nat)
  | psvt (place : Nat) (temperature step : Int)

namespace Entry

/-- The object that is made for an entry. -/
def fresh (name : String) : Entry → RelObject
  | trt _ => .init name 0 0
  | art _ => .init name 0 0
  | psvt _ temperature step => .init name temperature step

/-- An object takes an entry. -/
def push : Entry → RelObject → RelObject
  | trt place => .pushTrt place
  | art place => .pushArt place
  | psvt place _ _ => .pushPsvt place

/-- The place of an entry of `_TRT`. -/
def trtPlace : Entry → Option Nat
  | trt place => some place
  | _ => none

/-- The place of an entry of `_ART`. -/
def artPlace : Entry → Option Nat
  | art place => some place
  | _ => none

/-- The place of an entry of `PSVT`. -/
def psvtPlace : Entry → Option Nat
  | psvt place _ _ => some place
  | _ => none

end Entry

/-- The entries of a table with their targets. -/
def tableEntries {α : Type} (target : α → String) (entry : α → Nat → Entry) (table : List α) :
    List (String × Entry) :=
  table.zipIdx.map fun e => (target e.1, entry e.1 e.2)

/-- The entries of all tables. -/
def entries (trt : List TrtObject) (art : List ArtObject) (psvt : List PsvtObject) :
    List (String × Entry) :=
  tableEntries TrtObject.targetDevice (fun _ => .trt) trt ++
    tableEntries ArtObject.targetDevice (fun _ => .art) art ++
    tableEntries PsvtObject.targetDevice
      (fun o place => .psvt place (int32 o.passiveTemp) (int32 o.stepSize)) psvt

/-- The groups of some entries, put behind those that there are. -/
def collectAll (relList : List RelObject) (entries : List (String × Entry)) : List RelObject :=
  entries.foldl (collect RelObject.targetDevice Entry.fresh Entry.push) relList

theorem parse_trt_eq (relList : List RelObject) (trt : List TrtObject) : parseTrt relList trt =
    collectAll relList (tableEntries TrtObject.targetDevice (fun _ => .trt) trt) := by
  unfold parseTrt collectAll tableEntries
  rw [List.foldl_map]
  rfl

theorem parse_art_eq (relList : List RelObject) (art : List ArtObject) : parseArt relList art =
    collectAll relList (tableEntries ArtObject.targetDevice (fun _ => .art) art) := by
  unfold parseArt collectAll tableEntries
  rw [List.foldl_map]
  rfl

theorem parse_psvt_eq (relList : List RelObject) (psvt : List PsvtObject) :
    parsePsvt relList psvt = collectAll relList (tableEntries PsvtObject.targetDevice
      (fun o place => .psvt place (int32 o.passiveTemp) (int32 o.stepSize)) psvt) := by
  unfold parsePsvt collectAll tableEntries
  rw [List.foldl_map]
  rfl

/-- The three loops make the groups of all entries. -/
theorem parse_target_devices_eq (trt : List TrtObject) (art : List ArtObject)
    (psvt : List PsvtObject) :
    parseTargetDevices trt art psvt = collectAll [] (entries trt art psvt) := by
  unfold parseTargetDevices entries
  rw [parse_psvt_eq, parse_art_eq, parse_trt_eq]
  unfold collectAll
  rw [List.foldl_append, List.foldl_append]

/-- The objects are the groups of the entries by their targets. -/
theorem parse_target_devices_grouped (trt : List TrtObject) (art : List ArtObject)
    (psvt : List PsvtObject) :
    Grouped RelObject.targetDevice Entry.fresh Entry.push (entries trt art psvt)
      (parseTargetDevices trt art psvt) := by
  rw [parse_target_devices_eq]
  refine grouped_foldl (fun name entry => ?_) (fun entry o => ?_) _
  · cases entry <;> rfl
  · cases entry <;> rfl

/-! ## What a group holds -/

/-- One of the lists of an object, as it grows when the object takes entries. -/
structure ListOfKind (objects : RelObject → List Nat) (place : Entry → Option Nat) : Prop where
  fresh : ∀ name entry, objects (Entry.fresh name entry) = []
  push : ∀ entry o, objects (Entry.push entry o) = objects o ++ (place entry).toList

theorem trt_objects_kind : ListOfKind RelObject.trtObjects Entry.trtPlace := by
  refine ⟨fun name entry => ?_, fun entry o => ?_⟩
  · cases entry <;> rfl
  · cases entry with
    | trt place => rfl
    | art place => exact (List.append_nil _).symm
    | psvt place temperature step => exact (List.append_nil _).symm

theorem art_objects_kind : ListOfKind RelObject.artObjects Entry.artPlace := by
  refine ⟨fun name entry => ?_, fun entry o => ?_⟩
  · cases entry <;> rfl
  · cases entry with
    | trt place => exact (List.append_nil _).symm
    | art place => rfl
    | psvt place temperature step => exact (List.append_nil _).symm

theorem psvt_objects_kind : ListOfKind RelObject.psvtObjects Entry.psvtPlace := by
  refine ⟨fun name entry => ?_, fun entry o => ?_⟩
  · cases entry <;> rfl
  · cases entry with
    | trt place => exact (List.append_nil _).symm
    | art place => exact (List.append_nil _).symm
    | psvt place temperature step => rfl

section Kind

variable {objects : RelObject → List Nat} {place : Entry → Option Nat}

/-- A new object that takes entries has those of the kind in its list. -/
theorem ListOfKind.build (h : ListOfKind objects place) (name : String) (first : Entry)
    (rest : List Entry) : objects (build Entry.fresh Entry.push name first rest) =
      (first :: rest).filterMap place := by
  induction rest using List.reverseRecOn with
  | nil =>
      show objects (Entry.push first (Entry.fresh name first)) = _
      rw [h.push, h.fresh]
      cases hplace : place first <;> simp [hplace]
  | append_singleton rest entry ih =>
      rw [build_concat, h.push, ih, ← List.cons_append, List.filterMap_append]
      cases hplace : place entry <;> simp [hplace]

/-- The list of a group holds the entries of its target. -/
theorem ListOfKind.grouped (h : ListOfKind objects place) {all : List (String × Entry)}
    {relList : List RelObject}
    (hgrouped : Grouped RelObject.targetDevice Entry.fresh Entry.push all relList) {o : RelObject}
    (ho : o ∈ relList) : objects o = (itemsOf all o.targetDevice).filterMap place := by
  obtain ⟨first, rest, hitems, hbuilt⟩ := hgrouped.built o ho
  rw [hitems, ← h.build o.targetDevice first rest, ← hbuilt]

end Kind

section Table

variable {α : Type} {target : α → String} {entry : α → Nat → Entry} {place : Entry → Option Nat}

/-- A table of another kind contributes nothing to a list. -/
theorem items_of_other_table (hplace : ∀ a n, place (entry a n) = none) (table : List α)
    (name : String) : (itemsOf (tableEntries target entry table) name).filterMap place = [] := by
  refine List.filterMap_eq_nil_iff.mpr fun e he => ?_
  obtain ⟨pair, hpair, rfl⟩ := List.mem_map.mp he
  obtain ⟨a, -, rfl⟩ := List.mem_map.mp (List.mem_filter.mp hpair).1
  exact hplace _ _

/-- The table of its kind contributes the places of the target. -/
theorem items_of_table (hplace : ∀ a n, place (entry a n) = some n) (table : List α)
    (name : String) : (itemsOf (tableEntries target entry table) name).filterMap place =
      placesOf (table.map target) name := by
  unfold itemsOf tableEntries placesOf
  rw [List.filterMap_map, List.filter_map, List.filterMap_map, List.zipIdx_map, List.filter_map,
    List.map_map, ← List.filterMap_eq_map]
  refine List.filterMap_congr fun e _ => ?_
  exact hplace e.1 e.2

end Table

/-! ## The groups -/

/-- The targets of all tables, in the order in which the tables are read. -/
def targets (trt : List TrtObject) (art : List ArtObject) (psvt : List PsvtObject) : List String :=
  trt.map (·.targetDevice) ++ art.map (·.targetDevice) ++ psvt.map (·.targetDevice)

/-- Each entry of a table is exactly once in the lists of a kind, in that of the group of its
target, and each list is in the order of the table. -/
structure Collects (table : List String) (objects : RelObject → List Nat)
    (relList : List RelObject) : Prop where
  once : (relList.flatMap objects).Perm (List.range table.length)
  own : ∀ o ∈ relList, ∀ place ∈ objects o, table[place]? = some o.targetDevice
  ordered : ∀ o ∈ relList, (objects o).Pairwise (· < ·)

/-- The groups of the targets of three tables. -/
structure GroupsTables (trt : List TrtObject) (art : List ArtObject) (psvt : List PsvtObject)
    (relList : List RelObject) : Prop where
  distinct : (relList.map (·.targetDevice)).Nodup
  complete : ∀ name, name ∈ relList.map (·.targetDevice) ↔ name ∈ targets trt art psvt
  order : relList.Pairwise fun o o' =>
    (targets trt art psvt).idxOf o.targetDevice < (targets trt art psvt).idxOf o'.targetDevice
  trtObjects : Collects (trt.map (·.targetDevice)) (·.trtObjects) relList
  artObjects : Collects (art.map (·.targetDevice)) (·.artObjects) relList
  psvtObjects : Collects (psvt.map (·.targetDevice)) (·.psvtObjects) relList

theorem table_entries_targets {α : Type} {target : α → String} {entry : α → Nat → Entry}
    (table : List α) : (tableEntries target entry table).map (·.1) = table.map target := by
  unfold tableEntries
  rw [List.map_map]
  show table.zipIdx.map (target ∘ Prod.fst) = table.map target
  rw [← List.map_map, List.zipIdx_map_fst]

theorem entries_targets (trt : List TrtObject) (art : List ArtObject) (psvt : List PsvtObject) :
    (entries trt art psvt).map (·.1) = targets trt art psvt := by
  unfold entries targets
  rw [List.map_append, List.map_append, table_entries_targets, table_entries_targets,
    table_entries_targets]

/-- The lists of a kind that hold the places of their targets. -/
theorem collects_of_places {table : List String} {objects : RelObject → List Nat}
    {relList : List RelObject} (hdistinct : (relList.map (·.targetDevice)).Nodup)
    (hall : ∀ name ∈ table, name ∈ relList.map (·.targetDevice))
    (hplaces : ∀ o ∈ relList, objects o = placesOf table o.targetDevice) :
    Collects table objects relList where
  once := by
    have hflat : relList.flatMap objects =
        (relList.map (·.targetDevice)).flatMap (placesOf table) := by
      rw [List.flatMap_map]
      exact List.flatMap_congr hplaces
    rw [hflat]
    exact places_of_perm hdistinct hall
  own o ho place hplace := by
    rw [hplaces o ho] at hplace
    exact mem_places_of.mp hplace
  ordered o ho := by
    rw [hplaces o ho]
    exact places_of_ascending table o.targetDevice

section Objects

variable {trt : List TrtObject} {art : List ArtObject} {psvt : List PsvtObject}

/-- The objects are those of the targets, in the order of first appearance. -/
theorem parse_target_devices_keys :
    (parseTargetDevices trt art psvt).map (·.targetDevice) = (targets trt art psvt).eraseDups :=
  entries_targets trt art psvt ▸ (parse_target_devices_grouped trt art psvt).keys

variable {o : RelObject}

theorem trt_objects_places (ho : o ∈ parseTargetDevices trt art psvt) :
    o.trtObjects = placesOf (trt.map (·.targetDevice)) o.targetDevice := by
  rw [trt_objects_kind.grouped (parse_target_devices_grouped trt art psvt) ho, entries,
    items_of_append, items_of_append, List.filterMap_append, List.filterMap_append,
    items_of_table fun _ _ => rfl, items_of_other_table fun _ _ => rfl,
    items_of_other_table fun _ _ => rfl, List.append_nil, List.append_nil]

theorem art_objects_places (ho : o ∈ parseTargetDevices trt art psvt) :
    o.artObjects = placesOf (art.map (·.targetDevice)) o.targetDevice := by
  rw [art_objects_kind.grouped (parse_target_devices_grouped trt art psvt) ho, entries,
    items_of_append, items_of_append, List.filterMap_append, List.filterMap_append,
    items_of_other_table fun _ _ => rfl, items_of_table fun _ _ => rfl,
    items_of_other_table fun _ _ => rfl, List.append_nil, List.nil_append]

theorem psvt_objects_places (ho : o ∈ parseTargetDevices trt art psvt) :
    o.psvtObjects = placesOf (psvt.map (·.targetDevice)) o.targetDevice := by
  rw [psvt_objects_kind.grouped (parse_target_devices_grouped trt art psvt) ho, entries,
    items_of_append, items_of_append, List.filterMap_append, List.filterMap_append,
    items_of_other_table fun _ _ => rfl, items_of_other_table fun _ _ => rfl,
    items_of_table fun _ _ => rfl, List.nil_append, List.nil_append]

/-- The sensor of a target has its name. -/
theorem target_sensor_eq (ho : o ∈ parseTargetDevices trt art psvt) :
    o.targetSensor = o.targetDevice := by
  obtain ⟨first, rest, -, hbuilt⟩ := (parse_target_devices_grouped trt art psvt).built o ho
  have hsensor : (build Entry.fresh Entry.push o.targetDevice first rest).targetSensor =
      o.targetDevice := by
    refine key_build (fun name entry => ?_) (fun entry o => ?_) first rest
    · cases entry <;> rfl
    · cases entry <;> rfl
  rwa [← hbuilt] at hsensor

end Objects

/-- `parse_target_devices` makes one object for each target, in the order of first appearance, and
puts every entry of every table exactly once into the list of its kind of the object of its
target, in the order of the table. -/
theorem parse_target_devices_groups (trt : List TrtObject) (art : List ArtObject)
    (psvt : List PsvtObject) :
    GroupsTables trt art psvt (parseTargetDevices trt art psvt) := by
  have hkeys : (parseTargetDevices trt art psvt).map (·.targetDevice) =
      (targets trt art psvt).eraseDups := parse_target_devices_keys
  have hdistinct : ((parseTargetDevices trt art psvt).map (·.targetDevice)).Nodup :=
    hkeys ▸ erase_dups_nodup _
  have hcomplete (name : String) : name ∈ (parseTargetDevices trt art psvt).map (·.targetDevice) ↔
      name ∈ targets trt art psvt := by
    rw [hkeys]
    exact List.mem_eraseDups
  refine ⟨hdistinct, hcomplete, ?_, ?_, ?_, ?_⟩
  · have horder := erase_dups_order (targets trt art psvt)
    rw [← hkeys, List.pairwise_map] at horder
    exact horder
  · refine collects_of_places hdistinct (fun name hname => ?_) fun o ho => trt_objects_places ho
    exact (hcomplete name).mpr (List.mem_append_left _ (List.mem_append_left _ hname))
  · refine collects_of_places hdistinct (fun name hname => ?_) fun o ho => art_objects_places ho
    exact (hcomplete name).mpr (List.mem_append_left _ (List.mem_append_right _ hname))
  · refine collects_of_places hdistinct (fun name hname => ?_) fun o ho => psvt_objects_places ho
    exact (hcomplete name).mpr (List.mem_append_right _ hname)

/-- Two passive sources and a fan of one target. -/
example : (parseTargetDevices [⟨"TCPU", "TCPU", 100, 50⟩, ⟨"TMEM", "TCPU", 20, 50⟩]
    [⟨"TFN1", "TCPU", 80⟩] []).map (fun o => (o.targetDevice, o.trtObjects, o.artObjects)) =
      [("TCPU", [0, 1], [0])] := by
  decide

end Firmware

end Thermald
