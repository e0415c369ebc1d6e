import Thermald.Lib.Members
import Thermald.Config.Parse

/-!
# What an element of the configuration leaves for its siblings

The parser fills one record for all elements of a kind, and resets members of it before each
element. The entry of an element depends on the elements before it through those members that
are neither reset nor set by the element itself. `platformCarried`, `zoneCarried` and
`coolingDevCarried` list them; a sensor has none. `entries_agree_iff` says that they are all.
-/

namespace Thermald

/-! ## Loops -/

section Loops

variable {σ α : Type}

/-- Whether a node is an element that this table reads, under a name and with children of which
something holds. -/
def readsWith (table : List (String × Entry σ)) (holds : String → List XmlNode → Bool) :
    XmlNode → Bool
  | .element name children =>
      (xmlNodeListGetString children).isSome &&
        (table.find? fun e => thdStrcasecmpN name e.1).any fun e => holds e.1 children
  | .text _ => false
  | .comment => false

/-- What a handler does with an element that it reads under an entry. -/
def Entry.apply (text : String) (children : List XmlNode) (s : σ) : Entry σ → Option σ
  | .value read => some (read text s)
  | .group read => read children s

/-- The loop body of a handler does nothing or applies an entry of its table. -/
theorem read_element_cases (table : List (String × Entry σ)) (n : XmlNode) :
    ((∀ s, readElement table s n = some s) ∧ ∀ holds, readsWith table holds n = false) ∨
      ∃ e ∈ table, ∃ text children, (∀ s, readElement table s n = e.2.apply text children s) ∧
        ∀ holds, readsWith table holds n = holds e.1 children := by
  cases n with
  | text content => exact .inl ⟨fun _ => rfl, fun _ => rfl⟩
  | comment => exact .inl ⟨fun _ => rfl, fun _ => rfl⟩
  | element name children =>
      unfold readElement readsWith lookUp
      dsimp only
      cases htext : xmlNodeListGetString children with
      | none => exact .inl ⟨fun _ => rfl, fun _ => rfl⟩
      | some text =>
          cases hfind : table.find? fun e => thdStrcasecmpN name e.1 with
          | none => exact .inl ⟨fun _ => rfl, fun _ => rfl⟩
          | some e =>
              have he := List.mem_of_find?_eq_some hfind
              refine .inr ⟨e, he, text, children, fun s => ?_, fun _ => ?_⟩
              · obtain ⟨key, entry⟩ := e
                cases entry with
                | value read => rfl
                | group read => rfl
              · rfl

/-- A handler acts on a member if the entries of its table do. -/
theorem read_elements_acts_on {table : List (String × Entry σ)} {member : σ → α}
    {sets : String → List XmlNode → Bool}
    (h : ∀ e ∈ table, ∀ text children,
      ActsOn member (fun s => e.2.apply text children s) (sets e.1 children))
    (nodes : List XmlNode) :
    ActsOn member (readElements table nodes) (nodes.any (readsWith table sets)) := by
  refine ActsOn.foldlM (fun n => ?_) nodes
  obtain ⟨hskip, hreads⟩ | ⟨e, he, text, children, hstep, hreads⟩ := read_element_cases table n
  · rw [hreads]
    refine .keeps fun s => ?_
    rw [hskip]
    rfl
  · rw [hreads]
    simp only [hstep]
    exact h e he text children

/-- What a handler leaves in a member depends on the member alone if this is true of the entries of
its table. -/
theorem read_elements_determines {table : List (String × Entry σ)} {member : σ → α}
    (h : ∀ e ∈ table, ∀ text children, Determines member fun s => e.2.apply text children s)
    (nodes : List XmlNode) : Determines member (readElements table nodes) := by
  refine Determines.foldlM (fun n => ?_) nodes
  obtain ⟨hskip, -⟩ | ⟨e, he, text, children, hstep, -⟩ := read_element_cases table n
  · simp only [hskip]
    exact fun s s' heq => congrArg some heq
  · simp only [hstep]
    exact h e he text children

/-- A handler cannot fail if the entries of its table cannot. -/
theorem read_elements_total {table : List (String × Entry σ)}
    (h : ∀ e ∈ table, ∀ text children s, (e.2.apply text children s).isSome = true)
    (nodes : List XmlNode) (s : σ) : (readElements table nodes s).isSome = true := by
  induction nodes generalizing s with
  | nil => rfl
  | cons n rest ih =>
      have hstep : (readElement table s n).isSome = true := by
        obtain ⟨hskip, -⟩ | ⟨e, he, text, children, hstep, -⟩ := read_element_cases table n
        · rw [hskip]
          rfl
        · rw [hstep]
          exact h e he text children s
      obtain ⟨s', hs'⟩ := Option.isSome_iff_exists.mp hstep
      show ((readElement table s n).bind fun s => readElements table rest s).isSome = true
      rw [hs']
      exact ih s'

/-- A handler that looks for elements of one name cannot fail if what it calls cannot. -/
theorem read_each_total {key : String} {read : List XmlNode → σ → Option σ}
    (h : ∀ children s, (read children s).isSome = true) (nodes : List XmlNode) (s : σ) :
    (readEach key read nodes s).isSome = true := by
  induction nodes generalizing s with
  | nil => rfl
  | cons n rest ih =>
      have hstep : (readNamed key read s n).isSome = true := by
        cases n with
        | text content => rfl
        | comment => rfl
        | element name children =>
            show (if thdStrcasecmpN name key then read children s else some s).isSome = true
            split
            · exact h children s
            · rfl
      obtain ⟨s', hs'⟩ := Option.isSome_iff_exists.mp hstep
      show ((readNamed key read s n).bind fun s => readEach key read rest s).isSome = true
      rw [hs']
      exact ih s'

/-! ## Records that are filled again -/

variable (key : String) (reset : σ → σ) (read : List XmlNode → σ → Option σ) (first : σ)

/-- The record after some elements. -/
def recordAfter (pre : List XmlNode) : Option σ :=
  (readRecords key reset read pre (first, [])).map (·.1)

/-- Whether a node is an element of a name. -/
def isNamed : XmlNode → Bool
  | .element name _ => thdStrcasecmpN name key
  | .text _ => false
  | .comment => false

variable {key reset read first}

/-- The loop at an element of the name. -/
theorem read_records_named {name : String} (hname : thdStrcasecmpN name key = true)
    (children rest : List XmlNode) (s : σ × List σ) :
    readRecords key reset read (.element name children :: rest) s =
      (read children (reset s.1)).bind fun record =>
        readRecords key reset read rest (record, s.2 ++ [record]) := by
  show (if thdStrcasecmpN name key then
    (read children (reset s.1)).bind fun record => some (record, s.2 ++ [record])
    else some s).bind (fun s => readRecords key reset read rest s) = _
  rw [if_pos hname]
  cases read children (reset s.1) with
  | none => rfl
  | some record => rfl

/-- The loop at another node. -/
theorem read_records_other {n : XmlNode} (hn : isNamed key n = false) (rest : List XmlNode)
    (s : σ × List σ) :
    readRecords key reset read (n :: rest) s = readRecords key reset read rest s := by
  cases n with
  | text content => rfl
  | comment => rfl
  | element name children =>
      show (if thdStrcasecmpN name key then
        (read children (reset s.1)).bind fun record => some (record, s.2 ++ [record])
        else some s).bind (fun s => readRecords key reset read rest s) = _
      have hname : ¬ thdStrcasecmpN name key = true := by simpa [isNamed] using hn
      rw [if_neg hname]
      rfl

/-- The entries are put behind those that are there, and do not depend on them. -/
theorem read_records_list (nodes : List XmlNode) (record : σ) (list : List σ) :
    readRecords key reset read nodes (record, list) =
      (readRecords key reset read nodes (record, [])).map fun s => (s.1, list ++ s.2) := by
  induction nodes generalizing record list with
  | nil =>
      show some (record, list) = some (record, list ++ [])
      rw [List.append_nil]
  | cons n rest ih =>
      cases hn : isNamed key n with
      | false =>
          rw [read_records_other hn, read_records_other hn]
          exact ih record list
      | true =>
          cases n with
          | text content => exact absurd hn Bool.false_ne_true
          | comment => exact absurd hn Bool.false_ne_true
          | element name children =>
              rw [read_records_named hn, read_records_named hn]
              cases read children (reset record) with
              | none => rfl
              | some r =>
                  show readRecords key reset read rest (r, list ++ [r]) =
                    (readRecords key reset read rest (r, [r])).map fun s => (s.1, list ++ s.2)
                  rw [ih r (list ++ [r]), ih r [r], Option.map_map]
                  congr 1
                  funext s
                  show (s.1, list ++ [r] ++ s.2) = (s.1, list ++ ([r] ++ s.2))
                  rw [List.append_assoc]

/-- The loop ends the process, or puts entries behind the list; the list has no part in this. -/
theorem read_records_cases (nodes : List XmlNode) (record : σ) :
    (∀ list, readRecords key reset read nodes (record, list) = none) ∨
      ∃ r l, ∀ list, readRecords key reset read nodes (record, list) = some (r, list ++ l) := by
  -- by `read_records_list` the empty list stands for all
  cases hread : readRecords key reset read nodes (record, []) with
  | none =>
      refine .inl fun list => ?_
      rw [read_records_list, hread]
      rfl
  | some s =>
      refine .inr ⟨s.1, s.2, fun list => ?_⟩
      rw [read_records_list, hread]
      rfl

/-- The loop puts entries behind the list if what it calls cannot fail. -/
theorem read_records_appends (h : ∀ children s, (read children s).isSome = true)
    (nodes : List XmlNode) (record : σ) :
    ∃ r l, ∀ list, readRecords key reset read nodes (record, list) = some (r, list ++ l) := by
  obtain hnone | happends := read_records_cases nodes record
  · have htotal : (readRecords key reset read nodes (record, [])).isSome = true := by
      refine read_each_total (fun children s => ?_) nodes _
      obtain ⟨entry, hentry⟩ := Option.isSome_iff_exists.mp (h children (reset s.1))
      show ((read children (reset s.1)).bind fun record =>
        some (record, s.2 ++ [record])).isSome = _
      rw [hentry]
      rfl
    rw [hnone] at htotal
    exact absurd htotal Bool.false_ne_true
  · exact happends

/-- Two parts of a list of nodes are read one after the other. -/
theorem read_records_append (pre rest : List XmlNode) (s : σ × List σ) :
    readRecords key reset read (pre ++ rest) s =
      (readRecords key reset read pre s).bind (readRecords key reset read rest) :=
  List.foldlM_append ..

/-- There is one entry for each element of the name. -/
theorem read_records_length {nodes : List XmlNode} {record r : σ} {list l : List σ}
    (h : readRecords key reset read nodes (record, list) = some (r, l)) :
    l.length = list.length + nodes.countP (isNamed key) := by
  induction nodes generalizing record list with
  | nil =>
      cases h
      rfl
  | cons n rest ih =>
      cases hn : isNamed key n with
      | false =>
          rw [read_records_other hn] at h
          rw [ih h, List.countP_cons_of_neg (by simp [hn])]
      | true =>
          cases n with
          | text content => exact absurd hn Bool.false_ne_true
          | comment => exact absurd hn Bool.false_ne_true
          | element name children =>
              rw [read_records_named hn] at h
              obtain ⟨r', -, hrest⟩ := Option.bind_eq_some_iff.mp h
              rw [ih hrest, List.countP_cons_of_pos hn, List.length_append, List.length_singleton]
              dsimp only
              omega

/-- The entry of an element is read into the record that the elements before it leave, wherever it
stands. -/
theorem read_records_entry {name : String} (hname : thdStrcasecmpN name key = true)
    {pre children post : List XmlNode} {r : σ} {list l : List σ}
    (h : readRecords key reset read (pre ++ .element name children :: post) (first, list) =
      some (r, l)) :
    ∃ record entry, recordAfter key reset read first pre = some record ∧
      read children (reset record) = some entry ∧
      l[list.length + pre.countP (isNamed key)]? = some entry := by
  rw [read_records_append] at h
  obtain ⟨⟨record, before⟩, hpre, h⟩ := Option.bind_eq_some_iff.mp h
  rw [read_records_named hname] at h
  obtain ⟨entry, hentry, h⟩ := Option.bind_eq_some_iff.mp h
  refine ⟨record, entry, ?_, hentry, ?_⟩
  · -- the record does not depend on the list
    rw [read_records_list] at hpre
    obtain ⟨⟨record', before'⟩, hpre', heq⟩ := Option.map_eq_some_iff.mp hpre
    cases heq
    unfold recordAfter
    rw [hpre']
    rfl
  · -- the entry stands behind those of the elements before, and the others stand behind it
    rw [read_records_list] at h
    obtain ⟨⟨record', after⟩, -, heq⟩ := Option.map_eq_some_iff.mp h
    cases heq
    rw [← read_records_length hpre, List.append_assoc,
      List.getElem?_append_right (Nat.le_refl _), Nat.sub_self]
    rfl

/-! ## Members that are carried over -/

/-- A member of the record that is not reset before an element, with the children of an element that
set it. -/
structure Carried (σ : Type) where
  {α : Type}
  member : σ → α
  sets : XmlNode → Bool

variable (reset read) in
/-- These are the members of the record that are carried over from one element to the next. -/
structure CarriesOver (members : List (Carried σ)) : Prop where
  actsOn : ∀ m ∈ members, ∀ children,
    ActsOn m.member (fun record => read children (reset record)) (children.any m.sets)
  ext : ∀ children record record' entry entry',
    read children (reset record) = some entry → read children (reset record') = some entry' →
    (∀ m ∈ members, m.member entry = m.member entry') → entry = entry'

/-- Two entries of the same element are equal exactly if each member that is carried over is set in
the element, or the elements before it have left the same in both. -/
theorem CarriesOver.entry_eq_iff {members : List (Carried σ)}
    (hmembers : CarriesOver reset read members)
    {name name' : String} (hname : thdStrcasecmpN name key = true)
    (hname' : thdStrcasecmpN name' key = true)
    {pre pre' children post post' : List XmlNode} {r r' : σ} {list list' l l' : List σ}
    (h : readRecords key reset read (pre ++ .element name children :: post) (first, list) =
      some (r, l))
    (h' : readRecords key reset read (pre' ++ .element name' children :: post') (first, list') =
      some (r', l')) :
    l[list.length + pre.countP (isNamed key)]? = l'[list'.length + pre'.countP (isNamed key)]? ↔
      ∀ m ∈ members, children.any m.sets = true ∨
        (recordAfter key reset read first pre).map m.member =
          (recordAfter key reset read first pre').map m.member := by
  obtain ⟨record, entry, hrecord, hread, hentry⟩ := read_records_entry hname h
  obtain ⟨record', entry', hrecord', hread', hentry'⟩ := read_records_entry hname' h'
  rw [hentry, hentry', hrecord, hrecord', Option.some_inj]
  have hmember (m : Carried σ) (hm : m ∈ members) :
      m.member entry = m.member entry' ↔
        children.any m.sets = true ∨ m.member record = m.member record' := by
    have hiff := (hmembers.actsOn m hm children).eq_iff hread record'
    rw [hread, hread'] at hiff
    exact Option.some_inj.symm.trans hiff
  constructor
  · intro heq m hm
    obtain hset | hsame := (hmember m hm).mp (congrArg m.member heq)
    · exact .inl hset
    · exact .inr (congrArg some hsame)
  · intro hall
    refine hmembers.ext children record record' entry entry' hread hread' fun m hm => ?_
    refine (hmember m hm).mpr ?_
    obtain hset | hsame := hall m hm
    · exact .inl hset
    · exact .inr (Option.some.inj hsame)

end Loops

/-! ## Handlers that cannot fail -/

theorem is_some_bind_some {α β : Type} (x : Option α) (f : α → β) :
    (x.bind fun a => some (f a)).isSome = x.isSome := by
  cases x with
  | none => rfl
  | some a => rfl

theorem parse_pid_values_total (nodes : List XmlNode) : (parsePidValues nodes).isSome = true := by
  refine read_elements_total ?_ nodes _
  simp [pidTable, Entry.apply]

theorem parse_new_trip_cdev_total (nodes : List XmlNode) (b : TripCdevConf) :
    (parseNewTripCdev nodes b).isSome = true := by
  refine read_elements_total ?_ nodes b
  simp [tripCdevTable, Entry.apply, is_some_bind_some, parse_pid_values_total]

theorem parse_new_trip_point_total (nodes : List XmlNode) (t : TripPointConf) :
    (parseNewTripPoint nodes t).isSome = true := by
  refine read_elements_total ?_ nodes _
  simp [tripPointTable, Entry.apply, is_some_bind_some, parse_new_trip_cdev_total]

theorem parse_new_cooling_dev_total (nodes : List XmlNode) (cdev : CoolingDevConf) :
    (parseNewCoolingDev nodes cdev).isSome = true := by
  refine read_elements_total ?_ nodes _
  simp [coolingDevTable, Entry.apply, is_some_bind_some, parse_pid_values_total]

theorem parse_new_sensor_total (nodes : List XmlNode) (sensor : ThermalSensorConf) :
    (parseNewSensor nodes sensor).isSome = true := by
  have hlink (nodes : List XmlNode) (l : SensorLinkConf) :
      (parseNewSensorLink nodes l).isSome = true := by
    refine read_elements_total ?_ nodes l
    simp [sensorLinkTable, Entry.apply]
  have htarget (nodes : List XmlNode) : (parseNewVirtualSensorTarget nodes).isSome = true := by
    refine read_elements_total ?_ nodes _
    simp [sensorTargetTable, Entry.apply]
  have hpolling (nodes : List XmlNode) : (parseNewVirtualSensorPolling nodes).isSome = true := by
    refine read_elements_total ?_ nodes _
    simp [sensorPollingTable, Entry.apply]
  refine read_elements_total ?_ nodes sensor
  simp [sensorTable, Entry.apply, is_some_bind_some, hlink, htarget, hpolling]

theorem parse_ppcc_total (nodes : List XmlNode) (ppcc : PpccConf) :
    (parsePpcc nodes ppcc).isSome = true := by
  refine read_elements_total ?_ nodes ppcc
  simp [ppccTable, Entry.apply]

/-! ## Cooling devices -/

/-- The members of a cooling device that are carried over. -/
def coolingDevCarried : List (Carried CoolingDevConf) := [
  ⟨CoolingDevConf.pid, readsWith coolingDevTable fun key _ => key = "PidControl"⟩,
  ⟨CoolingDevConf.writePrefix, readsWith coolingDevTable fun key _ => key = "WritePrefix"⟩]

/-- The other members of a cooling device. -/
def CoolingDevConf.rest (cdev : CoolingDevConf) : CoolingDevConf :=
  { cdev with pid := none, writePrefix := "" }

theorem cooling_dev_pid_set (nodes : List XmlNode) :
    ActsOn CoolingDevConf.pid (readElements coolingDevTable nodes)
      (nodes.any (readsWith coolingDevTable fun key _ => key = "PidControl")) := by
  refine read_elements_acts_on (fun e he text children => ?_) nodes
  revert e
  obtain ⟨pid, hpid⟩ := Option.isSome_iff_exists.mp (parse_pid_values_total children)
  simp only [coolingDevTable, List.forall_mem_cons, List.not_mem_nil, false_implies,
    implies_true, and_true, Entry.apply]
  and_intros
  all_goals first | exact .keeps fun _ => rfl | skip
  · exact .writes (v := some (some pid)) fun cdev => by rw [hpid]; rfl

theorem cooling_dev_prefix_set (nodes : List XmlNode) :
    ActsOn CoolingDevConf.writePrefix (readElements coolingDevTable nodes)
      (nodes.any (readsWith coolingDevTable fun key _ => key = "WritePrefix")) := by
  refine read_elements_acts_on (fun e he text children => ?_) nodes
  revert e
  obtain ⟨pid, hpid⟩ := Option.isSome_iff_exists.mp (parse_pid_values_total children)
  simp only [coolingDevTable, List.forall_mem_cons, List.not_mem_nil, false_implies,
    implies_true, and_true, Entry.apply]
  and_intros
  all_goals first | exact .keeps fun _ => rfl | skip
  · exact .keeps fun cdev => by rw [hpid]; rfl
  · exact .writes (v := some text) fun _ => rfl

theorem cooling_dev_rest (nodes : List XmlNode) :
    Determines CoolingDevConf.rest (readElements coolingDevTable nodes) := by
  refine read_elements_determines (fun e he text children => .of_blank fun s => ?_) nodes
  revert e
  obtain ⟨pid, hpid⟩ := Option.isSome_iff_exists.mp (parse_pid_values_total children)
  simp only [coolingDevTable, List.forall_mem_cons, List.not_mem_nil, false_implies,
    implies_true, and_true, Entry.apply]
  and_intros
  all_goals first | rfl | skip
  · rw [hpid]
    rfl

theorem cooling_dev_carries_over :
    CarriesOver resetCoolingDev parseNewCoolingDev coolingDevCarried where
  actsOn := by
    intro m hm children
    obtain _ | ⟨_, _ | ⟨_, hm⟩⟩ := hm
    · exact (cooling_dev_pid_set children).after fun _ => rfl
    · exact (cooling_dev_prefix_set children).after fun _ => rfl
    · exact absurd hm List.not_mem_nil
  ext := by
    intro children record record' entry entry' h h' hmembers
    have hrest := (cooling_dev_rest children).eq_of_some h h' rfl
    have hpid : entry.pid = entry'.pid := hmembers _ (.head _)
    have hprefix : entry.writePrefix = entry'.writePrefix := hmembers _ (.tail _ (.head _))
    calc
      entry = { entry.rest with pid := entry.pid, writePrefix := entry.writePrefix } := rfl
      _ = { entry'.rest with pid := entry'.pid, writePrefix := entry'.writePrefix } := by
        rw [hrest, hpid, hprefix]
      _ = entry' := rfl

/-! ## Zones -/

/-- Whether a child of a zone is taken for its type. -/
def namesZone : XmlNode → Bool
  | .element name _ => !thdStrcasecmpN name "TripPoints" && thdStrcasecmpN name "Type"
  | .text _ => false
  | .comment => false

/-- The member of a zone that is carried over. -/
def zoneCarried : List (Carried ThermalZoneConf) := [⟨ThermalZoneConf.type, namesZone⟩]

/-- Trip points are put behind those that are there. -/
theorem parse_trip_points_appends (nodes : List XmlNode) :
    ∃ l, ∀ zone, parseTripPoints nodes zone = some { zone with tripPts := zone.tripPts ++ l } := by
  induction nodes with
  | nil =>
      refine ⟨[], fun zone => ?_⟩
      rw [List.append_nil]
      rfl
  | cons n rest ih =>
      obtain ⟨l, ih⟩ := ih
      cases n with
      | text content => exact ⟨l, ih⟩
      | comment => exact ⟨l, ih⟩
      | element name children =>
          obtain ⟨t, ht⟩ :=
            Option.isSome_iff_exists.mp (parse_new_trip_point_total children newTripPoint)
          have hstep (zone : ThermalZoneConf) :
              parseTripPoints (.element name children :: rest) zone =
                parseTripPoints rest (if thdStrcasecmpN name "TripPoint" then
                  { zone with tripPts := zone.tripPts ++ [t] } else zone) := by
            show (if thdStrcasecmpN name "TripPoint" then
              (parseNewTripPoint children newTripPoint).bind fun t =>
                some { zone with tripPts := zone.tripPts ++ [t] }
              else some zone).bind (parseTripPoints rest) = _
            rw [ht]
            split
            · rfl
            · rfl
          refine ⟨if thdStrcasecmpN name "TripPoint" then t :: l else l, fun zone => ?_⟩
          rw [hstep, ih]
          split
          · simp
          · rfl

theorem zone_type (nodes : List XmlNode) :
    ActsOn ThermalZoneConf.type (parseNewZone nodes) (nodes.any namesZone) := by
  refine ActsOn.foldlM (fun n => ?_) nodes
  cases n with
  | text content => exact .keeps fun _ => rfl
  | comment => exact .keeps fun _ => rfl
  | element name children =>
      obtain ⟨l, hl⟩ := parse_trip_points_appends children
      unfold readZone namesZone
      dsimp only
      cases thdStrcasecmpN name "TripPoints" with
      | true =>
          refine .keeps fun zone => ?_
          show (parseTripPoints children zone).map ThermalZoneConf.type = some zone.type
          rw [hl]
          rfl
      | false =>
          cases thdStrcasecmpN name "Type" with
          | true =>
              refine .writes (v := (xmlNodeListGetString children).map stringTrim) fun zone => ?_
              show ((xmlNodeListGetString children).map fun text =>
                { zone with type := stringTrim text }).map ThermalZoneConf.type = _
              rw [Option.map_map]
              rfl
          | false => exact .keeps fun _ => rfl

theorem zone_trip_pts (nodes : List XmlNode) :
    Determines ThermalZoneConf.tripPts (parseNewZone nodes) := by
  refine Determines.foldlM (fun n => ?_) nodes
  intro zone zone' heq
  cases n with
  | text content => exact congrArg some heq
  | comment => exact congrArg some heq
  | element name children =>
      obtain ⟨l, hl⟩ := parse_trip_points_appends children
      unfold readZone
      dsimp only
      split
      · rw [hl, hl]
        exact congrArg (fun pts => some (pts ++ l)) heq
      · split
        · cases xmlNodeListGetString children with
          | none => rfl
          | some text => exact congrArg some heq
        · exact congrArg some heq

theorem zone_carries_over : CarriesOver resetZone parseNewZone zoneCarried where
  actsOn := by
    intro m hm children
    obtain _ | ⟨_, hm⟩ := hm
    · exact (zone_type children).after fun _ => rfl
    · exact absurd hm List.not_mem_nil
  ext := by
    intro children record record' entry entry' h h' hmembers
    have htrip := (zone_trip_pts children).eq_of_some h h' rfl
    have htype : entry.type = entry'.type := hmembers _ (.head _)
    calc
      entry = ⟨entry.type, entry.tripPts⟩ := rfl
      _ = ⟨entry'.type, entry'.tripPts⟩ := by rw [htype, htrip]
      _ = entry' := rfl

/-! ## Sensors -/

/-- Nothing is carried over from one sensor to the next. -/
theorem sensor_carries_over : CarriesOver resetSensor parseNewSensor [] where
  actsOn := fun _ hm => absurd hm List.not_mem_nil
  ext := by
    intro children record record' entry entry' h h' _
    have hreset : resetSensor record = resetSensor record' := rfl
    rw [hreset, h'] at h
    exact (Option.some.inj h).symm

/-! ## Platforms -/

/-- Whether a child of a platform sets a member of its `ppcc`. -/
def setsPpcc (key : String) : XmlNode → Bool :=
  readsWith platformTable fun group children =>
    group = "PPCC" && children.any (readsWith ppccTable fun k _ => k = key)

/-- The strings of a platform. -/
def platformStrings : List (Carried ThermalInfo) := [
  ⟨ThermalInfo.name, readsWith platformTable fun key _ => key = "Name"⟩,
  ⟨ThermalInfo.uuid, readsWith platformTable fun key _ => key = "uuid"⟩,
  ⟨ThermalInfo.productName, readsWith platformTable fun key _ => key = "ProductName"⟩,
  ⟨ThermalInfo.productSku, readsWith platformTable fun key _ => key = "ProductSku"⟩]

/-- The numbers of the `ppcc` of a platform. -/
def platformPpcc : List (Carried ThermalInfo) := [
  ⟨fun info => info.ppcc.powerLimitMin, setsPpcc "PowerLimitMinimum"⟩,
  ⟨fun info => info.ppcc.powerLimitMax, setsPpcc "PowerLimitMaximum"⟩,
  ⟨fun info => info.ppcc.timeWindMin, setsPpcc "TimeWindowMinimum"⟩,
  ⟨fun info => info.ppcc.timeWindMax, setsPpcc "TimeWindowMaximum"⟩,
  ⟨fun info => info.ppcc.stepSize, setsPpcc "StepSize"⟩]

/-- The members of a platform that are carried over. Nothing sets the sensors: those of a platform
are put behind those of the platforms before. -/
def platformCarried : List (Carried ThermalInfo) :=
  platformStrings ++ platformPpcc ++ [⟨ThermalInfo.sensors, fun _ => false⟩]

/-- Zones are put behind those that are there, unless they end the process. -/
theorem parse_thermal_zones_cases (nodes : List XmlNode) :
    (∀ info, parseThermalZones nodes info = none) ∨
      ∃ l, ∀ info, parseThermalZones nodes info = some { info with zones := info.zones ++ l } := by
  have hbind (info : ThermalInfo) : parseThermalZones nodes info =
      (readRecords "ThermalZone" resetZone parseNewZone nodes (firstZone, info.zones)).bind
        fun s => some { info with zones := s.2 } := rfl
  obtain hnone | ⟨r, l, hl⟩ := read_records_cases nodes firstZone
  · refine .inl fun info => ?_
    rw [hbind, hnone]
    rfl
  · refine .inr ⟨l, fun info => ?_⟩
    rw [hbind, hl]
    rfl

/-- Sensors are put behind those that are there. -/
theorem parse_thermal_sensors_appends (nodes : List XmlNode) :
    ∃ l, ∀ info,
      parseThermalSensors nodes info = some { info with sensors := info.sensors ++ l } := by
  obtain ⟨r, l, hl⟩ := read_records_appends parse_new_sensor_total nodes firstSensor
  refine ⟨l, fun info => ?_⟩
  show ((readRecords "ThermalSensor" resetSensor parseNewSensor nodes
    (firstSensor, info.sensors)).bind fun s => some { info with sensors := s.2 }) = _
  rw [hl]
  rfl

/-- Cooling devices are put behind those that are there. -/
theorem parse_cooling_devs_appends (nodes : List XmlNode) :
    ∃ l, ∀ info,
      parseCoolingDevs nodes info = some { info with coolingDevs := info.coolingDevs ++ l } := by
  obtain ⟨r, l, hl⟩ := read_records_appends parse_new_cooling_dev_total nodes firstCoolingDev
  refine ⟨l, fun info => ?_⟩
  show ((readRecords "CoolingDevice" resetCoolingDev parseNewCoolingDev nodes
    (firstCoolingDev, info.coolingDevs)).bind fun s => some { info with coolingDevs := s.2 }) = _
  rw [hl]
  rfl

section Groups

variable {α : Type} {member : ThermalInfo → α} (children : List XmlNode)

theorem parse_thermal_zones_keeps
    (h : ∀ info zones, member { info with zones := zones } = member info) :
    ActsOn member (parseThermalZones children) false := by
  obtain hnone | ⟨l, hl⟩ := parse_thermal_zones_cases children
  · exact .fails hnone
  · refine .keeps fun info => ?_
    rw [hl]
    exact congrArg some (h info _)

theorem parse_thermal_sensors_keeps
    (h : ∀ info sensors, member { info with sensors := sensors } = member info) :
    ActsOn member (parseThermalSensors children) false := by
  obtain ⟨l, hl⟩ := parse_thermal_sensors_appends children
  refine .keeps fun info => ?_
  rw [hl]
  exact congrArg some (h info _)

theorem parse_cooling_devs_keeps
    (h : ∀ info cdevs, member { info with coolingDevs := cdevs } = member info) :
    ActsOn member (parseCoolingDevs children) false := by
  obtain ⟨l, hl⟩ := parse_cooling_devs_appends children
  refine .keeps fun info => ?_
  rw [hl]
  exact congrArg some (h info _)

theorem parse_ppcc_keeps
    (h : ∀ info ppcc, member { info with ppcc := ppcc } = member info) :
    ActsOn member (fun info => do
      let ppcc ← parsePpcc children info.ppcc
      pure { info with ppcc := { ppcc with valid := true } }) false := by
  refine .keeps fun info => ?_
  obtain ⟨ppcc, hppcc⟩ := Option.isSome_iff_exists.mp (parse_ppcc_total children info.ppcc)
  rw [hppcc]
  exact congrArg some (h info _)

theorem parse_ppcc_inside {member : PpccConf → α} {sets : Bool}
    (h : ActsOn member (parsePpcc children) sets)
    (hvalid : ∀ ppcc, member { ppcc with valid := true } = member ppcc) :
    ActsOn (fun info : ThermalInfo => member info.ppcc) (fun info => do
      let ppcc ← parsePpcc children info.ppcc
      pure { info with ppcc := { ppcc with valid := true } }) sets := by
  refine h.inside fun info => ?_
  obtain ⟨ppcc, hppcc⟩ := Option.isSome_iff_exists.mp (parse_ppcc_total children info.ppcc)
  rw [hppcc]
  exact congrArg some (hvalid ppcc)

end Groups

/-- The strings of a platform are set by their elements. -/
theorem platform_strings (nodes : List XmlNode) :
    ∀ m ∈ platformStrings,
      ActsOn m.member (readElements platformTable nodes) (nodes.any m.sets) := by
  -- one goal for each pair of a string and an entry of the table
  simp only [platformStrings, List.forall_mem_cons, List.not_mem_nil, false_implies,
    implies_true, and_true]
  and_intros
  all_goals
    refine read_elements_acts_on (fun e he text children => ?_) nodes
    revert e
    simp only [platformTable, List.forall_mem_cons, List.not_mem_nil, false_implies,
    implies_true, and_true, Entry.apply]
    and_intros
    all_goals first
      | exact .keeps fun _ => rfl
      | exact .writes (v := some (stringTrim text)) fun _ => rfl
      | exact parse_thermal_zones_keeps children fun _ _ => rfl
      | exact parse_thermal_sensors_keeps children fun _ _ => rfl
      | exact parse_cooling_devs_keeps children fun _ _ => rfl
      | exact parse_ppcc_keeps children fun _ _ => rfl

/-- A number is set by its element. -/
theorem ppcc_acts_on {member : PpccConf → Int} {key : String}
    (h : ∀ e ∈ ppccTable, ∀ text children,
      ActsOn member (fun ppcc => e.2.apply text children ppcc) (e.1 = key))
    (hvalid : ∀ ppcc, member { ppcc with valid := true } = member ppcc)
    (nodes : List XmlNode) :
    ActsOn (fun info : ThermalInfo => member info.ppcc) (readElements platformTable nodes)
      (nodes.any (setsPpcc key)) := by
  refine read_elements_acts_on (fun e he text children => ?_) nodes
  have hppcc : ActsOn member (parsePpcc children)
      (children.any (readsWith ppccTable fun k _ => k = key)) := read_elements_acts_on h children
  have hinside := parse_ppcc_inside children hppcc hvalid
  revert e
  simp only [platformTable, List.forall_mem_cons, List.not_mem_nil, false_implies,
    implies_true, and_true, Entry.apply]
  and_intros
  all_goals first
    | exact .keeps fun _ => rfl
    | exact parse_thermal_zones_keeps children fun _ _ => rfl
    | exact parse_thermal_sensors_keeps children fun _ _ => rfl
    | exact parse_cooling_devs_keeps children fun _ _ => rfl
    | exact hinside

/-- The numbers of the `ppcc` are set by their elements. -/
theorem platform_ppcc (nodes : List XmlNode) :
    ∀ m ∈ platformPpcc,
      ActsOn m.member (readElements platformTable nodes) (nodes.any m.sets) := by
  simp only [platformPpcc, List.forall_mem_cons, List.not_mem_nil, false_implies,
    implies_true, and_true]
  and_intros
  all_goals
    refine ppcc_acts_on (fun e he text children => ?_) (fun _ => rfl) nodes
    revert e
    simp only [ppccTable, List.forall_mem_cons, List.not_mem_nil, false_implies,
    implies_true, and_true, Entry.apply]
    and_intros
    all_goals first
      | exact .keeps fun _ => rfl
      | exact .writes (v := some (atofInt text)) fun _ => rfl

/-- The sensors are appended to. -/
theorem platform_sensors (nodes : List XmlNode) :
    ActsOn ThermalInfo.sensors (readElements platformTable nodes) (nodes.any fun _ => false) := by
  have hnone : (fun _ => false) = readsWith platformTable fun _ _ => false := by
    funext n
    cases n with
    | text content => rfl
    | comment => rfl
    | element name children =>
        show false = ((xmlNodeListGetString children).isSome && Option.any (fun _ => false) _)
        cases xmlNodeListGetString children with
        | none => rfl
        | some text => cases platformTable.find? _ <;> rfl
  rw [hnone]
  refine read_elements_acts_on (fun e he text children => ?_) nodes
  obtain ⟨l, hl⟩ := parse_thermal_sensors_appends children
  revert e
  simp only [platformTable, List.forall_mem_cons, List.not_mem_nil, false_implies,
    implies_true, and_true, Entry.apply]
  and_intros
  all_goals first
    | exact .keeps fun _ => rfl
    | exact parse_thermal_zones_keeps children fun _ _ => rfl
    | exact parse_cooling_devs_keeps children fun _ _ => rfl
    | exact parse_ppcc_keeps children fun _ _ => rfl
    | exact .appends fun info => by rw [hl]; rfl

/-- The other members of a `ppcc`. -/
def PpccConf.rest (ppcc : PpccConf) : PpccConf :=
  ⟨ppcc.valid, 0, 0, 0, 0, 0, ppcc.limit1Valid⟩

theorem ppcc_rest (nodes : List XmlNode) : Determines PpccConf.rest (parsePpcc nodes) := by
  refine read_elements_determines (fun e he text children => .of_blank fun ppcc => ?_) nodes
  revert e
  simp only [ppccTable, List.forall_mem_cons, List.not_mem_nil, false_implies, implies_true,
    and_true, Entry.apply]
  and_intros
  all_goals rfl

/-- The other members of a platform. -/
def ThermalInfo.rest (info : ThermalInfo) : ThermalInfo :=
  { info with
    name := ""
    uuid := ""
    productName := ""
    productSku := ""
    ppcc := info.ppcc.rest
    sensors := [] }

theorem platform_rest (nodes : List XmlNode) :
    Determines ThermalInfo.rest (readElements platformTable nodes) := by
  refine read_elements_determines (fun e he text children => .of_blank fun info => ?_) nodes
  revert e
  obtain ⟨sensors, hsensors⟩ := parse_thermal_sensors_appends children
  obtain ⟨cdevs, hcdevs⟩ := parse_cooling_devs_appends children
  simp only [platformTable, List.forall_mem_cons, List.not_mem_nil, false_implies,
    implies_true, and_true, Entry.apply]
  and_intros
  all_goals first | rfl | skip
  · obtain hnone | ⟨zones, hzones⟩ := parse_thermal_zones_cases children
    · rw [hnone, hnone]
    · rw [hzones, hzones]
      rfl
  · rw [hsensors, hsensors]
    rfl
  · rw [hcdevs, hcdevs]
    rfl
  · -- the numbers are blanked, the two flags are read from the start or set
    obtain ⟨ppcc, h⟩ := Option.isSome_iff_exists.mp (parse_ppcc_total children info.ppcc)
    obtain ⟨ppcc', h'⟩ := Option.isSome_iff_exists.mp (parse_ppcc_total children info.rest.ppcc)
    have hrest := (ppcc_rest children).eq_of_some h h' rfl
    rw [h, h']
    exact congrArg (fun ppcc => some { info.rest with ppcc := { ppcc with valid := true } }) hrest

theorem platform_carries_over :
    CarriesOver resetPlatform parseNewPlatformInfo platformCarried where
  actsOn := by
    intro m hm children
    have hacts : ActsOn m.member (readElements platformTable children) (children.any m.sets) := by
      obtain hm | hm := List.mem_append.mp hm
      · obtain hm | hm := List.mem_append.mp hm
        · exact platform_strings children m hm
        · exact platform_ppcc children m hm
      · obtain rfl := List.mem_singleton.mp hm
        exact platform_sensors children
    refine hacts.after ?_
    revert m
    simp only [platformCarried, platformStrings, platformPpcc, List.cons_append, List.nil_append,
      List.forall_mem_cons, List.not_mem_nil, false_implies, implies_true, and_true]
    and_intros
    all_goals exact fun _ _ => rfl
  ext := by
    intro children record record' entry entry' h h' hmembers
    have hrest := (platform_rest children).eq_of_some h h' rfl
    simp only [platformCarried, platformStrings, platformPpcc, List.cons_append, List.nil_append,
      List.forall_mem_cons, List.not_mem_nil, false_implies, implies_true, and_true] at hmembers
    obtain ⟨hname, huuid, hproduct, hsku, hmin, hmax, hwmin, hwmax, hstep, hsensors⟩ := hmembers
    have hppcc : entry.rest.ppcc = entry'.rest.ppcc := by rw [hrest]
    have hsplit (info : ThermalInfo) : info =
        { info.rest with
          name := info.name
          uuid := info.uuid
          productName := info.productName
          productSku := info.productSku
          ppcc :=
            { info.rest.ppcc with
              powerLimitMin := info.ppcc.powerLimitMin
              powerLimitMax := info.ppcc.powerLimitMax
              timeWindMin := info.ppcc.timeWindMin
              timeWindMax := info.ppcc.timeWindMax
              stepSize := info.ppcc.stepSize }
          sensors := info.sensors } := rfl
    rw [hsplit entry, hsplit entry', hrest, hname, huuid, hproduct, hsku, hmin, hmax, hwmin, hwmax,
      hstep, hsensors]

/-! ## Documents -/

/-- A loop over platforms puts entries behind the list. -/
theorem parse_new_platform_appends {nodes : List XmlNode} {list l : List ThermalInfo}
    (h : parseNewPlatform nodes list = some l) : ∃ more, l = list ++ more := by
  obtain ⟨s, hs, heq⟩ := Option.bind_eq_some_iff.mp h
  cases heq
  have hlist : readRecords "Platform" resetPlatform parseNewPlatformInfo nodes
      (firstPlatform, list) = some s := hs
  rw [read_records_list] at hlist
  obtain ⟨t, -, heq⟩ := Option.map_eq_some_iff.mp hlist
  cases heq
  exact ⟨t.2, rfl⟩

/-- The nodes behind the root element put entries behind the list. -/
theorem read_configurations_appends {nodes : List XmlNode} {list l : List ThermalInfo}
    (h : readEach "ThermalConfiguration" parseNewPlatform nodes list = some l) :
    ∃ more, l = list ++ more := by
  induction nodes generalizing list with
  | nil =>
      cases h
      exact ⟨[], (List.append_nil _).symm⟩
  | cons n rest ih =>
      obtain ⟨list', hstep, hrest⟩ := Option.bind_eq_some_iff.mp h
      obtain ⟨more, rfl⟩ := ih hrest
      have hfirst : ∃ more', list' = list ++ more' := by
        cases n with
        | text content =>
            cases hstep
            exact ⟨[], (List.append_nil _).symm⟩
        | comment =>
            cases hstep
            exact ⟨[], (List.append_nil _).symm⟩
        | element name children =>
            unfold readNamed at hstep
            dsimp only at hstep
            split at hstep
            · exact parse_new_platform_appends hstep
            · cases hstep
              exact ⟨[], (List.append_nil _).symm⟩
      obtain ⟨more', rfl⟩ := hfirst
      exact ⟨more' ++ more, List.append_assoc ..⟩

/-- The platforms of the root element come first in the list. -/
theorem parse_eq_some {cfg : String} (hcfg : thdStrcasecmpN cfg "ThermalConfiguration" = true)
    {kids after : List XmlNode} {l : List ThermalInfo}
    (h : parse (.element cfg kids :: after) = some l) :
    ∃ r list more, l = list ++ more ∧
      readRecords "Platform" resetPlatform parseNewPlatformInfo kids (firstPlatform, []) =
        some (r, list) := by
  have hroot : parse (.element cfg kids :: after) =
      (parseNewPlatform kids []).bind
        (readEach "ThermalConfiguration" parseNewPlatform after) := by
    show (if thdStrcasecmpN cfg "ThermalConfiguration" then parseNewPlatform kids []
      else some []).bind (readEach "ThermalConfiguration" parseNewPlatform after) = _
    rw [if_pos hcfg]
  rw [hroot] at h
  obtain ⟨list, hlist, hafter⟩ := Option.bind_eq_some_iff.mp h
  obtain ⟨s, hread, heq⟩ := Option.bind_eq_some_iff.mp hlist
  cases heq
  obtain ⟨more, rfl⟩ := read_configurations_appends hafter
  exact ⟨s.1, s.2, more, rfl, hread⟩

/-! ## Entries and the elements before them -/

/-- What the elements before an element leave in the record does not show in the entry of the
element: it sets each member that is carried over, or the same was left there. -/
def SetOrSame {σ : Type} (members : List (Carried σ)) (children : List XmlNode)
    (left left' : Option σ) : Prop :=
  ∀ m ∈ members, children.any m.sets = true ∨ left.map m.member = left'.map m.member

/-- The record for the platforms after some elements. -/
def platformAfter : List XmlNode → Option ThermalInfo :=
  recordAfter "Platform" resetPlatform parseNewPlatformInfo firstPlatform

/-- The record for the zones after some elements. -/
def zoneAfter : List XmlNode → Option ThermalZoneConf :=
  recordAfter "ThermalZone" resetZone parseNewZone firstZone

/-- The record for the cooling devices after some elements. -/
def coolingDevAfter : List XmlNode → Option CoolingDevConf :=
  recordAfter "CoolingDevice" resetCoolingDev parseNewCoolingDev firstCoolingDev

/-- Two documents that agree on an element have the same entry for it exactly if what the elements
before it have left does not show. This is so for a platform, a zone and a cooling device; for
a sensor nothing is left. -/
theorem entries_agree_iff (name : String) (pre pre' children post post' : List XmlNode) :
    (∀ (cfg cfg' : String) (after after' : List XmlNode) (l l' : List ThermalInfo),
      thdStrcasecmpN cfg "ThermalConfiguration" = true →
      thdStrcasecmpN cfg' "ThermalConfiguration" = true →
      thdStrcasecmpN name "Platform" = true →
      parse (.element cfg (pre ++ .element name children :: post) :: after) = some l →
      parse (.element cfg' (pre' ++ .element name children :: post') :: after') = some l' →
      (l[pre.countP (isNamed "Platform")]? = l'[pre'.countP (isNamed "Platform")]? ↔
        SetOrSame platformCarried children (platformAfter pre) (platformAfter pre'))) ∧
    ∀ info info' r r' : ThermalInfo,
      (thdStrcasecmpN name "ThermalZone" = true →
        parseThermalZones (pre ++ .element name children :: post) info = some r →
        parseThermalZones (pre' ++ .element name children :: post') info' = some r' →
        (r.zones[info.zones.length + pre.countP (isNamed "ThermalZone")]? =
            r'.zones[info'.zones.length + pre'.countP (isNamed "ThermalZone")]? ↔
          SetOrSame zoneCarried children (zoneAfter pre) (zoneAfter pre'))) ∧
      (thdStrcasecmpN name "ThermalSensor" = true →
        parseThermalSensors (pre ++ .element name children :: post) info = some r →
        parseThermalSensors (pre' ++ .element name children :: post') info' = some r' →
        r.sensors[info.sensors.length + pre.countP (isNamed "ThermalSensor")]? =
          r'.sensors[info'.sensors.length + pre'.countP (isNamed "ThermalSensor")]?) ∧
      (thdStrcasecmpN name "CoolingDevice" = true →
        parseCoolingDevs (pre ++ .element name children :: post) info = some r →
        parseCoolingDevs (pre' ++ .element name children :: post') info' = some r' →
        (r.coolingDevs[info.coolingDevs.length + pre.countP (isNamed "CoolingDevice")]? =
            r'.coolingDevs[info'.coolingDevs.length + pre'.countP (isNamed "CoolingDevice")]? ↔
          SetOrSame coolingDevCarried children (coolingDevAfter pre) (coolingDevAfter pre'))) := by
  refine ⟨?platform, fun info info' r r' => ⟨?zone, ?sensor, ?coolingDev⟩⟩
  case platform =>
    intro cfg cfg' after after' l l' hcfg hcfg' hname h h'
    obtain ⟨r, list, more, rfl, hread⟩ := parse_eq_some hcfg h
    obtain ⟨r', list', more', rfl, hread'⟩ := parse_eq_some hcfg' h'
    have hiff := platform_carries_over.entry_eq_iff hname hname hread hread'
    obtain ⟨-, entry, -, -, hentry⟩ := read_records_entry hname hread
    obtain ⟨-, entry', -, -, hentry'⟩ := read_records_entry hname hread'
    simp only [List.length_nil, Nat.zero_add] at hiff hentry hentry'
    -- the entries of the root element come before the others, so the index is below its length
    obtain ⟨hlt, -⟩ := List.getElem?_eq_some_iff.mp hentry
    obtain ⟨hlt', -⟩ := List.getElem?_eq_some_iff.mp hentry'
    rw [List.getElem?_append_left hlt, List.getElem?_append_left hlt']
    exact hiff
  case zone =>
    intro hname h h'
    obtain ⟨s, hs, heq⟩ := Option.bind_eq_some_iff.mp h
    cases heq
    obtain ⟨s', hs', heq⟩ := Option.bind_eq_some_iff.mp h'
    cases heq
    exact zone_carries_over.entry_eq_iff hname hname hs hs'
  case sensor =>
    intro hname h h'
    obtain ⟨s, hs, heq⟩ := Option.bind_eq_some_iff.mp h
    cases heq
    obtain ⟨s', hs', heq⟩ := Option.bind_eq_some_iff.mp h'
    cases heq
    refine (sensor_carries_over.entry_eq_iff hname hname hs hs').mpr fun m hm => ?_
    exact absurd hm List.not_mem_nil
  case coolingDev =>
    intro hname h h'
    obtain ⟨s, hs, heq⟩ := Option.bind_eq_some_iff.mp h
    cases heq
    obtain ⟨s', hs', heq⟩ := Option.bind_eq_some_iff.mp h'
    cases heq
    exact cooling_dev_carries_over.entry_eq_iff hname hname hs hs'

/-- A platform with a name. -/
def namedPlatform (name : String) : XmlNode :=
  .element "Platform" [.element "Name" [.text name]]

/-- A document with some platforms. -/
def platformsDocument (platforms : List XmlNode) : List XmlNode :=
  [.element "ThermalConfiguration" platforms]

/-- The second platform has no name. In one document the first one has none either; in the other
the second entry gets the name of the first platform. -/
theorem unnamed_platform_entry :
    ∃ l l', parse (platformsDocument [namedPlatform "A", .element "Platform" []]) = some l ∧
      parse (platformsDocument [.element "Platform" [], .element "Platform" []]) = some l' ∧
      l[1]? ≠ l'[1]? := by
  refine ⟨[{ firstPlatform with name := "A" }, { firstPlatform with name := "A" }],
    [firstPlatform, firstPlatform], rfl, rfl, fun heq => ?_⟩
  have hname : "A" = "" := congrArg ThermalInfo.name (Option.some.inj heq)
  exact absurd hname (by decide)

/-- A platform with a product name. In one document the platform before it has left another product
name, but this does not show. -/
theorem product_name_entry :
    let platform := XmlNode.element "Platform" [.element "ProductName" [.text "B"]]
    ∃ l l', parse (platformsDocument
        [.element "Platform" [.element "ProductName" [.text "A"]], platform]) = some l ∧
      parse (platformsDocument [platform]) = some l' ∧ l[1]? = l'[0]? := by
  refine ⟨[{ firstPlatform with productName := "A" }, { firstPlatform with productName := "B" }],
    [{ firstPlatform with productName := "B" }], rfl, rfl, ?_⟩
  refine ((entries_agree_iff "Platform" [.element "Platform" [.element "ProductName" [.text "A"]]]
    [] [.element "ProductName" [.text "B"]] [] []).1 "ThermalConfiguration" "ThermalConfiguration"
    [] [] _ _ rfl rfl rfl rfl rfl).mpr ?_
  simp only [SetOrSame, platformCarried, platformStrings, platformPpcc, List.cons_append,
    List.nil_append, List.forall_mem_cons, List.not_mem_nil, false_implies, implies_true, and_true]
  and_intros
  all_goals first
    | exact .inr rfl
    | exact .inl rfl

end Thermald
