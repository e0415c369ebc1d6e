import Thermald.Adaptive.Policies
import Thermald.Adaptive.TripOrder

/-!
# Consolidated trips

The rows of a passive table become trips with one device each. A row with the limit `MAX` becomes a
trip whose target is a marker instead of a state, and `psvt_consolidate` is to replace the markers:
by a state half the way to the next trip of the same sensor and device, or by no target at all, one
degree higher. It runs once for every target of a policy, so one run has to be enough.

Two things are not looked at. The single trip of a zone is taken for one with a state, and the
target of the next trip is taken for a state, although both may be the marker.
`psvt_consolidate_iff` says exactly when a zone is consolidated nevertheless.
-/

namespace Thermald

/-! ## Rows and runs -/

/-- What a policy does with the rows of its tables: a row is installed, or all zones are
consolidated. -/
inductive PsvtOp where
  | installPassive (psv : Gddv.Psv)
  | psvtConsolidate

section Definitions

variable {δ : Type}

/-- Perform an operation. -/
def PsvtOp.apply [StdSort] (e : Engine δ) : PsvtOp → Engine δ
  | .installPassive psv => e.installPassive psv
  | .psvtConsolidate => e.psvtConsolidate

/-- The trips of the zone at a place. -/
def Engine.tripsAt (e : Engine δ) (i : Nat) : List TripPoint :=
  e.zones[i]?.elim [] fun z => z.tripPoints

/-- The target of a trip was computed from the minimum of its device and the target of the next
trip, which is a state, without an overflow. -/
def TripPoint.HalfWay (w : World δ) (t next : TripPoint) (target : Int) : Prop :=
  ∃ k state, t.getFirstCdev = some k ∧ next.isTargetValid = some state ∧
    state ≠ tripPtInvalidTargetState ∧
    -2147483648 ≤ (w.cdevs k).minState + state ∧ (w.cdevs k).minState + state ≤ intMax ∧
    min (w.cdevs k).minState state ≤ target ∧ target ≤ max (w.cdevs k).minState state

/-- The zone at a place is consolidated by `psvt_consolidate`: no trip keeps the marker, each target
in the place of a marker lies between the minimum of the device and the target of the next trip, and
a second run changes nothing. -/
structure Engine.Consolidated [StdSort] (e : Engine δ) (i : Nat) : Prop where
  unmarked : ∀ t ∈ e.psvtConsolidate.tripsAt i, t.isTargetValid ≠ some tripPtInvalidTargetState
  between : ∀ (j : Nat) (t t' : TripPoint) (target : Int), (e.tripsAt i)[j]? = some t →
    (e.psvtConsolidate.tripsAt i)[j]? = some t' →
    t.isTargetValid = some tripPtInvalidTargetState → t'.isTargetValid = some target →
    ∃ next, (e.tripsAt i)[j + 1]? = some next ∧ t.HalfWay e.world next target
  again : e.psvtConsolidate.psvtConsolidate.zones[i]? = e.psvtConsolidate.zones[i]?

/-- If the trip goes half the way to the next one, the target of that is a state and the sum with
the minimum of the device is an `int`. -/
def TripPoint.Summable (w : World δ) (t next : TripPoint) : Prop :=
  t.isMax = true → t.joins (some next) = true → ∀ k ∈ next.getFirstCdev,
    ∀ state ∈ next.isTargetValid, state ≠ tripPtInvalidTargetState ∧
      -2147483648 ≤ (w.cdevs k).minState + state ∧ (w.cdevs k).minState + state ≤ intMax

/-- The condition on the trips of a zone: none of them has the marker if there is a single one with
a target, and else the trips behind each other can be summed. -/
def Consolidates (w : World δ) (trips : List TripPoint) : Prop :=
  if singleTarget trips then ∀ t ∈ trips, t.isMax = false
  else ∀ pair ∈ trips.zip trips.tail, pair.1.Summable w pair.2

end Definitions

/-! ## One trip -/

/-- A trip of a zone with rows only: a polling trip, or a trip with one device. -/
def TripPoint.FromRow (t : TripPoint) : Prop :=
  PollOnly t ∨ t.type ≠ .polling ∧ ∃ b, t.cdevs = [b]

section Trip

variable {δ : Type} {t : TripPoint}

/-- A trip with a target has a device. -/
theorem TripPoint.FromRow.device (h : t.FromRow) (htarget : t.isTargetValid ≠ none) :
    t.type ≠ .polling ∧ ∃ b, t.cdevs = [b] := by
  obtain hpoll | hrow := h
  · rw [TripPoint.isTargetValid, hpoll.cdevs] at htarget
    exact absurd rfl htarget
  · exact hrow

theorem is_max_iff : t.isMax = true ↔ t.isTargetValid = some tripPtInvalidTargetState :=
  decide_eq_true_iff

theorem not_max_iff : t.isMax = false ↔ t.isTargetValid ≠ some tripPtInvalidTargetState :=
  decide_eq_false_iff_not

/-- A trip with the marker has a device. -/
theorem TripPoint.FromRow.of_max (h : t.FromRow) (hmax : t.isMax = true) :
    t.type ≠ .polling ∧ ∃ b, t.cdevs = [b] := by
  apply h.device
  rw [is_max_iff.mp hmax]
  exact Option.some_ne_none _

@[simp] theorem raise_type (t : TripPoint) : t.raise.type = t.type := by
  simp only [TripPoint.raise, TripPoint.updateTripTemp, TripPoint.setFirstTargetInvalid]

/-- A raised trip has no target. -/
theorem raise_target {b : TripCdev} (h : t.cdevs = [b]) :
    t.raise.cdevs = [{ b with targetStateValid := false }] ∧ t.raise.isTargetValid = none := by
  have hcdevs : t.raise.cdevs = [{ b with targetStateValid := false }] := by
    simp only [TripPoint.raise, TripPoint.updateTripTemp, TripPoint.setFirstTargetInvalid, h]
    rfl
  refine ⟨hcdevs, ?_⟩
  rw [TripPoint.isTargetValid, hcdevs]
  rfl

/-- The target that is set is the target of the trip. -/
theorem set_first_target_target {b : TripCdev} (h : t.cdevs = [b]) (state : Int) :
    (t.setFirstTarget state).cdevs = [{ b with targetStateValid := true, targetState := state }] ∧
      (t.setFirstTarget state).isTargetValid = some state := by
  have hcdevs : (t.setFirstTarget state).cdevs =
      [{ b with targetStateValid := true, targetState := state }] := by
    show t.cdevs.modify 0 _ = _
    rw [h]
    rfl
  refine ⟨hcdevs, ?_⟩
  rw [TripPoint.isTargetValid, hcdevs]
  rfl

/-- Division by 2 goes towards 0. -/
theorem tdiv_two_bounds (x : Int) : x - 1 ≤ 2 * x.tdiv 2 ∧ 2 * x.tdiv 2 ≤ x + 1 := by
  rw [Int.tdiv_eq_ediv]
  split
  · omega
  · rw [show Int.sign 2 = 1 from rfl]
    omega

/-- Half of an `int` is not the marker. -/
theorem half_ne_marker (sum : Int) : (int32 sum).tdiv 2 ≠ tripPtInvalidTargetState := by
  have hhigh := (int32_bounds sum).2
  have hhalf := (tdiv_two_bounds (int32 sum)).2
  generalize (int32 sum).tdiv 2 = half at hhalf ⊢
  generalize int32 sum = x at hhigh hhalf
  show half ≠ 2147483647
  have hmax : x ≤ 2147483647 := hhigh
  omega

/-- The middle of two states lies between them. -/
theorem half_between {a b : Int} (hlow : -2147483648 ≤ a + b) (hhigh : a + b ≤ intMax) :
    min a b ≤ (int32 (a + b)).tdiv 2 ∧ (int32 (a + b)).tdiv 2 ≤ max a b := by
  rw [int32_eq_self hlow hhigh]
  have hhalf := tdiv_two_bounds (a + b)
  generalize (a + b).tdiv 2 = half at hhalf ⊢
  omega

variable (w : World δ)

/-- What the loop body leaves of the trip of a row. -/
theorem consolidate_trip_from_row (h : t.FromRow) (next : Option TripPoint) :
    (consolidateTrip w t next).FromRow ∧ (consolidateTrip w t next).type = t.type ∧
      (consolidateTrip w t next).isMax = false := by
  cases hmax : t.isMax with
  | false =>
      rw [consolidate_trip_unmarked w hmax]
      exact ⟨h, rfl, hmax⟩
  | true =>
      obtain ⟨htype, b, hb⟩ := h.of_max hmax
      cases hjoins : t.joins next with
      | false =>
          rw [consolidate_trip_raised w hmax hjoins]
          obtain ⟨hcdevs, htarget⟩ := raise_target hb
          refine ⟨.inr ⟨by rwa [raise_type], _, hcdevs⟩, raise_type t, ?_⟩
          rw [not_max_iff, htarget]
          exact (Option.some_ne_none _).symm
      | true =>
          obtain - | n := next
          · cases hjoins
          obtain ⟨k, target, hcdev, hvalid, hsensor, hsame⟩ := joins_some_iff.mp hjoins
          rw [consolidate_trip_joined w hmax hcdev hvalid hsensor hsame]
          obtain ⟨hcdevs, htarget⟩ :=
            set_first_target_target hb ((int32 ((w.cdevs k).minState + target)).tdiv 2)
          refine ⟨.inr ⟨htype, _, hcdevs⟩, rfl, ?_⟩
          rw [not_max_iff]
          show (t.setFirstTarget _).isTargetValid ≠ _
          rw [htarget, ne_eq, Option.some.injEq]
          exact half_ne_marker _

end Trip

/-! ## The trips of a zone -/

section Loop

variable {δ : Type} (w : World δ)

/-- The loop of `psvt_consolidate` at one place: the trip behind it is still as it was. -/
theorem get_consolidate_trips (trips : List TripPoint) (j : Nat) :
    (consolidateTrips w trips)[j]? =
      trips[j]?.map fun t => consolidateTrip w t trips[j + 1]? := by
  induction trips generalizing j with
  | nil => rfl
  | cons t rest ih =>
      cases j with
      | zero =>
          show some (consolidateTrip w t rest.head?) = some (consolidateTrip w t rest[0]?)
          rw [List.head?_eq_getElem?]
      | succ j => exact ih j

/-- After the loop no trip has the marker. -/
theorem consolidate_trips_from_rows {trips : List TripPoint} (h : ∀ t ∈ trips, t.FromRow) :
    ∀ t' ∈ consolidateTrips w trips, t'.FromRow ∧ t'.isMax = false ∧
      (t'.type = .polling → ∃ t ∈ trips, t.type = .polling) := by
  intro t' ht'
  obtain ⟨j, hj⟩ := List.mem_iff_getElem?.mp ht'
  rw [get_consolidate_trips, Option.map_eq_some_iff] at hj
  obtain ⟨t, ht, rfl⟩ := hj
  have hmem : t ∈ trips := List.mem_of_getElem? ht
  obtain ⟨hrow, htype, hmax⟩ := consolidate_trip_from_row w (h t hmem) trips[j + 1]?
  exact ⟨hrow, hmax, fun hpoll => ⟨t, hmem, htype ▸ hpoll⟩⟩

/-- Trips without the marker stay as they are. -/
theorem consolidate_trips_eq_self {trips : List TripPoint} (h : ∀ t ∈ trips, t.isMax = false) :
    consolidateTrips w trips = trips := by
  refine List.ext_getElem? fun j => ?_
  rw [get_consolidate_trips]
  cases hj : trips[j]? with
  | none => rfl
  | some t => exact congrArg some (consolidate_trip_unmarked w (h t (List.mem_of_getElem? hj)) _)

/-- The loop does not give a target to the first of two trips. -/
theorem loop_not_single {trips : List TripPoint} (h : singleTarget trips = false) :
    singleTarget (consolidateTrips w trips) = false := by
  match trips with
  | [] => rfl
  | [_] => rfl
  | [t, u] =>
      have hsome : t.isTargetValid.isSome = false := h
      have hnone : t.isTargetValid = none := by simpa using hsome
      have hmax : t.isMax = false := by
        rw [not_max_iff, hnone]
        exact (Option.some_ne_none _).symm
      show (consolidateTrip w t (some u)).isTargetValid.isSome = false
      rw [consolidate_trip_unmarked w hmax, hnone]
      rfl
  | _ :: _ :: _ :: _ => rfl

/-- The loop depends on the devices only. -/
theorem consolidate_trips_same {w w' : World δ} (hw : SameCdevs w w') (trips : List TripPoint) :
    consolidateTrips w' trips = consolidateTrips w trips := by
  have hstep : consolidateTrip w' = consolidateTrip w := by
    funext t next
    unfold consolidateTrip
    rw [hw.cdevs]
  refine List.ext_getElem? fun j => ?_
  rw [get_consolidate_trips, get_consolidate_trips, hstep]

end Loop

section Zones

variable {δ : Type} [StdSort] {z : Zone}

/-- The trips of a zone come from rows, and it has a sensor if there is a polling trip. -/
structure Zone.FromRows (z : Zone) : Prop where
  trips : ∀ t ∈ z.tripPoints, t.FromRow
  sensors : ∀ t ∈ z.tripPoints, t.type = .polling → z.sensors ≠ []

/-- A trip without devices to which one is added. -/
theorem add_cdev_single {t : TripPoint} (h : t.cdevs = []) (k : Nat) (influence period : Int)
    (valid : Bool) (target : Int) (w : World δ) :
    ∃ b, (t.thdTripPointAddCdev k influence period valid target none false 0 0 w).cdevs = [b] ∧
      b.targetStateValid = valid ∧
      (t.thdTripPointAddCdev k influence period valid target none false 0 0 w).type = t.type := by
  unfold TripPoint.thdTripPointAddCdev TripPoint.tripCdevAdd
  rw [h]
  exact ⟨_, List.perm_singleton.mp (StdSort.perm _ _), rfl, rfl⟩

/-- A trip with a device is added to the trips from rows. -/
theorem Zone.FromRows.add_trip (h : z.FromRows) {trip : TripPoint} (htype : trip.type ≠ .polling)
    {b : TripCdev} (hcdevs : trip.cdevs = [b]) (w : World δ) :
    (z.addTrip trip true w).1.FromRows := by
  obtain ⟨added, heq, hlength, hpoll⟩ := add_trip_trips z htype w
  have hmem : ∀ t ∈ (z.addTrip trip true w).1.tripPoints,
      t ∈ z.tripPoints ∨ t = trip ∨ t ∈ added := by
    intro t ht
    rw [heq] at ht
    rcases List.mem_append.mp ht with ht | ht
    · unfold Zone.sortedTrips at ht
      rw [StdSort.mem_sort] at ht
      rcases List.mem_append.mp (List.mem_of_mem_eraseP ht) with ht | ht
      · exact .inl ht
      · exact .inr (.inl (List.mem_singleton.mp ht))
    · exact .inr (.inr ht)
  constructor
  · intro t ht
    obtain ht | rfl | ht := hmem t ht
    · exact h.trips t ht
    · exact .inr ⟨htype, b, hcdevs⟩
    · exact .inl (hpoll t ht)
  · intro t ht hpolling
    rw [heq]
    show z.sensors ≠ []
    obtain ht | rfl | ht := hmem t ht
    · exact h.sensors t ht hpolling
    · exact absurd hpolling htype
    · intro hnil
      rw [hnil] at hlength
      rw [List.eq_nil_of_length_eq_zero hlength] at ht
      cases ht

/-- A zone with another number of trips, or with a first trip without a target, goes through the
loop. -/
theorem psvt_consolidate_loop (h : singleTarget z.tripPoints = false) (w : World δ) :
    z.psvtConsolidate w = ({ z with tripPoints := consolidateTrips w z.tripPoints }, w) := by
  obtain ⟨-, hrun⟩ | ⟨t, u, k, target, htrips, htarget, -, -⟩ := z.psvt_consolidate_cases w
  · exact hrun
  · rw [htrips, singleTarget, htarget] at h
    cases h

/-- It is no polling trip and has no target. -/
theorem second_trip_spec (z : Zone) (t : TripPoint) (k : Nat) (w : World δ) :
    (secondTrip z t k w).type ≠ .polling ∧ (secondTrip z t k w).isMax = false ∧
      ∃ b, (secondTrip z t k w).cdevs = [b] := by
  obtain ⟨b, hcdevs, hvalid, htype⟩ := add_cdev_single (t := TripPoint.init 1 .passive
    ((t.temp + 1000) % 2 ^ 32) 0 z.index t.sensorId .sequential) rfl k 0 0 false
      tripPtInvalidTargetState w
  have hcdevs : (secondTrip z t k w).cdevs = [b] := hcdevs
  have htype : (secondTrip z t k w).type = .passive := htype
  refine ⟨by rw [htype]; decide, ?_, b, hcdevs⟩
  rw [not_max_iff, TripPoint.isTargetValid, hcdevs, List.find?_cons, hvalid]
  exact (Option.some_ne_none _).symm

/-- A single trip with a target gets a second one. -/
theorem psvt_consolidate_single (h : singleTarget z.tripPoints = true) (w : World δ) :
    ∃ t u k, z.tripPoints = [t, u] ∧ t.isTargetValid ≠ none ∧
      z.psvtConsolidate w = z.addTrip (secondTrip z t k w) true w := by
  obtain ⟨hloop, -⟩ | ⟨t, u, k, target, htrips, htarget, -, hrun⟩ := z.psvt_consolidate_cases w
  · rw [h] at hloop
    cases hloop
  · refine ⟨t, u, k, htrips, ?_, hrun⟩
    rw [htarget]
    exact Option.some_ne_none _

/-- `psvt_consolidate` leaves a zone with trips from rows. -/
theorem Zone.FromRows.consolidate (h : z.FromRows) (w : World δ) :
    (z.psvtConsolidate w).1.FromRows := by
  cases hsingle : singleTarget z.tripPoints with
  | false =>
      rw [psvt_consolidate_loop hsingle]
      have hloop := consolidate_trips_from_rows w h.trips
      refine ⟨fun t ht => (hloop t ht).1, fun t ht hpoll => ?_⟩
      obtain ⟨u, hu, hpoll⟩ := (hloop t ht).2.2 hpoll
      exact h.sensors u hu hpoll
  | true =>
      obtain ⟨t, u, k, -, -, heq⟩ := psvt_consolidate_single hsingle w
      obtain ⟨htype, -, b, hcdevs⟩ := second_trip_spec z t k w
      rw [heq]
      exact h.add_trip htype hcdevs w

/-- The trips of a zone after a second trip has been added to its single one. -/
theorem single_trips (h : z.FromRows) (hsingle : singleTarget z.tripPoints = true) (w : World δ) :
    ∃ t u second added, z.tripPoints = [t, u] ∧ t.type ≠ .polling ∧ second.type ≠ .polling ∧
      second.isMax = false ∧ (z.psvtConsolidate w).1.tripPoints =
        StdSort.sort Zone.tripSort ([t, u, second].eraseP fun t => t.type = .polling) ++ added ∧
      added.length = z.sensors.length ∧ ∀ t ∈ added, PollOnly t := by
  obtain ⟨t, u, k, htrips, htarget, hrun⟩ := psvt_consolidate_single hsingle w
  obtain ⟨htype, hmax, -⟩ := second_trip_spec z t k w
  obtain ⟨added, heq, hlength, hpoll⟩ := add_trip_trips z htype w
  have ht : t.type ≠ .polling := ((h.trips t (by simp [htrips])).device htarget).1
  refine ⟨t, u, secondTrip z t k w, added, htrips, ht, htype, hmax, ?_, hlength, hpoll⟩
  rw [hrun, heq]
  unfold Zone.sortedTrips
  dsimp only
  rw [htrips]
  rfl

/-- After that the zone is no longer taken for one with a single trip. -/
theorem single_once (h : z.FromRows) (hsingle : singleTarget z.tripPoints = true) (w : World δ) :
    singleTarget (z.psvtConsolidate w).1.tripPoints = false := by
  obtain ⟨t, u, second, added, htrips, ht, hsecond, -, heq, hlength, -⟩ :=
    single_trips h hsingle w
  rw [Bool.eq_false_iff]
  intro hagain
  -- there are two trips at least, and a polling trip or a third one
  have htwo := (single_target_iff.mp hagain).1
  rw [heq, List.length_append, (StdSort.perm _ _).length_eq, hlength,
    List.eraseP_cons_of_neg (by simpa using ht)] at htwo
  by_cases hu : u.type = .polling
  · have hsensors := h.sensors u (by simp [htrips]) hu
    rw [List.eraseP_cons_of_pos (by simpa using hu), List.length_cons,
      List.length_singleton] at htwo
    exact hsensors (List.eq_nil_of_length_eq_zero (by omega))
  · rw [List.eraseP_cons_of_neg (by simpa using hu),
      List.eraseP_cons_of_neg (by simpa using hsecond)] at htwo
    simp only [List.length_cons] at htwo
    omega

/-- The trips with the marker are those from before. -/
theorem single_marked_iff (h : z.FromRows) (hsingle : singleTarget z.tripPoints = true)
    (w : World δ) :
    (∀ t ∈ (z.psvtConsolidate w).1.tripPoints, t.isMax = false) ↔
      ∀ t ∈ z.tripPoints, t.isMax = false := by
  obtain ⟨t, u, second, added, htrips, -, -, hmax, heq, -, hpoll⟩ := single_trips h hsingle w
  have hsplit : [t, u, second] = z.tripPoints ++ [second] := by
    rw [htrips]
    rfl
  rw [heq, hsplit]
  constructor
  · intro hall x hx
    by_contra hmarked
    have hordinary : x.type ≠ .polling :=
      ((h.trips x hx).of_max (Bool.eq_true_of_not_eq_false hmarked)).1
    refine hmarked (hall x (List.mem_append_left _ (StdSort.mem_sort.mpr ?_)))
    exact (List.mem_eraseP_of_neg (by simpa using hordinary)).mpr (List.mem_append_left _ hx)
  · intro hall x hx
    rcases List.mem_append.mp hx with hx | hx
    · rcases List.mem_append.mp (List.mem_of_mem_eraseP (StdSort.mem_sort.mp hx)) with hx | hx
      · exact hall x hx
      · rw [List.mem_singleton.mp hx]
        exact hmax
    · rw [not_max_iff, TripPoint.isTargetValid, (hpoll x hx).cdevs]
      exact (Option.some_ne_none _).symm

/-- What becomes of a zone does not depend on what was sent before. -/
theorem psvt_consolidate_same {w w' : World δ} (hw : SameCdevs w w') (z : Zone) :
    (z.psvtConsolidate w').1 = (z.psvtConsolidate w).1 := by
  have hadd : ∀ trip, (z.addTrip trip true w').1 = (z.addTrip trip true w).1 := by
    intro trip
    unfold Zone.addTrip Zone.sortAndUpdatePollTrip
    dsimp only
    split <;> rfl
  have hsecond (t : TripPoint) (k : Nat) : secondTrip z t k w' = secondTrip z t k w := by
    unfold secondTrip TripPoint.thdTripPointAddCdev
    rw [hw.add_eq]
  obtain ⟨hloop, hrun⟩ | ⟨t, u, k, target, htrips, htarget, hcdev, hrun⟩ :=
    z.psvt_consolidate_cases w
  · rw [hrun, psvt_consolidate_loop hloop, consolidate_trips_same hw]
  · obtain ⟨hloop, -⟩ | ⟨t', u', k', target', htrips', -, hcdev', hrun'⟩ :=
      z.psvt_consolidate_cases w'
    · rw [htrips, singleTarget, htarget] at hloop
      cases hloop
    · obtain rfl : t = t' := (List.cons.inj (htrips.symm.trans htrips')).1
      obtain rfl : k = k' := Option.some.inj (hcdev.symm.trans hcdev')
      rw [hrun, hrun', hsecond, hadd]

end Zones

/-! ## A zone -/

section Zone

variable {δ : Type}

/-- Two elements behind each other. -/
theorem mem_zip_tail {α : Type} {l : List α} {a b : α} :
    (a, b) ∈ l.zip l.tail ↔ ∃ j, l[j]? = some a ∧ l[j + 1]? = some b := by
  rw [List.mem_iff_getElem?]
  refine exists_congr fun j => ?_
  rw [List.getElem?_zip_eq_some, List.getElem?_tail]

/-- Where the trips can be summed, a target in the place of the marker is half the way to the next
trip. -/
theorem half_way_of_summable {w : World δ} {trips : List TripPoint} (h : ∀ t ∈ trips, t.FromRow)
    (hsum : ∀ pair ∈ trips.zip trips.tail, pair.1.Summable w pair.2) {j : Nat} {t t' : TripPoint}
    {target : Int} (ht : trips[j]? = some t) (ht' : (consolidateTrips w trips)[j]? = some t')
    (hmax : t.isMax = true) (htarget : t'.isTargetValid = some target) :
    ∃ next, trips[j + 1]? = some next ∧ t.HalfWay w next target := by
  obtain ⟨-, b, hb⟩ := (h t (List.mem_of_getElem? ht)).of_max hmax
  rw [get_consolidate_trips, ht, Option.map_some, Option.some.injEq] at ht'
  subst ht'
  cases hjoins : t.joins trips[j + 1]? with
  | false =>
      rw [consolidate_trip_raised w hmax hjoins, (raise_target hb).2] at htarget
      cases htarget
  | true =>
      cases hnext : trips[j + 1]? with
      | none =>
          rw [hnext] at hjoins
          cases hjoins
      | some next =>
          rw [hnext] at hjoins htarget
          obtain ⟨k, state, hcdev, hvalid, hsensor, hsame⟩ := joins_some_iff.mp hjoins
          rw [consolidate_trip_joined w hmax hcdev hvalid hsensor hsame] at htarget
          obtain ⟨hne, hlow, hhigh⟩ := hsum (t, next) (mem_zip_tail.mpr ⟨j, ht, hnext⟩) hmax hjoins
            k hcdev state hvalid
          have hhalf : target = (int32 ((w.cdevs k).minState + state)).tdiv 2 := by
            have hset := (set_first_target_target hb
              ((int32 ((w.cdevs k).minState + state)).tdiv 2)).2
            exact Option.some.inj (htarget.symm.trans hset)
          obtain ⟨hmin, hmax⟩ := half_between hlow hhigh
          rw [← hhalf] at hmin hmax
          exact ⟨next, rfl, k, state, hsame, hvalid, hne, hlow, hhigh, hmin, hmax⟩

/-- And where every target in the place of the marker is half the way to the next trip, the trips
can be summed. -/
theorem summable_of_half_way {w : World δ} {trips : List TripPoint} (h : ∀ t ∈ trips, t.FromRow)
    (hhalf : ∀ (j : Nat) (t t' : TripPoint) (target : Int), trips[j]? = some t →
      (consolidateTrips w trips)[j]? = some t' → t.isMax = true →
      t'.isTargetValid = some target → ∃ next, trips[j + 1]? = some next ∧
        t.HalfWay w next target) :
    ∀ pair ∈ trips.zip trips.tail, pair.1.Summable w pair.2 := by
  rintro ⟨t, next⟩ hpair hmax hjoins k hcdev state hvalid
  obtain ⟨j, ht, hnext⟩ := mem_zip_tail.mp hpair
  obtain ⟨-, b, hb⟩ := (h t (List.mem_of_getElem? ht)).of_max hmax
  obtain ⟨k', state', hcdev', hvalid', hsensor, hsame⟩ := joins_some_iff.mp hjoins
  obtain rfl : k = k' := Option.some.inj (hcdev.symm.trans hcdev')
  obtain rfl : state = state' := Option.some.inj (hvalid.symm.trans hvalid')
  have hplace : (consolidateTrips w trips)[j]? = some
      ((t.setFirstTarget ((int32 ((w.cdevs k).minState + state)).tdiv 2)).updateTripTemp
        ((next.temp + t.temp) % 2 ^ 32 / 2)) := by
    rw [get_consolidate_trips, ht, hnext, Option.map_some,
      consolidate_trip_joined w hmax hcdev hvalid hsensor hsame]
  obtain ⟨next', hnext', k', state', hsame', hvalid', hne, hlow, hhigh, -⟩ :=
    hhalf j t _ _ ht hplace hmax (set_first_target_target hb _).2
  obtain rfl : next = next' := Option.some.inj (hnext.symm.trans hnext')
  obtain rfl : k = k' := Option.some.inj (hsame.symm.trans hsame')
  obtain rfl : state = state' := Option.some.inj (hvalid.symm.trans hvalid')
  exact ⟨hne, hlow, hhigh⟩

end Zone

/-! ## All zones -/

namespace Engine

variable {δ : Type}

/-- A function on zones that leaves the devices alone and depends on nothing else of the world is
applied to each zone by itself. -/
theorem for_zones_map {f : Zone → World δ → Zone × World δ}
    (hworld : ∀ z w, SameCdevs w (f z w).2)
    (hzone : ∀ z w w', SameCdevs w w' → (f z w').1 = (f z w).1) (zones : List Zone)
    (w : World δ) :
    (forZones f zones w).1 = zones.map (fun z => (f z w).1) ∧
      SameCdevs w (forZones f zones w).2 := by
  induction zones generalizing w with
  | nil => exact ⟨rfl, .refl w⟩
  | cons z rest ih =>
      obtain ⟨hrest, hsame⟩ := ih (f z w).2
      refine ⟨?_, (hworld z w).trans hsame⟩
      show (f z w).1 :: (forZones f rest (f z w).2).1 = (f z w).1 :: rest.map _
      rw [hrest]
      exact congrArg _ (List.map_congr_left fun z' _ => hzone z' w _ (hworld z w))

variable [StdSort] {e : Engine δ} {i : Nat}

/-- `psvt_consolidate` works on each zone by itself. -/
theorem psvt_consolidate_zones (e : Engine δ) :
    e.psvtConsolidate.zones = e.zones.map (fun z => (z.psvtConsolidate e.world).1) ∧
      SameCdevs e.world e.psvtConsolidate.world := by
  refine for_zones_map (fun z w => ?_) (fun z w w' hw => psvt_consolidate_same hw z) e.zones e.world
  obtain ⟨-, events, hevents⟩ := z.psvt_consolidate_edits w
  rw [hevents]
  exact ⟨rfl, rfl⟩

/-- The trips of the zone at a place come from rows. -/
def FromRowsAt (e : Engine δ) (i : Nat) : Prop := ∀ z ∈ e.zones[i]?, z.FromRows

/-- A row adds a trip from a row. -/
theorem FromRowsAt.install_passive (h : e.FromRowsAt i) (psv : Gddv.Psv) :
    (e.installPassive psv).FromRowsAt i := by
  unfold installPassive
  split
  · exact h
  · rename_i row _
    unfold addRow
    split
    · exact h
    · rename_i z hz
      intro z' hz'
      rw [Option.mem_def] at hz'
      dsimp only at hz'
      rw [List.getElem?_set] at hz'
      split at hz'
      · rename_i hplace
        rw [if_pos (List.getElem?_eq_some_iff.mp hz).1, Option.some.injEq] at hz'
        obtain ⟨b, hcdevs, -, htype⟩ := add_cdev_single
          (t := TripPoint.init z.tripPoints.length .passive
            (toTemp (int32 (Gddv.deciKelvinToCelsius psv.temp * 1000))) 0 z.index row.sensor.index
            .sequential) rfl row.cdev 0 (psv.samplePeriod.tdiv 10)
            (limitState psv.limit ≠ 0) (limitState psv.limit) e.world
        have hzone : z.FromRows := h z (hplace ▸ hz)
        have hpassive : TripPointType.passive ≠ .polling := by decide
        have hadded := hzone.add_trip (by rw [htype]; exact hpassive) hcdevs e.world
        rw [← hz']
        exact ⟨hadded.trips, hadded.sensors⟩
      · exact h z' hz'

/-- A consolidation leaves trips from rows. -/
theorem FromRowsAt.consolidate (h : e.FromRowsAt i) : e.psvtConsolidate.FromRowsAt i := by
  intro z' hz'
  rw [Option.mem_def, e.psvt_consolidate_zones.1, List.getElem?_map] at hz'
  obtain ⟨z, hz, rfl⟩ := Option.map_eq_some_iff.mp hz'
  exact (h z hz).consolidate e.world

/-- Rows and consolidations leave trips from rows in a zone that had none. -/
theorem from_rows_run {e : Engine δ} (hempty : e.tripsAt i = []) (ops : List PsvtOp) :
    (run PsvtOp.apply e ops).FromRowsAt i := by
  refine run_history (I := fun _ (e : Engine δ) => e.FromRowsAt i) ?_ (fun _ e op _ h => ?_)
  · intro z hz
    have hnone : z.tripPoints = [] := by
      rw [tripsAt, Option.mem_def.mp hz] at hempty
      exact hempty
    exact ⟨by simp [hnone], by simp [hnone]⟩
  · cases op with
    | installPassive psv => exact h.install_passive psv
    | psvtConsolidate => exact h.consolidate

/-- After rows and consolidations in any order the zone at a place, which had no trips at first, is
consolidated exactly if no trip has the marker in a zone taken for one with a single trip, and in
any other zone the trips can be summed. -/
theorem psvt_consolidate_iff {e : Engine δ} (hempty : e.tripsAt i = []) (ops : List PsvtOp) :
    (run PsvtOp.apply e ops).Consolidated i ↔
      Consolidates (run PsvtOp.apply e ops).world ((run PsvtOp.apply e ops).tripsAt i) := by
  have hrows := from_rows_run hempty ops
  generalize run PsvtOp.apply e ops = e at hrows
  obtain ⟨hzones, hsame⟩ := e.psvt_consolidate_zones
  have hzones' := e.psvtConsolidate.psvt_consolidate_zones.1
  cases hz : e.zones[i]? with
  | none =>
      have hnone : e.psvtConsolidate.zones[i]? = none := by rw [hzones, List.getElem?_map, hz]; rfl
      have hnone' : e.psvtConsolidate.psvtConsolidate.zones[i]? = none := by
        rw [hzones', List.getElem?_map, hnone]
        rfl
      refine ⟨fun _ => ?_, fun _ => ⟨?_, ?_, hnone'.trans hnone.symm⟩⟩
      · simp [tripsAt, hz, Consolidates, singleTarget]
      · simp [tripsAt, hnone]
      · simp [tripsAt, hz]
  | some z =>
      have hfrom : z.FromRows := hrows z hz
      have hbefore : e.tripsAt i = z.tripPoints := by rw [tripsAt, hz]; rfl
      have hz' : e.psvtConsolidate.zones[i]? = some (z.psvtConsolidate e.world).1 := by
        rw [hzones, List.getElem?_map, hz]
        rfl
      have hafter : e.psvtConsolidate.tripsAt i = (z.psvtConsolidate e.world).1.tripPoints := by
        rw [tripsAt, hz']
        rfl
      have hagain : e.psvtConsolidate.psvtConsolidate.zones[i]? =
          some ((z.psvtConsolidate e.world).1.psvtConsolidate e.world).1 := by
        rw [hzones', List.getElem?_map, hz', Option.map_some, psvt_consolidate_same hsame]
      -- a second run of the loop changes nothing if no trip has the marker
      have htwice (hloop : singleTarget (z.psvtConsolidate e.world).1.tripPoints = false)
          (hall : ∀ t ∈ (z.psvtConsolidate e.world).1.tripPoints, t.isMax = false) :
          e.psvtConsolidate.psvtConsolidate.zones[i]? = e.psvtConsolidate.zones[i]? := by
        rw [hagain, hz', psvt_consolidate_loop hloop, consolidate_trips_eq_self _ hall]
      rw [hbefore]
      unfold Consolidates
      cases hsingle : singleTarget z.tripPoints with
      | true =>
          have hiff := single_marked_iff hfrom hsingle e.world
          rw [if_pos rfl, ← hiff]
          constructor
          · intro h t ht
            exact not_max_iff.mpr (h.unmarked t (hafter ▸ ht))
          · intro h
            refine ⟨fun t ht => not_max_iff.mp (h t (hafter ▸ ht)), ?_,
              htwice (single_once hfrom hsingle e.world) h⟩
            intro j t t' target ht _ hmax
            have hno := (hiff.mp h) t (hbefore ▸ List.mem_of_getElem? ht)
            exact absurd hmax (not_max_iff.mp hno)
      | false =>
          have htrips : (z.psvtConsolidate e.world).1.tripPoints =
              consolidateTrips e.world z.tripPoints := by
            rw [psvt_consolidate_loop hsingle]
          have hloop := consolidate_trips_from_rows e.world hfrom.trips
          rw [if_neg Bool.false_ne_true]
          rw [htrips] at hafter htwice
          constructor
          · intro h
            refine summable_of_half_way hfrom.trips fun j t t' target ht ht' hmax htarget => ?_
            have hhalf := h.between j t t' target (by rwa [hbefore]) (by rwa [hafter])
              (is_max_iff.mp hmax) htarget
            rwa [hbefore] at hhalf
          · intro h
            refine ⟨?_, ?_, htwice ?_ fun t ht => (hloop t ht).2.1⟩
            · intro t ht
              exact not_max_iff.mp (hloop t (hafter ▸ ht)).2.1
            · intro j t t' target ht ht' hmax htarget
              rw [hbefore] at ht ⊢
              rw [hafter] at ht'
              exact half_way_of_summable hfrom.trips h ht ht' (is_max_iff.mpr hmax) htarget
            · exact loop_not_single e.world hsingle

end Engine

/-! ## An example -/

/-- A row with a limit of 15 watts at 80 degrees, for the sensor and the device of the row with the
limit `MAX` at 70 degrees. -/
def wattsRow : Gddv.Psv :=
  { AdaptiveEngine.sampleRow with temp := 3532, limit := Gddv.ascii "15" }

/-- The trip of the only row of a zone keeps the marker. -/
theorem single_marker_kept :
    letI := StdSort.insertion
    AdaptiveEngine.sampleEngine.tripsAt 0 = [] ∧
      ¬ (run PsvtOp.apply AdaptiveEngine.sampleEngine
        [.installPassive AdaptiveEngine.sampleRow]).Consolidated 0 := by
  let _ := StdSort.insertion
  refine ⟨by decide +kernel, fun h => ?_⟩
  have hunmarked := h.unmarked
  revert hunmarked
  decide +kernel

/-- With a row of 15 watts behind it the marker is replaced. -/
theorem marker_replaced :
    letI := StdSort.insertion
    (run PsvtOp.apply AdaptiveEngine.sampleEngine
      [.installPassive AdaptiveEngine.sampleRow, .installPassive wattsRow]).Consolidated 0 := by
  let _ := StdSort.insertion
  refine (Engine.psvt_consolidate_iff (by decide +kernel) _).mpr ?_
  unfold Consolidates TripPoint.Summable
  decide +kernel

end Thermald
