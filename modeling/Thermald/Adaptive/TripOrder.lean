import Thermald.Adaptive.Effects
import Thermald.Lib.Run

/-!
# The order of the trips of a zone

`sort_and_update_poll_trip` leaves the trips of a zone in ascending order, with a polling trip below
all of them. It is called by the functions that add a trip or change one, but there are three
writers that change the temperature of a trip in place: `set_trip`, the loop of `psvt_consolidate`,
and `add_int340x_processor_dev` with `thd_trip_update_set_point`. `trips_in_order` says which of
their changes keep the order.
-/

namespace Thermald

/-! ## The writers -/

/-- `processor_thermal_min_passive`. -/
abbrev processorThermalMinPassive : Nat := 90000

/-- The change that `add_int340x_processor_dev` makes to a zone: the first passive trip above a
minimum is set to 15 degrees below the critical temperature of the zone `acpitz`, if it is too close
to it. A critical temperature of 0 is a missing one. -/
def Zone.updateSetPoint (z : Zone) (critical : Nat) : Zone :=
  match z.tripPoints.findIdx? fun t => t.type = .passive && processorThermalMinPassive < t.temp with
  | none => z
  | some i =>
    match z.tripPoints[i]? with
    | none => z
    | some t =>
      if critical ≠ 0 ∧ critical ≤ (t.temp + 5000) % 2 ^ 32 then
        { z with tripPoints := z.tripPoints.modify i fun t =>
            { t with temp := (critical + 2 ^ 32 - 15000) % 2 ^ 32 } }
      else z

/-- The operations on the trips of a zone. -/
inductive TripOp where
  | addTrip (trip : TripPoint) (force : Bool)
  | updateTripTemp (trip : TripPoint)
  | updateHighestTripTemp (trip : TripPoint)
  | setTrip (temp : Nat)
  | psvtConsolidate
  | updateSetPoint (critical : Nat)

/-- Perform an operation. -/
def TripOp.apply {δ : Type} [StdSort] (x : Zone × World δ) : TripOp → Zone × World δ
  | .addTrip trip force => x.1.addTrip trip force x.2
  | .updateTripTemp trip => x.1.updateTripTemp trip x.2
  | .updateHighestTripTemp trip => x.1.updateHighestTripTemp trip x.2
  | .setTrip temp => (x.1.setPassiveTemp temp, x.2)
  | .psvtConsolidate => x.1.psvtConsolidate x.2
  | .updateSetPoint critical => (x.1.updateSetPoint critical, x.2)

/-! ## The order -/

/-- A temperature of at least 5 degrees, as an unsigned number. -/
def InDomain (temp : Nat) : Prop := 5000 ≤ temp ∧ temp < 2 ^ 32

/-- The sensor has one polling trip, which is below all other trips, and these are in ascending
order. -/
def InOrder (trips : List TripPoint) (s : Int) : Prop :=
  ∃ p, trips.filter (fun t => t.type = .polling && t.sensorId = s) = [p] ∧
    (∀ t ∈ trips, ¬ (t.type = .polling ∧ t.sensorId = s) → p.temp < t.temp) ∧
    (trips.filter fun t => !(t.type = .polling && t.sensorId = s)).Pairwise
      fun t t' => t.temp ≤ t'.temp

/-- The form in which `sort_and_update_poll_trip` leaves the trips: the polling trip is the last
one. -/
structure Ordered (trips : List TripPoint) (s : Int) (others : List TripPoint) (p : TripPoint) :
    Prop where
  split : trips = others ++ [p]
  some : others ≠ []
  ordinary : ∀ t ∈ others, t.type ≠ .polling
  domain : ∀ t ∈ others, InDomain t.temp
  ascending : others.Pairwise fun t t' => t.temp ≤ t'.temp
  polling : p.type = .polling
  bare : p.cdevs = []
  sensor : p.sensorId = s
  below : ∀ t ∈ others, p.temp < t.temp

theorem Ordered.in_order {trips others : List TripPoint} {s : Int} {p : TripPoint}
    (h : Ordered trips s others p) : InOrder trips s := by
  have hothers : ∀ t ∈ others, (decide (t.type = .polling) && decide (t.sensorId = s)) = false := by
    intro t ht
    simp [h.ordinary t ht]
  have hp : (decide (p.type = .polling) && decide (p.sensorId = s)) = true := by
    simp [h.polling, h.sensor]
  refine ⟨p, ?_, ?_, ?_⟩
  · rw [h.split, List.filter_append, List.filter_eq_nil_iff.mpr fun t ht => by simp [hothers t ht]]
    simp [h.polling, h.sensor]
  · intro t ht hno
    rw [h.split] at ht
    rcases List.mem_append.mp ht with ht | ht
    · exact h.below t ht
    · rw [List.mem_singleton.mp ht] at hno
      exact absurd ⟨h.polling, h.sensor⟩ hno
  · rw [h.split, List.filter_append, List.filter_eq_self.mpr fun t ht => by rw [hothers t ht]; rfl]
    simpa [h.polling, h.sensor] using h.ascending

/-! ## Sorting -/

/-- The temperature of a polling trip is below the lowest other trip. -/
theorem poll_temp_lt {temp : Nat} (h : InDomain temp) : Zone.pollTemp temp < temp := by
  obtain ⟨hlow, hhigh⟩ := h
  simp only [Zone.pollTemp, defAsyncTripOffsetPct, defAsyncTripOffset]
  have hoffset : temp * 10 % 2 ^ 32 / 100 ≤ temp := by
    have hmod := Nat.mod_le (temp * 10) (2 ^ 32)
    generalize temp * 10 % 2 ^ 32 = product at hmod ⊢
    omega
  generalize temp * 10 % 2 ^ 32 / 100 = offset at hoffset ⊢
  split
  · rw [show temp + 2 ^ 32 - 5000 = temp - 5000 + 2 ^ 32 by omega, Nat.add_mod_right,
      Nat.mod_eq_of_lt (by omega)]
    omega
  · rw [show temp + 2 ^ 32 - offset = temp - offset + 2 ^ 32 by omega, Nat.add_mod_right,
      Nat.mod_eq_of_lt (by omega)]
    omega

/-- Trips that `sort_and_update_poll_trip` puts in order: one polling trip at most, and others in
the domain. -/
structure Ready (trips : List TripPoint) : Prop where
  polling : (trips.map (·.type)).count .polling ≤ 1
  domain : ∀ t ∈ trips, t.type ≠ .polling → InDomain t.temp
  some : ∃ t ∈ trips, t.type ≠ .polling

/-- Without its polling trip such a list has none. -/
theorem erase_polling_ordinary {trips : List TripPoint}
    (h : (trips.map (·.type)).count .polling ≤ 1) :
    ∀ t ∈ trips.eraseP fun t => t.type = .polling, t.type ≠ .polling := by
  induction trips with
  | nil => simp
  | cons t rest ih =>
      rw [List.map_cons, List.count_cons] at h
      by_cases htype : t.type = .polling
      · rw [List.eraseP_cons_of_pos (by simpa using htype)]
        intro u hu hpoll
        have hcount : 0 < (rest.map (·.type)).count .polling :=
          List.count_pos_iff.mpr (List.mem_map.mpr ⟨u, hu, hpoll⟩)
        simp only [htype, beq_self_eq_true, if_true] at h
        omega
      · rw [List.eraseP_cons_of_neg (by simpa using htype)]
        intro u hu
        rcases List.mem_cons.mp hu with rfl | hu
        · exact htype
        · refine ih ?_ u hu
          omega

/-- Changes that keep the types and stay in the domain. -/
theorem Ready.change {trips trips' : List TripPoint} (h : Ready trips)
    (htypes : trips'.map (·.type) = trips.map (·.type))
    (hdomain : ∀ t ∈ trips', t.type ≠ .polling → InDomain t.temp) : Ready trips' := by
  refine ⟨htypes ▸ h.polling, hdomain, ?_⟩
  obtain ⟨t, ht, htype⟩ := h.some
  have hmem : t.type ∈ trips'.map (·.type) := htypes ▸ List.mem_map_of_mem ht
  obtain ⟨t', ht', heq⟩ := List.mem_map.mp hmem
  exact ⟨t', ht', heq ▸ htype⟩

/-- One more trip that is not a polling trip. -/
theorem Ready.append {trips : List TripPoint} (h : Ready trips) {t : TripPoint}
    (htype : t.type ≠ .polling) (hdomain : InDomain t.temp) : Ready (trips ++ [t]) := by
  refine ⟨?_, ?_, t, by simp, htype⟩
  · rw [List.map_append, List.count_append, List.map_singleton, List.count_singleton]
    have := h.polling
    simpa [htype] using this
  · intro u hu hu'
    rcases List.mem_append.mp hu with hu | hu
    · exact h.domain u hu hu'
    · rw [List.mem_singleton.mp hu]
      exact hdomain

/-- A trip is replaced by one of the same type. -/
theorem Ready.set {trips : List TripPoint} (h : Ready trips) {i : Nat} {t : TripPoint}
    (hi : i < trips.length) (htype : trips[i].type = t.type) (hdomain : InDomain t.temp) :
    Ready (trips.set i t) := by
  refine h.change ?_ ?_
  · rw [List.map_set]
    apply List.ext_getElem
    · simp
    · intro j hj _
      rw [List.getElem_set]
      split
      · rename_i hij
        subst hij
        simp [htype]
      · rfl
  · intro u hu hu'
    rcases List.mem_or_eq_of_mem_set hu with hu | rfl
    · exact h.domain u hu hu'
    · exact hdomain

/-- A trip gets another temperature in the domain. -/
theorem Ready.modify {trips : List TripPoint} (h : Ready trips) (i : Nat)
    {f : TripPoint → TripPoint} (htype : ∀ t, (f t).type = t.type)
    (hdomain : ∀ t, InDomain (f t).temp) : Ready (trips.modify i f) := by
  by_cases hi : i < trips.length
  · have heq : trips.modify i f = trips.set i (f trips[i]) := by
      rw [List.modify_eq_set_getElem?, List.getElem?_eq_getElem hi]
      rfl
    rw [heq]
    exact h.set hi (htype _).symm (hdomain _)
  · rw [List.modify_eq_self (by omega)]
    exact h

/-- An ordered list may be sorted again. -/
theorem Ordered.ready {trips others : List TripPoint} {s : Int} {p : TripPoint}
    (h : Ordered trips s others p) : Ready trips := by
  have hnone : (others.map (·.type)).count .polling = 0 := by
    rw [List.count_eq_zero]
    intro hmem
    obtain ⟨t, ht, htype⟩ := List.mem_map.mp hmem
    exact h.ordinary t ht htype
  refine ⟨?_, ?_, ?_⟩
  · rw [h.split, List.map_append, List.count_append, hnone]
    simp [h.polling]
  · intro t ht htype
    rw [h.split] at ht
    rcases List.mem_append.mp ht with ht | ht
    · exact h.domain t ht
    · rw [List.mem_singleton.mp ht] at htype
      exact absurd h.polling htype
  · obtain ⟨t, ht⟩ := List.exists_mem_of_ne_nil _ h.some
    refine ⟨t, ?_, h.ordinary t ht⟩
    rw [h.split]
    exact List.mem_append_left _ ht

/-! ## Changes in place -/

/-- The temperature fits at a place among the trips: above the polling trips, and between the other
trips. -/
structure Fits (trips : List TripPoint) (i temp : Nat) : Prop where
  above : ∀ t ∈ trips, t.type = .polling → t.temp < temp
  before : ∀ j t, j < i → trips[j]? = some t → t.type ≠ .polling → t.temp ≤ temp
  behind : ∀ j t, i < j → trips[j]? = some t → t.type ≠ .polling → temp ≤ t.temp

/-- A change in place that fits keeps the order. -/
theorem Ordered.set_temp {trips others : List TripPoint} {s : Int} {p : TripPoint}
    (h : Ordered trips s others p) {i temp : Nat} (hi : i < others.length)
    (hdomain : InDomain temp) (hfits : Fits trips i temp) :
    Ordered (trips.modify i fun t => { t with temp }) s
      (others.set i { others[i] with temp }) p := by
  have hget : ∀ j, j < others.length → trips[j]? = others[j]? := by
    intro j hj
    rw [h.split, List.getElem?_append_left hj]
  have hmem : ∀ t ∈ others.set i { others[i] with temp },
      t ∈ others ∨ t = { others[i] with temp } := fun t ht => List.mem_or_eq_of_mem_set ht
  refine
    { split := ?_
      some := by simpa using h.some
      ordinary := fun t ht => ?_
      domain := fun t ht => ?_
      ascending := ?_
      polling := h.polling
      bare := h.bare
      sensor := h.sensor
      below := fun t ht => ?_ }
  · rw [List.modify_eq_set_getElem?, hget i hi, List.getElem?_eq_getElem hi]
    show trips.set i { others[i] with temp } = _
    rw [h.split, List.set_append_left _ _ hi]
  · rcases hmem t ht with ht | rfl
    · exact h.ordinary t ht
    · exact h.ordinary others[i] (List.getElem_mem hi)
  · rcases hmem t ht with ht | rfl
    · exact h.domain t ht
    · exact hdomain
  · -- two places of which one may be the changed one
    rw [List.pairwise_iff_getElem]
    intro a b ha hb hab
    rw [List.length_set] at ha hb
    have hpair := List.pairwise_iff_getElem.mp h.ascending a b ha hb hab
    rw [List.getElem_set, List.getElem_set]
    split
    · rename_i hia
      rw [if_neg (by omega)]
      refine hfits.behind b others[b] (by omega) ?_ (h.ordinary _ (List.getElem_mem hb))
      rw [hget b hb, List.getElem?_eq_getElem hb]
    · split
      · refine hfits.before a others[a] (by omega) ?_ (h.ordinary _ (List.getElem_mem ha))
        rw [hget a ha, List.getElem?_eq_getElem ha]
      · exact hpair
  · rcases hmem t ht with ht | rfl
    · exact h.below t ht
    · refine hfits.above p ?_ h.polling
      rw [h.split]
      simp

/-- The trip has the target `MAX`, on which `psvt_consolidate` works. -/
def TripPoint.isMax (t : TripPoint) : Bool := t.isTargetValid = some tripPtInvalidTargetState

/-- The trip is for the same sensor and device as the next one, which has a target. -/
def TripPoint.joins (t : TripPoint) : Option TripPoint → Bool
  | none => false
  | some next =>
    next.getFirstCdev.isSome && next.isTargetValid.isSome && t.sensorId = next.sensorId &&
      t.getFirstCdev = next.getFirstCdev

/-- The temperature that a trip gets in `psvt_consolidate`, before it is reduced to 32 bits: twice
the middle to the next trip, or one degree more. -/
def TripPoint.consolidatedTemp (t : TripPoint) (next : Option TripPoint) : Nat :=
  if t.isMax then
    if t.joins next then ((next.elim 0 fun n => n.temp) + t.temp) / 2 else t.temp + 1000
  else t.temp

/-- The sum that `psvt_consolidate` computes for a trip stays below 2^32. -/
def TripPoint.NoOverflow (t : TripPoint) (next : Option TripPoint) : Prop :=
  t.isMax = true →
    (if t.joins next then (next.elim 0 fun n => n.temp) + t.temp else t.temp + 1000) < 2 ^ 32

/-- The loop of `psvt_consolidate` keeps the trips in order: no sum overflows, and a trip that is
raised by one degree stays at or below what becomes of the next one. -/
def ConsolidatesInOrder : List TripPoint → Prop
  | [] => True
  | t :: rest => t.NoOverflow rest.head? ∧
    (∀ u ∈ rest.head?, u.type ≠ .polling → t.isMax = true → t.joins (some u) = false →
      t.temp + 1000 ≤ u.consolidatedTemp rest.tail.head?) ∧ ConsolidatesInOrder rest

section Consolidate

variable {δ : Type}

/-- A trip without the target `MAX` is left alone. -/
theorem consolidate_trip_unmarked (w : World δ) {t : TripPoint} (h : t.isMax = false)
    (next : Option TripPoint) : consolidateTrip w t next = t := by
  unfold consolidateTrip
  rw [if_neg (by simpa [TripPoint.isMax] using h)]

/-- What it means to join the next trip: the device and the target that are used. -/
theorem joins_some_iff {t n : TripPoint} :
    t.joins (some n) = true ↔ ∃ k target, n.getFirstCdev = some k ∧ n.isTargetValid = some target ∧
      t.sensorId = n.sensorId ∧ t.getFirstCdev = some k := by
  simp only [TripPoint.joins, Bool.and_eq_true, decide_eq_true_eq, Option.isSome_iff_exists]
  constructor
  · rintro ⟨⟨⟨⟨k, hcdev⟩, target, htarget⟩, hsensor⟩, hsame⟩
    exact ⟨k, target, hcdev, htarget, hsensor, hsame.trans hcdev⟩
  · rintro ⟨k, target, hcdev, htarget, hsensor, hsame⟩
    exact ⟨⟨⟨⟨k, hcdev⟩, target, htarget⟩, hsensor⟩, hsame.trans hcdev.symm⟩

/-- A trip with the target `MAX` that joins the next one goes half the way to it. -/
theorem consolidate_trip_joined (w : World δ) {t n : TripPoint} {k : Nat} {target : Int}
    (h : t.isMax = true) (hcdev : n.getFirstCdev = some k) (htarget : n.isTargetValid = some target)
    (hsensor : t.sensorId = n.sensorId) (hsame : t.getFirstCdev = some k) :
    consolidateTrip w t (some n) =
      (t.setFirstTarget ((int32 ((w.cdevs k).minState + target)).tdiv 2)).updateTripTemp
        ((n.temp + t.temp) % 2 ^ 32 / 2) := by
  have hmax : t.isTargetValid = some tripPtInvalidTargetState := of_decide_eq_true h
  simp only [consolidateTrip, hmax, hcdev, htarget, hsensor, hsame, and_self, if_true]

/-- Any other trip with the target `MAX` is raised. -/
theorem consolidate_trip_raised (w : World δ) {t : TripPoint} {next : Option TripPoint}
    (h : t.isMax = true) (hjoins : t.joins next = false) : consolidateTrip w t next = t.raise := by
  have hmax : t.isTargetValid = some tripPtInvalidTargetState := of_decide_eq_true h
  unfold consolidateTrip
  rw [if_pos hmax]
  cases next with
  | none => rfl
  | some n =>
      dsimp only
      cases hcdev : n.getFirstCdev with
      | none => rfl
      | some k =>
          cases htarget : n.isTargetValid with
          | none => rfl
          | some target =>
              dsimp only
              rw [if_neg]
              rintro ⟨hsensor, hsame⟩
              rw [joins_some_iff.mpr ⟨k, target, hcdev, htarget, hsensor, hsame⟩] at hjoins
              cases hjoins

/-- What the loop body does to a trip. -/
theorem consolidate_trip_spec (w : World δ) (t : TripPoint) (next : Option TripPoint)
    (h : t.NoOverflow next) :
    (consolidateTrip w t next).type = t.type ∧
      (consolidateTrip w t next).temp = t.consolidatedTemp next := by
  unfold TripPoint.NoOverflow at h
  unfold TripPoint.consolidatedTemp
  cases hmax : t.isMax with
  | false =>
      rw [consolidate_trip_unmarked w hmax]
      exact ⟨rfl, rfl⟩
  | true =>
      have hsum := h hmax
      rw [if_pos rfl]
      cases hjoins : t.joins next with
      | false =>
          rw [hjoins, if_neg Bool.false_ne_true] at hsum
          rw [consolidate_trip_raised w hmax hjoins, if_neg Bool.false_ne_true]
          simp only [TripPoint.raise, TripPoint.updateTripTemp, TripPoint.setFirstTargetInvalid]
          exact ⟨trivial, Nat.mod_eq_of_lt hsum⟩
      | true =>
          cases next with
          | none => cases hjoins
          | some n =>
              rw [hjoins, if_pos rfl, Option.elim_some] at hsum
              obtain ⟨k, target, hcdev, htarget, hsensor, hsame⟩ := joins_some_iff.mp hjoins
              rw [consolidate_trip_joined w hmax hcdev htarget hsensor hsame, if_pos rfl]
              refine ⟨rfl, ?_⟩
              show (n.temp + t.temp) % 2 ^ 32 / 2 = (n.temp + t.temp) / 2
              rw [Nat.mod_eq_of_lt hsum]

/-- A trip does not get colder, if the next one is not below it. -/
theorem le_consolidated_temp {t : TripPoint} {next : Option TripPoint}
    (h : ∀ u ∈ next, t.joins (some u) = true → t.temp ≤ u.temp) :
    t.temp ≤ t.consolidatedTemp next := by
  unfold TripPoint.consolidatedTemp
  split
  · split
    · rename_i hjoins
      cases next with
      | none => simp [TripPoint.joins] at hjoins
      | some u =>
          have hle := h u rfl hjoins
          simp only [Option.elim_some]
          omega
    · omega
  · exact le_refl _

/-- Nothing joins a polling trip, which has no device. -/
theorem joins_bare {t p : TripPoint} (h : p.cdevs = []) : t.joins (some p) = false := by
  simp [TripPoint.joins, TripPoint.getFirstCdev, h]

/-- Of trips in order with a polling trip behind them, none is above the next one that it joins. -/
theorem le_of_joins_next {t p : TripPoint} {rest : List TripPoint} (hbare : p.cdevs = [])
    (hascending : (t :: rest).Pairwise fun t t' => t.temp ≤ t'.temp) :
    ∀ u ∈ (rest ++ [p]).head?, t.joins (some u) = true → t.temp ≤ u.temp := by
  intro u hu hjoins
  cases rest with
  | nil =>
      cases hu
      rw [joins_bare hbare] at hjoins
      cases hjoins
  | cons v later =>
      cases hu
      exact List.rel_of_pairwise_cons hascending List.mem_cons_self

/-- The new temperature fits into 32 bits. -/
theorem consolidated_temp_lt {t : TripPoint} {next : Option TripPoint} (ht : t.temp < 2 ^ 32)
    (h : t.NoOverflow next) : t.consolidatedTemp next < 2 ^ 32 := by
  unfold TripPoint.consolidatedTemp
  unfold TripPoint.NoOverflow at h
  split
  · rename_i hmax
    have hsum := h hmax
    split at hsum
    · rw [if_pos ‹_›]
      omega
    · rw [if_neg ‹_›]
      exact hsum
  · exact ht

/-- A trip stays at or below what becomes of the next one, if it does so when it is raised. -/
theorem consolidated_temp_le {t v : TripPoint} {next : Option TripPoint} (htv : t.temp ≤ v.temp)
    (hv : v.temp ≤ v.consolidatedTemp next)
    (hraise : t.isMax = true → t.joins (some v) = false →
      t.temp + 1000 ≤ v.consolidatedTemp next) :
    t.consolidatedTemp (some v) ≤ v.consolidatedTemp next := by
  generalize v.consolidatedTemp next = temp at hv hraise ⊢
  unfold TripPoint.consolidatedTemp
  split
  · rename_i hmax
    split
    · simp only [Option.elim_some]
      omega
    · rename_i hjoins
      exact hraise hmax (Bool.not_eq_true _ ▸ hjoins)
  · exact le_trans htv hv

/-- The loop of `psvt_consolidate` on ordinary trips in order and a polling trip behind them. -/
theorem consolidate_trips_ordered (w : World δ) {p : TripPoint} (hbare : p.cdevs = [])
    {others : List TripPoint}
    (hordinary : ∀ t ∈ others, t.type ≠ .polling) (hdomain : ∀ t ∈ others, InDomain t.temp)
    (hascending : others.Pairwise fun t t' => t.temp ≤ t'.temp)
    (hbelow : ∀ t ∈ others, p.temp < t.temp) (hok : ConsolidatesInOrder (others ++ [p])) :
    ∃ others', consolidateTrips w (others ++ [p]) = others' ++ [p] ∧
      others'.length = others.length ∧ (∀ t ∈ others', t.type ≠ .polling) ∧
      (∀ t ∈ others', InDomain t.temp) ∧ (others'.Pairwise fun t t' => t.temp ≤ t'.temp) ∧
      (∀ t ∈ others', p.temp < t.temp) := by
  have hlast : consolidateTrips w [p] = [p] := by
    have hno : p.isTargetValid = none := by simp [TripPoint.isTargetValid, hbare]
    simp [consolidateTrips, consolidateTrip, hno]
  induction others with
  | nil => exact ⟨[], hlast, rfl, by simp, by simp, .nil, by simp⟩
  | cons t rest ih =>
      obtain ⟨hoverflow, hraise, hrest⟩ := hok
      have hoverflow : t.NoOverflow (rest ++ [p]).head? := hoverflow
      have hrest : ConsolidatesInOrder (rest ++ [p]) := hrest
      obtain ⟨rest', heq, hlength, hordinary', hdomain', hascending', hbelow'⟩ :=
        ih (fun u hu => hordinary u (List.mem_cons_of_mem _ hu))
          (fun u hu => hdomain u (List.mem_cons_of_mem _ hu)) hascending.of_cons
          (fun u hu => hbelow u (List.mem_cons_of_mem _ hu)) hrest
      obtain ⟨htype, htemp⟩ := consolidate_trip_spec w t (rest ++ [p]).head? hoverflow
      have hup : t.temp ≤ t.consolidatedTemp (rest ++ [p]).head? :=
        le_consolidated_temp (le_of_joins_next hbare hascending)
      have hbound : t.consolidatedTemp (rest ++ [p]).head? < 2 ^ 32 :=
        consolidated_temp_lt (hdomain t List.mem_cons_self).2 hoverflow
      refine ⟨consolidateTrip w t (rest ++ [p]).head? :: rest', ?_, by simp [hlength],
        List.forall_mem_cons.mpr ⟨?_, hordinary'⟩, List.forall_mem_cons.mpr ⟨?_, hdomain'⟩,
        List.pairwise_cons.mpr ⟨?_, hascending'⟩, List.forall_mem_cons.mpr ⟨?_, hbelow'⟩⟩
      · show consolidateTrip w t (rest ++ [p]).head? :: consolidateTrips w (rest ++ [p]) = _
        rw [heq]
        rfl
      · rw [htype]
        exact hordinary t List.mem_cons_self
      · rw [htemp]
        exact ⟨le_trans (hdomain t List.mem_cons_self).1 hup, hbound⟩
      · -- it is enough to compare with what becomes of the next trip
        cases rest with
        | nil =>
            rw [List.length_nil, List.length_eq_zero_iff] at hlength
            simp [hlength]
        | cons v later =>
            obtain ⟨hoverflow', -, -⟩ := hrest
            obtain ⟨-, htemp'⟩ := consolidate_trip_spec w v (later ++ [p]).head? hoverflow'
            have hle : t.consolidatedTemp (some v) ≤ v.consolidatedTemp (later ++ [p]).head? :=
              consolidated_temp_le (List.rel_of_pairwise_cons hascending List.mem_cons_self)
                (le_consolidated_temp (le_of_joins_next hbare hascending.of_cons))
                (hraise v rfl (hordinary v (by simp)))
            have hheads : consolidateTrip w v (later ++ [p]).head? ::
                consolidateTrips w (later ++ [p]) = rest' ++ [p] := heq
            cases rest' with
            | nil => simp at hlength
            | cons v' later' =>
                obtain ⟨hv', -⟩ := List.cons.inj hheads
                have hfirst : (consolidateTrip w t (some v)).temp ≤ v'.temp := by
                  have htemp : (consolidateTrip w t (some v)).temp = t.consolidatedTemp (some v) :=
                    htemp
                  rw [htemp, ← hv', htemp']
                  exact hle
                intro u hu
                rcases List.mem_cons.mp hu with rfl | hu
                · exact hfirst
                · exact le_trans hfirst (List.rel_of_pairwise_cons hascending' hu)
      · rw [htemp]
        exact lt_of_lt_of_le (hbelow t List.mem_cons_self) hup

end Consolidate

section Runs

variable {δ : Type} [StdSort]

/-- `sort_and_update_poll_trip` puts the trips of a zone with one sensor in order. -/
theorem sort_ordered {z : Zone} {s : Sensor} (hsensors : z.sensors = [s]) (h : Ready z.tripPoints)
    (w : World δ) :
    ∃ others p, Ordered (z.sortAndUpdatePollTrip w).1.tripPoints s.index others p := by
  have hordinary := erase_polling_ordinary h.polling
  obtain ⟨t₀, ht₀, htype₀⟩ := h.some
  have hmem₀ : t₀ ∈ z.sortedTrips := by
    rw [Zone.sortedTrips, StdSort.mem_sort]
    exact (List.mem_eraseP_of_neg (by simpa using htype₀)).mpr ht₀
  obtain ⟨hnil, -⟩ | ⟨t, rest, events, hsorted, heq⟩ := z.sort_and_update_poll_trip_cases w
  · simp [hnil] at hmem₀
  · have hmem : ∀ u ∈ t :: rest, u ∈ z.tripPoints ∧ u.type ≠ .polling := by
      intro u hu
      rw [← hsorted, Zone.sortedTrips, StdSort.mem_sort] at hu
      exact ⟨List.mem_of_mem_eraseP hu, hordinary u hu⟩
    have hascending : (t :: rest).Pairwise fun t t' => t.temp ≤ t'.temp := by
      rw [← hsorted]
      exact Zone.sorted_ascending _
    have hdomain : ∀ u ∈ t :: rest, InDomain u.temp := fun u hu =>
      h.domain u (hmem u hu).1 (hmem u hu).2
    refine ⟨t :: rest, .init (t :: rest).length .polling (Zone.pollTemp t.temp) 0 z.index s.index
      .parallel, ?_⟩
    rw [heq, hsensors]
    refine
      { split := rfl
        some := by simp
        ordinary := fun u hu => (hmem u hu).2
        domain := hdomain
        ascending := hascending
        polling := rfl
        bare := rfl
        sensor := rfl
        below := fun u hu => ?_ }
    have hfirst : t.temp ≤ u.temp := by
      rcases List.mem_cons.mp hu with rfl | hu
      · exact le_refl _
      · exact List.rel_of_pairwise_cons hascending hu
    exact lt_of_lt_of_le (poll_temp_lt (hdomain t List.mem_cons_self)) hfirst

omit [StdSort] in
/-- The change of `update_highest_trip_temp`, which looks for its trip from the end. -/
theorem ready_update_highest {trips : List TripPoint} (h : Ready trips) (i : Nat)
    {f : TripPoint → TripPoint} (htype : ∀ t, (f t).type = t.type)
    (hdomain : ∀ t, InDomain (f t).temp) : Ready (trips.reverse.modify i f).reverse := by
  have hreverse : ∀ {trips : List TripPoint}, Ready trips → Ready trips.reverse := by
    intro trips h
    refine ⟨?_, fun t ht => h.domain t (List.mem_reverse.mp ht), ?_⟩
    · rw [List.map_reverse, List.count_reverse]
      exact h.polling
    · obtain ⟨t, ht, htype⟩ := h.some
      exact ⟨t, List.mem_reverse.mpr ht, htype⟩
  exact hreverse ((hreverse h).modify i htype hdomain)

/-- The sensors of a zone stay the same when its trips are sorted. -/
theorem sort_sensors (z : Zone) (w : World δ) :
    (z.sortAndUpdatePollTrip w).1.sensors = z.sensors := by
  obtain ⟨-, heq⟩ | ⟨t, rest, events, -, heq⟩ := z.sort_and_update_poll_trip_cases w
  · rw [heq]
  · rw [heq]

/-- A zone with one sensor whose trips are in order. -/
def Settled (s : Sensor) (z : Zone) : Prop :=
  z.sensors = [s] ∧ ∃ others p, Ordered z.tripPoints s.index others p

/-- `sort_and_update_poll_trip` settles a zone with new trips that are ready for it. -/
theorem settled_sort {z : Zone} {s : Sensor} (hsensors : z.sensors = [s])
    {trips : List TripPoint} (h : Ready trips) (w : World δ) :
    Settled s (Zone.sortAndUpdatePollTrip { z with tripPoints := trips } w).1 :=
  ⟨(sort_sensors _ w).trans hsensors,
    sort_ordered (z := { z with tripPoints := trips }) hsensors h w⟩

/-- `update_highest_trip_temp` settles a zone. -/
theorem settled_update_highest {z : Zone} {s : Sensor} (hsensors : z.sensors = [s])
    (h : Ready z.tripPoints) (trip : TripPoint) (hdomain : InDomain trip.temp) (w : World δ) :
    Settled s (z.updateHighestTripTemp trip w).1 := by
  obtain ⟨t, ht, -⟩ := h.some
  have hsome : z.tripPoints.isEmpty = false := by
    rw [List.isEmpty_eq_false_iff]
    exact List.ne_nil_of_mem ht
  unfold Zone.updateHighestTripTemp
  rw [if_neg (by simp [hsome])]
  refine settled_sort hsensors ?_ w
  split
  · exact ready_update_highest h _ (fun _ => rfl) (fun _ => hdomain)
  · exact h

/-- `add_trip` settles a zone. -/
theorem settled_add_trip {z : Zone} {s : Sensor} (hsensors : z.sensors = [s])
    (h : Ready z.tripPoints) {trip : TripPoint} {force : Bool} (hdomain : InDomain trip.temp)
    (hforce : force = true → trip.type ≠ .polling)
    (hpolling : ∃ t ∈ z.tripPoints, t.type = .polling) (w : World δ) :
    Settled s (z.addTrip trip force w).1 := by
  refine settled_sort hsensors ?_ w
  split
  · rename_i htrue
    exact h.append (hforce htrue) hdomain
  · split
    · rename_i i hfound
      obtain ⟨hi, htype, -⟩ := List.findIdx?_eq_some_iff_getElem.mp hfound
      exact h.set hi (of_decide_eq_true htype) hdomain
    · rename_i hnone
      refine h.append (fun htype => ?_) hdomain
      -- a polling trip would have replaced the one that is there
      obtain ⟨t, ht, hpoll⟩ := hpolling
      have hno := List.findIdx?_eq_none_iff.mp hnone t ht
      simp [hpoll, htype] at hno

/-- `update_trip_temp` settles a zone. -/
theorem settled_update_trip_temp {z : Zone} {s : Sensor} (hsensors : z.sensors = [s])
    (h : Ready z.tripPoints) {trip : TripPoint} (hdomain : InDomain trip.temp) (w : World δ) :
    Settled s (z.updateTripTemp trip w).1 := by
  refine settled_sort hsensors ?_ w
  split
  · exact h.modify _ (fun _ => rfl) (fun _ => hdomain)
  · exact h

omit [StdSort] in
/-- The place of a trip that is not the polling trip. -/
theorem Ordered.lt_of_found {trips others : List TripPoint} {s : Int} {p : TripPoint}
    (h : Ordered trips s others p) {q : TripPoint → Bool} (hq : ∀ t, q t = true → t.type ≠ .polling)
    {i : Nat} (hfound : trips.findIdx? q = Option.some i) : i < others.length := by
  obtain ⟨hi, htrue, -⟩ := List.findIdx?_eq_some_iff_getElem.mp hfound
  by_contra hge
  have hlength : trips.length = others.length + 1 := by rw [h.split]; simp
  have hlast : i = others.length := by omega
  subst hlast
  have hget : trips[others.length] = p := by simp [h.split]
  rw [hget] at htrue
  exact hq p htrue h.polling

omit [StdSort] in
/-- A change in place that fits keeps a zone settled. -/
theorem settled_modify {z : Zone} {s : Sensor} (h : Settled s z) {q : TripPoint → Bool}
    (hq : ∀ t, q t = true → t.type ≠ .polling) {i temp : Nat}
    (hfound : z.tripPoints.findIdx? q = some i) (hdomain : InDomain temp)
    (hfits : Fits z.tripPoints i temp) :
    Settled s { z with tripPoints := z.tripPoints.modify i fun t => { t with temp } } := by
  obtain ⟨hsensors, others, p, hordered⟩ := h
  exact ⟨hsensors, _, p, hordered.set_temp (hordered.lt_of_found hq hfound) hdomain hfits⟩

/-- The condition on an operation in a zone with these trips. -/
def TripOp.KeepsOrder (trips : List TripPoint) : TripOp → Prop
  | .addTrip trip force => InDomain trip.temp ∧ (force = true → trip.type ≠ .polling)
  | .updateTripTemp trip | .updateHighestTripTemp trip => InDomain trip.temp
  | .setTrip temp => ∀ i, (trips.findIdx? fun t => t.type = .passive) = some i →
      InDomain temp ∧ Fits trips i temp
  | .psvtConsolidate =>
      if trips.length = 2 ∧ ∃ t ∈ trips.head?, t.isTargetValid.isSome then
        ∀ t ∈ trips.head?, t.temp + 1000 < 2 ^ 32
      else ConsolidatesInOrder trips
  | .updateSetPoint critical => ∀ i t,
      (trips.findIdx? fun t => t.type = .passive && processorThermalMinPassive < t.temp) = some i →
      trips[i]? = some t → critical ≠ 0 → critical ≤ (t.temp + 5000) % 2 ^ 32 →
      InDomain ((critical + 2 ^ 32 - 15000) % 2 ^ 32) ∧
        Fits trips i ((critical + 2 ^ 32 - 15000) % 2 ^ 32)

omit [StdSort] in
/-- The loop of `psvt_consolidate` keeps a zone settled. -/
theorem settled_consolidate_trips {z : Zone} {s : Sensor} (h : Settled s z) (w : World δ)
    (hok : ConsolidatesInOrder z.tripPoints) :
    Settled s { z with tripPoints := consolidateTrips w z.tripPoints } := by
  obtain ⟨hsensors, others, p, hordered⟩ := h
  refine ⟨hsensors, ?_⟩
  dsimp only
  rw [hordered.split] at hok ⊢
  obtain ⟨others', heq, hlength, hordinary, hdomain, hascending, hbelow⟩ :=
    consolidate_trips_ordered w hordered.bare hordered.ordinary hordered.domain hordered.ascending
      hordered.below hok
  rw [heq]
  refine ⟨others', p, rfl, ?_, hordinary, hdomain, hascending, hordered.polling, hordered.bare,
    hordered.sensor, hbelow⟩
  intro hnil
  rw [hnil] at hlength
  exact hordered.some (List.length_eq_zero_iff.mp hlength.symm)

/-- `psvt_consolidate` keeps a zone settled. -/
theorem settled_psvt_consolidate {z : Zone} {s : Sensor} (h : Settled s z) (w : World δ)
    (hok : TripOp.psvtConsolidate.KeepsOrder z.tripPoints) :
    Settled s (z.psvtConsolidate w).1 := by
  obtain ⟨hsensors, others, p, hordered⟩ := h
  have hpolling : ∃ t ∈ z.tripPoints, t.type = .polling :=
    ⟨p, by simp [hordered.split], hordered.polling⟩
  have hcondition : (z.tripPoints.length = 2 ∧ ∃ t ∈ z.tripPoints.head?, t.isTargetValid.isSome) ↔
      singleTarget z.tripPoints = true := single_target_iff.symm
  unfold TripOp.KeepsOrder at hok
  simp only [hcondition] at hok
  obtain ⟨hloop, hrun⟩ | ⟨t, u, k, target, htrips, htarget, -, hrun⟩ := z.psvt_consolidate_cases w
  · rw [hloop, if_neg Bool.false_ne_true] at hok
    rw [hrun]
    exact settled_consolidate_trips ⟨hsensors, others, p, hordered⟩ w hok
  · have hmem : t ∈ others := by
      have hsplit := hordered.split
      rw [htrips] at hsplit
      cases others with
      | nil => exact absurd rfl hordered.some
      | cons t' rest =>
          have hhead : t = t' := (List.cons.inj hsplit).1
          exact hhead ▸ List.mem_cons_self
    have hsingle : singleTarget z.tripPoints = true := by
      rw [htrips, singleTarget, htarget]
      rfl
    have hsum : t.temp + 1000 < 2 ^ 32 := by
      rw [if_pos hsingle, htrips] at hok
      exact hok t rfl
    rw [hrun]
    refine settled_add_trip hsensors hordered.ready ?_ (fun _ => ?_) hpolling w
    · show InDomain ((t.temp + 1000) % 2 ^ 32)
      rw [Nat.mod_eq_of_lt hsum]
      exact ⟨le_trans (hordered.domain t hmem).1 (Nat.le_add_right _ _), hsum⟩
    · show TripPointType.passive ≠ .polling
      exact TripPointType.noConfusion

/-- One step: an operation that meets its condition keeps a zone settled. -/
theorem settled_apply {s : Sensor} {x : Zone × World δ} {op : TripOp} (h : Settled s x.1)
    (hop : op.KeepsOrder x.1.tripPoints) : Settled s (op.apply x).1 := by
  obtain ⟨hsensors, others, p, hordered⟩ := h
  have hpolling : ∃ t ∈ x.1.tripPoints, t.type = .polling :=
    ⟨p, by simp [hordered.split], hordered.polling⟩
  have hsettled : Settled s x.1 := ⟨hsensors, others, p, hordered⟩
  cases op with
  | addTrip trip force =>
      exact settled_add_trip hsensors hordered.ready hop.1 hop.2 hpolling x.2
  | updateTripTemp trip => exact settled_update_trip_temp hsensors hordered.ready hop x.2
  | updateHighestTripTemp trip => exact settled_update_highest hsensors hordered.ready trip hop x.2
  | setTrip temp =>
      show Settled s (x.1.setPassiveTemp temp)
      unfold Zone.setPassiveTemp
      split
      · exact hsettled
      · rename_i i hfound
        obtain ⟨hdomain, hfits⟩ := hop i hfound
        refine settled_modify hsettled ?_ hfound hdomain hfits
        intro t ht
        rw [of_decide_eq_true ht]
        decide
  | psvtConsolidate => exact settled_psvt_consolidate hsettled x.2 hop
  | updateSetPoint critical =>
      show Settled s (x.1.updateSetPoint critical)
      unfold Zone.updateSetPoint
      split
      · exact hsettled
      · rename_i i hfound
        split
        · exact hsettled
        · rename_i t ht
          split
          · rename_i hlow
            obtain ⟨hdomain, hfits⟩ := hop i t hfound ht hlow.1 hlow.2
            refine settled_modify hsettled ?_ hfound hdomain hfits
            intro t ht
            simp only [Bool.and_eq_true, decide_eq_true_eq] at ht
            rw [ht.1]
            decide
          · exact hsettled

/-- The end of `zone_update` settles a zone. -/
theorem settled_finish_update {z : Zone} {s : Sensor} (hsensors : z.sensors = [s])
    (h : Ready z.tripPoints) {usrPsvTemp : Int}
    (husr : 0 < usrPsvTemp → InDomain usrPsvTemp.toNat) (w : World δ) :
    Settled s (z.finishUpdate usrPsvTemp w).1 := by
  unfold Zone.finishUpdate
  by_cases hpos : 0 < usrPsvTemp
  · rw [if_pos hpos]
    obtain ⟨hsensors', others, p, hordered⟩ := settled_update_highest hsensors h
      (.init 0 .passive usrPsvTemp.toNat 0 z.index defaultSensorId .parallel) (husr hpos) w
    exact settled_sort hsensors' hordered.ready _
  · rw [if_neg hpos]
    exact settled_sort hsensors h w

/-- After `zone_update` of a zone with one sensor and trips at 5 degrees or more, and after any
operations that meet their conditions, there is one polling trip, it is below all other trips, and
these are in ascending order. -/
theorem trips_in_order {z : Zone} {s : Sensor} (hsensors : z.sensors = [s])
    (hsome : z.tripPoints ≠ []) (hordinary : ∀ t ∈ z.tripPoints, t.type ≠ .polling)
    (hdomain : ∀ t ∈ z.tripPoints, InDomain t.temp) {usrPsvTemp : Int}
    (husr : 0 < usrPsvTemp → InDomain usrPsvTemp.toNat) (w : World δ) {ops : List TripOp}
    (hops : Meets TripOp.apply (fun x op => op.KeepsOrder x.1.tripPoints)
      (z.finishUpdate usrPsvTemp w) ops) :
    ∀ pre, pre <+: ops →
      InOrder (run TripOp.apply (z.finishUpdate usrPsvTemp w) pre).1.tripPoints s.index := by
  have hready : Ready z.tripPoints := by
    refine ⟨?_, fun t ht _ => hdomain t ht, ?_⟩
    · rw [List.count_eq_zero.mpr]
      · exact Nat.zero_le 1
      · intro hmem
        obtain ⟨t, ht, htype⟩ := List.mem_map.mp hmem
        exact hordinary t ht htype
    · obtain ⟨t, ht⟩ := List.exists_mem_of_ne_nil _ hsome
      exact ⟨t, ht, hordinary t ht⟩
  intro pre hpre
  have hsettled : Settled s (run TripOp.apply (z.finishUpdate usrPsvTemp w) pre).1 :=
    run_invariant (I := fun x => Settled s x.1) (settled_finish_update hsensors hready husr w)
      (fun x op _ hx hop => settled_apply hx hop) (hops.of_prefix hpre)
  obtain ⟨-, others, p, hordered⟩ := hsettled
  exact hordered.in_order

end Runs

/-- A zone with one sensor, a passive and a critical trip, as `read_trip_points` leaves it. -/
def orderedZone : Zone :=
  { Zone.init 0 "TCPU" .independent with
    sensors := [⟨0, .raw, "TCPU", false, false⟩]
    tripPoints :=
      [.init 0 .critical 95000 0 0 0 .parallel, .init 1 .passive 50000 0 0 0 .parallel] }

/-- A world without devices. -/
def orderedWorld : World Unit where
  cdevs := fun k => Cdev.init k ()
  cdevCount := 0
  sensors := [⟨0, .raw, "TCPU", false, false⟩]
  pollIntervalSec := 0
  ignoreCritical := false
  clock := fun n => n
  ticks := 0
  events := []

/-- A set point between the polling trip and the critical trip, and then another trip. -/
theorem ordered_zone_in_order :
    letI := StdSort.insertion
    InOrder (run TripOp.apply (orderedZone.finishUpdate 0 orderedWorld)
      [.setTrip 60000, .addTrip (.init 0 .passive 55000 0 0 0 .parallel) true]).1.tripPoints 0 := by
  let _ := StdSort.insertion
  have htrips : (orderedZone.finishUpdate 0 orderedWorld).1.tripPoints =
      [.init 1 .passive 50000 0 0 0 .parallel, .init 0 .critical 95000 0 0 0 .parallel,
        .init 2 .polling 45000 0 0 0 .parallel] := by
    rfl
  have hfits : Fits [.init 1 .passive 50000 0 0 0 .parallel,
      .init 0 .critical 95000 0 0 0 .parallel, .init 2 .polling 45000 0 0 0 .parallel] 0 60000 := by
    refine ⟨by decide, fun j t hj => absurd hj (by omega), ?_⟩
    intro j t hj hget htype
    match j with
    | 1 => cases hget; decide
    | 2 => cases hget; exact absurd rfl htype
  refine trips_in_order (z := orderedZone) (s := ⟨0, .raw, "TCPU", false, false⟩) rfl (by decide)
    (by decide) (by unfold InDomain; decide) (fun h => absurd h (by decide)) orderedWorld
    (show Meets _ _ _ [_, _] from ⟨?_, ?_, trivial⟩) _ (List.prefix_refl _)
  · intro i hi
    rw [htrips] at hi ⊢
    have hzero : i = 0 := (Option.some.inj hi).symm
    rw [hzero]
    exact ⟨⟨by decide, by decide⟩, hfits⟩
  · exact ⟨⟨by decide, by decide⟩, fun _ => by decide⟩

/-- A set point below the polling trip: the polling trip is not moved. -/
theorem set_trip_below_polling :
    letI := StdSort.insertion
    ¬ InOrder (run TripOp.apply (orderedZone.finishUpdate 0 orderedWorld)
      [.setTrip 40000]).1.tripPoints 0 := by
  let _ := StdSort.insertion
  have htrips : (run TripOp.apply (orderedZone.finishUpdate 0 orderedWorld)
      [.setTrip 40000]).1.tripPoints =
      [.init 1 .passive 40000 0 0 0 .parallel, .init 0 .critical 95000 0 0 0 .parallel,
        .init 2 .polling 45000 0 0 0 .parallel] := by
    rfl
  intro h
  rw [htrips] at h
  obtain ⟨p, hp, hbelow, -⟩ := h
  have hpolling : p = .init 2 .polling 45000 0 0 0 .parallel := by
    have hfilter : [p] = [.init 2 .polling 45000 0 0 0 .parallel] := hp.symm
    exact (List.cons.inj hfilter).1
  have hlt := hbelow (.init 1 .passive 40000 0 0 0 .parallel) (by simp) (by decide)
  rw [hpolling] at hlt
  exact absurd hlt (by decide)

end Thermald
