import Thermald.Cooling.Polls
import Thermald.Cooling.Reset
import Thermald.Cooling.Rounds

/-!
# Polls settle a shared device

Passive trips of any number of zones bind one common device, each with a target of its own.
`polls_converge` says that once the readings stay the same, the device settles at the largest
target of the trips that are reached, whatever has happened before.

Each poll is a round of visits to the device in the sense of `Rota`; a poll that drops below a
polling trip also resets the zone, but only before the readings stay the same.
-/

namespace Thermald

/-- The zone and trip under which the limits of a trip are recorded. -/
def TripPoint.user (t : TripPoint) : Int × Int :=
  (t.zoneId, t.index)

/-- The target that a trip has for device `k`. -/
def TripPoint.targetFor (t : TripPoint) (k : Nat) : Int :=
  ((t.cdevs.find? fun b => b.cdev = k).map fun b => b.targetState).getD 0

/-- A parallel passive trip of the sensor that binds device `k` once, with a target above its
minimum and nothing else that would delay or limit it. -/
structure TripPoint.Throttles {δ : Type} (t : TripPoint) (s : Sensor) (k : Nat) (d : Device δ) :
    Prop where
  passive : t.type = .passive
  parallel : t.controlType = .parallel
  noHyst : t.hyst = 0
  noDepend : t.depend = none
  sensor : t.otherSensor s.index = false
  noSampling : ∀ b ∈ t.cdevs, b.samplingPriod = 0
  once : ∃ b, (t.cdevs.filter fun b => b.cdev = k) = [b]
  target : ∀ b ∈ t.cdevs, b.cdev = k → b.targetStateValid = true ∧ b.minMaxValid = false ∧
    b.targetState ≠ tripPtInvalidTargetState ∧
    d.minState < b.targetState ∧ b.targetState ≤ d.maxState

namespace Zone

/-- What a zone with one sensor reads. -/
def reading (z : Zone) (read : Int → Int → Nat) : Nat :=
  (z.sensors.head?.map fun s => read z.index s.index).getD 0

/-- An active zone with one sensor whose passive trips throttle device `k` and whose other trips
leave it alone. -/
structure Controls {δ : Type} (z : Zone) (k : Nat) (d : Device δ) : Prop where
  active : z.zoneActive = true
  trips : ∃ s, z.sensors = [s] ∧ ∀ t ∈ z.tripPoints,
    t.Throttles s k d ∨ (t.type ≠ .passive ∧ ¬ t.Binds k)

/-- The readings of a zone that stays as it is: none is below a polling trip, and correlated
sensors do not read 0, which they take for a missing reading. -/
structure Steadily (z : Zone) (read : Int → Int → Nat) : Prop where
  polling : ∀ t ∈ z.tripPoints, t.type = .polling → t.temp ≤ z.reading read
  nonzero : z.sensorRel = .corelated → z.reading read ≠ 0

/-- The passive trips of the zone. -/
def passiveTrips (z : Zone) : List TripPoint :=
  z.tripPoints.filter fun t => t.type = .passive

end Zone

/-- The passive trips of the zones, each with the reading of its zone. -/
def readTrips (zones : List Zone) (read : Int → Int → Nat) : List (TripPoint × Nat) :=
  zones.flatMap fun z => z.passiveTrips.map fun t => (t, z.reading read)

/-- The largest target for device `k` among the trips that the readings reach, or the given
minimum if there is none. -/
def demand (zones : List Zone) (read : Int → Int → Nat) (k : Nat) (minState : Int) : Int :=
  (((readTrips zones read).filter fun p => p.1.temp ≤ p.2).map fun p =>
    p.1.targetFor k).foldr max minState

/-! ## Configurations stay -/

/-- The bindings for a device stay bindings for it. -/
theorem TripPoint.Same.filter_cdevs {t t' : TripPoint} (h : t.Same t') (k : Nat) :
    List.Forall₂ TripCdev.Same (t.cdevs.filter fun b => b.cdev = k)
      (t'.cdevs.filter fun b => b.cdev = k) := by
  have hlist : ∀ {l l' : List TripCdev}, List.Forall₂ TripCdev.Same l l' →
      List.Forall₂ TripCdev.Same (l.filter fun b => b.cdev = k)
        (l'.filter fun b => b.cdev = k) := by
    intro l l' hl
    induction hl with
    | nil => exact .nil
    | cons hb _ ih =>
        rw [List.filter_cons, List.filter_cons, hb.cdev]
        split
        · exact .cons hb ih
        · exact ih
  exact hlist h.cdevs

/-- A trip goes on throttling the device, with the same target. -/
theorem TripPoint.Throttles.of_same {δ : Type} {t t' : TripPoint} {s : Sensor} {k : Nat}
    {d : Device δ} (h : t.Throttles s k d) (hsame : t.Same t') :
    t'.Throttles s k d ∧ t'.targetFor k = t.targetFor k := by
  obtain ⟨b, hb⟩ := h.once
  obtain ⟨b', hb', hbb'⟩ : ∃ b', (t'.cdevs.filter fun b => b.cdev = k) = [b'] ∧ b.Same b' := by
    have hfilter := hsame.filter_cdevs k
    rw [hb] at hfilter
    obtain ⟨b', l, hbb', hl, heq⟩ := List.forall₂_cons_left_iff.mp hfilter
    rw [List.forall₂_nil_left_iff.mp hl] at heq
    exact ⟨b', heq, hbb'⟩
  have hmem : b ∈ t.cdevs ∧ b.cdev = k := by
    have hin : b ∈ t.cdevs.filter fun b => b.cdev = k := by simp [hb]
    exact ⟨List.mem_of_mem_filter hin, of_decide_eq_true (List.mem_filter.mp hin).2⟩
  have htarget := h.target b hmem.1 hmem.2
  have hkept := hbb'.targetState htarget.2.2.1
  refine ⟨⟨hsame.type.trans h.passive, hsame.controlType.trans h.parallel,
    hsame.hyst.trans h.noHyst, hsame.depend.trans h.noDepend, ?_, ?_, ⟨b', hb'⟩, ?_⟩, ?_⟩
  · unfold TripPoint.otherSensor
    rw [hsame.sensorId]
    exact h.sensor
  · intro c' hc'
    obtain ⟨c, hc, hcc'⟩ := forall₂_mem_right hsame.cdevs hc'
    exact hcc'.samplingPriod.trans (h.noSampling c hc)
  · intro c' hc' hk
    have hin : c' ∈ t'.cdevs.filter fun b => b.cdev = k :=
      List.mem_filter.mpr ⟨hc', decide_eq_true hk⟩
    rw [hb', List.mem_singleton] at hin
    rw [hin, hbb'.targetStateValid, hbb'.minMaxValid, hkept]
    exact htarget
  · unfold TripPoint.targetFor
    rw [← List.head?_filter, ← List.head?_filter, hb, hb']
    exact congrArg some hkept |> congrArg (Option.getD · 0)

/-- Related lists have equal images under a function that respects the relation. -/
theorem map_eq_of_forall₂ {α β : Type} {R : α → α → Prop} {f : α → β} {l l' : List α}
    (h : List.Forall₂ R l l') (hf : ∀ a a', R a a' → f a' = f a) : l'.map f = l.map f := by
  induction h with
  | nil => rfl
  | cons hab _ ih => rw [List.map_cons, List.map_cons, hf _ _ hab, ih]

namespace Zone

variable {δ : Type} {z z' : Zone} {k : Nat} {d : Device δ} {read : Int → Int → Nat}

theorem Same.reading (h : z.Same z') : z'.reading read = z.reading read := by
  unfold Zone.reading
  rw [h.sensors, h.index]

/-- The passive trips stay the passive trips. -/
theorem Same.passive_trips (h : z.Same z') :
    List.Forall₂ TripPoint.Same z.passiveTrips z'.passiveTrips := by
  have hlist : ∀ {l l' : List TripPoint}, List.Forall₂ TripPoint.Same l l' →
      List.Forall₂ TripPoint.Same (l.filter fun t => t.type = .passive)
        (l'.filter fun t => t.type = .passive) := by
    intro l l' hl
    induction hl with
    | nil => exact .nil
    | cons ht _ ih =>
        rw [List.filter_cons, List.filter_cons, ht.type]
        split
        · exact .cons ht ih
        · exact ih
  exact hlist h.tripPoints

theorem Controls.of_same (h : z.Controls k d) (hsame : z.Same z') : z'.Controls k d := by
  obtain ⟨s, hs, htrips⟩ := h.trips
  refine ⟨hsame.zoneActive.trans h.active, s, hsame.sensors.trans hs, fun t' ht' => ?_⟩
  obtain ⟨t, ht, htt'⟩ := forall₂_mem_right hsame.tripPoints ht'
  rcases htrips t ht with hthrottles | ⟨hpassive, hbinds⟩
  · exact .inl (hthrottles.of_same htt').1
  · refine .inr ⟨htt'.type ▸ hpassive, fun ⟨b', hb', hk⟩ => hbinds ?_⟩
    obtain ⟨b, hb, hbb'⟩ := forall₂_mem_right htt'.cdevs hb'
    exact ⟨b, hb, hbb'.cdev ▸ hk⟩

theorem Steadily.of_same (h : z.Steadily read) (hsame : z.Same z') : z'.Steadily read := by
  refine ⟨fun t' ht' hpoll => ?_, fun hrel => ?_⟩
  · obtain ⟨t, ht, htt'⟩ := forall₂_mem_right hsame.tripPoints ht'
    rw [htt'.temp, hsame.reading]
    exact h.polling t ht (htt'.type ▸ hpoll)
  · rw [hsame.reading]
    exact h.nonzero (hsame.sensorRel ▸ hrel)

end Zone

/-- The trips and their readings stay the same. -/
theorem read_trips_same {zones zones' : List Zone} {read : Int → Int → Nat}
    (h : List.Forall₂ Zone.Same zones zones') :
    List.Forall₂ (fun p p' => p.1.Same p'.1 ∧ p'.2 = p.2) (readTrips zones read)
      (readTrips zones' read) := by
  unfold readTrips
  induction h with
  | nil => exact .nil
  | cons hz _ ih =>
      rw [List.flatMap_cons, List.flatMap_cons]
      refine List.rel_append ?_ ih
      rw [List.forall₂_map_left_iff, List.forall₂_map_right_iff]
      exact hz.passive_trips.imp fun t t' htt' => ⟨htt', hz.reading⟩

/-- The target of a trip is that of its only binding. -/
theorem TripPoint.Throttles.target_eq {δ : Type} {t : TripPoint} {s : Sensor} {k : Nat}
    {d : Device δ} (h : t.Throttles s k d) {b : TripCdev} (hb : b ∈ t.cdevs) (hk : b.cdev = k) :
    t.targetFor k = b.targetState := by
  obtain ⟨b', hb'⟩ := h.once
  have hin : b ∈ t.cdevs.filter fun b => b.cdev = k :=
    List.mem_filter.mpr ⟨hb, decide_eq_true hk⟩
  rw [hb', List.mem_singleton] at hin
  unfold TripPoint.targetFor
  rw [← List.head?_filter, hb', hin]
  rfl

/-- The target of a trip that throttles the device lies in its range. -/
theorem TripPoint.Throttles.target_for {δ : Type} {t : TripPoint} {s : Sensor} {k : Nat}
    {d : Device δ}
    (h : t.Throttles s k d) : d.minState < t.targetFor k ∧ t.targetFor k ≤ d.maxState := by
  obtain ⟨b, hb⟩ := h.once
  have hin : b ∈ t.cdevs.filter fun b => b.cdev = k := by simp [hb]
  have hmem := List.mem_of_mem_filter hin
  have hk : b.cdev = k := of_decide_eq_true (List.mem_filter.mp hin).2
  rw [h.target_eq hmem hk]
  exact (h.target b hmem hk).2.2.2

/-! ## The rota of a device -/

namespace Engine

variable {δ : Type} {e : Engine δ} {k : Nat} {read : Int → Int → Nat}

/-- The target recorded for a trip. -/
def targetOf (zones : List Zone) (k : Nat) (user : Int × Int) : Int :=
  (((zones.flatMap Zone.passiveTrips).find? fun t => t.user = user).map fun t =>
    t.targetFor k).getD 0

/-- Trips with distinct users are found by them. -/
theorem target_of_user {zones : List Zone}
    (hdistinct : ((zones.flatMap Zone.passiveTrips).map TripPoint.user).Nodup) {t : TripPoint}
    (ht : t ∈ zones.flatMap Zone.passiveTrips) : targetOf zones k t.user = t.targetFor k := by
  unfold targetOf
  obtain ⟨t', ht'⟩ : ∃ t', (zones.flatMap Zone.passiveTrips).find?
      (fun t' => t'.user = t.user) = some t' :=
    Option.isSome_iff_exists.mp (List.find?_isSome.mpr ⟨t, ht, by simp⟩)
  have huser : t'.user = t.user := by simpa using List.find?_some ht'
  rw [ht', List.inj_on_of_nodup_map hdistinct (List.mem_of_find?_eq_some ht') ht huser]
  rfl

/-- The trips alone. -/
theorem read_trips_fst (zones : List Zone) (read : Int → Int → Nat) :
    (readTrips zones read).map Prod.fst = zones.flatMap Zone.passiveTrips := by
  simp [readTrips, List.map_flatMap, Function.comp_def]

/-- A passive trip of a zone throttles the device. -/
theorem throttles_of_mem {d : Device δ} {zones : List Zone}
    (hzones : ∀ z ∈ zones, z.Controls k d) {t : TripPoint}
    (ht : t ∈ zones.flatMap Zone.passiveTrips) : ∃ s, t.Throttles s k d := by
  obtain ⟨z, hz, ht⟩ := List.mem_flatMap.mp ht
  obtain ⟨ht, hpassive⟩ := List.mem_filter.mp ht
  obtain ⟨s, -, htrips⟩ := (hzones z hz).trips
  exact ⟨s, (htrips t ht).resolve_right fun h => h.1 (of_decide_eq_true hpassive)⟩

/-- The rota of device `k`: in every poll the passive trips visit it in the order of the zones and
of the trips in them. -/
def rota (zones : List Zone) (read : Int → Int → Nat) (k : Nat) (d : Cdev δ)
    (hzones : ∀ z ∈ zones, z.Controls k d.toDevice)
    (hdistinct : ((zones.flatMap Zone.passiveTrips).map TripPoint.user).Nodup) : Rota where
  visits := (readTrips zones read).map fun p => ⟨p.1.user, p.1.temp ≤ p.2⟩
  target := targetOf zones k
  lo := d.minState
  hi := d.maxState
  debounce := d.debounceInterval
  nodup := by
    rw [List.map_map, ← read_trips_fst zones read, List.map_map] at *
    exact hdistinct
  above := by
    intro v hv
    obtain ⟨p, hp, rfl⟩ := List.mem_map.mp hv
    have hmem : p.1 ∈ zones.flatMap Zone.passiveTrips :=
      read_trips_fst zones read ▸ List.mem_map_of_mem hp
    obtain ⟨s, hs⟩ := throttles_of_mem hzones hmem
    rw [target_of_user hdistinct hmem]
    exact hs.target_for

end Engine

/-- A device as it is before the first poll. -/
structure Cdev.Resting {δ : Type} [CdevClass δ] (d : Cdev δ) : Prop where
  up : d.minState < d.maxState
  limits : d.zoneTripLimits = []
  curr : d.getCurrState = d.minState
  lastState : d.lastState = false

/-! ## A poll is a round -/

section Round

variable {δ : Type} [CdevClass δ] [StdSort] {k : Nat} {d d' : Cdev δ} {clock : Nat → Int}
  {target : Int × Int → Int}

/-- Activating the device on behalf of a trip that throttles it passes the target of the trip. -/
theorem TripPoint.Throttles.on_act [CdevClass.PlainTarget δ] {t : TripPoint} {s : Sensor}
    {dev : Device δ} (h : t.Throttles s k dev) (htarget : target t.user = t.targetFor k)
    {b₀ b : TripCdev} (hb₀ : b₀ ∈ t.cdevs) (hk : b₀.cdev = k) (hsame : b₀.Same b) {temp : Nat}
    (hact : (Op.on t b temp).Act clock d d') :
    Cdev.VisitAct target clock ⟨t.user, true⟩ d d' := by
  obtain ⟨hvalid, hrange, hgiven, -⟩ := h.target b₀ hb₀ hk
  have hvalue : b.targetState = target t.user := by
    rw [htarget, h.target_eq hb₀ hk]
    exact hsame.targetState hgiven
  have hfix : b.fixTarget d.toDevice = b := by
    rw [TripCdev.fixTarget, if_neg (hsame.targetState hgiven ▸ hgiven)]
  unfold Cdev.VisitAct
  simp only [if_true]
  rcases hact with hskip | ⟨hmax, pid, n, heq⟩
  · exact .inl hskip
  · rw [hfix] at heq
    refine .inr ⟨hmax, _, pid, n, rfl, rfl, ⟨?_, ?_, ?_⟩, heq⟩
    · exact hsame.targetStateValid.trans hvalid
    · show d.mapTargetState _ _ = target t.user
      rw [Cdev.map_target_state_plain, hvalue]
    · exact hsame.minMaxValid.trans hrange

/-- So does releasing it. -/
theorem TripPoint.Throttles.off_act {t : TripPoint} {s : Sensor} {dev : Device δ}
    (h : t.Throttles s k dev) {b₀ b : TripCdev} (hb₀ : b₀ ∈ t.cdevs) (hk : b₀.cdev = k)
    (hsame : b₀.Same b) {temp : Nat} (hact : (Op.off t b temp).Act clock d d') :
    Cdev.VisitAct target clock ⟨t.user, false⟩ d d' := by
  obtain ⟨hvalid, -, hgiven, -⟩ := h.target b₀ hb₀ hk
  have hfix : b.fixTarget d.toDevice = b := by
    rw [TripCdev.fixTarget, if_neg (hsame.targetState hgiven ▸ hgiven)]
  unfold Cdev.VisitAct
  simp only [Bool.false_eq_true, if_false]
  rcases hact with hskip | ⟨hmin, pid, n, heq⟩
  · exact .inl hskip
  · rw [hfix] at heq
    exact .inr ⟨hmin, _, pid, n, rfl, rfl, hsame.targetStateValid.trans hvalid, heq⟩

/-- A trip that throttles the device visits it once with its target. -/
theorem TripPoint.Throttles.visit [CdevClass.PlainTarget δ] {t : TripPoint} {s : Sensor}
    {temp : Nat}
    {dev : Device δ} (h : t.Throttles s k dev) (htarget : target t.user = t.targetFor k)
    (hsteps : Steps (Op.Act clock) (t.ops temp k) d d') :
    Cdev.VisitAct target clock ⟨t.user, t.temp ≤ temp⟩ d d' := by
  obtain ⟨b, hb⟩ := h.once
  have hin : b ∈ t.cdevs.filter fun b => b.cdev = k := by simp [hb]
  have hmem := List.mem_of_mem_filter hin
  have hk : b.cdev = k := of_decide_eq_true (List.mem_filter.mp hin).2
  by_cases hon : t.temp ≤ temp
  · have hops : t.ops temp k = [.on t b temp] := by
      unfold TripPoint.ops TripPoint.decision
      rw [if_pos hon]
      simp [TripPoint.opsOn, hb]
    rw [hops, Steps.cons_iff] at hsteps
    obtain ⟨d₁, hact, hrest⟩ := hsteps
    obtain rfl := Steps.nil_iff.mp hrest
    rw [decide_eq_true hon]
    exact h.on_act htarget hmem hk (.refl b) hact
  · have hops : t.ops temp k = [.off t b temp] := by
      have hlow : (temp + t.hyst) % 2 ^ 32 < t.temp := by
        rw [h.noHyst, Nat.add_zero]
        exact (Nat.mod_le _ _).trans_lt (not_le.mp hon)
      have hdec : t.decision temp = .off := by
        unfold TripPoint.decision
        rw [if_neg hon, if_pos]
        cases t.tripOn with
        | false => simpa using not_le.mp hon
        | true =>
            simp only [Bool.true_and, Bool.not_true, Bool.false_and, Bool.or_false,
              decide_eq_true_eq]
            exact hlow
      unfold TripPoint.ops
      rw [hdec]
      simp [TripPoint.opsOff, List.filter_reverse, hb]
    rw [hops, Steps.cons_iff] at hsteps
    obtain ⟨d₁, hact, hrest⟩ := hsteps
    obtain rfl := Steps.nil_iff.mp hrest
    rw [decide_eq_false hon]
    exact h.off_act hmem hk (.refl b) hact

/-- The operations of a list of trips are the visits of the passive ones. -/
theorem visits_of_trips [CdevClass.PlainTarget δ] {s : Sensor} {temp : Nat} {dev : Device δ}
    {trips : List TripPoint}
    (htrips : ∀ t ∈ trips, t.Throttles s k dev ∨ (t.type ≠ .passive ∧ ¬ t.Binds k))
    (htarget : ∀ t ∈ trips, t.type = .passive → target t.user = t.targetFor k)
    (hsteps : Steps (Op.Act clock) (trips.flatMap (Zone.tripOps temp k)) d d') :
    Steps (Cdev.VisitAct target clock) ((trips.filter fun t => t.type = .passive).map fun t =>
      ⟨t.user, t.temp ≤ temp⟩) d d' := by
  induction trips generalizing d with
  | nil => exact Steps.nil_iff.mpr (Steps.nil_iff.mp hsteps)
  | cons t rest ih =>
      rw [List.flatMap_cons, Steps.append_iff] at hsteps
      obtain ⟨d₁, hfirst, hrest⟩ := hsteps
      have hrest' := ih (fun t ht => htrips t (List.mem_cons_of_mem _ ht))
        (fun t ht => htarget t (List.mem_cons_of_mem _ ht)) hrest
      unfold Zone.tripOps at hfirst
      rcases htrips t List.mem_cons_self with hthrottles | ⟨hpassive, hbinds⟩
      · rw [if_neg (by simp [hthrottles.passive])] at hfirst
        rw [List.filter_cons, if_pos (by simp [hthrottles.passive]), List.map_cons]
        exact .cons (hthrottles.visit (htarget t List.mem_cons_self hthrottles.passive) hfirst)
          hrest'
      · have hsame : d₁ = d := by
          split at hfirst
          · exact Steps.nil_iff.mp hfirst
          · rw [Zone.ops_of_not_binds temp hbinds] at hfirst
            exact Steps.nil_iff.mp hfirst
        rw [List.filter_cons, if_neg (by simp [hpassive]), ← hsame]
        exact hrest'

/-- A steady notification of a zone is its trips' operations, in their order. -/
theorem Zone.read_zone_temp_steady {z : Zone} {dev : Device δ} {read : Int → Int → Nat}
    (hz : z.Controls k dev) (hread : z.Steadily read) (w : World δ) :
    w.Acts k (z.tripPoints.flatMap (Zone.tripOps (z.reading read) k))
      (z.readZoneTemp (read z.index) .energyConserve w).2 := by
  obtain ⟨s, hs, htrips⟩ := hz.trips
  have hreading : z.reading read = read z.index s.index := by
    unfold Zone.reading
    rw [hs]
    rfl
  have hsteady : ∀ t ∈ z.tripPoints,
      Zone.Steady s.index (z.reading read) .energyConserve k t := by
    intro t ht
    rcases htrips t ht with h | ⟨hpassive, hbinds⟩
    · refine .inr ⟨by simp [h.passive], .inl ⟨⟨?_, h.sensor, h.noDepend⟩, h.parallel,
        h.noSampling⟩⟩
      rw [h.passive]
      rfl
    · by_cases hpoll : t.type = .polling
      · exact .inl ⟨hpoll, hread.polling t ht hpoll⟩
      · exact .inr ⟨hpoll, .inr hbinds⟩
  obtain ⟨zoneTemp, heq⟩ := Zone.read_zone_temp_single hz.active hs (read z.index)
    (fun hrel => hreading ▸ hread.nonzero hrel) .energyConserve w
  rw [heq, ← hreading]
  exact Zone.temp_change_steady (z := { z with zoneTemp }) hsteady w

namespace Engine

variable {e e₀ : Engine δ} {read : Int → Int → Nat}

/-- Exact operations of the zones add up. -/
theorem for_zones_acts {f : Zone → World δ → Zone × World δ} {ops : Zone → List Op}
    {zones : List Zone} (hf : ∀ z ∈ zones, ∀ w : World δ, w.Acts k (ops z) (f z w).2)
    (w : World δ) : w.Acts k (zones.flatMap ops) (forZones f zones w).2 := by
  induction zones generalizing w with
  | nil => exact .refl k w
  | cons z rest ih =>
      exact (hf z List.mem_cons_self w).trans
        (ih (fun z hz => hf z (List.mem_cons_of_mem _ hz)) (f z w).2)

/-- The trips of the zones visit the device in their order. -/
theorem visits_of_zones [CdevClass.PlainTarget δ] {dev : Device δ} {zones : List Zone}
    (hzones : ∀ z ∈ zones, z.Controls k dev)
    (htarget : ∀ t ∈ zones.flatMap Zone.passiveTrips, target t.user = t.targetFor k)
    (hsteps : Steps (Op.Act clock)
      (zones.flatMap fun z => z.tripPoints.flatMap (Zone.tripOps (z.reading read) k)) d d') :
    Steps (Cdev.VisitAct target clock)
      ((readTrips zones read).map fun p => ⟨p.1.user, p.1.temp ≤ p.2⟩) d d' := by
  induction zones generalizing d with
  | nil => exact Steps.nil_iff.mpr (Steps.nil_iff.mp hsteps)
  | cons z rest ih =>
      rw [List.flatMap_cons, Steps.append_iff] at hsteps
      obtain ⟨d₁, hfirst, hrest⟩ := hsteps
      obtain ⟨s, -, htrips⟩ := (hzones z List.mem_cons_self).trips
      have hrest' := ih (fun z hz => hzones z (List.mem_cons_of_mem _ hz))
        (fun t ht => htarget t (by rw [List.flatMap_cons]; exact List.mem_append_right _ ht)) hrest
      have hfirst' := visits_of_trips htrips (fun t ht hpassive => htarget t (by
        rw [List.flatMap_cons]
        exact List.mem_append_left _ (List.mem_filter.mpr ⟨ht, decide_eq_true hpassive⟩))) hfirst
      unfold readTrips at hrest' ⊢
      rw [List.flatMap_cons, List.map_append, List.map_map]
      exact hfirst'.append hrest'

/-- The zones of an engine have the configuration of another one. -/
structure SameZones (e₀ e : Engine δ) : Prop where
  zones : List.Forall₂ Zone.Same e₀.zones e.zones
  preference : e.preference = e₀.preference

theorem SameZones.poll (h : SameZones e₀ e) (p : Poll) : SameZones e₀ (e.poll p) :=
  ⟨forall₂_trans (R := Zone.Same) (fun _ _ _ => .trans) h.zones (e.poll_same p), h.preference⟩

/-- The common assumptions: device `k` is bound by the passive trips of zones with one sensor,
which are told apart by their users, and these trips are evaluated. -/
structure Shares (e : Engine δ) (k : Nat) : Prop where
  pref : e.preference = .energyConserve
  zones : ∀ z ∈ e.zones, z.Controls k (e.world.cdevs k).toDevice
  distinct : ((e.zones.flatMap Zone.passiveTrips).map TripPoint.user).Nodup

/-- The rota of the device under these assumptions. -/
def Shares.rota (h : e₀.Shares k) (read : Int → Int → Nat) : Rota :=
  Engine.rota e₀.zones read k (e₀.world.cdevs k) h.zones h.distinct

omit [CdevClass δ] [StdSort] in
/-- The targets of the trips stay. -/
theorem Shares.target_of_same (h : e₀.Shares k) (hsame : SameZones e₀ e)
    (read : Int → Int → Nat) {t : TripPoint} (ht : t ∈ e.zones.flatMap Zone.passiveTrips) :
    ∃ v ∈ (h.rota read).visits, v.user = t.user ∧ (h.rota read).target t.user = t.targetFor k ∧
      ∃ s, t.Throttles s k (e₀.world.cdevs k).toDevice := by
  rw [← read_trips_fst e.zones read] at ht
  obtain ⟨p', hp', rfl⟩ := List.mem_map.mp ht
  obtain ⟨p, hp, hpp', -⟩ := forall₂_mem_right (read_trips_same hsame.zones) hp'
  have hmem : p.1 ∈ e₀.zones.flatMap Zone.passiveTrips :=
    read_trips_fst e₀.zones read ▸ List.mem_map_of_mem hp
  obtain ⟨s, hs⟩ := throttles_of_mem h.zones hmem
  obtain ⟨hs', htarget⟩ := hs.of_same hpp'
  have huser : p'.1.user = p.1.user := by
    unfold TripPoint.user
    rw [hpp'.zoneId, hpp'.index]
  refine ⟨_, List.mem_map_of_mem hp, huser.symm, ?_, s, hs'⟩
  rw [huser, htarget]
  exact target_of_user h.distinct hmem

/-- A poll with steady readings is a round of visits. -/
theorem Shares.poll_round [CdevClass.PlainTarget δ] (h : e₀.Shares k) (hsame : SameZones e₀ e)
    (hread : ∀ z ∈ e₀.zones, z.Steadily read) {p : Poll} (hp : p.read = read) :
    (h.rota read).Round p.clock (e.world.cdevs k) ((e.poll p).world.cdevs k) := by
  have hzones : ∀ z ∈ e.zones, z.Controls k (e₀.world.cdevs k).toDevice ∧ z.Steadily read := by
    intro z hz
    obtain ⟨z₀, hz₀, hzz₀⟩ := forall₂_mem_right hsame.zones hz
    exact ⟨(h.zones z₀ hz₀).of_same hzz₀, (hread z₀ hz₀).of_same hzz₀⟩
  have hacts : (e.world.withClock p.clock).Acts k _ (e.poll p).world :=
    for_zones_acts (f := fun z w => z.readZoneTemp (p.read z.index) e.preference w)
      (fun z hz w => by
        rw [hp, hsame.preference, h.pref]
        exact Zone.read_zone_temp_steady (hzones z hz).1 (hzones z hz).2 w) _
  have hvisits := visits_of_zones (fun z hz => (hzones z hz).1)
    (fun t ht => (h.target_of_same hsame read ht).choose_spec.2.2.1) hacts.steps
  have heq : (readTrips e.zones read).map (fun p => (⟨p.1.user, p.1.temp ≤ p.2⟩ : Visit)) =
      (h.rota read).visits :=
    map_eq_of_forall₂ (read_trips_same hsame.zones) fun p p' ⟨hpp', htemp⟩ => by
      unfold TripPoint.user
      rw [hpp'.zoneId, hpp'.index, hpp'.temp, htemp]
  rw [heq] at hvisits
  exact hvisits

/-! ## Any poll -/

/-- An operation of a poll keeps the device held by the trips of the rota. -/
theorem Shares.op_holds [CdevClass.Settable δ] [CdevClass.PlainTarget δ] (h : e₀.Shares k)
    (hsame : SameZones e₀ e) (read : Int → Int → Nat) {op : Op} {pref : Pref} {temps : Nat → Prop}
    {z : Zone} (hz : z ∈ e.zones) (hop : op.OfZone pref temps z k) (hact : op.Act clock d d')
    (hd : (h.rota read).Holds d) : (h.rota read).Holds d' := by
  obtain ⟨t₀, ht₀, t, htt₀, hof⟩ := hop
  obtain ⟨z₀, hz₀, hzz₀⟩ := forall₂_mem_right hsame.zones hz
  obtain ⟨s, -, htrips⟩ := ((h.zones z₀ hz₀).of_same hzz₀).trips
  have hbinds : t₀.Binds k := by
    cases op with
    | on t' b temp =>
        obtain ⟨-, -, -, -, hcdev, b₀, hb₀, hbb₀⟩ := hof
        obtain ⟨b₁, hb₁, hbb₁⟩ := forall₂_mem_right htt₀.cdevs hb₀
        exact ⟨b₁, hb₁, by rw [← hbb₁.cdev, ← hbb₀.cdev, hcdev]⟩
    | off t' b temp =>
        obtain ⟨-, -, -, -, hcdev, b₀, hb₀, hbb₀⟩ := hof
        obtain ⟨b₁, hb₁, hbb₁⟩ := forall₂_mem_right htt₀.cdevs hb₀
        exact ⟨b₁, hb₁, by rw [← hbb₁.cdev, ← hbb₀.cdev, hcdev]⟩
    | reset force zoneId tripId =>
        obtain ⟨-, -, b, hb, hk⟩ := hof
        obtain ⟨b₁, hb₁, hbb₁⟩ := forall₂_mem_right htt₀.cdevs hb
        exact ⟨b₁, hb₁, by rw [← hbb₁.cdev, hk]⟩
  have hthrottles := (htrips t₀ ht₀).resolve_right fun hnot => hnot.2 hbinds
  have hmem : t₀ ∈ e.zones.flatMap Zone.passiveTrips :=
    List.mem_flatMap.mpr ⟨z, hz, List.mem_filter.mpr ⟨ht₀, decide_eq_true hthrottles.passive⟩⟩
  obtain ⟨v, hv, huser, htarget, -⟩ := h.target_of_same hsame read hmem
  obtain ⟨hthrottles', hfor⟩ := hthrottles.of_same htt₀
  have huser' : v.user = t.user := by
    rw [huser]
    unfold TripPoint.user
    rw [htt₀.zoneId, htt₀.index]
  have htarget' : (h.rota read).target t.user = t.targetFor k := by
    rw [← huser', huser, htarget, hfor]
  have hknown : ∃ v ∈ (h.rota read).visits, v.user = t.user := ⟨v, hv, huser'⟩
  cases op with
  | on t' b temp =>
      obtain ⟨rfl, -, -, -, hcdev, b₀, hb₀, hbb₀⟩ := hof
      have hvisit := hthrottles'.on_act htarget' hb₀ (hbb₀.cdev ▸ hcdev) hbb₀ hact
      exact (hd.visit_user hknown hvisit).1
  | off t' b temp =>
      obtain ⟨rfl, -, -, -, hcdev, b₀, hb₀, hbb₀⟩ := hof
      have hvisit : Cdev.VisitAct (h.rota read).target clock ⟨t'.user, false⟩ d d' :=
        hthrottles'.off_act hb₀ (hbb₀.cdev ▸ hcdev) hbb₀ hact
      exact (hd.visit_user hknown hvisit).1
  | reset force zoneId tripId =>
      obtain ⟨rfl, rfl, -⟩ := hof
      rcases hact with ⟨-, -, rfl⟩ | ⟨-, n, rfl⟩
      · exact hd
      · exact hd.set_min_state t.zoneId t.index (clock n)

variable [CdevClass.Settable δ] [CdevClass.PlainTarget δ]

/-- A poll keeps the device held by the trips of the rota, and the time of its last action is kept
or one of the poll. -/
theorem Shares.poll_holds (h : e₀.Shares k) (hsame : SameZones e₀ e) (read : Int → Int → Nat)
    (p : Poll) (hd : (h.rota read).Holds (e.world.cdevs k)) :
    (h.rota read).Holds ((e.poll p).world.cdevs k) ∧
      ((((e.poll p).world.cdevs k).lastState = (e.world.cdevs k).lastState ∧
        ((e.poll p).world.cdevs k).lastActionTime = (e.world.cdevs k).lastActionTime) ∨
        ∃ n, ((e.poll p).world.cdevs k).lastActionTime = p.clock n) := by
  obtain ⟨-, ops, hops, hacts⟩ := e.poll_notifies p k
  refine hacts.steps.invariant (I := fun d => (h.rota read).Holds d ∧
    ((d.lastState = (e.world.cdevs k).lastState ∧
      d.lastActionTime = (e.world.cdevs k).lastActionTime) ∨ ∃ n, d.lastActionTime = p.clock n))
    ?_ ⟨hd, .inl ⟨rfl, rfl⟩⟩
  intro op hop d d' hact hinv
  obtain ⟨hholds, hstamp⟩ := hinv
  obtain ⟨z, hz, hof⟩ := hops op hop
  refine ⟨h.op_holds hsame read hz hof hact hholds, ?_⟩
  rcases hact.stamp with ⟨hstate, htime⟩ | hnow
  · rw [hstate, htime]
    exact hstamp
  · exact .inr hnow

/-- After any polls the device is held by the trips of the rota. -/
theorem Shares.history (h : e₀.Shares k) (hrest : (e₀.world.cdevs k).Resting)
    (read : Int → Int → Nat) (polls : List Poll) :
    SameZones e₀ (run poll e₀ polls) ∧
      (h.rota read).Holds ((run poll e₀ polls).world.cdevs k) ∧
      (((run poll e₀ polls).world.cdevs k).lastState = true → ∃ p ∈ polls, ∃ n,
        ((run poll e₀ polls).world.cdevs k).lastActionTime = p.clock n) := by
  refine run_history (I := fun (past : List Poll) e => SameZones e₀ e ∧
    (h.rota read).Holds (e.world.cdevs k) ∧ ((e.world.cdevs k).lastState = true → ∃ p ∈ past, ∃ n,
      (e.world.cdevs k).lastActionTime = p.clock n)) ?_ ?_
  · refine ⟨⟨List.forall₂_same.mpr fun z _ => .refl z, rfl⟩, ⟨⟨⟨?_, ?_, ?_⟩, hrest.up, ?_,
      fun _ => ⟨hrest.curr, hrest.lastState⟩, ?_⟩, ?_, rfl, rfl, rfl⟩, fun hlast => ?_⟩
    all_goals simp_all [hrest.limits, hrest.lastState]
  · intro past e p _ hinv
    obtain ⟨hsame, hholds, hstamp⟩ := hinv
    obtain ⟨hholds', hstamp'⟩ := h.poll_holds hsame read p hholds
    refine ⟨hsame.poll p, hholds', fun hlast => ?_⟩
    rcases hstamp' with ⟨hstate, htime⟩ | ⟨n, htime⟩
    · obtain ⟨p', hp', n, htime'⟩ := hstamp (hstate ▸ hlast)
      exact ⟨p', List.mem_append_left _ hp', n, htime.trans htime'⟩
    · exact ⟨p, by simp, n, htime⟩

omit [CdevClass.Settable δ] in
/-- Polls with steady readings are rounds of visits. -/
theorem Shares.rounds (h : e₀.Shares k) (hread : ∀ z ∈ e₀.zones, z.Steadily read)
    {polls : List Poll} (hpolls : ∀ p ∈ polls, p.read = read) (hsame : SameZones e₀ e) :
    Steps (h.rota read).Round (polls.map Poll.clock) (e.world.cdevs k)
      ((run poll e polls).world.cdevs k) := by
  induction polls generalizing e with
  | nil => exact .nil _
  | cons p rest ih =>
      refine .cons (h.poll_round hsame hread (hpolls p List.mem_cons_self)) ?_
      exact ih (fun p hp => hpolls p (List.mem_cons_of_mem _ hp)) (hsame.poll p)

omit [CdevClass δ] [StdSort] [CdevClass.Settable δ] [CdevClass.PlainTarget δ] in
/-- The goal of the rota is what the trips demand. -/
theorem Shares.goal_eq (h : e₀.Shares k) (read : Int → Int → Nat) :
    (h.rota read).goal = demand e₀.zones read k (e₀.world.cdevs k).minState := by
  unfold Rota.goal demand
  show List.foldr max _ (((List.map _ (readTrips e₀.zones read)).filter _).map _) = _
  rw [List.filter_map, List.map_map]
  congr 1
  refine List.map_congr_left fun p hp => ?_
  refine target_of_user h.distinct ?_
  rw [← read_trips_fst e₀.zones read]
  exact List.mem_map_of_mem (List.mem_of_mem_filter hp)

/-- Once the readings stay the same, the device is at the largest target of the trips that are
reached after at most `2 * n + 2` polls, where `n` is the number of trips, and stays there. -/
theorem polls_converge (e : Engine δ) (k : Nat) (read : Int → Int → Nat)
    (history steady : List Poll) (hshares : e.Shares k) (hrest : (e.world.cdevs k).Resting)
    (hread : ∀ z ∈ e.zones, z.Steadily read) (hsteady : ∀ p ∈ steady, p.read = read)
    (hclock : (history ++ steady).Pairwise fun p p' => ∀ m n, p.clock m ≤ p'.clock n)
    (hspaced : steady.Pairwise fun p p' =>
      ∀ m n, (e.world.cdevs k).debounceInterval < p'.clock n - p.clock m)
    (hlen : 2 * (e.zones.flatMap Zone.passiveTrips).length + 2 ≤ steady.length) :
    ((run poll e (history ++ steady)).world.cdevs k).getCurrState =
      demand e.zones read k (e.world.cdevs k).minState := by
  obtain ⟨hsame, hholds, hstamp⟩ := hshares.history hrest read history
  have hrounds := hshares.rounds hread hsteady hsame
  rw [run_append, ← hshares.goal_eq read]
  refine Rota.rounds_converge hholds hrounds ?_ ?_ ?_
  · have hcount : (hshares.rota read).visits.length =
        (e.zones.flatMap Zone.passiveTrips).length := by
      rw [← read_trips_fst e.zones read, List.length_map]
      exact List.length_map _
    rw [hcount, List.length_map]
    omega
  · intro hlast c hc n
    obtain ⟨p, hp, rfl⟩ := List.mem_map.mp hc
    obtain ⟨p', hp', m, htime⟩ := hstamp hlast
    rw [htime]
    exact (List.pairwise_append.mp hclock).2.2 p' hp' p hp m n
  · exact List.pairwise_map.mpr hspaced

end Engine

end Round

/-! ## Where the device does not settle -/

namespace Engine

/-- Polls ten seconds apart that read the same temperature. -/
def polls (start : Int) (n : Nat) (temp : Nat) : List Poll :=
  (List.range n).map fun i => pollAt (start + 10 * i) fun _ => temp

/-- A zone with a passive trip at a temperature and the polling trip that goes with it. -/
def tripZone (temp : Nat) (sensorRel : SensorRelate) : Zone :=
  { sensorZone 0 "cpu" [{ targetTrip 0 0 .passive 5 with temp },
      .init 1 .polling (Zone.pollTemp temp) 0 0 0 .parallel] with sensorRel }

/-- Two trips of one zone with the same index. -/
def sameIndexZone : Zone :=
  sensorZone 0 "cpu" [{ targetTrip 0 0 .passive 3 with temp := 40000 }, targetTrip 0 0 .passive 5]

/-- A trip whose bindings also have a range. -/
def rangeTrip (index target minState : Int) : TripPoint :=
  { targetTrip 0 index .passive target with
    cdevs := (targetTrip 0 index .passive target).cdevs.map fun b =>
      { b with minMaxValid := true, minState, maxState := 10 } }

/-- An engine with one zone and the given device. -/
def withDevice {δ : Type} (z : Zone) (d : Cdev δ) : Engine δ where
  zones := [z]
  world :=
    { cdevs := fun _ => d, cdevCount := 1, sensors := [sysfsSensor], pollIntervalSec := 4,
      ignoreCritical := false, clock := fun _ => 0, ticks := 0, events := [] }
  preference := .energyConserve
  status := true
  currentZoneIndex := 1

/-- A backlight with brightness values 0 to 10. -/
def backlight : Cdev Backlight :=
  { Cdev.init 0 ⟨0, 2, 10, true, true⟩ with maxState := 10 }

/-- The passive trip of such a zone throttles the device. -/
theorem trip_zone_shares (temp : Nat) (sensorRel : SensorRelate) :
    (withDevice (tripZone temp sensorRel) Cdev.tenStates).Shares 0 := by
  refine ⟨rfl, ?_, by simp [withDevice, tripZone, sensorZone, Zone.passiveTrips, targetTrip,
    TripPoint.init]⟩
  simp only [withDevice, List.mem_singleton, forall_eq]
  refine ⟨rfl, sysfsSensor, rfl, ?_⟩
  intro t ht
  rcases List.mem_cons.mp ht with rfl | ht
  · refine .inl ⟨rfl, rfl, rfl, rfl, rfl, ?_, ⟨_, rfl⟩, ?_⟩
    · simp [targetTrip]
    · simp [targetTrip, Cdev.tenStates, Cdev.init, tripPtInvalidTargetState, intMax]
  · obtain rfl := List.mem_singleton.mp ht
    exact .inr ⟨by simp [TripPoint.init], by simp [TripPoint.init, TripPoint.Binds]⟩

/-- The device settles at the target of a hot trip. -/
theorem hot_trip_settled :
    letI := StdSort.insertion
    ((run poll (withDevice (tripZone 50000 .independent) Cdev.tenStates)
      (polls 10 1 40000 ++ polls 100 4 60000)).world.cdevs 0).getCurrState = 5 := by
  refine (@polls_converge _ _ StdSort.insertion _ _
    (withDevice (tripZone 50000 .independent) Cdev.tenStates) 0
    (fun _ _ => 60000) (polls 10 1 40000) (polls 100 4 60000) (trip_zone_shares _ _)
    ⟨by decide, rfl, rfl, rfl⟩ ?_ ?_ ?_ ?_ (by decide)).trans (by decide +kernel)
  · simp only [withDevice, List.mem_singleton, forall_eq]
    exact ⟨by decide +kernel, by decide⟩
  · intro p hp
    obtain ⟨i, -, rfl⟩ := List.mem_map.mp hp
    rfl
  · simp [polls, pollAt, List.range_succ]
  · simp [polls, pollAt, List.range_succ, withDevice, Cdev.tenStates, Cdev.init]

/-- Correlated sensors take a reading of 0 for a missing one, so their trips are not released.
Two trips with one index release each other's limits, a target that is the marker for a missing
one is replaced by the minimum, ranges take precedence over targets in the order of the limits,
and a backlight turns its targets around. -/
theorem device_not_settled :
    letI := StdSort.insertion
    (withDevice (tripZone 5000 .corelated) Cdev.tenStates).Shares 0 ∧ Cdev.tenStates.Resting ∧
      (∀ t ∈ (tripZone 5000 .corelated).tripPoints, t.type = .polling →
        t.temp ≤ (tripZone 5000 .corelated).reading fun _ _ => 0) ∧
      ((run poll (withDevice (tripZone 5000 .corelated) Cdev.tenStates)
        (polls 10 1 6000 ++ polls 100 4 0)).world.cdevs 0).getCurrState = 5 ∧
      demand [tripZone 5000 .corelated] (fun _ _ => 0) 0 0 = 0 ∧
      ((run poll (withDevice sameIndexZone Cdev.tenStates)
        (polls 100 6 45000)).world.cdevs 0).getCurrState = 0 ∧
      demand [sameIndexZone] (fun _ _ => 45000) 0 0 = 3 ∧
      ((run poll (withDevice (sensorZone 0 "cpu" [targetTrip 0 0 .passive tripPtInvalidTargetState])
        { Cdev.tenStates with maxState := intMax }) (polls 100 4 60000)).world.cdevs
          0).getCurrState = 0 ∧
      demand [sensorZone 0 "cpu" [targetTrip 0 0 .passive tripPtInvalidTargetState]]
        (fun _ _ => 60000) 0 0 = intMax ∧
      ((run poll (withDevice (sensorZone 0 "cpu" [rangeTrip 0 3 4, rangeTrip 1 5 1])
        Cdev.tenStates) (polls 100 6 60000)).world.cdevs 0).getCurrState ≠
        demand [sensorZone 0 "cpu" [rangeTrip 0 3 4, rangeTrip 1 5 1]] (fun _ _ => 60000) 0 0 ∧
      ((run poll (withDevice (sensorZone 0 "cpu" [targetTrip 0 0 .passive 3]) backlight)
        (polls 100 4 60000)).world.cdevs 0).getCurrState = 7 := by
  refine ⟨trip_zone_shares _ _, ⟨by decide, rfl, rfl, rfl⟩, by decide, by decide +kernel,
    by decide +kernel, by decide +kernel, by decide +kernel, by decide +kernel, by decide +kernel,
    by decide +kernel, by decide +kernel⟩

end Engine

end Thermald
