import Thermald.Polling.Requests

/-!
# Sensors of several zones

The engine polls as long as a bit is set for some sensor. A zone that drops below its polling
temperature clears the bit of the sensor, whether or not another zone is still above its own.
`bit_set_of_needed` shows that this is the only way to lose a request: in a run in which no polling
trip is switched off while another one of the sensor is needed, unless yet another one is switched
on behind it, the bit of a sensor is set in every state in which one of its polling trips was last
evaluated with a reading at or above its temperature.
-/

namespace Thermald

section Runs

variable {δ : Type} [CdevClass δ] [StdSort]

/-! ## Noting the readings -/

/-- The loop of `thermal_zone_temp_change` notes the reading for each polling trip that it
evaluates. -/
def noteTrips (id : Int) (temp : Nat) (pref : Pref) :
    List TripPoint → World δ → List (Option Nat) → List (Option Nat)
  | t :: rest, w, last :: lasts =>
    let c := t.thdTripPointCheck id temp pref w
    let last := if t.evaluatesPolling id temp w then some temp else last
    if c.reset then last :: lasts else last :: noteTrips id temp pref rest c.world lasts
  | _, _, lasts => lasts

/-- One reading of a zone after the other. -/
def noteCalls (pref : Pref) :
    List (Int × Nat) → Zone → World δ → List (Option Nat) → List (Option Nat)
  | [], _, _, lasts => lasts
  | (id, temp) :: rest, z, w, lasts =>
    let (z', w') := z.thermalZoneTempChange id temp pref w
    noteCalls pref rest z' w' (noteTrips id temp pref z.tripPoints w lasts)

/-- One zone after the other. -/
def noteZones (p : Poll) (pref : Pref) :
    List Zone → World δ → List (List (Option Nat)) → List (List (Option Nat))
  | z :: rest, w, lasts :: more =>
    (if z.zoneActive then noteCalls pref (z.calls (p.read z.index)) z w lasts else lasts) ::
      noteZones p pref rest (z.readZoneTemp (p.read z.index) pref w).2 more
  | _, _, more => more

/-- An engine, with the reading with which each trip of each zone was last evaluated as a polling
trip. -/
structure Watched (δ : Type) where
  engine : Engine δ
  last : List (List (Option Nat))

namespace Watched

/-- No trip has been evaluated yet. -/
def start (e : Engine δ) : Watched δ :=
  ⟨e, e.zones.map fun z => z.tripPoints.map fun _ => none⟩

/-- A poll of the engine. -/
def poll (x : Watched δ) (p : Poll) : Watched δ where
  engine := x.engine.poll p
  last := noteZones p x.engine.preference x.engine.zones (x.engine.world.withClock p.clock) x.last

/-- Some active zone needs polling for the sensor: its polling trip for it was last evaluated with a
reading at or above the temperature. -/
def Needs (x : Watched δ) (s : Int) : Prop :=
  ∃ y ∈ x.engine.zones.zip x.last, y.1.zoneActive = true ∧ ∃ u ∈ y.1.tripPoints.zip y.2,
    u.1.pollsFor s = true ∧ ∃ r ∈ u.2, u.1.temp ≤ r

/-- Watching does not disturb. -/
theorem run_engine (x : Watched δ) (polls : List Poll) :
    (run poll x polls).engine = run Engine.poll x.engine polls := by
  induction polls generalizing x with
  | nil => rfl
  | cons p rest ih => exact ih (x.poll p)

end Watched

/-- The flag of a polling trip says whether the last reading was at or above its temperature. -/
def Noted (t : TripPoint) (last : Option Nat) : Prop :=
  t.type = .polling → t.pollOn = last.any fun r => decide (t.temp ≤ r)

/-- A check keeps the sensors. -/
theorem check_sensors (t : TripPoint) (id : Int) (temp : Nat) (pref : Pref) (w : World δ) :
    (t.thdTripPointCheck id temp pref w).world.sensors = w.sensors := by
  obtain ⟨-, -, ops, -, hacts⟩ := t.check_acts id temp pref 0 w
  exact hacts.sensors

omit [CdevClass δ] [StdSort] in
theorem World.InPlace.of_sensors {w w' : World δ} (h : w.InPlace)
    (hsensors : w'.sensors = w.sensors) :
    w'.InPlace := by
  unfold World.InPlace World.getSensor
  rw [hsensors]
  exact h

/-- The check of a trip, with its note. -/
theorem check_noted {t : TripPoint} {last : Option Nat} (h : Noted t last) (id : Int) (temp : Nat)
    (pref : Pref) {w : World δ} (hplace : w.InPlace) :
    Noted (t.thdTripPointCheck id temp pref w).trip
      (if t.evaluatesPolling id temp w then some temp else last) := by
  have hsame := (t.check_acts id temp pref 0 w).1
  intro htype
  rw [hsame.type] at htype
  cases hevaluates : t.evaluatesPolling id temp w with
  | true =>
      have hsome : (w.getSensor t.sensorId).isSome = true := by
        simp only [TripPoint.evaluatesPolling, Bool.and_eq_true] at hevaluates
        exact hevaluates.2
      obtain ⟨s, hs⟩ := Option.isSome_iff_exists.mp hsome
      rw [TripPoint.check_evaluates_eq hevaluates, (t.check_polling_spec temp hs hplace).1]
      rfl
  | false =>
      rw [(t.check_other_spec id temp pref w hevaluates).1, hsame.temp]
      exact h htype

/-- Checking the trips of a zone, with their notes. -/
theorem note_trips_noted {trips : List TripPoint} {lasts : List (Option Nat)}
    (h : List.Forall₂ Noted trips lasts) (id : Int) (temp : Nat) (pref : Pref) {w : World δ}
    (hplace : w.InPlace) :
    List.Forall₂ Noted (Zone.checkTrips id temp pref trips w).1
      (noteTrips id temp pref trips w lasts) := by
  induction h generalizing w with
  | nil => exact .nil
  | cons hfirst hrest ih =>
      rename_i t last _ _
      have hnote := check_noted hfirst id temp pref hplace
      unfold Zone.checkTrips noteTrips
      cases hreset : (t.thdTripPointCheck id temp pref w).reset with
      | true =>
          simp only [hreset, if_true]
          exact .cons hnote hrest
      | false =>
          simp only [hreset, Bool.false_eq_true, if_false]
          exact .cons hnote (ih (hplace.of_sensors (check_sensors t id temp pref w)))

/-- A reading of a zone keeps the sensors. -/
theorem temp_change_sensors (z : Zone) (id : Int) (temp : Nat) (pref : Pref) (w : World δ) :
    (z.thermalZoneTempChange id temp pref w).2.sensors = w.sensors := by
  obtain ⟨-, ops, -, hacts⟩ := z.thermal_zone_temp_change_acts id temp pref 0 w
  exact hacts.sensors

/-- A sequence of readings, with the notes. -/
theorem note_calls_noted (pref : Pref) (calls : List (Int × Nat)) {z : Zone}
    {lasts : List (Option Nat)} (h : List.Forall₂ Noted z.tripPoints lasts) {w : World δ}
    (hplace : w.InPlace) :
    List.Forall₂ Noted (Zone.checkCalls pref calls z w).1.tripPoints
      (noteCalls pref calls z w lasts) := by
  induction calls generalizing z w lasts with
  | nil => exact h
  | cons call rest ih =>
      obtain ⟨id, temp⟩ := call
      exact ih (note_trips_noted h id temp pref hplace)
        (hplace.of_sensors (temp_change_sensors z id temp pref w))

/-! ## A poll of a zone -/

namespace Zone

/-- The reading that the polling trip of a sensor sees in a poll; none if the zone is inactive. -/
def seen (z : Zone) (read : Int → Nat) (s : Int) : Option Nat :=
  if z.zoneActive then z.readingFor read s else none

/-- The request of a zone for a sensor in a poll. -/
def requestFor (z : Zone) (read : Int → Nat) (s : Int) : Option Bool :=
  requestOf z.tripPoints s (z.seen read s)

/-- The sensors of the zone are different ones of the engine, and each has one polling trip at
most. -/
structure Wired (z : Zone) (w : World δ) : Prop where
  trips : PollTrips z.tripPoints
  sensors : ∀ s ∈ z.sensors, (w.getSensor s.index).isSome = true
  distinct : (z.sensors.map (·.index)).Nodup

omit [CdevClass δ] [StdSort] in
/-- Only the sensors of the engine matter. -/
theorem Wired.of_sensors {z : Zone} {w w' : World δ} (h : z.Wired w)
    (hsensors : w'.sensors = w.sensors) :
    z.Wired w' := by
  refine ⟨h.trips, fun s hs => ?_, h.distinct⟩
  unfold World.getSensor
  rw [hsensors]
  exact h.sensors s hs

omit [CdevClass δ] [StdSort] in
/-- A poll reads sensors of the zone, each once. -/
theorem Wired.calls {z : Zone} {w : World δ} (h : z.Wired w) (read : Int → Nat) :
    (∀ call ∈ z.calls read, (w.getSensor call.1).isSome = true) ∧
      ((z.calls read).map (·.1)).Nodup := by
  unfold Zone.calls
  split
  · constructor
    · intro call hcall
      obtain ⟨s, hs, rfl⟩ := List.mem_map.mp hcall
      exact h.sensors s hs
    · rw [List.map_map]
      exact h.distinct
  · split
    · exact ⟨by simp, by simp⟩
    · rename_i s rest hsensors
      split
      · refine ⟨fun call hcall => ?_, by simp⟩
        rw [List.mem_singleton.mp hcall]
        exact h.sensors s (hsensors ▸ List.mem_cons_self)
      · exact ⟨by simp, by simp⟩

/-- A poll of a zone, as far as one sensor is concerned. -/
theorem read_zone_temp_asks {z : Zone} {w : World δ} (h : z.Wired w) (hplace : w.InPlace) (s : Int)
    (read : Int → Nat) (pref : Pref) :
    Asks s (z.seen read s) z.tripPoints (z.readZoneTemp read pref w).1.tripPoints w
      (z.readZoneTemp read pref w).2 := by
  unfold seen
  cases hactive : z.zoneActive with
  | true =>
      obtain ⟨n, hn⟩ := read_zone_temp_calls z read pref w hactive
      obtain ⟨hsensors, hnodup⟩ := h.calls read
      rw [hn]
      exact check_calls_asks s pref h.trips hplace hsensors hnodup
  | false =>
      rw [z.read_zone_temp_inactive hactive]
      exact .refl z.tripPoints w fun _ _ _ => rfl

/-- A poll of a zone, with its notes. -/
theorem read_zone_temp_noted {z : Zone} {lasts : List (Option Nat)}
    (h : List.Forall₂ Noted z.tripPoints lasts) (read : Int → Nat) (pref : Pref) {w : World δ}
    (hplace : w.InPlace) :
    List.Forall₂ Noted (z.readZoneTemp read pref w).1.tripPoints
      (if z.zoneActive then noteCalls pref (z.calls read) z w lasts else lasts) := by
  cases hactive : z.zoneActive with
  | true =>
      obtain ⟨n, hn⟩ := read_zone_temp_calls z read pref w hactive
      rw [hn]
      exact note_calls_noted pref (z.calls read) h hplace
  | false =>
      rw [z.read_zone_temp_inactive hactive]
      exact h

end Zone

/-! ## A poll of the engine -/

omit [CdevClass δ] [StdSort] in
/-- Requests one after the other. The last one counts, so a request that is switched off must be
followed by one that is switched on. -/
theorem settled_on {ρ : Type} {f : ρ → Option Bool} {l : List ρ} {on : Bool}
    (hoff : ∀ first x rest, l = first ++ x :: rest → f x = some false → ∃ y ∈ rest, f y = some true)
    (hon : on = true ∨ ∃ y ∈ l, f y = some true) :
    l.foldl (fun on x => (f x).getD on) on = true := by
  induction l generalizing on with
  | nil => simpa using hon
  | cons x rest ih =>
      have hoff' : ∀ first y later, rest = first ++ y :: later → f y = some false →
          ∃ y ∈ later, f y = some true := by
        intro first y later heq hy
        exact hoff (x :: first) y later (by rw [heq]; rfl) hy
      rw [List.foldl_cons]
      cases hx : f x with
      | none =>
          apply ih hoff'
          rcases hon with hon | ⟨y, hy, htrue⟩
          · exact .inl hon
          · rcases List.mem_cons.mp hy with rfl | hy
            · rw [hx] at htrue
              cases htrue
            · exact .inr ⟨y, hy, htrue⟩
      | some b =>
          cases b with
          | true => exact ih hoff' (.inl rfl)
          | false =>
              obtain ⟨y, hy, htrue⟩ := hoff [] x rest rfl hx
              exact ih hoff' (.inr ⟨y, hy, htrue⟩)

namespace Engine

/-- The engine has a bit for each of its sensors, and its zones are wired to them. -/
structure Wired (e : Engine δ) : Prop where
  place : e.world.InPlace
  zones : ∀ z ∈ e.zones, z.Wired e.world

/-- In a poll, some polling trip of the sensor reads at or above its temperature, or it is on and is
not read. -/
def NeedsAfter (e : Engine δ) (p : Poll) (s : Int) : Prop :=
  ∃ z ∈ e.zones, z.zoneActive = true ∧ ∃ t ∈ z.tripPoints, t.pollsFor s = true ∧
    t.onAfter (z.seen (p.read z.index) s) = true

/-- In a poll no polling trip of a sensor is switched off while the sensor is needed, unless one of
a zone behind it is switched on. -/
def KeepsRequests (e : Engine δ) (p : Poll) : Prop :=
  ∀ s first z rest, e.zones = first ++ z :: rest →
    z.requestFor (p.read z.index) s = some false → e.NeedsAfter p s →
      ∃ z' ∈ rest, z'.requestFor (p.read z'.index) s = some true

/-- Some polling trip of an active zone is on for the sensor. -/
def On (e : Engine δ) (s : Int) : Prop :=
  ∃ z ∈ e.zones, z.zoneActive = true ∧ ∃ t ∈ z.tripPoints, t.pollsFor s = true ∧ t.pollOn = true

/-- The zones one after the other, as far as one sensor is concerned. -/
theorem for_zones_asks (s : Int) (p : Poll) (pref : Pref) {zones : List Zone} {w : World δ}
    (hplace : w.InPlace) (hzones : ∀ z ∈ zones, z.Wired w) :
    List.Forall₂ (fun z z' => z.Same z' ∧ List.Forall₂ (fun t t' => t.Same t' ∧
        (t.pollsFor s = true → t'.pollOn = t.onAfter (z.seen (p.read z.index) s)))
        z.tripPoints z'.tripPoints) zones
      (forZones (fun z w => z.readZoneTemp (p.read z.index) pref w) zones w).1 ∧
    (forZones (fun z w => z.readZoneTemp (p.read z.index) pref w) zones w).2.sensors = w.sensors ∧
    (forZones (fun z w => z.readZoneTemp (p.read z.index) pref w) zones w).2.requested s =
      zones.foldl (fun on z => (z.requestFor (p.read z.index) s).getD on) (w.requested s) ∧
    (w.InRange →
      (forZones (fun z w => z.readZoneTemp (p.read z.index) pref w) zones w).2.InRange) := by
  induction zones generalizing w with
  | nil => exact ⟨.nil, rfl, rfl, fun h => h⟩
  | cons z rest ih =>
      have hasks :=
        z.read_zone_temp_asks (hzones z List.mem_cons_self) hplace s (p.read z.index) pref
      have hsame := (z.read_zone_temp_notifies (p.read z.index) pref 0 w).1
      have hrest : ∀ z' ∈ rest, z'.Wired (z.readZoneTemp (p.read z.index) pref w).2 := by
        intro z' hz'
        exact (hzones z' (List.mem_cons_of_mem _ hz')).of_sensors hasks.sensors
      obtain ⟨hforall, hsensors, hrequested, hrange⟩ := ih (hplace.of_sensors hasks.sensors) hrest
      refine ⟨.cons ⟨hsame, hasks.flags⟩ hforall, hsensors.trans hasks.sensors, ?_, ?_⟩
      · refine hrequested.trans ?_
        rw [hasks.requested]
        rfl
      · exact fun hin => hrange (hasks.inRange hin)

omit [CdevClass δ] [StdSort] in
/-- The polling trip of a sensor is the one that is found. -/
theorem find_polls_for {trips : List TripPoint} (h : PollTrips trips) {t : TripPoint} {s : Int}
    (ht : t ∈ trips) (hs : t.pollsFor s = true) :
    trips.find? (fun t => t.pollsFor s) = some t := by
  obtain ⟨hunique, hindependent⟩ := h
  induction trips with
  | nil => simp at ht
  | cons u rest ih =>
      rw [List.find?_cons]
      rcases List.mem_cons.mp ht with rfl | ht
      · rw [hs]
      · cases hu : u.pollsFor s with
        | true =>
            -- two polling trips for one sensor
            simp only [TripPoint.pollsFor, Bool.and_eq_true, decide_eq_true_eq] at hu hs
            have hne := List.rel_of_pairwise_cons hunique ht hu.1 hs.1
            exact absurd (hu.2.trans hs.2.symm) hne
        | false =>
            exact ih ht hunique.of_cons fun v hv => hindependent v (List.mem_cons_of_mem _ hv)

/-- A poll that keeps the requests: if a sensor was on for the engine while one of its polling trips
was on, this is still so. -/
theorem poll_requested {e : Engine δ} (hwired : e.Wired)
    (hon : ∀ s, e.On s → e.world.requested s = true)
    {p : Poll} (hkeeps : e.KeepsRequests p) (s : Int) (h : (e.poll p).On s) :
    (e.poll p).world.requested s = true := by
  obtain ⟨hforall, -, hrequested, -⟩ := for_zones_asks s p e.preference
    (w := e.world.withClock p.clock) hwired.place fun z hz => (hwired.zones z hz).of_sensors rfl
  obtain ⟨z', hz', hactive, t', ht', hpolls, hon'⟩ := h
  obtain ⟨z, hz, hsame, htrips⟩ := forall₂_mem_right hforall hz'
  obtain ⟨t, ht, hsame', hflag⟩ := forall₂_mem_right htrips ht'
  rw [hsame'.polls_for_eq] at hpolls
  rw [hsame.zoneActive] at hactive
  have hneeds : e.NeedsAfter p s := ⟨z, hz, hactive, t, ht, hpolls, (hflag hpolls).symm.trans hon'⟩
  refine hrequested.trans
    (settled_on (fun first x rest heq hx => hkeeps s first x rest heq hx hneeds) ?_)
  -- the trip was on before the poll, or it is switched on in the poll
  cases hbefore : t.pollOn with
  | true => exact .inl (hon s ⟨z, hz, hactive, t, ht, hpolls, hbefore⟩)
  | false =>
      right
      refine ⟨z, hz, ?_⟩
      have hafter := (hflag hpolls).symm.trans hon'
      unfold Zone.requestFor requestOf
      rw [find_polls_for (hwired.zones z hz).trips ht hpolls]
      cases hseen : z.seen (p.read z.index) s with
      | none =>
          rw [hseen] at hafter
          exact absurd (hbefore.symm.trans hafter) (by simp)
      | some r =>
          rw [hseen] at hafter
          have hreach : t.temp ≤ r := of_decide_eq_true hafter
          simp [TripPoint.request, hbefore, hreach]

/-- A poll keeps the wiring. -/
theorem poll_wired {e : Engine δ} (hwired : e.Wired) (p : Poll) :
    (e.poll p).Wired ∧ (e.world.InRange → (e.poll p).world.InRange) := by
  obtain ⟨hforall, hsensors, -, hrange⟩ := for_zones_asks 0 p e.preference
    (w := e.world.withClock p.clock) hwired.place fun z hz => (hwired.zones z hz).of_sensors rfl
  refine ⟨⟨hwired.place.of_sensors hsensors, fun z' hz' => ?_⟩, hrange⟩
  obtain ⟨z, hz, hsame, htrips⟩ := forall₂_mem_right hforall hz'
  obtain ⟨hpoll, hfound, hdistinct⟩ := hwired.zones z hz
  refine ⟨hpoll.of_same (htrips.imp fun _ _ h => h.1), fun s hs => ?_, ?_⟩
  · rw [hsame.sensors] at hs
    unfold World.getSensor
    rw [show (e.poll p).world.sensors = e.world.sensors from hsensors]
    exact hfound s hs
  · rw [hsame.sensors]
    exact hdistinct

/-- The zones one after the other, with their notes. -/
theorem for_zones_noted (p : Poll) (pref : Pref) {zones : List Zone}
    {more : List (List (Option Nat))}
    (h : List.Forall₂ (fun z lasts => List.Forall₂ Noted z.tripPoints lasts) zones more)
    {w : World δ} (hplace : w.InPlace) :
    List.Forall₂ (fun z lasts => List.Forall₂ Noted z.tripPoints lasts)
      (forZones (fun z w => z.readZoneTemp (p.read z.index) pref w) zones w).1
      (noteZones p pref zones w more) := by
  induction h generalizing w with
  | nil => exact .nil
  | cons hfirst _ ih =>
      rename_i z lasts _ _ _
      obtain ⟨-, ops, -, hacts⟩ := z.read_zone_temp_notifies (p.read z.index) pref 0 w
      exact .cons (z.read_zone_temp_noted hfirst (p.read z.index) pref hplace)
        (ih (hplace.of_sensors hacts.sensors))

end Engine

/-! ## Runs -/

namespace Watched

/-- The notes agree with the flags of the trips. -/
def Agrees (x : Watched δ) : Prop :=
  List.Forall₂ (fun z lasts => List.Forall₂ Noted z.tripPoints lasts) x.engine.zones x.last

omit [CdevClass δ] [StdSort] in
/-- A sensor that is needed has a polling trip that is on. -/
theorem Agrees.on {x : Watched δ} (h : x.Agrees) {s : Int} (hneeds : x.Needs s) :
    x.engine.On s := by
  obtain ⟨y, hy, hactive, u, hu, hpolls, r, hlast, hreach⟩ := hneeds
  have hnoted : Noted u.1 u.2 := by
    have hzone := (List.forall₂_iff_zip.mp h).2 hy
    exact (List.forall₂_iff_zip.mp hzone).2 hu
  have htype : u.1.type = .polling := by
    simp only [TripPoint.pollsFor, Bool.and_eq_true, decide_eq_true_eq] at hpolls
    exact hpolls.1
  refine ⟨y.1, (List.of_mem_zip hy).1, hactive, u.1, (List.of_mem_zip hu).1, hpolls, ?_⟩
  rw [hnoted htype, hlast]
  simpa using hreach

omit [CdevClass δ] [StdSort] in
/-- Before the first poll no trip is on and none has been evaluated. -/
theorem start_agrees {e : Engine δ}
    (hoff : ∀ z ∈ e.zones, ∀ t ∈ z.tripPoints, t.pollOn = false) : (start e).Agrees := by
  unfold Agrees start
  rw [List.forall₂_map_right_iff, List.forall₂_same]
  intro z hz
  rw [List.forall₂_map_right_iff, List.forall₂_same]
  intro t ht _
  exact hoff z hz t ht

/-- What holds between the polls of a run that keeps the requests. -/
structure Sound (x : Watched δ) : Prop where
  wired : x.engine.Wired
  inRange : x.engine.world.InRange
  interval : x.engine.world.pollIntervalSec = 0
  requested : ∀ s, x.engine.On s → x.engine.world.requested s = true
  agrees : x.Agrees

/-- A poll that keeps the requests. -/
theorem Sound.poll {x : Watched δ} (h : x.Sound) {p : Poll} (hkeeps : x.engine.KeepsRequests p) :
    (x.poll p).Sound := by
  obtain ⟨hwired, hin⟩ := Engine.poll_wired h.wired p
  obtain ⟨-, ops, -, hacts⟩ := x.engine.poll_notifies p 0
  exact
    { wired := hwired
      inRange := hin h.inRange
      interval := hacts.pollIntervalSec.trans h.interval
      requested := Engine.poll_requested h.wired h.requested hkeeps
      agrees := Engine.for_zones_noted p x.engine.preference h.agrees h.wired.place }

/-- A condition on the polls of an engine is one on those of the watched engine. -/
theorem meets_poll {ok : Engine δ → Poll → Prop} {x : Watched δ} {polls : List Poll}
    (h : Meets Engine.poll ok x.engine polls) :
    Meets Watched.poll (fun x p => ok x.engine p) x polls := by
  induction polls generalizing x with
  | nil => trivial
  | cons p rest ih => exact ⟨h.1, @ih (x.poll p) h.2⟩

end Watched

/-- The state of the engine after the messages sent so far, from some initial timeout. -/
def PollState.processed (w : World δ) (timeout : Int) : PollState :=
  w.messages.foldl PollState.procMessage
    { PollState.start timeout with pollIntervalSec := w.pollIntervalSec }

omit [CdevClass δ] [StdSort] in
/-- The mask holds the sensors that are requested. -/
theorem PollState.processed_mirrors {w : World δ} (hin : w.InRange)
    (hinterval : w.pollIntervalSec = 0)
    (timeout : Int) : (PollState.processed w timeout).Mirrors w.messages := by
  unfold PollState.processed
  rw [hinterval]
  have hstart : (PollState.start timeout).Mirrors [] := by
    refine ⟨rfl, fun s => ?_, fun s => ?_⟩
    · simp [pollOn, PollState.start]
    · simp [fastPollOn, PollState.start]
  have hrun : ∀ past rest : List PollMessage, (∀ m ∈ rest, 0 ≤ m.sensorId ∧ m.sensorId < 32) →
      ∀ e : PollState, e.Mirrors past →
        (rest.foldl PollState.procMessage e).Mirrors (past ++ rest) := by
    intro past rest
    induction rest generalizing past with
    | nil => intro _ e he; simpa using he
    | cons m rest ih =>
        intro hin e he
        have hm := hin m List.mem_cons_self
        have hnext := ih (past ++ [m]) (fun m' hm' => hin m' (List.mem_cons_of_mem _ hm'))
          (e.procMessage m) (mirrors_step he hm.1 hm.2)
        simpa using hnext
  exact hrun [] w.messages hin _ hstart

end Runs

/-- An active zone with the one sensor there is, a passive trip and its polling trip. -/
def sharedZone (index : Int) (temp : Nat) : Zone :=
  { Zone.init index "shared" .independent with
    zoneActive := true
    sensors := [⟨0, .raw, "x86_pkg_temp", false, false⟩]
    tripPoints := [.init 0 .passive temp 0 index 0 .parallel,
      .init 1 .polling (Zone.pollTemp temp) 0 index 0 .parallel] }

/-- Two zones with the same sensor. -/
def sharedEngine (temp temp' : Nat) : Engine GenSysfs where
  zones := [sharedZone 0 temp, sharedZone 1 temp']
  world :=
    { cdevs := fun k => Cdev.init k ⟨"", []⟩
      cdevCount := 0
      sensors := [⟨0, .raw, "x86_pkg_temp", false, false⟩]
      pollIntervalSec := 0
      ignoreCritical := false
      clock := fun n => n
      ticks := 0
      events := [] }
  preference := .energyConserve
  status := true
  currentZoneIndex := 2

/-- A poll at a temperature. -/
def pollAtTemp (temp : Nat) : Poll := ⟨fun _ _ => temp, fun n => n⟩

/-- The zones are wired to the sensor. -/
theorem shared_engine_wired (temp temp' : Nat) : (sharedEngine temp temp').Wired := by
  have hget : ∀ i s, (sharedEngine temp temp').world.getSensor i = some s → s.index = i := by
    intro i s h
    have hrange := World.get_sensor_range h
    have hzero : i = 0 := by
      simp only [sharedEngine, List.length_singleton] at hrange
      omega
    subst hzero
    cases h
    rfl
  have hzone : ∀ index temp'', (sharedZone index temp'').Wired (sharedEngine temp temp').world := by
    intro index temp''
    refine ⟨⟨?_, ?_⟩, ?_, by simp [sharedZone]⟩
    · simp [sharedZone, TripPoint.init]
    · intro t ht _
      rcases List.mem_pair.mp ht with rfl | rfl
      · rfl
      · rfl
    · intro s hs
      rw [List.mem_singleton.mp hs]
      rfl
  refine ⟨⟨by simp [sharedEngine], hget⟩, fun z hz => ?_⟩
  rcases List.mem_pair.mp hz with rfl | rfl
  · exact hzone 0 temp
  · exact hzone 1 temp'

end Thermald
