import Thermald.Cooling.Polls
import Thermald.Polling.Interval

/-!
# Requests to poll a sensor

A zone has a polling trip for each of its sensors. The trip remembers whether it is on, and sends a
message only when this changes. The engine has one bit for each sensor and does not count the
requests, so a zone that switches polling off also does so for the other zones with the sensor.

The readings that a trip has evaluated are not part of the state, so a poll of a `Watched` engine
notes them down. `bit_set_of_needed` says under which circumstances the bit of a sensor is set in
every state in which some polling trip of the sensor was last evaluated with a reading at or above
its temperature.
-/

namespace Thermald

/-! ## Messages -/

/-- The message of an event to the engine. -/
def Event.message? : Event → Option PollMessage
  | .pollEnable s => some (.pollEnable s)
  | .pollDisable s => some (.pollDisable s)
  | .fastPollEnable s => some (.fastPollEnable s)
  | .fastPollDisable s => some (.fastPollDisable s)
  | _ => none

namespace World

variable {δ : Type}

/-- The messages sent so far. -/
def messages (w : World δ) : List PollMessage := w.events.filterMap Event.message?

/-- The sensor has polling on after the messages sent so far. -/
def requested (w : World δ) (s : Int) : Bool := pollOn w.messages s

/-- The messages sent so far are about sensors that have a bit. -/
def InRange (w : World δ) : Prop := ∀ m ∈ w.messages, 0 ≤ m.sensorId ∧ m.sensorId < 32

@[simp] theorem messages_emit (w : World δ) (events : List Event) :
    (w.emit events).messages = w.messages ++ events.filterMap Event.message? := by
  simp [messages, emit]

/-- Everything that a sensor is asked through is as before. -/
structure Quiet (w w' : World δ) : Prop where
  events : w'.events = w.events
  sensors : w'.sensors = w.sensors

namespace Quiet

variable {w w' w'' : World δ}

theorem refl (w : World δ) : w.Quiet w := ⟨rfl, rfl⟩

theorem trans (h : w.Quiet w') (h' : w'.Quiet w'') : w.Quiet w'' :=
  ⟨h'.events.trans h.events, h'.sensors.trans h.sensors⟩

theorem messages_eq (h : w.Quiet w') : w'.messages = w.messages := by
  rw [messages, h.events]
  rfl

end Quiet

end World

namespace TripPoint

variable {δ : Type} [CdevClass δ] [StdSort]

theorem set_state_quiet (t : TripPoint) (b : TripCdev) (temp : Nat) (state : Bool) (w : World δ) :
    w.Quiet (t.setState b temp state w).2.2 :=
  ⟨rfl, rfl⟩

theorem activate_cdevs_quiet (t : TripPoint) (temp : Nat) (bs : List TripCdev) (w : World δ) :
    w.Quiet (t.activateCdevs temp bs w).2 := by
  induction bs generalizing w with
  | nil => exact .refl w
  | cons b rest ih =>
      have htime : w.Quiet w.time.2 := ⟨rfl, rfl⟩
      rw [activateCdevs]
      dsimp only
      split
      · exact htime
      · obtain ⟨b', w', hvisit, hquiet⟩ : ∃ b' w',
            (if b.samplingPriod ≠ 0 then ({ b with lastOpTime := w.time.1 }, w.time.2)
              else (b, w)) = (b', w') ∧ w.Quiet w' := by
          split
          · exact ⟨_, _, rfl, htime⟩
          · exact ⟨_, _, rfl, .refl w⟩
        rw [hvisit]
        dsimp only
        split
        · exact hquiet.trans (ih w')
        · have hset := hquiet.trans (t.set_state_quiet b' temp true w')
          split
          · exact hset
          · exact hset.trans (ih _)

theorem release_cdevs_quiet (t : TripPoint) (temp : Nat) (bs : List TripCdev) (w : World δ) :
    w.Quiet (t.releaseCdevs temp bs w).2 := by
  induction bs generalizing w with
  | nil => exact .refl w
  | cons b rest ih =>
      rw [releaseCdevs]
      split
      · exact ih w
      · have hset := t.set_state_quiet b temp false w
        dsimp only
        split
        · exact hset
        · exact hset.trans (ih _)

theorem reset_cdevs_quiet (t : TripPoint) (force : Bool) (bs : List TripCdev) (w : World δ) :
    w.Quiet (t.resetCdevs force bs w) := by
  induction bs generalizing w with
  | nil => exact .refl w
  | cons b rest ih =>
      rw [resetCdevs]
      split
      · exact ih w
      · exact (⟨rfl, rfl⟩ : w.Quiet (w.setMinState b.cdev t.zoneId t.index)).trans (ih _)

/-- The evaluation of a trip sends nothing, keeps the flag for polling and asks for no reset. -/
theorem evaluate_quiet (t : TripPoint) (temp : Nat) (w : World δ) :
    w.Quiet (t.evaluate temp w).world ∧ (t.evaluate temp w).reset = false := by
  unfold evaluate
  split
  · exact ⟨t.activate_cdevs_quiet temp t.cdevs w, rfl⟩
  · exact ⟨t.release_cdevs_quiet temp t.cdevs.reverse w, rfl⟩
  · exact ⟨.refl w, rfl⟩

end TripPoint

/-- A reset of a zone sends nothing. -/
theorem Zone.zone_reset_quiet {δ : Type} [CdevClass δ] [StdSort] (z : Zone) (force : Bool)
    (w : World δ) : w.Quiet (z.zoneReset force w) := by
  have hfold : ∀ (trips : List TripPoint) (w : World δ),
      w.Quiet (trips.foldl (fun w t => t.thdTripCdevStateReset force w) w) := by
    intro trips
    induction trips with
    | nil => exact fun w => .refl w
    | cons t rest ih => exact fun w => (t.reset_cdevs_quiet force _ w).trans (ih _)
  unfold zoneReset
  split
  · exact hfold _ w
  · exact .refl w

/-! ## Checks -/

namespace TripPoint

variable {δ : Type}

/-- The check of a trip for a sensor reaches the part for polling trips. -/
def evaluatesPolling (t : TripPoint) (id : Int) (temp : Nat) (w : World δ) [CdevClass δ] : Bool :=
  t.type = .polling && !t.dependencyFails temp w && !t.otherSensor id &&
    t.sensorId ≠ defaultSensorId && (w.getSensor t.sensorId).isSome

/-- The trip is the polling trip of a sensor. -/
def pollsFor (t : TripPoint) (s : Int) : Bool := t.type = .polling && t.sensorId = s

/-- The same trip polls for the same sensor. -/
theorem Same.polls_for_eq {t t' : TripPoint} (h : t.Same t') (s : Int) :
    t'.pollsFor s = t.pollsFor s := by
  simp only [pollsFor, h.type, h.sensorId]

/-- The request that a reading makes a polling trip send: none if nothing changes. -/
def request (t : TripPoint) (temp : Nat) : Option Bool :=
  if !t.pollOn && t.temp ≤ temp then some true
  else if t.pollOn && temp < t.temp then some false
  else none

/-- The messages of a request for a sensor. -/
def requestMessages (s : Int) : Option Bool → List PollMessage
  | none => []
  | some true => [.pollEnable s, .fastPollEnable s]
  | some false => [.pollDisable s, .fastPollDisable s]

end TripPoint

namespace World

variable {δ : Type}

/-- A sensor is found at the place that is its index. -/
def InPlace (w : World δ) : Prop :=
  w.sensors.length ≤ 32 ∧ ∀ i s, w.getSensor i = some s → s.index = i

theorem get_sensor_range {w : World δ} {i : Int} {s : Sensor} (h : w.getSensor i = some s) :
    0 ≤ i ∧ i < w.sensors.length := by
  unfold getSensor at h
  split at h
  · rename_i hpos
    have hlt := (List.getElem?_eq_some_iff.mp h).1
    omega
  · cases h

end World

namespace TripPoint

variable {δ : Type} [CdevClass δ] [StdSort]

omit [CdevClass δ] [StdSort] in
/-- The part for polling trips sets the flag and sends the request. -/
theorem check_polling_spec (t : TripPoint) (temp : Nat) {w : World δ} {s : Sensor}
    (hsensor : w.getSensor t.sensorId = some s) (hplace : w.InPlace) :
    (t.checkPolling temp w).trip = { t with pollOn := t.temp ≤ temp } ∧
      ((t.checkPolling temp w).reset = true → t.pollOn = true ∧ temp < t.temp) ∧
      (t.checkPolling temp w).world.sensors = w.sensors ∧
      (t.checkPolling temp w).world.messages =
        w.messages ++ requestMessages t.sensorId (t.request temp) := by
  have hindex := hplace.2 _ _ hsensor
  have hthreshold (temp : Nat) :
      ((if s.asyncCapable then s.setThreshold w.pollIntervalSec temp else []).filterMap
        Event.message?) = [] := by
    split
    · unfold Sensor.setThreshold
      split <;> rfl
    · rfl
  unfold checkPolling request
  rw [hsensor]
  dsimp only
  cases hon : t.pollOn with
  | false =>
      by_cases hreach : t.temp ≤ temp
      · simp only [hreach, Bool.not_false, decide_true, Bool.and_self, if_true]
        refine ⟨trivial, by simp, rfl, ?_⟩
        rw [World.messages_emit, List.filterMap_append, hthreshold]
        simp [Sensor.pollEvents, Event.message?, requestMessages, hindex]
      · simp only [hreach, Bool.not_false, decide_false, Bool.and_false, Bool.false_eq_true,
          if_false, Bool.false_and]
        refine ⟨?_, by simp, trivial, by simp [requestMessages]⟩
        rw [← hon]
  | true =>
      by_cases hreach : t.temp ≤ temp
      · simp only [hreach, not_lt.mpr hreach, Bool.not_true, decide_true, Bool.false_and,
          Bool.false_eq_true, if_false, decide_false, Bool.and_false]
        refine ⟨?_, by simp, trivial, by simp [requestMessages]⟩
        rw [← hon]
      · simp only [hreach, not_le.mp hreach, Bool.not_true, Bool.false_eq_true,
          if_false, decide_true, Bool.and_self, if_true, decide_false]
        refine ⟨trivial, by simp, rfl, ?_⟩
        rw [World.messages_emit, List.filterMap_append, hthreshold]
        simp [Sensor.pollEvents, Event.message?, requestMessages, hindex]

/-- A check that does not reach the part for polling trips sends no message and keeps the flag. -/
theorem check_other_spec (t : TripPoint) (id : Int) (temp : Nat) (pref : Pref) (w : World δ)
    (h : t.evaluatesPolling id temp w = false) :
    ((t.thdTripPointCheck id temp pref w).trip.pollOn = t.pollOn) ∧
      (t.thdTripPointCheck id temp pref w).reset = false ∧
      (t.thdTripPointCheck id temp pref w).world.sensors = w.sensors ∧
      (t.thdTripPointCheck id temp pref w).world.messages = w.messages := by
  unfold thdTripPointCheck
  split
  · exact ⟨rfl, rfl, rfl, rfl⟩
  split
  · exact ⟨rfl, rfl, rfl, rfl⟩
  split
  · exact ⟨rfl, rfl, rfl, rfl⟩
  rename_i hdepend hother
  split
  · unfold criticalEvent
    split
    · exact ⟨rfl, rfl, rfl, rfl⟩
    · refine ⟨rfl, rfl, rfl, ?_⟩
      rw [World.messages_emit]
      split <;> simp [Event.message?]
  · obtain ⟨t', ht', htype, hsensor, hon⟩ : ∃ t', (if t.counts = true then
        { t with critTripCount := 0 } else t) = t' ∧ t'.type = t.type ∧
        t'.sensorId = t.sensorId ∧ t'.pollOn = t.pollOn := by
      split
      · exact ⟨_, rfl, rfl, rfl, rfl⟩
      · exact ⟨_, rfl, rfl, rfl, rfl⟩
    rw [ht']
    dsimp only
    split
    · rename_i hpoll
      -- the only way left is that the sensor is missing
      have hnone : w.getSensor t'.sensorId = none := by
        rw [htype, hsensor] at hpoll
        simp only [Bool.not_eq_true] at hdepend hother
        simpa [evaluatesPolling, hpoll.1, hpoll.2, hdepend, hother, hsensor] using h
      unfold checkPolling
      rw [hnone]
      exact ⟨hon, rfl, rfl, rfl⟩
    split
    · obtain ⟨hquiet, hreset⟩ := t'.evaluate_quiet temp w
      refine ⟨?_, hreset, hquiet.sensors, hquiet.messages_eq⟩
      unfold evaluate
      split
      · exact hon
      · exact hon
      · exact hon
    · exact ⟨hon, rfl, rfl, rfl⟩

/-- A check that reaches the part for polling trips. -/
theorem check_evaluates_eq {t : TripPoint} {id : Int} {temp : Nat} {w : World δ}
    (h : t.evaluatesPolling id temp w = true) (pref : Pref) :
    t.thdTripPointCheck id temp pref w = t.checkPolling temp w := by
  simp only [evaluatesPolling, Bool.and_eq_true, decide_eq_true_eq, Bool.not_eq_true', ne_eq] at h
  obtain ⟨⟨⟨⟨htype, hdepend⟩, hother⟩, hdefault⟩, -⟩ := h
  simp [thdTripPointCheck, htype, hdepend, hother, counts, hdefault]

end TripPoint

/-! ## One reading of a zone -/

/-- A request for a sensor switches it and no other one. -/
theorem poll_on_request (msgs : List PollMessage) (s s' : Int) (r : Option Bool) :
    pollOn (msgs ++ TripPoint.requestMessages s' r) s =
      if s' = s then r.getD (pollOn msgs s) else pollOn msgs s := by
  cases r with
  | none => simp [TripPoint.requestMessages]
  | some on =>
      have hcons : ∀ m m', msgs ++ [m, m'] = (msgs ++ [m]) ++ [m'] := by simp
      cases on with
      | true =>
          rw [TripPoint.requestMessages, hcons, poll_on_append, poll_on_append]
          simp only [Option.getD_some, eq_comm]
      | false =>
          rw [TripPoint.requestMessages, hcons, poll_on_append, poll_on_append]
          simp only [Option.getD_some, eq_comm]

/-- Each sensor has one polling trip at most, and polling trips do not depend on a device. -/
structure PollTrips (trips : List TripPoint) : Prop where
  unique : trips.Pairwise fun t t' =>
    t.type = .polling → t'.type = .polling → t.sensorId ≠ t'.sensorId
  independent : ∀ t ∈ trips, t.type = .polling → t.depend = none

/-- The flag of a polling trip after a poll in which it sees a reading or none. -/
def TripPoint.onAfter (t : TripPoint) (reading : Option Nat) : Bool :=
  reading.elim t.pollOn fun r => t.temp ≤ r

/-- The request of the polling trip of a sensor among some trips. -/
def requestOf (trips : List TripPoint) (s : Int) (reading : Option Nat) : Option Bool :=
  (trips.find? fun t => t.pollsFor s).bind fun t => reading.bind t.request

variable {δ : Type}

/-- What a function does as far as sensor `s` is concerned, whose polling trip sees a reading or
none. -/
structure Asks (s : Int) (reading : Option Nat) (trips trips' : List TripPoint) (w w' : World δ) :
    Prop where
  flags : List.Forall₂ (fun t t' => t.Same t' ∧
    (t.pollsFor s = true → t'.pollOn = t.onAfter reading)) trips trips'
  sensors : w'.sensors = w.sensors
  requested : w'.requested s = (requestOf trips s reading).getD (w.requested s)
  inRange : w.InRange → w'.InRange

namespace Asks

variable {s : Int} {reading : Option Nat} {t t' : TripPoint} {rest rest' : List TripPoint}
  {w w' w'' : World δ}

/-- Nothing is done to trips that see no reading. -/
theorem refl (trips : List TripPoint) (w : World δ)
    (h : ∀ t ∈ trips, t.pollsFor s = true → reading = none) : Asks s reading trips trips w w := by
  refine ⟨List.forall₂_same.mpr fun t ht => ⟨.refl t, fun hs => ?_⟩, rfl, ?_, fun h => h⟩
  · rw [h t ht hs]
    rfl
  · unfold requestOf
    cases hfind : trips.find? fun t => t.pollsFor s with
    | none => rfl
    | some t =>
        rw [h t (List.mem_of_find?_eq_some hfind) (by simpa using List.find?_some hfind)]
        rfl

/-- A trip and then the others. -/
theorem cons (h : Asks s reading [t] [t'] w w') (hrest : Asks s reading rest rest' w' w'')
    (hunique : t.pollsFor s = true → ∀ u ∈ rest, u.pollsFor s = false) :
    Asks s reading (t :: rest) (t' :: rest') w w'' := by
  refine ⟨.cons ?_ hrest.flags, hrest.sensors.trans h.sensors, ?_,
    fun hin => hrest.inRange (h.inRange hin)⟩
  · cases h.flags with
    | cons hfirst _ => exact hfirst
  · rw [hrest.requested, h.requested]
    cases hs : t.pollsFor s with
    | true =>
        have hnone : rest.find? (fun t => t.pollsFor s) = none := by
          rw [List.find?_eq_none]
          intro u hu
          simp [hunique hs u hu]
        simp [requestOf, hs, hnone]
    | false => simp [requestOf, hs]

/-- The flags after a reading that is seen or not, seen from the trips before it. -/
theorem request_of_congr {trips trips' : List TripPoint}
    (h : List.Forall₂ (fun t t' => t.Same t' ∧ (t.pollsFor s = true → t'.pollOn = t.pollOn))
      trips trips') (reading : Option Nat) :
    requestOf trips' s reading = requestOf trips s reading := by
  induction h with
  | nil => rfl
  | cons hfirst _ ih =>
      rename_i t t' _ _ _
      have hpolls := hfirst.1.polls_for_eq s
      unfold requestOf at ih ⊢
      rw [List.find?_cons, List.find?_cons, hpolls]
      cases hs : t.pollsFor s with
      | true =>
          have hon := hfirst.2 hs
          simp only [Option.bind_some]
          congr 1
          funext r
          simp [TripPoint.request, hon, hfirst.1.temp]
      | false => exact ih

/-- First no reading for the sensor, then perhaps one. -/
theorem none_trans {trips trips' trips'' : List TripPoint} (h : Asks s none trips trips' w w')
    (h' : Asks s reading trips' trips'' w' w'') : Asks s reading trips trips'' w w'' := by
  refine ⟨?_, h'.sensors.trans h.sensors, ?_, fun hin => h'.inRange (h.inRange hin)⟩
  · have hflags := h.flags
    have hflags' := h'.flags
    clear h h'
    induction hflags generalizing trips'' with
    | nil =>
        cases hflags'
        exact .nil
    | cons hfirst _ ih =>
        rename_i t t' _ _ _
        cases hflags' with
        | cons hnext hrest =>
            refine .cons ⟨hfirst.1.trans hnext.1, fun hs => ?_⟩ (ih hrest)
            have hs' := (hfirst.1.polls_for_eq s).trans hs
            rw [hnext.2 hs']
            have hon : t'.pollOn = t.pollOn := hfirst.2 hs
            simp [TripPoint.onAfter, hon, hfirst.1.temp]
  · rw [h'.requested, h.requested, request_of_congr h.flags]
    have hnone : requestOf trips s none = none := by
      simp [requestOf]
    rw [hnone]
    rfl

/-- First a reading for the sensor, then none. -/
theorem trans_none {trips trips' trips'' : List TripPoint} (h : Asks s reading trips trips' w w')
    (h' : Asks s none trips' trips'' w' w'') : Asks s reading trips trips'' w w'' := by
  refine ⟨?_, h'.sensors.trans h.sensors, ?_, fun hin => h'.inRange (h.inRange hin)⟩
  · have hflags := h.flags
    have hflags' := h'.flags
    clear h h'
    induction hflags generalizing trips'' with
    | nil =>
        cases hflags'
        exact .nil
    | cons hfirst _ ih =>
        rename_i t t' _ _ _
        cases hflags' with
        | cons hnext hrest =>
            refine .cons ⟨hfirst.1.trans hnext.1, fun hs => ?_⟩ (ih hrest)
            have hs' := (hfirst.1.polls_for_eq s).trans hs
            exact (hnext.2 hs').trans (hfirst.2 hs)
  · have hnone : requestOf trips' s none = none := by
      simp [requestOf]
    rw [h'.requested, h.requested, hnone]
    rfl

/-- The trips are the same ones. -/
theorem same {trips trips' : List TripPoint} (h : Asks s reading trips trips' w w') :
    List.Forall₂ TripPoint.Same trips trips' :=
  h.flags.imp fun _ _ h => h.1

end Asks

/-- The same trips have the same polling trips. -/
theorem PollTrips.of_same {trips trips' : List TripPoint} (h : PollTrips trips)
    (hsame : List.Forall₂ TripPoint.Same trips trips') : PollTrips trips' := by
  obtain ⟨hunique, hindependent⟩ := h
  induction hsame with
  | nil => exact ⟨.nil, by simp⟩
  | cons hfirst hrest ih =>
      rename_i t t' l l'
      obtain ⟨hunique', hindependent'⟩ := ih hunique.of_cons
        fun u hu => hindependent u (List.mem_cons_of_mem _ hu)
      refine ⟨List.pairwise_cons.mpr ⟨fun u' hu' htype htype' => ?_, hunique'⟩,
        fun u' hu' htype => ?_⟩
      · obtain ⟨u, hu, hsame⟩ := forall₂_mem_right hrest hu'
        rw [hfirst.sensorId, hsame.sensorId]
        exact List.rel_of_pairwise_cons hunique hu (hfirst.type ▸ htype) (hsame.type ▸ htype')
      · rcases List.mem_cons.mp hu' with rfl | hu'
        · rw [hfirst.depend]
          exact hindependent t List.mem_cons_self (hfirst.type ▸ htype)
        · exact hindependent' u' hu' htype

section Pass

variable [CdevClass δ] [StdSort]

omit [StdSort] in
/-- The polling trip of a sensor is evaluated when its sensor is read. -/
theorem evaluates_polling_iff {t : TripPoint} {id : Int} (temp : Nat) {w : World δ}
    (hdepend : t.type = .polling → t.depend = none) {sensor : Sensor}
    (hsensor : w.getSensor id = some sensor) (hdefault : id ≠ defaultSensorId) :
    t.evaluatesPolling id temp w = t.pollsFor id := by
  unfold TripPoint.evaluatesPolling TripPoint.pollsFor
  by_cases htype : t.type = .polling
  · have hno : t.dependencyFails temp w = false := by
      simp [TripPoint.dependencyFails, hdepend htype]
    by_cases hid : t.sensorId = id
    · simp [htype, hno, hid, TripPoint.otherSensor, hsensor, hdefault]
    · by_cases hdef : t.sensorId = defaultSensorId
      · simp [htype, hdef, Ne.symm hdefault]
      · simp [htype, TripPoint.otherSensor, hid, hdef]
  · simp [htype]

omit [StdSort] in
/-- The messages of a request are about the sensor. -/
theorem sensor_of_mem_request {s : Int} {r : Option Bool} {m : PollMessage}
    (h : m ∈ TripPoint.requestMessages s r) : m.sensorId = s := by
  cases r with
  | none => simp [TripPoint.requestMessages] at h
  | some on =>
      cases on with
      | true =>
          rcases List.mem_pair.mp h with rfl | rfl
          · rfl
          · rfl
      | false =>
          rcases List.mem_pair.mp h with rfl | rfl
          · rfl
          · rfl

/-- The check of one trip with the reading of a sensor. -/
theorem check_asks (s id : Int) (temp : Nat) (pref : Pref) {t : TripPoint} {w : World δ}
    (hdepend : t.type = .polling → t.depend = none) (hplace : w.InPlace) {sensor : Sensor}
    (hsensor : w.getSensor id = some sensor) (hdefault : id ≠ defaultSensorId) :
    Asks s (if id = s then some temp else none) [t] [(t.thdTripPointCheck id temp pref w).trip] w
      (t.thdTripPointCheck id temp pref w).world := by
  have hevaluates := evaluates_polling_iff temp hdepend hsensor hdefault
  have hsame := (t.check_acts id temp pref 0 w).1
  cases hpolls : t.pollsFor id with
  | true =>
      rw [hpolls] at hevaluates
      have htype : t.type = .polling ∧ t.sensorId = id := by
        simpa [TripPoint.pollsFor] using hpolls
      rw [TripPoint.check_evaluates_eq hevaluates pref] at hsame ⊢
      obtain ⟨htrip, -, hsensors, hmessages⟩ := t.check_polling_spec temp (htype.2 ▸ hsensor) hplace
      rw [htype.2] at hmessages
      refine ⟨.cons ⟨hsame, fun h => ?_⟩ .nil, hsensors, ?_, ?_⟩
      · have hid : id = s := by
          simp only [TripPoint.pollsFor, Bool.and_eq_true, decide_eq_true_eq] at h
          exact htype.2.symm.trans h.2
        rw [htrip, if_pos hid]
        rfl
      · rw [World.requested, hmessages, poll_on_request]
        by_cases hid : id = s
        · rw [if_pos hid, if_pos hid]
          simp [requestOf, ← hid, hpolls, World.requested]
        · have hno : t.pollsFor s = false := by simp [TripPoint.pollsFor, htype, hid]
          simp [requestOf, hid, hno, World.requested]
      · intro hin m hm
        rw [hmessages] at hm
        rcases List.mem_append.mp hm with hm | hm
        · exact hin m hm
        · have hrange := World.get_sensor_range hsensor
          have hlen := hplace.1
          rw [sensor_of_mem_request hm]
          omega
  | false =>
      rw [hpolls] at hevaluates
      obtain ⟨hon, -, hsensors, hmessages⟩ := t.check_other_spec id temp pref w hevaluates
      have hnone : t.pollsFor s = true → (if id = s then some temp else none) = none := by
        intro hs
        rw [if_neg]
        intro heq
        subst heq
        rw [hpolls] at hs
        cases hs
      have hkeep : Asks s (if id = s then some temp else none) [t] [t] w w := by
        refine .refl [t] w fun u hu => ?_
        rw [List.mem_singleton.mp hu]
        exact hnone
      refine ⟨.cons ⟨hsame, fun hs => ?_⟩ .nil, hsensors, ?_, ?_⟩
      · rw [hon, hnone hs]
        rfl
      · rw [← hkeep.requested, World.requested, World.requested, hmessages]
      · intro hin m hm
        rw [hmessages] at hm
        exact hin m hm

/-- Checking the trips of a zone with the reading of a sensor. -/
theorem check_trips_asks (s id : Int) (temp : Nat) (pref : Pref) {trips : List TripPoint}
    {w : World δ} (htrips : PollTrips trips) (hplace : w.InPlace) {sensor : Sensor}
    (hsensor : w.getSensor id = some sensor) :
    Asks s (if id = s then some temp else none) trips (Zone.checkTrips id temp pref trips w).1 w
      (Zone.checkTrips id temp pref trips w).2.2 := by
  have hdefault : id ≠ defaultSensorId := by
    have hrange := World.get_sensor_range hsensor
    have hlen := hplace.1
    simp only [defaultSensorId]
    omega
  induction trips generalizing w with
  | nil => exact .refl [] w (by simp)
  | cons t rest ih =>
      have hrest : PollTrips rest :=
        ⟨htrips.unique.of_cons, fun t' ht' => htrips.independent t' (List.mem_cons_of_mem _ ht')⟩
      have hdepend := htrips.independent t List.mem_cons_self
      have hfirst := check_asks s id temp pref hdepend hplace hsensor hdefault
      have hevaluates := evaluates_polling_iff temp hdepend hsensor hdefault
      -- no other trip polls for the same sensor
      have hothers : ∀ s, t.pollsFor s = true → ∀ u ∈ rest, u.pollsFor s = false := by
        intro s hs u hu
        simp only [TripPoint.pollsFor, Bool.and_eq_true, decide_eq_true_eq] at hs
        have hne := List.rel_of_pairwise_cons htrips.unique hu hs.1
        simp only [TripPoint.pollsFor, Bool.and_eq_false_iff, decide_eq_false_iff_not]
        by_cases htype : u.type = .polling
        · exact .inr fun hid => hne htype (hs.2.trans hid.symm)
        · exact .inl htype
      unfold Zone.checkTrips
      cases hreset : (t.thdTripPointCheck id temp pref w).reset with
      | true =>
        -- the trip has asked for a reset, so it is the polling trip of this sensor
        simp only [hreset, if_true]
        refine hfirst.cons (.refl rest _ ?_) (hothers s)
        intro u hu hs
        rw [if_neg]
        intro heq
        subst heq
        cases hpolls : t.pollsFor id with
        | true =>
            rw [hothers id hpolls u hu] at hs
            cases hs
        | false =>
            have hno := (t.check_other_spec id temp pref w (hevaluates.trans hpolls)).2.1
            rw [hno] at hreset
            cases hreset
      | false =>
        simp only [hreset, Bool.false_eq_true, if_false]
        have hplace' : (t.thdTripPointCheck id temp pref w).world.InPlace := by
          unfold World.InPlace World.getSensor
          rw [hfirst.sensors]
          exact hplace
        have hsensor' : (t.thdTripPointCheck id temp pref w).world.getSensor id = some sensor := by
          unfold World.getSensor
          rw [hfirst.sensors]
          exact hsensor
        exact hfirst.cons (ih hrest hplace' hsensor') (hothers s)

/-! ## A poll of a zone -/

/-- The maximum of the readings and a number. -/
def Zone.maxReading (read : Int → Nat) (sensors : List Sensor) (m : Nat) : Nat :=
  sensors.foldl (fun m s => if m < read s.index then read s.index else m) m

/-- The readings with which a poll checks the trips of a zone, each with the index of its sensor. -/
def Zone.calls (z : Zone) (read : Int → Nat) : List (Int × Nat) :=
  match z.sensorRel with
  | .independent => z.sensors.map fun s => (s.index, read s.index)
  | .corelated =>
    match z.sensors with
    | [] => []
    | s :: _ =>
      if Zone.maxReading read z.sensors 0 ≠ 0 then [(s.index, Zone.maxReading read z.sensors 0)]
      else []

/-- The reading that the polling trip of a sensor sees in a poll, if any. -/
def Zone.readingFor (z : Zone) (read : Int → Nat) (s : Int) : Option Nat :=
  (z.calls read).lookup s

/-- Check the trips with one reading after the other. -/
def Zone.checkCalls (pref : Pref) : List (Int × Nat) → Zone → World δ → Zone × World δ
  | [], z, w => (z, w)
  | (id, temp) :: rest, z, w =>
    let (z, w) := z.thermalZoneTempChange id temp pref w
    checkCalls pref rest z w

/-- The checks do not look at the temperature of the zone. -/
theorem check_calls_zone_temp (pref : Pref) (calls : List (Int × Nat)) (z : Zone) (n : Nat)
    (w : World δ) :
    Zone.checkCalls pref calls { z with zoneTemp := n } w =
      ({ (Zone.checkCalls pref calls z w).1 with zoneTemp := n },
        (Zone.checkCalls pref calls z w).2) := by
  induction calls generalizing z w with
  | nil => rfl
  | cons call rest ih =>
      obtain ⟨id, temp⟩ := call
      exact ih (z.thermalZoneTempChange id temp pref w).1 (z.thermalZoneTempChange id temp pref w).2

/-- The loop over independent sensors. -/
theorem read_sensors_calls (read : Int → Nat) (pref : Pref) (sensors : List Sensor) (z : Zone)
    (w : World δ) (hrel : z.sensorRel = .independent) :
    ∃ n, Zone.readSensors read pref sensors z w =
      ({ (Zone.checkCalls pref (sensors.map fun s => (s.index, read s.index)) z w).1 with
          zoneTemp := n },
        (Zone.checkCalls pref (sensors.map fun s => (s.index, read s.index)) z w).2) := by
  induction sensors generalizing z w with
  | nil => exact ⟨z.zoneTemp, rfl⟩
  | cons s rest ih =>
      unfold Zone.readSensors
      dsimp only
      rw [if_pos hrel]
      -- the zone after the first sensor, with the temperature seen so far
      obtain ⟨n, hn⟩ := ih
        { (z.thermalZoneTempChange s.index (read s.index) pref w).1 with
          zoneTemp := if z.zoneTemp < read s.index then read s.index else z.zoneTemp }
        (z.thermalZoneTempChange s.index (read s.index) pref w).2 hrel
      rw [check_calls_zone_temp] at hn
      exact ⟨n, hn⟩

/-- The checks change nothing of the zone but its trips. -/
theorem check_calls_zone (pref : Pref) (calls : List (Int × Nat)) (z : Zone) (w : World δ) :
    ∃ tripPoints, (Zone.checkCalls pref calls z w).1 = { z with tripPoints } := by
  induction calls generalizing z w with
  | nil => exact ⟨z.tripPoints, rfl⟩
  | cons call rest ih =>
      obtain ⟨id, temp⟩ := call
      exact ih (z.thermalZoneTempChange id temp pref w).1 (z.thermalZoneTempChange id temp pref w).2

/-- The loop over correlated sensors only finds their maximum. -/
theorem read_sensors_corelated (read : Int → Nat) (pref : Pref) (sensors : List Sensor) (z : Zone)
    (w : World δ) (hrel : z.sensorRel = .corelated) :
    Zone.readSensors read pref sensors z w =
      ({ z with zoneTemp := Zone.maxReading read sensors z.zoneTemp }, w) := by
  induction sensors generalizing z with
  | nil => rfl
  | cons s rest ih =>
      unfold Zone.readSensors
      dsimp only
      rw [if_neg (by rw [hrel]; exact SensorRelate.noConfusion)]
      dsimp only
      exact ih { z with zoneTemp := if z.zoneTemp < read s.index then read s.index else z.zoneTemp }
        hrel

/-- A poll of an active zone is its sequence of checks. -/
theorem read_zone_temp_calls (z : Zone) (read : Int → Nat) (pref : Pref) (w : World δ)
    (hactive : z.zoneActive = true) :
    ∃ n, z.readZoneTemp read pref w =
      ({ (Zone.checkCalls pref (z.calls read) z w).1 with zoneTemp := n },
        (Zone.checkCalls pref (z.calls read) z w).2) := by
  unfold Zone.readZoneTemp
  rw [if_pos hactive]
  have hkind : z.sensorRel = .independent ∨ z.sensorRel = .corelated := by
    cases z.sensorRel with
    | independent => exact .inl rfl
    | corelated => exact .inr rfl
  rcases hkind with hrel | hrel
  · obtain ⟨n, hn⟩ := read_sensors_calls read pref z.sensors { z with zoneTemp := 0 } w hrel
    have hcalls : z.calls read = z.sensors.map fun s => (s.index, read s.index) := by
      simp [Zone.calls, hrel]
    rw [check_calls_zone_temp] at hn
    rw [hn, hcalls]
    obtain ⟨trips, hzone⟩ := check_calls_zone pref
      (z.sensors.map fun s => (s.index, read s.index)) z w
    refine ⟨n, ?_⟩
    dsimp only
    rw [hzone]
    dsimp only
    split
    · rw [if_neg (by simp [hrel])]
    · rfl
  · rw [read_sensors_corelated read pref z.sensors { z with zoneTemp := 0 } w hrel]
    dsimp only
    have hempty : z.sensors = [] → z.calls read = [] := fun h => by simp [Zone.calls, hrel, h]
    have hcons : ∀ s rest, z.sensors = s :: rest → z.calls read =
        if Zone.maxReading read z.sensors 0 ≠ 0 then [(s.index, Zone.maxReading read z.sensors 0)]
        else [] := fun s rest h => by simp only [Zone.calls, hrel, h]
    split
    · rename_i s rest hsensors
      rw [hcons s rest hsensors]
      by_cases hzero : Zone.maxReading read z.sensors 0 = 0
      · rw [if_neg (by rw [hzero]; simp), if_neg (by rw [hzero]; simp)]
        exact ⟨_, rfl⟩
      · rw [if_pos ⟨hrel, hzero⟩, if_pos hzero]
        exact ⟨_, rfl⟩
    · rename_i hsensors
      rw [hempty hsensors]
      exact ⟨_, rfl⟩

/-- One reading of a zone. -/
theorem temp_change_asks (s id : Int) (temp : Nat) (pref : Pref) {z : Zone} {w : World δ}
    (htrips : PollTrips z.tripPoints) (hplace : w.InPlace) {sensor : Sensor}
    (hsensor : w.getSensor id = some sensor) :
    Asks s (if id = s then some temp else none) z.tripPoints
      (z.thermalZoneTempChange id temp pref w).1.tripPoints w
      (z.thermalZoneTempChange id temp pref w).2 := by
  have hcheck := check_trips_asks s id temp pref htrips hplace hsensor
  generalize (if id = s then some temp else none) = reading at hcheck ⊢
  unfold Zone.thermalZoneTempChange
  dsimp only
  split
  · have hquiet := Zone.zone_reset_quiet
      { z with tripPoints := (Zone.checkTrips id temp pref z.tripPoints w).1 } false
      (Zone.checkTrips id temp pref z.tripPoints w).2.2
    refine ⟨hcheck.flags, hquiet.sensors.trans hcheck.sensors, ?_, fun hin => ?_⟩
    · rw [World.requested, hquiet.messages_eq]
      exact hcheck.requested
    · rw [World.InRange, hquiet.messages_eq]
      exact hcheck.inRange hin
  · exact hcheck

/-- A sequence of readings of a zone, at most one for each sensor. -/
theorem check_calls_asks (s : Int) (pref : Pref) {calls : List (Int × Nat)} {z : Zone} {w : World δ}
    (htrips : PollTrips z.tripPoints) (hplace : w.InPlace)
    (hsensors : ∀ call ∈ calls, (w.getSensor call.1).isSome = true)
    (hnodup : (calls.map (·.1)).Nodup) :
    Asks s (calls.lookup s) z.tripPoints (Zone.checkCalls pref calls z w).1.tripPoints w
      (Zone.checkCalls pref calls z w).2 := by
  induction calls generalizing z w with
  | nil => exact .refl z.tripPoints w fun _ _ _ => rfl
  | cons call rest ih =>
      obtain ⟨id, temp⟩ := call
      obtain ⟨sensor, hsensor⟩ :=
        Option.isSome_iff_exists.mp (hsensors (id, temp) List.mem_cons_self)
      have hfirst := temp_change_asks s id temp pref htrips hplace hsensor
      have hget : ∀ i, (z.thermalZoneTempChange id temp pref w).2.getSensor i = w.getSensor i := by
        intro i
        unfold World.getSensor
        rw [hfirst.sensors]
      have hplace' : (z.thermalZoneTempChange id temp pref w).2.InPlace := by
        refine ⟨hfirst.sensors ▸ hplace.1, fun i s hs => ?_⟩
        rw [hget] at hs
        exact hplace.2 i s hs
      rw [List.map_cons, List.nodup_cons] at hnodup
      have hrest := ih (htrips.of_same hfirst.same) hplace'
        (fun call hcall => by rw [hget]; exact hsensors call (List.mem_cons_of_mem _ hcall))
        hnodup.2
      by_cases hid : id = s
      · -- the reading is for this sensor, and none of the others is
        have hnone : rest.lookup s = none := by
          rw [List.lookup_eq_none_iff]
          intro call hcall
          have hne : s ≠ call.1 := by
            intro heq
            exact hnodup.1 (List.mem_map.mpr ⟨call, hcall, heq.symm.trans hid.symm⟩)
          simpa using hne
        rw [if_pos hid] at hfirst
        rw [hnone] at hrest
        have hlookup : ((id, temp) :: rest).lookup s = some temp := by simp [hid]
        rw [hlookup]
        exact hfirst.trans_none hrest
      · rw [if_neg hid] at hfirst
        have hlookup : ((id, temp) :: rest).lookup s = rest.lookup s := by
          have hne : (s == id) = false := by simpa using Ne.symm hid
          simp [List.lookup_cons, hne]
        rw [hlookup]
        exact hfirst.none_trans hrest

end Pass

end Thermald
