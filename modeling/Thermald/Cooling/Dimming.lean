import Thermald.Lib.Run
import Thermald.Cooling.Device

/-!
# A backlight that is dimmed and restored

`set_curr_state` of `cthd_cdev_backlight` keeps the brightness from before the throttling, lowers
it by the state, and restores it in state 0. The brightness is only kept when the first state is
the increment of the device, and a brightness of zero is not told apart from none. Otherwise the
states are counted from zero: the brightness drops to its minimum, which may then be kept as if it
were the original one.

`dimming_restored_iff` says which sequences of states dim the backlight as they should.
-/

namespace Thermald

namespace Backlight

variable {d : Cdev Backlight} {b s : Int} {states : List Int}

/-- A call of `set_curr_state`. Its second argument is not used. -/
def setState (d : Cdev Backlight) (state : Int) : Cdev Backlight :=
  d.setCurrState state true

/-- A backlight whose brightness can be read and written, and whose values are those of the
device: brightness and states between 0 and `max_state`, and the minimum not below 0. -/
structure Works (d : Cdev Backlight) : Prop where
  readable : d.priv.readable = true
  writable : d.priv.writable = true
  floor : 0 ≤ d.priv.minBackLight ∧ d.priv.minBackLight ≤ intMax
  ref : 0 ≤ d.priv.refBacklightState ∧ d.priv.refBacklightState ≤ intMax
  brightness : 0 ≤ d.priv.brightness ∧ d.priv.brightness ≤ intMax

/-- The reference brightness after a call for the state `s`. -/
def refAfter (d : Cdev Backlight) (s : Int) : Int :=
  if d.priv.refBacklightState = 0 ∧ s = d.incDecVal then d.priv.brightness
  else d.priv.refBacklightState

/-- A call for a state other than 0 lowers the brightness from the reference, but not below the
minimum. -/
theorem Works.set_dims (h : Works d) (hs : 1 ≤ s ∧ s ≤ intMax) :
    (setState d s).priv =
      { d.priv with
        refBacklightState := refAfter d s
        brightness := max (refAfter d s - s) d.priv.minBackLight } := by
  have hzero : s ≠ 0 := by omega
  have hrange : -2147483648 ≤ refAfter d s - s ∧ refAfter d s - s ≤ intMax := by
    have hle : 0 ≤ refAfter d s ∧ refAfter d s ≤ intMax := by
      unfold refAfter
      split
      · exact h.brightness
      · exact h.ref
    unfold intMax at *
    omega
  have hval : (if int32 (refAfter d s - s) ≤ d.priv.minBackLight then d.priv.minBackLight
      else int32 (refAfter d s - s)) = max (refAfter d s - s) d.priv.minBackLight := by
    rw [int32_eq_self hrange.1 hrange.2]
    split <;> omega
  show (setCurrState d.toDevice s).2 = _
  unfold setCurrState
  simp only [hzero, if_false, h.readable, h.writable, Bool.true_eq_false, and_false, if_true]
  rw [← hval]
  rfl

/-- State 0 restores the reference, if there is one. -/
theorem Works.set_zero (h : Works d) :
    (setState d 0).priv.brightness =
      if d.priv.refBacklightState ≠ 0 then d.priv.refBacklightState else d.priv.brightness := by
  show (setCurrState d.toDevice 0).2.brightness = _
  unfold setCurrState
  simp only [if_true, h.writable]
  split <;> rfl

/-- The reference is a brightness of the device. -/
theorem Works.refAfter_range (h : Works d) : 0 ≤ refAfter d s ∧ refAfter d s ≤ intMax := by
  unfold refAfter
  split
  · exact h.brightness
  · exact h.ref

/-- The backlight works on. -/
theorem Works.set (h : Works d) (hs : 1 ≤ s ∧ s ≤ intMax) : Works (setState d s) := by
  have href := h.refAfter_range (s := s)
  have hfloor := h.floor
  have hpriv := h.set_dims hs
  constructor
  · rw [hpriv]
    exact h.readable
  · rw [hpriv]
    exact h.writable
  · rw [hpriv]
    exact h.floor
  · rw [hpriv]
    exact href
  · rw [hpriv]
    show 0 ≤ max (refAfter d s - s) d.priv.minBackLight ∧
      max (refAfter d s - s) d.priv.minBackLight ≤ intMax
    omega

/-! ## The two ways of dimming -/

/-- The brightness `b` from before the throttling is kept. -/
structure Captured (b : Int) (d : Cdev Backlight) : Prop where
  works : Works d
  ref : d.priv.refBacklightState = b

/-- The brightness is the minimum, and it is the reference unless there is none. -/
structure AtFloor (d : Cdev Backlight) : Prop where
  works : Works d
  ref : d.priv.refBacklightState = 0 ∨ d.priv.refBacklightState = d.priv.minBackLight
  brightness : d.priv.brightness = d.priv.minBackLight

/-- A kept brightness stays, and the states count from it. -/
theorem Captured.set (h : Captured b d) (hb : b ≠ 0) (hs : 1 ≤ s ∧ s ≤ intMax) :
    Captured b (setState d s) ∧
      (setState d s).priv.brightness = max (b - s) d.priv.minBackLight := by
  have href : refAfter d s = b := by
    have hne : ¬(d.priv.refBacklightState = 0 ∧ s = d.incDecVal) := by
      intro hzero
      exact hb (h.ref ▸ hzero.1)
    rw [refAfter, if_neg hne, h.ref]
  have hpriv := h.works.set_dims hs
  rw [href] at hpriv
  refine ⟨⟨h.works.set hs, ?_⟩, ?_⟩
  · rw [hpriv]
  · rw [hpriv]

/-- At the minimum no state changes the brightness. -/
theorem AtFloor.set (h : AtFloor d) (hs : 1 ≤ s ∧ s ≤ intMax) : AtFloor (setState d s) := by
  have hfloor := h.works.floor
  have href : refAfter d s = 0 ∨ refAfter d s = d.priv.minBackLight := by
    unfold refAfter
    split
    · exact .inr h.brightness
    · exact h.ref
  have hpriv := h.works.set_dims hs
  refine ⟨h.works.set hs, ?_, ?_⟩
  · rw [hpriv]
    exact href
  · rw [hpriv]
    show max (refAfter d s - s) d.priv.minBackLight = d.priv.minBackLight
    omega

/-- A first state other than the increment, or a brightness of zero, takes the backlight to its
minimum at once. -/
theorem Works.set_uncaptured (h : Works d) (href : d.priv.refBacklightState = 0)
    (hs : 1 ≤ s ∧ s ≤ intMax) (hmiss : s = d.incDecVal → d.priv.brightness = 0) :
    AtFloor (setState d s) := by
  have hfloor := h.floor
  have hafter : refAfter d s = 0 := by
    unfold refAfter
    split
    next hboth => exact hmiss hboth.2
    next => exact href
  have hpriv := h.set_dims hs
  rw [hafter] at hpriv
  refine ⟨h.set hs, .inl ?_, ?_⟩
  · rw [hpriv]
  · rw [hpriv]
    show max (0 - s) d.priv.minBackLight = d.priv.minBackLight
    omega

/-- The increment as the first state keeps the brightness. -/
theorem Works.set_captured (h : Works d) (href : d.priv.refBacklightState = 0)
    (hs : 1 ≤ s ∧ s ≤ intMax) (hinc : s = d.incDecVal) :
    Captured d.priv.brightness (setState d s) ∧
      (setState d s).priv.brightness = max (d.priv.brightness - s) d.priv.minBackLight := by
  have hafter : refAfter d s = d.priv.brightness := by
    rw [refAfter, if_pos ⟨href, hinc⟩]
  have hpriv := h.set_dims hs
  rw [hafter] at hpriv
  refine ⟨⟨h.set hs, ?_⟩, ?_⟩
  · rw [hpriv]
  · rw [hpriv]

/-! ## Runs -/

/-- The minimum is a constant of the device. -/
theorem Works.set_floor (h : Works d) (hs : 1 ≤ s ∧ s ≤ intMax) :
    (setState d s).priv.minBackLight = d.priv.minBackLight := by
  rw [h.set_dims hs]

/-- The brightness after each state of the sequence is the one that the state stands for, and
state 0 restores the brightness of the beginning. -/
def Dims (d : Cdev Backlight) (states : List Int) : Prop :=
  (∀ past s, past ++ [s] <+: states →
    (run setState d (past ++ [s])).priv.brightness =
      max (d.priv.brightness - s) d.priv.minBackLight) ∧
    (run setState d (states ++ [0])).priv.brightness = d.priv.brightness

/-- With the brightness kept, every state gives the brightness that it stands for. -/
theorem Captured.run (h : Captured b d) (hb : b ≠ 0)
    (hstates : ∀ s ∈ states, 1 ≤ s ∧ s ≤ intMax) :
    Captured b (run setState d states) ∧
      (run setState d states).priv.minBackLight = d.priv.minBackLight := by
  induction states generalizing d with
  | nil => exact ⟨h, rfl⟩
  | cons s rest ih =>
      have hs := hstates s List.mem_cons_self
      obtain ⟨hcaptured, hfloor⟩ := ih (h.set hb hs).1 fun s' hs' =>
        hstates s' (List.mem_cons_of_mem _ hs')
      exact ⟨hcaptured, hfloor.trans (h.works.set_floor hs)⟩

/-- At the minimum the brightness stays there. -/
theorem AtFloor.run (h : AtFloor d) (hstates : ∀ s ∈ states, 1 ≤ s ∧ s ≤ intMax) :
    AtFloor (run setState d states) ∧
      (run setState d states).priv.minBackLight = d.priv.minBackLight := by
  induction states generalizing d with
  | nil => exact ⟨h, rfl⟩
  | cons s rest ih =>
      have hs := hstates s List.mem_cons_self
      obtain ⟨hfloor, hsame⟩ := ih (h.set hs) fun s' hs' =>
        hstates s' (List.mem_cons_of_mem _ hs')
      exact ⟨hfloor, hsame.trans (h.works.set_floor hs)⟩

/-- At the minimum state 0 leaves the brightness there. -/
theorem AtFloor.set_zero (h : AtFloor d) :
    (setState d 0).priv.brightness = d.priv.minBackLight := by
  rw [h.works.set_zero]
  split
  next hne => exact h.ref.resolve_left hne
  next => exact h.brightness

/-- A sequence that starts with the increment dims the backlight as it should. -/
theorem Works.dims_captured (h : Works d) (href : d.priv.refBacklightState = 0)
    (hb : d.priv.brightness ≠ 0) {rest : List Int}
    (hstates : ∀ s ∈ d.incDecVal :: rest, 1 ≤ s ∧ s ≤ intMax) :
    Dims d (d.incDecVal :: rest) := by
  have hinc := hstates _ List.mem_cons_self
  have hrest : ∀ s ∈ rest, 1 ≤ s ∧ s ≤ intMax :=
    fun s hs => hstates s (List.mem_cons_of_mem _ hs)
  obtain ⟨hcaptured, hfirst⟩ := h.set_captured href hinc rfl
  have hfloor := h.set_floor hinc
  constructor
  · intro past s hpre
    cases past with
    | nil =>
        obtain ⟨rfl, -⟩ := List.cons_prefix_cons.mp hpre
        exact hfirst
    | cons s₀ past =>
        obtain ⟨rfl, hlater⟩ := List.cons_prefix_cons.mp hpre
        have hpast : ∀ s' ∈ past ++ [s], 1 ≤ s' ∧ s' ≤ intMax :=
          fun s' hs' => hrest s' (hlater.subset hs')
        obtain ⟨hrun, hsame⟩ := hcaptured.run hb fun s' hs' =>
          hpast s' (List.mem_append_left _ hs')
        have hset := (hrun.set hb (hpast s (by simp))).2
        rw [hsame, hfloor] at hset
        rw [List.cons_append, run_cons, run_append]
        exact hset
  · obtain ⟨hrun, -⟩ := hcaptured.run hb hrest
    have hzero := hrun.works.set_zero
    rw [hrun.ref, if_pos hb] at hzero
    rw [List.cons_append, run_cons, run_append]
    exact hzero

/-- At the minimum every sequence is as it should be. -/
theorem AtFloor.dims (h : AtFloor d) (hstates : ∀ s ∈ states, 1 ≤ s ∧ s ≤ intMax) :
    Dims d states := by
  constructor
  · intro past s hpre
    have hs := hstates s (hpre.subset (by simp))
    obtain ⟨hrun, hsame⟩ := h.run fun s' hs' => hstates s' (hpre.subset hs')
    rw [hrun.brightness, hsame, h.brightness]
    omega
  · obtain ⟨hrun, hsame⟩ := h.run hstates
    rw [run_append]
    exact hrun.set_zero.trans (hsame.trans h.brightness.symm)

/-- A backlight in state 0 is dimmed and restored as it should exactly if there is nothing to do, or
the first state is the increment and the brightness is not zero, or the brightness is the minimum
from the beginning. -/
theorem dimming_restored_iff (d : Cdev Backlight) (states : List Int) (h : Works d)
    (href : d.priv.refBacklightState = 0) (hmax : d.maxState ≤ intMax)
    (hstates : ∀ s ∈ states, 1 ≤ s ∧ s ≤ d.maxState) :
    Dims d states ↔
      states = [] ∨ (d.priv.brightness ≠ 0 ∧ states.head? = some d.incDecVal) ∨
        d.priv.brightness = d.priv.minBackLight := by
  have hrange : ∀ s ∈ states, 1 ≤ s ∧ s ≤ intMax :=
    fun s hs => ⟨(hstates s hs).1, (hstates s hs).2.trans hmax⟩
  constructor
  · intro hdims
    cases states with
    | nil => exact .inl rfl
    | cons s rest =>
        by_cases hfirst : d.priv.brightness ≠ 0 ∧ s = d.incDecVal
        · exact .inr (.inl ⟨hfirst.1, by rw [List.head?_cons, hfirst.2]⟩)
        · -- the brightness is lost, and the minimum is what comes back
          have hs := hrange s List.mem_cons_self
          have hfloor := h.set_uncaptured href hs fun hinc => by
            by_contra hne
            exact hfirst ⟨hne, hinc⟩
          obtain ⟨hrun, hsame⟩ := hfloor.run fun s' hs' => hrange s' (List.mem_cons_of_mem _ hs')
          have hrestored := hdims.2
          rw [List.cons_append, run_cons, run_append] at hrestored
          have hzero := hrun.set_zero
          rw [hsame, h.set_floor hs] at hzero
          exact .inr (.inr (hrestored.symm.trans hzero))
  · intro hcases
    obtain rfl | ⟨hb, hhead⟩ | hfloor := hcases
    · refine ⟨fun past s hpre => ?_, ?_⟩
      · exact absurd (List.prefix_nil.mp hpre) (by simp)
      · rw [List.nil_append, run_cons, run_nil, h.set_zero, if_neg (not_not.mpr href)]
    · cases states with
      | nil => simp at hhead
      | cons s rest =>
          obtain rfl := Option.some.inj hhead
          exact h.dims_captured href hb hrange
    · exact AtFloor.dims ⟨h, .inl href, hfloor⟩ hrange

/-- A backlight of 100 steps at brightness 80. -/
def brightBacklight : Cdev Backlight :=
  { Cdev.init 0
      { refBacklightState := 0, minBackLight := 10, brightness := 80, readable := true,
        writable := true } with
    maxState := 100
    incDecVal := 10 }

/-- Two steps of the increment dim and restore it. -/
theorem dimming_restored_steps : Dims brightBacklight [10, 20] :=
  (dimming_restored_iff brightBacklight [10, 20]
    ⟨rfl, rfl, by decide, by decide, by decide⟩ rfl (by decide) (by decide)).mpr
    (.inr (.inl ⟨by decide, rfl⟩))

/-- A target state as the first one turns it down to its minimum for good. -/
theorem direct_target_not_restored :
    ¬Dims brightBacklight [20] ∧
      (run setState brightBacklight [20]).priv.brightness = 10 ∧
      (run setState brightBacklight [20, 0]).priv.brightness = 10 := by
  refine ⟨fun hdims => ?_, by decide, by decide⟩
  exact absurd hdims.2 (by decide)

end Backlight

end Thermald
