import Mathlib.Data.List.Basic
import Thermald.Lib.MachineInt

/-!
# The frequencies of the cpufreq device

State `i` of the device limits the processors to entry `i` of a list of frequencies, so the list has
to be in descending order. `add_frequency` compares a new frequency with the first entry only and
puts it at the front or at the back: what is at least as high as everything before it goes to the
front and is in order there, and all the rest stays at the back in the order in which it came.
`cpufreqs_iff` says when this is a descending list with all frequencies that are allowed.
-/

namespace Thermald

/-! ## The device -/

/-- What `read` returns for an attribute of one processor, and what it leaves in the variable. -/
structure FreqReading where
  ret : Int
  freqInt : Nat

/-- The loop over `scaling_min_freq`, for the processors that have one. -/
def scalingMinFrequency (readings : List FreqReading) : Nat :=
  readings.foldl (fun frequency r =>
    if r.ret < 0 ∨ frequency = 0 ∨ r.freqInt < frequency then r.freqInt else frequency) 0

/-- The loop over `scaling_max_freq`. -/
def scalingMaxFrequency (readings : List FreqReading) : Nat :=
  readings.foldl (fun frequency r =>
    if r.ret < 0 ∨ frequency = 0 ∨ frequency < r.freqInt then r.freqInt else frequency) 0

/-- `cthd_cdev_cpufreq`. -/
structure CpufreqCdev where
  cpuStartIndex : Nat
  cpuEndIndex : Nat
  cpufreqs : List Int
  pstateActiveFreqIndex : Int
  cpuIndex : Int
  currState : Int
  maxState : Int

/-- `add_frequency` on the list. -/
def addFrequency (cpufreqs : List Int) (freqInt : Nat) : List Int :=
  match cpufreqs with
  | [] => [int32 freqInt]
  | first :: _ =>
      if int32 freqInt < first then cpufreqs ++ [int32 freqInt] else int32 freqInt :: cpufreqs

namespace CpufreqCdev

/-- `init`, from where the numbers of the processors and the available frequencies are read. -/
def init (d : CpufreqCdev) (mins maxs : List FreqReading) (frequencies : List Nat) : CpufreqCdev :=
  let cpufreqs := frequencies.foldl (fun cpufreqs freqInt =>
    if scalingMinFrequency mins ≤ freqInt ∧ freqInt ≤ scalingMaxFrequency maxs then
      addFrequency cpufreqs freqInt
    else cpufreqs) d.cpufreqs
  { d with
    cpufreqs
    maxState := if cpufreqs.isEmpty then d.maxState else cpufreqs.length - 1
    pstateActiveFreqIndex := 0 }

/-- `set_curr_state`, with the frequencies that it writes and the processors for which it does. -/
def setCurrState (d : CpufreqCdev) (present : Nat → Bool) (applyCpuOperation : Int → Bool)
    (state : Int) : CpufreqCdev × List (Nat × Int) :=
  if 0 ≤ state ∧ state < d.cpufreqs.length then
    let speed := d.cpufreqs.getD state.toNat 0
    let done := { d with pstateActiveFreqIndex := state, currState := state }
    if d.cpuIndex = -1 then
      let cpus := List.range' d.cpuStartIndex (d.cpuEndIndex + 1 - d.cpuStartIndex)
      (if cpus.isEmpty then d else done, (cpus.filter present).map fun i => (i, speed))
    else if applyCpuOperation d.cpuIndex then
      (done, if present d.cpuIndex.toNat then [(d.cpuIndex.toNat, speed)] else [])
    else (d, [])
  else (d, [])

/-- `get_max_state`. -/
def getMaxState (d : CpufreqCdev) : Int := d.cpufreqs.length - 1

end CpufreqCdev

/-! ## What the list is for -/

/-- The available frequencies between the scaling minimum and maximum. -/
def allowedFrequencies (mins maxs : List FreqReading) (frequencies : List Nat) : List Nat :=
  frequencies.filter fun freqInt =>
    scalingMinFrequency mins ≤ freqInt ∧ freqInt ≤ scalingMaxFrequency maxs

/-- The list is in descending order and holds the allowed frequencies, each as often as it is
available, and a higher state never selects a higher frequency. -/
structure CpufreqCdev.Lists (d : CpufreqCdev) (allowed : List Nat) : Prop where
  descending : d.cpufreqs.Pairwise fun f f' => f' ≤ f
  exact : d.cpufreqs.Perm (allowed.map fun freqInt : Nat => (freqInt : Int))
  monotone : ∀ present applyCpuOperation (state state' : Int), state ≤ state' →
    ∀ w ∈ (d.setCurrState present applyCpuOperation state).2,
      ∀ w' ∈ (d.setCurrState present applyCpuOperation state').2, w'.2 ≤ w.2

/-- The frequencies that are lower than one before them, where the highest one so far is given. -/
def passedOver : Nat → List Nat → List Nat
  | _, [] => []
  | highest, f :: rest =>
      if f < highest then f :: passedOver highest rest else passedOver f rest

/-- The condition on the allowed frequencies: each fits in an `int`, those that are lower than one
before them come in descending order, and none of these is higher than the first one. -/
def InsertsInOrder (allowed : List Nat) : Prop :=
  (∀ f ∈ allowed, (f : Int) ≤ intMax) ∧
    ∀ first ∈ allowed.head?,
      (first :: passedOver first allowed.tail).Pairwise fun f f' => f' ≤ f

instance (allowed : List Nat) : Decidable (InsertsInOrder allowed) :=
  inferInstanceAs (Decidable (_ ∧ _))

/-! ## The loop -/

/-- The frequencies that are at least as high as all before them. -/
def risen : Nat → List Nat → List Nat
  | _, [] => []
  | highest, f :: rest => if f < highest then risen highest rest else f :: risen f rest

/-- Each frequency is on one of the two sides. -/
theorem risen_passed_over_perm (highest : Nat) (rest : List Nat) :
    (risen highest rest ++ passedOver highest rest).Perm rest := by
  induction rest generalizing highest with
  | nil => exact .refl _
  | cons f rest ih =>
      unfold risen passedOver
      split
      · exact List.perm_middle.trans ((ih highest).cons f)
      · exact (ih f).cons f

/-- The frequencies that have risen are in ascending order. -/
theorem risen_ascending (highest : Nat) (rest : List Nat) :
    (highest :: risen highest rest).Pairwise fun f f' => f ≤ f' := by
  induction rest generalizing highest with
  | nil => exact List.pairwise_singleton _ _
  | cons f rest ih =>
      unfold risen
      split
      · exact ih highest
      · rename_i hle
        have hrest := ih f
        rw [List.pairwise_cons] at hrest ⊢
        refine ⟨fun f' hf' => ?_, List.pairwise_cons.mpr hrest⟩
        rcases List.mem_cons.mp hf' with rfl | hf'
        · omega
        · have hle' := hrest.1 f' hf'
          omega

/-- A frequency that fits in an `int` is compared with the first entry. -/
theorem add_frequency_cons {f : Nat} (hfit : (f : Int) ≤ intMax) (first : Nat) (back : List Int) :
    addFrequency ((first : Int) :: back) f =
      if f < first then (first : Int) :: (back ++ [(f : Int)]) else (f : Int) :: first :: back := by
  have hint : int32 f = f := int32_eq_self (by omega) hfit
  unfold addFrequency
  dsimp only
  rw [hint]
  split
  · rw [if_pos (by omega), List.cons_append]
  · rw [if_neg (by omega)]

/-- The loop of `init` puts the frequencies that have risen at the front and all others at the
back. -/
theorem foldl_add_frequency (first : Nat) (back : List Int) (rest : List Nat)
    (hfit : ∀ f ∈ rest, (f : Int) ≤ intMax) :
    rest.foldl addFrequency ((first : Int) :: back) =
      ((risen first rest).map fun f : Nat => (f : Int)).reverse ++ (first : Int) :: back ++
        (passedOver first rest).map fun f : Nat => (f : Int) := by
  induction rest generalizing first back with
  | nil => simp [risen, passedOver]
  | cons f rest ih =>
      obtain ⟨hf, hrest⟩ := List.forall_mem_cons.mp hfit
      rw [List.foldl_cons, add_frequency_cons hf]
      unfold risen passedOver
      split
      · rw [ih first (back ++ [(f : Int)]) hrest]
        simp
      · rw [ih f (first :: back) hrest]
        simp

/-- The list that the loop makes from the empty one. -/
theorem foldl_add_frequency_nil {first : Nat} {rest : List Nat}
    (hfit : ∀ f ∈ first :: rest, (f : Int) ≤ intMax) :
    (first :: rest).foldl addFrequency [] =
      (((risen first rest).reverse ++ first :: passedOver first rest).map
        fun f : Nat => (f : Int)) := by
  obtain ⟨hfirst, hrest⟩ := List.forall_mem_cons.mp hfit
  have hint : int32 first = first := int32_eq_self (by omega) hfirst
  show rest.foldl addFrequency [int32 first] = _
  rw [hint, foldl_add_frequency first [] rest hrest]
  simp

/-- It is in descending order exactly if this is true of the first frequency and those that are
lower than one before them. -/
theorem descending_iff (first : Nat) (rest : List Nat) :
    (((risen first rest).reverse ++ first :: passedOver first rest).map
        fun f : Nat => (f : Int)).Pairwise (fun f f' => f' ≤ f) ↔
      (first :: passedOver first rest).Pairwise fun f f' => f' ≤ f := by
  rw [List.pairwise_map]
  simp only [Int.ofNat_le]
  rw [List.pairwise_append]
  refine ⟨fun h => h.2.1, fun h => ⟨?_, h, fun f hf f' hf' => ?_⟩⟩
  · rw [List.pairwise_reverse]
    exact (List.pairwise_cons.mp (risen_ascending first rest)).2
  · -- what has risen is not below the first one, and that is not below the others
    have hlow := (List.pairwise_cons.mp (risen_ascending first rest)).1 f (List.mem_reverse.mp hf)
    rcases List.mem_cons.mp hf' with rfl | hf'
    · exact hlow
    · exact Nat.le_trans ((List.pairwise_cons.mp h).1 f' hf') hlow

/-! ## The device -/

namespace CpufreqCdev

variable {d : CpufreqCdev} {mins maxs : List FreqReading} {frequencies allowed : List Nat}

/-- `init` adds the allowed frequencies. -/
theorem init_cpufreqs (d : CpufreqCdev) (mins maxs : List FreqReading) (frequencies : List Nat) :
    (d.init mins maxs frequencies).cpufreqs =
      (allowedFrequencies mins maxs frequencies).foldl addFrequency d.cpufreqs := by
  unfold allowedFrequencies
  rw [List.foldl_filter]
  simp only [decide_eq_true_eq]
  rfl

/-- What is written for a state is the entry of the list. -/
theorem set_curr_state_writes {present : Nat → Bool} {applyCpuOperation : Int → Bool} {state : Int}
    {w : Nat × Int} (hw : w ∈ (d.setCurrState present applyCpuOperation state).2) :
    0 ≤ state ∧ d.cpufreqs[state.toNat]? = some w.2 := by
  unfold setCurrState at hw
  split at hw
  · rename_i hstate
    refine ⟨hstate.1, ?_⟩
    have hindex : state.toNat < d.cpufreqs.length := by omega
    have hspeed : w.2 = d.cpufreqs.getD state.toNat 0 := by
      dsimp only at hw
      split at hw
      · obtain ⟨i, -, rfl⟩ := List.mem_map.mp hw
        rfl
      · split at hw
        · dsimp only at hw
          split at hw
          · rw [List.mem_singleton.mp hw]
          · cases hw
        · cases hw
    rw [hspeed, List.getD_eq_getElem?_getD, List.getElem?_eq_getElem hindex]
    rfl
  · cases hw

/-- In a descending list a higher state never selects a higher frequency. -/
theorem monotone_of_descending (h : d.cpufreqs.Pairwise fun f f' => f' ≤ f)
    (present : Nat → Bool) (applyCpuOperation : Int → Bool) (state state' : Int)
    (hle : state ≤ state') :
    ∀ w ∈ (d.setCurrState present applyCpuOperation state).2,
      ∀ w' ∈ (d.setCurrState present applyCpuOperation state').2, w'.2 ≤ w.2 := by
  intro w hw w' hw'
  obtain ⟨hpos, hget⟩ := set_curr_state_writes hw
  obtain ⟨hpos', hget'⟩ := set_curr_state_writes hw'
  obtain rfl | hlt : state = state' ∨ state < state' := by omega
  · rw [hget, Option.some.injEq] at hget'
    exact Int.le_of_eq hget'.symm
  · obtain ⟨hi, heq⟩ := List.getElem?_eq_some_iff.mp hget
    obtain ⟨hi', heq'⟩ := List.getElem?_eq_some_iff.mp hget'
    rw [← heq, ← heq']
    exact List.pairwise_iff_getElem.mp h _ _ hi hi' (by omega)

/-- The entries are values of an `int`. -/
theorem foldl_add_frequency_le {cpufreqs : List Int} (h : ∀ f ∈ cpufreqs, f ≤ intMax)
    (allowed : List Nat) : ∀ f ∈ allowed.foldl addFrequency cpufreqs, f ≤ intMax := by
  induction allowed generalizing cpufreqs with
  | nil => exact h
  | cons freqInt rest ih =>
      refine ih fun f hf => ?_
      have hint := (int32_bounds freqInt).2
      unfold addFrequency at hf
      split at hf
      · rw [List.mem_singleton.mp hf]
        exact hint
      · rename_i first back
        split at hf
        · rcases List.mem_append.mp hf with hf | hf
          · exact h f hf
          · rw [List.mem_singleton.mp hf]
            exact hint
        · rcases List.mem_cons.mp hf with hf | hf
          · rw [hf]
            exact hint
          · exact h f hf

/-- The list that `init` makes is in descending order with exactly the allowed frequencies, so that
a higher state never selects a higher frequency, if and only if they can be inserted in order. -/
theorem cpufreqs_iff (d : CpufreqCdev) (hnew : d.cpufreqs = []) (mins maxs : List FreqReading)
    (frequencies : List Nat) :
    (d.init mins maxs frequencies).Lists (allowedFrequencies mins maxs frequencies) ↔
      InsertsInOrder (allowedFrequencies mins maxs frequencies) := by
  have hlist := d.init_cpufreqs mins maxs frequencies
  rw [hnew] at hlist
  generalize d.init mins maxs frequencies = d' at hlist
  generalize allowedFrequencies mins maxs frequencies = allowed at hlist
  -- both sides say that the frequencies fit in an `int`
  have hfit : d'.Lists allowed → ∀ f ∈ allowed, (f : Int) ≤ intMax := by
    intro h f hf
    have hmem : (f : Int) ∈ d'.cpufreqs := h.exact.mem_iff.mpr (List.mem_map_of_mem hf)
    rw [hlist] at hmem
    exact foldl_add_frequency_le (fun x hx => absurd hx List.not_mem_nil) allowed _ hmem
  cases allowed with
  | nil =>
      have hnil : d'.cpufreqs = [] := hlist
      refine iff_of_true ⟨?_, ?_, ?_⟩ ⟨by simp, by simp⟩
      · simp [hnil]
      · simp [hnil]
      · exact monotone_of_descending (by simp [hnil])
  | cons first rest =>
      have hsplit (hall : ∀ f ∈ first :: rest, (f : Int) ≤ intMax) :=
        hlist.trans (foldl_add_frequency_nil hall)
      constructor
      · intro h
        refine ⟨hfit h, fun f hf => ?_⟩
        obtain rfl : first = f := Option.some.inj hf
        have hdescending := h.descending
        rw [hsplit (hfit h)] at hdescending
        exact (descending_iff first rest).mp hdescending
      · rintro ⟨hall, horder⟩
        have hdescending : d'.cpufreqs.Pairwise fun f f' => f' ≤ f := by
          rw [hsplit hall]
          exact (descending_iff first rest).mpr (horder first rfl)
        refine ⟨hdescending, ?_, monotone_of_descending hdescending⟩
        rw [hsplit hall]
        refine List.Perm.map _ (List.perm_middle.trans (.cons first ?_))
        exact ((List.reverse_perm _).append_right _).trans (risen_passed_over_perm first rest)

/-! ## An example -/

/-- The device of one processor, before `init`. -/
def oneCpu : CpufreqCdev where
  cpuStartIndex := 0
  cpuEndIndex := 0
  cpufreqs := []
  pstateActiveFreqIndex := 0
  cpuIndex := -1
  currState := 0
  maxState := 0

/-- The lower limit. -/
def oneGhz : List FreqReading := [⟨8, 1000000⟩]

/-- The upper one. -/
def threeGhz : List FreqReading := [⟨8, 3000000⟩]

/-- 2, 3 and 1 GHz are inserted in order. -/
theorem middle_first_listed :
    (oneCpu.init oneGhz threeGhz [2000000, 3000000, 1000000]).Lists
      (allowedFrequencies oneGhz threeGhz [2000000, 3000000, 1000000]) :=
  (cpufreqs_iff oneCpu rfl oneGhz threeGhz _).mpr (by decide)

/-- 3, 1 and 2 GHz stay as they are. -/
theorem lowest_between_not_listed :
    oneCpu.cpufreqs = [] ∧ ¬ (oneCpu.init oneGhz threeGhz [3000000, 1000000, 2000000]).Lists
      (allowedFrequencies oneGhz threeGhz [3000000, 1000000, 2000000]) := by
  refine ⟨rfl, fun h => ?_⟩
  have hdescending := h.descending
  revert hdescending
  decide

end CpufreqCdev

end Thermald
