import Thermald.Adaptive.Install

/-!
# The preference file

The preference of the user is a number in `thd_preference.conf`. `set_preference` truncates the
file, writes the new number, and then saves the old one in a second file. A call that fails behind
the first of these steps has already changed what the engine reads at its next `refresh`.
`rejected_iff` says when a rejected preference leaves no trace.
-/

namespace Thermald

namespace PreferenceFile

open Gddv (ascii)

def prefEnergyConserve : Int := 0

def prefPerformance : Int := 1

def prefDisabled : Int := 2

/-- `cthd_preference`. -/
structure Preference where
  preference : Int
  oldPreference : Int
  deriving DecidableEq

/-- The contents of `thd_preference.conf` and `thd_preference.conf.save`, where they exist. -/
structure Files where
  conf : Option Bytes
  save : Option Bytes
  deriving DecidableEq

/-- `ifs >> value`: without a character that is not white space nothing is assigned. -/
def extractInt (text : Bytes) (value : Int) : Int :=
  if text.all isSpace then value else readInt text

/-- What is read over a value. -/
def readPreference (conf : Option Bytes) (absent value : Int) : Int :=
  match conf with
  | none => absent
  | some text => extractInt text value

namespace Preference

/-- `refresh`. -/
def refresh (p : Preference) (files : Files) : Preference :=
  { p with preference := readPreference files.conf prefEnergyConserve p.preference }

/-- The constructor. -/
def new (files : Files) : Preference := refresh ⟨prefEnergyConserve, 0⟩ files

end Preference

/-- `string_pref_to_int`. -/
def stringPrefToInt (prefStr : String) : Int :=
  if prefStr = "PERFORMANCE" then prefPerformance
  else if prefStr = "ENERGY_CONSERVE" then prefEnergyConserve
  else if prefStr = "DISABLE" then prefDisabled
  else -1

/-- What `open` does with a file to be written, and how many bytes `write` takes, if it does not
fail. -/
structure WriteOutcome where
  opens : Bool
  written : Option Nat

/-- All bytes are written. -/
def WriteOutcome.Complete (o : WriteOutcome) (data : Bytes) : Prop :=
  o.opens = true ∧ ∃ n, o.written = some n ∧ data.length ≤ n

/-- The file is truncated and written, and the result is whether all bytes are there. -/
def writeFile (file : Option Bytes) (data : Bytes) (o : WriteOutcome) : Bool × Option Bytes :=
  if !o.opens then (false, file)
  else
    match o.written with
    | none => (false, some [])
    | some n => (decide (data.length ≤ n), some (data.take n))

/-- What happens to the two files, and whether the first one can be read again. -/
structure SetOutcome where
  conf : WriteOutcome
  save : WriteOutcome
  reread : Bool

/-- `os << n`. -/
def decimal (n : Int) : Bytes := ascii (toString n)

/-- `set_preference`. -/
def setPreference (p : Preference) (files : Files) (prefStr : String) (o : SetOutcome) :
    Bool × Preference × Files :=
  let pref := stringPrefToInt prefStr
  if pref < 0 then (false, p, files)
  else
    let (ok, conf) := writeFile files.conf (decimal pref) o.conf
    let files := { files with conf }
    if !ok then (false, p, files)
    else
      let p := { p with oldPreference := p.preference }
      let (ok, save) := writeFile files.save (decimal p.oldPreference) o.save
      let files := { files with save }
      if !ok then (false, p, files)
      else
        let conf := if o.reread then files.conf else none
        (true, { p with preference := readPreference conf prefPerformance p.preference }, files)

/-! ## Writing -/

section Writing

variable {file : Option Bytes} {data : Bytes} {o : WriteOutcome}

instance : Decidable (o.Complete data) :=
  decidable_of_iff (o.opens = true ∧ (o.written.any fun n => data.length ≤ n) = true) <| by
    unfold WriteOutcome.Complete
    cases o.written <;> simp

/-- A complete write leaves the data. -/
theorem write_file_complete (h : o.Complete data) : writeFile file data o = (true, some data) := by
  obtain ⟨hopens, n, hn, hlength⟩ := h
  simp [writeFile, hopens, hn, hlength]

/-- An incomplete one fails. The file is as it was if it cannot be opened, and otherwise has the
first bytes of the data. -/
theorem write_file_incomplete (h : ¬ o.Complete data) : writeFile file data o =
    (false, if o.opens then some (data.take (o.written.getD 0)) else file) := by
  unfold writeFile
  cases hopens : o.opens with
  | false => rfl
  | true =>
      cases hwritten : o.written with
      | none => rfl
      | some n =>
          have hshort : ¬ data.length ≤ n := fun hle => h ⟨hopens, n, hwritten, hle⟩
          simp [hshort]

/-- A single byte is written or not. -/
theorem write_file_single (hdata : data.length = 1) (h : ¬ o.Complete data) :
    writeFile file data o = (false, if o.opens then some [] else file) := by
  rw [write_file_incomplete h]
  cases hopens : o.opens with
  | false => rfl
  | true =>
      have hnone : o.written.getD 0 = 0 := by
        cases hwritten : o.written with
        | none => rfl
        | some n =>
            have hshort : ¬ data.length ≤ n := fun hle => h ⟨hopens, n, hwritten, hle⟩
            show n = 0
            omega
      rw [hnone]
      rfl

end Writing

/-! ## Reading back -/

/-- A valid preference is written as one digit, which is read as the preference. -/
theorem decimal_pref {prefStr : String} (h : ¬ stringPrefToInt prefStr < 0) :
    (decimal (stringPrefToInt prefStr)).length = 1 ∧
      ∀ value, extractInt (decimal (stringPrefToInt prefStr)) value = stringPrefToInt prefStr := by
  have hdigit : stringPrefToInt prefStr = prefEnergyConserve ∨
      stringPrefToInt prefStr = prefPerformance ∨ stringPrefToInt prefStr = prefDisabled := by
    unfold stringPrefToInt at h ⊢
    split_ifs at h ⊢
    · exact .inr (.inl rfl)
    · exact .inl rfl
    · exact .inr (.inr rfl)
    · exact absurd (by decide) h
  rcases hdigit with hdigit | hdigit | hdigit <;> rw [hdigit] <;>
    exact ⟨by decide, fun _ => (if_neg (by decide)).trans (by decide)⟩

/-! ## Rejected preferences -/

/-- What a reader of the file gets from a `refresh` after a rejected call is what it would have got
just before. -/
def RejectedLeavesNoTrace (p reader : Preference) (files : Files) (prefStr : String)
    (o : SetOutcome) : Prop :=
  (setPreference p files prefStr o).1 = false →
    (reader.refresh (setPreference p files prefStr o).2.2).preference =
      (reader.refresh files).preference

/-- The condition on the failures. Where the file has been emptied, the reader keeps what it has,
and this is what the file says. Where only the old preference cannot be saved, the new one is what
the file says already. -/
structure FailuresHarmless (p reader : Preference) (files : Files) (prefStr : String)
    (o : SetOutcome) : Prop where
  emptied : o.conf.opens = true → ¬ o.conf.Complete (decimal (stringPrefToInt prefStr)) →
    reader.preference = (reader.refresh files).preference
  unsaved : o.conf.Complete (decimal (stringPrefToInt prefStr)) →
    ¬ o.save.Complete (decimal p.preference) →
    stringPrefToInt prefStr = (reader.refresh files).preference

section Rejected

variable {p reader : Preference} {files : Files} {prefStr : String} {o : SetOutcome}

/-- An unknown preference changes nothing. -/
theorem set_preference_unknown (h : stringPrefToInt prefStr < 0) :
    setPreference p files prefStr o = (false, p, files) := by
  unfold setPreference
  rw [if_pos h]

/-- If the first file is not written the second one is not looked at. -/
theorem set_preference_unwritten (h : ¬ stringPrefToInt prefStr < 0)
    (hconf : ¬ o.conf.Complete (decimal (stringPrefToInt prefStr))) :
    setPreference p files prefStr o =
      (false, p, { files with conf := if o.conf.opens then some [] else files.conf }) := by
  unfold setPreference
  rw [if_neg h]
  simp only [write_file_single (decimal_pref h).1 hconf, Bool.not_false, if_true]

/-- If the old preference is not saved the new one is in the first file. -/
theorem set_preference_unsaved (h : ¬ stringPrefToInt prefStr < 0)
    (hconf : o.conf.Complete (decimal (stringPrefToInt prefStr)))
    (hsave : ¬ o.save.Complete (decimal p.preference)) :
    (setPreference p files prefStr o).1 = false ∧
      (setPreference p files prefStr o).2.2.conf = some (decimal (stringPrefToInt prefStr)) := by
  unfold setPreference
  rw [if_neg h]
  simp only [write_file_complete hconf, write_file_incomplete hsave]
  exact ⟨rfl, rfl⟩

/-- If both files are written the call succeeds, and the new preference is in the first one. -/
theorem set_preference_written (h : ¬ stringPrefToInt prefStr < 0)
    (hconf : o.conf.Complete (decimal (stringPrefToInt prefStr)))
    (hsave : o.save.Complete (decimal p.preference)) :
    (setPreference p files prefStr o).1 = true ∧ (setPreference p files prefStr o).2.2 =
      ⟨some (decimal (stringPrefToInt prefStr)), some (decimal p.preference)⟩ := by
  unfold setPreference
  rw [if_neg h]
  simp only [write_file_complete hconf, write_file_complete hsave]
  exact ⟨rfl, rfl⟩

/-- An accepted preference is what every reader gets, and what the object has if it can read the
file again. -/
theorem set_preference_accepted (h : (setPreference p files prefStr o).1 = true) :
    (reader.refresh (setPreference p files prefStr o).2.2).preference =
      stringPrefToInt prefStr := by
  by_cases hunknown : stringPrefToInt prefStr < 0
  · rw [set_preference_unknown hunknown] at h
    cases h
  by_cases hconf : o.conf.Complete (decimal (stringPrefToInt prefStr))
  · by_cases hsave : o.save.Complete (decimal p.preference)
    · rw [(set_preference_written hunknown hconf hsave).2]
      exact (decimal_pref hunknown).2 reader.preference
    · rw [(set_preference_unsaved hunknown hconf hsave).1] at h
      cases h
  · rw [set_preference_unwritten hunknown hconf] at h
    cases h

end Rejected

/-- A rejected preference leaves no trace exactly if the preference is unknown or the failures of
the call are harmless. -/
theorem rejected_iff (p reader : Preference) (files : Files) (prefStr : String) (o : SetOutcome) :
    RejectedLeavesNoTrace p reader files prefStr o ↔
      stringPrefToInt prefStr < 0 ∨ FailuresHarmless p reader files prefStr o := by
  unfold RejectedLeavesNoTrace
  by_cases hunknown : stringPrefToInt prefStr < 0
  · rw [set_preference_unknown hunknown]
    exact iff_of_true (fun _ => rfl) (.inl hunknown)
  simp only [hunknown, false_or]
  by_cases hconf : o.conf.Complete (decimal (stringPrefToInt prefStr))
  · by_cases hsave : o.save.Complete (decimal p.preference)
    · -- the call succeeds
      rw [(set_preference_written hunknown hconf hsave).1]
      exact iff_of_true (fun h => nomatch h)
        ⟨fun _ hnot => absurd hconf hnot, fun _ hnot => absurd hsave hnot⟩
    · -- the new preference is in the file
      obtain ⟨hfalse, hfile⟩ : (setPreference p files prefStr o).1 = false ∧
          (setPreference p files prefStr o).2.2.conf = some (decimal (stringPrefToInt prefStr)) :=
        set_preference_unsaved hunknown hconf hsave
      have hread : (reader.refresh (setPreference p files prefStr o).2.2).preference =
          stringPrefToInt prefStr := by
        unfold Preference.refresh
        rw [hfile]
        exact (decimal_pref hunknown).2 reader.preference
      rw [hfalse, hread]
      constructor
      · intro h
        exact ⟨fun _ hnot => absurd hconf hnot, fun _ _ => h rfl⟩
      · intro h _
        exact h.unsaved hconf hsave
  · rw [set_preference_unwritten hunknown hconf]
    cases hopens : o.conf.opens with
    | false =>
        -- the file is as it was
        refine iff_of_true (fun _ => rfl) ⟨fun hopen => ?_, fun hcomplete => absurd hcomplete hconf⟩
        rw [hopens] at hopen
        cases hopen
    | true =>
        -- the file is empty
        show (false = false → reader.preference = (reader.refresh files).preference) ↔ _
        constructor
        · intro h
          exact ⟨fun _ _ => h rfl, fun hcomplete => absurd hcomplete hconf⟩
        · intro h _
          exact h.emptied hopens hconf

/-- A performance preference in the file. -/
def performanceFiles : Files := ⟨some (ascii "1"), none⟩

/-- The new preference is written, and the old one cannot be saved. -/
def saveFails : SetOutcome := ⟨⟨true, some 1⟩, ⟨false, none⟩, true⟩

/-- An object and a reader of this file. -/
def performance : Preference := .new performanceFiles

/-- The daemon is disabled by a call that fails. -/
theorem disable_rejected_and_done :
    (setPreference performance performanceFiles "DISABLE" saveFails).1 = false ∧
      (performance.refresh performanceFiles).preference = prefPerformance ∧
      (performance.refresh
        (setPreference performance performanceFiles "DISABLE" saveFails).2.2).preference =
          prefDisabled ∧
      ¬ RejectedLeavesNoTrace performance performance performanceFiles "DISABLE" saveFails := by
  refine ⟨by decide, by decide, by decide, fun h => ?_⟩
  exact absurd (h (by decide)) (by decide)

end PreferenceFile

end Thermald
