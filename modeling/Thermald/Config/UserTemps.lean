import Thermald.Config.Realised
import Thermald.Firmware.PassiveRoundTrip

/-!
# Temperatures set by the user

A temperature that the user sets for a zone goes into a file, one for each type of zone, and takes
effect when the zone is updated the next time, after the daemon has been started again. The passive
temperature and the maximum have files of their own, and only the first is ever read. The file of a
passive temperature replaces the temperature of the last passive trip that the zone has read, which
need not be the highest one.
-/

namespace Thermald

/-- The files in the run directory of the daemon, and the types of the zones. -/
structure UserTemps where
  files : String → Option Bytes
  zones : List String

/-- A request of the user, for a file that can be opened or not, or a start of the daemon that finds
zones of these types. -/
inductive TempOp where
  | setPsvTemp (name : String) (temp : Nat) (opens : Bool)
  | setMaxTemp (name : String) (temp : Nat) (opens : Bool)
  | restart (zones : List String)

namespace UserTemps

-- the directory of the files
variable (runDir : String)

/-- The file of a passive temperature. -/
def psvFile (typeStr : String) : String :=
  runDir ++ "/" ++ "thd_user_psv_temp." ++ typeStr ++ "." ++ "conf"

/-- The file of a maximum. -/
def maxFile (typeStr : String) : String :=
  runDir ++ "/" ++ "thd_user_set_max." ++ typeStr ++ "." ++ "conf"

/-- What `update_psv_temperature` and `update_max_temperature` do with their files. -/
def writeTemp (s : UserTemps) (file : String) (temp : Int) (opens : Bool) : Int × UserTemps :=
  if opens then
    (0, { s with files := Function.update s.files file (some (Gddv.ascii (toString temp))) })
  else (thdError, s)

/-- `user_set_psv_temp`. -/
def userSetPsvTemp (s : UserTemps) (name : String) (temp : Nat) (opens : Bool) : Int × UserTemps :=
  match s.zones.find? fun z => z = name with
  | none => (thdError, s)
  | some typeStr => s.writeTemp (psvFile runDir typeStr) (int32 temp) opens

/-- `user_set_max_temp`. -/
def userSetMaxTemp (s : UserTemps) (name : String) (temp : Nat) (opens : Bool) : Int × UserTemps :=
  match s.zones.find? fun z => z = name with
  | none => (thdError, s)
  | some typeStr => s.writeTemp (maxFile runDir typeStr) (int32 temp) opens

/-- `read_user_set_psv_temp`. A temperature below one degree is none. -/
def readUserSetPsvTemp (s : UserTemps) (typeStr : String) : Int :=
  match s.files (psvFile runDir typeStr) with
  | none => -1
  | some text => if readInt text < 1000 then -1 else readInt text

/-- An operation. -/
def step (s : UserTemps) : TempOp → UserTemps
  | .setPsvTemp name temp opens => (userSetPsvTemp runDir s name temp opens).2
  | .setMaxTemp name temp opens => (userSetMaxTemp runDir s name temp opens).2
  | .restart zones => { s with zones }

/-- The passive temperature that an operation has set for zones of a type. -/
def accepted (typeStr : String) (s : UserTemps) : TempOp → List Nat
  | .setPsvTemp name temp opens =>
      if name = typeStr ∧ name ∈ s.zones ∧ opens = true then [temp] else []
  | _ => []

/-! ## Files -/

/-- Each type has a file of its own. -/
theorem psv_file_inj {typeStr typeStr' : String} :
    psvFile runDir typeStr = psvFile runDir typeStr' ↔ typeStr = typeStr' := by
  refine ⟨fun h => ?_, fun h => by rw [h]⟩
  have hlist := congrArg String.toList h
  exact String.toList_inj.mp (by simpa [psvFile] using hlist)

/-- A maximum goes into another file. -/
theorem psv_file_ne_max (typeStr typeStr' : String) :
    psvFile runDir typeStr ≠ maxFile runDir typeStr' := by
  intro h
  have hlist := congrArg String.toList h
  simp [psvFile, maxFile] at hlist

/-- A number is read from a file as it was written. -/
theorem read_int_written (n : Int) : readInt (Gddv.ascii (toString (int32 n))) = int32 n := by
  obtain ⟨hlo, hhi⟩ := int32_bounds n
  unfold readInt
  rw [Firmware.scan_int_integer, Option.getD_some, min_eq_right hhi, max_eq_right hlo]

/-- The zone of a name is the one of this type. -/
theorem find_zone (s : UserTemps) (name : String) :
    (s.zones.find? fun z => z = name) = if name ∈ s.zones then some name else none := by
  split
  · rename_i hmem
    cases hfind : s.zones.find? fun z => z = name with
    | none => simpa using List.find?_eq_none.mp hfind name hmem
    | some z =>
        have hname := List.find?_some hfind
        rw [of_decide_eq_true hname]
  · rename_i hmem
    refine List.find?_eq_none.mpr fun z hz => ?_
    rw [decide_eq_true_eq]
    intro heq
    exact hmem (heq ▸ hz)

/-- The contents of a file with a temperature. -/
def written (temp : Nat) : Option Bytes := some (Gddv.ascii (toString (int32 temp)))

/-- A file after a request for some file. -/
theorem write_temp_file (s : UserTemps) (file file' : String) (temp : Int) (opens : Bool) :
    (s.writeTemp file temp opens).2.files file' =
      if file' = file ∧ opens = true then some (Gddv.ascii (toString temp)) else s.files file' := by
  unfold writeTemp
  cases opens with
  | false => simp
  | true => simp [Function.update_apply]

/-- What an operation leaves in the file of a type. -/
theorem step_file (s : UserTemps) (op : TempOp) (typeStr : String) :
    (step runDir s op).files (psvFile runDir typeStr) =
      run (fun _ temp => written temp) (s.files (psvFile runDir typeStr))
        (accepted typeStr s op) := by
  cases op with
  | setPsvTemp name temp opens =>
      show (userSetPsvTemp runDir s name temp opens).2.files _ = run _ _
        (if name = typeStr ∧ name ∈ s.zones ∧ opens = true then [temp] else [])
      unfold userSetPsvTemp
      rw [find_zone]
      by_cases hmem : name ∈ s.zones
      · rw [if_pos hmem]
        dsimp only
        simp only [write_temp_file, psv_file_inj]
        by_cases hname : typeStr = name
        · subst hname
          cases opens <;> simp [hmem, written]
        · simp [hname, Ne.symm hname]
      · rw [if_neg hmem]
        simp [hmem]
  | setMaxTemp name temp opens =>
      show (userSetMaxTemp runDir s name temp opens).2.files _ = s.files _
      unfold userSetMaxTemp
      split
      · rfl
      · rw [write_temp_file, if_neg fun h => psv_file_ne_max runDir _ _ h.1]
  | restart zones => rfl

/-- The file of a type after a run. -/
theorem run_file (s : UserTemps) (ops : List TempOp) (typeStr : String) :
    (run (step runDir) s ops).files (psvFile runDir typeStr) =
      run (fun _ temp => written temp) (s.files (psvFile runDir typeStr))
        (outputs (step runDir) (accepted typeStr) s ops) := by
  let part (s : UserTemps) : Option Bytes := s.files (psvFile runDir typeStr)
  have hstep (s : UserTemps) (op : TempOp) : part (step runDir s op) =
      run (fun _ temp => written temp) (part s) (accepted typeStr s op) :=
    step_file runDir s op typeStr
  exact part_run hstep

/-- The passive temperature of a type after a run is the one that was set last. -/
theorem read_after (s : UserTemps) (ops : List TempOp) (typeStr : String) {temp : Nat}
    (hlast : (outputs (step runDir) (accepted typeStr) s ops).getLast? = some temp) :
    readUserSetPsvTemp runDir (run (step runDir) s ops) typeStr =
      if int32 temp < 1000 then -1 else int32 temp := by
  have hfile : (run (step runDir) s ops).files (psvFile runDir typeStr) =
      written temp := by
    rw [run_file, run_overwrite, hlast]
    rfl
  unfold readUserSetPsvTemp
  rw [hfile]
  show (if readInt (Gddv.ascii (toString (int32 temp))) < 1000 then (-1 : Int) else _) = _
  rw [read_int_written]

end UserTemps

/-! ## The zone -/

section Zone

variable {δ : Type} [StdSort]

/-- The last trip of a type gets the temperature. -/
theorem highest_ordinary (z : Zone) {trip : TripPoint} {pre post : List TripPoint} {t : TripPoint}
    (hz : z.tripPoints = pre ++ t :: post) (ht : t.type = trip.type)
    (hpost : ∀ t' ∈ post, t'.type ≠ trip.type) (w : World δ) :
    (z.updateHighestTripTemp trip w).1.ordinary.Perm
      (Zone.ordinary { z with
        tripPoints := pre ++ { t with temp := trip.temp, hyst := trip.hyst } :: post }) := by
  have hreverse : z.tripPoints.reverse = post.reverse ++ t :: pre.reverse := by
    rw [hz]
    simp
  have hfind : (z.tripPoints.reverse.findIdx? fun t => t.type = trip.type) =
      some post.length := by
    rw [hreverse, List.findIdx?_append, List.findIdx?_eq_none_iff.mpr, List.findIdx?_cons]
    · simp [ht]
    · intro t' ht'
      exact decide_eq_false (hpost t' (List.mem_reverse.mp ht'))
  have hmodify (f : TripPoint → TripPoint) :
      ((post.reverse ++ t :: pre.reverse).modify post.length f).reverse = pre ++ f t :: post := by
    rw [List.modify_eq_take_cons_drop (by simp)]
    simp [List.take_left', List.drop_append]
  unfold Zone.updateHighestTripTemp
  rw [if_neg (by simp [hz]), hfind, hreverse]
  refine (Zone.sort_ordinary _ w).trans ?_
  dsimp only
  rw [hmodify]

/-- The end of an update with the passive temperature that has been read. -/
theorem finish_ordinary (z : Zone) {pre post : List TripPoint} {t : TripPoint}
    (hz : z.tripPoints = pre ++ t :: post) (ht : t.type = .passive)
    (hpost : ∀ t' ∈ post, t'.type ≠ .passive) (w : World δ) {v : Int} (hpos : 0 < v) :
    (z.finishUpdate v w).1.ordinary.Perm
      (Zone.ordinary { z with
        tripPoints := pre ++ { t with temp := v.toNat, hyst := 0 } :: post }) := by
  unfold Zone.finishUpdate
  rw [if_pos hpos]
  refine (Zone.sort_ordinary _ _).trans ?_
  show (z.updateHighestTripTemp (.init 0 .passive v.toNat 0 z.index defaultSensorId .parallel)
    w).1.ordinary.Perm _
  exact highest_ordinary z hz ht hpost w

/-- The temperature that the user has set last counts. Whatever requests and starts come, the
next update of a zone gives the last passive temperature that was accepted for its type to the last
passive trip that has been read, with no hysteresis, if it is a degree or more, and changes nothing
else. -/
theorem user_temperature_survives (runDir : String) (s : UserTemps) (ops : List TempOp) (z : Zone)
    {temp : Nat}
    (hlast : (outputs (UserTemps.step runDir) (UserTemps.accepted z.typeStr) s ops).getLast? =
      some temp)
    {pre post : List TripPoint} {t : TripPoint} (hz : z.tripPoints = pre ++ t :: post)
    (ht : t.type = .passive) (hpost : ∀ t' ∈ post, t'.type ≠ .passive) (w : World δ) :
    (z.finishUpdate
        ((run (UserTemps.step runDir) s ops).readUserSetPsvTemp runDir z.typeStr)
        w).1.ordinary.Perm
      (if 1000 ≤ int32 temp then
        Zone.ordinary { z with
          tripPoints := pre ++ { t with temp := (int32 temp).toNat, hyst := 0 } :: post }
      else z.ordinary) := by
  rw [UserTemps.read_after runDir s ops z.typeStr hlast]
  split
  · rename_i hlow
    rw [if_neg (Int.not_le.mpr hlow)]
    exact Zone.sort_ordinary z w
  · rename_i htemp
    rw [if_pos (Int.not_lt.mp htemp)]
    exact finish_ordinary z hz ht hpost w (by omega)

end Zone

/-- A zone with two passive trips, as `read_trip_points` leaves it. -/
def twoPassive : Zone :=
  { Zone.init 0 "TSKN" .independent with
    tripPoints :=
      [.init 0 .critical 95000 0 0 0 .parallel, .init 1 .passive 60000 2000 0 0 .parallel,
        .init 2 .passive 50000 2000 0 0 .parallel] }

/-- A world without sensors and devices. -/
def emptyWorld : World Unit where
  cdevs := fun k => Cdev.init k ()
  cdevCount := 0
  sensors := []
  pollIntervalSec := 0
  ignoreCritical := false
  clock := fun n => n
  ticks := 0
  events := []

/-- Two requests for a zone, one for another type and a maximum, with a start between them: the
second request counts, and the lower passive trip gets its temperature although it is higher than
the one of the other trip. -/
theorem lower_trip_raised :
    letI := StdSort.insertion
    (twoPassive.finishUpdate
        ((run (UserTemps.step "/run/thermald") ⟨fun _ => none, ["TSKN", "cpu"]⟩
          [.setPsvTemp "TSKN" 55000 true, .restart ["cpu", "TSKN"], .setPsvTemp "TSKN" 70000 true,
            .setPsvTemp "cpu" 80000 true, .setMaxTemp "TSKN" 90000 true,
            .setPsvTemp "TSKN" 65000 false]).readUserSetPsvTemp "/run/thermald" "TSKN")
        emptyWorld).1.ordinary.Perm
      [.init 0 .critical 95000 0 0 0 .parallel, .init 1 .passive 60000 2000 0 0 .parallel,
        .init 2 .passive 70000 0 0 0 .parallel] := by
  let _ := StdSort.insertion
  refine (user_temperature_survives "/run/thermald" ⟨fun _ => none, ["TSKN", "cpu"]⟩ _ twoPassive
    (show _ = some 70000 by decide)
    (show _ = [_, _] ++ .init 2 .passive 50000 2000 0 0 .parallel :: [] from rfl) rfl
    (List.forall_mem_nil _) emptyWorld).trans ?_
  exact .refl _

end Thermald
