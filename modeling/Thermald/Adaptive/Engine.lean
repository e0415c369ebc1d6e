import Thermald.Adaptive.Install

/-!
# The adaptive engine

`cthd_engine_adaptive`: at its start it looks whether the conditions of the vault can be evaluated,
and chooses a fallback target or installs the default table. Then `update_engine_state` is called at
every poll. It executes the targets of the target id that the conditions give, and falls back to the
default table where none of them has installed a table.

What `evaluate_conditions` returns is an input. The process may end within a call: after a table
without any usable row it exits in order to be restarted without the adaptive engine, and the
exception of `stof` is not caught.
-/

namespace Thermald

open Gddv (ascii afterLastDot AdaptiveTarget)

/-- `std::stof`, multiplied by 1000 and converted to `int`, or nothing where it throws. -/
class StdFloat where
  stofMilli : Bytes → Option Int

/-- `set_adaptive_target` of a device class. The names of a device do not change. -/
class AdaptiveCdev (δ : Type) extends CdevClass δ where
  setAdaptiveTarget : Cdev δ → AdaptiveTarget → Cdev δ := fun d _ => d
  type_str_eq : ∀ d target, (setAdaptiveTarget d target).typeStr = d.typeStr := by intros; rfl
  alias_str_eq : ∀ d target, (setAdaptiveTarget d target).aliasStr = d.aliasStr := by intros; rfl

/-- The base class ignores adaptive targets. -/
instance : AdaptiveCdev GenSysfs where

/-! ## Looking up tables -/

namespace Gddv

/-- A text as a C string. -/
def cText (text : Bytes) : Bytes := text.takeWhile fun b => b ≠ 0

/-- `thd_strcasecmp_n` on equal texts. -/
def sameIgnoringCase (a b : Bytes) : Bool :=
  ((cText a).take 4096).map toUpper = ((cText b).take 4096).map toUpper

/-- `find_psvt`. -/
def findPsvt (g : Gddv) (name : Bytes) : Option Psvt :=
  g.psvts.find? fun t => sameIgnoringCase t.name name

/-- `search_idsp`, on the first 36 characters. -/
def searchIdsp (g : Gddv) (name : String) : Bool :=
  g.idsps.any fun idsp => idsp.take 36 = ascii name

/-- The policy that must be announced for tables of the version. -/
def idspSupports (g : Gddv) (version : Int) : Bool :=
  if version = 3 then g.searchIdsp "4215267F-F429-4776-9D84-D6C5992848A4"
  else if version < 3 then g.searchIdsp "6BD40D2D-98AA-A44B-1A92-D22BDE3117F1"
  else true

/-- `find_itmt`. -/
def findItmt (g : Gddv) (name : Bytes) : Option Itmt :=
  g.itmts.find? fun t => g.idspSupports t.version && sameIgnoringCase t.name name

/-- `find_def_psvt`. -/
def findDefPsvt (g : Gddv) : Option Psvt :=
  match g.psvts.find? fun t => t.name = ascii "generic_os" with
  | some t => some t
  | none => g.psvts.find? fun t => t.name = ascii "IETM.D0"

/-- The targets of an id, which is compared as a `uint64_t`. -/
def targetsOf (g : Gddv) (target : Int) : List AdaptiveTarget :=
  g.targets.filter fun t => t.targetId = (target % 2 ^ 64).toNat

/-- `verify_condition`: whether the daemon can evaluate the condition. -/
def verifyCondition (lidDev upowerClient : Bool) (c : Condition) : Bool :=
  isOem c || c.condition = conditionDefault || isTemperature c ||
    (c.condition = conditionLidState && lidDev) ||
    (c.condition = conditionPowerSource && upowerClient) ||
    c.condition = conditionWorkload || c.condition = conditionPlatformType ||
    c.condition = conditionPowerSlider || c.condition = conditionOsType

/-- `verify_conditions`. -/
def verifyConditions (g : Gddv) (lidDev upowerClient : Bool) : Bool :=
  g.conditions.all fun set => set.all fun c => verifyCondition lidDev upowerClient c

/-- The power limit that a target sets, as `find_agressive_target` reads it. -/
def powerLimit (t : AdaptiveTarget) : Option Int :=
  if t.code = ascii "PL1MAX" ∨ t.code = ascii "PL1PowerLimit" then stoi t.argument else none

/-- The loop of `find_agressive_target` from a place on, with the largest limit so far and its
place. -/
def findAgressiveFrom (maxPl1Max maxTargetId : Int) : Nat → List AdaptiveTarget → Int
  | _, [] => maxTargetId
  | i, t :: rest =>
    match powerLimit t with
    | none => findAgressiveFrom maxPl1Max maxTargetId (i + 1) rest
    | some argument =>
      if maxPl1Max < argument then findAgressiveFrom argument i (i + 1) rest
      else findAgressiveFrom maxPl1Max maxTargetId (i + 1) rest

/-- `find_agressive_target`: the place of the target with the largest power limit, or -1. -/
def findAgressiveTarget (g : Gddv) : Int := findAgressiveFrom 0 (-1) 0 g.targets

end Gddv

/-! ## The state -/

/-- Whether the process runs, has exited to be restarted without the adaptive engine, or has been
ended by an exception. -/
inductive Process where
  | running
  | restart
  | aborted
  deriving DecidableEq, Repr

/-- One policy that was put in force: the targets that were executed, each with whether it installed
a table, and whether the default table was installed at last. -/
structure Policy where
  executed : List (AdaptiveTarget × Bool)
  default : Bool
  deriving DecidableEq, Repr

/-- `cthd_engine_adaptive`, with the policies that it has put in force so far. -/
structure AdaptiveEngine (δ : Type) where
  engine : Engine δ
  gddv : Gddv
  policyActive : Bool
  fallbackId : Int
  int3400Path : Bytes
  passiveDefOnly : Bool
  int3400Installed : Bool
  currentMatchedTarget : Int
  debugMode : Bool
  process : Process
  policies : List Policy

namespace AdaptiveEngine

/-- The members as the constructor and `thd_engine_init` leave them. -/
def init {δ : Type} (engine : Engine δ) (gddv : Gddv) (int3400Path : Bytes)
    (passiveDefOnly debugMode : Bool) : AdaptiveEngine δ where
  engine := engine
  gddv := gddv
  policyActive := false
  fallbackId := -1
  int3400Path := int3400Path
  passiveDefOnly := passiveDefOnly
  int3400Installed := false
  currentMatchedTarget := -1
  debugMode := debugMode
  process := .running
  policies := []

variable {δ : Type} [AdaptiveCdev δ] [StdSort] [StdFloat]

/-! ## Executing a target -/

/-- The zones that only plot power. -/
def plotsPower (z : Zone) : Bool := z.typeStr = "rapl_pkg_power" || z.typeStr = "power_floor"

/-- The rows of an ITMT table, after the zones have been cleared unless a table is there already. -/
def installItmtTable (a : AdaptiveEngine δ) (t : Gddv.Itmt) : AdaptiveEngine δ :=
  let e := if a.int3400Installed then a.engine
    else a.engine.clearZones fun z => a.debugMode && plotsPower z
  { a with engine := t.itmtEntries.foldl Engine.installItmt e, int3400Installed := true }

/-- The rows of a passive table, after the zones have been cleared unless a table is there
already. -/
def installPsvtTable (a : AdaptiveEngine δ) (t : Gddv.Psvt) : AdaptiveEngine δ :=
  let e := if a.int3400Installed then a.engine else a.engine.clearZones plotsPower
  { a with engine := t.psvs.foldl Engine.installPassive e, int3400Installed := true }

/-- The end of `set_int3400_target`: the process exits if no zone is active. -/
def finishInt3400Target (a : AdaptiveEngine δ) (target : AdaptiveTarget) : AdaptiveEngine δ :=
  let a := { a with engine := a.engine.psvtConsolidate }
  if a.engine.anyActive then
    if target.code = ascii "PSV" then
      match StdFloat.stofMilli target.argument with
      | none => { a with process := .aborted }
      | some temp => { a with engine := a.engine.setTrip target.participant (toTemp temp) }
    else a
  else { a with process := .restart }

/-- `set_int3400_target`. A missing ITMT table is passed over, a missing passive table ends the
call. -/
def setInt3400Target (a : AdaptiveEngine δ) (target : AdaptiveTarget) : AdaptiveEngine δ :=
  if target.code = ascii "ITMT" ∨ target.code = ascii "ITMT3" then
    match a.gddv.findItmt target.argument with
    | none => a.finishInt3400Target target
    | some t => (a.installItmtTable t).finishInt3400Target target
  else if target.code = ascii "PSVT" then
    match a.gddv.findPsvt target.argument with
    | none => a
    | some t => (a.installPsvtTable t).finishInt3400Target target
  else a.finishInt3400Target target

/-- `install_passive_default`. Nobody looks whether a row could be installed. -/
def installPassiveDefault (a : AdaptiveEngine δ) : AdaptiveEngine δ :=
  let e := a.engine.clearZones fun _ => false
  match a.gddv.findDefPsvt with
  | none => { a with engine := e }
  | some t => { a with engine := (t.psvs.foldl Engine.installPassive e).psvtConsolidate }

/-- The device that a target is for. -/
def targetCdev (a : AdaptiveEngine δ) (target : AdaptiveTarget) : Option Nat :=
  a.engine.tableCdev (afterLastDot target.participant)

/-- The target is one for `set_int3400_target`. -/
def isInt3400Target (a : AdaptiveEngine δ) (target : AdaptiveTarget) : Bool :=
  (a.targetCdev target = none && target.participant = a.int3400Path) || target.code = ascii "PSVT"

/-- `execute_target`. -/
def executeTarget (a : AdaptiveEngine δ) (target : AdaptiveTarget) : AdaptiveEngine δ :=
  if a.isInt3400Target target then a.setInt3400Target target
  else
    match stoi target.argument, a.targetCdev target with
    | some _, some k =>
      let world := a.engine.world
      let d := AdaptiveCdev.setAdaptiveTarget (world.cdevs k) target
      { a with engine := { a.engine with world := world.setCdev k d } }
    | _, _ => a

/-- Executing the target installs a table. -/
def installs (a : AdaptiveEngine δ) (target : AdaptiveTarget) : Bool :=
  a.isInt3400Target target &&
    if target.code = ascii "ITMT" ∨ target.code = ascii "ITMT3" then
      (a.gddv.findItmt target.argument).isSome
    else target.code = ascii "PSVT" && (a.gddv.findPsvt target.argument).isSome

/-- The loop over the targets of an id, which ends with the process. -/
def executeTargets : List AdaptiveTarget → AdaptiveEngine δ →
    List (AdaptiveTarget × Bool) × AdaptiveEngine δ
  | [], a => ([], a)
  | t :: rest, a =>
    if a.process = .running then
      let (executed, a') := executeTargets rest (a.executeTarget t)
      ((t, a.installs t) :: executed, a')
    else ([], a)

/-! ## Start and update -/

/-- What `thd_engine_start` finds: whether there are a lid device and a power daemon, and what the
two calls of `evaluate_conditions` return. -/
structure Start where
  lidDev : Bool
  upowerClient : Bool
  first : Int
  second : Int

/-- Install the default table as a policy of its own. -/
def applyDefault (a : AdaptiveEngine δ) : AdaptiveEngine δ :=
  { a.installPassiveDefault with policies := a.policies ++ [⟨[], true⟩] }

/-- The conditions cannot all be evaluated and none of the others holds. -/
def needsFallback (a : AdaptiveEngine δ) (s : Start) : Bool :=
  !a.gddv.verifyConditions s.lidDev s.upowerClient && s.first = -1

/-- The part of `thd_engine_start` for conditions that cannot be evaluated, with whether it goes
on. -/
def startFallback (a : AdaptiveEngine δ) : Bool × AdaptiveEngine δ :=
  let i := a.gddv.findAgressiveTarget
  if 0 ≤ i then (true, { a with fallbackId := i })
  else if a.gddv.findDefPsvt.isSome then (true, a.applyDefault)
  else (false, a)

/-- `thd_engine_start`, with the return code. -/
def thdEngineStart (a : AdaptiveEngine δ) (s : Start) : Int × AdaptiveEngine δ :=
  if a.passiveDefOnly then (thdSuccess, a.applyDefault)
  else
    let (goesOn, a) := if a.needsFallback s then a.startFallback else (true, a)
    if !goesOn then (thdError, a)
    else (thdSuccess, if s.second = -1 then a.applyDefault else a)

/-- Execute the targets of an id as a policy, and fall back to the default table. -/
def applyTargets (a : AdaptiveEngine δ) (targets : List AdaptiveTarget) : AdaptiveEngine δ :=
  let (executed, a) := executeTargets targets { a with int3400Installed := false }
  if a.process ≠ .running then a
  else if a.int3400Installed then { a with policies := a.policies ++ [⟨executed, false⟩] }
  else { a.installPassiveDefault with policies := a.policies ++ [⟨executed, true⟩] }

/-- `exec_fallback_target` as a policy: there is no default table behind it. -/
def execFallbackTarget (a : AdaptiveEngine δ) (target : Int) : AdaptiveEngine δ :=
  let (executed, a) :=
    executeTargets (a.gddv.targetsOf target) { a with int3400Installed := false }
  { a with policies := a.policies ++ [⟨executed, false⟩] }

/-- The id of the fallback target as an `int`. -/
def fallbackTarget (a : AdaptiveEngine δ) : Int :=
  int32 ((a.gddv.targets[a.fallbackId.toNat]?).elim 0 fun t => t.targetId)

/-- `update_engine_state`, with the result that `evaluate_conditions` would give. Only positive ids
are executed. -/
def updateEngineState (a : AdaptiveEngine δ) (result : Int) : AdaptiveEngine δ :=
  if a.process ≠ .running ∨ a.passiveDefOnly then a
  else
    let target := if a.fallbackId < 0 then result else -1
    if a.currentMatchedTarget = target then a
    else
      let a := { a with currentMatchedTarget := target }
      if target = -1 ∧ 0 ≤ a.fallbackId ∧ a.policyActive = false then
        { a.execFallbackTarget a.fallbackTarget with policyActive := true }
      else if 0 < target then
        { a.applyTargets (a.gddv.targetsOf target) with policyActive := true }
      else a.applyTargets []

end AdaptiveEngine

end Thermald
