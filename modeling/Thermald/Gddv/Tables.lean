import Thermald.Cooling.TripPoint
import Thermald.Gddv.Buffer

/-!
# The tables of a data vault

The records into which `cthd_gddv` decodes a data vault, and the state of the parser: the tables
and the length of the buffer that is being decoded.
-/

namespace Thermald

namespace Gddv

/-- `adaptive_operation`: two conditions both hold, or one holds for some time. -/
abbrev opFor : Nat := 2

/-- `DECI_KELVIN_TO_CELSIUS`, with the rounding of C division. -/
def deciKelvinToCelsius (t : Int) : Int :=
  let d := int32 (t - 2732)
  if 0 ≤ d then (int32 (d + 5)).tdiv 10 else (int32 (d - 5)).tdiv 10

/-- `ppcc_t`. The parameters of the second limit are set only for longer values. -/
structure Ppcc where
  name : Bytes
  valid : Int
  powerLimitMin : Int
  powerLimitMax : Int
  timeWindMin : Int
  timeWindMax : Int
  stepSize : Int
  limit1Valid : Int
  powerLimit1Min : Int
  powerLimit1Max : Int
  timeWind1Min : Int
  timeWind1Max : Int
  step1Size : Int
  deriving DecidableEq, Repr

/-- `struct custom_condition`. -/
structure CustomCondition where
  condition : Nat
  name : Bytes
  participant : Bytes
  domain : Int
  type : Int
  deriving DecidableEq, Repr

/-- `struct adaptive_target`. -/
structure AdaptiveTarget where
  targetId : Nat
  name : Bytes
  participant : Bytes
  domain : Nat
  code : Bytes
  argument : Bytes
  deriving DecidableEq, Repr

/-- `struct condition`. -/
structure Condition where
  condition : Nat
  device : Bytes
  comparison : Nat
  argument : Int
  operation : Nat
  timeComparison : Nat
  time : Int
  target : Int
  state : Int
  stateEntryTime : Int
  ignoreCondition : Int
  deriving DecidableEq, Repr

/-- A condition for a target before its fields are read. -/
def Condition.init (target : Int) : Condition where
  condition := 0
  device := []
  comparison := 0
  argument := 0
  operation := 0
  timeComparison := 0
  time := 0
  target := target
  state := 0
  stateEntryTime := 0
  ignoreCondition := 0

/-- `struct psv`, without its name, which nothing sets. -/
structure Psv where
  source : Bytes
  target : Bytes
  priority : Int
  samplePeriod : Int
  temp : Int
  domain : Int
  controlKnob : Int
  limit : Bytes
  stepSize : Int
  limitCoeff : Int
  unlimitCoeff : Int
  deriving DecidableEq, Repr

/-- `struct psvt`. -/
structure Psvt where
  name : Bytes
  psvs : List Psv
  deriving DecidableEq, Repr

/-- `struct itmt_entry`. -/
structure ItmtEntry where
  target : Bytes
  tripPoint : Int
  pl1Min : Bytes
  pl1Max : Bytes
  unused : Bytes
  deriving DecidableEq, Repr

/-- `struct itmt`. -/
structure Itmt where
  version : Int
  name : Bytes
  itmtEntries : List ItmtEntry
  deriving DecidableEq, Repr

/-- `struct trippoint`. -/
structure Trippoint where
  name : Bytes
  typeStr : Bytes
  type : TripPointType
  temp : Int
  deriving DecidableEq, Repr

/-- `struct vsct_entry`. -/
structure VsctEntry where
  target : Bytes
  domainType : Int
  coeffType : Int
  coeff : Int
  operation : Int
  alpha : Int
  triggerPoint : Int
  deriving DecidableEq, Repr

/-- `struct vspt_entry`. -/
structure VsptEntry where
  virtualTemp : Int
  samplePeriod : Int
  deriving DecidableEq, Repr

end Gddv

/-- The state of `cthd_gddv` while a data vault is parsed. -/
structure Gddv where
  ppccs : List Gddv.Ppcc
  customConditions : List Gddv.CustomCondition
  psvts : List Gddv.Psvt
  itmts : List Gddv.Itmt
  idsps : List Bytes
  trippoints : List Gddv.Trippoint
  conditions : List (List Gddv.Condition)
  targets : List Gddv.AdaptiveTarget
  vsctsName : Bytes
  vscts : List Gddv.VsctEntry
  vspts : List Gddv.VsptEntry
  gddvCurBufLen : Int
  deriving DecidableEq, Repr

namespace Gddv

/-- The state before anything is parsed. -/
def init : Gddv where
  ppccs := []
  customConditions := []
  psvts := []
  itmts := []
  idsps := []
  trippoints := []
  conditions := []
  targets := []
  vsctsName := []
  vscts := []
  vspts := []
  gddvCurBufLen := 0

end Gddv

end Thermald
