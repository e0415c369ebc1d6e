import Thermald.Adaptive.Install

/-!
# The contents of a thermal configuration

The records of `thd_parse.h`, which the parser of `thermal-conf.xml` fills and from which the engine
builds its sensors, zones and cooling devices. A member is there if the parser writes it. Members
that are flags are `Bool`, and `double` members are `Float`.
-/

namespace Thermald

/-! ## Numbers -/

/-- `atoi`, as `strtol` computes it: a missing number is 0, one out of the range of `long` the
nearest one, and the result is cut to an `int`. -/
def atoi (text : String) : Int :=
  int32 (max (-9223372036854775808) (min 9223372036854775807 ((scanInt (Gddv.ascii text)).getD 0)))

/-- The digits at the beginning of a text, and the rest. -/
def spanDigits (text : List Char) : List Char × List Char :=
  text.span fun c => '0' ≤ c && c ≤ '9'

/-- The exponent at the beginning of a text, if there is one. -/
def scanExponent (text : List Char) : Int :=
  match text with
  | 'e' :: rest | 'E' :: rest => (scanInt (Gddv.ascii (String.ofList rest))).getD 0
  | _ => 0

/-- `atof` on decimal numbers. -/
def atof (text : String) : Float :=
  let text := text.toList.dropWhile fun c => c.isWhitespace
  let (negative, text) :=
    match text with
    | '-' :: rest => (true, rest)
    | '+' :: rest => (false, rest)
    | _ => (false, text)
  let (whole, text) := spanDigits text
  let (fraction, text) :=
    match text with
    | '.' :: rest => spanDigits rest
    | _ => ([], text)
  let mantissa := digitsValue (Gddv.ascii (String.ofList (whole ++ fraction)))
  let exponent := scanExponent text - fraction.length
  let value := Float.ofScientific mantissa (exponent < 0) exponent.natAbs
  if negative then -value else value

/-! ## Zones -/

/-- `trip_cdev_t`: a cooling device of a trip point. -/
structure TripCdevConf where
  type : String
  influence : Int
  samplingPeriod : Int
  targetStateValid : Bool
  targetState : Int
  pidParam : PidParam
  minMaxValid : Bool
  targetMinState : Int
  targetMaxState : Int

/-- `trip_cdev_depend_t`. -/
structure TripDependConf where
  dependency : Bool
  cdev : String
  state : String
  deriving DecidableEq

/-- `trip_point_t`. -/
structure TripPointConf where
  temperature : Int
  hyst : Int
  tripPtType : TripPointType
  controlType : TripControlType
  influence : Int
  sensorType : String
  dependency : TripDependConf
  cdevTrips : List TripCdevConf

/-- `thermal_zone_t`. -/
structure ThermalZoneConf where
  type : String
  tripPts : List TripPointConf

/-! ## Sensors and cooling devices -/

/-- `thermal_sensor_link_t`. -/
structure SensorLinkConf where
  name : String
  multiplier : Float
  offset : Float

/-- `thermal_sensor_target_t`. -/
structure SensorTargetConf where
  name : String
  coeff : Float
  offset : Float
  powerSensor : Int

/-- `thermal_sensor_polling_t`. -/
structure SensorPollingConf where
  virtualTemp : Int
  samplePeriod : Int

/-- `thermal_sensor_t`. -/
structure ThermalSensorConf where
  mask : Nat
  name : String
  path : String
  asyncCapable : Bool
  virtualSensor : Bool
  sensorLink : SensorLinkConf
  linkSensors : List SensorTargetConf
  pollingTable : List SensorPollingConf

/-- `pid_control_t`. -/
structure PidControl where
  kp : Float
  ki : Float
  kd : Float

/-- `cooling_dev_t`. `unit_val` is always an absolute value. The record that the parser fills starts
without a `pid`: its members are not initialised. -/
structure CoolingDevConf where
  status : Bool
  mask : Nat
  index : Int
  minState : Int
  maxState : Int
  incDecStep : Int
  readBack : Bool
  autoDownControl : Bool
  typeString : String
  pathStr : String
  debounceInterval : Int
  pidEnable : Bool
  pid : Option PidControl
  writePrefix : String

/-! ## Platforms -/

/-- `ppcc_t`, as far as the parser writes it. -/
structure PpccConf where
  valid : Bool
  powerLimitMin : Int
  powerLimitMax : Int
  timeWindMin : Int
  timeWindMax : Int
  stepSize : Int
  limit1Valid : Bool

/-- `thermal_info_t`. -/
structure ThermalInfo where
  name : String
  uuid : String
  productName : String
  productSku : String
  defaultPreference : Pref
  pollingInterval : Int
  ppcc : PpccConf
  sensors : List ThermalSensorConf
  zones : List ThermalZoneConf
  coolingDevs : List CoolingDevConf

end Thermald
