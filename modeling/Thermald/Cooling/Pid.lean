import Thermald.Lib.MachineInt

/-!
# The PID controller

A trip point may drive its cooling device with a controller of its own, and a cooling device may
have one for all its trips. The arithmetic is the double arithmetic of the source, so nothing is
proved about the values computed: whatever the controller returns is forced into the range of
the device by its caller.
-/

namespace Thermald

/-- `pid_param_t`: the gains given with a trip's device binding. -/
structure PidParam where
  valid : Bool
  kp : Float
  ki : Float
  kd : Float

/-- The state of `cthd_pid`. `targetTemp` is an `unsigned int` and `lastTime` a time in
seconds. -/
structure Pid where
  kp : Float
  ki : Float
  kd : Float
  errSum : Float
  lastErr : Float
  lastTime : Int
  targetTemp : Int

namespace Pid

/-- The default constructor. -/
def init : Pid where
  kp := 0.0005
  ki := 0.0001
  kd := 0.0001
  errSum := 0
  lastErr := 0
  lastTime := 0
  targetTemp := 0

/-- `cthd_pid::set_pid_param`. -/
def setPidParam (pid : Pid) (kp ki kd : Float) : Pid :=
  { pid with kp, ki, kd }

/-- `cthd_pid::set_target_temp`. -/
def setTargetTemp (pid : Pid) (temp : Int) : Pid :=
  { pid with targetTemp := uint32 temp }

/-- `cthd_pid::reset`. -/
def reset (pid : Pid) : Pid :=
  { pid with errSum := 0, lastErr := 0, lastTime := 0 }

/-- `cthd_pid::pid_output` at time `now`. The first call after a reset chooses the integral part
so that the output starts at `initialValue`. -/
def pidOutput (pid : Pid) (now currTemp initialValue : Int) : Int × Pid :=
  let error := int32 (currTemp - pid.targetTemp)
  let e := Float.ofInt error
  let pid :=
    if pid.lastTime = 0 then
      { pid with
        lastTime := now
        errSum :=
          if pid.ki != 0 then (Float.ofInt initialValue - pid.kp * e) / pid.ki else 0 }
    else pid
  let timeChange := now - pid.lastTime
  let errSum := pid.errSum + e * Float.ofInt timeChange
  let dErr := if timeChange ≠ 0 then (e - pid.lastErr) / Float.ofInt timeChange else 0
  let output := pid.kp * e + pid.ki * errSum + pid.kd * dErr
  (output.toInt32.toInt, { pid with errSum, lastErr := e, lastTime := now })

end Pid

end Thermald
