import Thermald.Lib.StdSort
import Thermald.Lib.LastOut
import Thermald.Lib.MachineInt
import Thermald.Lib.Run
import Thermald.Cooling.Pid
import Thermald.Cooling.Device
import Thermald.Cooling.SetState
import Thermald.Cooling.Limits
import Thermald.Cooling.TargetUsers
import Thermald.Cooling.TripPoint
import Thermald.Cooling.Zone
import Thermald.Cooling.Effects
import Thermald.Cooling.ZoneEffects
import Thermald.Cooling.Engine
import Thermald.Cooling.Reset
import Thermald.Cooling.Polls
import Thermald.Cooling.Ownership
import Thermald.Cooling.Rounds
import Thermald.Cooling.Converge
import Thermald.Cooling.Preference
import Thermald.Gddv.Buffer
import Thermald.Gddv.Tables
import Thermald.Gddv.Decoders
import Thermald.Gddv.DecoderSafety
import Thermald.Gddv.Vault
import Thermald.Lib.Trace
import Thermald.Gddv.Compressed
import Thermald.Gddv.Bounds
import Thermald.Gddv.MoreFuel
import Thermald.Gddv.Termination
import Thermald.Gddv.Items
import Thermald.Gddv.FlatVault
import Thermald.Gddv.Psvt
import Thermald.Adaptive.Conditions
import Thermald.Adaptive.Consolidated
import Thermald.Adaptive.Install
import Thermald.Polling.Interval
import Thermald.Adaptive.Engine
import Thermald.Adaptive.Effects
import Thermald.Adaptive.Policies
import Thermald.Adaptive.Guard
import Thermald.Polling.Requests
import Thermald.Adaptive.TripOrder
import Thermald.Polling.SharedSensors
import Thermald.Cooling.Rapl
import Thermald.Cooling.Range
import Thermald.Lib.Staircase
import Thermald.Cooling.Sequence
import Thermald.Cooling.SequenceRuns
import Thermald.Cooling.RaplStates
import Thermald.Cooling.Exponential
import Thermald.Cooling.MappedTargets
import Thermald.Kernel.Takeover
import Thermald.Polling.Critical
import Thermald.Config.Info
import Thermald.Config.Zones
import Thermald.Config.Indices
import Thermald.Config.Bindings
import Thermald.Config.Realised
import Thermald.Config.Xml
import Thermald.Config.XmlText
import Thermald.Config.Parse
import Thermald.Config.Siblings
import Thermald.Config.Indentation
import Thermald.Config.Parsed
import Thermald.Config.CharTrim
import Thermald.Config.NullTexts
import Thermald.Lib.Members
import Thermald.Power.Energy
import Thermald.Power.Wattage
import Thermald.Adaptive.PowerTargets
import Thermald.Cooling.Dimming
import Thermald.Sensors.Virtual
import Thermald.Sensors.Cached
import Thermald.Sensors.SamplePeriod
import Thermald.Sensors.Engine
import Thermald.Sensors.Places
import Thermald.Sensors.UserVirtual
import Thermald.Polling.Evaluated
import Thermald.Polling.PollTrips
import Thermald.Lib.ShiftRegister
import Thermald.Gddv.Appc
import Thermald.Gddv.FileName
import Thermald.Gddv.ConditionSets
import Thermald.Gddv.Ppcc
import Thermald.Cooling.Parallel
import Thermald.Cooling.Cpufreq
import Thermald.Gddv.Idsp
import Thermald.Gddv.Apct
import Thermald.Kernel.TripNumbers
import Thermald.Lib.Simulation
import Thermald.Kernel.CpuZone
import Thermald.Config.PreferenceFile
import Thermald.Config.Features
import Thermald.Firmware.Tables
import Thermald.Firmware.Generated
import Thermald.Lib.Merged
import Thermald.Lib.Groups
import Thermald.Cooling.ClampOrder
import Thermald.Cooling.TripCdevs
import Thermald.Gddv.StringFields
import Thermald.Gddv.DeclaredStrings
import Thermald.Firmware.Lines
import Thermald.Firmware.Written
import Thermald.Firmware.RoundTrip
import Thermald.Lib.Records
import Thermald.Loop.Messages
import Thermald.Loop.Thread
import Thermald.Polling.Sent
import Thermald.Loop.Delivery
import Thermald.Loop.Operations
import Thermald.Loop.Turns
import Thermald.Loop.Adaptive
import Thermald.Loop.Control
import Thermald.Loop.Devices
import Thermald.Gddv.PackedVault
import Thermald.Firmware.PassiveRoundTrip
import Thermald.Config.DeviceNames
import Thermald.Config.UserTemps
import Thermald.Firmware.PassiveZones
import Thermald.Kernel.Uevent
import Thermald.Firmware.Matched
