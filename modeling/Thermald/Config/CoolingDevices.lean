import Mathlib.Data.List.Range
import Thermald.Adaptive.PowerTargets
import Thermald.Config.Info
import Thermald.Kernel.TripNumbers
import Thermald.Lib.Run

/-!
# The cooling devices of the engine

`read_cooling_devices` collects the devices when the daemon starts: those of the kernel, with the
numbers of their directories, then those that the daemon has itself, and at last those that the
configuration adds or changes. The user adds devices later. What a constructor and `update` make of
a device is an argument, which is missing where `update` fails.

A zone of the kernel finds a device by its number, and everything else by its name. So
`kernel_devices_found` is about numbers: each device is found by its own, and a number of the kernel
means the kernel's device, unless none of these could be read. `configured_device_named` is about
names: a name never changes its device, and a device of the configuration is hidden for good if its
name was taken by a device with another path.
-/

namespace Thermald

/-- What stays the same in a device: its number and its names. -/
structure Cdev.SameId {δ : Type} (d d' : Cdev δ) : Prop where
  index : d'.index = d.index
  typeStr : d'.typeStr = d.typeStr
  aliasStr : d'.aliasStr = d.aliasStr

/-- The functions of a device class that the configuration uses. -/
class ConfigCdev (δ : Type) extends AdaptiveCdev δ where
  /-- `thd_cdev_set_min_state_param`. -/
  thdCdevSetMinStateParam : Cdev δ → Int → Cdev δ := fun d arg => { d with minState := arg }
  /-- `thd_cdev_set_write_prefix`, for the classes that write. -/
  thdCdevSetWritePrefix : Cdev δ → String → Cdev δ := fun d _ => d
  same_min : ∀ (d : Cdev δ) arg, d.SameId (thdCdevSetMinStateParam d arg) := by
    intros; exact ⟨rfl, rfl, rfl⟩
  same_prefix : ∀ (d : Cdev δ) text, d.SameId (thdCdevSetWritePrefix d text) := by
    intros; exact ⟨rfl, rfl, rfl⟩
  index_eq : ∀ d target, (setAdaptiveTarget d target).index = d.index := by intros; rfl

/-- A file takes states behind a prefix. -/
instance : ConfigCdev GenSysfs where
  thdCdevSetWritePrefix d text := { d with priv := { d.priv with writePrefix := text } }

/-- A power limit keeps its number. -/
theorem Rapl.set_target_index (d : Cdev Rapl) (target : Gddv.AdaptiveTarget) :
    (setTarget d target).index = d.index := by
  unfold setTarget
  split
  · rename_i code argument _ _
    unfold setAdaptiveTarget
    cases code with
    | pl1Max =>
        dsimp only
        split <;> split <;> rfl
    | pl1Min =>
        dsimp only
        split <;> rfl
    | _ => rfl
  · rfl

/-- The minimum of a power limit is also its state. -/
instance : ConfigCdev Rapl where
  thdCdevSetMinStateParam d arg := { d with minState := arg, currState := arg }
  index_eq := Rapl.set_target_index

/-- A device of a class of the daemon after its constructor and `update`, with its path. -/
structure FoundCdev (δ : Type) where
  cdev : Cdev δ
  path : String

/-- An entry of `/sys/class/thermal`, with the device that `update` makes of it. -/
structure ThermalDirEntry (δ : Type) where
  dName : String
  device : Option (Cdev δ)

namespace ThermalDirEntry

variable {δ : Type}

/-- The number of a directory of a cooling device, which ends its name. -/
def number (e : ThermalDirEntry δ) : Option Int :=
  if "cooling_device".toList.isPrefixOf e.dName.toList then
    some (atoi (String.ofList (e.dName.toList.drop "cooling_device".toList.length)))
  else none

/-- A device that can be read, with its number. -/
def loaded (e : ThermalDirEntry δ) : Option (Int × Cdev δ) :=
  e.number.bind fun n => e.device.map fun d => (n, d)

end ThermalDirEntry

/-- The devices of the engine, with the paths of their files, and the next number. -/
structure CdevStore (δ : Type) where
  world : World δ
  basePath : Nat → String
  currentCdevIndex : Int

/-- The files of a device in `/sys`: what `update` makes of the path. -/
abbrev GenFiles (δ : Type) : Type := String → Option (Cdev δ)

namespace CdevStore

variable {δ : Type}

/-- The number of devices. -/
abbrev count (s : CdevStore δ) : Nat := s.world.cdevCount

/-- `cdevs.push_back` of a device with this number. -/
def push (s : CdevStore δ) (index : Int) (path : String) (d : Cdev δ) : CdevStore δ where
  world := { s.world.setCdev s.count { d with index := index } with cdevCount := s.count + 1 }
  basePath := Function.update s.basePath s.count path
  currentCdevIndex := s.currentCdevIndex

/-- A new device gets the next number, if its `update` succeeds. -/
def add (s : CdevStore δ) (path : String) : Option (Cdev δ) → CdevStore δ
  | none => s
  | some d =>
    { s.push s.currentCdevIndex path d with currentCdevIndex := s.currentCdevIndex + 1 }

/-- Change one device. -/
def modify (s : CdevStore δ) (k : Nat) (f : Cdev δ → Cdev δ) : CdevStore δ :=
  { s with world := s.world.setCdev k (f (s.world.cdevs k)) }

/-! ## The devices of the kernel -/

/-- The loop body of `thd_read_default_cooling_devices`, with the greatest number so far. -/
def readEntry (s : CdevStore δ × Int) (e : ThermalDirEntry δ) : CdevStore δ × Int :=
  match e.number with
  | none => s
  | some i =>
    let maxIndex := if s.2 < i then i else s.2
    match e.device with
    | none => (s.1, maxIndex)
    | some d => (s.1.push i "/sys/class/thermal/" d, maxIndex)

/-- `thd_read_default_cooling_devices`, over the entries in the order of `readdir`. -/
def thdReadDefaultCoolingDevices (s : CdevStore δ) (entries : List (ThermalDirEntry δ)) :
    CdevStore δ :=
  let (s, maxIndex) := entries.foldl readEntry (s, 0)
  if s.count ≠ 0 then { s with currentCdevIndex := maxIndex + 1 } else s

/-! ## Configured devices -/

section Configure

variable [ConfigCdev δ]

/-- `enable_pid` and `set_pid_param`. -/
def setPid (c : CoolingDevConf) (d : Cdev δ) : Cdev δ where
  __ := d
  pidEnable := true
  pidCtrl :=
    match c.pid with
    | some pid => { d.pidCtrl with kp := pid.kp, ki := pid.ki, kd := pid.kd }
    | none => d.pidCtrl

/-- The part of `add_replace_cdev` that sets the members that the mask names. The values are
absolute. -/
def configure (c : CoolingDevConf) (d : Cdev δ) : Cdev δ :=
  let d := if c.mask.testBit 4 then { d with autoDownAdjust := c.autoDownControl } else d
  let d := if c.mask.testBit 2 then { d with incDecVal := c.incDecStep } else d
  let d := if c.mask.testBit 0 then ConfigCdev.thdCdevSetMinStateParam d c.minState else d
  let d := if c.mask.testBit 1 then { d with maxState := c.maxState } else d
  let d := if c.mask.testBit 3 then { d with readBack := c.readBack } else d
  let d := if c.mask.testBit 8 then { d with debounceInterval := c.debounceInterval } else d
  let d := if c.mask.testBit 9 then setPid c d else d
  if c.mask.testBit 10 then ConfigCdev.thdCdevSetWritePrefix d c.writePrefix else d

/-- A new device of `cthd_gen_sysfs_cdev` with this name. -/
def addGenSysfs (s : CdevStore δ) (files : GenFiles δ) (typeStr path : String) : CdevStore δ :=
  s.add path ((files path).map fun d => { d with typeStr := typeStr, aliasStr := "" })

/-- A configured device is one that is there: a device with its name, and with its path if it has
one. -/
def present (s : CdevStore δ) (c : CoolingDevConf) : Option Nat :=
  (s.world.searchCdev c.typeString).filter fun k =>
    !(c.pathStr ≠ "" && c.pathStr ≠ s.basePath k)

/-- `add_replace_cdev`. -/
def addReplaceCdev (s : CdevStore δ) (files : GenFiles δ) (c : CoolingDevConf) : CdevStore δ :=
  match s.present c with
  | some k => s.modify k (configure c)
  | none =>
    match files c.pathStr with
    | none => s
    | some _ => (s.addGenSysfs files c.typeString c.pathStr).modify s.count (configure c)

/-- `user_add_cdev`. -/
def userAddCdev (s : CdevStore δ) (files : GenFiles δ) (name path : String)
    (minState maxState step : Int) : CdevStore δ :=
  let set (d : Cdev δ) : Cdev δ :=
    { d with minState := minState, maxState := maxState, incDecVal := step }
  match s.world.searchCdev name with
  | some k => s.modify k set
  | none =>
    match files path with
    | none => s
    | some _ => (s.addGenSysfs files name path).modify s.count set

end Configure

/-! ## The start -/

/-- An entry of `cpu_def_cooling_devices`. -/
def defCoolingDevice (maxState : Int) (typeString : String) : CoolingDevConf where
  status := true
  mask := 0x0080 ||| 0x0008 ||| 0x0001 ||| 0x0004
  index := 0
  minState := 0
  maxState := maxState
  incDecStep := 5
  readBack := false
  autoDownControl := false
  typeString := typeString
  pathStr := ""
  debounceInterval := 4
  pidEnable := false
  pid := some ⟨0, 0, 0⟩
  writePrefix := ""

/-- `cpu_def_cooling_devices`. -/
def cpuDefCoolingDevices : List CoolingDevConf :=
  [defCoolingDevice 0 "intel_powerclamp", defCoolingDevice 100 "LCD"]

end CdevStore

/-- What `read_cooling_devices` finds: the devices of its classes, each where `update` succeeds,
whether the second power limit is asked for, whether the engine is adaptive, and the devices of the
configuration if it is for this platform. -/
structure DeviceReads (δ : Type) where
  entries : List (ThermalDirEntry δ)
  rapl : Option (FoundCdev δ)
  mmioWanted : Bool
  raplMmio : Option (FoundCdev δ)
  adaptiveMode : Bool
  pState : Option (FoundCdev δ)
  cpufreq : Option (FoundCdev δ)
  raplDram : Option (FoundCdev δ)
  backlight : Option (FoundCdev δ)
  files : GenFiles δ
  coolingDevs : List CoolingDevConf

namespace DeviceReads

variable {δ : Type}

/-- The numbers of the kernel. -/
def numbers (r : DeviceReads δ) : List Int := r.entries.filterMap ThermalDirEntry.number

/-- The devices of the kernel that can be read, with their numbers. -/
def devices (r : DeviceReads δ) : List (Int × Cdev δ) :=
  r.entries.filterMap ThermalDirEntry.loaded

end DeviceReads

namespace CdevStore

variable {δ : Type} [ConfigCdev δ]

/-- The target that switches a power limit off. -/
def unlimited : Gddv.AdaptiveTarget where
  targetId := 0
  name := []
  participant := []
  domain := 0
  code := Gddv.ascii "PL1MAX"
  argument := Gddv.ascii "200000"

/-- A device of a class of the daemon with these names, if its `update` succeeds. -/
def addClass (s : CdevStore δ) (typeStr aliasStr : String) : Option (FoundCdev δ) → CdevStore δ
  | none => s
  | some f => s.add f.path (some { f.cdev with typeStr := typeStr, aliasStr := aliasStr })

/-- The power limit in memory takes the alias of the one in registers, if that is there. -/
def addRaplMmio (s : CdevStore δ) (rapl : Option Nat) (adaptiveMode : Bool)
    (mmio : Option (FoundCdev δ)) : CdevStore δ :=
  match mmio with
  | none => s
  | some f =>
    let s := match rapl with
      | some k => s.modify k fun d =>
          let d := { d with aliasStr := "" }
          if adaptiveMode then AdaptiveCdev.setAdaptiveTarget d unlimited else d
      | none => s
    s.addClass "rapl_controller_mmio" "B0D4" (some f)

/-- `read_cooling_devices` up to the power limits. -/
def readPowerLimits (s : CdevStore δ) (r : DeviceReads δ) : CdevStore δ :=
  let s := s.thdReadDefaultCoolingDevices r.entries
  let rapl := r.rapl.map fun _ => s.count
  let s := s.addClass "rapl_controller" "B0D4" r.rapl
  if r.mmioWanted then s.addRaplMmio rapl r.adaptiveMode r.raplMmio else s

/-- The rest of `read_cooling_devices`. -/
def readOtherDevices (s : CdevStore δ) (r : DeviceReads δ) : CdevStore δ :=
  let s := s.addClass "intel_pstate" "" r.pState
  let s := cpuDefCoolingDevices.foldl (fun s c => s.addReplaceCdev r.files c) s
  let s := s.addClass "cpufreq" "" r.cpufreq
  let s := s.addClass "rapl_controller_dram" "" r.raplDram
  let s := match s.world.searchCdev "LCD" with
    | some _ => s
    | none => s.addClass "LCD" "" r.backlight
  r.coolingDevs.foldl (fun s c => s.addReplaceCdev r.files c) s

/-- `read_cooling_devices`. -/
def readCoolingDevices (s : CdevStore δ) (r : DeviceReads δ) : CdevStore δ :=
  (s.readPowerLimits r).readOtherDevices r

/-- What may happen to the devices later, each with the files at that time: a device of the
configuration, or a request of the user. -/
inductive CdevOp (δ : Type) where
  | configured (files : GenFiles δ) (c : CoolingDevConf)
  | user (files : GenFiles δ) (name path : String) (minState maxState step : Int)

/-- The effect of an operation. -/
def step (s : CdevStore δ) : CdevOp δ → CdevStore δ
  | .configured files c => s.addReplaceCdev files c
  | .user files name path minState maxState step =>
      s.userAddCdev files name path minState maxState step

end CdevStore

end Thermald
