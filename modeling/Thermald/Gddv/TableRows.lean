import Thermald.Gddv.Rows

/-!
# The rows of the tables

How the rows of the tables are written, and that the decoders read them back. A row is a sequence of
numbers and texts. A number that the decoder keeps in an `int` has to be in this range, and a text
must not have a NUL in it.
-/

namespace Thermald.Gddv

section Rows

variable {len : Int}

/-! ## APPC and APAT -/

/-- The numbers and texts of the row survive. -/
structure CustomCondition.Fits (row : CustomCondition) : Prop where
  condition : row.condition < 2 ^ 32
  name : 0 ∉ row.name
  participant : 0 ∉ row.participant
  domain : IsInt row.domain
  type : IsInt row.type

def CustomCondition.encode (row : CustomCondition) : Bytes :=
  uintField row.condition ++ (stringField row.name ++ (stringField row.participant ++
    (intField row.domain ++ intField row.type)))

/-- A pass of the loop of `parse_appc`. -/
def parseAppcRow (appc : Bytes) : Decoder Unit := do
  let condition ← getUint64 appc
  let name ← getStdString appc
  let participant ← getStdString appc
  let domain ← getUint64 appc
  let type ← getUint64 appc
  update fun g => { g with customConditions := g.customConditions ++
    [{ condition := condition % 2 ^ 32, name, participant, domain := int32 domain,
       type := int32 type }] }

theorem loads_custom_condition {row : CustomCondition} (h : row.Fits) :
    Loads len parseAppcRow row.encode
      (fun g => { g with customConditions := g.customConditions ++ [row] }) () := by
  have hcondition : row.condition < 2 ^ 64 := lt_trans h.condition (by decide)
  refine (leads_uint_field hcondition).before ((leads_string_field h.name).before ?_)
  refine (leads_string_field h.participant).before ((leads_int_field row.domain).before ?_)
  refine (leads_int_field row.type).store ?_
  rw [h.domain.narrowed, h.type.narrowed, Nat.mod_eq_of_lt h.condition]

/-- The numbers and texts of the row survive. -/
structure AdaptiveTarget.Fits (row : AdaptiveTarget) : Prop where
  targetId : row.targetId < 2 ^ 64
  name : 0 ∉ row.name
  participant : 0 ∉ row.participant
  domain : row.domain < 2 ^ 64
  code : 0 ∉ row.code
  argument : 0 ∉ row.argument

def AdaptiveTarget.encode (row : AdaptiveTarget) : Bytes :=
  uintField row.targetId ++ (stringField row.name ++ (stringField row.participant ++
    (uintField row.domain ++ (stringField row.code ++ stringField row.argument))))

/-- A pass of the loop of `parse_apat`. -/
def parseApatRow (apat : Bytes) : Decoder Unit := do
  let targetId ← getUint64 apat
  let name ← getStdString apat
  let participant ← getStdString apat
  let domain ← getUint64 apat
  let code ← getStdString apat
  let argument ← getStdString apat
  update fun g => { g with targets := g.targets ++
    [{ targetId, name, participant, domain, code, argument }] }

theorem loads_adaptive_target {row : AdaptiveTarget} (h : row.Fits) :
    Loads len parseApatRow row.encode
      (fun g => { g with targets := g.targets ++ [row] }) () := by
  refine (leads_uint_field h.targetId).before ((leads_string_field h.name).before ?_)
  refine (leads_string_field h.participant).before ((leads_uint_field h.domain).before ?_)
  exact (leads_string_field h.code).before ((leads_string_field h.argument).store rfl)

/-! ## PSVT -/

/-- The numbers and texts of the row survive. -/
structure Psv.Fits (row : Psv) : Prop where
  source : 0 ∉ row.source
  target : 0 ∉ row.target
  priority : IsInt row.priority
  samplePeriod : IsInt row.samplePeriod
  temp : IsInt row.temp
  domain : IsInt row.domain
  controlKnob : IsInt row.controlKnob
  limit : 0 ∉ row.limit
  stepSize : IsInt row.stepSize
  limitCoeff : IsInt row.limitCoeff
  unlimitCoeff : IsInt row.unlimitCoeff

/-- The last field is not used. -/
def Psv.encode (row : Psv) : Bytes :=
  stringField row.source ++ (stringField row.target ++ (intField row.priority ++
    (intField row.samplePeriod ++ (intField row.temp ++ (intField row.domain ++
      (intField row.controlKnob ++ (stringField row.limit ++ (intField row.stepSize ++
        (intField row.limitCoeff ++ (intField row.unlimitCoeff ++ uintField 0))))))))))

/-- A limit that is written as a text. -/
theorem leads_limit {limit : Bytes} (h : 0 ∉ limit) :
    Leads len getLimit (stringField limit) 0 limit := by
  intro buf before rest c hbuf hoffset hlen hcur hmax
  have hsize : 4 ≤ (stringField limit).length := by
    simp only [stringField, List.length_append, length_to_little_endian]
    omega
  have htype : Returns (getType buf) c (8 : Nat) c := by
    have hsplit : buf = before ++ (toLittleEndian 4 8 ++ (toLittleEndian 8 (limit.length + 1) ++
        (limit ++ [0]))) ++ rest := by
      simpa only [stringField, List.append_assoc] using hbuf
    exact get_type_returns hsplit (by decide) hoffset (by omega) (by omega)
  unfold getLimit
  refine htype.bind ?_
  rw [if_pos (by decide)]
  exact leads_string_field h buf before rest c hbuf hoffset hlen hcur hmax

theorem loads_psv {row : Psv} (h : row.Fits) (psvs : List Psv) :
    Loads len (fun buf => parsePsv buf psvs) row.encode id (psvs ++ [row]) := by
  refine Leads.loads ?_
  unfold parsePsv
  refine (leads_string_field h.source).bind ((leads_string_field h.target).bind ?_)
  refine (leads_int_field row.priority).bind ((leads_int_field row.samplePeriod).bind ?_)
  refine (leads_int_field row.temp).bind ((leads_int_field row.domain).bind ?_)
  refine (leads_int_field row.controlKnob).bind ((leads_limit h.limit).bind ?_)
  refine (leads_int_field row.stepSize).bind ((leads_int_field row.limitCoeff).bind ?_)
  refine (leads_int_field row.unlimitCoeff).bind ((leads_skip_field 0).map ?_)
  rw [h.priority.narrowed, h.samplePeriod.narrowed, h.temp.narrowed, h.domain.narrowed,
    h.controlKnob.narrowed, h.stepSize.narrowed, h.limitCoeff.narrowed, h.unlimitCoeff.narrowed]

/-! ## ITMT -/

/-- The version of a table whose rows are not of a fixed size. -/
inductive ItmtVersion where
  | one
  | two
  deriving DecidableEq

/-- The number that stands for the version. -/
def ItmtVersion.number : ItmtVersion → Nat
  | .one => 1
  | .two => 2

/-- The fields of version 2 that are not used. -/
structure ItmtDummies where
  dummy1 : Nat
  dummyStr : Bytes
  dummy2 : Nat
  dummy3 : Nat
  dummy1_lt : dummy1 < 2 ^ 64
  dummyStr_text : 0 ∉ dummyStr
  dummy2_lt : dummy2 < 2 ^ 64
  dummy3_lt : dummy3 < 2 ^ 64

/-- A row with what is not used of it. -/
structure ItmtRow where
  entry : ItmtEntry
  dummies : ItmtDummies

/-- The numbers and texts of the entry survive. -/
structure ItmtEntry.Fits (entry : ItmtEntry) : Prop where
  target : 0 ∉ entry.target
  tripPoint : IsInt entry.tripPoint
  pl1Min : 0 ∉ entry.pl1Min
  pl1Max : 0 ∉ entry.pl1Max
  unused : 0 ∉ entry.unused

/-- The fields behind the entry. -/
def ItmtDummies.encode (d : ItmtDummies) : ItmtVersion → Bytes
  | .one => uintField d.dummy1
  | .two => uintField d.dummy1 ++ (stringField d.dummyStr ++ (uintField d.dummy2 ++
      uintField d.dummy3))

def ItmtRow.encode (version : ItmtVersion) (row : ItmtRow) : Bytes :=
  stringField row.entry.target ++ (intField row.entry.tripPoint ++
    (stringField row.entry.pl1Min ++ (stringField row.entry.pl1Max ++
      (stringField row.entry.unused ++ row.dummies.encode version))))

theorem loads_itmt_row {version : ItmtVersion} {row : ItmtRow} (h : row.entry.Fits)
    (entries : List ItmtEntry) :
    Loads len (fun buf => parseItmtEntry version.number buf entries) (row.encode version) id
      (entries ++ [row.entry]) := by
  obtain ⟨entry, dummies⟩ := row
  refine Leads.loads ?_
  unfold parseItmtEntry
  refine (leads_string_field h.target).bind ((leads_int_field entry.tripPoint).bind ?_)
  refine (leads_string_field h.pl1Min).bind ((leads_string_field h.pl1Max).bind ?_)
  refine (leads_string_field h.unused).bind ?_
  rw [h.tripPoint.narrowed]
  cases version with
  | one => exact (leads_skip_field dummies.dummy1).map rfl
  | two =>
      refine (leads_uint_field dummies.dummy1_lt).bind ?_
      refine (leads_string_field dummies.dummyStr_text).bind ?_
      exact (leads_uint_field dummies.dummy2_lt).bind ((leads_uint_field dummies.dummy3_lt).map rfl)

/-! ## TRT -/

/-- A row of a table that is only logged. -/
structure TrtEntry where
  source : Bytes
  dest : Bytes
  numbers : List Nat
  source_text : 0 ∉ source
  dest_text : 0 ∉ dest
  numbers_length : numbers.length = 6
  numbers_lt : ∀ n ∈ numbers, n < 2 ^ 64

def TrtEntry.encode (row : TrtEntry) : Bytes :=
  stringField row.source ++ (stringField row.dest ++ row.numbers.flatMap uintField)

/-- A pass of the loop of `parse_trt`. -/
def parseTrtRow (buf : Bytes) : Decoder Unit := do
  let _ ← getStdString buf
  let _ ← getStdString buf
  let _ ← getUint64 buf
  let _ ← getUint64 buf
  let _ ← getUint64 buf
  let _ ← getUint64 buf
  let _ ← getUint64 buf
  let _ ← getUint64 buf
  pure ()

theorem loads_trt_entry (row : TrtEntry) : Loads len parseTrtRow row.encode id () := by
  obtain ⟨source, dest, numbers, hsource, hdest, hlength, hlt⟩ := row
  match numbers, hlength with
  | [n₁, n₂, n₃, n₄, n₅, n₆], _ =>
      simp only [List.forall_mem_cons] at hlt
      obtain ⟨h₁, h₂, h₃, h₄, h₅, h₆, -⟩ := hlt
      refine Leads.loads ?_
      refine (leads_string_field hsource).bind ((leads_string_field hdest).bind ?_)
      refine (leads_uint_field h₁).bind ((leads_uint_field h₂).bind ?_)
      refine (leads_uint_field h₃).bind ((leads_uint_field h₄).bind ?_)
      refine (leads_uint_field h₅).bind ?_
      show Leads len _ (uintField n₆ ++ []) 0 ()
      rw [List.append_nil]
      exact (leads_uint_field h₆).map rfl

/-! ## VSCT and VSPT -/

/-- The numbers and texts of the row survive. -/
structure VsctEntry.Fits (row : VsctEntry) : Prop where
  target : 0 ∉ row.target
  domainType : IsInt row.domainType
  coeffType : IsInt row.coeffType
  coeff : IsInt row.coeff
  operation : IsInt row.operation
  alpha : IsInt row.alpha
  triggerPoint : IsInt row.triggerPoint

def VsctEntry.encode (row : VsctEntry) : Bytes :=
  stringField row.target ++ (intField row.domainType ++ (intField row.coeffType ++
    (intField row.coeff ++ (intField row.operation ++ (intField row.alpha ++
      intField row.triggerPoint)))))

/-- A pass of the loop of `parse_vsct`. -/
def parseVsctRow (buf : Bytes) : Decoder Unit := do
  let target ← getStdString buf
  let domainType ← getUint64 buf
  let coeffType ← getUint64 buf
  let coeff ← getUint64 buf
  let operation ← getUint64 buf
  let alpha ← getUint64 buf
  let triggerPoint ← getUint64 buf
  update fun g => { g with vscts := g.vscts ++
    [{ target, domainType := int32 domainType, coeffType := int32 coeffType,
       coeff := int32 coeff, operation := int32 operation, alpha := int32 alpha,
       triggerPoint := int32 triggerPoint }] }

theorem loads_vsct_entry {row : VsctEntry} (h : row.Fits) :
    Loads len parseVsctRow row.encode
      (fun g => { g with vscts := g.vscts ++ [row] }) () := by
  refine (leads_string_field h.target).before ((leads_int_field row.domainType).before ?_)
  refine (leads_int_field row.coeffType).before ((leads_int_field row.coeff).before ?_)
  refine (leads_int_field row.operation).before ((leads_int_field row.alpha).before ?_)
  refine (leads_int_field row.triggerPoint).store ?_
  rw [h.domainType.narrowed, h.coeffType.narrowed, h.coeff.narrowed, h.operation.narrowed,
    h.alpha.narrowed, h.triggerPoint.narrowed]

/-- A row as it is written: the temperature in tenths of a Kelvin and the period in tenths of a
second. -/
structure VsptRow where
  virtualTemp : Int
  samplePeriod : Nat
  virtualTemp_int : IsInt virtualTemp
  samplePeriod_le : (samplePeriod : Int) ≤ intMax

def VsptRow.encode (row : VsptRow) : Bytes :=
  intField row.virtualTemp ++ uintField row.samplePeriod

/-- The row as it is stored, in degrees Celsius and seconds. -/
def VsptRow.entry (row : VsptRow) : VsptEntry where
  virtualTemp := deciKelvinToCelsius row.virtualTemp
  samplePeriod := (row.samplePeriod / 10 : Nat)

/-- A pass of the loop of `parse_vspt`. -/
def parseVsptRow (buf : Bytes) : Decoder Unit := do
  let virtualTemp ← getUint64 buf
  let samplePeriod ← getUint64 buf
  update fun g => { g with vspts := g.vspts ++
    [{ virtualTemp := deciKelvinToCelsius (int32 virtualTemp),
       samplePeriod := int32 (samplePeriod / 10 : Nat) }] }

theorem loads_vspt_row (row : VsptRow) :
    Loads len parseVsptRow row.encode
      (fun g => { g with vspts := g.vspts ++ [row.entry] }) () := by
  have hle := row.samplePeriod_le
  have hlt : row.samplePeriod < 2 ^ 64 := by
    simp only [intMax] at hle
    omega
  have hperiod : int32 ((row.samplePeriod / 10 : Nat) : Int) = (row.samplePeriod / 10 : Nat) :=
    int32_eq_self (by omega) (by omega)
  refine (leads_int_field row.virtualTemp).before ((leads_uint_field hlt).store ?_)
  rw [row.virtualTemp_int.narrowed, hperiod]
  rfl

end Rows

end Thermald.Gddv
