import Thermald.Config.CharTrim
import Thermald.Config.NullTexts

/-!
# The features file

`thermald-features.xml` can switch features of the daemon off. The list with one number for each
feature is made in the middle of `parser_init`, behind the checks of the file, and the result of
`parser_init` is not looked at. `features_kept_iff` says for which files every feature can be
looked up afterwards, and is supported unless a valid file says something else.
-/

namespace Thermald

/-! ## The parser -/

/-- The number of features, `MAX_FEATURE`. -/
def maxFeature : Nat := 4

/-- The members of `struct stat` that are looked at. -/
structure FileStat where
  uid : Nat
  mode : Nat

/-- What the calls of `parser_init` find: `stat`, `lstat` with the answer whether the file is a
symbolic link, `stat` again, and the root element with what follows it if `libxml2` reads a
document. Without a root element the list is empty. -/
structure FeaturesFile where
  stat : Option FileStat
  lstat : Option Bool
  statAgain : Bool
  document : Option (List XmlNode)

/-- `parser_init`: the result, the list of features and the root element. -/
def FeaturesFile.parserInit (file : FeaturesFile) (featureList : List Int) :
    Bool × List Int × List XmlNode :=
  match file.stat with
  | none => (false, featureList, [])
  | some status =>
    if status.uid ≠ 0 then (false, featureList, [])
    else if status.mode &&& 0o022 ≠ 0 then (false, featureList, [])
    else
      match file.lstat with
      | none => (false, featureList, [])
      | some true => (false, featureList, [])
      | some false =>
        let featureList := List.replicate maxFeature 1
        if !file.statAgain then (false, featureList, [])
        else
          match file.document with
          | none => (false, featureList, [])
          | some root => (root ≠ [], featureList, root)

/-- `strtol` with base 10: the number, if there is one, and the text behind it. -/
def strtol (text : Bytes) : Option Int × Bytes :=
  match scanInt text with
  | none => (none, text)
  | some value =>
    let body := text.dropWhile isSpace
    let digits :=
      match body with
      | 45 :: rest => rest
      | 43 :: rest => rest
      | _ => body
    (some value, digits.dropWhile fun b => 48 ≤ b && b ≤ 57)

/-- A value of type `long`. -/
def isLong (value : Int) : Bool := -9223372036854775808 ≤ value && value ≤ 9223372036854775807

/-- The bytes of a text up to a null byte. -/
def textBytes (text : String) : Bytes := (utf8 text).takeWhile fun b => b ≠ 0

/-- `set_feature_value`, from where the text is there. The comparison of `endptr` is with the start
of the text before it is trimmed. -/
def setFeatureText (feature : Nat) (text : String) (featureList : List Int) :
    Option (List Int) := do
  let (p, buf) ← featuresCharTrim (textBytes text ++ [0])
  let str := (buf.drop p).takeWhile fun b => b ≠ 0
  let (number, behind) := strtol str
  let endptr := p + (str.length - behind.length)
  if endptr ≠ 0 ∧ behind = [] ∧ (number.all isLong) = true then
    pure (featureList.set feature (int32 (number.getD 0)))
  else pure featureList

/-- `set_feature_value`. -/
def setFeatureValue (children : List XmlNode) (feature : Nat) (featureList : List Int) :
    Option (List Int) :=
  match xmlNodeListGetString children with
  | none => some featureList
  | some text => setFeatureText feature text featureList

/-- The names of the features. -/
def featureNames : List (String × Nat) :=
  [("DbusControl", 0), ("XMLThermalConfig", 1), ("DataVaultFromFileSystem", 2),
    ("KobjectUeventSupport", 3)]

/-- The feature of a name. -/
def featureOf (name : String) : Option Nat :=
  (featureNames.find? fun e => thdStrcasecmpN name e.1).map (·.2)

/-- The loop body of `parse_features`, with `parsed_any`. -/
def readFeature (s : List Int × Bool) : XmlNode → Option (List Int × Bool)
  | .element name children =>
    match featureOf name with
    | some feature => (setFeatureValue children feature s.1).map (·, true)
    | none => some s
  | .text _ => some s
  | .comment => some s

/-- `parse_features`. -/
def parseFeatures (nodes : List XmlNode) (featureList : List Int) : Option (List Int × Bool) :=
  nodes.foldlM readFeature (featureList, false)

/-- The loop body of `parse`. -/
def readFeatures (s : List Int × Bool) : XmlNode → Option (List Int × Bool)
  | .element name children =>
    if thdStrcasecmpN name "ThermaldFeatures" then
      (parseFeatures children s.1).map fun r => (r.1, s.2 || r.2)
    else some s
  | .text _ => some s
  | .comment => some s

/-- `start_parse`. -/
def startParseFeatures (root : List XmlNode) (featureList : List Int) :
    Option (List Int × Bool) :=
  root.foldlM readFeatures (featureList, false)

/-- `thd_parse_features`: the list of features that it leaves. -/
def FeaturesFile.thdParseFeatures (file : FeaturesFile) : Option (List Int) := do
  let (_, featureList, root) := file.parserInit []
  let (featureList, parsed) ← startParseFeatures root featureList
  if parsed then
    let (featureList, _) ← startParseFeatures root featureList
    pure featureList
  else pure featureList

/-- `check_feature`. There is no result if no element of the list is read. -/
def checkFeature (featureList : List Int) (feature : Nat) : Option Int :=
  if maxFeature ≤ feature then some thdError else featureList[feature]?

/-! ## What it is for -/

/-- The file belongs to root, nobody else can write it, and it is no symbolic link. -/
def FeaturesFile.trusted (file : FeaturesFile) : Bool :=
  file.stat.any (fun status => status.uid = 0 && status.mode &&& 0o022 = 0) &&
    file.lstat = some false

/-- The root element, if the file is read. -/
def FeaturesFile.root (file : FeaturesFile) : List XmlNode :=
  if file.statAgain then file.document.getD [] else []

/-- The elements of features, with their texts. -/
def featureElements (nodes : List XmlNode) : List (Nat × Option String) :=
  nodes.filterMap fun
    | .element name children => (featureOf name).map (·, xmlNodeListGetString children)
    | .text _ => none
    | .comment => none

/-- The elements of features in all lists of features. -/
def allFeatureElements (root : List XmlNode) : List (Nat × Option String) :=
  (elementsNamed "ThermaldFeatures" root).flatMap featureElements

/-- The value that a text stands for. -/
def featureNumber (text : String) : Option Int :=
  match strtol (trimmed (textBytes text)) with
  | (some value, []) => if isLong value then some (int32 value) else none
  | _ => none

/-- The values that some elements set. -/
def settings (elements : List (Nat × Option String)) : List (Nat × Int) :=
  elements.filterMap fun e => (e.2.bind featureNumber).map (e.1, ·)

/-- The last value for a feature. -/
def lastSetting (feature : Nat) (settings : List (Nat × Int)) : Option Int :=
  ((settings.filter fun e => e.1 = feature).getLast?).map (·.2)

/-- The value that a feature is meant to have: 1, unless a file that is trusted and can be read
sets it. -/
def FeaturesFile.intended (file : FeaturesFile) (feature : Nat) : Int :=
  if file.trusted then
    (lastSetting feature (settings (allFeatureElements file.root))).getD 1
  else 1

/-- Each feature can be looked up, and has the value that it is meant to have. -/
def FeaturesFile.FeaturesKept (file : FeaturesFile) : Prop :=
  ∃ featureList, file.thdParseFeatures = some featureList ∧
    ∀ feature < maxFeature, checkFeature featureList feature = some (file.intended feature)

/-- The texts of features. -/
def FeaturesFile.texts (file : FeaturesFile) : List String :=
  (allFeatureElements file.root).filterMap (·.2)

/-- No text of a feature is white space only. -/
def FeaturesFile.NoBlankTexts (file : FeaturesFile) : Prop :=
  ∀ text ∈ file.texts, textBytes text = [] ∨ ∃ b ∈ textBytes text, isSpace b = false

/-- `libxml2` has a limit for the length of a text, far below 2 GiB. -/
def FeaturesFile.ShortTexts (file : FeaturesFile) : Prop :=
  ∀ text ∈ file.texts, ((textBytes text).length : Int) ≤ intMax

/-! ## The checks of the file -/

section Checks

variable {file : FeaturesFile}

/-- A trusted file leaves a list in which all features are supported. -/
theorem parser_init_trusted (h : file.trusted = true) (featureList : List Int) :
    ∃ ok, file.parserInit featureList = (ok, List.replicate maxFeature 1, file.root) := by
  unfold FeaturesFile.trusted at h
  unfold FeaturesFile.parserInit FeaturesFile.root
  cases hstat : file.stat with
  | none => simp [hstat] at h
  | some status =>
      simp only [hstat, Option.any_some, Bool.and_eq_true, decide_eq_true_eq] at h
      obtain ⟨⟨huid, hmode⟩, hlstat⟩ := h
      simp only [huid, hmode, hlstat, ne_eq, not_true_eq_false, if_false]
      cases hagain : file.statAgain with
      | false => exact ⟨false, rfl⟩
      | true =>
          cases file.document with
          | none => exact ⟨false, rfl⟩
          | some root => exact ⟨root ≠ [], rfl⟩

/-- Any other file leaves the list as it was. -/
theorem parser_init_untrusted (h : file.trusted = false) (featureList : List Int) :
    file.parserInit featureList = (false, featureList, []) := by
  unfold FeaturesFile.trusted at h
  unfold FeaturesFile.parserInit
  cases hstat : file.stat with
  | none => rfl
  | some status =>
      simp only [hstat, Option.any_some] at h
      by_cases huid : status.uid = 0
      · by_cases hmode : status.mode &&& 0o022 = 0
        · simp only [huid, hmode, decide_true, Bool.true_and, decide_eq_false_iff_not] at h
          simp only [huid, hmode, ne_eq, not_true_eq_false, if_false]
          cases hlstat : file.lstat with
          | none => rfl
          | some link =>
              cases link with
              | false => exact absurd hlstat h
              | true => rfl
        · simp [huid, hmode]
      · simp [huid]

/-- Then there is no element to look up. -/
theorem features_unset (h : file.trusted = false) : file.thdParseFeatures = some [] := by
  unfold FeaturesFile.thdParseFeatures
  rw [parser_init_untrusted h]
  rfl

end Checks

/-! ## One text -/

section Text

theorem text_bytes_no_nul (text : String) : 0 ∉ textBytes text := by
  intro hmem
  have hne := List.mem_takeWhile_imp hmem
  simp at hne

/-- Without a number nothing is consumed. -/
theorem strtol_none {text behind : Bytes} (h : strtol text = (none, behind)) : behind = text := by
  unfold strtol at h
  cases hscan : scanInt text with
  | none =>
      rw [hscan] at h
      exact (Prod.mk.inj h).2.symm
  | some value =>
      rw [hscan] at h
      exact absurd (Prod.mk.inj h).1 (Option.some_ne_none value)

theorem strtol_nil : strtol [] = (none, []) := rfl

/-- A text that can be trimmed sets its feature if it stands for a number. -/
theorem set_feature_text_eq {text : String} (h : Trimmable (textBytes text)) (feature : Nat)
    (featureList : List Int) : setFeatureText feature text featureList =
      some ((featureNumber text).elim featureList fun value => featureList.set feature value) := by
  obtain ⟨p, buf, htrim, -, -, hstring⟩ :=
    (trims_iff_trimmable (text_bytes_no_nul text)).mpr h
  unfold setFeatureText featureNumber
  have htrim : featuresCharTrim (textBytes text ++ [0]) = some (p, buf) := htrim
  simp only [htrim, hstring, Option.bind_eq_bind, Option.bind_some]
  cases hstrtol : strtol (trimmed (textBytes text)) with
  | mk number behind =>
      cases number with
      | none =>
          rw [strtol_none hstrtol]
          -- there is nothing left only of the empty text, which stays where it is
          have hstart : trimmed (textBytes text) = [] → p = 0 := by
            intro hnil
            rcases h with hempty | ⟨hne, -⟩
            · rw [hempty] at htrim
              exact (Prod.mk.inj (Option.some.inj htrim)).1.symm
            · exact absurd hnil hne
          have hreject : ¬ (p + ((trimmed (textBytes text)).length -
              (trimmed (textBytes text)).length) ≠ 0 ∧ trimmed (textBytes text) = [] ∧
              (Option.all isLong none) = true) := by
            rintro ⟨hend, hnil, -⟩
            rw [hnil, hstart hnil] at hend
            exact hend rfl
          rw [if_neg hreject]
          rfl
      | some value =>
          have hne : trimmed (textBytes text) ≠ [] := by
            intro hnil
            rw [hnil, strtol_nil] at hstrtol
            cases hstrtol
          have hlength : 0 < (trimmed (textBytes text)).length := List.length_pos_iff.mpr hne
          cases behind with
          | cons b rest =>
              rw [if_neg fun hall => List.cons_ne_nil b rest hall.2.1]
              rfl
          | nil =>
              have hend : p + ((trimmed (textBytes text)).length - ([] : Bytes).length) ≠ 0 := by
                simp only [List.length_nil]
                omega
              cases hlong : isLong value with
              | false => simp [hlong]
              | true => simp [hlong, hne]

/-- A text of white space only is undefined. -/
theorem set_feature_text_blank {text : String} (hne : textBytes text ≠ [])
    (h : ∀ b ∈ textBytes text, isSpace b = true) (feature : Nat) (featureList : List Int) :
    setFeatureText feature text featureList = none := by
  have htrim : featuresCharTrim (textBytes text ++ [0]) = none := trim_blank hne h
  unfold setFeatureText
  simp [htrim]

end Text

/-! ## The loops -/

/-- What an element of a feature does to the list. -/
def setElement (featureList : List Int) (e : Nat × Option String) : Option (List Int) :=
  match e.2 with
  | none => some featureList
  | some text => setFeatureText e.1 text featureList

section Loops

/-- `parse_features` goes through the elements of features. -/
theorem read_feature_loop (nodes : List XmlNode) (featureList : List Int) (parsed : Bool) :
    nodes.foldlM readFeature (featureList, parsed) =
      ((featureElements nodes).foldlM setElement featureList).map
        (·, parsed || !(featureElements nodes).isEmpty) := by
  induction nodes generalizing featureList parsed with
  | nil => simp [featureElements]
  | cons n rest ih =>
      rw [List.foldlM_cons]
      cases n with
      | text content => exact ih featureList parsed
      | comment => exact ih featureList parsed
      | element name children =>
          cases hname : featureOf name with
          | none =>
              have hstep : readFeature (featureList, parsed) (.element name children) =
                  some (featureList, parsed) := by
                simp only [readFeature, hname]
              have hrest : featureElements (.element name children :: rest) =
                  featureElements rest := by
                simp [featureElements, hname]
              rw [hstep, hrest]
              exact ih featureList parsed
          | some feature =>
              have hstep : readFeature (featureList, parsed) (.element name children) =
                  (setElement featureList (feature, xmlNodeListGetString children)).map
                    (·, true) := by
                simp only [readFeature, hname]
                unfold setFeatureValue setElement
                rfl
              have hrest : featureElements (.element name children :: rest) =
                  (feature, xmlNodeListGetString children) :: featureElements rest := by
                simp [featureElements, hname]
              rw [hstep, hrest, List.foldlM_cons]
              cases setElement featureList (feature, xmlNodeListGetString children) with
              | none => rfl
              | some next =>
                  show rest.foldlM readFeature (next, true) = _
                  rw [ih next true]
                  simp

/-- `parse` goes through those in all lists of features. -/
theorem read_features_loop (root : List XmlNode) (featureList : List Int) (parsed : Bool) :
    root.foldlM readFeatures (featureList, parsed) =
      ((allFeatureElements root).foldlM setElement featureList).map
        (·, parsed || !(allFeatureElements root).isEmpty) := by
  induction root generalizing featureList parsed with
  | nil => simp [allFeatureElements, elementsNamed]
  | cons n rest ih =>
      rw [List.foldlM_cons]
      cases n with
      | text content => exact ih featureList parsed
      | comment => exact ih featureList parsed
      | element name children =>
          by_cases hname : thdStrcasecmpN name "ThermaldFeatures" = true
          · have hstep : readFeatures (featureList, parsed) (.element name children) =
                ((featureElements children).foldlM setElement featureList).map
                  (·, parsed || !(featureElements children).isEmpty) := by
              simp only [readFeatures, hname, if_true, parseFeatures, read_feature_loop,
                Option.map_map, Bool.false_or]
              rfl
            have hrest : allFeatureElements (.element name children :: rest) =
                featureElements children ++ allFeatureElements rest := by
              simp [allFeatureElements, elementsNamed, hname]
            rw [hstep, hrest, List.foldlM_append]
            cases (featureElements children).foldlM setElement featureList with
            | none => rfl
            | some next =>
                show rest.foldlM readFeatures
                  (next, parsed || !(featureElements children).isEmpty) = _
                rw [ih]
                cases featureElements children <;> simp
          · have hstep : readFeatures (featureList, parsed) (.element name children) =
                some (featureList, parsed) := by
              simp [readFeatures, hname]
            have hrest : allFeatureElements (.element name children :: rest) =
                allFeatureElements rest := by
              simp [allFeatureElements, elementsNamed, hname]
            rw [hstep, hrest]
            exact ih featureList parsed

/-- The elements set the list if their texts can be trimmed. -/
theorem set_elements_eq {elements : List (Nat × Option String)}
    (h : ∀ e ∈ elements, ∀ text ∈ e.2, Trimmable (textBytes text)) (featureList : List Int) :
    elements.foldlM setElement featureList =
      some ((settings elements).foldl (fun l e => l.set e.1 e.2) featureList) := by
  induction elements generalizing featureList with
  | nil => rfl
  | cons e rest ih =>
      have hrest := ih fun e he => h e (List.mem_cons_of_mem _ he)
      obtain ⟨feature, text⟩ := e
      rw [List.foldlM_cons]
      cases text with
      | none => exact hrest featureList
      | some text =>
          have htext : Trimmable (textBytes text) := h _ List.mem_cons_self text rfl
          have hstep : setElement featureList (feature, some text) = _ :=
            set_feature_text_eq htext feature featureList
          rw [hstep]
          show rest.foldlM setElement _ = _
          rw [hrest]
          cases hnumber : featureNumber text with
          | none => simp [settings, hnumber]
          | some value => simp [settings, hnumber]

/-- A blank text among them is undefined. -/
theorem set_elements_blank {elements : List (Nat × Option String)} {text : String}
    (hmem : text ∈ elements.filterMap (·.2)) (hne : textBytes text ≠ [])
    (h : ∀ b ∈ textBytes text, isSpace b = true) (featureList : List Int) :
    elements.foldlM setElement featureList = none := by
  obtain ⟨e, he, htext⟩ := List.mem_filterMap.mp hmem
  obtain ⟨front, back, rfl⟩ := List.append_of_mem he
  rw [List.foldlM_append]
  cases front.foldlM setElement featureList with
  | none => rfl
  | some next =>
      have hstep : setElement next e = none := by
        unfold setElement
        simp only [htext]
        exact set_feature_text_blank hne h e.1 next
      show (e :: back).foldlM setElement next = none
      rw [List.foldlM_cons, hstep]
      rfl

/-- A list of values that are set one after the other has the last one at each place. -/
theorem get_settings (values : List (Nat × Int)) (featureList : List Int) {feature : Nat}
    {value : Int} (h : featureList[feature]? = some value) :
    (values.foldl (fun l e => l.set e.1 e.2) featureList)[feature]? =
      some ((lastSetting feature values).getD value) := by
  induction values using List.reverseRecOn with
  | nil => exact h
  | append_singleton values e ih =>
      rw [List.foldl_append]
      show ((values.foldl (fun l e => l.set e.1 e.2) featureList).set e.1 e.2)[feature]? = _
      have hlength : feature <
          (values.foldl (fun l e => l.set e.1 e.2) featureList).length :=
        (List.getElem?_eq_some_iff.mp ih).1
      by_cases heq : e.1 = feature
      · subst heq
        rw [List.getElem?_set_self hlength]
        simp [lastSetting]
      · rw [List.getElem?_set_ne heq, ih]
        simp [lastSetting, heq]

end Loops

/-! ## The list that is left -/

section Result

variable {file : FeaturesFile}

/-- Both passes over a trusted file. -/
theorem thd_parse_features_trusted (h : file.trusted = true) :
    file.thdParseFeatures =
      ((allFeatureElements file.root).foldlM setElement (List.replicate maxFeature 1)).bind
        fun featureList =>
          if (allFeatureElements file.root).isEmpty then some featureList
          else (allFeatureElements file.root).foldlM setElement featureList := by
  obtain ⟨ok, hinit⟩ := parser_init_trusted h []
  unfold FeaturesFile.thdParseFeatures startParseFeatures
  rw [hinit]
  simp only [read_features_loop, Bool.false_or, Option.bind_eq_bind]
  cases hfirst : (allFeatureElements file.root).foldlM setElement (List.replicate maxFeature 1) with
  | none => rfl
  | some featureList =>
      cases hempty : (allFeatureElements file.root).isEmpty with
      | true => rfl
      | false =>
          cases hsecond : (allFeatureElements file.root).foldlM setElement featureList <;>
            simp [hsecond]

/-- Short texts that are not blank can be trimmed. -/
theorem texts_trimmable (hshort : file.ShortTexts) (hblank : file.NoBlankTexts) :
    ∀ e ∈ allFeatureElements file.root, ∀ text ∈ e.2, Trimmable (textBytes text) := by
  intro e he text htext
  have hmem : text ∈ file.texts := List.mem_filterMap.mpr ⟨e, he, htext⟩
  exact (trimmable_of_short (hshort text hmem)).mpr (hblank text hmem)

/-- A trusted file without blank texts leaves the values that it sets. -/
theorem features_kept (h : file.trusted = true) (hshort : file.ShortTexts)
    (hblank : file.NoBlankTexts) : file.FeaturesKept := by
  have hset := set_elements_eq (texts_trimmable hshort hblank)
  have hones : ∀ feature < maxFeature,
      (List.replicate maxFeature (1 : Int))[feature]? = some 1 := fun feature hfeature =>
    List.getElem?_replicate_of_lt hfeature
  have hintended (feature : Nat) : file.intended feature =
      (lastSetting feature (settings (allFeatureElements file.root))).getD 1 := by
    unfold FeaturesFile.intended
    rw [if_pos h]
  have hcheck {feature : Nat} (hfeature : feature < maxFeature) (featureList : List Int) :
      checkFeature featureList feature = featureList[feature]? :=
    if_neg (Nat.not_le.mpr hfeature)
  unfold FeaturesFile.FeaturesKept
  rw [thd_parse_features_trusted h, hset]
  simp only [Option.bind_some]
  split
  · refine ⟨_, rfl, fun feature hfeature => ?_⟩
    rw [hcheck hfeature, hintended]
    exact get_settings _ _ (hones feature hfeature)
  · refine ⟨_, hset _, fun feature hfeature => ?_⟩
    rw [hcheck hfeature, hintended]
    -- the second pass sets the same values again
    rw [get_settings _ _ (get_settings _ _ (hones feature hfeature))]
    cases lastSetting feature (settings (allFeatureElements file.root)) <;> rfl

end Result

/-- After any outcome of `thd_parse_features` each feature can be looked up and is supported unless
a valid file says something else, exactly if the file is trusted and no text of a feature in it is
white space only. -/
theorem features_kept_iff (file : FeaturesFile) (hshort : file.ShortTexts) :
    file.FeaturesKept ↔ file.trusted = true ∧ file.NoBlankTexts := by
  constructor
  · rintro ⟨featureList, hparse, hkept⟩
    cases htrusted : file.trusted with
    | false =>
        -- the list is empty
        rw [features_unset htrusted] at hparse
        obtain rfl := Option.some.inj hparse
        exact absurd (hkept 0 (by decide)) (by simp [checkFeature, maxFeature])
    | true =>
        refine ⟨rfl, fun text htext => ?_⟩
        by_contra hblank
        rw [not_or, not_exists] at hblank
        have hspace : ∀ b ∈ textBytes text, isSpace b = true := fun b hb => by
          simpa [hb] using hblank.2 b
        rw [thd_parse_features_trusted htrusted, set_elements_blank htext hblank.1 hspace] at hparse
        cases hparse
  · rintro ⟨htrusted, hblank⟩
    exact features_kept htrusted hshort hblank

/-- A file that switches the D-Bus interface off. -/
def dbusOff : FeaturesFile where
  stat := some ⟨0, 0o644⟩
  lstat := some false
  statAgain := true
  document := some [.element "ThermaldFeatures" [.element "DbusControl" [.text " 0\n"]]]

/-- Its only text is short and not blank. -/
theorem dbus_off_kept : dbusOff.FeaturesKept := by
  have htexts : dbusOff.texts = [" 0\n"] := by decide +kernel
  refine (features_kept_iff dbusOff ?_).mpr ⟨by decide, ?_⟩
  · intro text htext
    rw [htexts, List.mem_singleton] at htext
    rw [htext]
    decide
  · intro text htext
    rw [htexts, List.mem_singleton] at htext
    rw [htext]
    exact .inr ⟨48, by decide, by decide⟩

/-- There is no file. -/
def noFile : FeaturesFile := ⟨none, none, false, none⟩

/-- The list is empty, and the first look-up reads behind its end. -/
theorem no_file_not_kept : noFile.thdParseFeatures = some [] ∧ checkFeature [] 0 = none ∧
    ¬ noFile.FeaturesKept := by
  refine ⟨rfl, rfl, ?_⟩
  rintro ⟨featureList, hparse, hkept⟩
  obtain rfl : [] = featureList := Option.some.inj hparse
  exact absurd (hkept 0 (by decide)) (Option.some_ne_none _ ∘ Eq.symm)

end Thermald
