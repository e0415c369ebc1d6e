import Thermald.Config.XmlText
import Thermald.Firmware.Generated

/-!
# Lines as trees

The lines that `generate_conf` writes are those of a tree: each element begins a line, and the white
space in front of it is a text beside it. A loop over such nodes sees the elements only.
-/

namespace Thermald

namespace Firmware

open XmlText

/-! ## Nodes on lines -/

/-- An element with a text. -/
def textNode (name text : String) : XmlNode :=
  .element name (if text = "" then [] else [.text text])

/-- A new line and its indentation. -/
def breakNode (pre : String) : XmlNode := .text ("\n" ++ pre)

/-- The nodes of an element that has its end tag on a line of its own. -/
def inner (pre : String) (lines : List (String × XmlNode)) : List XmlNode :=
  (lines.flatMap fun l => [breakNode l.1, l.2]) ++ [breakNode pre]

/-- An element with nodes on lines. -/
def blockNode (pre name : String) (lines : List (String × XmlNode)) : XmlNode :=
  .element name (inner pre lines)

/-- A node on a line, with its indentation. -/
def nodeLine (l : String × XmlNode) : String := l.1 ++ String.ofList (printNode l.2) ++ "\n"

theorem text_line_eq (pre name text : String) :
    textLine pre name text = nodeLine (pre, textNode name text) := by
  refine String.toList_inj.mp ?_
  unfold textLine nodeLine textNode
  split
  · rename_i hempty
    subst hempty
    simp [printNode, printNodes]
  · simp [printNode, printNodes]

/-- The new line in front of an element instead of the one behind it. -/
theorem print_inner (pre : String) (lines : List (String × XmlNode)) :
    printNodes (inner pre lines) =
      '\n' :: ((String.join (lines.map nodeLine)).toList ++ pre.toList) := by
  unfold inner
  induction lines with
  | nil => simp [printNodes, printNode, breakNode]
  | cons l rest ih =>
      show ("\n" ++ l.1).toList ++ (printNode l.2 ++
        printNodes ((rest.flatMap fun l => [breakNode l.1, l.2]) ++ [breakNode pre])) = _
      rw [ih]
      simp [nodeLine]

theorem block_lines_eq (pre name : String) (lines : List (String × XmlNode)) :
    startLine pre name ++ String.join (lines.map nodeLine) ++ stopLine pre name =
      nodeLine (pre, blockNode pre name lines) := by
  refine String.toList_inj.mp ?_
  simp [startLine, stopLine, nodeLine, blockNode, printNode, print_inner]

/-! ## Texts that are read as they are -/

/-- The indentation of a line. -/
def isIndentation (pre : String) : Bool := pre.toList.all fun c => c = '\t'

theorem is_indentation_more {pre : String} (h : isIndentation pre = true) :
    isIndentation (pre ++ "\t") = true := by
  unfold isIndentation at h ⊢
  simp only [String.toList_append, List.all_append, h, Bool.true_and]
  rfl

/-- Without a bracket there is no `]]>`. -/
theorem has_cdata_end_none {text : List Char} (h : ∀ c ∈ text, c ≠ ']') :
    hasCdataEnd text = false := by
  induction text with
  | nil => rfl
  | cons c rest ih =>
      have hc : c ≠ ']' := h c List.mem_cons_self
      simp [hasCdataEnd, hc, ih fun c hc => h c (List.mem_cons_of_mem _ hc)]

/-- Characters that are certainly no markup. -/
theorem plain_text_of {text : List Char} (h : ∀ c ∈ text, plainChar c = true ∧ c ≠ ']') :
    plainText text = true := by
  unfold plainText
  rw [has_cdata_end_none fun c hc => (h c hc).2, Bool.not_false, Bool.and_true,
    List.all_eq_true]
  exact fun c hc => (h c hc).1

theorem plain_break {pre : String} (h : isIndentation pre = true) :
    plainText ("\n" ++ pre).toList = true := by
  refine plain_text_of fun c hc => ?_
  have hchar : c = '\n' ∨ c = '\t' := by
    simp only [String.toList_append, List.mem_append] at hc
    rcases hc with hc | hc
    · exact .inl (by simpa using hc)
    · exact .inr (of_decide_eq_true (List.all_eq_true.mp h c hc))
  rcases hchar with rfl | rfl
  · decide
  · decide

theorem break_ne_empty (pre : String) : "\n" ++ pre ≠ "" := by
  intro h
  have hlist := congrArg String.toList h
  simp at hlist

/-- The lines can be printed. -/
structure PlainLine (l : String × XmlNode) : Prop where
  indentation : isIndentation l.1 = true
  normal : Normal false [l.2]

/-- A node that is no text, with printable nodes behind it. -/
theorem normal_cons {n : XmlNode} {rest : List XmlNode} (h : Normal false [n])
    (hrest : Normal true rest) : Normal false (n :: rest) := by
  cases h with
  | element hname hchildren _ => exact .element hname hchildren hrest

theorem normal_inner {pre : String} {lines : List (String × XmlNode)}
    (hpre : isIndentation pre = true) (h : ∀ l ∈ lines, PlainLine l) :
    Normal true (inner pre lines) := by
  unfold inner
  induction lines with
  | nil => exact .text (break_ne_empty pre) (plain_break hpre) .nil
  | cons l rest ih =>
      have hl := h l List.mem_cons_self
      refine .text (break_ne_empty l.1) (plain_break hl.indentation) ?_
      exact normal_cons hl.normal (ih fun l hl => h l (List.mem_cons_of_mem _ hl))

theorem PlainLine.block {pre name : String} {lines : List (String × XmlNode)}
    (hname : isName name.toList = true) (hpre : isIndentation pre = true)
    (h : ∀ l ∈ lines, PlainLine l) : PlainLine (pre, blockNode pre name lines) :=
  ⟨hpre, .element hname (normal_inner hpre h) .nil⟩

theorem PlainLine.text {pre name text : String} (hname : isName name.toList = true)
    (hpre : isIndentation pre = true) (htext : plainText text.toList = true) :
    PlainLine (pre, textNode name text) := by
  refine ⟨hpre, .element hname ?_ .nil⟩
  split
  · exact .nil
  · rename_i hne
    exact .text hne htext .nil

/-! ## Loops over lines -/

section Loops

variable {σ : Type}

/-- A loop that looks at elements sees the nodes on the lines. -/
theorem foldlM_inner {step : σ → XmlNode → Option σ}
    (htext : ∀ s content, step s (.text content) = some s) (pre : String)
    (lines : List (String × XmlNode)) (s : σ) :
    (inner pre lines).foldlM step s = lines.foldlM (fun s l => step s l.2) s := by
  unfold inner
  induction lines generalizing s with
  | nil =>
      show (step s (breakNode pre)).bind _ = _
      rw [breakNode, htext]
      rfl
  | cons l rest ih =>
      show ((step s (breakNode l.1)).bind fun s => (step s l.2).bind fun s => _) = _
      rw [breakNode, htext]
      show ((step s l.2).bind fun s => _) = _
      rw [List.foldlM_cons]
      congr 1
      funext s
      exact ih s

/-- Nodes on lines have a text. -/
theorem inner_has_text (pre : String) (lines : List (String × XmlNode)) :
    ∃ text, xmlNodeListGetString (inner pre lines) = some text := by
  cases lines with
  | nil => exact ⟨_, rfl⟩
  | cons l rest => exact ⟨_, rfl⟩

variable {table : List (String × Thermald.Entry σ)} {name : String}

/-- The value of an element with a text. -/
theorem read_text_node {read : String → σ → σ} (h : lookUp table name = some (.value read))
    {text : String} (hne : text ≠ "") (s : σ) :
    readElement table s (textNode name text) = some (read text s) := by
  have hstring : xmlNodeListGetString [.text text] = some text := by
    show some (text ++ "") = some text
    rw [String.append_empty]
  unfold textNode readElement
  rw [if_neg hne]
  simp only [hstring, h]

/-- A group on lines is read. -/
theorem read_block_node {read : List XmlNode → σ → Option σ}
    (h : lookUp table name = some (.group read)) (pre : String)
    (lines : List (String × XmlNode)) (s : σ) :
    readElement table s (blockNode pre name lines) = read (inner pre lines) s := by
  obtain ⟨text, htext⟩ := inner_has_text pre lines
  unfold blockNode readElement
  simp only [htext, h]

end Loops

end Firmware

end Thermald
