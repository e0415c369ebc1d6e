import Thermald.Config.Xml

/-!
# Reading a document

What XML says about the simplest documents: a declaration, elements without attributes, and texts of
characters that stand for themselves. `readDocument` has a result only for such documents, so that
any reader of XML has to agree with it where it has one. `read_document` says that it reads back
what is printed of a tree in which no text is empty or beside another one.
-/

namespace Thermald

namespace XmlText

/-! ## Texts and names -/

/-- A character that stands for itself in a text: any character that XML allows, without those that
begin a tag or a reference, and without a carriage return, which would be read as a newline. -/
def plainChar (c : Char) : Bool :=
  c = '\t' || c = '\n' ||
    (' ' ≤ c && c ≠ '<' && c ≠ '&' && c.toNat ≠ 0xFFFE && c.toNat ≠ 0xFFFF)

/-- The mark `]]>`, which is not allowed in a text. -/
def hasCdataEnd : List Char → Bool
  | [] => false
  | c :: rest => (c = ']' && rest.take 2 = [']', '>']) || hasCdataEnd rest

/-- A text that is read as it is. -/
def plainText (text : List Char) : Bool := text.all plainChar && !hasCdataEnd text

/-- A name of letters. -/
def isName (name : List Char) : Bool := name ≠ [] && name.all Char.isAlpha

/-! ## The reader -/

/-- What has been read: the characters of the last text, the nodes of the innermost element that is
open, and the open elements with the nodes in front of them. Everything but the names is in reverse
order. -/
structure Reader where
  pending : List Char
  nodes : List XmlNode
  opened : List (String × List XmlNode)

namespace Reader

/-- The last text ends. -/
def flush (r : Reader) : Option Reader :=
  if r.pending = [] then some r
  else if plainText r.pending.reverse then
    some { r with pending := [], nodes := .text (.ofList r.pending.reverse) :: r.nodes }
  else none

/-- A tag. -/
def readTag (r : Reader) (tag : List Char) : Option Reader :=
  match tag with
  | '/' :: name =>
    match r.opened with
    | [] => none
    | (top, before) :: opened =>
      if top.toList = name then some ⟨[], .element top r.nodes.reverse :: before, opened⟩
      else none
  | name => if isName name then some ⟨[], [], (.ofList name, r.nodes) :: r.opened⟩ else none

end Reader

/-- Characters are read one after the other. In a tag there are the characters of it so far. -/
def readChars : Option (List Char) → List Char → Reader → Option Reader
  | none, [], r => r.flush
  | some _, [], _ => none
  | none, c :: rest, r =>
    if c = '<' then r.flush.bind fun r => readChars (some []) rest r
    else readChars none rest { r with pending := c :: r.pending }
  | some tag, c :: rest, r =>
    if c = '>' then (r.readTag tag.reverse).bind fun r => readChars none rest r
    else readChars (some (c :: tag)) rest r

/-- The declaration. -/
def xmlDecl : List Char := "<?xml version=\"1.0\"?>".toList

/-- A text of white space. -/
def isWhiteNode : XmlNode → Bool
  | .text content => content.toList.all isSpaceChar
  | _ => false

/-- The root element of a document. Beside it there is white space only. -/
def readDocument (text : String) : Option XmlNode :=
  (text.toList.dropPrefix? xmlDecl).bind fun body =>
    (readChars none body ⟨[], [], []⟩).bind fun r =>
      if r.opened = [] then
        match r.nodes.filter fun n => !isWhiteNode n with
        | [.element name children] => some (.element name children)
        | _ => none
      else none

/-! ## Printing -/

mutual

/-- A node as it is printed. -/
def printNode : XmlNode → List Char
  | .element name children =>
    '<' :: name.toList ++ '>' :: (printNodes children ++ '<' :: '/' :: name.toList ++ ['>'])
  | .text content => content.toList
  | .comment => []

/-- Nodes one after the other. -/
def printNodes : List XmlNode → List Char
  | [] => []
  | n :: rest => printNode n ++ printNodes rest

end

/-- Nodes whose names and texts can be printed. No text is empty or beside another one, and the
first node is a text only if that is allowed. -/
inductive Normal : Bool → List XmlNode → Prop where
  | nil {textFirst : Bool} : Normal textFirst []
  | text {content : String} {rest : List XmlNode} (hne : content ≠ "")
      (hplain : plainText content.toList = true) (h : Normal false rest) :
      Normal true (.text content :: rest)
  | element {textFirst : Bool} {name : String} {children rest : List XmlNode}
      (hname : isName name.toList = true) (hchildren : Normal true children)
      (h : Normal true rest) : Normal textFirst (.element name children :: rest)

/-! ## Reading what is printed -/

section Reading

variable {pending : List Char} {nodes : List XmlNode} {opened : List (String × List XmlNode)}

/-- A text is over: there is a tag behind it, or nothing. -/
def TextEnds (tail : List Char) : Prop := tail = [] ∨ ∃ rest, tail = '<' :: rest

/-- Characters of a text are pending. -/
theorem read_text {text : List Char} (h : ∀ c ∈ text, c ≠ '<') (tail : List Char) :
    readChars none (text ++ tail) ⟨pending, nodes, opened⟩ =
      readChars none tail ⟨text.reverse ++ pending, nodes, opened⟩ := by
  induction text generalizing pending with
  | nil => rfl
  | cons c rest ih =>
      have hc : c ≠ '<' := h c List.mem_cons_self
      rw [List.cons_append, readChars, if_neg hc, ih fun c hc => h c (List.mem_cons_of_mem _ hc)]
      simp

/-- The characters of a tag are collected. -/
theorem read_tag {name tag : List Char} {r : Reader} (h : ∀ c ∈ name, c ≠ '>') (tail : List Char) :
    readChars (some tag) (name ++ '>' :: tail) r =
      (r.readTag (tag.reverse ++ name)).bind fun r => readChars none tail r := by
  induction name generalizing tag with
  | nil => simp [readChars]
  | cons c rest ih =>
      have hc : c ≠ '>' := h c List.mem_cons_self
      rw [List.cons_append, readChars, if_neg hc, ih fun c hc => h c (List.mem_cons_of_mem _ hc)]
      simp

/-- What is pending is a text when it ends. -/
theorem read_text_end {nodes' : List XmlNode} {tail : List Char}
    (hflush : (Reader.mk pending nodes opened).flush = some ⟨[], nodes', opened⟩)
    (htail : TextEnds tail) : readChars none tail ⟨pending, nodes, opened⟩ =
      readChars none tail ⟨[], nodes', opened⟩ := by
  rcases htail with rfl | ⟨rest, rfl⟩
  · rw [readChars, readChars, hflush]
    rfl
  · rw [readChars, readChars, hflush]
    rfl

/-- A name has no character with a meaning of its own. -/
theorem name_chars {name : List Char} (h : isName name = true) :
    ∀ c ∈ name, c ≠ '>' ∧ c ≠ '/' := by
  intro c hc
  have halpha : c.isAlpha = true := by
    simp only [isName, Bool.and_eq_true, List.all_eq_true] at h
    exact h.2 c hc
  constructor
  · intro heq
    rw [heq] at halpha
    exact absurd halpha (by decide)
  · intro heq
    rw [heq] at halpha
    exact absurd halpha (by decide)

/-- A start tag opens an element. -/
theorem read_start {name : String} (h : isName name.toList = true) (tail : List Char) :
    readChars none ('<' :: (name.toList ++ '>' :: tail)) ⟨[], nodes, opened⟩ =
      readChars none tail ⟨[], [], (name, nodes) :: opened⟩ := by
  have hchars := name_chars h
  have htag : (Reader.mk [] nodes opened).readTag name.toList =
      some ⟨[], [], (name, nodes) :: opened⟩ := by
    unfold Reader.readTag
    split
    · rename_i rest heq
      exact absurd rfl ((hchars '/' (heq ▸ List.mem_cons_self)).2)
    · rw [if_pos h, String.ofList_toList]
  rw [readChars, if_pos rfl]
  show readChars (some []) (name.toList ++ '>' :: tail) ⟨[], nodes, opened⟩ = _
  rw [read_tag (fun c hc => (hchars c hc).1)]
  show ((Reader.mk [] nodes opened).readTag name.toList).bind _ = _
  rw [htag]
  rfl

/-- An end tag closes it. -/
theorem read_stop {name : String} (h : isName name.toList = true) {before : List XmlNode}
    (tail : List Char) :
    readChars none ('<' :: '/' :: (name.toList ++ '>' :: tail))
        ⟨[], nodes, (name, before) :: opened⟩ =
      readChars none tail ⟨[], .element name nodes.reverse :: before, opened⟩ := by
  have hchars : ∀ c ∈ '/' :: name.toList, c ≠ '>' := by
    intro c hc
    rcases List.mem_cons.mp hc with rfl | hc
    · decide
    · exact (name_chars h c hc).1
  rw [readChars, if_pos rfl]
  show readChars (some []) (('/' :: name.toList) ++ '>' :: tail) _ = _
  rw [read_tag hchars]
  show ((if name.toList = name.toList then
    some (Reader.mk [] (.element name nodes.reverse :: before) opened) else none).bind _) = _
  rw [if_pos rfl]
  rfl

/-- What is printed of nodes is read as these nodes, behind those that there are. -/
theorem read_print {textFirst : Bool} {ns : List XmlNode} (h : Normal textFirst ns) :
    ∀ {pending : List Char} {nodes nodes' : List XmlNode} {opened : List (String × List XmlNode)}
      {tail : List Char}, (textFirst = true → pending = []) →
      (Reader.mk pending nodes opened).flush = some ⟨[], nodes', opened⟩ → TextEnds tail →
      readChars none (printNodes ns ++ tail) ⟨pending, nodes, opened⟩ =
        readChars none tail ⟨[], ns.reverse ++ nodes', opened⟩ := by
  induction h with
  | nil =>
      intro pending nodes nodes' opened tail _ hflush htail
      exact read_text_end hflush htail
  | @text content rest hne hplain hrest ih =>
      intro pending nodes nodes' opened tail hpending hflush htail
      obtain rfl := hpending rfl
      obtain rfl : nodes = nodes' := by simpa [Reader.flush] using hflush
      have hchars : ∀ c ∈ content.toList, c ≠ '<' := by
        intro c hc heq
        simp only [plainText, Bool.and_eq_true, List.all_eq_true] at hplain
        have hplainChar := hplain.1 c hc
        rw [heq] at hplainChar
        exact absurd hplainChar (by decide)
      have hnil : content.toList ≠ [] := by
        intro hnil
        exact hne (String.toList_eq_nil_iff.mp hnil)
      have hflush : (Reader.mk content.toList.reverse nodes opened).flush =
          some ⟨[], .text content :: nodes, opened⟩ := by
        unfold Reader.flush
        simp [hnil, hplain]
      show readChars none (content.toList ++ printNodes rest ++ tail) _ = _
      rw [List.append_assoc, read_text hchars, List.append_nil,
        ih (fun htrue => by cases htrue) hflush htail]
      simp
  | @element textFirst name children rest hname hchildren hrest ihchildren ihrest =>
      intro pending nodes nodes' opened tail _ hflush htail
      have hnone (nodes : List XmlNode) (opened : List (String × List XmlNode)) :
          (Reader.mk [] nodes opened).flush = some ⟨[], nodes, opened⟩ := rfl
      have hprint : printNodes (.element name children :: rest) ++ tail =
          '<' :: (name.toList ++ '>' :: (printNodes children ++
            '<' :: '/' :: (name.toList ++ '>' :: (printNodes rest ++ tail)))) := by
        simp [printNodes, printNode]
      rw [hprint, read_text_end hflush (.inr ⟨_, rfl⟩), read_start hname,
        ihchildren (fun _ => rfl) (hnone [] _) (.inr ⟨_, rfl⟩), read_stop hname,
        ihrest (fun _ => rfl) (hnone _ _) htail]
      simp

end Reading

/-- A document of a declaration and a root element with white space around it is read as the
element. -/
theorem read_document {name : String} {children : List XmlNode} {before after : String}
    (h : Normal true [.text before, .element name children, .text after])
    (hbefore : before.toList.all isSpaceChar = true)
    (hafter : after.toList.all isSpaceChar = true) {text : String}
    (htext : text.toList = xmlDecl ++
      printNodes [.text before, .element name children, .text after]) :
    readDocument text = some (.element name children) := by
  have hbody : readChars none (printNodes [.text before, .element name children, .text after])
      ⟨[], [], []⟩ = some ⟨[], [.text after, .element name children, .text before], []⟩ := by
    rw [← List.append_nil (printNodes _)]
    exact read_print h (fun _ => rfl) rfl (.inl rfl)
  have hdrop : text.toList.dropPrefix? xmlDecl =
      some (printNodes [.text before, .element name children, .text after]) := by
    rw [htext]
    exact List.dropPrefix?_eq_some_iff.mpr ⟨xmlDecl, rfl, beq_self_eq_true _⟩
  unfold readDocument
  rw [hdrop, Option.bind_some, hbody, Option.bind_some, if_pos rfl]
  simp [isWhiteNode, hbefore, hafter]

end XmlText

end Thermald
