import Thermald.Config.Info

/-!
# Documents and the loops of the parser

The tree that `libxml2` makes of `thermal-conf.xml`, as far as the parser looks at it: elements with
their names and children, and texts. `xmlNodeListGetString` is the text of a list of nodes, or null
if there is none.

All handlers of the parser are loops over the children of an element that compare the name of each
element with some names. Most of them look only at elements with a text, and then either use the
text or hand the children to another handler: these are tables, read by `readElements`. The others
look for elements of one name: these are `readEach`, or `readRecords` where a local variable of the
loop is filled for one element after the other. The result `none` is the end of the process by
a null pointer.
-/

namespace Thermald

/-- A node of the tree. -/
inductive XmlNode where
  | element (name : String) (children : List XmlNode)
  | text (content : String)
  | comment

/-- `xmlNodeListGetString`: the texts among the nodes, one after the other. -/
def xmlNodeListGetString : List XmlNode → Option String
  | [] => none
  | .text content :: rest => some (content ++ (xmlNodeListGetString rest).getD "")
  | .element _ _ :: rest => xmlNodeListGetString rest
  | .comment :: rest => xmlNodeListGetString rest

/-! ## Texts -/

/-- `isspace`. -/
def isSpaceChar (c : Char) : Bool := c = ' ' || ('\t' ≤ c && c ≤ '\r')

/-- `string_trim`: white space is removed everywhere. -/
def stringTrim (text : String) : String :=
  String.ofList (text.toList.filter fun c => !(c = '\n' || c = ' ' || c = '\t' || c = '\r'))

/-- `char_trim`: white space is removed at both ends. -/
def charTrim (text : String) : String :=
  String.ofList ((text.toList.dropWhile isSpaceChar).reverse.dropWhile isSpaceChar).reverse

/-- A name as `thd_strcasecmp_n` sees it. -/
def foldCase (name : String) : List Char := (name.toList.take 4096).map Char.toLower

/-- `thd_strcasecmp_n` returns 0. -/
def thdStrcasecmpN (a b : String) : Bool := foldCase a = foldCase b

/-! ## Loops -/

section Loops

variable {σ : Type}

/-- What a handler does with an element: it uses the text, or it reads the children. -/
inductive Entry (σ : Type) where
  | value (read : String → σ → σ)
  | group (read : List XmlNode → σ → Option σ)

/-- The entry for a name, the first one that fits. -/
def lookUp (table : List (String × Entry σ)) (name : String) : Option (Entry σ) :=
  (table.find? fun e => thdStrcasecmpN name e.1).map (·.2)

/-- The loop body of a handler that looks at elements with a text. -/
def readElement (table : List (String × Entry σ)) (s : σ) : XmlNode → Option σ
  | .element name children =>
      match xmlNodeListGetString children, lookUp table name with
      | some text, some (.value read) => some (read text s)
      | some _, some (.group read) => read children s
      | _, _ => some s
  | .text _ => some s
  | .comment => some s

/-- A handler that looks at elements with a text. -/
def readElements (table : List (String × Entry σ)) (nodes : List XmlNode) (s : σ) : Option σ :=
  nodes.foldlM (readElement table) s

/-- The loop body of a handler that looks for elements of one name. -/
def readNamed (key : String) (read : List XmlNode → σ → Option σ) (s : σ) : XmlNode → Option σ
  | .element name children => if thdStrcasecmpN name key then read children s else some s
  | .text _ => some s
  | .comment => some s

/-- A handler that looks for elements of one name. -/
def readEach (key : String) (read : List XmlNode → σ → Option σ) (nodes : List XmlNode) (s : σ) :
    Option σ :=
  nodes.foldlM (readNamed key read) s

/-- A handler that fills one record for all elements of one name. Before each of them some members
of the record are reset, and after it a copy is put behind the list. -/
def readRecords (key : String) (reset : σ → σ) (read : List XmlNode → σ → Option σ)
    (nodes : List XmlNode) (s : σ × List σ) : Option (σ × List σ) :=
  readEach key (fun children s => do
    let record ← read children (reset s.1)
    pure (record, s.2 ++ [record])) nodes s

end Loops

end Thermald
