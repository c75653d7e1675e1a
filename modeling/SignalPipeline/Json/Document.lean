import SignalPipeline.Json.Basic
import SignalPipeline.Json.Token

/-!
# Parsed JSON texts

What the grammar finds in a text, before any use of it: members stand in the order of the text,
repeated keys included, and a part that is well spelled but has no value (half a surrogate pair, a
number too large for a float, a container nested too deep) is kept as unreadable. A record that
never looks at such a part can still be read; a value cannot contain one.

* `Document.parse?`: the document of a text.
* `Document.value?`: the value of a document; the last of repeated keys wins.
* `Json.toDocument`: a value as a document.
-/

namespace SignalPipeline

/-- A parsed JSON text. -/
inductive Document where
  | null
  | bool (b : Bool)
  | number (n : Number)
  | string (s : String)
  /-- A part without a value. -/
  | unreadable
  | array (items : List Document)
  /-- Members in the order of the text; a key without a value is none. -/
  | object (members : List (Option String × Document))

namespace Document

instance : Inhabited Document := ⟨.null⟩

/-! ## Parsing -/

/-- A container that is still open: what it holds so far, last first. -/
inductive Frame where
  | array (items : List Document)
  /-- The members so far and the key of the value that is being read. -/
  | object (members : List (Option String × Document)) (key : Option String)

/-- Arrays and objects nested deeper than this are unreadable. -/
def maxDepth : Nat := 127

/-- A container inside the open ones, if it is not too deep. -/
def nest (stack : List Frame) (d : Document) : Document :=
  if stack.length < maxDepth then d else .unreadable

/-- A token that is a value by itself. -/
def ofToken? : Token → Option Document
  | .null => some .null
  | .bool b => some (.bool b)
  | .number n => some (n.elim .unreadable .number)
  | .string s => some (s.elim .unreadable .string)
  | _ => none

mutual

/-- Reads a value inside the open containers, then the rest of the text. -/
def readValue? (stack : List Frame) : List Token → Option Document
  | .openArray :: .closeArray :: ts => resume? stack (nest stack (.array [])) ts
  | .openArray :: ts => readValue? (.array [] :: stack) ts
  | .openObject :: .closeObject :: ts => resume? stack (nest stack (.object [])) ts
  | .openObject :: .string key :: .colon :: ts => readValue? (.object [] key :: stack) ts
  | t :: ts => (ofToken? t).bind fun d => resume? stack d ts
  | [] => none

/-- Goes on after a value inside the open containers. -/
def resume? (stack : List Frame) (d : Document) : List Token → Option Document
  | [] => if stack.isEmpty then some d else none
  | .comma :: ts =>
    match stack with
    | .array items :: stack => readValue? (.array (d :: items) :: stack) ts
    | .object members key :: stack =>
      match ts with
      | .string next :: .colon :: ts => readValue? (.object ((key, d) :: members) next :: stack) ts
      | _ => none
    | [] => none
  | .closeArray :: ts =>
    match stack with
    | .array items :: stack => resume? stack (nest stack (.array (d :: items).reverse)) ts
    | _ => none
  | .closeObject :: ts =>
    match stack with
    | .object members key :: stack =>
      resume? stack (nest stack (.object ((key, d) :: members).reverse)) ts
    | _ => none
  | _ => none

end

/-- The document of a text; none where the text is no JSON. -/
def parse? (s : String) : Option Document :=
  (lex? s.toList).bind (readValue? [])

/-! ## Values -/

mutual

/-- The value of a document; none where a part of it is unreadable. -/
def value? : Document → Option Json
  | .null => some .null
  | .bool b => some (.bool b)
  | .number n => some (.number n)
  | .string s => some (.string s)
  | .unreadable => none
  | .array items => (itemValues? items).map .array
  | .object members => (memberValues? members).map .ofMembers

/-- The values of the items of an array. -/
def itemValues? : List Document → Option (List Json)
  | [] => some []
  | d :: ds => (value? d).bind fun v => (itemValues? ds).map (v :: ·)

/-- The members of an object with their values, in the same order. -/
def memberValues? : List (Option String × Document) → Option (List (String × Json))
  | [] => some []
  | (key, d) :: rest =>
    key.bind fun key => (value? d).bind fun v => (memberValues? rest).map ((key, v) :: ·)

end

end Document

namespace Json

mutual

/-- A value as a document. -/
def toDocument : Json → Document
  | .null => .null
  | .bool b => .bool b
  | .number n => .number n
  | .string s => .string s
  | .array items => .array (itemDocuments items)
  | .object members => .object (memberDocuments members)

/-- The items of an array as documents. -/
def itemDocuments : List Json → List Document
  | [] => []
  | v :: vs => toDocument v :: itemDocuments vs

/-- The members of an object as documents. -/
def memberDocuments : List (String × Json) → List (Option String × Document)
  | [] => []
  | (key, v) :: rest => (some key, toDocument v) :: memberDocuments rest

end

/-- The value of a text; none where the text is no JSON or a part of it has no value. -/
def parse? (s : String) : Option Json :=
  (Document.parse? s).bind Document.value?

end Json

end SignalPipeline
