import SignalPipeline.Json.Literal
import SignalPipeline.Json.Quoted

/-!
# Tokens of JSON texts

A JSON text is a sequence of tokens with white space between them. The lexer checks the spelling
of each token. A well-spelled string or number need not have a value: an escape may name half of a
surrogate pair, a literal may be too large for a float; such a token carries none.

* `lex?`: the tokens of a text.
* `Token.chars`: the text of a token.
* `Token.scan?_length`: a token takes at least one character.
-/

namespace SignalPipeline

/-- A token of a JSON text. -/
inductive Token where
  | openArray
  | closeArray
  | openObject
  | closeObject
  | comma
  | colon
  | null
  | bool (b : Bool)
  /-- A number, without a value where its literal is too large. -/
  | number (n : Option Number)
  /-- A string, without a value where it holds half of a surrogate pair. -/
  | string (s : Option String)

namespace Token

/-- The token at the front of a text, and what follows. -/
def scan? : List Char → Option (Token × List Char)
  | '[' :: r => some (.openArray, r)
  | ']' :: r => some (.closeArray, r)
  | '\x7b' :: r => some (.openObject, r)
  | '\x7d' :: r => some (.closeObject, r)
  | ',' :: r => some (.comma, r)
  | ':' :: r => some (.colon, r)
  | 'n' :: 'u' :: 'l' :: 'l' :: r => some (.null, r)
  | 't' :: 'r' :: 'u' :: 'e' :: r => some (.bool true, r)
  | 'f' :: 'a' :: 'l' :: 's' :: 'e' :: r => some (.bool false, r)
  | '"' :: r =>
    (StringPart.scan? r).map fun (ps, r) =>
      (.string ((StringPart.assemble? ps).map String.ofList), r)
  | r => (Number.scan? r).map fun (l, r) => (.number (Number.ofLiteral? l), r)

/-- A token takes at least one character. -/
theorem scan?_length {cs r : List Char} {t : Token} (h : scan? cs = some (t, r)) :
    r.length < cs.length := by
  rw [scan?.eq_def] at h
  split at h
  iterate 9
    · simp only [Option.some.injEq, Prod.mk.injEq] at h
      simp only [← h.2, List.length_cons]
      omega
  · simp only [Option.map_eq_some_iff, Prod.mk.injEq] at h
    obtain ⟨⟨ps, r'⟩, hs, -, rfl⟩ := h
    have := StringPart.scan?_length hs
    simp only [List.length_cons]
    omega
  · simp only [Option.map_eq_some_iff, Prod.mk.injEq] at h
    obtain ⟨⟨l, r'⟩, hs, -, rfl⟩ := h
    exact Number.scan?_length hs

/-- The text of a token; a token without a value has no text. -/
def chars : Token → List Char
  | .openArray => ['[']
  | .closeArray => [']']
  | .openObject => ['\x7b']
  | .closeObject => ['\x7d']
  | .comma => [',']
  | .colon => [':']
  | .null => ['n', 'u', 'l', 'l']
  | .bool true => ['t', 'r', 'u', 'e']
  | .bool false => ['f', 'a', 'l', 's', 'e']
  | .number n => (n.map Number.chars).getD []
  | .string s => (s.map fun s => StringPart.quote s.toList).getD []

end Token

/-- The white space between tokens. -/
def isSpace (c : Char) : Bool :=
  c == ' ' || c == '\t' || c == '\n' || c == '\r'

/-- The tokens of a text. -/
def lex? : List Char → Option (List Token)
  | [] => some []
  | c :: cs =>
    if isSpace c then lex? cs
    else match _h : Token.scan? (c :: cs) with
      | none => none
      | some (t, r) => (lex? r).map (t :: ·)
termination_by cs => cs.length
decreasing_by
  · simp
  · exact Token.scan?_length ‹_›

end SignalPipeline
