/-!
# Words of a command line

A word of a command line is a long option with or without a value, a cluster of short options, the
mark after which no option follows, or plain.

* `Word.ofText`: the word that a text is.
-/

namespace SignalPipeline

/-- A word of a command line. -/
inductive Word where
  /-- Two hyphens: no option follows. -/
  | endOfOptions
  /-- Two hyphens and a name, with a value after an equals sign. -/
  | long (name : List Char) (value : Option String)
  /-- A hyphen and letters. -/
  | short (first : Char) (rest : List Char)
  | plain (text : String)
  deriving Repr, DecidableEq

namespace Word

/-- A long option from its text behind the hyphens. -/
def ofLong (cs : List Char) : Word :=
  match cs.dropWhile (· != '=') with
  | [] => long cs none
  | _ :: value => long (cs.takeWhile (· != '=')) (some (String.ofList value))

/-- The word that a text is. -/
def ofText (s : String) : Word :=
  match s.toList with
  | ['-', '-'] => endOfOptions
  | '-' :: '-' :: cs => ofLong cs
  | '-' :: c :: cs => short c cs
  | _ => plain s

end Word

end SignalPipeline
