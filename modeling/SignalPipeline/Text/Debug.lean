import SignalPipeline.Text.Printed

/-!
# Quoted text in messages

A text between quotes as a message shows it: quotes, backslashes and the usual control characters
have short escapes, every other character that does not print is written by its code point.

* `debugQuote`: a text with its quotes.
-/

namespace SignalPipeline.Text

/-- A character as a message shows it. -/
def debugChar (c : Char) : List Char :=
  if c == '"' then ['\\', '"']
  else if c == '\\' then ['\\', '\\']
  else if c == '\x00' then ['\\', '0']
  else if c == '\t' then ['\\', 't']
  else if c == '\n' then ['\\', 'n']
  else if c == '\r' then ['\\', 'r']
  else if isPrinted c then [c]
  else ['\\', 'u', '\x7b'] ++ Nat.toDigits 16 c.toNat ++ ['\x7d']

/-- A text with its quotes. -/
def debugQuote (s : String) : String :=
  String.ofList ('"' :: s.toList.flatMap debugChar ++ ['"'])

end SignalPipeline.Text
