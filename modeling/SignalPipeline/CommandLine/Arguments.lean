import SignalPipeline.CommandLine.Word

/-!
# Arguments

The only command replays a signal: `replay --id <id> [--store <path>] [--json]`. Words are taken
from left to right, and the first fault is reported. The value of an option is checked when the
next option or the end of the line comes, so an unknown word behind it is reported first.

* `ReplayArguments.parse`: the arguments of a command line, or why it is refused.
-/

namespace SignalPipeline

/-- Why a command line is refused. -/
inductive UsageError where
  /-- The user asks for help. -/
  | helpRequested
  /-- The line asks for nothing. -/
  | nothingRequested
  | unknownCommand
  | unknownArgument
  | missingArgument
  /-- An option lacks its value, or the value is not allowed. -/
  | invalidValue
  /-- An option is given twice. -/
  | repeatedArgument
  /-- A flag has a value. -/
  | needlessValue
  deriving Repr, DecidableEq

/-- The status with which a program ends when it refuses its command line. -/
def UsageError.exitStatus : UsageError → Nat
  | helpRequested => 0
  | _ => 2

/-- The arguments of a replay. -/
structure ReplayArguments where
  id : String
  /-- The path of a store, in place of the one attached. -/
  store : Option String
  json : Bool
  deriving Repr, DecidableEq

/-- An option with a value. -/
inductive ValueOption where
  | id
  | store
  deriving Repr, DecidableEq

/-- The option with a name. -/
def ValueOption.ofName? (name : List Char) : Option ValueOption :=
  if name == ['i', 'd'] then some id
  else if name == ['s', 't', 'o', 'r', 'e'] then some store
  else none

/-- The options of a replay so far. -/
structure ReplayOptions where
  id : Option String := none
  store : Option String := none
  json : Bool := false
  /-- The option named last, until it is checked, and its value once that was seen. -/
  pending : Option (ValueOption × Option String) := none
  deriving Repr, DecidableEq

namespace ReplayOptions

/-- Gives an option its value. A path may not be empty. -/
def assign (o : ReplayOptions) (option : ValueOption) (value : String) :
    Except UsageError ReplayOptions :=
  match option with
  | .id => if o.id.isSome then .error .repeatedArgument else .ok { o with id := some value }
  | .store =>
    if o.store.isSome then .error .repeatedArgument
    else if value.isEmpty then .error .invalidValue
    else .ok { o with store := some value }

/-- Checks the option named last. -/
def settle (o : ReplayOptions) : Except UsageError ReplayOptions :=
  match o.pending with
  | none => .ok o
  | some (_, none) => .error .invalidValue
  | some (option, some value) => { o with pending := none }.assign option value

/-- Takes a long option. -/
def takeLong (o : ReplayOptions) (name : List Char) (value : Option String) :
    Except UsageError ReplayOptions :=
  match ValueOption.ofName? name, value with
  | some option, some value => do (← o.settle).assign option value
  | some option, none => do pure { ← o.settle with pending := some (option, none) }
  | none, value =>
    if name == ['j', 's', 'o', 'n'] || name == ['h', 'e', 'l', 'p'] then
      if value.isSome then .error .needlessValue
      else do
        let o ← o.settle
        if name == ['h', 'e', 'l', 'p'] then throw .helpRequested
        if o.json then throw .repeatedArgument
        pure { o with json := true }
    else .error .unknownArgument

/-- Takes a plain word: the value of the option named last. -/
def takePlain (o : ReplayOptions) (text : String) : Except UsageError ReplayOptions :=
  match o.pending with
  | some (option, none) => .ok { o with pending := some (option, some text) }
  | _ => .error .unknownArgument

/-- Takes the words of a line. -/
def take (o : ReplayOptions) : List String → Except UsageError ReplayOptions
  | [] => o.settle
  | word :: rest =>
    match Word.ofText word with
    | .endOfOptions => if rest.isEmpty then o.settle else .error .unknownArgument
    | .long name value => do take (← o.takeLong name value) rest
    | .short first _ =>
      if first == 'h' then do
        let _ ← o.settle
        throw .helpRequested
      else .error .unknownArgument
    | .plain text => do take (← o.takePlain text) rest

end ReplayOptions

namespace ReplayArguments

/-- The arguments behind the name of the command. -/
def ofWords (words : List String) : Except UsageError ReplayArguments := do
  let o ← ({} : ReplayOptions).take words
  match o.id with
  | some id => pure ⟨id, o.store, o.json⟩
  | none => throw .missingArgument

/-- The command that replays a signal. -/
def replayCommand : String := "replay"

/-- The command that asks for help. -/
def helpCommand : String := "help"

/-- Whether a word is a command. -/
def isCommand (word : String) : Bool :=
  word == replayCommand || word == helpCommand

/-- What comes of a request for help on commands. -/
def helpOn : List String → UsageError
  | [] => .helpRequested
  | [command] => if isCommand command then .helpRequested else .unknownCommand
  | _ => .unknownCommand

/-- What comes of words behind the mark after which no option follows. -/
def afterOptions : List String → UsageError
  | [] => .nothingRequested
  | word :: _ => if isCommand word then .unknownArgument else .unknownCommand

/-- The arguments of a command line, without the name of the program. -/
def parse : List String → Except UsageError ReplayArguments
  | [] => .error .nothingRequested
  | word :: rest =>
    if word == replayCommand then ofWords rest
    else if word == helpCommand then .error (helpOn rest)
    else match Word.ofText word with
      | .endOfOptions => .error (afterOptions rest)
      | .long name value =>
        if name == ['h', 'e', 'l', 'p'] then
          .error (if value.isSome then .needlessValue else .helpRequested)
        else .error .unknownArgument
      | .short first _ => .error (if first == 'h' then .helpRequested else .unknownArgument)
      | .plain _ => .error .unknownCommand

end ReplayArguments

end SignalPipeline
