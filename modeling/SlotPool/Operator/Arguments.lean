import SlotPool.Address.Plan
import SlotPool.Text.Numeral
/-!
The command line of the operator's tool: what may be asked for, and what is said to a line that asks
for something else.
-/

namespace SlotPool.Operator

/-- What an operator may ask for. -/
inductive Command
  /-- print the plan of a slot -/
  | topology (id : SlotId)
  /-- clear up after the slots numbered from `first` and below `last` -/
  | reap (first last : Nat)
  /-- take slots from a new pool, print their plans and hand them back -/
  | smoke (count : Nat) (allowInternet : Bool)
  deriving DecidableEq

/-- Why a command line is refused. -/
inductive UsageError
  /-- nothing is wrong, but help was asked for or no command given -/
  | helpWanted
  | unknownCommand (word : String)
  | missingArgument (name : String)
  | invalidArgument (name : String) (word : String)
  | argumentTooLarge (name : String) (largest : Nat)
  | emptyRange (first last : Nat)
  | unexpectedArgument (word : String)
  | unknownFlag (word : String)
  | countWithoutValue
  | invalidCount (word : String)
  | countZero
  deriving DecidableEq

/-- The wording of a refusal. -/
def UsageError.message : UsageError → String
  | .helpWanted => ""
  | .unknownCommand word => s!"unknown command: {word}"
  | .missingArgument name => s!"missing required argument: {name}"
  | .invalidArgument name word => s!"invalid {name}: {word}"
  | .argumentTooLarge name largest => s!"{name} must be at most {largest}"
  | .emptyRange first last => s!"empty range: {first}..{last}"
  | .unexpectedArgument word => s!"unexpected argument: {word}"
  | .unknownFlag word => s!"unknown flag: {word}"
  | .countWithoutValue => "--count requires a value"
  | .invalidCount word => s!"invalid --count: {word}"
  | .countZero => "--count must be at least 1"

/-- How the tool is used. -/
def usage : String :=
  String.intercalate "\n"
    ["Usage: netpool <command> [options]",
      "",
      "Commands:",
      "  topology <idx>                     Print the addressing plan of a slot as JSON",
      "  reap <from> <to>                   Remove leftover resources of slots in [from, to)",
      "  smoke [--count N] [--allow-internet]",
      "                                     Take N slots from a fresh pool, print them, return them",
      "",
      "Configuration is read from NETPOOL_* environment variables."]

/-- Reads the next argument as a number that is at most `largest`. Returns the rest as well. -/
def takeNumber (name : String) (largest : Nat) :
    List String → Except UsageError (Nat × List String)
  | [] => .error (.missingArgument name)
  | word :: rest =>
    match Text.numeral? Text.maxWord32 word.toList with
    | none => .error (.invalidArgument name word)
    | some n => if n ≤ largest then .ok (n, rest) else .error (.argumentTooLarge name largest)

/-- Accepts a command after which nothing follows. -/
def ending (command : Command) : List String → Except UsageError Command
  | [] => .ok command
  | word :: _ => .error (.unexpectedArgument word)

/-- Reads what follows `topology`. -/
def parseTopology (words : List String) : Except UsageError Command := do
  let (n, rest) ← takeNumber "<idx>" (planSize - 1) words
  match SlotId.ofNat? n with
  | some id => ending (.topology id) rest
  | none => .error (.argumentTooLarge "<idx>" (planSize - 1))

/-- Reads what follows `reap`. The second number is not part of the range. -/
def parseReap (words : List String) : Except UsageError Command := do
  let (first, rest) ← takeNumber "<from>" (planSize - 1) words
  let (last, rest) ← takeNumber "<to>" planSize rest
  if last ≤ first then .error (.emptyRange first last)
  else ending (.reap first last) rest

/-- Reads the flags that follow `smoke`. A later count replaces an earlier one. -/
def parseFlags (count : Nat) (allowInternet : Bool) : List String → Except UsageError Command
  | [] => if count = 0 then .error .countZero else .ok (.smoke count allowInternet)
  | "--count" :: rest =>
    match rest with
    | [] => .error .countWithoutValue
    | word :: rest =>
      match Text.numeral? Text.maxWord64 word.toList with
      | none => .error (.invalidCount word)
      | some n => parseFlags n allowInternet rest
  | "--allow-internet" :: rest => parseFlags count true rest
  | word :: _ => .error (.unknownFlag word)

/-- Reads a command line, without the name of the tool. -/
def parse : List String → Except UsageError Command
  | [] => .error .helpWanted
  | word :: rest =>
    if word = "topology" then parseTopology rest
    else if word = "reap" then parseReap rest
    else if word = "smoke" then parseFlags 1 false rest
    else if word = "--help" ∨ word = "-h" then .error .helpWanted
    else .error (.unknownCommand word)

end SlotPool.Operator
