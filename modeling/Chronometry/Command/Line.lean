import Chronometry.Command.Setting

/-! Reading a command line. Which options, defaults and commands there are is this program's own. The
grammar around them is an assumption about the argument parser that the program calls: how an option is
spelled and takes its value, what two dashes mean, which argument is turned down and with which error. -/
namespace Chronometry.Command

inductive Name where
  | calibrate
  | osTimer
  | profile
  | repetition
  | completions
deriving DecidableEq

namespace Name

def text : Name → String
  | .calibrate => "calibrate"
  | .osTimer => "os-timer"
  | .profile => "profile"
  | .repetition => "repeat"
  | .completions => "completions"

def all : List Name := [.calibrate, .osTimer, .profile, .repetition, .completions]

def ofText? (text : String) : Option Name := all.find? (·.text == text)

def keys : Name → List Key
  | .calibrate => [.timer, .serialize, .waitMs, .maxWaitMs, .logInterval, .help]
  | .osTimer => [.waitMs, .timer, .serialize, .logInterval, .help]
  | .profile =>
    [.iterations, .fillBytes, .timer, .serialize, .waitMs, .maxWaitMs, .logInterval, .help]
  | .repetition =>
    [.bytes, .seconds, .timer, .serialize, .waitMs, .maxWaitMs, .logInterval, .help]
  | .completions => [.logInterval, .help]

def positional? : Name → Option Key
  | .completions => some .shell
  | _ => none

end Name

inductive Argument where
  | escape
  | long (name : String) (value : Option String)
  | short (letters : List Char)
  | plain

namespace Argument

def splitValue (cs : List Char) : String × Option String :=
  (String.ofList (cs.takeWhile (· ≠ '=')),
    match cs.dropWhile (· ≠ '=') with
    | [] => none
    | _ :: value => some (String.ofList value))

/-- A dash alone is a value like any other. -/
def ofText (text : String) : Argument :=
  match text.toList with
  | ['-', '-'] => .escape
  | '-' :: '-' :: cs => let (name, value) := splitValue cs; .long name value
  | '-' :: c :: cs => .short (c :: cs)
  | _ => .plain

end Argument

/-- What may stand on one level of a line: its options, an option without a name, and the names that
open another level. -/
structure Level where
  keys : List Key
  positional : Option Key
  commands : List String

/-- Reading one level. A value that stands apart from its option is assigned only when the next
option comes, or at the end; `pending` is the last option and its value, if that has been seen. -/
structure Progress where
  settings : Settings := {}
  pending : Option (Key × Option String) := none
  escaped : Bool := false
  filled : Bool := false

namespace Progress

def waits (p : Progress) : Bool :=
  match p.pending with
  | some (_, none) => true
  | _ => false

def settle (p : Progress) : Except LineError Progress :=
  match p.pending with
  | none => .ok p
  | some (_, none) => .error .invalidValue
  | some (key, some raw) => do
    return { p with settings := ← p.settings.assign key raw, pending := none }

def expect (p : Progress) (key : Key) : Except LineError Progress := do
  return { ← p.settle with pending := some (key, none) }

def give (p : Progress) (key : Key) (raw : String) : Except LineError Progress := do
  let p ← p.settle
  return { p with settings := ← p.settings.assign key raw }

def raise (p : Progress) (key : Key) : Except LineError Progress := do
  let p ← p.settle
  return { p with settings := ← p.settings.raise key }

/-- Turns an argument down. What is pending is read all the same: a broken value is reported in its
place, and any other fault of the value gives way. -/
def reject (p : Progress) (e : LineError) : Except LineError Progress :=
  match p.settle with
  | .error .brokenValue => .error .brokenValue
  | _ => .error e

end Progress

namespace Level

def long? (level : Level) (name : String) : Option Key := level.keys.find? (·.long == name)

def short? (level : Level) (letter : Char) : Option Key :=
  level.keys.find? (·.short? == some letter)

def readLong (level : Level) (name : String) (value : Option String) (p : Progress) :
    Except LineError Progress :=
  match level.long? name with
  | none => p.reject .unknownArgument
  | some key =>
    if key.takesValue then
      match value with
      | some raw => p.give key raw
      | none => p.expect key
    else
      match value with
      | some _ => p.reject .unneededValue
      | none => p.raise key

/-- A group of letters. The first one that takes a value takes the rest of the group, without a
leading `=`. -/
def readShort (level : Level) : List Char → Progress → Except LineError Progress
  | [], p => .ok p
  | c :: cs, p =>
    match level.short? c with
    | none => p.reject .unknownArgument
    | some key =>
      if key.takesValue then
        match cs with
        | [] => p.expect key
        | '=' :: value => p.give key (String.ofList value)
        | value => p.give key (String.ofList value)
      else do level.readShort cs (← p.raise key)

def readPlain (level : Level) (text : String) (p : Progress) : Except LineError Progress :=
  match level.positional, p.filled with
  | some key, false => do
    return { ← p.settle with pending := some (key, some text), filled := true }
  | _, _ =>
    if level.commands = [] ∨ (p.escaped ∧ text ∈ level.commands) then p.reject .unknownArgument
    else p.reject .unknownCommand

/-- Reads arguments up to the name of a command, or to the end. A name in the place of a value is a
value. -/
def scan (level : Level) : List String → Progress →
    Except LineError (Progress × Option (String × List String))
  | [], p => .ok (p, none)
  | text :: rest, p =>
    if p.escaped then do level.scan rest (← level.readPlain text p)
    else if !p.waits && level.commands.contains text then .ok (p, some (text, rest))
    else
      match Argument.ofText text with
      | .escape => level.scan rest { p with escaped := true }
      | .long name value => do level.scan rest (← level.readLong name value p)
      | .short letters => do level.scan rest (← level.readShort letters p)
      | .plain =>
        match p.pending with
        | some (key, none) => level.scan rest { p with pending := some (key, some text) }
        | _ => do level.scan rest (← level.readPlain text p)

def readLast (level : Level) (args : List String) : Except LineError Settings := do
  let (p, _) ← level.scan args {}
  return (← p.settle).settings

end Level

def outerLevel : Level :=
  ⟨[.logInterval, .help, .version], none, Name.all.map Name.text ++ ["help"]⟩

def Name.level (name : Name) : Level := ⟨name.keys, name.positional?, []⟩

def standardIterations : List UInt64 := [1000, 100000, 1000000, 100000, 10000]

def Name.command (name : Name) (s : Settings) : Except LineError Command :=
  match name with
  | .calibrate => .ok (.calibrate s.counter s.calibration)
  | .osTimer => .ok (.osTimer s.counter (s.waitMs.getD 1000))
  | .profile =>
    .ok (.profile s.counter s.calibration (s.iterations.getD standardIterations) s.fillBytes)
  | .repetition =>
    .ok (.repetition s.counter s.calibration (s.bytes.getD (1024 * 1024)) (s.seconds.getD 10))
  | .completions =>
    match s.shell with
    | some shell => .ok (.completions shell)
    | none => .error .missingArgument

/-- Help on a command, or on help itself; nothing lies deeper. -/
def helpOn : List String → LineError
  | [] => .help
  | [name] => if outerLevel.commands.contains name then .help else .unknownCommand
  | _ => .unknownCommand

/-- Reads a line without the name of the program. The level of the command is read to its end before
the level in front of it is settled, and its log interval wins. -/
def readLine (args : List String) : Except LineError Request := do
  let (outer, opened) ← outerLevel.scan args {}
  match opened with
  | none =>
    let outer ← outer.settle
    .error (if outer.settings = {} then .nothingGiven else .missingCommand)
  | some (text, rest) =>
    match Name.ofText? text with
    | none => .error (helpOn rest)
    | some name =>
      let inner ← name.level.readLast rest
      let command ← name.command inner
      let outer ← outer.settle
      return ⟨command, inner.logInterval.or outer.settings.logInterval⟩

end Chronometry.Command
