import Chronometry.Calendar
import Chronometry.Text.Blank

/-! Log records, the filter that admits them, and the line each is written as. -/
namespace Chronometry.Log

inductive Level where
  | error
  | warn
  | info
  | debug
  | trace
deriving DecidableEq

namespace Level

def text : Level → String
  | .error => "ERROR"
  | .warn => "WARN"
  | .info => "INFO"
  | .debug => "DEBUG"
  | .trace => "TRACE"

def detail : Level → Nat
  | .error => 1
  | .warn => 2
  | .info => 3
  | .debug => 4
  | .trace => 5

def all : List Level := [.error, .warn, .info, .debug, .trace]

end Level

structure Record where
  level : Level
  target : String
  message : String
deriving DecidableEq

/-- Records up to a level, of the whole program or of one part; no level admits nothing. -/
structure Rule where
  target : Option String
  level : Option Level
deriving DecidableEq

namespace Rule

def covers (rule : Rule) (r : Record) : Bool :=
  match rule.target with
  | some part => part.toList.isPrefixOf r.target.toList
  | none => true

def admits (rule : Rule) (r : Record) : Bool :=
  match rule.level with
  | some level => r.level.detail ≤ level.detail
  | none => false

def partLength (rule : Rule) : Nat := (rule.target.map String.utf8ByteSize).getD 0

/-- A level by name, in any case; `off` is no level. -/
def level? (name : String) : Option (Option Level) :=
  let name := name.map Char.toUpper
  if name = "OFF" then some none else (Level.all.find? fun l => l.text = name).map some

def trimmed (text : String) : String := String.ofList (Text.trim text.toList)

/-- A rule is written as a level, as `part=level`, or as a part with or without `=`, which shows all
of it. -/
def read? (text : String) : Option Rule :=
  match (trimmed text).splitOn "=" with
  | [""] => none
  | [name] =>
    match level? name with
    | some level => some ⟨none, level⟩
    | none => some ⟨some name, some .trace⟩
  | [part, name] =>
    let name := trimmed name
    if name = "" then some ⟨some part, some .trace⟩
    else (level? name).map fun level => ⟨some part, level⟩
  | _ => none

end Rule

/-- What is logged: records that the narrowest rule about them admits, with a certain text in their
message if there is one. -/
structure Filter where
  rules : List Rule
  required : String
deriving DecidableEq

namespace Filter

def standard : Filter := ⟨[⟨none, some .info⟩], ""⟩

def insert (rules : List Rule) (rule : Rule) : List Rule :=
  if rules.any (·.target = rule.target) then
    rules.map fun r => if r.target = rule.target then rule else r
  else rules ++ [rule]

/-- Rules between commas. Those that cannot be read are left out; without any, errors are shown. -/
def readRules (text : String) : List Rule :=
  match ((text.splitOn ",").filterMap Rule.read?).foldl insert [] with
  | [] => [⟨none, some .error⟩]
  | rules => rules

/-- Rules, and behind a slash the text that messages must hold. -/
def read (text : String) : Filter :=
  match text.splitOn "/" with
  | [rules] => ⟨readRules rules, ""⟩
  | [rules, required] => ⟨readRules rules, required⟩
  | _ => ⟨readRules "", ""⟩

/-- Of two rules the narrower one, and the second if they are equally narrow. -/
def narrower : Option Rule → Rule → Option Rule
  | none, rule => some rule
  | some best, rule => if rule.partLength < best.partLength then some best else some rule

def ruleFor? (f : Filter) (r : Record) : Option Rule :=
  (f.rules.filter (·.covers r)).foldl narrower none

def hasPart (part : List Char) : List Char → Bool
  | [] => part.isEmpty
  | c :: cs => part.isPrefixOf (c :: cs) || hasPart part cs

def admits (f : Filter) (r : Record) : Bool :=
  (match f.ruleFor? r with
    | some rule => rule.admits r
    | none => false) &&
  hasPart f.required.toList r.message.toList

end Filter

/-- The line of a record: instant in milliseconds since 1970-01-01, time since the start of the
program, level, thread, target and message. -/
def Record.line (r : Record) (instant : Nat) (uptime : String) : String :=
  Calendar.instantText instant ++ " " ++ uptime ++ " " ++ r.level.text ++ " [ThreadId(1)] " ++
    r.target ++ " - " ++ r.message

end Chronometry.Log
