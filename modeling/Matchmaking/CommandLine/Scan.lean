import Matchmaking.Decimal.Reading
import Matchmaking.Table

/-!
# Scanning a command line

A level of a command line has options and commands. An option is written long (`--name`) or short
(`-n`); one that takes a value has it behind an equals sign, right behind its short letter, or in
the next argument. Short options can be written together behind one dash. A command ends its
level, and what follows belongs to the level of the command. Behind `--` nothing is an option any
more.

A value in an argument of its own is examined only when the next option begins or the level ends.
So a fault of another kind that comes before that is the one that is found.
-/

namespace Matchmaking.CommandLine

/-- What an option is for. -/
inductive Kind
  /-- It is given or not. -/
  | flag
  /-- It takes any value. -/
  | text
  /-- It takes a natural number below 2^64. -/
  | number
  /-- It asks for help. -/
  | help
  /-- It asks for the version. -/
  | version
  deriving DecidableEq, Repr

/-- Whether an option takes a value. -/
def Kind.takesValue : Kind → Bool
  | .text | .number => true
  | _ => false

/-- An option. -/
structure Opt where
  /-- The name behind two dashes. -/
  long : String
  /-- The letter behind one dash. -/
  short : Option Char
  /-- What it is for. -/
  kind : Kind
  deriving DecidableEq, Repr

/-- What can be written on a level. -/
structure Level where
  /-- The options. -/
  options : List Opt
  /-- The commands. -/
  commands : List String

namespace Level

/-- The option of a long name. -/
def byLong (l : Level) (name : String) : Option Opt := l.options.find? (·.long == name)

/-- The option of a short letter. -/
def byShort (l : Level) (c : Char) : Option Opt := l.options.find? (·.short == some c)

end Level

/-- Why a command line is not carried out. -/
inductive Refusal
  /-- It asks for help. -/
  | help
  /-- It asks for the version. -/
  | version
  /-- It is empty. -/
  | nothing
  /-- It has no command. -/
  | missingCommand
  /-- There is no such command. -/
  | unknownCommand (name : String)
  /-- There is no such option, and no place for such an argument. -/
  | unknownArgument (arg : String)
  /-- The value of an option cannot be read. -/
  | badValue (name value : String)
  /-- An option lacks its value. -/
  | missingValue (name : String)
  /-- An option is given twice. -/
  | repeated (name : String)
  /-- An option that takes no value has one. -/
  | surplusValue (name value : String)
  deriving DecidableEq, Repr

/-- A text between single quotes. -/
def cited (text : String) : String := "\x27" ++ text ++ "\x27"

/-- The wording of a refusal. -/
def Refusal.message : Refusal → String
  | .help | .nothing => "help"
  | .version => "version"
  | .missingCommand => "error: a subcommand is required but one was not provided"
  | .unknownCommand name => "error: unrecognized subcommand " ++ cited name
  | .unknownArgument arg => "error: unexpected argument " ++ cited arg ++ " found"
  | .badValue name value =>
    "error: invalid value " ++ cited value ++ " for " ++ cited ("--" ++ name)
  | .missingValue name =>
    "error: a value is required for " ++ cited ("--" ++ name) ++ " but none was supplied"
  | .repeated name =>
    "error: the argument " ++ cited ("--" ++ name) ++ " cannot be used multiple times"
  | .surplusValue name value =>
    "error: unexpected value " ++ cited value ++ " for " ++ cited ("--" ++ name) ++
      " found; no more were expected"

/-- An option whose value is not examined yet, with the value if it has come. -/
structure Pending where
  /-- The option. -/
  opt : Opt
  /-- Its value. -/
  value : Option String

/-- How far a level was scanned. -/
structure Progress where
  /-- The values of the options that were examined, by their long names; a flag has an empty one. -/
  found : Table String
  /-- The option that is not examined yet. -/
  pending : Option Pending

namespace Progress

/-- Nothing was scanned. -/
def start : Progress := ⟨.empty, none⟩

/-- Whether the next argument is the value of an option. -/
def awaitsValue (p : Progress) : Bool := p.pending.any fun q => q.value.isNone

/-- Examines an option with its value. -/
def record (p : Progress) (o : Opt) (value : Option String) : Except Refusal Progress :=
  if o.kind.takesValue && value.isNone then .error (.missingValue o.long)
  else if o.kind = .help then .error .help
  else if o.kind = .version then .error .version
  else if p.found.contains o.long then .error (.repeated o.long)
  else
    let text := value.getD ""
    if o.kind = .number && (Decimal.readUnsigned text).toOption.isNone then
      .error (.badValue o.long text)
    else .ok ⟨p.found.insert o.long text, none⟩

/-- Examines the option that is not examined yet. -/
def settle (p : Progress) : Except Refusal Progress :=
  match p.pending with
  | none => .ok p
  | some q => p.record q.opt q.value

/-- Examines an option with its value after the one before it. -/
def accept (p : Progress) (o : Opt) (value : Option String) : Except Refusal Progress := do
  (← p.settle).record o value

/-- Leaves an option to be examined when its value has come. -/
def await (p : Progress) (o : Opt) : Except Refusal Progress := do
  pure { (← p.settle) with pending := some ⟨o, none⟩ }

/-- The value of the option that awaits one. -/
def supply (p : Progress) (value : String) : Progress :=
  { p with pending := p.pending.map fun q => { q with value := some value } }

/-- The value of an option. -/
def value? (p : Progress) (name : String) : Option String := p.found.get? name

/-- The number that is the value of an option. -/
def number? (p : Progress) (name : String) : Option Nat :=
  (p.value? name).bind fun text => (Decimal.readUnsigned text).toOption

end Progress

namespace Level

/-- Scans a long option, without its dashes. -/
def long (l : Level) (p : Progress) (body : List Char) : Except Refusal Progress :=
  let name := String.ofList (body.takeWhile (· != '='))
  let value := match body.dropWhile (· != '=') with
    | [] => none
    | _ :: rest => some (String.ofList rest)
  match l.byLong name with
  | none => .error (.unknownArgument ("--" ++ name))
  | some o =>
    if o.kind.takesValue then
      if value.isSome then p.accept o value else p.await o
    else match value with
      | some text => .error (.surplusValue name text)
      | none => p.accept o none

/-- Scans short options that are written together, without their dash. -/
def shorts (l : Level) (p : Progress) : List Char → Except Refusal Progress
  | [] => .ok p
  | c :: rest =>
    match l.byShort c with
    | none => .error (.unknownArgument ("-" ++ c.toString))
    | some o =>
      if o.kind.takesValue then
        match rest with
        | [] => p.await o
        | '=' :: value => p.accept o (some (String.ofList value))
        | value => p.accept o (some (String.ofList value))
      else do
        let p ← p.accept o none
        l.shorts p rest

/-- Why an argument that is no option is refused. -/
def strayArgument (l : Level) (arg : String) : Refusal :=
  if l.commands.isEmpty then .unknownArgument arg else .unknownCommand arg

/-- Scans what stands behind `--`. No level has a place for it. -/
def behindDashes (l : Level) (p : Progress) :
    List String → Except Refusal (Progress × Option (String × List String))
  | [] => .ok (p, none)
  | arg :: _ =>
    .error (if l.commands.contains arg then .unknownArgument arg else l.strayArgument arg)

/-- Scans the arguments of a level up to its command; returns the command with what follows it. -/
def scan (l : Level) (p : Progress) :
    List String → Except Refusal (Progress × Option (String × List String))
  | [] => .ok (p, none)
  | arg :: rest =>
    if !p.awaitsValue && l.commands.contains arg then .ok (p, some (arg, rest))
    else match arg.toList with
      | ['-', '-'] => l.behindDashes p rest
      | '-' :: '-' :: body => do l.scan (← l.long p body) rest
      | '-' :: c :: body => do l.scan (← l.shorts p (c :: body)) rest
      | _ =>
        if p.awaitsValue then l.scan (p.supply arg) rest else .error (l.strayArgument arg)

end Level

end Matchmaking.CommandLine
