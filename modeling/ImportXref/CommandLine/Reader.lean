import ImportXref.Text.Basic

/-!
# Reading arguments — flags, values and positions

A command has flags with a long name and perhaps a letter, and positional arguments.  A long flag
takes its value after `=` or from the next argument, letters may be put together, the value of a
letter may follow it at once, and after `--` everything is positional.

A value is kept pending until the next flag or position settles it: only then is it checked.  So
of two mistakes the one that is settled first is reported.
-/

namespace ImportXref

/-- Why arguments are no command; the first two are requests. -/
inductive UsageError where
  /-- Help is asked for. -/
  | help
  /-- The version of a command is asked for. -/
  | version (command : Text)
  /-- There are no arguments at all. -/
  | noArguments
  /-- There is no subcommand. -/
  | missingSubcommand
  /-- There is no such subcommand. -/
  | unknownSubcommand
  /-- There is no such flag, or no room for a positional argument. -/
  | unknownArgument
  /-- A flag without value is given one. -/
  | unneededValue
  /-- A value is missing or not accepted. -/
  | invalidValue
  /-- A flag is given twice, or together with one it excludes. -/
  | conflict
  /-- A positional argument is missing. -/
  | missingArgument
  deriving DecidableEq, Repr

/-- The exit code for arguments that are no command. -/
def UsageError.exitCode : UsageError → Nat
  | help | version _ => 0
  | _ => 2

namespace Arguments

/-- What a flag does. -/
inductive Role where
  | help
  | version
  /-- Given at most once. -/
  | switch
  /-- Counted. -/
  | counter
  /-- Takes a value, which has to be accepted. -/
  | value (accepts : Text → Bool)

/-- A flag. -/
structure Flag where
  /-- The name after two dashes, which also stands for the flag. -/
  name : Text
  /-- The letter after one dash. -/
  letter : Option Char
  /-- What it does. -/
  role : Role

/-- A positional argument. -/
structure Position where
  /-- What stands for it. -/
  name : Text
  /-- Whether a value is accepted. -/
  accepts : Text → Bool
  /-- Whether it takes all further values. -/
  repeated : Bool

/-- The arguments that a command takes. -/
structure Shape where
  /-- The name under which the command shows its version. -/
  title : Text
  flags : List Flag
  positions : List Position
  /-- The names of its subcommands. -/
  subcommands : List Text

/-- Values that are not settled yet. -/
structure Pending where
  name : Text
  accepts : Text → Bool
  repeated : Bool
  /-- The values; empty as long as a flag waits for one. -/
  values : List Text

/-- What has been read. -/
structure Given where
  /-- The names that are settled and their values. -/
  values : List (Text × List Text)
  /-- What is not settled yet. -/
  pending : Option Pending
  /-- The number of the next positional argument. -/
  position : Nat

namespace Given

/-- Nothing. -/
def none : Given := ⟨[], .none, 0⟩

/-- Whether a name is settled. -/
def has (g : Given) (name : Text) : Bool :=
  (g.values.lookup name).isSome

/-- The values of a name. -/
def all (g : Given) (name : Text) : List Text :=
  (g.values.lookup name).getD []

/-- The value of a name. -/
def value? (g : Given) (name : Text) : Option Text :=
  (g.all name).head?

/-- Adds values of a name. -/
def add (g : Given) (name : Text) (values : List Text) : Given :=
  { g with values := (name, g.all name ++ values) :: g.values.filter (·.1 != name) }

/-- Settles what is pending. -/
def settle (g : Given) : Except UsageError Given :=
  match g.pending with
  | .none => .ok g
  | some p =>
    if p.values = [] then .error .invalidValue
    else if !p.repeated && g.has p.name then .error .conflict
    else if p.values.all p.accepts then .ok { g.add p.name p.values with pending := .none }
    else .error .invalidValue

/-- Lets `values` be pending after what was pending before is settled. -/
def await (g : Given) (p : Pending) : Except UsageError Given :=
  g.settle.map fun g => { g with pending := some p }

/-- Takes a flag and the value given with it. -/
def attach (g : Given) (p : Pending) : Except UsageError Given :=
  (g.await p).bind settle

/-- Takes a flag without value. -/
def mark (g : Given) (title : Text) (f : Flag) : Except UsageError Given :=
  g.settle.bind fun g =>
    match f.role with
    | .help => .error .help
    | .version => .error (.version title)
    | .switch => if g.has f.name then .error .conflict else .ok (g.add f.name [[]])
    | .counter | .value _ => .ok (g.add f.name [[]])

end Given

/-- Reads what follows two dashes. -/
def readLong (shape : Shape) (g : Given) (body : Text) : Except UsageError Given :=
  let name := body.before '='
  let attached := body.drop (name.length + 1)
  match shape.flags.find? (·.name == name) with
  | none => .error .unknownArgument
  | some f =>
    match f.role, body.contains '=' with
    | .value accepts, true => g.attach ⟨f.name, accepts, false, [attached]⟩
    | .value accepts, false => g.await ⟨f.name, accepts, false, []⟩
    | _, true => .error .unneededValue
    | _, false => g.mark shape.title f

/-- Reads the letters that follow one dash. -/
def readLetters (shape : Shape) (g : Given) : Text → Except UsageError Given
  | [] => .ok g
  | c :: rest =>
    match shape.flags.find? (·.letter == some c) with
    | none => .error .unknownArgument
    | some f =>
      match f.role with
      | .value accepts =>
        match rest with
        | [] => g.await ⟨f.name, accepts, false, []⟩
        | '=' :: v => g.attach ⟨f.name, accepts, false, [v]⟩
        | v => g.attach ⟨f.name, accepts, false, [v]⟩
      | _ => (g.mark shape.title f).bind fun g => readLetters shape g rest

/-- Reads a positional argument; `afterDashes` if `--` came before it. -/
def readPosition (shape : Shape) (afterDashes : Bool) (g : Given) (arg : Text) :
    Except UsageError Given :=
  match shape.positions[g.position]? with
  | some p =>
    match g.pending with
    | some q =>
      if p.repeated && q.name == p.name then
        .ok { g with pending := some { q with values := q.values ++ [arg] } }
      else
        (g.await ⟨p.name, p.accepts, p.repeated, [arg]⟩).map fun g =>
          { g with position := if p.repeated then g.position else g.position + 1 }
    | none =>
      (g.await ⟨p.name, p.accepts, p.repeated, [arg]⟩).map fun g =>
        { g with position := if p.repeated then g.position else g.position + 1 }
  | none =>
    if shape.subcommands = [] || (afterDashes && shape.subcommands.contains arg) then
      .error .unknownArgument
    else .error .unknownSubcommand

/-- Reads an argument before `--`. -/
def readArgument (shape : Shape) (g : Given) (arg : Text) : Except UsageError Given :=
  match arg with
  | '-' :: '-' :: body => readLong shape g body
  | '-' :: c :: letters => readLetters shape g (c :: letters)
  | _ =>
    match g.pending with
    | some p =>
      if p.values = [] then .ok { g with pending := some { p with values := [arg] } }
      else readPosition shape false g arg
    | none => readPosition shape false g arg

/-- Reads arguments up to a subcommand: what was given, and the subcommand with the arguments
after it. -/
def read (shape : Shape) (afterDashes : Bool) (g : Given) :
    List Text → Except UsageError (Given × Option (Text × List Text))
  | [] => g.settle.map fun g => (g, none)
  | arg :: rest =>
    if afterDashes then
      (readPosition shape true g arg).bind fun g => read shape true g rest
    else if shape.subcommands.contains arg then .ok (g, some (arg, rest))
    else if arg = ['-', '-'] then read shape true g rest
    else (readArgument shape g arg).bind fun g => read shape false g rest

end Arguments

end ImportXref
