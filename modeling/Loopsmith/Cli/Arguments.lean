import Loopsmith.Decimal.Read
import Loopsmith.Loop.Basic

/-!
# Command line arguments

The argument list is read from left to right.  Up to the name of a subcommand the
options of the tool itself are read, after it those of the subcommand; the switches
`--time`, `--verbose` and `--help` are known in both places.

A value is not judged when it is met but when the next option or path arrives, or
at the end of the list.  So a malformed value loses against an unknown option
right after it, and wins against everything that is known.  `Reading.settle` is
that step: it is run before anything new is taken in.
-/

namespace Loopsmith
namespace Cli

/-- What the tool was asked to do. -/
inductive Task where
  | render (path parameters : String)
  | build (path parameters compiler : String) (keep : Bool)
  | run (path parameters compiler : String) (iteration : Int64)
  | header
  deriving DecidableEq, Repr

structure Invocation where
  time : Bool
  verbosity : Nat
  task : Task
  deriving DecidableEq, Repr

/-- Why an argument list starts no run. -/
inductive ArgumentStop where
  | helpRequested
  | versionRequested
  /-- Nothing was given at all, which is answered with the help text. -/
  | nothingGiven
  | missingSubcommand
  | unknownSubcommand
  | missingPath
  | unknownArgument
  /-- An option at the end without its value, or an empty path. -/
  | emptyValue
  | malformedNumber
  | repeatedOption
  | valueForSwitch
  deriving DecidableEq, Repr

/-- Help and version are answers, everything else is a usage error. -/
def ArgumentStop.exitCode : ArgumentStop → Nat
  | .helpRequested | .versionRequested => 0
  | _ => 2

/-- Where in the list an argument stands. -/
inductive Scope where
  | tool
  | render
  | build
  | run
  | header
  deriving DecidableEq, Repr

def Scope.ofName? : String → Option Scope
  | "render" => some .render
  | "build" => some .build
  | "run" => some .run
  | "header" => some .header
  | _ => none

/-- Whether a word may follow the tool's own options. -/
def Scope.isName (word : String) : Bool :=
  (ofName? word).isSome || word == "help"

/-- The things a value can be for. -/
inductive Slot where
  | path
  | parameters
  | compiler
  | iteration
  deriving DecidableEq, Repr

def Slot.isIn : Slot → Scope → Bool
  | .path, s | .parameters, s => [Scope.render, .build, .run].contains s
  | .compiler, s => [Scope.build, .run].contains s
  | .iteration, s => s == .run

inductive Switch where
  | help
  | version
  | time
  | verbose
  | keep
  deriving DecidableEq, Repr

def Switch.isIn : Switch → Scope → Bool
  | .help, _ | .time, _ | .verbose, _ => true
  | .version, s => s == .tool
  | .keep, s => s == .build

/-- An option is a switch or takes a value. -/
inductive Choice where
  | switch (s : Switch)
  | valued (s : Slot)
  deriving DecidableEq, Repr

def Choice.isIn : Choice → Scope → Bool
  | .switch s, scope => s.isIn scope
  | .valued s, scope => s.isIn scope

def Choice.ofLong? (scope : Scope) (name : String) : Option Choice :=
  let all : List (String × Choice) :=
    [("help", .switch .help), ("version", .switch .version), ("time", .switch .time),
     ("verbose", .switch .verbose), ("keep", .switch .keep), ("params", .valued .parameters),
     ("cc", .valued .compiler), ("iteration", .valued .iteration)]
  (all.lookup name).filter (·.isIn scope)

def Choice.ofShort? (scope : Scope) (letter : Char) : Option Choice :=
  let all : List (Char × Choice) :=
    [('h', .switch .help), ('V', .switch .version), ('v', .switch .verbose),
     ('p', .valued .parameters)]
  (all.lookup letter).filter (·.isIn scope)

/-! ## What has been read -/

/-- The state of a reading within one scope. -/
structure Reading where
  time : Bool := false
  keep : Bool := false
  verbosity : Nat := 0
  path : Option String := none
  parameters : Option String := none
  compiler : Option String := none
  iteration : Option Int64 := none
  /-- A value not judged yet, or an option that still waits for its value. -/
  pending : Option (Slot × Option String) := none
  /-- Whether `--` was met, after which nothing is an option. -/
  positionalOnly : Bool := false
  deriving DecidableEq, Repr

/-- Reads a signed 64-bit number: digits, with a sign or none. -/
def readInt64 (s : String) : Option Int64 :=
  let (negative, digits) := Decimal.readSign s.toList
  if digits.isEmpty || !digits.all Char.isDigit then none
  else
    let magnitude : Int := Decimal.ofDigits digits
    let value := if negative then -magnitude else magnitude
    if Int64.minValue.toInt ≤ value ∧ value ≤ Int64.maxValue.toInt then some (Int64.ofInt value)
    else none

namespace Reading

/-- The largest count of `--verbose`. -/
def mostVerbose : Nat := 255

/-- Takes in a value; an option given twice is refused before its value is
looked at. -/
def store (r : Reading) (slot : Slot) (value : String) : Except ArgumentStop Reading :=
  match slot with
  | .path => if value == "" then .error .emptyValue else .ok { r with path := some value }
  | .parameters =>
      if r.parameters.isSome then .error .repeatedOption
      else .ok { r with parameters := some value }
  | .compiler =>
      if r.compiler.isSome then .error .repeatedOption
      else .ok { r with compiler := some value }
  | .iteration =>
      if r.iteration.isSome then .error .repeatedOption
      else
        match readInt64 value with
        | some i => .ok { r with iteration := some i }
        | none => .error .malformedNumber

/-- Judges the value that is pending, if there is one. -/
def settle (r : Reading) : Except ArgumentStop Reading :=
  match r.pending with
  | none => .ok r
  | some (_, none) => .error .emptyValue
  | some (slot, some value) => { r with pending := none }.store slot value

def flip (r : Reading) : Switch → Except ArgumentStop Reading
  | .help => .error .helpRequested
  | .version => .error .versionRequested
  | .time => if r.time then .error .repeatedOption else .ok { r with time := true }
  | .keep => if r.keep then .error .repeatedOption else .ok { r with keep := true }
  | .verbose => .ok { r with verbosity := min (r.verbosity + 1) mostVerbose }

/-- An option that takes a value, with the value if it was attached. -/
def takeValued (r : Reading) (slot : Slot) : Option String → Except ArgumentStop Reading
  | some value => do (← r.settle).store slot value
  | none => do return { ← r.settle with pending := some (slot, none) }

/-- The text after `--`, up to its first `=` the name and behind it the value. -/
def takeLong (scope : Scope) (r : Reading) (body : List Char) : Except ArgumentStop Reading :=
  let name := String.ofList (body.takeWhile (· != '='))
  let attached := match body.dropWhile (· != '=') with
    | [] => none
    | _ :: value => some (String.ofList value)
  match Choice.ofLong? scope name, attached with
  | none, _ => .error .unknownArgument
  | some (.valued slot), value => r.takeValued slot value
  | some (.switch _), some _ => .error .valueForSwitch
  | some (.switch s), none => do (← r.settle).flip s

/-- The letters after a single dash.  The first that takes a value takes all that
follows it, less one `=` in front. -/
def takeShort (scope : Scope) (r : Reading) : List Char → Except ArgumentStop Reading
  | [] => .ok r
  | c :: cs =>
      match Choice.ofShort? scope c with
      | none => .error .unknownArgument
      | some (.valued slot) =>
          r.takeValued slot <| match cs with
            | [] => none
            | '=' :: value => some (String.ofList value)
            | value => some (String.ofList value)
      | some (.switch s) => do
          let r ← r.settle
          takeShort scope (← r.flip s) cs

/-- An argument that is neither an option nor the value of one: the path, if there
is none yet.  In front of the subcommands it can only be a misspelt one, unless
`--` stands in the way of a good one. -/
def takePositional (scope : Scope) (r : Reading) (arg : String) : Except ArgumentStop Reading :=
  let taken := r.path.isSome || r.pending.any (·.1 == .path)
  if Slot.path.isIn scope && !taken then
    do return { ← r.settle with pending := some (.path, some arg) }
  else if scope == .tool && !(r.positionalOnly && Scope.isName arg) then
    .error .unknownSubcommand
  else .error .unknownArgument

def take (scope : Scope) (r : Reading) (arg : String) : Except ArgumentStop Reading :=
  if r.positionalOnly then r.takePositional scope arg
  else
    match arg.toList with
    | ['-', '-'] => .ok { r with positionalOnly := true }
    | '-' :: '-' :: body => r.takeLong scope body
    | '-' :: c :: cs => r.takeShort scope (c :: cs)
    | _ =>
        match r.pending with
        | some (slot, none) => .ok { r with pending := some (slot, some arg) }
        | _ => r.takePositional scope arg

/-- Takes in a whole list and judges what is left pending. -/
def takeAll (scope : Scope) (r : Reading) (args : List String) : Except ArgumentStop Reading := do
  (← args.foldlM (take scope) r).settle

end Reading

/-! ## The whole list -/

/-- Finishes a reading of a subcommand. -/
def Task.ofReading (scope : Scope) (r : Reading) : Except ArgumentStop Task :=
  let parameters := r.parameters.getD ""
  let compiler := r.compiler.getD defaultCompiler
  match scope, r.path with
  | .header, _ => .ok .header
  | .tool, _ => .error .missingSubcommand
  | _, none => .error .missingPath
  | .render, some path => .ok (.render path parameters)
  | .build, some path => .ok (.build path parameters compiler r.keep)
  | .run, some path => .ok (.run path parameters compiler (r.iteration.getD 0))

/-- What `help` and the words after it ask for. -/
def helpOn : List String → ArgumentStop
  | [] => .helpRequested
  | [word] => if Scope.isName word then .helpRequested else .unknownSubcommand
  | _ :: _ :: _ => .unknownSubcommand

/-- A count of `--verbose` after the subcommand replaces the one before it. -/
def Invocation.ofReadings (scope : Scope) (before after : Reading) :
    Except ArgumentStop Invocation := do
  return {
    time := before.time || after.time
    verbosity := if after.verbosity == 0 then before.verbosity else after.verbosity
    task := ← Task.ofReading scope after }

/-- Reads arguments from the tool's own options on. -/
def Invocation.readFrom (before : Reading) : List String → Except ArgumentStop Invocation
  | [] =>
      if !before.time && before.verbosity == 0 then .error .nothingGiven
      else .error .missingSubcommand
  | arg :: args =>
      match if before.positionalOnly then none else Scope.ofName? arg with
      | some scope => do
          Invocation.ofReadings scope before (← ({} : Reading).takeAll scope args)
      | none =>
          if !before.positionalOnly && arg == "help" then .error (helpOn args)
          else do readFrom (← before.take .tool arg) args

/-- Reads the arguments of one run, the tool's own name left out. -/
def Invocation.read (args : List String) : Except ArgumentStop Invocation :=
  readFrom {} args

end Cli
end Loopsmith
