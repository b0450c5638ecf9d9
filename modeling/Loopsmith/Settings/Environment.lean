import Loopsmith.Decimal.Read
import Loopsmith.Event
import Loopsmith.Settings.Basic
import Loopsmith.Text.Blank

/-!
# Settings from environment variables

Each setting has a variable, and an empty variable is as good as none wherever a
text is expected.  A toggle is on when its variable is there at all, unless it
spells out that it is off.  No value is refused: a verbosity that is no number
means one step more than quiet, and a threshold that is none is reported and
replaced by the default.  There are no settings only if the store is on, has no
variable for its root, and the user has no home directory for it.
-/

namespace Loopsmith

/-- The value of each variable that is set. -/
abbrev Environment := String → Option String

/-- The number a text spells, if it is at most `largest`: digits, with a plus sign
or none. -/
def readBounded (largest : Nat) (s : String) : Option Nat :=
  let digits := match s.toList with
    | '+' :: cs => cs
    | cs => cs
  if digits.isEmpty || !digits.all Char.isDigit then none
  else some (Decimal.ofDigits digits) |>.filter (· ≤ largest)

namespace LogSettings

/-- The verbosity that a variable's value asks for. -/
def readVerbosity (raw : String) : UInt8 :=
  match readBounded 255 (Text.trimmed raw) with
  | some n => UInt8.ofNat n
  | none => 1

def ofEnvironment (env : Environment) : LogSettings :=
  { verbosity := ((env "DOPING_VERBOSE").map readVerbosity).getD 0
    directive := (env "DOPING_LOG").filter (!Text.isBlankText ·)
    file := (env "DOPING_LOG_FILE").filter (· != "") }

end LogSettings

namespace Settings

/-- Whether a toggle is on. -/
def toggle : Option String → Bool
  | none => false
  | some raw =>
      let word := String.ofList ((Text.trim raw.toList).map Char.toLower)
      !(["0", "false", "off", "no"].contains word)

/-- The finite number a text spells. -/
def readFinite (s : String) : Option Float :=
  ((Decimal.read? s).filter fun bits => Binary64.biased bits != 2047).map Float.ofBits

/-- The policy that the threshold variable asks for, and what there is to report
about it. -/
def readPolicy : Option String → Policy × List Event
  | none => (.always, [])
  | some raw =>
      if Text.isBlankText raw then (.below Policy.defaultThreshold, [])
      else
        match readFinite (Text.trimmed raw) with
        | some threshold => (.below threshold, [])
        | none => (.below Policy.defaultThreshold, [.thresholdIgnored raw])

/-- The settings in an environment, for a user whose home directory is `home`, and what there
is to report about them. -/
def ofEnvironment (home : Option String) (env : Environment) :
    Except SettingsError Settings × List Event :=
  let (policy, events) := readPolicy (env "DOPING_THRESHOLD")
  let nonEmpty (name : String) : Option String := (env name).filter (· != "")
  let root := storeRootIf (toggle (env "DOPING_CACHE")) home (nonEmpty "DOPING_CACHE_DIR")
  (root.map fun storeRoot =>
    { log := .ofEnvironment env
      saveIntermediates := toggle (env "DOPING_SAVE_FILES")
      benchmark := toggle (env "DOPING_BENCHMARK")
      policy
      workDir := nonEmpty "DOPING_WORK_DIR"
      storeRoot },
    events)

end Settings
end Loopsmith
