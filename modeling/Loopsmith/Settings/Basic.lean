import Loopsmith.Files.Path
import Loopsmith.Logging.Level
import Loopsmith.Loop.Basic

/-!
# Settings

Everything that can be configured, with one value for each setting whatever it
was read from.  A setting that was not given has no value; the defaults that
stand in for it are applied where it is used.
-/

namespace Loopsmith

structure LogSettings where
  verbosity : UInt8
  /-- A filter that wins over the verbosity. -/
  directive : Option String
  file : Option String
  deriving DecidableEq, Repr

namespace LogSettings

def default : LogSettings :=
  ⟨0, none, none⟩

def level (s : LogSettings) : Level :=
  Level.ofVerbosity s.verbosity.toNat

/-- The filter in force: the directive, or else the name of the level. -/
def filter (s : LogSettings) : String :=
  s.directive.getD s.level.name

end LogSettings

structure Settings where
  log : LogSettings
  saveIntermediates : Bool
  benchmark : Bool
  policy : Policy
  /-- Where working directories are made. -/
  workDir : Option String
  /-- The root of the artifact store, if it is on. -/
  storeRoot : Option String

namespace Settings

def default : Settings :=
  { log := .default
    saveIntermediates := false
    benchmark := false
    policy := .always
    workDir := none
    storeRoot := none }

def isDefault (s : Settings) : Bool :=
  decide (s.log = .default) && !s.saveIntermediates && !s.benchmark && s.workDir.isNone &&
    s.storeRoot.isNone &&
    match s.policy with
    | .always => true
    | .below _ => false

/-- The directory below the home directory where the store is by default. -/
def storeDirName : String := ".doping_cache"

end Settings

/-- Why there are no settings. -/
inductive SettingsError where
  /-- The store would be below the home directory, and the user has none. -/
  | noHome
  deriving DecidableEq, Repr

def SettingsError.message : SettingsError → String
  | noHome => "failed to determine user directories"

namespace Settings

/-- The store root: the one given, or else a directory below `home`. -/
def storeRootOr (home custom : Option String) : Except SettingsError String :=
  match custom, home with
  | some root, _ => .ok root
  | none, some home => .ok (Path.join home storeDirName)
  | none, none => .error .noHome

/-- The store root, if the store is on. -/
def storeRootIf (cache : Bool) (home custom : Option String) :
    Except SettingsError (Option String) :=
  if cache then (storeRootOr home custom).map some else .ok none

end Settings
end Loopsmith
