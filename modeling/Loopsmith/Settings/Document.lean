import Loopsmith.Files.Tree
import Loopsmith.Settings.Basic
import Loopsmith.Toml.Flat

/-!
# Settings from a document

The same settings as a TOML document, each key with a scalar of one kind.  Texts
are taken as they are, empty ones included.  A threshold may be a whole number.
Anything unexpected, a key, a kind or a number out of range, makes the whole
document invalid, and why is not told.
-/

namespace Loopsmith
namespace Settings

/-- The settings as a document spells them, each missing if it was not given. -/
structure Document where
  verbose : Option UInt8
  log : Option String
  logFile : Option String
  saveFiles : Option Bool
  benchmark : Option Bool
  threshold : Option Float
  workDir : Option String
  cache : Option Bool
  cacheDir : Option String

/-- One thing that a document sets. -/
inductive Setting where
  | verbose (n : UInt8)
  | log (s : String)
  | logFile (s : String)
  | saveFiles (b : Bool)
  | benchmark (b : Bool)
  | threshold (x : Float)
  | workDir (s : String)
  | cache (b : Bool)
  | cacheDir (s : String)

namespace Setting

/-- The threshold that a whole number stands for. -/
def wholeThreshold (i : Int) : Float :=
  Float.ofBits (Binary64.withSign (decide (i < 0)) (Binary64.ofRatio i.natAbs 1))

/-- What an assignment sets; an unknown key or a wrong kind of scalar is refused. -/
def of? : String × Toml.Scalar → Option Setting
  | ("verbose", .integer i) =>
      if 0 ≤ i && i ≤ 255 then some (verbose (UInt8.ofNat i.toNat)) else none
  | ("log", .string s) => some (log s)
  | ("log_file", .string s) => some (logFile s)
  | ("save_files", .boolean b) => some (saveFiles b)
  | ("benchmark", .boolean b) => some (benchmark b)
  | ("threshold", .float bits) => some (threshold (Float.ofBits bits))
  | ("threshold", .integer i) => some (threshold (wholeThreshold i))
  | ("work_dir", .string s) => some (workDir s)
  | ("cache", .boolean b) => some (cache b)
  | ("cache_dir", .string s) => some (cacheDir s)
  | _ => none

end Setting

namespace Document

def empty : Document :=
  ⟨none, none, none, none, none, none, none, none, none⟩

def set (d : Document) : Setting → Document
  | .verbose n => { d with verbose := some n }
  | .log s => { d with log := some s }
  | .logFile s => { d with logFile := some s }
  | .saveFiles b => { d with saveFiles := some b }
  | .benchmark b => { d with benchmark := some b }
  | .threshold x => { d with threshold := some x }
  | .workDir s => { d with workDir := some s }
  | .cache b => { d with cache := some b }
  | .cacheDir s => { d with cacheDir := some s }

/-- Takes one assignment in. -/
def assign (d : Document) (e : String × Toml.Scalar) : Option Document :=
  (Setting.of? e).map d.set

def parse? (text : String) : Option Document := do
  (← Toml.parse? text).foldlM assign empty

/-- The settings that a document spells, for a user whose home directory is `home`. -/
def settings (d : Document) (home : Option String) : Except SettingsError Settings :=
  (storeRootIf (d.cache.getD false) home d.cacheDir).map fun storeRoot =>
    { log := ⟨d.verbose.getD 0, d.log, d.logFile⟩
      saveIntermediates := d.saveFiles.getD false
      benchmark := d.benchmark.getD false
      policy := (d.threshold.map Policy.below).getD .always
      workDir := d.workDir
      storeRoot }

end Document

/-- Why a document gives no settings. -/
inductive DocumentError where
  | unreadable (path : String) (e : FileError)
  | invalid
  | incomplete (e : SettingsError)
  deriving DecidableEq, Repr

def DocumentError.message : DocumentError → String
  | unreadable path _ => s!"failed to read {path}"
  | invalid => "invalid doping configuration"
  | incomplete e => e.message

/-- The settings of a document, or why there are none. -/
def ofDocument (home : Option String) (text : String) : Except DocumentError Settings :=
  match Document.parse? text with
  | some d => (d.settings home).mapError .incomplete
  | none => .error .invalid

/-- The settings of the document in a file. -/
def ofFile (home : Option String) (files : FileTree) (path : String) :
    Except DocumentError Settings :=
  match files.readText path with
  | .ok text => ofDocument home text
  | .error e => .error (.unreadable path e)

end Settings
end Loopsmith
