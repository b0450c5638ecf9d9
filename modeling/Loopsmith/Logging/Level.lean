/-!
# Log levels

Levels from the gravest to the most talkative, and the verbosity numbers that
choose among them.  A number stands for warnings only, then information, then
debugging, and from three on for everything.
-/

namespace Loopsmith

inductive Level where
  | error
  | warn
  | info
  | debug
  | trace
  deriving DecidableEq, Repr

namespace Level

def name : Level → String
  | error => "error"
  | warn => "warn"
  | info => "info"
  | debug => "debug"
  | trace => "trace"

/-- How talkative a level is. -/
def rank : Level → Nat
  | error => 1
  | warn => 2
  | info => 3
  | debug => 4
  | trace => 5

/-- The level that a verbosity number stands for. -/
def ofVerbosity (n : Nat) : Level :=
  match n with
  | 0 => warn
  | 1 => info
  | 2 => debug
  | _ => trace

end Level
end Loopsmith
