import Loopsmith.Loop.Basic
import Loopsmith.Parameters.Text

/-!
# Specialization keys

Two calls may share one built function when they have the same key: the loop's
name, its parameters in written form, and its template.  Of the template only a
64-bit hash is kept.  Which hash it is does not matter, so it is an argument of
everything that makes keys; what is promised about keys assumes that it does not
confuse two templates.
-/

namespace Loopsmith

/-- A hash of template texts. -/
abbrev TemplateHash := String → UInt64

structure Key where
  name : Option String
  parameters : String
  template : UInt64
  deriving DecidableEq, Repr

namespace Key

def of (hash : TemplateHash) (name : Option String) (ps : Parameters) (source : String) : Key :=
  ⟨name, ps.serialize, hash source⟩

/-- The readable part of the key, which leaves the template out. -/
def label (k : Key) : String :=
  s!"{k.name.getD anonymousName}_<{k.parameters}>"

/-- The key as text, the hash in hexadecimal. -/
def text (k : Key) : String :=
  s!"{k.label}_{String.ofList (Nat.toDigits 16 k.template.toNat)}"

end Key

/-- The key of a call, if its parameters can be read. -/
def LoopSite.key? (hash : TemplateHash) (site : LoopSite) : Except ParameterError Key :=
  (Parameters.parse site.parameters).map fun ps => Key.of hash site.name ps site.source

end Loopsmith
