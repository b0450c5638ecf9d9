/-!
# Parameter names

A parameter has the same kind of name wherever it is mentioned, in a tag or in a
parameter list.
-/

namespace Loopsmith

/-- Names are made of ASCII letters, digits and underscores. -/
def isNameChar (c : Char) : Bool :=
  c.isAlphanum || c == '_'

end Loopsmith
