/-!
# The version

It is printed by the command line tool, recorded with every stored library, and
part of what a stored library is found by.
-/

namespace Loopsmith

def version : String := "0.1.0"

end Loopsmith
