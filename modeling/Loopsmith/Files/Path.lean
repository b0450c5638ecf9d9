import Loopsmith.Text.Split

/-!
# Paths

A path is the text it was given as, since that is how it is printed; what it
names is found by taking it apart at the slashes.  Empty components and single
dots stand for the directory they are in, two dots for the one above.
-/

namespace Loopsmith
namespace Path

/-- The stretches between slashes. -/
def segments (path : String) : List String :=
  (Text.splitOn '/' path.toList).map String.ofList

/-- A component that stays in the directory it is in. -/
def isStay (component : String) : Bool :=
  component == "" || component == "."

/-- The components that lead somewhere. -/
def components (path : String) : List String :=
  (segments path).filter (!isStay ·)

def isAbsolute (path : String) : Bool :=
  path.toList.head? == some '/'

/-- The last component, unless the path ends by going up. -/
def fileName? (path : String) : Option String :=
  (components path).getLast?.filter (· != "..")

/-- `path` seen from the directory `base`. -/
def join (base path : String) : String :=
  if isAbsolute path || base == "" then path
  else if base.toList.getLast? == some '/' then base ++ path
  else base ++ "/" ++ path

/-- A text up to its last dot, unless it has none or starts with it. -/
def stem (name : List Char) : List Char :=
  match name.reverse.dropWhile (· != '.') with
  | [] => name
  | [_] => name
  | _ :: init => init.reverse

/-- The path with another extension in place of its last one.  A name that is a dot before
its extension is cut down to two dots, which lead to the directory above, and gets no
extension. -/
def withExtension (path extension : String) : String :=
  match path.toList.reverse.span (· != '/') with
  | (reversed, dir) =>
      let name := reversed.reverse
      let renamed :=
        if stem name == ['.'] && name != ['.'] then ['.', '.']
        else stem name ++ '.' :: extension.toList
      String.ofList (dir.reverse ++ renamed)

end Path
end Loopsmith
