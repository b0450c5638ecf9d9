import Loopsmith.Files.Path
import Loopsmith.Text.Utf8

/-!
# A tree of files

Working directories, log files and the artifact store live in a tree of
directories and files.  A place in the tree is the list of names that leads to it
from the root, and the tree says what is at each place; the root is always a
directory.

A path is followed component by component, and whatever it passes through has to
be a directory at that moment.  That alone decides which of the errors below an
operation ends in, so every operation starts with `follow`, or with `locateNew` when
it may create what the path names.  An operation that fails leaves the tree as it
was; only `makeDirectories`, which works its way down, may have got part of the way.
-/

namespace Loopsmith

/-- The names on the way from the root. -/
abbrev Place := List String

inductive Node where
  | directory
  | file (bytes : List UInt8)
  deriving DecidableEq, Repr

/-- Why an operation on files failed. -/
inductive FileError where
  | notFound
  | denied
  | alreadyExists
  | noDevice
  | notDirectory
  | isDirectory
  | nameTooLong
  | nulInPath
  /-- Only plain files can be copied. -/
  | notRegular
  | notText
  deriving DecidableEq, Repr

namespace FileError

def message : FileError → String
  | notFound => "No such file or directory (os error 2)"
  | denied => "Permission denied (os error 13)"
  | alreadyExists => "File exists (os error 17)"
  | noDevice => "No such device (os error 19)"
  | notDirectory => "Not a directory (os error 20)"
  | isDirectory => "Is a directory (os error 21)"
  | nameTooLong => "File name too long (os error 36)"
  | nulInPath => "file name contained an unexpected NUL byte"
  | notRegular => "the source path is neither a regular file nor a symlink to a regular file"
  | notText => "stream did not contain valid UTF-8"

end FileError

/-- What is at a place, with everything below it. -/
inductive Branch where
  | file (bytes : List UInt8)
  | directory (entries : List (String × Branch))

namespace Branch

/-- What is at the place itself. -/
def node : Branch → Node
  | file bytes => .file bytes
  | directory _ => .directory

def ofNode : Node → Branch
  | .file bytes => file bytes
  | .directory => directory []

def child? : Branch → String → Option Branch
  | file _, _ => none
  | directory entries, name => entries.lookup name

/-- Makes `new` what a name stands for. -/
def setEntry (entries : List (String × Branch)) (name : String) (new : Branch) :
    List (String × Branch) :=
  (name, new) :: entries.filter (·.1 != name)

/-- What is below, by the names that lead there. -/
def get? : Branch → Place → Option Branch
  | b, [] => some b
  | b, name :: p =>
      match b.child? name with
      | none => none
      | some child => child.get? p

/-- Puts a branch at a place, whatever was there. -/
def put (new : Branch) : Place → Branch → Branch
  | [], _ => new
  | _ :: _, file bytes => file bytes
  | name :: p, directory entries =>
      directory (setEntry entries name (put new p ((entries.lookup name).getD (directory []))))

/-- Drops what is at a place. -/
def drop : Place → Branch → Branch
  | [], b => b
  | _ :: _, file bytes => file bytes
  | [name], directory entries => directory (entries.filter (·.1 != name))
  | name :: p, directory entries =>
      match entries.lookup name with
      | none => directory entries
      | some child => directory (setEntry entries name (drop p child))

mutual

/-- Everything strictly below, by the names that lead there. -/
def contents : Branch → List (Place × Node)
  | file _ => []
  | directory entries => contentsOf entries

def contentsOf : List (String × Branch) → List (Place × Node)
  | [] => []
  | (name, b) :: rest =>
      ([name], b.node) :: (b.contents.map fun (p, n) => (name :: p, n)) ++ contentsOf rest

end

end Branch

structure FileTree where
  /-- Where relative paths start. -/
  cwd : Place
  /-- What is in the root directory. -/
  root : List (String × Branch)

namespace FileTree

def empty : FileTree :=
  ⟨[], []⟩

/-! ## The tree as a map -/

def top (t : FileTree) : Branch :=
  .directory t.root

/-- The same tree with another branch in place of all of it; the root stays a
directory. -/
def withTop (t : FileTree) : Branch → FileTree
  | .directory entries => { t with root := entries }
  | .file _ => t

/-- What is at a place. -/
def node? (t : FileTree) (p : Place) : Option Node :=
  (t.top.get? p).map Branch.node

/-- Puts a branch at a place, whatever was there. -/
def put (t : FileTree) (p : Place) (b : Branch) : FileTree :=
  t.withTop (b.put p t.top)

/-- Puts something at a place; a directory is empty at first. -/
def set (t : FileTree) (p : Place) (n : Node) : FileTree :=
  t.put p (.ofNode n)

/-- Drops a place and everything below it. -/
def drop (t : FileTree) (p : Place) : FileTree :=
  t.withTop (Branch.drop p t.top)

/-- Everything strictly below a place, by the names that lead there from it. -/
def below (t : FileTree) (p : Place) : List (Place × Node) :=
  ((t.top.get? p).map Branch.contents).getD []

/-! ## Following paths -/

/-- The longest name a directory can hold, in bytes. -/
def longestName : Nat := 255

/-- The longest path that can be followed, in bytes. -/
def longestPath : Nat := 4095

/-- Where a path has led so far. -/
structure Spot where
  /-- What is there, if anything. -/
  here : Option Branch
  /-- The directories on the way, the last one first, with the names taken from them. -/
  trail : List (String × Branch)

namespace Spot

def place (s : Spot) : Place :=
  (s.trail.map (·.1)).reverse

def node? (s : Spot) : Option Node :=
  s.here.map Branch.node

/-- One component further. -/
def step (s : Spot) (component : String) : Except FileError Spot :=
  match s.here with
  | none => .error .notFound
  | some (.file _) => .error .notDirectory
  | some dir =>
      if Path.isStay component then .ok s
      else if component == ".." then
        match s.trail with
        | [] => .ok s
        | (_, parent) :: trail => .ok ⟨some parent, trail⟩
      else if component.utf8ByteSize > longestName then .error .nameTooLong
      else .ok ⟨dir.child? component, (component, dir) :: s.trail⟩

end Spot

/-- Where a path leads; there need not be anything there. -/
def follow (t : FileTree) (path : String) : Except FileError Spot :=
  if path == "" then .error .notFound
  else if path.toList.contains '\x00' then .error .nulInPath
  else if path.utf8ByteSize > longestPath then .error .nameTooLong
  else
    let start := if Path.isAbsolute path then [] else t.cwd
    (start ++ Path.segments path).foldlM Spot.step ⟨some t.top, []⟩

/-- The place a path leads to. -/
def locate (t : FileTree) (path : String) : Except FileError Place :=
  (t.follow path).map Spot.place

/-- The path without the slashes at its end. -/
def stripSlashes (path : String) : String :=
  String.ofList (path.toList.reverse.dropWhile (· == '/')).reverse

/-- The place of a file that may have to be created; a path that ends in a slash
cannot be one. -/
def locateNew (t : FileTree) (path : String) : Except FileError Spot := do
  let stripped := stripSlashes path
  let s ← t.follow (if stripped == "" then path else stripped)
  match s.node? with
  | some .directory => .error .isDirectory
  | _ => if stripped == path then .ok s else .error .isDirectory

/-- What a path names. -/
def find (t : FileTree) (path : String) : Except FileError Node := do
  match (← t.follow path).node? with
  | some n => .ok n
  | none => .error .notFound

def hasPath (t : FileTree) (path : String) : Bool :=
  (t.find path).toBool

def isDirectory (t : FileTree) (path : String) : Bool :=
  match t.find path with
  | .ok .directory => true
  | _ => false

/-! ## Operations -/

def readFile (t : FileTree) (path : String) : Except FileError (List UInt8) := do
  match ← t.find path with
  | .file bytes => .ok bytes
  | .directory => .error .isDirectory

def readText (t : FileTree) (path : String) : Except FileError String := do
  match Text.decode? (← t.readFile path) with
  | some cs => .ok (String.ofList cs)
  | none => .error .notText

/-- Makes `path` a file with these bytes, replacing one that is there. -/
def writeFile (t : FileTree) (path : String) (bytes : List UInt8) : Except FileError FileTree := do
  return t.set (← t.locateNew path).place (.file bytes)

/-- Makes `path` an empty file unless there is one. -/
def touch (t : FileTree) (path : String) : Except FileError FileTree := do
  let s ← t.locateNew path
  return if s.here.isSome then t else t.set s.place (.file [])

/-- Copies a file.  The target is emptied before anything is read, so a file that is
copied onto itself is empty afterwards. -/
def copy (t : FileTree) (source target : String) : Except FileError FileTree := do
  let s ← t.follow source
  match s.node? with
  | none => .error .notFound
  | some .directory => .error .notRegular
  | some (.file bytes) =>
      let p := (← t.locateNew target).place
      return t.set p (.file (if p == s.place then [] else bytes))

/-- Moves a file, replacing one that is at the target. -/
def rename (t : FileTree) (source target : String) : Except FileError FileTree := do
  let s ← t.follow source
  let d ← t.follow target
  match s.here, d.node? with
  | none, _ => .error .notFound
  | some _, some .directory | some (.directory _), some (.file _) => .error .isDirectory
  | some b, _ => .ok ((t.drop s.place).put d.place b)

/-- Removes what a path names, with everything below it. -/
def remove (t : FileTree) (path : String) : Except FileError FileTree := do
  let s ← t.follow path
  match s.here with
  | none => .error .notFound
  | some _ => .ok (t.drop s.place)

def makeDirectory (t : FileTree) (path : String) : Except FileError FileTree := do
  let stripped := stripSlashes path
  let s ← t.follow (if stripped == "" then path else stripped)
  match s.here with
  | some _ => .error .alreadyExists
  | none => .ok (t.set s.place .directory)

/-- One attempt at a directory whose parents are there; a directory that exists
is as good as a new one. -/
def ensureDirectory (t : FileTree) (path : String) : Except FileError FileTree :=
  match t.makeDirectory path with
  | .ok t' => .ok t'
  | .error .notFound => .error .notFound
  | .error e => if t.isDirectory path then .ok t else .error e

/-- The path that leads through some components. -/
def pathThrough (absolute : Bool) (components : List String) : String :=
  (if absolute then "/" else "") ++ String.intercalate "/" components

/-- Makes the directory `path`, and first, if something is missing on the way, the one
that the reversed list of components leads to. -/
def makeDown (absolute : Bool) (t : FileTree) (path : String) :
    List String → Except FileError Unit × FileTree
  | [] =>
      match t.ensureDirectory path with
      | .ok t' => (.ok (), t')
      | .error e => (.error e, t)
  | parent :: above =>
      match t.ensureDirectory path with
      | .ok t' => (.ok (), t')
      | .error .notFound =>
          match makeDown absolute t (pathThrough absolute (parent :: above).reverse) above with
          | (.error e, t') => (.error e, t')
          | (.ok (), t') =>
              match t'.ensureDirectory path with
              | .ok t'' => (.ok (), t'')
              | .error e => (.error e, t')
      | .error e => (.error e, t)

/-- Makes a directory and all that is missing above it. -/
def makeDirectories (t : FileTree) (path : String) : Except FileError Unit × FileTree :=
  if path == "" then (.ok (), t)
  else makeDown (Path.isAbsolute path) t path (Path.components path).reverse.tail

/-! ## Free names -/

/-- The `n`-th name with this beginning. -/
def numbered (start : String) (n : Nat) : String :=
  let digits := toString n
  start ++ String.ofList (List.replicate (6 - digits.length) '0') ++ digits

/-- The first numbered name that is not taken in the directory `parent`.  There are more
numbers than names in it, so one of them is free. -/
def freeName (t : FileTree) (parent start : String) : String :=
  let taken : List String := match t.follow parent with
    | .ok ⟨some (.directory entries), _⟩ => entries.map (·.1)
    | _ => []
  let free := (List.range (taken.length + 1)).find? fun n => !taken.contains (numbered start n)
  numbered start (free.getD taken.length)

end FileTree
end Loopsmith
