import Loopsmith.Parameters.Basic
import Loopsmith.Template.Item

/-!
# Templates

A template is a list of pieces: stretches of text to copy, and tags.  Scanning
builds it from the items of the source by joining everything between two tags
into one piece, so no text piece is empty and no two are neighbours.  The source
is not stored, since the pieces spell it out.

Rendering copies the text, puts a parameter's value in place of a substitution
tag, and keeps the body of a conditional tag unless the value is `0`.  Values
are copied as they are and never scanned again.
-/

namespace Loopsmith

inductive Piece where
  | text (t : List Char)
  | tag (t : Tag)
  deriving DecidableEq, Repr

def Piece.source : Piece → List Char
  | text t => t
  | tag t => t.source

/-- Why a template could not be rendered. -/
inductive RenderError where
  | tag (e : TagError)
  | unbound (name : String) (span : Span)
  deriving DecidableEq, Repr

def RenderError.span : RenderError → Span
  | tag e => e.span
  | unbound _ span => span

def RenderError.message : RenderError → String
  | tag e => s!"{e.fault.message} (byte {e.span.start})"
  | unbound name span => s!"template parameter `{name}` is not defined (byte {span.start})"

structure Template where
  pieces : List Piece
  deriving DecidableEq, Repr

namespace Template

/-- Joins the items between two tags into one text piece. -/
def gather : List Item → List Piece
  | [] => []
  | .tag t :: is => .tag t :: gather is
  | i :: is =>
      match gather is with
      | .text t :: ps => .text (i.source ++ t) :: ps
      | ps => .text i.source :: ps

/-- Scans a source text. -/
def ofChars? (cs : List Char) : Except TagError Template :=
  (Item.scan 0 cs).map fun is => ⟨gather is⟩

/-- Scans a source text; a template that cannot be scanned cannot be rendered
either. -/
def parse (source : String) : Except RenderError Template :=
  (ofChars? source.toList).mapError .tag

def source (t : Template) : List Char :=
  t.pieces.flatMap Piece.source

/-! ## Where the pieces are -/

/-- A piece together with the bytes of the source that it takes up. -/
structure Placed where
  piece : Piece
  span : Span
  deriving DecidableEq, Repr

/-- Places pieces one after the other, the first at byte `pos`. -/
def place (pos : Nat) : List Piece → List Placed
  | [] => []
  | p :: ps =>
      let width := Text.byteLength p.source
      ⟨p, Span.ofWidth pos width⟩ :: place (pos + width) ps

def placed (t : Template) : List Placed :=
  place 0 t.pieces

/-- The bytes of the source that hold the body of a conditional tag. -/
def Placed.bodySpan (p : Placed) (body : List Char) : Span :=
  let stop := p.span.stop - Text.byteLength tagClose
  ⟨stop - Text.byteLength body, stop⟩

/-! ## Names and rendering -/

/-- The names that tags refer to, each once, in the order of first use. -/
def parameterNames (t : Template) : List String :=
  t.pieces.foldl
    (fun names p =>
      match p with
      | .text _ => names
      | .tag tag => if tag.name ∈ names then names else names ++ [tag.name])
    []

/-- What a tag becomes when its parameter has the given value. -/
def expand (value : String) : Tag → List Char
  | .substitution _ _ _ => value.toList
  | .conditional _ _ body => if value = "0" then [] else body

def renderPlaced (ps : Parameters) (p : Placed) : Except RenderError (List Char) :=
  match p.piece with
  | .text t => .ok t
  | .tag tag =>
      match ps.get? tag.name with
      | some value => .ok (expand value tag)
      | none => .error (.unbound tag.name p.span)

/-- Renders pieces in order, up to the first tag without a value. -/
def renderAll (ps : Parameters) : List Placed → Except RenderError (List Char)
  | [] => .ok []
  | p :: rest =>
      match renderPlaced ps p with
      | .error e => .error e
      | .ok cs =>
          match renderAll ps rest with
          | .error e => .error e
          | .ok out => .ok (cs ++ out)

def render (t : Template) (ps : Parameters) : Except RenderError String :=
  (renderAll ps t.placed).map String.ofList

end Template

/-- Scans and renders in one go. -/
def renderSource (source : String) (ps : Parameters) : Except RenderError String := do
  (← Template.parse source).render ps

end Loopsmith
