import LintServer.Text.Blank

/-!
# Paths

A path is a root and a list of parts. Reading drops empty parts and dots, keeps
double dots, and tells a start of exactly two slashes from any other number.
No path is looked up on a disk.
-/

namespace LintServer

inductive Root where
  | relative
  | slash
  | doubleSlash
  deriving DecidableEq, Repr

def Root.text : Root → String
  | .relative => ""
  | .slash => "/"
  | .doubleSlash => "//"

structure Path where
  root : Root
  parts : List LooseText
  deriving DecidableEq, Repr

namespace Path

/-- The root of a text with this many slashes at its head. -/
def rootOf : Nat → Root
  | 0 => .relative
  | 2 => .doubleSlash
  | _ => .slash

def ofSymbols (us : List Symbol) : Path where
  root := rootOf (us.takeWhile (· == .char '/')).length
  parts := ((Text.cut (.char '/') us).filter fun part => part ≠ [] ∧ part ≠ [.char '.']).map LooseText.mk

def ofText (t : LooseText) : Path :=
  ofSymbols t.symbols

/-- The text of a path; without root and parts it is a dot. -/
def text (p : Path) : LooseText :=
  match p.root, p.parts with
  | .relative, [] => "."
  | root, parts => root.text ++ LooseText.intercalate "/" parts

def child (p : Path) (name : LooseText) : Path :=
  { p with parts := p.parts ++ [name] }

def parent (p : Path) : Path :=
  { p with parts := p.parts.dropLast }

/-- Whether the folder is the path itself or one that it lies in. -/
def isIn (p folder : Path) : Bool :=
  p.root == folder.root && folder.parts.isPrefixOf p.parts

/-- How many components a path has; a root is one of them. -/
def depth (p : Path) : Nat :=
  p.parts.length + (if p.root = .relative then 0 else 1)

theorem isIn_iff {p folder : Path} :
    p.isIn folder = true ↔ p.root = folder.root ∧ folder.parts <+: p.parts := by
  simp [isIn]

end Path

end LintServer
