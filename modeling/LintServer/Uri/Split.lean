import LintServer.Uri.Host

/-!
# The parts of a URI

Control characters and blanks before a URI are skipped, tabs and line ends are
removed everywhere. A scheme is what stands before the first colon if it starts
with a letter and has scheme characters only; a host follows two slashes.
-/

namespace LintServer.Uri

structure Parts where
  scheme : List Char
  host : List Symbol
  path : List Symbol
  deriving DecidableEq, Repr

/-- The URI without what is skipped and removed. -/
def clean (us : List Symbol) : List Symbol :=
  (us.dropWhile fun u => u.codePoint ≤ 0x20).filter fun u => u != .char '\t' && u != .char '\r' && u != .char '\n'

def isSchemeChar (c : Char) : Bool :=
  c.isAlphanum || c == '+' || c == '-' || c == '.'

def splitScheme (us : List Symbol) : List Char × List Symbol :=
  match Host.splitFirst (.char ':') us with
  | (scheme, some rest) =>
    if (scheme.head?.any (Symbol.is Char.isAlpha)) && scheme.all (Symbol.is isSchemeChar) then
      (scheme.map fun u => u.toChar.toLower, rest)
    else ([], us)
  | (_, none) => ([], us)

def endsHost (u : Symbol) : Bool :=
  u == .char '/' || u == .char '?' || u == .char '#'

def splitHost : List Symbol → List Symbol × List Symbol
  | .char '/' :: .char '/' :: us => (us.takeWhile (!endsHost ·), us.dropWhile (!endsHost ·))
  | us => ([], us)

def pathOf (us : List Symbol) : List Symbol :=
  us.takeWhile fun u => u != .char '?' && u != .char '#'

/-- Takes a URI apart; brackets are checked before folding. -/
def split (us : List Symbol) : Except HostFault Parts :=
  let (scheme, rest) := splitScheme (clean us)
  let (host, rest) := splitHost rest
  match Host.checkBrackets host with
  | .error e => .error e
  | .ok () =>
    match Host.checkFolding host with
    | .error e => .error e
    | .ok () => .ok ⟨scheme, host, pathOf rest⟩

end LintServer.Uri
