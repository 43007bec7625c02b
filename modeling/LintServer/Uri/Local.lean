import LintServer.Json.Basic
import LintServer.Path
import LintServer.Uri.Percent
import LintServer.Uri.Split

/-!
# Local paths

The path on disk that a document's URI names. A `file` URI is decoded, a host
becomes the start of a network path, and the slash before a drive letter goes. A
text without a scheme, or with a scheme of one letter, is itself a path.
-/

namespace LintServer.Uri

def dropDriveSlash : List Symbol → List Symbol
  | .char '/' :: drive :: .char ':' :: us => drive :: .char ':' :: us
  | us => us

def filePath (parts : Parts) : Path :=
  let path := Percent.decode parts.path
  let path := if parts.host.isEmpty then path else .char '/' :: .char '/' :: (parts.host ++ path)
  Path.ofSymbols (dropDriveSlash path)

/-- Whether a URI is one of a file. -/
def isFile (uri : LooseText) : Bool :=
  (LooseText.ofString "file://").symbols.isPrefixOf uri.symbols

/-- The path that a non-empty text names, if it is a local one. -/
def toPath? (uri : LooseText) : Except HostFault (Option Path) :=
  if uri.isEmpty then .ok none
  else
    match split uri.symbols with
    | .error e => .error e
    | .ok parts =>
      if isFile uri then .ok (some (filePath parts))
      else if 1 < parts.scheme.length then .ok none
      else .ok (some (Path.ofText uri))

/-- The path that a value names; only a text can name one. -/
def valuePath? : Json → Except HostFault (Option Path)
  | .str uri => toPath? uri
  | _ => .ok none

end LintServer.Uri
