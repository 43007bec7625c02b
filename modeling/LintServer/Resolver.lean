import LintServer.Fault
import LintServer.Path
import LintServer.Settings
import LintServer.World.Basic

/-!
# The program to run

The tool is the configured path, else the newest archive in the `bin` folder of
the storage, else the command found on the search path. Archives are run by
Java. What a storage holds is remembered until the settings change.
-/

namespace LintServer

namespace Resolver

/-- The end of a name from its last point on, if that point is neither its first nor its last character. -/
def suffix (name : List Symbol) : List Symbol :=
  let behind := (name.reverse.takeWhile (· != .char '.')).reverse
  let before := (name.reverse.dropWhile (· != .char '.')).tail
  if before.isEmpty || behind.isEmpty then [] else .char '.' :: behind

def isArchive (name : LooseText) : Bool :=
  suffix name.symbols == (LooseText.ofString ".jar").symbols

/-- The greatest name, by code points. -/
def greatest? : List LooseText → Option LooseText
  | [] => none
  | name :: names =>
    match greatest? names with
    | none => some name
    | some best => some (if name.codePoints < best.codePoints then best else name)

/-- The newest archive in a storage. A listing that fails shows none. -/
def newestArchive (storage : Path) (w : World) : Except Fault (Option Path) × World :=
  let bin := storage.child "bin"
  match w.disk.isFolder bin.text with
  | .error e => (.error (.outside e), w)
  | .ok false => (.ok none, w)
  | .ok true =>
    match w.list bin.text with
    | (.error e, w) => (if e.isSystem then .ok none else .error (.outside e), w)
    | (.ok names, w) => (.ok ((greatest? (names.filter isArchive)).map bin.child), w)

end Resolver

structure Resolver where
  found : List (LooseText × Option Path) := []
  deriving DecidableEq, Repr

namespace Resolver

/-- The archive in the configured storage. Only an answer is remembered, not an error. -/
def archive (s : Settings) (r : Resolver) (w : World) : Except Fault (Option Path) × Resolver × World :=
  if s.storagePath = "" then (.ok none, r, w)
  else
    let storage := Path.ofText s.storagePath
    match r.found.lookup storage.text with
    | some known => (.ok known, r, w)
    | none =>
      match newestArchive storage w with
      | (.error e, w) => (.error e, r, w)
      | (.ok found, w) => (.ok found, ⟨(storage.text, found) :: r.found⟩, w)

/-- The path of the tool, empty for the one on the search path. -/
def effectivePath (s : Settings) (r : Resolver) (w : World) : Except Fault LooseText × Resolver × World :=
  if s.path ≠ "" then (.ok s.path, r, w)
  else
    match archive s r w with
    | (.error e, r, w) => (.error e, r, w)
    | (.ok none, r, w) => (.ok "", r, w)
    | (.ok (some archive), r, w) => (.ok archive.text, r, w)

/-- Whether a path ends like that of an archive, in any case. -/
def isArchivePath (path : LooseText) : Bool :=
  (LooseText.ofString ".jar").symbols.isSuffixOf (path.symbols.map (Symbol.map Char.toLower))

def commandAt (path : LooseText) (args : List LooseText) : List LooseText :=
  if path = "" then "lucli" :: args
  else if isArchivePath path then "java" :: "-jar" :: path :: args
  else path :: args

def command (s : Settings) (args : List LooseText) (r : Resolver) (w : World) :
    Except Fault (List LooseText) × Resolver × World :=
  match effectivePath s r w with
  | (.error e, r, w) => (.error e, r, w)
  | (.ok path, r, w) => (.ok (commandAt path args), r, w)

def invalidate (_ : Resolver) : Resolver := ⟨[]⟩

end Resolver

end LintServer
