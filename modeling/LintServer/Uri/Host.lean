import LintServer.Text.Blank
import LintServer.Text.Hex
import LintServer.Text.Quoted

/-!
# Hosts

Brackets in the host of a URI hold an address of version six or of a later one,
and nothing stands before them or between them and the port. A host has no
character that compatibility folding turns into a delimiter. Half of a surrogate
pair is no part of an address and folds to nothing else.
-/

namespace LintServer.Uri

inductive HostFault where
  | brackets
  | futureAddress
  | fourInBrackets
  | notAnAddress (host : LooseText)
  | hiddenDelimiter (host : LooseText)
  deriving DecidableEq, Repr

def HostFault.message : HostFault → LooseText
  | .brackets => "Invalid IPv6 URL"
  | .futureAddress => "IPvFuture address is invalid"
  | .fourInBrackets => "An IPv4 address cannot be in brackets"
  | .notAnAddress host => Text.quote host ++ " does not appear to be an IPv4 or IPv6 address"
  | .hiddenDelimiter host => "netloc '" ++ host ++ "' contains invalid characters under NFKC normalization"

namespace Host

def splitFirst {α : Type} [DecidableEq α] (sep : α) (cs : List α) : List α × Option (List α) :=
  (cs.takeWhile (· != sep), (cs.dropWhile (· != sep)).tail?)

/-- The text behind the last `sep`, all of it where there is none. -/
def behindLast {α : Type} [DecidableEq α] (sep : α) (cs : List α) : List α :=
  (cs.reverse.takeWhile (· != sep)).reverse

def isHexText (cs : List Char) : Bool :=
  cs.all fun c => (Text.hexValue? c).isSome

/-- One of the four numbers of an address of version four: at most 255, in digits without a leading zero. -/
def isFourPart (cs : List Char) : Bool :=
  !cs.isEmpty && cs.all Char.isDigit && cs.length ≤ 3 && (cs == ['0'] || cs.head? != some '0') &&
    cs.foldl (fun n c => 10 * n + (c.toNat - '0'.toNat)) 0 ≤ 255

def isFour (cs : List Char) : Bool :=
  let parts := Text.cut '.' cs
  parts.length == 4 && parts.all isFourPart

def isGroup (cs : List Char) : Bool :=
  !cs.isEmpty && isHexText cs && cs.length ≤ 4

/-- The groups between colons, where an address of version four at the end counts as two. -/
def sixGroups? (cs : List Char) : Option (List (List Char)) :=
  let groups := Text.cut ':' cs
  match groups.getLast? with
  | some last =>
    if groups.length < 3 then none
    else if last.contains '.' then
      if isFour last then some (groups.dropLast ++ [['0'], ['0']]) else none
    else some groups
  | none => none

/-- Eight groups, or fewer with one gap. A gap at an end shows as two empty groups there. -/
def isSixGroups (groups : List (List Char)) : Bool :=
  let inner := groups.tail.dropLast
  match inner.findIdx? List.isEmpty with
  | none => groups.length == 8 && groups.all isGroup
  | some i =>
    let high := groups.take (i + 1)
    let low := groups.drop (i + 2)
    let high := if high == [[]] then [] else high
    let low := if low == [[]] then [] else low
    high.length + low.length ≤ 7 && high.all isGroup && low.all isGroup

/-- An address of version six, perhaps with a scope behind a percent sign. -/
def isSix (cs : List Char) : Bool :=
  let (address, zone) := splitFirst '%' cs
  let zoneFits := match zone with
    | none => true
    | some zone => !zone.isEmpty && !zone.contains '%'
  zoneFits && ((sixGroups? address).map isSixGroups).getD false

/-- A later version: `v`, hexadecimal digits, a point and at least one more character. -/
def isFuture (cs : List Char) : Bool :=
  let (version, rest) := splitFirst '.' (cs.drop 1)
  !version.isEmpty && isHexText version && rest.any fun rest => !rest.isEmpty && !rest.contains '\n'

def checkAddress (us : List Symbol) : Except HostFault Unit :=
  let cs := us.map Symbol.toChar
  if cs.head? = some 'v' then
    if isFuture cs then .ok () else .error .futureAddress
  else if isFour cs then .error .fourInBrackets
  else if isSix cs then .ok ()
  else .error (.notAnAddress ⟨us⟩)

def checkBrackets (host : List Symbol) : Except HostFault Unit :=
  match host.contains (.char '['), host.contains (.char ']') with
  | false, false => .ok ()
  | true, true =>
    let named := behindLast (.char '@') host
    match splitFirst (.char '[') named with
    | (before, some inside) =>
      let (address, rest) := splitFirst (.char ']') inside
      let port := rest.getD []
      if !before.isEmpty || (!port.isEmpty && port.head? != some (.char ':')) then .error .brackets
      else checkAddress address
    | (_, none) => checkAddress (splitFirst (.char ':') named).1
  | _, _ => .error .brackets

/-- The characters beyond ASCII that compatibility folding turns into a text with
a slash, a question mark, a number sign, an at sign or a colon. -/
def foldsToDelimiter (c : Char) : Bool :=
  [0x2047, 0x2048, 0x2049, 0x2100, 0x2101, 0x2105, 0x2106, 0x2A74, 0xFE13, 0xFE16, 0xFE55, 0xFE56,
   0xFE5F, 0xFE6B, 0xFF03, 0xFF0F, 0xFF1A, 0xFF1F, 0xFF20].contains c.toNat

def checkFolding (host : List Symbol) : Except HostFault Unit :=
  if host.any (Symbol.is foldsToDelimiter) then .error (.hiddenDelimiter ⟨host⟩) else .ok ()

end Host

end LintServer.Uri
