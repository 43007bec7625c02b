import LintServer.Text.Hex
import LintServer.Text.Loose
import LintServer.Text.Utf8

/-!
# Percent encoding

A percent sign and two hexadecimal digits stand for an octet. The octets of an
unbroken run of ASCII characters are read together as UTF-8; a percent sign
without two digits stands for itself, and so does every other character, and half
of a surrogate pair.
-/

namespace LintServer.Uri.Percent

def octets : List Char → List UInt8
  | [] => []
  | c :: a :: b :: cs =>
    match c == '%', Text.hexValue? a, Text.hexValue? b with
    | true, some x, some y => UInt8.ofNat (16 * x + y) :: octets cs
    | _, _, _ => UInt8.ofNat c.toNat :: octets (a :: b :: cs)
  | c :: cs => UInt8.ofNat c.toNat :: octets cs

def isAscii (c : Char) : Bool :=
  c.toNat < 0x80

def decodeRun (cs : List Char) : List Symbol :=
  (Text.Utf8.decode (octets cs)).map .char

/-- Decodes the rest of a text behind `run`, the ASCII characters before it in reverse. -/
def decodeFrom (run : List Char) : List Symbol → List Symbol
  | [] => decodeRun run.reverse
  | .half offset :: us => decodeRun run.reverse ++ .half offset :: decodeFrom [] us
  | .char c :: us =>
    if isAscii c then decodeFrom (c :: run) us
    else decodeRun run.reverse ++ .char c :: decodeFrom [] us

def decode (us : List Symbol) : List Symbol :=
  decodeFrom [] us

end LintServer.Uri.Percent
