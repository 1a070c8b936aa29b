import Fleetboard.Framework.Prefix
import Fleetboard.Model.Go

/-!
# The `net` package, on IPv4

What the program uses of Go's `net`: the text of an address and of a network,
the parsing of both, masks, and membership. Every address the program hands out
is an IPv4 address, and texts in the IPv6 syntax are outside this model
(`parseAddr` and `parseCIDR` refuse them).

The mask of a network always comes from `CIDRMask`, so an `IPNet` keeps its
length. `ipString` is the text of a byte string taken for an address: only four
bytes give a dotted quad, which matters where the bytes come from a number.
-/

namespace Fleetboard.Net

/-- An IPv4 address. -/
abbrev Addr := BitVec 32

/-- `net.CIDRMask(ones, 32)`. -/
def cidrMask (ones : Nat) : Addr := topMask 32 (32 - ones)

/-- `net.IPNet`: an address and the length of its mask. -/
structure IPNet where
  ip : Addr
  ones : Nat
  ones_le : ones ≤ 32
  deriving DecidableEq, Repr

/-- `IPNet.Contains`. -/
def IPNet.contains (n : IPNet) (a : Addr) : Bool :=
  n.ip &&& cidrMask n.ones == a &&& cidrMask n.ones

/-- The four bytes of an address. -/
def addrBytes (a : Addr) : List Nat :=
  [a.toNat / 2 ^ 24, a.toNat / 2 ^ 16 % 256, a.toNat / 2 ^ 8 % 256, a.toNat % 256]

/-- The address of four bytes. -/
def ofBytes (a b c d : Nat) : Addr := BitVec.ofNat 32 (((a * 256 + b) * 256 + c) * 256 + d)

/-- Two hexadecimal digits for a byte. -/
def hexByte (b : Nat) : List Char := [Nat.digitChar (b / 16), Nat.digitChar (b % 16)]

/-- `IP.String` of a byte string: empty, of four bytes, or of a length that is
no address (sixteen bytes, the IPv6 form, do not occur). -/
def ipString (bytes : List Nat) : String :=
  match bytes with
  | [] => "<nil>"
  | [_, _, _, _] => String.ofList (['.'].intercalate (bytes.map (Nat.toDigits 10)))
  | _ => String.ofList ('?' :: bytes.flatMap hexByte)

/-- `IPNet.String`. -/
def IPNet.string (n : IPNet) : String := ipString (addrBytes n.ip) ++ "/" ++ toString n.ones

/-- One field of a dotted quad: digits, no leading zero, at most 255. -/
def parseField (cs : List Char) : Option Nat :=
  if cs ≠ [] ∧ cs.all Char.isDigit ∧ (cs.length = 1 ∨ cs.head? ≠ some '0') ∧
      Nat.ofDigitChars 10 cs 0 ≤ 255 then
    some (Nat.ofDigitChars 10 cs 0)
  else none

/-- The dotted quads among `netip.ParseAddr`'s texts. -/
def parseAddr (s : List Char) : Option Addr :=
  match (s.splitOn '.').mapM parseField with
  | some [a, b, c, d] => some (ofBytes a b c d)
  | _ => none

/-- The length after the slash of a CIDR: digits, at most 32. -/
def parseOnes (cs : List Char) : Option (Fin 33) :=
  if cs ≠ [] ∧ cs.all Char.isDigit then
    if h : Nat.ofDigitChars 10 cs 0 < 33 then some ⟨Nat.ofDigitChars 10 cs 0, h⟩ else none
  else none

/-- `net.ParseCIDR`: the address as written, and its network. -/
def parseCIDR (s : String) : Except Error (Addr × IPNet) :=
  let addr := s.toList.takeWhile (· ≠ '/')
  match s.toList.dropWhile (· ≠ '/') with
  | '/' :: mask =>
    match parseAddr addr, parseOnes mask with
    | some a, some n => .ok (a, ⟨a &&& cidrMask n, n, Nat.lt_succ_iff.mp n.isLt⟩)
    | _, _ => .error ("invalid CIDR address: " ++ s)
  | _ => .error ("invalid CIDR address: " ++ s)

end Fleetboard.Net
