import Fleetboard.Model.Net

/-!
# Addresses of both families

`net.ParseIP` and `IP.String`, for addresses that the program only reads and writes again.
An address is sixteen bytes, and an IPv4 address is one of those that `To4` knows.
-/

namespace Fleetboard.Net

/-- `net.IP` of sixteen bytes. -/
abbrev IP := BitVec 128

/-- A hexadecimal digit. -/
def hexDigit (c : Char) : Option Nat :=
  if c.isDigit then some (c.toNat - '0'.toNat)
  else if 'a' ≤ c ∧ c ≤ 'f' then some (c.toNat - 'a'.toNat + 10)
  else if 'A' ≤ c ∧ c ≤ 'F' then some (c.toNat - 'A'.toNat + 10)
  else none

/-- A field of an IPv6 address: one to four hexadecimal digits. -/
def parseHexField (cs : List Char) : Option Nat :=
  if 1 ≤ cs.length ∧ cs.length ≤ 4 then
    (cs.mapM hexDigit).map (List.foldl (fun acc d => acc * 16 + d) 0)
  else none

/-- The groups of the fields of an IPv6 address, the last of which may be a dotted quad. -/
def parseGroups : List (List Char) → Option (List Nat)
  | [] => some []
  | [field] =>
    match parseHexField field with
    | some g => some [g]
    | none => (parseAddr field).map fun a => [a.toNat / 65536, a.toNat % 65536]
  | field :: fields =>
    match parseHexField field, parseGroups fields with
    | some g, some gs => some (g :: gs)
    | _, _ => none

/-- The text before and after the first double colon. -/
def splitEllipsis : List Char → Option (List Char × List Char)
  | ':' :: ':' :: rest => some ([], rest)
  | c :: rest => (splitEllipsis rest).map fun parts => (c :: parts.1, parts.2)
  | [] => none

/-- The fields between the colons of a text, none if it is empty. -/
def colonFields (cs : List Char) : List (List Char) := if cs = [] then [] else cs.splitOn ':'

/-- The groups of an IPv6 address: eight, or fewer and a double colon. -/
def parseIPv6 (cs : List Char) : Option (List Nat) :=
  match splitEllipsis cs with
  | none => (parseGroups (colonFields cs)).filter (·.length = 8)
  | some (left, right) =>
    match (colonFields left).mapM parseHexField, parseGroups (colonFields right) with
    | some ls, some rs =>
      if ls.length + rs.length ≤ 7 then
        some (ls ++ List.replicate (8 - ls.length - rs.length) 0 ++ rs)
      else none
    | _, _ => none

/-- `net.ParseIP`, with none for nil. -/
def ParseIP (s : String) : Option IP :=
  match parseAddr s.toList with
  | some a => some (BitVec.ofNat 128 (0xffff * 2 ^ 32 + a.toNat))
  | none => (parseIPv6 s.toList).map fun gs =>
    BitVec.ofNat 128 (gs.foldl (fun acc g => acc * 65536 + g) 0)

/-- `IP.To4`. -/
def IP.to4 (ip : IP) : Option Addr :=
  if ip.toNat / 2 ^ 32 = 0xffff then some (BitVec.ofNat 32 ip.toNat) else none

/-- One of the eight groups of two bytes. -/
def IP.group (ip : IP) (i : Nat) : Nat := ip.toNat / 2 ^ (16 * (7 - i)) % 65536

/-- The first of the longest runs of at least two zero groups. -/
def IP.zeros (ip : IP) : Option (Nat × Nat) :=
  (List.range 8).foldl (fun best i =>
    let len := ((List.range' i (8 - i)).takeWhile (IP.group ip · = 0)).length
    if len ≥ 2 ∧ len > (best.map fun run => run.2 - run.1).getD 0 then some (i, i + len) else best)
    none

/-- Groups in hexadecimal, with colons between them. -/
def IP.groupsText (ip : IP) (is : List Nat) : String :=
  ":".intercalate (is.map fun i => String.ofList (Nat.toDigits 16 (IP.group ip i)))

/-- `IP.String`, also of nil. -/
def IP.string : Option IP → String
  | none => "<nil>"
  | some ip =>
    match IP.to4 ip with
    | some a => ipString (addrBytes a)
    | none =>
      match IP.zeros ip with
      | none => IP.groupsText ip (List.range 8)
      | some (i, j) =>
        IP.groupsText ip (List.range i) ++ "::" ++ IP.groupsText ip (List.range' j (8 - j))

end Fleetboard.Net
