import Fleetboard.Model.Net

/-!
# Dividing networks (`utils/netutil.go`)

`GetIndexIPFromCIDR` counts up from the address of a network to an index.

`FindTunnelAvailableCIDR` gives a cluster a block of the tunnel network,
`FindClusterAvailableCIDR` a node a block of its cluster's network: both pick
the length of the blocks from the length of the network and take the first
block that overlaps nothing in use (`findAvailableCIDR`).

The candidates are numbers: the network's address plus a multiple of the block
size, turned into bytes by `big.Int`, into an address by `net.IP` and into a
text. `bigBytes` drops leading zero bytes and adds bytes beyond the fourth, so
that the text of a candidate need not be a CIDR.
-/

namespace Fleetboard.NetUtil

open Fleetboard.Net

/-! ## The address of an index -/

/-- `inc`, from the last byte on: a byte that does not wrap ends the loop. -/
def incLoop : List Nat → List Nat
  | [] => []
  | b :: bs => if (b + 1) % 256 > 0 then (b + 1) % 256 :: bs else (b + 1) % 256 :: incLoop bs

/-- `inc`. -/
def inc (ipA : Addr) : Addr :=
  match (incLoop (addrBytes ipA).reverse).reverse with
  | [a, b, c, d] => ofBytes a b c d
  | _ => ipA

/-- The loop of `GetIndexIPFromCIDR`, with `fuel` rounds at most. -/
def indexLoop (ipnet : IPNet) (index : Int) : (fuel : Nat) → (start : Int) → Addr → Int × Addr
  | 0, start, ipA => (start, ipA)
  | fuel + 1, start, ipA =>
    if start < index ∧ ipnet.contains ipA then indexLoop ipnet index fuel (start + 1) (inc ipA)
    else (start, ipA)

/-- `GetIndexIPFromCIDR`; the counter is below the index, so that there are at most `index`
rounds. -/
def GetIndexIPFromCIDR (cidr : String) (index : Int) : Except Error String :=
  match parseCIDR cidr with
  | .error e => .error e
  | .ok (ip, ipnet) =>
    let (start, ipA) := indexLoop ipnet index index.toNat 0 (ip &&& cidrMask ipnet.ones)
    if start ≠ index then .error "your index is out of the cidr"
    else .ok (ipString (addrBytes ipA))

/-! ## Blocks of a network -/

/-- `divideTunnelNetwork`: the length of the blocks of a tunnel network. -/
def divideTunnelNetwork (networkCIDR : String) : Except Error Nat :=
  match parseCIDR networkCIDR with
  | .error e => .error e
  | .ok (_, network) =>
    let networkBits := network.ones
    if 13 ≤ networkBits ∧ networkBits ≤ 16 then .ok (networkBits + 2)
    else if 9 ≤ networkBits ∧ networkBits ≤ 12 then .ok (networkBits + 4)
    else if networkBits ≤ 8 then .ok (networkBits + 4)
    else .error "network cidr is too small"

/-- `divideClusterNetwork`: the length of the blocks of a cluster network. -/
def divideClusterNetwork (networkCIDR : String) : Except Error Nat :=
  match parseCIDR networkCIDR with
  | .error e => .error e
  | .ok (_, network) =>
    let networkBits := network.ones
    if 13 < networkBits ∧ networkBits ≤ 18 then .ok 24
    else if networkBits ≤ 12 then .ok 22
    else .error "network cidr is too small"

/-- `isOverlappingCIDR`; a text that is no CIDR parses to a nil network. -/
def isOverlappingCIDR (cidr1 cidr2 : String) : Go Bool :=
  match parseCIDR cidr1, parseCIDR cidr2 with
  | .ok (_, ipNet1), .ok (_, ipNet2) =>
    .ok (ipNet1.contains ipNet2.ip || ipNet2.contains ipNet1.ip)
  | _, _ => .error .nilDereference

/-- The set of existing CIDRs, each with its address trimmed to `networkBits`
bits and its own length. -/
def existingCIDRSet (networkBits : Nat) : List String → Go (List String)
  | [] => .ok []
  | cidr :: cidrs =>
    if cidr = "" then existingCIDRSet networkBits cidrs
    else
      match parseCIDR cidr with
      | .error _ => .error .nilDereference
      | .ok (_, ipNet) => do
        let set ← existingCIDRSet networkBits cidrs
        pure (set.insert { ipNet with ip := ipNet.ip &&& cidrMask networkBits }.string)

/-- The inner loop: whether the candidate overlaps a member of the set. -/
def overlapping (newCIDR : String) : List String → Go Bool
  | [] => .ok false
  | cidr :: cidrs => do
    if ← isOverlappingCIDR cidr newCIDR then pure true else overlapping newCIDR cidrs

/-- `big.Int.Bytes`: the bytes of a number, without leading zeros. -/
def bigBytes (n : Nat) : List Nat := (Nat.digits 256 n).reverse

/-- The text of candidate `i`. -/
def candidate (network : IPNet) (networkBits i : Nat) : String :=
  ipString (bigBytes (network.ip.toNat + i <<< (32 - networkBits))) ++ "/" ++ toString networkBits

/-- The loop over the candidates, with `fuel` of them left from `i`. -/
def firstAvailable (network : IPNet) (networkBits : Nat) (set : List String) :
    (fuel i : Nat) → Go (Except Error String)
  | 0, _ => .ok (.error "no available CIDR found")
  | fuel + 1, i => do
    if ← overlapping (candidate network networkBits i) set then
      firstAvailable network networkBits set fuel (i + 1)
    else pure (.ok (candidate network networkBits i))

/-- `findAvailableCIDR`. -/
def findAvailableCIDR (networkCIDR : String) (existingCIDRs : List String) (networkBits : Nat) :
    Go (Except Error String) :=
  let hostBits := 32 - networkBits
  match parseCIDR networkCIDR with
  | .error e => .ok (.error e)
  | .ok (_, network) => do
    let set ← existingCIDRSet networkBits existingCIDRs
    firstAvailable network networkBits set (1 <<< hostBits) 0

/-- `FindTunnelAvailableCIDR`. -/
def FindTunnelAvailableCIDR (tunnelCIDR : String) (existingCIDRs : List String) :
    Go (Except Error String) :=
  match divideTunnelNetwork tunnelCIDR with
  | .error e => .ok (.error e)
  | .ok networkBits => findAvailableCIDR tunnelCIDR existingCIDRs networkBits

/-- `FindClusterAvailableCIDR`. -/
def FindClusterAvailableCIDR (clusterCIDR : String) (existingCIDRs : List String) :
    Go (Except Error String) :=
  match divideClusterNetwork clusterCIDR with
  | .error e => .ok (.error e)
  | .ok networkBits => findAvailableCIDR clusterCIDR existingCIDRs networkBits

end Fleetboard.NetUtil
