import Fleetboard.Model.NetUtil
import Fleetboard.Model.PodCommand

/-!
# A random range for virtual services (`utils/endpointslice.go`)

`GenerateRandomServiceCIDR` draws blocks of the private address ranges until one overlaps
nothing that the cluster uses, a hundred times at most. Random numbers are drawn from the
bytes of a reader.
-/

namespace Fleetboard.ServiceCIDR

open Fleetboard.Net Fleetboard.NetUtil Fleetboard.PodCommand

/-! ## Random numbers -/

/-- `rand.Reader`: the bytes that it gives, and the error after them. A call that returns
has read finitely many bytes. -/
structure Reader where
  bytes : List (BitVec 8)
  err : Error
  deriving DecidableEq, Repr

/-- The loop of `rand.Int`: a number of `bitLen` bits, until it is below the limit. -/
def intLoop (max bitLen : Nat) (err : Error) : List (BitVec 8) → Except Error (Nat × Reader)
  | [] => .error err
  | b :: bytes =>
    let n := b.toNat % 2 ^ bitLen
    if n < max then .ok (n, ⟨bytes, err⟩) else intLoop max bitLen err bytes

/-- `rand.Int`, for limits up to 256, whose numbers are single bytes. -/
def randInt (rand : Reader) (max : Nat) : Except Error (Nat × Reader) :=
  if max = 1 then .ok (0, rand) else intLoop max (max - 1).size rand.err rand.bytes

/-! ## Blocks -/

/-- The private address pool. -/
def privateRanges : List String := ["10.0.0.0/8", "172.16.0.0/12", "192.168.0.0/16"]

/-- The loop over the existing CIDRs. -/
def conflict (randomCIDR : String) : List String → Go Bool
  | [] => .ok false
  | existing :: existingCIDRs => do
    if ← isOverlappingCIDR randomCIDR existing then return true
    conflict randomCIDR existingCIDRs

/-- The text of the block of a range that has this third byte. -/
def blockText (cidrNet : IPNet) (thirdByte : Nat) : String :=
  ipString (((addrBytes cidrNet.ip).set 2 thirdByte).set 3 0) ++ "/24"

/-- The block that one round draws. -/
def drawBlock (rand : Reader) : Go (Except Error (String × Reader)) :=
  match randInt rand privateRanges.length with
  | .error e => .ok (.error ("failed to generate random index: " ++ e))
  | .ok (index, rand) => do
    let selectedRange ← Go.index privateRanges index
    match parseCIDR selectedRange with
    | .error e => return .error ("failed to parse private range: " ++ e)
    | .ok (_, cidrNet) =>
      match randInt rand 256 with
      | .error e => return .error ("failed to generate random third byte: " ++ e)
      | .ok (thirdByte, rand) => return .ok (blockText cidrNet thirdByte, rand)

/-- The loop of `GenerateRandomServiceCIDR`, with `fuel` rounds left. -/
def generateLoop (existingCIDRs : List String) : (fuel : Nat) → Reader → Go (Except Error String)
  | 0, _ => .ok (.error "failed to generate a non-conflicting /24 CIDR after 100 attempts")
  | fuel + 1, rand => do
    match ← drawBlock rand with
    | .error e => return .error e
    | .ok (randomCIDR, rand) =>
      if ← conflict randomCIDR existingCIDRs then generateLoop existingCIDRs fuel rand
      else return .ok randomCIDR

/-- `GenerateRandomServiceCIDR`. -/
def GenerateRandomServiceCIDR (rand : Reader) (existingCIDRs : List String) :
    Go (Except Error String) :=
  generateLoop existingCIDRs 100 rand

/-- `NewRandomServiceCIDR`. -/
def NewRandomServiceCIDR (env : ClusterEnv) (rand : Reader) : Go (Except Error String) := do
  match ← FindClusterServiceIPRange env with
  | .error e => return .error ("failed to find service CIDR: " ++ e)
  | .ok serviceCIDR =>
    match ← FindClusterPodIPRange env with
    | .error e => return .error ("failed to find pod CIDR: " ++ e)
    | .ok podCIDR =>
      match ← GenerateRandomServiceCIDR rand [serviceCIDR, podCIDR] with
      | .error e => return .error ("failed to generate random CIDR: " ++ e)
      | .ok newCIDR => return .ok newCIDR

end Fleetboard.ServiceCIDR
