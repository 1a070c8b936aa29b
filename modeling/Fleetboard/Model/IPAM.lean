import Fleetboard.Model.IP
import Mathlib.Data.Finset.Insert

/-!
# The pool of virtual service IPs (`IPAM` in `utils/endpointslice.go`)

The pool is one prefix of the go-ipam library with the addresses acquired in it.
Which free address `AcquireIP` returns and which ones `AcquireSpecificIP` refuses is
the library's choice, and both are arguments here.
-/

namespace Fleetboard.Mcs

open Fleetboard.Net

/-- `netip.Addr.String`. -/
def addrString (a : Addr) : String := ipString (addrBytes a)

/-- `IPAM`: the prefix and the acquired addresses. -/
structure IPAM where
  net : IPNet
  acquired : Finset Addr

/-- The library's call for one address: an address that it gives is in the prefix, and is
acquired from then on. -/
structure Ipamer where
  AcquireSpecificIP : IPAM → String → Except Error IPAM
  acquires {i i' : IPAM} {ip : String} : AcquireSpecificIP i ip = .ok i' →
    ∃ a, parseAddr ip.toList = some a ∧ i.net.contains a = true ∧
      i' = { i with acquired := insert a i.acquired }

/-- `GetServiceCIDRFromIP`. An IPv6 address has no network with an IPv4 mask, and the text of
none is returned. -/
def GetServiceCIDRFromIP (ip : String) : Except Error String :=
  match ParseIP ip with
  | none => .error ("invalid IP address: " ++ ip)
  | some parsedIP =>
    match IP.to4 parsedIP with
    | some a => .ok (IPNet.string ⟨a &&& cidrMask 24, 24, by decide⟩)
    | none => .ok "<nil>"

/-- `InitPrefix`, in a pool without a prefix. -/
def InitPrefix (cidr : String) : Except Error IPAM :=
  match parseCIDR cidr with
  | .error e => .error e
  | .ok (_, net) => .ok ⟨net, ∅⟩

namespace IPAM

/-- `InitializeExistingIPs`. -/
def InitializeExistingIPs (ipamer : Ipamer) (i : IPAM) (ips : List String) : Except Error IPAM :=
  ips.foldlM ipamer.AcquireSpecificIP i

/-- `AllocateIP`, for the answer of `AcquireIP`. -/
def AllocateIP (i : IPAM) (answer : Except Error Addr) : IPAM × Except Error String :=
  match answer with
  | .error e => (i, .error e)
  | .ok a => ({ i with acquired := insert a i.acquired }, .ok (addrString a))

/-- `ReleaseIP`. -/
def ReleaseIP (i : IPAM) (ipAddr : String) : Except Error IPAM :=
  match parseAddr ipAddr.toList with
  | none => .error ("ParseAddr(\"" ++ ipAddr ++ "\"): unable to parse IP")
  | some a =>
    if a ∈ i.acquired then .ok { i with acquired := i.acquired.erase a }
    else .error ("unable to release ip " ++ ipAddr ++ " because it is not allocated")

end IPAM

end Fleetboard.Mcs
