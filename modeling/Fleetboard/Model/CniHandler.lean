import Fleetboard.Framework.GoMap
import Fleetboard.Model.Net
import Fleetboard.Model.Discovery
import Fleetboard.Model.Dedinic

/-!
# Attaching a pod (`pkg/dedinic/cni_handler.go`, `pkg/dedinic/ipam.go`)

A pod is attached in three steps, on three stores: an address is reserved in the
store of the `host-local` allocator, a veth pair is set up, and the address is
written into an annotation of the pod. `AttachEnv` has the outcomes of the calls that
leave the process: any of them may fail.
-/

namespace Fleetboard.Dedinic

open Fleetboard.Net

/-- `known.FleetboardParallelIP`. -/
def FleetboardParallelIP := "router.fleetboard.io/parallel_ip"

/-- `CniRequest`: the fields that are read. -/
structure CniRequest where
  podName : String
  podNamespace : String
  containerID : String
  netNs : String
  ifName : String
  deriving DecidableEq, Repr

/-- `CNFPodName` and `CNFPodNamespace`. -/
structure CNFPod where
  name : String
  ns : String

/-- `strings.Contains`. -/
def contains (s sub : String) : Bool := s.toList.tails.any sub.toList.isPrefixOf

def isCNFSelf (cnf : CNFPod) (podNamespace podName : String) : Bool :=
  podName = cnf.name ∧ podNamespace = cnf.ns ∨ podNamespace = cnf.ns ∧ contains podName "cnf"

/-! ## Addresses -/

/-- An address that is reserved for an interface of a container. -/
structure Reservation where
  containerID : String
  ifName : String
  address : String
  deriving DecidableEq, Repr

/-- The reservation is for the interface that is asked for. -/
def CniRequest.owns (rq : CniRequest) (r : Reservation) : Bool :=
  r.containerID = rq.containerID ∧ r.ifName = rq.ifName

/-- `allocator.IPAMConfig`: which addresses each set of ranges contains, and the
addresses that are asked for. A configuration without ranges is refused when it is
loaded. -/
structure IPAMConfig where
  ranges : List (Addr → Bool)
  ipArgs : List Addr
  ranges_ne : ranges ≠ []

/-- The outcomes of the allocator's calls: `LoadIPAMConfig`, `disk.New`, for each set of
ranges `Get` and `Release`, and the order of a `range` over the requested
addresses. -/
structure IpamEnv where
  load : Except Error IPAMConfig
  newStore : Option Error
  get : Nat → Option Addr → Except Error String
  release : Nat → Option Error
  order : Nat → RangeOrder ((_ : String) × Addr)

/-- `alloc.Release`: the reservations of the interface go. -/
def Release (env : IpamEnv) (rq : CniRequest) (store : List Reservation) (idx : Nat) :
    List Reservation :=
  match env.release idx with
  | some _ => store
  | none => store.filter fun r => !rq.owns r

/-- The loop over the allocators of the first `n` sets of ranges. -/
def releaseAll (env : IpamEnv) (rq : CniRequest) (store : List Reservation) (n : Nat) :
    List Reservation :=
  (List.range n).foldl (Release env rq) store

/-- The loop of `GetIP` over the sets of ranges. -/
def getLoop (env : IpamEnv) (rq : CniRequest) : Nat → List (Addr → Bool) → GoMap String Addr →
    List Reservation → List String →
    List Reservation × Except Error (GoMap String Addr × List String)
  | _, [], requestedIPs, store, ips => (store, .ok (requestedIPs, ips))
  | idx, v :: vs, requestedIPs, store, ips =>
    let entry := ((env.order idx).visit requestedIPs.entries).find? fun e => v e.2
    let requestedIPs := match entry with
      | some e => requestedIPs.erase e.1
      | none => requestedIPs
    match env.get idx (entry.map (·.2)) with
    | .error e =>
      (releaseAll env rq store idx, .error s!"failed to allocate for range {idx}: {e}")
    | .ok address =>
      getLoop env rq (idx + 1) vs requestedIPs (⟨rq.containerID, rq.ifName, address⟩ :: store)
        (ips ++ [address])

/-- `GetIP`: the store that it leaves, and the addresses of its result. -/
def GetIP (env : IpamEnv) (rq : CniRequest) (store : List Reservation) :
    List Reservation × Except Error (List String) :=
  match env.load with
  | .error e => (store, .error e)
  | .ok ipamConf =>
    match env.newStore with
    | some e => (store, .error e)
    | none =>
      let requestedIPs : GoMap String Addr :=
        ipamConf.ipArgs.foldl (fun m ip => m.insert (ipString (addrBytes ip)) ip) ∅
      match getLoop env rq 0 ipamConf.ranges requestedIPs store [] with
      | (store, .error e) => (store, .error e)
      | (store, .ok (requestedIPs, ips)) =>
        if requestedIPs.entries ≠ [] then
          (releaseAll env rq store ipamConf.ranges.length,
            .error (((env.order ipamConf.ranges.length).visit requestedIPs.entries).foldl
              (fun errstr e => errstr ++ " " ++ ipString (addrBytes e.2))
              "failed to allocate all requested IPs:"))
        else (store, .ok ips)

/-! ## The interface and the annotation -/

/-- The outcomes of `configureNic`'s calls after the veth pair: `ns.GetNS`,
`addVethToBridge` and `configureContainerNic`. -/
structure BridgedNicEnv where
  getNS : Option Error
  bridge : Option Error
  container : NicEnv

/-- `cniHandler.configureNic` with the bridge: the host ends that are attached to it
are `bridged`. That an end is not attached is only logged. -/
def configureBridgedNic (l : Links) (bridged : List String) (rq : CniRequest)
    (env : BridgedNicEnv) : Go (Links × List String × Option Error) := do
  match ← setupVethPair l rq.containerID rq.ifName with
  | (l, .error e) => pure (l, bridged, some e)
  | (l, .ok (hostNicName, containerNicName)) =>
    if containerNicName = "" then pure (l, bridged, none)
    else
      match env.getNS with
      | some e => pure (l, bridged, some s!"failed to open netns {rq.netNs.quote}: {e}")
      | none =>
        let bridged := match env.bridge with
          | some _ => bridged
          | none => hostNicName :: bridged
        pure (l.movePeer rq.containerID env.container.peer, bridged, env.container.err)

/-- The annotations of the pods of the API server. -/
abbrev PodAnnotations := GoMap NamespacedName (GoMap String String)

/-- The errors of the API server's `Get`, for a pod that is there, and `Update`. -/
structure PodEnv where
  get : Option Error
  update : Option Error

/-- `updateTheIPToPod`. -/
def updateTheIPToPod (env : PodEnv) (pods : PodAnnotations) (podName podNamespace ip : String) :
    PodAnnotations × Option Error :=
  match env.get, pods.lookup ⟨podNamespace, podName⟩ with
  | some e, _ => (pods, some e)
  | none, none => (pods, some s!"pods {podName.quote} not found")
  | none, some annotations =>
    match env.update with
    | some e => (pods, some e)
    | none =>
      (pods.insert ⟨podNamespace, podName⟩ (annotations.insert FleetboardParallelIP ip), none)

/-! ## `handleAdd` -/

/-- The three stores. -/
structure AttachState where
  reservations : List Reservation
  links : Links
  bridged : List String
  pods : PodAnnotations

structure AttachEnv where
  ipam : IpamEnv
  nic : BridgedNicEnv
  pod : PodEnv

/-- `strings.Split(s, "/")[0]`. -/
def beforeSlash (s : String) : String := String.ofList (s.toList.takeWhile (· ≠ '/'))

/-- `cniHandler.handleAdd`. The result of a failed `GetIP` is nil; the error of
`configureNic` is overwritten by the one of `updateTheIPToPod`. -/
def handleAdd (cnf : CNFPod) (env : AttachEnv) (rq : CniRequest) (s : AttachState) :
    Go (AttachState × Option Error) :=
  if isCNFSelf cnf rq.podNamespace rq.podName then pure (s, none)
  else do
    let (reservations, res) := GetIP env.ipam rq s.reservations
    let ips ← Go.deref res.toOption
    let ipStr ← Go.index ips 0
    let (links, bridged, _) ← configureBridgedNic s.links s.bridged rq env.nic
    let (pods, err) := updateTheIPToPod env.pod s.pods rq.podName rq.podNamespace (beforeSlash ipStr)
    pure (⟨reservations, links, bridged, pods⟩, err)

end Fleetboard.Dedinic
