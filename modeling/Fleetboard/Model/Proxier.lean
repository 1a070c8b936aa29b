import Fleetboard.Model.ServiceImportMap
import Fleetboard.Model.Ipvs
import Fleetboard.Model.IP

/-!
# The IPVS proxier (`pkg/proxy/ipvs/proxier.go`, `pkg/proxy/topology.go`)

A sync makes the virtual servers of IPVS those of the service ports, and the real servers
of each those of the endpoints that are selected for it. The dummy device is left out but
for the outcome of binding an address to it; ipsets and iptables are left out.
-/

namespace Fleetboard.Ipvs

open Fleetboard.Proxy

/-! ## The selection of endpoints -/

/-- What `CategorizeEndpoints` and `syncEndpoint` ask a `ServicePort`. -/
structure ServicePort where
  usesClusterEndpoints : Bool
  usesLocalEndpoints : Bool
  hintsAnnotation : String
  internalPolicyLocal : Bool
  externalPolicyLocal : Bool

/-- `BaseServicePortInfo`: the fields that its answers are made of, with the
addresses of the load balancer's ingress points. -/
structure BaseServicePortInfo where
  nodePort : Int
  loadBalancerIngress : List String
  externalIPs : List String
  internalPolicyLocal : Bool
  externalPolicyLocal : Bool
  hintsAnnotation : String

namespace BaseServicePortInfo

def ExternallyAccessible (info : BaseServicePortInfo) : Bool :=
  info.nodePort ≠ 0 ∨ info.loadBalancerIngress ≠ [] ∨ info.externalIPs ≠ []

def UsesClusterEndpoints (info : BaseServicePortInfo) : Bool :=
  !info.internalPolicyLocal || info.ExternallyAccessible

def UsesLocalEndpoints (info : BaseServicePortInfo) : Bool :=
  info.internalPolicyLocal || (info.externalPolicyLocal && info.ExternallyAccessible)

/-- The answers of a service port. -/
def servicePort (info : BaseServicePortInfo) : ServicePort where
  usesClusterEndpoints := info.UsesClusterEndpoints
  usesLocalEndpoints := info.UsesLocalEndpoints
  hintsAnnotation := info.hintsAnnotation
  internalPolicyLocal := info.internalPolicyLocal
  externalPolicyLocal := info.externalPolicyLocal

end BaseServicePortInfo

/-- The answers of a service port of an import, which has neither policies nor hints, and
no external addresses. -/
def servicePort (info : ServicePortInfo) : ServicePort :=
  let internalPolicyLocal := false
  let externalPolicyLocal := false
  let externallyAccessible : Bool := info.nodePort ≠ 0
  { usesClusterEndpoints := !internalPolicyLocal || externallyAccessible
    usesLocalEndpoints := internalPolicyLocal || (externalPolicyLocal && externallyAccessible)
    hintsAnnotation := ""
    internalPolicyLocal := internalPolicyLocal
    externalPolicyLocal := externalPolicyLocal }

def LabelTopologyZone := "topology.kubernetes.io/zone"

def hints (ep : BaseEndpointInfo) : Finset String := ep.zoneHints.getD ∅

/-- `canUseTopology`. -/
def canUseTopology (cfg : Config) (endpoints : List BaseEndpointInfo) (svcInfo : ServicePort)
    (nodeLabels : GoMap String String) : Bool :=
  if ¬ cfg.topologyAwareHints then false
  else if svcInfo.hintsAnnotation = "" ∨ svcInfo.hintsAnnotation = "disabled" ∨
      svcInfo.hintsAnnotation = "Disabled" then false
  else
    let zone := (nodeLabels.lookup LabelTopologyZone).getD ""
    if zone = "" then false
    else
      let ready := endpoints.filter (·.ready)
      ready.all (fun ep => (hints ep).card ≠ 0) && ready.any (fun ep => zone ∈ hints ep)

/-- `availableForTopology`. -/
def availableForTopology (ep : BaseEndpointInfo) (nodeLabels : GoMap String String) : Bool :=
  (nodeLabels.lookup LabelTopologyZone).getD "" ∈ hints ep

structure Categorized where
  clusterEndpoints : List BaseEndpointInfo
  localEndpoints : List BaseEndpointInfo
  allReachableEndpoints : List BaseEndpointInfo
  hasAnyEndpoints : Bool

/-- `CategorizeEndpoints`; the order of a merged list is not fixed. -/
def CategorizeEndpoints (cfg : Config) (endpoints : List BaseEndpointInfo) (svcInfo : ServicePort)
    (nodeLabels : GoMap String String) : Categorized :=
  let servingTerminating (ep : BaseEndpointInfo) : Bool := ep.serving && ep.terminating
  let useTopology := svcInfo.usesClusterEndpoints && canUseTopology cfg endpoints svcInfo nodeLabels
  let clusterEndpoints :=
    if svcInfo.usesClusterEndpoints then
      let ready := endpoints.filter fun ep =>
        ep.ready && (!useTopology || availableForTopology ep nodeLabels)
      if ready = [] then endpoints.filter servingTerminating else ready
    else []
  if ¬ svcInfo.usesLocalEndpoints then
    ⟨clusterEndpoints, [], clusterEndpoints, clusterEndpoints ≠ []⟩
  else
    let hasAnyEndpoints : Bool :=
      clusterEndpoints ≠ [] ∨ endpoints.any fun ep => ep.ready || servingTerminating ep
    let localReady := endpoints.filter fun ep => ep.isLocal && ep.ready
    let localTerminating := endpoints.filter fun ep => ep.isLocal && servingTerminating ep
    let useServingTerminatingEndpoints : Bool :=
      localReady = [] ∧ endpoints.any fun ep => !ep.ready && (ep.isLocal && servingTerminating ep)
    let localEndpoints :=
      if localReady ≠ [] then localReady
      else if useServingTerminatingEndpoints then localTerminating
      else []
    if ¬ svcInfo.usesClusterEndpoints then
      ⟨clusterEndpoints, localEndpoints, localEndpoints, hasAnyEndpoints⟩
    else if ¬ useTopology ∧ ¬ useServingTerminatingEndpoints then
      ⟨clusterEndpoints, localEndpoints, clusterEndpoints, hasAnyEndpoints⟩
    else
      let endpointsMap := (clusterEndpoints ++ localEndpoints).foldl
        (fun m ep => m.insert ep.endpoint ep) (∅ : GoMap String BaseEndpointInfo)
      ⟨clusterEndpoints, localEndpoints, GoMap.values endpointsMap, hasAnyEndpoints⟩

/-! ## Families and networks -/

/-- The bytes of an address, none for nil. -/
def ipOf (ip : IPText) : Option Net.IP := Net.ParseIP ip.text

/-- `netutils.IsIPv4`. -/
def IsIPv4 (ip : IPText) : Bool := (ipOf ip).any fun a => (Net.IP.to4 a).isSome

def getIPFamily (ip : IPText) : IPFamily := if IsIPv4 ip then .ipv4 else .ipv6

/-- `net.IPNet` of either family; an IPv4 network is one of mapped addresses, its mask counted
from there. -/
structure Network where
  ip : Net.IP
  ones : Nat
  deriving DecidableEq, Repr

/-- `IPNet.Contains`. -/
def Network.Contains (n : Network) (ip : IPText) : Bool :=
  (ipOf ip).any fun a => (Net.IP.to4 a).isSome = (Net.IP.to4 n.ip).isSome ∧
    a.toNat / 2 ^ (128 - n.ones) = n.ip.toNat / 2 ^ (128 - n.ones)

/-! ## A sync -/

structure Proxier where
  manager : GracefulTerminationManager
  svcPortMap : ServicePortMap
  endpointsMap : EndpointsMap
  nodeLabels : GoMap String String
  initialSync : Bool
  ipvsScheduler : String
  excludeCIDRs : List Network
  serviceNoLocalEndpointsInternal : Finset NamespacedName
  serviceNoLocalEndpointsExternal : Finset NamespacedName

def Proxier.withIpvs (p : Proxier) (ipvs : IPVS) : Proxier :=
  { p with manager := { p.manager with ipvs := ipvs } }

def Proxier.isIPInExcludeCIDRs (p : Proxier) (ip : IPText) : Bool :=
  p.excludeCIDRs.any fun excludedCIDR => excludedCIDR.Contains ip

/-- The endpoints that `syncEndpoint` selects, and the proxier with the services that have
no local ones. -/
def selectEndpoints (cfg : Config) (p : Proxier) (svcPortName : ServicePortName)
    (onlyNodeLocalEndpoints : Bool) (endpoints : List BaseEndpointInfo) :
    Proxier × List BaseEndpointInfo :=
  match p.svcPortMap.lookup svcPortName with
  | none => (p, endpoints)
  | some info =>
    let svcInfo := servicePort info
    let c := CategorizeEndpoints cfg endpoints svcInfo p.nodeLabels
    if onlyNodeLocalEndpoints then
      if c.localEndpoints ≠ [] then (p, c.localEndpoints)
      else
        let mark (policyLocal : Bool) (s : Finset NamespacedName) :=
          if c.hasAnyEndpoints && policyLocal then insert svcPortName.nn s else s
        ({ p with
          serviceNoLocalEndpointsInternal :=
            mark svcInfo.internalPolicyLocal p.serviceNoLocalEndpointsInternal
          serviceNoLocalEndpointsExternal :=
            mark svcInfo.externalPolicyLocal p.serviceNoLocalEndpointsExternal },
          c.clusterEndpoints)
    else (p, c.clusterEndpoints)

/-- The weight reset of the first sync. -/
def resetWeight (m : GracefulTerminationManager) (applied : VirtualServer)
    (curDests : List RealServer) (newDest : RealServer) : GracefulTerminationManager :=
  curDests.foldl (fun m dest =>
    if dest.weight ≠ newDest.weight then
      { m with ipvs := (m.ipvs.UpdateRealServer applied newDest).1 }
    else m) m

/-- `AddRealServer`, whose error is only logged. -/
def addDest (m : GracefulTerminationManager) (applied : VirtualServer) (newDest : RealServer) :
    GracefulTerminationManager :=
  { m with ipvs := (m.ipvs.AddRealServer applied newDest).1 }

/-- One iteration of the loop that creates endpoints. -/
def createEndpoint (cfg : Config) (initialSync : Bool) (vs applied : VirtualServer)
    (curDests : List RealServer) (m : GracefulTerminationManager) (ep : String) :
    GracefulTerminationManager :=
  match parseEndpoint cfg ep with
  | none => m
  | some dest =>
    let newDest : RealServer := ⟨dest, 1, 0, 0⟩
    if ep ∈ curDests.map (·.dest.string) then
      let m := if initialSync then resetWeight m applied curDests newDest else m
      let uniqueRS := uniqueRSName vs.key dest
      if ¬ m.InTerminationList uniqueRS then m
      else
        match m.MoveRSOutofGracefulDeleteList uniqueRS with
        | (m, some _) => m
        | (m, none) => addDest m applied newDest
    else addDest m applied newDest

/-- One iteration of the loop that deletes endpoints. -/
def deleteEndpoint (cfg : Config) (vs applied : VirtualServer) (m : GracefulTerminationManager)
    (ep : String) : GracefulTerminationManager :=
  if m.InTerminationList (vs.key.string ++ "/" ++ ep) then m
  else
    match parseEndpoint cfg ep with
    | none => m
    | some dest => (m.GracefulDeleteRS applied ⟨dest, 0, 0, 0⟩).1

/-- `syncEndpoint`, with the order in which a set is listed. -/
def syncEndpoint (cfg : Config) (p : Proxier) (svcPortName : ServicePortName)
    (onlyNodeLocalEndpoints : Bool) (vs : VirtualServer) (order : RangeOrder String) :
    Proxier × Option Error :=
  match p.manager.ipvs.GetVirtualServer vs with
  | (ipvs, .error e) => (p.withIpvs ipvs, some e)
  | (ipvs, .ok applied) =>
    match ipvs.GetRealServers applied with
    | (ipvs, .error e) => (p.withIpvs ipvs, some e)
    | (ipvs, .ok curDests) =>
      let p := p.withIpvs ipvs
      match p.endpointsMap.lookup svcPortName with
      | none => (p, none)
      | some endpoints =>
        let (p, endpoints) := selectEndpoints cfg p svcPortName onlyNodeLocalEndpoints endpoints
        let newEndpoints := (KeySort.insertion id).run (endpoints.map (·.endpoint)).dedup
        let curEndpoints := (curDests.map (·.dest.string)).dedup
        let m := newEndpoints.foldl (createEndpoint cfg p.initialSync vs applied curDests) p.manager
        let old := order.visit (curEndpoints.filter (· ∉ newEndpoints))
        ({ p with manager := old.foldl (deleteEndpoint cfg vs applied) m }, none)

/-- `syncService`, with the outcome of binding the address. -/
def syncService (ipvs : IPVS) (vs : VirtualServer) (bindErr : Option Error) :
    IPVS × Option Error :=
  let (ipvs, err) :=
    match ipvs.GetVirtualServer vs with
    | (ipvs, .error _) => ipvs.AddVirtualServer vs
    | (ipvs, .ok applied) =>
      if applied ≠ vs then ipvs.UpdateVirtualServer vs else (ipvs, .ok ())
  match err with
  | .error e => (ipvs, some e)
  | .ok () => (ipvs, bindErr)

/-- The virtual server of a service port. Imports have no session affinity; the flag is the
one of the scheduler `mh`. -/
def virtualServer (p : Proxier) (info : ServicePortInfo) : VirtualServer where
  key := ⟨info.clusterIP, UInt16.ofInt info.port, info.protocol⟩
  scheduler := p.ipvsScheduler
  flags := if p.ipvsScheduler = "mh" then 0x10 else 0
  timeout := 0

/-- The orders of the loops of one sync, and the outcomes of binding addresses. -/
structure SyncEnv where
  svcPorts : RangeOrder ((_ : ServicePortName) × ServicePortInfo)
  endpoints : RangeOrder String
  services : RangeOrder VirtualServer
  bindErr : IPText → Option Error

/-- One iteration of the loop over the service ports, with the names of the active virtual
servers. -/
def syncServicePort (cfg : Config) (env : SyncEnv) (st : Proxier × List String)
    (e : (_ : ServicePortName) × ServicePortInfo) : Proxier × List String :=
  let (p, activeServices) := st
  let serv := virtualServer p e.2
  match syncService p.manager.ipvs serv (env.bindErr serv.key.address) with
  | (ipvs, some _) => (p.withIpvs ipvs, activeServices)
  | (ipvs, none) =>
    let internalNodeLocal := (servicePort e.2).internalPolicyLocal
    ((syncEndpoint cfg (p.withIpvs ipvs) e.1 internalNodeLocal serv env.endpoints).1,
      serv.key.string :: activeServices)

/-- One iteration of `cleanLegacyService`. -/
def cleanService (p : Proxier) (family : IPFamily) (activeServices : List String) (ipvs : IPVS)
    (svc : VirtualServer) : IPVS :=
  if p.isIPInExcludeCIDRs svc.key.address then ipvs
  else if getIPFamily svc.key.address ≠ family then ipvs
  else if svc.key.string ∈ activeServices then ipvs
  else (ipvs.DeleteVirtualServer svc).1

/-- `cleanLegacyService`, for the virtual servers that IPVS lists. -/
def cleanLegacyService (cfg : Config) (p : Proxier) (activeServices : List String)
    (order : RangeOrder VirtualServer) : Proxier :=
  match p.manager.ipvs.GetVirtualServers with
  | (ipvs, .error _) => p.withIpvs ipvs
  | (ipvs, .ok applied) =>
    p.withIpvs ((order.visit applied).foldl (cleanService p cfg.ipFamily activeServices) ipvs)

/-- `syncProxyRules`, from the updated maps on. -/
def syncProxyRules (cfg : Config) (p : Proxier) (env : SyncEnv) : Proxier :=
  let p := { p with serviceNoLocalEndpointsInternal := ∅, serviceNoLocalEndpointsExternal := ∅ }
  let (p, activeServices) :=
    (env.svcPorts.visit p.svcPortMap.entries).foldl (syncServicePort cfg env) (p, [])
  { cleanLegacyService cfg p activeServices env.services with initialSync := false }

end Fleetboard.Ipvs
