import Fleetboard.Framework.GoSort
import Fleetboard.Model.Discovery

/-!
# The proxy's endpoint slice cache (`pkg/proxy/endpointslicecache.go`)

The cache groups slices under the namespace of the slice and its
`kubernetes.io/service-name` label, and keeps for each group the slices that the
proxy has applied and those that are pending. What it hands out is keyed by
`ServicePortName`, which is made of the fleetboard labels.

The trackers of Go hold pointers; a pending pointer may be nil, for a slice
without the fleetboard labels. Slices of no elements and nil slices are not told
apart. The event recorder and the logs are left out.
-/

namespace Fleetboard.Proxy

/-- `ServicePortName`. -/
structure ServicePortName where
  nn : NamespacedName
  port : String
  protocol : Protocol
  deriving DecidableEq, Repr

/-- `endpointInfo`. -/
structure EndpointInfo where
  addresses : List String
  nodeName : Option String
  zone : Option String
  zoneHints : Option (Finset String)
  ready : Bool
  serving : Bool
  terminating : Bool
  deriving DecidableEq

/-- `endpointSliceInfo`. -/
structure EndpointSliceInfo where
  ports : List EndpointPort
  endpoints : List EndpointInfo
  remove : Bool
  nn : NamespacedName
  deriving DecidableEq

/-- `BaseEndpointInfo`, the endpoints of the proxy. -/
structure BaseEndpointInfo where
  endpoint : String
  isLocal : Bool
  zoneHints : Option (Finset String)
  ready : Bool
  serving : Bool
  terminating : Bool
  nodeName : String
  zone : String
  deriving DecidableEq

inductive IPFamily
  | ipv4 | ipv6
  deriving DecidableEq, Repr

/-- The key of `byPort`; a port without a number is not compared. -/
def portKey (p : EndpointPort) : Int := p.port.getD 0

/-- The key of `byAddress`. -/
def addressKey (e : EndpointInfo) : String := ",".intercalate e.addresses

/-- A `net.IP`, nil included, by its text. -/
structure IPText where
  text : String
  noDelim : '/' ∉ text.toList ∧ '[' ∉ text.toList ∧ ']' ∉ text.toList
  deriving DecidableEq, Repr

/-- What the proxy is configured with, and the sorts and the address functions of the
libraries. The text of an address is read as that address. -/
structure Config where
  hostname : String
  ipFamily : IPFamily
  topologyAwareHints : Bool
  isIPv6String : String → Bool
  parseIPSloppy : String → IPText
  parse_text : ∀ s, parseIPSloppy (parseIPSloppy s).text = parseIPSloppy s
  byPort : KeySort portKey
  byAddress : KeySort addressKey
  byEndpoint : KeySort BaseEndpointInfo.endpoint

/-- `sort.Sort(byPort(ports))`: comparing a port without a number panics, and a
list of two or more compares each of its elements. -/
def sortPorts (cfg : Config) (ports : List EndpointPort) : Go (List EndpointPort) :=
  if 2 ≤ ports.length ∧ ∃ p ∈ ports, p.port = none then .error .nilDereference
  else .ok (cfg.byPort.run ports)

/-- The `endpointInfo` of one endpoint. -/
def newEndpointInfo (cfg : Config) (e : SliceEndpoint) : EndpointInfo where
  addresses := e.addresses
  nodeName := e.nodeName
  zone := e.zone
  zoneHints :=
    if cfg.topologyAwareHints ∧ e.forZones ≠ [] then some e.forZones.toFinset else none
  ready := e.ready.getD true
  serving := e.serving.getD true
  terminating := e.terminating.getD false

/-- `newEndpointSliceInfo`. -/
def newEndpointSliceInfo (cfg : Config) (endpointSlice : EndpointSlice) (remove : Bool) :
    Go (Option EndpointSliceInfo) :=
  match endpointSlice.labels.lookup Known.LabelServiceName,
      endpointSlice.labels.lookup Known.LabelServiceNameSpace with
  | some nameLabel, some namespaceLabel => do
    let ports ← sortPorts cfg endpointSlice.ports
    pure (some
      { ports := ports
        endpoints :=
          if remove then []
          else cfg.byAddress.run (endpointSlice.endpoints.map (newEndpointInfo cfg))
        remove := remove
        nn := ⟨namespaceLabel, nameLabel⟩ })
  | _, _ => pure none

/-- `endpointSliceCacheKeys`, when it gives keys. -/
def endpointSliceCacheKeys (endpointSlice : EndpointSlice) : Option (NamespacedName × String) :=
  match endpointSlice.labels.lookup Known.DiscoveryServiceName with
  | some serviceName =>
    if serviceName = "" ∨ endpointSlice.ns = "" ∨ endpointSlice.name = "" then none
    else some (⟨endpointSlice.ns, serviceName⟩, endpointSlice.name)
  | none => none

/-- `endpointSliceTracker`. -/
structure EndpointSliceTracker where
  applied : GoMap String EndpointSliceInfo
  pending : GoMap String (Option EndpointSliceInfo)

def newEndpointSliceTracker : EndpointSliceTracker := ⟨∅, ∅⟩

/-- `EndpointSliceCache.trackerByServiceMap`. -/
abbrev EndpointSliceCache := GoMap NamespacedName EndpointSliceTracker

/-- `esInfoChanged`, for the tracker of the slice's group. -/
def esInfoChanged (tracker : EndpointSliceTracker) (sliceKey : String)
    (esInfo : Option EndpointSliceInfo) : Go Bool :=
  match tracker.pending.lookup sliceKey with
  | some pendingInfo => pure (esInfo ≠ pendingInfo)
  | none =>
    match tracker.applied.lookup sliceKey with
    | some appliedInfo => pure (esInfo ≠ some appliedInfo)
    | none => do
      let esInfo ← Go.deref esInfo
      pure (!esInfo.remove)

/-- `updatePending`. -/
def updatePending (cfg : Config) (cache : EndpointSliceCache) (endpointSlice : EndpointSlice)
    (remove : Bool) : Go (EndpointSliceCache × Bool) :=
  match endpointSliceCacheKeys endpointSlice with
  | none => pure (cache, false)
  | some (serviceKey, sliceKey) => do
    let esInfo ← newEndpointSliceInfo cfg endpointSlice remove
    let tracker := (cache.lookup serviceKey).getD newEndpointSliceTracker
    if ← esInfoChanged tracker sliceKey esInfo then
      let tracker := { tracker with pending := tracker.pending.insert sliceKey esInfo }
      pure (cache.insert serviceKey tracker, true)
    else pure (cache.insert serviceKey tracker, false)

/-! ## From slices to endpoints -/

/-- `net.JoinHostPort` of a host and a port number. -/
def joinHostPort (host : String) (port : Int) : String :=
  if ':' ∈ host.toList then "[" ++ host ++ "]:" ++ toString port
  else host ++ ":" ++ toString port

/-- `isLocal`. -/
def isLocal (cfg : Config) (hostname : String) : Bool := cfg.hostname ≠ "" ∧ hostname = cfg.hostname

/-- The endpoint that `addEndpoints` makes of a slice's endpoint, unless it has
no address or one of the other family. -/
def makeEndpoint (cfg : Config) (portNum : Int) (endpoint : EndpointInfo) :
    Option BaseEndpointInfo :=
  match endpoint.addresses with
  | [] => none
  | address :: _ =>
    if decide (cfg.ipFamily = .ipv6) ≠ cfg.isIPv6String address then none
    else
      some
        { endpoint := joinHostPort address portNum
          isLocal := (endpoint.nodeName.map (isLocal cfg)).getD false
          zoneHints := endpoint.zoneHints
          ready := endpoint.ready
          serving := endpoint.serving
          terminating := endpoint.terminating
          nodeName := endpoint.nodeName.getD ""
          zone := endpoint.zone.getD "" }

/-- `addEndpoints`: of endpoints with the same text the first stays, unless a
later one is local. -/
def addEndpoints (cfg : Config) (portNum : Int) (endpointSet : GoMap String BaseEndpointInfo)
    (endpoints : List EndpointInfo) : GoMap String BaseEndpointInfo :=
  endpoints.foldl (fun set endpoint =>
    match makeEndpoint cfg portNum endpoint with
    | none => set
    | some info =>
      if (set.lookup info.endpoint).isNone ∨ info.isLocal then set.insert info.endpoint info
      else set) endpointSet

/-- `spToEndpointMap`. -/
abbrev SpToEndpointMap := GoMap ServicePortName (GoMap String BaseEndpointInfo)

/-- One port of a slice, the `i`-th after sorting. -/
def addPort (cfg : Config) (sliceInfo : EndpointSliceInfo) (m : SpToEndpointMap)
    (port : EndpointPort) (i : Nat) : Go SpToEndpointMap :=
  match port.name, port.port with
  | some _, some portNum =>
    if portNum = 0 then pure m
    else do
      let protocol ← Go.deref port.protocol
      let svcPortName : ServicePortName := ⟨sliceInfo.nn, toString i, protocol⟩
      pure (m.insert svcPortName
        (addEndpoints cfg portNum ((m.lookup svcPortName).getD ∅) sliceInfo.endpoints))
  | _, _ => pure m

/-- The ports of one slice. -/
def addSlice (cfg : Config) (m : SpToEndpointMap) (sliceInfo : EndpointSliceInfo) :
    Go SpToEndpointMap :=
  sliceInfo.ports.zipIdx.foldlM (fun m p => addPort cfg sliceInfo m p.1 p.2) m

/-- `endpointInfoByServicePort`. -/
def endpointInfoByServicePort (cfg : Config)
    (order : RangeOrder ((_ : String) × EndpointSliceInfo))
    (sliceInfoByName : GoMap String EndpointSliceInfo) : Go SpToEndpointMap :=
  (order.visit sliceInfoByName.entries).foldlM (fun m e => addSlice cfg m e.2) ∅

/-- `EndpointsMap`. -/
abbrev EndpointsMap := GoMap ServicePortName (List BaseEndpointInfo)

/-- `endpointsMapFromEndpointInfo`. -/
def endpointsMapFromEndpointInfo (cfg : Config) (m : SpToEndpointMap) : EndpointsMap :=
  m.entries.foldl (fun em e =>
    if e.2.entries = [] then em
    else em.insert e.1 (cfg.byEndpoint.run (GoMap.values e.2))) ∅

/-- `getEndpointsMap`. -/
def getEndpointsMap (cfg : Config) (order : RangeOrder ((_ : String) × EndpointSliceInfo))
    (sliceInfoByName : GoMap String EndpointSliceInfo) : Go EndpointsMap := do
  let m ← endpointInfoByServicePort cfg order sliceInfoByName
  pure (endpointsMapFromEndpointInfo cfg m)

end Fleetboard.Proxy
