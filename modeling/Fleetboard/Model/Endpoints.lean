import Fleetboard.Model.EndpointSliceCache

/-!
# The proxy's endpoints map (`pkg/proxy/endpoints.go`)

`EndpointSliceUpdate` records a change of one slice; `Update` takes the pending
changes out of the cache and brings the endpoints map up to date, group by
group. The map's own type of endpoint is used (`makeEndpointInfo` is nil), no
`processEndpointsMapChange` is set, and the trigger times and metrics are left
out.
-/

namespace Fleetboard.Proxy

/-- `supportedEndpointSliceAddressTypes`. -/
def supportedAddressType (t : AddressType) : Bool := t = .ipv4 ∨ t = .ipv6

/-- `EndpointChangeTracker.EndpointSliceUpdate`. -/
def EndpointSliceUpdate (cfg : Config) (cache : EndpointSliceCache) (endpointSlice : EndpointSlice)
    (removeSlice : Bool) : Go (EndpointSliceCache × Bool) :=
  if ¬ supportedAddressType endpointSlice.addressType then pure (cache, false)
  else
    match endpointSliceCacheKeys endpointSlice with
    | none => pure (cache, false)
    | some _ => updatePending cfg cache endpointSlice removeSlice

/-- `endpointsChange`. -/
structure EndpointsChange where
  previous : EndpointsMap
  current : EndpointsMap

/-- One pending slice becomes applied, or is removed. -/
def applyPending (applied : GoMap String EndpointSliceInfo)
    (e : (_ : String) × Option EndpointSliceInfo) : Go (GoMap String EndpointSliceInfo) := do
  let sliceInfo ← Go.deref e.2
  pure (if sliceInfo.remove then applied.erase e.1 else applied.insert e.1 sliceInfo)

/-- The change of one group, and its tracker without pending slices. -/
def checkoutTracker (cfg : Config) (order : RangeOrder ((_ : String) × EndpointSliceInfo))
    (tracker : EndpointSliceTracker) : Go (EndpointSliceTracker × Option EndpointsChange) :=
  if tracker.pending.entries = [] then pure (tracker, none)
  else do
    let previous ← getEndpointsMap cfg order tracker.applied
    let applied ← tracker.pending.entries.foldlM applyPending tracker.applied
    let current ← getEndpointsMap cfg order applied
    pure (⟨applied, ∅⟩, some ⟨previous, current⟩)

/-- The orders of the loops of one `Update`. -/
structure UpdateEnv where
  slices : RangeOrder ((_ : String) × EndpointSliceInfo)
  changes : RangeOrder (NamespacedName × EndpointsChange)

/-- `checkoutChanges`: the entries of the map of changes. -/
def checkoutChanges (cfg : Config) (env : UpdateEnv) (cache : EndpointSliceCache) :
    Go (EndpointSliceCache × List (NamespacedName × EndpointsChange)) := do
  let m ← GoMap.traverse (fun _ tracker => checkoutTracker cfg env.slices tracker) cache
  pure (GoMap.mapVals (·.1) m, m.entries.filterMap fun e => e.2.2.map fun change => (e.1, change))

/-- `EndpointsMap.merge`. -/
def merge (epm other : EndpointsMap) : EndpointsMap := GoMap.merge epm other

/-- `EndpointsMap.unmerge`. -/
def unmerge (epm other : EndpointsMap) : EndpointsMap := GoMap.unmerge epm other

/-- `ServiceEndpoint`. -/
structure ServiceEndpoint where
  endpoint : String
  servicePortName : ServicePortName
  deriving DecidableEq, Repr

/-- `UpdateEndpointMapResult`. -/
structure UpdateEndpointMapResult where
  updatedServices : List NamespacedName
  deletedUDPEndpoints : List ServiceEndpoint
  newlyActiveUDPServices : List ServicePortName

/-- `BaseEndpointInfo.Equal`. -/
def BaseEndpointInfo.equal (e other : BaseEndpointInfo) : Bool :=
  e.endpoint = other.endpoint ∧ e.isLocal = other.isLocal ∧ e.ready = other.ready

/-- `detectStaleConntrackEntries`: the UDP endpoints that are gone, and the UDP
services that have become active. -/
def detectStaleConntrackEntries (change : EndpointsChange) :
    List ServiceEndpoint × List ServicePortName :=
  let new (spn : ServicePortName) := (change.current.lookup spn).getD []
  let old (spn : ServicePortName) := (change.previous.lookup spn).getD []
  let deleted := change.previous.entries.flatMap fun e =>
    if e.1.protocol ≠ .udp then []
    else (e.2.filter fun ep => ep.ready ∧ ¬ (new e.1).any (·.equal ep)).map
      fun ep => ⟨ep.endpoint, e.1⟩
  let active := change.current.entries.filterMap fun e =>
    if e.1.protocol = .udp ∧ e.2.any (·.ready) ∧ ¬ (old e.1).any (·.ready) then some e.1 else none
  (deleted, active)

/-- `EndpointsMap.Update`. -/
def Update (cfg : Config) (epm : EndpointsMap) (cache : EndpointSliceCache) (env : UpdateEnv) :
    Go (EndpointsMap × EndpointSliceCache × UpdateEndpointMapResult) := do
  let (cache, changes) ← checkoutChanges cfg env cache
  let visited := env.changes.visit changes
  let epm := visited.foldl (fun epm c => merge (unmerge epm c.2.previous) c.2.current) epm
  pure (epm, cache,
    { updatedServices := visited.map (·.1)
      deletedUDPEndpoints := visited.flatMap fun c => (detectStaleConntrackEntries c.2).1
      newlyActiveUDPServices := visited.flatMap fun c => (detectStaleConntrackEntries c.2).2 })

end Fleetboard.Proxy
