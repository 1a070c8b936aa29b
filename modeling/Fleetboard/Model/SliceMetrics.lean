import Fleetboard.Framework.Binary64
import Fleetboard.Framework.Tally
import Fleetboard.Model.Reconciler

/-!
# The metrics of endpoint slices (`pkg/controller/endpointslice/metrics/cache.go`)

The cache has the numbers of endpoints and slices of every service by its groups of ports, and
keeps their totals up to date with differences. Three gauges show the totals.

* `Reconciler.spMetrics`: what `reconcileByAddressType` counts;
* `MetricsState`: the cache, with the slices that the last sync of each service was to leave.
-/

namespace Fleetboard.EndpointSlices

open GoMap Binary64

structure EfficiencyInfo where
  Endpoints : Int
  Slices : Int

structure ServicePortCache where
  items : GoMap String EfficiencyInfo

/-- `float64` values of the gauges. -/
structure Gauges where
  NumEndpointSlices : ℚ
  DesiredEndpointSlices : ℚ
  EndpointsDesired : ℚ

/-- `Cache`. -/
structure MetricsCache where
  maxEndpointsPerSlice : Int
  numEndpoints : Int
  numSlicesActual : Int
  numSlicesDesired : Int
  cache : GoMap NamespacedName ServicePortCache
  gauges : Gauges

def NewServicePortCache : ServicePortCache := ⟨∅⟩

def ServicePortCache.Set (spc : ServicePortCache) (pmKey : String) (eInfo : EfficiencyInfo) :
    ServicePortCache :=
  ⟨spc.items.insert pmKey eInfo⟩

/-- `numDesiredSlices`. -/
def numDesiredSlices (numEndpoints maxEndpointsPerSlice : Int) : Int :=
  if numEndpoints = 0 then 0
  else if numEndpoints ≤ maxEndpointsPerSlice then 1
  else ⌈fl (fl numEndpoints / fl maxEndpointsPerSlice)⌉

/-- The order of a loop over the groups of ports. -/
abbrev PortOrder := RangeOrder ((_ : String) × EfficiencyInfo)

/-- `totals`: the actual and the desired number of slices, and that of endpoints. -/
def ServicePortCache.totals (o : PortOrder) (spc : ServicePortCache) (maxEndpointsPerSlice : Int) :
    Int × Int × Int :=
  let (actualSlices, desiredSlices, endpoints) :=
    (o.visit spc.items.entries).foldl (fun acc e =>
      (acc.1 + e.2.Slices, acc.2.1 + numDesiredSlices e.2.Endpoints maxEndpointsPerSlice,
        acc.2.2 + e.2.Endpoints)) (0, 0, 0)
  -- There is always a placeholder slice.
  (actualSlices, if desiredSlices = 0 then 1 else desiredSlices, endpoints)

namespace MetricsCache

def NewCache (endpointsPerSlice : Int) : MetricsCache := ⟨endpointsPerSlice, 0, 0, 0, ∅, ⟨0, 0, 0⟩⟩

def updateMetrics (c : MetricsCache) : MetricsCache :=
  { c with gauges := ⟨fl c.numSlicesActual, fl c.numSlicesDesired, fl c.numEndpoints⟩ }

/-- The totals of the entry that an update replaces. -/
def existingTotals (o : PortOrder) (c : MetricsCache) (serviceNN : NamespacedName) :
    Int × Int × Int :=
  match c.cache.lookup serviceNN with
  | some existingSPCache => existingSPCache.totals o c.maxEndpointsPerSlice
  | none => (0, 0, 0)

def UpdateServicePortCache (prevOrder currOrder : PortOrder) (c : MetricsCache)
    (serviceNN : NamespacedName) (spCache : ServicePortCache) : MetricsCache :=
  let (prevActualSlices, prevDesiredSlices, prevEndpoints) := c.existingTotals prevOrder serviceNN
  let (currActualSlices, currDesiredSlices, currEndpoints) :=
    spCache.totals currOrder c.maxEndpointsPerSlice
  updateMetrics { c with
    numEndpoints := c.numEndpoints + currEndpoints - prevEndpoints
    numSlicesDesired := c.numSlicesDesired + (currDesiredSlices - prevDesiredSlices)
    numSlicesActual := c.numSlicesActual + (currActualSlices - prevActualSlices)
    cache := c.cache.insert serviceNN spCache }

def DeleteService (o : PortOrder) (c : MetricsCache) (serviceNN : NamespacedName) : MetricsCache :=
  match c.cache.lookup serviceNN with
  | none => c
  | some spCache =>
    let (actualSlices, desiredSlices, endpoints) := spCache.totals o c.maxEndpointsPerSlice
    let c := updateMetrics { c with
      numEndpoints := c.numEndpoints - endpoints
      numSlicesDesired := c.numSlicesDesired - desiredSlices
      numSlicesActual := c.numSlicesActual - actualSlices }
    { c with cache := c.cache.erase serviceNN }

end MetricsCache

/-! ## What a sync counts -/

/-- The slices that the changes are to leave. -/
def Changes.left (changes : Changes) (existingSlices : List EndpointSlice) : List EndpointSlice :=
  unchangedSlices existingSlices changes.toUpdate changes.toDelete ++ changes.toUpdate ++
    changes.toCreate

namespace Reconciler

variable (r : Reconciler) (service : Service) (addressType : AddressType) (o : TypeOrders r.hasher)
  (existingSlices : List EndpointSlice) (desiredByPortMap : GoMap String (Desired r.hasher))

/-- The counts of a group of ports. -/
def efficiencyInfo (e : (_ : String) × Desired r.hasher) : EfficiencyInfo :=
  let existingSlicesByPortMap := r.slicesByPortMap (existingSlices.filter (ownedBy · service))
  let existing := (existingSlicesByPortMap.lookup e.1).getD []
  let changes := (r.reconcileByPortMapping service (o.group e.1) existing e.2.endpoints
    e.2.endpointMeta).1
  { Endpoints := e.2.endpoints.Len
    Slices := existing.length + changes.toCreate.length - changes.toDelete.length }

/-- The variable `spMetrics` of `reconcileByAddressType`. -/
def spMetrics : ServicePortCache :=
  let spMetrics := (o.desired.visit desiredByPortMap.entries).foldl
    (fun spMetrics e => spMetrics.Set e.1 (r.efficiencyInfo service o existingSlices e))
    NewServicePortCache
  let changes := r.changesByPortMap service o existingSlices desiredByPortMap
  if existingSlices.length = changes.toDelete.length ∧ changes.toCreate.length < 1 then
    spMetrics.Set (r.hasher.NewPortMapKey (r.newEndpointSlice service ⟨some [], addressType⟩).ports)
      { Endpoints := 0, Slices := 1 }
  else spMetrics

/-- The slices that `reconcileByAddressType` is to leave. -/
def slicesLeft : List EndpointSlice :=
  (r.withPlaceholder service addressType existingSlices.length
    (r.changesByPortMap service o existingSlices desiredByPortMap)).left existingSlices

end Reconciler

/-- The cache, and the slices that the last sync of each service was to leave. A sync is one of an
address type: `Reconcile` makes one for each that the service supports. -/
structure MetricsState where
  metrics : MetricsCache
  left : GoMap NamespacedName (List EndpointSlice)

inductive MetricsEvent
  | sync (service : Service) (pods : List Pod) (existingSlices : List EndpointSlice)
    (addressType : AddressType)
  | deleteService (serviceNN : NamespacedName)

open Reconciler in
inductive MetricsState.Step (r : Reconciler) : MetricsState → MetricsEvent → MetricsState → Prop
  /-- `reconcileByAddressType` gets past the pods. -/
  | sync {s : MetricsState} (service : Service) {pods : List Pod}
      {existingSlices : List EndpointSlice} {addressType : AddressType}
      (o : TypeOrders r.hasher) (prevOrder currOrder : PortOrder)
      {desiredByPortMap : GoMap String (Desired r.hasher)} {errs : List Error}
      (desired : pods.foldlM (r.addPod service addressType) (∅, []) =
        .ok (desiredByPortMap, errs)) :
      Step r s (.sync service pods existingSlices addressType)
        { metrics := s.metrics.UpdateServicePortCache prevOrder currOrder ⟨service.ns, service.name⟩
            (r.spMetrics service addressType o
              (existingSlices.map (r.sortInPlace service desiredByPortMap)) desiredByPortMap)
          left := s.left.insert ⟨service.ns, service.name⟩
            (r.slicesLeft service addressType o
              (existingSlices.map (r.sortInPlace service desiredByPortMap)) desiredByPortMap) }
  /-- The node of a pod cannot be looked up. -/
  | failed {s : MetricsState} {service : Service} {pods : List Pod}
      {existingSlices : List EndpointSlice} {addressType : AddressType} {e : Error}
      (desired : pods.foldlM (r.addPod service addressType) (∅, []) = .error e) :
      Step r s (.sync service pods existingSlices addressType) s
  | deleteService {s : MetricsState} (o : PortOrder) (serviceNN : NamespacedName) :
      Step r s (.deleteService serviceNN)
        { metrics := s.metrics.DeleteService o serviceNN
          left := s.left.erase serviceNN }

end Fleetboard.EndpointSlices
