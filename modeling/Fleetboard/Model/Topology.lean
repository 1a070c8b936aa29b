import Fleetboard.Framework.Binary64
import Fleetboard.Framework.Tally
import Fleetboard.Model.Reconciler

/-!
# Topology hints (`pkg/controller/endpointslice/topologycache`)

The cache knows how the CPUs of the nodes are distributed over zones, and how many endpoints of
each service have a hint for each zone. `AddHints` gives every ready endpoint of a service the
hint for its own zone, and then changes hints of zones that have more endpoints than their part
of the CPUs to hints for zones that have fewer.

A `float64` is a rational that is rounded after every operation. Loops over maps take an order
for each loop (`HintOrders`), and the loop without a condition in `getGivingAndReceivingZones`
takes fuel. Locks and logs are left out.
-/

namespace Fleetboard.EndpointSlices.Topology

open Binary64 GoMap

/-! ## The cache -/

def overloadThreshold : ℚ := fl (1 / 5)

/-- `1 / (1 + overloadThreshold)`. -/
def overloadFactor : ℚ := fl (1 / fl (1 + overloadThreshold))

/-- `EndpointZoneInfo`, and the other maps from zones to numbers. -/
abbrev EndpointZoneInfo := GoMap String Int

structure Allocation where
  minimum : Int
  maximum : Int
  desired : ℚ

inductive EventType
  | normal | warning
  deriving DecidableEq, Repr

structure EventBuilder where
  eventType : EventType
  reason : String
  message : String
  deriving DecidableEq, Repr

def NoZoneSpecified := "One or more endpoints do not have a zone specified"
def NoAllocatedHintsForZones := "No hints allocated for zones"
def TopologyAwareHintsEnabled := "Topology Aware Hints has been enabled"
def TopologyAwareHintsDisabled := "Topology Aware Hints has been disabled"
def InsufficientNodeInfo :=
  "Insufficient Node information: allocatable CPU or zone not specified on one or more nodes"
def NodesReadyInOneZoneOnly := "Nodes only ready in one zone"
def InsufficientNumberOfEndpoints := "Insufficient number of endpoints"
def MinAllocationExceedsOverloadThreshold :=
  "Unable to allocate minimum required endpoints to each zone without exceeding overload threshold"

def addressTypeText : AddressType → String
  | .ipv4 => "IPv4"
  | .ipv6 => "IPv6"
  | .fqdn => "FQDN"

def FormatWithAddressType (s : String) (addressType : AddressType) : String :=
  s ++ ", addressType: " ++ addressTypeText addressType

/-- The warning that hints are disabled, with its message. -/
def disabled (message : String) : EventBuilder := ⟨.warning, "TopologyAwareHintsDisabled", message⟩

/-- `TopologyCache`; the first two maps may be nil. -/
structure TopologyCache where
  sufficientNodeInfo : Bool
  cpuByZone : Option (GoMap String Int)
  cpuRatiosByZone : Option (GoMap String ℚ)
  endpointsByService : GoMap String (GoMap AddressType EndpointZoneInfo)
  hintsPopulatedByService : Finset String

/-- `NewTopologyCache`. -/
def NewTopologyCache : TopologyCache where
  sufficientNodeInfo := false
  cpuByZone := some ∅
  cpuRatiosByZone := some ∅
  endpointsByService := ∅
  hintsPopulatedByService := ∅

/-! ## Nodes -/

/-- The fields of a node that the cache reads. The allocatable CPU is in units of a
billionth. -/
structure NodeInfo where
  labels : GoMap String String
  conditions : List PodCondition
  cpu : Int

/-- `hasExcludedLabels`. -/
def hasExcludedLabels (labels : GoMap String String) : Bool :=
  (labels.lookup "node-role.kubernetes.io/control-plane").isSome ||
    (labels.lookup "node-role.kubernetes.io/master").isSome

/-- `isNodeReady`: the first condition of the type decides. -/
def isNodeReady (node : NodeInfo) : Bool :=
  match node.conditions.find? (·.type = "Ready") with
  | none => false
  | some condition => condition.status = .true

/-- `Quantity.MilliValue`, which rounds up. -/
def milliValue (quantity : Int) : Int := ⌈(quantity : ℚ) / 1000000⌉

/-- The loop of `SetNodes`: the CPUs by zone, their sum, and whether all nodes that count have
the information. -/
def sumCPU : List NodeInfo → GoMap String Int → Int → GoMap String Int × Int × Bool
  | [], cpuByZone, totalCPU => (cpuByZone, totalCPU, true)
  | node :: nodes, cpuByZone, totalCPU =>
    if hasExcludedLabels node.labels ∨ isNodeReady node = false then sumCPU nodes cpuByZone totalCPU
    else
      let zone := (node.labels.lookup NodeTopologyZone).getD ""
      if zone = "" ∨ node.cpu = 0 then (∅, totalCPU, false)
      else
        sumCPU nodes (addTo cpuByZone zone node.cpu) (totalCPU + node.cpu)

/-- `SetNodes`. -/
def TopologyCache.SetNodes (t : TopologyCache) (nodes : List NodeInfo) : TopologyCache :=
  let (cpuByZone, totalCPU, sufficientNodeInfo) := sumCPU nodes ∅ 0
  if totalCPU = 0 ∨ sufficientNodeInfo = false ∨ cpuByZone.entries.length < 2 then
    { t with sufficientNodeInfo := false, cpuByZone := none, cpuRatiosByZone := none }
  else
    { t with
      sufficientNodeInfo := sufficientNodeInfo
      cpuByZone := some cpuByZone
      cpuRatiosByZone := some (cpuByZone.mapVals fun cpu =>
        fl (fl (milliValue cpu) / fl (milliValue totalCPU))) }

/-! ## Allocations -/

/-- The orders of the loops over maps. -/
structure HintOrders where
  ratios : RangeOrder ((_ : String) × ℚ)
  giving : Nat → RangeOrder ((_ : String) × ℚ)
  receiving : Nat → RangeOrder ((_ : String) × ℚ)
  receivers : Nat → RangeOrder ((_ : String) × Int)

/-- The number of endpoints below which a zone is overloaded. -/
def minimumFor (ratio : ℚ) (numEndpoints : Int) : Int :=
  ⌈fl (fl (ratio * fl numEndpoints) * overloadFactor)⌉

/-- The loop of `getAllocations`: the sum of the minimums and the allocations, as long as
endpoints remain. -/
def allocate (numEndpoints : Int) : List ((_ : String) × ℚ) → Int → Int → GoMap String Allocation →
    Option (Int × GoMap String Allocation)
  | [], _, minTotal, allocations => some (minTotal, allocations)
  | ⟨zone, ratio⟩ :: rest, remainingMinEndpoints, minTotal, allocations =>
    let desired := fl (ratio * fl numEndpoints)
    let minimum := minimumFor ratio numEndpoints
    let allocations := allocations.insert zone ⟨minimum, 0, max desired (fl minimum)⟩
    if remainingMinEndpoints - minimum < 0 then none
    else allocate numEndpoints rest (remainingMinEndpoints - minimum) (minTotal + minimum) allocations

/-- `getAllocations`. -/
def TopologyCache.getAllocations (t : TopologyCache) (order : RangeOrder ((_ : String) × ℚ))
    (numEndpoints : Int) : Except EventBuilder (GoMap String Allocation) :=
  match t.cpuRatiosByZone with
  | none => .error (disabled InsufficientNodeInfo)
  | some cpuRatiosByZone =>
    let zones := cpuRatiosByZone.entries.length
    let counts := " (" ++ toString numEndpoints ++ " endpoints, " ++ toString zones ++ " zones)"
    if zones < 2 then .error (disabled NodesReadyInOneZoneOnly)
    else if (zones : Int) > numEndpoints then
      .error (disabled (InsufficientNumberOfEndpoints ++ counts))
    else
      match allocate numEndpoints (order.visit cpuRatiosByZone.entries) numEndpoints 0 ∅ with
      | none => .error (disabled (MinAllocationExceedsOverloadThreshold ++ counts))
      | some (minTotal, allocations) =>
        .ok (allocations.mapVals fun allocation =>
          { allocation with maximum := allocation.minimum + numEndpoints - minTotal })

/-! ## Slices -/

/-- `EndpointReady`. -/
def EndpointReady (endpoint : Endpoint) : Bool := endpoint.ready = some true

/-- `numReadyEndpoints`. -/
def numReadyEndpoints (endpoints : List Endpoint) : Nat := endpoints.countP EndpointReady

structure SliceInfo where
  serviceKey : String
  addressType : AddressType
  toCreate : List EndpointSlice
  toUpdate : List EndpointSlice
  unchanged : List EndpointSlice

def SliceInfo.getTotalReadyEndpoints (si : SliceInfo) : Nat :=
  (si.toCreate.map fun slice => numReadyEndpoints slice.endpoints).sum +
    (si.toUpdate.map fun slice => numReadyEndpoints slice.endpoints).sum +
    (si.unchanged.map fun slice => numReadyEndpoints slice.endpoints).sum

/-- `RemoveHintsFromSlices`, with the slices that stay unchanged. -/
def SliceInfo.removeHints (si : SliceInfo) : SliceInfo :=
  let changes := RemoveHintsFromSlices ⟨si.toCreate, si.toUpdate, []⟩ si.unchanged
  { si with
    toCreate := changes.toCreate
    toUpdate := changes.toUpdate
    unchanged := si.unchanged.filter fun slice => !slice.endpoints.any (·.hints.isSome) }

/-- The first loop of `getHintsByZone`. -/
def countHints (allocations : GoMap String Allocation) :
    List Endpoint → EndpointZoneInfo → Option EndpointZoneInfo
  | [], hintsByZone => some hintsByZone
  | endpoint :: endpoints, hintsByZone =>
    if EndpointReady endpoint = false then countHints allocations endpoints hintsByZone
    else
      let forZones := endpoint.hints.getD []
      if forZones = [] ∨ forZones.any fun zone => (allocations.lookup zone).isNone then none
      else
        countHints allocations endpoints
          (forZones.foldl (fun hintsByZone zone => addTo hintsByZone zone 1) hintsByZone)

/-- The second loop of `getHintsByZone`: the zone has no allocation, or would have more hints than
its maximum. -/
def exceedsMaximum (allocatedHintsByZone : EndpointZoneInfo) (allocations : GoMap String Allocation)
    (e : (_ : String) × Int) : Bool :=
  match allocations.lookup e.1 with
  | none => true
  | some allocation => e.2 + num allocatedHintsByZone e.1 > allocation.maximum

/-- `getHintsByZone`. -/
def getHintsByZone (slice : EndpointSlice) (allocatedHintsByZone : EndpointZoneInfo)
    (allocations : GoMap String Allocation) : Option EndpointZoneInfo :=
  match countHints allocations slice.endpoints ∅ with
  | none => none
  | some hintsByZone =>
    if hintsByZone.entries.any (exceedsMaximum allocatedHintsByZone allocations) then none
    else some hintsByZone

/-- The loop of `getAllocatedHintsByZone`: slices to update, those that stay unchanged, and the
hints of these. -/
def keepUnchanged (allocations : GoMap String Allocation) :
    List EndpointSlice → EndpointZoneInfo → List EndpointSlice × List EndpointSlice × EndpointZoneInfo
  | [], allocatedHintsByZone => ([], [], allocatedHintsByZone)
  | slice :: slices, allocatedHintsByZone =>
    match getHintsByZone slice allocatedHintsByZone allocations with
    | none =>
      let (toUpdate, unchanged, hints) := keepUnchanged allocations slices allocatedHintsByZone
      (slice :: toUpdate, unchanged, hints)
    | some hintsByZone =>
      let (toUpdate, unchanged, hints) :=
        keepUnchanged allocations slices (addAll allocatedHintsByZone hintsByZone)
      (toUpdate, slice :: unchanged, hints)

/-- `getAllocatedHintsByZone`. -/
def SliceInfo.getAllocatedHintsByZone (si : SliceInfo) (allocations : GoMap String Allocation) :
    SliceInfo × EndpointZoneInfo :=
  let (toUpdate, unchanged, hints) := keepUnchanged allocations si.unchanged ∅
  ({ si with toUpdate := si.toUpdate ++ toUpdate, unchanged := unchanged }, hints)

/-! ## Giving and receiving -/

/-- `getMost`. -/
def getMost (order : RangeOrder ((_ : String) × ℚ)) (zones : GoMap String ℚ) : String × ℚ :=
  (order.visit zones.entries).foldl (fun most e => if e.2 > most.2 then (e.1, e.2) else most) ("", 0)

/-- What zones are to give and to receive: precisely, and in endpoints. -/
structure Exchange where
  givingZonesDesired : GoMap String ℚ
  receivingZonesDesired : GoMap String ℚ
  givingZones : EndpointZoneInfo
  receivingZones : EndpointZoneInfo

/-- The numbers before the loop of `getGivingAndReceivingZones`. -/
def Exchange.start (allocations : GoMap String Allocation) (allocatedHintsByZone : EndpointZoneInfo) :
    Exchange :=
  allocations.entries.foldl (fun x e =>
    let allocatedHints : ℚ := fl (num allocatedHintsByZone e.1 : Int)
    let target := e.2.desired
    if allocatedHints > target then
      { x with givingZonesDesired := x.givingZonesDesired.insert e.1 (fl (allocatedHints - target)) }
    else if allocatedHints < target then
      { x with
        receivingZonesDesired := x.receivingZonesDesired.insert e.1 (fl (target - allocatedHints)) }
    else x) ⟨∅, ∅, ∅, ∅⟩

/-- `zones[zone]--`. -/
def decrement (zones : GoMap String ℚ) (zone : String) : GoMap String ℚ :=
  zones.insert zone (fl (num zones zone - 1))

/-- The condition for the end of the loop of `getGivingAndReceivingZones`, with the zones that
have most to give and to receive. -/
def settled (giving receiving : String × ℚ) : Bool :=
  giving.1 = "" ∨ receiving.1 = "" ∨ (giving.2 < 1 ∧ receiving.2 < 1) ∨ giving.2 < 1 / 2 ∨
    receiving.2 < 1 / 2

/-- One endpoint is to be given by a zone and received by another. -/
def Exchange.move (x : Exchange) (givingZone receivingZone : String) : Exchange where
  givingZones := addTo x.givingZones givingZone 1
  givingZonesDesired := decrement x.givingZonesDesired givingZone
  receivingZones := addTo x.receivingZones receivingZone 1
  receivingZonesDesired := decrement x.receivingZonesDesired receivingZone

/-- The loop of `getGivingAndReceivingZones`, from a round on; there is no result when the fuel
runs out. -/
def Exchange.run (o : HintOrders) : Nat → Nat → Exchange → Option Exchange
  | 0, _, _ => none
  | fuel + 1, round, x =>
    let giving := getMost (o.giving round) x.givingZonesDesired
    let receiving := getMost (o.receiving round) x.receivingZonesDesired
    if settled giving receiving then some x
    else Exchange.run o fuel (round + 1) (x.move giving.1 receiving.1)

/-- `getGivingAndReceivingZones`. -/
def getGivingAndReceivingZones (o : HintOrders) (fuel : Nat) (allocations : GoMap String Allocation)
    (allocatedHintsByZone : EndpointZoneInfo) : Option (EndpointZoneInfo × EndpointZoneInfo) :=
  (Exchange.run o fuel 0 (Exchange.start allocations allocatedHintsByZone)).map
    fun x => (x.givingZones, x.receivingZones)

/-- The variables of `redistributeHints`, with the number of endpoints so far. -/
structure Redistribution where
  givingZones : EndpointZoneInfo
  receivingZones : EndpointZoneInfo
  redistributions : EndpointZoneInfo
  visited : Nat

/-- One endpoint less to give or to receive. -/
def takeOne (zones : EndpointZoneInfo) (zone : String) (n : Int) : EndpointZoneInfo :=
  if n = 1 then zones.erase zone else zones.insert zone (n - 1)

/-- The body of the loop of `redistributeHints`. When there is nothing to give or to receive, the
source returns; the endpoints after that are left alone here, too, since the maps stay. -/
def redistributeEndpoint (o : HintOrders) (st : Redistribution) (endpoint : Endpoint) :
    Redistribution × Endpoint :=
  let st' := { st with visited := st.visited + 1 }
  let givingZone := endpoint.zone.getD ""
  let numToGive := num st.givingZones givingZone
  if EndpointReady endpoint ∧ givingZone ≠ "" ∧ numToGive > 0 then
    match ((o.receivers st.visited).visit st.receivingZones.entries).find? fun e => e.2 > 0 with
    | none => (st', endpoint)
    | some ⟨receivingZone, numToReceive⟩ =>
      ({ st' with
          givingZones := takeOne st.givingZones givingZone numToGive
          receivingZones := takeOne st.receivingZones receivingZone numToReceive
          redistributions := addTo (addTo st.redistributions receivingZone 1) givingZone (-1) },
        { endpoint with hints := some [receivingZone] })
  else (st', endpoint)

/-- The endpoints of slices with a state that is passed on. -/
def mapEndpoints {σ : Type*} (f : σ → Endpoint → σ × Endpoint) (st : σ) (slice : EndpointSlice) :
    σ × EndpointSlice :=
  let (st, endpoints) := mapState f st slice.endpoints
  (st, { slice with endpoints := endpoints })

/-- `redistributeHints`. -/
def redistributeHints (o : HintOrders) (slices : List EndpointSlice)
    (givingZones receivingZones : EndpointZoneInfo) : EndpointZoneInfo × List EndpointSlice :=
  let (st, slices) :=
    mapState (mapEndpoints (redistributeEndpoint o)) ⟨givingZones, receivingZones, ∅, 0⟩ slices
  (st.redistributions, slices)

/-! ## Hints -/

namespace TopologyCache

/-- `setHintsLocked`, which is `SetHints`. -/
def SetHints (t : TopologyCache) (serviceKey : String) (addrType : AddressType)
    (allocatedHintsByZone : EndpointZoneInfo) : TopologyCache :=
  { t with
    endpointsByService := t.endpointsByService.insert serviceKey
      (((t.endpointsByService.lookup serviceKey).getD ∅).insert addrType allocatedHintsByZone)
    hintsPopulatedByService := insert serviceKey t.hintsPopulatedByService }

/-- `RemoveHints`. -/
def RemoveHints (t : TopologyCache) (serviceKey : String) (addrType : AddressType) : TopologyCache :=
  let remaining := ((t.endpointsByService.lookup serviceKey).getD ∅).erase addrType
  { t with
    endpointsByService :=
      if remaining.entries = [] then t.endpointsByService.erase serviceKey
      else t.endpointsByService.insert serviceKey remaining
    hintsPopulatedByService := t.hintsPopulatedByService.erase serviceKey }

/-- `HasPopulatedHints`. -/
def HasPopulatedHints (t : TopologyCache) (serviceKey : String) : Bool :=
  serviceKey ∈ t.hintsPopulatedByService

/-- Hints are removed from the cache and from the slices. -/
def disableHints (t : TopologyCache) (si : SliceInfo) (message : String) :
    TopologyCache × SliceInfo × List EventBuilder :=
  (t.RemoveHints si.serviceKey si.addressType, si.removeHints,
    [disabled (FormatWithAddressType message si.addressType)])

end TopologyCache

/-- The first step of `AddHints` for an endpoint: the hint for its own zone. A ready endpoint
without a zone ends the loop, so that no numbers remain. -/
def assignSameZone (allocatedHintsByZone : Option EndpointZoneInfo) (endpoint : Endpoint) :
    Option EndpointZoneInfo × Endpoint :=
  -- `endpoint.Hints = nil` changes the loop's copy only.
  if EndpointReady endpoint = false then (allocatedHintsByZone, endpoint)
  else
    match allocatedHintsByZone with
    | none => (none, endpoint)
    | some hints =>
      let zone := endpoint.zone.getD ""
      if zone = "" then (none, endpoint)
      else (some (addTo hints zone 1), { endpoint with hints := some [zone] })

/-- The end of `AddHints`: from the slices to write, with hints for own zones, and the numbers of
hints to what is cached and returned. -/
def TopologyCache.redistribute (o : HintOrders) (t : TopologyCache) (si : SliceInfo)
    (slices : List EndpointSlice) (allocatedHintsByZone : EndpointZoneInfo)
    (zones : EndpointZoneInfo × EndpointZoneInfo) : TopologyCache × SliceInfo × List EventBuilder :=
  let (redistributions, slices) := redistributeHints o slices zones.1 zones.2
  let allocatedHintsByZone := addAll allocatedHintsByZone redistributions
  if allocatedHintsByZone.entries = [] then t.disableHints si NoAllocatedHintsForZones
  else
    (t.SetHints si.serviceKey si.addressType allocatedHintsByZone,
      { si with
        toCreate := slices.take si.toCreate.length
        toUpdate := slices.drop si.toCreate.length },
      if t.HasPopulatedHints si.serviceKey then []
      else [⟨.normal, "TopologyAwareHintsEnabled",
        FormatWithAddressType TopologyAwareHintsEnabled si.addressType⟩])

/-- `AddHints`: the cache, the slices and the events. -/
def TopologyCache.AddHints (o : HintOrders) (fuel : Nat) (t : TopologyCache) (si : SliceInfo) :
    Option (TopologyCache × SliceInfo × List EventBuilder) :=
  match t.getAllocations o.ratios si.getTotalReadyEndpoints with
  | .error event => some (t.disableHints si event.message)
  | .ok allocations =>
    let (si, allocatedHintsByZone) := si.getAllocatedHintsByZone allocations
    match mapState (mapEndpoints assignSameZone) (some allocatedHintsByZone)
      (si.toCreate ++ si.toUpdate) with
    | (none, _) => some (t.disableHints si NoZoneSpecified)
    | (some allocatedHintsByZone, slices) =>
      (getGivingAndReceivingZones o fuel allocations allocatedHintsByZone).map
        (t.redistribute o si slices allocatedHintsByZone)

/-! ## Overload -/

/-- The body of the loop over zones of `serviceOverloaded`. -/
def zoneOverloaded (ezi : EndpointZoneInfo) (totalEndpoints : ℚ) (e : (_ : String) × ℚ) : Bool :=
  match ezi.lookup e.1 with
  | none => true
  | some svcEndpoints => svcEndpoints < ⌈fl (fl (totalEndpoints * e.2) * overloadFactor)⌉

/-- `serviceOverloaded`. -/
def serviceOverloaded (order : RangeOrder ((_ : String) × Int)) (ezi : EndpointZoneInfo)
    (zoneRatios : GoMap String ℚ) : Bool :=
  if ezi.entries = [] then false
  else if zoneRatios.entries = [] then true
  else
    let totalEndpoints : ℚ :=
      (order.visit ezi.entries).foldl (fun total e => fl (total + fl e.2)) 0
    zoneRatios.entries.any (zoneOverloaded ezi totalEndpoints)

/-- `hintsEnabled`. -/
def hintsEnabled (annotations : GoMap String String) : Bool :=
  match (annotations.lookup "service.kubernetes.io/topology-aware-hints").or
    (annotations.lookup "service.kubernetes.io/topology-mode") with
  | none => false
  | some val => val = "Auto" || val = "auto"

/-- The part of `reconcileByAddressType` that is about hints, with a cache. -/
def TopologyCache.reconcileHints (o : HintOrders) (fuel : Nat) (t : TopologyCache)
    (annotations : GoMap String String) (si : SliceInfo) :
    Option (TopologyCache × SliceInfo × List EventBuilder) :=
  if hintsEnabled annotations then t.AddHints o fuel si
  else
    some (t.RemoveHints si.serviceKey si.addressType, si.removeHints,
      if t.HasPopulatedHints si.serviceKey then
        [disabled (FormatWithAddressType TopologyAwareHintsDisabled si.addressType)]
      else [])

/-- All slices of a service and an address type. -/
def SliceInfo.slices (si : SliceInfo) : List EndpointSlice := si.toCreate ++ si.toUpdate ++ si.unchanged

/-- The cache, with the slices that the last sync of each service and address type was to leave:
those that it hands to `finalize`, whose calls may fail, and those that it does not touch. -/
structure HintState where
  cache : TopologyCache
  left : String → AddressType → List EndpointSlice

inductive HintEvent
  /-- A service is synced for an address type. -/
  | sync (si : SliceInfo) (annotations : GoMap String String) (o : HintOrders) (fuel : Nat)
  /-- The service does not support an address type any more. -/
  | unsupported (serviceKey : String) (addressType : AddressType)
  /-- `checkNodeTopologyDistribution`. -/
  | checkNodes (nodes : List NodeInfo)

def HintState.leave (s : HintState) (t : TopologyCache) (serviceKey : String)
    (addressType : AddressType) (slices : List EndpointSlice) : HintState where
  cache := t
  left k a := if k = serviceKey ∧ a = addressType then slices else s.left k a

inductive HintState.Step : HintState → HintEvent → HintState → Prop
  | sync {s : HintState} {si si' : SliceInfo} {annotations : GoMap String String} {o : HintOrders}
      {fuel : Nat} {t : TopologyCache} {events : List EventBuilder}
      (h : s.cache.reconcileHints o fuel annotations si = some (t, si', events)) :
      Step s (.sync si annotations o fuel) (s.leave t si.serviceKey si.addressType si'.slices)
  | unsupported {s : HintState} (serviceKey : String) (addressType : AddressType) :
      Step s (.unsupported serviceKey addressType)
        (s.leave (s.cache.RemoveHints serviceKey addressType) serviceKey addressType [])
  | checkNodes {s : HintState} (nodes : List NodeInfo) :
      Step s (.checkNodes nodes) { s with cache := s.cache.SetNodes nodes }

end Fleetboard.EndpointSlices.Topology
