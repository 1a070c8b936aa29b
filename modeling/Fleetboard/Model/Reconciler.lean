import Fleetboard.Framework.Keyed
import Fleetboard.Model.EndpointSet

/-!
# The reconciler of endpoint slices (`pkg/controller/endpointslice/reconciler.go`, `utils.go`)

`Reconcile` changes the stored slices of a service, one address type after the other, so that
they have the endpoints of the service's pods. `reconcileByPortMapping` moves the desired
endpoints of one group of ports into slices: those that are there already, those that it changes
anyway, one that has room for the rest, and new ones. `finalize` makes the calls of the API.

Loops over maps and sets take an order for each loop (`Orders`). The functions of the libraries
are fields of `Reconciler`. Topology hints are disabled here, so that the reconciler only removes
them, and metrics, events and the tracker of the calls are left out.
-/

namespace Fleetboard.EndpointSlices

open Fleetboard.Proxy (IPFamily)

/-! ## Slices -/

structure OwnerReference where
  apiVersion : String
  kind : String
  uid : String
  deriving DecidableEq, Repr

/-- `discovery.EndpointSlice`; nil ports and no ports are different. -/
structure EndpointSlice where
  ns : String
  name : String
  generateName : String
  labels : GoMap String String
  annotations : GoMap String String
  ownerReferences : List OwnerReference
  addressType : AddressType
  endpoints : List Endpoint
  ports : Option (List EndpointPort)

/-- `endpointMeta`. -/
structure EndpointMeta where
  ports : Option (List EndpointPort)
  addressType : AddressType

/-- `v1.IsHeadlessService`. -/
def IsHeadlessService := "service.kubernetes.io/headless"

/-- `v1.EndpointsLastChangeTriggerTime`. -/
def EndpointsLastChangeTriggerTime := "endpoints.kubernetes.io/last-change-trigger-time"

/-- `isReservedLabelKey`. -/
def isReservedLabelKey (label : String) : Bool :=
  label = Known.DiscoveryServiceName ∨ label = Known.DiscoveryManagedBy ∨ label = IsHeadlessService

/-- `setEndpointSliceLabels`: the new labels, and whether the others than the reserved ones
change. -/
def setEndpointSliceLabels (epSlice : EndpointSlice) (service : Service) (controllerName : String) :
    GoMap String String × Bool :=
  let epLabels := epSlice.labels.filterKeys fun key => !isReservedLabelKey key
  let svcLabels := service.labels.filterKeys fun key => !isReservedLabelKey key
  let updated := !GoMap.deepEqual epLabels svcLabels
  (((svcLabels.insert Known.DiscoveryServiceName service.name).insert
    Known.DiscoveryManagedBy controllerName).insert IsHeadlessService "true", updated)

/-- `ownedBy`. -/
def ownedBy (endpointSlice : EndpointSlice) (svc : Service) : Bool :=
  endpointSlice.ownerReferences.any fun o =>
    o.uid = svc.uid ∧ o.kind = "Service" ∧ o.apiVersion = "v1"

/-- `getSliceToFill`: the slice that is closest to full with `numEndpoints` more. -/
def getSliceToFill (endpointSlices : List EndpointSlice) (numEndpoints maxEndpoints : Nat) :
    Option EndpointSlice :=
  loop endpointSlices maxEndpoints none
where
  loop : List EndpointSlice → Int → Option EndpointSlice → Option EndpointSlice
    | [], _, closestSlice => closestSlice
    | endpointSlice :: rest, closestDiff, closestSlice =>
      let currentDiff : Int := maxEndpoints - (numEndpoints + endpointSlice.endpoints.length)
      if currentDiff ≥ 0 ∧ currentDiff < closestDiff then
        if currentDiff = 0 then some endpointSlice else loop rest currentDiff (some endpointSlice)
      else loop rest closestDiff closestSlice

/-- `addTriggerTimeAnnotation`, with the text of the time unless it is zero. -/
def addTriggerTimeAnnotation (endpointSlice : EndpointSlice) (triggerTime : Option String) :
    EndpointSlice :=
  { endpointSlice with
    annotations := match triggerTime with
      | some time => endpointSlice.annotations.insert EndpointsLastChangeTriggerTime time
      | none => endpointSlice.annotations.erase EndpointsLastChangeTriggerTime }

/-- `unchangedSlices`. -/
def unchangedSlices (existingSlices slicesToUpdate slicesToDelete : List EndpointSlice) :
    List EndpointSlice :=
  existingSlices.filter fun slice =>
    slice.name ∉ slicesToUpdate.map (·.name) ∧ slice.name ∉ slicesToDelete.map (·.name)

/-- The labels have what the others have, where a missing label is an empty one. -/
def labelsCovered (labels others : GoMap String String) : Bool :=
  others.entries.all fun e => (labels.lookup e.1).getD "" = e.2

/-- `placeholderSliceCompare`; nil and empty lists are equal. -/
def placeholderSliceCompare (a b : EndpointSlice) : Bool :=
  a.ns = b.ns ∧ labelsCovered b.labels a.labels ∧ labelsCovered a.labels b.labels ∧
    a.addressType = b.addressType ∧ a.endpoints = b.endpoints ∧ a.ports.getD [] = b.ports.getD []

/-! ## The API server -/

inductive ApiCall
  | create (slice : EndpointSlice)
  | update (slice : EndpointSlice)
  | delete (name : String)

/-- The stored slices of the namespace, which have different names, and the calls that have been
made. -/
structure ApiServer where
  slices : List EndpointSlice
  calls : List ApiCall
  nodup : (slices.map (·.name)).Nodup
  named : ∀ slice ∈ slices, slice.name ≠ ""

structure ApiError where
  message : Error
  namespaceTerminating : Bool

/-- How the server answers: which calls fail, and the names of the slices that are created. -/
structure Api where
  outcome : Nat → Option ApiError
  generate : String → List String → String
  fresh : ∀ base names, generate base names ∉ names
  named : ∀ base names, generate base names ≠ ""

namespace ApiServer

variable (api : Api) (server : ApiServer)

/-- A call is logged, and does what it should unless it fails. -/
def call (c : ApiCall) (done : List ApiCall → ApiServer) : ApiServer × Option ApiError :=
  match api.outcome server.calls.length with
  | none => (done (server.calls ++ [c]), none)
  | some e => ({ server with calls := server.calls ++ [c] }, some e)

def create (slice : EndpointSlice) : ApiServer × Option ApiError :=
  server.call api (.create slice) fun calls =>
    { slices := server.slices ++
        [{ slice with name := api.generate slice.generateName (server.slices.map (·.name)) }]
      calls := calls
      nodup := by
        rw [List.map_append]
        refine List.nodup_append.mpr ⟨server.nodup, List.nodup_singleton _, fun a ha b hb => ?_⟩
        rw [List.mem_singleton.mp hb]
        rintro rfl
        exact api.fresh _ _ ha
      named := List.forall_mem_append.mpr
        ⟨server.named, List.forall_mem_singleton.mpr (api.named _ _)⟩ }

def update (slice : EndpointSlice) : ApiServer × Option ApiError :=
  server.call api (.update slice) fun calls =>
    { slices := replaceNamed (·.name) server.slices slice
      calls := calls
      nodup := by
        rw [map_replaceNamed]
        exact server.nodup
      named := fun s hs => by
        have hname := List.mem_map_of_mem (f := (·.name)) hs
        rw [map_replaceNamed] at hname
        obtain ⟨t, ht, heq⟩ := List.mem_map.mp hname
        exact heq ▸ server.named t ht }

def delete (name : String) : ApiServer × Option ApiError :=
  server.call api (.delete name) fun calls =>
    { slices := removeNamed (·.name) server.slices name
      calls := calls
      nodup := (List.filter_sublist.map _).nodup server.nodup
      named := fun s hs => server.named s (List.mem_of_mem_filter hs) }

end ApiServer

/-! ## Groups of ports -/

inductive NodeError
  | notFound
  | other (message : Error)

/-- `Reconciler`, with the functions of the libraries: `net.ParseIP` and the text of its result,
`utilnet.IsIPv6String`, and whether `NameIsDNSSubdomain` has nothing against the beginning of a
name. -/
structure Reconciler where
  hasher : Hasher
  parseIP : String → String
  isIPv6String : String → Bool
  nameIsDNSSubdomain : String → Bool
  nodeLister : String → Except NodeError Node
  maxEndpointsPerSlice : Nat
  maxEndpointsPerSlice_pos : 0 < maxEndpointsPerSlice
  managedByName : String

/-- The orders of the loops over one group of ports. Each `PopAny` finds another set, so that one
order is enough for all of them; the set of unchanged slices may be visited again and again. -/
structure GroupOrders where
  toUpdate : RangeOrder String
  byLen : KeySort fun slice : EndpointSlice => OrderDual.toDual slice.endpoints.length
  pop : RangeOrder Endpoint
  unchanged : Nat → RangeOrder String
  updated : RangeOrder String
  deleted : RangeOrder String

/-- The slices to create, update and delete. -/
structure Changes where
  toCreate : List EndpointSlice
  toUpdate : List EndpointSlice
  toDelete : List EndpointSlice

/-- The variables of `reconcileByPortMapping`. -/
structure Progress (h : Hasher) where
  slicesByName : GoMap String EndpointSlice
  sliceNamesUnchanged : List String
  sliceNamesToUpdate : List String
  sliceNamesToDelete : List String
  slicesToCreate : List EndpointSlice
  desiredSet : EndpointSet h
  numRemoved : Nat

/-- The slices of some names. -/
def Progress.slices {h : Hasher} (p : Progress h) (sliceNames : List String) : List EndpointSlice :=
  sliceNames.filterMap p.slicesByName.lookup

/-- The desired endpoints among those of a slice, whether one of them has changed, and the set
without them. -/
def keepDesired {h : Hasher} (desiredSet : EndpointSet h) :
    List Endpoint → List Endpoint × Bool × EndpointSet h
  | [] => ([], false, desiredSet)
  | endpoint :: endpoints =>
    match desiredSet.Get endpoint with
    | none => keepDesired desiredSet endpoints
    | some got =>
      let (newEndpoints, endpointUpdated, rest) :=
        keepDesired (desiredSet.Delete endpoint) endpoints
      (got :: newEndpoints, !EndpointsEqualBeyondHash got endpoint || endpointUpdated, rest)

/-- Desired endpoints are added to a slice, as long as there are any and it has room. -/
def fillSlice {h : Hasher} (order : RangeOrder Endpoint) (maxEndpoints : Nat)
    (desiredSet : EndpointSet h) (slice : EndpointSlice) : EndpointSet h × EndpointSlice :=
  loop (maxEndpoints - slice.endpoints.length) desiredSet slice
where
  loop : Nat → EndpointSet h → EndpointSlice → EndpointSet h × EndpointSlice
    | 0, desiredSet, slice => (desiredSet, slice)
    | room + 1, desiredSet, slice =>
      match desiredSet.PopAny order with
      | none => (desiredSet, slice)
      | some (endpoint, rest) =>
        loop room rest { slice with endpoints := slice.endpoints ++ [endpoint] }

namespace Reconciler

variable (r : Reconciler) (service : Service)

/-- `getEndpointSlicePrefix`. -/
def getEndpointSlicePrefix (serviceName : String) : String :=
  if r.nameIsDNSSubdomain (serviceName ++ "-") then serviceName ++ "-" else serviceName

/-- `newEndpointSlice`. -/
def newEndpointSlice (endpointMeta : EndpointMeta) : EndpointSlice :=
  let epSlice : EndpointSlice :=
    { ns := service.ns
      name := ""
      generateName := r.getEndpointSlicePrefix service.name
      labels := ∅
      annotations := ∅
      ownerReferences := [⟨"v1", "Service", service.uid⟩]
      addressType := endpointMeta.addressType
      endpoints := []
      ports := endpointMeta.ports }
  { epSlice with
    labels := (setEndpointSliceLabels epSlice service r.managedByName).1.insert
      IsHeadlessService "true" }

/-- The first part of `reconcileByPortMapping`: an existing slice keeps its desired endpoints. -/
def reviewSlice (p : Progress r.hasher) (existingSlice : EndpointSlice) : Progress r.hasher :=
  let (newEndpoints, endpointUpdated, desiredSet) :=
    keepDesired p.desiredSet existingSlice.endpoints
  let (labels, labelsChanged) := setEndpointSliceLabels existingSlice service r.managedByName
  let p := { p with
    slicesByName := p.slicesByName.insert existingSlice.name existingSlice
    desiredSet := desiredSet }
  if endpointUpdated ∨ existingSlice.endpoints.length ≠ newEndpoints.length then
    let p := { p with numRemoved :=
      if existingSlice.endpoints.length > newEndpoints.length then
        p.numRemoved + (existingSlice.endpoints.length - newEndpoints.length)
      else p.numRemoved }
    if newEndpoints.length = 0 then
      { p with sliceNamesToDelete := p.sliceNamesToDelete.insert existingSlice.name }
    else
      { p with
        slicesByName := p.slicesByName.insert existingSlice.name
          { existingSlice with endpoints := newEndpoints, labels := labels }
        sliceNamesToUpdate := p.sliceNamesToUpdate.insert existingSlice.name }
  else if labelsChanged then
    { p with
      slicesByName := p.slicesByName.insert existingSlice.name
        { existingSlice with labels := labels }
      sliceNamesToUpdate := p.sliceNamesToUpdate.insert existingSlice.name }
  else { p with sliceNamesUnchanged := p.sliceNamesUnchanged.insert existingSlice.name }

/-- The second part: the slices that change anyway are filled up, the fullest first. -/
def fillUpdated (o : GroupOrders) (p : Progress r.hasher) : Progress r.hasher :=
  if p.desiredSet.Len > 0 ∧ p.sliceNamesToUpdate.length > 0 then
    let slices := o.byLen.run (p.slices (o.toUpdate.visit p.sliceNamesToUpdate))
    slices.foldl (fun p slice =>
      let (desiredSet, slice) := fillSlice o.pop r.maxEndpointsPerSlice p.desiredSet slice
      { p with slicesByName := p.slicesByName.insert slice.name slice, desiredSet := desiredSet }) p
  else p

/-- The third part, one round: the rest goes into one of the unchanged slices or a new one. -/
def placeRest (o : GroupOrders) (endpointMeta : EndpointMeta) (p : Progress r.hasher) :
    Progress r.hasher :=
  let numEndpoints := p.desiredSet.Len
  let found :=
    if numEndpoints < r.maxEndpointsPerSlice ∧ p.sliceNamesUnchanged.length > 0 then
      getSliceToFill (p.slices ((o.unchanged numEndpoints).visit p.sliceNamesUnchanged))
        numEndpoints r.maxEndpointsPerSlice
    else none
  let sliceToFill := found.getD (r.newEndpointSlice service endpointMeta)
  let (desiredSet, sliceToFill) :=
    fillSlice o.pop r.maxEndpointsPerSlice p.desiredSet sliceToFill
  let p := { p with desiredSet := desiredSet }
  -- A new slice has no name yet.
  if sliceToFill.name ≠ "" then
    { p with
      slicesByName := p.slicesByName.insert sliceToFill.name sliceToFill
      sliceNamesToUpdate := p.sliceNamesToUpdate.insert sliceToFill.name
      sliceNamesUnchanged := p.sliceNamesUnchanged.erase sliceToFill.name }
  else { p with slicesToCreate := p.slicesToCreate ++ [sliceToFill] }

/-- The rounds of the third part. Each one places an endpoint at least. -/
def placeAll (o : GroupOrders) (endpointMeta : EndpointMeta) :
    Nat → Progress r.hasher → Progress r.hasher
  | 0, p => p
  | rounds + 1, p =>
    if p.desiredSet.Len > 0 then placeAll o endpointMeta rounds (r.placeRest service o endpointMeta p)
    else p

/-- `reconcileByPortMapping`, with the numbers of the endpoints that are added and removed. -/
def reconcileByPortMapping (o : GroupOrders) (existingSlices : List EndpointSlice)
    (desiredSet : EndpointSet r.hasher) (endpointMeta : EndpointMeta) : Changes × Nat × Nat :=
  let p := existingSlices.foldl (r.reviewSlice service) ⟨∅, [], [], [], [], desiredSet, 0⟩
  let numAdded := p.desiredSet.Len
  let p := r.fillUpdated o p
  let p := r.placeAll service o endpointMeta p.desiredSet.Len p
  ({ toCreate := p.slicesToCreate
     toUpdate := p.slices (o.updated.visit p.sliceNamesToUpdate)
     toDelete := p.slices (o.deleted.visit p.sliceNamesToDelete) },
    numAdded, p.numRemoved)

/-! ## One address type -/

/-- What is desired for a group of ports. -/
structure Desired (h : Hasher) where
  endpointMeta : EndpointMeta
  endpoints : EndpointSet h

/-- The endpoint of a pod goes to the group of its ports, which exists from the first pod on. -/
def addPod (addressType : AddressType) (acc : GoMap String (Desired r.hasher) × List Error)
    (pod : Pod) : Except Error (GoMap String (Desired r.hasher) × List Error) :=
  let (desiredByPortMap, errs) := acc
  if !ShouldPodBeInEndpoints pod true then .ok acc
  else
    let endpointPorts := some (getEndpointPorts service pod)
    let epHash := r.hasher.NewPortMapKey endpointPorts
    let desired := (desiredByPortMap.lookup epHash).getD
      ⟨⟨r.hasher.sortPorts endpointPorts, addressType⟩, ∅⟩
    let insert (node : Option Node) : GoMap String (Desired r.hasher) :=
      let endpoint := podToEndpoint r.parseIP pod node service
      desiredByPortMap.insert epHash
        (if endpoint.addresses.length > 0 then
          { desired with endpoints := desired.endpoints.Insert endpoint }
        else desired)
    match r.nodeLister pod.nodeName with
    | .ok node => .ok (insert (some node), errs)
    | .error (.other message) => .error message
    | .error .notFound =>
      if service.publishNotReadyAddresses then .ok (insert none, errs)
      else .ok (desiredByPortMap.insert epHash desired,
        errs ++ ["skipping Pod " ++ pod.name ++ " for Service " ++ service.ns ++ "/" ++ service.name ++
          ": Node " ++ pod.nodeName ++ " Not Found"])

/-- The groups of slices by their ports. -/
def slicesByPortMap (slices : List EndpointSlice) : GoMap String (List EndpointSlice) :=
  slices.foldl (fun m slice =>
    let epHash := r.hasher.NewPortMapKey slice.ports
    m.insert epHash ((m.lookup epHash).getD [] ++ [slice])) ∅

/-- What taking the hashes leaves of an existing slice: those of the service have their ports
sorted, and the addresses of their endpoints too if their ports are desired. -/
def sortInPlace (desiredByPortMap : GoMap String (Desired r.hasher)) (slice : EndpointSlice) :
    EndpointSlice :=
  if ownedBy slice service then
    { slice with
      ports := r.hasher.sortPorts slice.ports
      endpoints := if (desiredByPortMap.lookup (r.hasher.NewPortMapKey slice.ports)).isSome then
          slice.endpoints.map sortAddresses
        else slice.endpoints }
  else slice

/-- The orders of the loops over one address type. -/
structure TypeOrders (h : Hasher) where
  desired : RangeOrder ((_ : String) × Desired h)
  existing : RangeOrder ((_ : String) × List EndpointSlice)
  group : String → GroupOrders

/-- When no slice would be left, there is to be a placeholder. -/
def withPlaceholder (addressType : AddressType) (numExisting : Nat) (changes : Changes) : Changes :=
  if numExisting = changes.toDelete.length ∧ changes.toCreate.length < 1 then
    let placeholderSlice := r.newEndpointSlice service ⟨some [], addressType⟩
    match changes.toDelete with
    | [slice] =>
      if placeholderSliceCompare slice placeholderSlice then { changes with toDelete := [] }
      else { changes with toCreate := changes.toCreate ++ [placeholderSlice] }
    | _ => { changes with toCreate := changes.toCreate ++ [placeholderSlice] }
  else changes

/-- The changes of the slices of all groups, and the deletion of those of no desired group. -/
def changesByPortMap (o : TypeOrders r.hasher) (existingSlices : List EndpointSlice)
    (desiredByPortMap : GoMap String (Desired r.hasher)) : Changes :=
  let existingSlicesByPortMap := r.slicesByPortMap (existingSlices.filter (ownedBy · service))
  let changes := (o.desired.visit desiredByPortMap.entries).map fun e =>
    (r.reconcileByPortMapping service (o.group e.1) ((existingSlicesByPortMap.lookup e.1).getD [])
      e.2.endpoints e.2.endpointMeta).1
  let notDesired := (o.existing.visit existingSlicesByPortMap.entries).flatMap fun e =>
    if (desiredByPortMap.lookup e.1).isSome then [] else e.2
  { toCreate := changes.flatMap (·.toCreate)
    toUpdate := changes.flatMap (·.toUpdate)
    toDelete := existingSlices.filter (!ownedBy · service) ++ changes.flatMap (·.toDelete) ++
      notDesired }

end Reconciler

/-! ## Hints and calls -/

/-- The slice without hints. -/
def withoutHints (slice : EndpointSlice) : EndpointSlice :=
  { slice with endpoints := slice.endpoints.map fun endpoint => { endpoint with hints := none } }

/-- `RemoveHintsFromSlices`. -/
def RemoveHintsFromSlices (changes : Changes) (unchanged : List EndpointSlice) : Changes :=
  { changes with
    toCreate := changes.toCreate.map withoutHints
    toUpdate := changes.toUpdate.map withoutHints ++
      (unchanged.filter fun slice => slice.endpoints.any (·.hints.isSome)).map withoutHints }

/-- The first loop of `finalize`: creates become updates of slices that would be deleted. -/
def recycleSlices (service : Service) (slicesToCreate slicesToUpdate : List EndpointSlice) :
    List EndpointSlice → Changes
  | [] => ⟨slicesToCreate, slicesToUpdate, []⟩
  | sliceToDelete :: slicesToDelete =>
    match slicesToCreate.getLast? with
    | none => ⟨slicesToCreate, slicesToUpdate, sliceToDelete :: slicesToDelete⟩
    | some slice =>
      if sliceToDelete.addressType = slice.addressType ∧ ownedBy sliceToDelete service then
        recycleSlices service slicesToCreate.dropLast
          (slicesToUpdate ++ [{ slice with name := sliceToDelete.name }]) slicesToDelete
      else
        let changes := recycleSlices service slicesToCreate slicesToUpdate slicesToDelete
        { changes with toDelete := sliceToDelete :: changes.toDelete }

/-- Calls for one slice after the other, up to the first that fails. -/
def callEach (call : ApiServer → EndpointSlice → ApiServer × Option ApiError) :
    ApiServer → List EndpointSlice → ApiServer × Option (EndpointSlice × ApiError)
  | server, [] => (server, none)
  | server, slice :: slices =>
    match call server slice with
    | (server, none) => callEach call server slices
    | (server, some e) => (server, some (slice, e))

/-- `finalize`. -/
def finalize (api : Api) (service : Service) (changes : Changes) (triggerTime : Option String)
    (server : ApiServer) : ApiServer × Option Error :=
  let of := " EndpointSlice for Service " ++ service.ns ++ "/" ++ service.name ++ ": "
  let changes := recycleSlices service changes.toCreate changes.toUpdate changes.toDelete
  let slicesToCreate := if service.deletionTimestamp.isNone then changes.toCreate else []
  match callEach (fun server slice => server.create api <| addTriggerTimeAnnotation slice triggerTime)
      server slicesToCreate with
  | (server, some (_, e)) =>
    (server, if e.namespaceTerminating then none else some ("failed to create" ++ of ++ e.message))
  | (server, none) =>
    match callEach
        (fun server slice => server.update api <| addTriggerTimeAnnotation slice triggerTime)
        server changes.toUpdate with
    | (server, some (slice, e)) =>
      (server, some ("failed to update " ++ slice.name ++ of ++ e.message))
    | (server, none) =>
      match callEach (fun server slice => server.delete api slice.name) server changes.toDelete with
      | (server, some (slice, e)) =>
        (server, some ("failed to delete " ++ slice.name ++ of ++ e.message))
      | (server, none) => (server, none)

namespace Reconciler

variable (r : Reconciler) (api : Api)

/-- `reconcileByAddressType`, with all its errors. -/
def reconcileByAddressType (o : TypeOrders r.hasher) (service : Service) (pods : List Pod)
    (existingSlices : List EndpointSlice) (triggerTime : Option String) (addressType : AddressType)
    (server : ApiServer) : ApiServer × List Error :=
  match pods.foldlM (r.addPod service addressType) (∅, []) with
  | .error e => (server, [e])
  | .ok (desiredByPortMap, errs) =>
    let existingSlices := existingSlices.map (r.sortInPlace service desiredByPortMap)
    let changes := r.withPlaceholder service addressType existingSlices.length
      (r.changesByPortMap service o existingSlices desiredByPortMap)
    let changes := RemoveHintsFromSlices changes
      (unchangedSlices existingSlices changes.toUpdate changes.toDelete)
    let (server, err) := finalize api service changes triggerTime server
    (server, errs ++ err.toList)

/-- `getAddressTypesForService`. -/
def getAddressTypesForService (service : Service) : List AddressType :=
  let supported := service.ipFamilies.foldl (fun supported family =>
    match family with
    | IPFamily.ipv4 => supported.insert AddressType.ipv4
    | IPFamily.ipv6 => supported.insert AddressType.ipv6) []
  if supported.length > 0 then supported
  else if service.clusterIP.length > 0 ∧ service.clusterIP ≠ ClusterIPNone then
    [if r.isIPv6String service.clusterIP then .ipv6 else .ipv4]
  else [.ipv4, .ipv6]

/-- The orders of the loops of `Reconcile`. -/
structure Orders (h : Hasher) where
  addressTypes : RangeOrder AddressType
  ofType : AddressType → TypeOrders h

/-- The loop of `Reconcile` over the supported address types. -/
def reconcileNext (o : Orders r.hasher) (service : Service) (pods : List Pod)
    (existingSlices : List EndpointSlice) (triggerTime : Option String)
    (acc : ApiServer × List Error) (addressType : AddressType) : ApiServer × List Error :=
  let (server, errs) := r.reconcileByAddressType api (o.ofType addressType) service pods
    (existingSlices.filter (·.addressType = addressType)) triggerTime addressType acc.1
  (server, acc.2 ++ errs)

/-- The loop of `Reconcile` over the slices of other address types. -/
def deleteNext (service : Service) (acc : ApiServer × List Error) (slice : EndpointSlice) :
    ApiServer × List Error :=
  match acc.1.delete api slice.name with
  | (server, none) => (server, acc.2)
  | (server, some e) => (server, acc.2 ++ ["error deleting " ++ slice.name ++
      " EndpointSlice for Service " ++ service.ns ++ "/" ++ service.name ++ ": " ++ e.message])

/-- `Reconcile`, with all its errors. -/
def Reconcile (o : Orders r.hasher) (service : Service) (pods : List Pod)
    (existingSlices : List EndpointSlice) (triggerTime : Option String) (server : ApiServer) :
    ApiServer × List Error :=
  let supported := r.getAddressTypesForService service
  let slicesToDelete := existingSlices.filter (·.addressType ∉ supported)
  slicesToDelete.foldl (deleteNext api service)
    ((o.addressTypes.visit supported).foldl
      (r.reconcileNext api o service pods existingSlices triggerTime) (server, []))

end Reconciler

end Fleetboard.EndpointSlices
