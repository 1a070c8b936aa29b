import Fleetboard.Model.PodEndpoints

/-!
# The tracker of endpoint slices (`pkg/controller/endpointslice/util/endpointslice_tracker.go`)

The tracker has, for each service, the generations that the controller's own calls have
returned for its slices. A service is synced only when the informer's cache has seen them
(`StaleSlices`), and slices whose deletion is pending are dropped before that is asked.

The handlers of the informer's events (`pkg/controller/endpointslice/endpointslice.go`) queue
the service of a slice, and take a deleted slice out of the tracker.
-/

namespace Fleetboard.EndpointSlices

abbrev UID := Nat

/-- The metadata of an endpoint slice. -/
structure SliceMeta where
  ns : String
  name : String
  uid : UID
  generation : Nat
  deletionTimestamp : Bool
  finalizers : List String
  labels : GoMap String String

/-! ## The tracker -/

def deletionExpected : Int := -1

abbrev GenerationsBySlice := GoMap UID Int

structure EndpointSliceTracker where
  generationsByService : GoMap NamespacedName GenerationsBySlice

/-- `getServiceNN`. -/
def getServiceNN (endpointSlice : SliceMeta) : NamespacedName :=
  ⟨endpointSlice.ns, (endpointSlice.labels.lookup Known.DiscoveryServiceName).getD ""⟩

namespace EndpointSliceTracker

/-- `GenerationsForSliceUnsafe`. -/
def GenerationsForSliceUnsafe (est : EndpointSliceTracker) (endpointSlice : SliceMeta) :
    Option GenerationsBySlice :=
  est.generationsByService.lookup (getServiceNN endpointSlice)

/-- The generation of the slice is set in the map of its service. -/
def set (est : EndpointSliceTracker) (endpointSlice : SliceMeta) (generation : Int) :
    EndpointSliceTracker :=
  let gfs := (est.GenerationsForSliceUnsafe endpointSlice).getD ∅
  ⟨est.generationsByService.insert (getServiceNN endpointSlice)
    (gfs.insert endpointSlice.uid generation)⟩

/-- `Has`. -/
def Has (est : EndpointSliceTracker) (endpointSlice : SliceMeta) : Bool :=
  match est.GenerationsForSliceUnsafe endpointSlice with
  | none => false
  | some gfs => (gfs.lookup endpointSlice.uid).isSome

/-- `ShouldSync`. -/
def ShouldSync (est : EndpointSliceTracker) (endpointSlice : SliceMeta) : Bool :=
  match est.GenerationsForSliceUnsafe endpointSlice with
  | none => true
  | some gfs =>
    match gfs.lookup endpointSlice.uid with
    | none => true
    | some g => (endpointSlice.generation : Int) > g

/-- `StaleSlices`. -/
def StaleSlices (est : EndpointSliceTracker) (service : NamespacedName)
    (endpointSlices : List SliceMeta) : Bool :=
  match est.generationsByService.lookup service with
  | none => false
  | some gfs =>
    (endpointSlices.any fun endpointSlice =>
      (gfs.lookup endpointSlice.uid).any fun g =>
        g = deletionExpected ∨ g > endpointSlice.generation) ||
    gfs.entries.any fun e => e.2 ≠ deletionExpected ∧ e.1 ∉ endpointSlices.map (·.uid)

/-- `Update`. -/
def Update (est : EndpointSliceTracker) (endpointSlice : SliceMeta) : EndpointSliceTracker :=
  est.set endpointSlice endpointSlice.generation

/-- `ExpectDeletion`. -/
def ExpectDeletion (est : EndpointSliceTracker) (endpointSlice : SliceMeta) :
    EndpointSliceTracker :=
  est.set endpointSlice deletionExpected

/-- `DeleteService`. -/
def DeleteService (est : EndpointSliceTracker) (service : NamespacedName) : EndpointSliceTracker :=
  ⟨est.generationsByService.erase service⟩

/-- `HandleDeletion`, with whether the deletion was expected. -/
def HandleDeletion (est : EndpointSliceTracker) (endpointSlice : SliceMeta) :
    EndpointSliceTracker × Bool :=
  match est.GenerationsForSliceUnsafe endpointSlice with
  | none => (est, true)
  | some gfs =>
    (⟨est.generationsByService.insert (getServiceNN endpointSlice)
        (gfs.erase endpointSlice.uid)⟩,
      match gfs.lookup endpointSlice.uid with
      | none => true
      | some g => g = deletionExpected)

end EndpointSliceTracker

/-! ## The controller -/

/-- `Controller`, with the keys that have been added to its queue. -/
structure Controller where
  endpointSliceTracker : EndpointSliceTracker
  managedByName : String
  queue : List String

/-- `ServiceControllerKey`. -/
def ServiceControllerKey (endpointSlice : SliceMeta) : Except Error String :=
  match endpointSlice.labels.lookup Known.DiscoveryServiceName with
  | none | some "" => .error ("EndpointSlice missing " ++ Known.DiscoveryServiceName ++ " label")
  | some serviceName => .ok (endpointSlice.ns ++ "/" ++ serviceName)

/-- `dropEndpointSlicesPendingDeletion`. -/
def dropEndpointSlicesPendingDeletion (endpointSlices : List SliceMeta) : List SliceMeta :=
  endpointSlices.filter fun endpointSlice => !endpointSlice.deletionTimestamp

namespace Controller

/-- `ManagedByController`. -/
def ManagedByController (c : Controller) (endpointSlice : SliceMeta) : Bool :=
  (endpointSlice.labels.lookup Known.DiscoveryManagedBy).getD "" = c.managedByName

/-- `ManagedByChanged`. -/
def ManagedByChanged (c : Controller) (endpointSlice1 endpointSlice2 : SliceMeta) : Bool :=
  c.ManagedByController endpointSlice1 ≠ c.ManagedByController endpointSlice2

/-- `queueServiceForEndpointSlice`. -/
def queueServiceForEndpointSlice (c : Controller) (endpointSlice : SliceMeta) : Controller :=
  match ServiceControllerKey endpointSlice with
  | .error _ => c
  | .ok key => { c with queue := c.queue ++ [key] }

/-- `onEndpointSliceAdd`. -/
def onEndpointSliceAdd (c : Controller) (endpointSlice : SliceMeta) : Controller :=
  if c.ManagedByController endpointSlice ∧ c.endpointSliceTracker.ShouldSync endpointSlice then
    c.queueServiceForEndpointSlice endpointSlice
  else c

/-- `onEndpointSliceUpdate`. -/
def onEndpointSliceUpdate (c : Controller) (prevEndpointSlice endpointSlice : SliceMeta) :
    Controller :=
  let svcName := (endpointSlice.labels.lookup Known.DiscoveryServiceName).getD ""
  let prevSvcName := (prevEndpointSlice.labels.lookup Known.DiscoveryServiceName).getD ""
  if svcName ≠ prevSvcName then
    (c.queueServiceForEndpointSlice endpointSlice).queueServiceForEndpointSlice prevEndpointSlice
  else if c.ManagedByChanged prevEndpointSlice endpointSlice ∨
      c.ManagedByController endpointSlice ∧ c.endpointSliceTracker.ShouldSync endpointSlice then
    c.queueServiceForEndpointSlice endpointSlice
  else c

/-- `onEndpointSliceDelete`. -/
def onEndpointSliceDelete (c : Controller) (endpointSlice : SliceMeta) : Controller :=
  if c.ManagedByController endpointSlice ∧ c.endpointSliceTracker.Has endpointSlice then
    let (endpointSliceTracker, expected) := c.endpointSliceTracker.HandleDeletion endpointSlice
    let c := { c with endpointSliceTracker := endpointSliceTracker }
    if expected then c else c.queueServiceForEndpointSlice endpointSlice
  else c

/-- The slices of the lister with the labels of the service and of the controller. -/
def listSlices (c : Controller) (service : NamespacedName) (lister : GoMap String SliceMeta) :
    List SliceMeta :=
  lister.values.filter fun endpointSlice =>
    endpointSlice.ns = service.ns ∧
      endpointSlice.labels.lookup Known.DiscoveryServiceName = some service.name ∧
      endpointSlice.labels.lookup Known.DiscoveryManagedBy = some c.managedByName

end Controller

end Fleetboard.EndpointSlices
