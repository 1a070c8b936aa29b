import Fleetboard.Model.IPAM
import Fleetboard.Model.Pods
import Fleetboard.Model.SliceUtil

/-!
# The service import controller (`pkg/controller/mcs/serviceimport_controller.go`)

The controller gives a virtual IP to every service import that is not headless,
takes it back when the import is deleted, and copies the hub's endpoint slices of
the service into the import's namespace.

Two copies of the imports exist: `localSILister` is the informer's cache,
`imports` is what the API server stores. An update of a stored object is refused
when it comes from an older version of it. `utils/endpointslice.go` has what
rebuilds the pool of IPs when the controller starts.
-/

namespace Fleetboard.Mcs

inductive ServiceImportType
  | clusterSetIP | headless
  deriving DecidableEq, Repr

/-- `v1alpha1.ServiceImport`, as far as the controller reads it. -/
structure ServiceImport where
  type : ServiceImportType
  ips : List String
  finalizers : List String
  deletionTimestamp : Bool
  resourceVersion : Nat
  deriving DecidableEq, Repr

/-- `Spec.IPs[0]`, empty when there is none. -/
def ServiceImport.ip (si : ServiceImport) : String := si.ips.head?.getD ""

/-- The controller with what it reads and changes: the pool, its listers, the
stored imports with the version that the next write gets, and the local slices by
namespace. -/
structure ServiceImportController where
  operatorNamespace : String
  IPAM : IPAM
  localSILister : GoMap NamespacedName ServiceImport
  sourceEndpointSlicesLister : List EndpointSlice
  imports : GoMap NamespacedName ServiceImport
  version : Nat
  slices : String → GoMap String EndpointSlice

/-- The outcomes of the calls that one `Handle` makes, and the turns of its
goroutines. -/
structure ImportEnv where
  getErr : Option Error
  acquire : Except Error Net.Addr
  updateErr : Option Error
  deleteCollectionErr : Option Error
  remove : RemoveEnv
  turns : List Nat
  applies : String → List SliceApplyEnv

/-- `AddInitialInfoToServiceImport`: the pool, the changed object, whether it is
changed, and an error. -/
def AddInitialInfoToServiceImport (ipam : IPAM) (si : ServiceImport)
    (acquire : Except Error Net.Addr) : IPAM × ServiceImport × Bool × Option Error :=
  let hasFinalizer : Bool := Known.AppFinalizer ∈ si.finalizers
  let si := if hasFinalizer then si
    else { si with finalizers := si.finalizers ++ [Known.AppFinalizer] }
  match si.type with
  | .headless =>
    match si.ips with
    | [] => (ipam, si, !hasFinalizer, none)
    | _ :: ips => (ipam, { si with ips := "" :: ips }, true, none)
  | .clusterSetIP =>
    if si.ip = "" then
      match ipam.AllocateIP acquire with
      | (ipam, .error e) => (ipam, si, !hasFinalizer, some e)
      | (ipam, .ok ip) => (ipam, { si with ips := [ip] }, true, none)
    else (ipam, si, !hasFinalizer, none)

/-- `forkEndpointSlice`. -/
def forkEndpointSlice (slice : EndpointSlice) (ns : String) : EndpointSlice :=
  { slice with ns := ns, labels := slice.labels.erase Known.ObjectCreatedByLabel }

namespace ServiceImportController

/-- A write of the API server. An object that is being deleted goes with its last
finalizer. -/
def write (c : ServiceImportController) (key : NamespacedName) (si : ServiceImport) :
    ServiceImportController :=
  { c with
    imports := if si.deletionTimestamp ∧ si.finalizers = [] then c.imports.erase key
      else c.imports.insert key si
    version := c.version + 1 }

/-- `ServiceImports(namespace).Update`. -/
def update (c : ServiceImportController) (key : NamespacedName) (si : ServiceImport)
    (err : Option Error) : ServiceImportController × Except Error ServiceImport :=
  match err, c.imports.lookup key with
  | some e, _ => (c, .error e)
  | none, none => (c, .error ApiError.notFound.text)
  | none, some stored =>
    if stored.resourceVersion ≠ si.resourceVersion then (c, .error ApiError.conflict.text)
    else
      let si := { si with
        deletionTimestamp := stored.deletionTimestamp
        resourceVersion := c.version }
      (c.write key si, .ok si)

/-- The labels of the slices of an import. -/
def sliceLabels (key : NamespacedName) : List (String × String) :=
  [(Known.LabelServiceName, key.name), (Known.LabelServiceNameSpace, key.ns)]

/-- `DeleteCollection` of the local slices of an import. -/
def deleteSlices (c : ServiceImportController) (key : NamespacedName) : ServiceImportController :=
  let target := c.slices key.ns
  let deleted := (target.entries.filter fun e => matchesLabels (sliceLabels key) e.2.labels).map (·.1)
  { c with
    slices := Function.update c.slices key.ns (deleted.foldl (fun m name => m.erase name) target) }

/-- The virtual IP that `recycleServiceImport` releases, if any; there is a panic
when the list is empty. -/
def releasedIP (si : ServiceImport) : Go (Option String) :=
  match si.type with
  | .headless => pure none
  | .clusterSetIP => do
    let ip ← Go.index si.ips 0
    pure (if ip = "" then none else some ip)

/-- The end of `recycleServiceImport`. -/
def removeFinalizer (c : ServiceImportController) (key : NamespacedName) (si : ServiceImport)
    (updateErr : Option Error) : ServiceImportController × Option Error :=
  let si := { si with finalizers := si.finalizers.filter (· ≠ Known.AppFinalizer) }
  match c.update key si updateErr with
  | (c, .error e) => (c, some e)
  | (c, .ok _) => (c, none)

/-- `recycleServiceImport`. -/
def recycleServiceImport (c : ServiceImportController) (key : NamespacedName) (si : ServiceImport)
    (env : ImportEnv) : Go (ServiceImportController × Option Error) :=
  match env.deleteCollectionErr with
  | some e => pure (c, some e)
  | none => do
    let c := c.deleteSlices key
    match ← releasedIP si with
    | none => pure (c.removeFinalizer key si env.updateErr)
    | some ip =>
      match c.IPAM.ReleaseIP ip with
      | .error e => pure (c, some e)
      | .ok ipam => pure ({ c with IPAM := ipam }.removeFinalizer key si env.updateErr)

section

variable (createPatch : CreatePatch EndpointSlice)

/-- The end of `Handle`: the local copies of the hub's slices. -/
def syncSlices (c : ServiceImportController) (key : NamespacedName) (env : ImportEnv) :
    ServiceImportController × HandleResult :=
  match RemoveNonexistentEndpointslice c.sourceEndpointSlicesLister "" c.operatorNamespace
      (sliceLabels key) (c.slices key.ns) (sliceLabels key) false env.remove with
  | (target, .error e) =>
    ({ c with slices := Function.update c.slices key.ns target }, .retrySecond (some e))
  | (target, .ok endpointSliceList) =>
    let newSlices := endpointSliceList.map fun slice => forkEndpointSlice slice key.ns
    let r := applySlices createPatch newSlices env.applies target env.turns
    let c := { c with slices := Function.update c.slices key.ns r.slices }
    if r.allErrs = [] then (c, .done) else (c, .retrySecond r.err)

/-- `Handle`, for the import of that key. -/
def Handle (c : ServiceImportController) (key : NamespacedName) (env : ImportEnv) :
    Go (ServiceImportController × HandleResult) :=
  match env.getErr, c.localSILister.lookup key with
  | some e, _ => pure (c, ⟨none, some e⟩)
  | none, none => pure (c, .done)
  | none, some si =>
    if si.deletionTimestamp then do
      match ← c.recycleServiceImport key si env with
      | (c, some e) => pure (c, .retrySecond (some e))
      | (c, none) => pure (c, .done)
    else
      match AddInitialInfoToServiceImport c.IPAM si env.acquire with
      -- The error of the initialisation is not the one that is returned.
      | (ipam, _, _, some _) => pure ({ c with IPAM := ipam }, .retrySecond none)
      | (ipam, si, changed, none) =>
        let c := { c with IPAM := ipam }
        if changed then
          match c.update key si env.updateErr with
          | (c, .error e) => pure (c, .retrySecond (some e))
          | (c, .ok _) => pure (c.syncSlices createPatch key env)
        else pure (c.syncSlices createPatch key env)

end

end ServiceImportController

/-! ## The pool when the controller starts -/

/-- What `InitNewCIDR` finds: the errors of its calls, the CNF pods, the result of
`NewRandomServiceCIDR`, the order in which the API server lists the imports, and the library
of the pool. -/
structure InitEnv where
  listErr : Option Error
  podListErr : Option Error
  pods : GoMap String Pod
  randomCIDR : Except Error String
  listOrder : RangeOrder ServiceImport
  ipamer : Ipamer

/-- The virtual IPs of the stored imports, as `GetServiceCIDR` collects them. -/
def virtualServiceIPs (imports : GoMap NamespacedName ServiceImport)
    (order : RangeOrder ServiceImport) : List String :=
  (order.visit (GoMap.values imports)).filterMap fun si =>
    if si.type = .clusterSetIP ∧ si.ip ≠ "" then some si.ip else none

/-- `GetServiceCIDR`. -/
def GetServiceCIDR (imports : GoMap NamespacedName ServiceImport) (env : InitEnv) :
    Except Error (String × List String) :=
  match env.listErr with
  | some e => .error ("failed to list service import: " ++ e)
  | none =>
    match virtualServiceIPs imports env.listOrder with
    | ip :: ips =>
      match GetServiceCIDRFromIP ip with
      | .error e => .error ("failed to get service CIDR from IP: " ++ e)
      | .ok newCIDR => .ok (newCIDR, ip :: ips)
    | [] =>
      match GetServiceCIDRFromCNFPod env.pods env.podListErr with
      | .error e => .error ("failed to get service CIDR from cnf pod: " ++ e)
      | .ok newCIDR => .ok (newCIDR, [])

/-- `InitNewCIDR`: the pool of the new controller. -/
def InitNewCIDR (imports : GoMap NamespacedName ServiceImport) (env : InitEnv) :
    Except Error IPAM :=
  match GetServiceCIDR imports env with
  | .error e => .error ("failed to get service CIDR: " ++ e)
  | .ok (cidr, ips) =>
    let newCIDR : Except Error String :=
      if cidr ≠ "" then .ok cidr
      else
        match env.randomCIDR with
        | .error e => .error ("failed to new service CIDR: " ++ e)
        | .ok cidr => .ok cidr
    match newCIDR with
    | .error e => .error e
    | .ok newCIDR =>
      match InitPrefix newCIDR with
      | .error e => .error e
      | .ok ipam => ipam.InitializeExistingIPs env.ipamer ips

end Fleetboard.Mcs
