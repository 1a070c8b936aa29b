import Fleetboard.Model.SliceUtil

/-!
# The service export controller (`pkg/controller/mcs/serviceexport_controller.go`)

A cluster exports a service by copying its endpoint slices into the shared
namespace of the hub, under a name made of the cluster, the namespace and the
slice's name, with labels by which it finds its copies again.

The hub's slices are those of the shared namespace, by name. Informers and logs
are left out.
-/

namespace Fleetboard.Mcs

/-- `v1alpha1.ServiceExport`. -/
structure ServiceExport where
  ns : String
  name : String
  labels : GoMap String String
  finalizers : List String
  deletionTimestamp : Bool

/-- `constructEndpointSlice`. -/
def constructEndpointSlice (slice : EndpointSlice) (se : ServiceExport) (ns clusterID : String) :
    EndpointSlice where
  ns := ns
  name := hubName clusterID se.ns slice.name
  labels := (∅ : GoMap String String).insert Known.LabelServiceName se.name
    |>.insert Known.LabelClusterID clusterID
    |>.insert Known.LabelServiceNameSpace se.ns
    |>.insert Known.DiscoveryServiceName (DerivedName clusterID se.ns se.name)
    |>.insert Known.IsHeadlessKey ((se.labels.lookup Known.IsHeadlessKey).getD "")
  addressType := slice.addressType
  endpoints := slice.endpoints
  ports := slice.ports

/-- The controller with what it reads and changes: its listers, the cluster's
stored exports, and the hub's slices. `serviceLister` has the cluster IPs. -/
structure ServiceExportController where
  localClusterID : String
  operatorNamespace : String
  serviceExportLister : GoMap NamespacedName ServiceExport
  serviceLister : GoMap NamespacedName String
  endpointSlicesLister : List EndpointSlice
  exports : GoMap NamespacedName ServiceExport
  hub : GoMap String EndpointSlice

/-- The outcomes of the calls that one `Handle` makes, and the turns of its
goroutines. -/
structure ExportEnv where
  exportGetErr : Option Error
  serviceGetErr : Option Error
  addFinalizerErr : Option Error
  deleteCollectionErr : Option Error
  removeFinalizerErr : Option Error
  remove : RemoveEnv
  turns : List Nat
  applies : String → List SliceApplyEnv

/-- `ServiceExports(namespace).Update`: the stored object, or an error. An object
that is being deleted goes with its last finalizer. -/
def updateExport (exports : GoMap NamespacedName ServiceExport) (se : ServiceExport)
    (err : Option Error) : GoMap NamespacedName ServiceExport × Except Error ServiceExport :=
  match err, exports.lookup ⟨se.ns, se.name⟩ with
  | some e, _ => (exports, .error e)
  | none, none => (exports, .error "not found")
  | none, some stored =>
    let se := { se with deletionTimestamp := stored.deletionTimestamp }
    if se.deletionTimestamp ∧ se.finalizers = [] then (exports.erase ⟨se.ns, se.name⟩, .ok se)
    else (exports.insert ⟨se.ns, se.name⟩ se, .ok se)

namespace ServiceExportController

variable (createPatch : CreatePatch EndpointSlice)

/-- The end of `Handle` for an export that is not terminating. -/
def syncSlices (c : ServiceExportController) (se : ServiceExport) (env : ExportEnv) :
    ServiceExportController × HandleResult :=
  match RemoveNonexistentEndpointslice c.endpointSlicesLister c.localClusterID se.ns
      [(Known.DiscoveryServiceName, se.name), (Known.DiscoveryManagedBy, Known.LabelValueManagedBy)]
      c.hub [(Known.DiscoveryServiceName, DerivedName c.localClusterID se.ns se.name)] true
      env.remove with
  | (hub, .error e) => ({ c with hub := hub }, .retrySecond (some e))
  | (hub, .ok endpointSliceList) =>
    let newSlices := endpointSliceList.map fun slice =>
      constructEndpointSlice slice se c.operatorNamespace c.localClusterID
    let r := applySlices createPatch newSlices env.applies hub env.turns
    let c := { c with hub := r.slices }
    if r.allErrs = [] then (c, .done) else (c, .retrySecond r.err)

/-- `Handle`, for the export of that key. -/
def Handle (c : ServiceExportController) (key : NamespacedName) (env : ExportEnv) :
    ServiceExportController × HandleResult :=
  match env.exportGetErr, c.serviceExportLister.lookup key with
  | some e, _ => (c, ⟨none, some e⟩)
  | none, none => (c, .done)
  | none, some cachedSe =>
    match env.serviceGetErr, c.serviceLister.lookup key with
    | some e, _ => (c, ⟨none, some e⟩)
    | none, none => (c, .done)
    | none, some clusterIP =>
      let isHeadless := if clusterIP = "None" then "true" else "false"
      -- The lister's object of a key has its namespace and its name.
      let se := { cachedSe with
        ns := key.ns
        name := key.name
        labels := cachedSe.labels.insert Known.IsHeadlessKey isHeadless }
      if se.deletionTimestamp then
        match env.deleteCollectionErr with
        | some e => (c, .retrySecond (some e))
        | none =>
          let selector :=
            [(Known.DiscoveryServiceName, DerivedName c.localClusterID key.ns key.name)]
          let deleted := (c.hub.entries.filter fun e => matchesLabels selector e.2.labels).map (·.1)
          let c := { c with hub := deleted.foldl (fun hub name => hub.erase name) c.hub }
          let se := { se with finalizers := se.finalizers.filter (· ≠ Known.AppFinalizer) }
          match updateExport c.exports se env.removeFinalizerErr with
          | (exports, .error e) => ({ c with exports := exports }, .retrySecond (some e))
          | (exports, .ok _) => ({ c with exports := exports }, .done)
      else if Known.AppFinalizer ∈ se.finalizers then syncSlices createPatch c se env
      else
        let se := { se with finalizers := se.finalizers ++ [Known.AppFinalizer] }
        match updateExport c.exports se env.addFinalizerErr with
        | (exports, .error e) => ({ c with exports := exports }, .retrySecond (some e))
        | (exports, .ok se) => syncSlices createPatch { c with exports := exports } se env

end ServiceExportController

end Fleetboard.Mcs
