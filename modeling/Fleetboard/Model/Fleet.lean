import Fleetboard.Model.ServiceExport
import Fleetboard.Model.ServiceImport

/-!
# The fleet (`pkg/controller/syncer/agent.go`)

Every cluster of the fleet runs a `Syncer`: an export controller that copies slices of the
cluster into the shared namespace of the hub, and an import controller that copies slices of
that namespace into the cluster. The controllers read through informers, whose caches follow
the hub and the cluster with a delay.

A step is a `Handle` of one controller, with the outcomes of its calls, an informer's cache
that takes over an object or all of them, or a change of the cluster from outside.
-/

namespace Fleetboard.Mcs

/-- The hub's shared namespace, and the controllers of each cluster. The hub of an export
controller is the shared one (`Fleet.exporterOf`). -/
structure Fleet (ι : Type*) where
  hub : GoMap String EndpointSlice
  exporter : ι → ServiceExportController
  importer : ι → ServiceImportController

/-- What may happen in the fleet. The results of a `Handle` are part of the event. -/
inductive FleetEvent (ι : Type*)
  | handleExport (i : ι) (key : NamespacedName) (env : ExportEnv) (result : HandleResult)
  | handleImport (i : ι) (key : NamespacedName) (env : ImportEnv) (result : HandleResult)
  /-- The import controller's cache takes over the hub's slice of that name. -/
  | watchHub (i : ι) (name : String)
  /-- The import controller's cache takes over all slices of the hub. -/
  | relistHub (i : ι) (order : RangeOrder EndpointSlice)
  /-- The export controller's cache takes over a slice of the cluster. -/
  | watchSlice (i : ι) (slot : NamespacedName)
  /-- A slice of the cluster is created, changed or deleted. -/
  | changeSlice (i : ι) (slot : NamespacedName) (slice : Option EndpointSlice)
  /-- Exports and services of the cluster change, with the caches of them. -/
  | changeExports (i : ι) (serviceExportLister : GoMap NamespacedName ServiceExport)
    (serviceLister : GoMap NamespacedName String) (exports : GoMap NamespacedName ServiceExport)
  /-- Imports of the cluster change, with the cache of them. -/
  | changeImports (i : ι) (localSILister : GoMap NamespacedName ServiceImport)
    (imports : GoMap NamespacedName ServiceImport) (version : Nat)

/-- The namespace and the name of a slice. -/
def slotOf (slice : EndpointSlice) : NamespacedName := ⟨slice.ns, slice.name⟩

/-- A cache takes over one object, or that it is gone. -/
def takeOver (lister : List EndpointSlice) (slot : NamespacedName) (slice : Option EndpointSlice) :
    List EndpointSlice :=
  lister.filter (fun es => slotOf es ≠ slot) ++ slice.toList

/-- A map with one entry stored or deleted. -/
def putSlice (slices : GoMap String EndpointSlice) (name : String) (slice : Option EndpointSlice) :
    GoMap String EndpointSlice :=
  match slice with
  | none => slices.erase name
  | some es => slices.insert name es

namespace Fleet

variable {ι : Type*} [DecidableEq ι]

/-- The export controller of a cluster, on the fleet's hub. -/
def exporterOf (f : Fleet ι) (i : ι) : ServiceExportController := { f.exporter i with hub := f.hub }

/-- The fleet with another export controller of a cluster; what it has as the hub is the
fleet's. -/
def setExporter (f : Fleet ι) (i : ι) (c : ServiceExportController) : Fleet ι :=
  { f with hub := c.hub, exporter := Function.update f.exporter i c }

def setImporter (f : Fleet ι) (i : ι) (c : ServiceImportController) : Fleet ι :=
  { f with importer := Function.update f.importer i c }

theorem exporter_setExporter (f : Fleet ι) (i i' : ι) (c : ServiceExportController) :
    (f.setExporter i c).exporter i' = if i' = i then c else f.exporter i' :=
  Function.update_apply f.exporter i c i'

theorem importer_setImporter (f : Fleet ι) (i i' : ι) (c : ServiceImportController) :
    (f.setImporter i c).importer i' = if i' = i then c else f.importer i' :=
  Function.update_apply f.importer i c i'

variable (createPatch : CreatePatch EndpointSlice)

/-- A step of the fleet. -/
inductive Step : Fleet ι → FleetEvent ι → Fleet ι → Prop
  | handleExport {f : Fleet ι} {i : ι} {key : NamespacedName} {env : ExportEnv}
      {c : ServiceExportController} {result : HandleResult}
      (handle : (f.exporterOf i).Handle createPatch key env = (c, result)) :
      Step f (.handleExport i key env result) (f.setExporter i c)
  | handleImport {f : Fleet ι} {i : ι} {key : NamespacedName} {env : ImportEnv}
      {c : ServiceImportController} {result : HandleResult}
      (handle : (f.importer i).Handle createPatch key env = .ok (c, result)) :
      Step f (.handleImport i key env result) (f.setImporter i c)
  | watchHub (f : Fleet ι) (i : ι) (name : String) :
      Step f (.watchHub i name) (f.setImporter i
        { f.importer i with
          sourceEndpointSlicesLister := takeOver (f.importer i).sourceEndpointSlicesLister
            ⟨(f.importer i).operatorNamespace, name⟩ (f.hub.lookup name) })
  | relistHub (f : Fleet ι) (i : ι) (order : RangeOrder EndpointSlice) :
      Step f (.relistHub i order) (f.setImporter i
        { f.importer i with sourceEndpointSlicesLister := order.visit (GoMap.values f.hub) })
  | watchSlice (f : Fleet ι) (i : ι) (slot : NamespacedName) :
      Step f (.watchSlice i slot) (f.setExporter i
        { f.exporterOf i with
          endpointSlicesLister := takeOver (f.exporter i).endpointSlicesLister slot
            (((f.importer i).slices slot.ns).lookup slot.name) })
  | changeSlice (f : Fleet ι) (i : ι) (slot : NamespacedName) (slice : Option EndpointSlice) :
      Step f (.changeSlice i slot slice) (f.setImporter i
        { f.importer i with
          slices := Function.update (f.importer i).slices slot.ns
            (putSlice ((f.importer i).slices slot.ns) slot.name slice) })
  | changeExports (f : Fleet ι) (i : ι) (serviceExportLister : GoMap NamespacedName ServiceExport)
      (serviceLister : GoMap NamespacedName String) (exports : GoMap NamespacedName ServiceExport) :
      Step f (.changeExports i serviceExportLister serviceLister exports) (f.setExporter i
        { f.exporterOf i with
          serviceExportLister := serviceExportLister
          serviceLister := serviceLister
          exports := exports })
  | changeImports (f : Fleet ι) (i : ι) (localSILister imports : GoMap NamespacedName ServiceImport)
      (version : Nat) :
      Step f (.changeImports i localSILister imports version) (f.setImporter i
        { f.importer i with
          localSILister := localSILister
          imports := imports
          version := version })

end Fleet

end Fleetboard.Mcs
