import Fleetboard.Model.EndpointSliceCache

/-!
# The proxy's view of a service import (`pkg/proxy/service_import.go`)

A service import becomes one service port for each of its ports, keyed by the
position of the port in the import. The changes of the imports are collected, and
`ServicePortMap.Update` brings the map of all service ports up to date.
-/

namespace Fleetboard.Proxy

/-- `v1alpha1.ServicePort` of a service import. -/
structure ImportPort where
  name : String
  protocol : Protocol
  port : Int
  deriving DecidableEq, Repr

/-- The parts of a service import that the proxy reads. -/
structure ImportSpec where
  ns : String
  name : String
  ips : List String
  ports : List ImportPort

/-- `BaseServicePortInfo`, with the name of the port that `newServiceInfo` keeps
beside it. -/
structure ServicePortInfo where
  clusterIP : IPText
  port : Int
  protocol : Protocol
  nodePort : Int
  portName : String
  deriving DecidableEq, Repr

/-- `ServicePortMap`. -/
abbrev ServicePortMap := GoMap ServicePortName ServicePortInfo

/-- `newBaseServiceInfo` and `newServiceInfo`, for one port. -/
def newServiceInfo (cfg : Config) (clusterIP : String) (p : ImportPort) : ServicePortInfo :=
  ⟨cfg.parseIPSloppy clusterIP, p.port, p.protocol, 0, p.name⟩

/-- `serviceImportToServiceMap`. -/
def serviceImportToServiceMap (cfg : Config) (serviceImport : Option ImportSpec) :
    Option ServicePortMap :=
  match serviceImport with
  | none => none
  | some si =>
    match si.ips with
    | [] => none
    | clusterIP :: _ =>
      if clusterIP = "" then none
      else
        some (si.ports.zipIdx.foldl (fun m p =>
          m.insert ⟨⟨si.ns, si.name⟩, toString p.2, p.1.protocol⟩
            (newServiceInfo cfg clusterIP p.1)) ∅)

/-! ## Changes -/

/-- `serviceImportChange`; a map is nil without an import or an address. -/
structure ServiceImportChange where
  previous : Option ServicePortMap
  current : Option ServicePortMap

/-- The items of a `ServiceImportChangeTracker`. -/
abbrev ServiceImportChangeTracker := GoMap NamespacedName ServiceImportChange

/-- `reflect.DeepEqual` of two maps, of which a nil one equals only a nil one. -/
def deepEqual : Option ServicePortMap → Option ServicePortMap → Bool
  | none, none => true
  | some m, some m' => GoMap.deepEqual m m'
  | _, _ => false

/-- `ServiceImportChangeTracker.Update`. -/
def ServiceImportChangeTracker.Update (cfg : Config) (items : ServiceImportChangeTracker)
    (previous current : Option ImportSpec) : ServiceImportChangeTracker × Bool :=
  match current.or previous with
  | none => (items, false)
  | some svc =>
    let namespacedName : NamespacedName := ⟨svc.ns, svc.name⟩
    let change := (items.lookup namespacedName).getD ⟨serviceImportToServiceMap cfg previous, none⟩
    let change := { change with current := serviceImportToServiceMap cfg current }
    let items :=
      if deepEqual change.previous change.current then items.erase namespacedName
      else items.insert namespacedName change
    (items, items.entries ≠ [])

namespace ServicePortMap

/-- `ServicePortMap.merge`. -/
def merge (spm other : ServicePortMap) : ServicePortMap := GoMap.merge spm other

/-- `ServicePortMap.filter`. -/
def filter (spm other : ServicePortMap) : ServicePortMap :=
  (spm.entries.keys.filter fun k => (other.lookup k).isSome).foldl (fun m k => m.erase k) spm

/-- One iteration of `unmerge`. -/
def unmergePort (st : ServicePortMap × Finset String) (svcPortName : ServicePortName) :
    ServicePortMap × Finset String :=
  match st.1.lookup svcPortName with
  | none => st
  | some info =>
    (st.1.erase svcPortName, if info.protocol = .udp then insert info.clusterIP.text st.2 else st.2)

/-- `ServicePortMap.unmerge`, with the set of deleted UDP cluster IPs. -/
def unmerge (spm other : ServicePortMap) (deletedUDPClusterIPs : Finset String) :
    ServicePortMap × Finset String :=
  other.entries.keys.foldl unmergePort (spm, deletedUDPClusterIPs)

end ServicePortMap

/-- `UpdateServiceMapResult`. -/
structure UpdateServiceMapResult where
  updatedServices : Finset NamespacedName
  deletedUDPClusterIPs : Finset String

/-- One iteration of `ServicePortMap.Update`. -/
def applyChange (st : ServicePortMap × UpdateServiceMapResult)
    (e : (_ : NamespacedName) × ServiceImportChange) : ServicePortMap × UpdateServiceMapResult :=
  let current := e.2.current.getD ∅
  let previous := (e.2.previous.getD ∅).filter current
  let (spm, deleted) := (st.1.merge current).unmerge previous st.2.deletedUDPClusterIPs
  (spm, ⟨insert e.1 st.2.updatedServices, deleted⟩)

/-- `ServicePortMap.Update`, with the order of its loop; no `processServiceMapChange` is
set. -/
def ServicePortMap.Update (spm : ServicePortMap) (items : ServiceImportChangeTracker)
    (order : RangeOrder ((_ : NamespacedName) × ServiceImportChange)) :
    ServicePortMap × ServiceImportChangeTracker × UpdateServiceMapResult :=
  let (spm, result) := (order.visit items.entries).foldl applyChange (spm, ⟨∅, ∅⟩)
  (spm, ∅, result)

end Fleetboard.Proxy
