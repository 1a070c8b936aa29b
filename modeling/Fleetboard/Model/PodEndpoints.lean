import Fleetboard.Model.EndpointSliceCache
import Fleetboard.Model.Pods

/-!
# Endpoints of pods (`pkg/controller/endpointslice/utils.go`, `util/controller_utils.go`)

What a pod contributes to the slices of a service: whether it is in them at all
(`ShouldPodBeInEndpoints`), for which ports (`getEndpointPorts`), and as which endpoint
(`podToEndpoint`), whose address is not one of the pod's own but the one of an annotation.

`GetServicesToUpdateOnPodChange` decides from two versions of a pod which services are
synced. Keys of services are texts, as the queue has them.
-/

namespace Fleetboard.EndpointSlices

open Fleetboard.Proxy (IPFamily)

/-! ## Pods, services and endpoints -/

structure ContainerPort where
  name : String
  protocol : Protocol
  containerPort : Int
  deriving DecidableEq, Repr

inductive ConditionStatus
  | true | false | unknown
  deriving DecidableEq, Repr

structure PodCondition where
  type : String
  status : ConditionStatus
  deriving DecidableEq, Repr

/-- The fields of a pod that the controller reads. The time of deletion is a pointer, and
compared as one. -/
structure Pod where
  ns : String
  name : String
  uid : String
  resourceVersion : String
  labels : GoMap String String
  annotations : GoMap String String
  deletionTimestamp : Option Nat
  nodeName : String
  hostname : String
  subdomain : String
  containers : List (List ContainerPort)
  phase : PodPhase
  conditions : List PodCondition
  podIP : String
  podIPs : List String

structure Node where
  labels : GoMap String String

inductive IntOrString
  | int (n : Int)
  | str (s : String)
  deriving DecidableEq, Repr

structure ServicePort where
  name : String
  protocol : Protocol
  targetPort : IntOrString
  appProtocol : Option String
  deriving DecidableEq, Repr

/-- The fields of a service that the controller reads. -/
structure Service where
  ns : String
  name : String
  uid : String
  labels : GoMap String String
  deletionTimestamp : Option Nat
  selector : Option (GoMap String String)
  publishNotReadyAddresses : Bool
  clusterIP : String
  ipFamilies : List IPFamily
  ports : List ServicePort

structure ObjectReference where
  kind : String
  ns : String
  name : String
  uid : String
  resourceVersion : String
  deriving DecidableEq, Repr

/-- `discovery.Endpoint`. -/
structure Endpoint where
  addresses : List String
  ready : Option Bool
  serving : Option Bool
  terminating : Option Bool
  hostname : Option String
  targetRef : Option ObjectReference
  nodeName : Option String
  zone : Option String
  hints : Option (List String)
  deriving DecidableEq, Repr

def FleetboardParallelIP := "router.fleetboard.io/parallel_ip"

def ClusterIPNone := "None"

def PodReady := "Ready"

/-- `v1.LabelTopologyZone`. -/
def NodeTopologyZone := "topology.kubernetes.io/zone"

/-! ## What a pod contributes -/

/-- `IsPodReady`: the first condition of the type decides. -/
def IsPodReady (pod : Pod) : Bool :=
  match pod.conditions.find? (·.type = PodReady) with
  | none => false
  | some condition => condition.status = .true

/-- `isPodTerminal`. -/
def isPodTerminal (pod : Pod) : Bool := pod.phase = .failed ∨ pod.phase = .succeeded

/-- `ShouldPodBeInEndpoints`. -/
def ShouldPodBeInEndpoints (pod : Pod) (includeTerminating : Bool) : Bool :=
  if isPodTerminal pod then false
  else if pod.podIP = "" ∧ pod.podIPs = [] then false
  else if !includeTerminating ∧ pod.deletionTimestamp.isSome then false
  else true

/-- `ShouldSetHostname`. -/
def ShouldSetHostname (pod : Pod) (svc : Service) : Bool :=
  pod.hostname ≠ "" ∧ pod.subdomain = svc.name ∧ svc.ns = pod.ns

/-- `GetDedicatedCNIIP`, the text of the address; `parseIP` is `net.ParseIP` and the text of
its result, also of nil. -/
def GetDedicatedCNIIP (parseIP : String → String) (pod : Pod) : Except Error String :=
  match pod.annotations.lookup FleetboardParallelIP with
  | some val => if val ≠ "" then .ok (parseIP val) else .error "there is no dedicated ip"
  | none => .error "there is no dedicated ip"

/-- `getEndpointAddresses`. -/
def getEndpointAddresses (parseIP : String → String) (pod : Pod) : List String :=
  match GetDedicatedCNIIP parseIP pod with
  | .error _ => []
  | .ok ip => [ip]

/-- `podToEndpoint`. -/
def podToEndpoint (parseIP : String → String) (pod : Pod) (node : Option Node)
    (service : Service) : Endpoint :=
  let serving := IsPodReady pod
  let terminating := pod.deletionTimestamp.isSome
  let ready := service.publishNotReadyAddresses || (serving && !terminating)
  let zone := (node.bind fun node => node.labels.lookup NodeTopologyZone).getD ""
  { addresses := getEndpointAddresses parseIP pod
    ready := some ready
    serving := some serving
    terminating := some terminating
    hostname := if ShouldSetHostname pod service then some pod.hostname else none
    targetRef := some ⟨"Pod", pod.ns, pod.name, pod.uid, ""⟩
    nodeName := if pod.nodeName ≠ "" then some pod.nodeName else none
    zone := if zone ≠ "" then some zone else none
    hints := none }

/-- `findPort`. -/
def findPort (pod : Pod) (svcPort : ServicePort) : Except Error Int :=
  match svcPort.targetPort with
  | .int n => .ok n
  | .str name =>
    match pod.containers.flatten.find? fun port =>
        port.name = name ∧ port.protocol = svcPort.protocol with
    | some port => .ok port.containerPort
    | none => .error ("no suitable port for manifest: " ++ pod.uid)

/-- `getEndpointPorts`. -/
def getEndpointPorts (service : Service) (pod : Pod) : List EndpointPort :=
  if service.ports = [] ∧ service.clusterIP = ClusterIPNone then []
  else service.ports.filterMap fun servicePort =>
    match findPort pod servicePort with
    | .error _ => none
    | .ok portNum =>
      some ⟨some servicePort.name, some servicePort.protocol, some portNum, servicePort.appProtocol⟩

/-! ## Changes of pods -/

/-- `cache.DeletionHandlingMetaNamespaceKeyFunc` of a service. -/
def serviceKey (service : Service) : String :=
  if service.ns = "" then service.name else service.ns ++ "/" ++ service.name

/-- The labels have all that the selector has. -/
def selectorMatches (selector labels : GoMap String String) : Bool :=
  selector.entries.all fun e => labels.lookup e.1 = some e.2

/-- The services of a namespace, or why they cannot be listed. -/
abbrev ServiceLister := String → Except Error (List Service)

/-- `GetPodServiceMemberships`. -/
def GetPodServiceMemberships (serviceLister : ServiceLister) (pod : Pod) :
    Finset String × Option Error :=
  match serviceLister pod.ns with
  | .error e => (∅, some e)
  | .ok services =>
    let matching := services.filter fun service =>
      match service.selector with
      | none => false
      | some selector => selectorMatches selector pod.labels
    ((matching.map serviceKey).toFinset, none)

/-- `hostNameAndDomainAreEqual`. -/
def hostNameAndDomainAreEqual (pod1 pod2 : Pod) : Bool :=
  pod1.hostname = pod2.hostname ∧ pod1.subdomain = pod2.subdomain

/-- `podEndpointsChanged`: whether the endpoints may have changed, and whether the matching
services may. -/
def podEndpointsChanged (oldPod newPod : Pod) : Bool × Bool :=
  let labelsChanged : Bool :=
    !GoMap.deepEqual newPod.labels oldPod.labels || !hostNameAndDomainAreEqual newPod oldPod
  if newPod.deletionTimestamp ≠ oldPod.deletionTimestamp then (true, labelsChanged)
  else if IsPodReady oldPod ≠ IsPodReady newPod then (true, labelsChanged)
  else if oldPod.podIPs.length ≠ newPod.podIPs.length then (true, labelsChanged)
  else if (oldPod.podIPs.zip newPod.podIPs).any fun ips => ips.1 ≠ ips.2 then (true, labelsChanged)
  else (false, labelsChanged)

/-- `determineNeededServiceUpdates`. -/
def determineNeededServiceUpdates (oldServices services : Finset String) (podChanged : Bool) :
    Finset String :=
  if podChanged then services ∪ oldServices
  else (services \ oldServices) ∪ (oldServices \ services)

/-- `GetServicesToUpdateOnPodChange`. -/
def GetServicesToUpdateOnPodChange (serviceLister : ServiceLister) (oldPod newPod : Pod) :
    Finset String :=
  if newPod.resourceVersion = oldPod.resourceVersion then ∅
  else
    let (podChanged, labelsChanged) := podEndpointsChanged oldPod newPod
    if !podChanged && !labelsChanged then ∅
    else
      match GetPodServiceMemberships serviceLister newPod with
      | (_, some _) => ∅
      | (services, none) =>
        if labelsChanged then
          let oldServices := (GetPodServiceMemberships serviceLister oldPod).1
          determineNeededServiceUpdates oldServices services podChanged
        else services

end Fleetboard.EndpointSlices
