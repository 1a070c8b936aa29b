import Fleetboard.Framework.Tally
import Fleetboard.Model.PodEndpoints

/-!
# The controller of endpoint slices (`pkg/controller/endpointslice/endpointslice.go`)

Two informers keep the services and the pods of the cluster, and tell the controller's handlers of
each change some time later and in order. The handlers add services to a work queue, from which
workers take them: `syncService` looks up the service, lists the pods that it selects, and
reconciles the service's slices. What becomes of the slices is modelled with the reconciler; here
a reconciliation, which the check for a stale cache of slices belongs to, succeeds or fails, and
so does every read of a lister. The handlers of slices and of nodes are modelled with the tracker
and the topology cache; here they may add any service at any time.

Three fields are history: the pods that the handlers have been told of, what the last sync of a
service without an error has worked on, and the services whose last sync has failed for good.
-/

namespace Fleetboard.EndpointSlices

open GoMap

/-! ## The work queue -/

/-- A `workqueue.RateLimitingInterface`. Which of the keys to process comes first, and when a
delay ends, is left open. -/
structure SyncQueue where
  dirty : Finset String
  processing : Finset String
  waiting : Finset String
  requeues : GoMap String Nat

def maxRetries : Nat := 15

namespace SyncQueue

def Add (q : SyncQueue) (key : String) : SyncQueue := { q with dirty := insert key q.dirty }

/-- `AddAfter` for each of some keys. -/
def AddAfter (q : SyncQueue) (keys : Finset String) : SyncQueue :=
  { q with waiting := q.waiting ∪ keys }

/-- A delay is over. -/
def due (q : SyncQueue) (key : String) : SyncQueue :=
  { q with waiting := q.waiting.erase key, dirty := insert key q.dirty }

def AddRateLimited (q : SyncQueue) (key : String) : SyncQueue :=
  { q with waiting := insert key q.waiting, requeues := addTo q.requeues key 1 }

def Forget (q : SyncQueue) (key : String) : SyncQueue := { q with requeues := q.requeues.erase key }

/-- `Get`, when it returns the key. -/
def take (q : SyncQueue) (key : String) : SyncQueue :=
  { q with dirty := q.dirty.erase key, processing := insert key q.processing }

def Done (q : SyncQueue) (key : String) : SyncQueue :=
  { q with processing := q.processing.erase key }

/-- There is a retry left. -/
def retries (q : SyncQueue) (key : String) : Bool := num q.requeues key < maxRetries

/-- `handleErr`. -/
def handleErr (q : SyncQueue) (err : Bool) (key : String) : SyncQueue :=
  if err = false then q.Forget key
  else if q.retries key then q.AddRateLimited key
  else q.Forget key

end SyncQueue

/-! ## The controller -/

/-- A service of the informer's cache. -/
structure CachedService where
  service : Service
  externalName : Bool

/-- A notification of the informer of pods. -/
inductive PodEvent
  | added (pod : Pod)
  | updated (oldPod newPod : Pod)
  | deleted (pod : Pod)

/-- How far `syncService` has come. -/
inductive SyncStage
  | started
  | found (service : Option CachedService)
  | listed (service : CachedService) (pods : List Pod)

/-- What a sync has worked on. -/
structure Synced where
  service : Option CachedService
  pods : List Pod

structure SliceController where
  services : GoMap String CachedService
  pods : GoMap NamespacedName Pod
  serviceEvents : List String
  podEvents : List PodEvent
  queue : SyncQueue
  stages : GoMap String SyncStage
  delivered : GoMap NamespacedName Pod
  synced : GoMap String Synced
  dropped : Finset String

/-- An object of an informer's cache is set or removed. -/
def store {κ α : Type} [DecidableEq κ] (m : GoMap κ α) (key : κ) : Option α → GoMap κ α
  | none => m.erase key
  | some object => m.insert key object

/-- The key of a pod in the informer's cache. -/
def podKey (pod : Pod) : NamespacedName := ⟨pod.ns, pod.name⟩

/-- The change of a pod, as it is notified. -/
def podEvent : Option Pod → Option Pod → Option PodEvent
  | none, none => none
  | none, some pod => some (.added pod)
  | some oldPod, some newPod => some (.updated oldPod newPod)
  | some pod, none => some (.deleted pod)

namespace SliceController

variable (c : SliceController)

def start : SliceController := ⟨∅, ∅, [], [], ⟨∅, ∅, ∅, ∅⟩, ∅, ∅, ∅, ∅⟩

/-- `serviceLister.Services(ns).List`. -/
def serviceLister : ServiceLister := fun ns =>
  .ok ((c.services.values.map (·.service)).filter (·.ns = ns))

/-- The keys that `addPod` adds. -/
def addPod (pod : Pod) : Finset String :=
  match GetPodServiceMemberships c.serviceLister pod with
  | (_, some _) => ∅
  | (services, none) => services

/-- `addPod`, `updatePod` and `deletePod`: the keys that are added after the batch period. -/
def handlePod : PodEvent → Finset String
  | .added pod => c.addPod pod
  | .updated oldPod newPod => GetServicesToUpdateOnPodChange c.serviceLister oldPod newPod
  | .deleted pod => c.addPod pod

/-- The handlers have been told. -/
def deliver (delivered : GoMap NamespacedName Pod) : PodEvent → GoMap NamespacedName Pod
  | .added pod => delivered.insert (podKey pod) pod
  | .updated _ newPod => delivered.insert (podKey newPod) newPod
  | .deleted pod => delivered.erase (podKey pod)

/-- `podLister.Pods(service.Namespace).List(podLabelSelector)`. -/
def listPods (service : Service) (selector : GoMap String String) : List Pod :=
  c.pods.values.filter fun pod => pod.ns = service.ns ∧ selectorMatches selector pod.labels

/-- The selector of a service that gets slices: it is not an external name and has one. -/
def selectorOf (service : Option CachedService) : Option (GoMap String String) :=
  match service with
  | none => none
  | some service => if service.externalName then none else service.service.selector

end SliceController

inductive ControllerEvent
  | service (key : String) (service : Option CachedService)
  | pod (key : NamespacedName) (pod : Option Pod)
  | handleService
  | handlePod
  | handleSlice (key : String)
  | handleNode (key : String)
  | due (key : String)
  | get (key : String)
  | getService (key : String)
  | listPods (key : String)
  | finish (key : String)
  | fail (key : String)

open SliceController in
inductive SliceController.Step : SliceController → ControllerEvent → SliceController → Prop
  /-- The informer of services takes a change into its cache. -/
  | service {c : SliceController} (key : String) (service : Option CachedService)
      (keyed : ∀ s, service = some s → serviceKey s.service = key) :
      Step c (.service key service) { c with
        services := store c.services key service
        serviceEvents := c.serviceEvents ++ [key] }
  /-- The informer of pods takes a change into its cache. -/
  | pod {c : SliceController} (key : NamespacedName) (pod : Option Pod)
      (keyed : ∀ p, pod = some p → podKey p = key) :
      Step c (.pod key pod) { c with
        pods := store c.pods key pod
        podEvents := c.podEvents ++ (podEvent (c.pods.lookup key) pod).toList }
  /-- `onServiceUpdate`, `onServiceDelete`. -/
  | handleService {c : SliceController} {key : String} {rest : List String}
      (head : c.serviceEvents = key :: rest) :
      Step c .handleService { c with serviceEvents := rest, queue := c.queue.Add key }
  | handlePod {c : SliceController} {event : PodEvent} {rest : List PodEvent}
      (head : c.podEvents = event :: rest) :
      Step c .handlePod { c with
        podEvents := rest
        queue := c.queue.AddAfter (c.handlePod event)
        delivered := deliver c.delivered event }
  /-- `queueServiceForEndpointSlice`. -/
  | handleSlice {c : SliceController} (key : String) :
      Step c (.handleSlice key) { c with queue := c.queue.AddAfter {key} }
  /-- `checkNodeTopologyDistribution`, for one of its keys. -/
  | handleNode {c : SliceController} (key : String) :
      Step c (.handleNode key) { c with queue := c.queue.Add key }
  | due {c : SliceController} {key : String} (waiting : key ∈ c.queue.waiting) :
      Step c (.due key) { c with queue := c.queue.due key }
  /-- `processNextWorkItem` begins with a key. -/
  | get {c : SliceController} {key : String} (dirty : key ∈ c.queue.dirty)
      (processing : key ∉ c.queue.processing) :
      Step c (.get key) { c with
        queue := c.queue.take key
        stages := c.stages.insert key .started }
  | getService {c : SliceController} {key : String} (stage : c.stages.lookup key = some .started) :
      Step c (.getService key) { c with
        stages := c.stages.insert key (.found (c.services.lookup key)) }
  | listPods {c : SliceController} {key : String} {service : CachedService}
      {selector : GoMap String String}
      (stage : c.stages.lookup key = some (.found (some service)))
      (hselector : selectorOf (some service) = some selector) :
      Step c (.listPods key) { c with
        stages := c.stages.insert key (.listed service (c.listPods service.service selector)) }
  /-- The sync ends early: there is no service, or no slices are made for it. -/
  | skip {c : SliceController} {key : String} {service : Option CachedService}
      (stage : c.stages.lookup key = some (.found service)) (hselector : selectorOf service = none) :
      Step c (.finish key) { c with
        queue := (c.queue.handleErr false key).Done key
        stages := c.stages.erase key
        synced := c.synced.insert key ⟨service, []⟩
        dropped := c.dropped.erase key }
  /-- The sync ends with a reconciliation. -/
  | finish {c : SliceController} {key : String} {service : CachedService} {pods : List Pod}
      (stage : c.stages.lookup key = some (.listed service pods)) :
      Step c (.finish key) { c with
        queue := (c.queue.handleErr false key).Done key
        stages := c.stages.erase key
        synced := c.synced.insert key ⟨some service, pods⟩
        dropped := c.dropped.erase key }
  /-- A lister, the check for a stale cache or the reconciliation returns an error. -/
  | fail {c : SliceController} {key : String} {reached : SyncStage}
      (stage : c.stages.lookup key = some reached) :
      Step c (.fail key) { c with
        queue := (c.queue.handleErr true key).Done key
        stages := c.stages.erase key
        dropped := if c.queue.retries key then c.dropped else insert key c.dropped }

end Fleetboard.EndpointSlices
