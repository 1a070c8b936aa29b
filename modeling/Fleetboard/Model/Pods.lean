import Fleetboard.Framework.GoMap
import Fleetboard.Model.Go

/-!
# Pods and their annotations (`utils/utils.go`, `utils/netutil.go`)

The CNF pods of a cluster carry what the controllers agree on in annotations.
A pod read from an informer's lister is a shared object: `SetSpecificAnnotations`
writes the annotations into it first and then patches the API server, so the
two are separate results here (`SetResult`), and a failed patch leaves the
object changed.
-/

namespace Fleetboard

inductive PodPhase
  | pending | running | succeeded | failed | unknown
  deriving DecidableEq, Repr

inductive RestartPolicy
  | always | onFailure | never
  deriving DecidableEq, Repr

/-- The fields of a pod that the controllers read. -/
structure Pod where
  ns : String
  name : String
  nodeName : String
  labels : GoMap String String
  annotations : GoMap String String
  deletionTimestamp : Bool
  phase : PodPhase
  reason : String
  restartPolicy : RestartPolicy
  podIPs : List String

namespace Known

def FleetboardTunnelCIDR := "fleetboard.io/tunnel_cidr"
def FleetboardNodeCIDR := "fleetboard.io/node_cidr"
def FleetboardServiceCIDR := "fleetboard.io/service_cidr"
def PublicKey := "fleetboard.io/public_key"
def LeaderCNFLabelKey := "router.fleetboard.io/leader"
def FleetboardSystemNamespace := "fleetboard-system"
def HubClusterName := "hub"
def UDPPort := 31820

end Known

/-- `strings.Split(s, ",")`. -/
def splitComma (s : String) : List String := (s.toList.splitOn ',').map String.ofList

/-- `isPodStatusPhaseAlive`. -/
def isPodStatusPhaseAlive (p : Pod) : Bool :=
  if p.phase = .succeeded ∧ p.restartPolicy ≠ .always then false
  else if p.phase = .failed ∧ p.restartPolicy = .never then false
  else if p.phase = .failed ∧ p.reason = "Evicted" then false
  else true

/-- `IsPodAlive`. -/
def IsPodAlive (p : Pod) : Bool := if p.deletionTimestamp then false else isPodStatusPhaseAlive p

/-- Whether the pod is labelled as the leader. -/
def Pod.carriesLeaderLabel (p : Pod) : Bool :=
  p.labels.lookup Known.LeaderCNFLabelKey = some "true"

/-- `GetEth0IP`. -/
def GetEth0IP (p : Pod) : String := (p.podIPs.find? (· ≠ "")).getD ""

/-- `GetSpecificAnnotation` of one key: its comma-separated values. -/
def GetSpecificAnnotation (p : Pod) (key : String) : List String :=
  match p.annotations.lookup key with
  | some v => splitComma v
  | none => []

/-- The annotations after `SetSpecificAnnotations` has written one pair. -/
def annotate (override : Bool) (annotations : GoMap String String) (kv : String × String) :
    GoMap String String :=
  match annotations.lookup kv.1 with
  | some existing =>
    if override then annotations.insert kv.1 kv.2
    else if kv.2 ∈ splitComma existing then annotations
    else annotations.insert kv.1 (existing ++ "," ++ kv.2)
  | none => annotations.insert kv.1 kv.2

/-- The merge patch between two versions of the annotations: the pairs that are
new. -/
def annotationPatch (old new : GoMap String String) : List ((_ : String) × String) :=
  new.entries.filter fun e => old.lookup e.1 ≠ some e.2

/-- A stored pod after a merge patch of its annotations. -/
def Pod.patch (p : Pod) (patch : List ((_ : String) × String)) : Pod :=
  { p with annotations := patch.foldl (fun m e => m.insert e.1 e.2) p.annotations }

/-- What `SetSpecificAnnotations` leaves: the object it was given, the API
server's pods, and its error. -/
structure SetResult where
  pod : Pod
  server : GoMap String Pod
  err : Option Error

/-- `SetSpecificAnnotations`. The error of a failed patch is wrapped in a text,
so `RetryOnConflict` sees no conflict in it and there is one attempt. -/
def SetSpecificAnnotations (server : GoMap String Pod) (pod : Pod) (kvs : List (String × String))
    (override : Bool) (patchErr : Option Error) : SetResult :=
  let pod' := { pod with annotations := kvs.foldl (annotate override) pod.annotations }
  match patchErr, server.lookup pod.name with
  | none, some stored =>
    let patch := annotationPatch pod.annotations pod'.annotations
    ⟨pod', server.insert pod.name (stored.patch patch), none⟩
  | some e, _ =>
    ⟨pod', server, some ("patch pod " ++ pod.ns ++ "/" ++ pod.name ++ " failed: " ++ e)⟩
  | none, none =>
    ⟨pod', server, some ("patch pod " ++ pod.ns ++ "/" ++ pod.name ++ " failed: not found")⟩

/-- The answer of the API server to a `Get` of one pod. -/
inductive GetPod
  | found (pod : Pod)
  | notFound
  | failed (err : Error)

/-- `AddAnnotationToSelf`, for a pod that has just been read. -/
def AddAnnotationToSelf (server : GoMap String Pod) (answer : GetPod) (ns podName : String)
    (key value : String) (override : Bool) (patchErr : Option Error) :
    GoMap String Pod × Option Error :=
  match answer with
  | .notFound => (server, none)
  | .failed e => (server, some ("get pod " ++ ns ++ "/" ++ podName ++ " failed: " ++ e))
  | .found pod =>
    let r := SetSpecificAnnotations server pod [(key, value)] override patchErr
    (r.server, r.err)

/-- `GetServiceCIDRFromCNFPod`: the first service CIDR on a CNF pod. -/
def GetServiceCIDRFromCNFPod (server : GoMap String Pod) (listErr : Option Error) :
    Except Error String :=
  match listErr with
  | some e => .error ("failed to list cnf pods: " ++ e)
  | none =>
    let pods := (GoMap.values server).filter fun p => p.labels.lookup "app" = some "cnf-fleetboard"
    let cidrs := pods.filterMap fun p =>
      match GetSpecificAnnotation p Known.FleetboardServiceCIDR with
      | c :: _ => if c = "" then none else some c
      | [] => none
    .ok (cidrs.head?.getD "")

end Fleetboard
