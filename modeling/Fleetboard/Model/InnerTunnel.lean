import Fleetboard.Model.InterTunnel

/-!
# The inner-cluster tunnel controller (`pkg/controller/tunnels/innertunnel_controller.go`)

The leader of a cluster gives each CNF pod a block of the cluster's network
through an annotation of the pod, and adds a tunnel and a route for the pod's
node. `podLister` is the informer's cache, whose objects are annotated in place
before the API server (`pods`) is patched.
-/

namespace Fleetboard.Tunnel

open Fleetboard.Net Fleetboard.NetUtil

/-- The controller with what it reads and changes. `tunnelled` records the
configurations `AddInnerClusterTunnel` has been called with, the last first. -/
structure InnerClusterTunnelController where
  wireguard : Wireguard
  routes : Finset IPNet
  podLister : GoMap String Pod
  pods : GoMap String Pod
  existingCIDR : List String
  clusterCIDR : String
  globalCIDR : String
  currentLeader : String
  tunnelled : List DaemonCNFTunnelConfig

/-- The outcomes of the calls that one `Handle` makes. -/
structure InnerEnv where
  cidrPatchErr : Option Error
  listErr : Option Error
  servicePatchErr : Option Error
  add : AddEnv
  removeErr : Option Error
  route : RouteEnv

/-- The order in which `RecycleAllResources` visits the nodes, and the outcomes
of its calls for each. -/
structure RecycleEnv where
  order : RangeOrder ((_ : String) × DaemonCNFTunnelConfig)
  removeErr : String → Option Error
  route : String → RouteEnv

/-- What `ShouldHandlerPod` leaves: the controller, whether it has called
`RecycleAllResources`, and its answer. -/
structure ShouldResult where
  ctl : InnerClusterTunnelController
  recycled : Bool
  answer : Bool

namespace InnerClusterTunnelController

/-- The lister's object and the stored pods after an annotation call. -/
def setPod (c : InnerClusterTunnelController) (r : SetResult) : InnerClusterTunnelController :=
  { c with podLister := c.podLister.insert r.pod.name r.pod, pods := r.server }

/-- `SpawnNewCIDRForNRIPod`. The object in the lister keeps its new annotations
when the patch fails, while `existingCIDR` grows only when it succeeds. -/
def SpawnNewCIDRForNRIPod (c : InnerClusterTunnelController) (pod : Pod)
    (patchErr : Option Error) : Go (InnerClusterTunnelController × Except Error (Pod × String)) := do
  match ← FindClusterAvailableCIDR c.clusterCIDR c.existingCIDR with
  | .error e => pure (c, .error e)
  | .ok secondaryCIDR =>
    let r := SetSpecificAnnotations c.pods pod
      [(Known.FleetboardTunnelCIDR, c.globalCIDR), (Known.FleetboardNodeCIDR, secondaryCIDR)]
      true patchErr
    let c := c.setPod r
    match r.err with
    | some e => pure (c, .error e)
    | none =>
      pure ({ c with existingCIDR := c.existingCIDR ++ [secondaryCIDR] },
        .ok (r.pod, secondaryCIDR))

section

variable (parseKey : String → Except Error Key) (podName : String)

/-- `recycleResources`. The result of `RemoveString` is dropped, so
`existingCIDR` stays as it is. -/
def recycleResources (c : InnerClusterTunnelController) (podConfig : DaemonCNFTunnelConfig)
    (removeErr : Option Error) (route : RouteEnv) :
    Go (InnerClusterTunnelController × Option Error) :=
  match c.wireguard.innerConnections.lookup podConfig.nodeID with
  | none => pure (c, none)
  | some _ => do
    let publicKey ← Go.index podConfig.publicKey 0
    match parseKey publicKey with
    | .error e => pure (c, some e)
    | .ok oldKey =>
      let w := { c.wireguard with
        innerConnections := c.wireguard.innerConnections.erase podConfig.nodeID }
      let _ ← Go.index podConfig.secondaryCIDR 0
      match w.RemoveInnerClusterTunnel oldKey removeErr with
      | (w, some e) => pure ({ c with wireguard := w }, some e)
      | (w, none) =>
        let (routes, err) := configHostRoutingRules c.routes podConfig.secondaryCIDR .delete route
        pure ({ c with wireguard := w, routes := routes }, err)

/-- The end of `Handle`: the tunnel and the route of a pod that has its blocks. -/
def connect (c : InnerClusterTunnelController) (config : DaemonCNFTunnelConfig) (env : InnerEnv) :
    Go (InnerClusterTunnelController × HandleResult) := do
  let c := { c with tunnelled := config :: c.tunnelled }
  match ← c.wireguard.AddInnerClusterTunnel parseKey config env.add with
  | (w, some e) => pure ({ c with wireguard := w }, .retry (some e))
  | (w, none) =>
    match configHostRoutingRules c.routes config.secondaryCIDR .add env.route with
    | (routes, some e) => pure ({ c with wireguard := w, routes := routes }, .retry (some e))
    | (routes, none) => pure ({ c with wireguard := w, routes := routes }, .done)

/-- `Handle` from the service CIDR on. `podName` is the name of the pod that
the controller runs in. -/
def handleService (c : InnerClusterTunnelController) (pod : Pod) (isLeader : Bool)
    (config : DaemonCNFTunnelConfig) (env : InnerEnv) :
    Go (InnerClusterTunnelController × HandleResult) :=
  let finish (c : InnerClusterTunnelController) (config : DaemonCNFTunnelConfig) :=
    if podName = pod.name then pure (c, .done) else c.connect parseKey config env
  if config.serviceCIDR.isEmpty then
    if isLeader then
      match GetServiceCIDRFromCNFPod c.pods env.listErr with
      | .error e => pure (c, .retry (some e))
      | .ok cidr =>
        if cidr = "" then pure (c, .retry none)
        else
          let r := SetSpecificAnnotations c.pods pod [(Known.FleetboardServiceCIDR, cidr)] true
            env.servicePatchErr
          let c := c.setPod r
          match r.err with
          | some e => pure (c, .retry (some e))
          | none => finish c { config with serviceCIDR := [cidr] }
    else pure (c, .retry none)
  else finish c config

/-- `Handle`, for the CNF pod of that name. -/
def Handle (c : InnerClusterTunnelController) (name : String) (env : InnerEnv) :
    Go (InnerClusterTunnelController × HandleResult) :=
  let isLeader : Bool := podName = c.currentLeader
  match c.podLister.lookup name with
  | none => pure (c, .done)
  | some pod =>
    let config := DaemonConfigFromPod pod isLeader
    if ¬ IsPodAlive pod then do
      match ← c.recycleResources parseKey config env.removeErr env.route with
      | (c, some e) => pure (c, .retry (some e))
      | (c, none) => pure (c, .done)
    else if config.secondaryCIDR.isEmpty then
      if isLeader then do
        match ← c.SpawnNewCIDRForNRIPod pod env.cidrPatchErr with
        | (c, .error e) => pure (c, .retry (some e))
        | (c, .ok (pod, cidr)) =>
          if config.podID = podName then pure (c, .done)
          else
            c.handleService parseKey podName pod isLeader { config with secondaryCIDR := [cidr] } env
      else pure (c, .retry none)
    else c.handleService parseKey podName pod isLeader config env

/-- `SetCurrentLeader`. -/
def SetCurrentLeader (c : InnerClusterTunnelController) (leader : String) :
    InnerClusterTunnelController :=
  { c with currentLeader := leader }

/-- `GetCurrentLeader`. -/
def GetCurrentLeader (c : InnerClusterTunnelController) : String := c.currentLeader

/-- `RecycleAllResources`, with the outcomes of the calls for each node. The
loop is over the table itself: an entry that an earlier round has deleted is not
reached. -/
def RecycleAllResources (c : InnerClusterTunnelController) (env : RecycleEnv) :
    Go InnerClusterTunnelController :=
  (env.order.visit c.wireguard.innerConnections.entries).foldlM
    (fun c e =>
      match c.wireguard.innerConnections.lookup e.1 with
      | none => pure c
      | some innerConnection => do
        let (c, _) ← c.recycleResources parseKey innerConnection (env.removeErr e.1) (env.route e.1)
        pure c) c

/-- The end of `ShouldHandlerPod`: the answer, by who is taken for the leader. -/
def leaderAnswer (pod : Pod) (currentLeader : String) : Bool :=
  if podName = currentLeader then true
  else if pod.name = podName ∨ currentLeader = "" then false
  else pod.name = currentLeader

/-- `ShouldHandlerPod`. A new leader is taken into the local variable only: the
field keeps the leader that was learned first. -/
def ShouldHandlerPod (c : InnerClusterTunnelController) (pod : Pod) (env : RecycleEnv) :
    Go ShouldResult :=
  if c.GetCurrentLeader = "" then
    if pod.carriesLeaderLabel then
      pure ⟨c.SetCurrentLeader pod.name, false, leaderAnswer podName pod pod.name⟩
    else pure ⟨c, false, false⟩
  else if pod.carriesLeaderLabel ∧ c.GetCurrentLeader ≠ pod.name then do
    let c ← c.RecycleAllResources parseKey env
    pure ⟨c, true, leaderAnswer podName pod pod.name⟩
  else pure ⟨c, false, leaderAnswer podName pod c.GetCurrentLeader⟩

end

end InnerClusterTunnelController

end Fleetboard.Tunnel
