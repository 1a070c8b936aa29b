import Fleetboard.Model.NetUtil
import Fleetboard.Model.Resync
import Fleetboard.Model.Wireguard

/-!
# The inter-cluster tunnel controller (`pkg/controller/tunnels`, `utils/peerManager.go`)

The controller handles the peers of the shared namespace: on the hub it gives a
block of the global network to a peer that has none, on every cluster it adds a
tunnel and a route for the peer.

Two copies of the peers exist. `peerLister` is the informer's cache, whose
objects `Handle` changes in place; `peers` is what the API server stores. The
two agree only after a watch event.
-/

namespace Fleetboard.Tunnel

open Fleetboard.Net Fleetboard.NetUtil

/-- The controller with what it reads and changes: the device and its tables,
the routes, the lister's peers, the stored peers and the local pods. -/
structure InterClusterTunnelController where
  tunnel : Wireguard
  routes : Finset IPNet
  peerLister : GoMap String Peer
  peers : GoMap String Peer
  pods : GoMap String Pod

/-- The outcomes of the calls that one `Handle` makes, and the order in which
the lister lists the peers. -/
structure HandleEnv where
  selfPod : GetPod
  selfPatchErr : Option Error
  add : AddEnv
  removeErr : Option Error
  route : RouteEnv
  updateErr : Option Error
  listOrder : RangeOrder Peer

/-- The block of a peer: `PodCIDR[0]`, empty when there is none. -/
def Peer.cidr (p : Peer) : String := p.spec.podCIDR.head?.getD ""

/-- The object after its `PodCIDR` has been assigned. -/
def Peer.withCIDR (p : Peer) (cidr : String) : Peer :=
  { p with spec := { p.spec with podCIDR := [cidr] } }

namespace InterClusterTunnelController

/-- The blocks that the hub takes as used: those of every peer but its own. -/
def existingCIDR (c : InterClusterTunnelController) (order : RangeOrder Peer) : List String :=
  (order.visit (GoMap.values c.peerLister)).filterMap fun item =>
    if item.name ≠ "hub" then item.spec.podCIDR.head? else none

/-- `Peers(namespace).Update` of one object. -/
def updatePeer (peers : GoMap String Peer) (peer : Peer) (err : Option Error) :
    GoMap String Peer × Option Error :=
  match err, peers.lookup peer.name with
  | some e, _ => (peers, some e)
  | none, none => (peers, some "not found")
  | none, some stored =>
    (peers.insert peer.name { peer with deletionTimestamp := stored.deletionTimestamp }, none)

section

variable (parseKey : String → Except Error Key) (spec : Specification)

/-- `RecyclePeer`. A removal that fails is reported without an error: `err` is
the one of parsing the key. -/
def RecyclePeer (c : InterClusterTunnelController) (cachedPeer : Option Peer)
    (removeErr : Option Error) (route : RouteEnv) :
    Go (InterClusterTunnelController × HandleResult) := do
  let cachedPeer ← Go.deref cachedPeer
  match parseKey cachedPeer.spec.publicKey with
  | .error e => pure (c, .retry (some e))
  | .ok oldKey =>
    match c.tunnel.RemoveInterClusterTunnel oldKey removeErr with
    | (w, some _) => pure ({ c with tunnel := w }, .retry none)
    | (w, none) =>
      match configHostRoutingRules c.routes cachedPeer.spec.podCIDR .delete route with
      | (routes, some e) => pure ({ c with tunnel := w, routes := routes }, .retry (some e))
      | (routes, none) => pure ({ c with tunnel := w, routes := routes }, .done)

/-- The end of `Handle`, from the call that adds the tunnel on: the tunnel, the
route, and the write-back of a peer whose block has just been allocated. -/
def connect (c : InterClusterTunnelController) (cachedPeer : Peer) (noCIDR : Bool)
    (env : HandleEnv) : InterClusterTunnelController × HandleResult :=
  match c.tunnel.AddInterClusterTunnel parseKey spec cachedPeer env.add with
  | (w, some e) => ({ c with tunnel := w }, .retry (some e))
  | (w, none) =>
    let c := { c with tunnel := w }
    match configHostRoutingRules c.routes cachedPeer.spec.podCIDR .add env.route with
    | (routes, some e) => ({ c with routes := routes }, .retry (some e))
    | (routes, none) =>
      let c := { c with routes := routes }
      if noCIDR then
        match updatePeer c.peers cachedPeer env.updateErr with
        | (peers, some e) => ({ c with peers := peers }, .retry (some e))
        | (peers, none) => ({ c with peers := peers }, .done)
      else (c, .done)

/-- `Handle`, for the peer of that name in the shared namespace. -/
def Handle (c : InterClusterTunnelController) (peerName : String) (env : HandleEnv) :
    Go (InterClusterTunnelController × HandleResult) :=
  match c.peerLister.lookup peerName with
  | none => c.RecyclePeer parseKey none env.removeErr env.route
  | some cachedPeer =>
    if cachedPeer.deletionTimestamp then
      c.RecyclePeer parseKey (some cachedPeer) env.removeErr env.route
    else if spec.asCluster then
      if cachedPeer.cidr = "" then pure (c, .retry (some "cidr is not allocated."))
      else if cachedPeer.name ≠ Known.HubClusterName then
        match AddAnnotationToSelf c.pods env.selfPod Known.FleetboardSystemNamespace spec.podName
            Known.FleetboardNodeCIDR cachedPeer.cidr true env.selfPatchErr with
        | (pods, some _) => pure ({ c with pods := pods }, .retry (some "cidr is not allocated."))
        | (pods, none) => pure (connect parseKey spec { c with pods := pods } cachedPeer false env)
      else pure (connect parseKey spec c cachedPeer false env)
    else if cachedPeer.cidr = "" then do
      match ← FindTunnelAvailableCIDR spec.cidr (c.existingCIDR env.listOrder) with
      | .error e =>
        pure ({ c with peerLister := c.peerLister.insert peerName (cachedPeer.withCIDR "") },
          .retry (some e))
      | .ok cidr =>
        let cachedPeer := cachedPeer.withCIDR cidr
        pure (connect parseKey spec
          { c with peerLister := c.peerLister.insert peerName cachedPeer } cachedPeer true env)
    else pure (connect parseKey spec c cachedPeer false env)

/-- The enqueue filter: whether an event of the peer reaches `Handle`. -/
def enqueueFilter (newPeer : Peer) : Bool :=
  if newPeer.spec.isHub ∨ newPeer.spec.endpoint ≠ "" ∧ newPeer.spec.isPublic then !spec.asHub
  else spec.asHub ∨ spec.endpoint ≠ ""

/-- `RecycleAllResources`, with the outcomes of the calls for each cluster. -/
def RecycleAllResources (c : InterClusterTunnelController)
    (order : RangeOrder ((_ : String) × Peer)) (env : String → Option Error × RouteEnv) :
    Go InterClusterTunnelController :=
  (order.visit c.tunnel.interConnections.entries).foldlM
    (fun c e => do
      let (c, _) ← c.RecyclePeer parseKey (some e.2) (env e.1).1 (env e.1).2
      pure c) c

end

end InterClusterTunnelController

/-- The peer that `ApplyPeerConfig` applies. -/
def selfPeer (spec : Specification) (publicKey : Key) : Peer where
  name := spec.clusterID
  deletionTimestamp := false
  spec :=
    { clusterID := spec.clusterID
      podCIDR := [spec.cidr]
      endpoint := spec.endpoint
      port := Known.UDPPort
      publicKey := publicKey.string
      isHub := spec.asHub
      isPublic := spec.endpoint ≠ "" }

/-- The outcomes of the three calls of one attempt of `ApplyPeerWithRetry`. -/
structure ApplyEnv where
  createErr : Option Error
  getErr : Option Error
  updateErr : Option Error

/-- `ApplyPeerWithRetry`. Only an attempt that finds the stored peer terminating
is repeated, until the backoff runs out; the peer stays as it is in each of
them, so one attempt stands for all. `createPatch` is the JSON patch between two
peers. -/
def ApplyPeerWithRetry (createPatch : CreatePatch Peer)
    (peers : GoMap String Peer) (peer : Peer) (env : ApplyEnv) :
    GoMap String Peer × Option Error :=
  match env.createErr, peers.lookup peer.name with
  | some e, _ => (peers, some e)
  | none, none => (peers.insert peer.name peer, none)
  | none, some curObj =>
    match env.getErr with
    | some e => (peers, some e)
    | none =>
      if curObj.deletionTimestamp then (peers, some "timed out waiting for the condition")
      else if ResourceNeedResync (createPatch curObj peer) false then
        let curObj := { curObj with
          spec := { peer.spec with isHub := curObj.spec.isHub } }
        InterClusterTunnelController.updatePeer peers curObj env.updateErr
      else (peers, none)

/-- `ApplyPeerConfig`. -/
def ApplyPeerConfig (createPatch : CreatePatch Peer)
    (spec : Specification) (publicKey : Key) (peers : GoMap String Peer) (env : ApplyEnv) :
    GoMap String Peer × Option Error :=
  ApplyPeerWithRetry createPatch peers (selfPeer spec publicKey) env

end Fleetboard.Tunnel
