import Fleetboard.Model.IP
import Fleetboard.Model.Pods

/-!
# The WireGuard tunnels (`pkg/tunnel`)

`Wireguard` keeps two tables, one entry for each cluster and one for each node,
and configures the device through `wgctrl`. The device is the other half of the
state: its peers with their allowed addresses.

The key parser of `wgctrl` is a parameter, and each call of `ConfigureDevice`
takes the error it fails with, if it fails; a failed call leaves the device
unchanged.
-/

namespace Fleetboard.Tunnel

open Fleetboard.Net

/-- `wgtypes.Key`, 32 bytes. -/
abbrev Key := BitVec 256

/-- A digit of the base64 alphabet. -/
def base64Digit (n : Nat) : Char :=
  "ABCDEFGHIJKLMNOPQRSTUVWXYZabcdefghijklmnopqrstuvwxyz0123456789+/".toList.getD n 'A'

/-- `Key.String`: base64, 43 digits and one character of padding. -/
def Key.string (k : Key) : String :=
  String.ofList ((List.range 43).map (fun i => base64Digit (k.toNat * 4 / 64 ^ (42 - i) % 64)) ++
    ['='])

/-- `PeerSpec` of the peer resource. -/
structure PeerSpec where
  clusterID : String
  podCIDR : List String
  endpoint : String
  port : Nat
  publicKey : String
  isHub : Bool
  isPublic : Bool
  deriving DecidableEq, Repr

/-- The peer resource. -/
structure Peer where
  name : String
  deletionTimestamp : Bool
  spec : PeerSpec
  deriving DecidableEq, Repr

structure DaemonCNFTunnelConfig where
  nodeID : String
  podID : String
  endpointIP : String
  secondaryCIDR : List String
  serviceCIDR : List String
  port : Nat
  publicKey : List String
  deriving DecidableEq, Repr

/-- The parts of `Specification` that the tunnels read. -/
structure Specification where
  asHub : Bool
  asCluster : Bool
  cidr : String
  podName : String
  endpoint : String
  clusterID : String
  deriving DecidableEq, Repr

/-- `wgtypes.PeerConfig`; the keepalive interval is in seconds. -/
structure PeerConfig where
  publicKey : Key
  remove : Bool
  endpoint : Option (IP × Nat)
  persistentKeepaliveInterval : Option Nat
  replaceAllowedIPs : Bool
  allowedIPs : List IPNet

/-- A peer of the device. -/
structure DevicePeer where
  endpoint : Option (IP × Nat)
  persistentKeepaliveInterval : Option Nat
  allowedIPs : Finset IPNet
  deriving DecidableEq

/-- The peers of the device. -/
abbrev Device := GoMap Key DevicePeer

/-- What the kernel does with one peer configuration. A subnet is allowed for
one peer only: giving it to a peer takes it from the others. -/
def Device.apply (d : Device) (c : PeerConfig) : Device :=
  if c.remove then d.erase c.publicKey
  else
    let old := d.lookup c.publicKey
    let kept := if c.replaceAllowedIPs then ∅ else (old.map (·.allowedIPs)).getD ∅
    let others : Device :=
      GoMap.mapVals (fun p => { p with allowedIPs := p.allowedIPs \ c.allowedIPs.toFinset }) d
    others.insert c.publicKey
      { endpoint := c.endpoint.orElse fun _ => old.bind (·.endpoint)
        persistentKeepaliveInterval := c.persistentKeepaliveInterval.orElse
          fun _ => old.bind (·.persistentKeepaliveInterval)
        allowedIPs := kept ∪ c.allowedIPs.toFinset }

structure Wireguard where
  interConnections : GoMap String Peer
  innerConnections : GoMap String DaemonCNFTunnelConfig
  device : Device

/-- `NewTunnel`: empty tables, and the peers of the device replaced by none. -/
def NewTunnel : Wireguard := ⟨∅, ∅, ∅⟩

/-- `wgctrl.Client.ConfigureDevice` with one peer, without `ReplacePeers`. -/
def Wireguard.configureDevice (w : Wireguard) (c : PeerConfig) (err : Option Error) :
    Wireguard × Option Error :=
  match err with
  | some e => (w, some e)
  | none => ({ w with device := w.device.apply c }, none)

/-- The configuration that removes a peer. -/
def removeConfig (key : Key) : PeerConfig := ⟨key, true, none, none, false, []⟩

/-- `errors.Wrap`. -/
def wrap (msg : String) (err : Option Error) : Option Error := err.map fun e => msg ++ ": " ++ e

/-- `RemoveInterClusterTunnel` and `RemoveInnerClusterTunnel`, with the text of
their error. -/
def Wireguard.removeTunnel (msg : String) (w : Wireguard) (key : Key) (err : Option Error) :
    Wireguard × Option Error :=
  let (w', e) := w.configureDevice (removeConfig key) err
  (w', wrap (msg ++ " with key " ++ key.string) e)

def Wireguard.RemoveInterClusterTunnel := Wireguard.removeTunnel "failed to remove WireGuard peer"

def Wireguard.RemoveInnerClusterTunnel :=
  Wireguard.removeTunnel "Failed to remove wireGuard connection inner cluster"

/-- `parseSubnets`: the networks of the texts that parse. -/
def parseSubnets (subnets : List String) : List IPNet :=
  subnets.filterMap fun s => (parseCIDR s).toOption.map (·.2)

/-- The configuration that adds a peer or replaces its allowed addresses. -/
def addConfig (key : Key) (endpoint : Option (IP × Nat)) (allowedIPs : List IPNet) : PeerConfig :=
  ⟨key, false, endpoint, some 10, true, allowedIPs⟩

/-- The outcomes of the two `ConfigureDevice` calls of adding a tunnel: the
removal of an old key and the configuration of the new one. -/
structure AddEnv where
  removeErr : Option Error
  configureErr : Option Error

section

variable (parseKey : String → Except Error Key)

/-- `AddInterClusterTunnel`. -/
def Wireguard.AddInterClusterTunnel (spec : Specification) (w : Wireguard) (peer : Peer)
    (env : AddEnv) : Wireguard × Option Error :=
  if spec.clusterID = peer.spec.clusterID then (w, none)
  else
    let endpoint := (ParseIP peer.spec.endpoint).map (·, peer.spec.port)
    let allowedIPs := parseSubnets peer.spec.podCIDR
    match parseKey peer.spec.publicKey with
    | .error e => (w, wrap "failed to parse peer public key" (some e))
    | .ok remoteKey =>
      let add (w : Wireguard) : Wireguard × Option Error :=
        let w := { w with interConnections := w.interConnections.insert peer.spec.clusterID peer }
        let (w, err) := w.configureDevice (addConfig remoteKey endpoint allowedIPs) env.configureErr
        (w, wrap "failed to configure peer" err)
      let delete (w : Wireguard) : Wireguard :=
        { w with interConnections := w.interConnections.erase peer.spec.clusterID }
      match w.interConnections.lookup peer.spec.clusterID with
      | none => add w
      | some oldCon =>
        match parseKey oldCon.spec.publicKey with
        | .error _ => add (delete w)
        | .ok oldKey =>
          if oldKey.string = remoteKey.string then (w, none)
          else add (delete (w.RemoveInterClusterTunnel oldKey env.removeErr).1)

/-- `AddInnerClusterTunnel`. -/
def Wireguard.AddInnerClusterTunnel (w : Wireguard) (config : DaemonCNFTunnelConfig)
    (env : AddEnv) : Go (Wireguard × Option Error) :=
  match ParseIP config.endpointIP with
  | none =>
    .ok (w, some ("invalid eth0 IP '" ++ config.endpointIP ++ "' of pod " ++ config.podID ++
      " on node " ++ config.nodeID))
  | some remoteIP =>
    let allowedIPs := parseSubnets config.secondaryCIDR
    match config.publicKey with
    | [] =>
      .ok (w, some ("invalid empty public key of pod " ++ config.podID ++ " on node " ++
        config.nodeID))
    | publicKey :: _ =>
      match parseKey publicKey with
      | .error e => .ok (w, wrap "failed to parse daemonPeerConfig public key" (some e))
      | .ok remoteKey =>
        let add (w : Wireguard) : Wireguard × Option Error :=
          let w := { w with innerConnections := w.innerConnections.insert config.nodeID config }
          let (w, err) := w.configureDevice
            (addConfig remoteKey (some (remoteIP, config.port)) allowedIPs) env.configureErr
          (w, wrap "failed to configure daemonPeerConfig" err)
        let delete (w : Wireguard) : Wireguard :=
          { w with innerConnections := w.innerConnections.erase config.nodeID }
        match w.innerConnections.lookup config.nodeID with
        | none => .ok (add w)
        | some oldCon => do
          let oldPublicKey ← Go.index oldCon.publicKey 0
          match parseKey oldPublicKey with
          | .error _ => pure (add (delete w))
          | .ok oldKey =>
            if oldKey.string = remoteKey.string then pure (w, none)
            else pure (add (delete (w.RemoveInnerClusterTunnel oldKey env.removeErr).1))

end

/-- `DaemonConfigFromPod`. -/
def DaemonConfigFromPod (pod : Pod) (isLeader : Bool) : DaemonCNFTunnelConfig where
  nodeID := pod.nodeName
  podID := pod.name
  endpointIP := GetEth0IP pod
  secondaryCIDR :=
    if isLeader then GetSpecificAnnotation pod Known.FleetboardNodeCIDR
    else GetSpecificAnnotation pod Known.FleetboardTunnelCIDR
  serviceCIDR := GetSpecificAnnotation pod Known.FleetboardServiceCIDR
  port := Known.UDPPort
  publicKey := GetSpecificAnnotation pod Known.PublicKey

/-! ## Routes -/

inductive RouteOperation
  | add | delete
  deriving DecidableEq, Repr

/-- The outcomes of the calls that change routes: whether the device is found,
and the error of the call for each destination (`EEXIST` apart, which is
ignored). -/
structure RouteEnv where
  interfaceErr : Option Error
  routeErr : IPNet → Option Error

/-- The loop of `configHostRoutingRules`, on the set of routes through the
device. Adding a route that exists is no error; deleting one that does not
is. -/
def configRoutes (op : RouteOperation) (env : RouteEnv) :
    Finset IPNet → List String → Finset IPNet × Option Error
  | routes, [] => (routes, none)
  | routes, cidr :: cidrs =>
    match parseCIDR cidr with
    | .error e => (routes, some e)
    | .ok (_, dst) =>
      match env.routeErr dst with
      | some e => (routes, some e)
      | none =>
        match op with
        | .add => configRoutes op env (insert dst routes) cidrs
        | .delete =>
          if dst ∈ routes then configRoutes op env (routes.erase dst) cidrs
          else (routes, some "no such process")

/-- `configHostRoutingRules`. -/
def configHostRoutingRules (routes : Finset IPNet) (cidrs : List String) (op : RouteOperation)
    (env : RouteEnv) : Finset IPNet × Option Error :=
  match env.interfaceErr with
  | some e => (routes, some e)
  | none => configRoutes op env routes cidrs

end Fleetboard.Tunnel
