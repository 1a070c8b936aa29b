import Fleetboard.Model.Go

/-!
# The second network interface of pods (`pkg/dedinic`)

For every pod the plugin creates a veth pair in the network namespace of its own
pod, keeps the host end there and moves the other end into the pod's namespace,
under the name of the interface. `Links` is the plugin's namespace: its veth pairs
and the names of its other links. The texts are ASCII, so that their lengths are
numbers of characters.
-/

namespace Fleetboard.Dedinic

/-- `known.DediNIC`. -/
def DediNIC := "eth-fleet"

/-- Where the container end of a pair is: in the plugin's namespace, or in the pod's,
under its first name or renamed to the interface. -/
inductive PeerEnd
  | here
  | inPod (renamed : Bool)
  deriving DecidableEq, Repr

/-- A veth pair that was created for a container. -/
structure VethPair where
  containerID : String
  hostNicName : String
  containerNicName : String
  peer : PeerEnd
  deriving DecidableEq, Repr

/-- The names that a pair has in the plugin's namespace. -/
def VethPair.names (p : VethPair) : List String :=
  match p.peer with
  | .here => [p.hostNicName, p.containerNicName]
  | .inPod _ => [p.hostNicName]

structure Links where
  pairs : List VethPair
  others : List String
  deriving DecidableEq, Repr

namespace Links

def names (l : Links) : List String := l.others ++ l.pairs.flatMap VethPair.names

/-- `netlink.LinkAdd` of a veth. -/
def LinkAdd (l : Links) (veth : VethPair) : Except Error Links :=
  if veth.hostNicName ∈ l.names ∨ veth.containerNicName ∈ l.names then .error "file exists"
  else .ok { l with pairs := veth :: l.pairs }

/-- `netlink.LinkDel`: both ends of a pair go. -/
def LinkDel (l : Links) (name : String) : Except Error Links :=
  if name ∈ l.names then
    .ok ⟨l.pairs.filter fun p => name ∉ p.names, l.others.filter (· ≠ name)⟩
  else .error "Link not found"

/-- The container end of a container's pair goes elsewhere. -/
def movePeer (l : Links) (containerID : String) (peer : PeerEnd) : Links :=
  { l with pairs := l.pairs.map fun p =>
    if p.containerID = containerID then { p with peer := peer } else p }

end Links

/-- `generateNicName`: the names of the host end and of the container end. -/
def generateNicName (containerID ifname : String) : Go (String × String) := do
  if ifname = "eth0" then
    let id ← Go.slice containerID.toList 0 12
    pure (String.ofList id ++ "_h", String.ofList id ++ "_c")
  else
    let ifname ←
      if "pod".toList.isPrefixOf ifname.toList ∧ ifname.length = 14 then
        Go.slice ifname.toList 3 (ifname.length - 4)
      else pure ifname.toList
    let id ← Go.slice containerID.toList 0 (12 - ifname.length)
    let name := String.ofList id ++ "_" ++ String.ofList ifname
    pure (name ++ "_h", name ++ "_c")

/-- `setupVethPair`. The last error is formatted after it was overwritten. -/
def setupVethPair (l : Links) (containerID ifName : String) :
    Go (Links × Except Error (String × String)) := do
  let (hostNicName, containerNicName) ← generateNicName containerID ifName
  match l.LinkAdd ⟨containerID, hostNicName, containerNicName, .here⟩ with
  | .ok l => pure (l, .ok (hostNicName, containerNicName))
  | .error _ =>
    match l.LinkDel hostNicName with
    | .error e => pure (l, .error e)
    | .ok l => pure (l, .error "failed to create veth for <nil>")

/-- The outcome of `configureContainerNic`: where it leaves the container end, and
its error. -/
structure NicEnv where
  peer : PeerEnd
  err : Option Error

/-- `cniHandler.configureNic`. -/
def configureNic (l : Links) (containerID ifName : String) (env : NicEnv) :
    Go (Links × Option Error) := do
  match ← setupVethPair l containerID ifName with
  | (l, .error e) => pure (l, some e)
  | (l, .ok (_, containerNicName)) =>
    if containerNicName = "" then pure (l, none)
    else pure (l.movePeer containerID env.peer, env.err)

/-- `cniHandler.deleteNic`: the interface is looked for in the pod's namespace. -/
def deleteNic (l : Links) (containerID : String) : Links :=
  { l with pairs := l.pairs.filter fun p =>
    ¬ (p.containerID = containerID ∧ p.peer = .inPod true) }

end Fleetboard.Dedinic
