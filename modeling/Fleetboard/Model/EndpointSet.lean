import Fleetboard.Model.PodEndpoints

/-!
# Sets of endpoints (`pkg/controller/endpointslice/util/endpointset.go`, `controller_utils.go`)

Endpoints are identified by a hash of their addresses, hostname and target, and groups of ports
by a hash of the ports. A set of endpoints is a map from the hashes.

Hashing sorts the addresses of an endpoint and the ports of a group where they stand.
-/

namespace Fleetboard.EndpointSlices

/-! ## Hashes -/

/-- `endpointHashObj`. -/
structure EndpointHashObj where
  addresses : List String
  hostname : String
  ns : String
  name : String
  deriving DecidableEq, Repr

/-- What is hashed. A nil list of ports is printed in another way than an empty one. -/
inductive HashObject
  | port (port : EndpointPort)
  | ports (ports : Option (List EndpointPort))
  | endpoint (obj : EndpointHashObj)
  deriving DecidableEq, Repr

/-- `deepHashObjectToString`, the MD5 sum of the printed object. -/
structure Hasher where
  deepHashObjectToString : HashObject → String

/-- The sums of different objects are different. -/
class Hasher.Perfect (h : Hasher) : Prop where
  injective : Function.Injective h.deepHashObjectToString

/-- `sort.Strings`. -/
def sortStrings : List String → List String := (KeySort.insertion id).run

/-- The endpoint after its hash has been taken. -/
def sortAddresses (endpoint : Endpoint) : Endpoint :=
  { endpoint with addresses := sortStrings endpoint.addresses }

namespace Hasher

variable (h : Hasher)

/-- `hashEndpoint`. -/
def hashEndpoint (endpoint : Endpoint) : String :=
  h.deepHashObjectToString (.endpoint
    { addresses := (sortAddresses endpoint).addresses
      hostname := endpoint.hostname.getD ""
      ns := (endpoint.targetRef.map (·.ns)).getD ""
      name := (endpoint.targetRef.map (·.name)).getD "" })

/-- The sort of `portsInOrder`, by the hashes of the ports. -/
def sortPorts (endpointPorts : Option (List EndpointPort)) : Option (List EndpointPort) :=
  endpointPorts.map (KeySort.insertion fun port => h.deepHashObjectToString (.port port)).run

/-- `NewPortMapKey`. -/
def NewPortMapKey (endpointPorts : Option (List EndpointPort)) : String :=
  h.deepHashObjectToString (.ports (h.sortPorts endpointPorts))

end Hasher

/-! ## Comparisons -/

/-- Two pointers of which one is nil, or to different values. -/
def ptrChanged {α : Type} [DecidableEq α] (ptr1 ptr2 : Option α) : Bool :=
  match ptr1, ptr2 with
  | some a, some b => a ≠ b
  | none, none => false
  | _, _ => true

/-- `boolPtrChanged`. -/
def boolPtrChanged (ptr1 ptr2 : Option Bool) : Bool := ptrChanged ptr1 ptr2

/-- `stringPtrChanged`. -/
def stringPtrChanged (ptr1 ptr2 : Option String) : Bool := ptrChanged ptr1 ptr2

/-- `semanticIgnoreResourceVersion` on references. -/
def semanticIgnoreResourceVersion (a b : Option ObjectReference) : Bool :=
  a.map (fun ref => { ref with resourceVersion := "" }) =
    b.map fun ref => { ref with resourceVersion := "" }

/-- `EndpointsEqualBeyondHash`. -/
def EndpointsEqualBeyondHash (ep1 ep2 : Endpoint) : Bool :=
  if stringPtrChanged ep1.nodeName ep2.nodeName then false
  else if stringPtrChanged ep1.zone ep2.zone then false
  else if boolPtrChanged ep1.ready ep2.ready then false
  else if boolPtrChanged ep1.serving ep2.serving then false
  else if boolPtrChanged ep1.terminating ep2.terminating then false
  else if !semanticIgnoreResourceVersion ep1.targetRef ep2.targetRef then false
  else true

/-! ## Sets -/

/-- `EndpointSet`: each endpoint is found at its hash. -/
structure EndpointSet (h : Hasher) where
  items : GoMap String Endpoint
  hashed : ∀ {k endpoint}, items.lookup k = some endpoint → h.hashEndpoint endpoint = k

theorem sortStrings_sortStrings (l : List String) : sortStrings (sortStrings l) = sortStrings l :=
  List.Perm.eq_of_pairwise (fun _ _ _ _ hab hba => le_antisymm hab hba)
    ((KeySort.insertion id).sorted _) ((KeySort.insertion id).sorted l)
    ((KeySort.insertion id).perm _)

theorem hashEndpoint_sortAddresses (h : Hasher) (endpoint : Endpoint) :
    h.hashEndpoint (sortAddresses endpoint) = h.hashEndpoint endpoint := by
  simp only [Hasher.hashEndpoint, sortAddresses, sortStrings_sortStrings]

namespace EndpointSet

variable {h : Hasher}

instance empty : EmptyCollection (EndpointSet h) := ⟨∅, fun hk => by cases hk⟩

/-- `Insert` of one endpoint. -/
def Insert (s : EndpointSet h) (item : Endpoint) : EndpointSet h where
  items := s.items.insert (h.hashEndpoint item) (sortAddresses item)
  hashed {k endpoint} hk := by
    rw [GoMap.lookup_insert_eq] at hk
    split_ifs at hk with heq
    · obtain rfl := Option.some_inj.mp hk
      rw [hashEndpoint_sortAddresses, heq]
    · exact s.hashed hk

/-- `Delete` of one endpoint. -/
def Delete (s : EndpointSet h) (item : Endpoint) : EndpointSet h where
  items := s.items.erase (h.hashEndpoint item)
  hashed {k endpoint} hk := by
    rw [GoMap.lookup_erase_eq] at hk
    split_ifs at hk
    exact s.hashed hk

/-- `Get`. -/
def Get (s : EndpointSet h) (item : Endpoint) : Option Endpoint :=
  s.items.lookup (h.hashEndpoint item)

/-- `PopAny`: the first endpoint that the loop visits. -/
def PopAny (order : RangeOrder Endpoint) (s : EndpointSet h) : Option (Endpoint × EndpointSet h) :=
  match order.visit s.items.values with
  | [] => none
  | endpoint :: _ => some (endpoint, s.Delete endpoint)

/-- `Len`. -/
def Len (s : EndpointSet h) : Nat := s.items.entries.length

end EndpointSet

end Fleetboard.EndpointSlices
