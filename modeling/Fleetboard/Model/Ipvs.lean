import Fleetboard.Model.EndpointSliceCache

/-!
# IPVS and the graceful termination of its destinations (`pkg/proxy/ipvs/graceful_termination.go`)

`IPVS` is the kernel's table behind `utilipvs.Interface`: virtual servers, each with
its real servers. A call may fail for a reason of its own (`faults`, the outcomes of
the calls to come; none are left means that they do not), or because of what the table
has.

A real server with connections is not deleted at once: it gets the weight 0 and goes
into a list, by a name made of its virtual server's and its own text.
-/

namespace Fleetboard.Ipvs

open Fleetboard.Proxy

/-! ## Texts of endpoints -/

/-- `net.SplitHostPort`. -/
def splitHostPort (hostport : String) : Except Error (String × String) :=
  let cs := hostport.toList
  let addrErr (why : String) : Except Error (String × String) :=
    .error ("address " ++ hostport ++ ": " ++ why)
  let port := (cs.reverse.takeWhile (· ≠ ':')).reverse
  let finish (host : List Char) (j k : Nat) : Except Error (String × String) :=
    if '[' ∈ cs.drop j then addrErr "unexpected '[' in address"
    else if ']' ∈ cs.drop k then addrErr "unexpected ']' in address"
    else .ok (String.ofList host, String.ofList port)
  if ':' ∉ cs then addrErr "missing port in address"
  else
    let i := cs.length - port.length - 1
    if cs.head? = some '[' then
      let last := cs.idxOf ']'
      if last = cs.length then addrErr "missing ']' in address"
      else if last + 1 = i then finish ((cs.take last).drop 1) 1 (last + 1)
      else if cs[last + 1]? = some ':' then addrErr "too many colons in address"
      else addrErr "missing port in address"
    else if ':' ∈ cs.take i then addrErr "too many colons in address"
    else finish (cs.take i) 0 0

/-- The digits of `strconv.Atoi`, for a number below the bound. -/
def atoiDigits (ds : List Char) (bound : Nat) : Except Error Nat :=
  if ds = [] ∨ ¬ ds.all Char.isDigit then .error "invalid syntax"
  else if Nat.ofDigitChars 10 ds 0 < bound then .ok (Nat.ofDigitChars 10 ds 0)
  else .error "value out of range"

/-- `strconv.Atoi`. -/
def atoi (s : String) : Except Error Int :=
  match s.toList with
  | '-' :: ds => (atoiDigits ds (2 ^ 63 + 1)).map fun n => -(n : Int)
  | '+' :: ds => (atoiDigits ds (2 ^ 63)).map Int.ofNat
  | ds => (atoiDigits ds (2 ^ 63)).map Int.ofNat

/-! ## The table -/

/-- The address of a real server. -/
structure Dest where
  address : IPText
  port : UInt16
  deriving DecidableEq, Repr

/-- `RealServer.String`. -/
def Dest.string (d : Dest) : String := joinHostPort d.address.text d.port.toNat

/-- The destination of the text of an endpoint, if it has a host and a port. -/
def parseEndpoint (cfg : Config) (ep : String) : Option Dest :=
  match splitHostPort ep with
  | .error _ => none
  | .ok (ip, port) =>
    match atoi port with
    | .error _ => none
    | .ok portNum => some ⟨cfg.parseIPSloppy ip, UInt16.ofInt portNum⟩

/-- `utilipvs.RealServer`; `Equal` compares the destinations. -/
structure RealServer where
  dest : Dest
  weight : Nat
  activeConn : Nat
  inactiveConn : Nat
  deriving DecidableEq, Repr

/-- What a virtual server is found by. -/
structure VirtualServerKey where
  address : IPText
  port : UInt16
  protocol : Protocol
  deriving DecidableEq, Repr

/-- `utilipvs.VirtualServer`. -/
structure VirtualServer where
  key : VirtualServerKey
  scheduler : String
  flags : Nat
  timeout : Nat
  deriving DecidableEq, Repr

def protocolText : Protocol → String
  | .tcp => "TCP"
  | .udp => "UDP"
  | .sctp => "SCTP"

/-- `VirtualServer.String`. -/
def VirtualServerKey.string (k : VirtualServerKey) : String :=
  joinHostPort k.address.text k.port.toNat ++ "/" ++ protocolText k.protocol

/-- `GetUniqueRSName`. -/
def uniqueRSName (k : VirtualServerKey) (d : Dest) : String := k.string ++ "/" ++ d.string

/-- The weight and the connections of a real server. -/
structure DestState where
  weight : Nat
  activeConn : Nat
  inactiveConn : Nat
  deriving DecidableEq, Repr

structure Service where
  scheduler : String
  flags : Nat
  timeout : Nat
  dests : GoMap Dest DestState

abbrev Services := GoMap VirtualServerKey Service

structure IPVS where
  services : Services
  faults : List (Option Error)

namespace IPVS

/-- One call: it fails for a reason of its own, or does what the table allows. -/
def call {α : Type} (ipvs : IPVS) (op : Services → Except Error (Services × α)) :
    IPVS × Except Error α :=
  match ipvs.faults with
  | some e :: faults => ({ ipvs with faults := faults }, .error e)
  | faults =>
    match op ipvs.services with
    | .error e => ({ ipvs with faults := faults.tail }, .error e)
    | .ok (services, a) => (⟨services, faults.tail⟩, .ok a)

/-- An operation on the virtual server, if there is one. -/
def onService {α : Type} (ipvs : IPVS) (k : VirtualServerKey)
    (op : Service → Except Error (Service × α)) : IPVS × Except Error α :=
  ipvs.call fun services =>
    match services.lookup k with
    | none => .error "no such service"
    | some service =>
      match op service with
      | .error e => .error e
      | .ok (service, a) => .ok (services.insert k service, a)

/-- What is read of the virtual server, if there is one. -/
def query {α : Type} (ipvs : IPVS) (k : VirtualServerKey) (f : Service → α) :
    IPVS × Except Error α :=
  ipvs.call fun services =>
    match services.lookup k with
    | none => .error "no such service"
    | some service => .ok (services, f service)

def GetVirtualServer (ipvs : IPVS) (vs : VirtualServer) : IPVS × Except Error VirtualServer :=
  ipvs.query vs.key fun service => ⟨vs.key, service.scheduler, service.flags, service.timeout⟩

def GetVirtualServers (ipvs : IPVS) : IPVS × Except Error (List VirtualServer) :=
  ipvs.call fun services => .ok (services, services.entries.map fun e =>
    ⟨e.1, e.2.scheduler, e.2.flags, e.2.timeout⟩)

def AddVirtualServer (ipvs : IPVS) (vs : VirtualServer) : IPVS × Except Error Unit :=
  ipvs.call fun services =>
    match services.lookup vs.key with
    | some _ => .error "file exists"
    | none => .ok (services.insert vs.key ⟨vs.scheduler, vs.flags, vs.timeout, ∅⟩, ())

def UpdateVirtualServer (ipvs : IPVS) (vs : VirtualServer) : IPVS × Except Error Unit :=
  ipvs.onService vs.key fun service =>
    .ok (⟨vs.scheduler, vs.flags, vs.timeout, service.dests⟩, ())

/-- The real servers of the virtual server go with it. -/
def DeleteVirtualServer (ipvs : IPVS) (vs : VirtualServer) : IPVS × Except Error Unit :=
  ipvs.call fun services =>
    match services.lookup vs.key with
    | none => .error "no such service"
    | some _ => .ok (services.erase vs.key, ())

def GetRealServers (ipvs : IPVS) (vs : VirtualServer) : IPVS × Except Error (List RealServer) :=
  ipvs.query vs.key fun service => service.dests.entries.map fun e =>
    ⟨e.1, e.2.weight, e.2.activeConn, e.2.inactiveConn⟩

def AddRealServer (ipvs : IPVS) (vs : VirtualServer) (rs : RealServer) : IPVS × Except Error Unit :=
  ipvs.onService vs.key fun service =>
    if rs.dest.address.text = "<nil>" then .error "invalid argument"
    else
      match service.dests.lookup rs.dest with
      | some _ => .error "file exists"
      | none => .ok ({ service with dests := service.dests.insert rs.dest ⟨rs.weight, 0, 0⟩ }, ())

def UpdateRealServer (ipvs : IPVS) (vs : VirtualServer) (rs : RealServer) :
    IPVS × Except Error Unit :=
  ipvs.onService vs.key fun service =>
    match service.dests.lookup rs.dest with
    | none => .error "no such destination"
    | some state =>
      .ok ({ service with
        dests := service.dests.insert rs.dest { state with weight := rs.weight } }, ())

def DeleteRealServer (ipvs : IPVS) (vs : VirtualServer) (rs : RealServer) :
    IPVS × Except Error Unit :=
  ipvs.onService vs.key fun service =>
    match service.dests.lookup rs.dest with
    | none => .error "no such destination"
    | some _ => .ok ({ service with dests := service.dests.erase rs.dest }, ())

end IPVS

/-! ## The list of terminating real servers -/

/-- `listItem`. -/
structure ListItem where
  virtualServer : VirtualServer
  realServer : RealServer
  deriving DecidableEq, Repr

/-- `listItem.String`. -/
def ListItem.string (i : ListItem) : String := uniqueRSName i.virtualServer.key i.realServer.dest

/-- `graceTerminateRSList`: every item is under its own name. -/
structure RSList where
  list : GoMap String ListItem
  named : ∀ name item, list.lookup name = some item → item.string = name

namespace RSList

def empty : RSList := ⟨∅, fun _ _ h => by cases h⟩

/-- `graceTerminateRSList.add`. -/
def add (q : RSList) (rs : ListItem) : RSList :=
  match q.list.lookup rs.string with
  | some _ => q
  | none => ⟨q.list.insert rs.string rs, fun name item h => by
      rw [GoMap.lookup_insert_eq] at h
      split at h
      · cases h
        exact (‹name = _›).symm
      · exact q.named name item h⟩

/-- `graceTerminateRSList.remove`. -/
def remove (q : RSList) (rs : ListItem) : RSList :=
  ⟨q.list.erase rs.string, fun name item h => by
    rw [GoMap.lookup_erase_eq] at h
    split at h
    · cases h
    · exact q.named name item h⟩

/-- `graceTerminateRSList.exist`. -/
def exist (q : RSList) (uniqueRS : String) : Option ListItem := q.list.lookup uniqueRS

end RSList

/-- `GracefulTerminationManager`, with the IPVS interface that it shares with the
proxier. -/
structure GracefulTerminationManager where
  rsList : RSList
  ipvs : IPVS

/-- `utilipvs.IsRsGracefulTerminationNeeded`. -/
def IsRsGracefulTerminationNeeded (protocol : Protocol) : Bool := protocol ≠ .udp ∧ protocol ≠ .sctp

/-- `deleteRsFunc`: whether the item is done with, and the error. -/
def deleteRsFunc (ipvs : IPVS) (rsToDelete : ListItem) : IPVS × Bool × Option Error :=
  match ipvs.GetRealServers rsToDelete.virtualServer with
  | (ipvs, .error e) => (ipvs, false, some e)
  | (ipvs, .ok rss) =>
    match rss.find? fun rs => rs.dest = rsToDelete.realServer.dest with
    | none =>
      (ipvs, true,
        some ("failed to delete rs \"" ++ rsToDelete.string ++ "\", can't find the real server"))
    | some rs =>
      if IsRsGracefulTerminationNeeded rsToDelete.virtualServer.key.protocol ∧
          rs.activeConn + rs.inactiveConn ≠ 0 then (ipvs, false, none)
      else
        match ipvs.DeleteRealServer rsToDelete.virtualServer rs with
        | (ipvs, .error e) =>
          (ipvs, false, some ("delete destination \"" ++ rs.dest.string ++ "\" err: " ++ e))
        | (ipvs, .ok ()) => (ipvs, true, none)

namespace GracefulTerminationManager

/-- `InTerminationList`. -/
def InTerminationList (m : GracefulTerminationManager) (uniqueRS : String) : Bool :=
  (m.rsList.exist uniqueRS).isSome

/-- `GracefulDeleteRS`. -/
def GracefulDeleteRS (m : GracefulTerminationManager) (vs : VirtualServer) (rs : RealServer) :
    GracefulTerminationManager × Option Error :=
  match deleteRsFunc m.ipvs ⟨vs, rs⟩ with
  | (ipvs, true, _) => ({ m with ipvs := ipvs }, none)
  | (ipvs, false, _) =>
    let rs := { rs with weight := 0 }
    match ipvs.UpdateRealServer vs rs with
    | (ipvs, .error e) => ({ m with ipvs := ipvs }, some e)
    | (ipvs, .ok ()) => (⟨m.rsList.add ⟨vs, rs⟩, ipvs⟩, none)

/-- `MoveRSOutofGracefulDeleteList`. -/
def MoveRSOutofGracefulDeleteList (m : GracefulTerminationManager) (uniqueRS : String) :
    GracefulTerminationManager × Option Error :=
  match m.rsList.exist uniqueRS with
  | none => (m, some ("failed to find rs: \"" ++ uniqueRS ++ "\""))
  | some rsToDelete =>
    match m.ipvs.DeleteRealServer rsToDelete.virtualServer rsToDelete.realServer with
    | (ipvs, .error e) => ({ m with ipvs := ipvs }, some e)
    | (ipvs, .ok ()) => (⟨m.rsList.remove rsToDelete, ipvs⟩, none)

/-- One iteration of `flushList` with `deleteRsFunc`. -/
def flushItem (m : GracefulTerminationManager) (e : (_ : String) × ListItem) :
    GracefulTerminationManager :=
  match deleteRsFunc m.ipvs e.2 with
  | (ipvs, true, _) => ⟨m.rsList.remove e.2, ipvs⟩
  | (ipvs, false, _) => { m with ipvs := ipvs }

/-- `tryDeleteRs`, with the order of its loop. -/
def tryDeleteRs (m : GracefulTerminationManager) (order : RangeOrder ((_ : String) × ListItem)) :
    GracefulTerminationManager :=
  (order.visit m.rsList.list.entries).foldl flushItem m

end GracefulTerminationManager

end Fleetboard.Ipvs
