import Fleetboard.Model.Proxier

/-!
# The dummy device (`pkg/proxy/ipvs/netlink_linux.go`) and a whole sync

The proxier binds the addresses of the virtual servers to a dummy device. A sync binds
those that are not bound yet, and afterwards unbinds what was bound and is not used.

`SyncState.syncProxyRules` is the sync of `Fleetboard.Model.Proxier` with the device and with
the validation of the entries of the ipsets; of the ipsets themselves only the outcome of
`ensureIPSet` is kept.
-/

namespace Fleetboard.Ipvs

open Fleetboard.Proxy

/-! ## Kinds of addresses -/

/-- `netutils.IsIPv6`. -/
def IsIPv6 (ip : IPText) : Bool := (ipOf ip).any fun a => (Net.IP.to4 a).isNone

/-- `net.IP.IsLoopback`: `127.0.0.0/8` or `::1`. -/
def IsLoopback (ip : IPText) : Bool :=
  (ipOf ip).any fun a =>
    match Net.IP.to4 a with
    | some v4 => v4.toNat / 2 ^ 24 = 127
    | none => a = 1

/-- `net.IP.IsLinkLocalUnicast`: `169.254.0.0/16` or `fe80::/10`. -/
def IsLinkLocalUnicast (ip : IPText) : Bool :=
  (ipOf ip).any fun a =>
    match Net.IP.to4 a with
    | some v4 => v4.toNat / 2 ^ 16 = 169 * 256 + 254
    | none => a.toNat / 2 ^ 118 = 0xfe80 / 2 ^ 6

/-! ## The device -/

/-- `netlinkHandle`, with the addresses of the dummy device. -/
structure NetLinkHandle where
  isIPv6 : Bool
  addresses : List IPText

namespace NetLinkHandle

/-- `isValidForSet`. -/
def isValidForSet (h : NetLinkHandle) (ip : IPText) : Bool :=
  if h.isIPv6 ≠ IsIPv6 ip then false
  else if h.isIPv6 ∧ IsLinkLocalUnicast ip then false
  else if IsLoopback ip then false
  else true

/-- `GetLocalAddresses`: a set of texts. -/
def GetLocalAddresses (h : NetLinkHandle) (err : Option Error) : Except Error (List String) :=
  match err with
  | some e => .error e
  | none => .ok ((h.addresses.filter h.isValidForSet).map (·.text)).dedup

/-- `EnsureAddressBind`; an address that is bound already is no error. -/
def EnsureAddressBind (h : NetLinkHandle) (cfg : Config) (address : String) (err : Option Error) :
    NetLinkHandle × Except Error Bool :=
  let addr := cfg.parseIPSloppy address
  if addr.text = "<nil>" then (h, .error ("error parse ip address: " ++ address))
  else
    match err with
    | some e => (h, .error e)
    | none =>
      if addr ∈ h.addresses then (h, .ok true)
      else ({ h with addresses := addr :: h.addresses }, .ok false)

/-- `UnbindAddress`; an address that is not bound is no error. -/
def UnbindAddress (h : NetLinkHandle) (cfg : Config) (address : String) (err : Option Error) :
    NetLinkHandle × Option Error :=
  let addr := cfg.parseIPSloppy address
  if addr.text = "<nil>" then (h, some ("error parse ip address: " ++ address))
  else
    match err with
    | some e => (h, some e)
    | none => ({ h with addresses := h.addresses.filter (· ≠ addr) }, none)

end NetLinkHandle

/-! ## A sync with the device -/

/-- `utilipset.Entry` of the type `hash:ip,port`. -/
structure Entry where
  ip : String
  port : Int
  protocol : String
  deriving DecidableEq, Repr

/-- `strings.ToLower` of a protocol. -/
def protocolLower : Protocol → String
  | .tcp => "tcp"
  | .udp => "udp"
  | .sctp => "sctp"

/-- The entry of a service port in the ipset of the cluster IPs. -/
def clusterIPEntry (info : ServicePortInfo) : Entry :=
  ⟨info.clusterIP.text, info.port, protocolLower info.protocol⟩

/-- The orders and outcomes of one sync, those of the device and of the ipsets included. -/
structure DeviceEnv extends SyncEnv where
  ensureDeviceErr : Option Error
  ensureIPSetErr : Option Error
  addressesErr : Option Error
  unbind : RangeOrder String
  unbindErr : String → Option Error

/-- The proxier with the device. `validateEntry` is the library's check of an entry of the
ipset of the cluster IPs. -/
structure SyncState where
  proxier : Proxier
  netlink : NetLinkHandle
  initialized : Bool
  validateEntry : Entry → Bool

namespace SyncState

/-- The virtual servers and addresses that a sync has seen so far. -/
structure Round where
  state : SyncState
  activeIPVSServices : List String
  activeBindAddrs : List String

/-- `syncService`, with the addresses that were bound before the sync, if they are known. -/
def syncService (s : SyncState) (cfg : Config) (vs : VirtualServer)
    (alreadyBoundAddrs : Option (List String)) (bindErr : Option Error) :
    SyncState × Option Error :=
  match Ipvs.syncService s.proxier.manager.ipvs vs none with
  | (ipvs, some e) => ({ s with proxier := s.proxier.withIpvs ipvs }, some e)
  | (ipvs, none) =>
    let s := { s with proxier := s.proxier.withIpvs ipvs }
    if alreadyBoundAddrs.any (vs.key.address.text ∈ ·) then (s, none)
    else
      match s.netlink.EnsureAddressBind cfg vs.key.address.text bindErr with
      | (netlink, .error e) => ({ s with netlink := netlink }, some e)
      | (netlink, .ok _) => ({ s with netlink := netlink }, none)

/-- One iteration of the loop over the service ports. -/
def syncServicePort (cfg : Config) (env : DeviceEnv) (alreadyBoundAddrs : Option (List String))
    (r : Round) (e : (_ : ServicePortName) × ServicePortInfo) : Round :=
  let s := r.state
  if ¬ s.validateEntry (clusterIPEntry e.2) then r
  else
    let serv := virtualServer s.proxier e.2
    match s.syncService cfg serv alreadyBoundAddrs (env.bindErr serv.key.address) with
    | (s, some _) => { r with state := s }
    | (s, none) =>
      let internalNodeLocal := (servicePort e.2).internalPolicyLocal
      let proxier := (syncEndpoint cfg s.proxier e.1 internalNodeLocal serv env.endpoints).1
      { state := { s with proxier := proxier }
        activeIPVSServices := serv.key.string :: r.activeIPVSServices
        activeBindAddrs := serv.key.address.text :: r.activeBindAddrs }

/-- The loop that unbinds the addresses that are not used. -/
def unbindSuperfluous (cfg : Config) (env : DeviceEnv) (netlink : NetLinkHandle)
    (superfluousAddresses : List String) : NetLinkHandle :=
  (env.unbind.visit superfluousAddresses).foldl
    (fun netlink adr => (netlink.UnbindAddress cfg adr (env.unbindErr adr)).1) netlink

/-- `syncProxyRules`, from the updated maps on. -/
def syncProxyRules (s : SyncState) (cfg : Config) (env : DeviceEnv) : SyncState :=
  if ¬ s.initialized then s
  else
    let s := { s with proxier := { s.proxier with
      serviceNoLocalEndpointsInternal := ∅, serviceNoLocalEndpointsExternal := ∅ } }
    let finish (s : SyncState) : SyncState :=
      { s with proxier := { s.proxier with initialSync := false } }
    match env.ensureDeviceErr, env.ensureIPSetErr with
    | some _, _ | none, some _ => finish s
    | none, none =>
      let alreadyBoundAddrs := (s.netlink.GetLocalAddresses env.addressesErr).toOption
      let r := (env.svcPorts.visit s.proxier.svcPortMap.entries).foldl
        (syncServicePort cfg env alreadyBoundAddrs) ⟨s, [], []⟩
      let superfluousAddresses := (alreadyBoundAddrs.getD []).filter (· ∉ r.activeBindAddrs)
      finish { r.state with
        netlink := unbindSuperfluous cfg env r.state.netlink superfluousAddresses
        proxier := cleanLegacyService cfg r.state.proxier r.activeIPVSServices env.services }

end SyncState

end Fleetboard.Ipvs
