import Fleetboard.Model.DummyDevice
import Fleetboard.Proof.VirtualServers

/-!
# The addresses of the dummy device after a sync

* `SyncState.syncProxyRules_proxier`: the proxier of a sync with the device is that of the
  sync without it;
* `SyncState.mem_addresses_syncProxyRules`: the device has the addresses of the service ports
  and those that `GetLocalAddresses` leaves out.
-/

namespace Fleetboard.Ipvs

open Fleetboard.Proxy

/-- An address that its text is read as. -/
structure ValidIP (cfg : Config) (ip : IPText) : Prop where
  reads : cfg.parseIPSloppy ip.text = ip
  ne_nil : ip.text ≠ "<nil>"

theorem IPText.ext_text {a b : IPText} (h : a.text = b.text) : a = b := by
  cases a
  cases b
  cases h
  rfl

namespace SyncState

variable {cfg : Config} {env : DeviceEnv} {alreadyBoundAddrs : Option (List String)}
  {s : SyncState} {r : Round} {e : (_ : ServicePortName) × ServicePortInfo}
  {es : List ((_ : ServicePortName) × ServicePortInfo)}

/-! ## The proxier -/

/-- The outcome of binding an address in a sync. -/
def bindOutcome (cfg : Config) (env : DeviceEnv) (alreadyBoundAddrs : Option (List String))
    (ip : IPText) : Option Error :=
  if alreadyBoundAddrs.any (ip.text ∈ ·) then none
  else if (cfg.parseIPSloppy ip.text).text = "<nil>" then
    some ("error parse ip address: " ++ ip.text)
  else env.bindErr ip

/-- The sync without the device, with these outcomes. -/
def plainEnv (cfg : Config) (env : DeviceEnv) (alreadyBoundAddrs : Option (List String)) : SyncEnv :=
  { env.toSyncEnv with bindErr := bindOutcome cfg env alreadyBoundAddrs }

theorem syncService_none (ipvs : IPVS) (vs : VirtualServer) (bindErr : Option Error) :
    Ipvs.syncService ipvs vs bindErr =
      ((Ipvs.syncService ipvs vs none).1, (Ipvs.syncService ipvs vs none).2.or bindErr) := by
  simp only [Ipvs.syncService]
  split <;> rfl

section

variable (cfg env alreadyBoundAddrs)

/-- What `syncService` does: the virtual server as without the device, and the address. -/
theorem syncService_eq (s : SyncState) (vs : VirtualServer) :
    ∃ netlink, s.syncService cfg vs alreadyBoundAddrs (env.bindErr vs.key.address) =
      ({ s with
        proxier := s.proxier.withIpvs (Ipvs.syncService s.proxier.manager.ipvs vs
          (bindOutcome cfg env alreadyBoundAddrs vs.key.address)).1
        netlink := netlink },
        (Ipvs.syncService s.proxier.manager.ipvs vs
          (bindOutcome cfg env alreadyBoundAddrs vs.key.address)).2) := by
  rw [syncService_none, syncService, bindOutcome]
  generalize Ipvs.syncService s.proxier.manager.ipvs vs none = res
  obtain ⟨ipvs, err⟩ := res
  cases err with
  | some e => exact ⟨s.netlink, rfl⟩
  | none =>
    simp only [Option.none_or, NetLinkHandle.EnsureAddressBind]
    split_ifs with hbound hnil hmem
    · exact ⟨s.netlink, rfl⟩
    · exact ⟨s.netlink, rfl⟩
    · cases env.bindErr vs.key.address <;> exact ⟨_, rfl⟩
    · cases env.bindErr vs.key.address <;> exact ⟨_, rfl⟩

/-- An iteration does to the proxier what it does without the device. -/
theorem syncServicePort_proxier (hvalid : r.state.validateEntry (clusterIPEntry e.2) = true) :
    let r' := syncServicePort cfg env alreadyBoundAddrs r e
    (r'.state.proxier, r'.activeIPVSServices) =
        Ipvs.syncServicePort cfg (plainEnv cfg env alreadyBoundAddrs)
          (r.state.proxier, r.activeIPVSServices) e ∧
      r'.state.validateEntry = r.state.validateEntry := by
  obtain ⟨netlink, hsync⟩ := syncService_eq cfg env alreadyBoundAddrs r.state
    (virtualServer r.state.proxier e.2)
  simp only [syncServicePort, hvalid, not_true_eq_false, if_false, hsync, Ipvs.syncServicePort,
    plainEnv]
  generalize Ipvs.syncService r.state.proxier.manager.ipvs (virtualServer r.state.proxier e.2)
    (bindOutcome cfg env alreadyBoundAddrs (virtualServer r.state.proxier e.2).key.address) = res
  obtain ⟨ipvs, err⟩ := res
  cases err <;> exact ⟨rfl, rfl⟩

theorem foldl_syncServicePort_proxier
    (hvalid : ∀ e ∈ es, r.state.validateEntry (clusterIPEntry e.2) = true) :
    let r' := es.foldl (syncServicePort cfg env alreadyBoundAddrs) r
    (r'.state.proxier, r'.activeIPVSServices) =
      es.foldl (Ipvs.syncServicePort cfg (plainEnv cfg env alreadyBoundAddrs))
        (r.state.proxier, r.activeIPVSServices) := by
  induction es generalizing r with
  | nil => rfl
  | cons e es ih =>
    obtain ⟨hstep, hentry⟩ := syncServicePort_proxier cfg env alreadyBoundAddrs
      (hvalid e List.mem_cons_self)
    rw [List.foldl_cons, List.foldl_cons, ← hstep]
    refine ih fun e' he' => ?_
    rw [hentry]
    exact hvalid e' (List.mem_cons_of_mem e he')

end

/-- The calls that set up the device and the ipsets succeed, and every service port has a
valid entry. -/
structure Ready (s : SyncState) (env : DeviceEnv) : Prop where
  initialized : s.initialized = true
  device : env.ensureDeviceErr = none
  ipsets : env.ensureIPSetErr = none
  entries : ∀ name info, s.proxier.svcPortMap.lookup name = some info →
    s.validateEntry (clusterIPEntry info) = true

/-- What the loop over the service ports starts from. -/
def start (s : SyncState) : Round :=
  ⟨{ s with proxier := { s.proxier with
    serviceNoLocalEndpointsInternal := ∅, serviceNoLocalEndpointsExternal := ∅ } }, [], []⟩

/-- The loop over the service ports of a sync. -/
def round (s : SyncState) (cfg : Config) (env : DeviceEnv) : Round :=
  (env.svcPorts.visit s.proxier.svcPortMap.entries).foldl
    (syncServicePort cfg env (s.netlink.GetLocalAddresses env.addressesErr).toOption) s.start

theorem Ready.syncProxyRules_eq (h : s.Ready env) (cfg : Config) :
    (s.syncProxyRules cfg env).proxier = { cleanLegacyService cfg (s.round cfg env).state.proxier
        (s.round cfg env).activeIPVSServices env.services with initialSync := false } ∧
      (s.syncProxyRules cfg env).netlink = unbindSuperfluous cfg env (s.round cfg env).state.netlink
        (((s.netlink.GetLocalAddresses env.addressesErr).toOption.getD []).filter
          (· ∉ (s.round cfg env).activeBindAddrs)) := by
  rw [syncProxyRules, if_neg (not_not_intro h.initialized), h.device, h.ipsets]
  exact ⟨rfl, rfl⟩

/-- The proxier after a sync is that after the sync without the device, with the outcomes of
binding the addresses. -/
theorem syncProxyRules_proxier (h : s.Ready env) (cfg : Config) :
    (s.syncProxyRules cfg env).proxier = Ipvs.syncProxyRules cfg s.proxier
      (plainEnv cfg env (s.netlink.GetLocalAddresses env.addressesErr).toOption) := by
  have hfold : ((s.round cfg env).state.proxier, (s.round cfg env).activeIPVSServices) = _ :=
    foldl_syncServicePort_proxier cfg env (s.netlink.GetLocalAddresses env.addressesErr).toOption
      (r := s.start) fun e he => h.entries e.1 e.2 (GoMap.mem_entries_iff.mp (env.svcPorts.mem_visit.mp he))
  have hclean : ∀ st : Proxier × List String,
      ((s.round cfg env).state.proxier, (s.round cfg env).activeIPVSServices) = st →
      { cleanLegacyService cfg (s.round cfg env).state.proxier (s.round cfg env).activeIPVSServices
        env.services with initialSync := false } =
      { cleanLegacyService cfg st.1 st.2 env.services with initialSync := false } := by
    rintro _ rfl
    rfl
  rw [(h.syncProxyRules_eq cfg).1]
  exact hclean _ hfold

/-! ## The addresses -/

/-- The calls on the device succeed, and its addresses and those of the service ports are
addresses. -/
structure Binds (s : SyncState) (cfg : Config) (env : DeviceEnv) : Prop where
  addresses : env.addressesErr = none
  bind : ∀ a, env.bindErr a = none
  unbind : ∀ a, env.unbindErr a = none
  bound : ∀ a ∈ s.netlink.addresses, ValidIP cfg a
  clusterIPs : ∀ name info, s.proxier.svcPortMap.lookup name = some info → ValidIP cfg info.clusterIP

/-- What the sync of some service ports does to the device: it gets their addresses, unless
they were bound before. -/
structure Bound (es : List ((_ : ServicePortName) × ServicePortInfo))
    (alreadyBoundAddrs : Option (List String)) (r r' : Round) : Prop where
  faults : r'.state.proxier.manager.ipvs.faults = []
  validateEntry : r'.state.validateEntry = r.state.validateEntry
  isIPv6 : r'.state.netlink.isIPv6 = r.state.netlink.isIPv6
  active : ∀ n, n ∈ r'.activeBindAddrs ↔ n ∈ r.activeBindAddrs ∨ ∃ e ∈ es, e.2.clusterIP.text = n
  mem : ∀ a, a ∈ r'.state.netlink.addresses ↔ a ∈ r.state.netlink.addresses ∨
    (∃ e ∈ es, e.2.clusterIP = a) ∧ ¬ alreadyBoundAddrs.any (a.text ∈ ·)

variable (alreadyBoundAddrs) in
theorem syncService_bound (h : s.proxier.manager.ipvs.faults = []) (vs : VirtualServer)
    (hip : ValidIP cfg vs.key.address) :
    ∃ ipvs' netlink, s.syncService cfg vs alreadyBoundAddrs none =
        ({ s with proxier := s.proxier.withIpvs ipvs', netlink := netlink }, none) ∧
      ipvs'.faults = [] ∧ netlink.isIPv6 = s.netlink.isIPv6 ∧
      ∀ a, a ∈ netlink.addresses ↔ a ∈ s.netlink.addresses ∨
        vs.key.address = a ∧ ¬ alreadyBoundAddrs.any (a.text ∈ ·) := by
  obtain ⟨ipvs', _, hservice, hfaults, -⟩ := syncService_spec h vs
  simp only [syncService, hservice]
  by_cases hbound : alreadyBoundAddrs.any (vs.key.address.text ∈ ·) = true
  · refine ⟨ipvs', s.netlink, if_pos hbound, hfaults, rfl, fun a => ?_⟩
    refine (or_iff_left ?_).symm
    rintro ⟨rfl, hnot⟩
    exact hnot hbound
  · have hbinds : ∀ a, vs.key.address = a ∧ ¬ alreadyBoundAddrs.any (a.text ∈ ·) = true ↔
        a = vs.key.address := by
      intro a
      refine ⟨fun ha => ha.1.symm, ?_⟩
      rintro rfl
      exact ⟨rfl, hbound⟩
    simp only [if_neg hbound, hbinds, NetLinkHandle.EnsureAddressBind, hip.reads, if_neg hip.ne_nil]
    by_cases hmem : vs.key.address ∈ s.netlink.addresses
    · simp only [if_pos hmem]
      refine ⟨ipvs', s.netlink, rfl, hfaults, rfl, fun a => ?_⟩
      refine (or_iff_left_of_imp ?_).symm
      rintro rfl
      exact hmem
    · simp only [if_neg hmem]
      exact ⟨ipvs', _, rfl, hfaults, rfl, fun a => List.mem_cons.trans or_comm⟩

theorem syncServicePort_bound (h : r.state.proxier.manager.ipvs.faults = [])
    (hvalid : r.state.validateEntry (clusterIPEntry e.2) = true) (hip : ValidIP cfg e.2.clusterIP)
    (hbind : ∀ a, env.bindErr a = none) :
    Bound [e] alreadyBoundAddrs r (syncServicePort cfg env alreadyBoundAddrs r e) := by
  obtain ⟨ipvs', netlink, hsync, hfaults, hfamily, hmem⟩ := syncService_bound
    alreadyBoundAddrs h (virtualServer r.state.proxier e.2) hip
  have honly := (syncEndpoint_onlyDests cfg (p := r.state.proxier.withIpvs ipvs') hfaults e.1
    (servicePort e.2).internalPolicyLocal (virtualServer r.state.proxier e.2) env.endpoints).2
  simp only [syncServicePort, hvalid, not_true_eq_false, if_false, hbind, hsync]
  refine ⟨honly.faults, rfl, hfamily, fun n => ?_, fun a => ?_⟩
  · rw [List.mem_cons, or_comm, eq_comm]
    simp only [List.mem_singleton, exists_eq_left]
    rfl
  · rw [hmem]
    simp only [List.mem_singleton, exists_eq_left]
    rfl

theorem Bound.cons {r' r'' : Round} (h : Bound [e] alreadyBoundAddrs r r')
    (h' : Bound es alreadyBoundAddrs r' r'') : Bound (e :: es) alreadyBoundAddrs r r'' where
  faults := h'.faults
  validateEntry := h'.validateEntry.trans h.validateEntry
  isIPv6 := h'.isIPv6.trans h.isIPv6
  active n := by
    rw [h'.active, h.active, or_assoc]
    simp
  mem a := by
    rw [h'.mem, h.mem, or_assoc, ← or_and_right]
    simp

theorem foldl_syncServicePort_bound (h : r.state.proxier.manager.ipvs.faults = [])
    (hvalid : ∀ e ∈ es, r.state.validateEntry (clusterIPEntry e.2) = true)
    (hip : ∀ e ∈ es, ValidIP cfg e.2.clusterIP) (hbind : ∀ a, env.bindErr a = none) :
    Bound es alreadyBoundAddrs r (es.foldl (syncServicePort cfg env alreadyBoundAddrs) r) := by
  induction es generalizing r with
  | nil => exact ⟨h, rfl, rfl, fun _ => by simp, fun _ => by simp⟩
  | cons e es ih =>
    have hstep : Bound [e] alreadyBoundAddrs r (syncServicePort cfg env alreadyBoundAddrs r e) :=
      syncServicePort_bound h (hvalid e List.mem_cons_self) (hip e List.mem_cons_self) hbind
    refine hstep.cons (ih hstep.faults (fun e' he' => ?_)
      fun e' he' => hip e' (List.mem_cons_of_mem e he'))
    rw [hstep.validateEntry]
    exact hvalid e' (List.mem_cons_of_mem e he')

theorem mem_unbindSuperfluous {netlink : NetLinkHandle} {adrs : List String}
    (hunbind : ∀ a, env.unbindErr a = none)
    (hip : ∀ adr ∈ adrs, (cfg.parseIPSloppy adr).text ≠ "<nil>") (a : IPText) :
    a ∈ (unbindSuperfluous cfg env netlink adrs).addresses ↔
      a ∈ netlink.addresses ∧ ∀ adr ∈ adrs, cfg.parseIPSloppy adr ≠ a := by
  have hloop : ∀ (l : List String) (netlink : NetLinkHandle),
      (∀ adr ∈ l, (cfg.parseIPSloppy adr).text ≠ "<nil>") →
      (a ∈ (l.foldl (fun netlink adr =>
        (netlink.UnbindAddress cfg adr (env.unbindErr adr)).1) netlink).addresses ↔
        a ∈ netlink.addresses ∧ ∀ adr ∈ l, cfg.parseIPSloppy adr ≠ a) := by
    intro l
    induction l with
    | nil => simp
    | cons adr l ih =>
      intro netlink hl
      rw [List.foldl_cons, ih _ fun adr' h => hl adr' (List.mem_cons_of_mem adr h)]
      simp only [NetLinkHandle.UnbindAddress, if_neg (hl adr List.mem_cons_self), hunbind,
        List.mem_filter, decide_eq_true_eq, List.forall_mem_cons, and_assoc, ne_comm, ne_eq]
  rw [unbindSuperfluous, hloop _ _ fun adr h => hip adr (env.unbind.mem_visit.mp h)]
  simp only [env.unbind.mem_visit]

/-- The addresses that `GetLocalAddresses` reports. -/
def localAddresses (s : SyncState) : List String :=
  ((s.netlink.addresses.filter s.netlink.isValidForSet).map (·.text)).dedup

theorem mem_localAddresses {n : String} : n ∈ s.localAddresses ↔
    ∃ b ∈ s.netlink.addresses, s.netlink.isValidForSet b = true ∧ b.text = n := by
  simp only [localAddresses, List.mem_dedup, List.mem_map, List.mem_filter, and_assoc]

theorem text_mem_localAddresses {a : IPText} : a.text ∈ s.localAddresses ↔
    a ∈ s.netlink.addresses ∧ s.netlink.isValidForSet a = true := by
  rw [mem_localAddresses]
  constructor
  · rintro ⟨b, hb, hset, htext⟩
    rw [← IPText.ext_text htext]
    exact ⟨hb, hset⟩
  · rintro ⟨ha, hset⟩
    exact ⟨a, ha, hset, rfl⟩

/-- The addresses of the service ports. -/
def HasClusterIP (s : SyncState) (a : IPText) : Prop :=
  ∃ name info, s.proxier.svcPortMap.lookup name = some info ∧ info.clusterIP = a

theorem round_bound (h : s.Ready env) (hb : s.Binds cfg env)
    (hfaults : s.proxier.manager.ipvs.faults = []) :
    (∀ a : IPText, a.text ∈ (s.round cfg env).activeBindAddrs ↔ s.HasClusterIP a) ∧
      ∀ a, a ∈ (s.round cfg env).state.netlink.addresses ↔
        a ∈ s.netlink.addresses ∨ s.HasClusterIP a ∧ a.text ∉ s.localAddresses := by
  have hmem : ∀ {e}, e ∈ env.svcPorts.visit s.proxier.svcPortMap.entries ↔
      s.proxier.svcPortMap.lookup e.1 = some e.2 :=
    fun {e} => env.svcPorts.mem_visit.trans GoMap.mem_entries_iff
  have hnamed : ∀ a, (∃ e ∈ env.svcPorts.visit s.proxier.svcPortMap.entries, e.2.clusterIP = a) ↔
      s.HasClusterIP a := by
    intro a
    constructor
    · rintro ⟨e, he, heq⟩
      exact ⟨e.1, e.2, hmem.mp he, heq⟩
    · rintro ⟨name, info, hinfo, heq⟩
      exact ⟨⟨name, info⟩, hmem.mpr hinfo, heq⟩
  have hround : Bound (env.svcPorts.visit s.proxier.svcPortMap.entries) (some s.localAddresses)
      s.start (s.round cfg env) := by
    rw [round, hb.addresses]
    exact foldl_syncServicePort_bound hfaults (fun e he => h.entries e.1 e.2 (hmem.mp he))
      (fun e he => hb.clusterIPs e.1 e.2 (hmem.mp he)) hb.bind
  refine ⟨fun a => ?_, fun a => ?_⟩
  · have hnil : a.text ∉ s.start.activeBindAddrs := List.not_mem_nil
    rw [hround.active, or_iff_right hnil, ← hnamed]
    constructor
    · rintro ⟨e, he, htext⟩
      exact ⟨e, he, IPText.ext_text htext⟩
    · rintro ⟨e, he, rfl⟩
      exact ⟨e, he, rfl⟩
  · rw [hround.mem, hnamed, Option.any_some, decide_eq_true_iff]
    rfl

/-- After a sync whose calls succeed the device has the addresses of the service ports, and of
those that it had before the ones that `GetLocalAddresses` leaves out. -/
theorem mem_addresses_syncProxyRules (h : s.Ready env) (hb : s.Binds cfg env)
    (hfaults : s.proxier.manager.ipvs.faults = []) (a : IPText) :
    a ∈ (s.syncProxyRules cfg env).netlink.addresses ↔
      s.HasClusterIP a ∨ a ∈ s.netlink.addresses ∧ s.netlink.isValidForSet a = false := by
  obtain ⟨hactive, hbound⟩ := round_bound h hb hfaults
  have hreads : ∀ adr ∈ s.localAddresses.filter (· ∉ (s.round cfg env).activeBindAddrs),
      ∃ b, ValidIP cfg b ∧ b.text = adr := by
    intro adr hadr
    obtain ⟨b, hmem, -, htext⟩ := mem_localAddresses.mp (List.mem_filter.mp hadr).1
    exact ⟨b, hb.bound b hmem, htext⟩
  have hkept : (∀ adr ∈ s.localAddresses.filter (· ∉ (s.round cfg env).activeBindAddrs),
      cfg.parseIPSloppy adr ≠ a) ↔
      (a ∈ s.netlink.addresses → s.netlink.isValidForSet a = true → s.HasClusterIP a) := by
    constructor
    · intro hne ha hset
      by_contra hno
      refine hne a.text (List.mem_filter.mpr ⟨text_mem_localAddresses.mpr ⟨ha, hset⟩, ?_⟩)
        (hb.bound a ha).reads
      rw [decide_eq_true_iff, hactive]
      exact hno
    · rintro himp adr hadr hparse
      obtain ⟨b, hvalid, rfl⟩ := hreads adr hadr
      obtain rfl : b = a := hvalid.reads.symm.trans hparse
      obtain ⟨hlocal, hinactive⟩ := List.mem_filter.mp hadr
      rw [decide_eq_true_iff, hactive] at hinactive
      obtain ⟨hmem, hset⟩ := text_mem_localAddresses.mp hlocal
      exact hinactive (himp hmem hset)
  rw [(h.syncProxyRules_eq cfg).2, hb.addresses]
  refine (mem_unbindSuperfluous hb.unbind (fun adr hadr => ?_) a).trans ?_
  · obtain ⟨b, hvalid, rfl⟩ := hreads adr hadr
    rw [hvalid.reads]
    exact hvalid.ne_nil
  · refine (and_congr (hbound a) hkept).trans ?_
    rw [text_mem_localAddresses, ← Bool.not_eq_true]
    by_cases hset : s.netlink.isValidForSet a = true
    · by_cases ha : a ∈ s.netlink.addresses <;> simp [ha, hset]
    · by_cases ha : a ∈ s.netlink.addresses <;> simp [ha, hset]

/-! ## A sync -/

/-- After a sync whose calls succeed, the virtual servers of the proxier's family that are not
excluded are those of the service ports, every service port has its own, and the others are
unchanged; the device has the addresses of the service ports and, of its family, no other but
loopback and, for IPv6, link-local ones, which stay there. -/
theorem syncProxyRules_converges (h : s.Ready env) (hb : s.Binds cfg env)
    (hfaults : s.proxier.manager.ipvs.faults = [])
    (hfamily : s.netlink.isIPv6 = decide (cfg.ipFamily = .ipv6)) :
    let p := s.proxier
    let ipvs := (s.syncProxyRules cfg env).proxier.manager.ipvs
    let addresses := (s.syncProxyRules cfg env).netlink.addresses
    (∀ k, getIPFamily k.address = cfg.ipFamily → p.isIPInExcludeCIDRs k.address = false →
      (ipvs.Has k ↔ p.Desired k)) ∧
    (∀ name info, p.svcPortMap.lookup name = some info →
      ipvs.server (svcKey info) = some (virtualServer p info)) ∧
    (∀ k, ¬ p.Desired k →
      getIPFamily k.address ≠ cfg.ipFamily ∨ p.isIPInExcludeCIDRs k.address = true →
      ipvs.services.lookup k = p.manager.ipvs.services.lookup k) ∧
    (∀ a, IsIPv6 a = decide (cfg.ipFamily = .ipv6) → IsLoopback a = false →
      (cfg.ipFamily = .ipv6 → IsLinkLocalUnicast a = false) →
      (a ∈ addresses ↔ s.HasClusterIP a)) ∧
    (∀ a, s.HasClusterIP a → a ∈ addresses) ∧
    (cfg.ipFamily = .ipv6 → ∀ a ∈ s.netlink.addresses, IsLinkLocalUnicast a = true →
      a ∈ addresses) := by
  intro p ipvs addresses
  have hbind : ∀ name info, p.svcPortMap.lookup name = some info →
      (plainEnv cfg env (s.netlink.GetLocalAddresses env.addressesErr).toOption).bindErr
        info.clusterIP = none := by
    intro name info hinfo
    have hip := hb.clusterIPs name info hinfo
    simp only [plainEnv, bindOutcome, hip.reads, if_neg hip.ne_nil, hb.bind, ite_self]
  obtain ⟨hserved, hothers⟩ := syncProxyRules_servers cfg hfaults hbind
  rw [← syncProxyRules_proxier h cfg] at hserved hothers
  have haddresses := mem_addresses_syncProxyRules h hb hfaults
  refine ⟨fun k hk hin => ⟨fun hhas => ?_, ?_⟩, hserved, fun k hk hout => ?_, fun a ha hloop hlocal => ?_,
    fun a ha => (haddresses a).mpr (.inl ha), fun h6 a ha hlocal => ?_⟩
  · by_contra hno
    exact hhas ((hothers k hno).trans (if_pos ⟨hin, hk⟩))
  · rintro ⟨name, info, hinfo, rfl⟩ hnone
    have hserver := hserved name info hinfo
    rw [IPVS.server, hnone] at hserver
    cases hserver
  · rw [hothers k hk, if_neg]
    rintro ⟨hin, hk⟩
    rcases hout with hout | hout
    · exact hout hk
    · rw [hin] at hout
      cases hout
  · have hset : s.netlink.isValidForSet a = true := by
      simp only [NetLinkHandle.isValidForSet, hfamily, ha, hloop]
      by_cases h6 : cfg.ipFamily = .ipv6
      · simp [h6, hlocal h6]
      · simp [h6]
    rw [haddresses, hset]
    simp
  · have hset : s.netlink.isValidForSet a = false := by
      simp [NetLinkHandle.isValidForSet, hfamily, h6, hlocal]
    exact (haddresses a).mpr (.inr ⟨ha, hset⟩)

/-- The calls of a sync that all succeed. -/
def quietEnv : DeviceEnv := ⟨shopEnv, none, none, none, .stored, fun _ => none⟩

/-- A proxier with one service port, and a device with an address that is not used. -/
def shopState : SyncState :=
  ⟨{ newProxier with svcPortMap := shopPorts }, ⟨false, [sampleParse "10.96.0.9"]⟩, true,
    fun entry => decide (0 ≤ entry.port)⟩

theorem shopPorts_lookup {name : ServicePortName} {info : ServicePortInfo}
    (h : shopPorts.lookup name = some info) :
    info = ⟨shopServer.key.address, 80, .tcp, 0, "http"⟩ := by
  rw [shopPorts, GoMap.lookup_insert_eq] at h
  split at h
  · exact (Option.some_inj.mp h).symm
  · cases h

theorem sampleConfig_valid (text : String) (h : (sampleParse text).text ≠ "<nil>") :
    ValidIP sampleConfig (sampleParse text) :=
  ⟨sampleConfig.parse_text text, h⟩

theorem syncProxyRules_converges_shop :
    (shopState.syncProxyRules sampleConfig quietEnv).proxier.manager.ipvs.server shopServer.key =
        some shopServer ∧
      sampleParse "10.96.0.9" ∉
        (shopState.syncProxyRules sampleConfig quietEnv).netlink.addresses ∧
      sampleParse "10.96.0.7" ∈
        (shopState.syncProxyRules sampleConfig quietEnv).netlink.addresses := by
  have hready : shopState.Ready quietEnv := by
    refine ⟨rfl, rfl, rfl, fun name info hinfo => ?_⟩
    rw [shopPorts_lookup hinfo]
    rfl
  have hbinds : shopState.Binds sampleConfig quietEnv := by
    refine ⟨rfl, fun _ => rfl, fun _ => rfl, fun a ha => ?_, fun name info hinfo => ?_⟩
    · obtain rfl := List.mem_singleton.mp ha
      exact sampleConfig_valid _ (by decide)
    · rw [shopPorts_lookup hinfo]
      exact sampleConfig_valid "10.96.0.7" (by decide)
  obtain ⟨-, hserved, -, haddresses, hbound, -⟩ :=
    syncProxyRules_converges hready hbinds rfl (by decide)
  refine ⟨hserved shopPort _ (AList.lookup_insert _), ?_, ?_⟩
  · rw [haddresses _ (by decide) (by decide) (by decide)]
    rintro ⟨name, info, hinfo, heq⟩
    rw [shopPorts_lookup hinfo] at heq
    exact absurd heq (by decide)
  · exact hbound _ ⟨shopPort, _, AList.lookup_insert _, rfl⟩

/-- A proxier for IPv6 without service ports, and a device with a link-local address. -/
def linkLocalState : SyncState :=
  ⟨newProxier, ⟨true, [sampleParse "fe80::1"]⟩, true,
    fun entry => decide (0 ≤ entry.port)⟩

def ipv6Config : Config := { sampleConfig with ipFamily := .ipv6 }

/-- A link-local address stays on the device. -/
theorem linkLocal_stays_bound :
    linkLocalState.Ready quietEnv ∧ linkLocalState.Binds ipv6Config quietEnv ∧
      linkLocalState.proxier.manager.ipvs.faults = [] ∧
      linkLocalState.netlink.isIPv6 = decide (ipv6Config.ipFamily = .ipv6) ∧
      linkLocalState.proxier.svcPortMap = ∅ ∧
      ¬ ∀ a, IsIPv6 a = decide (ipv6Config.ipFamily = .ipv6) → IsLoopback a = false →
        (a ∈ (linkLocalState.syncProxyRules ipv6Config quietEnv).netlink.addresses ↔
          linkLocalState.HasClusterIP a) := by
  refine ⟨⟨rfl, rfl, rfl, fun name info hinfo => by cases hinfo⟩, ⟨rfl, fun _ => rfl, fun _ => rfl,
    fun a ha => ?_, fun name info hinfo => by cases hinfo⟩, rfl, rfl, rfl, fun hall => ?_⟩
  · obtain rfl := List.mem_singleton.mp ha
    exact ⟨sampleConfig.parse_text "fe80::1", by decide⟩
  · obtain ⟨name, info, hinfo, -⟩ :=
      (hall (sampleParse "fe80::1") (by decide) (by decide)).mp (by decide +kernel)
    cases hinfo

end SyncState

end Fleetboard.Ipvs
