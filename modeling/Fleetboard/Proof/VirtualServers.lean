import Fleetboard.Proof.Termination

/-!
# The virtual servers after a sync

Without faults the sync of a service port makes its virtual server, and changes nothing
else but the destinations of that one; the clean-up deletes the virtual servers of the
proxier's family that are neither excluded nor active.

* `syncEndpoint_onlyDests`: the frame of the loops over the endpoints;
* `lookup_cleanLegacyService`: what the clean-up leaves;
* `syncProxyRules_servers`: the table after a sync.
-/

namespace Fleetboard.Ipvs

open Fleetboard.Proxy GracefulTerminationManager

variable {cfg : Config} {ipvs ipvs' ipvs'' : IPVS} {k k' : VirtualServerKey} {vs : VirtualServer}

/-! ## Only destinations change -/

/-- The virtual server that is found by the key. -/
def IPVS.server (ipvs : IPVS) (k : VirtualServerKey) : Option VirtualServer :=
  (ipvs.services.lookup k).map fun service =>
    ⟨k, service.scheduler, service.flags, service.timeout⟩

/-- No call of its own fails, and at most the destinations of one virtual server change. -/
structure IPVS.OnlyDests (k : VirtualServerKey) (ipvs ipvs' : IPVS) : Prop where
  faults : ipvs'.faults = []
  others : ∀ k', k' ≠ k → ipvs'.services.lookup k' = ipvs.services.lookup k'
  server : ipvs'.server k = ipvs.server k

theorem IPVS.OnlyDests.refl (h : ipvs.faults = []) : ipvs.OnlyDests k ipvs :=
  ⟨h, fun _ _ => rfl, rfl⟩

theorem IPVS.OnlyDests.trans (h : ipvs.OnlyDests k ipvs') (h' : ipvs'.OnlyDests k ipvs'') :
    ipvs.OnlyDests k ipvs'' :=
  ⟨h'.faults, fun k' hne => (h'.others k' hne).trans (h.others k' hne), h'.server.trans h.server⟩

/-- An operation on a virtual server that sets its destinations. -/
theorem onService_onlyDests (h : ipvs.faults = []) (k : VirtualServerKey)
    {op : Service → Except Error (Service × Unit)}
    (hop : ∀ service service', op service = .ok (service', ()) →
      ∃ dests, service' = { service with dests := dests }) :
    ipvs.OnlyDests k (ipvs.onService k op).1 := by
  rw [IPVS.onService, call_of_no_faults h]
  cases hs : ipvs.services.lookup k with
  | none => exact .refl h
  | some service =>
    cases hr : op service with
    | error e =>
      simp only [hr]
      exact .refl h
    | ok r =>
      obtain ⟨service', u⟩ := r
      obtain ⟨dests, rfl⟩ := hop service service' hr
      simp only [hr]
      refine ⟨rfl, fun k' hne => AList.lookup_insert_ne hne, ?_⟩
      rw [IPVS.server, AList.lookup_insert, IPVS.server, hs]
      rfl

theorem addRealServer_onlyDests (h : ipvs.faults = []) (vs : VirtualServer) (rs : RealServer) :
    ipvs.OnlyDests vs.key (ipvs.AddRealServer vs rs).1 := by
  refine onService_onlyDests h vs.key fun service service' hr => ?_
  split_ifs at hr
  split at hr
  · cases hr
  · cases hr
    exact ⟨_, rfl⟩

theorem updateRealServer_onlyDests (h : ipvs.faults = []) (vs : VirtualServer) (rs : RealServer) :
    ipvs.OnlyDests vs.key (ipvs.UpdateRealServer vs rs).1 := by
  refine onService_onlyDests h vs.key fun service service' hr => ?_
  split at hr
  · cases hr
  · cases hr
    exact ⟨_, rfl⟩

theorem deleteRealServer_onlyDests (h : ipvs.faults = []) (vs : VirtualServer) (rs : RealServer) :
    ipvs.OnlyDests vs.key (ipvs.DeleteRealServer vs rs).1 := by
  refine onService_onlyDests h vs.key fun service service' hr => ?_
  split at hr
  · cases hr
  · cases hr
    exact ⟨_, rfl⟩

/-- Reading changes nothing. -/
theorem query_fst {α : Type} (h : ipvs.faults = []) (k : VirtualServerKey) (f : Service → α) :
    (ipvs.query k f).1 = ipvs := by
  rcases query_of_no_faults h k f with ⟨-, e, hq⟩ | ⟨service, -, hq⟩ <;> rw [hq]

theorem deleteRsFunc_onlyDests (h : ipvs.faults = []) (i : ListItem) :
    ipvs.OnlyDests i.virtualServer.key (deleteRsFunc ipvs i).1 := by
  have hfst : (ipvs.GetRealServers i.virtualServer).1 = ipvs := query_fst h _ _
  unfold deleteRsFunc
  split
  · rename_i ipvs₁ e hget
    rw [show ipvs₁ = ipvs from (congrArg Prod.fst hget).symm.trans hfst]
    exact .refl h
  · rename_i ipvs₁ rss hget
    obtain rfl : ipvs₁ = ipvs := (congrArg Prod.fst hget).symm.trans hfst
    split
    · exact .refl h
    · rename_i rs _
      split_ifs
      · exact .refl h
      · have hdel := deleteRealServer_onlyDests h i.virtualServer rs
        split
        · rename_i hr
          rwa [hr] at hdel
        · rename_i hr
          rwa [hr] at hdel

variable {m : GracefulTerminationManager} {applied : VirtualServer} {curDests : List RealServer}

theorem gracefulDeleteRS_onlyDests (h : m.ipvs.faults = []) (vs : VirtualServer) (rs : RealServer) :
    m.ipvs.OnlyDests vs.key (m.GracefulDeleteRS vs rs).1.ipvs := by
  have hdel := deleteRsFunc_onlyDests h ⟨vs, rs⟩
  unfold GracefulDeleteRS
  split
  · rename_i ipvs' _ hr
    rwa [hr] at hdel
  · rename_i ipvs' _ hr
    rw [hr] at hdel
    have hup := updateRealServer_onlyDests hdel.faults vs { rs with weight := 0 }
    simp only
    split
    · rename_i hr'
      rw [hr'] at hup
      exact hdel.trans hup
    · rename_i hr'
      rw [hr'] at hup
      exact hdel.trans hup

theorem moveOut_onlyDests (h : m.ipvs.faults = []) (k : VirtualServerKey) (d : Dest) :
    m.ipvs.OnlyDests k (m.MoveRSOutofGracefulDeleteList (uniqueRSName k d)).1.ipvs := by
  unfold MoveRSOutofGracefulDeleteList
  split
  · exact .refl h
  · rename_i i hi
    obtain ⟨rfl, -⟩ := uniqueRSName_injective (m.rsList.named _ _ hi)
    have hdel := deleteRealServer_onlyDests h i.virtualServer i.realServer
    split
    · rename_i hr
      rwa [hr] at hdel
    · rename_i hr
      rwa [hr] at hdel

/-- A loop each of whose iterations changes at most destinations of one virtual server. -/
theorem foldl_onlyDests {α : Type*} {f : GracefulTerminationManager → α → GracefulTerminationManager}
    (hf : ∀ {m : GracefulTerminationManager} (a : α), m.ipvs.faults = [] →
      m.ipvs.OnlyDests k (f m a).ipvs)
    (h : m.ipvs.faults = []) (l : List α) : m.ipvs.OnlyDests k (l.foldl f m).ipvs := by
  induction l generalizing m with
  | nil => exact .refl h
  | cons a l ih =>
    have hstep := hf a h
    exact hstep.trans (ih hstep.faults)

theorem resetWeight_onlyDests (h : m.ipvs.faults = []) (applied : VirtualServer)
    (curDests : List RealServer) (newDest : RealServer) :
    m.ipvs.OnlyDests applied.key (resetWeight m applied curDests newDest).ipvs := by
  refine foldl_onlyDests (fun {m} dest hm => ?_) h curDests
  split_ifs
  · exact updateRealServer_onlyDests hm applied newDest
  · exact .refl hm

theorem moveBack_onlyDests (h : m.ipvs.faults = []) (hk : applied.key = vs.key) (d : Dest) :
    m.ipvs.OnlyDests vs.key (moveBack vs applied d m).ipvs := by
  have hmove := moveOut_onlyDests h vs.key d
  unfold moveBack
  split_ifs
  · split
    · rename_i hr
      rwa [hr] at hmove
    · rename_i m' hr
      rw [hr] at hmove
      have hadd := addRealServer_onlyDests hmove.faults applied ⟨d, 1, 0, 0⟩
      rw [hk] at hadd
      exact hmove.trans hadd
  · exact .refl h

theorem createEndpoint_onlyDests (h : m.ipvs.faults = []) (hk : applied.key = vs.key)
    (initialSync : Bool) (curDests : List RealServer) (ep : String) :
    m.ipvs.OnlyDests vs.key (createEndpoint cfg initialSync vs applied curDests m ep).ipvs := by
  unfold createEndpoint
  split
  · exact .refl h
  · rename_i dest _
    split_ifs
    · have hreset := resetWeight_onlyDests h applied curDests ⟨dest, 1, 0, 0⟩
      rw [hk] at hreset
      exact hreset.trans (moveBack_onlyDests hreset.faults hk dest)
    · exact moveBack_onlyDests h hk dest
    · rw [← hk]
      exact addRealServer_onlyDests h applied _

theorem deleteEndpoint_onlyDests (h : m.ipvs.faults = []) (hk : applied.key = vs.key)
    (ep : String) : m.ipvs.OnlyDests vs.key (deleteEndpoint cfg vs applied m ep).ipvs := by
  unfold deleteEndpoint
  split_ifs
  · exact .refl h
  · split
    · exact .refl h
    · rw [← hk]
      exact gracefulDeleteRS_onlyDests h applied _

theorem syncLoops_onlyDests (h : m.ipvs.faults = []) (hk : applied.key = vs.key)
    (initialSync : Bool) (curDests : List RealServer) (order : RangeOrder String)
    (newEndpoints : List String) :
    m.ipvs.OnlyDests vs.key
      (syncLoops cfg initialSync vs applied curDests order newEndpoints m).ipvs := by
  have hcreate : m.ipvs.OnlyDests vs.key
      (newEndpoints.foldl (createEndpoint cfg initialSync vs applied curDests) m).ipvs :=
    foldl_onlyDests (fun ep hm => createEndpoint_onlyDests hm hk initialSync curDests ep) h _
  refine hcreate.trans (foldl_onlyDests (fun ep hm => ?_) hcreate.faults _)
  exact deleteEndpoint_onlyDests hm hk ep

/-- What the sync of one service port leaves as it is in the proxier. -/
structure SameRules (p p' : Proxier) : Prop where
  svcPortMap : p'.svcPortMap = p.svcPortMap
  ipvsScheduler : p'.ipvsScheduler = p.ipvsScheduler
  excludeCIDRs : p'.excludeCIDRs = p.excludeCIDRs

variable {p p' p'' : Proxier}

theorem SameRules.trans (h : SameRules p p') (h' : SameRules p' p'') : SameRules p p'' :=
  ⟨h'.svcPortMap.trans h.svcPortMap, h'.ipvsScheduler.trans h.ipvsScheduler,
    h'.excludeCIDRs.trans h.excludeCIDRs⟩

theorem SameRules.isIPInExcludeCIDRs_eq (h : SameRules p p') (ip : IPText) :
    p'.isIPInExcludeCIDRs ip = p.isIPInExcludeCIDRs ip := by
  rw [Proxier.isIPInExcludeCIDRs, h.excludeCIDRs, Proxier.isIPInExcludeCIDRs]

theorem SameRules.virtualServer_eq (h : SameRules p p') (info : ServicePortInfo) :
    virtualServer p' info = virtualServer p info := by
  rw [virtualServer, h.ipvsScheduler, virtualServer]

theorem selectEndpoints_sameRules (cfg : Config) (p : Proxier) (svcPortName : ServicePortName)
    (onlyNodeLocalEndpoints : Bool) (endpoints : List BaseEndpointInfo) :
    SameRules p (selectEndpoints cfg p svcPortName onlyNodeLocalEndpoints endpoints).1 := by
  unfold selectEndpoints
  split
  · exact ⟨rfl, rfl, rfl⟩
  · simp only
    split_ifs <;> exact ⟨rfl, rfl, rfl⟩

/-- `syncEndpoint` changes at most the destinations of its virtual server. -/
theorem syncEndpoint_onlyDests (cfg : Config) (h : p.manager.ipvs.faults = [])
    (svcPortName : ServicePortName) (onlyNodeLocalEndpoints : Bool) (vs : VirtualServer)
    (order : RangeOrder String) :
    let p' := (syncEndpoint cfg p svcPortName onlyNodeLocalEndpoints vs order).1
    SameRules p p' ∧ p.manager.ipvs.OnlyDests vs.key p'.manager.ipvs := by
  have hget := query_of_no_faults h vs.key fun service =>
    (⟨vs.key, service.scheduler, service.flags, service.timeout⟩ : VirtualServer)
  have hdone : SameRules p (p.withIpvs p.manager.ipvs) ∧
      p.manager.ipvs.OnlyDests vs.key (p.withIpvs p.manager.ipvs).manager.ipvs :=
    ⟨⟨rfl, rfl, rfl⟩, .refl h⟩
  unfold syncEndpoint IPVS.GetVirtualServer
  rcases hget with ⟨-, e, hq⟩ | ⟨service, -, hq⟩
  · simp only [hq]
    exact hdone
  · simp only [hq, IPVS.GetRealServers]
    rcases query_of_no_faults h vs.key fun service => service.dests.entries.map fun e =>
        (⟨e.1, e.2.weight, e.2.activeConn, e.2.inactiveConn⟩ : RealServer) with
      ⟨-, e, hq'⟩ | ⟨service', -, hq'⟩
    · simp only [hq']
      exact hdone
    · simp only [hq']
      split
      · exact hdone
      · rename_i endpoints _
        have hrules := selectEndpoints_sameRules cfg (p.withIpvs p.manager.ipvs) svcPortName
          onlyNodeLocalEndpoints endpoints
        obtain ⟨hmanager, -⟩ := selectEndpoints_fst cfg (p.withIpvs p.manager.ipvs) svcPortName
          onlyNodeLocalEndpoints endpoints
        generalize selectEndpoints cfg (p.withIpvs p.manager.ipvs) svcPortName
          onlyNodeLocalEndpoints endpoints = sel at hrules hmanager ⊢
        obtain ⟨p₁, endpoints₁⟩ := sel
        simp only at hrules hmanager ⊢
        refine ⟨⟨hrules.svcPortMap, hrules.ipvsScheduler, hrules.excludeCIDRs⟩, ?_⟩
        rw [hmanager]
        exact syncLoops_onlyDests h (rfl : (VirtualServer.mk vs.key service.scheduler service.flags
          service.timeout).key = vs.key) p₁.initialSync _ order _

/-! ## The loop over the service ports -/

/-- What the sync of some service ports does: it makes their virtual servers and leaves the
others. -/
structure Serves (es : List ((_ : ServicePortName) × ServicePortInfo)) (p p' : Proxier) : Prop where
  rules : SameRules p p'
  faults : p'.manager.ipvs.faults = []
  served : ∀ e ∈ es, p'.manager.ipvs.server (svcKey e.2) = some (virtualServer p e.2)
  others : ∀ k, k ∉ es.map (fun e => svcKey e.2) →
    p'.manager.ipvs.services.lookup k = p.manager.ipvs.services.lookup k

/-- The sync of one service port, when binding its address does not fail. -/
theorem syncServicePort_serves (cfg : Config) {env : SyncEnv} (h : p.manager.ipvs.faults = [])
    (activeServices : List String) {e : (_ : ServicePortName) × ServicePortInfo}
    (hbind : env.bindErr e.2.clusterIP = none) :
    ∃ p', syncServicePort cfg env (p, activeServices) e =
      (p', (svcKey e.2).string :: activeServices) ∧ Serves [e] p p' := by
  obtain ⟨ipvs', service, hservice, hfaults, hlookup, hserver, -, hothers⟩ :=
    syncService_spec h (virtualServer p e.2)
  obtain ⟨hrules, honly⟩ := syncEndpoint_onlyDests cfg (p := p.withIpvs ipvs') hfaults e.1
    (servicePort e.2).internalPolicyLocal (virtualServer p e.2) env.endpoints
  refine ⟨_, ?_, ⟨hrules.svcPortMap, hrules.ipvsScheduler, hrules.excludeCIDRs⟩,
    honly.faults, fun e' he' => ?_, fun k hk => ?_⟩
  · simp only [syncServicePort, show env.bindErr (virtualServer p e.2).key.address = none from hbind,
      hservice]
    rfl
  · obtain rfl := List.mem_singleton.mp he'
    refine honly.server.trans ?_
    show (ipvs'.services.lookup _).map _ = _
    rw [hlookup, Option.map_some, hserver]
  · have hne : k ≠ svcKey e.2 := by simpa using hk
    exact (honly.others k hne).trans (hothers k hne)

theorem Serves.nil (h : p.manager.ipvs.faults = []) : Serves [] p p :=
  ⟨⟨rfl, rfl, rfl⟩, h, fun _ he => absurd he List.not_mem_nil, fun _ _ => rfl⟩

/-- Two service ports of one virtual server agree on it. -/
theorem Serves.cons {e : (_ : ServicePortName) × ServicePortInfo}
    {es : List ((_ : ServicePortName) × ServicePortInfo)} (h : Serves [e] p p')
    (h' : Serves es p' p'') : Serves (e :: es) p p'' where
  rules := h.rules.trans h'.rules
  faults := h'.faults
  served e' he' := by
    by_cases hmem : svcKey e'.2 ∈ es.map fun e => svcKey e.2
    · obtain ⟨e₁, he₁, hkey⟩ := List.mem_map.mp hmem
      rw [← hkey, h'.served e₁ he₁, h.rules.virtualServer_eq]
      show some (VirtualServer.mk (svcKey e₁.2) _ _ _) = some (VirtualServer.mk (svcKey e'.2) _ _ _)
      rw [show svcKey e₁.2 = svcKey e'.2 from hkey]
    · have he : e' = e := (List.mem_cons.mp he').resolve_right fun hes =>
        hmem (List.mem_map_of_mem hes)
      subst he
      rw [IPVS.server, h'.others _ hmem]
      exact h.served e' List.mem_cons_self
  others k hk := by
    rw [List.map_cons, List.mem_cons, not_or] at hk
    exact (h'.others k hk.2).trans (h.others k (by simpa using hk.1))

theorem foldl_syncServicePort (cfg : Config) {env : SyncEnv}
    (es : List ((_ : ServicePortName) × ServicePortInfo)) (h : p.manager.ipvs.faults = [])
    (activeServices : List String) (hbind : ∀ e ∈ es, env.bindErr e.2.clusterIP = none) :
    ∃ p', es.foldl (syncServicePort cfg env) (p, activeServices) =
        (p', (es.map fun e => (svcKey e.2).string).reverse ++ activeServices) ∧ Serves es p p' := by
  induction es generalizing p activeServices with
  | nil => exact ⟨p, rfl, .nil h⟩
  | cons e es ih =>
    obtain ⟨p₁, hstep, hserves⟩ := syncServicePort_serves cfg h activeServices
      (hbind e List.mem_cons_self)
    obtain ⟨p', hfold, hserves'⟩ := ih hserves.faults ((svcKey e.2).string :: activeServices)
      fun e' he' => hbind e' (List.mem_cons_of_mem e he')
    refine ⟨p', ?_, hserves.cons hserves'⟩
    rw [List.foldl_cons, hstep, hfold, List.map_cons, List.reverse_cons, List.append_assoc]
    rfl

/-! ## The clean-up -/

theorem key_string_injective : Function.Injective VirtualServerKey.string := by
  intro k k' h
  have hname : uniqueRSName k ⟨k.address, 0⟩ = uniqueRSName k' ⟨k.address, 0⟩ := by
    rw [uniqueRSName, h, uniqueRSName]
  exact (uniqueRSName_injective hname).1

/-- A virtual server that the clean-up deletes. -/
def Legacy (p : Proxier) (family : IPFamily) (activeServices : List String) (k : VirtualServerKey) :
    Prop :=
  p.isIPInExcludeCIDRs k.address = false ∧ getIPFamily k.address = family ∧
    k.string ∉ activeServices

instance (p : Proxier) (family : IPFamily) (activeServices : List String) (k : VirtualServerKey) :
    Decidable (Legacy p family activeServices k) :=
  inferInstanceAs (Decidable (_ ∧ _ ∧ _))

theorem lookup_cleanService (family : IPFamily) (activeServices : List String)
    (h : ipvs.faults = []) (svc : VirtualServer) :
    (cleanService p family activeServices ipvs svc).faults = [] ∧
      ∀ k, (cleanService p family activeServices ipvs svc).services.lookup k =
        if k = svc.key ∧ Legacy p family activeServices k then none else ipvs.services.lookup k := by
  unfold cleanService
  split_ifs with hexcluded hfamily hactive
  · refine ⟨h, fun k => (if_neg ?_).symm⟩
    rintro ⟨rfl, hl, -⟩
    rw [hexcluded] at hl
    cases hl
  · refine ⟨h, fun k => (if_neg ?_).symm⟩
    rintro ⟨rfl, -, hl, -⟩
    exact hfamily hl
  · refine ⟨h, fun k => (if_neg ?_).symm⟩
    rintro ⟨rfl, -, -, hl⟩
    exact hl hactive
  · have hlegacy : Legacy p family activeServices svc.key :=
      ⟨Bool.not_eq_true _ ▸ hexcluded, not_not.mp hfamily, hactive⟩
    have hiff : ∀ k, k = svc.key ∧ Legacy p family activeServices k ↔ k = svc.key := by
      rintro k
      refine ⟨And.left, ?_⟩
      rintro rfl
      exact ⟨rfl, hlegacy⟩
    simp only [hiff, IPVS.DeleteVirtualServer, call_of_no_faults h]
    cases hs : ipvs.services.lookup svc.key with
    | none =>
      refine ⟨h, fun k => ?_⟩
      split_ifs with hk
      · rw [hk, hs]
      · rfl
    | some service =>
      refine ⟨rfl, fun k => ?_⟩
      exact GoMap.lookup_erase_eq _ _ _

theorem lookup_foldl_cleanService (p : Proxier) (family : IPFamily) (activeServices : List String)
    (svcs : List VirtualServer) (h : ipvs.faults = []) :
    (svcs.foldl (cleanService p family activeServices) ipvs).faults = [] ∧
      ∀ k, (svcs.foldl (cleanService p family activeServices) ipvs).services.lookup k =
        if k ∈ svcs.map (·.key) ∧ Legacy p family activeServices k then none
        else ipvs.services.lookup k := by
  induction svcs generalizing ipvs with
  | nil => exact ⟨h, fun k => by simp⟩
  | cons svc svcs ih =>
    obtain ⟨hfaults, hstep⟩ := lookup_cleanService (p := p) family activeServices h svc
    obtain ⟨hfaults', hfold⟩ := ih hfaults
    refine ⟨hfaults', fun k => ?_⟩
    rw [List.foldl_cons, hfold, hstep, List.map_cons]
    by_cases hl : Legacy p family activeServices k
    · by_cases hk : k = svc.key
      · rw [if_pos (show k = svc.key ∧ _ from ⟨hk, hl⟩), ite_self,
          if_pos ⟨List.mem_cons.mpr (.inl hk), hl⟩]
      · simp [hl, hk]
    · simp [hl]

/-- The clean-up deletes the legacy virtual servers and does nothing else. -/
theorem lookup_cleanLegacyService (cfg : Config) (h : p.manager.ipvs.faults = [])
    (activeServices : List String) (order : RangeOrder VirtualServer) :
    ∃ ipvs', cleanLegacyService cfg p activeServices order = p.withIpvs ipvs' ∧
      ipvs'.faults = [] ∧ ∀ k, ipvs'.services.lookup k =
        if Legacy p cfg.ipFamily activeServices k then none
        else p.manager.ipvs.services.lookup k := by
  simp only [cleanLegacyService, IPVS.GetVirtualServers, call_of_no_faults h]
  have hipvs : (⟨p.manager.ipvs.services, []⟩ : IPVS) = p.manager.ipvs := by
    rw [← h]
  rw [hipvs]
  obtain ⟨hfaults, hfold⟩ := lookup_foldl_cleanService p cfg.ipFamily activeServices
    (order.visit (p.manager.ipvs.services.entries.map fun e =>
      ⟨e.1, e.2.scheduler, e.2.flags, e.2.timeout⟩)) h
  refine ⟨_, rfl, hfaults, fun k => ?_⟩
  rw [hfold]
  by_cases hl : Legacy p cfg.ipFamily activeServices k
  · rw [if_pos hl]
    split_ifs with hk
    · rfl
    · -- A virtual server that the table has is listed.
      by_contra hne
      obtain ⟨service, hs⟩ := Option.ne_none_iff_exists'.mp hne
      refine hk ⟨List.mem_map.mpr ⟨⟨k, service.scheduler, service.flags, service.timeout⟩, ?_, rfl⟩, hl⟩
      exact order.mem_visit.mpr (List.mem_map.mpr ⟨⟨k, service⟩, GoMap.mem_entries_iff.mpr hs, rfl⟩)
  · rw [if_neg hl, if_neg fun hk => hl hk.2]

/-! ## A sync -/

/-- The keys of the virtual servers of the service ports. -/
def Proxier.Desired (p : Proxier) (k : VirtualServerKey) : Prop :=
  ∃ name info, p.svcPortMap.lookup name = some info ∧ svcKey info = k

/-- What a sync does to the table when no call fails: every service port has its virtual
server, and the other ones are deleted where they are of the proxier's family and not excluded,
and unchanged elsewhere. -/
theorem syncProxyRules_servers (cfg : Config) {env : SyncEnv} (h : p.manager.ipvs.faults = [])
    (hbind : ∀ name info, p.svcPortMap.lookup name = some info → env.bindErr info.clusterIP = none) :
    let ipvs' := (syncProxyRules cfg p env).manager.ipvs
    (∀ name info, p.svcPortMap.lookup name = some info →
      ipvs'.server (svcKey info) = some (virtualServer p info)) ∧
    ∀ k, ¬ p.Desired k → ipvs'.services.lookup k =
      if p.isIPInExcludeCIDRs k.address = false ∧ getIPFamily k.address = cfg.ipFamily then none
      else p.manager.ipvs.services.lookup k := by
  let p₀ : Proxier :=
    { p with serviceNoLocalEndpointsInternal := ∅, serviceNoLocalEndpointsExternal := ∅ }
  let es := env.svcPorts.visit p.svcPortMap.entries
  have hmem : ∀ {e}, e ∈ es ↔ p.svcPortMap.lookup e.1 = some e.2 :=
    fun {e} => env.svcPorts.mem_visit.trans GoMap.mem_entries_iff
  obtain ⟨p₁, hfold, hserves⟩ := foldl_syncServicePort cfg (p := p₀) es h []
    fun e he => hbind e.1 e.2 (hmem.mp he)
  let activeServices := (es.map fun e => (svcKey e.2).string).reverse ++ []
  obtain ⟨ipvs', hclean, -, hlookup⟩ :=
    lookup_cleanLegacyService cfg hserves.faults activeServices env.services
  have hres : (syncProxyRules cfg p env).manager.ipvs = ipvs' := by
    have hsync : syncProxyRules cfg p env = { cleanLegacyService cfg
        (es.foldl (syncServicePort cfg env) (p₀, [])).1
        (es.foldl (syncServicePort cfg env) (p₀, [])).2 env.services with initialSync := false } := rfl
    rw [hsync, hfold, hclean]
    rfl
  have hactive : ∀ k : VirtualServerKey, k.string ∈ activeServices ↔ p.Desired k := by
    intro k
    simp only [activeServices, List.append_nil, List.mem_reverse, List.mem_map,
      key_string_injective.eq_iff]
    constructor
    · rintro ⟨e, he, rfl⟩
      exact ⟨e.1, e.2, hmem.mp he, rfl⟩
    · rintro ⟨name, info, hinfo, rfl⟩
      exact ⟨⟨name, info⟩, hmem.mpr hinfo, rfl⟩
  have hlegacy : ∀ k, Legacy p₁ cfg.ipFamily activeServices k ↔
      (p.isIPInExcludeCIDRs k.address = false ∧ getIPFamily k.address = cfg.ipFamily) ∧
        ¬ p.Desired k := by
    intro k
    have hexcluded : p₁.isIPInExcludeCIDRs k.address = p.isIPInExcludeCIDRs k.address :=
      hserves.rules.isIPInExcludeCIDRs_eq k.address
    rw [Legacy, hactive, hexcluded, and_assoc]
  rw [hres]
  refine ⟨fun name info hinfo => ?_, fun k hk => ?_⟩
  · have hstays := hlookup (svcKey info)
    rw [if_neg fun hl => ((hlegacy _).mp hl).2 ⟨name, info, hinfo, rfl⟩] at hstays
    rw [IPVS.server, hstays]
    exact hserves.served ⟨name, info⟩ (hmem.mpr hinfo)
  · have hother : p₁.manager.ipvs.services.lookup k = p.manager.ipvs.services.lookup k := by
      refine hserves.others k fun hmap => hk ?_
      obtain ⟨e, he, hkey⟩ := List.mem_map.mp hmap
      exact ⟨e.1, e.2, hmem.mp he, hkey⟩
    rw [hlookup, hother]
    exact if_congr ((hlegacy k).trans (and_iff_left hk)) rfl rfl

end Fleetboard.Ipvs
