import Fleetboard.Framework.Runs
import Fleetboard.Proof.SyncEndpoint

/-!
# Desired destinations and the termination list

The proxier as a step relation: full syncs with new maps, flushes of the termination list, and
changes of the connection counts of destinations.

* `syncLoops_unlisted_iff`: when the destination of an endpoint is not in the list after the loops;
* `syncServicePorts_spec`: what the loop over the service ports does to every virtual server;
* `desired_unlisted_iff`: the runs in which no desired destination is in the list after a sync.
-/

namespace Fleetboard.Ipvs

open Fleetboard.Proxy GracefulTerminationManager

variable {cfg : Config} {m m' : GracefulTerminationManager} {k : VirtualServerKey} {d : Dest}
  {vs applied : VirtualServer} {curDests : List RealServer} {initialSync : Bool} {ep : String}

/-! ## What a sync keeps -/

/-- No call fails for a reason of its own, the destinations have addresses, and so have those in
the list. -/
structure Sound (cfg : Config) (m : GracefulTerminationManager) : Prop where
  faults : m.ipvs.faults = []
  real : ∀ k d, m.state k d ≠ none → ReadsBack cfg d ∧ d.address.text ≠ "<nil>"
  listed : ∀ k d, m.item k d ≠ none → d.address.text ≠ "<nil>"

/-- The virtual servers or the destinations become fewer. -/
def IPVS.Shrinks (ipvs ipvs' : IPVS) : Prop :=
  ipvs'.faults = [] ∧ ∀ k d st, ipvs'.state k d = some st → ipvs.state k d = some st

theorem IPVS.Shrinks.refl {ipvs : IPVS} (h : ipvs.faults = []) : ipvs.Shrinks ipvs :=
  ⟨h, fun _ _ _ => id⟩

theorem IPVS.Shrinks.trans {ipvs ipvs' ipvs'' : IPVS} (h : ipvs.Shrinks ipvs')
    (h' : ipvs'.Shrinks ipvs'') : ipvs.Shrinks ipvs'' :=
  ⟨h'.1, fun k d st hst => h.2 k d st (h'.2 k d st hst)⟩

/-- A change that leaves fewer destinations and fewer entries in the list keeps soundness. -/
theorem Sound.of_shrinks (h : Sound cfg m) (hipvs : m.ipvs.Shrinks m'.ipvs)
    (hlist : ∀ k d, m'.item k d ≠ none → m.item k d ≠ none) : Sound cfg m' where
  faults := hipvs.1
  real k d hd := by
    obtain ⟨st, hst⟩ := Option.ne_none_iff_exists'.mp hd
    have hst' : m.state k d = some st := hipvs.2 k d st hst
    exact h.real k d (hst' ▸ Option.some_ne_none st)
  listed k d hd := h.listed k d (hlist k d hd)

theorem deleteRsFunc_shrinks {ipvs : IPVS} (h : ipvs.faults = []) (i : ListItem) :
    ipvs.Shrinks (deleteRsFunc ipvs i).1 := by
  rcases deleteRsFunc_cases (i := i) h rfl rfl with
    ⟨-, deleted, e, hdel⟩ | ⟨st, -, ⟨-, hdel⟩ | ⟨-, ipvs', hdel, hframe, hnone⟩⟩
  · rw [hdel]
    exact .refl h
  · rw [hdel]
    exact .refl h
  · rw [hdel]
    refine ⟨hframe.faults, fun k d st hst => ?_⟩
    by_cases hT : k = i.virtualServer.key ∧ d = i.realServer.dest
    · rw [hT.1, hT.2, hnone] at hst
      cases hst
    · rwa [hframe.state k d hT] at hst

/-! ### Virtual servers -/

/-- `syncService` makes the virtual server, with the destinations that it has, and leaves the
others. -/
theorem syncService_spec {ipvs : IPVS} (h : ipvs.faults = []) (vs : VirtualServer) :
    ∃ ipvs' service, syncService ipvs vs none = (ipvs', none) ∧ ipvs'.faults = [] ∧
      ipvs'.services.lookup vs.key = some service ∧
      ⟨vs.key, service.scheduler, service.flags, service.timeout⟩ = vs ∧
      (∀ d, service.dests.lookup d = ipvs.state vs.key d) ∧
      ∀ k, k ≠ vs.key → ipvs'.services.lookup k = ipvs.services.lookup k := by
  unfold syncService IPVS.GetVirtualServer
  rcases query_of_no_faults h vs.key fun service =>
      (⟨vs.key, service.scheduler, service.flags, service.timeout⟩ : VirtualServer) with
    ⟨hs, e, hq⟩ | ⟨service, hs, hq⟩
  · simp only [hq, IPVS.AddVirtualServer, call_of_no_faults h, hs]
    refine ⟨_, _, rfl, rfl, AList.lookup_insert _, rfl, fun d => ?_,
      fun k hk => AList.lookup_insert_ne hk⟩
    rw [IPVS.state, hs]
    rfl
  · have hdests : ∀ d, service.dests.lookup d = ipvs.state vs.key d :=
      fun d => (IPVS.state_of_lookup hs).symm
    by_cases hne :
        (⟨vs.key, service.scheduler, service.flags, service.timeout⟩ : VirtualServer) ≠ vs
    · simp only [hq, if_pos hne, IPVS.UpdateVirtualServer, IPVS.onService, call_of_no_faults h, hs]
      exact ⟨_, _, rfl, rfl, AList.lookup_insert _, rfl, hdests,
        fun k hk => AList.lookup_insert_ne hk⟩
    · simp only [hq, if_neg hne]
      exact ⟨ipvs, service, rfl, h, hs, not_not.mp hne, hdests, fun _ _ => rfl⟩

theorem deleteVirtualServer_shrinks {ipvs : IPVS} (h : ipvs.faults = []) (vs : VirtualServer) :
    ipvs.Shrinks (ipvs.DeleteVirtualServer vs).1 := by
  simp only [IPVS.DeleteVirtualServer, call_of_no_faults h]
  cases hs : ipvs.services.lookup vs.key with
  | none => exact .refl h
  | some service =>
    refine ⟨rfl, fun k d st hst => ?_⟩
    by_cases hk : k = vs.key
    · subst hk
      simp [IPVS.state] at hst
    · simpa only [IPVS.state, AList.lookup_erase_ne hk] using hst

theorem cleanService_shrinks (p : Proxier) (family : IPFamily) (activeServices : List String)
    {ipvs : IPVS} (h : ipvs.faults = []) (svc : VirtualServer) :
    ipvs.Shrinks (cleanService p family activeServices ipvs svc) := by
  unfold cleanService
  split_ifs
  · exact .refl h
  · exact .refl h
  · exact .refl h
  · exact deleteVirtualServer_shrinks h svc

theorem foldl_cleanService_shrinks {p : Proxier} {family : IPFamily} {activeServices : List String}
    (svcs : List VirtualServer) {ipvs : IPVS} (h : ipvs.faults = []) :
    ipvs.Shrinks (svcs.foldl (cleanService p family activeServices) ipvs) := by
  induction svcs generalizing ipvs with
  | nil => exact .refl h
  | cons svc svcs ih =>
    have hstep := cleanService_shrinks p family activeServices h svc
    exact hstep.trans (ih hstep.1)

/-- `cleanLegacyService` deletes virtual servers and does nothing else. -/
theorem cleanLegacyService_spec (cfg : Config) {p : Proxier} (h : p.manager.ipvs.faults = [])
    (activeServices : List String) (order : RangeOrder VirtualServer) :
    ∃ ipvs', cleanLegacyService cfg p activeServices order = p.withIpvs ipvs' ∧
      p.manager.ipvs.Shrinks ipvs' := by
  simp only [cleanLegacyService, IPVS.GetVirtualServers, call_of_no_faults h]
  have hipvs : (⟨p.manager.ipvs.services, []⟩ : IPVS) = p.manager.ipvs := by
    rw [← h]
  rw [hipvs]
  exact ⟨_, rfl, foldl_cleanService_shrinks _ h⟩

/-! ## The list after the loops -/

/-- The destination of an endpoint is not in the list after the loops if it was in the list only as
a destination whose own text is selected, and is not one of another text with connections. -/
def KeptOut (m : GracefulTerminationManager) (k : VirtualServerKey) (desired : List String)
    (d : Dest) : Prop :=
  (m.InTerminationList (uniqueRSName k d) = true → m.state k d ≠ none ∧ d.string ∈ desired) ∧
    (d.string ∉ desired → ∀ st, m.state k d = some st → ¬ Lingers k st)

theorem syncLoops_unlisted_iff {order : RangeOrder String} {newEndpoints : List String}
    (hs : Starts cfg m vs applied curDests) (hsound : Sound cfg m) (hreads : ReadsBack cfg d) :
    (syncLoops cfg initialSync vs applied curDests order newEndpoints m).item vs.key d = none ↔
      KeptOut m vs.key newEndpoints d := by
  rw [KeptOut, inTerminationList_iff]
  by_cases hnil : d.address.text = "<nil>"
  · have hst : m.state vs.key d = none := not_not.mp fun hst => (hsound.real _ d hst).2 hnil
    have hitem : m.item vs.key d = none := not_not.mp fun hne => hsound.listed _ d hne hnil
    refine iff_of_true (not_not.mp fun hne => ?_) ⟨fun hne => absurd hitem hne, fun _ st hst' => ?_⟩
    · exact ((syncLoops_frame hs _ _ _).2.2 d hne).elim (fun hne => hne hitem) fun hne => hne hst
    · rw [hst] at hst'
      cases hst'
  · by_cases hmem : d.string ∈ newEndpoints
    · rw [← not_ne_iff, (syncLoops_of_mem hs hnil hreads hmem).2]
      simp [hmem]
    · simp only [hmem, and_false, imp_false, not_false_eq_true, true_imp_iff, not_ne_iff]
      cases hst : m.state vs.key d with
      | none =>
        rw [(syncLoops_of_none hs hnil hmem hst).1]
        simp
      | some st =>
        obtain ⟨hlisted, hfree⟩ : Deletes vs.key d m
          (syncLoops cfg initialSync vs applied curDests order newEndpoints m) :=
          syncLoops_of_some hs hnil hmem hst
        cases hitem : m.item vs.key d with
        | none =>
          rcases hfree hitem st hst with ⟨hl, -, hne⟩ | ⟨hl, -, hnone⟩
          · simp [hl, hne]
          · simp [hl, hnone]
        | some i =>
          rw [(hlisted (hitem ▸ Option.some_ne_none i)).2, hitem]
          simp

/-! ## A full sync -/

/-- What the virtual server of a service port is found by. -/
def svcKey (info : ServicePortInfo) : VirtualServerKey :=
  ⟨info.clusterIP, UInt16.ofInt info.port, info.protocol⟩

/-- The maps and labels by which endpoints are selected are the same. -/
structure SameMaps (p p' : Proxier) : Prop where
  svcPortMap : p'.svcPortMap = p.svcPortMap
  endpointsMap : p'.endpointsMap = p.endpointsMap
  nodeLabels : p'.nodeLabels = p.nodeLabels

variable {p p' : Proxier}

theorem SameMaps.trans {p'' : Proxier} (h : SameMaps p p') (h' : SameMaps p' p'') :
    SameMaps p p'' :=
  ⟨h'.svcPortMap.trans h.svcPortMap, h'.endpointsMap.trans h.endpointsMap,
    h'.nodeLabels.trans h.nodeLabels⟩

theorem SameMaps.desiredEndpoints_eq (h : SameMaps p p') (cfg : Config) (svcPortName : ServicePortName)
    (onlyNodeLocalEndpoints : Bool) :
    desiredEndpoints cfg p' svcPortName onlyNodeLocalEndpoints =
      desiredEndpoints cfg p svcPortName onlyNodeLocalEndpoints := by
  unfold desiredEndpoints selectEndpoints
  rw [h.svcPortMap, h.endpointsMap, h.nodeLabels]
  cases p.svcPortMap.lookup svcPortName with
  | none => rfl
  | some info =>
    simp only []
    split_ifs <;> rfl

/-- What the sync of one service port does: only its own virtual server changes, and the list
as the loops change it. -/
structure SyncsPort (cfg : Config) (svcPortName : ServicePortName) (k : VirtualServerKey)
    (p p' : Proxier) : Prop where
  maps : SameMaps p p'
  sound : Sound cfg p'.manager
  others : ∀ k', k' ≠ k → ∀ d,
    p'.manager.state k' d = p.manager.state k' d ∧ p'.manager.item k' d = p.manager.item k' d
  unlisted : ∀ ep ∈ desiredEndpoints cfg p svcPortName false, ∀ d, parseEndpoint cfg ep = some d →
    (p'.manager.item k d = none ↔
      KeptOut p.manager k (desiredEndpoints cfg p svcPortName false) d)

theorem keptOut_congr {desired desired' : List String}
    (hst : m'.state k d = m.state k d) (hitem : m'.item k d = m.item k d)
    (hmem : d.string ∈ desired' ↔ d.string ∈ desired) :
    KeptOut m' k desired' d ↔ KeptOut m k desired d := by
  simp only [KeptOut, inTerminationList_iff, hst, hitem, hmem]

theorem syncEndpoint_syncsPort (hsound : Sound cfg p.manager) (hhas : p.manager.ipvs.Has vs.key)
    (svcPortName : ServicePortName) (order : RangeOrder String) :
    SyncsPort cfg svcPortName vs.key p (syncEndpoint cfg p svcPortName false vs order).1 := by
  rcases syncEndpoint_cases cfg svcPortName false vs order hsound.faults
      (fun d hd => (hsound.real _ d hd).1) with
    ⟨hno, -⟩ | ⟨-, hnone, hr⟩ | ⟨endpoints, applied, curDests, hep, hs, hr⟩
  · exact absurd hhas hno
  · rw [hr]
    refine ⟨⟨rfl, rfl, rfl⟩, hsound, fun _ _ _ => ⟨rfl, rfl⟩, fun ep hep => ?_⟩
    rw [desiredEndpoints, hnone, Option.getD_none, selectEndpoints_nil] at hep
    exact absurd hep List.not_mem_nil
  · rw [hr]
    obtain ⟨-, -, hmaps⟩ := selectEndpoints_fst cfg p svcPortName false endpoints
    obtain ⟨hframe, hstate, hitem⟩ := syncLoops_frame hs p.initialSync order
      (newEndpoints cfg p svcPortName false)
    have hout : ∀ {k'}, k' ≠ vs.key → ∀ _ : Dest, ¬ (k' = vs.key ∧ True) :=
      fun hne _ hT => hne hT.1
    refine ⟨⟨hmaps.1, hmaps.2.1, hmaps.2.2⟩, ⟨hframe.faults, fun k d hst => ?_, fun k d hne => ?_⟩,
      fun k hne d => ⟨hframe.state k d (hout hne d), hframe.item k d (hout hne d)⟩,
      fun ep hep d hparse => ?_⟩
    · by_cases hk : k = vs.key
      · subst hk
        exact (hstate d hst).elim (hsound.real _ d) id
      · exact hsound.real k d fun hnone => hst ((hframe.state k d (hout hk d)).trans hnone)
    · by_cases hk : k = vs.key
      · subst hk
        exact (hitem d hne).elim (hsound.listed _ d) fun hst => (hsound.real _ d hst).2
      · exact hsound.listed k d fun hnone => hne ((hframe.item k d (hout hk d)).trans hnone)
    · rw [syncLoops_unlisted_iff hs hsound (readsBack_of_parse hparse)]
      exact keptOut_congr rfl rfl mem_newEndpoints

/-- The sync of one service port, when binding its address does not fail. -/
theorem syncServicePort_syncsPort {env : SyncEnv} (hbind : ∀ a, env.bindErr a = none)
    (hsound : Sound cfg p.manager) (activeServices : List String)
    (e : (_ : ServicePortName) × ServicePortInfo) :
    SyncsPort cfg e.1 (svcKey e.2) p (syncServicePort cfg env (p, activeServices) e).1 := by
  obtain ⟨ipvs', service, hservice, hfaults, hlookup, -, hdests, hothers⟩ :=
    syncService_spec hsound.faults (virtualServer p e.2)
  have hstate : ∀ k d, ipvs'.state k d = p.manager.ipvs.state k d := by
    intro k d
    by_cases hk : k = (virtualServer p e.2).key
    · rw [hk, IPVS.state_of_lookup hlookup, hdests]
    · rw [IPVS.state, hothers k hk, IPVS.state]
  have hsound' : Sound cfg (p.withIpvs ipvs').manager :=
    ⟨hfaults, fun k d hst => hsound.real k d fun hnone => hst ((hstate k d).trans hnone),
      hsound.listed⟩
  have hsync := syncEndpoint_syncsPort hsound' (IPVS.has_of_lookup hlookup) e.1 env.endpoints
  have hres : (syncServicePort cfg env (p, activeServices) e).1 =
      (syncEndpoint cfg (p.withIpvs ipvs') e.1 false (virtualServer p e.2) env.endpoints).1 := by
    simp only [syncServicePort, hbind, hservice]
    rfl
  have hmaps : SameMaps p (p.withIpvs ipvs') := ⟨rfl, rfl, rfl⟩
  have hdesired : desiredEndpoints cfg (p.withIpvs ipvs') e.1 false =
    desiredEndpoints cfg p e.1 false := hmaps.desiredEndpoints_eq _ _ _
  rw [hres]
  refine ⟨hmaps.trans hsync.maps, hsync.sound, fun k hne d => ?_, fun ep hep d hparse => ?_⟩
  · obtain ⟨hst, hitem⟩ := hsync.others k hne d
    exact ⟨hst.trans (hstate k d), hitem⟩
  · have hiff := hsync.unlisted ep (hdesired.symm ▸ hep) d hparse
    rw [hdesired] at hiff
    exact hiff.trans (keptOut_congr (hstate _ d) rfl Iff.rfl)

/-- What the loop over the service ports does, when they have different virtual servers. -/
theorem syncServicePorts_spec {env : SyncEnv} (hbind : ∀ a, env.bindErr a = none)
    (es : List ((_ : ServicePortName) × ServicePortInfo))
    (hdistinct : (es.map fun e => svcKey e.2).Nodup) (hsound : Sound cfg p.manager)
    (activeServices : List String) :
    let p' := (es.foldl (syncServicePort cfg env) (p, activeServices)).1
    SameMaps p p' ∧ Sound cfg p'.manager ∧
      (∀ k, k ∉ es.map (fun e => svcKey e.2) → ∀ d, p'.manager.item k d = p.manager.item k d) ∧
      ∀ e ∈ es, ∀ ep ∈ desiredEndpoints cfg p e.1 false, ∀ d, parseEndpoint cfg ep = some d →
        (p'.manager.item (svcKey e.2) d = none ↔
          KeptOut p.manager (svcKey e.2) (desiredEndpoints cfg p e.1 false) d) := by
  induction es generalizing p activeServices with
  | nil =>
    exact ⟨⟨rfl, rfl, rfl⟩, hsound, fun _ _ _ => rfl, fun _ he => absurd he List.not_mem_nil⟩
  | cons e es ih =>
    rw [List.map_cons, List.nodup_cons] at hdistinct
    have hstep := syncServicePort_syncsPort hbind hsound activeServices e
    obtain ⟨hmaps, hsound', hothers, hunlisted⟩ := ih hdistinct.2 hstep.sound
      (syncServicePort cfg env (p, activeServices) e).2
    rw [List.foldl_cons]
    refine ⟨hstep.maps.trans hmaps, hsound', fun k hk d => ?_, fun e' he' ep hep d hparse => ?_⟩
    · rw [List.map_cons, List.mem_cons, not_or] at hk
      exact (hothers k hk.2 d).trans (hstep.others k hk.1 d).2
    · rcases List.mem_cons.mp he' with rfl | he'
      · rw [show _ = _ from hothers (svcKey e'.2) hdistinct.1 d]
        exact hstep.unlisted ep hep d hparse
      · have hne : svcKey e'.2 ≠ svcKey e.2 := fun heq =>
          hdistinct.1 (heq ▸ List.mem_map_of_mem he')
        obtain ⟨hst, hitem⟩ := hstep.others _ hne d
        have hdesired := hstep.maps.desiredEndpoints_eq cfg e'.1 false
        have hiff := hunlisted e' he' ep (hdesired.symm ▸ hep) d hparse
        rw [hdesired] at hiff
        exact hiff.trans (keptOut_congr hst hitem Iff.rfl)

/-- After a full sync the destination of a desired endpoint is not in the list exactly if it was
kept out of it. -/
theorem syncProxyRules_spec {env : SyncEnv} (hbind : ∀ a, env.bindErr a = none)
    (hdistinct : (p.svcPortMap.entries.map fun e => svcKey e.2).Nodup)
    (hsound : Sound cfg p.manager) :
    let p' := syncProxyRules cfg p env
    SameMaps p p' ∧ Sound cfg p'.manager ∧
      ∀ e ∈ p.svcPortMap.entries, ∀ ep ∈ desiredEndpoints cfg p e.1 false, ∀ d,
        parseEndpoint cfg ep = some d →
        (p'.manager.item (svcKey e.2) d = none ↔
          KeptOut p.manager (svcKey e.2) (desiredEndpoints cfg p e.1 false) d) := by
  let p₀ : Proxier :=
    { p with serviceNoLocalEndpointsInternal := ∅, serviceNoLocalEndpointsExternal := ∅ }
  have hmaps₀ : SameMaps p p₀ := ⟨rfl, rfl, rfl⟩
  have hperm := env.svcPorts.perm p.svcPortMap.entries
  obtain ⟨hmaps, hsound', -, hunlisted⟩ := syncServicePorts_spec (p := p₀) hbind
    (env.svcPorts.visit p.svcPortMap.entries) ((hperm.map _).nodup_iff.mpr hdistinct) hsound []
  obtain ⟨ipvs', hclean, hshrinks⟩ := cleanLegacyService_spec cfg hsound'.faults
    ((env.svcPorts.visit p.svcPortMap.entries).foldl (syncServicePort cfg env) (p₀, [])).2
    env.services
  have hres : syncProxyRules cfg p env = { Proxier.withIpvs
      ((env.svcPorts.visit p.svcPortMap.entries).foldl (syncServicePort cfg env) (p₀, [])).1 ipvs'
      with initialSync := false } := by
    rw [← hclean]
    rfl
  simp only [hres]
  refine ⟨hmaps₀.trans ⟨hmaps.svcPortMap, hmaps.endpointsMap, hmaps.nodeLabels⟩,
    hsound'.of_shrinks hshrinks fun _ _ => id, fun e he ep hep d hparse => ?_⟩
  have hdesired := hmaps₀.desiredEndpoints_eq cfg e.1 false
  have hiff := hunlisted e (hperm.mem_iff.mpr he) ep (hdesired.symm ▸ hep) d hparse
  rwa [hdesired] at hiff

/-! ## Flushes and connections -/

theorem flushItem_sound (h : Sound cfg m) (e : (_ : String) × ListItem) :
    Sound cfg (m.flushItem e) := by
  have hshrinks := deleteRsFunc_shrinks h.faults e.2
  unfold flushItem
  rcases hdel : deleteRsFunc m.ipvs e.2 with ⟨ipvs', deleted, err⟩
  rw [hdel] at hshrinks
  cases deleted with
  | false => exact h.of_shrinks hshrinks fun _ _ => id
  | true =>
    refine h.of_shrinks hshrinks fun k d hne hnone => hne ?_
    rw [item, lookup_remove]
    split
    · rfl
    · exact hnone

theorem tryDeleteRs_sound (h : Sound cfg m) (order : RangeOrder ((_ : String) × ListItem)) :
    Sound cfg (m.tryDeleteRs order) := by
  unfold tryDeleteRs
  induction order.visit m.rsList.list.entries generalizing m with
  | nil => exact h
  | cons e es ih => exact ih (flushItem_sound h e)

/-- The connection counts of a destination change, if it is there. -/
def IPVS.setConnections (ipvs : IPVS) (c : VirtualServerKey × Dest × Nat × Nat) : IPVS :=
  match ipvs.services.lookup c.1 with
  | none => ipvs
  | some service =>
    match service.dests.lookup c.2.1 with
    | none => ipvs
    | some st =>
      let st := { st with activeConn := c.2.2.1, inactiveConn := c.2.2.2 }
      let service := { service with dests := service.dests.insert c.2.1 st }
      { ipvs with services := ipvs.services.insert c.1 service }

theorem setConnections_state (ipvs : IPVS) (c : VirtualServerKey × Dest × Nat × Nat)
    (h : (ipvs.setConnections c).state k d ≠ none) : ipvs.state k d ≠ none := by
  unfold IPVS.setConnections at h
  split at h
  · exact h
  · rename_i service hs
    split at h
    · exact h
    · rename_i st hst
      by_cases hk : k = c.1
      · rw [hk, IPVS.state_of_lookup (AList.lookup_insert _), GoMap.lookup_insert_eq] at h
        rw [hk, IPVS.state_of_lookup hs]
        by_cases hd : d = c.2.1
        · rw [hd, hst]
          exact Option.some_ne_none st
        · rwa [if_neg hd] at h
      · simpa only [IPVS.state, AList.lookup_insert_ne hk] using h

theorem setConnections_faults (ipvs : IPVS) (c : VirtualServerKey × Dest × Nat × Nat) :
    (ipvs.setConnections c).faults = ipvs.faults := by
  unfold IPVS.setConnections
  split
  · rfl
  · split <;> rfl

theorem foldl_setConnections_sound (changes : List (VirtualServerKey × Dest × Nat × Nat))
    {m : GracefulTerminationManager} (h : Sound cfg m) :
    Sound cfg { m with ipvs := changes.foldl IPVS.setConnections m.ipvs } := by
  induction changes generalizing m with
  | nil => exact h
  | cons c changes ih =>
    have hc : Sound cfg { m with ipvs := m.ipvs.setConnections c } :=
      ⟨(setConnections_faults m.ipvs c).trans h.faults,
        fun k d hd => h.real k d (setConnections_state m.ipvs c hd), h.listed⟩
    exact ih hc

/-! ## Runs -/

structure ProxierState where
  proxier : Proxier
  /-- The last step was a full sync. -/
  synced : Bool

inductive ProxierEvent
  | sync (svcPortMap : ServicePortMap) (endpointsMap : EndpointsMap) (env : SyncEnv)
  | flush (order : RangeOrder ((_ : String) × ListItem))
  | connections (changes : List (VirtualServerKey × Dest × Nat × Nat))

/-- The proxier with new maps. -/
def Proxier.withMaps (p : Proxier) (svcPortMap : ServicePortMap) (endpointsMap : EndpointsMap) :
    Proxier :=
  { p with svcPortMap := svcPortMap, endpointsMap := endpointsMap }

/-- A full sync with maps in which different service ports have different virtual servers, and
without failures to bind an address; a flush of the list; a change of connection counts. -/
inductive ProxierStep (cfg : Config) : ProxierState → ProxierEvent → ProxierState → Prop
  | sync {s : ProxierState} {svcPortMap : ServicePortMap} {endpointsMap : EndpointsMap}
      {env : SyncEnv} :
    (svcPortMap.entries.map fun e => svcKey e.2).Nodup → (∀ a, env.bindErr a = none) →
    ProxierStep cfg s (.sync svcPortMap endpointsMap env)
      ⟨syncProxyRules cfg (s.proxier.withMaps svcPortMap endpointsMap) env, true⟩
  | flush {s : ProxierState} (order : RangeOrder ((_ : String) × ListItem)) :
    ProxierStep cfg s (.flush order)
      ⟨{ s.proxier with manager := s.proxier.manager.tryDeleteRs order }, false⟩
  | connections {s : ProxierState} (changes : List (VirtualServerKey × Dest × Nat × Nat)) :
    ProxierStep cfg s (.connections changes)
      ⟨s.proxier.withIpvs (changes.foldl IPVS.setConnections s.proxier.manager.ipvs), false⟩

/-- Right after a sync, no desired destination is in the list. -/
def DesiredUnlisted (cfg : Config) (s : ProxierState) : Prop :=
  s.synced = true → ∀ svcPortName info, s.proxier.svcPortMap.lookup svcPortName = some info →
    ∀ ep ∈ desiredEndpoints cfg s.proxier svcPortName false, ∀ d, parseEndpoint cfg ep = some d →
      s.proxier.manager.InTerminationList (uniqueRSName (svcKey info) d) = false

/-- Before a sync, every destination that becomes desired is kept out of the list. -/
def DesiredKeptOut (cfg : Config) (s : ProxierState) : ProxierEvent → Prop
  | .sync svcPortMap endpointsMap _ =>
    let p := s.proxier.withMaps svcPortMap endpointsMap
    ∀ svcPortName info, svcPortMap.lookup svcPortName = some info →
      ∀ ep ∈ desiredEndpoints cfg p svcPortName false, ∀ d, parseEndpoint cfg ep = some d →
        KeptOut s.proxier.manager (svcKey info) (desiredEndpoints cfg p svcPortName false) d
  | _ => True

theorem Sound.step {s s' : ProxierState} {e : ProxierEvent} (h : Sound cfg s.proxier.manager)
    (hstep : ProxierStep cfg s e s') : Sound cfg s'.proxier.manager := by
  cases hstep with
  | @sync svcPortMap endpointsMap env hdistinct hbind =>
    exact (syncProxyRules_spec (p := s.proxier.withMaps svcPortMap endpointsMap) hbind hdistinct h).2.1
  | flush order => exact tryDeleteRs_sound h order
  | connections changes => exact foldl_setConnections_sound changes h

theorem desiredUnlisted_step_iff {s s' : ProxierState} {e : ProxierEvent}
    (h : Sound cfg s.proxier.manager) (hstep : ProxierStep cfg s e s') :
    DesiredUnlisted cfg s' ↔ DesiredKeptOut cfg s e := by
  cases hstep with
  | @sync svcPortMap endpointsMap env hdistinct hbind =>
    let p := s.proxier.withMaps svcPortMap endpointsMap
    obtain ⟨hmaps, -, hunlisted⟩ := syncProxyRules_spec (p := p) hbind hdistinct h
    have hiff : ∀ svcPortName info, svcPortMap.lookup svcPortName = some info →
        ∀ ep ∈ desiredEndpoints cfg p svcPortName false, ∀ d, parseEndpoint cfg ep = some d →
        ((syncProxyRules cfg p env).manager.InTerminationList (uniqueRSName (svcKey info) d) = false ↔
          KeptOut s.proxier.manager (svcKey info) (desiredEndpoints cfg p svcPortName false) d) := by
      intro svcPortName info hlookup ep hep d hparse
      rw [Bool.eq_false_iff, ne_eq, inTerminationList_iff, not_ne_iff]
      exact hunlisted ⟨svcPortName, info⟩ (GoMap.mem_entries_iff.mpr hlookup) ep hep d hparse
    have hmap : (syncProxyRules cfg p env).svcPortMap = svcPortMap := hmaps.svcPortMap
    have hdesired := hmaps.desiredEndpoints_eq cfg
    constructor
    · intro hI svcPortName info hlookup ep hep d hparse
      have hlookup' : (syncProxyRules cfg p env).svcPortMap.lookup svcPortName = some info := by
        rw [hmap, hlookup]
      have hep' : ep ∈ desiredEndpoints cfg (syncProxyRules cfg p env) svcPortName false := by
        rw [hdesired svcPortName false]
        exact hep
      exact (hiff svcPortName info hlookup ep hep d hparse).mp
        (hI rfl svcPortName info hlookup' ep hep' d hparse)
    · intro hG _ svcPortName info hlookup ep hep d hparse
      rw [hmap] at hlookup
      rw [hdesired svcPortName false] at hep
      exact (hiff svcPortName info hlookup ep hep d hparse).mpr
        (hG svcPortName info hlookup ep hep d hparse)
  | flush order => exact iff_of_true (fun hs => absurd hs Bool.false_ne_true) trivial
  | connections changes => exact iff_of_true (fun hs => absurd hs Bool.false_ne_true) trivial

/-! ### Samples: a service that comes back -/

/-- A proxier without virtual servers, before its first sync. -/
def newProxier : Proxier where
  manager := ⟨.empty, ⟨∅, []⟩⟩
  svcPortMap := ∅
  endpointsMap := ∅
  nodeLabels := ∅
  initialSync := true
  ipvsScheduler := "rr"
  excludeCIDRs := []
  serviceNoLocalEndpointsInternal := ∅
  serviceNoLocalEndpointsExternal := ∅

theorem newProxier_sound : Sound cfg newProxier.manager :=
  ⟨rfl, fun _ _ h => absurd rfl h, fun _ _ h => absurd rfl h⟩

def shopEnv : SyncEnv := ⟨.stored, .stored, .stored, fun _ => none⟩

def shopPorts : ServicePortMap :=
  (∅ : ServicePortMap).insert shopPort ⟨shopServer.key.address, 80, .tcp, 0, "http"⟩

/-- A sync with the service and some addresses of its endpoints. -/
def syncShop (addresses : List String) : ProxierEvent :=
  .sync shopPorts ((shopEndpoints addresses).getD ∅) shopEnv

/-- A sync without services. -/
def syncNothing : ProxierEvent := .sync ∅ ∅ shopEnv

/-- A destination of the service gets a connection. -/
def connectShop (address : String) : ProxierEvent :=
  .connections [(shopServer.key, shopDest address, 1, 0)]

/-- A sync with one endpoint that is not in the list, or is a destination. -/
theorem syncShop_keptOut {s : ProxierState} {address : String}
    (hdesired : desiredEndpoints sampleConfig
      (s.proxier.withMaps shopPorts ((shopEndpoints [address]).getD ∅)) shopPort false =
        [(shopDest address).string])
    (hlisted : s.proxier.manager.InTerminationList (uniqueRSName shopServer.key (shopDest address)) =
      true → s.proxier.manager.state shopServer.key (shopDest address) ≠ none) :
    DesiredKeptOut sampleConfig s (syncShop [address]) := by
  intro svcPortName info hlookup ep hep d hparse
  obtain ⟨rfl, rfl⟩ : svcPortName = shopPort ∧
      info = ⟨shopServer.key.address, 80, .tcp, 0, "http"⟩ := by
    rw [shopPorts, GoMap.lookup_insert_eq] at hlookup
    split at hlookup
    · exact ⟨‹_›, (Option.some_inj.mp hlookup).symm⟩
    · cases hlookup
  rw [hdesired] at hep ⊢
  obtain rfl := List.mem_singleton.mp hep
  have hreads : ReadsBack sampleConfig (shopDest address) := sampleConfig.parse_text address
  rw [parseEndpoint_string hreads] at hparse
  cases hparse
  exact ⟨fun hlist => ⟨hlisted hlist, hep⟩, fun hno => absurd hep hno⟩

/-! ### The invariant -/

/-- In a run from a sound state, such as one with an empty list, no desired destination is
ever in the list after a sync exactly when before every sync each destination that becomes
desired is kept out of it. -/
theorem desired_unlisted_iff (cfg : Config) {p : Proxier} (hsound : Sound cfg p.manager)
    (es : List ProxierEvent) (s' : ProxierState) :
    Runs (Reaching (ProxierStep cfg) (DesiredUnlisted cfg)) ⟨p, false⟩ es s' ↔
      Runs (Guarded (ProxierStep cfg) (DesiredKeptOut cfg)) ⟨p, false⟩ es s' := by
  refine Runs.reaching_iff_guarded (P := fun _ => True) (J := fun s => Sound cfg s.proxier.manager)
    ?_ ?_ (fun _ _ => trivial) hsound (fun hs => absurd hs Bool.false_ne_true)
  · exact fun _ hJ hstep => hJ.step hstep
  · exact fun _ hJ _ hstep => desiredUnlisted_step_iff hJ hstep

/-- An endpoint goes while it has a connection and comes back before the connection is over. -/
theorem desired_unlisted_returning_endpoint :
    ∃ s', Runs (Reaching (ProxierStep sampleConfig) (DesiredUnlisted sampleConfig))
        ⟨newProxier, false⟩
        [syncShop ["10.1.0.5"], connectShop "10.1.0.5", syncShop ["10.1.0.6"], .flush .stored,
          syncShop ["10.1.0.5"]] s' := by
  refine ⟨_, (desired_unlisted_iff sampleConfig newProxier_sound _ _).mpr
    (.cons ⟨.sync (by decide) fun _ => rfl, ?_⟩ (.cons ⟨.connections _, trivial⟩
      (.cons ⟨.sync (by decide) fun _ => rfl, ?_⟩ (.cons ⟨.flush _, trivial⟩
        (.cons ⟨.sync (by decide) fun _ => rfl, ?_⟩ (.nil _))))))⟩
  · exact syncShop_keptOut (by decide +kernel) (by decide +kernel)
  · exact syncShop_keptOut (by decide +kernel) (by decide +kernel)
  · exact syncShop_keptOut (by decide +kernel) (by decide +kernel)

/-- An endpoint goes while it has a connection, then the service goes, and both come back: the
endpoint is desired and in the list. -/
theorem returning_service_lists_desired :
    ∃ s', Runs (ProxierStep sampleConfig) ⟨newProxier, false⟩
        [syncShop ["10.1.0.5"], connectShop "10.1.0.5", syncShop ["10.1.0.6"], syncNothing,
          syncShop ["10.1.0.5"]] s' ∧
      desiredEndpoints sampleConfig s'.proxier shopPort false = ["10.1.0.5:8080"] ∧
      s'.proxier.manager.InTerminationList (uniqueRSName shopServer.key (shopDest "10.1.0.5")) =
        true ∧
      ¬ DesiredUnlisted sampleConfig s' := by
  refine ⟨_, .cons (.sync (by decide) fun _ => rfl) (.cons (.connections _)
    (.cons (.sync (by decide) fun _ => rfl) (.cons (.sync (by decide) fun _ => rfl)
      (.cons (.sync (by decide) fun _ => rfl) (.nil _))))), ?_, ?_, ?_⟩
  · decide +kernel
  · decide +kernel
  · intro h
    have hunlisted := h rfl shopPort ⟨shopServer.key.address, 80, .tcp, 0, "http"⟩ (by decide +kernel)
      "10.1.0.5:8080" (by decide +kernel) (shopDest "10.1.0.5") (by decide +kernel)
    exact absurd hunlisted (by decide +kernel)

end Fleetboard.Ipvs
