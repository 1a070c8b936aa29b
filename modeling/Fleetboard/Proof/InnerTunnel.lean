import Fleetboard.Framework.Runs
import Fleetboard.Model.InnerTunnel
import Fleetboard.Proof.Wireguard

/-!
# The inner-cluster tunnel controller

* `innerConnections_agree_iff`: in a run of added and recycled pods, the table
  and the device hold the same keys throughout exactly when every pod that is
  recycled finds its own entry in the table, or none.
-/

namespace Fleetboard.Tunnel

open Fleetboard.Net

/-! ## The table and the device -/

section

variable (parseKey : String → Except Error Key)

/-- The calls that change the table of the nodes, with the outcome of the route
calls; the device always accepts its configuration. -/
inductive InnerCall
  | add (config : DaemonCNFTunnelConfig)
  | recycle (config : DaemonCNFTunnelConfig) (route : RouteEnv)

def InnerCall.config : InnerCall → DaemonCNFTunnelConfig
  | .add config => config
  | .recycle config _ => config

def InnerCall.run (c : InnerClusterTunnelController) :
    InnerCall → Go InnerClusterTunnelController
  | .add config => do
    let r ← c.wireguard.AddInnerClusterTunnel parseKey config ⟨none, none⟩
    pure { c with wireguard := r.1 }
  | .recycle config route => do
    let r ← c.recycleResources parseKey config none route
    pure r.1

/-- A call that returns. -/
def innerStep (c : InnerClusterTunnelController) (call : InnerCall)
    (c' : InnerClusterTunnelController) : Prop :=
  call.run parseKey c = .ok c'

/-- The device's keys are the first keys of the table's entries. -/
def KeysAgree (c : InnerClusterTunnelController) : Prop :=
  ∀ k, (c.wireguard.device.lookup k).isSome ↔ ∃ n, c.wireguard.innerKey parseKey n = some k

/-- A recycled pod finds no entry for its node, or one with its own key (a key
that does not parse is not looked for). -/
def RecyclesOwn (c : InnerClusterTunnelController) : InnerCall → Prop
  | .add _ => True
  | .recycle config _ => ∀ e k, c.wireguard.innerConnections.lookup config.nodeID = some e →
    config.firstKey parseKey = some k → e.firstKey parseKey = some k

/-- Configurations with the same key are of the same node: every pod has a key
of its own, and lives on one node. -/
def DistinctKeys (calls : List InnerCall) : Prop :=
  ∀ a ∈ calls, ∀ b ∈ calls, ∀ k, a.config.firstKey parseKey = some k →
    b.config.firstKey parseKey = some k → a.config.nodeID = b.config.nodeID

/-- The entries of the table are configurations of the run, each under its node
and with a key. -/
def TableFrom (calls : List InnerCall) (c : InnerClusterTunnelController) : Prop :=
  ∀ n e, c.wireguard.innerConnections.lookup n = some e →
    e.nodeID = n ∧ (∃ a ∈ calls, a.config = e) ∧ ∃ k, e.firstKey parseKey = some k

variable {parseKey} {c c' : InnerClusterTunnelController} {calls : List InnerCall}

theorem innerKey_eq_some {w : Wireguard} {n : String} {k : Key} :
    w.innerKey parseKey n = some k ↔
      ∃ e, w.innerConnections.lookup n = some e ∧ e.firstKey parseKey = some k := by
  rw [Wireguard.innerKey, Option.bind_eq_some_iff]

/-- No two nodes of the table have the same key. -/
theorem TableFrom.unique (hc : TableFrom parseKey calls c) (hd : DistinctKeys parseKey calls)
    {m n : String} {k : Key} (hm : c.wireguard.innerKey parseKey m = some k)
    (hn : c.wireguard.innerKey parseKey n = some k) : m = n := by
  obtain ⟨e, he, hek⟩ := innerKey_eq_some.mp hm
  obtain ⟨f, hf, hfk⟩ := innerKey_eq_some.mp hn
  obtain ⟨hem, ⟨a, ha, rfl⟩, -⟩ := hc m e he
  obtain ⟨hfn, ⟨b, hb, rfl⟩, -⟩ := hc n f hf
  rw [← hem, ← hfn]
  exact hd a ha b hb k hek hfk

/-- What `recycleResources` does when it returns: nothing, without an entry for
the node or a key that parses, or it drops the entry of the node and the peer of
the pod's key. -/
theorem recycleResources_cases {config : DaemonCNFTunnelConfig} {removeErr : Option Error}
    {route : RouteEnv} {r : InnerClusterTunnelController × Option Error}
    (h : c.recycleResources parseKey config removeErr route = .ok r) :
    r.1 = { c with wireguard := r.1.wireguard, routes := r.1.routes } ∧
      (r.1.wireguard = c.wireguard ∧ (c.wireguard.innerConnections.lookup config.nodeID = none ∨
          config.firstKey parseKey = none) ∨
        ∃ k, config.firstKey parseKey = some k ∧
          (∃ e, c.wireguard.innerConnections.lookup config.nodeID = some e) ∧
          r.1.wireguard = { c.wireguard with
            innerConnections := c.wireguard.innerConnections.erase config.nodeID
            device := c.wireguard.device.withoutKey (some k) removeErr }) := by
  rw [InnerClusterTunnelController.recycleResources] at h
  cases he : c.wireguard.innerConnections.lookup config.nodeID with
  | none =>
    simp only [he, pure, Except.pure, Except.ok.injEq] at h
    subst h
    exact ⟨rfl, .inl ⟨rfl, .inl rfl⟩⟩
  | some e =>
    simp only [he] at h
    obtain ⟨s, hs, h⟩ := Go.bind_eq_ok.mp h
    obtain ⟨l, hl⟩ := Go.index_zero_eq_ok.mp hs
    cases hk : parseKey s with
    | error e =>
      simp only [hk, pure, Except.pure, Except.ok.injEq] at h
      subst h
      refine ⟨rfl, .inl ⟨rfl, .inr ?_⟩⟩
      simp [DaemonCNFTunnelConfig.firstKey, hl, hk, Except.toOption]
    | ok k =>
      simp only [hk] at h
      obtain ⟨t, -, h⟩ := Go.bind_eq_ok.mp h
      rw [Wireguard.RemoveInnerClusterTunnel, Wireguard.removeTunnel_eq] at h
      have hfirst := DaemonCNFTunnelConfig.firstKey_eq_some.mpr ⟨s, l, hl, hk⟩
      cases removeErr with
      | none =>
        simp only [wrap, Option.map_none, pure, Except.pure, Except.ok.injEq] at h
        subst h
        exact ⟨rfl, .inr ⟨k, hfirst, ⟨e, rfl⟩, rfl⟩⟩
      | some e' =>
        simp only [wrap, Option.map_some, pure, Except.pure, Except.ok.injEq] at h
        subst h
        exact ⟨rfl, .inr ⟨k, hfirst, ⟨e, rfl⟩, rfl⟩⟩

theorem innerStep_add {config : DaemonCNFTunnelConfig}
    (h : innerStep parseKey c (.add config) c') :
    c'.wireguard = c.wireguard ∨ ∃ ip k table, config.firstKey parseKey = some k ∧
      c.wireguard.innerKey parseKey config.nodeID ≠ some k ∧
      (∀ n, table.lookup n =
        if n = config.nodeID then some config else c.wireguard.innerConnections.lookup n) ∧
      c'.wireguard = c.wireguard.innerAdded parseKey config ip k ⟨none, none⟩ table := by
  obtain ⟨⟨w, err⟩, hr, h⟩ := Go.bind_eq_ok.mp h
  cases h
  rcases AddInnerClusterTunnel_cases hr with ⟨rfl, -⟩ | ⟨ip, k, table, hk, hne, ht, rfl, -⟩
  · exact .inl rfl
  · exact .inr ⟨ip, k, table, hk, hne, ht, rfl⟩

theorem innerStep_recycle {config : DaemonCNFTunnelConfig} {route : RouteEnv}
    (h : innerStep parseKey c (.recycle config route) c') :
    (c'.wireguard = c.wireguard ∧ (c.wireguard.innerConnections.lookup config.nodeID = none ∨
        config.firstKey parseKey = none)) ∨
      ∃ k e, config.firstKey parseKey = some k ∧
        c.wireguard.innerConnections.lookup config.nodeID = some e ∧
        c'.wireguard = { c.wireguard with
          innerConnections := c.wireguard.innerConnections.erase config.nodeID
          device := c.wireguard.device.withoutKey (some k) none } := by
  obtain ⟨r, hr, h⟩ := Go.bind_eq_ok.mp h
  cases h
  obtain ⟨-, h | ⟨k, hk, ⟨e, he⟩, h⟩⟩ := recycleResources_cases hr
  · exact .inl h
  · exact .inr ⟨k, e, hk, he, h⟩

theorem TableFrom.step {call : InnerCall} (hc : TableFrom parseKey calls c) (hcall : call ∈ calls)
    (h : innerStep parseKey c call c') : TableFrom parseKey calls c' := by
  intro n e he
  cases call with
  | add config =>
    rcases innerStep_add h with hw | ⟨ip, k, table, hk, -, ht, hw⟩
    · rw [hw] at he
      exact hc n e he
    · simp only [hw, Wireguard.innerAdded, ht] at he
      by_cases hn : n = config.nodeID
      · rw [if_pos hn] at he
        cases he
        exact ⟨hn.symm, ⟨_, hcall, rfl⟩, k, hk⟩
      · rw [if_neg hn] at he
        exact hc n e he
  | recycle config route =>
    rcases innerStep_recycle h with ⟨hw, -⟩ | ⟨k, e', -, -, hw⟩
    · rw [hw] at he
      exact hc n e he
    · simp only [hw, GoMap.lookup_erase_eq] at he
      by_cases hn : n = config.nodeID
      · rw [if_pos hn] at he
        cases he
      · rw [if_neg hn] at he
        exact hc n e he

/-- Adding a pod keeps the agreement: the key that leaves the device is the one
that leaves the table. -/
theorem KeysAgree.add {config : DaemonCNFTunnelConfig} (hd : DistinctKeys parseKey calls)
    (hc : TableFrom parseKey calls c) (ha : KeysAgree parseKey c)
    (h : innerStep parseKey c (.add config) c') : KeysAgree parseKey c' := by
  rcases innerStep_add h with hw | ⟨ip, k, table, hk, hne, ht, hw⟩
  · rwa [KeysAgree, hw]
  intro k'
  have htable : ∀ n, c'.wireguard.innerKey parseKey n =
      if n = config.nodeID then some k else c.wireguard.innerKey parseKey n := by
    intro n
    simp only [Wireguard.innerKey, hw, Wireguard.innerAdded, ht]
    by_cases hn : n = config.nodeID <;> simp [hn, hk]
  have hdevice : (c'.wireguard.device.lookup k').isSome ↔
      k' = k ∨ c.wireguard.innerKey parseKey config.nodeID ≠ some k' ∧
        (c.wireguard.device.lookup k').isSome := by
    simp only [hw, Wireguard.innerAdded, Device.configured, Device.isSome_apply_add,
      Device.lookup_withoutKey, and_true]
    by_cases ho : c.wireguard.innerKey parseKey config.nodeID = some k' <;> simp [ho]
  rw [hdevice, ha k']
  simp only [htable]
  constructor
  · rintro (rfl | ⟨ho, n, hn⟩)
    · exact ⟨config.nodeID, by rw [if_pos rfl]⟩
    · refine ⟨n, ?_⟩
      rw [if_neg fun he : n = config.nodeID => ho (he ▸ hn)]
      exact hn
  · rintro ⟨n, hn⟩
    by_cases he : n = config.nodeID
    · rw [if_pos he] at hn
      exact .inl (Option.some_inj.mp hn).symm
    · rw [if_neg he] at hn
      exact .inr ⟨fun ho => he (hc.unique hd hn ho), n, hn⟩

/-- Recycling a pod keeps the agreement exactly when it finds its own entry, or
none. -/
theorem KeysAgree.recycle_iff {config : DaemonCNFTunnelConfig} {route : RouteEnv}
    (hd : DistinctKeys parseKey calls) (hc : TableFrom parseKey calls c)
    (ha : KeysAgree parseKey c) (h : innerStep parseKey c (.recycle config route) c') :
    KeysAgree parseKey c' ↔ RecyclesOwn parseKey c (.recycle config route) := by
  rcases innerStep_recycle h with ⟨hw, hnone⟩ | ⟨k, e, hk, he, hw⟩
  · refine iff_of_true (by rwa [KeysAgree, hw]) fun e k he hk => ?_
    rcases hnone with hnone | hnone
    · rw [he] at hnone; cases hnone
    · rw [hk] at hnone; cases hnone
  have htable : ∀ n, c'.wireguard.innerKey parseKey n =
      if n = config.nodeID then none else c.wireguard.innerKey parseKey n := by
    intro n
    simp only [Wireguard.innerKey, hw, GoMap.lookup_erase_eq]
    by_cases hn : n = config.nodeID <;> simp [hn]
  have hdevice : ∀ k', (c'.wireguard.device.lookup k').isSome ↔
      k' ≠ k ∧ (c.wireguard.device.lookup k').isSome := by
    intro k'
    simp only [hw, Device.lookup_withoutKey, Option.some_inj, and_true]
    by_cases hkk : k = k'
    · simp [hkk]
    · simp [hkk, Ne.symm hkk]
  obtain ⟨-, -, ke, hke⟩ := hc _ _ he
  have hnode := innerKey_eq_some.mpr ⟨e, he, hke⟩
  constructor
  · intro ha' e' k' he' hk'
    rw [he] at he'; cases he'
    rw [hk] at hk'; cases hk'
    by_contra hne
    have hkk : ke ≠ k := fun hkk => hne (hkk ▸ hke)
    obtain ⟨n, hn⟩ := (ha' ke).mp ((hdevice ke).mpr ⟨hkk, (ha ke).mpr ⟨_, hnode⟩⟩)
    rw [htable] at hn
    by_cases hnn : n = config.nodeID
    · rw [if_pos hnn] at hn; cases hn
    · rw [if_neg hnn] at hn
      exact hnn (hc.unique hd hn hnode)
  · intro hown k'
    have hown := hown e k he hk
    rw [hdevice, ha k']
    simp only [htable]
    rw [hke] at hown; cases hown
    constructor
    · rintro ⟨hkk, n, hn⟩
      refine ⟨n, ?_⟩
      rw [if_neg fun hnn => hkk ?_]
      · exact hn
      · rw [hnn, hnode] at hn
        exact (Option.some_inj.mp hn).symm
    · rintro ⟨n, hn⟩
      by_cases hnn : n = config.nodeID
      · rw [if_pos hnn] at hn; cases hn
      · rw [if_neg hnn] at hn
        exact ⟨fun hkk => hnn (hc.unique hd hn (hkk ▸ hnode)), n, hn⟩

/-- From a new device, the table and the device agree in every state of a run
exactly when every recycled pod finds its own entry in the table, or none. -/
theorem innerConnections_agree_iff (hnew : c.wireguard = NewTunnel)
    (hd : DistinctKeys parseKey calls) :
    Runs (Reaching (innerStep parseKey) (KeysAgree parseKey)) c calls c' ↔
      Runs (Guarded (innerStep parseKey) (RecyclesOwn parseKey)) c calls c' := by
  refine Runs.reaching_iff_guarded (J := TableFrom parseKey calls) (P := (· ∈ calls))
    (fun hcall hc h => hc.step hcall h) (fun {s call s'} hcall hc ha h => ?_) (fun _ h => h) ?_ ?_
  · cases call with
    | add config => exact iff_of_true (ha.add hd hc h) trivial
    | recycle config route => exact ha.recycle_iff hd hc h
  · intro n e he
    rw [hnew] at he
    cases he
  · intro k
    simp [hnew, NewTunnel, Wireguard.innerKey]

end

/-! A node whose pod is replaced: the new pod's tunnel is added before the old
pod is recycled. -/

def samplePod (name cidr key : String) : DaemonCNFTunnelConfig where
  nodeID := "node-1"
  podID := name
  endpointIP := "172.16.0.5"
  secondaryCIDR := [cidr]
  serviceCIDR := ["10.96.0.0/12"]
  port := Known.UDPPort
  publicKey := [key]

/-- A controller with a new device, whose routes reach both pods. -/
def newInner : InnerClusterTunnelController where
  wireguard := NewTunnel
  routes := (parseSubnets ["20.112.64.0/20", "20.112.80.0/20"]).toFinset
  podLister := ∅
  pods := ∅
  existingCIDR := []
  clusterCIDR := "20.112.0.0/16"
  globalCIDR := "20.112.0.0/12"
  currentLeader := "cnf-leader"
  tunnelled := []

theorem samplePods_distinct {calls : List InnerCall}
    (h : ∀ a ∈ calls, a.config.nodeID = "node-1") : DistinctKeys sampleKey calls :=
  fun a ha b hb _ _ _ => (h a ha).trans (h b hb).symm

/-- The old pod is recycled first: the table and the device agree throughout. -/
theorem innerConnections_agree_in_order :
    ∃ c', Runs (Reaching (innerStep sampleKey) (KeysAgree sampleKey)) newInner
      [.add (samplePod "cnf-a" "20.112.64.0/20" "old"),
        .recycle (samplePod "cnf-a" "20.112.64.0/20" "old") allRoutes,
        .add (samplePod "cnf-b" "20.112.80.0/20" "new")] c' := by
  refine ⟨_, (innerConnections_agree_iff rfl (samplePods_distinct (by simp [InnerCall.config,
    samplePod]))).mpr (.cons ⟨rfl, trivial⟩ (.cons ⟨rfl, ?_⟩ (.cons ⟨rfl, trivial⟩ (.nil _))))⟩
  intro e k he hk
  cases he
  exact hk

/-- The old pod is recycled last: the new pod's peer stays on the device without
an entry in the table. -/
theorem recycle_of_replaced_pod_disagrees :
    ∃ calls c', calls = [.add (samplePod "cnf-a" "20.112.64.0/20" "old"),
        .add (samplePod "cnf-b" "20.112.80.0/20" "new"),
        .recycle (samplePod "cnf-a" "20.112.64.0/20" "old") allRoutes] ∧
      DistinctKeys sampleKey calls ∧ Runs (innerStep sampleKey) newInner calls c' ∧
      ¬ KeysAgree sampleKey c' := by
  refine ⟨_, _, rfl, samplePods_distinct (by simp [InnerCall.config, samplePod]),
    .cons rfl (.cons rfl (.cons rfl (.nil _))), fun h => ?_⟩
  obtain ⟨n, hn⟩ := (h 2).mp rfl
  cases hn

end Fleetboard.Tunnel
