import Fleetboard.Proof.InterTunnel
import Fleetboard.Proof.NodeCIDR

/-!
# Two writers of the node CIDR annotation

In a child cluster two controllers of the leader write the node CIDR annotation. The
inner-cluster controller gives the pods blocks of the cluster's network; the
inter-cluster controller writes the CIDR of each peer but the hub that it handles on
the leader's own pod, be it another cluster's or the whole network of its own.

* `handle_pods`: what a `Handle` leaves of the annotations;
* `spawn_pods`: what an allocation leaves of them;
* `NodeBlocks.written_iff`: when a write of one annotation keeps the blocks inside the
  cluster's network and apart;
* `node_blocks_inside`: a run keeps them so if each peer's CIDR that is written fits,
  and each allocation knows the blocks that are there.
-/

namespace Fleetboard.Tunnel

open Fleetboard.Net Fleetboard.NetUtil

/-! ## The annotations of the pods -/

/-- The text is a CIDR whose addresses are all in the network. -/
def Inside (network : IPNet) (s : String) : Prop :=
  ∃ a b, parseCIDR s = .ok (a, b) ∧ ∀ x, b.contains x → network.contains x

/-- The blocks of the pods are inside the network, and those of different pods are
apart. -/
structure NodeBlocks (network : IPNet) (pods : GoMap String Pod) : Prop where
  inside : ∀ n q, pods.lookup n = some q → ∀ s ∈ blocks q, Inside network s
  apart : ∀ m n p q, m ≠ n → pods.lookup m = some p → pods.lookup n = some q →
    ∀ s ∈ blocks p, ∀ t ∈ blocks q, Apart s t

/-- The text fits beside the blocks of the pods other than the one of the name. -/
def Fits (network : IPNet) (pods : GoMap String Pod) (name s : String) : Prop :=
  Inside network s ∧ ∀ m p, m ≠ name → pods.lookup m = some p → ∀ t ∈ blocks p, Apart t s

/-- When blocks are written on one pod. -/
theorem NodeBlocks.written_iff {network : IPNet} {pods pods' : GoMap String Pod}
    (h : NodeBlocks network pods) {name : String} {q' : Pod}
    (hpods : ∀ n, pods'.lookup n = if n = name then some q' else pods.lookup n) :
    NodeBlocks network pods' ↔ ∀ s ∈ blocks q', Fits network pods name s := by
  have hname : pods'.lookup name = some q' := by rw [hpods, if_pos rfl]
  have hother : ∀ {m}, m ≠ name → pods'.lookup m = pods.lookup m := fun hm => by
    rw [hpods, if_neg hm]
  constructor
  · intro h' s hs
    refine ⟨h'.inside _ _ hname s hs, fun m p hm hp t ht => ?_⟩
    exact h'.apart m name p q' hm ((hother hm).trans hp) hname t ht s hs
  · intro hfits
    refine ⟨fun n q hq s hs => ?_, fun m n p q hmn hp hq s hs t ht => ?_⟩
    · by_cases hn : n = name
      · rw [hn, hname] at hq
        cases hq
        exact (hfits s hs).1
      · rw [hother hn] at hq
        exact h.inside n q hq s hs
    · by_cases hm : m = name
      · have hn : n ≠ name := fun hn => hmn (hm.trans hn.symm)
        rw [hm, hname] at hp
        cases hp
        rw [hother hn] at hq
        exact ((hfits s hs).2 n q hn hq t ht).symm
      · rw [hother hm] at hp
        by_cases hn : n = name
        · rw [hn, hname] at hq
          cases hq
          exact (hfits t ht).2 m p hm hp s hs
        · rw [hother hn] at hq
          exact h.apart m n p q hmn hp hq s hs t ht

/-! ## The writers -/

section

variable {parseKey : String → Except Error Key} {spec : Specification}
variable {c c' : InterClusterTunnelController} {peerName : String} {env : HandleEnv}
  {r : HandleResult}

theorem connect_pods (c : InterClusterTunnelController) (cachedPeer : Peer) (noCIDR : Bool)
    (env : HandleEnv) :
    (InterClusterTunnelController.connect parseKey spec c cachedPeer noCIDR env).1.pods =
      c.pods := by
  unfold InterClusterTunnelController.connect
  dsimp only
  rcases Wireguard.AddInterClusterTunnel parseKey spec c.tunnel cachedPeer env.add with
    ⟨w, _ | e⟩
  · rcases configHostRoutingRules c.routes cachedPeer.spec.podCIDR .add env.route with
      ⟨routes, _ | e⟩
    · dsimp only
      split
      · split <;> rfl
      · rfl
    · rfl
  · rfl

theorem RecyclePeer_pods {cachedPeer : Option Peer} {removeErr : Option Error} {route : RouteEnv}
    (h : c.RecyclePeer parseKey cachedPeer removeErr route = .ok (c', r)) : c'.pods = c.pods := by
  obtain ⟨peer, -, h⟩ := Go.bind_eq_ok.mp h
  split at h
  · cases h
    rfl
  · split at h
    · cases h
      rfl
    · split at h <;> cases h <;> rfl

/-- The leader reads its own pod as it is stored. -/
def SelfRead (spec : Specification) (c : InterClusterTunnelController) (env : HandleEnv) : Prop :=
  ∀ pod, env.selfPod = .found pod → c.pods.lookup spec.podName = some pod ∧ pod.name = spec.podName

/-- `Handle` writes the CIDR of the peer on the leader's own pod. -/
def Annotates (c : InterClusterTunnelController) (peerName : String) (env : HandleEnv)
    (cidr : String) : Prop :=
  ∃ p pod, c.peerLister.lookup peerName = some p ∧ p.deletionTimestamp = false ∧ p.cidr ≠ "" ∧
    p.name ≠ Known.HubClusterName ∧ env.selfPod = .found pod ∧ env.selfPatchErr = none ∧
    cidr = p.cidr

/-- The leader's pod gets the annotation, and the other pods stay as they are. -/
theorem annotated {pod : Pod} {pods : GoMap String Pod} {cidr : String}
    (hpod : pods.lookup pod.name = some pod) :
    ∃ q', nodeCIDR q' = some cidr ∧ ∀ n,
      (SetSpecificAnnotations pods pod [(Known.FleetboardNodeCIDR, cidr)] true none).server.lookup n =
        if n = pod.name then some q' else pods.lookup n := by
  obtain ⟨hres, ⟨herr, -⟩ | ⟨-, q, q', hq, -, -, -, hann, hserver⟩⟩ :=
    SetSpecificAnnotations_spec (rfl : SetSpecificAnnotations pods pod
      [(Known.FleetboardNodeCIDR, cidr)] true none = _)
  · simp [SetSpecificAnnotations, hpod] at herr
  · rw [hpod] at hq
    cases hq
    refine ⟨q', ?_, hserver⟩
    have hnew := hann Known.FleetboardNodeCIDR cidr (by
      rw [hres]
      simp only [List.foldl_cons, List.foldl_nil, lookup_annotate, if_pos])
    rw [nodeCIDR, hnew]
    split
    · assumption
    · rfl

/-- A child cluster's `Handle` leaves the pods, or writes the peer's CIDR on the leader's
own. -/
theorem handle_pods (hchild : spec.asCluster = true) (hread : SelfRead spec c env)
    (h : c.Handle parseKey spec peerName env = .ok (c', r)) :
    (∀ cidr, ¬ Annotates c peerName env cidr) ∧ c'.pods = c.pods ∨
      ∃ cidr q', Annotates c peerName env cidr ∧ nodeCIDR q' = some cidr ∧
        ∀ n, c'.pods.lookup n = if n = spec.podName then some q' else c.pods.lookup n := by
  unfold InterClusterTunnelController.Handle at h
  cases hp : c.peerLister.lookup peerName with
  | none =>
    rw [hp] at h
    refine .inl ⟨?_, RecyclePeer_pods h⟩
    rintro cidr ⟨p, pod, hp', -⟩
    rw [hp] at hp'
    cases hp'
  | some p =>
    simp only [hp, hchild, if_true] at h
    by_cases hdel : p.deletionTimestamp = true
    · rw [if_pos hdel] at h
      refine .inl ⟨?_, RecyclePeer_pods h⟩
      rintro cidr ⟨p', pod, hp', hlive, -⟩
      cases hp.symm.trans hp'
      exact absurd (hdel.symm.trans hlive) Bool.noConfusion
    rw [if_neg hdel] at h
    by_cases hcidr : p.cidr = ""
    · rw [if_pos hcidr] at h
      cases h
      refine .inl ⟨?_, rfl⟩
      rintro cidr ⟨p', pod, hp', -, hne, -⟩
      cases hp.symm.trans hp'
      exact absurd hcidr hne
    rw [if_neg hcidr] at h
    by_cases hhub : p.name = Known.HubClusterName
    · rw [if_neg (not_not_intro hhub)] at h
      have hpods := congrArg (fun x => x.1.pods) (Except.ok.inj h)
      refine .inl ⟨?_, hpods.symm.trans (connect_pods _ _ _ _)⟩
      rintro cidr ⟨p', pod, hp', -, -, hne, -⟩
      cases hp.symm.trans hp'
      exact absurd hhub hne
    rw [if_pos hhub] at h
    have hpods : c'.pods = (AddAnnotationToSelf c.pods env.selfPod Known.FleetboardSystemNamespace
        spec.podName Known.FleetboardNodeCIDR p.cidr true env.selfPatchErr).1 := by
      rcases hadd : AddAnnotationToSelf c.pods env.selfPod Known.FleetboardSystemNamespace
        spec.podName Known.FleetboardNodeCIDR p.cidr true env.selfPatchErr with ⟨pods, _ | e⟩
      · rw [hadd] at h
        exact (congrArg (fun x => x.1.pods) (Except.ok.inj h)).symm.trans (connect_pods _ _ _ _)
      · rw [hadd] at h
        exact (congrArg (fun x => x.1.pods) (Except.ok.inj h)).symm
    rw [hpods]
    cases hself : env.selfPod with
    | notFound =>
      refine .inl ⟨?_, rfl⟩
      rintro cidr ⟨p', pod, -, -, -, -, hself', -⟩
      cases hself.symm.trans hself'
    | failed e =>
      refine .inl ⟨?_, rfl⟩
      rintro cidr ⟨p', pod, -, -, -, -, hself', -⟩
      cases hself.symm.trans hself'
    | found pod =>
      obtain ⟨hpod, hname⟩ := hread pod hself
      rw [← hname] at hpod ⊢
      cases hpatch : env.selfPatchErr with
      | some e =>
        refine .inl ⟨?_, rfl⟩
        rintro cidr ⟨p', pod, -, -, -, -, -, hpatch', -⟩
        cases hpatch.symm.trans hpatch'
      | none =>
        obtain ⟨q', hq', hserver⟩ := annotated hpod
        exact .inr ⟨p.cidr, q', ⟨p, pod, hp, Bool.eq_false_iff.mpr hdel, hcidr, hhub, hself, hpatch,
          rfl⟩, hq', hserver⟩

end

/-- An allocation writes a free block on the pod, unless its object has it already. -/
theorem spawn_pods {c c' : InnerClusterTunnelController} {pod pod' : Pod} {b : String}
    {err : Option Error} (h : c.SpawnNewCIDRForNRIPod pod err = .ok (c', .ok (pod', b))) :
    FindClusterAvailableCIDR c.clusterCIDR c.existingCIDR = .ok (.ok b) ∧
      c'.clusterCIDR = c.clusterCIDR ∧ ∃ q q', c.pods.lookup pod.name = some q ∧
        (nodeCIDR q' = some b ∨ nodeCIDR q' = nodeCIDR q) ∧
        ∀ n, c'.pods.lookup n = if n = pod.name then some q' else c.pods.lookup n := by
  obtain ⟨found, hfind, h⟩ := Go.bind_eq_ok.mp h
  cases found with
  | error e => cases h
  | ok b' =>
    simp only at h
    generalize hset : SetSpecificAnnotations c.pods pod
      [(Known.FleetboardTunnelCIDR, c.globalCIDR), (Known.FleetboardNodeCIDR, b')] true err = r at h
    obtain ⟨hpod, ⟨herr, -⟩ | ⟨herr, q, q', hq, -, -, -, hann, hserver⟩⟩ :=
      SetSpecificAnnotations_spec hset
    · obtain ⟨e, herr⟩ := Option.ne_none_iff_exists'.mp herr
      simp only [herr] at h
      cases h
    · simp only [herr] at h
      cases h
      have hblock : r.pod.annotations.lookup Known.FleetboardNodeCIDR = some b := by
        rw [hpod]
        exact nodeCIDR_setBlock pod c.globalCIDR b
      refine ⟨hfind, rfl, q, q', hq, ?_, hserver⟩
      rw [nodeCIDR, hann _ _ hblock]
      split
      · exact .inr rfl
      · exact .inl rfl

/-! ## Runs of a leader -/

/-- The two controllers of a leader, which share the stored pods. -/
structure Leader where
  inter : InterClusterTunnelController
  inner : InnerClusterTunnelController
  shared : inter.pods = inner.pods

def Leader.withInter (s : Leader) (c : InterClusterTunnelController) : Leader :=
  ⟨c, { s.inner with pods := c.pods }, rfl⟩

def Leader.withInner (s : Leader) (c : InnerClusterTunnelController) : Leader :=
  ⟨{ s.inter with pods := c.pods }, c, rfl⟩

/-- The leader handles a peer, or allocates a block for a pod; the peers change. -/
inductive LeaderEvent
  | handle (peerName : String) (env : HandleEnv)
  | spawn (pod : Pod) (patchErr : Option Error)
  | peers (lister : GoMap String Peer)

/-- A block of the cluster's network is free. -/
def HasFreeBlock (network : IPNet) {d : Nat} (hd : d ≤ 32) (existing : List String) : Prop :=
  ∃ i < 2 ^ (d - network.ones), Free existing (blockAt network hd i)

section

variable (parseKey : String → Except Error Key) (spec : Specification) (network : IPNet) {d : Nat}
  (hd : d ≤ 32)

/-- Peers are handled that the enqueue filter lets through, and allocations succeed while
there are free blocks. -/
def leaderStep (s : Leader) (e : LeaderEvent) (s' : Leader) : Prop :=
  match e with
  | .handle peerName env =>
    (∃ p, s.inter.peerLister.lookup peerName = some p ∧
      InterClusterTunnelController.enqueueFilter spec p = true) ∧
    SelfRead spec s.inter env ∧
    ∃ c r, s.inter.Handle parseKey spec peerName env = .ok (c, r) ∧ s' = s.withInter c
  | .spawn pod patchErr =>
    HasFreeBlock network hd s.inner.existingCIDR ∧
    ∃ c res, s.inner.SpawnNewCIDRForNRIPod pod patchErr = .ok (c, .ok res) ∧ s' = s.withInner c
  | .peers lister => s' = s.withInter { s.inter with peerLister := lister }

/-- What `Handle` writes fits beside the other pods' blocks, and an allocation knows the
other pods' blocks. -/
def WritesFit (s : Leader) : LeaderEvent → Prop
  | .handle peerName env => ∀ cidr, Annotates s.inter peerName env cidr →
      ∀ t ∈ splitComma cidr, Fits network s.inter.pods spec.podName t
  | .spawn pod _ => ∀ n q, n ≠ pod.name → s.inner.pods.lookup n = some q →
      ∀ t ∈ blocks q, t ∈ s.inner.existingCIDR
  | .peers _ => True

end

section

variable {parseKey : String → Except Error Key} {spec : Specification} {network : IPNet} {d : Nat}
  {hd : d ≤ 32} {s s' : Leader}

theorem blocks_of_nodeCIDR {q : Pod} {cidr : String} (h : nodeCIDR q = some cidr) :
    blocks q = splitComma cidr := by
  rw [blocks_eq, h]
  rfl

theorem NodeBlocks.fits {pods : GoMap String Pod} (h : NodeBlocks network pods) {name : String}
    {q : Pod} (hq : pods.lookup name = some q) : ∀ t ∈ blocks q, Fits network pods name t :=
  fun t ht => ⟨h.inside name q hq t ht, fun m p hm hp u hu => h.apart m name p q hm hp hq u hu t ht⟩

/-- A `Handle` keeps the blocks inside and apart exactly when what it writes fits. -/
theorem handle_nodeBlocks_iff (hchild : spec.asCluster = true) {peerName : String} {env : HandleEnv}
    (h : NodeBlocks network s.inter.pods)
    (hstep : leaderStep parseKey spec network hd s (.handle peerName env) s') :
    NodeBlocks network s'.inter.pods ↔ WritesFit spec network s (.handle peerName env) := by
  obtain ⟨-, hread, c, r, hr, rfl⟩ := hstep
  rcases handle_pods hchild hread hr with ⟨hno, hpods⟩ | ⟨cidr, q', hann, hq', hpods⟩
  · refine iff_of_true ?_ fun cidr hann => absurd hann (hno cidr)
    simp only [Leader.withInter, hpods]
    exact h
  · simp only [Leader.withInter]
    rw [h.written_iff hpods, blocks_of_nodeCIDR hq']
    constructor
    · rintro hfits cidr' ⟨p', _, hp', _, _, _, _, _, rfl⟩
      obtain ⟨p, _, hp, _, _, _, _, _, rfl⟩ := hann
      cases hp.symm.trans hp'
      exact hfits
    · exact fun hfits => hfits cidr hann

/-- The block of an allocation is inside the network while it has free ones. -/
theorem inside_of_find {cidr : String} {a : Addr} (hp : parseCIDR cidr = .ok (a, network))
    (hdiv : divideClusterNetwork cidr = .ok d) (hoctet : 2 ^ 24 ≤ network.ip.toNat)
    {existing : List String} (hfree : HasFreeBlock network hd existing) {b : String}
    (hfind : FindClusterAvailableCIDR cidr existing = .ok (.ok b)) : Inside network b := by
  have hb := divideClusterNetwork_bounds hp hdiv
  simp only [FindClusterAvailableCIDR, hdiv] at hfind
  have hex : Readable existing := by
    simp only [findAvailableCIDR, hp] at hfind
    obtain ⟨set, hset, -⟩ := Go.bind_eq_ok.mp hfind
    exact readable_of_existingCIDRSet hset
  refine (findAvailableCIDR_inside_iff hp hex hd hb.1).mpr ?_ b hfind
  rw [RoomInside, if_neg (Nat.not_lt.mpr hoctet)]
  -- The block that the search takes comes no later than the free one inside.
  rintro ⟨k, htried, hk⟩
  obtain ⟨i, hi, hfree⟩ := hfree
  rcases Nat.lt_or_ge k i with hlt | hle
  · exact ⟨k, hlt.trans hi, htried, hk⟩
  · exact ⟨i, hi, htried.mono hle, hfree⟩

theorem spawn_nodeBlocks {cidr : String} {a : Addr} (hp : parseCIDR cidr = .ok (a, network))
    (hdiv : divideClusterNetwork cidr = .ok d) (hoctet : 2 ^ 24 ≤ network.ip.toNat)
    (hcidr : s.inner.clusterCIDR = cidr) {pod : Pod} {patchErr : Option Error}
    (h : NodeBlocks network s.inter.pods)
    (hstep : leaderStep parseKey spec network hd s (.spawn pod patchErr) s')
    (hlisted : WritesFit spec network s (.spawn pod patchErr)) :
    NodeBlocks network s'.inter.pods ∧ s'.inner.clusterCIDR = cidr := by
  obtain ⟨hfree, c, ⟨pod', b⟩, hr, rfl⟩ := hstep
  obtain ⟨hfind, hc, q, q', hq, hq', hpods⟩ := spawn_pods hr
  rw [hcidr] at hfind
  refine ⟨?_, hc.trans hcidr⟩
  rw [s.shared] at h
  refine (h.written_iff hpods).mpr ?_
  rcases hq' with hq' | hq'
  · obtain ⟨⟨network', d', i, hb⟩, hapart⟩ := FindClusterAvailableCIDR_apart hfind
    rw [blocks_of_nodeCIDR hq', hb, splitComma_candidate, ← hb]
    intro t ht
    rw [List.mem_singleton.mp ht]
    exact ⟨inside_of_find hp hdiv hoctet hfree hfind, fun m p hm hp u hu =>
      hapart u (hlisted m p hm hp u hu)⟩
  · rw [blocks_eq, hq', ← blocks_eq]
    exact h.fits hq

theorem nodeBlocks_step {cidr : String} {a : Addr} (hp : parseCIDR cidr = .ok (a, network))
    (hdiv : divideClusterNetwork cidr = .ok d) (hoctet : 2 ^ 24 ≤ network.ip.toNat)
    (hchild : spec.asCluster = true) {e : LeaderEvent}
    (h : NodeBlocks network s.inter.pods ∧ s.inner.clusterCIDR = cidr)
    (hstep : Guarded (leaderStep parseKey spec network hd) (WritesFit spec network) s e s') :
    NodeBlocks network s'.inter.pods ∧ s'.inner.clusterCIDR = cidr := by
  obtain ⟨hstep, hfit⟩ := hstep
  cases e with
  | handle peerName env =>
    refine ⟨(handle_nodeBlocks_iff hchild h.1 hstep).mpr hfit, ?_⟩
    obtain ⟨-, -, c, r, -, rfl⟩ := hstep
    exact h.2
  | spawn pod patchErr => exact spawn_nodeBlocks hp hdiv hoctet h.2 h.1 hstep hfit
  | peers lister =>
    obtain rfl := hstep
    exact h

/-- In a child cluster, a run in which every CIDR that `Handle` writes fits beside the other
pods' blocks, and every allocation knows the other pods' blocks, keeps the blocks of
the pods inside the cluster's network and apart. -/
theorem node_blocks_inside {cidr : String} {a : Addr} (hp : parseCIDR cidr = .ok (a, network))
    (hdiv : divideClusterNetwork cidr = .ok d) (hoctet : 2 ^ 24 ≤ network.ip.toNat)
    (hchild : spec.asCluster = true ∧ spec.asHub = false) (hcidr : s.inner.clusterCIDR = cidr)
    (hstart : NodeBlocks network s.inter.pods) {es : List LeaderEvent}
    (hrun : Runs (Guarded (leaderStep parseKey spec network (divideClusterNetwork_bounds hp hdiv).2)
      (WritesFit spec network)) s es s') :
    NodeBlocks network s'.inter.pods :=
  (hrun.invariant (I := fun s => NodeBlocks network s.inter.pods ∧ s.inner.clusterCIDR = cidr)
    (nodeBlocks_step hp hdiv hoctet hchild.1) ⟨hstart, hcidr⟩).1

end

/-! A leader of the cluster `c1`, with its own peer, the hub's and that of a public
cluster. -/

def leaderSpec : Specification where
  asHub := false
  asCluster := true
  cidr := ""
  podName := "cnf-leader"
  endpoint := ""
  clusterID := "c1"

def hubPeer : Peer :=
  let peer := childPeer "hub" ["20.112.0.0/12"] "old"
  { peer with spec := { peer.spec with isHub := true, endpoint := "192.0.2.1", isPublic := true } }

def publicPeer : Peer :=
  let peer := childPeer "c2" ["20.113.0.0/16"] "new"
  { peer with spec := { peer.spec with endpoint := "192.0.2.2", isPublic := true } }

def leaderPod : Pod := cnfPod "cnf-leader" "node-1" "old"

def otherPod : Pod := cnfPod "cnf-a" "node-2" "new"

def childPods : GoMap String Pod :=
  ((∅ : GoMap String Pod).insert "cnf-leader" leaderPod).insert "cnf-a" otherPod

def childLeader : Leader where
  inter := { newInter with
    peerLister := (((∅ : GoMap String Peer).insert "hub" hubPeer).insert "c2" publicPeer).insert
      "c1" (childPeer "c1" ["20.112.0.0/16"] "old")
    pods := childPods }
  inner := { newInner with pods := childPods }
  shared := rfl

/-- `20.112.0.0/16`. -/
def childNet : IPNet := ⟨0x14700000#32, 16, Nat.le_add_right 16 16⟩

theorem parseCIDR_childNet : parseCIDR "20.112.0.0/16" = .ok (0x14700000#32, childNet) := by decide

theorem childNet_div : divideClusterNetwork "20.112.0.0/16" = .ok 24 := by decide

theorem childPods_blocks {n : String} {q : Pod} (h : childPods.lookup n = some q) : blocks q = [] := by
  simp only [childPods, GoMap.lookup_insert_eq] at h
  split_ifs at h
  · cases h
    decide
  · cases h
    decide
  · cases h

theorem childPods_nodeBlocks : NodeBlocks childNet childPods := by
  refine ⟨fun n q hq t ht => ?_, fun m n p q _ hp _ t ht => ?_⟩
  · rw [childPods_blocks hq] at ht
    cases ht
  · rw [childPods_blocks hp] at ht
    cases ht

/-- Every call succeeds, and the leader finds its own pod. -/
def childEnv : HandleEnv where
  selfPod := .found leaderPod
  selfPatchErr := none
  add := ⟨none, none⟩
  removeErr := none
  route := allRoutes
  updateErr := none
  listOrder := .stored

/-- The leader after it has handled a peer. -/
def Leader.handled (s : Leader) (peerName : String) : Leader :=
  s.withInter ((s.inter.Handle sampleKey leaderSpec peerName childEnv).getD (s.inter, .done)).1

theorem leaderStep_handled {peerName : String}
    (hpeer : (childLeader.inter.peerLister.lookup peerName).map
      (InterClusterTunnelController.enqueueFilter leaderSpec) = some true)
    (h : (childLeader.inter.Handle sampleKey leaderSpec peerName childEnv).isOk = true)
    {d : Nat} (hd : d ≤ 32) :
    leaderStep sampleKey leaderSpec childNet hd childLeader (.handle peerName childEnv)
      (childLeader.handled peerName) := by
  refine ⟨Option.map_eq_some_iff.mp hpeer, ?_, _, _, Go.eq_ok_getD h (childLeader.inter, .done), rfl⟩
  intro pod hpod
  cases hpod
  exact ⟨rfl, rfl⟩

/-- The leader after it has allocated a block. -/
def Leader.spawned (s : Leader) (pod : Pod) : Leader :=
  s.withInner ((s.inner.SpawnNewCIDRForNRIPod pod none).getD (s.inner, .error "")).1

theorem leaderStep_spawned {s : Leader} {pod : Pod} {d : Nat} {hd : d ≤ 32}
    (hfree : HasFreeBlock childNet hd s.inner.existingCIDR)
    (h : (fun x => x.2.isOk) <$> s.inner.SpawnNewCIDRForNRIPod pod none = .ok true) :
    leaderStep sampleKey leaderSpec childNet hd s (.spawn pod none) (s.spawned pod) := by
  refine ⟨hfree, ?_⟩
  rw [Leader.spawned]
  rcases hr : s.inner.SpawnNewCIDRForNRIPod pod none with e | ⟨c, e | res⟩
  · rw [hr] at h
    cases h
  · rw [hr] at h
    cases h
  · exact ⟨c, res, rfl, rfl⟩

theorem not_annotates_hub (cidr : String) : ¬ Annotates childLeader.inter "hub" childEnv cidr := by
  rintro ⟨p, pod, hp, -, -, hne, -⟩
  obtain rfl : hubPeer = p := Option.some_inj.mp hp
  exact hne rfl

theorem handled_hub_pods : (childLeader.handled "hub").inter.pods = childPods := by
  have hstep : leaderStep sampleKey leaderSpec childNet (Nat.le_refl 32) childLeader
      (.handle "hub" childEnv) (childLeader.handled "hub") :=
    leaderStep_handled (by decide) (by decide +kernel) _
  obtain ⟨-, hread, c, r, hr, hs⟩ := hstep
  rw [hs]
  rcases handle_pods rfl hread hr with ⟨-, hpods⟩ | ⟨cidr, -, hann, -⟩
  · exact hpods
  · exact absurd hann (not_annotates_hub cidr)

/-- The leader handles the hub's peer, and then allocates a block for the other pod. -/
theorem node_blocks_inside_hub :
    ∃ s', Runs (Guarded (leaderStep sampleKey leaderSpec childNet
        (divideClusterNetwork_bounds parseCIDR_childNet childNet_div).2)
        (WritesFit leaderSpec childNet)) childLeader
        [.handle "hub" childEnv, .spawn otherPod none] s' ∧
      (s'.inter.pods.lookup "cnf-a").map blocks = some ["20.112.0.0/24"] ∧
      NodeBlocks childNet s'.inter.pods := by
  have hrun : Runs (Guarded (leaderStep sampleKey leaderSpec childNet
      (divideClusterNetwork_bounds parseCIDR_childNet childNet_div).2)
      (WritesFit leaderSpec childNet)) childLeader
      [.handle "hub" childEnv, .spawn otherPod none]
      ((childLeader.handled "hub").spawned otherPod) := by
    refine .cons ⟨leaderStep_handled (by decide) (by decide +kernel) _, ?_⟩
      (.single ⟨leaderStep_spawned ⟨0, by decide, List.forall_mem_nil _⟩ (by decide +kernel), ?_⟩)
    · exact fun cidr hann => absurd hann (not_annotates_hub cidr)
    · intro n q _ hq t ht
      rw [← (childLeader.handled "hub").shared, handled_hub_pods] at hq
      rw [childPods_blocks hq] at ht
      cases ht
  exact ⟨_, hrun, by decide +kernel, node_blocks_inside parseCIDR_childNet childNet_div (by decide)
    ⟨rfl, rfl⟩ rfl childPods_nodeBlocks hrun⟩

/-- The leader handles the peer of a public cluster, whose CIDR it writes on its own
pod. -/
theorem leader_gets_block_of_other_cluster :
    parseCIDR "20.112.0.0/16" = .ok (0x14700000#32, childNet) ∧
      leaderSpec.asCluster = true ∧ leaderSpec.asHub = false ∧
      (childLeader.inter.peerLister.lookup leaderSpec.clusterID).map (·.spec.podCIDR) =
        some ["20.112.0.0/16"] ∧
      NodeBlocks childNet childLeader.inter.pods ∧
      ∃ s', Runs (leaderStep sampleKey leaderSpec childNet
          (divideClusterNetwork_bounds parseCIDR_childNet childNet_div).2) childLeader
          [.handle "c2" childEnv] s' ∧
        (s'.inter.pods.lookup "cnf-leader").map blocks = some ["20.113.0.0/16"] ∧
        ¬ NodeBlocks childNet s'.inter.pods := by
  refine ⟨parseCIDR_childNet, rfl, rfl, by decide, childPods_nodeBlocks, childLeader.handled "c2",
    .single (leaderStep_handled (by decide) (by decide +kernel) _), by decide +kernel, ?_⟩
  intro h
  have hblocks : ((childLeader.handled "c2").inter.pods.lookup "cnf-leader").map blocks =
      some ["20.113.0.0/16"] := by decide +kernel
  obtain ⟨q, hq, hb⟩ := Option.map_eq_some_iff.mp hblocks
  obtain ⟨a, b, hparse, hin⟩ := h.inside _ q hq "20.113.0.0/16" (hb ▸ List.mem_cons_self)
  have hother : parseCIDR "20.113.0.0/16" = .ok (0x14710000#32, ⟨0x14710000#32, 16, by decide⟩) := by
    decide
  cases hother.symm.trans hparse
  exact absurd (hin 0x14710000#32 (by decide)) (by decide)

end Fleetboard.Tunnel
