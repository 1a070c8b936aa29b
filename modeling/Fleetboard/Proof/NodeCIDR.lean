import Fleetboard.Proof.InnerTunnel
import Fleetboard.Proof.NetUtil

/-!
# The blocks that a leader gives to the nodes

A leader allocates a block for a pod that has none, and adds tunnels with the
blocks it reads from the pods.

* `SetSpecificAnnotations_spec`: the object in the lister changes in any case,
  the stored pod only when the patch succeeds.
* `Allocated`: the stored blocks are listed and apart, and tunnels have stored
  blocks. `Allocated.handle` keeps it as long as the lister has the pod's stored
  block.
* `nodesApart_of_current`: in such runs the nodes' blocks are apart.
* `nodes_share_block_after_failed_patch`: without it two nodes get one block.
-/

namespace Fleetboard.Tunnel

open Fleetboard.Net Fleetboard.NetUtil

/-! ## Annotations -/

theorem splitComma_ne_nil (s : String) : splitComma s ≠ [] := by
  simp [splitComma, List.splitOn_ne_nil]

theorem splitComma_eq_self {s : String} (h : ',' ∉ s.toList) : splitComma s = [s] := by
  have : s.toList.splitOn ',' = [s.toList] :=
    List.splitOnP_eq_singleton fun x hx => by
      simp only [beq_eq_false_iff_ne]
      rintro rfl
      exact h hx
  rw [splitComma, this]
  simp

theorem comma_ne_digitChar : ∀ n < 16, ',' ≠ Nat.digitChar n := by decide

theorem comma_notMem_ipString {bytes : List Nat} (h : ∀ b ∈ bytes, b < 256) :
    ',' ∉ (ipString bytes).toList := by
  have hd := fun n => notMem_toDigits (c := ',') (by decide) n
  unfold ipString
  split
  · decide
  · simp [List.intercalate, hd]
  · simp only [String.toList_ofList, List.mem_cons, List.mem_flatMap, hexByte, not_or, not_exists,
      not_and]
    refine ⟨by decide, fun b hb => ?_⟩
    have := h b hb
    exact ⟨comma_ne_digitChar _ (by omega), comma_ne_digitChar _ (by omega), List.not_mem_nil⟩

theorem splitComma_candidate (network : IPNet) (d i : Nat) :
    splitComma (candidate network d i) = [candidate network d i] := by
  refine splitComma_eq_self ?_
  have hd := notMem_toDigits (c := ',') (by decide) d
  simp only [candidate, String.toList_append, toString_eq_ofList, String.toList_ofList,
    List.mem_append, not_or]
  exact ⟨⟨comma_notMem_ipString (bigBytes_lt _), by decide⟩, hd⟩

theorem lookup_annotate (m : GoMap String String) (kv : String × String) (key : String) :
    (annotate true m kv).lookup key = if key = kv.1 then some kv.2 else m.lookup key := by
  rw [← GoMap.lookup_insert_eq, annotate]
  split <;> rfl

/-- What `SetSpecificAnnotations` does: the object it is given has the new
annotations in any case; the stored pod has those that are new to the object, if
the patch succeeds. -/
theorem SetSpecificAnnotations_spec {server : GoMap String Pod} {pod : Pod}
    {kvs : List (String × String)} {err : Option Error} {r : SetResult}
    (hr : SetSpecificAnnotations server pod kvs true err = r) :
    r.pod = { pod with annotations := kvs.foldl (annotate true) pod.annotations } ∧
      (r.err ≠ none ∧ r.server = server ∨ r.err = none ∧ ∃ q q',
        server.lookup pod.name = some q ∧ q'.name = q.name ∧ q'.nodeName = q.nodeName ∧
        IsPodAlive q' = IsPodAlive q ∧
        (∀ key v, r.pod.annotations.lookup key = some v → q'.annotations.lookup key =
          if pod.annotations.lookup key = some v then q.annotations.lookup key else some v) ∧
        ∀ n, r.server.lookup n = if n = pod.name then some q' else server.lookup n) := by
  subst hr
  unfold SetSpecificAnnotations
  cases err with
  | some e => exact ⟨rfl, .inl ⟨by simp, rfl⟩⟩
  | none =>
    cases hq : server.lookup pod.name with
    | none => exact ⟨rfl, .inl ⟨by simp, rfl⟩⟩
    | some q =>
      refine ⟨rfl, .inr ⟨rfl, q, q.patch (annotationPatch pod.annotations
        (kvs.foldl (annotate true) pod.annotations)), rfl, rfl, rfl, rfl, fun key v hv => ?_,
        fun n => GoMap.lookup_insert_eq _ _ n _⟩⟩
      by_cases hold : pod.annotations.lookup key = some v
      · rw [if_pos hold]
        refine GoMap.lookup_foldl_insert_of_notMem (fun e he hk => ?_) _
        obtain ⟨he, hne⟩ := List.mem_filter.mp he
        rw [GoMap.mem_entries_iff, hk, hv] at he
        cases he
        exact of_decide_eq_true hne (by rw [hk]; exact hold)
      · rw [if_neg hold]
        refine GoMap.lookup_foldl_insert_of_mem (fun e he hk => ?_) (.inl ⟨⟨key, v⟩, ?_, rfl⟩)
        · have he := (List.mem_filter.mp he).1
          rw [GoMap.mem_entries_iff, hk, hv] at he
          cases he
          rfl
        · refine List.mem_filter.mpr ⟨GoMap.mem_entries_iff.mpr hv, ?_⟩
          simpa using hold

/-! ## Runs of a leader -/

/-- The annotation of a pod's block. -/
def nodeCIDR (p : Pod) : Option String := p.annotations.lookup Known.FleetboardNodeCIDR

/-- The blocks of a pod. -/
def blocks (p : Pod) : List String := GetSpecificAnnotation p Known.FleetboardNodeCIDR

theorem blocks_eq (p : Pod) : blocks p = ((nodeCIDR p).map splitComma).getD [] := by
  rw [blocks, GetSpecificAnnotation, nodeCIDR]
  cases p.annotations.lookup Known.FleetboardNodeCIDR <;> rfl

theorem blocks_eq_nil {p : Pod} : blocks p = [] ↔ nodeCIDR p = none := by
  rw [blocks_eq]
  cases nodeCIDR p with
  | none => simp
  | some s => simp [splitComma_ne_nil]

section

variable (parseKey : String → Except Error Key) (podName : String)

/-- What happens around a leader: it handles a pod; a watch event replaces the
lister's object by the stored one; a pod is created without a block, or updated
without a change of its node or its block. -/
inductive NodeEvent
  | handle (name : String) (env : InnerEnv)
  | watch (name : String)
  | put (pod : Pod)

def nodeStep (c : InnerClusterTunnelController) (e : NodeEvent)
    (c' : InnerClusterTunnelController) : Prop :=
  match e with
  | .handle name env =>
    podName = c.currentLeader ∧ ∃ r, c.Handle parseKey podName name env = .ok (c', r)
  | .watch name => ∃ pod, c.pods.lookup name = some pod ∧
    c' = { c with podLister := c.podLister.insert name pod }
  | .put pod => (match c.pods.lookup pod.name with
      | some q => pod.nodeName = q.nodeName ∧ nodeCIDR pod = nodeCIDR q
      | none => nodeCIDR pod = none) ∧
    c' = { c with pods := c.pods.insert pod.name pod }

/-- A pod that is handled has in the lister the block that it has on the server. -/
def BlockCurrent (c : InnerClusterTunnelController) : NodeEvent → Prop
  | .handle name _ => ∀ p q, c.podLister.lookup name = some p → c.pods.lookup name = some q →
    nodeCIDR p = nodeCIDR q
  | _ => True

/-- The blocks of two nodes with tunnels are apart. -/
def NodesApart (c : InnerClusterTunnelController) : Prop :=
  ∀ a ∈ c.tunnelled, ∀ b ∈ c.tunnelled, a.nodeID ≠ b.nodeID →
    ∀ s ∈ a.secondaryCIDR, ∀ t ∈ b.secondaryCIDR, Apart s t

/-- The lister's pods are stored, on the same node. -/
def Cached (c : InnerClusterTunnelController) : Prop :=
  ∀ n p, c.podLister.lookup n = some p → p.name = n ∧
    ∃ q, c.pods.lookup n = some q ∧ q.nodeName = p.nodeName

/-- What a leader keeps as long as it reads current blocks: the stored blocks
are listed and apart, and every tunnel has the blocks of a stored pod of its
node. -/
structure Allocated (c : InnerClusterTunnelController) : Prop where
  cached : Cached c
  stored : ∀ n q, c.pods.lookup n = some q → q.name = n
  listed : ∀ n q, c.pods.lookup n = some q → ∀ s ∈ blocks q, s ∈ c.existingCIDR
  apart : ∀ m n p q, m ≠ n → c.pods.lookup m = some p → c.pods.lookup n = some q →
    ∀ s ∈ blocks p, ∀ t ∈ blocks q, Apart s t
  tunnels : ∀ a ∈ c.tunnelled, ∃ n q, c.pods.lookup n = some q ∧ q.nodeName = a.nodeID ∧
    blocks q = a.secondaryCIDR ∧ a.secondaryCIDR ≠ []

variable {parseKey podName} {c c' : InnerClusterTunnelController}

theorem Allocated.nodesApart (h : Allocated c) : NodesApart c := by
  intro a ha b hb hab s hs t ht
  obtain ⟨m, p, hp, hpa, hps, -⟩ := h.tunnels a ha
  obtain ⟨n, q, hq, hqb, hqt, -⟩ := h.tunnels b hb
  refine h.apart m n p q (fun hmn => hab ?_) hp hq s (hps ▸ hs) t (hqt ▸ ht)
  subst hmn
  rw [hp] at hq
  cases hq
  rw [← hpa, ← hqb]

/-- The invariant does not look at the device or the routes. -/
theorem Allocated.congr (h : Allocated c) (hl : c'.podLister = c.podLister)
    (hp : c'.pods = c.pods) (he : c'.existingCIDR = c.existingCIDR)
    (ht : c'.tunnelled = c.tunnelled) : Allocated c' := by
  obtain ⟨w, r, l, p, e, cl, g, cu, t⟩ := c
  obtain ⟨w', r', l', p', e', cl', g', cu', t'⟩ := c'
  simp only at hl hp he ht
  subst hl hp he ht
  exact ⟨h.cached, h.stored, h.listed, h.apart, h.tunnels⟩

theorem Allocated.cache (h : Allocated c) {p q : Pod} (hq : c.pods.lookup p.name = some q)
    (hnode : q.nodeName = p.nodeName) :
    Allocated { c with podLister := c.podLister.insert p.name p } := by
  refine ⟨fun n p' hp' => ?_, h.stored, h.listed, h.apart, h.tunnels⟩
  rw [GoMap.lookup_insert_eq] at hp'
  by_cases hn : n = p.name
  · rw [if_pos hn] at hp'
    cases hp'
    exact ⟨hn.symm, q, hn ▸ hq, hnode⟩
  · rw [if_neg hn] at hp'
    exact h.cached n p' hp'

section

variable {q' : Pod} {pods : GoMap String Pod}
  (hpods : ∀ n, pods.lookup n = if n = q'.name then some q' else c.pods.lookup n)

include hpods

theorem Cached.put (h : Cached c)
    (hold : ∀ q, c.pods.lookup q'.name = some q → q'.nodeName = q.nodeName) :
    Cached { c with pods := pods } := by
  intro n p hp
  obtain ⟨hname, q, hq, hnode⟩ := h n p hp
  refine ⟨hname, ?_⟩
  simp only [hpods]
  by_cases hn : n = q'.name
  · exact ⟨q', if_pos hn, (hold q (hn ▸ hq)).trans hnode⟩
  · exact ⟨q, (if_neg hn).trans hq, hnode⟩

/-- A stored pod that keeps its node and its blocks, or is new and has none. -/
theorem Allocated.put (h : Allocated c)
    (hold : ∀ q, c.pods.lookup q'.name = some q → q'.nodeName = q.nodeName ∧ blocks q' = blocks q)
    (hnew : c.pods.lookup q'.name = none → blocks q' = []) :
    Allocated { c with pods := pods } := by
  -- A stored pod with a block was there before with the same block.
  have hback : ∀ n q s, pods.lookup n = some q → s ∈ blocks q →
      ∃ q₀, c.pods.lookup n = some q₀ ∧ s ∈ blocks q₀ := by
    intro n q s hq hs
    rw [hpods] at hq
    by_cases hn : n = q'.name
    · rw [if_pos hn] at hq
      cases hq
      subst hn
      cases hq₀ : c.pods.lookup q'.name with
      | none => rw [hnew hq₀] at hs; cases hs
      | some q₀ => exact ⟨q₀, rfl, (hold q₀ hq₀).2 ▸ hs⟩
    · rw [if_neg hn] at hq
      exact ⟨q, hq, hs⟩
  refine ⟨h.cached.put hpods fun q hq => (hold q hq).1, fun n q hq => ?_, fun n q hq s hs => ?_,
    fun m n p q hmn hp hq s hs t ht => ?_, fun a ha => ?_⟩
  · rw [hpods] at hq
    by_cases hn : n = q'.name
    · rw [if_pos hn] at hq
      cases hq
      exact hn.symm
    · rw [if_neg hn] at hq
      exact h.stored n q hq
  · obtain ⟨q₀, hq₀, hs₀⟩ := hback n q s hq hs
    exact h.listed n q₀ hq₀ s hs₀
  · obtain ⟨p₀, hp₀, hs₀⟩ := hback m p s hp hs
    obtain ⟨q₀, hq₀, ht₀⟩ := hback n q t hq ht
    exact h.apart m n p₀ q₀ hmn hp₀ hq₀ s hs₀ t ht₀
  · obtain ⟨n, q, hq, hnode, hblocks, hne⟩ := h.tunnels a ha
    by_cases hn : n = q'.name
    · obtain ⟨h₁, h₂⟩ := hold q (hn ▸ hq)
      exact ⟨n, q', by simp only [hpods, if_pos hn], h₁.trans hnode, h₂.trans hblocks, hne⟩
    · exact ⟨n, q, by simp only [hpods, if_neg hn, hq], hnode, hblocks, hne⟩

/-- A stored pod without a block that gets one apart from all listed ones. -/
theorem Allocated.allocate (h : Allocated c) {q : Pod} (hq : c.pods.lookup q'.name = some q)
    (hnode : q'.nodeName = q.nodeName) (hnone : blocks q = []) {b : String}
    (hb : blocks q' = [b]) (hapart : ∀ s ∈ c.existingCIDR, Apart s b) :
    Allocated { c with pods := pods, existingCIDR := c.existingCIDR ++ [b] } := by
  have hcases : ∀ n p, pods.lookup n = some p →
      n = q'.name ∧ p = q' ∨ n ≠ q'.name ∧ c.pods.lookup n = some p := by
    intro n p hp
    rw [hpods] at hp
    by_cases hn : n = q'.name
    · rw [if_pos hn] at hp
      exact .inl ⟨hn, (Option.some_inj.mp hp).symm⟩
    · rw [if_neg hn] at hp
      exact .inr ⟨hn, hp⟩
  refine ⟨h.cached.put hpods fun q₀ hq₀ => ?_, fun n p hp => ?_, fun n p hp s hs => ?_,
    fun m n p p' hmn hp hp' s hs t ht => ?_, fun a ha => ?_⟩
  · rw [hq] at hq₀
    cases hq₀
    exact hnode
  · rcases hcases n p hp with ⟨hn, rfl⟩ | ⟨-, hp⟩
    · exact hn.symm
    · exact h.stored n p hp
  · rcases hcases n p hp with ⟨-, rfl⟩ | ⟨-, hp⟩
    · rw [hb] at hs
      exact List.mem_append_right _ hs
    · exact List.mem_append_left _ (h.listed n p hp s hs)
  · rcases hcases m p hp with ⟨hm, rfl⟩ | ⟨hm, hp⟩ <;> rcases hcases n p' hp' with ⟨hn, hpn⟩ | ⟨hn, hp'⟩
    · exact absurd (hm.trans hn.symm) hmn
    · rw [hb, List.mem_singleton] at hs
      exact hs ▸ (hapart t (h.listed n p' hp' t ht)).symm
    · rw [hpn, hb, List.mem_singleton] at ht
      exact ht ▸ hapart s (h.listed m p hp s hs)
    · exact h.apart m n p p' hmn hp hp' s hs t ht
  · obtain ⟨n, p, hp, hpn, hblocks, hne⟩ := h.tunnels a ha
    by_cases hn : n = q'.name
    · rw [hn, hq] at hp
      cases hp
      exact absurd (hblocks.symm.trans hnone) hne
    · exact ⟨n, p, by simp only [hpods, if_neg hn, hp], hpn, hblocks, hne⟩

end

/-- A tunnel to the node of a stored pod, with its blocks. -/
theorem Allocated.tunnel (h : Allocated c) {n : String} {q : Pod} (hq : c.pods.lookup n = some q)
    {config : DaemonCNFTunnelConfig} (hnode : q.nodeName = config.nodeID)
    (hblocks : blocks q = config.secondaryCIDR) (hne : config.secondaryCIDR ≠ []) :
    Allocated { c with tunnelled := config :: c.tunnelled } := by
  refine ⟨h.cached, h.stored, h.listed, h.apart, fun a ha => ?_⟩
  rcases List.mem_cons.mp ha with rfl | ha
  · exact ⟨n, q, hq, hnode, hblocks, hne⟩
  · exact h.tunnels a ha

/-! ### What `Handle` does to the allocation -/

theorem nodeCIDR_setService (pod : Pod) (cidr : String) :
    nodeCIDR { pod with annotations :=
      [(Known.FleetboardServiceCIDR, cidr)].foldl (annotate true) pod.annotations } =
      nodeCIDR pod := by
  simp only [nodeCIDR, List.foldl_cons, List.foldl_nil, lookup_annotate]
  rfl

theorem nodeCIDR_setBlock (pod : Pod) (globalCIDR cidr : String) :
    nodeCIDR { pod with annotations := [(Known.FleetboardTunnelCIDR, globalCIDR),
      (Known.FleetboardNodeCIDR, cidr)].foldl (annotate true) pod.annotations } =
      some cidr := by
  simp only [nodeCIDR, List.foldl_cons, List.foldl_nil, lookup_annotate, if_true]

theorem Allocated.setPod {r : SetResult} (h : Allocated { c with pods := r.server }) {q : Pod}
    (hq : r.server.lookup r.pod.name = some q) (hnode : q.nodeName = r.pod.nodeName) :
    Allocated (c.setPod r) :=
  h.cache hq hnode

variable {pod q : Pod} {env : InnerEnv}

/-- Annotating a pod that has a block with the service CIDR changes no block. -/
theorem Allocated.setService (h : Allocated c) (hq : c.pods.lookup pod.name = some q)
    (hnode : q.nodeName = pod.nodeName) {v : String} (hv : nodeCIDR pod = some v) {cidr : String}
    {err : Option Error} {r : SetResult}
    (hr : SetSpecificAnnotations c.pods pod [(Known.FleetboardServiceCIDR, cidr)] true err = r) :
    Allocated (c.setPod r) ∧ ∃ q', (c.setPod r).pods.lookup pod.name = some q' ∧
      q'.nodeName = q.nodeName ∧ blocks q' = blocks q := by
  obtain ⟨hpod, ⟨-, hserver⟩ | ⟨-, q₀, q', hq₀, hname, hnode', -, hann, hserver⟩⟩ :=
    SetSpecificAnnotations_spec hr
  · refine ⟨Allocated.setPod (q := q) ?_ ?_ ?_, q, ?_, rfl, rfl⟩
    · rw [hserver]; exact h
    · rw [hserver, hpod]; exact hq
    · rw [hpod]; exact hnode
    · show r.server.lookup pod.name = some q
      rw [hserver, hq]
  · rw [hq] at hq₀
    cases hq₀
    have hqn := h.stored _ _ hq
    have hblocks : blocks q' = blocks q := by
      have hrv : nodeCIDR r.pod = some v := by rw [hpod, nodeCIDR_setService, hv]
      have := hann _ v hrv
      simp only [show pod.annotations.lookup Known.FleetboardNodeCIDR = some v from hv, if_true] at this
      rw [blocks_eq, blocks_eq, nodeCIDR, this]
      rfl
    have hlook : r.server.lookup pod.name = some q' := by rw [hserver, if_pos rfl]
    have hpods : ∀ n, r.server.lookup n = if n = q'.name then some q' else c.pods.lookup n := by
      intro n
      rw [hserver, hname, hqn]
    refine ⟨Allocated.setPod (q := q') ?_ ?_ ?_, q', hlook, hnode', hblocks⟩
    · refine h.put hpods (fun q₁ hq₁ => ?_) fun hnone => ?_
      · rw [hname, hqn, hq] at hq₁
        cases hq₁
        exact ⟨hnode', hblocks⟩
      · rw [hname, hqn, hq] at hnone
        cases hnone
    · rw [hpod]; exact hlook
    · rw [hpod]; exact hnode'.trans hnode

/-- Allocating a block for a pod that has none, neither in the lister nor on the
server. -/
theorem Allocated.spawn (h : Allocated c) (hq : c.pods.lookup pod.name = some q)
    (hnode : q.nodeName = pod.nodeName) (hnone : nodeCIDR pod = none) (hnone' : nodeCIDR q = none)
    {err : Option Error} {res : Except Error (Pod × String)}
    (hr : c.SpawnNewCIDRForNRIPod pod err = .ok (c', res)) :
    Allocated c' ∧ ∀ pod' b, res = .ok (pod', b) →
      pod'.name = pod.name ∧ pod'.nodeName = pod.nodeName ∧ nodeCIDR pod' = some b ∧
      ∃ q', c'.pods.lookup pod.name = some q' ∧ q'.nodeName = pod.nodeName ∧ blocks q' = [b] := by
  obtain ⟨found, hfind, hr⟩ := Go.bind_eq_ok.mp hr
  cases found with
  | error e =>
    cases hr
    exact ⟨h, nofun⟩
  | ok b =>
    obtain ⟨⟨network, d, i, hb⟩, hapart⟩ := FindClusterAvailableCIDR_apart hfind
    simp only at hr
    generalize hset : SetSpecificAnnotations c.pods pod
      [(Known.FleetboardTunnelCIDR, c.globalCIDR), (Known.FleetboardNodeCIDR, b)] true err = r at hr
    obtain ⟨hpod, ⟨herr, hserver⟩ | ⟨herr, q₀, q', hq₀, hname, hnode', -, hann, hserver⟩⟩ :=
      SetSpecificAnnotations_spec hset
    · obtain ⟨e, herr⟩ := Option.ne_none_iff_exists'.mp herr
      simp only [herr] at hr
      cases hr
      refine ⟨Allocated.setPod (q := q) ?_ ?_ ?_, nofun⟩
      · rw [hserver]; exact h
      · rw [hserver, hpod]; exact hq
      · rw [hpod]; exact hnode
    · simp only [herr] at hr
      cases hr
      rw [hq] at hq₀
      cases hq₀
      have hqn := h.stored _ _ hq
      have hrb : nodeCIDR r.pod = some b := by rw [hpod, nodeCIDR_setBlock]
      have hblocks : blocks q' = [b] := by
        have := hann _ b hrb
        rw [blocks_eq, nodeCIDR, this, show pod.annotations.lookup _ = none from hnone]
        simp only [reduceCtorEq, if_false, Option.map_some, Option.getD_some]
        rw [hb, splitComma_candidate]
      have hlook : r.server.lookup pod.name = some q' := by rw [hserver, if_pos rfl]
      have hpods : ∀ n, r.server.lookup n = if n = q'.name then some q' else c.pods.lookup n := by
        intro n
        rw [hserver, hname, hqn]
      have halloc := h.allocate hpods (by rw [hname, hqn]; exact hq) hnode'
        (blocks_eq_nil.mpr hnone') hblocks hapart
      refine ⟨?_, fun pod' b' hres => ?_⟩
      · refine halloc.cache (p := r.pod) (q := q') ?_ ?_
        · rw [hpod]; exact hlook
        · rw [hpod]; exact hnode'.trans hnode
      · cases hres
        exact ⟨by rw [hpod], by rw [hpod], hrb, q', hlook, hnode'.trans hnode, hblocks⟩

theorem connect_frame {config : DaemonCNFTunnelConfig} {r : HandleResult}
    (h : c.connect parseKey config env = .ok (c', r)) :
    c' = { c with
      tunnelled := config :: c.tunnelled, wireguard := c'.wireguard, routes := c'.routes } := by
  obtain ⟨⟨w, err⟩, -, h⟩ := Go.bind_eq_ok.mp h
  cases err with
  | some e =>
    cases h
    rfl
  | none =>
    simp only at h
    generalize configHostRoutingRules c.routes config.secondaryCIDR .add env.route = res at h
    obtain ⟨routes, err⟩ := res
    cases err <;> cases h <;> rfl

/-- From the service CIDR on: the pod may be given the annotation of it, and the
tunnel may be made. -/
theorem handleService_cases {config : DaemonCNFTunnelConfig} {isLeader : Bool} {r : HandleResult}
    (hr : c.handleService parseKey podName pod isLeader config env = .ok (c', r)) :
    ∃ c₁, (c₁ = c ∨ ∃ cidr, c₁ = c.setPod (SetSpecificAnnotations c.pods pod
        [(Known.FleetboardServiceCIDR, cidr)] true env.servicePatchErr)) ∧
      (c' = c₁ ∨ ∃ config₁ : DaemonCNFTunnelConfig, config₁.nodeID = config.nodeID ∧
        config₁.secondaryCIDR = config.secondaryCIDR ∧ c' = { c₁ with
          tunnelled := config₁ :: c₁.tunnelled, wireguard := c'.wireguard, routes := c'.routes }) := by
  have hfinish : ∀ (c₁ : InnerClusterTunnelController) (config₁ : DaemonCNFTunnelConfig),
      (if podName = pod.name then pure (c₁, .done) else c₁.connect parseKey config₁ env) =
        .ok (c', r) → c' = c₁ ∨ c' = { c₁ with
          tunnelled := config₁ :: c₁.tunnelled, wireguard := c'.wireguard, routes := c'.routes } := by
    intro c₁ config₁ hr
    split at hr
    · cases hr
      exact .inl rfl
    · exact .inr (connect_frame hr)
  rw [InnerClusterTunnelController.handleService] at hr
  by_cases hservice : config.serviceCIDR.isEmpty
  · simp only [if_pos hservice] at hr
    cases isLeader with
    | false =>
      cases hr
      exact ⟨c, .inl rfl, .inl rfl⟩
    | true =>
      cases hget : GetServiceCIDRFromCNFPod c.pods env.listErr with
      | error e =>
        simp only [if_true, hget] at hr
        cases hr
        exact ⟨c, .inl rfl, .inl rfl⟩
      | ok cidr =>
        simp only [if_true, hget] at hr
        by_cases hcidr : cidr = ""
        · rw [if_pos hcidr] at hr
          cases hr
          exact ⟨c, .inl rfl, .inl rfl⟩
        · rw [if_neg hcidr] at hr
          refine ⟨_, .inr ⟨cidr, rfl⟩, ?_⟩
          split at hr
          · cases hr
            exact .inl rfl
          · exact (hfinish _ _ hr).imp_right fun h =>
              ⟨{ config with serviceCIDR := [cidr] }, rfl, rfl, h⟩
  · simp only [if_neg hservice] at hr
    exact ⟨c, .inl rfl, (hfinish c config hr).imp_right fun h => ⟨config, rfl, rfl, h⟩⟩

/-- From the service CIDR on, for a pod whose configuration has the blocks that
are stored. -/
theorem Allocated.handleService (h : Allocated c) (hq : c.pods.lookup pod.name = some q)
    (hnode : q.nodeName = pod.nodeName) {v : String} (hv : nodeCIDR pod = some v)
    {config : DaemonCNFTunnelConfig} (hconfig : config.nodeID = pod.nodeName)
    (hblocks : blocks q = config.secondaryCIDR) (hne : config.secondaryCIDR ≠ [])
    {isLeader : Bool} {r : HandleResult}
    (hr : c.handleService parseKey podName pod isLeader config env = .ok (c', r)) :
    Allocated c' := by
  obtain ⟨c₁, hc₁, hc'⟩ := handleService_cases hr
  obtain ⟨h₁, q₁, hq₁, hnode₁, hblocks₁⟩ : Allocated c₁ ∧ ∃ q₁, c₁.pods.lookup pod.name = some q₁ ∧
      q₁.nodeName = pod.nodeName ∧ blocks q₁ = config.secondaryCIDR := by
    rcases hc₁ with rfl | ⟨cidr, rfl⟩
    · exact ⟨h, q, hq, hnode, hblocks⟩
    · obtain ⟨hset, q', hq', hnode', hblocks'⟩ := h.setService hq hnode hv rfl
      exact ⟨hset, q', hq', hnode'.trans hnode, hblocks'.trans hblocks⟩
  rcases hc' with rfl | ⟨config₁, hid, hsec, hc'⟩
  · exact h₁
  · rw [hc']
    exact (h₁.tunnel hq₁ (hnode₁.trans (hid.trans hconfig).symm) (hblocks₁.trans hsec.symm)
      (by rwa [hsec])).congr rfl rfl rfl rfl

/-- A pod handled by the leader, with its current block in the lister. -/
theorem Allocated.handle (h : Allocated c) (hleader : podName = c.currentLeader) {name : String}
    (hcur : BlockCurrent c (.handle name env)) {r : HandleResult}
    (hr : c.Handle parseKey podName name env = .ok (c', r)) : Allocated c' := by
  rw [InnerClusterTunnelController.Handle] at hr
  cases hp : c.podLister.lookup name with
  | none =>
    simp only [hp] at hr
    cases hr
    exact h
  | some pod =>
    obtain ⟨hname, q, hq, hnode⟩ := h.cached name pod hp
    have hsame := hcur pod q hp hq
    subst hname
    simp only [hp, hleader, decide_true, if_true] at hr
    by_cases halive : ¬ IsPodAlive pod
    · rw [if_pos halive] at hr
      obtain ⟨⟨c₁, err⟩, hrec, hr⟩ := Go.bind_eq_ok.mp hr
      have hframe := (recycleResources_cases hrec).1
      have hc₁ : Allocated c₁ := by
        rw [show c₁ = _ from hframe]
        exact h.congr rfl rfl rfl rfl
      cases err <;> cases hr <;> exact hc₁
    · rw [if_neg halive] at hr
      have hsec : (DaemonConfigFromPod pod true).secondaryCIDR = blocks pod := rfl
      have hblocks : blocks q = blocks pod := by rw [blocks_eq, blocks_eq, hsame]
      cases hv : nodeCIDR pod with
      | none =>
        have hnil := blocks_eq_nil.mpr hv
        rw [if_pos (by rw [hsec, hnil]; rfl)] at hr
        obtain ⟨⟨c₁, res⟩, hspawn, hr⟩ := Go.bind_eq_ok.mp hr
        obtain ⟨hc₁, hres⟩ := h.spawn hq hnode hv (hsame ▸ hv) hspawn
        cases res with
        | error e =>
          cases hr
          exact hc₁
        | ok res =>
          obtain ⟨pod', b⟩ := res
          obtain ⟨hname', hnode', hv', q', hq', hqnode', hqb⟩ := hres pod' b rfl
          simp only at hr
          by_cases hself : (DaemonConfigFromPod pod true).podID = c.currentLeader
          · rw [if_pos hself] at hr
            cases hr
            exact hc₁
          · rw [if_neg hself] at hr
            exact hc₁.handleService (hname'.symm ▸ hq') (hqnode'.trans hnode'.symm) hv'
              (show pod.nodeName = pod'.nodeName from hnode'.symm) hqb (List.cons_ne_nil _ _) hr
      | some v =>
        have hne : blocks pod ≠ [] := fun hnil => by rw [blocks_eq_nil.mp hnil] at hv; cases hv
        rw [if_neg (by rw [hsec]; simpa using hne)] at hr
        exact h.handleService hq hnode hv rfl (hblocks.trans hsec.symm) (hsec ▸ hne) hr

theorem Allocated.step (h : Allocated c) {e : NodeEvent} (hcur : BlockCurrent c e)
    (hs : nodeStep parseKey podName c e c') : Allocated c' := by
  cases e with
  | handle name env =>
    obtain ⟨hleader, r, hr⟩ := hs
    exact h.handle hleader hcur hr
  | watch name =>
    obtain ⟨pod, hpod, rfl⟩ := hs
    have hname := h.stored _ _ hpod
    subst hname
    exact h.cache hpod rfl
  | put pod =>
    obtain ⟨hput, rfl⟩ := hs
    refine h.put (fun n => GoMap.lookup_insert_eq _ _ n _) (fun q hq => ?_) fun hnone => ?_
    · rw [hq] at hput
      exact ⟨hput.1, by rw [blocks_eq, blocks_eq, hput.2]⟩
    · rw [hnone] at hput
      exact blocks_eq_nil.mpr hput

/-- In every run of a leader that handles pods with their current blocks, the
nodes with tunnels have blocks apart from each other. -/
theorem nodesApart_of_current (hempty : c.tunnelled = []) (hcached : c.podLister = c.pods)
    (hstored : ∀ n q, c.pods.lookup n = some q → q.name = n)
    (hlisted : ∀ n q, c.pods.lookup n = some q → ∀ s ∈ blocks q, s ∈ c.existingCIDR)
    (hapart : ∀ m n p q, m ≠ n → c.pods.lookup m = some p → c.pods.lookup n = some q →
      ∀ s ∈ blocks p, ∀ t ∈ blocks q, Apart s t)
    {es : List NodeEvent} (hrun : Runs (Guarded (nodeStep parseKey podName) BlockCurrent) c es c') :
    NodesApart c' := by
  have h : Allocated c := by
    refine ⟨fun n p hp => ?_, hstored, hlisted, hapart, by simp [hempty]⟩
    rw [hcached] at hp
    exact ⟨hstored n p hp, p, hp, rfl⟩
  exact (hrun.invariant (I := Allocated) (fun h hs => h.step hs.2 hs.1) h).nodesApart

end

/-! Two nodes without blocks, and a leader. -/

def cnfPod (name node key : String) : Pod where
  ns := Known.FleetboardSystemNamespace
  name := name
  nodeName := node
  labels := ∅
  annotations := ((∅ : GoMap String String).insert Known.FleetboardServiceCIDR "10.96.0.0/12").insert
    Known.PublicKey key
  deletionTimestamp := false
  phase := .running
  reason := ""
  restartPolicy := .always
  podIPs := ["172.16.0.5"]

/-- The leader's controller before it has handled a pod. -/
def twoNodes : InnerClusterTunnelController :=
  { newInner with
    podLister := ((∅ : GoMap String Pod).insert "cnf-a" (cnfPod "cnf-a" "node-1" "old")).insert
      "cnf-b" (cnfPod "cnf-b" "node-2" "new")
    pods := ((∅ : GoMap String Pod).insert "cnf-a" (cnfPod "cnf-a" "node-1" "old")).insert
      "cnf-b" (cnfPod "cnf-b" "node-2" "new") }

def noErrors : InnerEnv := ⟨none, none, none, ⟨none, none⟩, none, allRoutes⟩

theorem twoNodes_lookup {n : String} {q : Pod} (h : twoNodes.pods.lookup n = some q) :
    n = "cnf-a" ∧ q = cnfPod "cnf-a" "node-1" "old" ∨
      n = "cnf-b" ∧ q = cnfPod "cnf-b" "node-2" "new" := by
  simp only [twoNodes, GoMap.lookup_insert_eq] at h
  split_ifs at h with h₁ h₂
  · exact .inr ⟨h₁, (Option.some_inj.mp h).symm⟩
  · exact .inl ⟨h₂, (Option.some_inj.mp h).symm⟩
  · cases h

theorem twoNodes_stored {n : String} {q : Pod} (h : twoNodes.pods.lookup n = some q) :
    q.name = n ∧ blocks q = [] := by
  rcases twoNodes_lookup h with ⟨rfl, rfl⟩ | ⟨rfl, rfl⟩ <;> exact ⟨rfl, by decide⟩

/-- The leader's controller after it has handled a pod. -/
def leaderHandled (c : InnerClusterTunnelController) (name : String) (env : InnerEnv) :
    InnerClusterTunnelController :=
  ((c.Handle sampleKey "cnf-leader" name env).getD (c, .done)).1

theorem nodeStep_leaderHandled {c : InnerClusterTunnelController} {name : String} {env : InnerEnv}
    (hl : "cnf-leader" = c.currentLeader)
    (h : (c.Handle sampleKey "cnf-leader" name env).isOk = true) :
    nodeStep sampleKey "cnf-leader" c (.handle name env) (leaderHandled c name env) :=
  ⟨hl, _, Go.eq_ok_getD h (c, .done)⟩

/-- The leader handles both pods without an error. -/
theorem nodesApart_two_nodes :
    ∃ c', Runs (Guarded (nodeStep sampleKey "cnf-leader") BlockCurrent) twoNodes
        [.handle "cnf-a" noErrors, .handle "cnf-b" noErrors] c' ∧
      c'.tunnelled.map (·.secondaryCIDR) = [["20.112.1.0/24"], ["20.112.0.0/24"]] ∧
      NodesApart c' := by
  have hrun : Runs (Guarded (nodeStep sampleKey "cnf-leader") BlockCurrent) twoNodes
      [.handle "cnf-a" noErrors, .handle "cnf-b" noErrors]
      (leaderHandled (leaderHandled twoNodes "cnf-a" noErrors) "cnf-b" noErrors) := by
    refine .cons ⟨nodeStep_leaderHandled rfl (by decide +kernel), ?_⟩
      (.cons ⟨nodeStep_leaderHandled (by decide +kernel) (by decide +kernel), ?_⟩ (.nil _))
    · intro p q hp hq
      exact congrArg nodeCIDR (Option.some_inj.mp (hp.symm.trans hq))
    · intro p q hp hq
      have hp' : (some p).map nodeCIDR = some none := hp ▸ by decide +kernel
      have hq' : (some q).map nodeCIDR = some none := hq ▸ by decide +kernel
      exact Option.some_inj.mp (hp'.trans hq'.symm)
  refine ⟨_, hrun, by decide +kernel, nodesApart_of_current rfl rfl (fun n q h => (twoNodes_stored h).1)
    (fun n q h s hs => ?_) (fun m n p q _ hp hq s hs => ?_) hrun⟩
  · rw [(twoNodes_stored h).2] at hs
    cases hs
  · rw [(twoNodes_stored hp).2] at hs
    cases hs

/-- The patch of the first pod's annotations fails and its object in the lister
keeps the block; the pod is handled again, and the other pod gets the same
block. -/
theorem nodes_share_block_after_failed_patch :
    twoNodes.tunnelled = [] ∧ twoNodes.podLister = twoNodes.pods ∧
    (∀ n q, twoNodes.pods.lookup n = some q → q.name = n ∧ blocks q = []) ∧
    ∃ c', Runs (nodeStep sampleKey "cnf-leader") twoNodes
        [.handle "cnf-a" { noErrors with cidrPatchErr := some "etcdserver: request timed out" },
          .handle "cnf-a" noErrors, .handle "cnf-b" noErrors] c' ∧
      ¬ NodesApart c' := by
  refine ⟨rfl, rfl, fun n q h => twoNodes_stored h, _,
    .cons (nodeStep_leaderHandled rfl (by decide +kernel))
      (.cons (nodeStep_leaderHandled (by decide +kernel) (by decide +kernel))
        (.cons (nodeStep_leaderHandled (by decide +kernel) (by decide +kernel)) (.nil _))), ?_⟩
  have ht : (leaderHandled (leaderHandled (leaderHandled twoNodes "cnf-a"
      { noErrors with cidrPatchErr := some "etcdserver: request timed out" }) "cnf-a" noErrors)
      "cnf-b" noErrors).tunnelled.map (fun a => (a.nodeID, a.secondaryCIDR)) =
      [("node-2", ["20.112.0.0/24"]), ("node-1", ["20.112.0.0/24"])] := by decide +kernel
  intro h
  obtain ⟨a, ha, hab⟩ := List.mem_map.mp (ht ▸ List.mem_cons_self)
  obtain ⟨b, hb, hbb⟩ := List.mem_map.mp (ht ▸ List.mem_cons_of_mem _ List.mem_cons_self)
  obtain ⟨ha₁, ha₂⟩ := Prod.mk.inj hab
  obtain ⟨hb₁, hb₂⟩ := Prod.mk.inj hbb
  have hs : parseCIDR "20.112.0.0/24" = .ok (0x14700000#32, ⟨0x14700000#32, 24, by decide⟩) := by
    decide
  exact h a ha b hb (by rw [ha₁, hb₁]; decide) _ (by rw [ha₂]; exact List.mem_cons_self) _
    (by rw [hb₂]; exact List.mem_cons_self) _ _ _ _ hs hs (by decide)

end Fleetboard.Tunnel
