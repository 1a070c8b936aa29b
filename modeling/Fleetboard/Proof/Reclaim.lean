import Fleetboard.Proof.Blocks
import Fleetboard.Proof.NodeCIDR

/-!
# The blocks of pods that have left

A leader lists the blocks in use in `existingCIDR`, from which
`SpawnNewCIDRForNRIPod` searches a free one. The list grows with every block
that is given out; `recycleResources` computes a shorter list and drops it.

* `Handle_views`: what handling a live pod does to the list and to the blocks
  on the pods, in terms of the `Views` of the controller;
* `existingCIDR_exact_iff`: the list is exactly that of the pods present
  throughout a run as long as no pod leaves with a block of its own, and with an
  exact list a network with room for one more pod has its block found.
-/

namespace Fleetboard.Tunnel

open Fleetboard.Net Fleetboard.NetUtil

/-! ## What the allocation sees of the pods -/

/-- What the allocation sees of a pod. -/
structure PodView where
  name : String
  alive : Bool
  cidr : Option String

def podView (p : Pod) : PodView := ⟨p.name, IsPodAlive p, nodeCIDR p⟩

/-- The blocks of a pod, by its annotation. -/
def PodView.blocks (v : PodView) : List String := (v.cidr.map splitComma).getD []

/-- What the allocation sees of the controller: the pods as stored and as in
the lister, and the list of blocks in use. -/
@[ext]
structure Views where
  stored : String → Option PodView
  cached : String → Option PodView
  existing : List String

namespace InnerClusterTunnelController

def views (c : InnerClusterTunnelController) : Views where
  stored n := (c.pods.lookup n).map podView
  cached n := (c.podLister.lookup n).map podView
  existing := c.existingCIDR

end InnerClusterTunnelController

/-- A pod with a block, new in the list, in both places. -/
def Views.give (v : Views) (n b : String) : Views where
  stored := Function.update v.stored n ((v.stored n).map fun p => { p with cidr := some b })
  cached := Function.update v.cached n ((v.cached n).map fun p => { p with cidr := some b })
  existing := v.existing ++ [b]

/-- The pods present, and how they are seen: pods are stored under their names,
and a pod in the lister is stored with the block it has there; who is alive is
present, and the lister hears last of a pod that is not. -/
structure PodsTracked (v : Views) (present : Finset String) : Prop where
  stored_name : ∀ n p, v.stored n = some p → p.name = n
  cached : ∀ n p, v.cached n = some p →
    p.name = n ∧ ∃ q, v.stored n = some q ∧ q.cidr = p.cidr ∧ (q.alive → p.alive)
  stored_alive : ∀ n p, v.stored n = some p → p.alive → n ∈ present
  cached_alive : ∀ n p, v.cached n = some p → p.alive → n ∈ present

/-- The list has exactly the blocks of the pods present. -/
def Views.Exact (v : Views) (present : Finset String) : Prop :=
  ∀ s, s ∈ v.existing ↔ ∃ n ∈ present, ∃ p, v.stored n = some p ∧ s ∈ p.blocks

section

variable {v : Views} {present : Finset String} {n b : String}

theorem give_stored {m : String} : (v.give n b).stored m =
    if m = n then (v.stored n).map fun p => { p with cidr := some b } else v.stored m := by
  simp only [Views.give, Function.update_apply]

theorem give_cached {m : String} : (v.give n b).cached m =
    if m = n then (v.cached n).map fun p => { p with cidr := some b } else v.cached m := by
  simp only [Views.give, Function.update_apply]

theorem PodsTracked.give (h : PodsTracked v present) : PodsTracked (v.give n b) present := by
  refine ⟨fun m p hp => ?_, fun m p hp => ?_, fun m p hp halive => ?_, fun m p hp halive => ?_⟩
  · rw [give_stored] at hp
    split_ifs at hp with hm
    · obtain ⟨q, hq, rfl⟩ := Option.map_eq_some_iff.mp hp
      exact hm ▸ h.stored_name n q hq
    · exact h.stored_name m p hp
  · rw [give_cached] at hp
    simp only [give_stored]
    split_ifs at hp ⊢ with hm
    · obtain ⟨q, hq, rfl⟩ := Option.map_eq_some_iff.mp hp
      obtain ⟨hname, p', hp', -, halive⟩ := h.cached n q hq
      exact ⟨hname.trans hm.symm, { p' with cidr := some b }, by rw [hp']; rfl, rfl, halive⟩
    · exact h.cached m p hp
  · rw [give_stored] at hp
    split_ifs at hp with hm
    · obtain ⟨q, hq, rfl⟩ := Option.map_eq_some_iff.mp hp
      exact hm ▸ h.stored_alive n q hq halive
    · exact h.stored_alive m p hp halive
  · rw [give_cached] at hp
    split_ifs at hp with hm
    · obtain ⟨q, hq, rfl⟩ := Option.map_eq_some_iff.mp hp
      exact hm ▸ h.cached_alive n q hq halive
    · exact h.cached_alive m p hp halive

/-- Giving a block to a present pod that has none keeps the list exact. -/
theorem Views.Exact.give (hx : v.Exact present) {p : PodView} (hp : v.stored n = some p)
    (hnone : p.cidr = none) (hn : n ∈ present) (hb : splitComma b = [b]) :
    (v.give n b).Exact present := by
  intro s
  have hmem : s ∈ (v.give n b).existing ↔ s ∈ v.existing ∨ s = b := by simp [Views.give]
  rw [hmem, hx s]
  constructor
  · rintro (⟨m, hm, q, hq, hs⟩ | rfl)
    · refine ⟨m, hm, q, ?_, hs⟩
      rw [give_stored, if_neg]
      · exact hq
      · rintro rfl
        rw [hp] at hq
        cases hq
        simp [PodView.blocks, hnone] at hs
    · exact ⟨n, hn, _, by rw [give_stored, if_pos rfl, hp]; rfl, by simp [PodView.blocks, hb]⟩
  · rintro ⟨m, hm, q, hq, hs⟩
    rw [give_stored] at hq
    split_ifs at hq with hmn
    · rw [hp] at hq
      cases hq
      simp only [PodView.blocks, Option.map_some, hb, Option.getD_some, List.mem_singleton] at hs
      exact .inr hs
    · exact .inl ⟨m, hm, q, hq, hs⟩

end

/-! ## Handling a live pod -/

section

variable {parseKey : String → Except Error Key} {podName : String}
  {c c' : InnerClusterTunnelController} {pod q : Pod}

/-- The views after a successful annotation call for a pod of the lister. -/
theorem views_setPod (hp : c.podLister.lookup pod.name = some pod)
    (hq : c.pods.lookup pod.name = some q) (hsame : nodeCIDR q = nodeCIDR pod)
    {kvs : List (String × String)} {r : SetResult}
    (hr : SetSpecificAnnotations c.pods pod kvs true none = r) {b : String}
    (hb : nodeCIDR r.pod = some b) :
    r.err = none ∧ r.pod.name = pod.name ∧ (c.setPod r).views.existing = c.views.existing ∧
      (c.setPod r).views.stored = (c.views.give pod.name b).stored ∧
      (c.setPod r).views.cached = (c.views.give pod.name b).cached := by
  obtain ⟨hpod, ⟨herr, -⟩ | ⟨herr, q₀, q', hq₀, hname, -, halive, hann, hserver⟩⟩ :=
    SetSpecificAnnotations_spec hr
  · rw [← hr] at herr
    simp [SetSpecificAnnotations, hq] at herr
  · rw [hq] at hq₀
    cases hq₀
    have hq' : nodeCIDR q' = some b := by
      have := hann _ b hb
      rw [nodeCIDR, this]
      split_ifs with hold
      · exact hsame.trans hold
      · rfl
    have hrname : r.pod.name = pod.name := by rw [hpod]
    refine ⟨herr, hrname, rfl, funext fun m => ?_, funext fun m => ?_⟩
    · rw [give_stored]
      show (r.server.lookup m).map podView = if m = pod.name then
        ((c.pods.lookup pod.name).map podView).map _ else (c.pods.lookup m).map podView
      rw [hserver, hq]
      split_ifs with hm
      · simp only [Option.map_some, podView, hname, halive, hq']
      · rfl
    · rw [give_cached]
      show ((c.podLister.insert r.pod.name r.pod).lookup m).map podView = if m = pod.name then
        ((c.podLister.lookup pod.name).map podView).map _ else (c.podLister.lookup m).map podView
      rw [GoMap.lookup_insert_eq, hrname, hp]
      split_ifs with hm
      · have halive' : IsPodAlive r.pod = IsPodAlive pod := by rw [hpod]; rfl
        simp only [Option.map_some, podView, hrname, halive', hb]
      · rfl

/-- Giving a pod the block that it has changes nothing but the list. -/
theorem give_eq_self {v : Views} {n b : String} (hs : ∀ p, v.stored n = some p → p.cidr = some b)
    (hc : ∀ p, v.cached n = some p → p.cidr = some b) :
    (v.give n b).stored = v.stored ∧ (v.give n b).cached = v.cached := by
  have hmap : ∀ {o : Option PodView}, (∀ p, o = some p → p.cidr = some b) →
      (o.map fun p => { p with cidr := some b }) = o := by
    intro o ho
    cases o with
    | none => rfl
    | some p => rw [Option.map_some, ← ho p rfl]
  simp only [Views.give, hmap hs, hmap hc, Function.update_eq_self, and_self]

/-- From the service CIDR on nothing changes for the allocation. -/
theorem views_handleService (hp : c.podLister.lookup pod.name = some pod)
    (hq : c.pods.lookup pod.name = some q) (hsame : nodeCIDR q = nodeCIDR pod) {b : String}
    (hb : nodeCIDR pod = some b) {config : DaemonCNFTunnelConfig} {isLeader : Bool}
    {r : HandleResult}
    (hr : c.handleService parseKey podName pod isLeader config noErrors = .ok (c', r)) :
    c'.views = c.views := by
  obtain ⟨c₁, hc₁, hc'⟩ := handleService_cases hr
  have htunnel : c'.views = c₁.views := by
    rcases hc' with rfl | ⟨config₁, -, -, hc'⟩
    · rfl
    · rw [hc']
      rfl
  rw [htunnel]
  rcases hc₁ with rfl | ⟨cidr, rfl⟩
  · rfl
  generalize hset : SetSpecificAnnotations c.pods pod
    [(Known.FleetboardServiceCIDR, cidr)] true noErrors.servicePatchErr = res
  have hres : nodeCIDR res.pod = some b := by
    rw [(SetSpecificAnnotations_spec hset).1, nodeCIDR_setService, hb]
  obtain ⟨-, -, hex, hst, hca⟩ := views_setPod hp hq hsame hset hres
  obtain ⟨h₁, h₂⟩ : (c.views.give pod.name b).stored = c.views.stored ∧
      (c.views.give pod.name b).cached = c.views.cached := by
    refine give_eq_self (fun p hp' => ?_) fun p hp' => ?_
    · obtain ⟨q', hq', rfl⟩ := Option.map_eq_some_iff.mp hp'
      rw [hq] at hq'
      cases hq'
      exact hsame.trans hb
    · obtain ⟨p', hp'', rfl⟩ := Option.map_eq_some_iff.mp hp'
      rw [hp] at hp''
      cases hp''
      exact hb
  exact Views.ext (hst.trans h₁) (hca.trans h₂) hex

/-- What the leader's `Handle` does with a live pod, when all calls succeed:
nothing that the allocation sees, or it gives the pod its first block. -/
theorem Handle_views {present : Finset String} (ht : PodsTracked c.views present)
    (hleader : podName = c.currentLeader) {name : String}
    (hp : c.podLister.lookup name = some pod) (halive : IsPodAlive pod) {r : HandleResult}
    (hr : c.Handle parseKey podName name noErrors = .ok (c', r)) :
    c'.views = c.views ∨ ∃ b p, splitComma b = [b] ∧ c.views.stored name = some p ∧
      p.cidr = none ∧ c'.views = c.views.give name b := by
  obtain ⟨hname, p, hps, hsame, -⟩ := ht.cached name (podView pod)
    (by simp [InnerClusterTunnelController.views, hp])
  obtain ⟨q, hq, rfl⟩ := Option.map_eq_some_iff.mp hps
  replace hname : pod.name = name := hname
  replace hsame : nodeCIDR q = nodeCIDR pod := hsame
  subst hname
  rw [InnerClusterTunnelController.Handle] at hr
  simp only [hp, hleader, decide_true, if_true] at hr
  rw [if_neg (not_not.mpr halive)] at hr
  have hsec : (DaemonConfigFromPod pod true).secondaryCIDR = blocks pod := rfl
  cases hv : nodeCIDR pod with
  | some v =>
    have hne : blocks pod ≠ [] := fun hnil => by rw [blocks_eq_nil.mp hnil] at hv; cases hv
    rw [if_neg (by rw [hsec]; simpa using hne)] at hr
    exact .inl (views_handleService hp hq hsame hv hr)
  | none =>
    rw [if_pos (by rw [hsec, blocks_eq_nil.mpr hv]; rfl)] at hr
    obtain ⟨⟨c₁, res⟩, hspawn, hr⟩ := Go.bind_eq_ok.mp hr
    obtain ⟨found, hfind, hspawn⟩ := Go.bind_eq_ok.mp hspawn
    cases found with
    | error e =>
      cases hspawn
      cases hr
      exact .inl rfl
    | ok b =>
      obtain ⟨⟨network, d, i, hb⟩, -⟩ := FindClusterAvailableCIDR_apart hfind
      simp only at hspawn
      generalize hset : SetSpecificAnnotations c.pods pod
        [(Known.FleetboardTunnelCIDR, c.globalCIDR), (Known.FleetboardNodeCIDR, b)] true
        noErrors.cidrPatchErr = s at hspawn
      have hpod := (SetSpecificAnnotations_spec hset).1
      have hsb : nodeCIDR s.pod = some b := by rw [hpod, nodeCIDR_setBlock]
      obtain ⟨herr, hsname, -, hst, hca⟩ := views_setPod hp hq hsame hset hsb
      simp only [herr] at hspawn
      cases hspawn
      refine .inr ⟨b, _, by rw [hb, splitComma_candidate], hps, hsame.trans hv, ?_⟩
      -- The block is given; what follows is the tunnel.
      have hgive : InnerClusterTunnelController.views { c.setPod s with
          existingCIDR := (c.setPod s).existingCIDR ++ [b] } = c.views.give pod.name b :=
        Views.ext hst hca rfl
      simp only at hr
      by_cases hself : (DaemonConfigFromPod pod true).podID = c.currentLeader
      · rw [if_pos hself] at hr
        cases hr
        exact hgive
      · rw [if_neg hself] at hr
        have hps' : ∃ q', (c.setPod s).pods.lookup s.pod.name = some q' ∧ nodeCIDR q' = some b := by
          have := congrFun hst s.pod.name
          rw [give_stored, if_pos hsname, hps] at this
          obtain ⟨q', hq', hview⟩ := Option.map_eq_some_iff.mp this
          exact ⟨q', hq', congrArg PodView.cidr hview⟩
        obtain ⟨q', hq', hq'b⟩ := hps'
        refine (views_handleService (q := q') ?_ ?_ (hq'b.trans hsb.symm) hsb hr).trans hgive
        · show (c.podLister.insert s.pod.name s.pod).lookup s.pod.name = some s.pod
          rw [GoMap.lookup_insert_eq, if_pos rfl]
        · exact hq'

end

/-! ## Arrivals and departures -/

/-- The leader's controller, and the names of the pods that are present: those
that have arrived and whose departure has not been handled. -/
structure Nodes where
  ctl : InnerClusterTunnelController
  present : Finset String

/-- What happens to the pods: one is created without a block, or updated (to one
that is not alive, in the end); the informer hears of it; the leader handles a
live pod, or handles the departure of one that is not alive; the object of a pod
that has departed is removed. -/
inductive ShiftEvent
  | put (pod : Pod)
  | watch (name : String)
  | handle (name : String)
  | depart (name : String)
  | remove (name : String)

section

variable (parseKey : String → Except Error Key) (podName : String)

/-- One event around the leader, with all calls succeeding. -/
def shiftStep (st : Nodes) (e : ShiftEvent) (st' : Nodes) : Prop :=
  match e with
  | .put pod => st'.ctl = { st.ctl with pods := st.ctl.pods.insert pod.name pod } ∧
    match st.ctl.pods.lookup pod.name with
    | some q => nodeCIDR pod = nodeCIDR q ∧ (IsPodAlive pod → IsPodAlive q) ∧ st'.present = st.present
    | none => nodeCIDR pod = none ∧ st'.present = insert pod.name st.present
  | .watch name => ∃ pod, st.ctl.pods.lookup name = some pod ∧
    st' = ⟨{ st.ctl with podLister := st.ctl.podLister.insert name pod }, st.present⟩
  | .handle name => podName = st.ctl.currentLeader ∧
    (∃ pod, st.ctl.podLister.lookup name = some pod ∧ IsPodAlive pod) ∧ st'.present = st.present ∧
    ∃ r, st.ctl.Handle parseKey podName name noErrors = .ok (st'.ctl, r)
  | .depart name => podName = st.ctl.currentLeader ∧
    (∃ pod, st.ctl.podLister.lookup name = some pod ∧ ¬ IsPodAlive pod) ∧
    st'.present = st.present.erase name ∧
    st.ctl.Handle parseKey podName name noErrors = .ok (st'.ctl, .done)
  | .remove name => name ∉ st.present ∧ st' = ⟨{ st.ctl with
      pods := st.ctl.pods.erase name, podLister := st.ctl.podLister.erase name }, st.present⟩

/-- The list has exactly the blocks of the pods present. -/
def ExistingExact (st : Nodes) : Prop := st.ctl.views.Exact st.present

/-- A pod that departs has no block that is not also another present pod's. -/
def LeavesNoBlock (st : Nodes) : ShiftEvent → Prop
  | .depart name => name ∈ st.present → ∀ q, st.ctl.pods.lookup name = some q → ∀ s ∈ blocks q,
    ∃ m ∈ st.present, m ≠ name ∧ ∃ q', st.ctl.pods.lookup m = some q' ∧ s ∈ blocks q'
  | _ => True

variable {parseKey podName} {st st' : Nodes}

/-- A departure changes nothing that the allocation sees: the list in
particular. -/
theorem views_depart {c c' : InnerClusterTunnelController} {name : String} {pod : Pod}
    (hleader : podName = c.currentLeader) (hp : c.podLister.lookup name = some pod)
    (hdead : ¬ IsPodAlive pod) {r : HandleResult}
    (hr : c.Handle parseKey podName name noErrors = .ok (c', r)) : c'.views = c.views := by
  rw [InnerClusterTunnelController.Handle] at hr
  simp only [hp, hleader, decide_true] at hr
  rw [if_pos hdead] at hr
  obtain ⟨⟨c₁, err⟩, hrec, hr⟩ := Go.bind_eq_ok.mp hr
  have hframe := (recycleResources_cases hrec).1
  have hc₁ : c₁.views = c.views := by
    rw [show c₁ = _ from hframe]
    rfl
  cases err <;> cases hr <;> exact hc₁

theorem stored_put {c c' : InnerClusterTunnelController} {pod : Pod}
    (h : c' = { c with pods := c.pods.insert pod.name pod }) {n : String} :
    c'.views.stored n = if n = pod.name then some (podView pod) else c.views.stored n := by
  subst h
  simp only [InnerClusterTunnelController.views, GoMap.lookup_insert_eq]
  split_ifs <;> rfl

theorem PodsTracked.put (ht : PodsTracked st.ctl.views st.present) {pod : Pod}
    (hs : shiftStep parseKey podName st (.put pod) st') : PodsTracked st'.ctl.views st'.present := by
  obtain ⟨hctl, hput⟩ := hs
  have hstored := fun n => stored_put (n := n) hctl
  have hcached : st'.ctl.views.cached = st.ctl.views.cached := by rw [hctl]; rfl
  -- The pod before, if there was one, and who is present.
  have hpresent : st.present ⊆ st'.present := by
    split at hput
    · rw [hput.2.2]
    · rw [hput.2]
      exact Finset.subset_insert _ _
  have hold : ∀ q, st.ctl.views.stored pod.name = some q →
      (podView pod).cidr = q.cidr ∧ ((podView pod).alive → q.alive) := by
    intro q hq
    obtain ⟨q₀, hq₀, rfl⟩ := Option.map_eq_some_iff.mp hq
    simp only [hq₀] at hput
    exact ⟨hput.1, hput.2.1⟩
  have hnew : (podView pod).alive → pod.name ∈ st'.present := by
    intro halive
    cases hq : st.ctl.pods.lookup pod.name with
    | none =>
      simp only [hq] at hput
      rw [hput.2]
      exact Finset.mem_insert_self _ _
    | some q =>
      have hq' : st.ctl.views.stored pod.name = some (podView q) := congrArg (Option.map podView) hq
      exact hpresent (ht.stored_alive _ _ hq' ((hold _ hq').2 halive))
  refine ⟨fun n p hp => ?_, fun n p hp => ?_, fun n p hp halive => ?_, fun n p hp halive => ?_⟩
  · rw [hstored] at hp
    split_ifs at hp with hn
    · cases hp
      exact hn.symm
    · exact ht.stored_name n p hp
  · rw [hcached] at hp
    obtain ⟨hname, q, hq, hcidr, halive⟩ := ht.cached n p hp
    refine ⟨hname, ?_⟩
    rw [hstored]
    split_ifs with hn
    · obtain ⟨hc, ha⟩ := hold q (hn ▸ hq)
      exact ⟨_, rfl, hc.trans hcidr, fun h => halive (ha h)⟩
    · exact ⟨q, hq, hcidr, halive⟩
  · rw [hstored] at hp
    split_ifs at hp with hn
    · cases hp
      exact hn ▸ hnew halive
    · exact hpresent (ht.stored_alive n p hp halive)
  · rw [hcached] at hp
    exact hpresent (ht.cached_alive n p hp halive)

theorem PodsTracked.watch (ht : PodsTracked st.ctl.views st.present) {name : String}
    (hs : shiftStep parseKey podName st (.watch name) st') : PodsTracked st'.ctl.views st'.present := by
  obtain ⟨pod, hpod, rfl⟩ := hs
  have hst : st.ctl.views.stored name = some (podView pod) := congrArg (Option.map podView) hpod
  have hcached : ∀ n p, (({ st.ctl with podLister := st.ctl.podLister.insert name pod } :
      InnerClusterTunnelController).views.cached n = some p) →
      n = name ∧ p = podView pod ∨ st.ctl.views.cached n = some p := by
    intro n p hp
    simp only [InnerClusterTunnelController.views, GoMap.lookup_insert_eq] at hp
    split_ifs at hp with hn
    · cases hp
      exact .inl ⟨hn, rfl⟩
    · exact .inr hp
  refine ⟨ht.stored_name, fun n p hp => ?_, ht.stored_alive, fun n p hp halive => ?_⟩
  · rcases hcached n p hp with ⟨rfl, rfl⟩ | hp
    · exact ⟨ht.stored_name _ _ hst, _, hst, rfl, id⟩
    · exact ht.cached n p hp
  · rcases hcached n p hp with ⟨rfl, rfl⟩ | hp
    · exact ht.stored_alive _ _ hst halive
    · exact ht.cached_alive n p hp halive

/-- A pod that is not alive, and whose departure has been handled, is not one
of those that have to be present. -/
theorem PodsTracked.erase {v : Views} {present : Finset String} (ht : PodsTracked v present) {n : String}
    {p : PodView} (hp : v.cached n = some p) (hdead : ¬ p.alive) : PodsTracked v (present.erase n) := by
  refine ⟨ht.stored_name, ht.cached, fun m q hq halive => ?_, fun m q hq halive => ?_⟩
  · refine Finset.mem_erase.mpr ⟨fun hm => hdead ?_, ht.stored_alive m q hq halive⟩
    obtain ⟨-, q', hq', -, himp⟩ := ht.cached n p hp
    rw [hm, hq'] at hq
    cases hq
    exact himp halive
  · refine Finset.mem_erase.mpr ⟨fun hm => hdead ?_, ht.cached_alive m q hq halive⟩
    rw [hm, hp] at hq
    cases hq
    exact halive

theorem PodsTracked.remove (ht : PodsTracked st.ctl.views st.present) {name : String}
    (hs : shiftStep parseKey podName st (.remove name) st') : PodsTracked st'.ctl.views st'.present := by
  obtain ⟨-, rfl⟩ := hs
  have hsub : ∀ {m : GoMap String Pod} {n : String} {p : PodView},
      ((m.erase name).lookup n).map podView = some p → n ≠ name ∧ (m.lookup n).map podView = some p := by
    intro m n p hp
    rw [GoMap.lookup_erase_eq] at hp
    split_ifs at hp with hn
    · cases hp
    · exact ⟨hn, hp⟩
  refine ⟨fun n p hp => ht.stored_name n p (hsub hp).2, fun n p hp => ?_,
    fun n p hp => ht.stored_alive n p (hsub hp).2, fun n p hp => ht.cached_alive n p (hsub hp).2⟩
  obtain ⟨hn, hp⟩ := hsub hp
  obtain ⟨hname, q, hq, h⟩ := ht.cached n p hp
  refine ⟨hname, q, ?_, h⟩
  show ((st.ctl.pods.erase name).lookup n).map podView = some q
  rw [GoMap.lookup_erase_eq, if_neg hn]
  exact hq

theorem PodsTracked.step (ht : PodsTracked st.ctl.views st.present) {e : ShiftEvent}
    (hs : shiftStep parseKey podName st e st') : PodsTracked st'.ctl.views st'.present := by
  cases e with
  | put pod => exact ht.put hs
  | watch name => exact ht.watch hs
  | handle name =>
    obtain ⟨hleader, ⟨pod, hp, halive⟩, hpresent, r, hr⟩ := hs
    rw [hpresent]
    rcases Handle_views ht hleader hp halive hr with h | ⟨b, p, -, -, -, h⟩
    · rw [h]
      exact ht
    · rw [h]
      exact ht.give
  | depart name =>
    obtain ⟨hleader, ⟨pod, hp, hdead⟩, hpresent, hr⟩ := hs
    rw [hpresent, views_depart hleader hp hdead hr]
    exact ht.erase (congrArg (Option.map podView) hp) hdead
  | remove name => exact ht.remove hs

/-! ## The list -/

theorem mem_blocks {p : Pod} {s : String} : s ∈ (podView p).blocks ↔ s ∈ blocks p := by
  rw [blocks_eq]
  rfl

/-- The list stays exact when the pods present keep their blocks. -/
theorem Views.Exact.congr {v v' : Views} {present present' : Finset String} (hx : v.Exact present)
    (hex : v'.existing = v.existing)
    (h : ∀ n s, (n ∈ present' ∧ ∃ p, v'.stored n = some p ∧ s ∈ p.blocks) ↔
      (n ∈ present ∧ ∃ p, v.stored n = some p ∧ s ∈ p.blocks)) : v'.Exact present' := by
  intro s
  rw [hex, hx s]
  exact exists_congr fun n => (h n s).symm

theorem ExistingExact.put (hx : ExistingExact st) {pod : Pod}
    (hs : shiftStep parseKey podName st (.put pod) st') : ExistingExact st' := by
  obtain ⟨hctl, hput⟩ := hs
  refine Views.Exact.congr hx (by rw [hctl]; rfl) fun n s => ?_
  rw [stored_put hctl]
  cases hq : st.ctl.pods.lookup pod.name with
  | some q =>
    simp only [hq] at hput
    rw [hput.2.2]
    refine and_congr_right fun _ => ?_
    split_ifs with hn
    · have hst : st.ctl.views.stored n = some (podView q) := hn ▸ congrArg (Option.map podView) hq
      have hblocks : (podView pod).blocks = (podView q).blocks := by
        simp only [PodView.blocks, podView, hput.1]
      simp only [hst, Option.some.injEq, exists_eq_left', hblocks]
    · rfl
  | none =>
    simp only [hq] at hput
    rw [hput.2, Finset.mem_insert]
    split_ifs with hn
    · have hst : st.ctl.views.stored n = none := hn ▸ congrArg (Option.map podView) hq
      simp [hst, PodView.blocks, podView, hput.1]
    · simp only [hn, false_or]

theorem ExistingExact.depart_iff (hx : ExistingExact st) {name : String}
    (hs : shiftStep parseKey podName st (.depart name) st') :
    ExistingExact st' ↔ LeavesNoBlock st (.depart name) := by
  obtain ⟨hleader, ⟨pod, hp, hdead⟩, hpresent, hr⟩ := hs
  unfold ExistingExact
  rw [hpresent, views_depart hleader hp hdead hr]
  constructor
  · intro hx' hname q hq s hsq
    have hlisted := (hx s).mpr ⟨name, hname, _, congrArg (Option.map podView) hq, mem_blocks.mpr hsq⟩
    obtain ⟨m, hm, p, hpm, hsp⟩ := (hx' s).mp hlisted
    obtain ⟨q', hq', rfl⟩ := Option.map_eq_some_iff.mp hpm
    exact ⟨m, Finset.mem_of_mem_erase hm, Finset.ne_of_mem_erase hm, q', hq', mem_blocks.mp hsp⟩
  · intro hleaves s
    rw [hx s]
    constructor
    · rintro ⟨n, hn, p, hpn, hsp⟩
      by_cases hnn : n = name
      · subst hnn
        obtain ⟨q, hq, rfl⟩ := Option.map_eq_some_iff.mp hpn
        obtain ⟨m, hm, hne, q', hq', hsq'⟩ := hleaves hn q hq s (mem_blocks.mp hsp)
        exact ⟨m, Finset.mem_erase.mpr ⟨hne, hm⟩, _, congrArg (Option.map podView) hq',
          mem_blocks.mpr hsq'⟩
      · exact ⟨n, Finset.mem_erase.mpr ⟨hnn, hn⟩, p, hpn, hsp⟩
    · rintro ⟨n, hn, h⟩
      exact ⟨n, Finset.mem_of_mem_erase hn, h⟩

theorem ExistingExact.remove (hx : ExistingExact st) {name : String}
    (hs : shiftStep parseKey podName st (.remove name) st') : ExistingExact st' := by
  obtain ⟨hname, rfl⟩ := hs
  refine Views.Exact.congr hx rfl fun n s => and_congr_right fun hn => ?_
  have hne : n ≠ name := fun h => hname (h ▸ hn)
  simp only [InnerClusterTunnelController.views, GoMap.lookup_erase_eq, if_neg hne]

theorem ExistingExact.step_iff (ht : PodsTracked st.ctl.views st.present) (hx : ExistingExact st)
    {e : ShiftEvent} (hs : shiftStep parseKey podName st e st') :
    ExistingExact st' ↔ LeavesNoBlock st e := by
  cases e with
  | put pod => exact iff_of_true (hx.put hs) trivial
  | watch name =>
    refine iff_of_true ?_ trivial
    obtain ⟨pod, -, rfl⟩ := hs
    exact hx
  | handle name =>
    refine iff_of_true ?_ trivial
    obtain ⟨hleader, ⟨pod, hp, halive⟩, hpresent, r, hr⟩ := hs
    unfold ExistingExact
    rw [hpresent]
    rcases Handle_views ht hleader hp halive hr with h | ⟨b, p, hb, hps, hnone, h⟩
    · rw [h]
      exact hx
    · rw [h]
      refine hx.give hps hnone ?_ hb
      exact ht.cached_alive name _ (congrArg (Option.map podView) hp) halive
  | depart name => exact hx.depart_iff hs
  | remove name => exact iff_of_true (hx.remove hs) trivial

/-- A cluster network, its first byte not zero, with a block that the search
reaches and that has no address in common with the blocks of the pods
present. -/
def HasRoom (st : Nodes) : Prop :=
  ∃ a network d, ∃ hd : d ≤ 32, parseCIDR st.ctl.clusterCIDR = .ok (a, network) ∧
    2 ^ 24 ≤ network.ip.toNat ∧ divideClusterNetwork st.ctl.clusterCIDR = .ok d ∧
    (∀ n ∈ st.present, ∀ q, st.ctl.pods.lookup n = some q → Readable (blocks q)) ∧
    ∃ i, Tried network d i ∧ ∀ n ∈ st.present, ∀ q, st.ctl.pods.lookup n = some q →
      Free (blocks q) (blockAt network hd i)

/-- With an exact list, a network with room for one more pod has its block
found. -/
theorem ExistingExact.find (hx : ExistingExact st) (hroom : HasRoom st) :
    ∃ s, FindClusterAvailableCIDR st.ctl.clusterCIDR st.ctl.existingCIDR = .ok (.ok s) := by
  obtain ⟨a, network, d, hd, hp, h₁, hdiv, hread, i, hi, hfree⟩ := hroom
  have hpods : ∀ s ∈ st.ctl.existingCIDR, ∃ n ∈ st.present, ∃ q,
      st.ctl.pods.lookup n = some q ∧ s ∈ blocks q := by
    intro s hs
    obtain ⟨n, hn, p, hpn, hsp⟩ := (hx s).mp hs
    obtain ⟨q, hq, rfl⟩ := Option.map_eq_some_iff.mp hpn
    exact ⟨n, hn, q, hq, mem_blocks.mp hsp⟩
  have hex : Readable st.ctl.existingCIDR := by
    intro s hs
    obtain ⟨n, hn, q, hq, hsq⟩ := hpods s hs
    exact hread n hn q hq s hsq
  have hfree' : Free st.ctl.existingCIDR (blockAt network hd i) := by
    intro s hs
    obtain ⟨n, hn, q, hq, hsq⟩ := hpods s hs
    exact hfree n hn q hq s hsq
  obtain ⟨k, -, hk⟩ := findAvailableCIDR_of_free hp h₁ hex hd ⟨i, hi, hfree'⟩
  refine ⟨candidate network d k, ?_⟩
  simp only [FindClusterAvailableCIDR, hdiv]
  exact hk

/-- In a run in which all calls succeed, the list has exactly the blocks of the
pods present in every state exactly when no pod departs with a block of its
own; and then a network with room for the pods present has a block for one
more. -/
theorem existingCIDR_exact_iff (ht : PodsTracked st.ctl.views st.present) (hx : ExistingExact st)
    {es : List ShiftEvent} :
    (Runs (Reaching (shiftStep parseKey podName) ExistingExact) st es st' ↔
      Runs (Guarded (shiftStep parseKey podName) LeavesNoBlock) st es st') ∧
    (Runs (Guarded (shiftStep parseKey podName) LeavesNoBlock) st es st' → HasRoom st' →
      ∃ s, FindClusterAvailableCIDR st'.ctl.clusterCIDR st'.ctl.existingCIDR = .ok (.ok s)) := by
  have hiff : Runs (Reaching (shiftStep parseKey podName) ExistingExact) st es st' ↔
      Runs (Guarded (shiftStep parseKey podName) LeavesNoBlock) st es st' := by
    refine Runs.reaching_iff_guarded (P := fun _ => True)
      (J := fun st => PodsTracked st.ctl.views st.present) ?_ ?_ (fun _ _ => trivial) ht hx
    · exact fun _ ht hs => ht.step hs
    · exact fun _ ht hx hs => hx.step_iff ht hs
  refine ⟨hiff, fun hrun hroom => ?_⟩
  have hend : ExistingExact st' := (hiff.mpr hrun).invariant (fun _ hs => hs.2) hx
  exact hend.find hroom

end

/-! Two pods of a leader. -/

/-- The two pods have arrived, and none has a block. -/
def twoArrived : Nodes := ⟨twoNodes, {"cnf-a", "cnf-b"}⟩

theorem twoArrived_tracked : PodsTracked twoArrived.ctl.views twoArrived.present := by
  have hstored : ∀ n p, twoNodes.views.stored n = some p →
      p.name = n ∧ n ∈ twoArrived.present := by
    intro n p hp
    obtain ⟨q, hq, rfl⟩ := Option.map_eq_some_iff.mp hp
    rcases twoNodes_lookup hq with ⟨rfl, rfl⟩ | ⟨rfl, rfl⟩ <;> exact ⟨rfl, by decide⟩
  refine ⟨fun n p hp => (hstored n p hp).1, fun n p hp => ?_, fun n p hp _ => (hstored n p hp).2,
    fun n p hp _ => (hstored n p hp).2⟩
  exact ⟨(hstored n p hp).1, p, hp, rfl, id⟩

theorem twoArrived_exact : ExistingExact twoArrived := by
  intro s
  refine iff_of_false (by simp [twoArrived, twoNodes, newInner, InnerClusterTunnelController.views]) ?_
  rintro ⟨n, -, p, hp, hs⟩
  obtain ⟨q, hq, rfl⟩ := Option.map_eq_some_iff.mp hp
  rw [mem_blocks, (twoNodes_stored hq).2] at hs
  cases hs

section

variable {c : InnerClusterTunnelController} {present : Finset String} {name : String}

theorem shiftStep_handle (hl : "cnf-leader" = c.currentLeader)
    (halive : (c.podLister.lookup name).map IsPodAlive = some true)
    (h : (c.Handle sampleKey "cnf-leader" name noErrors).isOk = true) :
    shiftStep sampleKey "cnf-leader" ⟨c, present⟩ (.handle name)
      ⟨leaderHandled c name noErrors, present⟩ := by
  obtain ⟨pod, hp, hpod⟩ := Option.map_eq_some_iff.mp halive
  exact ⟨hl, ⟨pod, hp, hpod⟩, rfl, _, Go.eq_ok_getD h (c, .done)⟩

theorem shiftStep_depart (hl : "cnf-leader" = c.currentLeader)
    (halive : (c.podLister.lookup name).map IsPodAlive = some false)
    (h : Prod.snd <$> c.Handle sampleKey "cnf-leader" name noErrors = .ok .done) :
    shiftStep sampleKey "cnf-leader" ⟨c, present⟩ (.depart name)
      ⟨leaderHandled c name noErrors, present.erase name⟩ := by
  obtain ⟨pod, hp, hpod⟩ := Option.map_eq_some_iff.mp halive
  exact ⟨hl, ⟨pod, hp, by simp [hpod]⟩, rfl, Go.eq_ok_getD_of_snd h (c, .done)⟩

end

/-- The leader's controller after the pod `cnf-a` has got its block. -/
def oneHandled : InnerClusterTunnelController := leaderHandled twoNodes "cnf-a" noErrors

/-- One of the pods, being deleted. -/
def stoppedPod (name : String) : Pod :=
  { (oneHandled.pods.lookup name).getD (cnfPod "cnf-a" "node-1" "old") with
    deletionTimestamp := true }

/-- The controller once the informer has heard of the deletion. -/
def oneStopped (name : String) : InnerClusterTunnelController :=
  { oneHandled with
    pods := oneHandled.pods.insert name (stoppedPod name)
    podLister := oneHandled.podLister.insert name (stoppedPod name) }

theorem stoppedPod_put {name : String}
    (h : (oneHandled.pods.lookup name).map Pod.name = some name) (present : Finset String) :
    shiftStep sampleKey "cnf-leader" ⟨oneHandled, present⟩ (.put (stoppedPod name))
      ⟨{ oneHandled with pods := oneHandled.pods.insert name (stoppedPod name) }, present⟩ := by
  obtain ⟨q, hq, hname⟩ := Option.map_eq_some_iff.mp h
  have hpod : stoppedPod name = { q with deletionTimestamp := true } := by rw [stoppedPod, hq]; rfl
  have hname' : (stoppedPod name).name = name := by rw [hpod, hname]
  refine ⟨by rw [hname'], ?_⟩
  rw [hname', hpod]
  simp only [hq]
  exact ⟨rfl, fun h => by simp [IsPodAlive] at h, trivial⟩

theorem stoppedPod_watch {name : String} (present : Finset String) :
    shiftStep sampleKey "cnf-leader"
      ⟨{ oneHandled with pods := oneHandled.pods.insert name (stoppedPod name) }, present⟩
      (.watch name) ⟨oneStopped name, present⟩ :=
  ⟨stoppedPod name, by rw [GoMap.lookup_insert_eq, if_pos rfl], rfl⟩

/-- One pod gets its block and stays, the other one departs before it has got one. -/
theorem existingCIDR_exact_two_arrivals :
    ∃ st', Runs (Reaching (shiftStep sampleKey "cnf-leader") ExistingExact) twoArrived
        [.handle "cnf-a", .put (stoppedPod "cnf-b"), .watch "cnf-b", .depart "cnf-b"] st' ∧
      st'.present = {"cnf-a"} ∧ st'.ctl.existingCIDR = ["20.112.0.0/24"] := by
  have hleaves : LeavesNoBlock ⟨oneStopped "cnf-b", {"cnf-a", "cnf-b"}⟩ (.depart "cnf-b") := by
    intro _ q hq s hs
    have hnone : ((oneStopped "cnf-b").pods.lookup "cnf-b").map blocks = some [] := by decide +kernel
    rw [show _ = some q from hq] at hnone
    rw [show blocks q = [] from Option.some_inj.mp hnone] at hs
    cases hs
  refine ⟨_, (existingCIDR_exact_iff twoArrived_tracked twoArrived_exact).1.mpr
    (.cons ⟨shiftStep_handle rfl (by decide) (by decide +kernel), trivial⟩
      (.cons ⟨stoppedPod_put (by decide +kernel) _, trivial⟩ (.cons ⟨stoppedPod_watch _, trivial⟩
        (.cons ⟨shiftStep_depart (by decide +kernel) (by decide +kernel) (by decide +kernel), hleaves⟩
          (.nil _))))), by decide, by decide +kernel⟩

/-- A pod gets a block and departs; its block stays in the list. -/
theorem departed_block_stays_listed :
    PodsTracked twoArrived.ctl.views twoArrived.present ∧ ExistingExact twoArrived ∧
    ∃ st', Runs (shiftStep sampleKey "cnf-leader") twoArrived
        [.handle "cnf-a", .put (stoppedPod "cnf-a"), .watch "cnf-a", .depart "cnf-a"] st' ∧
      st'.present = {"cnf-b"} ∧ st'.ctl.existingCIDR = ["20.112.0.0/24"] ∧ ¬ ExistingExact st' := by
  refine ⟨twoArrived_tracked, twoArrived_exact, _,
    .cons (shiftStep_handle rfl (by decide) (by decide +kernel))
      (.cons (stoppedPod_put (by decide +kernel) _) (.cons (stoppedPod_watch _)
        (.cons (shiftStep_depart (by decide +kernel) (by decide +kernel) (by decide +kernel)) (.nil _)))),
    by decide, by decide +kernel, fun hx => ?_⟩
  obtain ⟨n, hn, p, hp, hs⟩ := (hx "20.112.0.0/24").mp (by decide +kernel)
  have hnb : n = "cnf-b" := by
    simpa using (show n ∈ ({"cnf-b"} : Finset String) from hn)
  subst hnb
  have hnone : ((leaderHandled (oneStopped "cnf-a") "cnf-a" noErrors).views.stored "cnf-b").map
      PodView.blocks = some [] := by decide +kernel
  rw [show _ = some p from hp] at hnone
  rw [show p.blocks = [] from Option.some_inj.mp hnone] at hs
  cases hs

end Fleetboard.Tunnel
