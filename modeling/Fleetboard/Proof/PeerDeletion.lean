import Fleetboard.Proof.InterTunnel

/-!
# Peers that are deleted

The deletion of a peer reaches `Handle` as a name. With the object still in the
lister, terminating, `RecyclePeer` takes the key from it; without the object it
dereferences what the lister has not returned.

* `RecyclePeer_of_key`: what recycling a peer does when its calls succeed;
* `deletion_recycles_iff`: deletions are handled as they should be throughout a
  run exactly when each of them finds the object in the lister, with the key that
  was configured last for its cluster and for no other.
-/

namespace Fleetboard.Tunnel

open Fleetboard.Net InterClusterTunnelController

section

variable (parseKey : String → Except Error Key) (spec : Specification)

/-! ## Runs of a controller -/

/-- One call of `Handle`: the controller before it, the peer if its deletion is
handled, and what the call has returned. -/
structure Handled where
  before : InterClusterTunnelController
  deleted : Option Peer
  result : Go (InterClusterTunnelController × HandleResult)

/-- The controller, the objects of the peers that have been deleted, and the last
call of `Handle`. -/
structure PeerLives where
  ctl : InterClusterTunnelController
  gone : GoMap String Peer
  last : Option Handled

/-- A foreign peer is created or updated, to a terminating one perhaps; it is
deleted, and the lister no longer has it; the controller handles a peer. -/
inductive LifeEvent
  | put (peer : Peer)
  | delete (name : String)
  | handle (name : String) (env : HandleEnv)

/-- The peer whose deletion a call handles: one that the lister has lost, or has
terminating. -/
def deletedPeer (s : PeerLives) (name : String) : Option Peer :=
  match s.ctl.peerLister.lookup name with
  | none => s.gone.lookup name
  | some p => if p.deletionTimestamp then some p else none

/-- The device and the routes accept what they are told; the routes of a peer
that is recycled are there. -/
structure CallsSucceed (s : PeerLives) (name : String) (env : HandleEnv) : Prop where
  add : env.add = ⟨none, none⟩
  remove : env.removeErr = none
  route : env.route = allRoutes
  routed : ∀ p, deletedPeer s name = some p →
    (configHostRoutingRules s.ctl.routes p.spec.podCIDR .delete allRoutes).2 = none

def lifeStep (s : PeerLives) (e : LifeEvent) (s' : PeerLives) : Prop :=
  match e with
  | .put peer => peer.spec.clusterID ≠ spec.clusterID ∧ s' = { s with
      ctl := { s.ctl with peerLister := s.ctl.peerLister.insert peer.name peer }
      gone := s.gone.erase peer.name }
  | .delete name => ∃ p, s.ctl.peerLister.lookup name = some p ∧ s' = { s with
      ctl := { s.ctl with peerLister := s.ctl.peerLister.erase name }
      gone := s.gone.insert name p }
  | .handle name env =>
    ((s.ctl.peerLister.lookup name).isSome ∨ (s.gone.lookup name).isSome) ∧
    CallsSucceed s name env ∧ s' = { s with
      ctl := ((s.ctl.Handle parseKey spec name env).getD (s.ctl, .done)).1
      last := some ⟨s.ctl, deletedPeer s name, s.ctl.Handle parseKey spec name env⟩ }

/-- The call has returned; and where it is done with the deletion of a peer, the
device has no peer with the key that was configured last for its cluster, and
those of the other clusters are as before. The key that was configured last for
a cluster is that of its entry in the table: `AddInterClusterTunnel` stores the
entry as it configures the device, and nothing else touches the table. -/
def Handled.Sound (h : Handled) : Prop :=
  ∀ p, h.deleted = some p → ∃ c r, h.result = .ok (c, r) ∧ (r = .done →
    (∀ k, h.before.tunnel.interKey parseKey p.spec.clusterID = some k →
      c.tunnel.device.lookup k = none) ∧
    ∀ id k, id ≠ p.spec.clusterID → h.before.tunnel.interKey parseKey id = some k →
      c.tunnel.device.lookup k = h.before.tunnel.device.lookup k)

def LastSound (s : PeerLives) : Prop := ∀ h, s.last = some h → h.Sound parseKey

/-- A deletion that is handled finds its object in the lister; and if the key of
the object parses, it is the one that was configured last for the cluster, or
that one is not on the device, and it was not configured last for another
cluster, or it is not on the device. -/
def FindsPeer (s : PeerLives) : LifeEvent → Prop
  | .handle name _ => ∀ p, deletedPeer s name = some p →
    (s.ctl.peerLister.lookup name).isSome ∧ ∀ k, p.key parseKey = some k →
      (∀ k', s.ctl.tunnel.interKey parseKey p.spec.clusterID = some k' → k' = k ∨
        s.ctl.tunnel.device.lookup k' = none) ∧
      ∀ id, id ≠ p.spec.clusterID → s.ctl.tunnel.interKey parseKey id = some k →
        s.ctl.tunnel.device.lookup k = none
  | _ => True

variable {parseKey spec} {s s' : PeerLives}

/-! ## Handling a deletion -/

/-- Recycling a peer whose key parses, with all calls succeeding. -/
theorem RecyclePeer_of_key {c : InterClusterTunnelController} {p : Peer} {k : Key}
    (hk : p.key parseKey = some k)
    (hroute : (configHostRoutingRules c.routes p.spec.podCIDR .delete allRoutes).2 = none) :
    ∃ c', c.RecyclePeer parseKey (some p) none allRoutes = .ok (c', .done) ∧
      c'.tunnel.device = c.tunnel.device.withoutKey (some k) none := by
  rw [Peer.key_eq_some] at hk
  refine ⟨{ c with
    tunnel := { c.tunnel with device := c.tunnel.device.withoutKey (some k) none }
    routes := (configHostRoutingRules c.routes p.spec.podCIDR .delete allRoutes).1 }, ?_, rfl⟩
  simp only [RecyclePeer, Go.deref, bind, Except.bind, hk, Wireguard.RemoveInterClusterTunnel,
    Wireguard.removeTunnel_eq, wrap, Option.map_none]
  generalize configHostRoutingRules c.routes p.spec.podCIDR .delete allRoutes = res at hroute ⊢
  obtain ⟨routes, err⟩ := res
  cases hroute
  rfl

/-- Recycling a peer whose key does not parse is tried again. -/
theorem RecyclePeer_of_badKey {p : Peer} (hk : p.key parseKey = none)
    (c : InterClusterTunnelController) (err : Option Error) (route : RouteEnv) :
    ∃ e, c.RecyclePeer parseKey (some p) err route = .ok (c, .retry (some e)) := by
  rw [Peer.key] at hk
  cases hp : parseKey p.spec.publicKey with
  | ok k => rw [hp] at hk; cases hk
  | error e =>
    refine ⟨e, ?_⟩
    simp only [RecyclePeer, Go.deref, bind, Except.bind, hp]
    rfl

/-- `Handle` recycles a peer that is terminating. -/
theorem Handle_terminating {c : InterClusterTunnelController} {name : String} {p : Peer}
    (hp : c.peerLister.lookup name = some p) (hterm : p.deletionTimestamp) {env : HandleEnv} :
    c.Handle parseKey spec name env = c.RecyclePeer parseKey (some p) env.removeErr env.route := by
  simp only [Handle, hp, hterm, if_true]

/-- `Handle` panics on a peer that the lister has not. -/
theorem Handle_missing {c : InterClusterTunnelController} {name : String}
    (hp : c.peerLister.lookup name = none) {env : HandleEnv} :
    c.Handle parseKey spec name env = .error .nilDereference := by
  simp only [Handle, hp]
  rfl

theorem LastSound.handle_iff {name : String} {env : HandleEnv}
    (h : lifeStep parseKey spec s (.handle name env) s') :
    LastSound parseKey s' ↔ FindsPeer parseKey s (.handle name env) := by
  obtain ⟨-, hcalls, rfl⟩ := h
  have hlast : LastSound parseKey { s with
      ctl := ((s.ctl.Handle parseKey spec name env).getD (s.ctl, .done)).1
      last := some ⟨s.ctl, deletedPeer s name, s.ctl.Handle parseKey spec name env⟩ } ↔
      Handled.Sound parseKey ⟨s.ctl, deletedPeer s name, s.ctl.Handle parseKey spec name env⟩ := by
    simp [LastSound]
  rw [hlast]
  refine forall₂_congr fun p hp => ?_
  have hroute := hcalls.routed p hp
  cases hl : s.ctl.peerLister.lookup name with
  | none =>
    rw [Handle_missing hl]
    simp
  | some q =>
    have hterm : q = p ∧ p.deletionTimestamp := by
      simp only [deletedPeer, hl] at hp
      split_ifs at hp with hterm
      cases hp
      exact ⟨rfl, hterm⟩
    obtain ⟨rfl, hterm⟩ := hterm
    rw [Handle_terminating hl hterm, hcalls.remove, hcalls.route]
    cases hk : q.key parseKey with
    | none =>
      obtain ⟨e, he⟩ := RecyclePeer_of_badKey hk s.ctl none allRoutes
      refine iff_of_true ⟨_, _, he, fun hr => ?_⟩ ⟨rfl, fun k hk => by cases hk⟩
      cases hr
    | some k =>
      obtain ⟨c', hc', hdev⟩ := RecyclePeer_of_key hk hroute
      have hlook : ∀ k', c'.tunnel.device.lookup k' =
          if k' = k then none else s.ctl.tunnel.device.lookup k' := by
        intro k'
        rw [hdev, Device.lookup_withoutKey]
        simp only [Option.some_inj, and_true, eq_comm]
      constructor
      · rintro ⟨c, r, hr, hdone⟩
        obtain ⟨rfl, rfl⟩ := Prod.mk.inj (Except.ok.inj (hc'.symm.trans hr))
        obtain ⟨hown, hother⟩ := hdone rfl
        refine ⟨rfl, fun k₀ hk₀ => ?_⟩
        obtain rfl : k = k₀ := Option.some_inj.mp hk₀
        refine ⟨fun k' hk' => ?_, fun id hid hidk => ?_⟩
        · have := hown k' hk'
          rw [hlook] at this
          by_cases hkk : k' = k
          · exact .inl hkk
          · exact .inr (by rwa [if_neg hkk] at this)
        · have := hother id k hid hidk
          rw [hlook, if_pos rfl] at this
          exact this.symm
      · rintro ⟨-, hfinds⟩
        obtain ⟨hown, hother⟩ := hfinds k rfl
        refine ⟨c', .done, hc', fun _ => ⟨fun k' hk' => ?_, fun id k' hid hidk => ?_⟩⟩
        · rw [hlook]
          split_ifs with hkk
          · rfl
          · exact (hown k' hk').resolve_left hkk
        · rw [hlook]
          split_ifs with hkk
          · exact (hother id hid (hkk ▸ hidk)).symm ▸ by rw [hkk]
          · rfl

/-- Deletions are handled as they should be in every state of a run exactly when
each of them finds its object in the lister, with the key that was configured
last for its cluster and for no other. -/
theorem deletion_recycles_iff (hnew : s.last = none) {es : List LifeEvent} :
    Runs (Reaching (lifeStep parseKey spec) (LastSound parseKey)) s es s' ↔
      Runs (Guarded (lifeStep parseKey spec) (FindsPeer parseKey)) s es s' := by
  refine Runs.reaching_iff_guarded (P := fun _ => True) (J := fun _ => True)
    (fun _ _ _ => trivial) (fun {s e s'} _ _ hI h => ?_) (fun _ _ => trivial) trivial ?_
  · cases e with
    | put peer =>
      obtain ⟨-, rfl⟩ := h
      exact iff_of_true hI trivial
    | delete name =>
      obtain ⟨p, -, rfl⟩ := h
      exact iff_of_true hI trivial
    | handle name env => exact LastSound.handle_iff h
  · intro h hh
    rw [hnew] at hh
    cases hh

end

/-! The hub and a child that is deleted. -/

def hubLives : PeerLives := ⟨newInter, ∅, none⟩

/-- All calls of the hub succeed. -/
def hubSucceeds : HandleEnv := ⟨.notFound, none, ⟨none, none⟩, none, allRoutes, none, .stored⟩

theorem callsSucceed_hub {s : PeerLives} {name : String}
    (h : ((deletedPeer s name).all fun p =>
      (configHostRoutingRules s.ctl.routes p.spec.podCIDR .delete allRoutes).2.isNone) = true) :
    CallsSucceed s name hubSucceeds := by
  refine ⟨rfl, rfl, rfl, fun p hp => ?_⟩
  rw [hp] at h
  exact Option.isNone_iff_eq_none.mp h

/-- The controller with the child in the lister, and after it has handled it. -/
def withChild : InterClusterTunnelController :=
  { newInter with peerLister := newInter.peerLister.insert "c1" oneChild }

def connectedChild : InterClusterTunnelController :=
  ((withChild.Handle sampleKey hubSpec "c1" hubSucceeds).getD (withChild, .done)).1

/-- The child, being deleted. -/
def leavingChild : Peer := { oneChild with deletionTimestamp := true }

theorem interConnections_connectedChild :
    connectedChild.tunnel.interConnections = (∅ : GoMap String Peer).insert "c1" oneChild := rfl

/-- The child is terminating in the lister when its deletion is handled. -/
theorem deletion_recycles_terminating :
    ∃ s', Runs (Reaching (lifeStep sampleKey hubSpec) (LastSound sampleKey)) hubLives
        [.put oneChild, .handle "c1" hubSucceeds, .put leavingChild, .handle "c1" hubSucceeds] s' ∧
      s'.ctl.tunnel.device.entries = [] := by
  refine ⟨_, (deletion_recycles_iff rfl).mpr (.cons ⟨⟨by decide, rfl⟩, trivial⟩
    (.cons ⟨⟨.inl rfl, callsSucceed_hub (by decide +kernel), rfl⟩, ?_⟩
      (.cons ⟨⟨by decide, rfl⟩, trivial⟩
        (.cons ⟨⟨.inl rfl, callsSucceed_hub (by decide +kernel), rfl⟩, ?_⟩ (.nil _))))),
    by decide +kernel⟩
  · intro p hp
    cases hp
  · intro p hp
    obtain rfl : leavingChild = p := Option.some_inj.mp hp
    refine ⟨rfl, fun k hk => ⟨fun k' hk' => .inl ?_, fun id hid hidk => ?_⟩⟩
    · exact Option.some_inj.mp (hk'.symm.trans hk)
    · have hnone : connectedChild.tunnel.interKey sampleKey id = none := by
        rw [Wireguard.interKey, interConnections_connectedChild, GoMap.lookup_insert_eq,
          if_neg (show id ≠ "c1" from hid)]
        rfl
      rw [show connectedChild.tunnel.interKey sampleKey id = some k from hidk] at hnone
      cases hnone

/-- The child is gone from the lister when its deletion is handled. -/
theorem deletion_of_missing_peer_panics :
    hubLives.last = none ∧ ∃ s', Runs (lifeStep sampleKey hubSpec) hubLives
        [.put oneChild, .handle "c1" hubSucceeds, .delete "c1", .handle "c1" hubSucceeds] s' ∧
      s'.last.map (·.result.isOk) = some false ∧ ¬ LastSound sampleKey s' := by
  refine ⟨rfl, _, .cons ⟨by decide, rfl⟩
    (.cons ⟨.inl rfl, callsSucceed_hub (by decide +kernel), rfl⟩ (.cons ⟨oneChild, rfl, rfl⟩
      (.cons ⟨.inr rfl, callsSucceed_hub (by decide +kernel), rfl⟩ (.nil _)))),
    by decide +kernel, fun h => ?_⟩
  obtain ⟨c, r, hr, -⟩ := h _ rfl oneChild rfl
  cases hr

end Fleetboard.Tunnel
