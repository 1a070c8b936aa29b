import Fleetboard.Proof.InterTunnel

/-!
# The blocks that the hub gives to the clusters

The hub allocates a block for a peer that has none in the lister, writes it into
the lister's object, adds the tunnel and the route, and only then updates the
stored peer.

* `connect_spec`: what the end of `Handle` does, and when it succeeds.
* `tunnelled_add`: when the device has a peer's subnets after its tunnel is added.
* `Handle_hub_peers`: the block that the hub stores is apart from the stored ones.
* `Handle_writtenBack_iff`: a last attempt that succeeds leaves the stored peer
  with the block that the device and the routes have, exactly when no attempt
  has allocated a block and failed later on, or found the peer's key in the table
  with other subnets on the device.
* `assigned_blocks_apart`: the hub gives no block twice while its peer exists and
  children apply their peers only before they have a block.
-/

namespace Fleetboard.Tunnel

open Fleetboard.Net Fleetboard.NetUtil InterClusterTunnelController

section

variable (parseKey : String → Except Error Key) (spec : Specification)

/-! ## The end of `Handle` -/

/-- The tunnel and the route of a peer can be added. -/
def Connects (c : InterClusterTunnelController) (p : Peer) (env : HandleEnv) : Prop :=
  (c.tunnel.AddInterClusterTunnel parseKey spec p env.add).2 = none ∧
    (configHostRoutingRules c.routes p.spec.podCIDR .add env.route).2 = none

variable {parseKey spec} {c c' : InterClusterTunnelController} {p : Peer} {env : HandleEnv}

/-- The update of a peer that is stored. -/
theorem updatePeer_eq {peers : GoMap String Peer} {q : Peer} (hq : peers.lookup p.name = some q)
    (err : Option Error) :
    updatePeer peers p err = (if err = none then
      peers.insert p.name { p with deletionTimestamp := q.deletionTimestamp } else peers, err) := by
  cases err <;> simp [updatePeer, hq]

/-- The routes through the device have the networks of the peer's blocks. -/
def Routed (routes : Finset IPNet) (p : Peer) : Prop :=
  ∀ s ∈ p.spec.podCIDR, ∃ ip dst, parseCIDR s = .ok (ip, dst) ∧ dst ∈ routes

/-- Routes that are added without an error are there afterwards, with those from before. -/
theorem configRoutes_add {routes' : Finset IPNet} {route : RouteEnv} (cidrs : List String) :
    ∀ routes, configRoutes .add route routes cidrs = (routes', none) → routes ⊆ routes' ∧
      ∀ s ∈ cidrs, ∃ ip dst, parseCIDR s = .ok (ip, dst) ∧ dst ∈ routes' := by
  induction cidrs with
  | nil =>
    intro routes h
    obtain ⟨rfl, -⟩ := Prod.mk.inj h
    exact ⟨Finset.Subset.refl _, fun s hs => absurd hs List.not_mem_nil⟩
  | cons cidr cidrs ih =>
    intro routes h
    rw [configRoutes] at h
    cases hparse : parseCIDR cidr with
    | error e => simp [hparse] at h
    | ok parsed =>
      obtain ⟨ip, dst⟩ := parsed
      cases herr : route.routeErr dst with
      | some e => simp [hparse, herr] at h
      | none =>
        simp only [hparse, herr] at h
        obtain ⟨hsub, hmem⟩ := ih _ h
        refine ⟨fun n hn => hsub (Finset.mem_insert_of_mem hn), List.forall_mem_cons.2 ⟨?_, hmem⟩⟩
        exact ⟨ip, dst, hparse, hsub (Finset.mem_insert_self dst routes)⟩

theorem routed_of_add {routes routes' : Finset IPNet} {route : RouteEnv}
    (h : configHostRoutingRules routes p.spec.podCIDR .add route = (routes', none)) :
    Routed routes' p := by
  rw [configHostRoutingRules] at h
  cases herr : route.interfaceErr with
  | some e => simp [herr] at h
  | none =>
    simp only [herr] at h
    exact (configRoutes_add _ _ h).2

/-- The end of `Handle` leaves the lister, and the stored peers too when it
fails or there is no block to write back; a success has added the route. -/
theorem connect_spec {noCIDR : Bool} {r : HandleResult} {q : Peer}
    (h : connect parseKey spec c p noCIDR env = (c', r))
    (hq : c.peers.lookup p.name = some q) :
    c'.peerLister = c.peerLister ∧
      (r = .done ↔ Connects parseKey spec c p env ∧ (noCIDR = true → env.updateErr = none)) ∧
      c'.peers = (if noCIDR = true ∧ r = .done then
        c.peers.insert p.name { p with deletionTimestamp := q.deletionTimestamp } else c.peers) ∧
      c'.tunnel = (c.tunnel.AddInterClusterTunnel parseKey spec p env.add).1 ∧
      (r = .done → Routed c'.routes p) := by
  unfold connect at h
  unfold Connects
  simp only at h
  generalize c.tunnel.AddInterClusterTunnel parseKey spec p env.add = res at h ⊢
  obtain ⟨w, err⟩ := res
  cases err with
  | some e =>
    obtain ⟨rfl, rfl⟩ := Prod.mk.inj h
    simp [HandleResult.retry, HandleResult.done]
  | none =>
    simp only at h
    rcases hroutes : configHostRoutingRules c.routes p.spec.podCIDR .add env.route with ⟨routes, err⟩
    rw [hroutes] at h
    cases err with
    | some e =>
      obtain ⟨rfl, rfl⟩ := Prod.mk.inj h
      simp [HandleResult.retry, HandleResult.done]
    | none =>
      have hrouted := routed_of_add hroutes
      cases noCIDR with
      | false =>
        obtain ⟨rfl, rfl⟩ := Prod.mk.inj h
        simp [HandleResult.done, hrouted]
      | true =>
        simp only [if_true, updatePeer_eq hq] at h
        cases herr : env.updateErr with
        | some e =>
          simp only [herr] at h
          obtain ⟨rfl, rfl⟩ := Prod.mk.inj h
          simp [HandleResult.retry, HandleResult.done]
        | none =>
          simp only [herr] at h
          obtain ⟨rfl, rfl⟩ := Prod.mk.inj h
          simp [HandleResult.done, hrouted]

/-- What the hub's `Handle` does with a peer that is not terminating: it connects
the block it has, or allocates one, if there is one. -/
theorem Handle_hub_cases (hhub : spec.asCluster = false) {name : String}
    (hp : c.peerLister.lookup name = some p) (hlive : p.deletionTimestamp = false)
    {r : HandleResult} (h : c.Handle parseKey spec name env = .ok (c', r)) :
    (p.cidr ≠ "" ∧ connect parseKey spec c p false env = (c', r)) ∨
      (p.cidr = "" ∧ (∃ e, FindTunnelAvailableCIDR spec.cidr (c.existingCIDR env.listOrder) =
          .ok (.error e)) ∧ r ≠ .done ∧
        c' = { c with peerLister := c.peerLister.insert name (p.withCIDR "") }) ∨
      p.cidr = "" ∧ ∃ cidr,
        FindTunnelAvailableCIDR spec.cidr (c.existingCIDR env.listOrder) = .ok (.ok cidr) ∧
        connect parseKey spec { c with peerLister := c.peerLister.insert name (p.withCIDR cidr) }
          (p.withCIDR cidr) true env = (c', r) := by
  simp only [Handle, hp, hlive, hhub, Bool.false_eq_true, if_false] at h
  by_cases hcidr : p.cidr = ""
  · rw [if_pos hcidr] at h
    obtain ⟨found, hfind, h⟩ := Go.bind_eq_ok.mp h
    cases found with
    | error e =>
      obtain ⟨rfl, rfl⟩ := Prod.mk.inj (Except.ok.inj h)
      exact .inr (.inl ⟨hcidr, ⟨e, hfind⟩, by simp [HandleResult.retry, HandleResult.done], rfl⟩)
    | ok cidr => exact .inr (.inr ⟨hcidr, cidr, hfind, Except.ok.inj h⟩)
  · rw [if_neg hcidr] at h
    exact .inl ⟨hcidr, Except.ok.inj h⟩

theorem FindTunnelAvailableCIDR_ne_empty {cidr s : String} {existing : List String}
    (h : FindTunnelAvailableCIDR cidr existing = .ok (.ok s)) : s ≠ "" := by
  obtain ⟨⟨network, d, i, rfl⟩, -⟩ := FindTunnelAvailableCIDR_apart h
  exact candidate_ne_empty network d i

/-! ## The tunnel of one peer -/

variable (parseKey spec)

/-- The device has the peer's subnets for its key; there is no tunnel to the own cluster. -/
def Tunnelled (w : Wireguard) (p : Peer) : Prop :=
  spec.clusterID = p.spec.clusterID ∨ OnDevice parseKey w p

/-- The table has the peer's key, or the peer is that of the own cluster:
`AddInterClusterTunnel` does nothing. -/
def InTable (w : Wireguard) (p : Peer) : Prop :=
  spec.clusterID = p.spec.clusterID ∨
    ∃ k, p.key parseKey = some k ∧ w.interKey parseKey p.spec.clusterID = some k

variable {parseKey spec} {w w' : Wireguard} {add : AddEnv}

theorem OnDevice.congr {k : Key} (h : OnDevice parseKey w p) (hk : p.key parseKey = some k)
    (hdevice : w'.device.lookup k = w.device.lookup k) : OnDevice parseKey w' p := by
  obtain ⟨k', dp, hk', hdp, hips⟩ := h
  obtain rfl : k = k' := Option.some_inj.mp (hk.symm.trans hk')
  exact ⟨k, dp, hk, hdevice.trans hdp, hips⟩

theorem InTable.add_eq (h : InTable parseKey spec w p) :
    w.AddInterClusterTunnel parseKey spec p add = (w, none) := by
  by_cases hself : spec.clusterID = p.spec.clusterID
  · exact AddInterClusterTunnel_self hself
  · obtain ⟨k, hk, hw⟩ := h.resolve_left hself
    exact AddInterClusterTunnel_skip hself hk hw

/-- A peer whose tunnel has been added without an error is in the table, and the device has its
subnets unless its key has been in the table with other ones. -/
theorem tunnelled_add (h : w.AddInterClusterTunnel parseKey spec p add = (w', none)) :
    InTable parseKey spec w' p ∧ (Tunnelled parseKey spec w' p ↔
      (InTable parseKey spec w p → Tunnelled parseKey spec w p)) := by
  by_cases hin : InTable parseKey spec w p
  · obtain ⟨rfl, -⟩ := Prod.mk.inj (hin.add_eq.symm.trans h)
    exact ⟨hin, fun ht _ => ht, fun ht => ht hin⟩
  · have hself : spec.clusterID ≠ p.spec.clusterID := fun he => hin (.inl he)
    cases hk : p.key parseKey with
    | none =>
      obtain ⟨e, he⟩ : ∃ e, w.AddInterClusterTunnel parseKey spec p add = (w, some e) :=
        AddInterClusterTunnel_badKey hself hk
      cases he.symm.trans h
    | some k =>
      obtain ⟨table, htable, hadd⟩ : ∃ table, (∀ id, table.lookup id =
          if id = p.spec.clusterID then some p else w.interConnections.lookup id) ∧
          w.AddInterClusterTunnel parseKey spec p add = (w.interAdded parseKey p k add table,
            wrap "failed to configure peer" add.configureErr) :=
        AddInterClusterTunnel_add hself hk fun hw => hin (.inr ⟨k, hk, hw⟩)
      obtain ⟨rfl, herr⟩ := Prod.mk.inj (hadd.symm.trans h)
      have hlookup := (htable p.spec.clusterID).trans (if_pos rfl)
      have hdevice : OnDevice parseKey (w.interAdded parseKey p k add table) p := by
        obtain ⟨ep, hdp⟩ := Device.lookup_apply_add
          (w.device.withoutKey (w.interKey parseKey p.spec.clusterID) add.removeErr) k k
          ((ParseIP p.spec.endpoint).map (·, p.spec.port)) (parseSubnets p.spec.podCIDR)
        rw [if_pos rfl] at hdp
        refine ⟨k, ⟨ep, some 10, _⟩, hk, ?_, rfl⟩
        rw [Wireguard.interAdded, wrap_eq_none.1 herr]
        exact hdp
      refine ⟨.inr ⟨k, hk, (interKey_of_lookup parseKey hlookup).trans hk⟩, ?_⟩
      exact ⟨fun _ hin' => absurd hin' hin, fun _ => .inr hdevice⟩

/-! ## Attempts on one peer -/

variable (parseKey spec) (name : String)

/-- An attempt to handle the peer, or anything else that leaves the peer's object
in the lister and in the API server, and its tunnel. -/
inductive Attempt
  | handle (env : HandleEnv)
  | other

def attemptStep (c : InterClusterTunnelController) (e : Attempt)
    (c' : InterClusterTunnelController) : Prop :=
  match e with
  | .handle env => ∃ r, c.Handle parseKey spec name env = .ok (c', r)
  | .other => c'.peerLister.lookup name = c.peerLister.lookup name ∧
    c'.peers.lookup name = c.peers.lookup name ∧
    ∀ p k, c.peerLister.lookup name = some p → p.key parseKey = some k →
      c'.tunnel.interKey parseKey p.spec.clusterID = c.tunnel.interKey parseKey p.spec.clusterID ∧
        c'.tunnel.device.lookup k = c.tunnel.device.lookup k

/-- An attempt that allocates a block also adds the tunnel and the route and
updates the stored peer; and if it finds the peer's key in the table, the device
already has the block. -/
def KeepsBlock (c : InterClusterTunnelController) : Attempt → Prop
  | .handle env => ∀ p cidr, c.peerLister.lookup name = some p → p.cidr = "" →
    FindTunnelAvailableCIDR spec.cidr (c.existingCIDR env.listOrder) = .ok (.ok cidr) →
    (Connects parseKey spec c (p.withCIDR cidr) env ∧ env.updateErr = none) ∧
      (InTable parseKey spec c.tunnel (p.withCIDR cidr) →
        Tunnelled parseKey spec c.tunnel (p.withCIDR cidr))
  | .other => True

/-- The stored peer has a block, and the device and the routes have the same. -/
def WrittenBack (c : InterClusterTunnelController) : Prop :=
  ∃ q, c.peers.lookup name = some q ∧ q.cidr ≠ "" ∧
    Tunnelled parseKey spec c.tunnel q ∧ Routed c.routes q

/-- The lister's object and the stored peer, live and under its name. -/
structure Objects (c : InterClusterTunnelController) (p q : Peer) : Prop where
  lister : c.peerLister.lookup name = some p
  stored : c.peers.lookup name = some q
  named : p.name = name
  live : p.deletionTimestamp = false

/-- No block is allocated yet, or the stored peer and the device have the one of the lister. -/
def Kept (c : InterClusterTunnelController) : Prop :=
  ∃ p q, Objects name c p q ∧ (p.cidr = "" ∧ q.cidr = "" ∨
    p.cidr ≠ "" ∧ q.spec = p.spec ∧ InTable parseKey spec c.tunnel p ∧
      Tunnelled parseKey spec c.tunnel p)

/-- The lister's object has a block that the stored peer or the device does not have. -/
def Lost (c : InterClusterTunnelController) : Prop :=
  ∃ p q, Objects name c p q ∧ p.cidr ≠ "" ∧ (q.cidr = "" ∨
    q.spec = p.spec ∧ InTable parseKey spec c.tunnel p ∧ ¬ Tunnelled parseKey spec c.tunnel p)

variable {parseKey spec name}

theorem Objects.congr {q : Peer} (h : Objects name c p q)
    (hl : c'.peerLister.lookup name = c.peerLister.lookup name)
    (hs : c'.peers.lookup name = c.peers.lookup name) : Objects name c' p q :=
  ⟨hl.trans h.lister, hs.trans h.stored, h.named, h.live⟩

/-- The lister's object and the stored peer are the only ones. -/
theorem Objects.unique {p' q q' : Peer} (h : Objects name c p q) (h' : Objects name c p' q') :
    p = p' ∧ q = q' :=
  ⟨Option.some_inj.mp (h.lister.symm.trans h'.lister),
    Option.some_inj.mp (h.stored.symm.trans h'.stored)⟩

/-- What else happens leaves the tunnel of the peer. -/
theorem Objects.other {q : Peer} (h : Objects name c p q)
    (hs : attemptStep parseKey spec name c .other c') :
    Objects name c' p q ∧
      (InTable parseKey spec c.tunnel p → InTable parseKey spec c'.tunnel p ∧
        (Tunnelled parseKey spec c'.tunnel p ↔ Tunnelled parseKey spec c.tunnel p)) := by
  refine ⟨h.congr hs.1 hs.2.1, fun hin => ?_⟩
  by_cases hself : spec.clusterID = p.spec.clusterID
  · exact ⟨.inl hself, iff_of_true (.inl hself) (.inl hself)⟩
  · obtain ⟨k, hk, hw⟩ := hin.resolve_left hself
    obtain ⟨htable, hdevice⟩ := hs.2.2 p k h.lister hk
    exact ⟨.inr ⟨k, hk, htable.trans hw⟩,
      or_congr_right ⟨fun hd => hd.congr hk hdevice.symm, fun hd => hd.congr hk hdevice⟩⟩

/-- An attempt on an object that has a block changes neither object. -/
theorem Objects.handle_of_cidr {q : Peer} (h : Objects name c p q) (hhub : spec.asCluster = false)
    (hcidr : p.cidr ≠ "") {r : HandleResult} (hr : c.Handle parseKey spec name env = .ok (c', r)) :
    Objects name c' p q ∧ (InTable parseKey spec c.tunnel p → c'.tunnel = c.tunnel) ∧
      (r = .done → Routed c'.routes p) := by
  have hq : c.peers.lookup p.name = some q := by rw [h.named]; exact h.stored
  rcases Handle_hub_cases hhub h.lister h.live hr with ⟨-, hc⟩ | ⟨he, -⟩ | ⟨he, -⟩
  · obtain ⟨hlister, -, hpeers, htunnel, hrouted⟩ := connect_spec hc hq
    refine ⟨h.congr (by rw [hlister]) (by rw [hpeers]; simp), fun hin => ?_, hrouted⟩
    rw [htunnel, hin.add_eq]
  · exact absurd he hcidr
  · exact absurd he hcidr

/-- An attempt on an object without a block allocates one or leaves it without;
then the stored peer has the block exactly when the tunnel, the route and the
update succeed. -/
theorem Objects.handle_of_empty {q : Peer} (h : Objects name c p q) (hhub : spec.asCluster = false)
    (hcidr : p.cidr = "") {r : HandleResult} (hr : c.Handle parseKey spec name env = .ok (c', r)) :
    (∃ p', Objects name c' p' q ∧ p'.cidr = "" ∧ r ≠ .done ∧
        ∀ s, FindTunnelAvailableCIDR spec.cidr (c.existingCIDR env.listOrder) ≠ .ok (.ok s)) ∨
      ∃ cidr p' q', cidr ≠ "" ∧
        FindTunnelAvailableCIDR spec.cidr (c.existingCIDR env.listOrder) = .ok (.ok cidr) ∧
        Objects name c' p' q' ∧ p' = p.withCIDR cidr ∧
        (r = .done ↔ Connects parseKey spec c (p.withCIDR cidr) env ∧ env.updateErr = none) ∧
        c'.tunnel = (c.tunnel.AddInterClusterTunnel parseKey spec p' env.add).1 ∧
        (r = .done → q'.spec = p'.spec ∧ Routed c'.routes p') ∧
        (r ≠ .done → q' = q) := by
  have hq : ∀ s, c.peers.lookup (p.withCIDR s).name = some q := by
    intro s
    rw [show (p.withCIDR s).name = name from h.named]
    exact h.stored
  rcases Handle_hub_cases hhub h.lister h.live hr with ⟨hne, -⟩ | ⟨-, ⟨e, he⟩, hd, rfl⟩ |
    ⟨-, cidr, hfind, hc⟩
  · exact absurd hcidr hne
  · refine .inl ⟨p.withCIDR "", ⟨?_, h.stored, h.named, h.live⟩, rfl, hd, fun s hs => ?_⟩
    · show (c.peerLister.insert name (p.withCIDR "")).lookup name = _
      rw [GoMap.lookup_insert_eq, if_pos rfl]
    · rw [he] at hs
      cases hs
  · obtain ⟨hlister, hdone, hpeers, htunnel, hrouted⟩ := connect_spec hc (hq cidr)
    have hl : c'.peerLister.lookup name = some (p.withCIDR cidr) := by
      rw [hlister]
      show (c.peerLister.insert name (p.withCIDR cidr)).lookup name = _
      rw [GoMap.lookup_insert_eq, if_pos rfl]
    have hdone' : r = .done ↔ Connects parseKey spec c (p.withCIDR cidr) env ∧
        env.updateErr = none := by
      rw [hdone]
      exact and_congr_right fun _ => ⟨fun h => h rfl, fun h _ => h⟩
    by_cases hr' : r = .done
    · rw [if_pos ⟨rfl, hr'⟩] at hpeers
      refine .inr ⟨cidr, _, { p.withCIDR cidr with deletionTimestamp := q.deletionTimestamp },
        FindTunnelAvailableCIDR_ne_empty hfind, hfind, ⟨hl, ?_, h.named, h.live⟩, rfl, hdone',
        htunnel, fun h => ⟨rfl, hrouted h⟩, fun hne => absurd hr' hne⟩
      rw [hpeers, GoMap.lookup_insert_eq]
      exact if_pos h.named.symm
    · rw [if_neg fun h => hr' h.2] at hpeers
      exact .inr ⟨cidr, _, q, FindTunnelAvailableCIDR_ne_empty hfind, hfind,
        ⟨hl, by rw [hpeers]; exact h.stored, h.named, h.live⟩, rfl, hdone',
        htunnel, fun h => absurd h hr', fun _ => rfl⟩

theorem not_kept_of_lost (h : Lost parseKey spec name c) : ¬ Kept parseKey spec name c := by
  obtain ⟨p, q, ho, hp, hlost⟩ := h
  rintro ⟨p', q', ho', h⟩
  obtain ⟨rfl, rfl⟩ := ho.unique ho'
  rcases h with ⟨he, -⟩ | ⟨-, hspec, -, ht⟩
  · exact hp he
  · rcases hlost with hq | ⟨-, -, hnt⟩
    · rw [Peer.cidr, hspec] at hq
      exact hp hq
    · exact hnt ht

theorem Lost.step (h : Lost parseKey spec name c) (hhub : spec.asCluster = false) {e : Attempt}
    (hs : attemptStep parseKey spec name c e c') : Lost parseKey spec name c' := by
  obtain ⟨p, q, ho, hp, hlost⟩ := h
  cases e with
  | handle env =>
    obtain ⟨r, hr⟩ := hs
    obtain ⟨ho', htunnel, -⟩ := ho.handle_of_cidr hhub hp hr
    refine ⟨p, q, ho', hp, hlost.imp_right fun ⟨hspec, hin, hnt⟩ => ?_⟩
    rw [htunnel hin]
    exact ⟨hspec, hin, hnt⟩
  | other =>
    obtain ⟨ho', htunnel⟩ := ho.other hs
    refine ⟨p, q, ho', hp, hlost.imp_right fun ⟨hspec, hin, hnt⟩ => ?_⟩
    exact ⟨hspec, (htunnel hin).1, fun ht => hnt ((htunnel hin).2.1 ht)⟩

/-- A step that keeps the block stays where nothing is lost; another one loses
it. -/
theorem Kept.step (h : Kept parseKey spec name c) (hhub : spec.asCluster = false) {e : Attempt}
    (hs : attemptStep parseKey spec name c e c') :
    (KeepsBlock parseKey spec name c e → Kept parseKey spec name c') ∧
      (¬ KeepsBlock parseKey spec name c e → Lost parseKey spec name c') := by
  obtain ⟨p, q, ho, h⟩ := h
  cases e with
  | other =>
    obtain ⟨ho', htunnel⟩ := ho.other hs
    refine ⟨fun _ => ⟨p, q, ho', h.imp_right fun ⟨hp, hspec, hin, ht⟩ => ?_⟩,
      fun hn => absurd trivial hn⟩
    exact ⟨hp, hspec, (htunnel hin).1, (htunnel hin).2.2 ht⟩
  | handle env =>
    obtain ⟨r, hr⟩ := hs
    rcases h with ⟨hp, hq⟩ | ⟨hp, hspec, hin, ht⟩
    · rcases ho.handle_of_empty hhub hp hr with ⟨p', ho', hp', -, hnone⟩ |
        ⟨cidr, p', q', hcidr, hfind, ho', rfl, hdone, htunnel, hused, hsame⟩
      · refine ⟨fun _ => ⟨p', q, ho', .inl ⟨hp', hq⟩⟩, fun hn => absurd ?_ hn⟩
        exact fun _ s _ _ hs => absurd hs (hnone s)
      · have hkeeps : KeepsBlock parseKey spec name c (.handle env) ↔ r = .done ∧
            (InTable parseKey spec c.tunnel (p.withCIDR cidr) →
              Tunnelled parseKey spec c.tunnel (p.withCIDR cidr)) := by
          rw [hdone]
          refine ⟨fun hk => hk p cidr ho.lister hp hfind, fun hc p₁ s hp₁ _ hs => ?_⟩
          obtain rfl : p = p₁ := Option.some_inj.mp (ho.lister.symm.trans hp₁)
          rw [hfind] at hs
          obtain rfl : cidr = s := Except.ok.inj (Except.ok.inj hs)
          exact hc
        by_cases hr' : r = .done
        · have hadd : c.tunnel.AddInterClusterTunnel parseKey spec (p.withCIDR cidr) env.add =
              (c'.tunnel, none) := Prod.ext htunnel.symm (hdone.1 hr').1.1
          obtain ⟨hin, ht⟩ := tunnelled_add hadd
          refine ⟨fun hk => ⟨_, q', ho', .inr ⟨hcidr, (hused hr').1, hin, ?_⟩⟩,
            fun hk => ⟨_, q', ho', hcidr, .inr ⟨(hused hr').1, hin, fun ht' => hk ?_⟩⟩⟩
          · exact ht.2 (hkeeps.1 hk).2
          · exact hkeeps.2 ⟨hr', ht.1 ht'⟩
        · refine ⟨fun hk => absurd (hkeeps.1 hk).1 hr', fun _ => ⟨_, q', ho', hcidr, .inl ?_⟩⟩
          rw [hsame hr']
          exact hq
    · obtain ⟨ho', htunnel, -⟩ := ho.handle_of_cidr hhub hp hr
      refine ⟨fun _ => ⟨p, q, ho', .inr ?_⟩, fun hn => absurd ?_ hn⟩
      · rw [htunnel hin]
        exact ⟨hp, hspec, hin, ht⟩
      · intro p₁ s hp₁ he _
        obtain rfl : p = p₁ := Option.some_inj.mp (ho.lister.symm.trans hp₁)
        exact absurd he hp

/-- A run of attempts keeps the block exactly when each of its steps does. -/
theorem Kept.runs (h : Kept parseKey spec name c) (hhub : spec.asCluster = false)
    {es : List Attempt} (hrun : Runs (attemptStep parseKey spec name) c es c') :
    Kept parseKey spec name c' ↔ Runs (Guarded (attemptStep parseKey spec name)
      (KeepsBlock parseKey spec name)) c es c' := by
  constructor
  · intro h'
    induction hrun with
    | nil _ => exact .nil _
    | @cons c c₁ c₂ e es he hes ih =>
      obtain ⟨hkeep, hlose⟩ := h.step hhub he
      by_cases hk : KeepsBlock parseKey spec name c e
      · exact .cons ⟨he, hk⟩ (ih (hkeep hk) h')
      · have hlost : Lost parseKey spec name c₂ :=
          hes.invariant (I := Lost parseKey spec name) (fun hl hs => hl.step hhub hs) (hlose hk)
        exact absurd h' (not_kept_of_lost hlost)
  · intro hg
    exact hg.invariant (I := Kept parseKey spec name) (fun hk hs => (hk.step hhub hs.1).1 hs.2) h

theorem Kept.or_lost (h : Kept parseKey spec name c) (hhub : spec.asCluster = false)
    {es : List Attempt} (hrun : Runs (attemptStep parseKey spec name) c es c') :
    Kept parseKey spec name c' ∨ Lost parseKey spec name c' := by
  refine hrun.invariant (I := fun c => Kept parseKey spec name c ∨ Lost parseKey spec name c)
    (fun {s e s'} hi hs => ?_) (.inl h)
  rcases hi with hi | hi
  · by_cases hk : KeepsBlock parseKey spec name s e
    · exact .inl ((hi.step hhub hs).1 hk)
    · exact .inr ((hi.step hhub hs).2 hk)
  · exact .inr (hi.step hhub hs)

/-- Whether a peer's tunnel is there depends on its spec only. -/
theorem tunnelled_congr {q : Peer} (h : q.spec = p.spec) :
    Tunnelled parseKey spec w q ↔ Tunnelled parseKey spec w p := by
  rw [Tunnelled, Tunnelled, OnDevice, OnDevice, Peer.key, Peer.key, h]

theorem not_writtenBack_of_lost (h : Lost parseKey spec name c) :
    ¬ WrittenBack parseKey spec name c := by
  obtain ⟨p, q, ho, -, hlost⟩ := h
  rintro ⟨q', hq', hne, ht, -⟩
  obtain rfl : q' = q := Option.some_inj.mp (hq'.symm.trans ho.stored)
  rcases hlost with hq | ⟨hspec, -, hnt⟩
  · exact hne hq
  · exact hnt ((tunnelled_congr hspec).1 ht)

/-- After an attempt without an error nothing is lost exactly when the block is written back. -/
theorem Kept.writtenBack (h : Kept parseKey spec name c) (hhub : spec.asCluster = false)
    (hlast : c.Handle parseKey spec name env = .ok (c', .done))
    (h' : Kept parseKey spec name c') : WrittenBack parseKey spec name c' := by
  -- The attempt finds the block in the lister's object, or allocates it.
  have hrouted : ∃ p q, Objects name c' p q ∧ p.cidr ≠ "" ∧ Routed c'.routes p := by
    obtain ⟨p, q, ho, ⟨hp, -⟩ | ⟨hp, -⟩⟩ := h
    · rcases ho.handle_of_empty hhub hp hlast with ⟨-, -, -, hd, -⟩ |
        ⟨cidr, p', q', hcidr, -, ho', rfl, -, -, hused, -⟩
      · exact absurd rfl hd
      · exact ⟨_, q', ho', hcidr, (hused rfl).2⟩
    · obtain ⟨ho', -, hrouted⟩ := ho.handle_of_cidr hhub hp hlast
      exact ⟨p, q, ho', hp, hrouted rfl⟩
  obtain ⟨p, q, ho, hp, hrouted⟩ := hrouted
  obtain ⟨p', q', ho', h'⟩ := h'
  obtain ⟨rfl, rfl⟩ := ho.unique ho'
  rcases h' with ⟨he, -⟩ | ⟨-, hspec, -, ht⟩
  · exact absurd he hp
  · refine ⟨q, ho.stored, ?_, (tunnelled_congr hspec).2 ht, ?_⟩
    · rw [Peer.cidr, hspec]
      exact hp
    · rw [Routed, hspec]
      exact hrouted

/-- On the hub, for a live peer that has no block, neither in the lister nor in
the API server: after attempts of which the last returns without an error, the
stored peer has a block, and the device and the routes have the same, exactly
when no attempt has allocated a block and failed after that, or found the peer's
key in the table with other subnets on the device. -/
theorem Handle_writtenBack_iff (hhub : spec.asCluster = false) {c₀ : InterClusterTunnelController}
    {q : Peer} (ho : Objects name c₀ p q) (hp : p.cidr = "") (hq : q.cidr = "")
    {es : List Attempt} (hrun : Runs (attemptStep parseKey spec name) c₀ es c)
    (hlast : c.Handle parseKey spec name env = .ok (c', .done)) :
    WrittenBack parseKey spec name c' ↔
      Runs (Guarded (attemptStep parseKey spec name) (KeepsBlock parseKey spec name)) c₀ es c ∧
        KeepsBlock parseKey spec name c (.handle env) := by
  have hkept₀ : Kept parseKey spec name c₀ := ⟨p, q, ho, .inl ⟨hp, hq⟩⟩
  have hstep : attemptStep parseKey spec name c (.handle env) c' := ⟨_, hlast⟩
  rw [← hkept₀.runs hhub hrun]
  constructor
  · intro hw
    have hkept : Kept parseKey spec name c := by
      refine (hkept₀.or_lost hhub hrun).resolve_right fun hlost => ?_
      exact not_writtenBack_of_lost (hlost.step hhub hstep) hw
    refine ⟨hkept, by_contra fun hk => ?_⟩
    exact not_writtenBack_of_lost ((hkept.step hhub hstep).2 hk) hw
  · rintro ⟨hkept, hk⟩
    exact hkept.writtenBack hhub hlast ((hkept.step hhub hstep).1 hk)

/-! ## The hub and the children -/

variable (parseKey spec) (createPatch : CreatePatch Peer)

/-- A child (re)starts its leader and applies its peer; the hub handles a peer;
a peer is deleted. -/
inductive PeerEvent
  | apply (child : Specification) (publicKey : Key)
  | handle (name : String) (env : HandleEnv)
  | delete (name : String)

/-- One step without API errors, with the hub's lister in sync with the API
server. Children run without a network of their own. -/
def peerStep (c : InterClusterTunnelController) (e : PeerEvent)
    (c' : InterClusterTunnelController) : Prop :=
  match e with
  | .apply child publicKey => child.cidr = "" ∧ child.clusterID ≠ Known.HubClusterName ∧
    c' = { c with
      peers := (ApplyPeerConfig createPatch child publicKey c.peers ⟨none, none, none⟩).1 }
  | .handle name env => env.updateErr = none ∧
    ∃ r, Handle parseKey spec { c with peerLister := c.peers } name env = .ok (c', r)
  | .delete name => c' = { c with peers := c.peers.erase name }

/-- The hub handles a peer without a block and stores the block `s` for it. -/
def Assigns (c : InterClusterTunnelController) (name : String) (env : HandleEnv)
    (c' : InterClusterTunnelController) (s : String) : Prop :=
  peerStep parseKey spec createPatch c (.handle name env) c' ∧
    (∃ p, c.peers.lookup name = some p ∧ p.cidr = "") ∧
    ∃ q, c'.peers.lookup name = some q ∧ q.spec.podCIDR = [s] ∧ s ≠ ""

/-- A child applies its peer only while no block is stored for it. -/
def AppliesEmpty (c : InterClusterTunnelController) : PeerEvent → Prop
  | .apply child _ => ∀ q, c.peers.lookup child.clusterID = some q → q.cidr = ""
  | _ => True

/-- The peers are stored under their names. -/
def Named (c : InterClusterTunnelController) : Prop :=
  ∀ n q, c.peers.lookup n = some q → q.name = n

variable {parseKey spec createPatch}

/-- The hub's `Handle` stores nothing, or a block apart from those of the peers
that it lists. -/
theorem Handle_hub_peers (hhub : spec.asCluster = false) {name : String} (hn : Named c)
    {r : HandleResult}
    (h : Handle parseKey spec { c with peerLister := c.peers } name env = .ok (c', r)) :
    c'.peers = c.peers ∨ ∃ p q cidr, c.peers.lookup name = some p ∧ p.cidr = "" ∧
      c'.peers = c.peers.insert name q ∧ q.name = name ∧ q.spec.podCIDR = [cidr] ∧
      ∀ n a, c.peers.lookup n = some a → n ≠ "hub" → a.cidr ≠ "" → Apart a.cidr cidr := by
  cases hp : c.peers.lookup name with
  | none =>
    simp only [Handle, hp, RecyclePeer, Go.deref] at h
    cases h
  | some p =>
    by_cases hlive : p.deletionTimestamp = false
    · have hname := hn name p hp
      rcases Handle_hub_cases hhub hp hlive h with ⟨-, hc⟩ | ⟨-, -, -, rfl⟩ | ⟨hcidr, cidr, hfind, hc⟩
      · obtain ⟨-, -, hpeers, -, -⟩ := connect_spec hc (show c.peers.lookup p.name = some p by
          rw [hname]; exact hp)
        exact .inl (by rw [hpeers]; simp)
      · exact .inl rfl
      · obtain ⟨-, -, hpeers, -, -⟩ := connect_spec hc
          (show c.peers.lookup (p.withCIDR cidr).name = some p by rw [← hp, ← hname]; rfl)
        by_cases hr : r = .done
        · rw [if_pos ⟨rfl, hr⟩] at hpeers
          refine .inr ⟨p, { p.withCIDR cidr with deletionTimestamp := p.deletionTimestamp }, cidr,
            rfl, hcidr, ?_, hname, rfl, fun n a ha hhubname hne => ?_⟩
          · rw [hpeers]
            show c.peers.insert p.name _ = _
            rw [hname]
          · refine (FindTunnelAvailableCIDR_apart hfind).2 a.cidr (List.mem_filterMap.mpr ⟨a, ?_, ?_⟩)
            · exact (env.listOrder.mem_visit).mpr (GoMap.mem_values_iff.mpr ⟨n, ha⟩)
            · rw [if_pos (by rw [hn n a ha]; exact hhubname)]
              cases hcs : a.spec.podCIDR with
              | nil => rw [Peer.cidr, hcs] at hne; exact absurd rfl hne
              | cons x xs => simp [Peer.cidr, hcs]
        · rw [if_neg fun h => hr h.2] at hpeers
          exact .inl hpeers
    · simp only [Handle, hp, Bool.not_eq_false _ ▸ hlive, if_true] at h
      exact .inl (by rw [RecyclePeer_frame h])

/-- A child's `ApplyPeerConfig` changes no other peer. -/
theorem ApplyPeerConfig_lookup {peers : GoMap String Peer} {child : Specification} {key : Key}
    {env : ApplyEnv} (hn : ∀ n q, peers.lookup n = some q → q.name = n) :
    (∀ n, n ≠ child.clusterID →
      (ApplyPeerConfig createPatch child key peers env).1.lookup n = peers.lookup n) ∧
    ∀ n q, (ApplyPeerConfig createPatch child key peers env).1.lookup n = some q → q.name = n := by
  -- The peers stay, or one object is written under the child's name.
  have hcases : (ApplyPeerConfig createPatch child key peers env).1 = peers ∨
      ∃ q, q.name = child.clusterID ∧
        (ApplyPeerConfig createPatch child key peers env).1 = peers.insert child.clusterID q := by
    have hself : (selfPeer child key).name = child.clusterID := rfl
    unfold ApplyPeerConfig ApplyPeerWithRetry
    split
    · exact .inl rfl
    · exact .inr ⟨selfPeer child key, rfl, rfl⟩
    · rename_i curObj _ hcur
      rw [hself] at hcur
      have hcname := hn _ _ hcur
      split
      · exact .inl rfl
      · split_ifs
        · exact .inl rfl
        · cases hu : env.updateErr with
          | some e => exact .inl rfl
          | none =>
            refine .inr ⟨{ curObj with spec := { (selfPeer child key).spec with
              isHub := curObj.spec.isHub } }, hcname, ?_⟩
            have hlook : peers.lookup curObj.name = some curObj := by rw [hcname]; exact hcur
            simp only [updatePeer]
            simp only [hlook, hcname]
        · exact .inl rfl
  rcases hcases with h | ⟨q, hq, h⟩
  · rw [h]
    exact ⟨fun n _ => rfl, hn⟩
  · rw [h]
    refine ⟨fun n hne => by rw [GoMap.lookup_insert_eq, if_neg hne], fun n q' hq' => ?_⟩
    rw [GoMap.lookup_insert_eq] at hq'
    by_cases hnn : n = child.clusterID
    · rw [if_pos hnn] at hq'
      rw [← Option.some_inj.mp hq', hq, hnn]
    · rw [if_neg hnn] at hq'
      exact hn n q' hq'

theorem Named.step (hn : Named c) (hhub : spec.asCluster = false) {e : PeerEvent}
    (hs : peerStep parseKey spec createPatch c e c') : Named c' := by
  cases e with
  | apply child key =>
    obtain ⟨-, -, rfl⟩ := hs
    exact (ApplyPeerConfig_lookup hn).2
  | handle name env =>
    obtain ⟨-, r, hr⟩ := hs
    rcases Handle_hub_peers hhub hn hr with h | ⟨p, q, cidr, -, -, h, hq, -⟩
    · rw [Named, h]; exact hn
    · intro n q' hq'
      rw [h, GoMap.lookup_insert_eq] at hq'
      by_cases hnn : n = name
      · rw [if_pos hnn] at hq'
        rw [← Option.some_inj.mp hq', hq, hnn]
      · rw [if_neg hnn] at hq'
        exact hn n q' hq'
  | delete name =>
    obtain rfl := hs
    intro n q hq
    rw [GoMap.lookup_erase_eq] at hq
    by_cases hnn : n = name
    · rw [if_pos hnn] at hq; cases hq
    · rw [if_neg hnn] at hq
      exact hn n q hq

/-- A stored block stays as long as its peer is not deleted, and no child
applies its peer over a stored block. -/
theorem lookup_of_appliesEmpty {A s : String} (hn : Named c) (hhub : spec.asCluster = false)
    {e : PeerEvent} (hs : peerStep parseKey spec createPatch c e c') (hg : AppliesEmpty c e)
    (hd : e ≠ .delete A) {q : Peer} (hq : c.peers.lookup A = some q) (hcidr : q.cidr = s)
    (hne : s ≠ "") : c'.peers.lookup A = some q := by
  cases e with
  | apply child key =>
    obtain ⟨-, -, rfl⟩ := hs
    show (ApplyPeerConfig createPatch child key c.peers ⟨none, none, none⟩).1.lookup A = some q
    rw [(ApplyPeerConfig_lookup hn).1 A fun h => ?_, hq]
    exact hne (hcidr.symm.trans (hg q (h ▸ hq)))
  | handle name env =>
    obtain ⟨-, r, hr⟩ := hs
    rcases Handle_hub_peers hhub hn hr with h | ⟨p, q', cidr, hp, hpe, h, -, -⟩
    · rw [h]; exact hq
    · rw [h, GoMap.lookup_insert_eq, if_neg, hq]
      rintro rfl
      obtain rfl : p = q := Option.some_inj.mp (hp.symm.trans hq)
      exact hne (hcidr.symm.trans hpe)
  | delete name =>
    obtain rfl := hs
    show (c.peers.erase name).lookup A = some q
    rw [GoMap.lookup_erase_eq, if_neg fun h => hd (by rw [h]), hq]

/-- The hub stores a block for child `A`; as long as `A`'s peer is not deleted,
and children apply their peers only while no block is stored for them, a block
that the hub stores for another child is apart from it. -/
theorem assigned_blocks_apart (hhub : spec.asCluster = false)
    {c₁ c₂ c₃ c₄ : InterClusterTunnelController} {A B s t : String} {envA envB : HandleEnv}
    {es : List PeerEvent} (hn : Named c₁) (hA : A ≠ Known.HubClusterName)
    (hfirst : Assigns parseKey spec createPatch c₁ A envA c₂ s)
    (hrun : Runs (Guarded (peerStep parseKey spec createPatch) AppliesEmpty) c₂ es c₃)
    (hkept : ∀ e ∈ es, e ≠ .delete A)
    (hlast : Assigns parseKey spec createPatch c₃ B envB c₄ t) : Apart s t := by
  obtain ⟨hstep, -, q, hq, hqs, hne⟩ := hfirst
  have hcidr : q.cidr = s := by rw [Peer.cidr, hqs]; rfl
  have hinv : Named c₃ ∧ c₃.peers.lookup A = some q :=
    hrun.invariant_mem (I := fun c => Named c ∧ c.peers.lookup A = some q)
      (P := fun e => e ≠ .delete A)
      (fun hd hi hs => ⟨hi.1.step hhub hs.1,
        lookup_of_appliesEmpty hi.1 hhub hs.1 hs.2 hd hi.2 hcidr hne⟩)
      hkept ⟨hn.step hhub hstep, hq⟩
  obtain ⟨⟨-, r, hr⟩, ⟨p, hp, hpe⟩, q', hq', hq't, htne⟩ := hlast
  rcases Handle_hub_peers hhub hinv.1 hr with h | ⟨p', q'', cidr, -, -, h, -, hcs, hapart⟩
  · rw [h, hp] at hq'
    obtain rfl := Option.some_inj.mp hq'
    rw [Peer.cidr, hq't] at hpe
    exact absurd hpe htne
  · rw [h, GoMap.lookup_insert_eq, if_pos rfl] at hq'
    obtain rfl := Option.some_inj.mp hq'
    rw [hcs] at hq't
    obtain rfl : cidr = t := (List.cons.inj hq't).1
    have := hapart A q hinv.2 hA (by rw [hcidr]; exact hne)
    rwa [hcidr] at this

end

/-! A child cluster without a block. -/

/-- The hub's controller with one peer, which has applied its configuration. -/
def oneEmptyPeer : InterClusterTunnelController :=
  { newInter with
    peerLister := (∅ : GoMap String Peer).insert "c1" (childPeer "c1" [""] "old")
    peers := (∅ : GoMap String Peer).insert "c1" (childPeer "c1" [""] "old") }

def hubEnv (updateErr : Option Error) : HandleEnv where
  selfPod := .notFound
  selfPatchErr := none
  add := ⟨none, none⟩
  removeErr := none
  route := allRoutes
  updateErr := updateErr
  listOrder := .stored

def hubHandled (c : InterClusterTunnelController) (name : String) (env : HandleEnv) :
    InterClusterTunnelController :=
  ((c.Handle sampleKey hubSpec name env).getD (c, .done)).1

theorem oneEmptyPeer_objects :
    Objects "c1" oneEmptyPeer (childPeer "c1" [""] "old") (childPeer "c1" [""] "old") :=
  ⟨rfl, rfl, rfl, rfl⟩

/-- Two attempts, both without an error. -/
theorem Handle_writtenBack_twice :
    WrittenBack sampleKey hubSpec "c1"
      (hubHandled (hubHandled oneEmptyPeer "c1" (hubEnv none)) "c1" (hubEnv none)) := by
  have hfirst : oneEmptyPeer.Handle sampleKey hubSpec "c1" (hubEnv none) =
      .ok (hubHandled oneEmptyPeer "c1" (hubEnv none), .done) :=
    Go.eq_ok_getD_of_snd (by decide +kernel) _
  have hstep : attemptStep sampleKey hubSpec "c1" oneEmptyPeer (.handle (hubEnv none))
      (hubHandled oneEmptyPeer "c1" (hubEnv none)) := ⟨_, hfirst⟩
  refine (Handle_writtenBack_iff rfl oneEmptyPeer_objects rfl rfl (.single hstep)
    (Go.eq_ok_getD_of_snd (by decide +kernel) _)).mpr ⟨.single ⟨hstep, ?_⟩, ?_⟩
  · intro p cidr hp _ hfind
    obtain rfl : childPeer "c1" [""] "old" = p := Option.some_inj.mp hp
    have hfind' : FindTunnelAvailableCIDR hubSpec.cidr (oneEmptyPeer.existingCIDR .stored) =
        .ok (.ok "20.112.0.0/16") := by decide +kernel
    obtain rfl : cidr = "20.112.0.0/16" := Except.ok.inj (Except.ok.inj (hfind.symm.trans hfind'))
    refine ⟨⟨⟨by decide +kernel, by decide +kernel⟩, rfl⟩, ?_⟩
    -- The table is empty.
    rintro (hself | ⟨k, -, hk⟩)
    · exact absurd hself (by decide)
    · cases hk
  · intro p cidr hp hempty
    have hcidr : (some p).map Peer.cidr = some "20.112.0.0/16" := hp ▸ by decide +kernel
    exact absurd (hempty.symm.trans (Option.some_inj.mp hcidr)) (by decide)

/-- The update fails after the lister's object has its block; the next attempt
returns without an error and without an update. -/
theorem Handle_loses_block_after_failed_update :
    ∃ c c', Objects "c1" oneEmptyPeer (childPeer "c1" [""] "old") (childPeer "c1" [""] "old") ∧
      hubSpec.asCluster = false ∧
      Runs (attemptStep sampleKey hubSpec "c1") oneEmptyPeer
        [.handle (hubEnv (some "etcdserver: request timed out"))] c ∧
      c.Handle sampleKey hubSpec "c1" (hubEnv none) = .ok (c', .done) ∧
      Tunnelled sampleKey hubSpec c'.tunnel oneChild ∧ Routed c'.routes oneChild ∧
      ¬ WrittenBack sampleKey hubSpec "c1" c' := by
  refine ⟨hubHandled oneEmptyPeer "c1" (hubEnv (some "etcdserver: request timed out")),
    hubHandled (hubHandled oneEmptyPeer "c1" (hubEnv (some "etcdserver: request timed out"))) "c1"
      (hubEnv none), oneEmptyPeer_objects, rfl,
    .single ⟨_, Go.eq_ok_getD (by decide +kernel) (oneEmptyPeer, .done)⟩,
    Go.eq_ok_getD_of_snd (by decide +kernel) _,
    .inr ⟨1, ⟨none, some 10, _⟩, rfl, by decide +kernel, rfl⟩, ?_, ?_⟩
  · intro s hs
    obtain rfl : s = "20.112.0.0/16" := List.mem_singleton.1 hs
    exact ⟨0x14700000#32, ⟨0x14700000#32, 16, by decide⟩, by decide, by decide +kernel⟩
  · rintro ⟨q, hq, hne, -⟩
    have hempty : (some q).map Peer.cidr = some "" := hq ▸ by decide +kernel
    exact hne (Option.some_inj.mp hempty)

/-! Two children without blocks. -/

/-- The patch between two peers, as far as `ResourceNeedResync` reads it: one
operation when the specs differ. -/
def specPatch (current modified : Peer) : Option (List JsonPatchOperation) :=
  some (if current.spec = modified.spec then [] else [⟨.replace, "/spec/public_key"⟩])

def childSpec (name : String) : Specification where
  asHub := false
  asCluster := true
  cidr := ""
  podName := "cnf-" ++ name
  endpoint := ""
  clusterID := name

/-- The hub's controller with two peers that have applied their configurations. -/
def twoEmptyPeers : InterClusterTunnelController :=
  { newInter with
    peers := ((∅ : GoMap String Peer).insert "c1" (childPeer "c1" [""] "old")).insert "c2"
      (childPeer "c2" [""] "new") }

theorem twoEmptyPeers_named : Named twoEmptyPeers := by
  intro n q hq
  simp only [twoEmptyPeers, GoMap.lookup_insert_eq] at hq
  split_ifs at hq with h₁ h₂
  · rw [← Option.some_inj.mp hq, h₁]; rfl
  · rw [← Option.some_inj.mp hq, h₂]; rfl
  · cases hq

/-- The hub's controller after it has handled a peer, its lister in sync. -/
def hubSynced (c : InterClusterTunnelController) (name : String) : InterClusterTunnelController :=
  hubHandled { c with peerLister := c.peers } name (hubEnv none)

/-- The child restarts and applies its peer with a new key. -/
def restarted (c : InterClusterTunnelController) (name : String) (key : Key) :
    InterClusterTunnelController :=
  { c with peers := (ApplyPeerConfig specPatch (childSpec name) key c.peers ⟨none, none, none⟩).1 }

theorem assigns_hubSynced {c : InterClusterTunnelController} {name s : String}
    (hok : (Handle sampleKey hubSpec { c with peerLister := c.peers } name (hubEnv none)).isOk = true)
    (hempty : (c.peers.lookup name).map Peer.cidr = some "")
    (hs : ((hubSynced c name).peers.lookup name).map (·.spec.podCIDR) = some [s]) (hne : s ≠ "") :
    Assigns sampleKey hubSpec specPatch c name (hubEnv none) (hubSynced c name) s := by
  obtain ⟨p, hp, hpe⟩ := Option.map_eq_some_iff.mp hempty
  obtain ⟨q, hq, hqs⟩ := Option.map_eq_some_iff.mp hs
  exact ⟨⟨rfl, _, Go.eq_ok_getD hok ({ c with peerLister := c.peers }, .done)⟩, ⟨p, hp, hpe⟩, q, hq,
    hqs, hne⟩

/-- The hub gives blocks to both children, one after the other. -/
theorem assigned_blocks_apart_two :
    ∃ c₂ c₄, Assigns sampleKey hubSpec specPatch twoEmptyPeers "c1" (hubEnv none) c₂ "20.112.0.0/16" ∧
      Assigns sampleKey hubSpec specPatch c₂ "c2" (hubEnv none) c₄ "20.113.0.0/16" ∧
      Apart "20.112.0.0/16" "20.113.0.0/16" := by
  have h₁ : Assigns sampleKey hubSpec specPatch twoEmptyPeers "c1" (hubEnv none)
      (hubSynced twoEmptyPeers "c1") "20.112.0.0/16" :=
    assigns_hubSynced (by decide +kernel) (by decide +kernel) (by decide +kernel) (by decide)
  have h₂ : Assigns sampleKey hubSpec specPatch (hubSynced twoEmptyPeers "c1") "c2" (hubEnv none)
      (hubSynced (hubSynced twoEmptyPeers "c1") "c2") "20.113.0.0/16" :=
    assigns_hubSynced (by decide +kernel) (by decide +kernel) (by decide +kernel) (by decide)
  exact ⟨_, _, h₁, h₂, assigned_blocks_apart rfl twoEmptyPeers_named (by decide) h₁ (.nil _)
    (by simp) h₂⟩

/-- The first child gets a block and restarts: its peer is applied without the
block, which the hub then gives to the second child. -/
theorem block_assigned_twice_after_restart :
    ∃ c₂ c₃ c₄, Assigns sampleKey hubSpec specPatch twoEmptyPeers "c1" (hubEnv none) c₂ "20.112.0.0/16" ∧
      Runs (peerStep sampleKey hubSpec specPatch) c₂ [.apply (childSpec "c1") 3] c₃ ∧
      Assigns sampleKey hubSpec specPatch c₃ "c2" (hubEnv none) c₄ "20.112.0.0/16" ∧
      (c₄.peers.lookup "c1").isSome ∧ ¬ Apart "20.112.0.0/16" "20.112.0.0/16" := by
  refine ⟨hubSynced twoEmptyPeers "c1", restarted (hubSynced twoEmptyPeers "c1") "c1" 3,
    hubSynced (restarted (hubSynced twoEmptyPeers "c1") "c1" 3) "c2",
    assigns_hubSynced (by decide +kernel) (by decide +kernel) (by decide +kernel) (by decide),
    .single ⟨rfl, by decide, rfl⟩,
    assigns_hubSynced (by decide +kernel) (by decide +kernel) (by decide +kernel) (by decide),
    by decide +kernel, fun h => ?_⟩
  have hs : parseCIDR "20.112.0.0/16" = .ok (0x14700000#32, ⟨0x14700000#32, 16, by decide⟩) := by
    decide
  exact h _ _ _ _ hs hs (by decide)

end Fleetboard.Tunnel
