import Fleetboard.Framework.Runs
import Fleetboard.Model.InterTunnel
import Fleetboard.Proof.NetUtil
import Fleetboard.Proof.Wireguard

/-!
# The inter-cluster tunnels and the device

`interConnections` serves as a memory of what the device has been told: a call
of `AddInterClusterTunnel` that finds its own key there does nothing. A run
therefore carries a history variable, `settled`: the clusters whose entry in the
table was configured on the device, and whose key has neither been removed nor
configured for another cluster since.

* `SettledOnDevice`: what a settled cluster's entry says is on the device.
* `AddInterClusterTunnel_onDevice`: in a run in which every call that finds its
  own key in the table finds a settled entry with the same subnets, a call that
  returns without an error has its peer on the device.
-/

namespace Fleetboard.Tunnel

open Fleetboard.Net Fleetboard.NetUtil

section

variable (parseKey : String → Except Error Key) (spec : Specification)

/-! ## Runs of the tunnel calls -/

/-- The controller, and the settled clusters. -/
structure Tracked where
  c : InterClusterTunnelController
  settled : Finset String

inductive InterCall
  | add (p : Peer) (env : AddEnv)
  | recycle (p : Peer) (removeErr : Option Error) (route : RouteEnv)
  | recycleAll (order : RangeOrder ((_ : String) × Peer))
      (env : String → Option Error × RouteEnv)

/-- Clusters are not settled any more whose key leaves the device, or is
configured for another cluster. -/
def unsettle (w : Wireguard) (k : Option Key) (err : Option Error) (settled : Finset String) :
    Finset String :=
  if err = none then settled.filter fun id => k = none ∨ w.interKey parseKey id ≠ k else settled

/-- The settled clusters after `AddInterClusterTunnel`. -/
def settledAdd (w : Wireguard) (p : Peer) (env : AddEnv) (settled : Finset String) :
    Finset String :=
  if spec.clusterID = p.spec.clusterID ∨ p.key parseKey = none ∨
      w.interKey parseKey p.spec.clusterID = p.key parseKey then settled
  else
    let kept := (unsettle parseKey w (p.key parseKey) env.configureErr
      (unsettle parseKey w (w.interKey parseKey p.spec.clusterID) env.removeErr settled)).erase
      p.spec.clusterID
    if env.configureErr = none then insert p.spec.clusterID kept else kept

/-- One call, and what it does to the settled clusters. -/
def interStep (s : Tracked) (call : InterCall) (s' : Tracked) : Prop :=
  match call with
  | .add p env =>
    s'.c = { s.c with tunnel := (s.c.tunnel.AddInterClusterTunnel parseKey spec p env).1 } ∧
      s'.settled = settledAdd parseKey spec s.c.tunnel p env s.settled
  | .recycle p removeErr route =>
    (∃ r, s.c.RecyclePeer parseKey (some p) removeErr route = .ok (s'.c, r)) ∧
      s'.settled = unsettle parseKey s.c.tunnel (p.key parseKey) removeErr s.settled
  | .recycleAll order env =>
    s.c.RecycleAllResources parseKey order env = .ok s'.c ∧
      s'.settled = (order.visit s.c.tunnel.interConnections.entries).foldl
        (fun settled e =>
          unsettle parseKey s.c.tunnel (e.2.key parseKey) (env e.1).1 settled) s.settled

/-- A call that finds its own key in the table finds a settled entry with the
same subnets. -/
def FindsSettled (s : Tracked) : InterCall → Prop
  | .add p _ => spec.clusterID ≠ p.spec.clusterID → ∀ q, p.key parseKey ≠ none →
    s.c.tunnel.interConnections.lookup p.spec.clusterID = some q →
    q.key parseKey = p.key parseKey → p.spec.clusterID ∈ s.settled ∧
      (parseSubnets q.spec.podCIDR).toFinset = (parseSubnets p.spec.podCIDR).toFinset
  | _ => True

/-- The device has a peer with `p`'s key and exactly `p`'s subnets. -/
def OnDevice (w : Wireguard) (p : Peer) : Prop :=
  ∃ k dp, p.key parseKey = some k ∧ w.device.lookup k = some dp ∧
    dp.allowedIPs = (parseSubnets p.spec.podCIDR).toFinset

/-- The peers of different clusters have no address in common. -/
def DisjointCIDRs (calls : List InterCall) : Prop :=
  ∀ p env q env', .add p env ∈ calls → .add q env' ∈ calls →
    p.spec.clusterID ≠ q.spec.clusterID →
    ∀ m ∈ parseSubnets p.spec.podCIDR, ∀ n ∈ parseSubnets q.spec.podCIDR, ¬ m.Meets n

/-- The table's entries come from the calls, each under its cluster, and those of
the settled clusters are on the device. -/
structure SettledOnDevice (calls : List InterCall) (s : Tracked) : Prop where
  table : ∀ id q, s.c.tunnel.interConnections.lookup id = some q →
    q.spec.clusterID = id ∧ ∃ env, .add q env ∈ calls
  settled : ∀ id ∈ s.settled, ∃ q, s.c.tunnel.interConnections.lookup id = some q ∧
    OnDevice parseKey s.c.tunnel q

variable {parseKey spec} {calls : List InterCall} {s s' : Tracked}

theorem meets_self (n : IPNet) : n.Meets n := ⟨n.ip, by simp [IPNet.contains], by simp [IPNet.contains]⟩

theorem DisjointCIDRs.disjoint (hd : DisjointCIDRs calls) {p q : Peer} {env env' : AddEnv}
    (hp : .add p env ∈ calls) (hq : .add q env' ∈ calls)
    (hne : p.spec.clusterID ≠ q.spec.clusterID) :
    Disjoint (parseSubnets p.spec.podCIDR).toFinset (parseSubnets q.spec.podCIDR).toFinset := by
  rw [Finset.disjoint_left]
  intro n hn hn'
  rw [List.mem_toFinset] at hn hn'
  exact hd p env q env' hp hq hne n hn n hn' (meets_self n)

theorem mem_unsettle {w : Wireguard} {k : Option Key} {err : Option Error} {settled : Finset String}
    {id : String} : id ∈ unsettle parseKey w k err settled ↔
      id ∈ settled ∧ (err = none → k = none ∨ w.interKey parseKey id ≠ k) := by
  unfold unsettle
  by_cases h : err = none
  · rw [if_pos h, Finset.mem_filter]
    simp [h]
  · rw [if_neg h]
    simp [h]

theorem interKey_of_lookup (parseKey : String → Except Error Key) {w : Wireguard} {id : String} {q : Peer}
    (h : w.interConnections.lookup id = some q) : w.interKey parseKey id = q.key parseKey := by
  rw [Wireguard.interKey, h]
  rfl

/-- A peer stays on the device when another key leaves it. -/
theorem OnDevice.withoutKey {w w' : Wireguard} {q : Peer} (h : OnDevice parseKey w q)
    {old : Option Key} {err : Option Error} (hw : w'.device = w.device.withoutKey old err)
    (hne : err = none → old = none ∨ q.key parseKey ≠ old) : OnDevice parseKey w' q := by
  obtain ⟨k, dp, hk, hdp, hips⟩ := h
  refine ⟨k, dp, hk, ?_, hips⟩
  rw [hw, Device.lookup_withoutKey, if_neg, hdp]
  rintro ⟨rfl, herr⟩
  rcases hne herr with h | h
  · simp at h
  · exact h hk

/-- A peer stays on the device when another key is configured with disjoint
subnets. -/
theorem OnDevice.configured {w w' : Wireguard} {q : Peer} (h : OnDevice parseKey w q) {k : Key}
    {ep : Option (IP × Nat)} {ips : List IPNet} {err : Option Error}
    (hw : w'.device = w.device.configured (addConfig k ep ips) err)
    (hne : err = none → q.key parseKey ≠ some k)
    (hips : Disjoint (parseSubnets q.spec.podCIDR).toFinset ips.toFinset) :
    OnDevice parseKey w' q := by
  obtain ⟨k', dp, hk', hdp, hdpips⟩ := h
  refine ⟨k', dp, hk', ?_, hdpips⟩
  rw [hw]
  cases err with
  | some e => exact hdp
  | none =>
    obtain ⟨ep', hl⟩ := Device.lookup_apply_add w.device k k' ep ips
    rw [Device.configured, hl, if_neg fun he => hne rfl (by rw [hk', he]), hdp, Option.map_some,
      DevicePeer.losing_eq (hdpips ▸ hips)]

/-- What `AddInterClusterTunnel` does, by what it finds: its own cluster, no key
or its own key in the table, and it leaves all as it is; or it replaces the
entry of its cluster. -/
theorem AddInterClusterTunnel_cases (parseKey : String → Except Error Key) (spec : Specification)
    (w : Wireguard) (p : Peer) (env : AddEnv) :
    (w.AddInterClusterTunnel parseKey spec p env).1 = w ∧
        (spec.clusterID = p.spec.clusterID ∨ p.key parseKey = none ∨
          w.interKey parseKey p.spec.clusterID = p.key parseKey) ∨
      spec.clusterID ≠ p.spec.clusterID ∧ ∃ k table, p.key parseKey = some k ∧
        w.interKey parseKey p.spec.clusterID ≠ some k ∧
        (∀ id, table.lookup id =
          if id = p.spec.clusterID then some p else w.interConnections.lookup id) ∧
        w.AddInterClusterTunnel parseKey spec p env = (w.interAdded parseKey p k env table,
          wrap "failed to configure peer" env.configureErr) := by
  by_cases hself : spec.clusterID = p.spec.clusterID
  · exact .inl ⟨by rw [AddInterClusterTunnel_self hself], .inl hself⟩
  cases hk : p.key parseKey with
  | none =>
    obtain ⟨e, he⟩ : ∃ e, w.AddInterClusterTunnel parseKey spec p env = (w, some e) :=
      AddInterClusterTunnel_badKey hself hk
    exact .inl ⟨by rw [he], .inr (.inl rfl)⟩
  | some k =>
    by_cases hold : w.interKey parseKey p.spec.clusterID = some k
    · exact .inl ⟨by rw [AddInterClusterTunnel_skip hself hk hold], .inr (.inr hold)⟩
    · obtain ⟨table, ht, hadd⟩ := AddInterClusterTunnel_add hself hk hold
      exact .inr ⟨hself, k, table, rfl, hold, ht, hadd⟩

/-- The entry of another cluster that stays settled stays on the device. -/
theorem OnDevice.interAdded {w : Wireguard} {p q : Peer} (h : OnDevice parseKey w q) {k : Key}
    {env : AddEnv} {table : GoMap String Peer}
    (hremove : env.removeErr = none → w.interKey parseKey p.spec.clusterID = none ∨
      q.key parseKey ≠ w.interKey parseKey p.spec.clusterID)
    (hconfigure : env.configureErr = none → q.key parseKey ≠ some k)
    (hips : Disjoint (parseSubnets q.spec.podCIDR).toFinset
      (parseSubnets p.spec.podCIDR).toFinset) :
    OnDevice parseKey (w.interAdded parseKey p k env table) q := by
  have hmid : OnDevice parseKey { w with
      device := w.device.withoutKey (w.interKey parseKey p.spec.clusterID) env.removeErr } q :=
    h.withoutKey rfl hremove
  exact hmid.configured rfl hconfigure hips

theorem SettledOnDevice.add (hd : DisjointCIDRs calls) (h : SettledOnDevice parseKey calls s)
    {p : Peer} {env : AddEnv} (hp : .add p env ∈ calls)
    (hs : interStep parseKey spec s (.add p env) s') : SettledOnDevice parseKey calls s' := by
  obtain ⟨hc, hsettled⟩ := hs
  rcases AddInterClusterTunnel_cases parseKey spec s.c.tunnel p env with
    ⟨hw, hskip⟩ | ⟨hself, k, table, hk, hold, ht, hadd⟩
  · rw [settledAdd, if_pos hskip] at hsettled
    rw [hw] at hc
    refine ⟨?_, ?_⟩
    · rw [hc]; exact h.table
    · rw [hc, hsettled]; exact h.settled
  have hskip : ¬ (spec.clusterID = p.spec.clusterID ∨ p.key parseKey = none ∨
      s.c.tunnel.interKey parseKey p.spec.clusterID = p.key parseKey) := by
    rw [hk]
    rintro (h | h | h)
    · exact hself h
    · cases h
    · exact hold h
  rw [settledAdd, if_neg hskip] at hsettled
  rw [hadd] at hc
  have htable : ∀ id, s'.c.tunnel.interConnections.lookup id =
      if id = p.spec.clusterID then some p else s.c.tunnel.interConnections.lookup id := by
    rw [hc]; exact ht
  refine ⟨fun id q hq => ?_, fun id hid => ?_⟩
  · rw [htable] at hq
    by_cases hid : id = p.spec.clusterID
    · rw [if_pos hid] at hq
      obtain rfl := Option.some_inj.mp hq
      exact ⟨hid.symm, env, hp⟩
    · rw [if_neg hid] at hq
      exact h.table id q hq
  · rw [htable]
    by_cases hid' : id = p.spec.clusterID
    · refine ⟨p, if_pos hid', ?_⟩
      have hok : env.configureErr = none := by
        by_contra hne
        rw [hsettled, if_neg hne, hid'] at hid
        exact absurd hid (Finset.notMem_erase _ _)
      obtain ⟨ep', hl⟩ := Device.lookup_apply_add (s.c.tunnel.device.withoutKey
        (s.c.tunnel.interKey parseKey p.spec.clusterID) env.removeErr) k k
        ((ParseIP p.spec.endpoint).map (·, p.spec.port)) (parseSubnets p.spec.podCIDR)
      rw [if_pos rfl] at hl
      refine ⟨k, ⟨ep', some 10, _⟩, hk, ?_, rfl⟩
      rw [hc]
      simp only [Wireguard.interAdded, hok, Device.configured]
      exact hl
    · -- The cluster was settled, and neither key of this call is its own.
      have hkept : id ∈ unsettle parseKey s.c.tunnel (p.key parseKey) env.configureErr
          (unsettle parseKey s.c.tunnel (s.c.tunnel.interKey parseKey p.spec.clusterID)
            env.removeErr s.settled) := by
        rw [hsettled] at hid
        by_cases hok : env.configureErr = none
        · rw [if_pos hok] at hid
          exact Finset.mem_of_mem_erase (Finset.mem_of_mem_insert_of_ne hid hid')
        · rw [if_neg hok] at hid
          exact Finset.mem_of_mem_erase hid
      rw [mem_unsettle, mem_unsettle, hk] at hkept
      obtain ⟨⟨hset, hremove⟩, hconfigure⟩ := hkept
      obtain ⟨q, hq, hon⟩ := h.settled id hset
      obtain ⟨hqid, env', hqmem⟩ := h.table id q hq
      have hqk := interKey_of_lookup parseKey hq
      refine ⟨q, (if_neg hid').trans hq, ?_⟩
      rw [hc]
      refine hon.interAdded (fun he => ?_) (fun he => ?_) ?_
      · rw [← hqk]; exact hremove he
      · rw [← hqk]; exact (hconfigure he).resolve_left (Option.some_ne_none k)
      · exact hd.disjoint hqmem hp (hqid.trans_ne hid')

/-- `RecyclePeer` removes the key from the device and leaves the table, the lister
and the stored peers. -/
theorem RecyclePeer_frame {c c' : InterClusterTunnelController} {p : Peer}
    {removeErr : Option Error} {route : RouteEnv} {r : HandleResult}
    (h : c.RecyclePeer parseKey (some p) removeErr route = .ok (c', r)) :
    c' = { c with
      tunnel := { c.tunnel with device := c.tunnel.device.withoutKey (p.key parseKey) removeErr }
      routes := c'.routes } := by
  simp only [InterClusterTunnelController.RecyclePeer, Go.deref, bind, Except.bind] at h
  rw [Peer.key]
  cases hk : parseKey p.spec.publicKey with
  | error e =>
    simp only [hk, pure, Except.pure, Except.ok.injEq, Prod.mk.injEq] at h
    rw [← h.1]
    rfl
  | ok k =>
    simp only [hk, Wireguard.RemoveInterClusterTunnel, Wireguard.removeTunnel_eq] at h
    cases removeErr with
    | some e =>
      simp only [wrap, Option.map_some, pure, Except.pure, Except.ok.injEq, Prod.mk.injEq] at h
      rw [← h.1]
      rfl
    | none =>
      simp only [wrap, Option.map_none] at h
      generalize configHostRoutingRules c.routes p.spec.podCIDR .delete route = res at h
      obtain ⟨routes, err⟩ := res
      cases err with
      | none =>
        simp only [pure, Except.pure, Except.ok.injEq, Prod.mk.injEq] at h
        rw [← h.1]
        rfl
      | some e =>
        simp only [pure, Except.pure, Except.ok.injEq, Prod.mk.injEq] at h
        rw [← h.1]
        rfl

theorem SettledOnDevice.recycle (h : SettledOnDevice parseKey calls s) {p : Peer}
    {removeErr : Option Error} {route : RouteEnv}
    (hs : interStep parseKey spec s (.recycle p removeErr route) s') :
    SettledOnDevice parseKey calls s' ∧
      s'.c.tunnel.interConnections = s.c.tunnel.interConnections := by
  obtain ⟨⟨r, hr⟩, hsettled⟩ := hs
  have hw := congrArg InterClusterTunnelController.tunnel (RecyclePeer_frame hr)
  refine ⟨⟨?_, fun id hid => ?_⟩, by rw [hw]⟩
  · rw [hw]; exact h.table
  · rw [hsettled, mem_unsettle] at hid
    obtain ⟨q, hq, hon⟩ := h.settled id hid.1
    refine ⟨q, by rw [hw]; exact hq, ?_⟩
    rw [hw]
    refine hon.withoutKey rfl fun he => ?_
    rw [← interKey_of_lookup parseKey hq]
    exact hid.2 he

/-- `RecycleAllResources` is a run of `RecyclePeer`. -/
theorem recycleAll_runs {env : String → Option Error × RouteEnv} {entries : List ((_ : String) × Peer)}
    {c c' : InterClusterTunnelController} (spec : Specification) (settled : Finset String)
    (h : entries.foldlM (fun c e => do
      let (c, _) ← c.RecyclePeer parseKey (some e.2) (env e.1).1 (env e.1).2
      pure c) c = (.ok c' : Go _)) :
    Runs (interStep parseKey spec) ⟨c, settled⟩
      (entries.map fun e => .recycle e.2 (env e.1).1 (env e.1).2)
      ⟨c', entries.foldl (fun settled e =>
        unsettle parseKey c.tunnel (e.2.key parseKey) (env e.1).1 settled) settled⟩ := by
  induction entries generalizing c settled with
  | nil =>
    cases h
    exact .nil _
  | cons e entries ih =>
    rw [List.foldlM_cons] at h
    obtain ⟨c₁, h₁, h⟩ := Go.bind_eq_ok.mp h
    obtain ⟨⟨c₂, r⟩, hr, h₂⟩ := Go.bind_eq_ok.mp h₁
    obtain rfl : c₂ = c₁ := Except.ok.inj h₂
    have hkey : ∀ k err settled, unsettle parseKey c₂.tunnel k err settled =
        unsettle parseKey c.tunnel k err settled := by
      intro k err settled
      rw [RecyclePeer_frame hr]
      rfl
    have hrest := ih (unsettle parseKey c.tunnel (e.2.key parseKey) (env e.1).1 settled) h
    simp only [hkey] at hrest
    exact .cons ⟨⟨r, hr⟩, rfl⟩ hrest

theorem SettledOnDevice.step (hd : DisjointCIDRs calls) (h : SettledOnDevice parseKey calls s)
    {call : InterCall} (hcall : call ∈ calls) (hs : interStep parseKey spec s call s') :
    SettledOnDevice parseKey calls s' := by
  cases call with
  | add p env => exact h.add hd hcall hs
  | recycle p removeErr route => exact (h.recycle hs).1
  | recycleAll order env =>
    obtain ⟨hc, hsettled⟩ := hs
    have hrun := recycleAll_runs spec s.settled hc
    rw [← hsettled] at hrun
    refine hrun.invariant_mem (I := SettledOnDevice parseKey calls)
      (P := fun call => ∃ p err route, call = .recycle p err route) ?_ (fun call hmem => ?_) h
    · rintro t call t' ⟨p, err, route, rfl⟩ ht hstep
      exact (ht.recycle hstep).1
    · obtain ⟨e, -, rfl⟩ := List.mem_map.mp hmem
      exact ⟨_, _, _, rfl⟩

/-- In a run from a new device in which every call that finds its own key in the
table finds a settled entry with the same subnets, a call for another cluster
that returns without an error has its peer on the device, with exactly its
subnets. -/
theorem AddInterClusterTunnel_onDevice {p : Peer} {env : AddEnv} {w : Wireguard}
    (hnew : s.c.tunnel = NewTunnel) (hempty : s.settled = ∅)
    (hd : DisjointCIDRs (calls ++ [.add p env]))
    (hrun : Runs (Guarded (interStep parseKey spec) (FindsSettled parseKey spec)) s calls s')
    (hfinds : FindsSettled parseKey spec s' (.add p env))
    (hother : p.spec.clusterID ≠ spec.clusterID)
    (hok : s'.c.tunnel.AddInterClusterTunnel parseKey spec p env = (w, none)) :
    OnDevice parseKey w p := by
  have hinit : SettledOnDevice parseKey (calls ++ [.add p env]) s := by
    refine ⟨fun id q hq => ?_, fun id hid => ?_⟩
    · rw [hnew] at hq; cases hq
    · rw [hempty] at hid; cases hid
  have h : SettledOnDevice parseKey (calls ++ [.add p env]) s' :=
    hrun.invariant_mem (P := (· ∈ calls))
      (fun hcall h hs => h.step hd (List.mem_append_left _ hcall) hs.1) (fun _ h => h) hinit
  have hstep : SettledOnDevice parseKey (calls ++ [.add p env])
      ⟨{ s'.c with tunnel := w }, settledAdd parseKey spec s'.c.tunnel p env s'.settled⟩ :=
    h.step hd (List.mem_append_right _ List.mem_cons_self) ⟨by rw [hok], rfl⟩
  have hkey : p.key parseKey ≠ none := by
    intro hnone
    obtain ⟨e, he⟩ : ∃ e, s'.c.tunnel.AddInterClusterTunnel parseKey spec p env =
      (s'.c.tunnel, some e) := AddInterClusterTunnel_badKey (Ne.symm hother) hnone
    rw [he] at hok
    cases hok
  rcases AddInterClusterTunnel_cases parseKey spec s'.c.tunnel p env with
    ⟨hw, hself | hnone | hold⟩ | ⟨-, k, table, hk, hne, ht, hadd⟩
  · exact absurd hself.symm hother
  · exact absurd hnone hkey
  · -- The call finds its own key, and the entry that it finds is on the device.
    obtain ⟨q, hq⟩ : ∃ q, s'.c.tunnel.interConnections.lookup p.spec.clusterID = some q := by
      cases hq : s'.c.tunnel.interConnections.lookup p.spec.clusterID with
      | none => rw [Wireguard.interKey, hq] at hold; exact absurd hold.symm hkey
      | some q => exact ⟨q, rfl⟩
    have hqk : q.key parseKey = p.key parseKey := (interKey_of_lookup parseKey hq).symm.trans hold
    obtain ⟨hset, hips⟩ := hfinds (Ne.symm hother) q hkey hq hqk
    obtain ⟨q', hq', k, dp, hk, hdp, hdpips⟩ := h.settled _ hset
    obtain rfl : q = q' := Option.some_inj.mp (hq.symm.trans hq')
    rw [hok] at hw
    exact ⟨k, dp, hqk ▸ hk, by rw [show w = s'.c.tunnel from hw]; exact hdp, hdpips.trans hips⟩
  · -- The call has configured the device.
    rw [hadd] at hok
    obtain ⟨rfl, herr⟩ := Prod.mk.inj hok
    have hskip : ¬ (spec.clusterID = p.spec.clusterID ∨ p.key parseKey = none ∨
        s'.c.tunnel.interKey parseKey p.spec.clusterID = p.key parseKey) := by
      rw [hk]
      rintro (h | h | h)
      · exact hother h.symm
      · cases h
      · exact hne h
    have hmem : p.spec.clusterID ∈ settledAdd parseKey spec s'.c.tunnel p env s'.settled := by
      rw [settledAdd, if_neg hskip, if_pos (wrap_eq_none.mp herr)]
      exact Finset.mem_insert_self _ _
    obtain ⟨q, hq, hon⟩ := hstep.settled _ hmem
    have hp : table.lookup p.spec.clusterID = some p := by rw [ht, if_pos rfl]
    obtain rfl : p = q := Option.some_inj.mp (hp.symm.trans hq)
    exact hon

end

/-! The hub and one child cluster. -/

def hubSpec : Specification where
  asHub := true
  asCluster := false
  cidr := "20.112.0.0/12"
  podName := "cnf-hub"
  endpoint := "192.0.2.1"
  clusterID := "hub"

def childPeer (name : String) (podCIDR : List String) (key : String) : Peer where
  name := name
  deletionTimestamp := false
  spec :=
    { clusterID := name
      podCIDR := podCIDR
      endpoint := ""
      port := Known.UDPPort
      publicKey := key
      isHub := false
      isPublic := false }

/-- The controller with a new device and no peers. -/
def newInter : InterClusterTunnelController where
  tunnel := NewTunnel
  routes := ∅
  peerLister := ∅
  peers := ∅
  pods := ∅

def oneChild : Peer := childPeer "c1" ["20.112.0.0/16"] "old"

theorem disjointCIDRs_oneChild (env env' : AddEnv) :
    DisjointCIDRs [.add oneChild env, .add oneChild env'] := by
  intro p e q e' hp hq hne
  simp only [List.mem_cons, InterCall.add.injEq, List.not_mem_nil, or_false] at hp hq
  obtain rfl : p = oneChild := by rcases hp with h | h <;> exact h.1
  obtain rfl : q = oneChild := by rcases hq with h | h <;> exact h.1
  exact absurd rfl hne

/-- The peer is added twice without an error: the second call finds it settled. -/
theorem AddInterClusterTunnel_onDevice_again :
    OnDevice sampleKey
      ((NewTunnel.AddInterClusterTunnel sampleKey hubSpec oneChild ⟨none, none⟩).1.AddInterClusterTunnel
        sampleKey hubSpec oneChild ⟨none, none⟩).1 oneChild := by
  have hstep : interStep sampleKey hubSpec ⟨newInter, ∅⟩ (.add oneChild ⟨none, none⟩)
      ⟨{ newInter with tunnel :=
          (NewTunnel.AddInterClusterTunnel sampleKey hubSpec oneChild ⟨none, none⟩).1 },
        settledAdd sampleKey hubSpec NewTunnel oneChild ⟨none, none⟩ ∅⟩ := ⟨rfl, rfl⟩
  refine AddInterClusterTunnel_onDevice (s := ⟨newInter, ∅⟩) rfl rfl
    (disjointCIDRs_oneChild ⟨none, none⟩ ⟨none, none⟩) (.single ⟨hstep, ?_⟩) ?_ (by decide) rfl
  · intro _ q _ hq
    cases hq
  · intro _ q _ hq _
    have hq' : some oneChild = some q := hq
    obtain rfl := Option.some_inj.mp hq'
    exact ⟨by decide +kernel, rfl⟩

/-- The first call fails at the device and leaves its entry in the table; the
second one finds it, does nothing and returns without an error. -/
theorem AddInterClusterTunnel_skips_failed_peer :
    DisjointCIDRs [.add oneChild ⟨none, some "netlink: busy"⟩, .add oneChild ⟨none, none⟩] ∧
    ∃ s' w, Runs (interStep sampleKey hubSpec) ⟨newInter, ∅⟩
        [.add oneChild ⟨none, some "netlink: busy"⟩] s' ∧
      oneChild.spec.clusterID ≠ hubSpec.clusterID ∧
      s'.c.tunnel.AddInterClusterTunnel sampleKey hubSpec oneChild ⟨none, none⟩ = (w, none) ∧
      ¬ OnDevice sampleKey w oneChild := by
  refine ⟨disjointCIDRs_oneChild _ _, ⟨{ newInter with tunnel :=
    (NewTunnel.AddInterClusterTunnel sampleKey hubSpec oneChild ⟨none, some "netlink: busy"⟩).1 },
    _⟩, _, .single ⟨rfl, rfl⟩, by decide, rfl, ?_⟩
  rintro ⟨k, dp, -, hdp, -⟩
  cases hdp

end Fleetboard.Tunnel
