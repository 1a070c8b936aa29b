import Fleetboard.Model.Wireguard
import Fleetboard.Proof.Net

/-!
# The tunnels' tables and the device

What one call leaves in the tables and on the device, by lookups.

* `Key.string_injective`: comparing the texts of two keys compares the keys.
* `Device.lookup_apply_remove`, `Device.lookup_apply_add`: the kernel's side.
* `AddInterClusterTunnel_skip`, `AddInterClusterTunnel_add`, and the same for
  `AddInnerClusterTunnel`: a call finds its own key in the table and does
  nothing, or it replaces the table's entry and configures the device.
-/

namespace Fleetboard.Tunnel

open Fleetboard.Net

/-! ## Keys -/

theorem base64Digit_injective : ∀ m < 64, ∀ n < 64, base64Digit m = base64Digit n → m = n := by
  decide +kernel

theorem mod_pow_eq_of_digits {b m n : Nat} (k : Nat)
    (h : ∀ i < k, m / b ^ i % b = n / b ^ i % b) : m % b ^ k = n % b ^ k := by
  induction k with
  | zero => simp [Nat.mod_one]
  | succ k ih =>
    rw [Nat.mod_pow_succ, Nat.mod_pow_succ, h k (by omega), ih fun i hi => h i (by omega)]

theorem Key.string_injective {k k' : Key} (h : k.string = k'.string) : k = k' := by
  have hd := List.append_cancel_right (String.ofList_injective h)
  have hdig : ∀ i < 43, k.toNat * 4 / 64 ^ i % 64 = k'.toNat * 4 / 64 ^ i % 64 := by
    intro i hi
    have := List.map_inj_left.mp hd (42 - i) (List.mem_range.mpr (by omega))
    have := base64Digit_injective _ (Nat.mod_lt _ (by decide)) _ (Nat.mod_lt _ (by decide)) this
    rwa [show 42 - (42 - i) = i by omega] at this
  have hm := mod_pow_eq_of_digits 43 hdig
  have hk := k.isLt
  have hk' := k'.isLt
  rw [Nat.mod_eq_of_lt (by omega), Nat.mod_eq_of_lt (by omega)] at hm
  exact BitVec.eq_of_toNat_eq (by omega)

theorem Key.string_eq_iff {k k' : Key} : k.string = k'.string ↔ k = k' :=
  ⟨Key.string_injective, fun h => h ▸ rfl⟩

/-! ## The device -/

theorem Device.lookup_apply_remove (d : Device) (k k' : Key) :
    (d.apply (removeConfig k)).lookup k' = if k' = k then none else d.lookup k' := by
  simp only [Device.apply, removeConfig, if_true]
  exact GoMap.lookup_erase_eq d k k'

/-- A peer of the device after some subnets have been given to another one. -/
def DevicePeer.losing (p : DevicePeer) (ips : List IPNet) : DevicePeer :=
  { p with allowedIPs := p.allowedIPs \ ips.toFinset }

theorem DevicePeer.losing_eq {p : DevicePeer} {ips : List IPNet}
    (h : Disjoint p.allowedIPs ips.toFinset) : p.losing ips = p := by
  rw [losing, Finset.sdiff_eq_self_of_disjoint h]

/-- A peer configured with `ReplaceAllowedIPs` has the given subnets and no
other; the other peers lose them. -/
theorem Device.lookup_apply_add (d : Device) (k k' : Key) (ep : Option (IP × Nat))
    (ips : List IPNet) :
    ∃ ep', (d.apply (addConfig k ep ips)).lookup k' =
      if k' = k then some ⟨ep', some 10, ips.toFinset⟩ else (d.lookup k').map (·.losing ips) := by
  refine ⟨ep.orElse fun _ => (d.lookup k).bind (·.endpoint), ?_⟩
  simp only [Device.apply, addConfig, Bool.false_eq_true, if_false, if_true, Finset.empty_union]
  rw [GoMap.lookup_insert_eq]
  by_cases h : k' = k
  · simp only [h, if_true]
    rfl
  · simp only [h, if_false]
    exact GoMap.lookup_mapVals _ d k'

theorem Device.isSome_apply_add (d : Device) (k k' : Key) (ep : Option (IP × Nat))
    (ips : List IPNet) :
    ((d.apply (addConfig k ep ips)).lookup k').isSome ↔ k' = k ∨ (d.lookup k').isSome := by
  obtain ⟨ep', h⟩ := Device.lookup_apply_add d k k' ep ips
  rw [h]
  by_cases hk : k' = k <;> simp [hk]

/-- The device after an attempt to remove the peer of an old key, if there is
one. -/
def Device.withoutKey (d : Device) (old : Option Key) (err : Option Error) : Device :=
  match old, err with
  | some k, none => d.apply (removeConfig k)
  | _, _ => d

theorem Device.lookup_withoutKey (d : Device) (old : Option Key) (err : Option Error) (k : Key) :
    (d.withoutKey old err).lookup k = if old = some k ∧ err = none then none else d.lookup k := by
  cases old with
  | none => simp [withoutKey]
  | some o =>
    cases err with
    | some e => simp [withoutKey]
    | none => simp only [withoutKey, lookup_apply_remove, Option.some_inj, eq_comm, and_true]

/-- The device after an attempt to configure a peer. -/
def Device.configured (d : Device) (c : PeerConfig) (err : Option Error) : Device :=
  match err with
  | none => d.apply c
  | some _ => d

theorem Wireguard.configureDevice_eq (w : Wireguard) (c : PeerConfig) (err : Option Error) :
    w.configureDevice c err = ({ w with device := w.device.configured c err }, err) := by
  cases err <;> rfl

theorem Wireguard.removeTunnel_eq (msg : String) (w : Wireguard) (k : Key) (err : Option Error) :
    w.removeTunnel msg k err = ({ w with device := w.device.withoutKey (some k) err },
      wrap (msg ++ " with key " ++ k.string) err) := by
  cases err <;> rfl

theorem wrap_eq_none {msg : String} {err : Option Error} : wrap msg err = none ↔ err = none := by
  cases err <;> simp [wrap]

theorem lookup_insert_erase {V : Type*} (m : GoMap String V) (k k' : String) (v : V) :
    ((m.erase k).insert k v).lookup k' = if k' = k then some v else m.lookup k' := by
  rw [GoMap.lookup_insert_eq, GoMap.lookup_erase_eq]
  by_cases h : k' = k <;> simp [h]

section

variable (parseKey : String → Except Error Key)

/-! ## Tunnels between clusters -/

/-- The key of a peer, if it parses. -/
def Peer.key (p : Peer) : Option Key := (parseKey p.spec.publicKey).toOption

/-- The key that the table holds for a cluster. -/
def Wireguard.interKey (w : Wireguard) (clusterID : String) : Option Key :=
  (w.interConnections.lookup clusterID).bind (Peer.key parseKey)

variable {parseKey}

theorem Peer.key_eq_some {p : Peer} {k : Key} :
    p.key parseKey = some k ↔ parseKey p.spec.publicKey = .ok k := by
  rw [Peer.key]
  cases parseKey p.spec.publicKey <;> simp [Except.toOption]

variable {spec : Specification} {w : Wireguard} {p : Peer} {env : AddEnv} {k : Key}

theorem AddInterClusterTunnel_self (h : spec.clusterID = p.spec.clusterID) :
    w.AddInterClusterTunnel parseKey spec p env = (w, none) := by
  rw [Wireguard.AddInterClusterTunnel, if_pos h]

theorem AddInterClusterTunnel_badKey (h : spec.clusterID ≠ p.spec.clusterID)
    (hk : p.key parseKey = none) :
    ∃ e, w.AddInterClusterTunnel parseKey spec p env = (w, some e) := by
  rw [Peer.key] at hk
  rw [Wireguard.AddInterClusterTunnel, if_neg h]
  cases hp : parseKey p.spec.publicKey with
  | error e => exact ⟨_, rfl⟩
  | ok k => rw [hp] at hk; cases hk

/-- A call that finds its own key in the table does nothing. -/
theorem AddInterClusterTunnel_skip (h : spec.clusterID ≠ p.spec.clusterID)
    (hk : p.key parseKey = some k) (hw : w.interKey parseKey p.spec.clusterID = some k) :
    w.AddInterClusterTunnel parseKey spec p env = (w, none) := by
  obtain ⟨q, hq, hqk⟩ := Option.bind_eq_some_iff.mp hw
  rw [Peer.key_eq_some] at hk hqk
  simp only [Wireguard.AddInterClusterTunnel, if_neg h, hk, hq, hqk, if_true]

/-- The state after a call that does not find its own key in the table. -/
def Wireguard.interAdded (parseKey : String → Except Error Key) (w : Wireguard) (p : Peer)
    (k : Key) (env : AddEnv) (table : GoMap String Peer) : Wireguard where
  interConnections := table
  innerConnections := w.innerConnections
  device := (w.device.withoutKey (w.interKey parseKey p.spec.clusterID) env.removeErr).configured
    (addConfig k ((ParseIP p.spec.endpoint).map (·, p.spec.port))
      (parseSubnets p.spec.podCIDR)) env.configureErr

/-- A call that does not find its own key in the table replaces the entry of its
cluster, and configures the device. -/
theorem AddInterClusterTunnel_add (h : spec.clusterID ≠ p.spec.clusterID)
    (hk : p.key parseKey = some k) (hw : w.interKey parseKey p.spec.clusterID ≠ some k) :
    ∃ table, (∀ id, table.lookup id =
        if id = p.spec.clusterID then some p else w.interConnections.lookup id) ∧
      w.AddInterClusterTunnel parseKey spec p env =
        (w.interAdded parseKey p k env table, wrap "failed to configure peer" env.configureErr) := by
  rw [Peer.key_eq_some] at hk
  simp only [Wireguard.AddInterClusterTunnel, if_neg h, hk, Wireguard.configureDevice_eq,
    Wireguard.RemoveInterClusterTunnel, Wireguard.removeTunnel_eq]
  cases hq : w.interConnections.lookup p.spec.clusterID with
  | none =>
    refine ⟨w.interConnections.insert p.spec.clusterID p, fun id => GoMap.lookup_insert_eq .., ?_⟩
    have hw' : w.interKey parseKey p.spec.clusterID = none := by rw [Wireguard.interKey, hq]; rfl
    rw [Wireguard.interAdded, hw']
    rfl
  | some q =>
    refine ⟨(w.interConnections.erase p.spec.clusterID).insert p.spec.clusterID p,
      fun id => lookup_insert_erase .., ?_⟩
    have hw' : w.interKey parseKey p.spec.clusterID = q.key parseKey := by
      rw [Wireguard.interKey, hq]; rfl
    rw [hw'] at hw
    rw [Wireguard.interAdded, hw']
    cases hqk : parseKey q.spec.publicKey with
    | error e =>
      rw [show q.key parseKey = none by rw [Peer.key, hqk]; rfl]
      simp only [hqk]
      rfl
    | ok old =>
      have hold := Peer.key_eq_some.mpr hqk
      rw [hold] at hw
      have hne : ¬ old.string = k.string := fun he => hw (by rw [Key.string_injective he])
      rw [hold]
      simp only [hqk, if_neg hne]

/-! ## Tunnels between the nodes of a cluster -/

/-- The first key of a configuration, if it parses. -/
def DaemonCNFTunnelConfig.firstKey (parseKey : String → Except Error Key)
    (config : DaemonCNFTunnelConfig) : Option Key :=
  config.publicKey.head?.bind fun s => (parseKey s).toOption

/-- The key that the table holds for a node. -/
def Wireguard.innerKey (parseKey : String → Except Error Key) (w : Wireguard) (nodeID : String) :
    Option Key :=
  (w.innerConnections.lookup nodeID).bind (DaemonCNFTunnelConfig.firstKey parseKey)

variable {config : DaemonCNFTunnelConfig}

theorem DaemonCNFTunnelConfig.firstKey_eq_some :
    config.firstKey parseKey = some k ↔ ∃ s l, config.publicKey = s :: l ∧ parseKey s = .ok k := by
  rw [firstKey]
  cases config.publicKey with
  | nil => simp
  | cons s l => cases hs : parseKey s <;> simp [Except.toOption, hs]

/-- The state after a call that does not find its own key in the table. -/
def Wireguard.innerAdded (parseKey : String → Except Error Key) (w : Wireguard)
    (config : DaemonCNFTunnelConfig) (ip : IP) (k : Key) (env : AddEnv)
    (table : GoMap String DaemonCNFTunnelConfig) : Wireguard where
  interConnections := w.interConnections
  innerConnections := table
  device := (w.device.withoutKey (w.innerKey parseKey config.nodeID) env.removeErr).configured
    (addConfig k (some (ip, config.port)) (parseSubnets config.secondaryCIDR)) env.configureErr

/-- What a call that returns has done: nothing, for want of an address or a key
or because the table holds its own key, or it has replaced the entry of its
node and configured the device. -/
theorem AddInnerClusterTunnel_cases {w' : Wireguard} {err : Option Error}
    (h : w.AddInnerClusterTunnel parseKey config env = .ok (w', err)) :
    (w' = w ∧ (err ≠ none ∨ ∃ k, config.firstKey parseKey = some k ∧
        w.innerKey parseKey config.nodeID = some k)) ∨
      ∃ ip k table, config.firstKey parseKey = some k ∧
        w.innerKey parseKey config.nodeID ≠ some k ∧
        (∀ n, table.lookup n =
          if n = config.nodeID then some config else w.innerConnections.lookup n) ∧
        w' = w.innerAdded parseKey config ip k env table ∧
        err = wrap "failed to configure daemonPeerConfig" env.configureErr := by
  rw [Wireguard.AddInnerClusterTunnel] at h
  cases hip : ParseIP config.endpointIP with
  | none =>
    simp only [hip, Except.ok.injEq, Prod.mk.injEq] at h
    exact .inl ⟨h.1.symm, .inl (by rw [← h.2]; simp)⟩
  | some ip =>
    simp only [hip] at h
    cases hs : config.publicKey with
    | nil =>
      simp only [hs, Except.ok.injEq, Prod.mk.injEq] at h
      exact .inl ⟨h.1.symm, .inl (by rw [← h.2]; simp)⟩
    | cons s l =>
      simp only [hs] at h
      cases hk : parseKey s with
      | error e =>
        simp only [hk, Except.ok.injEq, Prod.mk.injEq] at h
        exact .inl ⟨h.1.symm, .inl (by rw [← h.2]; simp [wrap])⟩
      | ok k =>
        have hfirst : config.firstKey parseKey = some k :=
          DaemonCNFTunnelConfig.firstKey_eq_some.mpr ⟨s, l, hs, hk⟩
        simp only [hk, Wireguard.configureDevice_eq, Wireguard.RemoveInnerClusterTunnel,
          Wireguard.removeTunnel_eq] at h
        cases hq : w.innerConnections.lookup config.nodeID with
        | none =>
          have hw : w.innerKey parseKey config.nodeID = none := by
            rw [Wireguard.innerKey, hq]; rfl
          simp only [hq, Except.ok.injEq, Prod.mk.injEq] at h
          refine .inr ⟨ip, k, _, hfirst, by simp [hw], fun n => GoMap.lookup_insert_eq _ _ n _, ?_,
            h.2.symm⟩
          rw [Wireguard.innerAdded, hw]
          exact h.1.symm
        | some q =>
          have hw : w.innerKey parseKey config.nodeID = q.firstKey parseKey := by
            rw [Wireguard.innerKey, hq]; rfl
          simp only [hq] at h
          obtain ⟨s', hs', h⟩ := Go.bind_eq_ok.mp h
          obtain ⟨l', hl'⟩ := Go.index_zero_eq_ok.mp hs'
          cases hqk : parseKey s' with
          | error e =>
            have hnone : q.firstKey parseKey = none := by
              simp [DaemonCNFTunnelConfig.firstKey, hl', hqk, Except.toOption]
            simp only [hqk, pure, Except.pure, Except.ok.injEq, Prod.mk.injEq] at h
            refine .inr ⟨ip, k, _, hfirst, by simp [hw, hnone],
              fun n => lookup_insert_erase _ _ n _, ?_, h.2.symm⟩
            rw [Wireguard.innerAdded, hw, hnone]
            exact h.1.symm
          | ok old =>
            have hold : q.firstKey parseKey = some old :=
              DaemonCNFTunnelConfig.firstKey_eq_some.mpr ⟨s', l', hl', hqk⟩
            simp only [hqk, Key.string_eq_iff] at h
            by_cases he : old = k
            · simp only [if_pos he, pure, Except.pure, Except.ok.injEq, Prod.mk.injEq] at h
              exact .inl ⟨h.1.symm, .inr ⟨k, hfirst, by rw [hw, hold, he]⟩⟩
            · simp only [if_neg he, pure, Except.pure, Except.ok.injEq, Prod.mk.injEq] at h
              refine .inr ⟨ip, k, _, hfirst, by simp [hw, hold, he],
                fun n => lookup_insert_erase _ _ n _, ?_, h.2.symm⟩
              rw [Wireguard.innerAdded, hw, hold]
              exact h.1.symm

end

/-! ## Values for examples -/

/-- Two keys that parse. -/
def sampleKey : String → Except Error Key
  | "old" => .ok 1
  | "new" => .ok 2
  | _ => .error "wgtypes: failed to parse base64-encoded key"

/-- Every route call succeeds. -/
def allRoutes : RouteEnv := ⟨none, fun _ => none⟩

end Fleetboard.Tunnel
