import Fleetboard.Proof.NetUtil

/-!
# Dividing networks: which block, when none, and which texts

`Proof/NetUtil` says where the search ends when it returns a block. Here are the
other ends of the same loop, and what the two levels of the division make of
each other:

* `findAvailableCIDR_first_fit`: the block returned is aligned, apart from
  everything in use, and the first such candidate;
* `noAvailableCIDR_full_iff`: the search gives up after `2^(32 - d)` blocks, and
  when that means that the network is full;
* `FindClusterAvailableCIDR_composes_iff`: a cluster network that was taken from
  a tunnel network can be divided again, but for tunnel networks of length 9;
* `candidates_parse_iff`: when all the candidates that the loop forms are CIDRs.
-/

namespace Fleetboard.NetUtil

open Fleetboard.Net

variable {cidr s : String} {existing set : List String} {network : IPNet} {a : Addr} {d : Nat}

/-! ## The ends of the loop -/

/-- The loop gives up when every candidate overlaps. -/
theorem firstAvailable_eq_none {fuel i : Nat} {e : Error} :
    firstAvailable network d set fuel i = .ok (.error e) ↔
      e = "no available CIDR found" ∧
        ∀ k < fuel, overlapping (candidate network d (i + k)) set = .ok true := by
  induction fuel generalizing i with
  | zero =>
    simp only [firstAvailable, Nat.not_lt_zero, false_implies, implies_true, and_true]
    constructor
    · intro h
      cases h
      rfl
    · rintro rfl
      rfl
  | succ fuel ih =>
    simp only [firstAvailable]
    rw [Nat.forall_lt_succ_left, Nat.add_zero]
    cases hov : overlapping (candidate network d i) set with
    | error p => simp [bind, Except.bind]
    | ok r =>
      cases r with
      | false => simp [bind, Except.bind, pure, Except.pure]
      | true =>
        show firstAvailable network d set fuel (i + 1) = .ok (.error e) ↔ _
        rw [ih]
        simp only [true_and, Nat.add_assoc, Nat.add_comm 1]

section

variable (hp : parseCIDR cidr = .ok (a, network)) (hex : Readable existing) (hd : d ≤ 32)

include hp hex

/-- The search in a network whose first byte is not zero gives up when all the
blocks it may try have a four-byte address and none is free. -/
theorem findAvailableCIDR_eq_none (h₁ : 2 ^ 24 ≤ network.ip.toNat) {e : Error} :
    findAvailableCIDR cidr existing d = .ok (.error e) ↔
      e = "no available CIDR found" ∧ ∀ k < 2 ^ (32 - d),
        network.ip.toNat + k * 2 ^ (32 - d) < 2 ^ 32 ∧ ¬ Free existing (blockAt network hd k) := by
  obtain ⟨set, -, hspec, hfind⟩ := findAvailableCIDR_eq_firstAvailable (d := d) hp hex
  rw [hfind, firstAvailable_eq_none]
  simp only [Nat.zero_add]
  refine and_congr_right fun _ => forall₂_congr fun k _ => ?_
  constructor
  · intro hov
    have hk : network.ip.toNat + k * 2 ^ (32 - d) < 2 ^ 32 := by
      by_contra hge
      obtain ⟨e, he⟩ := candidate_junk (.inr (Nat.le_of_not_lt hge))
      rw [overlapping_junk he] at hov
      split at hov <;> cases hov
    exact ⟨hk, (overlapping_candidate_eq_ok hd h₁ hk hspec).2.mp hov⟩
  · rintro ⟨hk, hfree⟩
    exact (overlapping_candidate_eq_ok hd h₁ hk hspec).2.mpr hfree

/-- In a network whose first byte is zero the search does not give up: its
first candidate is no CIDR, and is returned or panicked on. -/
theorem findAvailableCIDR_zero_ne_none (h₁ : network.ip.toNat < 2 ^ 24) (e : Error) :
    findAvailableCIDR cidr existing d ≠ .ok (.error e) := by
  obtain ⟨set, -, -, hfind⟩ := findAvailableCIDR_eq_firstAvailable (d := d) hp hex
  intro hnone
  rw [hfind, firstAvailable_eq_none] at hnone
  have h0 := hnone.2 0 (Nat.two_pow_pos _)
  obtain ⟨e, he⟩ := @candidate_junk network d 0 (.inl (by simpa using h₁))
  rw [Nat.add_zero, overlapping_junk he] at h0
  split at h0 <;> cases h0

end

/-! ## First fit -/

theorem divided_bounds (hp : parseCIDR cidr = .ok (a, network))
    (h : divideTunnelNetwork cidr = .ok d ∨ divideClusterNetwork cidr = .ok d) :
    network.ones ≤ d ∧ d ≤ 32 :=
  h.elim (divideTunnelNetwork_bounds hp) (divideClusterNetwork_bounds hp)

/-- A network that `parseCIDR` returns starts at a multiple of every smaller
block. -/
theorem dvd_ip {n : IPNet} (hp : parseCIDR s = .ok (a, n)) (hd : n.ones ≤ d) :
    2 ^ (32 - d) ∣ n.ip.toNat := by
  rw [parseCIDR_aligned hp, cidrMask, toNat_and_topMask]
  exact Dvd.dvd.mul_left (Nat.pow_dvd_pow 2 (by omega)) _

/-- An address that is a multiple of the block is the address of its block. -/
theorem and_cidrMask_of_dvd {x : Addr} (h : 2 ^ (32 - d) ∣ x.toNat) :
    x &&& cidrMask d = x := by
  refine BitVec.eq_of_toNat_eq ?_
  rw [cidrMask, toNat_and_topMask, Nat.div_mul_cancel h]

/-- The text of a block of the network parses to the block. -/
theorem parseCIDR_blockAt (hp : parseCIDR cidr = .ok (a, network)) (hd : d ≤ 32)
    (hpd : network.ones ≤ d) {i : Nat} (h₁ : 2 ^ 24 ≤ network.ip.toNat)
    (h₂ : network.ip.toNat + i * 2 ^ (32 - d) < 2 ^ 32) :
    parseCIDR (candidate network d i) =
      .ok ((blockAt network hd i).ip, blockAt network hd i) := by
  have hdvd : 2 ^ (32 - d) ∣ (blockAt network hd i).ip.toNat := by
    rw [blockAt, BitVec.toNat_ofNat, Nat.mod_eq_of_lt h₂]
    exact Nat.dvd_add (dvd_ip hp hpd) (Nat.dvd_mul_left _ _)
  rw [parseCIDR_candidate hd h₁ h₂, and_cidrMask_of_dvd hdvd]

theorem not_free_iff {b : IPNet} :
    ¬ Free existing b ↔ ∃ c ∈ existing, ∃ a n, parseCIDR c = .ok (a, n) ∧ n.Meets b := by
  simp only [Free, not_forall, not_not, exists_prop]

/-- The block that the search returns has the length asked for and starts at
its own address; it has no address in common with an existing CIDR, and every
candidate before it has. -/
theorem findAvailableCIDR_first_fit {cidr : String} {a : Addr} {network : IPNet}
    (hp : parseCIDR cidr = .ok (a, network)) (h₁ : 2 ^ 24 ≤ network.ip.toNat) {d : Nat}
    (h : divideTunnelNetwork cidr = .ok d ∨ divideClusterNetwork cidr = .ok d)
    {existing : List String} (hex : Readable existing) {s : String}
    (hs : findAvailableCIDR cidr existing d = .ok (.ok s)) :
    ∃ k b, s = candidate network d k ∧ parseCIDR s = .ok (b.ip, b) ∧ b.ones = d ∧
      2 ^ (32 - d) ∣ b.ip.toNat ∧
      (∀ c ∈ existing, ∀ a n, parseCIDR c = .ok (a, n) → ¬ ∃ x, n.contains x ∧ b.contains x) ∧
      ∀ j < k, ∃ b', parseCIDR (candidate network d j) = .ok (b'.ip, b') ∧
        ∃ c ∈ existing, ∃ a n, parseCIDR c = .ok (a, n) ∧ ∃ x, n.contains x ∧ b'.contains x := by
  obtain ⟨hpd, hd⟩ := divided_bounds hp h
  obtain ⟨k, hk, rfl, hfree, hmin⟩ := (findAvailableCIDR_eq_ok hp hex hd h₁).mp hs
  have hparse := fun {j} (hj : j ≤ k) => parseCIDR_blockAt hp hd hpd h₁ (hk.mono hj).2
  refine ⟨k, blockAt network hd k, rfl, hparse le_rfl, rfl, ?_, hfree, fun j hj => ?_⟩
  · exact dvd_ip (hparse le_rfl) (Nat.le_refl d)
  · exact ⟨_, hparse hj.le, not_free_iff.mp (hmin j hj)⟩

/-- A tunnel network with a block in use, and the next one returned. -/
theorem findAvailableCIDR_first_fit_second :
    ∃ k b, "10.0.64.0/18" = candidate tunnelNet 18 k ∧
      parseCIDR "10.0.64.0/18" = .ok (b.ip, b) ∧ b.ones = 18 ∧ 2 ^ (32 - 18) ∣ b.ip.toNat ∧
      (∀ c ∈ ["10.0.0.0/18"], ∀ a n, parseCIDR c = .ok (a, n) →
        ¬ ∃ x, n.contains x ∧ b.contains x) ∧
      ∀ j < k, ∃ b', parseCIDR (candidate tunnelNet 18 j) = .ok (b'.ip, b') ∧
        ∃ c ∈ ["10.0.0.0/18"], ∃ a n, parseCIDR c = .ok (a, n) ∧
          ∃ x, n.contains x ∧ b'.contains x := by
  refine findAvailableCIDR_first_fit parseCIDR_tunnelNet (by decide) (.inl (by decide)) ?_
    (by decide +kernel)
  intro c hc
  rw [List.mem_singleton.mp hc]
  exact .inr ⟨(0x0a000000#32, ⟨0x0a000000#32, 18, by omega⟩), by decide⟩

/-! ## Giving up -/

/-- Every block of length `d` inside the network has an address in common with
an existing CIDR. -/
def Full (network : IPNet) (d : Nat) (existing : List String) : Prop :=
  ∀ b : IPNet, b.ones = d → (∀ x, b.contains x → network.contains x) → ¬ Free existing b

/-- Networks with the same members are free together. -/
theorem Free.congr {b b' : IPNet} (h : ∀ x, b.contains x ↔ b'.contains x) (hf : Free existing b) :
    Free existing b' :=
  fun c hc a n hn ⟨x, hx, hx'⟩ => hf c hc a n hn ⟨x, hx, (h x).mpr hx'⟩

section

variable (hp : parseCIDR cidr = .ok (a, network)) (hd : d ≤ 32) (hpd : network.ones ≤ d)

include hp

theorem aligned_of_parseCIDR : network.ip = network.ip &&& cidrMask network.ones := by
  rw [parseCIDR_aligned hp, BitVec.and_assoc, BitVec.and_self]

include hd hpd

/-- The blocks inside the network have four-byte addresses. -/
theorem blockAt_lt {i : Nat} (hi : i < 2 ^ (d - network.ones)) :
    network.ip.toNat + i * 2 ^ (32 - d) < 2 ^ 32 := by
  obtain ⟨q, hq⟩ := dvd_ip hp (Nat.le_refl network.ones)
  have hpow : 2 ^ (32 - network.ones) = 2 ^ (d - network.ones) * 2 ^ (32 - d) := by
    rw [← Nat.pow_add]; congr 1; omega
  have htop : 2 ^ 32 = 2 ^ (32 - network.ones) * 2 ^ network.ones := by
    rw [← Nat.pow_add]; congr 1; have := network.ones_le; omega
  have hlt := network.ip.isLt
  rw [hq, htop] at hlt
  have hq1 : q + 1 ≤ 2 ^ network.ones := Nat.lt_of_mul_lt_mul_left hlt
  calc network.ip.toNat + i * 2 ^ (32 - d)
      < network.ip.toNat + 2 ^ (d - network.ones) * 2 ^ (32 - d) :=
        Nat.add_lt_add_left (Nat.mul_lt_mul_of_pos_right hi (Nat.two_pow_pos _)) _
    _ = 2 ^ (32 - network.ones) * (q + 1) := by rw [hq, ← hpow, Nat.mul_succ]
    _ ≤ 2 ^ 32 := by rw [htop]; exact Nat.mul_le_mul_left _ hq1

/-- A block of length `d` inside the network is one of those counted from its
address on. -/
theorem exists_blockAt {b : IPNet} (hb : b.ones = d)
    (hin : ∀ x, b.contains x → network.contains x) :
    ∃ i < 2 ^ (d - network.ones), ∀ x, b.contains x ↔ (blockAt network hd i).contains x := by
  subst hb
  obtain ⟨q, hq⟩ := dvd_ip hp hpd
  have hle : network.ip.toNat ≤ b.ip.toNat := by
    have hself := contains_iff.mp (hin _ (contains_iff.mpr rfl))
    obtain ⟨r, hr⟩ := dvd_ip hp (Nat.le_refl network.ones)
    rw [hr, Nat.mul_div_cancel_left _ (Nat.two_pow_pos _)] at hself
    rw [hr, hself]
    exact Nat.mul_div_le _ _
  have hdiv : q ≤ b.ip.toNat / 2 ^ (32 - b.ones) := by
    rw [Nat.le_div_iff_mul_le (Nat.two_pow_pos _), Nat.mul_comm, ← hq]
    exact hle
  obtain ⟨i, hi⟩ := Nat.exists_eq_add_of_le hdiv
  have hlt : network.ip.toNat + i * 2 ^ (32 - b.ones) < 2 ^ 32 := by
    rw [hq, Nat.mul_comm _ q, ← Nat.add_mul, ← hi]
    exact Nat.lt_of_le_of_lt (Nat.div_mul_le_self _ _) b.ip.isLt
  have hsame : ∀ x, b.contains x ↔ (blockAt network hd i).contains x := by
    intro x
    rw [contains_iff, contains_iff]
    show _ ↔ (blockAt network hd i).ip.toNat / 2 ^ (32 - b.ones) = x.toNat / 2 ^ (32 - b.ones)
    rw [div_blockAt hd hlt, hq, Nat.mul_div_cancel_left _ (Nat.two_pow_pos _), hi]
  refine ⟨i, ?_, hsame⟩
  rw [← blockAt_inside_iff (aligned_of_parseCIDR hp) hd hpd hlt]
  exact fun x hx => hin x ((hsame x).mpr hx)

/-- The network is full when none of the blocks counted from its address on
is free. -/
theorem full_iff :
    Full network d existing ↔
      ∀ i < 2 ^ (d - network.ones), ¬ Free existing (blockAt network hd i) := by
  constructor
  · intro hfull i hi
    have hlt := blockAt_lt hp hd hpd hi
    exact hfull _ rfl ((blockAt_inside_iff (aligned_of_parseCIDR hp) hd hpd hlt).mpr hi)
  · intro hall b hb hin hfree
    obtain ⟨i, hi, hsame⟩ := exists_blockAt hp hd hpd hb hin
    exact hall i hi (hfree.congr hsame)

end

/-- When the first `2^(32 - d)` blocks are in use, so are all inside the
network. -/
def Covered (network : IPNet) {d : Nat} (hd : d ≤ 32) (existing : List String) : Prop :=
  (∀ i < 2 ^ (32 - d), ¬ Free existing (blockAt network hd i)) →
    ∀ i < 2 ^ (d - network.ones), ¬ Free existing (blockAt network hd i)

theorem Covered.of_le (hd : d ≤ 32) (h : d - network.ones ≤ 32 - d) : Covered network hd existing :=
  fun hall i hi => hall i (Nat.lt_of_lt_of_le hi (Nat.pow_le_pow_right (by decide) h))

theorem findAvailableCIDR_full_iff (hp : parseCIDR cidr = .ok (a, network))
    (hex : Readable existing) (hd : d ≤ 32) (hpd : network.ones ≤ d) :
    (findAvailableCIDR cidr existing d = .ok (.error "no available CIDR found") →
        Full network d existing) ↔
      (2 ^ 24 ≤ network.ip.toNat → Covered network hd existing) := by
  rcases Nat.lt_or_ge network.ip.toNat (2 ^ 24) with h₁ | h₁
  · refine iff_of_true (fun hnone => ?_) fun h => absurd h₁ (Nat.not_lt.mpr h)
    exact absurd hnone (findAvailableCIDR_zero_ne_none hp hex h₁ _)
  · rw [findAvailableCIDR_eq_none hp hex hd h₁, full_iff hp hd hpd]
    constructor
    · intro hfull _ hall
      by_cases hle : d - network.ones ≤ 32 - d
      · exact Covered.of_le hd hle hall
      · -- The blocks that the loop tries are then all inside the network.
        refine hfull ⟨rfl, fun k hk => ⟨blockAt_lt hp hd hpd ?_, hall k hk⟩⟩
        exact Nat.lt_of_lt_of_le hk (Nat.pow_le_pow_right (by decide) (by omega))
    · exact fun hcov hnone => hcov h₁ fun i hi => (hnone.2 i hi).2

/-- When the error of the search means that the network is full: always for a
tunnel network; for a cluster network when the blocks beyond the first
`2^(32 - d)` are all in use as soon as those are. -/
theorem noAvailableCIDR_full_iff {cidr : String} {a : Addr} {network : IPNet}
    (hp : parseCIDR cidr = .ok (a, network)) {existing : List String} (hex : Readable existing) :
    (∀ d, divideTunnelNetwork cidr = .ok d →
      FindTunnelAvailableCIDR cidr existing = .ok (.error "no available CIDR found") →
        Full network d existing) ∧
    (∀ d (h : divideClusterNetwork cidr = .ok d),
      (FindClusterAvailableCIDR cidr existing = .ok (.error "no available CIDR found") →
          Full network d existing) ↔
        (2 ^ 24 ≤ network.ip.toNat →
          Covered network (divideClusterNetwork_bounds hp h).2 existing)) := by
  refine ⟨fun d h => ?_, fun d h => ?_⟩
  · have hb := divideTunnelNetwork_bounds hp h
    have hle : d - network.ones ≤ 32 - d := by
      simp only [divideTunnelNetwork, hp] at h
      split_ifs at h <;> cases h <;> omega
    simp only [FindTunnelAvailableCIDR, h]
    exact (findAvailableCIDR_full_iff hp hex hb.2 hb.1).mpr fun _ => .of_le hb.2 hle
  · have hb := divideClusterNetwork_bounds hp h
    simp only [FindClusterAvailableCIDR, h]
    exact findAvailableCIDR_full_iff hp hex hb.2 hb.1

/-- `10.0.0.0/14`. -/
def wideNet : IPNet := ⟨0x0a000000#32, 14, by decide⟩

theorem parseCIDR_wideNet : parseCIDR "10.0.0.0/14" = .ok (0x0a000000#32, wideNet) := by decide

/-- With `10.0.0.0/16` in use, none of the blocks of length 24 that the loop tries from that address
on is free. -/
theorem not_free_tunnelNet (hip : network.ip = 0x0a000000#32) {k : Nat} (hk : k < 2 ^ 8) :
    network.ip.toNat + k * 2 ^ 8 < 2 ^ 32 ∧
      ¬ Free ["10.0.0.0/16"] (blockAt network (show 24 ≤ 32 by omega) k) := by
  have hlt : 0x0a000000 + k * 2 ^ 8 < 2 ^ 32 := by omega
  have haddr : network.ip.toNat = 0x0a000000 := by rw [hip]; rfl
  rw [haddr]
  refine ⟨hlt, not_free_iff.mpr ⟨_, List.mem_singleton_self _, _, _, parseCIDR_tunnelNet,
    BitVec.ofNat 32 (0x0a000000 + k * 2 ^ 8), contains_iff.mpr ?_, contains_iff.mpr ?_⟩⟩
  · rw [BitVec.toNat_ofNat, Nat.mod_eq_of_lt hlt]
    show 0x0a000000 / 2 ^ 16 = (0x0a000000 + k * 2 ^ 8) / 2 ^ 16
    omega
  · rw [blockAt, haddr]

theorem readable_tunnelNet : Readable ["10.0.0.0/16"] := by
  intro c hm
  rw [List.mem_singleton.mp hm]
  exact .inr ⟨_, parseCIDR_tunnelNet⟩

theorem FindClusterAvailableCIDR_tunnelNet (hp : parseCIDR cidr = .ok (0x0a000000#32, network))
    (hip : network.ip = 0x0a000000#32) (hdiv : divideClusterNetwork cidr = .ok 24) :
    FindClusterAvailableCIDR cidr ["10.0.0.0/16"] = .ok (.error "no available CIDR found") := by
  simp only [FindClusterAvailableCIDR, hdiv]
  rw [findAvailableCIDR_eq_none hp readable_tunnelNet (by omega) (by rw [hip]; decide)]
  exact ⟨rfl, fun k hk => not_free_tunnelNet hip hk⟩

/-- A cluster network that is in use as a whole. -/
theorem noAvailableCIDR_full_first : Readable ["10.0.0.0/16"] ∧
    FindClusterAvailableCIDR "10.0.0.0/16" ["10.0.0.0/16"] =
      .ok (.error "no available CIDR found") ∧
    Full tunnelNet 24 ["10.0.0.0/16"] := by
  have hnone := FindClusterAvailableCIDR_tunnelNet parseCIDR_tunnelNet rfl (by decide)
  refine ⟨readable_tunnelNet, hnone, ?_⟩
  exact ((noAvailableCIDR_full_iff parseCIDR_tunnelNet readable_tunnelNet).2 24 (by decide)).mpr
    (fun _ => .of_le _ (by decide)) hnone

/-- A cluster network of 1024 blocks: once the first 256 are in use the loop
gives up, with block `10.1.0.0/24` free. -/
theorem FindClusterAvailableCIDR_gives_up :
    parseCIDR "10.0.0.0/14" = .ok (0x0a000000#32, wideNet) ∧ Readable ["10.0.0.0/16"] ∧
    divideClusterNetwork "10.0.0.0/14" = .ok 24 ∧
    FindClusterAvailableCIDR "10.0.0.0/14" ["10.0.0.0/16"] =
      .ok (.error "no available CIDR found") ∧
    ¬ Full wideNet 24 ["10.0.0.0/16"] := by
  have hdiv : divideClusterNetwork "10.0.0.0/14" = .ok 24 := by decide
  refine ⟨parseCIDR_wideNet, readable_tunnelNet, hdiv,
    FindClusterAvailableCIDR_tunnelNet parseCIDR_wideNet rfl hdiv, fun hfull => ?_⟩
  refine (full_iff parseCIDR_wideNet (by omega) (by decide)).mp hfull 256 (by decide) ?_
  intro c hm a n hn
  rw [List.mem_singleton.mp hm, parseCIDR_tunnelNet] at hn
  cases hn
  decide

/-! ## Two levels -/

/-- The length of a node's block, by the length of the tunnel network: the
fourth part of the dividing table. -/
def nodeBits (tunnelBits : Nat) : Nat := if tunnelBits ≤ 8 then 22 else 24

theorem nodeBits_le (tunnelBits : Nat) : nodeBits tunnelBits ≤ 32 := by
  unfold nodeBits
  split <;> omega

/-- The length that a cluster network taken from a tunnel network is divided
into. -/
theorem divideClusterNetwork_of_tunnel {tunnel c : String} {a a' : Addr} {network cluster : IPNet}
    (hp : parseCIDR tunnel = .ok (a, network)) (hd : divideTunnelNetwork tunnel = .ok d)
    (hc : parseCIDR c = .ok (a', cluster)) (hones : cluster.ones = d) :
    divideClusterNetwork c =
      if network.ones = 9 then .error "network cidr is too small" else .ok (nodeBits network.ones) := by
  simp only [divideTunnelNetwork, hp] at hd
  simp only [divideClusterNetwork, hc, hones, nodeBits]
  split_ifs at hd <;> cases hd <;> split_ifs <;> first | rfl | omega

/-- The search ends with a block when a block it reaches is free. -/
theorem findAvailableCIDR_of_free (hp : parseCIDR cidr = .ok (a, network))
    (h₁ : 2 ^ 24 ≤ network.ip.toNat) (hex : Readable existing) (hd : d ≤ 32)
    (h : ∃ i, Tried network d i ∧ Free existing (blockAt network hd i)) :
    ∃ k, Tried network d k ∧
      findAvailableCIDR cidr existing d = .ok (.ok (candidate network d k)) := by
  classical
  obtain ⟨hT, hfree⟩ := Nat.find_spec h
  refine ⟨Nat.find h, hT, (findAvailableCIDR_eq_ok hp hex hd h₁).mpr ⟨_, hT, rfl, hfree, ?_⟩⟩
  exact fun j hj hfj => Nat.find_min h hj ⟨hT.mono hj.le, hfj⟩

/-- A cluster network taken from a tunnel network, with a free node block among
its first 256, has its node block found, of the length that the dividing table
has for the tunnel network, exactly when the tunnel network is not of length 9:
a cluster network of length 13 is refused. -/
theorem FindClusterAvailableCIDR_composes_iff {tunnel : String} {a : Addr} {network : IPNet}
    (hp : parseCIDR tunnel = .ok (a, network)) (h₁ : 2 ^ 24 ≤ network.ip.toNat)
    {clusters nodes : List String} (hnodes : Readable nodes) {c : String}
    (hfind : FindTunnelAvailableCIDR tunnel clusters = .ok (.ok c)) {a' : Addr} {cluster : IPNet}
    (hc : parseCIDR c = .ok (a', cluster))
    (hfree : ∃ i < 256, cluster.ip.toNat + i * 2 ^ (32 - nodeBits network.ones) < 2 ^ 32 ∧
      Free nodes (blockAt cluster (nodeBits_le network.ones) i)) :
    (∃ s b, FindClusterAvailableCIDR c nodes = .ok (.ok s) ∧ parseCIDR s = .ok (b.ip, b) ∧
      b.ones = nodeBits network.ones) ↔ network.ones ≠ 9 := by
  cases hd : divideTunnelNetwork tunnel with
  | error e => simp [FindTunnelAvailableCIDR, hd] at hfind
  | ok d =>
    simp only [FindTunnelAvailableCIDR, hd] at hfind
    obtain ⟨hpd, hd32⟩ := divideTunnelNetwork_bounds hp hd
    -- The cluster network is a block of the tunnel network, at its address or above.
    have hex := readable_of_findAvailableCIDR hp hfind
    obtain ⟨k, hk, rfl, -, -⟩ := (findAvailableCIDR_eq_ok hp hex hd32 h₁).mp hfind
    have hblock := parseCIDR_blockAt hp hd32 hpd h₁ hk.2
    rw [hc] at hblock
    cases hblock
    have hc₁ : 2 ^ 24 ≤ (blockAt network hd32 k).ip.toNat := by
      rw [blockAt, BitVec.toNat_ofNat, Nat.mod_eq_of_lt hk.2]
      exact Nat.le_add_right_of_le h₁
    have hdiv := divideClusterNetwork_of_tunnel hp hd hc rfl
    unfold FindClusterAvailableCIDR
    by_cases h9 : network.ones = 9
    · rw [if_pos h9] at hdiv
      simp [hdiv, h9]
    · rw [if_neg h9] at hdiv
      refine iff_of_true ?_ h9
      simp only [hdiv]
      have hb := divideClusterNetwork_bounds hc hdiv
      obtain ⟨i, hi, hlt, hf⟩ := hfree
      have hi' : i < 2 ^ (32 - nodeBits network.ones) := by
        refine Nat.lt_of_lt_of_le hi ?_
        unfold nodeBits
        split <;> decide
      obtain ⟨j, hj, hs⟩ := findAvailableCIDR_of_free hc hc₁ hnodes hb.2 ⟨i, ⟨hi', hlt⟩, hf⟩
      exact ⟨_, _, hs, parseCIDR_blockAt hc hb.2 hb.1 hc₁ hj.2, rfl⟩

/-- `10.0.0.0/18`. -/
def clusterNet : IPNet := ⟨0x0a000000#32, 18, by decide⟩

/-- A cluster network of a tunnel network of length 16: nodes get blocks of
length 24. -/
theorem FindClusterAvailableCIDR_composes_first :
    (∃ s b, FindClusterAvailableCIDR "10.0.0.0/18" [] = .ok (.ok s) ∧ parseCIDR s = .ok (b.ip, b) ∧
      b.ones = nodeBits tunnelNet.ones) ↔ tunnelNet.ones ≠ 9 := by
  have hc : parseCIDR "10.0.0.0/18" = .ok (0x0a000000#32, clusterNet) := by decide
  have hfind : FindTunnelAvailableCIDR "10.0.0.0/16" [] = .ok (.ok "10.0.0.0/18") := by decide +kernel
  refine FindClusterAvailableCIDR_composes_iff parseCIDR_tunnelNet (by decide) ?_ hfind hc
    ⟨0, by decide, by decide, ?_⟩
  · simp [Readable]
  · simp [Free]

/-- `10.0.0.0/9`. -/
def nineNet : IPNet := ⟨0x0a000000#32, 9, by decide⟩

/-- A tunnel network of length 9: its first cluster network, `10.0.0.0/13`, has
all its blocks free and is refused. -/
theorem FindClusterAvailableCIDR_refuses_thirteen :
    parseCIDR "10.0.0.0/9" = .ok (0x0a000000#32, nineNet) ∧ 2 ^ 24 ≤ nineNet.ip.toNat ∧
    FindTunnelAvailableCIDR "10.0.0.0/9" [] = .ok (.ok "10.0.0.0/13") ∧
    (∃ b, parseCIDR "10.0.0.0/13" = .ok (b.ip, b) ∧ (∀ x, b.contains x → nineNet.contains x) ∧
      ∀ i < 256, b.ip.toNat + i * 2 ^ (32 - 24) < 2 ^ 32 ∧
        Free [] (blockAt b (show 24 ≤ 32 by omega) i)) ∧
    FindClusterAvailableCIDR "10.0.0.0/13" [] = .ok (.error "network cidr is too small") := by
  refine ⟨by decide, by decide, by decide +kernel, ⟨⟨0x0a000000#32, 13, by omega⟩, by decide,
    fun x hx => ?_, fun i hi => ⟨?_, ?_⟩⟩, by decide +kernel⟩
  · rw [contains_iff] at hx ⊢
    exact div_pow_mono (by decide) hx
  · show 0x0a000000 + i * 2 ^ 8 < 2 ^ 32
    omega
  · simp [Free]

/-! ## The texts of the candidates -/

/-- The candidates that the search forms: `i`, once all before it are found to
overlap. -/
def Formed (network : IPNet) (d : Nat) (existing : List String) (i : Nat) : Prop :=
  ∃ set, existingCIDRSet d existing = .ok set ∧ i < 2 ^ (32 - d) ∧
    ∀ j < i, overlapping (candidate network d j) set = .ok true

/-- Every candidate that the search forms is a CIDR of length `d`, at the
address meant; the search does not panic, and a text that it returns is a
CIDR. -/
structure WellFormed (cidr : String) (network : IPNet) (d : Nat) (existing : List String) : Prop where
  candidates : ∀ i, Formed network d existing i → ∃ x n,
    parseCIDR (candidate network d i) = .ok (x, n) ∧
      x.toNat = network.ip.toNat + i * 2 ^ (32 - d) ∧ n.ones = d
  returns : ∃ r, findAvailableCIDR cidr existing d = .ok r ∧
    ∀ s, r = .ok s → ∃ p, parseCIDR s = .ok p

/-- The candidates of the search are CIDRs exactly when the first byte of the
network is not zero and the loop meets a free block before it leaves the
addresses of four bytes, or does not leave them. -/
theorem candidates_parse_iff {cidr : String} {a : Addr} {network : IPNet}
    (hp : parseCIDR cidr = .ok (a, network)) {d : Nat}
    (h : divideTunnelNetwork cidr = .ok d ∨ divideClusterNetwork cidr = .ok d)
    {existing : List String} (hex : Readable existing) :
    WellFormed cidr network d existing ↔
      2 ^ 24 ≤ network.ip.toNat ∧
        ((∃ i, Tried network d i ∧ Free existing (blockAt network (divided_bounds hp h).2 i)) ∨
          ∀ i < 2 ^ (32 - d), network.ip.toNat + i * 2 ^ (32 - d) < 2 ^ 32) := by
  obtain ⟨hpd, hd⟩ := divided_bounds hp h
  obtain ⟨set, hset, hspec, hfind⟩ := findAvailableCIDR_eq_firstAvailable (d := d) hp hex
  constructor
  · intro hwf
    have h₁ : 2 ^ 24 ≤ network.ip.toNat := by
      by_contra hlt
      obtain ⟨x, n, hx, -⟩ := hwf.candidates 0 ⟨set, hset, Nat.two_pow_pos _, by simp⟩
      obtain ⟨e, he⟩ := @candidate_junk network d 0 (.inl (by omega))
      rw [he] at hx
      cases hx
    refine ⟨h₁, or_iff_not_imp_left.mpr fun hno i => ?_⟩
    -- No block before `i` ends the loop: `i` is formed, and has four bytes.
    induction i using Nat.strong_induction_on with
    | _ i ih =>
      intro hi
      by_contra hge
      obtain ⟨e, he⟩ := candidate_junk (.inr (Nat.le_of_not_lt hge))
      obtain ⟨x, n, hx, -⟩ := hwf.candidates i ⟨set, hset, hi, fun j hj => by
        have hT : Tried network d j := ⟨hj.trans hi, ih j hj (hj.trans hi)⟩
        exact (overlapping_candidate_eq_ok hd h₁ hT.2 hspec).2.mpr fun hf => hno ⟨j, hT, hf⟩⟩
      rw [he] at hx
      cases hx
  · rintro ⟨h₁, hend⟩
    have hlt : ∀ i, Formed network d existing i →
        network.ip.toNat + i * 2 ^ (32 - d) < 2 ^ 32 := by
      rintro i ⟨set', hset', hi, hov⟩
      rw [hset] at hset'
      cases hset'
      rcases hend with ⟨k, hk, hfree⟩ | hall
      · refine (hk.mono (Nat.le_of_not_lt fun hki => ?_)).2
        exact (overlapping_candidate_eq_ok hd h₁ hk.2 hspec).2.mp (hov k hki) hfree
      · exact hall i hi
    refine ⟨fun i hi => ⟨_, _, parseCIDR_blockAt hp hd hpd h₁ (hlt i hi), ?_, rfl⟩, ?_⟩
    · rw [blockAt, BitVec.toNat_ofNat, Nat.mod_eq_of_lt (hlt i hi)]
    · by_cases hfree : ∃ i, Tried network d i ∧ Free existing (blockAt network hd i)
      · obtain ⟨k, hk, hs⟩ := findAvailableCIDR_of_free hp h₁ hex hd hfree
        refine ⟨_, hs, fun s hs => ?_⟩
        cases hs
        exact ⟨_, parseCIDR_blockAt hp hd hpd h₁ hk.2⟩
      · have hall := hend.resolve_left hfree
        refine ⟨.error "no available CIDR found", ?_, fun s hs => by cases hs⟩
        rw [findAvailableCIDR_eq_none hp hex hd h₁]
        exact ⟨rfl, fun k hk => ⟨hall k hk, fun hf => hfree ⟨k, ⟨hk, hall k hk⟩, hf⟩⟩⟩

/-- A tunnel network far from both ends of the addresses, with its first two blocks in use. -/
theorem candidates_parse_tunnelNet :
    WellFormed "10.0.0.0/16" tunnelNet 18 ["10.0.0.0/18", "10.0.64.0/24"] := by
  have hfirst : parseCIDR "10.0.0.0/18" = .ok (0x0a000000#32, ⟨0x0a000000#32, 18, by omega⟩) := by
    decide
  have hsecond : parseCIDR "10.0.64.0/24" = .ok (0x0a004000#32, ⟨0x0a004000#32, 24, by omega⟩) := by
    decide
  refine (candidates_parse_iff parseCIDR_tunnelNet (.inl (by decide)) ?_).mpr ?_
  · exact List.forall_mem_cons.mpr ⟨.inr ⟨_, hfirst⟩, List.forall_mem_singleton.mpr (.inr ⟨_, hsecond⟩)⟩
  · refine ⟨by decide, .inl ⟨2, ⟨by decide, by decide⟩, ?_⟩⟩
    refine List.forall_mem_cons.mpr ⟨fun a n hn => ?_, List.forall_mem_singleton.mpr fun a n hn => ?_⟩
    · cases hfirst.symm.trans hn
      decide
    · cases hsecond.symm.trans hn
      decide

/-- `0.0.0.0/8`. -/
def zeroNet : IPNet := ⟨0#32, 8, by decide⟩

/-- Both ends of the addresses: zero has no bytes, and the search returns
`<nil>/12`; the fifth block from `255.255.0.0` on has five, and the search, with
the network in use, panics on it. -/
theorem candidates_leave_four_bytes :
    (parseCIDR "0.0.0.0/8" = .ok (0#32, zeroNet) ∧ divideTunnelNetwork "0.0.0.0/8" = .ok 12 ∧
      findAvailableCIDR "0.0.0.0/8" [] 12 = .ok (.ok "<nil>/12") ∧
      ¬ WellFormed "0.0.0.0/8" zeroNet 12 []) ∧
    ((parseCIDR "255.255.0.0/16").isOk ∧ divideTunnelNetwork "255.255.0.0/16" = .ok 18 ∧
      findAvailableCIDR "255.255.0.0/16" ["255.255.0.0/16"] 18 = .error .nilDereference) := by
  have hfind : findAvailableCIDR "0.0.0.0/8" [] 12 = .ok (.ok "<nil>/12") := by decide +kernel
  refine ⟨⟨by decide, by decide, hfind, fun hwf => ?_⟩, by decide, by decide, by decide +kernel⟩
  obtain ⟨r, hr, hs⟩ := hwf.returns
  rw [hfind] at hr
  cases hr
  obtain ⟨p, hp⟩ := hs _ rfl
  have hjunk : (parseCIDR "<nil>/12").isOk = false := by decide
  rw [hp] at hjunk
  cases hjunk

end Fleetboard.NetUtil
