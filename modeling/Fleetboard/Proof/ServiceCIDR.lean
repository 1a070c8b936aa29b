import Fleetboard.Model.ServiceCIDR
import Fleetboard.Proof.NetUtil

/-!
# Overlap, and the random range for virtual services

* `contains_iff_inRange`, `isOverlappingCIDR_range`: the overlap test on the addresses of two
  networks decides whether their ranges have an address in common;
* `drawBlock_spec`: a draw is a `/24` block of one of the private ranges;
* `generateLoop_spec`: what the loop returns is such a block, apart from everything in use;
* `NewRandomServiceCIDR_clear`: a cluster's new range is clear of its services and pods;
* `overlap_exact`: the test and the loop together.
-/

namespace Fleetboard.ServiceCIDR

open Fleetboard.Net Fleetboard.NetUtil

/-! ## The range of a CIDR -/

/-- The address is one of the `2^(32 - ones)` addresses from the first one of the CIDR on,
which is `a` without its host bits. -/
def InRange (a : Addr) (ones : Nat) (x : Addr) : Prop :=
  a.toNat - a.toNat % 2 ^ (32 - ones) ≤ x.toNat ∧
    x.toNat < a.toNat - a.toNat % 2 ^ (32 - ones) + 2 ^ (32 - ones)

theorem div_eq_iff_block {a x k : Nat} (hk : 0 < k) :
    a / k = x / k ↔ a - a % k ≤ x ∧ x < a - a % k + k := by
  have hfirst : a - a % k = a / k * k := by
    have := Nat.div_add_mod' a k
    omega
  rw [hfirst]
  constructor
  · intro h
    have hx := Nat.div_add_mod' x k
    have hmod := Nat.mod_lt x hk
    rw [h]
    omega
  · rintro ⟨hlo, hhi⟩
    exact (Nat.div_eq_of_lt_le hlo (by rw [Nat.succ_mul]; exact hhi)).symm

/-- The network that is parsed has the addresses of the range. -/
theorem contains_iff_inRange {c : String} {a : Addr} {n : IPNet} (h : parseCIDR c = .ok (a, n))
    (x : Addr) : n.contains x ↔ InRange a n.ones x := by
  rw [contains_iff, parseCIDR_aligned h, div_mask (le_refl _)]
  exact div_eq_iff_block (Nat.two_pow_pos _)

/-- The overlap test says whether two ranges have an address in common. -/
theorem isOverlappingCIDR_range {c c' : String} {a a' : Addr} {n n' : IPNet}
    (h : parseCIDR c = .ok (a, n)) (h' : parseCIDR c' = .ok (a', n')) :
    ∃ b, isOverlappingCIDR c c' = .ok b ∧
      (b = true ↔ ∃ x, InRange a n.ones x ∧ InRange a' n'.ones x) := by
  refine ⟨_, isOverlappingCIDR_eq h h', ?_⟩
  rw [decide_eq_true_iff]
  unfold IPNet.Meets
  simp only [contains_iff_inRange h, contains_iff_inRange h']

/-! ## One draw -/

theorem intLoop_lt {max bitLen : Nat} {err : Error} {bytes : List (BitVec 8)} {n : Nat}
    {rand : Reader} (h : intLoop max bitLen err bytes = .ok (n, rand)) : n < max := by
  induction bytes with
  | nil => cases h
  | cons b bytes ih =>
    dsimp only [intLoop] at h
    split at h
    · rename_i hlt
      obtain ⟨rfl, -⟩ := Prod.mk.inj (Except.ok.inj h)
      exact hlt
    · exact ih h

theorem randInt_lt {rand rand' : Reader} {max n : Nat} (h : randInt rand max = .ok (n, rand')) :
    n < max := by
  unfold randInt at h
  split at h
  · rename_i hmax
    obtain ⟨rfl, -⟩ := Prod.mk.inj (Except.ok.inj h)
    omega
  · exact intLoop_lt h

/-- The private ranges are networks whose third byte is free. -/
theorem privateRanges_parse : ∀ range ∈ privateRanges,
    ∃ a n, parseCIDR range = .ok (a, n) ∧ n.ones ≤ 16 := by
  have h₁ : parseCIDR "10.0.0.0/8" = .ok (0x0a000000#32, ⟨0x0a000000#32, 8, by decide⟩) := by decide
  have h₂ : parseCIDR "172.16.0.0/12" = .ok (0xac100000#32, ⟨0xac100000#32, 12, by decide⟩) := by
    decide
  have h₃ : parseCIDR "192.168.0.0/16" = .ok (0xc0a80000#32, ⟨0xc0a80000#32, 16, by decide⟩) := by
    decide
  simp only [privateRanges, List.forall_mem_cons, List.not_mem_nil, false_imp_iff, implies_true,
    and_true]
  exact ⟨⟨_, _, h₁, by decide⟩, ⟨_, _, h₂, by decide⟩, ⟨_, _, h₃, by decide⟩⟩

/-- The first address of the block of a range that has this third byte. -/
def blockAddr (n : IPNet) (third : Nat) : Addr :=
  ofBytes (n.ip.toNat / 2 ^ 24) (n.ip.toNat / 2 ^ 16 % 256) third 0

theorem parseCIDR_blockText (n : IPNet) {third : Nat} (h : third < 256) :
    parseCIDR (blockText n third) =
      .ok (blockAddr n third, ⟨blockAddr n third &&& cidrMask 24, 24, by decide⟩) := by
  have hip := n.ip.isLt
  have hbytes : ((addrBytes n.ip).set 2 third).set 3 0 =
      [n.ip.toNat / 2 ^ 24, n.ip.toNat / 2 ^ 16 % 256, third, 0] := rfl
  have hlen : "/24" = "/" ++ toString 24 := by decide
  unfold blockText
  rw [hbytes, hlen, ← String.append_assoc]
  exact parseCIDR_text (by omega) (by omega) h (by decide) (by decide)

/-- The block is in its range: the two share their first two bytes. -/
theorem inRange_blockAddr {range : String} {a : Addr} {n : IPNet}
    (hp : parseCIDR range = .ok (a, n)) (hones : n.ones ≤ 16) {third : Nat} (h : third < 256)
    {x : Addr} (hx : InRange (blockAddr n third) 24 x) : InRange a n.ones x := by
  have hip := n.ip.isLt
  have hblock := (div_eq_iff_block (Nat.two_pow_pos _)).mpr hx
  have hnum : (blockAddr n third).toNat / 2 ^ 16 = n.ip.toNat / 2 ^ 16 := by
    simp only [blockAddr, ofBytes, BitVec.toNat_ofNat]
    omega
  have hshare : n.ip.toNat / 2 ^ 16 = x.toNat / 2 ^ 16 :=
    hnum.symm.trans (div_pow_mono (by decide) hblock)
  exact (contains_iff_inRange hp x).mp (contains_iff.mpr (div_pow_mono (by omega) hshare))

/-- A text of a block of 256 addresses of one of the private ranges, from `a` on. -/
structure PrivateBlock (s : String) (a : Addr) (b : IPNet) : Prop where
  parses : parseCIDR s = .ok (a, b)
  ones : b.ones = 24
  inside : ∃ range ∈ privateRanges, ∃ a' n, parseCIDR range = .ok (a', n) ∧
    ∀ x, InRange a 24 x → InRange a' n.ones x

/-- A draw does not panic, and it is a private block. -/
theorem drawBlock_spec (rand : Reader) :
    (∃ e, drawBlock rand = .ok (.error e)) ∨
      ∃ s rand' a b, drawBlock rand = .ok (.ok (s, rand')) ∧ PrivateBlock s a b := by
  unfold drawBlock
  cases hindex : randInt rand privateRanges.length with
  | error e => exact .inl ⟨_, rfl⟩
  | ok draw =>
    obtain ⟨index, rand₁⟩ := draw
    have hlt := randInt_lt hindex
    have hmem := List.getElem_mem hlt
    have hget : Go.index privateRanges index = .ok privateRanges[index] :=
      Go.index_eq_ok.mpr (List.getElem?_eq_getElem hlt)
    obtain ⟨a, n, hp, hones⟩ := privateRanges_parse _ hmem
    simp only [hget, bind, Except.bind, hp]
    cases hthird : randInt rand₁ 256 with
    | error e => exact .inl ⟨_, rfl⟩
    | ok draw =>
      obtain ⟨third, rand₂⟩ := draw
      have hbyte := randInt_lt hthird
      refine .inr ⟨blockText n third, rand₂, blockAddr n third, _, rfl, parseCIDR_blockText n hbyte,
        rfl, _, hmem, a, n, hp, fun x hx => inRange_blockAddr hp hones hbyte hx⟩

/-! ## The loop -/

/-- Entries that are all CIDRs. -/
def Valid (existing : List String) : Prop := ∀ c ∈ existing, ∃ r, parseCIDR c = .ok r

/-- A block has no address in common with an existing CIDR. -/
def Clear (existing : List String) (a : Addr) : Prop :=
  ∀ c ∈ existing, ∀ a' n, parseCIDR c = .ok (a', n) → ¬ ∃ x, InRange a 24 x ∧ InRange a' n.ones x

/-- The test of a block against every entry. -/
theorem conflict_spec {s : String} {a : Addr} {b : IPNet} (hs : PrivateBlock s a b)
    {existing : List String} (h : Valid existing) :
    ∃ r, conflict s existing = .ok r ∧ (r = false → Clear existing a) := by
  induction existing with
  | nil =>
    refine ⟨false, rfl, fun _ c hc => ?_⟩
    cases hc
  | cons c cs ih =>
    obtain ⟨⟨a', n⟩, hc⟩ := h c List.mem_cons_self
    obtain ⟨r, hr, hclear⟩ := ih fun c hc => h c (List.mem_cons_of_mem _ hc)
    obtain ⟨overlap, hov, hiff⟩ := isOverlappingCIDR_range hs.parses hc
    rw [hs.ones] at hiff
    unfold conflict
    rw [hov]
    cases overlap with
    | true => exact ⟨true, rfl, fun hfalse => absurd hfalse (by decide)⟩
    | false =>
      refine ⟨r, hr, fun hfalse => ?_⟩
      refine List.forall_mem_cons.mpr ⟨fun a₁ n₁ hc₁ => ?_, hclear hfalse⟩
      rw [hc] at hc₁
      obtain ⟨rfl, rfl⟩ := Prod.mk.inj (Except.ok.inj hc₁)
      exact fun hx => absurd (hiff.mpr hx) (by decide)

/-- The loop ends with an error or with a private block that is clear. -/
theorem generateLoop_spec {existing : List String} (h : Valid existing) :
    ∀ (fuel : Nat) (rand : Reader), ∃ result, generateLoop existing fuel rand = .ok result ∧
      ∀ s, result = .ok s → ∃ a b, PrivateBlock s a b ∧ Clear existing a := by
  intro fuel
  induction fuel with
  | zero => exact fun _ => ⟨_, rfl, fun s hs => by cases hs⟩
  | succ fuel ih =>
    intro rand
    unfold generateLoop
    rcases drawBlock_spec rand with ⟨e, hdraw⟩ | ⟨s, rand', a, b, hdraw, hblock⟩
    · rw [hdraw]
      exact ⟨.error e, rfl, fun s hs => by cases hs⟩
    · obtain ⟨r, hr, hclear⟩ := conflict_spec hblock h
      rw [hdraw]
      simp only [bind, Except.bind, hr]
      cases r with
      | true => exact ih rand'
      | false =>
        refine ⟨.ok s, rfl, fun s' hs' => ?_⟩
        obtain rfl := Except.ok.inj hs'
        exact ⟨a, b, hblock, hclear rfl⟩

/-- The range for a cluster's virtual services is clear of its services and pods. -/
theorem NewRandomServiceCIDR_clear {env : PodCommand.ClusterEnv} {rand : Reader}
    {serviceCIDR podCIDR s : String}
    (hservice : PodCommand.FindClusterServiceIPRange env = .ok (.ok serviceCIDR))
    (hpod : PodCommand.FindClusterPodIPRange env = .ok (.ok podCIDR))
    (hvalid : Valid [serviceCIDR, podCIDR]) (h : NewRandomServiceCIDR env rand = .ok (.ok s)) :
    ∃ a b, PrivateBlock s a b ∧ Clear [serviceCIDR, podCIDR] a := by
  obtain ⟨result, hrun, hspec⟩ := generateLoop_spec hvalid 100 rand
  unfold NewRandomServiceCIDR GenerateRandomServiceCIDR at h
  simp only [hservice, hpod, hrun, bind, Except.bind] at h
  cases result with
  | error e => cases Except.ok.inj h
  | ok newCIDR =>
    obtain rfl := Except.ok.inj (Except.ok.inj h)
    exact hspec _ rfl

/-! ## Both together -/

/-- The overlap test of two CIDRs is whether their ranges have an address in common; and
whatever the random bytes are, a range for virtual services is a `/24` block of a private range
without an address of an existing CIDR. -/
theorem overlap_exact :
    (∀ c c' a a' n n', parseCIDR c = .ok (a, n) → parseCIDR c' = .ok (a', n') →
      ∃ b, isOverlappingCIDR c c' = .ok b ∧
        (b = true ↔ ∃ x, InRange a n.ones x ∧ InRange a' n'.ones x)) ∧
    ∀ rand existing, Valid existing →
      ∃ result, GenerateRandomServiceCIDR rand existing = .ok result ∧
        ∀ s, result = .ok s → ∃ a b, PrivateBlock s a b ∧ Clear existing a :=
  ⟨fun _ _ _ _ _ _ h h' => isOverlappingCIDR_range h h',
    fun rand _ h => generateLoop_spec h 100 rand⟩

/-- The first draw, `10.0.5.0/24`, is in use, and the second one is returned. -/
theorem overlap_exact_second_draw :
    GenerateRandomServiceCIDR ⟨[0#8, 5#8, 1#8, 7#8], "EOF"⟩ ["10.0.0.0/8"] =
        .ok (.ok "172.16.7.0/24") ∧
      ∃ a b, PrivateBlock "172.16.7.0/24" a b ∧ Clear ["10.0.0.0/8"] a := by
  have hrun : GenerateRandomServiceCIDR ⟨[0#8, 5#8, 1#8, 7#8], "EOF"⟩ ["10.0.0.0/8"] =
      .ok (.ok "172.16.7.0/24") := by decide +kernel
  have hvalid : Valid ["10.0.0.0/8"] := by
    intro c hc
    rw [List.mem_singleton.mp hc]
    exact ⟨_, rfl⟩
  obtain ⟨result, hresult, hspec⟩ :=
    overlap_exact.2 ⟨[0#8, 5#8, 1#8, 7#8], "EOF"⟩ ["10.0.0.0/8"] hvalid
  rw [hrun] at hresult
  exact ⟨hrun, hspec _ (Except.ok.inj hresult).symm⟩

end Fleetboard.ServiceCIDR
