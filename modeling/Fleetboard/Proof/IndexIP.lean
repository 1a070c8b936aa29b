import Fleetboard.Model.NetUtil
import Fleetboard.Proof.Net

/-!
# The address of an index in a network

The loop of `GetIndexIPFromCIDR` counts to the index as long as the addresses before it are in
the network. So it also takes the index just behind the last address, and all indices if the
network is everything.

* `inc_eq`: the carries of `inc` add one;
* `GetIndexIPFromCIDR_eq`: what it returns;
* `GetIndexIPFromCIDR_exact_iff`: when it is exact.
-/

namespace Fleetboard.NetUtil

open Fleetboard.Net

variable {cidr : String} {a : Addr} {network : IPNet} {index : Int}

/-! ## Carries -/

theorem length_incLoop (bytes : List Nat) : (incLoop bytes).length = bytes.length := by
  induction bytes with
  | nil => rfl
  | cons b bs ih =>
    unfold incLoop
    split_ifs
    · rfl
    · rw [List.length_cons, List.length_cons, ih]

/-- The loop adds one to the number of the bytes, the lowest first. -/
theorem ofDigits_incLoop {bytes : List Nat} (h : ∀ b ∈ bytes, b < 256) :
    Nat.ofDigits 256 (incLoop bytes) ≡ Nat.ofDigits 256 bytes + 1 [MOD 256 ^ bytes.length] := by
  induction bytes with
  | nil =>
    rw [List.length_nil, pow_zero]
    exact Nat.modEq_one
  | cons b bs ih =>
    obtain ⟨hb, hbs⟩ := List.forall_mem_cons.mp h
    unfold incLoop
    split_ifs with hcarry
    · have hsum : Nat.ofDigits 256 ((b + 1) % 256 :: bs) = Nat.ofDigits 256 (b :: bs) + 1 := by
        rw [Nat.mod_eq_of_lt (by omega), Nat.ofDigits_cons, Nat.ofDigits_cons]
        omega
      rw [hsum]
    · have hmul := (ih hbs).mul_left' 256
      have hleft : Nat.ofDigits 256 ((b + 1) % 256 :: incLoop bs) =
          256 * Nat.ofDigits 256 (incLoop bs) := by
        rw [Nat.ofDigits_cons]
        omega
      have hright : Nat.ofDigits 256 (b :: bs) + 1 = 256 * (Nat.ofDigits 256 bs + 1) := by
        rw [Nat.ofDigits_cons]
        omega
      rw [hleft, hright, List.length_cons, pow_succ']
      exact hmul

theorem ofBytes_eq (a b c d : Nat) :
    ofBytes a b c d = BitVec.ofNat 32 (Nat.ofDigits 256 [d, c, b, a]) := by
  have hsum : ((a * 256 + b) * 256 + c) * 256 + d = Nat.ofDigits 256 [d, c, b, a] := by
    simp only [Nat.ofDigits_cons, Nat.ofDigits_nil]
    omega
  rw [ofBytes, hsum]

theorem ofDigits_addrBytes (a : Addr) : Nat.ofDigits 256 (addrBytes a).reverse = a.toNat := by
  have := a.isLt
  simp only [addrBytes, List.reverse_cons, List.reverse_nil, List.nil_append, List.cons_append,
    Nat.ofDigits_cons, Nat.ofDigits_nil]
  omega

theorem inc_eq (a : Addr) : inc a = a + 1#32 := by
  have hmod := ofDigits_incLoop fun b hb => addrBytes_lt a b (List.mem_reverse.mp hb)
  have hlength := length_incLoop (addrBytes a).reverse
  have hpow : 256 ^ (addrBytes a).reverse.length = 2 ^ 32 := by
    rw [List.length_reverse]
    norm_num [addrBytes]
  rw [ofDigits_addrBytes, hpow] at hmod
  unfold inc
  generalize incLoop (addrBytes a).reverse = bytes at hmod hlength ⊢
  obtain ⟨d, c, b, a', rfl⟩ := List.length_eq_four.mp hlength
  show ofBytes a' b c d = a + 1#32
  refine BitVec.eq_of_toNat_eq ?_
  rw [ofBytes_eq, BitVec.toNat_ofNat, BitVec.toNat_add, show (1#32).toNat = 1 from rfl, hmod]

theorem add_one_add (a : Addr) (j : Nat) :
    a + 1#32 + BitVec.ofNat 32 j = a + BitVec.ofNat 32 (j + 1) := by
  rw [BitVec.add_assoc, BitVec.add_comm 1#32, ← BitVec.ofNat_add]

theorem add_ofNat_zero (a : Addr) : a + BitVec.ofNat 32 0 = a := BitVec.add_zero a

/-! ## The loop -/

/-- The loop reaches the index if all addresses before it are in the network. -/
theorem indexLoop_of_contains {fuel : Nat} {start : Int} (hindex : index = start + fuel)
    (hall : ∀ j < fuel, network.contains (a + BitVec.ofNat 32 j) = true) :
    indexLoop network index fuel start a = (index, a + BitVec.ofNat 32 fuel) := by
  induction fuel generalizing start a with
  | zero =>
    rw [indexLoop, add_ofNat_zero, hindex, Nat.cast_zero, Int.add_zero]
  | succ fuel ih =>
    have hfirst : network.contains a = true := by
      have := hall 0 (Nat.succ_pos fuel)
      rwa [add_ofNat_zero] at this
    have hrest : ∀ j < fuel, network.contains (a + 1#32 + BitVec.ofNat 32 j) = true := by
      intro j hj
      rw [add_one_add]
      exact hall (j + 1) (by omega)
    rw [indexLoop, if_pos ⟨by omega, hfirst⟩, inc_eq, ih (by omega) hrest, add_one_add]

/-- The loop stops before the index at an address that is not in the network. -/
theorem indexLoop_of_not_contains {fuel : Nat} {start : Int} (hindex : index = start + fuel)
    {j : Nat} (hj : j < fuel) (hnot : network.contains (a + BitVec.ofNat 32 j) = false) :
    (indexLoop network index fuel start a).1 < index := by
  induction fuel generalizing start a j with
  | zero => omega
  | succ fuel ih =>
    unfold indexLoop
    split_ifs with hcond
    · cases j with
      | zero =>
        rw [add_ofNat_zero, hcond.2] at hnot
        cases hnot
      | succ j =>
        refine ih (by omega) (Nat.lt_of_succ_lt_succ hj) ?_
        rwa [inc_eq, add_one_add]
    · show start < index
      omega

/-! ## The addresses of a network -/

section Aligned

variable (haligned : network.ip = network.ip &&& cidrMask network.ones)

include haligned

/-- The number of a network among those of its length. -/
theorem exists_block : ∃ q < 2 ^ network.ones, network.ip.toNat = q * 2 ^ (32 - network.ones) ∧
    q = network.ip.toNat / 2 ^ (32 - network.ones) ∧
    2 ^ network.ones * 2 ^ (32 - network.ones) = 2 ^ 32 := by
  have hip : network.ip.toNat =
      network.ip.toNat / 2 ^ (32 - network.ones) * 2 ^ (32 - network.ones) := by
    rw [← toNat_and_topMask, ← cidrMask, ← haligned]
  have hsize : 2 ^ network.ones * 2 ^ (32 - network.ones) = 2 ^ 32 := by
    rw [← Nat.pow_add, Nat.add_sub_cancel' network.ones_le]
  refine ⟨_, ?_, hip, rfl, hsize⟩
  refine Nat.div_lt_of_lt_mul ?_
  rw [Nat.mul_comm, hsize]
  exact network.ip.isLt

theorem toNat_add_of_lt {j : Nat} (hj : j < 2 ^ (32 - network.ones)) :
    (network.ip + BitVec.ofNat 32 j).toNat = network.ip.toNat + j := by
  obtain ⟨q, hq, hip, -, hsize⟩ := exists_block haligned
  have hnext : (q + 1) * 2 ^ (32 - network.ones) ≤ 2 ^ 32 := by
    rw [← hsize]
    exact Nat.mul_le_mul_right _ hq
  rw [Nat.succ_mul] at hnext
  rw [BitVec.toNat_add, BitVec.toNat_ofNat, Nat.add_mod_mod]
  exact Nat.mod_eq_of_lt (by omega)

theorem contains_add_of_lt {j : Nat} (hj : j < 2 ^ (32 - network.ones)) :
    network.contains (network.ip + BitVec.ofNat 32 j) = true := by
  obtain ⟨q, -, hip, hdiv, -⟩ := exists_block haligned
  have hpos := Nat.two_pow_pos (32 - network.ones)
  rw [contains_iff, toNat_add_of_lt haligned hj, ← hdiv, hip, Nat.mul_comm, Nat.mul_add_div hpos,
    Nat.div_eq_of_lt hj, Nat.add_zero]

/-- The first address behind a network is not in it, unless the network is everything. -/
theorem contains_behind_iff :
    network.contains (network.ip + BitVec.ofNat 32 (2 ^ (32 - network.ones))) = true ↔
      network.ones = 0 := by
  obtain ⟨q, hq, hip, hdiv, hsize⟩ := exists_block haligned
  have hpos := Nat.two_pow_pos (32 - network.ones)
  rw [contains_iff, BitVec.toNat_add, BitVec.toNat_ofNat, Nat.add_mod_mod, ← hdiv, hip,
    ← Nat.succ_mul]
  rcases Nat.lt_or_eq_of_le (Nat.succ_le_of_lt hq) with hlt | heq
  · -- The next block begins there.
    have hsum : q.succ * 2 ^ (32 - network.ones) < 2 ^ 32 := by
      rw [← hsize]
      exact Nat.mul_lt_mul_of_pos_right hlt hpos
    rw [Nat.mod_eq_of_lt hsum, Nat.mul_div_cancel _ hpos]
    refine ⟨fun hq' => by omega, fun hzero => ?_⟩
    rw [hzero, pow_zero] at hlt
    omega
  · -- The network is the last block, and the address behind it is zero.
    rw [heq, hsize, Nat.mod_self, Nat.zero_div]
    constructor
    · rintro rfl
      exact (Nat.pow_eq_one.mp heq.symm).resolve_left (by decide)
    · intro hzero
      rw [hzero, pow_zero] at heq
      omega

end Aligned

/-! ## The result -/

theorem GetIndexIPFromCIDR_eq (hcidr : parseCIDR cidr = .ok (a, network)) (index : Int) :
    GetIndexIPFromCIDR cidr index =
      if 0 ≤ index ∧ (index ≤ 2 ^ (32 - network.ones) ∨ network.ones = 0) then
        .ok (ipString (addrBytes (network.ip + BitVec.ofNat 32 index.toNat)))
      else .error "your index is out of the cidr" := by
  have hip := parseCIDR_aligned hcidr
  have haligned : network.ip = network.ip &&& cidrMask network.ones := by
    rw [hip, BitVec.and_assoc, BitVec.and_self]
  unfold GetIndexIPFromCIDR
  rw [hcidr]
  simp only
  rw [← hip]
  by_cases hneg : index < 0
  · rw [Int.toNat_of_nonpos hneg.le, indexLoop]
    exact (if_pos hneg.ne').trans (if_neg fun hrange => absurd hrange.1 (Int.not_le.mpr hneg)).symm
  · obtain ⟨n, rfl⟩ := Int.eq_ofNat_of_zero_le (Int.not_lt.mp hneg)
    rw [Int.toNat_natCast]
    have hstart : ((n : Nat) : Int) = 0 + (n : Int) := (Int.zero_add _).symm
    by_cases hrange : (n : Int) ≤ 2 ^ (32 - network.ones) ∨ network.ones = 0
    · have hall : ∀ j < n, network.contains (network.ip + BitVec.ofNat 32 j) = true := by
        intro j hj
        rcases hrange with hle | hzero
        · have hlt : j < 2 ^ (32 - network.ones) := Nat.lt_of_lt_of_le hj (by exact_mod_cast hle)
          exact contains_add_of_lt haligned hlt
        · rw [contains_iff, hzero, Nat.div_eq_of_lt network.ip.isLt, Nat.div_eq_of_lt (BitVec.isLt _)]
      rw [indexLoop_of_contains hstart hall]
      exact (if_neg fun hne => hne rfl).trans (if_pos ⟨Int.natCast_nonneg n, hrange⟩).symm
    · have hlt : 2 ^ (32 - network.ones) < n := by
        by_contra hle
        exact hrange (.inl (by exact_mod_cast Nat.not_lt.mp hle))
      have hnot : network.contains (network.ip + BitVec.ofNat 32 (2 ^ (32 - network.ones))) = false := by
        refine Bool.eq_false_iff.mpr fun hcontains => hrange (.inr ?_)
        exact (contains_behind_iff haligned).mp hcontains
      have hstop := indexLoop_of_not_contains hstart hlt hnot
      exact (if_pos hstop.ne).trans (if_neg fun hall => hrange hall.2).symm

/-- The function succeeds exactly for the indices of the network's addresses, and then with the
address of the index. -/
def ExactAt (cidr : String) (network : IPNet) (index : Int) : Prop :=
  ((∃ s, GetIndexIPFromCIDR cidr index = .ok s) ↔ 0 ≤ index ∧ index < 2 ^ (32 - network.ones)) ∧
  ∀ s, GetIndexIPFromCIDR cidr index = .ok s → ∃ address : Addr,
    s = ipString (addrBytes address) ∧ (address.toNat : Int) = network.ip.toNat + index ∧
      network.contains address = true

/-- It is exact, except for the first index behind the network, and for all large ones if the
network is everything. -/
theorem GetIndexIPFromCIDR_exact_iff (hcidr : parseCIDR cidr = .ok (a, network)) (index : Int) :
    ExactAt cidr network index ↔
      index < 2 ^ (32 - network.ones) ∨ 2 ^ (32 - network.ones) < index ∧ network.ones ≠ 0 := by
  have haligned : network.ip = network.ip &&& cidrMask network.ones := by
    rw [parseCIDR_aligned hcidr, BitVec.and_assoc, BitVec.and_self]
  constructor
  · rintro ⟨hsome, -⟩
    by_contra hbeyond
    rw [not_or, not_lt, not_and, not_not] at hbeyond
    obtain ⟨hle, hzero⟩ := hbeyond
    have hpos : (0 : Int) < 2 ^ (32 - network.ones) := by positivity
    have hrange : 0 ≤ index ∧ (index ≤ 2 ^ (32 - network.ones) ∨ network.ones = 0) := by
      refine ⟨hpos.le.trans hle, ?_⟩
      rcases hle.eq_or_lt with heq | hlt
      · exact .inl heq.ge
      · exact .inr (hzero hlt)
    have hlt := (hsome.mp ⟨_, (GetIndexIPFromCIDR_eq hcidr index).trans (if_pos hrange)⟩).2
    exact absurd hlt (not_lt.mpr hle)
  · intro hindex
    have hnot : ¬ index < 2 ^ (32 - network.ones) →
        GetIndexIPFromCIDR cidr index = .error "your index is out of the cidr" := by
      intro hge
      obtain ⟨hbeyond, hones⟩ := hindex.resolve_left hge
      refine (GetIndexIPFromCIDR_eq hcidr index).trans (if_neg fun hrange => ?_)
      exact hrange.2.elim (fun hle => absurd hle (not_le.mpr hbeyond)) hones
    have hrange : ∀ s, GetIndexIPFromCIDR cidr index = .ok s →
        0 ≤ index ∧ index < 2 ^ (32 - network.ones) := by
      intro s hs
      have hlt : index < 2 ^ (32 - network.ones) := by
        by_contra hge
        rw [hnot hge] at hs
        cases hs
      rw [GetIndexIPFromCIDR_eq hcidr] at hs
      split_ifs at hs with hcond
      exact ⟨hcond.1, hlt⟩
    have hok : 0 ≤ index ∧ index < 2 ^ (32 - network.ones) → GetIndexIPFromCIDR cidr index =
        .ok (ipString (addrBytes (network.ip + BitVec.ofNat 32 index.toNat))) := fun hin =>
      (GetIndexIPFromCIDR_eq hcidr index).trans (if_pos ⟨hin.1, .inl hin.2.le⟩)
    refine ⟨⟨fun hs => hrange _ hs.choose_spec, fun hin => ⟨_, hok hin⟩⟩, fun s hs => ?_⟩
    have hin := hrange s hs
    obtain ⟨n, rfl⟩ := Int.eq_ofNat_of_zero_le hin.1
    have hn : n < 2 ^ (32 - network.ones) := by exact_mod_cast hin.2
    refine ⟨network.ip + BitVec.ofNat 32 n, ?_, ?_, contains_add_of_lt haligned hn⟩
    · exact Except.ok.inj (hs.symm.trans (hok hin))
    · rw [toNat_add_of_lt haligned hn]
      exact Nat.cast_add _ _

theorem GetIndexIPFromCIDR_exact_last :
    ExactAt "10.16.8.0/30" ⟨0x0a100800#32, 30, by decide⟩ 3 :=
  (GetIndexIPFromCIDR_exact_iff (a := 0x0a100800#32) (by decide) 3).mpr (.inl (by decide))

/-- The first index behind a network gives an address that is not in it. -/
theorem GetIndexIPFromCIDR_leaves_network :
    GetIndexIPFromCIDR "10.16.8.0/30" 4 = .ok "10.16.8.4" ∧
      parseCIDR "10.16.8.0/30" = .ok (0x0a100800#32, ⟨0x0a100800#32, 30, by decide⟩) ∧
      (⟨0x0a100800#32, 30, by decide⟩ : IPNet).contains 0x0a100804#32 = false := by
  refine ⟨by decide, by decide, by decide⟩

end Fleetboard.NetUtil
