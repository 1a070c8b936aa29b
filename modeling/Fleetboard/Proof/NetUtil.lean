import Fleetboard.Model.NetUtil
import Fleetboard.Proof.Net

/-!
# Dividing networks: what the search returns

The search tries the blocks `blockAt network d i` in order. A block is `Free`
when it has no address in common with an existing CIDR, and that is what the
search tests (`overlapping_candidate`) on the blocks whose address still is a
four-byte number (`Tried`); beyond them a candidate has no text that parses
(`candidate_junk`) and the test panics. `findAvailableCIDR_eq_ok` says what the
search returns: the first free block.

The blocks inside the network are the first `2^(d - network.ones)`
(`blockAt_inside_iff`), a bound the loop does not use: it stops after
`2^(32 - d)` blocks. `availableCIDR_inside_iff` is the exact condition under
which the block returned is inside all the same.
-/

namespace Fleetboard.NetUtil

open Fleetboard.Net

/-! ## The set of existing CIDRs -/

/-- Entries that the search can read: empty, or a CIDR. -/
def Readable (existing : List String) : Prop := ∀ c ∈ existing, c = "" ∨ ∃ r, parseCIDR c = .ok r

/-- A block that has no address in common with an existing CIDR. -/
def Free (existing : List String) (b : IPNet) : Prop :=
  ∀ c ∈ existing, ∀ a n, parseCIDR c = .ok (a, n) → ¬ n.Meets b

theorem Readable.tail {c : String} {cs : List String} (h : Readable (c :: cs)) : Readable cs :=
  fun d hd => h d (List.mem_cons_of_mem _ hd)

theorem parseCIDR_empty : parseCIDR "" = .error "invalid CIDR address: " := by decide

theorem ne_empty_of_parseCIDR {c : String} {r : Addr × IPNet} (h : parseCIDR c = .ok r) : c ≠ "" := by
  rintro rfl
  rw [parseCIDR_empty] at h
  cases h

/-- What the set built from the entries says of blocks: its members are
networks, and they meet the same blocks of length `d` as the entries do. -/
structure SetSpec (existing : List String) (d : Nat) (set : List String) : Prop where
  members : ∀ c ∈ set, ∃ n : IPNet, c = n.string
  meets : ∀ b : IPNet, b.ones = d → ((∃ n : IPNet, n.string ∈ set ∧ n.Meets b) ↔ ¬ Free existing b)
  nil_iff : set = [] ↔ ∀ c ∈ existing, c = ""

theorem SetSpec.nil (d : Nat) : SetSpec [] d [] :=
  ⟨by simp, fun b _ => by simp [Free], by simp⟩

variable {cidr s : String} {existing set : List String} {network : IPNet} {a : Addr} {d : Nat}

theorem SetSpec.cons_empty {cs : List String} (h : SetSpec cs d set) :
    SetSpec ("" :: cs) d set where
  members := h.members
  meets b hb := by simpa [Free, parseCIDR_empty] using h.meets b hb
  nil_iff := by simpa using h.nil_iff

theorem SetSpec.cons {cs : List String} (h : SetSpec cs d set) {c : String} {n : IPNet}
    (hc : parseCIDR c = .ok (a, n)) :
    SetSpec (c :: cs) d (set.insert { n with ip := n.ip &&& cidrMask d }.string) where
  members s hs := by
    rcases List.mem_insert_iff.mp hs with rfl | hs
    · exact ⟨_, rfl⟩
    · exact h.members s hs
  meets b hb := by
    subst hb
    have hfree : Free (c :: cs) b ↔ ¬ n.Meets b ∧ Free cs b := by simp [Free, hc]
    rw [hfree, not_and_or, not_not, ← h.meets b rfl]
    constructor
    · rintro ⟨m, hm, hmb⟩
      rcases List.mem_insert_iff.mp hm with hm | hm
      · rw [string_injective hm] at hmb
        exact .inl ((meets_trim n b).mp hmb)
      · exact .inr ⟨m, hm, hmb⟩
    · rintro (hnb | ⟨m, hm, hmb⟩)
      · exact ⟨_, List.mem_insert_self, (meets_trim n b).mpr hnb⟩
      · exact ⟨m, List.mem_insert_of_mem hm, hmb⟩
  nil_iff := by
    constructor
    · intro hn
      have hmem := List.mem_insert_self (l := set)
        (a := ({ n with ip := n.ip &&& cidrMask d } : IPNet).string)
      rw [hn] at hmem
      cases hmem
    · intro hall
      exact absurd (hall c List.mem_cons_self) (ne_empty_of_parseCIDR hc)

theorem existingCIDRSet_spec (h : Readable existing) (d : Nat) :
    ∃ set, existingCIDRSet d existing = .ok set ∧ SetSpec existing d set := by
  induction existing with
  | nil => exact ⟨[], rfl, .nil d⟩
  | cons c cs ih =>
    obtain ⟨set, hset, hspec⟩ := ih h.tail
    rcases h c List.mem_cons_self with rfl | ⟨⟨a, n⟩, hc⟩
    · exact ⟨set, by simpa [existingCIDRSet] using hset, hspec.cons_empty⟩
    · refine ⟨_, ?_, hspec.cons hc⟩
      simp only [existingCIDRSet, if_neg (ne_empty_of_parseCIDR hc), hc, hset]
      rfl

/-! ## One candidate -/

theorem isOverlappingCIDR_eq {c c' : String} {a a' : Addr} {n n' : IPNet}
    (h : parseCIDR c = .ok (a, n)) (h' : parseCIDR c' = .ok (a', n')) :
    isOverlappingCIDR c c' = .ok (decide (n.Meets n')) := by
  simp only [isOverlappingCIDR, h, h', Except.ok.injEq]
  rw [Bool.eq_iff_iff, decide_eq_true_iff, meets_iff]

/-- The test of a candidate that is a CIDR. -/
theorem overlapping_eq {new : String} {b : IPNet} (hb : parseCIDR new = .ok (a, b))
    (hset : ∀ c ∈ set, ∃ n : IPNet, c = n.string) :
    ∃ r, overlapping new set = .ok r ∧ (r = true ↔ ∃ n : IPNet, n.string ∈ set ∧ n.Meets b) := by
  induction set with
  | nil => exact ⟨false, rfl, by simp⟩
  | cons c cs ih =>
    obtain ⟨n, rfl⟩ := hset c List.mem_cons_self
    obtain ⟨r, hr, hiff⟩ := ih fun c hc => hset c (List.mem_cons_of_mem _ hc)
    have hov := isOverlappingCIDR_eq (parseCIDR_string n) hb
    by_cases hn : n.Meets b
    · refine ⟨true, ?_, by simpa using ⟨n, .inl rfl, hn⟩⟩
      rw [decide_eq_true ((meets_mask n b).mpr hn)] at hov
      simp only [overlapping, hov]
      rfl
    · refine ⟨r, ?_, hiff.trans ⟨fun ⟨m, hm, hmb⟩ => ⟨m, List.mem_cons_of_mem _ hm, hmb⟩, ?_⟩⟩
      · rw [decide_eq_false (mt (meets_mask n b).mp hn)] at hov
        simp only [overlapping, hov]
        exact hr
      · rintro ⟨m, hm, hmb⟩
        rcases List.mem_cons.mp hm with hm | hm
        · rw [string_injective hm] at hmb
          exact absurd hmb hn
        · exact ⟨m, hm, hmb⟩

/-- The test of a candidate that is no CIDR: it panics, unless there is nothing
to test against. -/
theorem overlapping_junk {new : String} {e : Error} (hj : parseCIDR new = .error e) :
    overlapping new set = if set = [] then .ok false else .error .nilDereference := by
  cases set with
  | nil => rfl
  | cons c cs =>
    have hov : isOverlappingCIDR c new = .error .nilDereference := by
      simp only [isOverlappingCIDR, hj]
      split
      · next h => cases h
      · rfl
    simp only [overlapping, hov, reduceCtorEq, ↓reduceIte]
    rfl

theorem bigBytes_lt (n : Nat) : ∀ b ∈ bigBytes n, b < 256 := by
  intro b hb
  rw [bigBytes, List.mem_reverse] at hb
  exact Nat.digits_lt_base (by decide) hb

theorem bigBytes_four {n : Nat} (h₁ : 2 ^ 24 ≤ n) (h₂ : n < 2 ^ 32) :
    bigBytes n = addrBytes (BitVec.ofNat 32 n) := by
  rw [bigBytes, Nat.digits_def' (by decide) (by omega), Nat.digits_def' (by decide) (by omega),
    Nat.digits_def' (by decide) (by omega), Nat.digits_def' (by decide) (by omega),
    show n / 256 / 256 / 256 / 256 = 0 by omega, Nat.digits_zero, addrBytes, BitVec.toNat_ofNat,
    Nat.mod_eq_of_lt h₂]
  simp only [List.reverse_cons, List.reverse_nil, List.nil_append, List.cons_append,
    List.cons.injEq, and_true]
  omega

theorem length_bigBytes_ne {n : Nat} (h : n < 2 ^ 24 ∨ 2 ^ 32 ≤ n) : (bigBytes n).length ≠ 4 := by
  rw [bigBytes, List.length_reverse]
  rcases h with h | h
  · have := (Nat.digits_length_le_iff (b := 256) (k := 3) (by decide) n).mpr (by omega)
    omega
  · have := (Nat.lt_digits_length_iff (b := 256) (k := 4) (by decide) n).mpr (by omega)
    omega

/-- Block `i` of length `d` from the address of the network on. -/
def blockAt (network : IPNet) {d : Nat} (hd : d ≤ 32) (i : Nat) : IPNet :=
  ⟨BitVec.ofNat 32 (network.ip.toNat + i * 2 ^ (32 - d)), d, hd⟩

section

variable (hd : d ≤ 32) {i : Nat}

/-- A candidate whose address is a number of four bytes is the text of its
block. -/
theorem parseCIDR_candidate (h₁ : 2 ^ 24 ≤ network.ip.toNat)
    (h₂ : network.ip.toNat + i * 2 ^ (32 - d) < 2 ^ 32) :
    parseCIDR (candidate network d i) = .ok ((blockAt network hd i).ip,
      { blockAt network hd i with ip := (blockAt network hd i).ip &&& cidrMask d }) := by
  rw [candidate, Nat.shiftLeft_eq, bigBytes_four (Nat.le_add_right_of_le h₁) h₂]
  exact parseCIDR_addr _ hd

theorem candidate_junk (h : network.ip.toNat + i * 2 ^ (32 - d) < 2 ^ 24 ∨
    2 ^ 32 ≤ network.ip.toNat + i * 2 ^ (32 - d)) :
    ∃ e, parseCIDR (candidate network d i) = .error e := by
  rw [candidate, Nat.shiftLeft_eq]
  exact parseCIDR_junk (length_bigBytes_ne h) (bigBytes_lt _) d

/-- The search tests a block of the network for being free. -/
theorem overlapping_candidate (h₁ : 2 ^ 24 ≤ network.ip.toNat)
    (h₂ : network.ip.toNat + i * 2 ^ (32 - d) < 2 ^ 32) {existing set : List String}
    (hset : SetSpec existing d set) :
    ∃ r, overlapping (candidate network d i) set = .ok r ∧
      (r = false ↔ Free existing (blockAt network hd i)) := by
  obtain ⟨r, hr, hiff⟩ := overlapping_eq (parseCIDR_candidate hd h₁ h₂) hset.members
  refine ⟨r, hr, ?_⟩
  have hm := hset.meets (blockAt network hd i) rfl
  have hmask : ∀ n : IPNet, n.Meets { blockAt network hd i with
      ip := (blockAt network hd i).ip &&& cidrMask d } ↔ n.Meets (blockAt network hd i) := fun n =>
    ⟨fun h => ((meets_mask (blockAt network hd i) n).mp h.symm).symm,
      fun h => ((meets_mask (blockAt network hd i) n).mpr h.symm).symm⟩
  simp only [hmask, hm] at hiff
  rw [← not_iff_not, ← hiff, Bool.not_eq_false]

theorem overlapping_candidate_eq_ok (h₁ : 2 ^ 24 ≤ network.ip.toNat)
    (h₂ : network.ip.toNat + i * 2 ^ (32 - d) < 2 ^ 32) {existing set : List String}
    (hset : SetSpec existing d set) :
    (overlapping (candidate network d i) set = .ok false ↔ Free existing (blockAt network hd i)) ∧
      (overlapping (candidate network d i) set = .ok true ↔
        ¬ Free existing (blockAt network hd i)) := by
  obtain ⟨r, hr, hiff⟩ := overlapping_candidate hd h₁ h₂ hset
  rw [hr, ← hiff]
  cases r <;> simp

end

/-! ## The search -/

theorem firstAvailable_eq_ok {fuel i : Nat} :
    firstAvailable network d set fuel i = .ok (.ok s) ↔
      ∃ k < fuel, s = candidate network d (i + k) ∧
        overlapping (candidate network d (i + k)) set = .ok false ∧
        ∀ j < k, overlapping (candidate network d (i + j)) set = .ok true := by
  induction fuel generalizing i with
  | zero => simp [firstAvailable]
  | succ fuel ih =>
    simp only [firstAvailable]
    constructor
    · intro h
      obtain ⟨r, hr, h⟩ := Go.bind_eq_ok.mp h
      cases r with
      | false =>
        cases h
        exact ⟨0, Nat.succ_pos _, rfl, hr, fun j hj => absurd hj (Nat.not_lt_zero j)⟩
      | true =>
        obtain ⟨k, hk, hs, hf, ht⟩ := ih.mp h
        refine ⟨k + 1, Nat.succ_lt_succ hk, ?_, ?_, fun j hj => ?_⟩
        · rw [hs, Nat.add_right_comm, Nat.add_assoc]
        · rw [← hf, Nat.add_right_comm, Nat.add_assoc]
        · cases j with
          | zero => exact hr
          | succ j =>
            rw [← ht j (Nat.lt_of_succ_lt_succ hj), Nat.add_right_comm, Nat.add_assoc]
    · rintro ⟨k, hk, hs, hf, ht⟩
      cases k with
      | zero =>
        rw [Nat.add_zero] at hf hs
        rw [hf, hs]; rfl
      | succ k =>
        have h0 := ht 0 (Nat.succ_pos _)
        rw [Nat.add_zero] at h0
        rw [h0]
        refine ih.mpr ⟨k, Nat.lt_of_succ_lt_succ hk, ?_, ?_, fun j hj => ?_⟩
        · rw [hs, Nat.add_right_comm, Nat.add_assoc]
        · rw [← hf, Nat.add_right_comm, Nat.add_assoc]
        · rw [← ht (j + 1) (Nat.succ_lt_succ hj), Nat.add_right_comm, Nat.add_assoc]

/-- The blocks the search reaches: as many as a block has addresses, as long as
their address is a number of four bytes. -/
def Tried (network : IPNet) (d i : Nat) : Prop :=
  i < 2 ^ (32 - d) ∧ network.ip.toNat + i * 2 ^ (32 - d) < 2 ^ 32

theorem Tried.mono {d i j : Nat} (h : Tried network d i) (hj : j ≤ i) :
    Tried network d j :=
  ⟨Nat.lt_of_le_of_lt hj h.1, Nat.lt_of_le_of_lt (Nat.add_le_add_left
    (Nat.mul_le_mul_right _ hj) _) h.2⟩

section

variable (hp : parseCIDR cidr = .ok (a, network)) (hex : Readable existing) (hd : d ≤ 32)

include hp hex

/-- The search is the loop, over the set built from the entries. -/
theorem findAvailableCIDR_eq_firstAvailable : ∃ set, existingCIDRSet d existing = .ok set ∧
    SetSpec existing d set ∧
    findAvailableCIDR cidr existing d = firstAvailable network d set (2 ^ (32 - d)) 0 := by
  obtain ⟨set, hset, hspec⟩ := existingCIDRSet_spec hex d
  refine ⟨set, hset, hspec, ?_⟩
  simp only [findAvailableCIDR, hp, hset, Nat.shiftLeft_eq, Nat.one_mul]
  rfl

/-- The search in a network whose first byte is not zero returns the first
block it reaches that is free. -/
theorem findAvailableCIDR_eq_ok (h₁ : 2 ^ 24 ≤ network.ip.toNat) :
    findAvailableCIDR cidr existing d = .ok (.ok s) ↔
      ∃ k, Tried network d k ∧ s = candidate network d k ∧ Free existing (blockAt network hd k) ∧
        ∀ j < k, ¬ Free existing (blockAt network hd j) := by
  obtain ⟨set, -, hspec, hfind⟩ := findAvailableCIDR_eq_firstAvailable (d := d) hp hex
  have hone := fun {k} (hk : network.ip.toNat + k * 2 ^ (32 - d) < 2 ^ 32) =>
    overlapping_candidate_eq_ok hd h₁ hk hspec
  rw [hfind, firstAvailable_eq_ok]
  simp only [Nat.zero_add]
  constructor
  · rintro ⟨k, hk, hs, hf, ht⟩
    have hk32 : network.ip.toNat + k * 2 ^ (32 - d) < 2 ^ 32 := by
      by_contra hge
      -- Past four bytes the test panics: the set is not empty, or block 0 would do.
      obtain ⟨e, he⟩ := candidate_junk (.inr (Nat.le_of_not_lt hge))
      rw [overlapping_junk he] at hf
      by_cases hn : set = []
      · subst hn
        cases k with
        | zero =>
          have := network.ip.isLt
          omega
        | succ k =>
          have h0 := ht 0 (Nat.succ_pos k)
          simp [overlapping] at h0
      · rw [if_neg hn] at hf
        cases hf
    have hT : Tried network d k := ⟨hk, hk32⟩
    exact ⟨k, hT, hs, (hone hk32).1.mp hf, fun j hj =>
      (hone (hT.mono hj.le).2).2.mp (ht j hj)⟩
  · rintro ⟨k, hT, hs, hf, ht⟩
    exact ⟨k, hT.1, hs, (hone hT.2).1.mpr hf, fun j hj => (hone (hT.mono hj.le).2).2.mpr (ht j hj)⟩

/-- The search in a network whose first byte is zero returns at once, and no
CIDR, or panics. -/
theorem findAvailableCIDR_zero (h₁ : network.ip.toNat < 2 ^ 24) :
    findAvailableCIDR cidr existing d = .ok (.ok s) ↔
      (∀ c ∈ existing, c = "") ∧ s = candidate network d 0 := by
  obtain ⟨set, -, hspec, hfind⟩ := findAvailableCIDR_eq_firstAvailable (d := d) hp hex
  obtain ⟨e, he⟩ := @candidate_junk network d 0 (.inl (by simpa using h₁))
  rw [← hspec.nil_iff, hfind, firstAvailable_eq_ok]
  simp only [Nat.zero_add]
  constructor
  · rintro ⟨k, -, hs, hf, ht⟩
    have h0 : overlapping (candidate network d 0) set = .ok false := by
      cases k with
      | zero => exact hf
      | succ k =>
        have h0 := ht 0 (Nat.succ_pos k)
        rw [overlapping_junk he] at h0
        split at h0 <;> cases h0
    have hn : set = [] := by
      rw [overlapping_junk he] at h0
      by_contra hn
      rw [if_neg hn] at h0
      cases h0
    subst hn
    cases k with
    | zero => exact ⟨rfl, hs⟩
    | succ k =>
      have := ht 0 (Nat.succ_pos k)
      simp [overlapping] at this
  · rintro ⟨rfl, rfl⟩
    exact ⟨0, Nat.two_pow_pos _, rfl, rfl, fun j hj => absurd hj (Nat.not_lt_zero j)⟩

end

/-! ## Blocks inside the network -/

theorem div_blockAt (hd : d ≤ 32) {i : Nat} (h : network.ip.toNat + i * 2 ^ (32 - d) < 2 ^ 32) :
    (blockAt network hd i).ip.toNat / 2 ^ (32 - d) = network.ip.toNat / 2 ^ (32 - d) + i := by
  rw [blockAt, BitVec.toNat_ofNat, Nat.mod_eq_of_lt h, Nat.add_mul_div_right _ _ (Nat.two_pow_pos _)]

/-- The blocks of an aligned network that are inside it are the first
`2^(d - network.ones)`. -/
theorem blockAt_inside_iff (hal : network.ip = network.ip &&& cidrMask network.ones)
    (hd : d ≤ 32) (hpd : network.ones ≤ d) {i : Nat}
    (h : network.ip.toNat + i * 2 ^ (32 - d) < 2 ^ 32) :
    (∀ x, (blockAt network hd i).contains x → network.contains x) ↔ i < 2 ^ (d - network.ones) := by
  have hpow : 2 ^ (32 - network.ones) = 2 ^ (32 - d) * 2 ^ (d - network.ones) := by
    rw [← Nat.pow_add]; congr 1; omega
  -- In units of blocks the network starts at a multiple of its own size.
  have hbase : network.ip.toNat / 2 ^ (32 - d) =
      network.ip.toNat / 2 ^ (32 - network.ones) * 2 ^ (d - network.ones) := by
    conv_lhs => rw [hal, cidrMask, toNat_and_topMask, hpow, Nat.mul_left_comm,
      Nat.mul_div_cancel_left _ (Nat.two_pow_pos _)]
    rw [hpow]
  have hup : ∀ x : Nat, x / 2 ^ (32 - network.ones) = x / 2 ^ (32 - d) / 2 ^ (d - network.ones) := by
    intro x; rw [hpow, Nat.div_div_eq_div_mul]
  have hself : network.contains (blockAt network hd i).ip ↔ i < 2 ^ (d - network.ones) := by
    rw [contains_iff, hup (blockAt network hd i).ip.toNat, div_blockAt hd h, hbase, Nat.add_comm,
      Nat.add_mul_div_right _ _ (Nat.two_pow_pos _), Nat.right_eq_add,
      Nat.div_eq_zero_iff_lt (Nat.two_pow_pos _)]
  refine ⟨fun hin => hself.mp (hin _ (contains_iff.mpr rfl)), fun hi x hx => ?_⟩
  have hx' := contains_iff.mp hx
  rw [← hself, contains_iff] at hi
  rw [contains_iff, hi]
  exact div_pow_mono (show 32 - d ≤ 32 - network.ones by omega) hx'

theorem divideTunnelNetwork_bounds (hp : parseCIDR cidr = .ok (a, network))
    (h : divideTunnelNetwork cidr = .ok d) :
    network.ones ≤ d ∧ d ≤ 32 := by
  simp only [divideTunnelNetwork, hp] at h
  split_ifs at h <;> cases h <;> omega

theorem divideClusterNetwork_bounds (hp : parseCIDR cidr = .ok (a, network))
    (h : divideClusterNetwork cidr = .ok d) :
    network.ones ≤ d ∧ d ≤ 32 := by
  simp only [divideClusterNetwork, hp] at h
  split_ifs at h <;> cases h <;> omega

/-! ## The block returned is apart from the existing ones -/

/-- Two texts without a common address; a text that is no CIDR has none. -/
def Apart (c c' : String) : Prop :=
  ∀ a n a' n', parseCIDR c = .ok (a, n) → parseCIDR c' = .ok (a', n') → ¬ n.Meets n'

theorem Apart.symm {c c' : String} (h : Apart c c') : Apart c' c :=
  fun a n a' n' hc hc' hm => h a' n' a n hc' hc hm.symm

theorem readable_of_existingCIDRSet (h : existingCIDRSet d existing = .ok set) :
    Readable existing := by
  induction existing generalizing set with
  | nil => simp [Readable]
  | cons c cs ih =>
    rw [existingCIDRSet] at h
    by_cases hc : c = ""
    · rw [if_pos hc] at h
      exact List.forall_mem_cons.mpr ⟨.inl hc, ih h⟩
    · rw [if_neg hc] at h
      cases hp : parseCIDR c with
      | error e => simp [hp] at h
      | ok r =>
        simp only [hp] at h
        obtain ⟨set', hset', -⟩ := Go.bind_eq_ok.mp h
        exact List.forall_mem_cons.mpr ⟨.inr ⟨r, hp⟩, ih hset'⟩

theorem readable_of_findAvailableCIDR {r : Addr × IPNet} (hp : parseCIDR cidr = .ok r)
    {result : Except Error String} (h : findAvailableCIDR cidr existing d = .ok result) :
    Readable existing := by
  simp only [findAvailableCIDR, hp] at h
  obtain ⟨set, hset, -⟩ := Go.bind_eq_ok.mp h
  exact readable_of_existingCIDRSet hset

theorem candidate_ne_empty (network : IPNet) (d i : Nat) : candidate network d i ≠ "" := by
  intro h
  have := congrArg String.length h
  simp [candidate, String.length_append] at this

theorem findAvailableCIDR_apart (hd : ∀ a network, parseCIDR cidr = .ok (a, network) → d ≤ 32)
    (h : findAvailableCIDR cidr existing d = .ok (.ok s)) :
    (∃ network d i, s = candidate network d i) ∧ ∀ c ∈ existing, Apart c s := by
  cases hp : parseCIDR cidr with
  | error e => simp [findAvailableCIDR, hp] at h
  | ok r =>
    obtain ⟨a, network⟩ := r
    replace hd := hd a network hp
    have hex := readable_of_findAvailableCIDR hp h
    rcases Nat.lt_or_ge network.ip.toNat (2 ^ 24) with h₁ | h₁
    · obtain ⟨hempty, rfl⟩ := (findAvailableCIDR_zero hp hex h₁).mp h
      refine ⟨⟨_, _, _, rfl⟩, fun c hc a n a' n' hpc => ?_⟩
      exact absurd (hempty c hc) (ne_empty_of_parseCIDR hpc)
    · obtain ⟨k, hT, rfl, hfree, -⟩ := (findAvailableCIDR_eq_ok hp hex hd h₁).mp h
      refine ⟨⟨_, _, _, rfl⟩, fun c hc a n a' n' hpc hps hm => ?_⟩
      rw [parseCIDR_candidate hd h₁ hT.2] at hps
      cases hps
      exact hfree c hc a n hpc ((meets_mask _ _).mp hm.symm).symm

theorem FindTunnelAvailableCIDR_apart (h : FindTunnelAvailableCIDR cidr existing = .ok (.ok s)) :
    (∃ network d i, s = candidate network d i) ∧ ∀ c ∈ existing, Apart c s := by
  rw [FindTunnelAvailableCIDR] at h
  cases hd : divideTunnelNetwork cidr with
  | error e => simp [hd] at h
  | ok d =>
    simp only [hd] at h
    exact findAvailableCIDR_apart (fun _ _ hp => (divideTunnelNetwork_bounds hp hd).2) h

theorem FindClusterAvailableCIDR_apart (h : FindClusterAvailableCIDR cidr existing = .ok (.ok s)) :
    (∃ network d i, s = candidate network d i) ∧ ∀ c ∈ existing, Apart c s := by
  rw [FindClusterAvailableCIDR] at h
  cases hd : divideClusterNetwork cidr with
  | error e => simp [hd] at h
  | ok d =>
    simp only [hd] at h
    exact findAvailableCIDR_apart (fun _ _ hp => (divideClusterNetwork_bounds hp hd).2) h

/-! ## The block returned is inside the network -/

/-- What a search returns is a CIDR, and all its addresses are in the
network. -/
def ReturnsInside (network : IPNet) (result : Go (Except Error String)) : Prop :=
  ∀ s, result = .ok (.ok s) →
    ∃ a b, parseCIDR s = .ok (a, b) ∧ ∀ x, b.contains x → network.contains x

/-- When a search in the network for a block of length `d` stays inside it: in
a network whose first byte is not zero, when some block inside is free as soon
as any block that the loop reaches is; in one whose first byte is zero, when
there is an entry to panic on. -/
def RoomInside (network : IPNet) {d : Nat} (hd : d ≤ 32) (existing : List String) : Prop :=
  if network.ip.toNat < 2 ^ 24 then ∃ c ∈ existing, c ≠ ""
  else (∃ i, Tried network d i ∧ Free existing (blockAt network hd i)) →
    ∃ i < 2 ^ (d - network.ones), Tried network d i ∧ Free existing (blockAt network hd i)

theorem findAvailableCIDR_inside_iff (hp : parseCIDR cidr = .ok (a, network))
    (hex : Readable existing) (hd : d ≤ 32) (hpd : network.ones ≤ d) :
    ReturnsInside network (findAvailableCIDR cidr existing d) ↔ RoomInside network hd existing := by
  have hal : network.ip = network.ip &&& cidrMask network.ones := by
    rw [parseCIDR_aligned hp, BitVec.and_assoc, BitVec.and_self]
  unfold RoomInside ReturnsInside
  split
  · next h₁ =>
    simp only [findAvailableCIDR_zero hp hex h₁]
    constructor
    · intro h
      by_contra hne
      have hall : ∀ c ∈ existing, c = "" := fun c hc => by
        by_contra hc'
        exact hne ⟨c, hc, hc'⟩
      obtain ⟨_, _, hb, -⟩ := h _ ⟨hall, rfl⟩
      obtain ⟨e, he⟩ := @candidate_junk network d 0
        (.inl (by simpa using h₁))
      rw [he] at hb
      cases hb
    · rintro ⟨c, hc, hne⟩ s ⟨hall, -⟩
      exact absurd (hall c hc) hne
  · next h₁ =>
    have h₁ : 2 ^ 24 ≤ network.ip.toNat := Nat.le_of_not_lt h₁
    -- The text of a block is inside exactly when its index is.
    have htext : ∀ {k}, Tried network d k →
        ((∃ a b, parseCIDR (candidate network d k) = .ok (a, b) ∧
          ∀ x, b.contains x → network.contains x) ↔ k < 2 ^ (d - network.ones)) := by
      intro k hk
      rw [← blockAt_inside_iff hal hd hpd hk.2, parseCIDR_candidate hd h₁ hk.2]
      simp only [Except.ok.injEq, Prod.mk.injEq, existsAndEq, true_and]
      simp only [contains_iff, blockAt, div_mask (Nat.le_refl _)]
    simp only [findAvailableCIDR_eq_ok hp hex hd h₁]
    classical
    constructor
    · rintro h hsome
      have hfirst := Nat.find_spec hsome
      refine ⟨Nat.find hsome, ?_, hfirst⟩
      refine (htext hfirst.1).mp (h _ ⟨Nat.find hsome, hfirst.1, rfl, hfirst.2, fun j hj hfree => ?_⟩)
      exact Nat.find_min hsome hj ⟨hfirst.1.mono hj.le, hfree⟩
    · rintro h s ⟨k, hk, rfl, hfree, hmin⟩
      obtain ⟨i, hi, -, hfi⟩ := h ⟨k, hk, hfree⟩
      refine (htext hk).mpr (Nat.lt_of_le_of_lt ?_ hi)
      by_contra hlt
      exact hmin i (Nat.lt_of_not_le hlt) hfi

/-- When the blocks that `FindTunnelAvailableCIDR` and
`FindClusterAvailableCIDR` return are inside the network they are given. -/
theorem availableCIDR_inside_iff {cidr : String} {a : Addr} {network : IPNet}
    (hp : parseCIDR cidr = .ok (a, network)) {existing : List String} (hex : Readable existing) :
    (∀ d (h : divideTunnelNetwork cidr = .ok d),
      ReturnsInside network (FindTunnelAvailableCIDR cidr existing) ↔
        RoomInside network (divideTunnelNetwork_bounds hp h).2 existing) ∧
    (∀ d (h : divideClusterNetwork cidr = .ok d),
      ReturnsInside network (FindClusterAvailableCIDR cidr existing) ↔
        RoomInside network (divideClusterNetwork_bounds hp h).2 existing) := by
  refine ⟨fun d h => ?_, fun d h => ?_⟩
  · have hb := divideTunnelNetwork_bounds hp h
    simp only [FindTunnelAvailableCIDR, h]
    exact findAvailableCIDR_inside_iff hp hex hb.2 hb.1
  · have hb := divideClusterNetwork_bounds hp h
    simp only [FindClusterAvailableCIDR, h]
    exact findAvailableCIDR_inside_iff hp hex hb.2 hb.1

/-- `10.0.0.0/16`. -/
def tunnelNet : IPNet := ⟨0x0a000000#32, 16, by decide⟩

theorem parseCIDR_tunnelNet : parseCIDR "10.0.0.0/16" = .ok (0x0a000000#32, tunnelNet) := by decide

/-- A tunnel network with a block in use: the next one is inside. -/
theorem availableCIDR_inside_second :
    ReturnsInside tunnelNet (FindTunnelAvailableCIDR "10.0.0.0/16" ["10.0.0.0/18"]) := by
  have hc : parseCIDR "10.0.0.0/18" = .ok (0x0a000000#32, ⟨0x0a000000#32, 18, by decide⟩) := by decide
  have hex : Readable ["10.0.0.0/18"] := by
    intro c hm
    rw [List.mem_singleton.mp hm]
    exact .inr ⟨_, hc⟩
  refine ((availableCIDR_inside_iff parseCIDR_tunnelNet hex).1 18 (by decide)).mpr ?_
  rw [RoomInside, if_neg (by decide)]
  refine fun _ => ⟨1, by decide, ⟨by decide, by decide⟩, fun c hm a n hn => ?_⟩
  rw [List.mem_singleton.mp hm, hc] at hn
  cases hn
  decide

/-- A tunnel network with all its four blocks in use: the search goes on into
the next network. -/
theorem FindTunnelAvailableCIDR_leaves_network :
    (∀ c ∈ ["10.0.0.0/18", "10.0.64.0/18", "10.0.128.0/18", "10.0.192.0/18"],
      (parseCIDR c).isOk = true) ∧
    parseCIDR "10.0.0.0/16" = .ok (0x0a000000#32, tunnelNet) ∧
    divideTunnelNetwork "10.0.0.0/16" = .ok 18 ∧
    FindTunnelAvailableCIDR "10.0.0.0/16"
      ["10.0.0.0/18", "10.0.64.0/18", "10.0.128.0/18", "10.0.192.0/18"] = .ok (.ok "10.1.0.0/18") ∧
    ¬ ReturnsInside tunnelNet (FindTunnelAvailableCIDR "10.0.0.0/16"
      ["10.0.0.0/18", "10.0.64.0/18", "10.0.128.0/18", "10.0.192.0/18"]) := by
  have hfind : FindTunnelAvailableCIDR "10.0.0.0/16"
      ["10.0.0.0/18", "10.0.64.0/18", "10.0.128.0/18", "10.0.192.0/18"] = .ok (.ok "10.1.0.0/18") := by
    decide +kernel
  refine ⟨by decide, parseCIDR_tunnelNet, by decide, hfind, fun h => ?_⟩
  obtain ⟨a, b, hb, hin⟩ := h _ hfind
  have hs : parseCIDR "10.1.0.0/18" = .ok (0x0a010000#32, ⟨0x0a010000#32, 18, by decide⟩) := by decide
  rw [hs] at hb
  cases hb
  exact absurd (hin 0x0a010000#32 (by decide)) (by decide)

end Fleetboard.NetUtil
