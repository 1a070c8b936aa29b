import Fleetboard.Model.Net

/-!
# Addresses and networks: texts and members

* `parseCIDR_text`: the text of an address and a length parses back to them,
  and `parseCIDR_junk`: the text of any other number of bytes does not parse;
* `contains_iff`: a network has the addresses that share its leading bits;
* `IPNet.Meets`: two networks have an address in common, which `Contains` on
  their own addresses decides (`meets_iff`), and which trimming the address of
  the smaller one to a block's length does not change (`meets_trim`).
-/

namespace Fleetboard.Net

/-! ## Texts -/

theorem parseField_toDigits : ∀ n < 256, parseField (Nat.toDigits 10 n) = some n := by
  decide +kernel

theorem notMem_toDigits {c : Char} (hc : c.isDigit = false) (n : Nat) : c ∉ Nat.toDigits 10 n := by
  intro h
  rw [Nat.isDigit_of_mem_toDigits (by decide) (by decide) h] at hc
  cases hc

theorem parseOnes_toDigits : ∀ n : Fin 33, parseOnes (Nat.toDigits 10 n) = some n := by
  decide +kernel

theorem mapM_parseField {bytes : List Nat} (h : ∀ b ∈ bytes, b < 256) :
    (bytes.map (Nat.toDigits 10)).mapM parseField = some bytes := by
  induction bytes with
  | nil => rfl
  | cons b bs ih =>
    simp [parseField_toDigits b (h b List.mem_cons_self),
      ih fun c hc => h c (List.mem_cons_of_mem _ hc)]

theorem ipString_four (a b c d : Nat) :
    ipString [a, b, c, d] = String.ofList (['.'].intercalate ([a, b, c, d].map (Nat.toDigits 10))) :=
  rfl

theorem parseAddr_ipString {a b c d : Nat} (ha : a < 256) (hb : b < 256) (hc : c < 256)
    (hd : d < 256) : parseAddr (ipString [a, b, c, d]).toList = some (ofBytes a b c d) := by
  have hsplit : ((ipString [a, b, c, d]).toList).splitOn '.' = [a, b, c, d].map (Nat.toDigits 10) := by
    rw [ipString_four, String.toList_ofList]
    refine List.splitOn_intercalate '.' (fun l hl => ?_) (by simp)
    obtain ⟨n, -, rfl⟩ := List.mem_map.mp hl
    exact notMem_toDigits (by decide) n
  rw [parseAddr, hsplit, mapM_parseField (by simp [ha, hb, hc, hd])]

theorem slash_notMem_ipString (a b c d : Nat) : '/' ∉ (ipString [a, b, c, d]).toList := by
  rw [ipString_four, String.toList_ofList]
  have := fun n => notMem_toDigits (c := '/') (by decide) n
  simp [List.intercalate, this]

/-- What `parseCIDR` does with a text cut at its first slash. -/
theorem parseCIDR_cut {s : List Char} (hs : '/' ∉ s) (m : List Char) :
    parseCIDR (String.ofList s ++ "/" ++ String.ofList m) =
      match parseAddr s, parseOnes m with
      | some a, some n => .ok (a, ⟨a &&& cidrMask n, n, Nat.lt_succ_iff.mp n.isLt⟩)
      | _, _ => .error ("invalid CIDR address: " ++ (String.ofList s ++ "/" ++ String.ofList m)) := by
  have hl : (String.ofList s ++ "/" ++ String.ofList m).toList = s ++ '/' :: m := by simp
  have hd : ∀ c ∈ s, decide (c ≠ '/') = true := by
    intro c hc
    simp only [ne_eq, decide_eq_true_eq]
    rintro rfl
    exact hs hc
  have ht : (s ++ '/' :: m).takeWhile (· ≠ '/') = s := by
    rw [List.takeWhile_append_of_pos hd]; simp
  have hw : (s ++ '/' :: m).dropWhile (· ≠ '/') = '/' :: m := by
    rw [List.dropWhile_append_of_pos hd]; simp
  unfold parseCIDR
  rw [hl, ht, hw]
  rfl

theorem toString_eq_ofList (n : Nat) : toString n = String.ofList (Nat.toDigits 10 n) :=
  Nat.toString_eq_ofList_toDigits

/-- The text of four bytes and a length parses back to them. -/
theorem parseCIDR_text {a b c d n : Nat} (ha : a < 256) (hb : b < 256) (hc : c < 256)
    (hd : d < 256) (hn : n ≤ 32) :
    parseCIDR (ipString [a, b, c, d] ++ "/" ++ toString n) =
      .ok (ofBytes a b c d, ⟨ofBytes a b c d &&& cidrMask n, n, hn⟩) := by
  have h := parseCIDR_cut (slash_notMem_ipString a b c d) (Nat.toDigits 10 n)
  have ho : parseOnes (Nat.toDigits 10 n) = some ⟨n, Nat.lt_succ_of_le hn⟩ :=
    parseOnes_toDigits ⟨n, Nat.lt_succ_of_le hn⟩
  rw [String.ofList_toList, parseAddr_ipString ha hb hc hd, ho, ← toString_eq_ofList] at h
  exact h

theorem parseField_none {cs : List Char} {c : Char} (hc : c ∈ cs) (hd : c.isDigit = false) :
    parseField cs = none := by
  rw [parseField, if_neg]
  rintro ⟨-, hall, -⟩
  rw [List.all_eq_true.mp hall c hc] at hd
  cases hd

/-- A text that starts with a character that is no digit is no address. -/
theorem parseAddr_none {c : Char} (hd : c.isDigit = false) (hp : c ≠ '.') (cs : List Char) :
    parseAddr (c :: cs) = none := by
  obtain ⟨f, fs, hf⟩ : ∃ f fs, (c :: cs).splitOn '.' = (c :: f) :: fs := by
    rw [List.splitOn, List.splitOnP_cons_eq_if_splitOnPPrepend, if_neg (by simpa using hp),
      List.splitOnPPrepend_eq_modifyHead]
    cases hs : List.splitOnP (· == '.') cs with
    | nil => exact absurd hs (List.splitOnP_ne_nil _ _)
    | cons f fs => exact ⟨f, fs, rfl⟩
  rw [parseAddr, hf, List.mapM_cons, parseField_none List.mem_cons_self hd]
  rfl

theorem digitChar_ne_slash : ∀ n < 16, Nat.digitChar n ≠ '/' := by decide

/-- A byte string that is not of four bytes has no text that parses. -/
theorem parseCIDR_junk {bytes : List Nat} (hlen : bytes.length ≠ 4) (hb : ∀ b ∈ bytes, b < 256)
    (n : Nat) : ∃ e, parseCIDR (ipString bytes ++ "/" ++ toString n) = .error e := by
  obtain ⟨c, cs, hc, hd, hp, hs⟩ : ∃ c cs, ipString bytes = String.ofList (c :: cs) ∧
      c.isDigit = false ∧ c ≠ '.' ∧ '/' ∉ c :: cs := by
    unfold ipString
    split
    · exact ⟨'<', "nil>".toList, by decide, by decide, by decide, by decide⟩
    · exact absurd rfl hlen
    · refine ⟨'?', bytes.flatMap hexByte, rfl, by decide, by decide, ?_⟩
      simp only [List.mem_cons, List.mem_flatMap, not_or, not_exists, not_and]
      refine ⟨by decide, fun b hm hx => ?_⟩
      have hlt := hb b hm
      simp only [hexByte, List.mem_cons, List.not_mem_nil, or_false] at hx
      rcases hx with hx | hx
      · exact digitChar_ne_slash (b / 16) (by omega) hx.symm
      · exact digitChar_ne_slash (b % 16) (by omega) hx.symm
  rw [hc, toString_eq_ofList, parseCIDR_cut hs, parseAddr_none hd hp]
  exact ⟨_, rfl⟩

/-! ## Bytes -/

theorem addrBytes_lt (a : Addr) : ∀ b ∈ addrBytes a, b < 256 := by
  have := a.isLt
  simp only [addrBytes, List.mem_cons, List.not_mem_nil, or_false, forall_eq_or_imp, forall_eq]
  omega

theorem ofBytes_addrBytes (a : Addr) :
    ofBytes (a.toNat / 2 ^ 24) (a.toNat / 2 ^ 16 % 256) (a.toNat / 2 ^ 8 % 256) (a.toNat % 256) = a := by
  have := a.isLt
  refine BitVec.eq_of_toNat_eq ?_
  rw [ofBytes, BitVec.toNat_ofNat]
  omega

/-- The text of an address and a length parses back to them. -/
theorem parseCIDR_addr (a : Addr) {n : Nat} (hn : n ≤ 32) :
    parseCIDR (ipString (addrBytes a) ++ "/" ++ toString n) = .ok (a, ⟨a &&& cidrMask n, n, hn⟩) := by
  have h := addrBytes_lt a
  simp only [addrBytes, List.mem_cons, List.not_mem_nil, or_false, forall_eq_or_imp, forall_eq] at h
  have := parseCIDR_text h.1 h.2.1 h.2.2.1 h.2.2.2 hn
  rwa [ofBytes_addrBytes] at this

theorem parseCIDR_string (n : IPNet) :
    parseCIDR n.string = .ok (n.ip, { n with ip := n.ip &&& cidrMask n.ones }) :=
  parseCIDR_addr n.ip n.ones_le

theorem string_injective : Function.Injective IPNet.string := by
  intro n n' h
  have hp := parseCIDR_string n
  rw [h, parseCIDR_string] at hp
  simp only [Except.ok.injEq, Prod.mk.injEq, IPNet.mk.injEq] at hp
  obtain ⟨hip, -, hones⟩ := hp
  cases n; cases n'; cases hip; cases hones; rfl

/-! ## Members -/

theorem contains_iff {n : IPNet} {a : Addr} :
    n.contains a ↔ n.ip.toNat / 2 ^ (32 - n.ones) = a.toNat / 2 ^ (32 - n.ones) := by
  rw [IPNet.contains, beq_iff_eq, cidrMask, and_topMask_eq_iff]

/-- The network that `parseCIDR` returns starts at its own address. -/
theorem parseCIDR_aligned {s : String} {a : Addr} {n : IPNet} (h : parseCIDR s = .ok (a, n)) :
    n.ip = a &&& cidrMask n.ones := by
  simp only [parseCIDR] at h
  split at h
  · split at h
    · cases h; rfl
    · cases h
  · cases h

/-- Two networks have an address in common. -/
def IPNet.Meets (n n' : IPNet) : Prop := ∃ a, n.contains a ∧ n'.contains a

theorem IPNet.Meets.symm {n n' : IPNet} (h : n.Meets n') : n'.Meets n :=
  let ⟨a, h₁, h₂⟩ := h
  ⟨a, h₂, h₁⟩

theorem meets_iff_div {n n' : IPNet} (hh : n'.ones ≤ n.ones) :
    n.Meets n' ↔ n.ip.toNat / 2 ^ (32 - n'.ones) = n'.ip.toNat / 2 ^ (32 - n'.ones) := by
  have hle : 32 - n.ones ≤ 32 - n'.ones := by omega
  simp only [IPNet.Meets, contains_iff]
  constructor
  · rintro ⟨a, h₁, h₂⟩
    exact (div_pow_mono hle h₁).trans h₂.symm
  · exact fun h => ⟨n.ip, rfl, h.symm⟩

/-- Two networks have an address in common when one has the address of the
other. -/
theorem meets_iff (n n' : IPNet) :
    n.Meets n' ↔ (n.contains n'.ip || n'.contains n.ip) = true := by
  rw [Bool.or_eq_true, contains_iff, contains_iff]
  rcases Nat.le_total n'.ones n.ones with h | h
  · rw [meets_iff_div h]
    exact ⟨fun e => .inr e.symm, Or.rec (fun e => div_pow_mono (by omega) e) Eq.symm⟩
  · rw [show n.Meets n' ↔ n'.Meets n from ⟨.symm, .symm⟩, meets_iff_div h]
    exact ⟨fun e => .inl e.symm, Or.rec Eq.symm fun e => div_pow_mono (by omega) e⟩

instance (n n' : IPNet) : Decidable (n.Meets n') := decidable_of_iff _ (meets_iff n n').symm

/-- Masking an address to `d` bits moves it inside its block of that length. -/
theorem div_mask {a : Addr} {d h : Nat} (hh : 32 - d ≤ h) :
    (a &&& cidrMask d).toNat / 2 ^ h = a.toNat / 2 ^ h := by
  refine div_pow_mono hh ?_
  rw [cidrMask, toNat_and_topMask, Nat.mul_div_cancel _ (Nat.two_pow_pos _)]

/-- A network and its address trimmed to `d` bits meet the same blocks of that
length. -/
theorem meets_trim (n b : IPNet) :
    IPNet.Meets { n with ip := n.ip &&& cidrMask b.ones } b ↔ n.Meets b := by
  rcases Nat.le_total b.ones n.ones with h | h
  · rw [meets_iff_div h, meets_iff_div (n := { n with ip := n.ip &&& cidrMask b.ones }) h,
      div_mask (Nat.le_refl _)]
  · rw [show n.Meets b ↔ b.Meets n from ⟨.symm, .symm⟩, meets_iff_div h,
      show IPNet.Meets { n with ip := n.ip &&& cidrMask b.ones } b ↔
        b.Meets { n with ip := n.ip &&& cidrMask b.ones } from ⟨.symm, .symm⟩,
      @meets_iff_div b { n with ip := n.ip &&& cidrMask b.ones } h]
    rw [div_mask (show 32 - b.ones ≤ 32 - n.ones by omega)]

/-- Masking a network to its own length keeps its members. -/
theorem meets_mask (n b : IPNet) :
    IPNet.Meets { n with ip := n.ip &&& cidrMask n.ones } b ↔ n.Meets b := by
  simp only [IPNet.Meets, contains_iff, div_mask (Nat.le_refl _)]

end Fleetboard.Net
