import Mathlib.Data.Int.Log
import Mathlib.Data.Rat.Floor
import Mathlib.Tactic.Linarith
import Mathlib.Tactic.Positivity

/-!
# Arithmetic of `float64`

The finite numbers of the IEEE 754 format `binary64` are rationals, and an operation gives the
exact result rounded to the nearest of them, ties to even (`fl`). Overflow and the signs of
zeros are left out.

* `fl_eq_self`: numbers of the format are their own roundings;
* `fl_le`, `le_fl`: rounding does not pass a number of the format;
* `fl_mono`: it keeps the order;
* `abs_fl_sub_le`: how far a number is from its rounding;
* `ceil_fl_div`: a quotient of integers is rounded up exactly;
* `Representable.sub_one`: one less than a number between a half and `2 ^ 53` is exact.
-/

namespace Fleetboard.Binary64

/-! ## The nearest integer -/

/-- The nearest integer, the even one of two. -/
def roundEven (x : ℚ) : ℤ :=
  if x - ⌊x⌋ < 1 / 2 then ⌊x⌋
  else if 1 / 2 < x - ⌊x⌋ then ⌊x⌋ + 1
  else if ⌊x⌋ % 2 = 0 then ⌊x⌋ else ⌊x⌋ + 1

theorem roundEven_intCast (n : ℤ) : roundEven n = n := by
  simp [roundEven]

theorem abs_roundEven_sub_le (x : ℚ) : |(roundEven x : ℚ) - x| ≤ 1 / 2 := by
  have hlo := Int.floor_le x
  have hhi := Int.lt_floor_add_one x
  rw [abs_le]
  unfold roundEven
  split_ifs <;> push_cast <;> constructor <;> linarith

theorem roundEven_neg (x : ℚ) : roundEven (-x) = -roundEven x := by
  have hlo := Int.floor_le x
  have hhi := Int.lt_floor_add_one x
  rcases eq_or_lt_of_le hlo with heq | hlt
  · rw [← heq, ← Int.cast_neg, roundEven_intCast, roundEven_intCast]
  · have hfloor : ⌊-x⌋ = -⌊x⌋ - 1 := by
      rw [Int.floor_eq_iff]
      push_cast
      constructor <;> linarith
    have hmod : (-⌊x⌋ - 1) % 2 = 0 ↔ ¬ ⌊x⌋ % 2 = 0 := by omega
    unfold roundEven
    rw [hfloor]
    push_cast
    split_ifs <;> first | omega | (exfalso; linarith)

theorem roundEven_le {x : ℚ} {n : ℤ} (h : x ≤ n) : roundEven x ≤ n := by
  have habs := abs_le.mp (abs_roundEven_sub_le x)
  by_contra hlt
  have hge : (n : ℚ) + 1 ≤ roundEven x := by
    exact_mod_cast Int.add_one_le_of_lt (not_le.mp hlt)
  linarith

theorem le_roundEven {x : ℚ} {n : ℤ} (h : (n : ℚ) ≤ x) : n ≤ roundEven x := by
  have habs := abs_le.mp (abs_roundEven_sub_le x)
  by_contra hlt
  have hge : (roundEven x : ℚ) + 1 ≤ n := by
    exact_mod_cast Int.add_one_le_of_lt (not_le.mp hlt)
  linarith

theorem roundEven_mono {x y : ℚ} (h : x ≤ y) : roundEven x ≤ roundEven y := by
  rcases (Int.floor_mono h).lt_or_eq with hlt | heq
  · have hx : x ≤ ((⌊x⌋ + 1 : ℤ) : ℚ) := by
      push_cast
      exact (Int.lt_floor_add_one x).le
    exact (roundEven_le hx).trans ((Int.add_one_le_of_lt hlt).trans (le_roundEven (Int.floor_le y)))
  · unfold roundEven
    rw [heq]
    split_ifs <;> first | omega | (exfalso; linarith)

/-! ## Rounding -/

/-- The exponent of the last place of a number. -/
def quantum (x : ℚ) : ℤ := max (Int.log 2 |x| - 52) (-1074)

/-- The nearest number of the format. -/
def fl (x : ℚ) : ℚ := roundEven (x / 2 ^ quantum x) * 2 ^ quantum x

/-- A whole number of the places of that exponent. -/
def OnGrid (e : ℤ) (x : ℚ) : Prop := ∃ n : ℤ, x = n * 2 ^ e

/-- A number of the format. -/
def Representable (x : ℚ) : Prop := ∃ m e : ℤ, |m| ≤ 2 ^ 53 ∧ -1074 ≤ e ∧ x = m * 2 ^ e

theorem two_zpow_pos (e : ℤ) : (0 : ℚ) < 2 ^ e := zpow_pos two_pos e

theorem two_pow_mul_zpow (d : ℕ) {e e' : ℤ} (h : e = d + e') : (2 : ℚ) ^ e = 2 ^ d * 2 ^ e' := by
  rw [h, zpow_add₀ two_ne_zero, zpow_natCast]

theorem OnGrid.mono {e e' : ℤ} {x : ℚ} (h : OnGrid e x) (he : e' ≤ e) : OnGrid e' x := by
  obtain ⟨n, rfl⟩ := h
  obtain ⟨d, hd⟩ := Int.eq_ofNat_of_zero_le (sub_nonneg.mpr he)
  refine ⟨n * 2 ^ d, ?_⟩
  rw [two_pow_mul_zpow d (by omega : e = d + e')]
  push_cast
  ring

theorem OnGrid.neg {e : ℤ} {x : ℚ} (h : OnGrid e x) : OnGrid e (-x) := by
  obtain ⟨n, rfl⟩ := h
  exact ⟨-n, by push_cast; ring⟩

/-- Rounding on a grid keeps what is on it. -/
theorem roundEven_onGrid_le {e : ℤ} {x r : ℚ} (hr : OnGrid e r) (h : x ≤ r) :
    roundEven (x / 2 ^ e) * 2 ^ e ≤ r := by
  obtain ⟨n, rfl⟩ := hr
  have hle := roundEven_le ((div_le_iff₀ (two_zpow_pos e)).mpr h)
  exact mul_le_mul_of_nonneg_right (by exact_mod_cast hle) (two_zpow_pos e).le

theorem le_roundEven_onGrid {e : ℤ} {x r : ℚ} (hr : OnGrid e r) (h : r ≤ x) :
    r ≤ roundEven (x / 2 ^ e) * 2 ^ e := by
  obtain ⟨n, rfl⟩ := hr
  have hle := le_roundEven ((le_div_iff₀ (two_zpow_pos e)).mpr h)
  exact mul_le_mul_of_nonneg_right (by exact_mod_cast hle) (two_zpow_pos e).le

theorem quantum_neg (x : ℚ) : quantum (-x) = quantum x := by
  rw [quantum, quantum, abs_neg]

theorem fl_neg (x : ℚ) : fl (-x) = -fl x := by
  rw [fl, fl, quantum_neg, neg_div, roundEven_neg]
  push_cast
  ring

theorem neg_1074_le_quantum (x : ℚ) : -1074 ≤ quantum x := le_max_right _ _

theorem lt_two_zpow_log (x : ℚ) : |x| < 2 ^ (Int.log 2 |x| + 1) := by
  exact_mod_cast Int.lt_zpow_succ_log_self (b := 2) one_lt_two |x|

theorem two_zpow_log_le {x : ℚ} (hx : x ≠ 0) : (2 : ℚ) ^ Int.log 2 |x| ≤ |x| := by
  exact_mod_cast Int.zpow_log_le_self (b := 2) one_lt_two (abs_pos.mpr hx)

theorem quantum_mono {x y : ℚ} (hx : x ≠ 0) (h : |x| ≤ |y|) : quantum x ≤ quantum y := by
  have hlog := Int.log_mono_right (b := 2) (abs_pos.mpr hx) h
  exact max_le_max (sub_le_sub_right hlog 52) le_rfl

/-- A number is less than `2 ^ 53` of its last places. -/
theorem abs_lt_two_zpow_quantum (x : ℚ) : |x| < 2 ^ (quantum x + 53) := by
  refine (lt_two_zpow_log x).trans_le (zpow_le_zpow_right₀ one_le_two ?_)
  have := le_max_left (Int.log 2 |x| - 52) (-1074)
  rw [quantum]
  omega

/-- A number of the format is a whole number of its last places. -/
theorem Representable.onGrid {x : ℚ} (h : Representable x) : OnGrid (quantum x) x := by
  obtain ⟨m, e, hm, he, hx⟩ := h
  rcases eq_or_ne x 0 with rfl | hne
  · exact ⟨0, by simp⟩
  rcases le_or_gt (quantum x) e with hle | hgt
  · exact OnGrid.mono ⟨m, hx⟩ hle
  · -- The last place is larger only for the largest number of places.
    have hm' : |(m : ℚ)| ≤ 2 ^ (53 : ℤ) := by exact_mod_cast hm
    have habs : |x| = |(m : ℚ)| * 2 ^ e := by rw [hx, abs_mul, abs_of_pos (two_zpow_pos e)]
    have hle : |x| ≤ 2 ^ (53 + e) := by
      rw [habs, zpow_add₀ two_ne_zero]
      exact mul_le_mul_of_nonneg_right hm' (two_zpow_pos e).le
    have hlog : Int.log 2 |x| ≤ 53 + e :=
      (zpow_le_zpow_iff_right₀ one_lt_two).mp ((two_zpow_log_le hne).trans hle)
    have hquantum : quantum x = e + 1 ∧ Int.log 2 |x| = 53 + e := by
      rw [quantum] at hgt ⊢
      omega
    have heq : |x| = 2 ^ (53 + e) := le_antisymm hle (hquantum.2 ▸ two_zpow_log_le hne)
    have hgrid : OnGrid (e + 1) |x| := by
      refine ⟨2 ^ 52, ?_⟩
      rw [heq, two_pow_mul_zpow 52 (by push_cast; ring : 53 + e = (52 : ℕ) + (e + 1))]
      norm_cast
    rw [hquantum.1]
    rcases abs_choice x with hpos | hneg
    · rwa [hpos] at hgrid
    · rw [hneg] at hgrid
      simpa using hgrid.neg

theorem representable_fl (x : ℚ) : Representable (fl x) := by
  refine ⟨roundEven (x / 2 ^ quantum x), quantum x, ?_, neg_1074_le_quantum x, rfl⟩
  have habs : |x / 2 ^ quantum x| < 2 ^ 53 := by
    rw [abs_div, abs_of_pos (two_zpow_pos _), div_lt_iff₀ (two_zpow_pos _)]
    have := abs_lt_two_zpow_quantum x
    rw [add_comm, zpow_add₀ two_ne_zero] at this
    exact_mod_cast this
  obtain ⟨hlo, hhi⟩ := abs_lt.mp habs
  rw [abs_le]
  exact ⟨le_roundEven (by push_cast; linarith), roundEven_le (by push_cast; linarith)⟩

/-- Numbers of the format are their own roundings. -/
theorem fl_eq_self {x : ℚ} (h : Representable x) : fl x = x :=
  le_antisymm (roundEven_onGrid_le h.onGrid le_rfl) (le_roundEven_onGrid h.onGrid le_rfl)

theorem Representable.neg {x : ℚ} (h : Representable x) : Representable (-x) := by
  obtain ⟨m, e, hm, he, rfl⟩ := h
  exact ⟨-m, e, by rwa [abs_neg], he, by push_cast; ring⟩

theorem representable_zero : Representable 0 := ⟨0, 0, by norm_num, by norm_num, by simp⟩

theorem fl_nonneg {x : ℚ} (h : 0 ≤ x) : 0 ≤ fl x :=
  le_roundEven_onGrid ⟨0, by simp⟩ h

/-- Rounding does not pass a number of the format. -/
theorem le_fl {x r : ℚ} (hr : Representable r) (h : r ≤ x) : r ≤ fl x := by
  rcases le_or_gt (quantum x) (quantum r) with hle | hgt
  · exact le_roundEven_onGrid (hr.onGrid.mono hle) h
  rcases le_or_gt 0 x with hx | hx
  · -- A smaller number has smaller places only below the power of two that begins those of `x`.
    rcases le_or_gt r 0 with hneg | hpos
    · exact hneg.trans (fl_nonneg hx)
    have hbinade : r < 2 ^ Int.log 2 |x| := by
      have hlt := lt_two_zpow_log r
      rw [abs_of_pos hpos] at hlt
      refine hlt.trans_le (zpow_le_zpow_right₀ one_le_two ?_)
      rw [quantum, quantum, abs_of_pos hpos] at hgt
      omega
    have hgrid : OnGrid (quantum x) (2 ^ Int.log 2 |x|) := by
      have hlog : Int.log 2 |x| = (52 : ℕ) + quantum x := by
        rw [quantum, quantum] at hgt
        rw [quantum]
        push_cast
        omega
      refine ⟨2 ^ 52, ?_⟩
      rw [two_pow_mul_zpow 52 hlog]
      norm_cast
    refine hbinade.le.trans (le_roundEven_onGrid hgrid ?_)
    have hlog := two_zpow_log_le (hpos.trans_le h).ne'
    rwa [abs_of_nonneg hx] at hlog ⊢
  · -- A number below a negative one has places at least as large.
    refine absurd (quantum_mono hx.ne ?_) (not_le.mpr hgt)
    rw [abs_of_neg hx, abs_of_neg (h.trans_lt hx)]
    exact neg_le_neg h

theorem fl_le {x r : ℚ} (hr : Representable r) (h : x ≤ r) : fl x ≤ r := by
  have hneg := le_fl hr.neg (neg_le_neg h)
  rw [fl_neg] at hneg
  exact neg_le_neg_iff.mp hneg

/-- Rounding keeps the order. -/
theorem fl_mono {x y : ℚ} (hx : 0 ≤ x) (h : x ≤ y) : fl x ≤ fl y := by
  rcases hx.eq_or_lt with rfl | hpos
  · rw [fl_eq_self representable_zero]
    exact fl_nonneg h
  have hy := hpos.trans_le h
  have hle : quantum x ≤ quantum y := by
    refine quantum_mono hpos.ne' ?_
    rwa [abs_of_pos hpos, abs_of_pos hy]
  rcases hle.lt_or_eq with hlt | heq
  · -- The power of two that begins the larger number lies between the two.
    have hlog : Int.log 2 |y| = quantum y + 52 := by
      have hx := neg_1074_le_quantum x
      have hy : quantum y = max (Int.log 2 |y| - 52) (-1074) := rfl
      omega
    have hbetween : Representable (2 ^ (quantum y + 52)) :=
      ⟨1, quantum y + 52, by norm_num, by have := neg_1074_le_quantum y; omega, by simp⟩
    refine (fl_le hbetween ?_).trans (le_fl hbetween ?_)
    · have hx := abs_lt_two_zpow_quantum x
      rw [abs_of_pos hpos] at hx
      exact hx.le.trans (zpow_le_zpow_right₀ one_le_two (by omega))
    · have hy' := two_zpow_log_le hy.ne'
      rwa [hlog, abs_of_pos hy] at hy'
  · rw [fl, fl, heq]
    have hq := two_zpow_pos (quantum y)
    refine mul_le_mul_of_nonneg_right ?_ hq.le
    exact_mod_cast roundEven_mono (div_le_div_of_nonneg_right h hq.le)

/-- A number is at most half a last place from its rounding. -/
theorem abs_fl_sub_le (x : ℚ) : |fl x - x| ≤ 2 ^ quantum x / 2 := by
  have hpos := two_zpow_pos (quantum x)
  have hx : fl x - x = (roundEven (x / 2 ^ quantum x) - x / 2 ^ quantum x) * 2 ^ quantum x := by
    rw [fl, sub_mul, div_mul_cancel₀ x hpos.ne']
  rw [hx, abs_mul, abs_of_pos hpos]
  have := mul_le_mul_of_nonneg_right (abs_roundEven_sub_le (x / 2 ^ quantum x)) hpos.le
  linarith

/-- From one on, a number is closer to its rounding than a part in `2 ^ 53`. -/
theorem abs_fl_sub_le_mul {x : ℚ} (h : 1 ≤ x) : |fl x - x| ≤ x / 2 ^ 53 := by
  have hpos : 0 < x := by linarith
  have hlog := two_zpow_log_le hpos.ne'
  have hlog0 : 0 ≤ Int.log 2 |x| := by
    rw [abs_of_pos hpos]
    have := Int.log_mono_right (b := 2) one_pos h
    rwa [Int.log_one_right] at this
  have hquantum : quantum x = Int.log 2 |x| - 52 := by
    rw [quantum]
    omega
  refine (abs_fl_sub_le x).trans ?_
  rw [hquantum, zpow_sub₀ two_ne_zero]
  rw [abs_of_pos hpos] at hlog ⊢
  have h52 : (2 : ℚ) ^ (52 : ℤ) = 2 ^ 52 := by norm_cast
  rw [h52, div_div]
  have h53 : (2 : ℚ) ^ 52 * 2 = 2 ^ 53 := by norm_num
  rw [h53]
  exact div_le_div_of_nonneg_right hlog (by positivity)

/-! ## Integers -/

theorem representable_intCast {n : ℤ} (h : |n| ≤ 2 ^ 53) : Representable n :=
  ⟨n, 0, h, by norm_num, by simp⟩

theorem fl_intCast {n : ℤ} (h : |n| ≤ 2 ^ 53) : fl n = n := fl_eq_self (representable_intCast h)

/-- The quotient of integers rounds up to the same integer before and after it is rounded to the
format. -/
theorem ceil_fl_div {n m : ℤ} (hm : 0 < m) (hmn : m ≤ n) (hn : n < 2 ^ 53) :
    ⌈fl (n / m)⌉ = ⌈(n : ℚ) / m⌉ := by
  have hm' : (0 : ℚ) < m := by exact_mod_cast hm
  have hone : (1 : ℚ) ≤ n / m := by
    rw [le_div_iff₀ hm', one_mul]
    exact_mod_cast hmn
  have hle := Int.le_ceil ((n : ℚ) / m)
  have hlt : ((⌈(n : ℚ) / m⌉ : ℤ) : ℚ) - 1 < n / m := by
    linarith [Int.ceil_lt_add_one ((n : ℚ) / m)]
  generalize ⌈(n : ℚ) / m⌉ = q at hle hlt ⊢
  -- The quotient is at least one part of the divisor away from the integer below.
  have hgap : (q : ℚ) - 1 + 1 / m ≤ n / m := by
    rw [lt_div_iff₀ hm'] at hlt
    have : (q - 1) * m + 1 ≤ n := by exact_mod_cast hlt
    rw [le_div_iff₀ hm', add_mul, one_div_mul_cancel hm'.ne']
    exact_mod_cast this
  have hq : |q| ≤ 2 ^ 53 := by
    have hqpos : 0 < q := by
      have : (0 : ℚ) < q := by linarith
      exact_mod_cast this
    have : (q : ℚ) - 1 < n := by
      refine hlt.trans_le (div_le_self ?_ ?_)
      · exact_mod_cast hm.le.trans hmn
      · exact_mod_cast hm
    have : q - 1 < n := by exact_mod_cast this
    rw [abs_of_pos hqpos]
    omega
  rw [Int.ceil_eq_iff]
  refine ⟨?_, fl_le (representable_intCast hq) hle⟩
  have herr := abs_le.1 (abs_fl_sub_le_mul hone)
  have hsmall : (n : ℚ) / m / 2 ^ 53 < 1 / m := by
    rw [div_div, mul_comm, ← div_div]
    refine div_lt_div_of_pos_right ?_ hm'
    rw [div_lt_one (by positivity)]
    exact_mod_cast hn
  linarith

/-- Numbers on the grid of a larger one are in the format. -/
theorem representable_of_onGrid {x y : ℚ} (hy : OnGrid (quantum x) y) (h : |y| ≤ |x|) :
    Representable y := by
  obtain ⟨n, rfl⟩ := hy
  refine ⟨n, quantum x, ?_, neg_1074_le_quantum x, rfl⟩
  have hlt := h.trans_lt (abs_lt_two_zpow_quantum x)
  rw [abs_mul, abs_of_pos (two_zpow_pos _), add_comm, zpow_add₀ two_ne_zero,
    mul_lt_mul_iff_left₀ (two_zpow_pos _)] at hlt
  exact_mod_cast hlt.le

/-- One less than a number between a half and `2 ^ 53` is exact. -/
theorem Representable.sub_one {x : ℚ} (h : Representable x) (hlo : 1 / 2 ≤ x) (hhi : x < 2 ^ 53) :
    Representable (x - 1) := by
  have hpos : 0 < x := by linarith
  have hquantum : quantum x ≤ 0 := by
    have hlog := two_zpow_log_le hpos.ne'
    rw [abs_of_pos hpos] at hlog
    have : (2 : ℚ) ^ Int.log 2 x < 2 ^ (53 : ℤ) := hlog.trans_lt (by exact_mod_cast hhi)
    have := (zpow_lt_zpow_iff_right₀ one_lt_two).mp this
    rw [quantum, abs_of_pos hpos]
    omega
  refine representable_of_onGrid (x := x) ?_ ?_
  · obtain ⟨n, hn⟩ := h.onGrid
    obtain ⟨m, hm⟩ := OnGrid.mono (x := 1) ⟨1, by simp⟩ hquantum
    refine ⟨n - m, ?_⟩
    push_cast
    rw [sub_mul, ← hn, ← hm]
  · rw [abs_of_pos hpos, abs_le]
    constructor <;> linarith

end Fleetboard.Binary64
