import DeviceModel.Number.Binary
import Mathlib.Algebra.Order.Field.Power
import Mathlib.Algebra.Order.Ring.Rat
import Mathlib.Order.WithBot
import Mathlib.Tactic.Linarith
import Mathlib.Tactic.NormNum
import Mathlib.Tactic.Ring

namespace DeviceModel.Number

/-- The size of a finite number. -/
def size (mantissa : Nat) (exponent : Int) : ℚ := mantissa * 2 ^ exponent

/-- Where a number stands on the line, which has both infinities. NaN stands nowhere. -/
def Binary.place : Binary → Option (WithBot (WithTop ℚ))
  | .nan => none
  | .infinity true => some ⊥
  | .infinity false => some ((⊤ : WithTop ℚ) : WithBot (WithTop ℚ))
  | .finite negative mantissa exponent =>
    some (((if negative then -size mantissa exponent else size mantissa exponent : ℚ) : WithTop ℚ) :
      WithBot (WithTop ℚ))

namespace Single

/-- The mantissa of the number with a count. -/
def mantissaAt (n : Nat) : Nat := if n < 8388608 then n else 8388608 + n % 8388608

def exponentAt (n : Nat) : Int := if n < 8388608 then -149 else (n / 8388608 : Nat) - 150

def sizeAt (n : Nat) : ℚ := size (mantissaAt n) (exponentAt n)

/-- The next number is one step of the last mantissa place further up. -/
theorem sizeAt_succ (n : Nat) : sizeAt (n + 1) = sizeAt n + 2 ^ exponentAt n := by
  have hsame : mantissaAt (n + 1) = mantissaAt n + 1 → exponentAt (n + 1) = exponentAt n →
      sizeAt (n + 1) = sizeAt n + 2 ^ exponentAt n := by
    intro hm he
    rw [sizeAt, sizeAt, size, size, hm, he]
    push_cast
    ring
  by_cases hlast : (n + 1) % 8388608 = 0 ∧ 8388608 ≤ n
  · -- The mantissa starts again, with twice the step.
    have hm : mantissaAt n = 16777215 := by
      rw [mantissaAt, if_neg (by omega)]
      omega
    have hm' : mantissaAt (n + 1) = 8388608 := by
      rw [mantissaAt, if_neg (by omega)]
      omega
    have he : exponentAt (n + 1) = exponentAt n + 1 := by
      rw [exponentAt, exponentAt, if_neg (by omega), if_neg (by omega)]
      omega
    rw [sizeAt, sizeAt, size, size, hm, hm', he, zpow_add_one₀ (by norm_num)]
    push_cast
    ring
  · refine hsame ?_ ?_
    · unfold mantissaAt
      split <;> split <;> omega
    · unfold exponentAt
      split <;> split <;> omega

theorem sizeAt_strictMono : StrictMono sizeAt := by
  apply strictMono_nat_of_lt_succ
  intro n
  rw [sizeAt_succ]
  have hstep : (0 : ℚ) < 2 ^ exponentAt n := by positivity
  linarith

/-- The count of the infinities. All counts beyond it are NaN. -/
def top : Nat := 0x7f800000

def isNegative (x : Single) : Bool := 2147483648 ≤ x.bits.toNat

theorem magnitude_eq (x : Single) : x.magnitude = x.bits.toNat % 2147483648 := rfl

/-- What the bits stand for, by their count and sign. -/
theorem value_eq (x : Single) : x.value =
    if x.magnitude < top then .finite x.isNegative (mantissaAt x.magnitude) (exponentAt x.magnitude)
    else if x.magnitude = top then .infinity x.isNegative
    else .nan := by
  have hbits : x.bits.toNat < 4294967296 := x.bits.toNat_lt
  have hsign : (x.bits.toNat / 2147483648 % 2 == 1) = x.isNegative := by
    rw [isNegative, Bool.eq_iff_iff, beq_iff_eq, decide_eq_true_eq]
    omega
  have hmagnitude := x.magnitude_eq
  have hfield : x.bits.toNat / 8388608 % 256 = x.magnitude / 8388608 := by omega
  have hfraction : x.bits.toNat % 8388608 = x.magnitude % 8388608 := by omega
  have hlt : x.magnitude < 2147483648 := by omega
  change (if x.bits.toNat / 8388608 % 256 = 255 then
    if x.bits.toNat % 8388608 = 0 then Binary.infinity (x.bits.toNat / 2147483648 % 2 == 1)
    else .nan
    else if x.bits.toNat / 8388608 % 256 = 0 then
      .finite (x.bits.toNat / 2147483648 % 2 == 1) (x.bits.toNat % 8388608) (-149)
    else .finite (x.bits.toNat / 2147483648 % 2 == 1) (8388608 + x.bits.toNat % 8388608)
      (-149 + (x.bits.toNat / 8388608 % 256 - 1 : Nat))) = _
  rw [hsign, hfield, hfraction]
  unfold mantissaAt exponentAt top
  clear hsign hmagnitude hfield hfraction hbits
  generalize x.magnitude = n at hlt
  by_cases hinfinite : n / 8388608 = 255
  · have hbeyond : ¬ n < 2139095040 := by omega
    rw [if_pos hinfinite, if_neg hbeyond]
    by_cases hzero : n % 8388608 = 0
    · rw [if_pos hzero, if_pos (show n = 2139095040 by omega)]
    · rw [if_neg hzero, if_neg (show ¬ n = 2139095040 by omega)]
  · have hfinite : n < 2139095040 := by omega
    rw [if_neg hinfinite, if_pos hfinite]
    by_cases hsmall : n < 8388608
    · rw [if_pos (Nat.div_eq_of_lt hsmall), if_pos hsmall, if_pos hsmall, Nat.mod_eq_of_lt hsmall]
    · rw [if_neg (show ¬ n / 8388608 = 0 by omega), if_neg hsmall, if_neg hsmall]
      congr 1
      omega

theorem isNaN_iff (x : Single) : x.isNaN = true ↔ top < x.magnitude := decide_eq_true_iff

theorem magnitude_le {x : Single} (h : x.isNaN = false) : x.magnitude ≤ top := by
  have hnot : ¬ top < x.magnitude := by simp [← isNaN_iff, h]
  omega

theorem rank_eq (x : Single) :
    x.rank = if x.isNegative then -(x.magnitude : Int) else x.magnitude := by
  rw [rank, isNegative]
  simp

theorem sizeAt_zero : sizeAt 0 = 0 := by simp [sizeAt, size, mantissaAt]

/-- The number at a rank: the counts of negative numbers run the other way. -/
def numberAt (r : Int) : ℚ := if r < 0 then -sizeAt r.natAbs else sizeAt r.natAbs

theorem numberAt_lt {r s : Int} (hrs : r < s) : numberAt r < numberAt s := by
  have hpos : ∀ n : Nat, 0 < n → 0 < sizeAt n := fun n hn => sizeAt_zero ▸ sizeAt_strictMono hn
  unfold numberAt
  by_cases hr : r < 0
  · rw [if_pos hr]
    by_cases hs : s < 0
    · rw [if_pos hs]
      exact neg_lt_neg (sizeAt_strictMono (by omega))
    · rw [if_neg hs]
      have hbelow := hpos r.natAbs (by omega)
      have habove : sizeAt 0 ≤ sizeAt s.natAbs := sizeAt_strictMono.monotone (Nat.zero_le _)
      rw [sizeAt_zero] at habove
      linarith
  · rw [if_neg hr, if_neg (by omega)]
    exact sizeAt_strictMono (by omega)

/-- Where the number at a rank stands, the infinities included. -/
def placeAt (r : Int) : WithBot (WithTop ℚ) :=
  if r = top then ((⊤ : WithTop ℚ) : WithBot (WithTop ℚ))
  else if r = -top then ⊥
  else ((numberAt r : WithTop ℚ) : WithBot (WithTop ℚ))

theorem placeAt_lt {r s : Int} (hr : -top ≤ r) (hs : s ≤ top) (hrs : r < s) :
    placeAt r < placeAt s := by
  unfold placeAt
  rw [if_neg (show ¬ r = top by omega)]
  by_cases hbottom : r = -top
  · rw [if_pos hbottom, if_neg (show ¬ s = -top by omega)]
    split <;> exact WithBot.bot_lt_coe _
  · rw [if_neg hbottom, if_neg (show ¬ s = -top by omega)]
    split
    · exact WithBot.coe_lt_coe.mpr (WithTop.coe_lt_top _)
    · exact WithBot.coe_lt_coe.mpr (WithTop.coe_lt_coe.mpr (numberAt_lt hrs))

/-- From one infinity to the other, ranks compare like the numbers at them. -/
theorem placeAt_lt_iff {r s : Int} (hr : -top ≤ r ∧ r ≤ top) (hs : -top ≤ s ∧ s ≤ top) :
    placeAt r < placeAt s ↔ r < s := by
  refine ⟨fun hlt => ?_, placeAt_lt hr.1 hs.2⟩
  rcases Int.lt_trichotomy r s with hrs | rfl | hsr
  · exact hrs
  · exact absurd hlt (lt_irrefl _)
  · exact absurd hlt (placeAt_lt hs.1 hr.2 hsr).not_gt

theorem place_value {x : Single} (h : x.isNaN = false) : x.value.place = some (placeAt x.rank) := by
  have hle := magnitude_le h
  have hrank := x.rank_eq
  by_cases hfinite : x.magnitude < top
  · have hinside : x.rank ≠ top ∧ x.rank ≠ -top := by
      rw [hrank]
      split <;> omega
    have hnumber : numberAt x.rank =
        if x.isNegative then -sizeAt x.magnitude else sizeAt x.magnitude := by
      rw [hrank, numberAt]
      split
      · by_cases hzero : x.magnitude = 0
        · simp [hzero, sizeAt_zero]
        · rw [if_pos (by omega), Int.natAbs_neg, Int.natAbs_natCast]
      · rw [if_neg (by omega), Int.natAbs_natCast]
    rw [value_eq, if_pos hfinite, placeAt, if_neg hinside.1, if_neg hinside.2, hnumber]
    rfl
  · have htop : x.magnitude = top := by omega
    rw [value_eq, if_neg hfinite, if_pos htop, hrank, htop]
    cases x.isNegative <;> rfl

theorem place_nan {x : Single} (h : x.isNaN = true) : x.value.place = none := by
  have hbeyond := x.isNaN_iff.mp h
  rw [value_eq, if_neg (by omega), if_neg (by omega)]
  rfl

theorem rank_bounds {x : Single} (h : x.isNaN = false) : -top ≤ x.rank ∧ x.rank ≤ top := by
  have hle := magnitude_le h
  rw [rank_eq]
  split <;> omega

/-- Comparing ranks is comparing numbers; nothing compares with NaN. -/
theorem lt_iff (x y : Single) :
    x.lt y = true ↔ ∃ a ∈ x.value.place, ∃ b ∈ y.value.place, a < b := by
  rw [lt]
  cases hx : x.isNaN with
  | true => simp [place_nan hx]
  | false =>
    cases hy : y.isNaN with
    | true => simp [place_nan hy]
    | false =>
      have hiff := placeAt_lt_iff (rank_bounds hx) (rank_bounds hy)
      simp [place_value hx, place_value hy, hiff]

/-- A number is at most another. NaN is not even at most itself. -/
def Le (x y : Single) : Prop := ∃ a ∈ x.value.place, ∃ b ∈ y.value.place, a ≤ b

/-- One number does not exceed another if it is at most the other, or if they do not compare. -/
theorem lt_eq_false_iff (x y : Single) :
    y.lt x = false ↔ x.Le y ∨ x.isNaN = true ∨ y.isNaN = true := by
  rw [← Bool.not_eq_true, lt_iff, Le]
  cases hx : x.isNaN with
  | true => simp [place_nan hx]
  | false =>
    cases hy : y.isNaN with
    | true => simp [place_nan hy]
    | false => simp [place_value hx, place_value hy]

/-- Bits are a sign and a count. -/
theorem ext_magnitude {x y : Single} (hsign : x.isNegative = y.isNegative)
    (h : x.magnitude = y.magnitude) : x = y := by
  have hx : x.bits.toNat < 4294967296 := x.bits.toNat_lt
  have hy : y.bits.toNat < 4294967296 := y.bits.toNat_lt
  rw [magnitude_eq, magnitude_eq] at h
  rw [isNegative, isNegative, decide_eq_decide] at hsign
  have hbits : x.bits.toNat = y.bits.toNat := by omega
  cases x
  cases y
  exact congrArg Single.mk (UInt32.toNat_inj.mp hbits)

end Single

end DeviceModel.Number
