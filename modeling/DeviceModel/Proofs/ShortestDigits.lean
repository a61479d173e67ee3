import DeviceModel.Number.Shortest
import DeviceModel.Proofs.Singles

namespace DeviceModel.Number

/-- The number that digits stand for. -/
def Decimal.amount (d : Decimal) : ℚ := d.digits * 10 ^ d.exponent

theorem zpow_toNat {b : ℚ} (hb : b ≠ 0) (x : Int) : b ^ x.toNat = b ^ (-x).toNat * b ^ x := by
  rw [← zpow_natCast, ← zpow_natCast, ← zpow_add₀ hb]
  congr 1
  omega

namespace Single

/-- Halfway between a number and the next one. -/
def middle (n : Nat) : ℚ := sizeAt n + 2 ^ exponentAt n / 2

theorem middle_strictMono : StrictMono middle := by
  apply strictMono_nat_of_lt_succ
  intro n
  have hstep : (0 : ℚ) < 2 ^ exponentAt n := by positivity
  have hnext : (0 : ℚ) < 2 ^ exponentAt (n + 1) := by positivity
  rw [middle, middle, sizeAt_succ]
  linarith

/-- What rounds to a number: all between the middles, and these themselves if the number is even. -/
def Owns (n : Nat) (q : ℚ) : Prop :=
  if n % 2 = 0 then middle (n - 1) ≤ q ∧ q ≤ middle n else middle (n - 1) < q ∧ q < middle n

theorem Owns.le {n : Nat} {q : ℚ} (h : Owns n q) : middle (n - 1) ≤ q ∧ q ≤ middle n := by
  unfold Owns at h
  split at h
  · exact h
  · exact ⟨h.1.le, h.2.le⟩

/-- No two numbers own the same. -/
theorem Owns.unique {n n' : Nat} {q : ℚ} (hn : 0 < n) (hn' : 0 < n') (h : Owns n q)
    (h' : Owns n' q) : n = n' := by
  -- Of two neighbours one is odd, and does not own the middle between them.
  have hnot : ∀ {a b : Nat}, 0 < b → Owns a q → Owns b q → ¬ a < b := by
    intro a b hb ha hb' hlt
    have hle : middle a ≤ middle (b - 1) := middle_strictMono.monotone (by omega)
    have heq : middle a = middle (b - 1) := le_antisymm hle (hb'.le.1.trans ha.le.2)
    have hnext : a = b - 1 := middle_strictMono.injective heq
    have ha' := ha.le.2
    have hb'' := hb'.le.1
    unfold Owns at ha hb'
    split at ha
    · rw [if_neg (by omega)] at hb'
      linarith [hb'.1]
    · linarith [ha.2]
  exact Nat.le_antisymm (Nat.le_of_not_lt (hnot hn h' h)) (Nat.le_of_not_lt (hnot hn' h h'))

/-- Whether the number below is only half a step away. -/
def narrowAt (n : Nat) : Bool := mantissaAt n == 8388608 && exponentAt n > -149

theorem exponentAt_pred {n : Nat} (hn : 0 < n) :
    exponentAt (n - 1) = if narrowAt n then exponentAt n - 1 else exponentAt n := by
  have hnarrow : narrowAt n = true ↔ 16777216 ≤ n ∧ n % 8388608 = 0 := by
    unfold narrowAt mantissaAt exponentAt
    rw [Bool.and_eq_true, beq_iff_eq, decide_eq_true_eq]
    split <;> omega
  by_cases h : 16777216 ≤ n ∧ n % 8388608 = 0
  · rw [if_pos (hnarrow.mpr h), exponentAt, exponentAt, if_neg (by omega), if_neg (by omega)]
    omega
  · rw [if_neg (mt hnarrow.mp h), exponentAt, exponentAt]
    split <;> split <;> omega

/-- The middle to the next number lies half a step of the number above it. -/
theorem middle_eq (n : Nat) : middle n = sizeAt n + 2 * 2 ^ (exponentAt n - 2) := by
  rw [middle, zpow_sub₀ (by norm_num)]
  norm_num
  ring

/-- The middle to the number before lies half a step of that number below. -/
theorem middle_pred {n : Nat} (hn : 0 < n) :
    middle (n - 1) = sizeAt n - (if narrowAt n then 1 else 2) * 2 ^ (exponentAt n - 2) := by
  obtain ⟨k, rfl⟩ : ∃ k, n = k + 1 := ⟨n - 1, by omega⟩
  have hexponent := exponentAt_pred hn
  rw [Nat.add_sub_cancel] at hexponent ⊢
  rw [middle, sizeAt_succ, hexponent]
  split
  · rw [zpow_sub₀ (by norm_num), zpow_sub₀ (by norm_num)]
    norm_num
    ring
  · rw [zpow_sub₀ (by norm_num)]
    norm_num
    ring

end Single

namespace Shortest

theorem amount_strip (n digits : Nat) (exponent : Int) :
    (strip n digits exponent).amount = digits * 10 ^ exponent := by
  induction n generalizing digits exponent with
  | zero => rfl
  | succ n ih =>
    rw [strip]
    split
    · next hzero =>
      obtain ⟨k, rfl⟩ : ∃ k, digits = 10 * k := ⟨digits / 10, by omega⟩
      rw [ih, Nat.mul_div_cancel_left k (by decide), zpow_add_one₀ (by norm_num)]
      push_cast
      ring
    · rfl

/-- One length is within another, which may or may not be reached. -/
def Grid.within (g : Grid) (length limit : Nat) : Bool :=
  if g.closed then length ≤ limit else length < limit

theorem Grid.hit_eq (g : Grid) (tie : Tie) : ∃ upper : Bool, g.hit tie =
    if g.within (g.value % g.step) g.below && g.within (g.step - g.value % g.step) g.above then
      some (if upper then g.value / g.step + 1 else g.value / g.step)
    else if g.within (g.value % g.step) g.below then some (g.value / g.step)
    else if g.within (g.step - g.value % g.step) g.above then some (g.value / g.step + 1)
    else none := ⟨_, rfl⟩

/-- What is hit is the neighbour below or the one above, and it is near enough. -/
theorem Grid.hit_cases {g : Grid} {tie : Tie} {q : Nat} (h : g.hit tie = some q) :
    q = g.value / g.step ∧ g.within (g.value % g.step) g.below = true ∨
      q = g.value / g.step + 1 ∧ g.within (g.step - g.value % g.step) g.above = true := by
  obtain ⟨upper, heq⟩ := g.hit_eq tie
  rw [heq] at h
  split at h
  · next hboth =>
    rw [Bool.and_eq_true] at hboth
    cases upper with
    | true => exact .inr ⟨(Option.some.inj h).symm, hboth.2⟩
    | false => exact .inl ⟨(Option.some.inj h).symm, hboth.1⟩
  · split at h
    · next hlow => exact .inl ⟨(Option.some.inj h).symm, hlow⟩
    · split at h
      · next hhigh => exact .inr ⟨(Option.some.inj h).symm, hhigh⟩
      · cases h

/-- A neighbour that is hit lies in the interval of the value. -/
theorem Grid.hit_mem {g : Grid} {tie : Tie} {q : Nat} (hstep : 0 < g.step) (hbelow : 0 < g.below)
    (habove : 0 < g.above) (h : g.hit tie = some q) :
    if g.closed then g.value ≤ q * g.step + g.below ∧ q * g.step ≤ g.value + g.above
    else g.value < q * g.step + g.below ∧ q * g.step < g.value + g.above := by
  have hdiv : g.value / g.step * g.step + g.value % g.step = g.value := Nat.div_add_mod' ..
  have hmod := Nat.mod_lt g.value hstep
  have hnear := hit_cases h
  unfold within at hnear
  split
  · next hclosed =>
    simp only [hclosed, if_true, decide_eq_true_eq] at hnear
    rcases hnear with ⟨rfl, hnear⟩ | ⟨rfl, hnear⟩
    · constructor <;> omega
    · rw [Nat.succ_mul]
      constructor <;> omega
  · next hopen =>
    simp only [if_neg hopen, decide_eq_true_eq] at hnear
    rcases hnear with ⟨rfl, hnear⟩ | ⟨rfl, hnear⟩
    · constructor <;> omega
    · rw [Nat.succ_mul]
      constructor <;> omega

/-- If neither neighbour is hit, the grid is coarser than the interval is wide. -/
theorem Grid.hit_none {g : Grid} {tie : Tie} (hstep : 0 < g.step) (h : g.hit tie = none) :
    g.below + g.above ≤ g.step := by
  have hmod := Nat.mod_lt g.value hstep
  obtain ⟨upper, heq⟩ := g.hit_eq tie
  rw [heq] at h
  split at h
  · cases h
  · split at h
    · cases h
    · next hlow =>
      split at h
      · cases h
      · next hhigh =>
        unfold within at hlow hhigh
        split at hlow
        · rw [if_pos ‹_›] at hhigh
          simp only [decide_eq_true_eq] at hlow hhigh
          omega
        · rw [if_neg ‹_›] at hhigh
          simp only [decide_eq_true_eq] at hlow hhigh
          omega

/-- What the lengths on a grid with a step of the given power of ten are counted in. -/
def unitAt (exponent k : Int) : Nat := 2 ^ (exponent - 2).toNat * 10 ^ (-k).toNat

/-- The grid that is tried with a step of the given power of ten. -/
def gridAt (mantissa : Nat) (exponent : Int) (narrow : Bool) (k : Int) : Grid :=
  ⟨4 * mantissa * unitAt exponent k, (if narrow then 1 else 2) * unitAt exponent k,
    2 * unitAt exponent k, 10 ^ k.toNat * 2 ^ (2 - exponent).toNat, mantissa % 2 == 0⟩

theorem search_succ (mantissa : Nat) (exponent : Int) (narrow : Bool) (lead : Int) (tie : Tie)
    (n count : Nat) :
    search mantissa exponent narrow lead tie (n + 1) count =
      match (gridAt mantissa exponent narrow (lead - count + 1)).hit tie with
      | some digits => some (strip 20 digits (lead - count + 1))
      | none => search mantissa exponent narrow lead tie n (count + 1) := rfl

/-- How far the lengths on a grid are scaled up to be whole. -/
def scale (exponent k : Int) : ℚ := 2 ^ (2 - exponent).toNat * 10 ^ (-k).toNat

section Scaled

variable (mantissa : Nat) (exponent : Int) (narrow : Bool) (k : Int)

theorem scale_pos : 0 < scale exponent k := by
  unfold scale
  positivity

theorem unitAt_eq : (unitAt exponent k : ℚ) = scale exponent k * 2 ^ (exponent - 2) := by
  have hpow := zpow_toNat (b := 2) (by norm_num) (exponent - 2)
  rw [neg_sub] at hpow
  rw [unitAt, scale]
  push_cast
  rw [hpow]
  ring

theorem gridAt_value :
    ((gridAt mantissa exponent narrow k).value : ℚ) =
      scale exponent k * size mantissa exponent := by
  have hquarter : (2 : ℚ) ^ exponent = 4 * 2 ^ (exponent - 2) := by
    rw [zpow_sub₀ (by norm_num)]
    norm_num
    ring
  rw [gridAt, size, hquarter]
  push_cast
  rw [unitAt_eq]
  ring

theorem gridAt_below : ((gridAt mantissa exponent narrow k).below : ℚ) =
    scale exponent k * ((if narrow then 1 else 2) * 2 ^ (exponent - 2)) := by
  rw [gridAt]
  push_cast
  rw [unitAt_eq]
  ring

theorem gridAt_above :
    ((gridAt mantissa exponent narrow k).above : ℚ) =
      scale exponent k * (2 * 2 ^ (exponent - 2)) := by
  rw [gridAt]
  push_cast
  rw [unitAt_eq]
  ring

theorem gridAt_step :
    ((gridAt mantissa exponent narrow k).step : ℚ) = scale exponent k * 10 ^ k := by
  have hpow := zpow_toNat (b := 10) (by norm_num) k
  rw [gridAt, scale]
  push_cast
  rw [hpow]
  ring

theorem gridAt_step_pos : 0 < (gridAt mantissa exponent narrow k).step := by
  unfold gridAt
  positivity

theorem gridAt_below_pos : 0 < (gridAt mantissa exponent narrow k).below := by
  have hunit : 0 < unitAt exponent k := by
    unfold unitAt
    positivity
  rw [gridAt]
  dsimp only
  split <;> omega

theorem gridAt_above_pos : 0 < (gridAt mantissa exponent narrow k).above := by
  unfold gridAt unitAt
  positivity

end Scaled

open Single

theorem mantissaAt_even (n : Nat) : mantissaAt n % 2 = n % 2 := by
  unfold mantissaAt
  split <;> omega

/-- What is hit on a grid is the number's own. -/
theorem owns_of_hit {n : Nat} (hn : 0 < n) {tie : Tie} {k : Int} {q : Nat}
    (h : (gridAt (mantissaAt n) (exponentAt n) (narrowAt n) k).hit tie = some q) :
    Owns n (q * 10 ^ k) := by
  have hmem := Grid.hit_mem (gridAt_step_pos ..) (gridAt_below_pos ..) (gridAt_above_pos ..) h
  have hvalue := gridAt_value (mantissaAt n) (exponentAt n) (narrowAt n) k
  have hbelow := gridAt_below (mantissaAt n) (exponentAt n) (narrowAt n) k
  have habove := gridAt_above (mantissaAt n) (exponentAt n) (narrowAt n) k
  have hstep := gridAt_step (mantissaAt n) (exponentAt n) (narrowAt n) k
  have hclosed : (gridAt (mantissaAt n) (exponentAt n) (narrowAt n) k).closed = true ↔
      n % 2 = 0 := by
    change (mantissaAt n % 2 == 0) = true ↔ _
    rw [beq_iff_eq, mantissaAt_even]
  generalize gridAt (mantissaAt n) (exponentAt n) (narrowAt n) k =
    g at hmem hvalue hbelow habove hstep hclosed
  have hscale := scale_pos (exponentAt n) k
  generalize scale (exponentAt n) k = s at hvalue hbelow habove hstep hscale
  -- The ends of the interval and the point on the grid, scaled down.
  have hlow : (g.value : ℚ) - g.below = s * middle (n - 1) := by
    rw [middle_pred hn, hvalue, hbelow, sizeAt]
    ring
  have hhigh : (g.value : ℚ) + g.above = s * middle n := by
    rw [middle_eq, hvalue, habove, sizeAt]
    ring
  have hpoint : (q * g.step : ℚ) = s * (q * 10 ^ k) := by
    rw [hstep]
    ring
  unfold Owns
  split
  · next heven =>
    rw [if_pos (hclosed.mpr heven)] at hmem
    have hfirst : (g.value : ℚ) ≤ q * g.step + g.below := by exact_mod_cast hmem.1
    have hlast : (q * g.step : ℚ) ≤ g.value + g.above := by exact_mod_cast hmem.2
    exact ⟨le_of_mul_le_mul_left (by linarith) hscale, le_of_mul_le_mul_left (by linarith) hscale⟩
  · next hodd =>
    rw [if_neg (mt hclosed.mp hodd)] at hmem
    have hfirst : (g.value : ℚ) < q * g.step + g.below := by exact_mod_cast hmem.1
    have hlast : (q * g.step : ℚ) < g.value + g.above := by exact_mod_cast hmem.2
    exact ⟨lt_of_mul_lt_mul_left (by linarith) hscale.le,
      lt_of_mul_lt_mul_left (by linarith) hscale.le⟩

/-- Whatever is found is the number's own. -/
theorem owns_of_search {n : Nat} (hn : 0 < n) {lead : Int} {tie : Tie} {tries count : Nat}
    {d : Decimal}
    (h : search (mantissaAt n) (exponentAt n) (narrowAt n) lead tie tries count = some d) :
    Owns n d.amount := by
  induction tries generalizing count with
  | zero => cases h
  | succ tries ih =>
    rw [search_succ] at h
    split at h
    · next digits hhit =>
      cases h
      rw [amount_strip]
      exact owns_of_hit hn hhit
    · exact ih h

/-- If nothing is found, nothing is hit on the finest grid that is tried. -/
theorem hit_of_search_none {mantissa : Nat} {exponent : Int} {narrow : Bool} {lead : Int}
    {tie : Tie} {tries count : Nat}
    (h : search mantissa exponent narrow lead tie (tries + 1) count = none) :
    (gridAt mantissa exponent narrow (lead - (count + tries : Nat) + 1)).hit tie = none := by
  induction tries generalizing count with
  | zero =>
    rw [search_succ] at h
    split at h
    · cases h
    · next hhit => exact hhit
  | succ tries ih =>
    rw [search_succ] at h
    split at h
    · cases h
    · have hlast := ih h
      rwa [show count + 1 + tries = count + (tries + 1) by omega] at hlast

section Leading

variable {num den : Nat}

/-- The power of ten that is found is at most the ratio, unless it was looked for too far above. -/
theorem descend_le (num den n : Nat) (e : Int) :
    (10 : ℚ) ^ descend num den n e * den ≤ num ∨ descend num den n e = e - n := by
  induction n generalizing e with
  | zero =>
    right
    simp [descend]
  | succ n ih =>
    rw [descend]
    split
    · next hle =>
      left
      have hpow := zpow_toNat (b := 10) (by norm_num) e
      have hcast : (10 : ℚ) ^ e.toNat * den ≤ num * 10 ^ (-e).toNat := by exact_mod_cast hle
      rw [hpow] at hcast
      have hpos : (0 : ℚ) < 10 ^ (-e).toNat := by positivity
      refine le_of_mul_le_mul_left ?_ hpos
      linarith
    · rcases ih (e - 1) with hle | heq
      · exact .inl hle
      · right
        rw [heq]
        push_cast
        ring

/-- Logarithms tell a ratio up to a factor of four. -/
theorem log2_bounds (hnum : 0 < num) (hden : 0 < den) {q : ℚ} (hq : (num : ℚ) = den * q) :
    (2 : ℚ) ^ ((num.log2 : Int) - den.log2 - 1) < q ∧
      q < 2 ^ ((num.log2 : Int) - den.log2 + 1) := by
  have hnumLow : (2 : ℚ) ^ num.log2 ≤ num := by exact_mod_cast Nat.log2_self_le (by omega)
  have hnumHigh : (num : ℚ) < 2 ^ (num.log2 + 1) := by exact_mod_cast Nat.lt_log2_self
  have hdenLow : (2 : ℚ) ^ den.log2 ≤ den := by exact_mod_cast Nat.log2_self_le (by omega)
  have hdenHigh : (den : ℚ) < 2 ^ (den.log2 + 1) := by exact_mod_cast Nat.lt_log2_self
  have hden' : (0 : ℚ) < den := by exact_mod_cast hden
  have hq' : 0 < q := by
    refine pos_of_mul_pos_right ?_ hden'.le
    rw [← hq]
    exact_mod_cast hnum
  constructor
  · rw [show (num.log2 : Int) - den.log2 - 1 = num.log2 - (den.log2 + 1 : Nat) by push_cast; ring,
      zpow_sub₀ (by norm_num), zpow_natCast, zpow_natCast, div_lt_iff₀ (by positivity)]
    calc (2 : ℚ) ^ num.log2 ≤ den * q := hq ▸ hnumLow
      _ < 2 ^ (den.log2 + 1) * q := mul_lt_mul_of_pos_right hdenHigh hq'
      _ = q * 2 ^ (den.log2 + 1) := mul_comm _ _
  · rw [show (num.log2 : Int) - den.log2 + 1 = (num.log2 + 1 : Nat) - den.log2 by push_cast; ring,
      zpow_sub₀ (by norm_num), zpow_natCast, zpow_natCast, lt_div_iff₀ (by positivity)]
    calc q * 2 ^ den.log2 ≤ q * den := mul_le_mul_of_nonneg_left hdenLow hq'.le
      _ = num := by rw [hq, mul_comm]
      _ < 2 ^ (num.log2 + 1) := hnumHigh

/-- The guess of a power of ten is good enough for the ratios of singles. -/
theorem ten_zpow_guess_le {log : Int} (hlow : -149 < log) (hhigh : log < 130) :
    (10 : ℚ) ^ (log * 30103 / 100000 + 1 - 4) ≤ 10 ^ 8 * 2 ^ (log - 2) := by
  generalize ht : log * 30103 / 100000 = t
  -- Ten is between eight and sixteen, which is near enough so close to zero.
  have hbound : (10 : ℚ) ^ t ≤ 2 ^ (log + 34) := by
    obtain ⟨s, rfl | rfl⟩ := t.eq_nat_or_neg
    · calc (10 : ℚ) ^ (s : Int) ≤ 16 ^ (s : Int) :=
            zpow_le_zpow_left₀ (by omega) (by norm_num) (by norm_num)
        _ = 2 ^ (4 * s : Int) := by rw [zpow_mul]; norm_num
        _ ≤ 2 ^ (log + 34) := zpow_le_zpow_right₀ (by norm_num) (by omega)
    · calc (10 : ℚ) ^ (-s : Int) ≤ 8 ^ (-s : Int) := by
            rw [zpow_neg, zpow_neg, zpow_natCast, zpow_natCast]
            exact inv_anti₀ (by positivity) (pow_le_pow_left₀ (by norm_num) (by norm_num) s)
        _ = 2 ^ (3 * -s : Int) := by rw [zpow_mul]; norm_num
        _ ≤ 2 ^ (log + 34) := zpow_le_zpow_right₀ (by norm_num) (by omega)
  calc (10 : ℚ) ^ (t + 1 - 4) = 10 ^ t * 10 ^ (-3 : Int) := by
        rw [← zpow_add₀ (by norm_num)]
        congr 1
        ring
    _ ≤ 2 ^ (log + 34) * 10 ^ (-3 : Int) := mul_le_mul_of_nonneg_right hbound (by positivity)
    _ = 2 ^ (log - 2) * (2 ^ (36 : Int) * 10 ^ (-3 : Int)) := by
      rw [← mul_assoc, ← zpow_add₀ (by norm_num)]
      congr 2
      ring
    _ ≤ 2 ^ (log - 2) * 10 ^ 8 := mul_le_mul_of_nonneg_left (by norm_num) (by positivity)
    _ = 10 ^ 8 * 2 ^ (log - 2) := mul_comm _ _

end Leading

theorem mantissaAt_bounds {n : Nat} (hn : 0 < n) : 0 < mantissaAt n ∧ mantissaAt n < 16777216 := by
  unfold mantissaAt
  split <;> omega

theorem exponentAt_bounds {n : Nat} (hn : n < top) : -149 ≤ exponentAt n ∧ exponentAt n ≤ 104 := by
  unfold top at hn
  unfold exponentAt
  split <;> omega

theorem sizeAt_bounds {n : Nat} (hn : 0 < n) (htop : n < top) :
    (2 : ℚ) ^ (-149 : Int) ≤ sizeAt n ∧ sizeAt n < 2 ^ (128 : Int) := by
  obtain ⟨hpos, hlt⟩ := mantissaAt_bounds hn
  obtain ⟨hlow, hhigh⟩ := exponentAt_bounds htop
  have hone : (1 : ℚ) ≤ mantissaAt n := by exact_mod_cast hpos
  have hmax : (mantissaAt n : ℚ) < 2 ^ (24 : Int) := by
    norm_num
    exact hlt
  rw [sizeAt, size]
  constructor
  · calc (2 : ℚ) ^ (-149 : Int) ≤ 1 * 2 ^ exponentAt n := by
          rw [one_mul]
          exact zpow_le_zpow_right₀ (by norm_num) hlow
      _ ≤ mantissaAt n * 2 ^ exponentAt n := mul_le_mul_of_nonneg_right hone (by positivity)
  · calc (mantissaAt n : ℚ) * 2 ^ exponentAt n < 2 ^ (24 : Int) * 2 ^ exponentAt n :=
          mul_lt_mul_of_pos_right hmax (by positivity)
      _ = 2 ^ (24 + exponentAt n) := by rw [zpow_add₀ (by norm_num)]
      _ ≤ 2 ^ (128 : Int) := zpow_le_zpow_right₀ (by norm_num) (by omega)

/-- The leading power of ten is not far above the number. -/
theorem ten_zpow_leading_le {n : Nat} (hn : 0 < n) (htop : n < top) :
    (10 : ℚ) ^ leadingExponent (mantissaAt n * 2 ^ (exponentAt n).toNat) (2 ^ (-exponentAt n).toNat)
    ≤ 10 ^ 8 * sizeAt n := by
  have hratio : ((mantissaAt n * 2 ^ (exponentAt n).toNat : Nat) : ℚ) =
      (2 ^ (-exponentAt n).toNat : Nat) * sizeAt n := by
    push_cast
    rw [zpow_toNat (by norm_num), sizeAt, size]
    ring
  have hnum : 0 < mantissaAt n * 2 ^ (exponentAt n).toNat :=
    Nat.mul_pos (mantissaAt_bounds hn).1 (by positivity)
  have hden : 0 < 2 ^ (-exponentAt n).toNat := by positivity
  generalize mantissaAt n * 2 ^ (exponentAt n).toNat = num at hratio hnum
  generalize 2 ^ (-exponentAt n).toNat = den at hratio hden
  obtain ⟨hsmallest, hlargest⟩ := sizeAt_bounds hn htop
  obtain ⟨hlow, hhigh⟩ := log2_bounds hnum hden hratio
  have hpos : (0 : ℚ) < den := by exact_mod_cast hden
  have hsize : 0 < sizeAt n := lt_of_lt_of_le (by positivity) hsmallest
  rw [leadingExponent]
  rcases descend_le num den 4
    (((num.log2 : Int) - den.log2 + 1) * 30103 / 100000 + 1) with hle | heq
  · rw [hratio, mul_comm] at hle
    have hexact := le_of_mul_le_mul_left hle hpos
    linarith
  · have hlog : -149 < (num.log2 : Int) - den.log2 + 1 :=
      (zpow_lt_zpow_iff_right₀ (by norm_num : (1 : ℚ) < 2)).mp (hsmallest.trans_lt hhigh)
    have hlog' : (num.log2 : Int) - den.log2 - 1 < 128 :=
      (zpow_lt_zpow_iff_right₀ (by norm_num : (1 : ℚ) < 2)).mp (hlow.trans hlargest)
    rw [heq]
    calc (10 : ℚ) ^ (((num.log2 : Int) - den.log2 + 1) * 30103 / 100000 + 1 - 4)
        ≤ 10 ^ 8 * 2 ^ ((num.log2 : Int) - den.log2 + 1 - 2) := ten_zpow_guess_le hlog (by omega)
      _ = 10 ^ 8 * 2 ^ ((num.log2 : Int) - den.log2 - 1) := by
        rw [show (num.log2 : Int) - den.log2 + 1 - 2 = num.log2 - den.log2 - 1 by ring]
      _ ≤ 10 ^ 8 * sizeAt n := mul_le_mul_of_nonneg_left hlow.le (by norm_num)

/-- Seventeen digits are always enough. -/
theorem search_isSome {n : Nat} (hn : 0 < n) (htop : n < top) (tie : Tie) :
    search (mantissaAt n) (exponentAt n) (narrowAt n)
      (leadingExponent (mantissaAt n * 2 ^ (exponentAt n).toNat) (2 ^ (-exponentAt n).toNat)) tie 17
        1 ≠ none := by
  intro hnone
  have hlead := ten_zpow_leading_le hn htop
  generalize leadingExponent (mantissaAt n * 2 ^ (exponentAt n).toNat) (2 ^ (-exponentAt n).toNat) =
    lead at hnone hlead
  have hhit := hit_of_search_none hnone
  have hcoarse := Grid.hit_none (gridAt_step_pos ..) hhit
  rw [show lead - (1 + 16 : Nat) + 1 = lead - 16 by push_cast; ring] at hcoarse
  have hwide : ((gridAt (mantissaAt n) (exponentAt n) (narrowAt n) (lead - 16)).below : ℚ) +
      (gridAt (mantissaAt n) (exponentAt n) (narrowAt n) (lead - 16)).above ≤
        (gridAt (mantissaAt n) (exponentAt n) (narrowAt n) (lead - 16)).step := by
          exact_mod_cast hcoarse
  rw [gridAt_below, gridAt_above, gridAt_step, ← mul_add] at hwide
  have hstep := le_of_mul_le_mul_left hwide (scale_pos ..)
  have hunit : (0 : ℚ) < 2 ^ (exponentAt n - 2) := by positivity
  have hthree : 3 * (2 : ℚ) ^ (exponentAt n - 2) ≤ 10 ^ (lead - 16) := by
    refine le_trans ?_ hstep
    split <;> linarith
  have hquarter : (2 : ℚ) ^ exponentAt n = 4 * 2 ^ (exponentAt n - 2) := by
    rw [zpow_sub₀ (by norm_num)]
    norm_num
    ring
  have hmantissa : (mantissaAt n : ℚ) < 16777216 := by exact_mod_cast (mantissaAt_bounds hn).2
  have hsize : sizeAt n < 16777216 * (4 * 2 ^ (exponentAt n - 2)) := by
    rw [sizeAt, size, hquarter]
    exact mul_lt_mul_of_pos_right hmantissa (by positivity)
  have hfine : (10 : ℚ) ^ (lead - 16) * 10 ^ (16 : Nat) ≤ 10 ^ 8 * sizeAt n := by
    rw [← zpow_natCast, ← zpow_add₀ (by norm_num)]
    rwa [show lead - 16 + (16 : Nat) = lead by push_cast; ring]
  linarith

end Shortest

/-- The digits of a number lie in the interval that reads back as it. -/
theorem shortest_owns {n : Nat} (hn : 0 < n) (htop : n < Single.top) (tie : Tie) :
    Single.Owns n (shortest .single tie (Single.mantissaAt n) (Single.exponentAt n)).amount := by
  obtain ⟨d, hd⟩ := Option.ne_none_iff_exists'.mp (Shortest.search_isSome hn htop tie)
  have hshortest : shortest .single tie (Single.mantissaAt n) (Single.exponentAt n) =
      (Shortest.search (Single.mantissaAt n) (Single.exponentAt n) (Single.narrowAt n)
        (Shortest.leadingExponent (Single.mantissaAt n * 2 ^ (Single.exponentAt n).toNat)
          (2 ^ (-Single.exponentAt n).toNat)) tie 17 1).getD ⟨0, 0⟩ := rfl
  rw [hshortest, hd, Option.getD_some]
  exact Shortest.owns_of_search hn hd

end DeviceModel.Number
