/-! Rounding of quotients of natural numbers to the nearest integer and to a number of significant
bits. A half goes to the even neighbour. -/

namespace WaveletRaster.Binary

def nearestEven (num den : Nat) : Nat :=
  let q := num / den
  let r := num % den
  if 2 * r < den then q
  else if den < 2 * r then q + 1
  else q + q % 2

/-- How many low bits of `n` lie below its `p` leading ones. -/
def excessBits (p n : Nat) : Nat := n.log2 + 1 - p

/-- The number with at most `p` significant bits nearest to `num / den`. Numbers below `2 ^ p` are
rounded to an integer. -/
def roundQuotient (p num den : Nat) : Nat :=
  let s := excessBits p (num / den)
  nearestEven num (den <<< s) <<< s

/-- The integer nearest to `n / 2 ^ k`: the bit below the cut says whether the rest reaches a half,
the bits below that one whether it is more than a half. -/
def nearestEvenShift (n : Nat) : Nat → Nat
  | 0 => n
  | k + 1 =>
    let h := n >>> k
    let q := h / 2
    if h % 2 = 0 then q
    else if h <<< k = n then q + q % 2
    else q + 1

def roundShift (p n k : Nat) : Nat :=
  let s := n.log2 + 1 - (p + k)
  nearestEvenShift n (k + s) <<< s

theorem le_nearestEven (num den : Nat) : num / den ≤ nearestEven num den := by
  unfold nearestEven
  grind

theorem nearestEven_le (num den : Nat) : nearestEven num den ≤ num / den + 1 := by
  unfold nearestEven
  grind

theorem nearestEvenShift_eq (n k : Nat) : nearestEvenShift n k = nearestEven n (1 <<< k) := by
  rw [Nat.one_shiftLeft]
  cases k with
  | zero => simp [nearestEvenShift, nearestEven, Nat.mod_one]
  | succ k =>
    have hdiv : n / (2 ^ k * 2) = n / 2 ^ k / 2 := by rw [Nat.div_div_eq_div_mul]
    have hmod : n % (2 ^ k * 2) = n % 2 ^ k + 2 ^ k * (n / 2 ^ k % 2) := Nat.mod_mul
    have hsplit := Nat.mod_add_div n (2 ^ k)
    have hlt := Nat.mod_lt n (Nat.two_pow_pos k)
    have hcomm : n / 2 ^ k * 2 ^ k = 2 ^ k * (n / 2 ^ k) := Nat.mul_comm _ _
    simp only [nearestEvenShift, nearestEven, Nat.shiftRight_eq_div_pow, Nat.shiftLeft_eq,
      Nat.pow_succ, hdiv, hmod]
    rcases Nat.mod_two_eq_zero_or_one (n / 2 ^ k) with h | h
    · rw [h]
      grind
    · rw [h, hcomm]
      grind

theorem log2_shiftRight (n k : Nat) : (n >>> k).log2 = n.log2 - k := by
  induction k with
  | zero => rfl
  | succ k ih =>
    rw [Nat.shiftRight_succ, ← Nat.sub_sub, ← ih, Nat.log2_def (n >>> k)]
    split
    · rfl
    · rw [Nat.div_eq_of_lt (by omega)]
      rfl

theorem roundShift_eq {p : Nat} (hp : 0 < p) (n k : Nat) :
    roundShift p n k = roundQuotient p n (1 <<< k) := by
  have hs : n.log2 + 1 - (p + k) = excessBits p (n / 1 <<< k) := by
    rw [excessBits, Nat.one_shiftLeft, ← Nat.shiftRight_eq_div_pow, log2_shiftRight]
    omega
  simp only [roundShift, roundQuotient, hs, nearestEvenShift_eq, Nat.shiftLeft_eq, Nat.pow_add,
    Nat.one_mul]

theorem lt_shiftLeft_of_log2_lt {n k : Nat} (h : n.log2 < k) : n < 1 <<< k := by
  rw [Nat.one_shiftLeft]
  exact Nat.lt_of_lt_of_le Nat.lt_log2_self (Nat.pow_le_pow_right (by decide) h)

theorem lt_shiftLeft_excessBits (p n : Nat) : n < 1 <<< (p + excessBits p n) :=
  lt_shiftLeft_of_log2_lt (by unfold excessBits; omega)

theorem div_shift_lt (p num den : Nat) :
    num / (den <<< excessBits p (num / den)) < 1 <<< p := by
  rw [Nat.shiftLeft_eq, ← Nat.div_div_eq_div_mul]
  apply Nat.div_lt_of_lt_mul
  rw [Nat.one_shiftLeft, ← Nat.pow_add, Nat.add_comm, ← Nat.one_shiftLeft]
  exact lt_shiftLeft_excessBits p _

theorem shiftLeft_excessBits_dvd {p k s : Nat} (hp : 0 < p) (hk : k ≤ 1 <<< p) :
    1 <<< excessBits p (k <<< s) ∣ k <<< s := by
  rw [Nat.one_shiftLeft] at hk
  rw [Nat.shiftLeft_eq k, Nat.one_shiftLeft]
  rcases Nat.eq_zero_or_pos k with rfl | hpos
  · simp
  have hlog : (k * 2 ^ s).log2 = k.log2 + s := by
    rw [Nat.log2_eq_iff (Nat.mul_ne_zero (by omega) (by exact Nat.ne_of_gt (Nat.two_pow_pos s)))]
    constructor
    · rw [Nat.pow_add]
      exact Nat.mul_le_mul_right _ (Nat.log2_self_le (by omega))
    · rw [Nat.add_right_comm, Nat.pow_add]
      exact Nat.mul_lt_mul_of_pos_right Nat.lt_log2_self (Nat.two_pow_pos s)
  unfold excessBits
  rw [hlog]
  rcases Nat.lt_or_ge k (2 ^ p) with hlt | hge
  · have : k.log2 < p := (Nat.log2_lt (by omega)).mpr hlt
    exact Nat.dvd_trans (Nat.pow_dvd_pow 2 (by omega)) (Nat.dvd_mul_left _ _)
  · have hk : k = 2 ^ p := Nat.le_antisymm hk hge
    subst hk
    rw [Nat.log2_two_pow, ← Nat.pow_add]
    exact Nat.pow_dvd_pow 2 (by omega)

theorem excessBits_roundQuotient_dvd {p : Nat} (hp : 0 < p) (num den : Nat) :
    1 <<< excessBits p (roundQuotient p num den) ∣ roundQuotient p num den := by
  unfold roundQuotient
  apply shiftLeft_excessBits_dvd hp
  have h₁ := nearestEven_le num (den <<< excessBits p (num / den))
  have h₂ := div_shift_lt p num den
  omega

end WaveletRaster.Binary
