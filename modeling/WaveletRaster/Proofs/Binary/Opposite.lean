import Mathlib
import WaveletRaster.Proofs.Binary.Magnitude

/-! Numbers of opposite value. Rounding treats both signs alike, so that the operations take
opposites to opposites. Only the sign of a zero does not follow: a cancellation gives a positive
zero both times. -/

namespace WaveletRaster.Binary
variable {f g : Format}

protected theorem add_comm (x y : Binary f) : x + y = y + x := by
  change Binary.add x y = Binary.add y x
  cases x with
  | nan => cases y <;> rfl
  | infinity s =>
    cases y with
    | infinity t => cases s <;> cases t <;> rfl
    | _ => rfl
  | finite s m hm =>
    cases y with
    | finite t n hn => grind [Binary.add]
    | _ => rfl

protected theorem mul_comm (x y : Binary f) : x * y = y * x := by
  change Binary.mul x y = Binary.mul y x
  cases x with
  | nan => cases y <;> rfl
  | infinity s => cases y <;> simp [Binary.mul, bne_comm]
  | finite s m hm =>
    cases y with
    | finite t n hn => simp only [Binary.mul, bne_comm, Nat.mul_comm]
    | _ => simp [Binary.mul, bne_comm]

/-- One number is the negative of the other, or neither is a number. The sign of a zero does not
count. -/
inductive Opposite : Binary f → Binary f → Prop where
  | nan : Opposite .nan .nan
  | infinity {s t : Bool} (sign : s ≠ t) : Opposite (.infinity s) (.infinity t)
  | finite {s t : Bool} {m : Nat} {h : f.Represents m} (sign : s ≠ t ∨ m = 0) :
    Opposite (.finite s m h) (.finite t m h)

theorem opposite_iff {x y : Binary f} : x.Opposite y ↔ x.equals (-y) ∨ x.isNaN ∧ y.isNaN := by
  constructor
  · intro h
    cases h with
    | nan => exact .inr ⟨rfl, rfl⟩
    | @infinity s t sign => exact .inl (beq_iff_eq.mpr (Bool.eq_not.mpr sign))
    | @finite s t m h sign =>
      refine .inl ?_
      change (m == m && (s == !t || m == 0)) = true
      simpa [Bool.eq_not] using sign
  · rintro (h | ⟨hx, hy⟩)
    · cases x with
      | nan => cases h
      | infinity s =>
        cases y with
        | infinity t => exact .infinity (Bool.eq_not.mp (beq_iff_eq.mp h))
        | _ => cases h
      | finite s m hm =>
        cases y with
        | finite t n hn =>
          change (m == n && (s == !t || m == 0)) = true at h
          obtain ⟨rfl, sign⟩ : m = n ∧ (s ≠ t ∨ m = 0) := by
            simpa [Bool.eq_not] using h
          exact .finite sign
        | _ => cases h
    · cases x with
      | nan =>
        cases y with
        | nan => exact .nan
        | _ => cases hy
      | _ => cases hx

instance (x y : Binary f) : Decidable (x.Opposite y) := decidable_of_iff _ opposite_iff.symm

theorem signed_eq_neg_signed_iff {s t : Bool} {m n : Nat} :
    signed s m = -signed t n ↔ m = n ∧ (s ≠ t ∨ m = 0) := by
  cases s <;> cases t <;> simp [signed] <;> omega

namespace Opposite
variable {x y : Binary f}

theorem symm (h : x.Opposite y) : y.Opposite x := by
  cases h with
  | nan => exact .nan
  | infinity sign => exact .infinity sign.symm
  | finite sign => exact .finite (sign.imp_left Ne.symm)

theorem neg (h : x.Opposite y) : (-x).Opposite (-y) := by
  cases h with
  | nan => exact .nan
  | infinity sign => exact .infinity (by simpa using sign)
  | finite sign => exact .finite (by simpa using sign)

theorem exists_eq_zero (h : x.Opposite x) (hx : x.isFinite) : ∃ s, x = zero s := by
  cases h with
  | nan => cases hx
  | infinity sign => exact absurd rfl sign
  | @finite s _ m _ sign =>
    obtain rfl : m = 0 := sign.resolve_left (absurd rfl)
    exact ⟨s, rfl⟩

end Opposite

theorem opposite_neg (x : Binary f) : x.Opposite (-x) := by
  cases x with
  | nan => exact .nan
  | infinity s => exact .infinity (Bool.not_ne_self s).symm
  | finite s m hm => exact .finite (.inl (Bool.not_ne_self s).symm)

theorem opposite_zero (s t : Bool) : (zero s : Binary f).Opposite (zero t) := .finite (.inr rfl)

theorem opposite_ofShift {s t : Bool} {n : Nat} (sign : s ≠ t ∨ n = 0) (k : Nat) :
    (ofShift s n k : Binary f).Opposite (ofShift t n k) := by
  rcases sign with sign | rfl
  · simp only [ofShift, ofMagnitude]
    split_ifs
    · exact .finite (.inl sign)
    · exact .infinity sign
  · rw [ofShift_zero, ofShift_zero]
    exact opposite_zero s t

theorem opposite_ofNat_zero : (ofNat 0 : Binary f).Opposite (ofNat 0) :=
  opposite_ofShift (.inr (Nat.zero_shiftLeft _)) 0

namespace Opposite
variable {x y x' y' : Binary f}

theorem add (hx : x.Opposite x') (hy : y.Opposite y') : (x + y).Opposite (x' + y') := by
  cases hx with
  | nan => exact .nan
  | @infinity s t sign =>
    cases hy with
    | nan => exact .nan
    | @infinity u v sign' =>
      have hiff : s = u ↔ t = v := by
        rw [Bool.eq_not.mpr sign, Bool.eq_not.mpr sign', Bool.not_inj_iff]
      change Opposite (if s = u then Binary.infinity s else .nan)
        (if t = v then .infinity t else .nan)
      by_cases hsu : s = u
      · rw [if_pos hsu, if_pos (hiff.mp hsu)]
        exact .infinity sign
      · rw [if_neg hsu, if_neg (hiff.not.mp hsu)]
        exact .nan
    | finite => exact .infinity sign
  | @finite s t m hm sign =>
    cases hy with
    | nan => exact .nan
    | infinity sign' => exact .infinity sign'
    | @finite u v n hn sign' =>
      obtain ⟨a, j, hsum, ha, -⟩ := exists_add_eq_ofShift s u hm hn
      obtain ⟨b, k, hsum', hb, -⟩ := exists_add_eq_ofShift t v hm hn
      have hleft : signed s m = -signed t m := signed_eq_neg_signed_iff.mpr ⟨rfl, sign⟩
      have hright : signed u n = -signed v n := signed_eq_neg_signed_iff.mpr ⟨rfl, sign'⟩
      have hopposite : signed a j = -signed b k := by
        rw [ha, hb, hleft, hright, neg_add]
      obtain ⟨rfl, hsign⟩ := signed_eq_neg_signed_iff.mp hopposite
      rw [hsum, hsum']
      exact opposite_ofShift hsign 0

theorem sub (hx : x.Opposite x') (hy : y.Opposite y') : (x - y).Opposite (x' - y') := hx.add hy.neg

theorem mul_left (c : Binary f) (hx : x.Opposite x') : (c * x).Opposite (c * x') := by
  have flip {s t : Bool} (r : Bool) (sign : s ≠ t) : (r != s) ≠ (r != t) := by simpa using sign
  cases c with
  | nan => exact .nan
  | infinity r =>
    cases hx with
    | nan => exact .nan
    | infinity sign => exact .infinity (flip r sign)
    | @finite s t m hm sign =>
      change Opposite (if m = 0 then Binary.nan else .infinity (r != s))
        (if m = 0 then .nan else .infinity (r != t))
      split_ifs with hzero
      · exact .nan
      · exact .infinity (flip r (sign.resolve_right hzero))
  | finite r k hk =>
    cases hx with
    | nan => exact .nan
    | @infinity s t sign =>
      change Opposite (if k = 0 then Binary.nan else .infinity (r != s))
        (if k = 0 then .nan else .infinity (r != t))
      split_ifs
      · exact .nan
      · exact .infinity (flip r sign)
    | finite sign =>
      refine opposite_ofShift (sign.imp (flip r) ?_) _
      rintro rfl
      exact Nat.mul_zero k

theorem mul_right (hx : x.Opposite x') (c : Binary f) : (x * c).Opposite (x' * c) := by
  rw [Binary.mul_comm x, Binary.mul_comm x']
  exact hx.mul_left c

theorem convert (h : x.Opposite y) : (x.convert : Binary g).Opposite y.convert := by
  cases h with
  | nan => exact .nan
  | infinity sign => exact .infinity sign
  | finite sign => exact opposite_ofShift (sign.imp_right (by rintro rfl; simp)) _

end Opposite

theorem opposite_sub_swap (x y : Binary f) : (x - y).Opposite (y - x) := by
  have hswap : y - x = -x + y := Binary.add_comm y (-x)
  rw [hswap]
  exact (opposite_neg x).add (opposite_neg y).symm

end WaveletRaster.Binary
