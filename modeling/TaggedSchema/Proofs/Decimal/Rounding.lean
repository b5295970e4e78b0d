import Mathlib.Algebra.Group.Int.Defs
import Mathlib.Algebra.Group.Nat.Defs
import TaggedSchema.Decimal.Double

/-!
# Integers rounded to doubles

The nearest double of an integer has the exponent of the integer, and its significand is the integer
rounded to 53 bits. An integer of 64 bits may lose its last bits, so that integers on both sides of
a power of two can have the power as their nearest double.
-/

namespace TaggedSchema.Double

/-! ## Rounding to even -/

/-- Rounding stays below an even bound as far as halfway beyond it. -/
theorem roundHalfEven_le_iff {num den bound : Nat} (hden : 0 < den) (heven : bound % 2 = 0) :
    roundHalfEven num den ≤ bound ↔ 2 * num ≤ 2 * (den * bound) + den := by
  have hsplit := Nat.div_add_mod num den
  have hrest := Nat.mod_lt num hden
  simp only [roundHalfEven]
  -- Only where the quotient is the bound does the remainder decide, with a tie going to the bound.
  rcases Nat.lt_trichotomy (num / den) bound with hlt | heq | hgt
  · have hmul : den * (num / den + 1) ≤ den * bound := Nat.mul_le_mul_left _ hlt
    rw [Nat.mul_add_one] at hmul
    grind
  · rw [← heq] at heven ⊢
    grind
  · have hmul : den * (bound + 1) ≤ den * (num / den) := Nat.mul_le_mul_left _ hgt
    rw [Nat.mul_add_one] at hmul
    grind

/-- Rounding reaches an even bound from halfway in front of it on. -/
theorem le_roundHalfEven_iff {num den bound : Nat} (hden : 0 < den) (heven : bound % 2 = 0) :
    bound ≤ roundHalfEven num den ↔ 2 * (den * bound) ≤ 2 * num + den := by
  have hsplit := Nat.div_add_mod num den
  have hrest := Nat.mod_lt num hden
  simp only [roundHalfEven]
  -- Here the remainder decides where the quotient is one below the bound, and is odd then.
  rcases Nat.lt_trichotomy (num / den + 1) bound with hlt | heq | hgt
  · have hmul : den * (num / den + 2) ≤ den * bound := Nat.mul_le_mul_left _ hlt
    rw [Nat.mul_add] at hmul
    grind
  · rw [← heq, Nat.mul_add_one]
    rw [← heq] at heven
    grind
  · have hmul : den * bound ≤ den * (num / den) := Nat.mul_le_mul_left _ (Nat.le_of_lt_succ hgt)
    grind

/-! ## Magnitudes of integers -/

/-- The significand is the number, shifted to 53 bits and rounded. If it is rounded up to 54 bits,
the sum carries into the exponent. -/
theorem nearestMagnitude_one {n : Nat} (hn : n ≠ 0) :
    nearestMagnitude n 1 = (n.log2 + 1022) * 2 ^ 52 +
      roundHalfEven (n * 2 ^ (53 - n.log2)) (2 * 2 ^ (n.log2 - 53)) := by
  have hguess : max ((n.log2 : Int) - Nat.log2 1 - 53) (-1074) = (n.log2 : Int) - 53 := by
    have hone : (Nat.log2 1 : Int) = 0 := rfl
    omega
  have hup : (-((n.log2 : Int) - 53)).toNat = 53 - n.log2 := by omega
  have hdown : ((n.log2 : Int) - 53).toNat = n.log2 - 53 := by omega
  have hexponent : ((n.log2 : Int) - 53 + 1075).toNat = n.log2 + 1022 := by omega
  have hwide : ¬n * 2 ^ (53 - n.log2) / 2 ^ (n.log2 - 53) < 2 ^ 53 := by
    rw [Nat.not_lt, Nat.le_div_iff_mul_le (Nat.two_pow_pos _)]
    calc 2 ^ 53 * 2 ^ (n.log2 - 53)
        = 2 ^ n.log2 * 2 ^ (53 - n.log2) := by
          rw [← Nat.pow_add, ← Nat.pow_add]
          congr 1
          omega
      _ ≤ n * 2 ^ (53 - n.log2) := Nat.mul_le_mul_right _ (Nat.log2_self_le hn)
  simp only [nearestMagnitude, hguess, hup, hdown, hexponent, Nat.pow_eq, Nat.one_mul]
  rw [if_neg hn, if_neg hwide]

/-- A number below a power of two has no larger double than the power. -/
theorem nearestMagnitude_one_le {n bits : Nat} (hn : n < 2 ^ bits) :
    nearestMagnitude n 1 ≤ (bits + 1023) * 2 ^ 52 := by
  rcases Nat.eq_zero_or_pos n with rfl | hpos
  · exact Nat.zero_le _
  have hzero : n ≠ 0 := Nat.ne_of_gt hpos
  have hlog : n.log2 < bits := (Nat.log2_lt hzero).mpr hn
  have hround : roundHalfEven (n * 2 ^ (53 - n.log2)) (2 * 2 ^ (n.log2 - 53)) ≤ 2 ^ 53 := by
    have hscaled : n * 2 ^ (53 - n.log2) ≤ 2 * 2 ^ (n.log2 - 53) * 2 ^ 53 :=
      calc n * 2 ^ (53 - n.log2)
          ≤ 2 ^ (n.log2 + 1) * 2 ^ (53 - n.log2) :=
            Nat.mul_le_mul_right _ (Nat.le_of_lt Nat.lt_log2_self)
        _ = 2 * 2 ^ (n.log2 - 53) * 2 ^ 53 := by
            rw [← Nat.pow_succ', ← Nat.pow_add, ← Nat.pow_add]
            congr 1
            omega
    rw [roundHalfEven_le_iff (Nat.mul_pos Nat.two_pos (Nat.two_pow_pos _)) (by decide)]
    omega
  rw [nearestMagnitude_one hzero]
  omega

/-- The numbers from `2 ^ 63` on that have it as their nearest double. -/
theorem nearestMagnitude_of_le {n : Nat} (hlow : 2 ^ 63 ≤ n) (hhigh : n < 2 ^ 64) :
    1086 * 2 ^ 52 ≤ nearestMagnitude n 1 ∧
      (nearestMagnitude n 1 ≤ 1086 * 2 ^ 52 ↔ n ≤ 2 ^ 63 + 1024) := by
  have hzero : n ≠ 0 := by omega
  have hlog : n.log2 = 63 := (Nat.log2_eq_iff hzero).mpr ⟨hlow, hhigh⟩
  have hbelow : roundHalfEven n 2048 ≤ 2 ^ 52 ↔ _ := roundHalfEven_le_iff (by decide) (by decide)
  have habove : 2 ^ 52 ≤ roundHalfEven n 2048 ↔ _ := le_roundHalfEven_iff (by decide) (by decide)
  rw [nearestMagnitude_one hzero, hlog, show 53 - 63 = 0 from rfl, Nat.pow_zero, Nat.mul_one]
  change _ ≤ _ + roundHalfEven n 2048 ∧ (_ + roundHalfEven n 2048 ≤ _ ↔ _)
  omega

/-- The numbers below `2 ^ 63` that have it as their nearest double. -/
theorem nearestMagnitude_of_lt {n : Nat} (hhigh : n < 2 ^ 63) :
    nearestMagnitude n 1 ≤ 1086 * 2 ^ 52 ∧
      (1086 * 2 ^ 52 ≤ nearestMagnitude n 1 ↔ 2 ^ 63 ≤ n + 512) := by
  refine ⟨nearestMagnitude_one_le hhigh, ?_⟩
  rcases Nat.lt_or_ge n (2 ^ 62) with hlt | hlow
  · have hmagnitude := nearestMagnitude_one_le hlt
    omega
  · have hzero : n ≠ 0 := by omega
    have hlog : n.log2 = 62 := (Nat.log2_eq_iff hzero).mpr ⟨hlow, hhigh⟩
    have habove : 2 ^ 53 ≤ roundHalfEven n 1024 ↔ _ :=
      le_roundHalfEven_iff (by decide) (by decide)
    rw [nearestMagnitude_one hzero, hlog, show 53 - 62 = 0 from rfl, Nat.pow_zero, Nat.mul_one]
    change _ ≤ _ + roundHalfEven n 1024 ↔ _
    omega

/-! ## Integers of 64 bits -/

/-- An integer of 64 bits has a nearest double, which is on its own side of zero. -/
theorem exists_ofInt? {n : Int} (hn : n.natAbs < 2 ^ 64) :
    ∃ d, ofInt? n = some d ∧
      d.rank = if n < 0 then -(nearestMagnitude n.natAbs 1 : Int)
        else nearestMagnitude n.natAbs 1 := by
  have hfinite : nearestMagnitude n.natAbs 1 < 0x7ff0000000000000 :=
    Nat.lt_of_le_of_lt (nearestMagnitude_one_le hn) (by decide)
  refine ⟨⟨decide (n < 0), _, hfinite⟩, ?_, ?_⟩
  · rw [ofInt?, ofRatio?]
    exact dif_pos hfinite
  · rw [rank]
    simp only [decide_eq_true_eq]

/-- An unsigned number beyond the signed ones has the nearest double of a signed number only if both
have `2 ^ 63`. -/
theorem ofInt?_beq_iff {n m : Int} (hlow : 2 ^ 63 ≤ n) (hhigh : n < 2 ^ 64) (hm : -2 ^ 63 ≤ m)
    (hm' : m < 2 ^ 63) :
    (ofInt? n == ofInt? m) = true ↔ n ≤ 2 ^ 63 + 1024 ∧ 2 ^ 63 - 512 ≤ m := by
  obtain ⟨d, hd, hrank⟩ := exists_ofInt? (n := n) (by omega)
  obtain ⟨d', hd', hrank'⟩ := exists_ofInt? (n := m) (by omega)
  have hn := nearestMagnitude_of_le (n := n.natAbs) (by omega) (by omega)
  rw [hd, hd']
  change (d.rank == d'.rank) = true ↔ _
  rw [beq_iff_eq, hrank, hrank', if_neg (by omega)]
  split
  next => omega
  next =>
    have hm := nearestMagnitude_of_lt (n := m.natAbs) (by omega)
    omega

end TaggedSchema.Double
