import TaggedSchema.Text.Numeral

/-!
# Numerals that were printed

A number that fits a word is read back from its printed digits, and one that does not fit is not
read.
-/

namespace TaggedSchema.Text

theorem natural?_toDigits (n : Nat) : natural? (Nat.toDigits 10 n) = some n := by
  have hempty : (Nat.toDigits 10 n).isEmpty = false :=
    List.isEmpty_eq_false_iff.mpr Nat.toDigits_ne_nil
  have hdigits : (Nat.toDigits 10 n).all isAsciiDigit = true := by
    refine List.all_eq_true.mpr fun c hc => ?_
    have hdigit := Nat.isDigit_of_mem_toDigits (by decide) (by decide) hc
    simpa [isAsciiDigit, Char.isDigit, Char.le_def] using hdigit
  have hvalue : digitsValue (Nat.toDigits 10 n) = n :=
    Nat.ofDigitChars_toDigits (by decide) (by decide)
  simp [natural?, hempty, hdigits, hvalue]

theorem signed?_negative (digits : List Char) :
    signed? ('-' :: digits) = natural? digits >>= fun n =>
      if FitsSigned (-(n : Int)) then some (-(n : Int)) else none := rfl

theorem signed?_digits {digits : List Char} (hminus : ∀ tail, digits ≠ '-' :: tail)
    (hplus : ∀ tail, digits ≠ '+' :: tail) :
    signed? digits = natural? digits >>= fun n =>
      if FitsSigned (n : Int) then some (n : Int) else none := by
  rw [signed?.eq_def]
  split
  next tail => exact absurd rfl (hminus tail)
  next tail => exact absurd rfl (hplus tail)
  next => rfl

theorem fitsSigned_of_signed? {text : List Char} {n : Int} (h : signed? text = some n) :
    FitsSigned n := by
  have hfits {digits : List Char} {value : Nat → Int}
      (h : (natural? digits >>= fun n =>
        if FitsSigned (value n) then some (value n) else none) = some n) : FitsSigned n := by
    obtain ⟨k, -, hk⟩ := Option.bind_eq_some_iff.mp h
    split at hk
    next hfits =>
      cases hk
      exact hfits
    next => cases hk
  rw [signed?.eq_def] at h
  split at h <;> exact hfits h

/-- A printed number is its digits, behind a minus sign if it is negative. -/
theorem toList_toString (n : Int) :
    (∃ k : Nat, n = k ∧ (toString n).toList = Nat.toDigits 10 k) ∨
      ∃ k : Nat, n = -(k : Int) ∧ (toString n).toList = '-' :: Nat.toDigits 10 k := by
  cases n with
  | ofNat k => exact .inl ⟨k, rfl, Nat.toList_repr⟩
  | negSucc k =>
    refine .inr ⟨k + 1, rfl, ?_⟩
    change ("-" ++ (k + 1).repr).toList = _
    rw [String.toList_append, Nat.toList_repr]
    rfl

theorem toDigits_ne_cons (k : Nat) {c : Char} (hc : c.isDigit = false) (tail : List Char) :
    Nat.toDigits 10 k ≠ c :: tail := by
  intro hcons
  have hdigit : c.isDigit = true :=
    Nat.isDigit_of_mem_toDigits (by decide) (by decide) (hcons ▸ List.mem_cons_self)
  rw [hc] at hdigit
  cases hdigit

theorem signed?_toString {n : Int} (h : FitsSigned n) : signed? (toString n).toList = some n := by
  rcases toList_toString n with ⟨k, rfl, htext⟩ | ⟨k, rfl, htext⟩
  · rw [htext, signed?_digits (toDigits_ne_cons k rfl) (toDigits_ne_cons k rfl),
      natural?_toDigits, Option.bind_eq_bind, Option.bind_some, if_pos h]
  · rw [htext, signed?_negative, natural?_toDigits, Option.bind_eq_bind, Option.bind_some, if_pos h]

/-- A printed number that does not fit is not read. -/
theorem signed?_toString_eq_none {n : Int} (h : ¬FitsSigned n) :
    signed? (toString n).toList = none := by
  rcases toList_toString n with ⟨k, rfl, htext⟩ | ⟨k, rfl, htext⟩
  · rw [htext, signed?_digits (toDigits_ne_cons k rfl) (toDigits_ne_cons k rfl),
      natural?_toDigits, Option.bind_eq_bind, Option.bind_some, if_neg h]
  · rw [htext, signed?_negative, natural?_toDigits, Option.bind_eq_bind, Option.bind_some, if_neg h]

theorem unsigned?_digits {digits : List Char} (hplus : ∀ tail, digits ≠ '+' :: tail) :
    unsigned? digits = natural? digits >>= fun n =>
      if FitsUnsigned (n : Int) then some (n : Int) else none := by
  rw [unsigned?.eq_def]
  split
  next tail => exact absurd rfl (hplus tail)
  next => rfl

theorem unsigned?_toString {n : Int} (h : FitsUnsigned n) :
    unsigned? (toString n).toList = some n := by
  obtain ⟨k, rfl⟩ := Int.eq_ofNat_of_zero_le h.1
  change unsigned? (Nat.repr k).toList = _
  rw [Nat.toList_repr, unsigned?_digits (toDigits_ne_cons k rfl), natural?_toDigits,
    Option.bind_eq_bind, Option.bind_some, if_pos h]

/-- Every digit of a number in some base is the digit of a number below the base. -/
theorem exists_digitChar_of_mem_toDigits {b n : Nat} (hb : 1 < b) {c : Char}
    (hc : c ∈ Nat.toDigits b n) : ∃ d < b, c = Nat.digitChar d := by
  induction n using Nat.strongRecOn with
  | ind n ih =>
    rcases Nat.lt_or_ge n b with hlt | hle
    · rw [Nat.toDigits_of_lt_base hlt, List.mem_singleton] at hc
      exact ⟨n, hlt, hc⟩
    · have hpos : 0 < b := Nat.lt_of_succ_lt hb
      rw [Nat.toDigits_of_base_le hb hle, List.mem_append, List.mem_singleton] at hc
      rcases hc with hc | hc
      · exact ih (n / b) (Nat.div_lt_self (Nat.lt_of_lt_of_le hpos hle) hb) hc
      · exact ⟨n % b, Nat.mod_lt n hpos, hc⟩

end TaggedSchema.Text
