import TaggedSchema.Proofs.Text.Numeral
import TaggedSchema.Proofs.Validation.Descent
import TaggedSchema.Proofs.Validation.Disallowed

/-!
# Integers as keys

The keys of a map are texts, and a key of an integer domain is read as the integer that it spells.
Keys of unsigned integers spell what values of this domain can be. Those of signed integers spell
signed words only, while a value may also be an integer beyond them.
-/

namespace TaggedSchema

open Text

namespace Plan

variable {access : Access} {kind : ScalarKind} {n : Int}

theorem keyValue_int (text : String) :
    (scalar access .int).keyValue text =
      ((signed? text.toList).map Value.ofInt).getD (.string text) :=
  rfl

theorem keyValue_uint (text : String) :
    (scalar access .uint).keyValue text =
      ((unsigned? text.toList).map Value.ofInt).getD (.string text) :=
  rfl

/-- A key is an integer only by spelling one of its domain. -/
theorem signed?_of_keyValue {text : String} (h : (scalar access .int).keyValue text = .ofInt n) :
    signed? text.toList = some n := by
  rw [keyValue_int] at h
  cases hread : signed? text.toList with
  | none =>
    rw [hread] at h
    cases h
  | some m =>
    rw [hread] at h
    cases h
    rfl

theorem keyValue_toString_of_fits (hkind : kind.isInteger = true)
    (hfits : kind.fits (.ofInt n) = true) (hkey : kind = .uint ∨ n < 2 ^ 63) :
    (scalar access kind).keyValue (toString n) = .ofInt n := by
  have hword := (ScalarKind.fits_ofInt_iff hkind).mp hfits
  simp only [FitsUnsigned, FitsSigned] at hword
  cases kind with
  | int =>
    have hlimit : n < 2 ^ 63 := hkey.resolve_left (by decide)
    have hsigned : FitsSigned n := by
      rw [FitsSigned]
      omega
    rw [keyValue_int, signed?_toString hsigned]
    rfl
  | uint =>
    have hunsigned : FitsUnsigned n := hword.resolve_right (by rintro ⟨⟨⟩, -⟩)
    rw [keyValue_uint, unsigned?_toString hunsigned]
    rfl
  | _ => cases hkind

theorem keyValue_toString_of_le (h : 2 ^ 63 ≤ n) :
    (scalar access .int).keyValue (toString n) = .string (toString n) := by
  have hnot : ¬FitsSigned n := by
    rw [FitsSigned]
    omega
  rw [keyValue_int, signed?_toString_eq_none hnot]
  rfl

/-- An integer that a value of the domain may be is also what its decimal spelling stands for as a
key, which is walked as the integer then. The exceptions are the integers from `2 ^ 63` on at keys
of signed integers: no key stands for them, and their spellings are texts, which do not fit. -/
theorem integer_spelled_as_key (access : Access) (hkind : kind.isInteger = true)
    (hfits : kind.fits (.ofInt n) = true) :
    let key := scalar access kind
    ((∃ text, key.keyValue text = .ofInt n) ↔ kind = .uint ∨ n < 2 ^ 63) ∧
      (kind = .uint ∨ n < 2 ^ 63 →
        key.keyValue (toString n) = .ofInt n ∧ key.fits (key.keyValue (toString n)) = true ∧
          ∀ (c : Context) (site : Site) (rules : List Rule),
            (site.old.bind fun old => old.member? (toString n)) = none → rules ≠ [] →
              c.keyViolations site key rules (toString n) =
                c.walk (.ofInt n) (site.mapKey key rules (toString n))) ∧
      (¬(kind = .uint ∨ n < 2 ^ 63) →
        key.keyValue (toString n) = .string (toString n) ∧
          key.fits (key.keyValue (toString n)) = false) := by
  intro key
  have hspelled (hkey : kind = .uint ∨ n < 2 ^ 63) : key.keyValue (toString n) = .ofInt n :=
    keyValue_toString_of_fits hkind hfits hkey
  refine ⟨⟨?_, fun hkey => ⟨_, hspelled hkey⟩⟩, fun hkey => ?_, fun hnot => ?_⟩
  · rintro ⟨text, htext⟩
    cases kind with
    | int => exact .inr (fitsSigned_of_signed? (signed?_of_keyValue htext)).2
    | uint => exact .inl rfl
    | _ => cases hkind
  · refine ⟨hspelled hkey, (hspelled hkey).symm ▸ hfits, fun c site rules hnew hrules => ?_⟩
    have hempty : rules.isEmpty = false := List.isEmpty_eq_false_iff.mpr hrules
    rw [Context.keyViolations, hnew, hempty, hspelled hkey]
    rfl
  · obtain ⟨hkind', hlimit⟩ := not_or.mp hnot
    cases kind with
    | int =>
      have htext : key.keyValue (toString n) = .string (toString n) :=
        keyValue_toString_of_le (Int.not_lt.mp hlimit)
      exact ⟨htext, htext.symm ▸ rfl⟩
    | uint => exact absurd rfl hkind'
    | _ => cases hkind

/-- The last signed integer is spelled by a key of signed integers, and the next integer only by one
of unsigned integers. -/
theorem integer_spelled_as_key_limit :
    let signed := scalar ⟨false, []⟩ .int
    let unsigned := scalar ⟨false, []⟩ .uint
    signed.fits (.ofInt 9223372036854775808) = true ∧
      signed.keyValue "9223372036854775807" = .ofInt 9223372036854775807 ∧
      signed.keyValue "9223372036854775808" = .string "9223372036854775808" ∧
      unsigned.keyValue "9223372036854775808" = .ofInt 9223372036854775808 := by
  intro signed unsigned
  have htext : toString (9223372036854775808 : Int) = "9223372036854775808" := by decide +kernel
  have hlast : toString (9223372036854775807 : Int) = "9223372036854775807" := by decide +kernel
  refine ⟨rfl, ?_, ?_, ?_⟩
  · exact hlast ▸ ((integer_spelled_as_key _ rfl rfl).2.1 (.inr (by decide))).1
  · exact htext ▸ ((integer_spelled_as_key _ rfl rfl).2.2 (by decide)).1
  · exact htext ▸ ((integer_spelled_as_key _ rfl rfl).2.1 (.inl rfl)).1

end Plan

end TaggedSchema
