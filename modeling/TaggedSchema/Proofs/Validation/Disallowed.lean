import TaggedSchema.Proofs.Decimal.Rounding
import TaggedSchema.Proofs.Results
import TaggedSchema.Rule.Build
import TaggedSchema.Validation.Check
import TaggedSchema.Validation.Fit

/-!
# Integers that may not occur

A tag may name an integer that a value must differ from. Signed integers are compared with it
exactly. Those that only fit an unsigned word are compared as doubles, and a few above the signed
integers have the same nearest double as the last signed integers.
-/

namespace TaggedSchema

open Text

namespace Number

theorem isSigned_int_iff {n : Int} : (int n).isSigned = true ↔ FitsSigned n :=
  decide_eq_true_iff

theorem isUnsigned_int_iff {n : Int} : (int n).isUnsigned = true ↔ FitsUnsigned n :=
  decide_eq_true_iff

/-- Comparing by value is exact but for numbers that have `2 ^ 63` as their nearest double, one of
them signed and the other one not. -/
theorem equalByValue_int_iff {n m : Int} (hn : FitsSigned n ∨ FitsUnsigned n) (hm : FitsSigned m) :
    (int n).equalByValue (int m) = true ↔
      n = m ∨ 2 ^ 63 ≤ n ∧ n ≤ 2 ^ 63 + 1024 ∧ 2 ^ 63 - 512 ≤ m := by
  have hsigned : (int m).isSigned = true := isSigned_int_iff.mpr hm
  obtain ⟨hlow, hhigh⟩ := hm
  rw [equalByValue, hsigned, Bool.and_true]
  split
  next hexact =>
    have hlimit := (isSigned_int_iff.mp hexact).2
    rw [beq_iff_eq]
    omega
  next hrounded =>
    have hnot : ¬FitsSigned n := mt isSigned_int_iff.mpr hrounded
    have hword : FitsUnsigned n := hn.resolve_left hnot
    rw [FitsUnsigned] at hword
    rw [FitsSigned] at hnot
    rw [toDouble?, toDouble?, Double.ofInt?_beq_iff (by omega) (by omega) (by omega) (by omega)]
    omega

end Number

/-- Integers of a word are what fits a place for integers. -/
theorem ScalarKind.fits_ofInt_iff {kind : ScalarKind} {n : Int} (hkind : kind.isInteger = true) :
    kind.fits (.ofInt n) = true ↔ FitsUnsigned n ∨ kind = .int ∧ FitsSigned n := by
  cases kind with
  | int =>
    rw [Value.ofInt, fits, Bool.or_eq_true, Number.isSigned_int_iff, Number.isUnsigned_int_iff,
      or_comm]
    simp
  | uint =>
    rw [Value.ofInt, fits, Number.isUnsigned_int_iff]
    simp
  | _ => cases hkind

namespace Compiler

variable {c : Compiler} {tag : Tag} {target : TypeRef} {resolved : Resolved} {kind : ScalarKind}

theorem differs_of_integer {m : Int} (hresolve : c.resolve target = .ok resolved)
    (hshape : resolved.shape = .scalar kind) (hkind : kind.isInteger = true)
    (hliteral : tag.value? = some (.int m)) :
    c.differs tag target = .ok (.differs (.ofInt m)) := by
  rw [differs, hresolve]
  simp only [bind, Except.bind, hshape, hliteral]
  cases kind with
  | int | uint => rfl
  | _ => cases hkind

/-- The tag is built into a constraint that finds an integer wrong if and only if it is the one that
the tag names, or both have `2 ^ 63` as their nearest double, the one of the tag from below. -/
theorem disallowed_integer_reported {m n : Int} (hresolve : c.resolve target = .ok resolved)
    (hshape : resolved.shape = .scalar kind) (hkind : kind.isInteger = true)
    (hliteral : tag.value? = some (.int m)) (hm : FitsSigned m)
    (hn : kind.fits (.ofInt n) = true) (around : Surroundings) (gates : GateView) (path : Path) :
    ∃ constraint, c.constraint tag target around .neq = .ok constraint ∧
      constraint.breach? gates path (.ofInt n) =
        if n = m ∨ 2 ^ 63 ≤ n ∧ n ≤ 2 ^ 63 + 1024 ∧ 2 ^ 63 - 512 ≤ m then
          some (.invalid path (.ofInt n) s!"must not be equal to {m}" "neq")
        else none := by
  refine ⟨_, differs_of_integer hresolve hshape hkind hliteral, ?_⟩
  have hword : FitsSigned n ∨ FitsUnsigned n :=
    ((ScalarKind.fits_ofInt_iff hkind).mp hn).symm.imp_left And.right
  have hequal : (Value.ofInt n).equalByValue (.ofInt m) = true ↔ _ :=
    Number.equalByValue_int_iff hword hm
  simp only [Constraint.breach?, hequal]
  rfl

/-- The limits: `2 ^ 63` is taken for the last signed integer, and the first integer with another
double is not. -/
theorem disallowed_integer_reported_limit :
    let c : Compiler := ⟨.ofList [], .default⟩
    let tag : Tag := .valued ⟨some "k8s", "neq", .field, [], "+k8s:neq=9223372036854775807"⟩
      (.int 9223372036854775807)
    (∃ constraint, c.constraint tag (.scalar .uint) .none .neq = .ok constraint ∧
        constraint.breach? (fun _ => false) .root (.ofInt 9223372036854775808) =
          some (.invalid .root (.ofInt 9223372036854775808)
            "must not be equal to 9223372036854775807" "neq")) ∧
      ∃ constraint, c.constraint tag (.scalar .uint) .none .neq = .ok constraint ∧
        constraint.breach? (fun _ => false) .root (.ofInt 9223372036854776833) = none := by
  intro c tag
  have hresolve : c.resolve (.scalar .uint) = .ok ⟨.scalar .uint, false, []⟩ := rfl
  have hliteral : tag.value? = some (.int 9223372036854775807) := rfl
  have hreported {n : Int} (hn : ScalarKind.uint.fits (.ofInt n) = true) :=
    disallowed_integer_reported hresolve rfl rfl hliteral (by decide) hn .none (fun _ => false)
      .root
  refine ⟨?_, ?_⟩
  · exact hreported (by decide)
  · exact hreported (by decide)

end Compiler

end TaggedSchema
