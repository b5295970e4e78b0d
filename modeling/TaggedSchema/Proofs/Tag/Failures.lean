import Mathlib.Data.List.Basic
import TaggedSchema.Proofs.Text.Bytes
import TaggedSchema.Tag.Parser

/-!
# Where parsing fails

A fault lies at an end of the input. So the position that is reported lies between two characters,
and the token that is quoted stands there.
-/

namespace TaggedSchema.Tag

open Text

/-- The token is not empty, and the text begins with it. -/
theorem exists_tokenAt {rest : List Char} (hne : rest ≠ []) :
    tokenAt rest ≠ "" ∧ ∃ more, rest = (tokenAt rest).toList ++ more := by
  obtain ⟨c, tail, rfl⟩ := List.exists_cons_of_ne_nil hne
  rw [tokenAt]
  split
  next hc =>
    rw [String.toList_ofList]
    refine ⟨?_, _, List.takeWhile_append_dropWhile.symm⟩
    rw [List.takeWhile_cons_of_pos (by simp [hc])]
    simp
  next => exact ⟨by simp, tail, by simp⟩

/-- The position of an error lies between two characters of the input. The token stands behind it,
unless it is the end of the input. That a string is wanted where no text is left is no error. -/
theorem parse_error_points_at_token (scope : Scope) (input : String) :
    (∀ error, parse scope input = .error error →
      ∃ front rest : String, input = front ++ rest ∧ error.position = front.utf8ByteSize ∧
        error.position ≤ input.utf8ByteSize ∧
        ((error.token ≠ "" ∧ ∃ more, rest = error.token ++ more) ∨
          (error.position = input.utf8ByteSize ∧ error.token = "<end of input>"))) ∧
      ∀ rest, read scope input.toList ≠ .error ⟨.unexpectedToken, rest⟩ := by
  refine ⟨fun error h => ?_, fun _ hread => (read_isFaultIn hread).isFault rfl⟩
  rw [parse] at h
  split at h
  next => cases h
  next fault rest hread =>
    cases h
    obtain ⟨front, hfront⟩ := (read_isFaultIn hread).suffix
    have hinput : input = String.ofList front ++ String.ofList rest := by
      rw [← String.ofList_append, hfront, String.ofList_toList]
    have hposition : offsetOf input.toList rest = (String.ofList front).utf8ByteSize := by
      rw [← hfront, offsetOf_append, utf8ByteSize_ofList]
    refine ⟨String.ofList front, String.ofList rest, hinput, hposition, ?bound, ?token⟩
    case bound =>
      rw [hposition, hinput, String.utf8ByteSize_append]
      exact Nat.le_add_right _ _
    case token =>
      by_cases hne : rest = []
      · subst hne
        rw [String.ofList_nil, String.append_empty] at hinput
        exact .inr ⟨by rw [hposition, hinput], rfl⟩
      · obtain ⟨htoken, more, hmore⟩ := exists_tokenAt hne
        refine .inl ⟨htoken, String.ofList more, ?_⟩
        rw [← String.toList_inj, String.toList_append, String.toList_ofList, String.toList_ofList]
        exact hmore
  next hread => exact absurd rfl (read_isFaultIn hread).isFault

example : parse .field "\u3000+item(a: \"é\"" = .error ⟨.unclosedParenthesis, 8, "("⟩ := by
  decide +kernel

end TaggedSchema.Tag
