import TaggedSchema.Format.Regular
import TaggedSchema.Proofs.Text.Language

/-!
# What regular expressions stand for

An expression accepts the words of its language, since its derivative by a character stands for what
follows that character in them.
-/

namespace TaggedSchema.Regular

open Text
open scoped Computability

variable {c : Char} {text : List Char}

/-- The texts that an expression stands for. -/
def language : Regular → Language Char
  | nothing => 0
  | empty => 1
  | oneOf isMember => letters isMember
  | seq first second => first.language * second.language
  | alt left right => left.language + right.language
  | star body => body.language∗

theorem language_join (first second : Regular) :
    (join first second).language = first.language * second.language := by
  cases first with
  | nothing => exact (zero_mul _).symm
  | empty => exact (one_mul _).symm
  | oneOf | seq | alt | star => rfl

theorem language_either (left right : Regular) :
    (either left right).language = left.language + right.language := by
  rw [either.eq_def]
  split
  next => exact (zero_add _).symm
  next => exact (add_zero _).symm
  next => rfl

theorem nullable_iff (expression : Regular) :
    expression.nullable = true ↔ [] ∈ expression.language := by
  induction expression with
  | nothing => exact iff_of_false Bool.false_ne_true (Language.notMem_zero [])
  | empty => exact iff_of_true rfl Language.nil_mem_one
  | oneOf isMember => exact iff_of_false Bool.false_ne_true nofun
  | seq first second ihfirst ihsecond =>
    rw [nullable, Bool.and_eq_true, ihfirst, ihsecond, language, nil_mem_mul]
  | alt left right ihleft ihright =>
    rw [nullable, Bool.or_eq_true, ihleft, ihright, language, Language.mem_add]
  | star body => exact iff_of_true rfl (Language.nil_mem_kstar _)

theorem mem_language_join_derivative {first second : Regular}
    (h : ∀ {text}, text ∈ (first.derivative c).language ↔ c :: text ∈ first.language) :
    text ∈ (join (first.derivative c) second).language ↔
      ∃ front, c :: front ∈ first.language ∧ ∃ rest ∈ second.language, front ++ rest = text := by
  simp only [language_join, Language.mem_mul, h]

theorem mem_language_derivative (expression : Regular) :
    text ∈ (expression.derivative c).language ↔ c :: text ∈ expression.language := by
  induction expression generalizing text with
  | nothing => exact iff_of_false (Language.notMem_zero _) (Language.notMem_zero _)
  | empty => exact iff_of_false (Language.notMem_zero _) (List.cons_ne_nil _ _)
  | oneOf isMember =>
    rw [derivative, language, cons_mem_letters]
    split
    next hc => exact (and_iff_right hc).symm
    next hc => exact iff_of_false (Language.notMem_zero _) fun h => hc h.1
  | seq first second ihfirst ihsecond =>
    rw [derivative, language_either, Language.mem_add, mem_language_join_derivative ihfirst,
      language, cons_mem_mul, ← nullable_iff]
    refine or_congr_right ?_
    split
    next hnullable => exact ihsecond.trans (and_iff_right hnullable).symm
    next hnullable => exact iff_of_false (Language.notMem_zero _) fun h => hnullable h.1
  | alt left right ihleft ihright =>
    rw [derivative, language_either, Language.mem_add, ihleft, ihright, language, Language.mem_add]
  | star body ih => rw [derivative, mem_language_join_derivative ih, language, cons_mem_kstar]

/-- The induction is on the text, the derivatives of the expression come along. -/
theorem accepts_iff_mem_language (expression : Regular) :
    expression.accepts text = true ↔ text ∈ expression.language := by
  induction text generalizing expression with
  | nil => exact nullable_iff expression
  | cons c text ih => rw [accepts, ih, mem_language_derivative]

end TaggedSchema.Regular
