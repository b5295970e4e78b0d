import Mathlib.Computability.Language

/-!
# Languages

What a product and a repetition consist of, from the front of a word on, and the words that have
pieces of one kind with separators between them.
-/

namespace TaggedSchema.Text

open scoped Computability

variable {α : Type*} {l m : Language α} {word : List α}

/-- The words of one letter that has the property. -/
def letters (p : α → Bool) : Language α :=
  {word | ∃ a, p a = true ∧ word = [a]}

theorem mem_letters {p : α → Bool} : word ∈ letters p ↔ ∃ a, p a = true ∧ word = [a] := .rfl

theorem cons_mem_letters {p : α → Bool} {a : α} :
    a :: word ∈ letters p ↔ p a = true ∧ word = [] := by
  rw [mem_letters]
  constructor
  · rintro ⟨b, hb, hword⟩
    cases hword
    exact ⟨hb, rfl⟩
  · rintro ⟨ha, rfl⟩
    exact ⟨a, ha, rfl⟩

theorem letters_beq [BEq α] [LawfulBEq α] (a : α) : letters (· == a) = {[a]} := by
  ext word
  constructor
  · rintro ⟨b, hb, rfl⟩
    rw [eq_of_beq hb]
    rfl
  · rintro rfl
    exact ⟨a, beq_self_eq_true a, rfl⟩

theorem nil_mem_mul : [] ∈ l * m ↔ [] ∈ l ∧ [] ∈ m := by
  rw [Language.mem_mul]
  constructor
  · rintro ⟨front, hfront, rest, hrest, hnil⟩
    obtain ⟨rfl, rfl⟩ := List.append_eq_nil_iff.mp hnil
    exact ⟨hfront, hrest⟩
  · rintro ⟨hl, hm⟩
    exact ⟨[], hl, [], hm, rfl⟩

theorem cons_mem_mul {a : α} :
    a :: word ∈ l * m ↔ (∃ front, a :: front ∈ l ∧ ∃ rest ∈ m, front ++ rest = word) ∨
      ([] ∈ l ∧ a :: word ∈ m) := by
  rw [Language.mem_mul]
  constructor
  · rintro ⟨front, hfront, rest, hrest, hword⟩
    cases front with
    | nil => exact .inr ⟨hfront, hword ▸ hrest⟩
    | cons b front =>
      cases hword
      exact .inl ⟨front, hfront, rest, hrest, rfl⟩
  · rintro (⟨front, hfront, rest, hrest, rfl⟩ | ⟨hnil, hword⟩)
    · exact ⟨a :: front, hfront, rest, hrest, rfl⟩
    · exact ⟨[], hnil, a :: word, hword, rfl⟩

theorem mem_kstar_iff :
    word ∈ l∗ ↔ word = [] ∨ ∃ front ∈ l, ∃ rest ∈ l∗, front ++ rest = word := by
  rw [← Language.mem_one, ← Language.mem_mul, ← Language.mem_add,
    Language.one_add_self_mul_kstar_eq_kstar]

theorem append_mem_kstar {front rest : List α} (hfront : front ∈ l) (hrest : rest ∈ l∗) :
    front ++ rest ∈ l∗ :=
  mem_kstar_iff.mpr (.inr ⟨front, hfront, rest, hrest, rfl⟩)

/-- A word made of parts of two kinds has none of the second kind, or goes up to the first such
part and then on in any way. -/
theorem kstar_add (l m : Language α) : (l + m)∗ = l∗ + l∗ * m * (l + m)∗ := by
  have hl : l ≤ l + m := le_self_add
  have hm : m ≤ (l + m)∗ := le_add_self.trans le_kstar
  apply le_antisymm
  · refine kstar_le_of_mul_le_left (one_le_kstar.trans le_self_add) ?_
    calc (l∗ + l∗ * m * (l + m)∗) * (l + m)
        = l∗ * l + l∗ * m * 1 + l∗ * m * ((l + m)∗ * (l + m)) := by
          rw [add_mul, mul_add, mul_one, mul_assoc (l∗ * m)]
      _ ≤ l∗ + l∗ * m * (l + m)∗ + l∗ * m * (l + m)∗ := by
          gcongr
          · exact kstar_mul_le_kstar
          · exact one_le_kstar
          · exact kstar_mul_le_kstar
      _ = l∗ + l∗ * m * (l + m)∗ := by rw [add_assoc, add_idem]
  · refine add_le (kstar_mono hl) ?_
    calc l∗ * m * (l + m)∗ ≤ (l + m)∗ * (l + m)∗ * (l + m)∗ := by gcongr
      _ = (l + m)∗ := by rw [kstar_mul_kstar, kstar_mul_kstar]

/-- The first part that is not empty begins with the first letter. -/
theorem cons_mem_kstar {a : α} :
    a :: word ∈ l∗ ↔ ∃ front, a :: front ∈ l ∧ ∃ rest ∈ l∗, front ++ rest = word := by
  constructor
  · intro h
    obtain ⟨parts, hparts, hl⟩ := Language.mem_kstar_iff_exists_nonempty.mp h
    cases parts with
    | nil => cases hparts
    | cons part parts =>
      obtain ⟨⟨hpart, hne⟩, hrest⟩ := List.forall_mem_cons.mp hl
      obtain ⟨b, front, rfl⟩ := List.exists_cons_of_ne_nil hne
      rw [List.flatten_cons, List.cons_append] at hparts
      obtain ⟨rfl, hword⟩ := List.cons.inj hparts
      have hparts : parts.flatten ∈ l∗ := Language.join_mem_kstar fun y hy => (hrest y hy).1
      exact ⟨front, hpart, parts.flatten, hparts, hword.symm⟩
  · rintro ⟨front, hfront, rest, hrest, rfl⟩
    exact append_mem_kstar hfront hrest

theorem mem_kstar_letters {p : α → Bool} : word ∈ (letters p)∗ ↔ ∀ a ∈ word, p a = true := by
  induction word with
  | nil => exact iff_of_true (Language.nil_mem_kstar _) nofun
  | cons a word ih =>
    rw [cons_mem_kstar, List.forall_mem_cons, ← ih]
    constructor
    · rintro ⟨front, hfront, rest, hrest, rfl⟩
      obtain ⟨ha, rfl⟩ := cons_mem_letters.mp hfront
      exact ⟨ha, hrest⟩
    · rintro ⟨ha, hword⟩
      exact ⟨[], cons_mem_letters.mpr ⟨ha, rfl⟩, word, hword, rfl⟩

/-! ## Separators -/

theorem exists_of_mem_intercalate {a b : α} {pieces : List (List α)}
    (h : b ∈ [a].intercalate pieces) (hne : b ≠ a) : ∃ piece ∈ pieces, b ∈ piece := by
  induction pieces with
  | nil => cases h
  | cons piece pieces ih =>
    cases pieces with
    | nil =>
      rw [List.intercalate_singleton] at h
      exact ⟨piece, List.mem_cons_self, h⟩
    | cons next pieces =>
      rw [List.intercalate_cons_cons, List.mem_append, List.mem_append, List.mem_singleton] at h
      rcases h with (h | h) | h
      · exact ⟨piece, List.mem_cons_self, h⟩
      · exact absurd h hne
      · obtain ⟨found, hfound, hb⟩ := ih h
        exact ⟨found, List.mem_cons_of_mem _ hfound, hb⟩

theorem intercalate_mem (a : α) {pieces : List (List α)} (hne : pieces ≠ [])
    (h : ∀ piece ∈ pieces, piece ∈ l) :
    [a].intercalate pieces ∈ l * ({[a]} * l)∗ := by
  induction pieces with
  | nil => exact absurd rfl hne
  | cons piece pieces ih =>
    obtain ⟨hpiece, hpieces⟩ := List.forall_mem_cons.mp h
    cases pieces with
    | nil =>
      rw [List.intercalate_singleton, ← List.append_nil piece]
      exact Language.append_mem_mul hpiece (Language.nil_mem_kstar _)
    | cons next pieces =>
      have hrest := ih (List.cons_ne_nil _ _) hpieces
      rw [List.intercalate_cons_cons, List.append_assoc]
      have hle : {[a]} * (l * ({[a]} * l)∗) ≤ ({[a]} * l)∗ := by
        rw [← mul_assoc]
        exact mul_kstar_le_kstar
      exact Language.append_mem_mul hpiece (hle (Language.append_mem_mul rfl hrest))

/-- A word is made of pieces with separators between them if no piece has a separator in it and all
that stand between separators are such pieces. -/
theorem mem_separated_iff [BEq α] [LawfulBEq α] {a : α} (hl : ∀ piece ∈ l, a ∉ piece) :
    word ∈ l * ({[a]} * l)∗ ↔ ∀ piece ∈ word.splitOn a, piece ∈ l := by
  constructor
  · intro h
    obtain ⟨piece, hpiece, rest, hrest, rfl⟩ := Language.mem_mul.mp h
    obtain ⟨parts, rfl, hparts⟩ := Language.mem_kstar.mp hrest
    clear h hrest
    induction parts generalizing piece with
    | nil =>
      rw [List.flatten_nil, List.append_nil, List.splitOn_eq_singleton (hl piece hpiece)]
      exact List.forall_mem_singleton.mpr hpiece
    | cons part parts ih =>
      obtain ⟨hpart, hlater⟩ := List.forall_mem_cons.mp hparts
      obtain ⟨_, rfl, next, hnext, rfl⟩ := Language.mem_mul.mp hpart
      rw [List.flatten_cons, List.append_assoc, List.singleton_append,
        List.splitOn_append_cons_self_of_not_mem (hl piece hpiece)]
      exact List.forall_mem_cons.mpr ⟨hpiece, ih next hnext hlater⟩
  · intro h
    have hword := intercalate_mem a (List.splitOn_ne_nil a word) h
    rwa [List.intercalate_splitOn] at hword

end TaggedSchema.Text
