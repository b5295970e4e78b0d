import Mathlib.Data.List.TakeWhile
import TaggedSchema.Text.Blank

/-!
# Runs of characters

A text splits in one way into a run of characters of a class and a rest that begins with none of
them.
-/

namespace TaggedSchema.Text

variable {p : Char → Bool} {front rest : List Char}

/-- The text does not begin with a character of the class. -/
def Stops (p : Char → Bool) (text : List Char) : Prop :=
  ∀ c ∈ text.head?, p c = false

@[simp]
theorem stops_cons {c : Char} : Stops p (c :: rest) ↔ p c = false := by
  simp [Stops]

theorem stops_dropWhile (p : Char → Bool) (text : List Char) : Stops p (text.dropWhile p) := by
  have hhead := List.head?_dropWhile_not p text
  intro c hc
  rw [Option.mem_def.mp hc] at hhead
  exact hhead

theorem Stops.takeWhile_eq_nil (h : Stops p rest) : rest.takeWhile p = [] := by
  cases rest with
  | nil => rfl
  | cons c rest => rw [List.takeWhile_cons_of_neg (Bool.eq_false_iff.mp (stops_cons.mp h))]

theorem Stops.dropWhile_eq_self (h : Stops p rest) : rest.dropWhile p = rest := by
  cases rest with
  | nil => rfl
  | cons c rest => rw [List.dropWhile_cons_of_neg (Bool.eq_false_iff.mp (stops_cons.mp h))]

theorem takeWhile_run (hfront : ∀ c ∈ front, p c = true) (hrest : Stops p rest) :
    (front ++ rest).takeWhile p = front := by
  rw [List.takeWhile_append_of_pos hfront, hrest.takeWhile_eq_nil, List.append_nil]

theorem dropWhile_run (hfront : ∀ c ∈ front, p c = true) (hrest : Stops p rest) :
    (front ++ rest).dropWhile p = rest := by
  rw [List.dropWhile_append_of_pos hfront, hrest.dropWhile_eq_self]

theorem run_unique {front' rest' : List Char} (hfront : ∀ c ∈ front, p c = true)
    (hrest : Stops p rest) (hfront' : ∀ c ∈ front', p c = true) (hrest' : Stops p rest')
    (h : front ++ rest = front' ++ rest') : front = front' ∧ rest = rest' := by
  constructor
  · rw [← takeWhile_run hfront hrest, h, takeWhile_run hfront' hrest']
  · rw [← dropWhile_run hfront hrest, h, dropWhile_run hfront' hrest']

theorem bne_of_not_mem {c : Char} {text : List Char} (h : c ∉ text) : ∀ d ∈ text, (d != c) = true :=
  fun _ hd => bne_iff_ne.mpr fun hsame => h (hsame ▸ hd)

/-- A text splits in one way at the first of its characters that is `c`. -/
theorem split_unique {c : Char} {front' rest' : List Char} (hfront : c ∉ front)
    (hfront' : c ∉ front') (h : front ++ c :: rest = front' ++ c :: rest') :
    front = front' ∧ rest = rest' := by
  have hstops (text : List Char) : Stops (· != c) (c :: text) :=
    stops_cons.mpr (bne_self_eq_false c)
  obtain ⟨hsame, hrest⟩ := run_unique (bne_of_not_mem hfront) (hstops rest)
    (bne_of_not_mem hfront') (hstops rest') h
  exact ⟨hsame, (List.cons.inj hrest).2⟩

theorem split_of_dropWhile {c d : Char} {text : List Char}
    (h : text.dropWhile (· != c) = d :: rest) :
    c ∉ text.takeWhile (· != c) ∧ text = text.takeWhile (· != c) ++ c :: rest := by
  have hstops := stops_dropWhile (· != c) text
  rw [h, stops_cons] at hstops
  obtain rfl : d = c := bne_eq_false_iff_eq.mp hstops
  refine ⟨fun hmem => ?_, ?_⟩
  · have hother := List.mem_takeWhile_imp (p := (· != d)) hmem
    exact bne_iff_ne.mp hother rfl
  · rw [← h, List.takeWhile_append_dropWhile]

/-! ## White space -/

def AllBlank (text : List Char) : Prop :=
  ∀ c ∈ text, isBlank c = true

theorem allBlank_nil : AllBlank [] := nofun

theorem AllBlank.append {gap gap' : List Char} (h : AllBlank gap) (h' : AllBlank gap') :
    AllBlank (gap ++ gap') :=
  List.forall_mem_append.mpr ⟨h, h'⟩

theorem stops_trimStart (text : List Char) : Stops isBlank (trimStart text) :=
  stops_dropWhile isBlank text

theorem trimStart_append {gap : List Char} (hgap : AllBlank gap) (hrest : Stops isBlank rest) :
    trimStart (gap ++ rest) = rest :=
  dropWhile_run hgap hrest

theorem trimStart_of_stops (h : Stops isBlank rest) : trimStart rest = rest :=
  h.dropWhile_eq_self

theorem trimStart_append_trimStart {gap : List Char} (hgap : AllBlank gap) (text : List Char) :
    trimStart (gap ++ text) = trimStart text :=
  List.dropWhile_append_of_pos hgap

theorem trimStart_of_allBlank {gap : List Char} (hgap : AllBlank gap) : trimStart gap = [] :=
  List.dropWhile_eq_nil_iff.mpr hgap

theorem allBlank_of_trimStart {text : List Char} (h : trimStart text = []) : AllBlank text :=
  List.dropWhile_eq_nil_iff.mp h

theorem exists_blanks (text : List Char) : ∃ gap, AllBlank gap ∧ gap ++ trimStart text = text :=
  ⟨text.takeWhile isBlank, fun _ hc => List.mem_takeWhile_imp hc,
    List.takeWhile_append_dropWhile⟩

/-- What begins with a character that is not blank is left when blanks are taken off the front. -/
theorem exists_blanks_of_trimStart {text : List Char} (h : trimStart text = rest) :
    ∃ gap, AllBlank gap ∧ text = gap ++ rest := by
  obtain ⟨gap, hgap, htext⟩ := exists_blanks text
  exact ⟨gap, hgap, by rw [← h, htext]⟩

theorem trimStart_append_cons {c : Char} (h : isBlank c = false) (front rest : List Char) :
    trimStart (front ++ c :: rest) = trimStart front ++ c :: rest := by
  induction front with
  | nil => exact trimStart_of_stops (stops_cons.mpr h)
  | cons d front ih =>
    rw [trimStart, trimStart, List.cons_append, List.dropWhile_cons, List.dropWhile_cons]
    split
    next => exact ih
    next => rfl

/-- The text ends with a character that is not blank. -/
def EndsSolid (text : List Char) : Prop :=
  text ≠ [] ∧ Stops isBlank text.reverse

theorem EndsSolid.trimEnd_eq {text : List Char} (h : EndsSolid text) : trimEnd text = text := by
  rw [trimEnd, h.2.dropWhile_eq_self, List.reverse_reverse]

theorem EndsSolid.append {text : List Char} (h : EndsSolid text) (front : List Char) :
    EndsSolid (front ++ text) := by
  refine ⟨List.append_ne_nil_of_right_ne_nil front h.1, ?_⟩
  obtain ⟨c, tail, htext⟩ := List.exists_cons_of_ne_nil (mt List.reverse_eq_nil_iff.mp h.1)
  have hstops := h.2
  rw [htext] at hstops
  rw [List.reverse_append, htext]
  exact stops_cons.mpr (stops_cons.mp hstops)

theorem endsSolid_of_forall {text : List Char} (hne : text ≠ [])
    (h : ∀ c ∈ text, isBlank c = false) : EndsSolid text :=
  ⟨hne, fun c hc => h c (List.mem_reverse.mp (List.mem_of_mem_head? hc))⟩

theorem endsSolid_singleton {c : Char} (h : isBlank c = false) : EndsSolid [c] :=
  ⟨List.cons_ne_nil _ _, stops_cons.mpr h⟩

/-- What begins with a character that is not blank keeps it when blanks are taken off the end. -/
theorem trimEnd_cons {c : Char} (h : isBlank c = false) (rest : List Char) :
    trimEnd (c :: rest) = c :: trimEnd rest := by
  have hc : [c].dropWhile isBlank = [c] := (stops_cons.mpr h).dropWhile_eq_self
  have hdrop : (rest.reverse ++ [c]).dropWhile isBlank = rest.reverse.dropWhile isBlank ++ [c] := by
    rw [List.dropWhile_append, hc]
    split
    next hnil => rw [List.isEmpty_iff.mp hnil, List.nil_append]
    next => rfl
  rw [trimEnd, List.reverse_cons, hdrop, List.reverse_append]
  rfl

theorem stops_reverse_trimEnd (text : List Char) : Stops isBlank (trimEnd text).reverse := by
  rw [trimEnd, List.reverse_reverse]
  exact stops_dropWhile _ _

theorem endsSolid_trimEnd {c : Char} (h : isBlank c = false) (rest : List Char) :
    EndsSolid (trimEnd (c :: rest)) := by
  refine ⟨?_, stops_reverse_trimEnd _⟩
  rw [trimEnd_cons h]
  exact List.cons_ne_nil _ _

theorem trimEnd_of_allBlank {gap : List Char} (hgap : AllBlank gap) : trimEnd gap = [] := by
  have hreverse : AllBlank gap.reverse := fun c hc => hgap c (List.mem_reverse.mp hc)
  exact congrArg List.reverse (trimStart_of_allBlank hreverse)

theorem trimEnd_append_trimEnd (front rest : List Char) :
    trimEnd (front ++ trimEnd rest) = trimEnd (front ++ rest) := by
  obtain ⟨gap, hgap, hrest⟩ := exists_blanks rest.reverse
  calc trimEnd (front ++ trimEnd rest)
      = (trimStart (trimStart rest.reverse ++ front.reverse)).reverse := by
        simp [trimEnd, trimStart]
    _ = (trimStart (gap ++ (trimStart rest.reverse ++ front.reverse))).reverse := by
        rw [trimStart_append_trimStart hgap]
    _ = (trimStart (front ++ rest).reverse).reverse := by
        rw [← List.append_assoc, hrest, List.reverse_append]
    _ = trimEnd (front ++ rest) := rfl

/-- Behind a character that is not blank, blanks are only taken off what follows it. -/
theorem EndsSolid.trimEnd_append {front : List Char} (h : EndsSolid front) (rest : List Char) :
    trimEnd (front ++ rest) = front ++ trimEnd rest := by
  rw [← trimEnd_append_trimEnd]
  by_cases hnil : trimEnd rest = []
  · rw [hnil, List.append_nil, h.trimEnd_eq]
  · have hrest : EndsSolid (trimEnd rest) := ⟨hnil, stops_reverse_trimEnd rest⟩
    rw [(hrest.append front).trimEnd_eq]

theorem trimEnd_append_cons {c : Char} (h : isBlank c = false) (front rest : List Char) :
    trimEnd (front ++ c :: rest) = front ++ c :: trimEnd rest := by
  have hfront : EndsSolid (front ++ [c]) := (endsSolid_singleton h).append front
  rw [List.append_cons, hfront.trimEnd_append, ← List.append_cons]

theorem trim_append_cons {c : Char} (h : isBlank c = false) (front rest : List Char) :
    trim (front ++ c :: rest) = trimStart front ++ c :: trimEnd rest := by
  rw [trim, trimStart_append_cons h, trimEnd_append_cons h]

theorem stops_trim (text : List Char) : Stops isBlank (trim text) := by
  have hstops := stops_trimStart text
  rw [trim]
  cases hstart : trimStart text with
  | nil =>
    intro c hc
    cases hc
  | cons c rest =>
    rw [hstart, stops_cons] at hstops
    rw [trimEnd_cons hstops]
    exact stops_cons.mpr hstops

theorem stops_reverse_trim (text : List Char) : Stops isBlank (trim text).reverse :=
  stops_reverse_trimEnd _

theorem trim_append_of_allBlank {gap : List Char} (hgap : AllBlank gap) (text : List Char) :
    trim (gap ++ text) = trim text := by
  rw [trim, trim, trimStart_append_trimStart hgap]

theorem exists_blanks_around (text : List Char) :
    ∃ before behind, AllBlank before ∧ AllBlank behind ∧ text = before ++ trim text ++ behind := by
  obtain ⟨before, hbefore, htext⟩ := exists_blanks text
  obtain ⟨behind, hbehind, hstart⟩ := exists_blanks (trimStart text).reverse
  refine ⟨before, behind.reverse, hbefore, fun c hc => hbehind c (List.mem_reverse.mp hc), ?_⟩
  have htrim : trim text ++ behind.reverse = trimStart text := by
    rw [← List.reverse_inj, List.reverse_append, List.reverse_reverse, ← hstart]
    simp only [trim, trimEnd, trimStart, List.reverse_reverse]
  rw [List.append_assoc, htrim, htext]

theorem trim_of_stops {text : List Char} (hfront : Stops isBlank text)
    (hback : Stops isBlank text.reverse) : trim text = text := by
  rw [trim, trimStart_of_stops hfront, trimEnd, hback.dropWhile_eq_self, List.reverse_reverse]

end TaggedSchema.Text
