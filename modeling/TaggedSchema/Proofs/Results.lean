import Mathlib.Data.List.Forall2
import Mathlib.Data.List.Perm.Basic

/-!
# Steps that may fail

What is known of the steps of a computation that has succeeded, of two computations of which one
succeeds where the other does, and of the errors that a computation can have.
-/

namespace TaggedSchema

variable {ε δ α β : Type}

theorem bind_succeeds_iff {x : Except ε α} {next : α → Except ε β} {b : β} :
    x >>= next = .ok b ↔ ∃ a, x = .ok a ∧ next a = .ok b := by
  cases x with
  | ok a => simp [bind, Except.bind]
  | error e => simp [bind, Except.bind]

theorem map_succeeds_iff {x : Except ε α} {f : α → β} {b : β} :
    f <$> x = .ok b ↔ ∃ a, x = .ok a ∧ f a = b := by
  cases x with
  | ok a => simp [Functor.map, Except.map]
  | error e => simp [Functor.map, Except.map]

theorem exists_map_succeeds_iff {x : Except ε α} {f : α → β} :
    (∃ b, f <$> x = .ok b) ↔ ∃ a, x = .ok a := by
  simp [map_succeeds_iff]

theorem pure_succeeds_iff {a b : α} : (pure a : Except ε α) = .ok b ↔ a = b := by
  simp [pure, Except.pure]

theorem mapError_succeeds_iff {x : Except ε α} {f : ε → δ} {a : α} :
    x.mapError f = .ok a ↔ x = .ok a := by
  cases x with
  | ok a => simp [Except.mapError]
  | error e => simp [Except.mapError]

theorem toOption_eq_some_iff {x : Except ε α} {a : α} : x.toOption = some a ↔ x = .ok a := by
  cases x with
  | ok a => simp [Except.toOption]
  | error e => simp [Except.toOption]

theorem bind_congr_of_ok {x : Except ε α} {next next' : α → Except ε β}
    (h : ∀ a, x = .ok a → next a = next' a) : x >>= next = x >>= next' := by
  cases x with
  | ok a => exact h a rfl
  | error error => rfl

/-- Each step of a sequence has its result at the same position. -/
theorem mapM_succeeds_iff {step : α → Except ε β} {inputs : List α} {outputs : List β} :
    inputs.mapM step = .ok outputs ↔
      List.Forall₂ (fun input output => step input = .ok output) inputs outputs := by
  induction inputs generalizing outputs with
  | nil => rw [List.mapM_nil, pure_succeeds_iff, List.forall₂_nil_left_iff, eq_comm]
  | cons input inputs ih =>
    simp only [List.mapM_cons, bind_succeeds_iff, ih, pure_succeeds_iff,
      List.forall₂_cons_left_iff]
    constructor
    · rintro ⟨output, hstep, rest, hrest, rfl⟩
      exact ⟨output, rest, hstep, hrest, rfl⟩
    · rintro ⟨output, rest, hstep, hrest, rfl⟩
      exact ⟨output, hstep, rest, hrest, rfl⟩

theorem exists_of_forall₂ {r : α → β → Prop} {as : List α} {bs : List β}
    (h : List.Forall₂ r as bs) {b : β} (hb : b ∈ bs) : ∃ a ∈ as, r a b := by
  induction h with
  | nil => cases hb
  | @cons a b' as bs hab hrest ih =>
    rcases List.mem_cons.mp hb with rfl | hb
    · exact ⟨a, List.mem_cons_self, hab⟩
    · obtain ⟨a', ha', hab'⟩ := ih hb
      exact ⟨a', List.mem_cons_of_mem _ ha', hab'⟩

theorem getElem?_of_forall₂ {r : α → β → Prop} {as : List α} {bs : List β}
    (h : List.Forall₂ r as bs) {position : Nat} {a : α} (ha : as[position]? = some a) :
    ∃ b, bs[position]? = some b ∧ r a b := by
  induction h generalizing position with
  | nil => cases ha
  | @cons a' b as bs hab hrest ih =>
    cases position with
    | zero =>
      cases ha
      exact ⟨b, rfl, hab⟩
    | succ position => exact ih ha

/-- In lists of related members, the first ones with a property are related if the property is the
same for related members. -/
theorem find?_of_forall₂ {r : α → β → Prop} {as : List α} {bs : List β}
    (h : List.Forall₂ r as bs) {p : α → Bool} {q : β → Bool} (hsame : ∀ a b, r a b → q b = p a) :
    Option.Rel r (as.find? p) (bs.find? q) := by
  induction h with
  | nil => exact .none
  | @cons a b as bs hab hrest ih =>
    rw [List.find?_cons, List.find?_cons, hsame a b hab]
    cases p a with
    | true => exact .some hab
    | false => exact ih

theorem optionRel_cases {r : α → β → Prop} {found : Option α} {found' : Option β}
    (h : Option.Rel r found found') :
    found = none ∧ found' = none ∨ ∃ a b, found = some a ∧ found' = some b ∧ r a b := by
  cases h with
  | none => exact .inl ⟨rfl, rfl⟩
  | some hab => exact .inr ⟨_, _, rfl, rfl, hab⟩

/-- What yields nothing may be left out of a search. -/
theorem findSome?_filter {p : α → Bool} {f : α → Option β} (hskip : ∀ a, p a = false → f a = none)
    (as : List α) : (as.filter p).findSome? f = as.findSome? f := by
  induction as with
  | nil => rfl
  | cons a as ih =>
    rw [List.filter_cons, List.findSome?_cons]
    cases hp : p a with
    | true => rw [if_pos rfl, List.findSome?_cons, ih]
    | false =>
      rw [hskip a hp]
      exact ih

theorem exists_input_of_mapM {step : α → Except ε β} {inputs : List α} {outputs : List β}
    {output : β} (h : inputs.mapM step = .ok outputs) (houtput : output ∈ outputs) :
    ∃ input ∈ inputs, step input = .ok output :=
  exists_of_forall₂ (mapM_succeeds_iff.mp h) houtput

theorem exists_output_of_mapM {step : α → Except ε β} {inputs : List α} {outputs : List β}
    {input : α} (h : inputs.mapM step = .ok outputs) (hinput : input ∈ inputs) :
    ∃ output ∈ outputs, step input = .ok output :=
  exists_of_forall₂ (mapM_succeeds_iff.mp h).flip hinput

/-- Inputs in another order have the same results in another order. -/
theorem exists_mapM_perm {step : α → Except ε β} {inputs inputs' : List α} {outputs : List β}
    (hperm : inputs'.Perm inputs) (h : inputs.mapM step = .ok outputs) :
    ∃ outputs', inputs'.mapM step = .ok outputs' ∧ outputs'.Perm outputs := by
  obtain ⟨outputs', houtputs, hsame⟩ := List.perm_comp_forall₂ hperm (mapM_succeeds_iff.mp h)
  exact ⟨outputs', mapM_succeeds_iff.mpr houtputs, hsame⟩

/-- Two sequences whose steps agree have the same results. -/
theorem mapM_agree {step step' : α → Except ε β} {inputs : List α} {outputs outputs' : List β}
    (h : inputs.mapM step = .ok outputs) (h' : inputs.mapM step' = .ok outputs')
    (hsame : ∀ input, ∀ output ∈ outputs, ∀ output', step input = .ok output →
      step' input = .ok output' → output' = output) : outputs' = outputs := by
  rw [mapM_succeeds_iff] at h h'
  induction h generalizing outputs' with
  | nil =>
    cases h'
    rfl
  | @cons input output inputs outputs hstep hrest ih =>
    cases h' with
    | cons hstep' hrest' =>
      rw [hsame input output List.mem_cons_self _ hstep hstep',
        ih hrest' fun input output hmem => hsame input output (List.mem_cons_of_mem _ hmem)]

/-- Inputs that change nothing can be left out. -/
theorem foldlM_filter {step : β → α → Except ε β} {p : α → Bool}
    (hskip : ∀ state input, p input = false → step state input = .ok state) (inputs : List α)
    (state : β) : (inputs.filter p).foldlM step state = inputs.foldlM step state := by
  induction inputs generalizing state with
  | nil => rfl
  | cons input inputs ih =>
    rw [List.filter_cons, List.foldlM_cons]
    split
    next => rw [List.foldlM_cons]; exact bind_congr fun next => ih next
    next hnot =>
      rw [hskip state input (eq_false_of_ne_true hnot)]
      exact ih state

/-- What every step keeps, its input counted among those taken in, a whole run keeps. -/
theorem foldlM_keeps {step : β → α → Except ε β} (holds : β → List α → Prop)
    (hstep : ∀ state taken input next, holds state taken → step state input = .ok next →
      holds next (taken ++ [input])) {inputs : List α} {state next : β} (hstate : holds state [])
    (hrun : inputs.foldlM step state = .ok next) : holds next inputs := by
  suffices hall : ∀ taken, holds state taken → holds next (taken ++ inputs) from hall [] hstate
  clear hstate
  induction inputs generalizing state with
  | nil =>
    intro taken hstate
    rw [List.foldlM_nil, pure_succeeds_iff] at hrun
    rw [List.append_nil, ← hrun]
    exact hstate
  | cons input inputs ih =>
    intro taken hstate
    rw [List.foldlM_cons, bind_succeeds_iff] at hrun
    obtain ⟨middle, hmiddle, hrun⟩ := hrun
    rw [List.append_cons]
    exact ih hrun _ (hstep state taken input middle hstate hmiddle)

/-! ## A computation that has the results of another one -/

/-- Where the first computation has a result, the second one has the same. -/
structure KeepsResult (x x' : Except ε α) : Prop where
  eq_ok : ∀ {a}, x = .ok a → x' = .ok a

namespace KeepsResult

variable {x x' : Except ε α} {next next' : α → Except ε β}

theorem refl (x : Except ε α) : KeepsResult x x := ⟨id⟩

theorem of_error {error : ε} : KeepsResult (.error error) x' := ⟨nofun⟩

theorem bind (h : KeepsResult x x') (hnext : ∀ a, KeepsResult (next a) (next' a)) :
    KeepsResult (x >>= next) (x' >>= next') where
  eq_ok hb := by
    obtain ⟨a, ha, hb⟩ := bind_succeeds_iff.mp hb
    exact bind_succeeds_iff.mpr ⟨a, h.eq_ok ha, (hnext a).eq_ok hb⟩

theorem map (h : KeepsResult x x') (f : α → β) : KeepsResult (f <$> x) (f <$> x') where
  eq_ok hb := by
    obtain ⟨a, ha, hb⟩ := map_succeeds_iff.mp hb
    exact map_succeeds_iff.mpr ⟨a, h.eq_ok ha, hb⟩

theorem mapError (h : KeepsResult x x') (f : ε → δ) :
    KeepsResult (x.mapError f) (x'.mapError f) :=
  ⟨fun ha => mapError_succeeds_iff.mpr (h.eq_ok (mapError_succeeds_iff.mp ha))⟩

theorem mapM {step step' : α → Except ε β} (h : ∀ a, KeepsResult (step a) (step' a))
    (inputs : List α) : KeepsResult (inputs.mapM step) (inputs.mapM step') where
  eq_ok houtputs := by
    rw [mapM_succeeds_iff] at houtputs ⊢
    exact houtputs.imp fun a _ => (h a).eq_ok

end KeepsResult

/-! ## The errors of a computation -/

/-- Each error that the computation can have is of this kind. -/
def FailsWith (p : ε → Prop) (x : Except ε α) : Prop :=
  ∀ error, x = .error error → p error

namespace FailsWith

variable {p : ε → Prop} {q : δ → Prop} {x : Except ε α}

theorem ok (a : α) : FailsWith p (.ok a) := nofun

theorem error {error : ε} (h : p error) : FailsWith p (.error error : Except ε α) := by
  rintro _ ⟨⟩
  exact h

theorem bind {next : α → Except ε β} (h : FailsWith p x)
    (hnext : ∀ a, x = .ok a → FailsWith p (next a)) : FailsWith p (x >>= next) := by
  cases x with
  | ok a => exact hnext a rfl
  | error error => exact .error (h error rfl)

theorem map (h : FailsWith p x) (f : α → β) : FailsWith p (f <$> x) := by
  cases x with
  | ok a => exact .ok (f a)
  | error error => exact .error (h error rfl)

theorem mapError (h : FailsWith p x) {f : ε → δ} (hf : ∀ error, p error → q (f error)) :
    FailsWith q (x.mapError f) := by
  cases x with
  | ok a => exact .ok a
  | error error => exact .error (hf error (h error rfl))

theorem mapError_of_forall {f : ε → δ} (hf : ∀ error, q (f error)) :
    FailsWith q (x.mapError f) := by
  cases x with
  | ok a => exact .ok a
  | error error => exact .error (hf error)

theorem mapM {step : α → Except ε β} (h : ∀ a, FailsWith p (step a)) (inputs : List α) :
    FailsWith p (inputs.mapM step) := by
  induction inputs with
  | nil => exact .ok []
  | cons input inputs ih =>
    rw [List.mapM_cons]
    exact (h input).bind fun _ _ => ih.bind fun _ _ => .ok _

theorem foldlM {step : β → α → Except ε β} (h : ∀ state a, FailsWith p (step state a))
    (inputs : List α) (state : β) : FailsWith p (inputs.foldlM step state) := by
  induction inputs generalizing state with
  | nil => exact .ok state
  | cons input inputs ih =>
    rw [List.foldlM_cons]
    exact (h state input).bind fun next _ => ih next

end FailsWith

end TaggedSchema
