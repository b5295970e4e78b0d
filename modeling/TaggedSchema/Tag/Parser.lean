import TaggedSchema.Tag.Reader
import TaggedSchema.Text.Alphanumeric
import TaggedSchema.Text.Bytes

/-!
# Parsing tags

Reading fails with a fault of the text, since strings are only read at quotes, and where a fault
lies an end of the text begins. That gives the position and the token that are reported.
-/

namespace TaggedSchema.Tag

open Text

/-! ## Failures -/

/-- The failure is a fault, and lies at an end of the text. -/
structure Failure.IsFaultIn (failure : Failure) (text : List Char) : Prop where
  isFault : failure.problem ≠ .unexpectedToken
  suffix : failure.rest <:+ text

section

variable {text rest : List Char} {failure : Failure}

theorem isFaultIn_of_suffix (fault : Fault) (h : rest <:+ text) :
    Failure.IsFaultIn ⟨.fault fault, rest⟩ text :=
  ⟨by rintro ⟨⟩, h⟩

theorem Failure.IsFaultIn.extend {whole : List Char} (h : failure.IsFaultIn text)
    (hwhole : text <:+ whole) : failure.IsFaultIn whole :=
  ⟨h.isFault, h.suffix.trans hwhole⟩

theorem readString_isFaultIn {quote : Char} (h : readString (quote :: text) = .error failure) :
    failure.IsFaultIn (quote :: text) := by
  rw [readString] at h
  split at h
  next =>
    cases h
    exact isFaultIn_of_suffix _ List.suffix_rfl
  next => cases h

theorem readLiteral_isFaultIn (h : readLiteral text = .error failure) :
    failure.IsFaultIn text := by
  rw [readLiteral] at h
  split at h
  next =>
    cases h
    exact isFaultIn_of_suffix _ List.nil_suffix
  next c tail htrim =>
    refine .extend ?_ (htrim ▸ trimStart_suffix text)
    split at h
    next => exact readString_isFaultIn h
    next =>
      simp only at h
      split at h
      next =>
        cases h
        exact isFaultIn_of_suffix _ List.suffix_rfl
      next => cases h

theorem readArgument_isFaultIn (h : readArgument text = .error failure) :
    failure.IsFaultIn text := by
  rw [readArgument] at h
  split at h
  next =>
    cases h
    exact isFaultIn_of_suffix _ List.nil_suffix
  next c tail htrim =>
    refine .extend ?_ (htrim ▸ trimStart_suffix text)
    split at h
    next =>
      split at h
      next hstring =>
        cases h
        exact readString_isFaultIn hstring
      next => cases h
    next =>
      simp only at h
      split at h
      next =>
        cases h
        exact isFaultIn_of_suffix _ List.suffix_rfl
      next =>
        split at h
        next behind hcolon =>
          have hbehind : behind <:+ c :: tail :=
            (List.suffix_cons ':' behind).trans
              (hcolon ▸ (trimStart_suffix _).trans (List.dropWhile_suffix isWordChar))
          split at h
          next =>
            split at h
            next hliteral =>
              cases h
              exact (readLiteral_isFaultIn hliteral).extend hbehind
            next => cases h
          next =>
            cases h
            exact isFaultIn_of_suffix _ hbehind
        next => cases h

/-- A parenthesis that is not closed is reported where it was opened. The induction is on the
arguments that are read before the failure. -/
theorem readMoreArguments_isFaultIn {opening : List Char}
    (h : readMoreArguments opening text = .error failure) (htext : text <:+ opening) :
    failure.IsFaultIn opening := by
  have hafter {text after : List Char} {argument : Argument} (htext : text <:+ opening)
      (hargument : readArgument text = .ok (argument, after)) : trimStart after <:+ opening :=
    (trimStart_suffix after).trans ((isLeft_readArgument hargument).suffix.trans htext)
  fun_induction readMoreArguments opening text with
  | case1 text failure' hargument =>
    cases h
    exact (readArgument_isFaultIn hargument).extend htext
  | case2 text argument after hargument next hnext failure' hmore ih =>
    cases h
    exact ih hmore ((List.suffix_cons _ _).trans (hnext ▸ hafter htext hargument))
  | case3 | case4 => cases h
  | case5 =>
    cases h
    exact isFaultIn_of_suffix _ List.suffix_rfl
  | case6 text argument after hargument =>
    cases h
    exact isFaultIn_of_suffix _ (hafter htext hargument)

theorem readArguments_isFaultIn (h : readArguments text = .error failure) :
    failure.IsFaultIn text := by
  rw [readArguments.eq_def] at h
  split at h
  next tail =>
    split at h
    next => cases h
    next => exact readMoreArguments_isFaultIn h (List.suffix_cons _ _)
  next => cases h

theorem readName_isFaultIn (h : readName text = .error failure) : failure.IsFaultIn text := by
  simp only [readName] at h
  split at h
  next =>
    cases h
    exact isFaultIn_of_suffix _ (List.dropWhile_suffix isNameChar)
  next => cases h

theorem readQualifiedName_isFaultIn (h : readQualifiedName text = .error failure) :
    failure.IsFaultIn text := by
  rw [readQualifiedName] at h
  split at h
  next hfirst =>
    cases h
    exact readName_isFaultIn hfirst
  next first behind hfirst =>
    split at h
    next hsecond =>
      cases h
      exact (readName_isFaultIn hsecond).extend
        ((List.suffix_cons _ _).trans (isLeft_readName hfirst).suffix)
    next => cases h
  next => cases h

theorem readFront_isFaultIn (h : readFront text = .error failure) : failure.IsFaultIn text := by
  refine .extend ?_ (withoutPlus_suffix text)
  rw [readFront] at h
  split at h
  next hname =>
    cases h
    exact readQualifiedName_isFaultIn hname
  next hname =>
    split at h
    next harguments =>
      cases h
      exact (readArguments_isFaultIn harguments).extend (isLeft_readQualifiedName hname).suffix
    next => cases h

theorem readEnd_isFaultIn (h : readEnd text = .error failure) : failure.IsFaultIn text := by
  rw [readEnd] at h
  split at h
  next => cases h
  next htrim =>
    cases h
    exact isFaultIn_of_suffix _ (htrim ▸ trimStart_suffix text)
  next =>
    cases h
    exact isFaultIn_of_suffix _ (trimStart_suffix text)

theorem readValue_isFaultIn {c : Char} (h : readValue c text = .error failure) :
    failure.IsFaultIn (c :: text) := by
  rw [readValue] at h
  split at h
  next =>
    split at h
    next hstring =>
      cases h
      exact readString_isFaultIn hstring
    next behind hstring =>
      split at h
      next => cases h
      next =>
        cases h
        exact isFaultIn_of_suffix _
          ((trimStart_suffix behind).trans (isLeft_readString hstring).suffix)
  next => cases h

/-- The induction is on the nesting of tags. -/
theorem read_isFaultIn {scope : Scope} (h : read scope text = .error failure) :
    failure.IsFaultIn text := by
  have hbehind {input rest : List Char} {front : Front}
      (hfront : readFront (trimStart input) = .ok (front, rest)) : rest <:+ input :=
    (isLeft_readFront hfront).suffix.trans (trimStart_suffix input)
  have hpayload {input payload : List Char} {front : Front}
      (hfront : readFront (trimStart input) = .ok (front, '=' :: payload)) :
      trimStart payload <:+ input :=
    (trimStart_suffix payload).trans ((List.suffix_cons _ _).trans (hbehind hfront))
  fun_induction read scope text with
  | case1 input failure' hfront =>
    cases h
    exact (readFront_isFaultIn hfront).extend (trimStart_suffix input)
  | case2 =>
    cases h
    exact isFaultIn_of_suffix _ List.nil_suffix
  | case3 input front payload hfront rest failure' htrim hinner ih =>
    cases h
    exact (ih hinner).extend (htrim ▸ hpayload hfront)
  | case5 input front payload hfront c rest htrim hplus failure' hvalue =>
    cases h
    exact (readValue_isFaultIn hvalue).extend (htrim ▸ hpayload hfront)
  | case7 input front rest hequals hfront failure' hend =>
    cases h
    exact (readEnd_isFaultIn hend).extend (hbehind hfront)
  | case4 | case6 | case8 => cases h

end

/-! ## What is reported -/

/-- The first characters of `rest` as they are quoted in a message. -/
def tokenAt (rest : List Char) : String :=
  match rest with
  | [] => "<end of input>"
  | c :: _ =>
    if isAlphanumeric c then
      String.ofList (rest.takeWhile fun c => isAlphanumeric c || c == '_' || c == '-')
    else String.ofList [c]

/-- A fault with the number of bytes before it and the token at it. -/
structure ParseError where
  fault : Fault
  position : Nat
  token : String
  deriving DecidableEq

def ParseError.message (error : ParseError) : String :=
  s!"{error.fault.message} at byte {error.position} (near '{error.token}')"

def parse (scope : Scope) (input : String) : Except ParseError Tag :=
  match h : read scope input.toList with
  | .ok (tag, _) => .ok tag
  | .error ⟨.fault fault, rest⟩ => .error ⟨fault, offsetOf input.toList rest, tokenAt rest⟩
  | .error ⟨.unexpectedToken, _⟩ => ((read_isFaultIn h).isFault rfl).elim

/-- Whether a line holds a tag: it begins with a plus sign, apart from blanks. -/
def isTagLine (line : String) : Bool :=
  (trimStart line.toList).head? == some '+'

/-- The tags of all lines that hold one, or the first failure. -/
def parseLines (scope : Scope) (lines : List String) : Except ParseError (List Tag) :=
  (lines.filter isTagLine).mapM (parse scope)

end TaggedSchema.Tag
