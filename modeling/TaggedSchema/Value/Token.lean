import TaggedSchema.Decimal.Reading
import TaggedSchema.Value.Basic

/-!
# Tokens of JSON texts

A JSON text is cut into punctuation, texts, and the literals that stand for one value: `null`, the
booleans and the numbers.
-/

namespace TaggedSchema

open Text

inductive Token where
  | mark (c : Char)
  | text (text : String)
  | literal (value : Value)

namespace Token

def hexDigit? (c : Char) : Option Nat :=
  if '0' ≤ c ∧ c ≤ '9' then some (c.toNat - 48)
  else if 'a' ≤ c ∧ c ≤ 'f' then some (c.toNat - 87)
  else if 'A' ≤ c ∧ c ≤ 'F' then some (c.toNat - 55)
  else none

/-- The number spelled by hexadecimal digits. -/
def hexValue? (digits : List Char) : Option Nat :=
  digits.foldlM (fun value c => (hexDigit? c).map (16 * value + ·)) 0

/-- What the character after a backslash stands for. -/
def escaped? : Char → Option Char
  | '"' => some '"'
  | '\\' => some '\\'
  | '/' => some '/'
  | 'b' => some '\x08'
  | 'f' => some '\x0c'
  | 'n' => some '\n'
  | 'r' => some '\r'
  | 't' => some '\t'
  | _ => none

/-- The code units of a string up to its closing quote, and what follows. An escape by number gives
one unit of UTF-16 and any other character its code point. -/
def stringUnits : List Char → Option (List Nat × List Char)
  | [] => none
  | '"' :: rest => some ([], rest)
  | '\\' :: 'u' :: a :: b :: c :: d :: rest => do
    let unit ← hexValue? [a, b, c, d]
    let (units, rest) ← stringUnits rest
    some (unit :: units, rest)
  | '\\' :: c :: rest => do
    let c ← escaped? c
    let (units, rest) ← stringUnits rest
    some (c.toNat :: units, rest)
  | c :: rest =>
    if c = '\\' ∨ c.toNat < 0x20 then none
    else do
      let (units, rest) ← stringUnits rest
      some (c.toNat :: units, rest)

def isHighSurrogate (unit : Nat) : Bool :=
  0xd800 ≤ unit && unit < 0xdc00

def isLowSurrogate (unit : Nat) : Bool :=
  0xdc00 ≤ unit && unit < 0xe000

/-- Join the surrogates that escapes have spelled; one that stands alone is no text. -/
def joinSurrogates : List Nat → Option (List Char)
  | [] => some []
  | unit :: units =>
    if isHighSurrogate unit then
      match units with
      | low :: units =>
        if isLowSurrogate low then
          let code := 0x10000 + (unit - 0xd800) * 0x400 + (low - 0xdc00)
          (joinSurrogates units).map (Char.ofNat code :: ·)
        else none
      | [] => none
    else if isLowSurrogate unit then none
    else (joinSurrogates units).map (Char.ofNat unit :: ·)

/-- The whole part of a number has no needless zero in front. -/
def isWholePart : List Char → Bool
  | [] => false
  | ['0'] => true
  | c :: rest => c != '0' && (c :: rest).all isAsciiDigit

/-- The value of a number without its sign. -/
def unsignedNumber? (negative : Bool) (digits : List Char) : Option Number :=
  let whole := digits.takeWhile isAsciiDigit
  let rest := digits.dropWhile isAsciiDigit
  if !isWholePart whole then none
  else
    let value : Int := if negative then -(digitsValue whole : Int) else digitsValue whole
    match rest with
    | [] =>
      if negative ∧ value < 0 ∧ FitsSigned value ∨ !negative ∧ FitsUnsigned value then
        some (.int value)
      else (Double.unsignedDecimal? negative digits).map .float
    | '.' :: c :: _ =>
      if isAsciiDigit c then (Double.unsignedDecimal? negative digits).map .float else none
    | '.' :: [] => none
    | _ => (Double.unsignedDecimal? negative digits).map .float

/-- An integer unless the number has a point or an exponent, is minus zero, or is too large for a
word; then a double. -/
def number? : List Char → Option Number
  | '-' :: digits => unsignedNumber? true digits
  | digits => unsignedNumber? false digits

/-- The characters of which literals consist. -/
def isLiteralChar (c : Char) : Bool :=
  isAsciiDigit c || c.isAlpha || c == '+' || c == '-' || c == '.'

def literal? (word : List Char) : Option Value :=
  if word = ['n', 'u', 'l', 'l'] then some .null
  else if word = ['t', 'r', 'u', 'e'] then some (.bool true)
  else if word = ['f', 'a', 'l', 's', 'e'] then some (.bool false)
  else (number? word).map .number

def isJsonBlank (c : Char) : Bool :=
  c == ' ' || c == '\n' || c == '\r' || c == '\t'

def isMark (c : Char) : Bool :=
  c == '[' || c == ']' || c == '\x7b' || c == '\x7d' || c == ',' || c == ':'

/-- The first token of a text that does not begin with a blank, and what follows it. -/
def next? (c : Char) (rest : List Char) : Option (Token × List Char) :=
  if isMark c then some (mark c, rest)
  else if c = '"' then do
    let (units, rest) ← stringUnits rest
    let chars ← joinSurrogates units
    some (text (String.ofList chars), rest)
  else if isLiteralChar c then
    (literal? (c :: rest.takeWhile isLiteralChar)).map fun value =>
      (literal value, rest.dropWhile isLiteralChar)
  else none

theorem length_stringUnits {input rest : List Char} {units : List Nat}
    (h : stringUnits input = some (units, rest)) : rest.length < input.length := by
  fun_induction stringUnits input generalizing units with
  | case1 => simp at h
  | case2 rest' =>
    obtain ⟨-, rfl⟩ := Prod.mk.inj (Option.some.inj h)
    simp
  | case3 a b c d rest' ih =>
    simp only [Option.bind_eq_bind, Option.bind_eq_some_iff] at h
    obtain ⟨_, _, ⟨units', rest''⟩, hrest, h⟩ := h
    obtain ⟨-, rfl⟩ := Prod.mk.inj (Option.some.inj h)
    have : rest''.length < rest'.length := ih hrest
    simp only [List.length_cons]
    omega
  | case4 c rest' _ ih =>
    simp only [Option.bind_eq_bind, Option.bind_eq_some_iff] at h
    obtain ⟨_, _, ⟨units', rest''⟩, hrest, h⟩ := h
    obtain ⟨-, rfl⟩ := Prod.mk.inj (Option.some.inj h)
    have : rest''.length < rest'.length := ih hrest
    simp only [List.length_cons]
    omega
  | case5 => simp at h
  | case6 c rest' _ _ _ _ ih =>
    simp only [Option.bind_eq_bind, Option.bind_eq_some_iff] at h
    obtain ⟨⟨units', rest''⟩, hrest, h⟩ := h
    obtain ⟨-, rfl⟩ := Prod.mk.inj (Option.some.inj h)
    have : rest''.length < rest'.length := ih hrest
    simp only [List.length_cons]
    omega

theorem length_next? {c : Char} {input rest : List Char} {token : Token}
    (h : next? c input = some (token, rest)) : rest.length ≤ input.length := by
  unfold next? at h
  split at h
  · obtain ⟨-, rfl⟩ := Prod.mk.inj (Option.some.inj h)
    exact Nat.le_refl _
  · split at h
    · simp only [Option.bind_eq_bind, Option.bind_eq_some_iff] at h
      obtain ⟨⟨units, rest'⟩, hunits, _, _, h⟩ := h
      obtain ⟨-, rfl⟩ := Prod.mk.inj (Option.some.inj h)
      exact Nat.le_of_lt (length_stringUnits hunits)
    · split at h
      · simp only [Option.map_eq_some_iff] at h
        obtain ⟨_, _, h⟩ := h
        obtain ⟨-, rfl⟩ := Prod.mk.inj h
        exact (List.dropWhile_suffix isLiteralChar).length_le
      · simp at h

/-- The tokens of a text in order. -/
def ofText? (input : List Char) : Option (List Token) :=
  match input with
  | [] => some []
  | c :: rest =>
    if isJsonBlank c then ofText? rest
    else
      match _h : next? c rest with
      | none => none
      | some (token, rest') => (ofText? rest').map (token :: ·)
termination_by input.length
decreasing_by
  · simp
  · have := length_next? _h
    simp only [List.length_cons]
    omega

end Token

end TaggedSchema
