import TaggedSchema.Text.Numeral

/-!
# IP addresses

Addresses of version 4 are four decimal numbers with points between them. Addresses of version 6
are eight groups of hexadecimal digits with colons between them, where two colons may stand for one
or more groups, and the last two groups may be written as an address of version 4. Each reader
returns what follows.
-/

namespace TaggedSchema.Address

open Text

/-- Digits of either case. -/
def isHexDigit (c : Char) : Bool :=
  isAsciiDigit c || ('a' ≤ c && c ≤ 'f') || ('A' ≤ c && c ≤ 'F')

/-- A number up to 255 in at most three digits, of which the first is zero only if it is the only
one. -/
def octet? (text : List Char) : Option (List Char) :=
  let (digits, rest) := text.span isAsciiDigit
  if digits.isEmpty || 3 < digits.length || (digits.head? == some '0' && 1 < digits.length)
      || 255 < digitsValue digits then none
  else some rest

/-- One to four hexadecimal digits. -/
def group? (text : List Char) : Option (List Char) :=
  let (digits, rest) := text.span isHexDigit
  if digits.isEmpty || 4 < digits.length then none else some rest

/-- What `read` leaves, after the separator. -/
def after (separator : Char) (read : List Char → Option (List Char)) :
    List Char → Option (List Char)
  | [] => none
  | c :: rest => if c = separator then read rest else none

/-- An address of version 4. -/
def dotted? (text : List Char) : Option (List Char) :=
  octet? text >>= after '.' octet? >>= after '.' octet? >>= after '.' octet?

/-- Groups from the front of a text. -/
structure Groups where
  count : Nat
  /-- The last two groups were written as an address of version 4. -/
  endsDotted : Bool
  rest : List Char

/-- Read as many groups as there are, up to `limit`. Before every group but the first stands a
colon. -/
def groups (limit : Nat) (isFirst : Bool) (text : List Char) : Groups :=
  match limit with
  | 0 => ⟨0, false, text⟩
  | limit + 1 =>
    let next (read : List Char → Option (List Char)) : Option (List Char) :=
      if isFirst then read text else after ':' read text
    match if limit = 0 then none else next dotted? with
    | some rest => ⟨2, true, rest⟩
    | none =>
      match next group? with
      | none => ⟨0, false, text⟩
      | some rest =>
        let later := groups limit false rest
        { later with count := later.count + 1 }

/-- Whether a text is an address of version 6. -/
def isVersion6 (text : List Char) : Bool :=
  let front := groups 8 true text
  if front.count = 8 then front.rest.isEmpty
  else if front.endsDotted then false
  else
    match front.rest with
    | ':' :: ':' :: rest => (groups (7 - front.count) true rest).rest.isEmpty
    | _ => false

/-- Whether a text is an address of version 4. -/
def isVersion4 (text : List Char) : Bool :=
  match dotted? text with
  | some rest => rest.isEmpty
  | none => false

def isAddress (text : List Char) : Bool :=
  isVersion4 text || isVersion6 text

end TaggedSchema.Address
