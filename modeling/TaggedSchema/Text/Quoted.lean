import TaggedSchema.Text.Hidden

/-!
# Quoted texts

A quoted text stands between double quotes. Quotes and backslashes get a backslash, four controls
have a letter of their own, and every other hidden character is spelled by its number.
-/

namespace TaggedSchema.Text

/-- The number of a character in lower-case hexadecimal digits, without padding. -/
def hexNumeral (code : Nat) : List Char :=
  Nat.toDigits 16 code

def quotedChar (c : Char) : List Char :=
  if c = '"' then ['\\', '"']
  else if c = '\\' then ['\\', '\\']
  else if c = '\n' then ['\\', 'n']
  else if c = '\t' then ['\\', 't']
  else if c = '\r' then ['\\', 'r']
  else if c = '\x00' then ['\\', '0']
  else if isHidden c then ['\\', 'u', '\x7b'] ++ hexNumeral c.toNat ++ ['\x7d']
  else [c]

def quoted (text : String) : String :=
  String.ofList ('"' :: text.toList.flatMap quotedChar ++ ['"'])

end TaggedSchema.Text
