import TaggedSchema.Document.Yaml.Scalar

/-!
# Places in a YAML text

A reader of YAML has to know in which column it stands, for the layout decides what belongs
together.
-/

namespace TaggedSchema.Yaml

/-- A place in a text and its column. -/
structure Place where
  column : Nat
  rest : List Char

namespace Place

/-- The column after a character. -/
def columnAfter (column : Nat) (c : Char) : Nat :=
  if isBreak c then 0 else column + 1

/-- What lies between a place and a later one. -/
def upTo (place : Place) (rest : List Char) : List Char :=
  place.rest.take (place.rest.length - rest.length)

/-- The place where `rest` begins. -/
def moveTo (place : Place) (rest : List Char) : Place :=
  ⟨(place.upTo rest).foldl columnAfter place.column, rest⟩

/-- Whether nothing follows in the document. -/
def isEnd (place : Place) : Bool :=
  place.rest.isEmpty || place.column = 0 && isMarker place.rest

/-- Whether a hyphen that begins an item follows. -/
def isDash (place : Place) : Bool :=
  match place.rest with
  | '-' :: rest => atBlank rest
  | _ => false

/-- What follows the next character, if that is `c`. -/
def after? (place : Place) (c : Char) : Option Place :=
  match place.rest with
  | d :: rest => if c = d then some ⟨place.column + 1, rest⟩ else none
  | [] => none

/-- What follows the colon after a key. Outside braces, a blank follows the colon. -/
def afterColon? (place : Place) (inFlow : Bool) : Option Place :=
  (place.after? ':').filter fun next => inFlow || atBlank next.rest

/-- The next place that is no blank and in no comment, and whether it is on a later line. Tabs are
blanks where they cannot be taken for indentation, and are refused where they can. -/
def skipFrom (inFlow tabs inComment isLater : Bool) (column : Nat) :
    List Char → Option (Bool × Place)
  | [] => some (isLater, ⟨column, []⟩)
  | c :: rest =>
    if isBreak c then skipFrom inFlow inFlow false true 0 rest
    else if inComment || c = ' ' || c = '\t' && tabs then
      skipFrom inFlow tabs inComment isLater (column + 1) rest
    else if c = '\t' then none
    else if c = '#' then skipFrom inFlow tabs true isLater (column + 1) rest
    else some (isLater, ⟨column, c :: rest⟩)

def skip (place : Place) (inFlow tabs : Bool) : Option (Bool × Place) :=
  skipFrom inFlow tabs false false place.column place.rest

/-- The next place that is no blank, on the same line. -/
def skipSpaces (place : Place) : Place :=
  place.moveTo (place.rest.dropWhile isSpace)

/-- Whether nothing but a comment follows on the line. -/
def isLineEnd (place : Place) : Bool :=
  place.rest.head?.all fun c => c = '#' || isBreak c

end Place

end TaggedSchema.Yaml
