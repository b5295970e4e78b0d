/-!
# Regular expressions

A regular expression stands for a set of texts. A text is matched from its first character on: the
derivative of an expression by a character stands for what may follow that character.
-/

namespace TaggedSchema

inductive Regular where
  /-- No text at all. -/
  | nothing
  | empty
  | oneOf (isMember : Char → Bool)
  | seq (first second : Regular)
  | alt (left right : Regular)
  | star (body : Regular)

namespace Regular

def optional (body : Regular) : Regular := alt body empty

def char (c : Char) : Regular := oneOf fun d => d == c

/-- Whether the empty text belongs to the expression. -/
def nullable : Regular → Bool
  | nothing => false
  | empty => true
  | oneOf _ => false
  | seq first second => first.nullable && second.nullable
  | alt left right => left.nullable || right.nullable
  | star _ => true

/-- One after the other. Dropping empty parts keeps derivatives from growing. -/
def join : Regular → Regular → Regular
  | nothing, _ => nothing
  | empty, second => second
  | first, second => seq first second

/-- Either of two, where an impossible one is dropped. -/
def either : Regular → Regular → Regular
  | nothing, right => right
  | left, nothing => left
  | left, right => alt left right

/-- What may follow `c` in a text of the expression. -/
def derivative (c : Char) : Regular → Regular
  | nothing => nothing
  | empty => nothing
  | oneOf isMember => if isMember c then empty else nothing
  | seq first second =>
    let later := if first.nullable then derivative c second else nothing
    either (join (derivative c first) second) later
  | alt left right => either (derivative c left) (derivative c right)
  | star body => join (derivative c body) (star body)

/-- Whether the whole text belongs to the expression. -/
def accepts (expression : Regular) : List Char → Bool
  | [] => expression.nullable
  | c :: rest => (expression.derivative c).accepts rest

end Regular

end TaggedSchema
