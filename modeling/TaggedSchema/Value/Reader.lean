import TaggedSchema.Value.Token

/-!
# Reading JSON

The tokens of a text are read from left to right. What is open is kept on a stack: the items of a
list so far, or the members of an object so far with the name of the next one.
-/

namespace TaggedSchema.Value

/-- A list or an object whose end has not been seen, its parts in reverse order. -/
inductive Open where
  | items (done : List Value)
  | members (done : List (String × Value)) (name : String)

/-- What may come next. -/
inductive Expected where
  /-- A value, or the end of a list that is still empty. -/
  | item (mayClose : Bool)
  /-- The name of a member, or the end of an object that is still empty. -/
  | name (mayClose : Bool)
  | colon
  /-- A comma or the end of what is open. -/
  | separator
  | nothing (result : Value)

/-- Add a finished value to the innermost open part. -/
def place (value : Value) : List Open → List Open × Expected
  | [] => ([], .nothing value)
  | .items done :: stack => (.items (value :: done) :: stack, .separator)
  | .members done name :: stack => (.members ((name, value) :: done) name :: stack, .separator)

/-- Close the innermost open part if `c` is the mark that ends it. -/
def close? (c : Char) : List Open → Option (List Open × Expected)
  | .items done :: stack =>
    if c = ']' then some (place (array done.reverse) stack) else none
  | .members done _ :: stack =>
    if c = '\x7d' then some (place (ofMembers done.reverse) stack) else none
  | [] => none

/-- Take one token. -/
def step? (token : Token) : List Open × Expected → Option (List Open × Expected)
  | (stack, .item mayClose) =>
    match token with
    | .literal value => some (place value stack)
    | .text text => some (place (string text) stack)
    | .mark c =>
      if c = '[' then some (.items [] :: stack, .item true)
      else if c = '\x7b' then some (.members [] "" :: stack, .name true)
      else if mayClose then close? c stack
      else none
  | (.members done _ :: stack, .name mayClose) =>
    match token with
    | .text name => some (.members done name :: stack, .colon)
    | .mark c => if mayClose then close? c (.members done "" :: stack) else none
    | .literal _ => none
  | (stack, .colon) =>
    match token with
    | .mark ':' => some (stack, .item false)
    | _ => none
  | (stack, .separator) =>
    match token, stack with
    | .mark ',', .items _ :: _ => some (stack, .item false)
    | .mark ',', .members _ _ :: _ => some (stack, .name false)
    | .mark c, _ => close? c stack
    | _, _ => none
  | (_, _) => none

/-- The value of a JSON text. -/
def ofText? (text : String) : Option Value := do
  let tokens ← Token.ofText? text.toList
  let state ← tokens.foldlM (fun state token => step? token state) ([], .item false)
  match state with
  | (_, .nothing value) => some value
  | _ => none

end TaggedSchema.Value
