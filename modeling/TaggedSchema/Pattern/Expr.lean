import TaggedSchema.Pattern.CharSet

/-!
# Expressions of patterns

An expression says in which ways a text can match, and which way is tried first. Expressions are
built in a reduced form: texts that follow each other are one text, a choice between single
characters is a set, and what all branches of a choice begin with stands before the choice. The
last of these decides between matches: `.*b|.*c` is `.*(?:b|c)`, which tries the longest `.*`
first, whatever follows it.
-/

namespace TaggedSchema

/-- A condition on a place between two characters. -/
inductive Assertion where
  | textStart
  | textEnd
  | lineStart
  | lineEnd
  | wordBoundary
  | noWordBoundary
  deriving DecidableEq

namespace Pattern

inductive Expr where
  | empty
  | text (chars : List Char)
  | oneOf (set : CharSet)
  | assertion (condition : Assertion)
  /-- What the body matches is kept under a number. -/
  | group (number : Nat) (body : Expr)
  /-- As often as the bounds allow; a greedy repetition tries to go on first. -/
  | repetition (least : Nat) (most : Option Nat) (greedy : Bool) (body : Expr)
  | seq (first second : Expr)
  /-- The left one is tried first. -/
  | alt (left right : Expr)
  deriving DecidableEq

namespace Expr

/-- A set of one character is a text. -/
def ofSet (set : CharSet) : Expr :=
  match set.ranges with
  | [(first, last)] => if first = last then text [Char.ofNat first] else oneOf set
  | _ => oneOf set

/-- What an expression is a sequence of. -/
def factors : Expr → List Expr
  | empty => []
  | seq first second => factors first ++ factors second
  | other => [other]

/-- Put an expression in front of a sequence. -/
def joinText : Expr → List Expr → List Expr
  | text chars, text more :: rest => text (chars ++ more) :: rest
  | first, rest => first :: rest

def ofFactors : List Expr → Expr
  | [] => empty
  | [one] => one
  | first :: rest => seq first (ofFactors rest)

/-- One after the other. -/
def sequence (exprs : List Expr) : Expr :=
  ofFactors ((exprs.flatMap factors).foldr joinText [])

/-- What an expression is a choice of. -/
def branches : Expr → List Expr
  | alt left right => branches left ++ branches right
  | other => [other]

/-- A choice of nothing cannot match. -/
def ofBranches : List Expr → Expr
  | [] => oneOf .nothing
  | [one] => one
  | first :: rest => alt first (ofBranches rest)

/-- The set of a text of one character. -/
def charSet? : Expr → Option CharSet
  | text [c] => some (.char c)
  | _ => none

def set? : Expr → Option CharSet
  | oneOf set => some set
  | _ => none

/-- A choice whose branches are not compared. Characters form a set, and sets form one. -/
def choice (exprs : List Expr) : Expr :=
  let exprs := exprs.flatMap branches
  match exprs, (exprs.mapM charSet?).or (exprs.mapM set?) with
  | _ :: _ :: _, some sets => ofSet (sets.foldl CharSet.union .nothing)
  | _, _ => ofBranches exprs

/-- What two lists begin with. -/
def sharedFront : List Expr → List Expr → List Expr
  | first :: rest, first' :: rest' =>
    if first = first' then first :: sharedFront rest rest' else []
  | _, _ => []

/-- What all branches begin with, if every branch is a sequence. -/
def commonFront (branches : List (List Expr)) : List Expr :=
  match branches with
  | first :: _ :: _ =>
    if branches.all fun factors => 2 ≤ factors.length then branches.foldl sharedFront first else []
  | _ => []

/-- One of several, the first of which is tried first. What all of them begin with is taken out. -/
def alternation (exprs : List Expr) : Expr :=
  let branches := (exprs.flatMap branches).map factors
  match commonFront branches with
  | [] => choice exprs
  | front => sequence
    (front ++ [choice (branches.map fun factors => sequence (factors.drop front.length))])

/-- Whether nothing but the empty text can match. -/
def isAlwaysEmpty : Expr → Bool
  | empty | assertion _ => true
  | text chars => chars.isEmpty
  | oneOf _ => false
  | group _ body => isAlwaysEmpty body
  | repetition _ most _ body => most.isSome && isAlwaysEmpty body
  | seq first second => isAlwaysEmpty first && isAlwaysEmpty second
  | alt left right => isAlwaysEmpty left && isAlwaysEmpty right

/-- The least number of characters in a match, if there can be one. A branch of a choice that
cannot match leaves the number open. -/
def leastLength : Expr → Option Nat
  | empty | assertion _ => some 0
  | text chars => some chars.length
  | oneOf set => if set.ranges.isEmpty then none else some 1
  | group _ body => leastLength body
  | repetition least _ _ body => (leastLength body).map (least * ·)
  | seq first second => do return (← leastLength first) + (← leastLength second)
  | alt left right => do return min (← leastLength left) (← leastLength right)

/-- Whether every match is known to take a character. -/
def takesCharacters (expr : Expr) : Bool :=
  expr.leastLength.any (0 < ·)

/-- At least `least` times, and at most `most` times if that is given. What is always empty is
matched once at most. -/
def repeated (least : Nat) (most : Option Nat) (greedy : Bool) (body : Expr) : Expr :=
  let (least, most) :=
    if body.isAlwaysEmpty then (min least 1, some (min (most.getD 1) 1)) else (least, most)
  if most = some 0 then empty
  else if least = 1 ∧ most = some 1 then body
  else repetition least most greedy body

end Expr

end Pattern

end TaggedSchema
