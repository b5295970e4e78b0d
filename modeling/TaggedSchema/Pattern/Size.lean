import TaggedSchema.Pattern.Expr
import TaggedSchema.Pattern.Layout.CharSet
import TaggedSchema.Pattern.Layout.Texts
import TaggedSchema.Text.Bytes

/-!
# Size of patterns

How much room the automata of a pattern take, which work on bytes. One of them reads forward and
keeps groups; the other reads backward and does not. A pattern is refused when one is too large,
so that counts in a pattern cannot make it grow without bound.
-/

namespace TaggedSchema.Pattern.Expr

open Text

/-- The texts that an expression is a choice of. -/
def texts? (direction : Direction) (expr : Expr) : Option (List (List UInt8)) :=
  expr.branches.mapM fun branch =>
    match branch with
    | text chars => some (direction.bytes chars)
    | _ => none

/-- Where an expression stands in a choice. -/
inductive Branch where
  | alone
  | second
  | later

/-- What is laid out behind a branch: after the second one the states before and after all
branches, and room for a successor for each. -/
def Branch.layout : Branch → Layout
  | alone => some
  | second => Layout.add 2 (2 * choiceSize)
  | later => Layout.add 0 choiceSize

/-- The layout of an expression and of what comes behind it as a branch. -/
def layout (direction : Direction) (branch : Branch) : Expr → Layout
  | alt left right =>
    match branch with
    | .alone =>
      match texts? direction (alt left right) with
      | some texts =>
        Layout.one >=>
          Layout.texts (texts.foldl (fun length text => max length text.length) 0) texts
      | none => layout direction .alone left >=> layout direction .second right
    | branch => layout direction .alone left >=> branch.layout >=> layout direction .later right
  | empty | assertion _ => Layout.one >=> branch.layout
  | text chars => Layout.add (byteSize chars) 0 >=> branch.layout
  | oneOf set => Layout.set direction set >=> branch.layout
  | group _ body =>
    let mark := if direction = .forward then Layout.one else some
    mark >=> layout direction .alone body >=> mark >=> branch.layout
  | seq first second =>
    let first := layout direction .alone first
    let second := layout direction .alone second
    (if direction = .forward then first >=> second else second >=> first) >=> branch.layout
  | repetition least most _ body =>
    let once := layout direction .alone body
    let all := match least, most with
      | 0, none =>
        if body.takesCharacters then Layout.fork >=> once
        else once >=> Layout.fork >=> Layout.fork >=> Layout.one
      | least, none => Layout.times least once >=> Layout.fork
      | 0, some 1 => Layout.fork >=> once >=> Layout.one
      | least, some most =>
        if least = most then Layout.times least once
        else
          (if least = 0 then Layout.one else Layout.times least once) >=> Layout.one >=>
            Layout.times (most - least) (Layout.fork >=> once)
    all >=> branch.layout

/-- Whether a match must satisfy a condition where reading begins. -/
def begins (direction : Direction) (condition : Assertion) : Expr → Bool
  | empty | text _ | oneOf _ => false
  | assertion condition' => condition' = condition
  | group _ body => begins direction condition body
  | repetition least _ _ body => 0 < least && begins direction condition body
  | seq first second =>
    match direction with
    | .forward => begins direction condition first ||
        first.isAlwaysEmpty && begins direction condition second
    | .backward => begins direction condition second ||
        second.isAlwaysEmpty && begins direction condition first
  | alt left right => begins direction condition left && begins direction condition right

/-- The whole automaton. If a match may begin anywhere, three states look for the place. -/
def automaton (direction : Direction) (expr : Expr) : Layout :=
  let edge := match direction with
    | .forward => .textStart
    | .backward => .textEnd
  let search := if expr.begins direction edge then Layout.one
    else Layout.add 3 (2 * choiceSize + rangeSize)
  search >=> (group 0 expr).layout direction .alone >=> Layout.one

/-- Whether there is room for both automata. -/
def fits (expr : Expr) : Bool :=
  ((expr.automaton .forward ⟨0, 0⟩).bind fun _ => expr.automaton .backward ⟨0, 0⟩).isSome

end TaggedSchema.Pattern.Expr
