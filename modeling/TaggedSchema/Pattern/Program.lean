import TaggedSchema.Pattern.Expr

/-!
# Programs of patterns

An expression is matched by a program: numbered steps, each of which says where to go on. Between
two characters no step is taken twice. That is what ends the empty turns of a repetition, and it
decides which of several ways counts: the first that comes to a step at a place.
-/

namespace TaggedSchema.Pattern

/-- An end of what a group matches. -/
inductive Mark where
  | opening (number : Nat)
  | closing (number : Nat)
  deriving DecidableEq

inductive Step where
  | char (c : Char) (next : Nat)
  | oneOf (set : CharSet) (next : Nat)
  | assertion (condition : Assertion) (next : Nat)
  | mark (mark : Mark) (next : Nat)
  /-- The first one is tried first. -/
  | fork (first second : Nat)
  | accept

structure Program where
  steps : Array Step
  start : Nat

/-- Builds steps and returns the number of the one to begin with. -/
abbrev Builder := StateM (Array Step) Nat

namespace Builder

def add (step : Step) : Builder :=
  fun steps => (steps.size, steps.push step)

/-- Go on with `body` or with `other`, which a lazy repetition tries first. -/
def forkStep (greedy : Bool) (body other : Nat) : Step :=
  if greedy then .fork body other else .fork other body

def fork (greedy : Bool) (body other : Nat) : Builder :=
  add (forkStep greedy body other)

/-- Something `count` times, given how to do it once before a step. -/
def times (count : Nat) (once : Nat → Builder) (next : Nat) : Builder :=
  match count with
  | 0 => pure next
  | count + 1 => do times count once (← once next)

/-- A turn and the fork after it, which leads to another turn or out of the loop: the step to begin
the first turn with, and the fork. The fork is numbered before the turn that leads to it. -/
def loop (greedy : Bool) (turn : Nat → Builder) (next : Nat) : StateM (Array Step) (Nat × Nat) := do
  let again ← add .accept
  let entry ← turn again
  modify fun steps => steps.setIfInBounds again (forkStep greedy entry next)
  return (entry, again)

end Builder

/-- The steps that match an expression and go on with `next`. A loop that need not be entered begins
with the fork after its turns if every turn takes a character; else it has a fork of its own in
front, because no step is taken twice at a place. -/
def Expr.build : Expr → Nat → Builder
  | empty, next => pure next
  | text chars, next => chars.reverse.foldlM (fun next c => Builder.add (.char c next)) next
  | oneOf set, next => Builder.add (.oneOf set next)
  | assertion condition, next => Builder.add (.assertion condition next)
  | group number body, next => do
    let closing ← Builder.add (.mark (.closing number) next)
    Builder.add (.mark (.opening number) (← build body closing))
  | seq first second, next => do build first (← build second next)
  | alt left right, next => do
    let right ← build right next
    Builder.fork true (← build left next) right
  | repetition least most greedy body, next => do
    let optional (skip next : Nat) : Builder := do Builder.fork greedy (← build body next) skip
    match least, most with
    | least, some most =>
      let entry ← Builder.times (most - least) (optional next) next
      Builder.times least (build body) entry
    | 0, none => do
      let (entry, again) ← Builder.loop greedy (build body) next
      if body.takesCharacters then return again else Builder.fork greedy entry next
    | least + 1, none => do
      let (entry, _) ← Builder.loop greedy (build body) next
      Builder.times least (build body) entry

/-- The whole match is the group with the number zero. -/
def Program.ofExpr (expr : Expr) : Program :=
  let (start, steps) := ((Expr.group 0 expr).build 0).run #[.accept]
  ⟨steps, start⟩

end TaggedSchema.Pattern
