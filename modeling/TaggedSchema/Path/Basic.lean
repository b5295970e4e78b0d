/-!
# Field paths

A path leads from the root of an object to a value inside it, by field names, list positions, and
keys of maps and of lists whose elements have an identity.
-/

namespace TaggedSchema

inductive Segment where
  | field (name : String)
  | index (position : Nat)
  | key (text : String)
  deriving DecidableEq

namespace Segment

/-- Fields come before positions and positions before keys; segments of one kind are in the order
of their contents. -/
def compare : Segment → Segment → Ordering
  | field a, field b => Ord.compare a b
  | field _, _ => .lt
  | index _, field _ => .gt
  | index a, index b => Ord.compare a b
  | index _, key _ => .lt
  | key a, key b => Ord.compare a b
  | key _, _ => .gt

/-- The text of a segment that is not the first of its path. -/
def toText : Segment → String
  | field name => "." ++ name
  | index position => "[" ++ toString position ++ "]"
  | key text => "[" ++ text ++ "]"

end Segment

/-- The segments from the outermost to the innermost; the root path has none. -/
structure Path where
  segments : List Segment
  deriving DecidableEq

namespace Path

def root : Path := ⟨[]⟩

instance : Inhabited Path := ⟨root⟩

def extend (path : Path) (segment : Segment) : Path := ⟨path.segments ++ [segment]⟩

def field (path : Path) (name : String) : Path := path.extend (.field name)

def index (path : Path) (position : Nat) : Path := path.extend (.index position)

def key (path : Path) (text : String) : Path := path.extend (.key text)

def isRoot (path : Path) : Bool := path.segments.isEmpty

def length (path : Path) : Nat := path.segments.length

/-- Whether `path` leads to the value at `outer` or to one inside it. -/
def startsWith (path outer : Path) : Bool :=
  outer.segments.isPrefixOf path.segments

/-- Order by the first segments that differ; of two paths one of which goes on where the other
ends, the shorter comes first. -/
def compareSegments : List Segment → List Segment → Ordering
  | [], [] => .eq
  | [], _ :: _ => .lt
  | _ :: _, [] => .gt
  | a :: as, b :: bs => (a.compare b).then (compareSegments as bs)

def compare (a b : Path) : Ordering :=
  compareSegments a.segments b.segments

/-- The text of the root path. -/
def rootText : String := "<root>"

/-- The text of a path. A field name in front has no point before it. -/
def toText (path : Path) : String :=
  match path.segments with
  | [] => rootText
  | .field name :: rest => name ++ String.join (rest.map Segment.toText)
  | segments => String.join (segments.map Segment.toText)

end Path

end TaggedSchema
