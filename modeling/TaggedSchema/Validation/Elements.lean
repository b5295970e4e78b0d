import TaggedSchema.Schema.Plan
import TaggedSchema.Violation

/-!
# Elements of lists

How an element is addressed, which element of an earlier list it is compared with, and which
elements repeat others. All three depend on what the elements are identified by.
-/

namespace TaggedSchema

/-- Whether two values have the same key fields. A missing field is null. -/
def sameKeys (keys : List String) (a b : Value) : Bool :=
  keys.all fun key => a.member key == b.member key

/-- The key fields of an object in one text. -/
def keyIdentity? (keys : List String) (item : Value) : Option String :=
  item.members?.map fun _ => renderIdentity (keys.map fun key => (key, item.member key))

namespace ListSemantics

/-- Elements with key fields are addressed by these, others by their position. -/
def elementPath (semantics : ListSemantics) (list : Path) (position : Nat) (item : Value) : Path :=
  match semantics.identity, keyIdentity? semantics.keys item with
  | .keys, some identity => list.key identity
  | _, _ => list.index position

/-- The element of the earlier list that an element is a version of. -/
def counterpart? (semantics : ListSemantics) (earlier : List Value) (item : Value) :
    Option Value :=
  match semantics.identity with
  | .positional => none
  | .value => earlier.find? fun old => old == item
  | .keys => earlier.find? fun old => sameKeys semantics.keys old item

/-- Whether an element repeats one of those before it. Only objects have key fields. -/
def isRepeated (semantics : ListSemantics) (before : List Value) (item : Value) : Bool :=
  match semantics.identity with
  | .positional => false
  | .value => before.any fun other => other == item
  | .keys =>
    item.isObject && before.any fun other => other.isObject && sameKeys semantics.keys other item

/-- One violation for each of `items` that repeats another or one of those before them. -/
def duplicatesAfter (semantics : ListSemantics) (list : Path) (before : List Value) :
    List Value → List Violation
  | [] => []
  | item :: items =>
    let found :=
      if semantics.isRepeated before item then
        [.duplicate (semantics.elementPath list before.length item) item semantics.origin]
      else []
    found ++ duplicatesAfter semantics list (before ++ [item]) items

def duplicates (semantics : ListSemantics) (list : Path) (items : List Value) : List Violation :=
  semantics.duplicatesAfter list [] items

end ListSemantics

end TaggedSchema
