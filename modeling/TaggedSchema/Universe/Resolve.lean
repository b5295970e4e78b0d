import TaggedSchema.Universe.Basic

/-!
# Resolving type references

A reference is resolved by taking off pointers and replacing aliases by what they stand for, until
a scalar, a list, a map or a struct is reached.
-/

namespace TaggedSchema

/-- What is left of a reference without pointers and aliases. -/
inductive Shape where
  | scalar (kind : ScalarKind)
  | slice (element : TypeRef)
  | map (key value : TypeRef)
  | struct (name : String)
  deriving DecidableEq

namespace Shape

def toText : Shape → String
  | scalar kind => kind.name
  | slice element => "[]" ++ element.toText
  | map key value => "map[" ++ key.toText ++ "]" ++ value.toText
  | struct name => "struct " ++ name

def isString : Shape → Bool
  | scalar .string => true
  | _ => false

def isInteger : Shape → Bool
  | scalar kind => kind.isInteger
  | _ => false

def isScalar : Shape → Bool
  | scalar _ => true
  | _ => false

def isSlice : Shape → Bool
  | slice _ => true
  | _ => false

def isMap : Shape → Bool
  | map .. => true
  | _ => false

def structName? : Shape → Option String
  | struct name => some name
  | _ => none

end Shape

structure Resolved where
  shape : Shape
  /-- Whether a pointer was taken off. -/
  nullable : Bool
  /-- The names that were met, outermost first. -/
  named : List String
  deriving DecidableEq

/-- Why a reference has no shape. -/
inductive TypeError where
  | unknownType (name : String)
  | aliasCycle (name : String)
  deriving DecidableEq

def TypeError.message : TypeError → String
  | unknownType name => s!"unknown type '{name}'"
  | aliasCycle name => s!"alias cycle through type '{name}'"

/-- What a reference is once its pointers are off. -/
inductive Pointee where
  | shape (shape : Shape)
  | name (name : String)
  deriving DecidableEq

namespace TypeRef

def isPointer : TypeRef → Bool
  | pointer _ => true
  | _ => false

/-- Take all pointers off. -/
def pointee : TypeRef → Pointee
  | scalar kind => .shape (.scalar kind)
  | pointer target => target.pointee
  | slice element => .shape (.slice element)
  | map key value => .shape (.map key value)
  | named name => .name name

end TypeRef

namespace Universe

/-- Go on resolving after the names in `met`. Every alias that is replaced is one of the
definitions not met before, of which there are at most `spare`. -/
def follow (types : Universe) (spare : Nat) (met : List String) (nullable : Bool)
    (ref : TypeRef) : Except TypeError Resolved :=
  match ref.pointee with
  | .shape shape => .ok ⟨shape, nullable || ref.isPointer, met⟩
  | .name name =>
    if met.contains name then .error (.aliasCycle name)
    else
      match types.get? name with
      | none => .error (.unknownType name)
      | some type =>
        match type.body, spare with
        | .struct _, _ => .ok ⟨.struct name, nullable || ref.isPointer, met ++ [name]⟩
        | .alias underlying _, spare + 1 =>
          follow types spare (met ++ [name]) (nullable || ref.isPointer) underlying
        | .alias .., 0 => .error (.aliasCycle name)

/-- The shape of a reference. Meeting a name twice is an error, as is a name without a
definition. -/
def resolve (types : Universe) (ref : TypeRef) : Except TypeError Resolved :=
  follow types types.size [] false ref

end Universe

end TaggedSchema
