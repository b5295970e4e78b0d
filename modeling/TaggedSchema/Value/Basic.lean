import TaggedSchema.Catalog
import TaggedSchema.Decimal.Double
import TaggedSchema.Text.Numeral

/-!
# JSON values

The data that is validated: JSON values with integers and doubles told apart. The members of an
object stand in name order, each name once, so equality of objects does not depend on the order in
which they were written.
-/

namespace TaggedSchema

/-- An integer and a double are never equal, whatever their values. -/
inductive Number where
  | int (value : Int)
  | float (value : Double)
  deriving DecidableEq

namespace Number

instance : BEq Number where
  beq
    | .int a, .int b => a == b
    | .float a, .float b => a == b
    | _, _ => false

/-- The double nearest to the number. -/
def toDouble? : Number → Option Double
  | int value => Double.ofInt? value
  | float value => some value

def isZero : Number → Bool
  | int value => value == 0
  | float value => value.isZero

/-- Whether the number is an integer that fits a signed word. -/
def isSigned : Number → Bool
  | int value => decide (Text.FitsSigned value)
  | float _ => false

/-- Whether the number is an integer that fits an unsigned word. -/
def isUnsigned : Number → Bool
  | int value => decide (Text.FitsUnsigned value)
  | float _ => false

end Number

inductive Value where
  | null
  | bool (value : Bool)
  | number (value : Number)
  | string (text : String)
  | array (items : List Value)
  | object (members : List (String × Value))
  deriving Inhabited

namespace Value

mutual

/-- Equality of values; numbers of one kind are compared by value. -/
def equal : Value → Value → Bool
  | null, null => true
  | bool a, bool b => a == b
  | number a, number b => a == b
  | string a, string b => a == b
  | array a, array b => equalItems a b
  | object a, object b => equalMembers a b
  | _, _ => false

def equalItems : List Value → List Value → Bool
  | [], [] => true
  | a :: as, b :: bs => equal a b && equalItems as bs
  | _, _ => false

def equalMembers : List (String × Value) → List (String × Value) → Bool
  | [], [] => true
  | (m, a) :: as, (n, b) :: bs => m == n && equal a b && equalMembers as bs
  | _, _ => false

end

instance : BEq Value := ⟨equal⟩

/-- An object with these members, of which a later one replaces an earlier one of the same name. -/
def ofMembers (members : List (String × Value)) : Value :=
  object (Catalog.ofEntries Prod.fst members)

def ofNat (n : Nat) : Value := number (.int n)

def ofInt (n : Int) : Value := number (.int n)

def isNull : Value → Bool
  | null => true
  | _ => false

def isObject : Value → Bool
  | object _ => true
  | _ => false

def items? : Value → Option (List Value)
  | array items => some items
  | _ => none

def members? : Value → Option (List (String × Value))
  | object members => some members
  | _ => none

def text? : Value → Option String
  | string text => some text
  | _ => none

/-- The member of an object under a name, if the value is an object that has it. -/
def member? (value : Value) (name : String) : Option Value :=
  match value with
  | object members => (Catalog.findEntry Prod.fst name members).map Prod.snd
  | _ => none

/-- The member under a name, where a missing one is null. -/
def member (value : Value) (name : String) : Value :=
  (value.member? name).getD null

mutual

/-- Every object has its members in strictly increasing name order. -/
def Canonical : Value → Prop
  | array items => CanonicalItems items
  | object members => Catalog.Sorted Prod.fst members ∧ CanonicalMembers members
  | _ => True

def CanonicalItems : List Value → Prop
  | [] => True
  | item :: items => Canonical item ∧ CanonicalItems items

def CanonicalMembers : List (String × Value) → Prop
  | [] => True
  | (_, value) :: members => Canonical value ∧ CanonicalMembers members

end

end Value

end TaggedSchema
