import TaggedSchema.Format.Regular
import TaggedSchema.Text.Bytes

/-!
# Names

Labels and subdomains of the domain name system, qualified names and label values. Each has a limit
on its size in bytes and a regular expression for its text.
-/

namespace TaggedSchema

/-- What is wrong with a name. -/
inductive NameFault where
  | tooLong (limit : Nat)
  | label
  | subdomain
  | labelValue
  | namePart
  | empty
  deriving DecidableEq

namespace Name

def isLowerAlphanumeric (c : Char) : Bool := c.isLower || c.isDigit

/-- The characters of a label. -/
def isLabelChar (c : Char) : Bool := c == '-' || isLowerAlphanumeric c

/-- The characters of a qualified name. -/
def isQualifiedChar (c : Char) : Bool :=
  c == '-' || c == '_' || c == '.' || c.isAlphanum

/-- Small letters, digits and hyphens; a hyphen neither begins nor ends the label. -/
def label : Regular :=
  .seq (.oneOf isLowerAlphanumeric)
    (.optional (.seq (.star (.oneOf isLabelChar)) (.oneOf isLowerAlphanumeric)))

def labelText : String := "[a-z0-9]([-a-z0-9]*[a-z0-9])?"

/-- Labels with points between them. -/
def subdomain : Regular :=
  .seq label (.star (.seq (.char '.') label))

def subdomainText : String := labelText ++ "(\\." ++ labelText ++ ")*"

/-- Letters, digits and punctuation; no punctuation begins or ends the name. -/
def qualified : Regular :=
  .seq (.optional (.seq (.oneOf Char.isAlphanum) (.star (.oneOf isQualifiedChar))))
    (.oneOf Char.isAlphanum)

def qualifiedText : String := "([A-Za-z0-9][-A-Za-z0-9_.]*)?[A-Za-z0-9]"

def labelLimit : Nat := 63

def subdomainLimit : Nat := 253

/-- The faults of a text that has to fit a limit and an expression. -/
def faults (limit : Nat) (expression : Regular) (mismatch : NameFault) (text : List Char) :
    List NameFault :=
  (if limit < Text.byteSize text then [.tooLong limit] else []) ++
    if expression.accepts text then [] else [mismatch]

def labelFaults (text : List Char) : List NameFault :=
  faults labelLimit label .label text

def subdomainFaults (text : List Char) : List NameFault :=
  faults subdomainLimit subdomain .subdomain text

/-- An empty text is a label value. -/
def labelValueFaults (text : List Char) : List NameFault :=
  if text.isEmpty then [] else faults labelLimit qualified .labelValue text

end Name

/-- The parts of a label key, which a slash separates. -/
inductive KeyPart where
  | domain
  | name
  deriving DecidableEq

def KeyPart.word : KeyPart → String
  | domain => "prefix"
  | name => "name"

/-- What is wrong with a label key, as a whole or in one part. -/
inductive KeyFault where
  | severalSlashes
  | inPart (part : KeyPart) (fault : NameFault)
  deriving DecidableEq

namespace Name

/-- A part of a label key may not be empty. -/
def partFaults (part : KeyPart) (check : List Char → List NameFault) (text : List Char) :
    List KeyFault :=
  (if text.isEmpty then [.empty] else check text).map (.inPart part)

/-- The name of a label key. -/
def keyNameFaults (text : List Char) : List KeyFault :=
  partFaults .name (faults labelLimit qualified .namePart) text

/-- A label key is a name, or a subdomain and a name with a slash between them. A second slash is
the only thing that is said about a key that has one. -/
def labelKeyFaults (text : List Char) : List KeyFault :=
  match text.span (· != '/') with
  | (name, []) => keyNameFaults name
  | (domain, _ :: name) =>
    if name.contains '/' then [.severalSlashes]
    else partFaults .domain subdomainFaults domain ++ keyNameFaults name

end Name

namespace NameFault

def message : NameFault → String
  | tooLong limit => s!"must be no more than {limit} characters"
  | label =>
    "a lowercase RFC 1123 label must consist of lower case alphanumeric characters or '-', " ++
      "and must start and end with an alphanumeric character (e.g. 'my-name', or '123-abc', " ++
      "regex used for validation is '" ++ Name.labelText ++ "')"
  | subdomain =>
    "a lowercase RFC 1123 subdomain must consist of lower case alphanumeric characters, " ++
      "'-' or '.', and must start and end with an alphanumeric character (e.g. " ++
      "'example.com', regex used for validation is '" ++ Name.subdomainText ++ "')"
  | labelValue =>
    "a valid label must be an empty string or consist of alphanumeric characters, '-', " ++
      "'_' or '.', and must start and end with an alphanumeric character (e.g. 'MyValue', " ++
      "or 'my_value', or '12345', regex used for validation is '(" ++ Name.qualifiedText ++ ")?')"
  | namePart =>
    "must consist of alphanumeric characters, '-', '_' or '.', and must " ++
      "start and end with an alphanumeric character (e.g. 'MyName', or 'my.name', or " ++
      "'123-abc', regex used for validation is '" ++ Name.qualifiedText ++ "')"
  | empty => "must be non-empty"

end NameFault

def KeyFault.message : KeyFault → String
  | severalSlashes =>
    "a qualified name must consist of alphanumeric characters, '-', '_' or '.', with an " ++
      "optional DNS subdomain prefix and '/' (e.g. 'example.com/MyName')"
  | inPart part fault => part.word ++ " part " ++ fault.message

end TaggedSchema
