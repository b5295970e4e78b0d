import TaggedSchema.Format.Address
import TaggedSchema.Format.Name
import TaggedSchema.Format.Uuid
import TaggedSchema.Rule.Vocabulary

/-!
# Texts that do not have their format

A text has a format if there are no complaints about it.
-/

namespace TaggedSchema

inductive Complaint where
  | address
  | uuid
  | name (fault : NameFault)
  | key (fault : KeyFault)
  deriving DecidableEq

def Complaint.message : Complaint → String
  | address => "must be a valid IP address, (e.g. 10.9.8.7 or 2001:db8::ffff)"
  | uuid => "must be a lowercase UUID in 8-4-4-4-12 format"
  | name fault => fault.message
  | key fault => fault.message

/-- What is wrong with a text that should have this format. -/
def Format.complaints (format : Format) (text : List Char) : List Complaint :=
  match format with
  | ip => if Address.isAddress text then [] else [.address]
  | uuid => if Uuid.isUuid text then [] else [.uuid]
  | shortName => (Name.labelFaults text).map .name
  | longName => (Name.subdomainFaults text).map .name
  | labelKey => (Name.labelKeyFaults text).map .key
  | labelValue => (Name.labelValueFaults text).map .name

end TaggedSchema
