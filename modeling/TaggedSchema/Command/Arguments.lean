import TaggedSchema.Command.Basic

/-!
# Command lines

The arguments of a command line: the name of a command, switches, and options with a value, which
stands in the next argument or behind an equals sign.
-/

namespace TaggedSchema

/-- The arguments after the name of a command. -/
structure Arguments where
  switches : List String
  options : List (String × String)

namespace Arguments

def none : Arguments := ⟨[], []⟩

/-- The switches, which have no value. -/
def switchNames : List String := ["--json", "--by-origin", "--by-value"]

/-- Split an argument at its first equals sign. -/
def splitValue (argument : String) : String × Option String :=
  match argument.toList.span (· != '=') with
  | (name, _ :: value) => (String.ofList name, some (String.ofList value))
  | (name, []) => (String.ofList name, Option.none)

def addOption (arguments : Arguments) (name value : String) : Arguments :=
  { arguments with options := arguments.options ++ [(name, value)] }

/-- Read arguments after those in `done`, where the first one is the value of the option `open?`
if there is one. -/
def readAfter? (done : Arguments) (open? : Option String) : List String → Option Arguments
  | [] => if open?.isSome then Option.none else some done
  | argument :: rest =>
    match open?, splitValue argument with
    | some name, _ => readAfter? (done.addOption name argument) .none rest
    | .none, (name, some value) => readAfter? (done.addOption name value) .none rest
    | .none, (name, .none) =>
      if switchNames.contains name then
        readAfter? { done with switches := done.switches ++ [name] } .none rest
      else readAfter? done (some name) rest

def read? : List String → Option Arguments :=
  readAfter? none .none

def get? (arguments : Arguments) (name : String) : Option String :=
  arguments.options.lookup name

def has (arguments : Arguments) (name : String) : Bool :=
  arguments.switches.contains name

/-- Whether only these options and switches are given. -/
def areAmong (arguments : Arguments) (names : List String) : Bool :=
  (arguments.switches ++ arguments.options.map Prod.fst).all names.contains

end Arguments

/-- The command that the arguments ask for. -/
def Command.ofArguments? : List String → Option Command
  | "compile" :: rest => do
    let given ← Arguments.read? rest
    if given.areAmong ["--schema", "--config", "--json"] then
      let schema ← given.get? "--schema"
      return .compile ⟨schema, given.get? "--config", given.has "--json"⟩
    else none
  | "validate" :: rest => do
    let given ← Arguments.read? rest
    if given.areAmong ["--schema", "--type", "--object", "--old", "--gates", "--config"] then
      let schema ← given.get? "--schema"
      let type ← given.get? "--type"
      let object ← given.get? "--object"
      return .validate
        ⟨schema, type, object, given.get? "--old", given.get? "--gates", given.get? "--config"⟩
    else none
  | "equiv" :: rest => do
    let given ← Arguments.read? rest
    if given.areAmong ["--declarative", "--reference", "--rules", "--by-origin", "--by-value"] then
      let declarative ← given.get? "--declarative"
      let reference ← given.get? "--reference"
      return .agreement
        ⟨declarative, reference, given.get? "--rules", given.has "--by-origin",
          given.has "--by-value"⟩
    else none
  | _ => none

/-- How the commands are called. -/
def Command.usage : String :=
  "usage: compile --schema FILE [--config FILE] [--json]\n" ++
    "       validate --schema FILE --type NAME --object FILE [--old FILE] [--gates FILE] " ++
    "[--config FILE]\n" ++
    "       equiv --declarative FILE --reference FILE [--rules FILE] [--by-origin] [--by-value]\n"

end TaggedSchema
