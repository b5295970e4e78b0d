import TaggedSchema.Agreement.Records
import TaggedSchema.Document.Options
import TaggedSchema.Document.Printer
import TaggedSchema.Schema.Compile
import TaggedSchema.Schema.Listing
import TaggedSchema.Schema.Records
import TaggedSchema.Validation.Walk

/-!
# Commands

What can be done from a command line: compile a schema, validate an object, and compare two lists
of violations. A command reads files by their names and ends with a verdict and what it prints.
-/

namespace TaggedSchema

structure CompileCommand where
  schema : String
  config : Option String
  /-- Print the schema as JSON instead of a listing. -/
  json : Bool

structure ValidateCommand where
  schema : String
  type : String
  object : String
  /-- The earlier version of the object, on update. -/
  old : Option String
  gates : Option String
  config : Option String

structure AgreementCommand where
  declarative : String
  reference : String
  /-- The substitutions of paths. -/
  rules : Option String
  byOrigin : Bool
  byValue : Bool

inductive Command where
  | compile (command : CompileCommand)
  | validate (command : ValidateCommand)
  | agreement (command : AgreementCommand)

/-- The contents of the files that can be read. -/
abbrev Files := String → Option String

/-- How a command that could be carried out has ended. -/
structure CommandOutput where
  isOk : Bool
  stdout : String
  stderr : String

/-- Why a command could not be carried out. -/
inductive CommandError where
  | unreadable (file : String)
  | malformed (file : String)
  | badConfig (file : String)
  | rejected (type : String) (error : CompileError)
  | undefinedType (type : String)
  | unreadableRules (file : String)
  | badRules
  deriving DecidableEq

namespace CommandError

def message : CommandError → String
  | unreadable file => s!"failed to read {file}"
  | malformed file => s!"failed to parse {file}"
  | badConfig file => s!"failed to load compiler config {file}"
  | rejected type error => s!"type '{type}' was rejected: {error.message}"
  | undefinedType type => s!"type '{type}' is not defined in the schema"
  | unreadableRules file => s!"failed to read normalization rules {file}: "
  | badRules => "invalid normalization rules: "

end CommandError

namespace Files

/-- The contents of a file, which has to be a document of a certain kind. -/
def read {α : Type} (files : Files) (decode : Document → Option α) (file : String) :
    Except CommandError α :=
  match files file with
  | none => .error (.unreadable file)
  | some text =>
    match Document.ofYaml? text >>= decode with
    | some content => .ok content
    | none => .error (.malformed file)

/-- The options in a file, if one is named. -/
def options (files : Files) (config : Option String) : Except CommandError Options :=
  match config with
  | none => .ok .default
  | some file =>
    match files file >>= Options.ofYaml? with
    | some options => .ok options
    | none => .error (.badConfig file)

/-- The substitutions in a file, if one is named. -/
def normalizer (files : Files) (rules : Option String) : Except CommandError Normalizer :=
  match rules with
  | none => .ok []
  | some file =>
    match files file with
    | none => .error (.unreadableRules file)
    | some text =>
      match Normalizer.ofYaml? text with
      | some normalizer => .ok normalizer
      | none => .error .badRules

/-- The compilation of a schema file under the options of another file. -/
def compilation (files : Files) (schema : String) (config : Option String) :
    Except CommandError Compilation := do
  let types ← files.read Universe.ofDocument? schema
  let options ← files.options config
  return compile types options

end Files

/-- A document on lines of its own. -/
def Document.page (document : Document) : String :=
  document.indented 0 ++ "\n"

/-- Print the schema, and the errors of the types that are left out of it. -/
def CompileCommand.run (command : CompileCommand) (files : Files) :
    Except CommandError CommandOutput := do
  let compilation ← files.compilation command.schema command.config
  let stdout :=
    if command.json then compilation.schema.toDocument.page else compilation.schema.listing
  let stderr := String.join (compilation.errors.map fun error =>
    "rejected: " ++ error.message ++ "\n")
  return ⟨compilation.isOk, stdout, stderr⟩

/-- Print the violations of an object. Only the type of the object has to be free of errors. -/
def ValidateCommand.run (command : ValidateCommand) (files : Files) :
    Except CommandError CommandOutput := do
  let compilation ← files.compilation command.schema command.config
  match compilation.errors.find? fun error => error.type == command.type with
  | some error => throw (.rejected command.type error)
  | none =>
    let object ← files.read Document.value? command.object
    let old ← command.old.mapM (files.read Document.value?)
    let gates ← match command.gates with
      | some file => files.read GateSnapshot.ofDocument? file
      | none => pure .empty
    match validate compilation.schema command.type gates.isEnabled object old with
    | .ok violations =>
      return ⟨violations.isEmpty, (violationsDocument violations).page, ""⟩
    | .error unknown => throw (.undefinedType unknown.name)

/-- Print how far two lists of violations agree. -/
def AgreementCommand.run (command : AgreementCommand) (files : Files) :
    Except CommandError CommandOutput := do
  let declarative ← files.read violationsOfDocument? command.declarative
  let reference ← files.read violationsOfDocument? command.reference
  let normalizer ← files.normalizer command.rules
  let matcher : Matcher := ⟨command.byOrigin, command.byValue, false⟩
  let report := agreement normalizer matcher declarative reference
  return ⟨report.passes, report.toText, ""⟩

def Command.run (command : Command) (files : Files) : Except CommandError CommandOutput :=
  match command with
  | compile command => command.run files
  | validate command => command.run files
  | agreement command => command.run files

/-- The files that a command reads, if it gets so far. -/
def Command.files : Command → List String
  | compile command => command.schema :: command.config.toList
  | validate command =>
    [command.schema, command.object] ++ command.config.toList ++ command.old.toList ++
      command.gates.toList
  | agreement command => [command.declarative, command.reference] ++ command.rules.toList

end TaggedSchema
