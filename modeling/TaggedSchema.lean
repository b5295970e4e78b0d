import TaggedSchema.Agreement.Matcher
import TaggedSchema.Agreement.Normalizer
import TaggedSchema.Agreement.Records
import TaggedSchema.Agreement.Report
import TaggedSchema.Catalog
import TaggedSchema.Command.Arguments
import TaggedSchema.Command.Basic
import TaggedSchema.Decimal.Double
import TaggedSchema.Decimal.Reading
import TaggedSchema.Decimal.Shortest
import TaggedSchema.Document.Basic
import TaggedSchema.Document.Definitions
import TaggedSchema.Document.Options
import TaggedSchema.Document.Printer
import TaggedSchema.Document.Records
import TaggedSchema.Document.Settle
import TaggedSchema.Document.Yaml.Atom
import TaggedSchema.Document.Yaml.Place
import TaggedSchema.Document.Yaml.Reader
import TaggedSchema.Document.Yaml.Scalar
import TaggedSchema.Format.Address
import TaggedSchema.Format.Complaint
import TaggedSchema.Format.Name
import TaggedSchema.Format.Regular
import TaggedSchema.Format.Uuid
import TaggedSchema.Gate
import TaggedSchema.Main
import TaggedSchema.Options
import TaggedSchema.Path.Basic
import TaggedSchema.Path.Parser
import TaggedSchema.Pattern.Basic
import TaggedSchema.Pattern.CharSet
import TaggedSchema.Pattern.Class
import TaggedSchema.Pattern.Expr
import TaggedSchema.Pattern.Flags
import TaggedSchema.Pattern.Layout.Basic
import TaggedSchema.Pattern.Layout.CharSet
import TaggedSchema.Pattern.Layout.PlaceTable
import TaggedSchema.Pattern.Layout.Texts
import TaggedSchema.Pattern.Match
import TaggedSchema.Pattern.Nested
import TaggedSchema.Pattern.Parser
import TaggedSchema.Pattern.Program
import TaggedSchema.Pattern.Replacement
import TaggedSchema.Pattern.Size
import TaggedSchema.Pattern.Token
import TaggedSchema.Rule.Activation
import TaggedSchema.Rule.Basic
import TaggedSchema.Rule.Build
import TaggedSchema.Rule.Error
import TaggedSchema.Rule.Vocabulary
import TaggedSchema.Schema.Basic
import TaggedSchema.Schema.Compile
import TaggedSchema.Schema.Listing
import TaggedSchema.Schema.Plan
import TaggedSchema.Schema.Records
import TaggedSchema.Tag.Basic
import TaggedSchema.Tag.Reader
import TaggedSchema.Tag.Parser
import TaggedSchema.Text.Alphanumeric
import TaggedSchema.Text.Blank
import TaggedSchema.Text.ByteRange
import TaggedSchema.Text.Bytes
import TaggedSchema.Text.CaseFold
import TaggedSchema.Text.Hidden
import TaggedSchema.Text.LowerCase
import TaggedSchema.Text.Numeral
import TaggedSchema.Text.Quoted
import TaggedSchema.Text.Ranges
import TaggedSchema.Text.Word
import TaggedSchema.TypeRef
import TaggedSchema.Universe.Basic
import TaggedSchema.Universe.Resolve
import TaggedSchema.Validation.Check
import TaggedSchema.Validation.Elements
import TaggedSchema.Validation.Fit
import TaggedSchema.Validation.History
import TaggedSchema.Validation.Presence
import TaggedSchema.Validation.Unions
import TaggedSchema.Validation.Walk
import TaggedSchema.Value.Basic
import TaggedSchema.Value.Printer
import TaggedSchema.Value.Reader
import TaggedSchema.Value.Token
import TaggedSchema.Violation
import TaggedSchema.Proofs.Results
import TaggedSchema.Proofs.Catalog
import TaggedSchema.Proofs.Universe.References
import TaggedSchema.Proofs.Universe.Inlining
import TaggedSchema.Proofs.Rule.CutOff
import TaggedSchema.Proofs.Rule.Accepted
import TaggedSchema.Proofs.Rule.Gates
import TaggedSchema.Proofs.Rule.Typing
import TaggedSchema.Proofs.Schema.Compiled
import TaggedSchema.Proofs.Schema.Typing
import TaggedSchema.Proofs.Schema.ListMetadata
import TaggedSchema.Proofs.Schema.Places
import TaggedSchema.Proofs.Schema.Lists
import TaggedSchema.Proofs.Schema.Markers
import TaggedSchema.Proofs.Schema.Reflection
import TaggedSchema.Proofs.Text.Blank
import TaggedSchema.Proofs.Text.Numeral
import TaggedSchema.Proofs.Tag.Grammar
import TaggedSchema.Proofs.Tag.Reading
import TaggedSchema.Proofs.Tag.Printing
import TaggedSchema.Proofs.Tag.Scopes
import TaggedSchema.Proofs.Rule.Inlining
import TaggedSchema.Proofs.Schema.Inlining
import TaggedSchema.Proofs.Value.Inside
import TaggedSchema.Proofs.Value.Canonical
import TaggedSchema.Proofs.Value.Equality
import TaggedSchema.Proofs.Agreement.Pairing
import TaggedSchema.Proofs.Agreement.Verdict
import TaggedSchema.Proofs.Agreement.Conservation
import TaggedSchema.Proofs.Validation.Descent
import TaggedSchema.Proofs.Validation.Comparison
import TaggedSchema.Proofs.Validation.Ratchet
import TaggedSchema.Proofs.Validation.Findings
import TaggedSchema.Proofs.Validation.Gates
import TaggedSchema.Proofs.Validation.Unchanged
import TaggedSchema.Proofs.Validation.CutOff
import TaggedSchema.Proofs.Validation.Chains
import TaggedSchema.Proofs.Validation.Markers
import TaggedSchema.Proofs.Validation.Presence
import TaggedSchema.Proofs.Validation.Inlining
import TaggedSchema.Proofs.Validation.Fields
import TaggedSchema.Proofs.Schema.Unions
import TaggedSchema.Proofs.Validation.Native
import TaggedSchema.Proofs.Universe.Pruning
import TaggedSchema.Proofs.Rule.Pruning
import TaggedSchema.Proofs.Rule.Standing
import TaggedSchema.Proofs.Schema.Pruning
import TaggedSchema.Proofs.Validation.Typing
import TaggedSchema.Proofs.Validation.Pruning
import TaggedSchema.Proofs.Document.Data
import TaggedSchema.Proofs.Path.Grammar
import TaggedSchema.Proofs.Path.WellFormed
import TaggedSchema.Proofs.Document.Violations
import TaggedSchema.Proofs.Path.Keys
import TaggedSchema.Proofs.Validation.Addresses
import TaggedSchema.Proofs.Universe.Signatures
import TaggedSchema.Proofs.Rule.Signatures
import TaggedSchema.Proofs.Schema.Signatures
import TaggedSchema.Proofs.Schema.Isolation
import TaggedSchema.Proofs.Validation.Unions
import TaggedSchema.Proofs.Validation.Added
import TaggedSchema.Proofs.Validation.Moved
import TaggedSchema.Proofs.Agreement.Strictness
import TaggedSchema.Proofs.Rule.Exclusions
import TaggedSchema.Proofs.Validation.Enumeration
import TaggedSchema.Proofs.Universe.Retagging
import TaggedSchema.Proofs.Rule.Retagging
import TaggedSchema.Proofs.Schema.Shaping
import TaggedSchema.Proofs.Schema.Retagging
import TaggedSchema.Proofs.Validation.Retagging
import TaggedSchema.Proofs.Validation.Restrictions
import TaggedSchema.Proofs.Validation.Additive
import TaggedSchema.Proofs.Rule.Splitting
import TaggedSchema.Proofs.Validation.Splitting
import TaggedSchema.Proofs.Validation.Stops
import TaggedSchema.Proofs.Rule.Reordering
import TaggedSchema.Proofs.Schema.Coherence
import TaggedSchema.Proofs.Schema.Reordering
import TaggedSchema.Proofs.Schema.TagOrder
import TaggedSchema.Proofs.Validation.Duplicates
import TaggedSchema.Proofs.Validation.ItemAddresses
import TaggedSchema.Proofs.TypeRef
import TaggedSchema.Proofs.Universe.Resolution
import TaggedSchema.Proofs.Text.Language
import TaggedSchema.Proofs.Path.Syntax
import TaggedSchema.Proofs.Path.Failures
import TaggedSchema.Proofs.Text.Bytes
import TaggedSchema.Proofs.Tag.Failures
import TaggedSchema.Proofs.Tag.Raw
import TaggedSchema.Proofs.Format.Regular
import TaggedSchema.Proofs.Format.Name
import TaggedSchema.Proofs.Decimal.Rounding
import TaggedSchema.Proofs.Validation.Disallowed
import TaggedSchema.Proofs.Validation.IntegerKeys
import TaggedSchema.Proofs.Validation.History
import TaggedSchema.Proofs.Rule.Loosening
import TaggedSchema.Proofs.Schema.Loosening
import TaggedSchema.Proofs.Universe.Acyclic
import TaggedSchema.Proofs.Rule.Failures
import TaggedSchema.Proofs.Schema.Planning
