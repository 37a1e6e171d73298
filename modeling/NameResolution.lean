import NameResolution.Analysis
import NameResolution.Diagnostic.Excerpt
import NameResolution.Diagnostic.OfError
import NameResolution.Diagnostic.Plain
import NameResolution.Interchange.Text
import NameResolution.Interchange.Write
import NameResolution.Json.Parser
import NameResolution.Json.Printer
import NameResolution.Surface.Index
import NameResolution.Syntax.Equality
import NameResolution.Proofs.Nesting
import NameResolution.Proofs.Scope.Binders
import NameResolution.Proofs.Scope.Lexical
import NameResolution.Proofs.Scope.Agreement
import NameResolution.Proofs.Import.Search
import NameResolution.Proofs.Module.Entries
import NameResolution.Proofs.Module.Interface
import NameResolution.Proofs.Analysis.Stages
import NameResolution.Proofs.Scope.Derivation
import NameResolution.Proofs.Scope.Meaning
import NameResolution.Proofs.Scope.Occurrence
import NameResolution.Proofs.Analysis.References
import NameResolution.Proofs.Analysis.Stability
import NameResolution.Proofs.Import.Cycle
import NameResolution.Proofs.Import.Verdict
import NameResolution.Proofs.Analysis.Order
import NameResolution.Proofs.Analysis.BinderNames
import NameResolution.Proofs.Interchange.ReadBack
import NameResolution.Proofs.Scope.Dependence
import NameResolution.Proofs.Analysis.RedundantImport
import NameResolution.Proofs.Analysis.Renaming
import NameResolution.Proofs.Analysis.Diagnostics
import NameResolution.Proofs.Import.Layers
import NameResolution.Proofs.Scope.Depth
import NameResolution.Proofs.Analysis.Limit
import NameResolution.Proofs.Scope.Bare
import NameResolution.Proofs.Analysis.Frame
import NameResolution.Proofs.Analysis.Qualified
import NameResolution.Proofs.Import.CyclePath
import NameResolution.Proofs.Surface.Marks
import NameResolution.Proofs.Tree
import NameResolution.Proofs.Surface.Spans
import NameResolution.Proofs.Position
import NameResolution.Proofs.Surface.Chars
import NameResolution.Proofs.Surface.Lines
import NameResolution.Proofs.Surface.Locations
import NameResolution.Proofs.Surface.Tokens
import NameResolution.Proofs.Surface.Forms
import NameResolution.Proofs.Erasure
import NameResolution.Proofs.Surface.Readable.Type
import NameResolution.Proofs.Surface.Readable.Expr
import NameResolution.Proofs.Surface.Readable.Program
import NameResolution.Proofs.Scope.LongestPrefix
import NameResolution.Proofs.Module.EntriesVerdict
import NameResolution.Proofs.Diagnostic.Topics
import NameResolution.Proofs.Analysis.Ambiguity
import NameResolution.Proofs.Offsets
import NameResolution.Proofs.Analysis.Reexports
import NameResolution.Proofs.Import.DepthFirst
import NameResolution.Proofs.Import.History
import NameResolution.Proofs.Diagnostic.Snippets
