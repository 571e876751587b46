import XmlHarvest.Config
import XmlHarvest.Template.Context
import XmlHarvest.Document.Forest
import XmlHarvest.Document.Layout
import XmlHarvest.Proofs.Document.Tree
import XmlHarvest.Proofs.Document.Axes
import XmlHarvest.Proofs.Except
import XmlHarvest.Proofs.Query.Order
import XmlHarvest.Proofs.Query.Plain
import XmlHarvest.Proofs.Extraction.Transparency
import XmlHarvest.Proofs.Extraction.Session
import XmlHarvest.Proofs.Document.Layout
import XmlHarvest.Proofs.Query.Kinds
import XmlHarvest.Proofs.Template.Marks
import XmlHarvest.Proofs.Template.Spelling
import XmlHarvest.Proofs.Template.Extraction
import XmlHarvest.Proofs.Template.Rewriting
import XmlHarvest.Proofs.Query.Words
import XmlHarvest.Proofs.Query.Spelling
import XmlHarvest.Proofs.Query.Descent
import XmlHarvest.Proofs.Query.Parsing
import XmlHarvest.Proofs.Query.Distribution
import XmlHarvest.Proofs.Query.Seam
import XmlHarvest.Proofs.Query.Continuation
import XmlHarvest.Proofs.Query.Joining
import XmlHarvest.Proofs.Template.Names
import XmlHarvest.Proofs.Extraction.Growth
import XmlHarvest.Proofs.Extraction.FirstMatch
import XmlHarvest.Proofs.Extraction.RootPaths
import XmlHarvest.Proofs.Template.Balance
import XmlHarvest.Proofs.Extraction.Faults
import XmlHarvest.Proofs.Binding.Declaration
import XmlHarvest.Proofs.Document.Spelling
import XmlHarvest.Proofs.Number.Nearest
import XmlHarvest.Proofs.Number.Packing
import XmlHarvest.Proofs.Number.Arithmetic
import XmlHarvest.Proofs.Number.Finite
import XmlHarvest.Proofs.Number.Whole
import XmlHarvest.Proofs.Number.Halfway
import XmlHarvest.Proofs.Query.Substring
import XmlHarvest.Proofs.Query.Position
import XmlHarvest.Proofs.Query.Resolution
import XmlHarvest.Proofs.Query.DefaultSpace
import XmlHarvest.Proofs.Query.Focus
import XmlHarvest.Proofs.Query.Condition
import XmlHarvest.Proofs.Query.DoubleSlash
import XmlHarvest.Proofs.Query.Proximity
import XmlHarvest.Proofs.OrderedMap
import XmlHarvest.Proofs.Template.Locales
import XmlHarvest.Proofs.Extraction.Rendering
import XmlHarvest.Proofs.Template.Rounds
import XmlHarvest.Proofs.Query.Converse
import XmlHarvest.Proofs.Query.Union
import XmlHarvest.Proofs.Extraction.Projections
import XmlHarvest.Proofs.Extraction.Identity
import XmlHarvest.Proofs.Document.StringValue
import XmlHarvest.Proofs.Text.Parts
import XmlHarvest.Proofs.Locale
import XmlHarvest.Proofs.Extraction.Settling
import XmlHarvest.Proofs.Extraction.Keys
import XmlHarvest.Proofs.Binding.Resolution
import XmlHarvest.Proofs.Binding.Registry
import XmlHarvest.Proofs.Document.Language
import XmlHarvest.Proofs.Query.Spacing
import XmlHarvest.Proofs.Markup.Reference
import XmlHarvest.Proofs.Query.Occurrence
import XmlHarvest.Proofs.Query.Slice
import XmlHarvest.Proofs.Number.Exact
import XmlHarvest.Proofs.Query.Numeral
import XmlHarvest.Proofs.Query.RoundTrip
