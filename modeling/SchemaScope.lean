import SchemaScope.Source.Location
import SchemaScope.Script.Node
import SchemaScope.Script.Cursor
import SchemaScope.Script.Lexeme
import SchemaScope.Script.Reader
import SchemaScope.Script.Target
import SchemaScope.Script.Expression
import SchemaScope.Script.Statement
import SchemaScope.Script.Tree
import SchemaScope.Script.Parser
import SchemaScope.Number.Power
import SchemaScope.Number.Binary64
import SchemaScope.Number.Shortest
import SchemaScope.Number.Literal
import SchemaScope.Json.Value
import SchemaScope.Json.Printer
import SchemaScope.Json.Reader
import SchemaScope.Platform.Enumeration
import SchemaScope.Script.Shape
import SchemaScope.Schema.Factory
import SchemaScope.Schema.Caption
import SchemaScope.Schema.BusinessRule
import SchemaScope.Schema.Message
import SchemaScope.Schema.Layout
import SchemaScope.Schema.Section
import SchemaScope.Text.WordChar
import SchemaScope.Text.CaseFold
import SchemaScope.Text.Blank
import SchemaScope.Pattern.Basic
import SchemaScope.Pattern.Reader
import SchemaScope.Digest.Md5
import SchemaScope.Region
import SchemaScope.Highlight
import SchemaScope.Outline
import SchemaScope.File.Path
import SchemaScope.Text.Utf8
import SchemaScope.File.Store
import SchemaScope.Markup.CharacterName
import SchemaScope.Markup.Entity
import SchemaScope.Text.Table
import SchemaScope.Package
import SchemaScope.Resource.Locale
import SchemaScope.Resource.Mention
import SchemaScope.Resource.Set
import SchemaScope.Descriptor
import SchemaScope.Resource.Cache
import SchemaScope.Text.Quoted
import SchemaScope.Json.Decode
import SchemaScope.Codec.Location
import SchemaScope.Codec.HighlightRule
import SchemaScope.Config
import SchemaScope.Event
import SchemaScope.File.Reservation
import SchemaScope.Source.Edit
import SchemaScope.Session
import SchemaScope.World
import SchemaScope.Proofs.Descriptor.SingleBackslash
import SchemaScope.Proofs.Number.Rounding
import SchemaScope.Proofs.Number.ShortestDecimal
import SchemaScope.Proofs.Json.NumberText
import SchemaScope.Proofs.Descriptor.InStep
import SchemaScope.Proofs.Descriptor.Rereading
import SchemaScope.Proofs.Descriptor.Restamp
import SchemaScope.Proofs.Source.Offsets
import SchemaScope.Proofs.Session.Coherence
import SchemaScope.Proofs.Session.Editing
import SchemaScope.Proofs.Session.History
import SchemaScope.Proofs.File.Steps
import SchemaScope.Proofs.File.NormalForm
import SchemaScope.Proofs.Resource.Sources
import SchemaScope.Proofs.Resource.Transparency
import SchemaScope.Proofs.Outline.Addresses
import SchemaScope.Proofs.Outline.Forest
import SchemaScope.Proofs.Descriptor.LastStamp
import SchemaScope.Proofs.Outline.Opening
import SchemaScope.Proofs.Region.Brackets
import SchemaScope.Proofs.Region.Scanning
import SchemaScope.Proofs.Region.Nesting
import SchemaScope.Proofs.Outline.SharedNames
import SchemaScope.Proofs.Script.Places
import SchemaScope.Proofs.Script.Shape
import SchemaScope.Proofs.Script.Reading
import SchemaScope.Proofs.Script.Expressions
import SchemaScope.Proofs.Script.Statements
import SchemaScope.Proofs.Script.Ranges
import SchemaScope.Proofs.Schema.Parentheses
import SchemaScope.Proofs.Schema.Locator
import SchemaScope.Proofs.Schema.Sites
import SchemaScope.Proofs.Schema.Grouping
import SchemaScope.Proofs.Highlight.RuleSummaries
import SchemaScope.Proofs.Outline.Rows
import SchemaScope.Proofs.Outline.Dependencies
import SchemaScope.Proofs.Outline.Identity
import SchemaScope.Proofs.Event.Delivery
import SchemaScope.Proofs.File.Guards
import SchemaScope.Proofs.Session.Saving
import SchemaScope.Proofs.Session.Notifications
import SchemaScope.Proofs.Session.Seclusion
import SchemaScope.Proofs.Highlight.TopDown
import SchemaScope.Proofs.Schema.Bindings
import SchemaScope.Proofs.Schema.Guarding
import SchemaScope.Proofs.Schema.Counterparts
import SchemaScope.Proofs.Schema.Declared
import SchemaScope.Proofs.Schema.Redundancy
import SchemaScope.Proofs.Markup.Decoding
import SchemaScope.Proofs.Resource.Entries
import SchemaScope.Proofs.Resource.Documents
import SchemaScope.Proofs.Resource.Phrases
import SchemaScope.Proofs.Resource.Folders
import SchemaScope.Proofs.Resource.Snippets
import SchemaScope.Proofs.Json.Merging
import SchemaScope.Proofs.Json.Nulls
import SchemaScope.Proofs.Config.Overriding
import SchemaScope.Proofs.Session.Hovering
import SchemaScope.Proofs.Json.Independence
import SchemaScope.Proofs.Resource.Placement
import SchemaScope.Proofs.Highlight.SourceOrder
import SchemaScope.Proofs.Number.Numerals
import SchemaScope.Proofs.Number.ExactValues
import SchemaScope.Proofs.Number.IntegerLiterals
import SchemaScope.Proofs.Outline.Containment
import SchemaScope.Proofs.Codec.RoundTrip
import SchemaScope.Proofs.Script.Traversal
