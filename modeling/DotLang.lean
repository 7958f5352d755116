import DotLang.Attribute.Attributes
import DotLang.Attribute.Dict
import DotLang.Attribute.Fields
import DotLang.Attribute.Owner
import DotLang.Attribute.Value
import DotLang.Attribute.Vocabulary
import DotLang.Attribute.Word
import DotLang.Graph.Basic
import DotLang.Graph.NodeMap
import DotLang.Graph.OfDocument
import DotLang.Graph.OfText
import DotLang.Graph.OrderedMap
import DotLang.Graph.Subgraph
import DotLang.Graph.Tables
import DotLang.Listing.Lines
import DotLang.Listing.Printing
import DotLang.Listing.Sink
import DotLang.Listing.Text
import DotLang.Main
import DotLang.Number.Basic
import DotLang.Number.Decimal
import DotLang.Number.Text
import DotLang.Source.Diagnostic
import DotLang.Source.Lexer
import DotLang.Source.Position
import DotLang.Source.Rounds
import DotLang.Source.Token
import DotLang.Source.Trivia
import DotLang.Syntax.Descent
import DotLang.Syntax.Document
import DotLang.Syntax.Fault
import DotLang.Syntax.Parser
import DotLang.Syntax.Reading
import DotLang.Text.Alphabetic
import DotLang.Text.Blank
import DotLang.Text.CodePoint
import DotLang.Text.Escape
import DotLang.Text.Lines
import DotLang.Text.Numeric
import DotLang.Text.Printable
import DotLang.Text.Shown
import DotLang.Tool.Files
import DotLang.Tool.Format
import DotLang.Tool.Log
import DotLang.Tool.Options
import DotLang.Proofs.Syntax.Grammar
import DotLang.Proofs.Syntax.Acceptance
import DotLang.Proofs.Attribute.Texts
import DotLang.Proofs.Graph.Forest
import DotLang.Proofs.Graph.Invariant
import DotLang.Proofs.Graph.Reachable
import DotLang.Proofs.Listing.Spelling
import DotLang.Proofs.Listing.Lexemes
import DotLang.Proofs.Listing.Document
import DotLang.Proofs.Listing.Replay
import DotLang.Proofs.Listing.Reread
import DotLang.Proofs.Listing.RoundTrip
import DotLang.Proofs.Listing.FixedPoint
import DotLang.Proofs.Source.LexicalRules
import DotLang.Proofs.Source.Scanning
import DotLang.Proofs.Graph.Acts
import DotLang.Proofs.Graph.Blocks
import DotLang.Proofs.Graph.Consistent
import DotLang.Proofs.Graph.Edges
import DotLang.Proofs.Graph.Nodes
import DotLang.Proofs.Graph.Tree
import DotLang.Proofs.Listing.Placement
import DotLang.Proofs.Listing.Printing
import DotLang.Proofs.Listing.Writing
import DotLang.Proofs.Source.Cutting
import DotLang.Proofs.Syntax.Layout
import DotLang.Proofs.Syntax.Truncation
import DotLang.Proofs.Graph.History
import DotLang.Proofs.Tool.Delivery
import DotLang.Proofs.Syntax.Moves
import DotLang.Proofs.Syntax.Viability
import DotLang.Proofs.Syntax.Conversions
import DotLang.Proofs.Syntax.Caret
import DotLang.Proofs.Source.Rounds
import DotLang.Proofs.Syntax.Descent
import DotLang.Proofs.Syntax.Agreement
import DotLang.Proofs.Attribute.Assigning
import DotLang.Proofs.Attribute.Layering
import DotLang.Proofs.Attribute.Collecting
import DotLang.Proofs.Source.Lookahead
import DotLang.Proofs.Attribute.Differences
import DotLang.Proofs.Graph.Insertion
import DotLang.Proofs.Graph.Members
