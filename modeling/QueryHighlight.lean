import QueryHighlight.Lexer.Session
import QueryHighlight.Command.FileTree
import QueryHighlight.Command.Session
import QueryHighlight.Lexer.Refinement
import QueryHighlight.Markup.Tags
import QueryHighlight.Markup.Unescape
import QueryHighlight.Main
import QueryHighlight.Proofs.Unambiguous
import QueryHighlight.Proofs.Tiling
import QueryHighlight.Proofs.Escaping
import QueryHighlight.Proofs.Rendering
import QueryHighlight.Proofs.RoundTrip
import QueryHighlight.Proofs.Reading
import QueryHighlight.Proofs.Shape
import QueryHighlight.Proofs.Concatenation
import QueryHighlight.Proofs.Printing
import QueryHighlight.Proofs.Lookahead
import QueryHighlight.Proofs.Editing
import QueryHighlight.Proofs.Relocation
import QueryHighlight.Proofs.Layout
import QueryHighlight.Proofs.Decoding
import QueryHighlight.Proofs.Faults
import QueryHighlight.Proofs.Interchange
import QueryHighlight.Proofs.Preview
import QueryHighlight.Proofs.Verbosity
import QueryHighlight.Proofs.Encoding
import QueryHighlight.Proofs.Files
import QueryHighlight.Proofs.Answers
import QueryHighlight.Proofs.Sources
import QueryHighlight.Proofs.Progress
import QueryHighlight.Proofs.Characters
import QueryHighlight.Proofs.Operators
import QueryHighlight.Proofs.Absorption
import QueryHighlight.Proofs.Searches
import QueryHighlight.Proofs.Splitting
import QueryHighlight.Proofs.Entities
import QueryHighlight.Proofs.Quoting
import QueryHighlight.Proofs.Listings
import QueryHighlight.Proofs.Styling
import QueryHighlight.Proofs.Selection
