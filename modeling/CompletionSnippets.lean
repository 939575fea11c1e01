import CompletionSnippets.Main
import CompletionSnippets.Proofs.Trimming
import CompletionSnippets.Proofs.Nesting.Balance
import CompletionSnippets.Proofs.Nesting.Scanning
import CompletionSnippets.Proofs.Outline
import CompletionSnippets.Proofs.Signature.Truncation
import CompletionSnippets.Proofs.Nesting.Pieces
import CompletionSnippets.Proofs.Nesting.Listing
import CompletionSnippets.Proofs.Signature.Grammar
import CompletionSnippets.Proofs.Signature.RoundTrip
import CompletionSnippets.Proofs.Signature.Levels
import CompletionSnippets.Proofs.Numerals
import CompletionSnippets.Proofs.Template.Reader
import CompletionSnippets.Proofs.Template.Legible
import CompletionSnippets.Proofs.Joining
import CompletionSnippets.Proofs.Snippet.Legibility
import CompletionSnippets.Proofs.Snippet.Stops
import CompletionSnippets.Proofs.Snippet.ShownText
import CompletionSnippets.Proofs.Nesting.Enclosure
import CompletionSnippets.Proofs.Signature.KeptText
import CompletionSnippets.Proofs.Signature.Assembly
import CompletionSnippets.Proofs.Suggestion.Labels
import CompletionSnippets.Proofs.Signature.Spacing
import CompletionSnippets.Proofs.Snippet.Callback
import CompletionSnippets.Proofs.Snippet.Variadics
import CompletionSnippets.Proofs.Template.Content
import CompletionSnippets.Proofs.Yaml.Reader
import CompletionSnippets.Proofs.Yaml.RoundTrip
import CompletionSnippets.Proofs.Json.Grammar
import CompletionSnippets.Proofs.Json.Scalars
import CompletionSnippets.Proofs.Json.Lexing
import CompletionSnippets.Proofs.Json.Reading
import CompletionSnippets.Proofs.Json.Writing
import CompletionSnippets.Proofs.Report.Json
import CompletionSnippets.Proofs.Candidate.Rendering
import CompletionSnippets.Proofs.Candidate.FieldLines
import CompletionSnippets.Proofs.Directory
import CompletionSnippets.Proofs.Machine
import CompletionSnippets.Proofs.Program
import CompletionSnippets.Proofs.Signature.BalancedText
import CompletionSnippets.Proofs.Signature.Locality
import CompletionSnippets.Proofs.Nesting.Cuts
import CompletionSnippets.Proofs.Outline.Parts
import CompletionSnippets.Proofs.Snippet.BareResults
import CompletionSnippets.Proofs.Yaml.CoreSchema
import CompletionSnippets.Proofs.Nesting.Regrouping
import CompletionSnippets.Proofs.Nesting.Resplitting
import CompletionSnippets.Proofs.Nesting.Matching
import CompletionSnippets.Proofs.Outline.Matching
import CompletionSnippets.Proofs.Candidate.BadRows
import CompletionSnippets.Proofs.CommandLine.Groups
import CompletionSnippets.Proofs.Filter
import CompletionSnippets.Proofs.Utf8
import CompletionSnippets.Proofs.Suggestion.Typed
import CompletionSnippets.Proofs.Json.Extending
import CompletionSnippets.Proofs.Json.Closing
import CompletionSnippets.Proofs.Candidate.CutReplies
import CompletionSnippets.Proofs.Slices
import CompletionSnippets.Proofs.Nesting.Offsets
import CompletionSnippets.Proofs.Signature.Offsets
