import SearchScript.Document.Workspace
import SearchScript.Main
import SearchScript.Value.Same
import SearchScript.Proofs.Parse.Rules
import SearchScript.Proofs.Parse.Sound
import SearchScript.Proofs.Parse.Complete
import SearchScript.Proofs.Number.Literal
import SearchScript.Proofs.Parse.Cut
import SearchScript.Proofs.Parse.Inversion
import SearchScript.Proofs.Parse.Shape
import SearchScript.Proofs.Parse.Unfinished
import SearchScript.Proofs.Run.Confinement
import SearchScript.Proofs.Run.Pursuit.Program
import SearchScript.Proofs.Run.Mirror
import SearchScript.Proofs.Run.Speculation
import SearchScript.Proofs.Text.Quoted
import SearchScript.Proofs.Value.Subscript
import SearchScript.Proofs.Token.Written
import SearchScript.Proofs.Parse.Printed
import SearchScript.Proofs.Parse.RoundTrip
import SearchScript.Proofs.Parse.Tolerant
import SearchScript.Proofs.Query.Sorting
import SearchScript.Proofs.Parse.Nesting
import SearchScript.Proofs.Parse.Refusal
import SearchScript.Proofs.Parse.Progress
import SearchScript.Proofs.Run.Agreement
import SearchScript.Proofs.Run.Termination
import SearchScript.Proofs.Parse.Forms
import SearchScript.Proofs.Token.Lossless
import SearchScript.Proofs.Completion.Offered
import SearchScript.Proofs.CommandLine.Printed
import SearchScript.Proofs.Document.Workspace
import SearchScript.Proofs.Query.Commuting
import SearchScript.Proofs.File.RoundTrip
import SearchScript.Proofs.Run.Outlive
import SearchScript.Proofs.Parse.Grouping
import SearchScript.Proofs.Run.Access
import SearchScript.Proofs.Run.Calls
import SearchScript.Proofs.Run.Reading
import SearchScript.Proofs.Run.Listing
import SearchScript.Proofs.Document.Covering
import SearchScript.Proofs.Run.Bindings
import SearchScript.Proofs.Run.Jumps
import SearchScript.Proofs.Run.Modes
import SearchScript.Proofs.Run.Transparency
import SearchScript.Proofs.Run.Desugaring
import SearchScript.Proofs.Run.Quantifiers
import SearchScript.Proofs.Run.Lookup
import SearchScript.Proofs.Number.Radix
import SearchScript.Proofs.Number.Word
import SearchScript.Proofs.Parse.Spacing
import SearchScript.Proofs.Parse.Places
import SearchScript.Proofs.Value.Text
