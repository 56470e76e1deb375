import Whitespace.Text.CodePoints
import Whitespace.Text.Decimal
import Whitespace.Text.Quoted
import Whitespace.Text.Unprintable
import Whitespace.Text.Utf8
import Whitespace.Glyph
import Whitespace.Literal
import Whitespace.Operation
import Whitespace.Marker
import Whitespace.Program
import Whitespace.Reading
import Whitespace.Machine.Streams
import Whitespace.Machine.Effect
import Whitespace.Machine.Stack
import Whitespace.Machine.Labels
import Whitespace.Machine.Control
import Whitespace.Machine.State
import Whitespace.Machine.Exchange
import Whitespace.Machine.Step
import Whitespace.Layout
import Whitespace.Listing.Text
import Whitespace.Listing.Json
import Whitespace.Trace
import Whitespace.CommandLine.Arguments
import Whitespace.CommandLine.Files
import Whitespace.CommandLine.Origin
import Whitespace.CommandLine.Request
import Whitespace.CommandLine.Job
import Whitespace.Main
import Whitespace.Proofs.Reading.Encoding
import Whitespace.Proofs.Reading.RoundTrip
import Whitespace.Proofs.Reading.Grammar
import Whitespace.Proofs.Reading.Comments
import Whitespace.Proofs.Reading.Concatenation
import Whitespace.Proofs.Labels.Coverage
import Whitespace.Proofs.Labels.Search
import Whitespace.Proofs.Machine.Calls
import Whitespace.Proofs.Machine.Dispatch
import Whitespace.Proofs.Machine.Outcome
import Whitespace.Proofs.Machine.Spelling
import Whitespace.Proofs.Machine.Subroutines
import Whitespace.Proofs.Machine.HeapWrites
import Whitespace.Proofs.Labels.Frontier
import Whitespace.Proofs.Labels.Eager
import Whitespace.Proofs.Labels.Laziness
import Whitespace.Proofs.Labels.Restart
import Whitespace.Proofs.Machine.Fuel
import Whitespace.Proofs.Machine.Failure
import Whitespace.Proofs.Machine.Extension
import Whitespace.Proofs.Tracing.Traced
import Whitespace.Proofs.Tracing.Transparency
import Whitespace.Proofs.Tracing.Turns
import Whitespace.Proofs.Tracing.Faithful
import Whitespace.Proofs.CommandLine.Loading
import Whitespace.Proofs.CommandLine.Runs
import Whitespace.Proofs.Listing.Targets
import Whitespace.Proofs.Traps.Partial
import Whitespace.Proofs.Traps.Scanner
import Whitespace.Proofs.Traps.Processor
import Whitespace.Proofs.Traps.Yields
import Whitespace.Proofs.Traps.Simulation
import Whitespace.Proofs.Traps.Absence
import Whitespace.Proofs.Machine.StackEffects
import Whitespace.Proofs.Machine.Arithmetic
import Whitespace.Proofs.Literals.Words
import Whitespace.Proofs.Literals.Validation
import Whitespace.Proofs.Literals.Canonical
import Whitespace.Proofs.Literals.LeadingZeros
import Whitespace.Proofs.Styling.Stripping
import Whitespace.Proofs.Styling.Colors
import Whitespace.Proofs.Styling.Columns
import Whitespace.Proofs.Listing.Contents
import Whitespace.Proofs.Tracing.Filtering
import Whitespace.Proofs.Listing.Tokens
import Whitespace.Proofs.Listing.Recovery
import Whitespace.Proofs.CommandLine.Signatures
import Whitespace.Proofs.CommandLine.Matching
import Whitespace.Proofs.CommandLine.Switching
import Whitespace.Proofs.Text.Sequences
import Whitespace.Proofs.Text.Numerals
import Whitespace.Proofs.Exchange.Streams
import Whitespace.Proofs.Exchange.Characters
import Whitespace.Proofs.Exchange.Capacity
import Whitespace.Proofs.Exchange.Echo
import Whitespace.Proofs.Exchange.Lines
