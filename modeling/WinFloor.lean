import WinFloor.ApiSet
import WinFloor.Assessment
import WinFloor.Catalog
import WinFloor.Command.Invocation
import WinFloor.Command.Option
import WinFloor.Command.Reading
import WinFloor.Declaration
import WinFloor.Fault
import WinFloor.Files.Entry
import WinFloor.Files.Path
import WinFloor.Files.Tree
import WinFloor.Image.Header
import WinFloor.Image.Section
import WinFloor.Image.View
import WinFloor.Import.Descriptor
import WinFloor.Import.Symbol
import WinFloor.Import.Thunk
import WinFloor.Import.Walk
import WinFloor.Lookup
import WinFloor.Main
import WinFloor.Match
import WinFloor.Metadata.Attribute
import WinFloor.Metadata.Database
import WinFloor.Metadata.Heap
import WinFloor.Metadata.Native
import WinFloor.Metadata.Reader
import WinFloor.Metadata.Root
import WinFloor.Metadata.Stream
import WinFloor.Metadata.Table
import WinFloor.Metadata.Wrapper
import WinFloor.ModuleName
import WinFloor.Octets
import WinFloor.Platform
import WinFloor.Program
import WinFloor.Proofs.Catalog.Lookup
import WinFloor.Proofs.Metadata.Reading
import WinFloor.Report.Color
import WinFloor.Report.Style
import WinFloor.Report.Written
import WinFloor.Text.Blank
import WinFloor.Text.Digit
import WinFloor.Text.Letter
import WinFloor.Text.Lines
import WinFloor.Text.Lowercase
import WinFloor.Text.Numeral
import WinFloor.Text.Quoted
import WinFloor.Text.Record
import WinFloor.Text.Utf8
import WinFloor.Verdict
import WinFloor.Proofs.Metadata.TableSet
import WinFloor.Proofs.Metadata.AttributeValue
import WinFloor.Proofs.Metadata.TableRows
import WinFloor.Proofs.Metadata.Heaps
import WinFloor.Proofs.Metadata.RootStreams
import WinFloor.Proofs.Metadata.Content
import WinFloor.Proofs.Metadata.Joins
import WinFloor.Proofs.Metadata.Declared
import WinFloor.Proofs.Metadata.RoundTrip
import WinFloor.Proofs.Metadata.Scan
import WinFloor.Proofs.Guarded.Image
import WinFloor.Proofs.Guarded.Reading
import WinFloor.Proofs.Guarded.Root
import WinFloor.Proofs.Guarded.Tables
import WinFloor.Proofs.Guarded.Database
import WinFloor.Proofs.Metadata.Faults
import WinFloor.Proofs.Guarded.Loading
import WinFloor.Proofs.Import.SymbolList
import WinFloor.Proofs.Import.Steps
import WinFloor.Proofs.Import.Truncation
import WinFloor.Proofs.Import.Layout
import WinFloor.Proofs.Import.Listing
import WinFloor.Proofs.Text.Lowercase
import WinFloor.Proofs.Catalog.LetterCase
import WinFloor.Proofs.Catalog.Coverage
import WinFloor.Proofs.Verdict.Aggregation
import WinFloor.Proofs.Verdict.Choice
import WinFloor.Proofs.Text.Lines
import WinFloor.Proofs.Text.Table
import WinFloor.Proofs.Text.Record
import WinFloor.Proofs.Report.Table
import WinFloor.Proofs.Report.Pairs
import WinFloor.Proofs.Lookup.Answers
import WinFloor.Proofs.Image.Faults
import WinFloor.Proofs.Image.Complete
import WinFloor.Proofs.Program.Analysis
import WinFloor.Proofs.Image.Agreement
import WinFloor.Proofs.Import.Passage
import WinFloor.Proofs.Import.Rebase
import WinFloor.Proofs.Import.Rebasing
import WinFloor.Proofs.Platform.Build
import WinFloor.Proofs.Metadata.ArgumentForm
import WinFloor.Proofs.Metadata.NamedArguments
import WinFloor.Proofs.Metadata.MethodLists
import WinFloor.Proofs.Image.Stated
import WinFloor.Proofs.Image.Truncation
import WinFloor.Proofs.Image.Overlay
import WinFloor.Proofs.Image.RoundTrip
import WinFloor.Proofs.Metadata.RootListing
import WinFloor.Proofs.Metadata.RowSpans
import WinFloor.Proofs.Text.Blank
import WinFloor.Proofs.Lookup.Padding
import WinFloor.Proofs.Metadata.Wrapper
import WinFloor.Proofs.Files.Path
import WinFloor.Proofs.Program.Pointer
import WinFloor.Proofs.Import.Offers
import WinFloor.Proofs.Import.Isolation
import WinFloor.Proofs.Verdict.Fallback
import WinFloor.Proofs.Metadata.Encodings
import WinFloor.Proofs.Metadata.CodedIndex
import WinFloor.Proofs.Metadata.CursorSteps
