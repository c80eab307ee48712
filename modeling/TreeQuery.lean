import TreeQuery.Binary64.Basic
import TreeQuery.Binary64.Shortest
import TreeQuery.Command.Options
import TreeQuery.Command.Run
import TreeQuery.Decimal.Basic
import TreeQuery.Decimal.Text
import TreeQuery.Document
import TreeQuery.Edit.Append
import TreeQuery.Edit.Basic
import TreeQuery.Edit.Remove
import TreeQuery.Edit.Set
import TreeQuery.Edit.Walk
import TreeQuery.Fault
import TreeQuery.Json.Reader
import TreeQuery.Json.Writer
import TreeQuery.Listing
import TreeQuery.Main
import TreeQuery.Patch
import TreeQuery.Path.Basic
import TreeQuery.Path.Cache
import TreeQuery.Path.Describe
import TreeQuery.Path.Hash
import TreeQuery.Path.Like
import TreeQuery.Path.Parser
import TreeQuery.Path.Scanner
import TreeQuery.Power
import TreeQuery.Query.Eval
import TreeQuery.Query.Function
import TreeQuery.Query.Position
import TreeQuery.Query.Select
import TreeQuery.Regex.Boundaries
import TreeQuery.Regex.CharSet
import TreeQuery.Regex.Classes
import TreeQuery.Regex.Expression
import TreeQuery.Regex.Named
import TreeQuery.Regex.Parser
import TreeQuery.Regex.Program
import TreeQuery.Regex.Properties
import TreeQuery.Stream.Cursor
import TreeQuery.Stream.Extract
import TreeQuery.Text.Blank
import TreeQuery.Text.Quoted
import TreeQuery.Tree.Basic
import TreeQuery.Tree.Entries
import TreeQuery.Tree.Order
import TreeQuery.Tree.Store
import TreeQuery.Unicode.Age
import TreeQuery.Unicode.Case
import TreeQuery.Unicode.Category
import TreeQuery.Unicode.Folding
import TreeQuery.Unicode.Properties
import TreeQuery.Unicode.Runs
import TreeQuery.Unicode.Script
import TreeQuery.Unicode.ScriptExtension
import TreeQuery.Proofs.Json.Grammar
import TreeQuery.Proofs.Json.Reading
import TreeQuery.Proofs.Tree.Everywhere
import TreeQuery.Proofs.Json.Resolving
import TreeQuery.Proofs.Stream.Moves
import TreeQuery.Proofs.Stream.Seeking
import TreeQuery.Proofs.Stream.Loops
import TreeQuery.Proofs.Stream.Deep
import TreeQuery.Proofs.Query.Root
import TreeQuery.Proofs.Stream.Extraction
import TreeQuery.Proofs.Edit.Places
import TreeQuery.Proofs.Edit.Assigning
import TreeQuery.Proofs.Edit.Framing
import TreeQuery.Proofs.Edit.Objects
import TreeQuery.Proofs.Edit.Removing
import TreeQuery.Proofs.Path.Scanning
import TreeQuery.Proofs.Path.Segments
import TreeQuery.Proofs.Path.Pieces
import TreeQuery.Proofs.Path.Brackets
import TreeQuery.Proofs.Path.Spelling
import TreeQuery.Proofs.Listing.Steps
import TreeQuery.Proofs.Listing.Addresses
import TreeQuery.Proofs.Decimal.Digits
import TreeQuery.Proofs.Decimal.Places
import TreeQuery.Proofs.Path.Literals
import TreeQuery.Proofs.Path.FilterText
import TreeQuery.Proofs.Path.FilterReading
import TreeQuery.Proofs.Path.FilterTests
import TreeQuery.Proofs.Path.FilterChaining
import TreeQuery.Proofs.Tree.Address
import TreeQuery.Proofs.Json.Rereading
import TreeQuery.Proofs.Json.Writing
import TreeQuery.Proofs.Path.LikeMatching
import TreeQuery.Proofs.Edit.Refusing
import TreeQuery.Proofs.Edit.Obstacles
import TreeQuery.Proofs.Edit.Moving
import TreeQuery.Proofs.Tree.Slots
import TreeQuery.Proofs.Edit.DeepSlots
import TreeQuery.Proofs.Query.Lists
import TreeQuery.Proofs.Path.References
import TreeQuery.Proofs.Listing.Nodes
import TreeQuery.Proofs.Listing.Texts
import TreeQuery.Proofs.Edit.Commuting
import TreeQuery.Proofs.Edit.Overwriting
import TreeQuery.Proofs.Edit.Deciding
import TreeQuery.Proofs.Path.Bytes
import TreeQuery.Proofs.Path.Boundaries
import TreeQuery.Proofs.Path.WellFormed
import TreeQuery.Proofs.Path.Compiling
import TreeQuery.Proofs.Query.Faults
import TreeQuery.Proofs.Stream.Faults
import TreeQuery.Proofs.Path.Nested
import TreeQuery.Proofs.Tree.Pruning
import TreeQuery.Proofs.Edit.Pruning
import TreeQuery.Proofs.Tree.Sharing
import TreeQuery.Proofs.Listing.Records
import TreeQuery.Proofs.Stream.Splitting
import TreeQuery.Proofs.Stream.Repeating
import TreeQuery.Proofs.Stream.Consumed
import TreeQuery.Proofs.Query.Records
import TreeQuery.Proofs.Edit.Sharing
import TreeQuery.Proofs.Path.Caching
import TreeQuery.Proofs.Edit.Selections
import TreeQuery.Proofs.Edit.FilteredRemoval
import TreeQuery.Proofs.Edit.Descendants
import TreeQuery.Proofs.Query.Missing
import TreeQuery.Proofs.Edit.Patching
import TreeQuery.Proofs.Edit.Appending
import TreeQuery.Proofs.Edit.Spreading
import TreeQuery.Proofs.Query.DocumentOrder
import TreeQuery.Proofs.Tree.Numbers
import TreeQuery.Proofs.Tree.Meaning
import TreeQuery.Proofs.Query.NumberTests
import TreeQuery.Proofs.Query.Extremes
import TreeQuery.Proofs.Query.Slices
import TreeQuery.Proofs.Json.PatchText
import TreeQuery.Proofs.Stream.Containers
import TreeQuery.Proofs.Path.LikeQuoting
import TreeQuery.Proofs.Query.WideSlices
import TreeQuery.Proofs.Edit.SlicePositions
import TreeQuery.Proofs.Stream.ByteScan
import TreeQuery.Proofs.Stream.ByteCursor
import TreeQuery.Proofs.Stream.Mirroring
import TreeQuery.Proofs.Stream.ByteSteps
import TreeQuery.Proofs.Stream.Checking
import TreeQuery.Proofs.Stream.Progress
import TreeQuery.Proofs.Stream.Skipping
