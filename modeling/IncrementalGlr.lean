import IncrementalGlr.CommandLine.Arguments
import IncrementalGlr.CommandLine.Files
import IncrementalGlr.CommandLine.Program
import IncrementalGlr.Description.Basic
import IncrementalGlr.Description.Compiled
import IncrementalGlr.Description.Json
import IncrementalGlr.Diagnostic
import IncrementalGlr.FixedPoint
import IncrementalGlr.Grammar.Blob
import IncrementalGlr.Grammar.Data
import IncrementalGlr.Grammar.LoadError
import IncrementalGlr.Grammar.Table
import IncrementalGlr.Json.Reader
import IncrementalGlr.Lalr.Automaton
import IncrementalGlr.Lalr.First
import IncrementalGlr.Lalr.Item
import IncrementalGlr.Lalr.Table
import IncrementalGlr.Main
import IncrementalGlr.Parse.Options
import IncrementalGlr.Parse.Parser
import IncrementalGlr.Parse.Recovery
import IncrementalGlr.Parse.Reuse
import IncrementalGlr.Parse.Run
import IncrementalGlr.Parse.Stack
import IncrementalGlr.Parse.Step
import IncrementalGlr.Pattern.Basic
import IncrementalGlr.Pattern.CharSet
import IncrementalGlr.Pattern.Expression
import IncrementalGlr.Pattern.Reader
import IncrementalGlr.Pattern.Scan
import IncrementalGlr.Pattern.Search
import IncrementalGlr.PlainGrammar.Basic
import IncrementalGlr.PlainGrammar.Expansion
import IncrementalGlr.PlainGrammar.Terminal
import IncrementalGlr.Proofs.Blob.Boundary
import IncrementalGlr.Proofs.Blob.Compiled
import IncrementalGlr.Proofs.Blob.Corruption
import IncrementalGlr.Proofs.Blob.Normal
import IncrementalGlr.Proofs.Blob.Reader
import IncrementalGlr.Proofs.Blob.RoundTrip
import IncrementalGlr.Proofs.Condense
import IncrementalGlr.Proofs.Condensing.Condensed
import IncrementalGlr.Proofs.Condensing.Kept
import IncrementalGlr.Proofs.Confinement.Lookups
import IncrementalGlr.Proofs.Confinement.Steps
import IncrementalGlr.Proofs.Coverage.History
import IncrementalGlr.Proofs.Coverage.Parse
import IncrementalGlr.Proofs.Coverage.Recovery
import IncrementalGlr.Proofs.Coverage.Session
import IncrementalGlr.Proofs.Cursor.Moves
import IncrementalGlr.Proofs.Cursor.Places
import IncrementalGlr.Proofs.Cursor.Siblings
import IncrementalGlr.Proofs.Cursor.Zipper
import IncrementalGlr.Proofs.Derivation.Parse
import IncrementalGlr.Proofs.Derivation.Progress
import IncrementalGlr.Proofs.Derivation.Recovery
import IncrementalGlr.Proofs.Derivation.Session
import IncrementalGlr.Proofs.Derivation.Stack
import IncrementalGlr.Proofs.Differences.Counterparts
import IncrementalGlr.Proofs.Differences.Ranges
import IncrementalGlr.Proofs.Edits.History
import IncrementalGlr.Proofs.Edits.Parts
import IncrementalGlr.Proofs.Edits.Placement
import IncrementalGlr.Proofs.Edits.Repeated
import IncrementalGlr.Proofs.Edits.Unchanged
import IncrementalGlr.Proofs.Errors.Merged
import IncrementalGlr.Proofs.Errors.Ranges
import IncrementalGlr.Proofs.Errors.Recovery
import IncrementalGlr.Proofs.Errors.Session
import IncrementalGlr.Proofs.FixedPoint
import IncrementalGlr.Proofs.Json.Descriptions
import IncrementalGlr.Proofs.Json.Rules
import IncrementalGlr.Proofs.Json.Text
import IncrementalGlr.Proofs.Json.Values
import IncrementalGlr.Proofs.Lalr.Automaton
import IncrementalGlr.Proofs.Lalr.Bounds
import IncrementalGlr.Proofs.Lalr.Canonical
import IncrementalGlr.Proofs.Lalr.Cells
import IncrementalGlr.Proofs.Lalr.Closed
import IncrementalGlr.Proofs.Lalr.Closure
import IncrementalGlr.Proofs.Lalr.Exact
import IncrementalGlr.Proofs.Lalr.First
import IncrementalGlr.Proofs.Lalr.Kernels
import IncrementalGlr.Proofs.Lalr.LeastSolution
import IncrementalGlr.Proofs.Lalr.Lookaheads
import IncrementalGlr.Proofs.Lalr.Machine
import IncrementalGlr.Proofs.Lalr.Propagation
import IncrementalGlr.Proofs.Lalr.Recognition
import IncrementalGlr.Proofs.Lalr.Resolution
import IncrementalGlr.Proofs.Lalr.Table
import IncrementalGlr.Proofs.Limit
import IncrementalGlr.Proofs.Lookahead.Choice
import IncrementalGlr.Proofs.Lookahead.Scan
import IncrementalGlr.Proofs.Lookahead.Token
import IncrementalGlr.Proofs.Made
import IncrementalGlr.Proofs.Moves
import IncrementalGlr.Proofs.Nodes.Places
import IncrementalGlr.Proofs.Nodes.Spanning
import IncrementalGlr.Proofs.Nodes.Surroundings
import IncrementalGlr.Proofs.Outcome
import IncrementalGlr.Proofs.Plain.Denotation
import IncrementalGlr.Proofs.Plain.Expansion
import IncrementalGlr.Proofs.Plain.Language
import IncrementalGlr.Proofs.Plain.Lookups
import IncrementalGlr.Proofs.Plain.Lowering
import IncrementalGlr.Proofs.Plain.Preferences
import IncrementalGlr.Proofs.Plain.Refusals
import IncrementalGlr.Proofs.Plain.Rewriting
import IncrementalGlr.Proofs.Plain.Terminals
import IncrementalGlr.Proofs.Query.Drafts
import IncrementalGlr.Proofs.Query.Matching
import IncrementalGlr.Proofs.Query.Reading
import IncrementalGlr.Proofs.Query.Runs
import IncrementalGlr.Proofs.Query.Ways
import IncrementalGlr.Proofs.Query.WellFormed
import IncrementalGlr.Proofs.Recoveries.Runs
import IncrementalGlr.Proofs.Recoveries.Steps
import IncrementalGlr.Proofs.Reparsing.Grown
import IncrementalGlr.Proofs.Reparsing.Laid
import IncrementalGlr.Proofs.Reparsing.Replay
import IncrementalGlr.Proofs.Reparsing.Session
import IncrementalGlr.Proofs.Reparsing.Stands
import IncrementalGlr.Proofs.Reparsing.Warm
import IncrementalGlr.Proofs.Restart
import IncrementalGlr.Proofs.Reuse.Frames
import IncrementalGlr.Proofs.Reuse.Offers
import IncrementalGlr.Proofs.Scanning.Characters
import IncrementalGlr.Proofs.Scanning.Lexicon
import IncrementalGlr.Proofs.Scanning.Matches
import IncrementalGlr.Proofs.Scanning.Meaning
import IncrementalGlr.Proofs.Search.Decisive
import IncrementalGlr.Proofs.Search.Machine
import IncrementalGlr.Proofs.Search.Parse
import IncrementalGlr.Proofs.Search.Regular
import IncrementalGlr.Proofs.Search.Schedule
import IncrementalGlr.Proofs.Search.Session
import IncrementalGlr.Proofs.Search.Step
import IncrementalGlr.Proofs.Sharing.Edit
import IncrementalGlr.Proofs.Sharing.Erase
import IncrementalGlr.Proofs.Sharing.History
import IncrementalGlr.Proofs.Sharing.Interning
import IncrementalGlr.Proofs.Sharing.Memory
import IncrementalGlr.Proofs.Sharing.Mirror
import IncrementalGlr.Proofs.Sharing.Run
import IncrementalGlr.Proofs.Sharing.Session
import IncrementalGlr.Proofs.Sharing.Stack
import IncrementalGlr.Proofs.Sharing.Step
import IncrementalGlr.Proofs.Sorting
import IncrementalGlr.Proofs.StackContents
import IncrementalGlr.Proofs.SymbolSet
import IncrementalGlr.Proofs.Symbols.Histories
import IncrementalGlr.Proofs.Symbols.Slots
import IncrementalGlr.Proofs.Table.Compiled
import IncrementalGlr.Proofs.Table.Loaded
import IncrementalGlr.Proofs.Table.Lookup
import IncrementalGlr.Proofs.Table.Packed
import IncrementalGlr.Proofs.Table.Reserved
import IncrementalGlr.Proofs.Termination.Effort
import IncrementalGlr.Proofs.Termination.Hollow
import IncrementalGlr.Proofs.Termination.Session
import IncrementalGlr.Proofs.Termination.Weight
import IncrementalGlr.Proofs.Tiling
import IncrementalGlr.Proofs.TokenRange
import IncrementalGlr.Proofs.Tokens
import IncrementalGlr.Proofs.Utf8
import IncrementalGlr.Proofs.Walks
import IncrementalGlr.Query.Basic
import IncrementalGlr.Query.Error
import IncrementalGlr.Query.Matching
import IncrementalGlr.Query.Reader
import IncrementalGlr.Query.Token
import IncrementalGlr.Rule.Basic
import IncrementalGlr.Rule.Json
import IncrementalGlr.Symbol
import IncrementalGlr.Symbol.Slots
import IncrementalGlr.Text.Basic
import IncrementalGlr.Text.Chunk
import IncrementalGlr.Text.Edit
import IncrementalGlr.Text.Quoted
import IncrementalGlr.Text.Utf8
import IncrementalGlr.Token.Basic
import IncrementalGlr.Token.Lexer
import IncrementalGlr.Tree.Basic
import IncrementalGlr.Tree.Cursor
import IncrementalGlr.Tree.Difference
import IncrementalGlr.Tree.Edit
import IncrementalGlr.Tree.Node
import IncrementalGlr.Tree.Search
import IncrementalGlr.Tree.Store
import IncrementalGlr.Tree.Subtree
import IncrementalGlr.Tree.Walk
import IncrementalGlr.Unicode.Age
import IncrementalGlr.Unicode.Break
import IncrementalGlr.Unicode.CaseFold
import IncrementalGlr.Unicode.Category
import IncrementalGlr.Unicode.Class
import IncrementalGlr.Unicode.Property
import IncrementalGlr.Unicode.Run
import IncrementalGlr.Unicode.Script
