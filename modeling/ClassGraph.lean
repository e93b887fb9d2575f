import ClassGraph.Text.Basic
import ClassGraph.Text.Utf8
import ClassGraph.Text.Blank
import ClassGraph.SortedMap
import ClassGraph.Path
import ClassGraph.Name.Basic
import ClassGraph.Name.OfPath
import ClassGraph.Reference
import ClassGraph.Marker
import ClassGraph.Weight
import ClassGraph.Graph.Basic
import ClassGraph.Graph.Indexed
import ClassGraph.Graph.Export
import ClassGraph.Unicode.Span
import ClassGraph.Unicode.Category
import ClassGraph.Unicode.Script
import ClassGraph.Unicode.Property
import ClassGraph.Unicode.Fold
import ClassGraph.Pattern.CharSet
import ClassGraph.Pattern.Named
import ClassGraph.Pattern.Basic
import ClassGraph.Pattern.Match
import ClassGraph.Pattern.Atom
import ClassGraph.Pattern.Bracket
import ClassGraph.Pattern.Reader
import ClassGraph.Selection
import ClassGraph.Stats
import ClassGraph.Event
import ClassGraph.Tally
import ClassGraph.Storage.Basic
import ClassGraph.Storage.Resolve
import ClassGraph.Storage.Change
import ClassGraph.Walk
import ClassGraph.Analysis.Basic
import ClassGraph.Analysis.Run
import ClassGraph.Settings.Json
import ClassGraph.Settings.Basic
import ClassGraph.Graph.File
import ClassGraph.Command.Arguments
import ClassGraph.Command.Request
import ClassGraph.Command.Program
import ClassGraph.Command.Run
import ClassGraph.Main
import ClassGraph.Proofs.Steps
import ClassGraph.Proofs.Text.Occurrence
import ClassGraph.Proofs.Reference.Reads
import ClassGraph.Proofs.Reference.Delimited
import ClassGraph.Proofs.Reference.TypeTree
import ClassGraph.Proofs.Reference.Signature
import ClassGraph.Proofs.Name.Nesting
import ClassGraph.Proofs.Graph.Accumulation
import ClassGraph.Proofs.Graph.Collapse
import ClassGraph.Proofs.Reference.Count
import ClassGraph.Proofs.Tally.Mentions
import ClassGraph.Proofs.Tally.Share
import ClassGraph.Proofs.Analysis.Outcomes
import ClassGraph.Proofs.Walk.Files
import ClassGraph.Proofs.Analysis.Weights
import ClassGraph.Proofs.Analysis.Soundness
import ClassGraph.Proofs.Text.Pieces
import ClassGraph.Proofs.Name.WellFormed
import ClassGraph.Proofs.Name.Agreement
import ClassGraph.Proofs.Analysis.Origins
import ClassGraph.Proofs.Analysis.Exclusion
import ClassGraph.Proofs.Analysis.Naming
import ClassGraph.Proofs.Analysis.Signal
import ClassGraph.Proofs.Analysis.Numbers
import ClassGraph.Proofs.Analysis.Ending
import ClassGraph.Proofs.Analysis.Order
import ClassGraph.Proofs.Storage.Reach
import ClassGraph.Proofs.Storage.Spared
import ClassGraph.Proofs.Analysis.Isolation
import ClassGraph.Proofs.Storage.Outline
import ClassGraph.Proofs.Analysis.Influence
import ClassGraph.Proofs.Settings.Ignored
import ClassGraph.Proofs.Analysis.Monotone
import ClassGraph.Proofs.Name.Reached
import ClassGraph.Proofs.Tally.Lines
import ClassGraph.Proofs.Analysis.Accounting
import ClassGraph.Proofs.Analysis.Log
import ClassGraph.Proofs.Analysis.Shown
import ClassGraph.Proofs.Tally.PerLine
import ClassGraph.Proofs.Text.Decodable
import ClassGraph.Proofs.Graph.Numbering
import ClassGraph.Proofs.Graph.Written
import ClassGraph.Proofs.Reference.Standing
import ClassGraph.Proofs.Reference.Piecewise
import ClassGraph.Proofs.Reference.Trail
import ClassGraph.Proofs.Walk.Descent
import ClassGraph.Proofs.Walk.Exact
import ClassGraph.Proofs.Text.ByteOrder
import ClassGraph.Proofs.Graph.Faithful
import ClassGraph.Proofs.Graph.Tabular
import ClassGraph.Proofs.Pattern.Stretch
import ClassGraph.Proofs.Pattern.Within
import ClassGraph.Proofs.Pattern.Whole
import ClassGraph.Proofs.Settings.Excluded
import ClassGraph.Proofs.Settings.Package
import ClassGraph.Proofs.Name.Folding
import ClassGraph.Proofs.Text.Strict
import ClassGraph.Proofs.Tally.Bounded
import ClassGraph.Proofs.Path.Spelling
import ClassGraph.Proofs.Name.Spelling
import ClassGraph.Proofs.Text.Slice
import ClassGraph.Proofs.Reference.Positions
import ClassGraph.Proofs.Reference.Safety
