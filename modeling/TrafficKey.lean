import TrafficKey.Catalog
import TrafficKey.CommandLine
import TrafficKey.Data.Base64
import TrafficKey.Data.Basic
import TrafficKey.Data.Calendar
import TrafficKey.Data.Json
import TrafficKey.Decimal.Binary
import TrafficKey.Decimal.Fixed
import TrafficKey.Decimal.Read
import TrafficKey.Decimal.Shortest
import TrafficKey.Decimal.Write
import TrafficKey.Definition
import TrafficKey.Diagnostic
import TrafficKey.Digest.Md5
import TrafficKey.Extension
import TrafficKey.Extension.Load
import TrafficKey.Files
import TrafficKey.Format
import TrafficKey.Fuzz.Check
import TrafficKey.Fuzz.Draws
import TrafficKey.Fuzz.Generator
import TrafficKey.Fuzz.Invocation
import TrafficKey.Fuzz.Mutation
import TrafficKey.Fuzz.Run
import TrafficKey.Fuzz.Subject
import TrafficKey.Invocation
import TrafficKey.Main
import TrafficKey.Node
import TrafficKey.Parse.Checker
import TrafficKey.Parse.Direct
import TrafficKey.Parse.Outline
import TrafficKey.Parse.Staged
import TrafficKey.Proofs.Agreement
import TrafficKey.Proofs.Grammar
import TrafficKey.Proofs.Lossless
import TrafficKey.Proofs.Offsets
import TrafficKey.Proofs.Refusals
import TrafficKey.Proofs.RoundTrip
import TrafficKey.Proofs.Runs
import TrafficKey.Proofs.Scanning
import TrafficKey.Proofs.Simulation
import TrafficKey.Proofs.Steps
import TrafficKey.Proofs.WellFormed
import TrafficKey.Registry
import TrafficKey.Session
import TrafficKey.Shape
import TrafficKey.Suggestion
import TrafficKey.Table
import TrafficKey.Tables
import TrafficKey.Text.Blank
import TrafficKey.Text.Digit
import TrafficKey.Text.Distance
import TrafficKey.Text.LowerCase
import TrafficKey.Text.Printable
import TrafficKey.Text.Quoted
import TrafficKey.Text.Split
import TrafficKey.Token
import TrafficKey.View
import TrafficKey.Warning
import TrafficKey.Yaml.Construction
import TrafficKey.Yaml.Cursor
import TrafficKey.Yaml.Fault
import TrafficKey.Yaml.Graph
import TrafficKey.Yaml.Library
import TrafficKey.Yaml.Reader
import TrafficKey.Yaml.Scalar
import TrafficKey.Yaml.ScalarText
import TrafficKey.Yaml.Token
import TrafficKey.Yaml.Writer
import TrafficKey.Proofs.Conservative
import TrafficKey.Proofs.Places
import TrafficKey.Proofs.Conformance
import TrafficKey.Proofs.Accuracy
import TrafficKey.Proofs.Segments
import TrafficKey.Proofs.Additions
import TrafficKey.Proofs.Ranking
import TrafficKey.Proofs.Rearrangement
import TrafficKey.Proofs.Progress
import TrafficKey.Proofs.Nesting
import TrafficKey.Proofs.Frames
import TrafficKey.Proofs.EntryByEntry
import TrafficKey.Proofs.Reporting
import TrafficKey.Proofs.Accessors
import TrafficKey.Proofs.Drawing
import TrafficKey.Proofs.Fuzzing
import TrafficKey.Proofs.CheckerSafety
import TrafficKey.Proofs.Turns
import TrafficKey.Proofs.Halting
import TrafficKey.Proofs.Reuse
import TrafficKey.Proofs.Sessions
import TrafficKey.Proofs.Wording
import TrafficKey.Proofs.Listings
import TrafficKey.Proofs.Margins
import TrafficKey.Proofs.Repetitions
import TrafficKey.Proofs.ArgumentCounts
import TrafficKey.Proofs.EditDistance
import TrafficKey.Proofs.Suggestions
import TrafficKey.Proofs.TreeView
import TrafficKey.Proofs.DataView
import TrafficKey.Proofs.Pieces
import TrafficKey.Proofs.SingleCommands
