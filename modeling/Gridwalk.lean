import Gridwalk.Codebox
import Gridwalk.Command
import Gridwalk.CommandLine.Arguments
import Gridwalk.CommandLine.Report
import Gridwalk.Diagnostic
import Gridwalk.FileTree
import Gridwalk.Key
import Gridwalk.Load
import Gridwalk.LoadError
import Gridwalk.Location
import Gridwalk.Log.Journal
import Gridwalk.Log.Level
import Gridwalk.Log.Record
import Gridwalk.Main
import Gridwalk.Outline
import Gridwalk.Plan
import Gridwalk.Proofs.Arithmetic
import Gridwalk.Proofs.BoundedSinks
import Gridwalk.Proofs.CallIsolation
import Gridwalk.Proofs.CallStack
import Gridwalk.Proofs.Cat
import Gridwalk.Proofs.CommandRuns
import Gridwalk.Proofs.Conversations
import Gridwalk.Proofs.Drawing
import Gridwalk.Proofs.ErrorReports
import Gridwalk.Proofs.ExactPointers
import Gridwalk.Proofs.Excerpts
import Gridwalk.Proofs.Export
import Gridwalk.Proofs.FailedSteps
import Gridwalk.Proofs.Flushes
import Gridwalk.Proofs.Grids
import Gridwalk.Proofs.History
import Gridwalk.Proofs.ImportGraph
import Gridwalk.Proofs.Inlining
import Gridwalk.Proofs.LineEnds
import Gridwalk.Proofs.LineLaws
import Gridwalk.Proofs.Literals
import Gridwalk.Proofs.LiveCodeboxes
import Gridwalk.Proofs.Logging
import Gridwalk.Proofs.NestedLoading
import Gridwalk.Proofs.OpenBoxes
import Gridwalk.Proofs.OutlineLaws
import Gridwalk.Proofs.Passages
import Gridwalk.Proofs.PlanTrace
import Gridwalk.Proofs.Provenance
import Gridwalk.Proofs.Reading
import Gridwalk.Proofs.ReadingBack
import Gridwalk.Proofs.Recursion
import Gridwalk.Proofs.RegistryLaws
import Gridwalk.Proofs.Reuse
import Gridwalk.Proofs.StackLocality
import Gridwalk.Proofs.StepLaws
import Gridwalk.Proofs.StraightDown
import Gridwalk.Proofs.StrictLoading
import Gridwalk.Proofs.Tables
import Gridwalk.Proofs.UnitParts
import Gridwalk.Registry
import Gridwalk.Run.Error
import Gridwalk.Run.Frame
import Gridwalk.Run.Machine
import Gridwalk.Run.Program
import Gridwalk.Run.Store
import Gridwalk.Source
import Gridwalk.Stream.Error
import Gridwalk.Stream.Script
import Gridwalk.Stream.Sink
import Gridwalk.Text.Blank
import Gridwalk.Text.CodeRanges
import Gridwalk.Text.Combining
import Gridwalk.Text.Fields
import Gridwalk.Text.Invisible
import Gridwalk.Text.Lines
import Gridwalk.Text.Paint
import Gridwalk.Text.Quoted
import Gridwalk.Text.Trim
import Gridwalk.Text.Unassigned
import Gridwalk.Text.Utf8
import Gridwalk.Word
