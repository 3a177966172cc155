import Dataflow.Fault
import Dataflow.Bits.Row
import Dataflow.Bits.Join
import Dataflow.Bits.Table
import Dataflow.Text.Record
import Dataflow.Text.CodePoints
import Dataflow.Text.Unprintable
import Dataflow.Text.GraphemeExtend
import Dataflow.Text.Quoted
import Dataflow.Merge
import Dataflow.Trace.Mask
import Dataflow.Graph.Basic
import Dataflow.Graph.ElementIndex
import Dataflow.Graph.View
import Dataflow.Graph.PostOrder
import Dataflow.Graph.Cfg
import Dataflow.Trace.Event
import Dataflow.Trace.Sink
import Dataflow.Analysis.Basic
import Dataflow.Analysis.FlowExit
import Dataflow.Analysis.Solve
import Dataflow.Analysis.Query
import Dataflow.Profile.Backend
import Dataflow.Profile.Profiler
import Dataflow.Sample.Shape
import Dataflow.Sample.Named
import Dataflow.Demo.Report
import Dataflow.Demo.Liveness
import Dataflow.Demo.Scopes
import Dataflow.Demo.Catalog
import Dataflow.Main
import Dataflow.Proofs.Bits.Facts
import Dataflow.Proofs.Graph.Flow
import Dataflow.Proofs.Analysis.Column
import Dataflow.Proofs.Analysis.Sweep
import Dataflow.Proofs.Analysis.FlowExits
import Dataflow.Proofs.Analysis.Run
import Dataflow.Proofs.Analysis.Convergence
import Dataflow.Proofs.Analysis.ColumnIndependence
import Dataflow.Proofs.Analysis.LeastSolution
import Dataflow.Proofs.Graph.History
import Dataflow.Proofs.Graph.Reachable
import Dataflow.Proofs.Graph.VisitingOrder
import Dataflow.Proofs.Analysis.Recording
import Dataflow.Proofs.Analysis.CarryingPaths
import Dataflow.Proofs.Analysis.EdgeKills
import Dataflow.Proofs.Trace.Grammar
import Dataflow.Proofs.Trace.Masking
import Dataflow.Proofs.Trace.Replay
import Dataflow.Proofs.Profile.Nesting
import Dataflow.Proofs.Profile.RunZones
import Dataflow.Proofs.Analysis.Queries
import Dataflow.Proofs.Analysis.Operations
import Dataflow.Proofs.Analysis.Padding
import Dataflow.Proofs.Analysis.Monotonicity
import Dataflow.Proofs.Analysis.Incremental
import Dataflow.Proofs.Analysis.Lockstep
import Dataflow.Proofs.Analysis.Reversal
import Dataflow.Proofs.Graph.Unreached
import Dataflow.Proofs.Analysis.DeadCode
import Dataflow.Proofs.Graph.RecursiveSearch
import Dataflow.Proofs.Graph.FinishingOrder
import Dataflow.Proofs.Analysis.AcyclicFlow
import Dataflow.Proofs.Analysis.RetreatingEdges
import Dataflow.Proofs.Analysis.ShownFacts
import Dataflow.Proofs.Analysis.RecordedFacts
import Dataflow.Proofs.Graph.IndexContents
import Dataflow.Proofs.Analysis.UnchainedExits
import Dataflow.Proofs.Sample.Drawing
import Dataflow.Proofs.Sample.Lines
import Dataflow.Proofs.Graph.LineOrder
import Dataflow.Proofs.Analysis.LoopNests
import Dataflow.Proofs.Sample.Regularity
