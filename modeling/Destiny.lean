import Destiny.Lib.BinaryLog
import Destiny.Lib.Ends
import Destiny.Lib.Enumeration
import Destiny.Lib.ExactMath
import Destiny.Lib.History
import Destiny.Lib.Interleaving
import Destiny.Lib.LineLoop
import Destiny.Lib.Literals
import Destiny.Lib.RunningBest
import Destiny.Lib.Triple
import Destiny.Typedef
import Destiny.InputParameter
import Destiny.Mat
import Destiny.Bank.Basic
import Destiny.Bank.WithoutHtree
import Destiny.Bank.Htree
import Destiny.Bank.Levels
import Destiny.Bank.WithHtree
import Destiny.Bank.Routing
import Destiny.Bank.Capacity
import Destiny.Search.Record
import Destiny.Search.Space
import Destiny.Search.State
import Destiny.Search.Nvsim
import Destiny.Search.Bounds
import Destiny.Search.Invariant
import Destiny.Search.Main
import Destiny.Search.CellSpace
import Destiny.Search.Installed
import Destiny.Search.Provenance
import Destiny.Search.Validity
import Destiny.Search.Found
import Destiny.Search.Printed
import Destiny.Search.WirePins
import Destiny.Search.Layers
import Destiny.Search.Explore
import Destiny.Search.Optimum
import Destiny.Search.Cells
import Destiny.Search.Constrained
import Destiny.Search.Rows
import Destiny.Sweep.AppendRow
import Destiny.MemCell
import Destiny.Config.Reader
import Destiny.Config.Lines
import Destiny.Config.CellFile
import Destiny.Inverse.Param
import Destiny.Inverse.Penalties
import Destiny.Inverse.Design
import Destiny.Inverse.Accepted
import Destiny.Inverse.FalsePenalty
import Destiny.Inverse.Columns
import Destiny.Inverse.Features
import Destiny.Inverse.Parity
import Destiny.Inverse.FeatureParity
import Destiny.Pareto.StepLine
import Destiny.Circuit.WriteEnergy
import Destiny.Circuit.SubArrayPower
import Destiny.Circuit.BitlineCurrent
import Destiny.Circuit.Repeater
import Destiny.Bank.RowDecode
import Destiny.Inverse.PostSnap
import Destiny.Inverse.TagPartition
import Destiny.Lib.Numerals
import Destiny.Sweep.Jobs
import Destiny.Sweep.Stems
import Destiny.Csv.Writer
import Destiny.Csv.Columns
import Destiny.Csv.Layout
import Destiny.Lib.Format
import Destiny.Csv.RoundTrip
import Destiny.Bank.Stacking
import Destiny.Bank.WireLength
import Destiny.Bank.Power
import Destiny.Circuit.PredecodeBlock
import Destiny.Circuit.PredecodeLatency
import Destiny.Circuit.PredecodePower
import Destiny.Search.TagComparator
import Destiny.Inverse.Weights
import Destiny.Lib.Python
import Destiny.Lib.PyFloat
import Destiny.Inverse.SramCorrection
import Destiny.Sweep.CellText
import Destiny.Sweep.CellRoundTrip
import Destiny.Bank.WireCount
import Destiny.Bank.MatStacking
import Destiny.Sweep.CellPrecision
import Destiny.Search.Enumerated
import Destiny.Lib.Grid
import Destiny.Inverse.Vocab
import Destiny.Inverse.VocabBounds
import Destiny.Circuit.OutputDriver
import Destiny.Bank.TSVPower
import Destiny.Sweep.ResumeCount
import Destiny.Sweep.PointFidelity
import Destiny.Circuit.Formula
import Destiny.Circuit.PenalizedRepeater
import Destiny.Csv.Summary
import Destiny.Inverse.Validate
import Destiny.Inverse.Tiers
