import MilkyWay.Foundation.Octree
import MilkyWay.Foundation.Cube
import MilkyWay.Foundation.Fold
import MilkyWay.Foundation.Insertion
import MilkyWay.Foundation.Descent
import MilkyWay.Foundation.Strides
import MilkyWay.Foundation.Ownership
import MilkyWay.Foundation.Subtree
import MilkyWay.Foundation.Placement
import MilkyWay.NBody.Types
import MilkyWay.NBody.Tree
import MilkyWay.NBody.TreeMemory
import MilkyWay.NBody.TreeLoad
import MilkyWay.NBody.TreeMass
import MilkyWay.NBody.TreeThread
import MilkyWay.NBody.TreeBuild
import MilkyWay.NBody.TreeInvariant
import MilkyWay.NBody.TreeCells
import MilkyWay.NBody.Gravity
import MilkyWay.Foundation.Moment
import MilkyWay.NBody.Quadrupole
import MilkyWay.Foundation.Run
import MilkyWay.NBody.Potential
import MilkyWay.NBody.State
import MilkyWay.NBody.Force
import MilkyWay.NBody.Plain
import MilkyWay.NBody.BestLikelihood
import MilkyWay.Foundation.Buffer
import MilkyWay.NBody.Checkpoint
import MilkyWay.NBody.ResumeCL
import MilkyWay.NBody.Incest
import MilkyWay.NBody.BoundingBoxCL
import MilkyWay.NBody.BuildTreeCL
import MilkyWay.NBody.BuildItemsCL
import MilkyWay.NBody.BuildRacesCL
import MilkyWay.NBody.BuildGrowthCL
import MilkyWay.NBody.BuildLaunchesCL
import MilkyWay.NBody.HostBuildCL
import MilkyWay.NBody.SummarizationCL
import MilkyWay.Foundation.StackWalk
import MilkyWay.NBody.ForceCL
import MilkyWay.NBody.PotentialAgreement
import MilkyWay.NBody.Histogram
import MilkyWay.NBody.CreateHistogram
import MilkyWay.NBody.NormalizedHistogram
import MilkyWay.Foundation.Clipping
import MilkyWay.NBody.Outliers
import MilkyWay.Foundation.Sampling
import MilkyWay.NBody.ReverseOrbit
import MilkyWay.NBody.ShiftLMC
import MilkyWay.NBody.OrbitReversal
import MilkyWay.NBody.ExponentialDisks
import MilkyWay.NBody.PotentialEquality
import MilkyWay.Foundation.Rotation
import MilkyWay.Foundation.Traced
import MilkyWay.NBody.BarRotation
import MilkyWay.NBody.DwarfPotential
import MilkyWay.NBody.DwarfSampling
import MilkyWay.Foundation.Scanning
import MilkyWay.NBody.ReadHistogram
import MilkyWay.NBody.HistogramFile
import MilkyWay.NBody.Chisq
import MilkyWay.NBody.PerfectMatch
import MilkyWay.NBody.SimulatedTotal
import MilkyWay.NBody.MismatchedBins
import MilkyWay.NBody.ReadCheckpoint
import MilkyWay.NBody.ResumedRecord
import MilkyWay.NBody.Report
import MilkyWay.NBody.Calibration
import MilkyWay.NBody.Invocation
import MilkyWay.Foundation.Ring
import MilkyWay.NBody.SceneQueue
import MilkyWay.Foundation.Halving
import MilkyWay.Foundation.Kahan
import MilkyWay.Foundation.Lanes
import MilkyWay.Foundation.Stoppable
import MilkyWay.Separation.BatchIndependence
import MilkyWay.Separation.WorkUnits
import MilkyWay.Separation.Conservation
import MilkyWay.Separation.ConservedSums
import MilkyWay.Separation.IntegralResume
import MilkyWay.Separation.Sse2
import MilkyWay.Separation.Forwarded
import MilkyWay.Separation.CheckpointFile
import MilkyWay.Foundation.Simulation
import MilkyWay.NBody.TreeEnlarged
import MilkyWay.Foundation.Bipartite
import MilkyWay.Foundation.Linked
import MilkyWay.Foundation.Transport
import MilkyWay.NBody.Emd
import MilkyWay.NBody.EmdBasis
import MilkyWay.NBody.EmdValues
import MilkyWay.NBody.EmdPointers
import MilkyWay.Foundation.Backtracking
import MilkyWay.NBody.EmdCycle
import MilkyWay.NBody.EmdLoop
import MilkyWay.NBody.EmdPivot
import MilkyWay.NBody.EmdRussel
import MilkyWay.NBody.EmdOptimal
import MilkyWay.NBody.EmdRun
import MilkyWay.Foundation.Drawing
import MilkyWay.NBody.DwarfVelocity
import MilkyWay.NBody.DwarfGenerators
import MilkyWay.NBody.DwarfConservation
import MilkyWay.Foundation.Stencil
import MilkyWay.NBody.DwarfRuns
import MilkyWay.NBody.DwarfRepeat
import MilkyWay.Foundation.Gradient
import MilkyWay.NBody.Densities
import MilkyWay.NBody.CentralDensities
import MilkyWay.NBody.FlatDensities
import MilkyWay.NBody.PotentialDivisors
import MilkyWay.NBody.PotentialEvaluation
import MilkyWay.NBody.PotentialPoisson
import MilkyWay.Foundation.Orthogonal
import MilkyWay.Foundation.Polar
import MilkyWay.Separation.SkyPoints
import MilkyWay.Separation.Transform
import MilkyWay.NBody.HistogramAngles
import MilkyWay.NBody.Hernquist
import MilkyWay.Separation.StarSeparation
import MilkyWay.Separation.SmallStreams
import MilkyWay.Foundation.Compensation
import MilkyWay.Separation.Compensation
import MilkyWay.Foundation.RoundedArithmetic
import MilkyWay.Separation.ProgressReports
import MilkyWay.Foundation.Watched
import MilkyWay.Separation.FindRunSizes
import MilkyWay.Foundation.Reading
import MilkyWay.Separation.ParameterFile
import MilkyWay.Separation.AreaTables
import MilkyWay.Foundation.Tiling
import MilkyWay.NBody.QuadraturePanels
import MilkyWay.NBody.RootBracket
import MilkyWay.Foundation.Unimodal
import MilkyWay.NBody.MaxBracket
import MilkyWay.NBody.MaxDepth
import MilkyWay.Separation.Summarization
import MilkyWay.Util.FixArgv
import MilkyWay.Util.CheckpointWrites
import MilkyWay.Foundation.Lines
import MilkyWay.NBody.ManualBodies
import MilkyWay.Separation.StarTerms
import MilkyWay.NBody.RowsCL
import MilkyWay.NBody.SummationCL
import MilkyWay.NBody.SummationStepsCL
import MilkyWay.NBody.SummationLaunchesCL
import MilkyWay.Foundation.Upper
import MilkyWay.NBody.SortCL
import MilkyWay.NBody.DeviceTreeCL
import MilkyWay.NBody.QuadMomentsCL
import MilkyWay.Foundation.Clock
import MilkyWay.Foundation.Division
import MilkyWay.NBody.BodyOctree
