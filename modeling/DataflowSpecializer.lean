import DataflowSpecializer.Main
import DataflowSpecializer.Proofs.Generate.Correctness
import DataflowSpecializer.Proofs.Model.TypeEquations
import DataflowSpecializer.Proofs.Run.Loop
import DataflowSpecializer.Proofs.Run.Names
import DataflowSpecializer.Proofs.Run.Dangling
import DataflowSpecializer.Proofs.Fitness.Sweep
import DataflowSpecializer.Proofs.Analysis.TypeSoundness
import DataflowSpecializer.Proofs.Analysis.Power
import DataflowSpecializer.Proofs.Expression.RoundTrip
import DataflowSpecializer.Proofs.Code.Unboxing
import DataflowSpecializer.Proofs.Run.WellFormed
import DataflowSpecializer.Proofs.Generate.TypeBounds
import DataflowSpecializer.Proofs.Analysis.References
import DataflowSpecializer.Proofs.Model.Schedule
import DataflowSpecializer.Proofs.Analysis.Targets
import DataflowSpecializer.Proofs.Code.Inlining
import DataflowSpecializer.Proofs.Run.Rejection
import DataflowSpecializer.Proofs.Analysis.ArrayTypes
import DataflowSpecializer.Proofs.Model.Failures
