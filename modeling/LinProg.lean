import LinProg.ConstraintReader
import LinProg.DesignationData
import LinProg.HookScript
import LinProg.JsonReader
import LinProg.JsonWriter
import LinProg.OptionsFile
import LinProg.ScriptedEngine
import LinProg.Solving
import LinProg.Proofs.Consistency
import LinProg.Proofs.Conversation
import LinProg.Proofs.Path
import LinProg.Proofs.SessionPath
import LinProg.Proofs.CallOrder
import LinProg.Proofs.FirstFailure
import LinProg.Proofs.BufferedRun
import LinProg.Proofs.ReferenceModel
import LinProg.Proofs.DoubleBits
import LinProg.Proofs.PlainDecimal
import LinProg.Proofs.ShortestReading
import LinProg.Proofs.ConstraintText
import LinProg.Proofs.Factorization
import LinProg.Proofs.NearestDouble
import LinProg.Proofs.NumeralRounding
import LinProg.Proofs.Acceptance
import LinProg.Proofs.ModelInvariant
import LinProg.Proofs.Octets
import LinProg.Proofs.Sentence
import LinProg.Proofs.SpacedText
import LinProg.Proofs.SymbolCut
import LinProg.Proofs.WrittenNumber
import LinProg.Proofs.SessionStages
import LinProg.Proofs.EngineChecks
import LinProg.Proofs.HookFrame
import LinProg.Proofs.DesignationForms
import LinProg.Proofs.ProgramMeaning
import LinProg.Proofs.BinaryColumns
import LinProg.Proofs.LongestNumber
import LinProg.Proofs.SolverOutcome
import LinProg.Proofs.ColumnWrites
import LinProg.Proofs.TypeMarks
import LinProg.Proofs.BoundVectors
import LinProg.Proofs.FirstDefect
import LinProg.Proofs.LastSolve
import LinProg.Proofs.BareSigns
import LinProg.Proofs.MixedInteger
import LinProg.Proofs.SolverSettings
import LinProg.Proofs.ReaderSteps
import LinProg.Proofs.JsonText
import LinProg.Proofs.JsonRoundTrip
import LinProg.Proofs.StoredOptions
