import Chronometry.Word
import Chronometry.Ticks
import Chronometry.Number
import Chronometry.Size
import Chronometry.Duration
import Chronometry.Elapsed
import Chronometry.Statistics
import Chronometry.Source
import Chronometry.Bench
import Chronometry.Measurement
import Chronometry.Calibration
import Chronometry.Profile
import Chronometry.Profile.Report
import Chronometry.Repetition
import Chronometry.Session
import Chronometry.Command.Line
import Chronometry.Command.Run
import Chronometry.Main
import Chronometry.Proofs.Waiting
import Chronometry.Proofs.Measuring
import Chronometry.Proofs.ClockTime
import Chronometry.Proofs.CalibrationAccuracy
import Chronometry.Proofs.WaitLength
import Chronometry.Proofs.CalibrationOutcome
import Chronometry.Proofs.History
import Chronometry.Proofs.SessionStep
import Chronometry.Proofs.Bookkeeping
import Chronometry.Proofs.ForeignTokens
import Chronometry.Proofs.LoopSections
import Chronometry.Proofs.Turns
import Chronometry.Proofs.SectionsInTurn
import Chronometry.Proofs.Tracing
import Chronometry.Proofs.LongerWaits
import Chronometry.Proofs.SessionTrace
import Chronometry.Proofs.SessionTime
import Chronometry.Proofs.CounterTime
import Chronometry.Proofs.Numeral
import Chronometry.Proofs.SizeGrammar
import Chronometry.Proofs.DurationGrammar
import Chronometry.Proofs.ElapsedReading
import Chronometry.Proofs.ElapsedForm
import Chronometry.Proofs.FiniteConversion
import Chronometry.Proofs.SampleStream
import Chronometry.Proofs.ExactStatistics
import Chronometry.Proofs.RepetitionProtocol
import Chronometry.Proofs.RepetitionLength
import Chronometry.Proofs.RepetitionBudget
import Chronometry.Proofs.Isolation
import Chronometry.Proofs.CommandSpelling
import Chronometry.Proofs.CharacterCut
import Chronometry.Proofs.TickColumn
