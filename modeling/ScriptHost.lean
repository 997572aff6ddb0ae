import ScriptHost.Action
import ScriptHost.Arity
import ScriptHost.Callable
import ScriptHost.Catalogue
import ScriptHost.Copy
import ScriptHost.Debug
import ScriptHost.Decimal.Layout
import ScriptHost.Decimal.Magnitude
import ScriptHost.Decimal.Places
import ScriptHost.Decimal.Shortest
import ScriptHost.Dict
import ScriptHost.Display
import ScriptHost.Equality
import ScriptHost.Evaluation
import ScriptHost.Fault
import ScriptHost.Heap
import ScriptHost.Kind
import ScriptHost.Library.Basic
import ScriptHost.Library.MathModule
import ScriptHost.Library.Settings
import ScriptHost.Library.TextModule
import ScriptHost.MessagePack
import ScriptHost.Module
import ScriptHost.Native
import ScriptHost.Operator
import ScriptHost.Rejection
import ScriptHost.Signature
import ScriptHost.Text.LetterCase
import ScriptHost.Text.Quoted
import ScriptHost.Text.Reading
import ScriptHost.Text.Search
import ScriptHost.Text.Split
import ScriptHost.Text.Utf8
import ScriptHost.Text.Words
import ScriptHost.Trace.Event
import ScriptHost.Trace.Line
import ScriptHost.Trace.Ring
import ScriptHost.Trace.Tracer
import ScriptHost.Tree
import ScriptHost.Truth
import ScriptHost.Unfolding
import ScriptHost.Unicode.Blank
import ScriptHost.Unicode.CaseContext
import ScriptHost.Unicode.LetterCase
import ScriptHost.Unicode.Ranges
import ScriptHost.Unicode.Standalone
import ScriptHost.Value
import ScriptHost.World
import ScriptHost.Proofs.Path
import ScriptHost.Proofs.Bisimilarity
import ScriptHost.Proofs.FloatBits
import ScriptHost.Proofs.PartialEquivalence
import ScriptHost.Proofs.SameTree
import ScriptHost.Proofs.Observation
import ScriptHost.Proofs.Storing
import ScriptHost.Proofs.CopyIsolation
import ScriptHost.Proofs.CopyShape
import ScriptHost.Proofs.Cycle
import ScriptHost.Proofs.MessagePackReader
import ScriptHost.Proofs.MessagePackRoundTrip
import ScriptHost.Serialization
import ScriptHost.Proofs.SerializationFailure
import ScriptHost.Proofs.EqualValues
import ScriptHost.Proofs.TracerJournal
import ScriptHost.Proofs.WatchedRun
import ScriptHost.Proofs.AppendedRecords
import ScriptHost.Proofs.CallBrackets
import ScriptHost.Proofs.NativeValues
import ScriptHost.Proofs.CallingConvention
import ScriptHost.Proofs.HostLog
import ScriptHost.Proofs.ArrayFrame
import ScriptHost.Proofs.Noninterference
import ScriptHost.Proofs.WrittenPieces
import ScriptHost.Proofs.GuardedWalk
import ScriptHost.Proofs.GuardDiscipline
import ScriptHost.Proofs.OperatorTable
import ScriptHost.Proofs.IntegerArithmetic
import ScriptHost.Proofs.FreshResults
import ScriptHost.Proofs.TextPieces
import ScriptHost.Proofs.TextFunctions
import ScriptHost.Proofs.Splitting
import ScriptHost.Proofs.TraceLines
import ScriptHost.Proofs.ByteOrder
import ScriptHost.Proofs.LastBinding
import ScriptHost.Proofs.RingQueries
import ScriptHost.Proofs.IntegerTexts
import ScriptHost.Proofs.TracerFrame
import ScriptHost.Proofs.ModuleAssembly
import ScriptHost.Proofs.DeclaredModules
import ScriptHost.Proofs.LibrarySettings
import ScriptHost.Proofs.ExactConversion
import ScriptHost.Proofs.CharacterBoundary
import ScriptHost.Proofs.TextSearch
import ScriptHost.Proofs.Concatenation
import ScriptHost.Proofs.WordDecomposition
import ScriptHost.Proofs.RepeatLimit
import ScriptHost.Proofs.TotalOrder
import ScriptHost.Proofs.QuotedReading
import ScriptHost.Proofs.DisplayReading
import ScriptHost.Proofs.Utf8Decoding
import ScriptHost.Proofs.LossyText
import ScriptHost.Proofs.ExactArithmetic
import ScriptHost.Proofs.PowerScaling
import ScriptHost.Proofs.UnguardedRecursion
