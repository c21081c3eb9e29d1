import LedSketch.Board.ClickQueue
import LedSketch.Board.Clock
import LedSketch.Board.ColorOrder
import LedSketch.Board.Random
import LedSketch.Board.Strip
import LedSketch.Color.Gamma
import LedSketch.Color.Hue
import LedSketch.Color.Level
import LedSketch.Color.Packed
import LedSketch.Host.Event
import LedSketch.Host.Log
import LedSketch.Host.World
import LedSketch.Machine.State
import LedSketch.Machine.Step
import LedSketch.Native.Arguments
import LedSketch.Native.Basic
import LedSketch.Native.Bindings
import LedSketch.Native.Builtin
import LedSketch.Native.Method
import LedSketch.Number.Binary64
import LedSketch.Number.Decimal
import LedSketch.Number.DoubleDouble
import LedSketch.Number.Power
import LedSketch.Number.QuarterTurn
import LedSketch.Number.Radix
import LedSketch.Number.Rounding
import LedSketch.Number.Trigonometry
import LedSketch.Pattern.Basic
import LedSketch.Pattern.Preferred
import LedSketch.Pattern.Search
import LedSketch.Proofs.Board.LastWriter
import LedSketch.Proofs.Host.Announced
import LedSketch.Proofs.Machine.Abreast
import LedSketch.Proofs.Machine.Alike
import LedSketch.Proofs.Machine.Anchored
import LedSketch.Proofs.Machine.Atomic
import LedSketch.Proofs.Machine.Attention
import LedSketch.Proofs.Machine.Calm
import LedSketch.Proofs.Machine.Causes
import LedSketch.Proofs.Machine.Clicks
import LedSketch.Proofs.Machine.Declaring
import LedSketch.Proofs.Machine.Elements
import LedSketch.Proofs.Machine.Executions
import LedSketch.Proofs.Machine.Exits
import LedSketch.Proofs.Machine.Floor
import LedSketch.Proofs.Machine.Followed
import LedSketch.Proofs.Machine.ForLoops
import LedSketch.Proofs.Machine.Handlers
import LedSketch.Proofs.Machine.Jumps
import LedSketch.Proofs.Machine.Lines
import LedSketch.Proofs.Machine.LoopScopes
import LedSketch.Proofs.Machine.Numbered
import LedSketch.Proofs.Machine.Origin
import LedSketch.Proofs.Machine.Past
import LedSketch.Proofs.Machine.PrintedNumbers
import LedSketch.Proofs.Machine.Scoping
import LedSketch.Proofs.Machine.Seats
import LedSketch.Proofs.Machine.Sheltered
import LedSketch.Proofs.Machine.Stale
import LedSketch.Proofs.Machine.Steady
import LedSketch.Proofs.Machine.Trace
import LedSketch.Proofs.Machine.Transition
import LedSketch.Proofs.Machine.Values
import LedSketch.Proofs.Native.Atomic
import LedSketch.Proofs.Native.Call
import LedSketch.Proofs.Native.Composition
import LedSketch.Proofs.Native.Effect
import LedSketch.Proofs.Native.MapRange
import LedSketch.Proofs.Native.Past
import LedSketch.Proofs.Native.PixelColors
import LedSketch.Proofs.Native.Renumbering
import LedSketch.Proofs.Native.Results
import LedSketch.Proofs.Native.Steady
import LedSketch.Proofs.Native.Values
import LedSketch.Proofs.Number.Numerals
import LedSketch.Proofs.Pattern.Flat
import LedSketch.Proofs.Pattern.Matches
import LedSketch.Proofs.Pattern.Pieces
import LedSketch.Proofs.Pattern.Prefers
import LedSketch.Proofs.Pattern.Repetition
import LedSketch.Proofs.Pattern.Starts
import LedSketch.Proofs.Pattern.Taken
import LedSketch.Proofs.Script.AlikeScopes
import LedSketch.Proofs.Script.CallerScopes
import LedSketch.Proofs.Script.Casts
import LedSketch.Proofs.Script.Comparisons
import LedSketch.Proofs.Script.CounterCheck
import LedSketch.Proofs.Script.Counters
import LedSketch.Proofs.Script.Exits
import LedSketch.Proofs.Script.ExpressionsRead
import LedSketch.Proofs.Script.FollowedScopes
import LedSketch.Proofs.Script.FrontEnd
import LedSketch.Proofs.Script.Levels
import LedSketch.Proofs.Script.Lexemes
import LedSketch.Proofs.Script.Occurrence
import LedSketch.Proofs.Script.OpenScopes
import LedSketch.Proofs.Script.OperatorTrees
import LedSketch.Proofs.Script.OrderedScopes
import LedSketch.Proofs.Script.Parsed
import LedSketch.Proofs.Script.ParserLines
import LedSketch.Proofs.Script.PartedScopes
import LedSketch.Proofs.Script.Precedence
import LedSketch.Proofs.Script.Progress
import LedSketch.Proofs.Script.Rearranged
import LedSketch.Proofs.Script.Rendering
import LedSketch.Proofs.Script.Renumbering
import LedSketch.Proofs.Script.Rereading
import LedSketch.Proofs.Script.RoundTrip
import LedSketch.Proofs.Script.Running
import LedSketch.Proofs.Script.ScopeHistory
import LedSketch.Proofs.Script.ScopeLaws
import LedSketch.Proofs.Script.SourceLines
import LedSketch.Proofs.Script.Spellings
import LedSketch.Proofs.Script.StatementsRead
import LedSketch.Proofs.Script.Stores
import LedSketch.Proofs.Script.TokenLines
import LedSketch.Proofs.Script.Writing
import LedSketch.Proofs.Simulation.Announced
import LedSketch.Proofs.Simulation.ArrayLengths
import LedSketch.Proofs.Simulation.Attention
import LedSketch.Proofs.Simulation.CallDepth
import LedSketch.Proofs.Simulation.CallerScopes
import LedSketch.Proofs.Simulation.Chronicle
import LedSketch.Proofs.Simulation.DeclarationOrder
import LedSketch.Proofs.Simulation.Failure
import LedSketch.Proofs.Simulation.GlobalFunctions
import LedSketch.Proofs.Simulation.History
import LedSketch.Proofs.Simulation.Isolation
import LedSketch.Proofs.Simulation.Lifecycle
import LedSketch.Proofs.Simulation.Outcome
import LedSketch.Proofs.Simulation.Poll
import LedSketch.Proofs.Simulation.SerialLines
import LedSketch.Proofs.Simulation.StrayJumps
import LedSketch.Proofs.Simulation.Supersession
import LedSketch.Proofs.Simulation.Twin
import LedSketch.Proofs.Simulation.Updates
import LedSketch.Proofs.Simulation.VirtualTime
import LedSketch.Proofs.Simulation.Watch
import LedSketch.Proofs.Sketch.Alignment
import LedSketch.Proofs.Sketch.Arguments
import LedSketch.Proofs.Sketch.AwaitedDelays
import LedSketch.Proofs.Sketch.BalancedArguments
import LedSketch.Proofs.Sketch.Carried
import LedSketch.Proofs.Sketch.CodeText
import LedSketch.Proofs.Sketch.CommentText
import LedSketch.Proofs.Sketch.Comments
import LedSketch.Proofs.Sketch.Declarations
import LedSketch.Proofs.Sketch.DelayCalls
import LedSketch.Proofs.Sketch.ErasedDeclarations
import LedSketch.Proofs.Sketch.ErasedHeaders
import LedSketch.Proofs.Sketch.Erasure
import LedSketch.Proofs.Sketch.Headers
import LedSketch.Proofs.Sketch.Kept
import LedSketch.Proofs.Sketch.Lines
import LedSketch.Proofs.Sketch.LiteralRun
import LedSketch.Proofs.Sketch.Literals
import LedSketch.Proofs.Sketch.LoweredHeaders
import LedSketch.Proofs.Sketch.Notes
import LedSketch.Proofs.Sketch.Parameters
import LedSketch.Proofs.Sketch.Replaced
import LedSketch.Proofs.Sketch.Scanner
import LedSketch.Proofs.Sketch.StripConstructors
import LedSketch.Proofs.Sketch.StripDeclarations
import LedSketch.Proofs.Sketch.StrippedTokens
import LedSketch.Proofs.Sketch.Stripping
import LedSketch.Proofs.Sketch.Survival
import LedSketch.Proofs.Sketch.Wording
import LedSketch.Proofs.Sketch.Words
import LedSketch.Proofs.Sketch.Wrapping
import LedSketch.Proofs.Sketch.Yields
import LedSketch.Script.Fault
import LedSketch.Script.Heap
import LedSketch.Script.Operation
import LedSketch.Script.Operator
import LedSketch.Script.ParseError
import LedSketch.Script.Parser
import LedSketch.Script.Scope
import LedSketch.Script.Syntax
import LedSketch.Script.Token
import LedSketch.Script.TokenStream
import LedSketch.Script.Tokenizer
import LedSketch.Script.Value
import LedSketch.Simulation.Run
import LedSketch.Simulation.Session
import LedSketch.Simulation.Simulator
import LedSketch.Sketch.Argument
import LedSketch.Sketch.Catalogue
import LedSketch.Sketch.Lexical
import LedSketch.Sketch.Lowering
import LedSketch.Sketch.Note
import LedSketch.Sketch.Rule
import LedSketch.Sketch.Survey
import LedSketch.Sketch.Vocabulary
import LedSketch.Text.CharClass
import LedSketch.Text.EscapedRanges
import LedSketch.Text.Quoted
import LedSketch.Text.WordRanges
