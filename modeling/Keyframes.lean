import Keyframes.Power
import Keyframes.Text.Blank
import Keyframes.Text.Lines
import Keyframes.Text.Digit
import Keyframes.Text.Case
import Keyframes.Text.Surrogate
import Keyframes.Text.Quoted
import Keyframes.Fault
import Keyframes.Binary.Format
import Keyframes.Binary.Double
import Keyframes.Binary.Single
import Keyframes.Decimal.Basic
import Keyframes.Decimal.Shortest
import Keyframes.Decimal.Significant
import Keyframes.Decimal.Read
import Keyframes.Decimal.FloatText
import Keyframes.Decimal.SingleText
import Keyframes.Number
import Keyframes.Geometry.Rotation
import Keyframes.Json.Value
import Keyframes.Json.Read
import Keyframes.Json.Write
import Keyframes.Action
import Keyframes.RuleTable
import Keyframes.Source.Statement
import Keyframes.Source.Token
import Keyframes.Source.Line
import Keyframes.Source.Program
import Keyframes.Path
import Keyframes.Json.Show
import Keyframes.Bake
import Keyframes.Document
import Keyframes.Script
import Keyframes.Document.Read
import Keyframes.Json.Arith
import Keyframes.World
import Keyframes.Play.Event
import Keyframes.Play.Player
import Keyframes.Play.Trace
import Keyframes.Files.Host
import Keyframes.Files.Tree
import Keyframes.Log
import Keyframes.Files.Load
import Keyframes.Config
import Keyframes.Build
import Keyframes.Cli.Options
import Keyframes.Cli.Command
import Keyframes.Main
import Keyframes.Proofs.Except
import Keyframes.Proofs.Tick
import Keyframes.Proofs.Cycle
import Keyframes.Proofs.Timelines
import Keyframes.Proofs.Refinement
import Keyframes.Proofs.Schedule
import Keyframes.Proofs.Single
import Keyframes.Proofs.Parsed
import Keyframes.Proofs.Reload
import Keyframes.Proofs.Schema
import Keyframes.Proofs.OneLine
import Keyframes.Proofs.LineFaults
import Keyframes.Proofs.Gather
import Keyframes.Proofs.ScriptLines
import Keyframes.Proofs.Framing
import Keyframes.Proofs.EventStream
import Keyframes.Proofs.Observation
import Keyframes.Proofs.Playable
import Keyframes.Proofs.Tracking
import Keyframes.Proofs.Names
import Keyframes.Proofs.PathText
import Keyframes.Proofs.Outputs
import Keyframes.Proofs.Faults
import Keyframes.Proofs.Rounding
import Keyframes.Proofs.Significant
import Keyframes.Proofs.DecimalText
import Keyframes.Proofs.SingleDigits
import Keyframes.Proofs.Footprint
import Keyframes.Proofs.Columns
import Keyframes.Proofs.Margins
import Keyframes.Proofs.TextEscapes
import Keyframes.Proofs.Brackets
import Keyframes.Proofs.Grouping
import Keyframes.Proofs.Interrupted
