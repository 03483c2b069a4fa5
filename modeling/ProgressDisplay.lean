import ProgressDisplay.Attempt
import ProgressDisplay.CommandLine
import ProgressDisplay.Demo.Run
import ProgressDisplay.Demo.Script
import ProgressDisplay.Live.Display
import ProgressDisplay.Live.DisplayError
import ProgressDisplay.Live.Runner
import ProgressDisplay.Live.Timer
import ProgressDisplay.Log.Directive
import ProgressDisplay.Log.Filter
import ProgressDisplay.Log.Pattern
import ProgressDisplay.Log.Pattern.CharSet
import ProgressDisplay.Log.Pattern.Element
import ProgressDisplay.Log.Pattern.Mode
import ProgressDisplay.Log.Record
import ProgressDisplay.Log.Value
import ProgressDisplay.Main
import ProgressDisplay.Operations.Forest
import ProgressDisplay.Operations.Gauge
import ProgressDisplay.Operations.Headline
import ProgressDisplay.Operations.LineAssignment
import ProgressDisplay.Operations.Protocol
import ProgressDisplay.Operations.Table
import ProgressDisplay.Operations.Tracker
import ProgressDisplay.Proofs.Completion
import ProgressDisplay.Proofs.Live.Actions
import ProgressDisplay.Proofs.Live.Alarms
import ProgressDisplay.Proofs.Live.Batches
import ProgressDisplay.Proofs.Live.Captions
import ProgressDisplay.Proofs.Operations.Exclusive
import ProgressDisplay.Proofs.Operations.History
import ProgressDisplay.Proofs.Operations.Kinship
import ProgressDisplay.Proofs.Operations.Standing
import ProgressDisplay.Proofs.Operations.Trichotomy
import ProgressDisplay.Proofs.Regions.Accuracy
import ProgressDisplay.Proofs.Regions.Actions
import ProgressDisplay.Proofs.Regions.Contents
import ProgressDisplay.Proofs.Regions.Hiding
import ProgressDisplay.Proofs.Regions.OutputKept
import ProgressDisplay.Proofs.Regions.Redraw
import ProgressDisplay.Proofs.Regions.StatusShown
import ProgressDisplay.Proofs.Regions.Steps
import ProgressDisplay.Proofs.Screen.Caret
import ProgressDisplay.Proofs.Screen.ControlSequence
import ProgressDisplay.Proofs.Screen.CursorKnown
import ProgressDisplay.Proofs.Screen.Drawing
import ProgressDisplay.Proofs.Screen.Grid
import ProgressDisplay.Proofs.Screen.Measured
import ProgressDisplay.Proofs.Screen.Terminal
import ProgressDisplay.Proofs.Screen.Transcript
import ProgressDisplay.Regions.AnchoredLine
import ProgressDisplay.Regions.Page
import ProgressDisplay.Regions.StatusBlock
import ProgressDisplay.Screen.Device
import ProgressDisplay.Screen.Emission
import ProgressDisplay.Screen.Pen
import ProgressDisplay.Screen.Position
import ProgressDisplay.Screen.Writer
import ProgressDisplay.Settings.Basic
import ProgressDisplay.Settings.Load
import ProgressDisplay.Style.Basic
import ProgressDisplay.Style.Line
import ProgressDisplay.Style.Scheme
import ProgressDisplay.Text.Alphanumeric
import ProgressDisplay.Text.Blank
import ProgressDisplay.Text.Bytes
import ProgressDisplay.Text.Emoji
import ProgressDisplay.Text.Ligature
import ProgressDisplay.Text.Numeral
import ProgressDisplay.Text.Pieces
import ProgressDisplay.Text.Ranges
import ProgressDisplay.Text.Width
import ProgressDisplay.Toml.DateTime
import ProgressDisplay.Toml.Document
import ProgressDisplay.Toml.Number
import ProgressDisplay.Toml.Quoted
import ProgressDisplay.Toml.Space
import ProgressDisplay.Toml.Table
import ProgressDisplay.Toml.Value
import ProgressDisplay.Proofs.Operations.Ancestry
import ProgressDisplay.Proofs.Operations.FirstServed
import ProgressDisplay.Proofs.Live.Finality
import ProgressDisplay.Proofs.Live.Spacing
import ProgressDisplay.Proofs.Operations.Departures
import ProgressDisplay.Proofs.Style.Truncation
import ProgressDisplay.Proofs.Screen.Delivery
import ProgressDisplay.Proofs.Regions.Delivery
import ProgressDisplay.Proofs.Regions.LineBreaks
import ProgressDisplay.Proofs.Regions.PlainOutput
import ProgressDisplay.Proofs.Live.Inert
import ProgressDisplay.Proofs.Operations.Reversal
import ProgressDisplay.Proofs.Operations.Refusals
import ProgressDisplay.Proofs.Regions.Withdrawal
import ProgressDisplay.Proofs.Live.Reports
import ProgressDisplay.Proofs.Live.Latching
import ProgressDisplay.Proofs.Screen.Rows
import ProgressDisplay.Proofs.Regions.Bookkeeping
import ProgressDisplay.Proofs.Regions.Repetition
import ProgressDisplay.Proofs.Regions.Separation
import ProgressDisplay.Proofs.Screen.Resumption
import ProgressDisplay.Proofs.Regions.Chunks
import ProgressDisplay.Proofs.Style.LongestPrefix
import ProgressDisplay.Proofs.Live.Fitting
import ProgressDisplay.Proofs.Operations.LatestRoot
import ProgressDisplay.Proofs.Screen.Plotter
import ProgressDisplay.Proofs.Screen.Strokes
import ProgressDisplay.Proofs.Regions.Styling
import ProgressDisplay.Proofs.CommandLine
import ProgressDisplay.Proofs.Live.Timeliness
import ProgressDisplay.Proofs.Operations.GaugeReading
import ProgressDisplay.Proofs.Regions.Closing
import ProgressDisplay.Proofs.Live.Overtaking
import ProgressDisplay.Proofs.Live.Overtaking
