import Cron.Main
import Cron.LogLevel
import Cron.Service.Basic
import Cron.Session
import Cron.Json.Printer
import Cron.Proofs.Calendar.Minutes
import Cron.Proofs.Runs.Wall
import Cron.Proofs.Calendar.Years
import Cron.Proofs.Zone.Steady
import Cron.Proofs.Zone.Passes
import Cron.Proofs.Runs.Zone
import Cron.Proofs.Runs.Bounds
import Cron.Proofs.Text.Numeral
import Cron.Proofs.Text.Pieces
import Cron.Proofs.Field.Grammar
import Cron.Proofs.Field.Term
import Cron.Proofs.Field.Token
import Cron.Proofs.Schedule.Grammar
import Cron.Proofs.Readings
import Cron.Proofs.Text.Words
import Cron.Proofs.Text.LowerCase
import Cron.Proofs.Schedule.Search
import Cron.Proofs.Schedule.Normal
import Cron.Proofs.Field.Values
import Cron.Proofs.Schedule.Fields
import Cron.Proofs.Field.Overlong
import Cron.Proofs.Schedule.Faults
import Cron.Proofs.Field.Lookup
import Cron.Proofs.Schedule.Breakdown
import Cron.Proofs.Text.Listed
import Cron.Proofs.Field.Spelling
import Cron.Proofs.Schedule.TimeWords
import Cron.Proofs.Schedule.Sentence
import Cron.Proofs.Field.Written
import Cron.Proofs.Schedule.Table
import Cron.Proofs.Text.Blanks
import Cron.Proofs.Service.Asked
import Cron.Proofs.Service.Agreement
import Cron.Proofs.Runs.Calendar
import Cron.Proofs.Runs.Upcoming
import Cron.Proofs.Service.Cap
import Cron.Proofs.Service.Answers
import Cron.Proofs.Zone.Names
import Cron.Proofs.Moment.Localize
import Cron.Proofs.Runs.Paging
import Cron.Proofs.Runs.SameInstant
import Cron.Proofs.Runs.Elapsed
import Cron.Proofs.Runs.Edge
import Cron.Proofs.Schedule.WordByWord
import Cron.Proofs.Runs.EitherDay
import Cron.Proofs.Schedule.Building
import Cron.Proofs.Wizard.Answers
import Cron.Proofs.Text.Integer
import Cron.Proofs.Duration.Minutes
import Cron.Proofs.Settings.Sections
import Cron.Proofs.Duration.Faults
import Cron.Proofs.Environment.References
import Cron.Proofs.Settings.Layers
import Cron.Proofs.Calendar.Dates
import Cron.Proofs.Runs.Yearly
import Cron.Proofs.Runs.Weekly
import Cron.Proofs.Schedule.Substitution
import Cron.Proofs.Number.Rounding
import Cron.Proofs.Runs.Waiting
import Cron.Proofs.Service.Counts
import Cron.Proofs.Field.Accepted
import Cron.Proofs.Field.LineEnds
import Cron.Proofs.Text.Lines
import Cron.Proofs.Runs.Middle
import Cron.Proofs.CommandLine.Messages
import Cron.Proofs.CommandLine.Endings
import Cron.Proofs.Session
