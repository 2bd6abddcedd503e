import GuardedConsole.Argument.Scan
import GuardedConsole.Calendar.Arity
import GuardedConsole.Calendar.Basic
import GuardedConsole.Calendar.Event
import GuardedConsole.Calendar.EventData
import GuardedConsole.Calendar.EventMethod
import GuardedConsole.Calendar.Store
import GuardedConsole.Calendar.UndoHistory
import GuardedConsole.Calendar.Workbench
import GuardedConsole.Chat
import GuardedConsole.Command.Grammar
import GuardedConsole.CommandLine.Classification
import GuardedConsole.CommandLine.Session
import GuardedConsole.Console.Basic
import GuardedConsole.Console.Completion
import GuardedConsole.Console.History
import GuardedConsole.Console.Rendering
import GuardedConsole.Console.StateFile
import GuardedConsole.Encoding
import GuardedConsole.Failure
import GuardedConsole.Interpreter.Basic
import GuardedConsole.Interpreter.Host
import GuardedConsole.Json.Basic
import GuardedConsole.Json.Reader
import GuardedConsole.Main
import GuardedConsole.Named
import GuardedConsole.Number.Binary64
import GuardedConsole.Number.Digits
import GuardedConsole.Number.Shortest
import GuardedConsole.Outcome
import GuardedConsole.Proofs.Argument.Quoting
import GuardedConsole.Proofs.Argument.Scanning
import GuardedConsole.Proofs.Command.Grammar
import GuardedConsole.Proofs.Command.Printing
import GuardedConsole.Proofs.Interpreter.Permission
import GuardedConsole.Proofs.Interpreter.Recording
import GuardedConsole.Proofs.Number.Digits
import GuardedConsole.Proofs.Screening.Matching
import GuardedConsole.Proofs.Screening.Normalizing
import GuardedConsole.Report.Reporter
import GuardedConsole.Screening.DenyList
import GuardedConsole.Screening.Pattern
import GuardedConsole.Screening.Samples
import GuardedConsole.Text.Basic
import GuardedConsole.Text.CodePoint
import GuardedConsole.Text.LetterCase
import GuardedConsole.Text.Printable
import GuardedConsole.Text.Quoted
import GuardedConsole.Text.Word
import GuardedConsole.Time.Civil
import GuardedConsole.Time.Epoch
import GuardedConsole.Time.Iso
import GuardedConsole.Time.Literal
import GuardedConsole.Time.Moment
import GuardedConsole.Time.Spelled
import GuardedConsole.Time.Written
import GuardedConsole.Value.Basic
import GuardedConsole.Value.Dictionary
import GuardedConsole.Value.Display
import GuardedConsole.Value.Literal
import GuardedConsole.Value.Sanitize
import GuardedConsole.World.Basic
import GuardedConsole.World.Call
import GuardedConsole.World.Look
import GuardedConsole.Proofs.Value.Data
import GuardedConsole.Proofs.Calendar.Soundness
import GuardedConsole.Proofs.Calendar.Failing
import GuardedConsole.Proofs.Session.Running
import GuardedConsole.Proofs.Session.Dispatch
import GuardedConsole.Proofs.Session.Failing
import GuardedConsole.Proofs.Session.Undoing
import GuardedConsole.Proofs.Json.Quotes
import GuardedConsole.Proofs.Literal.BareKeys
import GuardedConsole.Proofs.Literal.Objects
import GuardedConsole.Proofs.Calendar.Ordering
import GuardedConsole.Proofs.Interpreter.Tightening
import GuardedConsole.Proofs.Session.Listing
import GuardedConsole.Proofs.Text.Tracing
import GuardedConsole.Proofs.Json.Strings
import GuardedConsole.Proofs.Json.Texts
import GuardedConsole.Proofs.Literal.Screened
import GuardedConsole.Proofs.Json.Atoms
import GuardedConsole.Proofs.Json.Grammar
import GuardedConsole.Proofs.Literal.Entries
import GuardedConsole.Proofs.Literal.Combining
import GuardedConsole.Proofs.Literal.KeyByKey
import GuardedConsole.Proofs.Argument.Levels
import GuardedConsole.Proofs.Json.Nesting
import GuardedConsole.Proofs.Literal.Siblings
import GuardedConsole.Proofs.Command.Trailing
import GuardedConsole.Proofs.Text.Halves
import GuardedConsole.Proofs.Json.Escaping
import GuardedConsole.Proofs.Json.Integers
import GuardedConsole.Proofs.Json.Written
import GuardedConsole.Proofs.Json.Overlong
import GuardedConsole.Proofs.Console.Opening
import GuardedConsole.Proofs.Console.Saving
import GuardedConsole.Proofs.Console.Executing
import GuardedConsole.Proofs.Console.History
import GuardedConsole.Proofs.Console.Running
import GuardedConsole.Proofs.Console.Restarting
import GuardedConsole.Proofs.Console.Replying
import GuardedConsole.Proofs.Argument.Outside
import GuardedConsole.Proofs.Argument.Cutting
import GuardedConsole.Proofs.Json.Numerals
import GuardedConsole.Proofs.Literal.FlatObjects
import GuardedConsole.Proofs.Halting
import GuardedConsole.Proofs.Console.Rendering
import GuardedConsole.Proofs.World.Unfolding
import GuardedConsole.Proofs.World.Rendering
import GuardedConsole.Proofs.World.Cycles
import GuardedConsole.Proofs.Interpreter.Completing
import GuardedConsole.Proofs.Calendar.Building
import GuardedConsole.Proofs.Calendar.Updating
import GuardedConsole.Proofs.Calendar.Identity
import GuardedConsole.Proofs.Session.Identifying
import GuardedConsole.Proofs.Session.Completing
import GuardedConsole.Proofs.Calendar.Selecting
import GuardedConsole.Proofs.Calendar.Overlapping
import GuardedConsole.Proofs.Session.Conflicting
import GuardedConsole.Proofs.Calendar.Days
import GuardedConsole.Proofs.Console.Remembering
import GuardedConsole.Proofs.Console.Walking
import GuardedConsole.Proofs.Console.Bounding
import GuardedConsole.Proofs.Console.Logging
import GuardedConsole.Proofs.Report.Running
import GuardedConsole.Proofs.Report.Recording
import GuardedConsole.Proofs.Report.Listening
import GuardedConsole.Proofs.Command.Carrying
import GuardedConsole.Proofs.Time.Expressions
import GuardedConsole.Proofs.Time.Dates
import GuardedConsole.Proofs.Literal.Dates
import GuardedConsole.Proofs.Json.Layout
import GuardedConsole.Proofs.Json.Escapes
import GuardedConsole.Proofs.World.Printing
import GuardedConsole.Proofs.Literal.Arrays
import GuardedConsole.Proofs.Interpreter.Wrapping
import GuardedConsole.Proofs.Value.Cleaning
import GuardedConsole.Proofs.Literal.Cleaned
import GuardedConsole.Proofs.Session.Navigating
import GuardedConsole.Proofs.Time.Written
import GuardedConsole.Proofs.Time.Unambiguous
