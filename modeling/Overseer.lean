import Overseer.Application
import Overseer.Background
import Overseer.CommandLine
import Overseer.Config
import Overseer.Config.Document
import Overseer.Console
import Overseer.Context
import Overseer.Failure
import Overseer.Invocation
import Overseer.Json.Scan
import Overseer.Lifecycle.Daemon
import Overseer.Lifecycle.Guarded
import Overseer.Lifecycle.Outcome
import Overseer.Lifecycle.Program
import Overseer.Lifecycle.Schedule
import Overseer.Lifecycle.State
import Overseer.Log
import Overseer.Log.Filter
import Overseer.Main
import Overseer.PidFile
import Overseer.Proofs.Application.Memory
import Overseer.Proofs.CommandLine.Grammar
import Overseer.Proofs.CommandLine.Reading
import Overseer.Proofs.CommandLine.Soundness
import Overseer.Proofs.Config.Layout
import Overseer.Proofs.Config.Lists
import Overseer.Proofs.Config.Meaning
import Overseer.Proofs.Config.Objects
import Overseer.Proofs.Config.RoundTrip
import Overseer.Proofs.Config.Values
import Overseer.Proofs.Console.Intake
import Overseer.Proofs.Console.Lines
import Overseer.Proofs.Except
import Overseer.Proofs.Json.Grammar
import Overseer.Proofs.Json.Numbers
import Overseer.Proofs.Json.Skipping
import Overseer.Proofs.Json.Spelling
import Overseer.Proofs.Json.Texts
import Overseer.Proofs.Lifecycle.Alone
import Overseer.Proofs.Lifecycle.Bindings
import Overseer.Proofs.Lifecycle.Cycle
import Overseer.Proofs.Lifecycle.Guarded
import Overseer.Proofs.Lifecycle.Habits
import Overseer.Proofs.Lifecycle.Notices
import Overseer.Proofs.Lifecycle.Oblivious
import Overseer.Proofs.Lifecycle.Panics
import Overseer.Proofs.Lifecycle.Plain
import Overseer.Proofs.Lifecycle.Polls
import Overseer.Proofs.Lifecycle.Requests
import Overseer.Proofs.Lifecycle.Runs
import Overseer.Proofs.Lifecycle.Stop
import Overseer.Proofs.Lifecycle.Trace
import Overseer.Proofs.Lookup
import Overseer.Proofs.PidFile.Authors
import Overseer.Proofs.PidFile.Drop
import Overseer.Proofs.PidFile.Grammar
import Overseer.Proofs.PidFile.Ownership
import Overseer.Proofs.PidFile.Writing
import Overseer.Proofs.Queue.Accounts
import Overseer.Proofs.Queue.Cells
import Overseer.Proofs.Queue.Elements
import Overseer.Proofs.Queue.Fifo
import Overseer.Proofs.Queue.Interleaving
import Overseer.Proofs.Queue.Order
import Overseer.Proofs.Queue.Paths
import Overseer.Proofs.Queue.Progress
import Overseer.Proofs.Queue.Sections
import Overseer.Proofs.Queue.Undivided
import Overseer.Proofs.Queue.Waiting
import Overseer.Proofs.Queue.Wakeup
import Overseer.Proofs.Remote
import Overseer.Proofs.Runs
import Overseer.Proofs.Session.Commands
import Overseer.Proofs.Session.Course
import Overseer.Proofs.Session.Crew
import Overseer.Proofs.Session.Effects
import Overseer.Proofs.Session.Handling
import Overseer.Proofs.Session.Reloads
import Overseer.Proofs.Session.Service
import Overseer.Proofs.Session.Signals
import Overseer.Proofs.Session.Staff
import Overseer.Proofs.Session.Steady
import Overseer.Proofs.Session.Steps
import Overseer.Proofs.Session.Teardown
import Overseer.Proofs.Session.Undisturbed
import Overseer.Proofs.System.Absence
import Overseer.Proofs.System.Ancestors
import Overseer.Proofs.System.Growth
import Overseer.Proofs.System.Walks
import Overseer.Proofs.Text.Decoding
import Overseer.Proofs.Text.Encoding
import Overseer.Proofs.Text.Numerals
import Overseer.Proofs.Worker.Batches
import Overseer.Proofs.Worker.Books
import Overseer.Proofs.Worker.Calls
import Overseer.Proofs.Worker.Cancellation
import Overseer.Proofs.Worker.Closing
import Overseer.Proofs.Worker.Commons
import Overseer.Proofs.Worker.Custody
import Overseer.Proofs.Worker.Deadlines
import Overseer.Proofs.Worker.Dismissal
import Overseer.Proofs.Worker.Families
import Overseer.Proofs.Worker.Handles
import Overseer.Proofs.Worker.Joins
import Overseer.Proofs.Worker.Ledger
import Overseer.Proofs.Worker.Lock
import Overseer.Proofs.Worker.Reports
import Overseer.Proofs.Worker.Rhythm
import Overseer.Proofs.Worker.Scope
import Overseer.Proofs.Worker.Stops
import Overseer.Proofs.Worker.Sweep
import Overseer.Proofs.Worker.Turns
import Overseer.Proofs.Worker.Workshop
import Overseer.Queue.Chain
import Overseer.Queue.Deque
import Overseer.Queue.Ends
import Overseer.Queue.Life
import Overseer.Queue.Linked
import Overseer.Queue.Monitor
import Overseer.Remote
import Overseer.Session
import Overseer.Signal
import Overseer.Span
import Overseer.System.Errno
import Overseer.System.FileTree
import Overseer.System.Path
import Overseer.Text.Blank
import Overseer.Text.Decimal
import Overseer.Text.Printable
import Overseer.Text.Quoted
import Overseer.Text.Utf8
import Overseer.Worker.Commons
import Overseer.Worker.Manager
import Overseer.Worker.Scope
import Overseer.Worker.Shift
import Overseer.Worker.Thread
import Overseer.Worker.Ticker
import Overseer.Worker.Token
import Overseer.Worker.Waiting
import Overseer.Worker.Workshop
