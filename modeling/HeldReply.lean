import HeldReply.Handler.Stock
import HeldReply.Link.ChannelScript
import HeldReply.Link.Scripted
import HeldReply.Scope.Reentry
import HeldReply.Scope.Threads
import HeldReply.Service
import HeldReply.Settings.Document
import HeldReply.Settings.Environment
import HeldReply.Settings.Setting
import HeldReply.Workers.Script
import HeldReply.Proofs.Settings.Secret
import HeldReply.Proofs.Number
import HeldReply.Proofs.Toml
import HeldReply.Proofs.Settings.Written
import HeldReply.Proofs.Settings.Agreement
import HeldReply.Proofs.Admission
import HeldReply.Proofs.Promise
import HeldReply.Proofs.Scope.Threads
import HeldReply.Proofs.Workers.Moves
import HeldReply.Proofs.Workers.Runs
import HeldReply.Proofs.Workers.Spare
import HeldReply.Proofs.Workers.Jobs
import HeldReply.Proofs.Workers.Staff
import HeldReply.Proofs.Workers.Past
import HeldReply.Proofs.Workers.Shutdown
import HeldReply.Proofs.Link.Ends
import HeldReply.Proofs.Link.Recorded
import HeldReply.Proofs.Link.Calls
import HeldReply.Proofs.Link.Carries
import HeldReply.Proofs.Link.Closed
import HeldReply.Proofs.Link.Planned
import HeldReply.Proofs.Outcome
import HeldReply.Proofs.Session.Scene
import HeldReply.Proofs.Session.Order
import HeldReply.Proofs.Session.Turn
import HeldReply.Proofs.Session.Others
import HeldReply.Proofs.Session.Bids
import HeldReply.Proofs.Session.Account
import HeldReply.Proofs.Session.History
import HeldReply.Proofs.Session.Ends
import HeldReply.Proofs.Session.Quiet
import HeldReply.Proofs.Reception
import HeldReply.Proofs.Exchange.Course
import HeldReply.Proofs.Exchange.Form
import HeldReply.Proofs.Exchange.Body
import HeldReply.Proofs.Session.Beating
import HeldReply.Proofs.Session.OnTime
import HeldReply.Proofs.Session.Schedule
import HeldReply.Proofs.Service
import HeldReply.Proofs.Session.Heeding
import HeldReply.Proofs.Session.Halting
import HeldReply.Proofs.Naming
import HeldReply.Proofs.Flag
import HeldReply.Proofs.Wakeups
import HeldReply.Proofs.Setters
import HeldReply.Proofs.Scope.Crew
import HeldReply.Proofs.Scope.Vigil
import HeldReply.Proofs.Scope.Worlds
import HeldReply.Proofs.Scope.Rules
import HeldReply.Proofs.Scope.Book
import HeldReply.Proofs.Scope.Disposal
import HeldReply.Proofs.Scope.Waits
import HeldReply.Proofs.Link.Conserved
import HeldReply.Proofs.Json.Grammar
import HeldReply.Proofs.Json.Tokens
import HeldReply.Proofs.Json.Reading
import HeldReply.Proofs.Workers.Effort
import HeldReply.Proofs.Workers.Settled
import HeldReply.Proofs.Workers.Steady
import HeldReply.Proofs.Workers.Growth
import HeldReply.Proofs.Workers.Scripted
import HeldReply.Proofs.Session.Alike
import HeldReply.Proofs.Session.Failing
import HeldReply.Proofs.Handler.Execution
import HeldReply.Proofs.Handler.Boundary
