import CommandShell.Main
import CommandShell.Proofs.Command.Faults
import CommandShell.Proofs.Command.Structure
import CommandShell.Proofs.Session.Joining
import CommandShell.Proofs.Session.Refusal
import CommandShell.Proofs.Editor.Typing
import CommandShell.Proofs.Job.Wiring
import CommandShell.Proofs.Job.Failures
import CommandShell.Proofs.Job.Isolation
import CommandShell.Proofs.Session.SingleWord
import CommandShell.Proofs.Editor.Screen
import CommandShell.Proofs.System.Twins
import CommandShell.Proofs.Builtin.Effects
import CommandShell.Proofs.Job.InPlace
import CommandShell.Proofs.Session.Execution
import CommandShell.Proofs.Session.Stopping
import CommandShell.Proofs.Session.Transparency
import CommandShell.Proofs.Session.Defining
import CommandShell.Proofs.History.Backing
import CommandShell.Proofs.History.Persistence
import CommandShell.Proofs.History.Appending
import CommandShell.Proofs.Alias.Persistence
import CommandShell.Proofs.Editor.Browsing
import CommandShell.Proofs.Session.Recall
import CommandShell.Proofs.Alias.OrderedMap
import CommandShell.Proofs.Store.Failing
import CommandShell.Proofs.Job.Diverting
import CommandShell.Proofs.Builtin.Writing
import CommandShell.Proofs.Session.Changes
import CommandShell.Proofs.Session.Visits
import CommandShell.Proofs.Store.Moving
import CommandShell.Proofs.Store.Unreadable
import CommandShell.Proofs.Editor.OneLine
import CommandShell.Proofs.Editor.Segments
import CommandShell.Proofs.Session.Grouping
import CommandShell.Proofs.Job.Reports
import CommandShell.Proofs.Editor.Sequences
import CommandShell.Proofs.Text.Order
import CommandShell.Proofs.Completion.Candidates
import CommandShell.Proofs.Editor.Completing
import CommandShell.Proofs.Editor.Listing
import CommandShell.Proofs.Editor.Bounds
import CommandShell.Proofs.Editor.Position
import CommandShell.Proofs.Builtin.Printing
import CommandShell.Proofs.Command.Substitution
import CommandShell.Proofs.Job.Restoring
import CommandShell.Proofs.Builtin.Occurrences
import CommandShell.Proofs.System.Ways
import CommandShell.Proofs.Builtin.Copying
import CommandShell.Proofs.Builtin.Marking
import CommandShell.Proofs.Command.Searching
