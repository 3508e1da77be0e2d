import ComputePool.Admission
import ComputePool.Authorization
import ComputePool.Chain
import ComputePool.Collaborators
import ComputePool.Consensus
import ComputePool.Detection
import ComputePool.Digest
import ComputePool.Dispatcher
import ComputePool.Error
import ComputePool.Json.Basic
import ComputePool.Json.Persistent
import ComputePool.Locks
import ComputePool.Notification
import ComputePool.Pool
import ComputePool.Queue.Basic
import ComputePool.Queue.Waiting
import ComputePool.Recovery
import ComputePool.Replicate.Basic
import ComputePool.Replicate.List
import ComputePool.Replicate.Status
import ComputePool.Replicate.Summary
import ComputePool.Serving
import ComputePool.Settings
import ComputePool.Simulation.Agenda
import ComputePool.Simulation.Basic
import ComputePool.Simulation.Fault
import ComputePool.Store
import ComputePool.Table
import ComputePool.Task.Basic
import ComputePool.Task.Status
import ComputePool.Text.Blank
import ComputePool.Text.Digits
import ComputePool.Text.Hex
import ComputePool.Text.Printable
import ComputePool.Text.Quoted
import ComputePool.Time.Calendar
import ComputePool.Time.Instant
import ComputePool.Time.Span
import ComputePool.Time.Timestamp
import ComputePool.Transition
import ComputePool.Uuid
import ComputePool.Worker.Basic
import ComputePool.Worker.Registry
import ComputePool.Proofs.Execution
import ComputePool.Proofs.Queue.Coherence
import ComputePool.Proofs.Steps
import ComputePool.Proofs.Records
import ComputePool.Proofs.WellKept
import ComputePool.Proofs.Transition.Due
import ComputePool.Proofs.Transition.Update
import ComputePool.Proofs.Effects
import ComputePool.Proofs.Runs
import ComputePool.Proofs.Lifecycle
import ComputePool.Proofs.Locks
import ComputePool.Proofs.OpenTasks
import ComputePool.Proofs.Admission
import ComputePool.Proofs.FirstFit
import ComputePool.Proofs.Slots
import ComputePool.Proofs.Draining.TaskFile
import ComputePool.Proofs.Draining.Call
import ComputePool.Proofs.Draining.Confluence
import ComputePool.Proofs.Draining.Following
import ComputePool.Proofs.Detection
import ComputePool.Proofs.Draining.FinalDeadline
import ComputePool.Proofs.Mark
import ComputePool.Proofs.Recovery.Advice
import ComputePool.Proofs.Recovery.Notice
import ComputePool.Proofs.Recovery.Idempotence
import ComputePool.Proofs.Recovery.Reveal
import ComputePool.Proofs.Recovery.RevealBlock
import ComputePool.Proofs.Recovery.Verdict
import ComputePool.Proofs.Recovery.Reissue
import ComputePool.Proofs.Participants
import ComputePool.Proofs.Versions
import ComputePool.Proofs.AppendOnly
import ComputePool.Proofs.Bookkeeping
import ComputePool.Proofs.Grounds
import ComputePool.Proofs.Recovery.Writes
import ComputePool.Proofs.Winners
import ComputePool.Proofs.Interleaving.TrustTarget
import ComputePool.Proofs.Honest.Stages
import ComputePool.Proofs.Honest.Standing
import ComputePool.Proofs.Honest.Crew
import ComputePool.Proofs.Honest.Course
import ComputePool.Proofs.Honest.Completion
import ComputePool.Proofs.Queue.Order
import ComputePool.Proofs.Queue.Ledger
import ComputePool.Proofs.Queue.Session
import ComputePool.Proofs.Queue.Priority
import ComputePool.Proofs.Queue.Wakeups
import ComputePool.Proofs.Dispatch.Lines
import ComputePool.Proofs.Dispatch.Custody
import ComputePool.Proofs.Dispatch.Roster
import ComputePool.Proofs.Dispatch.Shift
import ComputePool.Proofs.Dispatch.Books
import ComputePool.Proofs.Dispatch.Account
import ComputePool.Proofs.Dispatch.Handover
import ComputePool.Proofs.Dispatch.Conservation
import ComputePool.Proofs.Uploader
import ComputePool.Proofs.Tenancy.Basic
import ComputePool.Proofs.Tenancy.Returns
import ComputePool.Proofs.Tenancy.Exclusion
import ComputePool.Proofs.Recovery.Annotated
import ComputePool.Proofs.Recovery.SideBySide
import ComputePool.Proofs.Persistence.Calendar
import ComputePool.Proofs.Persistence.Timestamp
import ComputePool.Proofs.Persistence.Values
import ComputePool.Proofs.Persistence.Records
import ComputePool.Proofs.Enumeration
import ComputePool.Proofs.Transition.Table
import ComputePool.Proofs.AllOrNothing
import ComputePool.Proofs.LateAdmission
import ComputePool.Proofs.Stalled
import ComputePool.Proofs.Time
import ComputePool.Proofs.Deadlines
import ComputePool.Proofs.Settings.Numeral
import ComputePool.Proofs.Settings.Variable
import ComputePool.Proofs.Settings.Reading
import ComputePool.Proofs.Settings.Runnable
import ComputePool.Proofs.Signatures
import ComputePool.Proofs.Reports
