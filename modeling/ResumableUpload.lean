import ResumableUpload.Main
import ResumableUpload.Timeline.Play
import ResumableUpload.Proofs.Scheduler.Completion
import ResumableUpload.Proofs.Scheduler.Handling
import ResumableUpload.Proofs.Scheduler.History
import ResumableUpload.Proofs.Scheduler.Preemption
import ResumableUpload.Proofs.Executor.Panics
import ResumableUpload.Proofs.Queue.Calls
import ResumableUpload.Proofs.Scheduler.Quiescence
import ResumableUpload.Proofs.Binary64
import ResumableUpload.Proofs.Pace
import ResumableUpload.Proofs.Engine.Chunks
import ResumableUpload.Proofs.Engine.Reports
import ResumableUpload.Proofs.Endpoint.Held
import ResumableUpload.Proofs.Endpoint.Scripted
import ResumableUpload.Proofs.Transfer.Calls
import ResumableUpload.Proofs.Transfer.Progress
import ResumableUpload.Proofs.Transfer.Recovery
import ResumableUpload.Proofs.Transfer.Scripted
import ResumableUpload.Proofs.Transfer.Termination
import ResumableUpload.Proofs.Session.Turns
import ResumableUpload.Proofs.Session.Drain
import ResumableUpload.Proofs.Endpoint.Retransmission
import ResumableUpload.Proofs.Scheduler.Release
import ResumableUpload.Proofs.Scheduler.Shutdown
import ResumableUpload.Proofs.Session.Chunks
import ResumableUpload.Proofs.Session.Restart
import ResumableUpload.Proofs.Transfer.Healthy
import ResumableUpload.Proofs.CommandLine.Delete
import ResumableUpload.Proofs.CommandLine.Destination
import ResumableUpload.Proofs.Scheduler.Hosting
import ResumableUpload.Proofs.Wire
import ResumableUpload.Proofs.Executor.Inline
import ResumableUpload.Proofs.Engine.Stalling
import ResumableUpload.Proofs.Engine.Stopping
import ResumableUpload.Proofs.Session.Isolation
import ResumableUpload.Proofs.Queue.Pausing
import ResumableUpload.Proofs.Endpoint.Storage
import ResumableUpload.Proofs.RemotePath
import ResumableUpload.Proofs.Executor.Marks
import ResumableUpload.Proofs.Http.Reply
import ResumableUpload.Proofs.Executor.Backlog
import ResumableUpload.Proofs.Base64.Standard
import ResumableUpload.Proofs.LocalFile
import ResumableUpload.Proofs.CommandLine.Arrival
import ResumableUpload.Proofs.Timeline.Frames
import ResumableUpload.Proofs.Timeline.Moves
import ResumableUpload.Proofs.Timeline.Play
