import BuildProbe.Flag.Cursor
import BuildProbe.Cancel.Session
import BuildProbe.Rehearsal
import BuildProbe.Main
import BuildProbe.Proofs.Tree.Growth
import BuildProbe.Proofs.Tree.Passage
import BuildProbe.Proofs.Tree.Arrival
import BuildProbe.Proofs.Path.Leading
import BuildProbe.Proofs.Tree.Calls
import BuildProbe.Proofs.Tree.Paving
import BuildProbe.Proofs.Artifact.Drafting
import BuildProbe.Proofs.Artifact.Interruption
import BuildProbe.Proofs.Artifact.Atomicity
import BuildProbe.Proofs.Cancel.Hearing
import BuildProbe.Proofs.Pipeline.Ending
import BuildProbe.Proofs.Probe.Course
import BuildProbe.Proofs.Pipeline.Accounting
import BuildProbe.Proofs.Artifact.Persisting
import BuildProbe.Proofs.World.Delivery
import BuildProbe.Proofs.World.Cancellation
import BuildProbe.Proofs.World.History
import BuildProbe.Proofs.Text.Rows
import BuildProbe.Proofs.Artifact.Readback
import BuildProbe.Proofs.Flag.Sayings
import BuildProbe.Proofs.Tree.Sight
import BuildProbe.Proofs.Artifact.Race
import BuildProbe.Proofs.Artifact.Mirror
import BuildProbe.Proofs.Artifact.Concurrency
import BuildProbe.Proofs.Flag.Places
import BuildProbe.Proofs.Cancel.Record
import BuildProbe.Proofs.Rehearsal.Books
import BuildProbe.Proofs.Pipeline.Sharing
import BuildProbe.Proofs.World.Repetition
import BuildProbe.Proofs.Command.Account
import BuildProbe.Proofs.Artifact.Harmless
import BuildProbe.Proofs.Artifact.Admission
import BuildProbe.Proofs.Flag.Captured
import BuildProbe.Proofs.Flag.Positions
import BuildProbe.Proofs.Pipeline.Log
import BuildProbe.Proofs.Environment.Overrides
import BuildProbe.Proofs.World.ErrorStream
import BuildProbe.Proofs.Text.Tail
import BuildProbe.Proofs.Artifact.Beside
