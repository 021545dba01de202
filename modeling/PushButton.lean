import PushButton.Cli.Program
import PushButton.Host.Scripted
import PushButton.Log.Duration
import PushButton.Main
import PushButton.Surface.Page
import PushButton.Workflow.Survey
import PushButton.Proofs.Cli.Answering
import PushButton.Proofs.Cli.Exchange
import PushButton.Proofs.Cli.Failing
import PushButton.Proofs.Cli.Logging
import PushButton.Proofs.Cli.Pressing
import PushButton.Proofs.Cli.Showing
import PushButton.Proofs.Cli.Validating
import PushButton.Proofs.Host.Custody
import PushButton.Proofs.Host.Dialogue
import PushButton.Proofs.Run.Attribution
import PushButton.Proofs.Run.Concatenation
import PushButton.Proofs.Run.Describing
import PushButton.Proofs.Run.Insertion
import PushButton.Proofs.Run.Lifecycle
import PushButton.Proofs.Run.Parameters
import PushButton.Proofs.Run.Printing
import PushButton.Proofs.Run.Reading
import PushButton.Proofs.Run.Releasing
import PushButton.Proofs.Run.Reloading
import PushButton.Proofs.Run.Replay
import PushButton.Proofs.Run.Resumption
import PushButton.Proofs.Run.Subscriptions
import PushButton.Proofs.Surface.Page
import PushButton.Proofs.Surface.Rendering
import PushButton.Proofs.Workflow.Edits
import PushButton.Proofs.Workflow.Entered
import PushButton.Proofs.Workflow.Format
import PushButton.Proofs.Workflow.Loading
