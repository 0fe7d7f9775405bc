import PresenceLink.Proofs.Client.Callbacks
import PresenceLink.Proofs.Client.Causality
import PresenceLink.Proofs.Client.Subscriptions
import PresenceLink.Proofs.Ipc.Meaning
import PresenceLink.Proofs.Mailbox.Cells
import PresenceLink.Proofs.Supervisor.Blindness
import PresenceLink.Proofs.Supervisor.Schedule
import PresenceLink.Proofs.Json.Text
import PresenceLink.Proofs.Json.Grammar
import PresenceLink.Proofs.Json.Unambiguous
import PresenceLink.Proofs.Session.Refusal
import PresenceLink.Proofs.Client.Announced
import PresenceLink.Proofs.Client.Shutdown
import PresenceLink.Proofs.Json.Spelling
import PresenceLink.Proofs.Json.Contents
import PresenceLink.Proofs.Json.Records
import PresenceLink.Proofs.Inbound.Frames
import PresenceLink.Proofs.Ipc.Lifecycle
import PresenceLink.Proofs.Ipc.Output
import PresenceLink.Proofs.Client.FrameLimit
import PresenceLink.Proofs.Command.Echo
import PresenceLink.Proofs.Command.Buffer
import PresenceLink.Proofs.Inbound.Events
import PresenceLink.Proofs.Supervisor.Deliveries
import PresenceLink.Proofs.Inbound.Spelling
import PresenceLink.Proofs.Inbound.Ending
import PresenceLink.Proofs.Client.Acceptance
import PresenceLink.Proofs.Client.Requests
import PresenceLink.Proofs.Mailbox.Leftovers
import PresenceLink.Proofs.Text.Storing
import PresenceLink.Proofs.Ipc.Buffered
import PresenceLink.Proofs.SendQueue.Owners
import PresenceLink.Proofs.Mailbox.Rotation
import PresenceLink.Proofs.Ipc.Capacity
