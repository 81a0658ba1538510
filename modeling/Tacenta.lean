import Tacenta.Client.Frames
import Tacenta.Client.OutboxRecovery
import Tacenta.Client.SequenceAllocation
import Tacenta.Client.StoreFence
import Tacenta.Group.AtMostOnce
import Tacenta.Group.Authorised
import Tacenta.Group.InvitationLifecycle
import Tacenta.Group.PayloadCodec
import Tacenta.Group.ReceiverInvariant
import Tacenta.Group.RosterHistory
import Tacenta.Client.SealedBinding
import Tacenta.Transport.Backlog
import Tacenta.Core.OpenParty
import Tacenta.Core.Seal
import Tacenta.Accounts.Inventory
import Tacenta.Accounts.InventoryTx
import Tacenta.Accounts.InventoryDatabase
import Tacenta.Accounts.Store
import Tacenta.Library.Concurrent
import Tacenta.Accounts.StoreInvariant
import Tacenta.Server.InventoryService
import Tacenta.Directory.Store
import Tacenta.Directory.Server
import Tacenta.Server.Provisioning
import Tacenta.Client.ItemCommit
import Tacenta.Relay.Budgets
import Tacenta.Relay.Isolation
import Tacenta.Accounts.InventoryBackends
import Tacenta.Accounts.InventoryLifecycle
import Tacenta.Directory.Epochs
import Tacenta.Library.RecordReader
import Tacenta.Library.Sections
import Tacenta.Library.TableRows
import Tacenta.Accounts.Persist
import Tacenta.Accounts.PersistCodec
import Tacenta.Accounts.PersistRows
import Tacenta.Accounts.PersistRuns
import Tacenta.Library.Calls
import Tacenta.Client.Connected
import Tacenta.Client.DirectoryRuns
import Tacenta.Group.IntentAgreement
import Tacenta.Group.SendProgress
import Tacenta.Client.ControlOutboxRuns
import Tacenta.Client.ControlOutboxCodec
import Tacenta.Client.ControlRetention
import Tacenta.Client.GroupCommits
import Tacenta.Client.ReplacedRoster
import Tacenta.Client.OutboxAcceptance
import Tacenta.Client.Rehearsal
import Tacenta.Library.Canonical
import Tacenta.Relay.ProtocolCanonical
import Tacenta.Directory.ProtocolCanonical
import Tacenta.Accounts.Protocol
import Tacenta.Transport.Protocols
import Tacenta.Server.Throttles
import Tacenta.Transport.FrameRuns
import Tacenta.Accounts.Sessions
