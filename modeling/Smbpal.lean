import Smbpal.Lib.Run
import Smbpal.Lib.Program
import Smbpal.Lib.Serializable
import Smbpal.Lib.PrefixCode
import Smbpal.Config.Operations
import Smbpal.Mounts.Units
import Smbpal.Daemon.Effects
import Smbpal.Mounts.Apply
import Smbpal.Mounts.ReadBack
import Smbpal.Mounts.Prescribed
import Smbpal.Daemon.Handlers
import Smbpal.Daemon.HandlerSpecs
import Smbpal.Daemon.Edits
import Smbpal.Daemon.LostUpdate
import Smbpal.Daemon.OneConnection
import Smbpal.Daemon.UnitsApart
import Smbpal.Daemon.Keychain
import Smbpal.Daemon.Credentials
import Smbpal.Daemon.SharedFiles
import Smbpal.Daemon.Reapply
import Smbpal.Daemon.Rollback
import Smbpal.Agent.Reconnect
import Smbpal.Agent.Held
import Smbpal.Daemon.OthersRecords
import Smbpal.State.Monitor
import Smbpal.State.Eject
import Smbpal.State.Refusal
import Smbpal.Ipc.Protocol
import Smbpal.Lib.Audit
import Smbpal.Daemon.Authoriser
import Smbpal.Daemon.Dispatch
import Smbpal.Daemon.Authorised
import Smbpal.Lib.Lines
import Smbpal.Python.Files
import Smbpal.Samba.Include
import Smbpal.Samba.Apply
import Smbpal.Lib.Directives
import Smbpal.Python.Directives
import Smbpal.Samba.Conf
import Smbpal.Mounts.UnitsRead
import Smbpal.Config.Document
import Smbpal.Config.Exact
import Smbpal.Lib.Framing
import Smbpal.Ipc.Frames
import Smbpal.Python.Dumps
import Smbpal.Python.Numbers
import Smbpal.Ipc.Client
import Smbpal.Daemon.OwnAnswer
import Smbpal.Lib.Dict
import Smbpal.Agent.Links
import Smbpal.Agent.LinkRequests
import Smbpal.Agent.LinkStates
import Smbpal.Daemon.AgentStates
import Smbpal.Agent.DaemonLink
import Smbpal.Helper.Frame
import Smbpal.Lib.Interference
import Smbpal.Helper.Sharepoints
import Smbpal.Helper.Outcomes
import Smbpal.Sharepoints.Apply
import Smbpal.Sharepoints.Phases
import Smbpal.Sharepoints.Converges
import Smbpal.Lib.Permissions
import Smbpal.Shares.Ownership
import Smbpal.Python.Paths
import Smbpal.State.Journal
import Smbpal.Mounts.SystemdEscape
import Smbpal.System.Atomic
import Smbpal.System.Stores
import Smbpal.State.Wake
import Smbpal.Samba.Placed
import Smbpal.Mounts.MountInfo
import Smbpal.Mounts.MountTable
import Smbpal.State.Topmost
import Smbpal.Lib.Mirror
import Smbpal.State.Words
import Smbpal.State.Picture
import Smbpal.Mounts.ApplyRun
import Smbpal.Mounts.Reaping
import Smbpal.Daemon.Lookups
import Smbpal.Config.Mountpoints
import Smbpal.State.Bounded
import Smbpal.Gui.Rows
import Smbpal.Agent.Redial
import Smbpal.Helper.Inspect
import Smbpal.Agent.Ledger
import Smbpal.Helper.PathPolicy
import Smbpal.Helper.Uninstall
import Smbpal.Mounts.Inventory
import Smbpal.Mounts.Accounted
import Smbpal.Config.Ids
import Smbpal.Lib.CScan
import Smbpal.Helper.HashList
import Smbpal.Lib.Grouping
import Smbpal.Discovery.Browse
import Smbpal.Discovery.Parse
import Smbpal.Daemon.Secrets
import Smbpal.Mounts.Probe
import Smbpal.Mounts.Identity
import Smbpal.Agent.Backoff
import Smbpal.Gui.Session
import Smbpal.Agent.Disconnect
import Smbpal.Lib.Warrant
import Smbpal.Helper.Serve
import Smbpal.Helper.Call
import Smbpal.Helper.Grants
import Smbpal.Python.Reread
import Smbpal.Config.Store
import Smbpal.Ipc.Lifecycle
import Smbpal.Samba.Planning
import Smbpal.Samba.Restored
