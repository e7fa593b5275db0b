import RoLauncher.Crash.System
import RoLauncher.Prefix.Residue
import RoLauncher.Store.Survival
import RoLauncher.Locks.Exclusion
import RoLauncher.Runtime.Encode
import RoLauncher.Session.LineReader
import RoLauncher.Session.Exchange
import RoLauncher.Session.Trace
import RoLauncher.Session.Delivery
import RoLauncher.Game.Consistency
import RoLauncher.Benchmark.Lifecycle
import RoLauncher.Artifacts.Ownership
import RoLauncher.Updater.Protocol
import RoLauncher.Runners.Registry
import RoLauncher.Installations.Lifecycle
import RoLauncher.Installations.Protected
import RoLauncher.Input.Release
import RoLauncher.Autopot.Settled
import RoLauncher.Updater.Relaunch
import RoLauncher.Runners.Redaction
import RoLauncher.Contracts.Portable
import RoLauncher.Runners.Forwarding
import RoLauncher.Autopot.Engine
import RoLauncher.Autobuff.Engine
import RoLauncher.Benchmark.Comparison
import RoLauncher.Runtime.Fingerprint
import RoLauncher.Runtime.RuntimeFingerprint
import RoLauncher.Presence.Executable
import RoLauncher.Runtime.Prune
import RoLauncher.Input.Passthrough
import RoLauncher.Input.SpamLoop
import RoLauncher.Updater.Activate
import RoLauncher.Contracts.Render
import RoLauncher.Frontend.SnapshotWriter
import RoLauncher.Frontend.LauncherClients
import RoLauncher.Combat.Loops
import RoLauncher.ServerTools.Imports
import RoLauncher.Runtime.Apply
import RoLauncher.Presence.MapName
import RoLauncher.Memory.Search
import RoLauncher.ServerTools.Layout
import RoLauncher.Runners.DosPath
import RoLauncher.Runners.Closing
import RoLauncher.Runners.Leases
import RoLauncher.Crash.Only
import RoLauncher.Artifacts.Readers
import RoLauncher.Lists.Canonical
import RoLauncher.Tables.Views
import RoLauncher.Presence.Snapshot
import RoLauncher.Presence.Activity
import RoLauncher.Presence.Service
import RoLauncher.Lists.Firsts
import RoLauncher.Text.Trim
import RoLauncher.Spammer.Config
import RoLauncher.Tools.Lifecycle
import RoLauncher.Prefix.Binding
