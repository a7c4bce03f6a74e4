import Diri.Proofs.Bus.Replay
import Diri.Proofs.Bus.Wait
import Diri.Proofs.Client.Input
import Diri.Proofs.Client.Launch
import Diri.Proofs.Client.Output
import Diri.Proofs.Grid.Agreement
import Diri.Proofs.Grid.Calls
import Diri.Proofs.Held.Pump
import Diri.Proofs.Log.Reader
import Diri.Proofs.Loop.Lease
import Diri.Proofs.Status.Flicker
import Diri.Proofs.Status.Subagents
import Diri.Proofs.Term.Find
import Diri.Proofs.Registry.Prompts
import Diri.Proofs.Registry.Hibernation
import Diri.Proofs.Node.Handoff
import Diri.Proofs.App.Order
import Diri.Proofs.App.Hidden
import Diri.Proofs.App.AutoClose
import Diri.Proofs.Updater.Install
import Diri.Proofs.Typing
import Diri.Proofs.Node.Wire
import Diri.Proofs.Node.Import
import Diri.Proofs.App.Fleet
import Diri.Proofs.Node.Abort
import Diri.Proofs.Registry.Bookkeeping
import Diri.Proofs.Registry.Governor
import Diri.Proofs.Held.Accept
import Diri.Proofs.Held.Hosting
import Diri.Proofs.Remote.Files
import Diri.Proofs.Remote.Builds
import Diri.Proofs.Loop.LastOutput
import Diri.Proofs.Node.Logins
import Diri.Proofs.Node.Responses
import Diri.Proofs.App.Query
import Diri.Proofs.App.FleetCost
import Diri.Proofs.App.Windows
import Diri.Proofs.History
import Diri.Proofs.App.Timestamps
import Diri.Proofs.Codec.WireModel
import Diri.Proofs.Detect.Risk
import Diri.Proofs.Term.Cycle
import Diri.Proofs.Term.Appliers
import Diri.Proofs.Attach.Coalesced
import Diri.Proofs.App.Reveal
import Diri.Proofs.App.ReviewPrompt
import Diri.Proofs.Bus.Resubscribe
import Diri.Proofs.Closure
import Diri.Proofs.GitUrl
import Diri.Proofs.LegacyAnswers
import Diri.Proofs.Quoting
import Diri.Proofs.Registry.Persist
import Diri.Proofs.Remote.Launch
import Diri.Proofs.Term.Selection
import Diri.Proofs.Loop.Backlog
import Diri.Proofs.Log.SyncPoints
import Diri.Proofs.Grid.Headless
import Diri.Proofs.Registry.Watcher
