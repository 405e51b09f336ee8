import Vpnmgr.Library.Action
import Vpnmgr.Library.Run
import Vpnmgr.Library.Ieee
import Vpnmgr.Library.Text
import Vpnmgr.Library.Scatter
import Vpnmgr.Core.Net
import Vpnmgr.Core.Config
import Vpnmgr.Core.Airvpn
import Vpnmgr.Core.Score
import Vpnmgr.Probe
import Vpnmgr.Library.Least
import Vpnmgr.Library.Pool
import Vpnmgr.Probe.Verdict
import Vpnmgr.Tunnel.Bypass
import Vpnmgr.Tunnel.Killswitch
import Vpnmgr.Tunnel.KillswitchWindows
import Vpnmgr.Tunnel.Linux
import Vpnmgr.Tunnel.Windows
import Vpnmgr.Daemon.Tuner
import Vpnmgr.Tunnel.Platform
import Vpnmgr.Daemon.Measure
import Vpnmgr.Daemon.Connect
import Vpnmgr.Daemon.Requests
import Vpnmgr.Daemon.Frame
import Vpnmgr.Daemon.Schedule
import Vpnmgr.Daemon.Candidates
import Vpnmgr.Tunnel.Firewall
import Vpnmgr.Daemon.FailSafe
import Vpnmgr.Tunnel.Exemptions
import Vpnmgr.Daemon.Toggles
import Vpnmgr.Tunnel.Programmed
import Vpnmgr.Daemon.Record
import Vpnmgr.Daemon.Offer
import Vpnmgr.Daemon.Proposal
import Vpnmgr.Daemon.Tuning
import Vpnmgr.Library.Async
import Vpnmgr.Daemon.Pairing
import Vpnmgr.Daemon.Release
import Vpnmgr.Daemon.OwnTraffic
import Vpnmgr.Daemon.Parity
import Vpnmgr.Library.BufRead
import Vpnmgr.Library.Utf8
import Vpnmgr.Ipc.Serve
import Vpnmgr.Daemon.Limits
import Vpnmgr.Daemon.Scores
import Vpnmgr.Daemon.Authority
import Vpnmgr.Daemon.Filtered
import Vpnmgr.Core.Key
import Vpnmgr.Core.WgConf
import Vpnmgr.Library.Fields
import Vpnmgr.Library.Toml
import Vpnmgr.Core.ConfigFile
import Vpnmgr.Core.Import
import Vpnmgr.Core.Render
import Vpnmgr.Daemon.Rates
import Vpnmgr.Daemon.Dismissal
import Vpnmgr.Daemon.Scheduler
import Vpnmgr.Daemon.Notices
import Vpnmgr.Daemon.Restoring
import Vpnmgr.Tunnel.Teardown
import Vpnmgr.Tunnel.Leftovers
import Vpnmgr.Tunnel.Policy
import Vpnmgr.Daemon.Listing
import Vpnmgr.Daemon.Healthy
import Vpnmgr.Library.Json
import Vpnmgr.Ipc.Message
import Vpnmgr.Daemon.Finite
import Vpnmgr.Probe.Concurrent
import Vpnmgr.Probe.Handshake
import Vpnmgr.Daemon.Heard
import Vpnmgr.Daemon.Picking
import Vpnmgr.Daemon.Pass
import Vpnmgr.Daemon.Remeasured
import Vpnmgr.Daemon.Silence
import Vpnmgr.Probe.Throughput
import Vpnmgr.Ipc.Handle
import Vpnmgr.Daemon.Fleet
import Vpnmgr.Daemon.Carrying
import Vpnmgr.Library.Prefix
import Vpnmgr.Library.Collapse
import Vpnmgr.Library.Strike
import Vpnmgr.Library.Words
import Vpnmgr.Tunnel.Lan
import Vpnmgr.Tunnel.Halves
import Vpnmgr.Tunnel.Plan
import Vpnmgr.Tunnel.Withdrawal
import Vpnmgr.Tunnel.Chain
import Vpnmgr.Tunnel.PolicyRules
import Vpnmgr.Tunnel.Mirror
import Vpnmgr.Library.Blocks
import Vpnmgr.Tunnel.Swallow
import Vpnmgr.Library.Alike
import Vpnmgr.Core.Extent
import Vpnmgr.Core.FullTunnel
import Vpnmgr.Core.Filter
import Vpnmgr.Core.Lines
import Vpnmgr.Core.Layout
import Vpnmgr.Core.Secrecy
import Vpnmgr.Library.Exchange
import Vpnmgr.Library.Cut
import Vpnmgr.Ipc.Conversation
import Vpnmgr.Daemon.Deeds
import Vpnmgr.Ipc.Answers
import Vpnmgr.Ipc.Served
import Vpnmgr.Ipc.Session
import Vpnmgr.Core.StatusApi
import Vpnmgr.Ipc.Published
import Vpnmgr.Ipc.Access
import Vpnmgr.Ipc.Live
import Vpnmgr.Library.Errand
import Vpnmgr.Tray.Format
import Vpnmgr.Tray.Menu
import Vpnmgr.Tray.Linux
import Vpnmgr.Tray.Windows
