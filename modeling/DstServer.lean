import DstServer.Recovery.FixedTarget
import DstServer.Recovery.Rollback
import DstServer.Agent.LaunchBound
import DstServer.Lib.LocalTime
import DstServer.Lib.Ranges
import DstServer.Policy.Schedule
import DstServer.Policy.Opening
import DstServer.Policy.Refinement
import DstServer.Policy.Plan
import DstServer.Policy.Steps
import DstServer.Policy.Windows
import DstServer.Policy.Maintenance
import DstServer.Policy.Countdown
import DstServer.Policy.Idle
import DstServer.Driver.Model
import DstServer.Driver.System
import DstServer.Driver.Steps
import DstServer.Driver.Framing
import DstServer.Driver.Ownership
import DstServer.Driver.Delivery
import DstServer.Configuration.Ini
import DstServer.Deployment.Unit
import DstServer.Deployment.RoundTrip
import DstServer.Deployment.Ports
import DstServer.Lib.Address
import DstServer.Configuration.Settings
import DstServer.Configuration.SettingsFile
import DstServer.Configuration.SettingsRoundTrip
import DstServer.Configuration.Cluster
import DstServer.Configuration.Saved
import DstServer.Configuration.SavedRoom
import DstServer.Configuration.SaveDiscover
import DstServer.Recovery.Native
import DstServer.Recovery.NativeRun
import DstServer.Lib.Parts
import DstServer.Process.Output
import DstServer.Process.Chunks
import DstServer.Driver.Readiness
import DstServer.Lib.Numeral
import DstServer.Rpc.Codec
import DstServer.Rpc.RoundTrip
import DstServer.Rpc.Subscription
import DstServer.Rpc.Accounting
import DstServer.Telemetry.Exporter
import DstServer.Telemetry.Settlement
import DstServer.Telemetry.Accounts
import DstServer.Scripts.Bundle
import DstServer.Scripts.Inspect
import DstServer.Scripts.Build
import DstServer.Lua.Syntax
import DstServer.Lua.Literal
import DstServer.Lua.Strings
import DstServer.Lua.Spelling
import DstServer.Lua.RoundTrip
import DstServer.Lib.Utf8
import DstServer.Lib.Radix
import DstServer.Lib.Path
import DstServer.Archive.KleiId
import DstServer.Archive.Paths
import DstServer.Archive.Collisions
import DstServer.Lib.Bytes
import DstServer.Archive.Zip
import DstServer.Archive.ZipExact
import DstServer.Policy.Gates
import DstServer.Lib.Document
import DstServer.Rooms.Edit
import DstServer.Rooms.EditLaw
import DstServer.Lua.Scan
import DstServer.Lua.Calls
import DstServer.Mods.Setup
import DstServer.Mods.SetupScan
import DstServer.Lua.Grammar
import DstServer.Lua.Depth
import DstServer.Lib.Paging
import DstServer.Snapshots.Listing
import DstServer.Rooms.Permissions
import DstServer.Rooms.Changes
import DstServer.Snapshots.Selection
import DstServer.Rooms.RenderIni
import DstServer.Driver.Telemetry
import DstServer.Policy.Notices
import DstServer.Driver.Connections
import DstServer.Driver.Observation
import DstServer.Driver.Presence
import DstServer.Recovery.Bootstrap
import DstServer.Recovery.Requests
import DstServer.Agent.Room
import DstServer.Agent.CleanStop
import DstServer.Logs.Journal
import DstServer.Logs.Pages
import DstServer.Deployment.Dropins
import DstServer.Deployment.Overrides
import DstServer.Lib.Fields
import DstServer.Lib.Decoder
import DstServer.Presets.World
import DstServer.Presets.Model
import DstServer.Presets.Canonical
import DstServer.Presets.Compose
import DstServer.Lib.JsonText
import DstServer.Runtime.Quote
import DstServer.Runtime.Decode
import DstServer.Runtime.DecodeLaw
import DstServer.Runtime.Encode
import DstServer.Runtime.EncodeLaw
import DstServer.Runtime.EncodeFault
import DstServer.Runtime.RoundTrip
import DstServer.Runtime.Response
import DstServer.Runtime.Rpc
import DstServer.Runtime.RpcLaw
import DstServer.Driver.Lines
import DstServer.Runtime.Request
import DstServer.Runtime.Exchange
