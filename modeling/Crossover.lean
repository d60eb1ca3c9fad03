import Crossover.Lib.FirstFree
import Crossover.Lib.History
import Crossover.Lib.Machine
import Crossover.Lib.Lobby
import Crossover.Wire.BitStream
import Crossover.Wire.Protocol
import Crossover.Wire.Peer
import Crossover.Server.Config
import Crossover.Server.RelayServer
import Crossover.Server.Messages
import Crossover.Server.PlayerTable
import Crossover.Server.Roster
import Crossover.Server.Teardown
import Crossover.Server.Transparency
import Crossover.Mod.Engine
import Crossover.Mod.NetPlayerManager
import Crossover.Mod.Network
import Crossover.System.WireFormat
import Crossover.Mod.Effects
import Crossover.Lib.Listener
import Crossover.Mod.Avatars
import Crossover.System.Client
import Crossover.Server.Channel
import Crossover.System.Announcements
import Crossover.Mod.Waiting
import Crossover.Server.Gate
import Crossover.System.SpawnGate
import Crossover.Lib.Framing
import Crossover.Tunnel.Socket
import Crossover.Tunnel.Pump
import Crossover.Tunnel.Client
import Crossover.Tunnel.Fidelity
import Crossover.Lib.Audience
import Crossover.System.Attendance
import Crossover.System.HostLobby
import Crossover.System.HostRefinement
import Crossover.Server.Isolation
import Crossover.Server.Anchor
import Crossover.Tunnel.Deframing
import Crossover.Tunnel.Replies
import Crossover.Mod.Emptying
import Crossover.Mod.Registry
import Crossover.Mod.Hero
import Crossover.Lib.Board
import Crossover.Mod.Positions
import Crossover.Mod.Frame
import Crossover.Mod.Reach
import Crossover.System.HostGate
import Crossover.Lib.RateLimit
import Crossover.Server.FloodGuard
import Crossover.System.RosterMessage
import Crossover.System.ShortPackets
import Crossover.Mod.HostTable
import Crossover.Lib.Walk
import Crossover.Mod.RegionLoad
import Crossover.Mod.NetMainGameComponent
import Crossover.Mod.Opening
import Crossover.Tunnel.Capacity
import Crossover.Lib.Json
import Crossover.Server.Status
import Crossover.Tunnel.Buffer
import Crossover.Lib.Memory
import Crossover.Lib.X86
import Crossover.Mod.LocalIds
import Crossover.Tools.UiProbe
import Crossover.Tools.Trampoline
import Crossover.Tools.MenuAppend
import Crossover.Tools.EscapeMenu
import Crossover.Tools.ConsoleTable
import Crossover.Lib.Nearest
import Crossover.Lib.Binary32
import Crossover.Server.StateFile
import Crossover.Server.Restarts
import Crossover.Lib.Http
import Crossover.Server.StatusServer
import Crossover.Tunnel.Shutdown
import Crossover.Lib.Past
import Crossover.Mod.Motion
import Crossover.System.Sightings
import Crossover.Lib.Search
import Crossover.Lib.Addressee
import Crossover.System.Agreement
import Crossover.System.Joining
import Crossover.System.Leaving
import Crossover.Tools.Rtti
import Crossover.Tools.StrFind
import Crossover.Lib.Readmission
import Crossover.Server.Accounts
import Crossover.Server.Containment
