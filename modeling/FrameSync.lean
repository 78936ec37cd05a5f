import FrameSync.Foundations.Run
import FrameSync.Foundations.Outcome
import FrameSync.Foundations.Program
import FrameSync.Foundations.Observed
import FrameSync.Foundations.PyDict
import FrameSync.Foundations.Table
import FrameSync.Foundations.StepArea
import FrameSync.Foundations.Framing
import FrameSync.Foundations.LuaPattern
import FrameSync.Wire.Sproto
import FrameSync.Wire.Protocol
import FrameSync.Wire.Packing
import FrameSync.Foundations.Search
import FrameSync.Wire.Schema
import FrameSync.Wire.Dispatch
import FrameSync.Wire.Messages
import FrameSync.Foundations.Ring
import FrameSync.Foundations.Buckets
import FrameSync.Skynet.Netpack
import FrameSync.Scene.FrameMgr
import FrameSync.Broadcast.Command
import FrameSync.Scene.FighterWar
import FrameSync.Scene.Emission
import FrameSync.Scene.Roster
import FrameSync.Scene.FrameClock
import FrameSync.Scene.Joining
import FrameSync.Scene.RttStats
import FrameSync.Foundations.MersenneTwister
import FrameSync.Client.Random
import FrameSync.Client.Entity
import FrameSync.Client.GameObj
import FrameSync.Client.Rtt
import FrameSync.Client.Index
import FrameSync.Client.Readable
import FrameSync.Client.Agree
import FrameSync.Client.UpdateLogic
import FrameSync.Client.Lockstep
import FrameSync.Client.Robust
import FrameSync.Client.Operations
import FrameSync.Client.Steps
import FrameSync.Client.Traces
import FrameSync.Client.EntityIndex
import FrameSync.Client.Score
import FrameSync.Client.Collisions
import FrameSync.Client.Turn
import FrameSync.Client.Row
import FrameSync.Client.GameOver
import FrameSync.Client.Bounds
import FrameSync.Client.Membership
import FrameSync.Client.Keys
import FrameSync.Client.RpcService
import FrameSync.Client.Reading
import FrameSync.Server.Letters
import FrameSync.Server.Gate
import FrameSync.Server.GateProtocol
import FrameSync.Server.OpenSockets
import FrameSync.Server.Import
import FrameSync.Server.Agent
import FrameSync.Server.Ping
import FrameSync.Server.RttReports
import FrameSync.Server.TimerObject
import FrameSync.Server.TimerRuns
import FrameSync.Server.SceneMgr
import FrameSync.Server.Scene
import FrameSync.Server.World
import FrameSync.Server.Routes
import FrameSync.Server.Sessions
import FrameSync.Server.TimedAgent
import FrameSync.Server.Handshake
import FrameSync.Server.Matchmaking
import FrameSync.Server.Directory
import FrameSync.Server.Seats
import FrameSync.Server.Pushes
import FrameSync.Server.OpenPlaces
import FrameSync.Server.Games
import FrameSync.Server.Finished
import FrameSync.Server.TimedScene
import FrameSync.Server.Sockets
import FrameSync.Server.Stays
import FrameSync.Server.Streams
import FrameSync.Server.Ghosts
import FrameSync.Server.Delivery
import FrameSync.Server.Authorship
import FrameSync.Server.Utils
import FrameSync.Foundations.LuaHeap
import FrameSync.Server.Reload
import FrameSync.Server.Requests
import FrameSync.Client.HandOff
import FrameSync.Server.Reading
import FrameSync.Foundations.LinkedQueue
import FrameSync.Skynet.MessageQueue
import FrameSync.Skynet.Workers
import FrameSync.Skynet.InOrder
import FrameSync.Foundations.Slots
import FrameSync.Skynet.Timer
import FrameSync.Skynet.TimerThread
