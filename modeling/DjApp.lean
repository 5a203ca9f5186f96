import DjApp.Library.Utf16
import DjApp.Library.BinaryRounding
import DjApp.Library.Machine
import DjApp.Protocol.Json
import DjApp.Server.Validate
import DjApp.Server.Room
import DjApp.Server.ValidateProperties
import DjApp.Server.RoomTransitions
import DjApp.Library.AssocList
import DjApp.Server.RoomProperties
import DjApp.Server.SentFrames
import DjApp.Server.Outsiders
import DjApp.Server.Replica
import DjApp.Server.ReplicaProperties
import DjApp.Server.RateLimit
import DjApp.Server.RateLimitProperties
import DjApp.Client.Types
import DjApp.Client.Ranges
import DjApp.Client.StateManager
import DjApp.Engine.BufferPlaybackSource
import DjApp.Engine.EngineAdapter
import DjApp.Engine.EngineAdapterProperties
import DjApp.Server.FrameJson
import DjApp.Client.Serialization
import DjApp.Client.SyncPublisher
import DjApp.Client.MainComponent
import DjApp.Client.WebSocketTransport
import DjApp.Client.FrameDecoding
import DjApp.Client.FrameHandling
import DjApp.Client.SnapshotProperties
import DjApp.Client.PublisherProperties
import DjApp.Client.ClientRun
import DjApp.Client.ControllerStream
import DjApp.Server.Config
import DjApp.Server.ReplicaFrames
import DjApp.Server.Crowd
import DjApp.Client.ReplicaKnowledge
import DjApp.Client.ControlLock
import DjApp.Client.PublishedDeltas
import DjApp.Client.SoundStates
import DjApp.System.World
import DjApp.Client.Standing
import DjApp.System.Messages
import DjApp.System.Followers
import DjApp.System.Proper
import DjApp.System.Invariant
import DjApp.System.Control
import DjApp.System.Governing
import DjApp.System.Serving
import DjApp.System.Convergence
import DjApp.System.Stages
import DjApp.System.LongRun
import DjApp.System.LateSequence
import DjApp.Client.AcceptedChanges
import DjApp.System.DeltaTransport
import DjApp.Client.SequenceNumbers
import DjApp.Engine.Mixer
import DjApp.Engine.MixerProperties
import DjApp.Engine.Rendering
import DjApp.Client.Player
import DjApp.Client.PlayerProperties
import DjApp.System.Resync
import DjApp.Client.Mirror
import DjApp.System.Handover
import DjApp.Library.DecimalText
import DjApp.Protocol.Stringify
import DjApp.Server.FrameSize
import DjApp.Server.Transport
import DjApp.Server.TransportProperties
import DjApp.Server.TransportRuns
import DjApp.System.Lifecycle
import DjApp.Server.Strikes
import DjApp.System.ThreeStrikes
import DjApp.Library.RoundingError
import DjApp.Library.TokenBucket
import DjApp.Library.Windows
import DjApp.Server.BucketBounds
import DjApp.Client.PublisherStream
import DjApp.System.PublishedStream
import DjApp.Library.DecimalLength
import DjApp.Protocol.TextLength
import DjApp.Server.FrameBounds
import DjApp.Server.FullRoom
import DjApp.Client.LocalFileRepository
import DjApp.Client.NameAgreement
import DjApp.Library.FractionalCarry
import DjApp.Engine.Playback
import DjApp.Engine.TempoAccumulator
import DjApp.Library.ReadHead
import DjApp.Engine.PullHead
import DjApp.Engine.IdentityTimeStretcher
import DjApp.Engine.BlockPartition
import DjApp.Library.ExactRounding
import DjApp.Engine.Drain
import DjApp.Engine.ReportedPosition
import DjApp.Engine.Interleaving
import DjApp.Engine.EpochReclaim
import DjApp.Engine.LoopSlots
import DjApp.Engine.Commands
import DjApp.Client.PositionCadence
import DjApp.Client.ClockSteps
import DjApp.Engine.Uninterrupted
import DjApp.Client.CodecProperties
import DjApp.Client.StateHistory
import DjApp.Library.Patches
import DjApp.Client.TokenListenerList
import DjApp.Client.Reentrancy
import DjApp.Client.DeltaListeners
import DjApp.Engine.CrossfaderListeners
import DjApp.Engine.BeatSync
import DjApp.Engine.SyncSeek
import DjApp.Client.DeckComponent
import DjApp.Client.LoopGesture
import DjApp.Library.Wrapping
import DjApp.Engine.PlayedPosition
import DjApp.Client.DisplayedPosition
import DjApp.Library.IeeeDouble
import DjApp.Engine.RenderAccess
import DjApp.Engine.RenderSafety
import DjApp.Client.ListenerWalk
import DjApp.Library.Pattern
import DjApp.Library.SurrogatePairs
import DjApp.Server.UnpairedSurrogate
import DjApp.Client.TransportThreads
import DjApp.Client.MarshalledCallbacks
import DjApp.Client.Sessions
import DjApp.Client.SnapshotRequests
import DjApp.System.Offline
import DjApp.System.ThreadedWorld
import DjApp.System.ThreadedSteps
import DjApp.System.ThreadedRefinement
import DjApp.System.ThreadedConvergence
import DjApp.Server.Watches
import DjApp.Library.Since
import DjApp.Server.WatchRuns
import DjApp.System.Shutdown
import DjApp.Client.HostileFrames
import DjApp.Server.RoomCode
import DjApp.Client.DecodedTracks
import DjApp.System.Exchanges
import DjApp.System.Settling
import DjApp.System.Greetings
import DjApp.System.HonestClients
import DjApp.Library.Median
import DjApp.Engine.QmDspBeatDetector
import DjApp.Client.SelfStops
import DjApp.Engine.PlayedOut
import DjApp.Client.Resume
import DjApp.Client.DeckRules
import DjApp.System.ThreadedScenario
