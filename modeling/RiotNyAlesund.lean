import RiotNyAlesund.Transition
import RiotNyAlesund.Pace
import RiotNyAlesund.Bursts
import RiotNyAlesund.BurstLink
import RiotNyAlesund.Cells
import RiotNyAlesund.Channel
import RiotNyAlesund.Alternation
import RiotNyAlesund.Bounded
import RiotNyAlesund.Bytes
import RiotNyAlesund.CounterMode
import RiotNyAlesund.Silence
import RiotNyAlesund.Lines
import RiotNyAlesund.HexText
import RiotNyAlesund.Base64
import RiotNyAlesund.FirstMatch
import RiotNyAlesund.Regions
import RiotNyAlesund.Gps
import RiotNyAlesund.GpsBaseFlush
import RiotNyAlesund.GpsBaseBurst
import RiotNyAlesund.GpsBaseBounds
import RiotNyAlesund.GpsBaseRuns
import RiotNyAlesund.GpsBaseTick
import RiotNyAlesund.GpsRoverTick
import RiotNyAlesund.GpsRoverDump
import RiotNyAlesund.GpsRoverTraffic
import RiotNyAlesund.GpsRoverRuns
import RiotNyAlesund.GpsLink
import RiotNyAlesund.GpsTransfer
import RiotNyAlesund.GpsPattern
import RiotNyAlesund.GpsBursts
import RiotNyAlesund.GpsBridge
import RiotNyAlesund.Relay
import RiotNyAlesund.RelayForward
import RiotNyAlesund.RelayWait
import RiotNyAlesund.RelayPolarity
import RiotNyAlesund.RelayProtocol
import RiotNyAlesund.RelayIntegrity
import RiotNyAlesund.RelayTuning
import RiotNyAlesund.RelayWatchdog
import RiotNyAlesund.RelayRecovery
import RiotNyAlesund.RelayBusyWait
import RiotNyAlesund.RadioEvents
import RiotNyAlesund.RelayInterrupts
import RiotNyAlesund.ListenOnly
import RiotNyAlesund.SnowDepth
import RiotNyAlesund.SnowDepthRing
import RiotNyAlesund.SnowDepthFresh
import RiotNyAlesund.SnowDepthLeftover
import RiotNyAlesund.SnowDepthStartup
import RiotNyAlesund.SnowDepthCycle
import RiotNyAlesund.SnowDepthSend
import RiotNyAlesund.SnowDepthLines
import RiotNyAlesund.SnowDepthPace
import RiotNyAlesund.AlertQueue
import RiotNyAlesund.Meshtastic
import RiotNyAlesund.MeshtasticScript
import RiotNyAlesund.HexDump
import RiotNyAlesund.JoinRetry
import RiotNyAlesund.JoinRetryTrace
import RiotNyAlesund.JoinRetryPace
import RiotNyAlesund.RadioSetup
import RiotNyAlesund.Networks
import RiotNyAlesund.Forge
import RiotNyAlesund.Endpoint
