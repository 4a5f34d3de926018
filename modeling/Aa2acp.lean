import Aa2acp.Lib.Bytes
import Aa2acp.Lib.Interaction
import Aa2acp.Lib.History
import Aa2acp.Lib.SerialNumber
import Aa2acp.Lib.Scanner
import Aa2acp.Iap2.Frame
import Aa2acp.Iap2.PhoneLink
import Aa2acp.Iap2.LinkSteps
import Aa2acp.Iap2.LinkSilence
import Aa2acp.Iap2.LinkDelivery
import Aa2acp.Iap2.LinkHandshake
import Aa2acp.Iap2.LinkWindow
import Aa2acp.Iap2.LinkAcknowledgement
import Aa2acp.Iap2.LinkBuffer
import Aa2acp.Iap2.LinkSimilar
import Aa2acp.Iap2.LinkChunking
import Aa2acp.Iap2.FrameScan
import Aa2acp.Iap2.LinkRetransmittedSyn
import Aa2acp.Iap2.LinkStream
import Aa2acp.Iap2.Csm
import Aa2acp.Iap2.CsmStream
import Aa2acp.Iap2.CsmChunking
import Aa2acp.Iap2.Bootstrap
import Aa2acp.Iap2.BootstrapSteps
import Aa2acp.Iap2.BootstrapFailure
import Aa2acp.Iap2.BootstrapAuthentication
import Aa2acp.Iap2.CarPlayProbe
import Aa2acp.Iap2.CarPlayProbeOutcome
import Aa2acp.Iap2.HandOver
import Aa2acp.Airplay.Bplist
import Aa2acp.Airplay.PlistMeasure
import Aa2acp.Airplay.BplistEncoding
import Aa2acp.Airplay.BplistRoundTrip
import Aa2acp.Airplay.BplistReencode
import Aa2acp.Lib.Checked
import Aa2acp.Airplay.BplistMonitor
import Aa2acp.Airplay.BplistSafety
import Aa2acp.Lib.Framing
import Aa2acp.Airplay.Crypto
import Aa2acp.Airplay.ControlCipher
import Aa2acp.Airplay.ControlStream
import Aa2acp.Lib.Modular
import Aa2acp.Airplay.Srp
import Aa2acp.Airplay.SrpAgreement
import Aa2acp.Lib.Text
import Aa2acp.Airplay.EventChannel
import Aa2acp.Bridge.InputReport
import Aa2acp.Bridge.InputFraming
import Aa2acp.Lib.LengthPrefix
import Aa2acp.Lib.Machine
import Aa2acp.Bridge.FrameIpc
import Aa2acp.Bridge.FrameIpcDelivery
import Aa2acp.Bridge.MediaForwarders
import Aa2acp.Bridge.MediaQueue
import Aa2acp.Bridge.MediaReadBack
import Aa2acp.Lib.EntryPoints
import Aa2acp.Bridge.VideoContinuity
import Aa2acp.Lib.Thread
import Aa2acp.Bridge.Config
import Aa2acp.Bridge.ManagementUi
import Aa2acp.Bridge.Daemon
import Aa2acp.Bridge.DaemonHandlers
import Aa2acp.Bridge.DaemonAuthorization
import Aa2acp.Bridge.DaemonTransactions
import Aa2acp.Bridge.DaemonPassphrase
import Aa2acp.Bridge.DaemonStaging
import Aa2acp.Lib.Pacing
import Aa2acp.Airplay.EventAnswers
import Aa2acp.Airplay.Rtsp
import Aa2acp.Airplay.SendEncrypted
import Aa2acp.Airplay.ResponseSearch
import Aa2acp.Lib.Recorded
import Aa2acp.Airplay.Session
import Aa2acp.Airplay.SessionAuthentication
import Aa2acp.Lib.ReplayWindow
import Aa2acp.Airplay.MicrophoneReplay
import Aa2acp.Airplay.RtspFraming
import Aa2acp.Airplay.RtspRoundTrip
import Aa2acp.Airplay.FramesWaiting
import Aa2acp.Lib.ExpGolomb
import Aa2acp.Airplay.SliceHeader
import Aa2acp.Lib.Grouping
import Aa2acp.Airplay.AccessUnits
import Aa2acp.Airplay.AnnexB
import Aa2acp.Airplay.VideoStartup
import Aa2acp.Bridge.DaemonPreflight
import Aa2acp.Iap2.PairingConfirmation
import Aa2acp.Lib.TaggedItems
import Aa2acp.Airplay.Tlv8
import Aa2acp.Lib.DropOldest
import Aa2acp.Bridge.AndroidAutoLoop
import Aa2acp.Bridge.AudioQueue
import Aa2acp.Bridge.FormEncoding
import Aa2acp.Bridge.RequestFraming
import Aa2acp.Lib.KeyLines
import Aa2acp.Airplay.HeadUnitCapabilities
import Aa2acp.Lib.Reader
import Aa2acp.Airplay.PairingStore
import Aa2acp.Lib.Unicode
import Aa2acp.Airplay.Utf16
import Aa2acp.Lib.FileStore
import Aa2acp.Bridge.Stores
import Aa2acp.Lib.FifoHistory
import Aa2acp.Aa.MicrophoneSession
import Aa2acp.Aa.ReceiverQueue
import Aa2acp.Aa.InputPath
import Aa2acp.Aa.MicrophonePath
import Aa2acp.Aa.ControlSession
import Aa2acp.Aa.MediaSinks
import Aa2acp.Iap2.LinkApplication
import Aa2acp.Bridge.BluetoothWorker
import Aa2acp.Bridge.WifiCustody
import Aa2acp.Aa.MicrophoneIngress
import Aa2acp.Iap2.CsmParameters
import Aa2acp.Lib.Escaping
import Aa2acp.Iap2.NetworkManager
import Aa2acp.Bridge.StorablePassphrase
import Aa2acp.Bridge.WorkerArguments
import Aa2acp.Bridge.WorkerProtocol
import Aa2acp.Bridge.WorkerRuns
import Aa2acp.Bridge.DaemonLog
import Aa2acp.Iap2.LinkMoves
import Aa2acp.Iap2.SynRepeat
import Aa2acp.Iap2.Retransmission
import Aa2acp.Lib.Provenance
import Aa2acp.Lib.Replacement
import Aa2acp.Bridge.ManagementPages
import Aa2acp.Bridge.LogsPage
import Aa2acp.Iap2.FrameCodec
import Aa2acp.Bridge.QueueAccounting
import Aa2acp.Lib.Keyed
import Aa2acp.Bridge.DeviceList
import Aa2acp.Lib.Custody
import Aa2acp.Lib.Mutex
import Aa2acp.Bridge.ManagementConnections
import Aa2acp.Bridge.ConnectionsClosed
import Aa2acp.Lib.LittleEndian
import Aa2acp.Airplay.AudioStream
import Aa2acp.Lib.HeaderFraming
import Aa2acp.Airplay.ScreenStream
import Aa2acp.Bridge.PushOrder
import Aa2acp.Airplay.VideoPath
import Aa2acp.Airplay.AudioPath
import Aa2acp.Lib.Scoped
import Aa2acp.Bridge.ManagementListener
import Aa2acp.Airplay.StreamSetup
import Aa2acp.Airplay.StreamOrder
