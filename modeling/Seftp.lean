import Seftp.ExceptState
import Seftp.LittleEndian
import Seftp.StreamCutting
import Seftp.BlockChaining
import Seftp.Checksum
import Seftp.Base64
import Seftp.Text
import Seftp.Protocol
import Seftp.Framing
import Seftp.OutsideWorld
import Seftp.ClientStore
import Seftp.StoreFrames
import Seftp.ServerSession
import Seftp.Answers
import Seftp.SessionFrames
import Seftp.AccountHandlers
import Seftp.UploadHandlers
import Seftp.HandlerParts
import Seftp.HandlerFrames
import Seftp.UploadSteps
import Seftp.ChunkSteps
import Seftp.AccountSteps
import Seftp.Router
import Seftp.FrameSteps
import Seftp.RequestRoundTrip
import Seftp.HandshakeGate
import Seftp.UploadStages
import Seftp.UploadSlot
import Seftp.ConnectionLoop
import Seftp.UploadRecords
import Seftp.KeySteps
import Seftp.KeyBinding
import Seftp.UploadTrail
import Seftp.MalformedStreams
import Seftp.FileMoves
import Seftp.UploadPaths
import Seftp.TemporaryFiles
import Seftp.RowSteps
import Seftp.Confirmations
import Seftp.PacketReports
import Seftp.KeyAgreement
import Seftp.FileTouches
import Seftp.UploadLedger
import Seftp.StoredFiles
import Seftp.CompletedRecords
import Seftp.UploadSoundness
import Seftp.UploadNames
import Seftp.KeyFreshness
import Seftp.PrivateKeyPolicy
import Seftp.SignedTranscripts
import Seftp.PayloadCodecs
import Seftp.PartialReads
import Seftp.ResponseStream
import Seftp.ResponseSteps
import Seftp.SharedSlots
import Seftp.SlotAccounting
import Seftp.ConnectionAdmission
import Seftp.KeyedRows
import Seftp.StoreRuns
import Seftp.ClientStream
import Seftp.UploadAcceptance
import Seftp.UploadDelivery
import Seftp.StreamedDecryption
import Seftp.NativeFrames
import Seftp.NativeConnection
import Seftp.CompletionHandlers
import Seftp.AsyncAgreement
import Seftp.ServerStrand
import Seftp.ServerTrust
import Seftp.SessionClock
import Seftp.ReadLoop
import Seftp.FailureReports
import Seftp.SlidingWindow
import Seftp.RequestRate
import Seftp.FileReplacement
import Seftp.UploadPackets
import Seftp.SizeLimits
import Seftp.UploadBounds
import Seftp.Pipeline
import Seftp.LinkedClient
import Seftp.UploadReplies
import Seftp.ResponseSync
import Seftp.KeyAuthenticity
import Seftp.KeyColumns
import Seftp.StoreParts
import Seftp.Restarts
