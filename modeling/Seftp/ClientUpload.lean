import Seftp.ClientDialogue

/-!
# The client's upload

`request_828_streaming` reads the file in pieces of 64 KiB, encrypts the whole
blocks it has and cuts the ciphertext into packets; what is short of a block or of a
packet waits for more. `request_828_retry` repeats it until a checksum matches, at
most four times, and `send_single_file` reads one more response.
-/
namespace Seftp.ClientUpload
open LittleEndian ExceptState BlockChaining Checksum Text Protocol ClientProgram ClientDialogue

/-! ### Sizes -/

def paddedCbcSize (plainSize : ℕ) : ℕ := plainSize + (16 - plainSize % 16)

def chooseUploadChunkSize (cipherSize : ℕ) : ℕ :=
  (max 8192 ((cipherSize + 65535 - 1) / 65535) + 1023) / 1024 * 1024

def packetCount (cipherSize : ℕ) : ℕ :=
  (cipherSize + chooseUploadChunkSize cipherSize - 1) / chooseUploadChunkSize cipherSize

/-- What is fixed for the packets of one upload. -/
structure Upload where
  cid : ClientId
  cipherSize : ℕ
  plainSize : ℕ
  totalPackets : ℕ
  chunkSize : ℕ
  fileName : Bytes
  key : Bytes

/-- The variables of the streaming loop. The encryptor is its chaining block. -/
structure Streaming where
  packetNum : ℕ := 1
  sentCipherBytes : ℕ := 0
  pendingCipherPacket : Bytes := []
  pendingPlain : Bytes := []
  chain : Bytes
  crc : UInt32 := 0
  deriving DecidableEq, Repr

section
variable {σ : Type}

/-! ### Streaming -/

def sendPacket (env : ClientEnv σ) (u : Upload) (packetData : Bytes) (s : Streaming) :
    Client σ Streaming := do
  if packetData = [] then raise "attempted to send empty upload packet"
  else if u.totalPackets < s.packetNum then raise "attempted to send too many upload packets"
  else do
    let message ← ofExcept (build828PacketChunk u.cid u.cipherSize u.plainSize s.packetNum
      u.totalPackets u.fileName packetData)
    write env message
    pure { s with
      sentCipherBytes := s.sentCipherBytes + packetData.length
      packetNum := s.packetNum + 1 }

/-- The loop of `append_cipher_bytes`. Every round takes a packet off the pending
bytes, so their number is fuel enough. -/
def sendFullPackets (env : ClientEnv σ) (u : Upload) : ℕ → Streaming → Client σ Streaming
  | 0, s => pure s
  | fuel + 1, s =>
      if s.pendingCipherPacket.length < u.chunkSize then pure s
      else do
        let s ← sendPacket env u (s.pendingCipherPacket.take u.chunkSize)
          { s with pendingCipherPacket := s.pendingCipherPacket.drop u.chunkSize }
        sendFullPackets env u fuel s

def appendCipherBytes (env : ClientEnv σ) (u : Upload) (data : Bytes) (s : Streaming) :
    Client σ Streaming :=
  sendFullPackets env u (s.pendingCipherPacket ++ data).length
    { s with pendingCipherPacket := s.pendingCipherPacket ++ data }

/-- `encryptor.ProcessData` and the packets it completes. -/
def encryptBlocks (env : ClientEnv σ) (u : Upload) (plain : Bytes) (s : Streaming) :
    Client σ Streaming :=
  let encrypted := cbcEncrypt (env.aesEncrypt u.key) 16 s.chain plain
  appendCipherBytes env u encrypted { s with chain := chainValue 16 s.chain encrypted }

/-- One piece of the file: the whole blocks are encrypted, the rest is kept. -/
def takePiece (env : ClientEnv σ) (u : Upload) (got : Bytes) (s : Streaming) :
    Client σ Streaming := do
  let plain := s.pendingPlain ++ got
  let fullBlockLen := plain.length / 16 * 16
  let s := { s with crc := crc32 got s.crc, pendingPlain := plain }
  if 0 < fullBlockLen then do
    let s ← encryptBlocks env u (plain.take fullBlockLen) s
    pure { s with pendingPlain := plain.drop fullBlockLen }
  else pure s

def readSize : ℕ := 64 * 1024

/-- The reading loop. It ends with a read that fails, finds nothing or comes back
short. -/
def readPieces (env : ClientEnv σ) (u : Upload) : ℕ → Bytes → Streaming → Client σ Streaming
  | 0, _, s => pure s
  | fuel + 1, rest, s => do
      let failed ← fails env
      if failed ∨ rest = [] then pure s
      else do
        let s ← takePiece env u (rest.take readSize) s
        if rest.length < readSize then pure s else readPieces env u fuel (rest.drop readSize) s

/-- What is short of a packet at the end is the last one. -/
def sendRest (env : ClientEnv σ) (u : Upload) (s : Streaming) : Client σ Streaming :=
  if s.pendingCipherPacket = [] then pure s else sendPacket env u s.pendingCipherPacket s

/-- The padding, the last packet and the two checks at the end. -/
def finishStream (env : ClientEnv σ) (u : Upload) (s : Streaming) : Client σ UInt32 := do
  let s ← encryptBlocks env u (pad 16 s.pendingPlain) s
  let s ← sendRest env u s
  if s.sentCipherBytes ≠ u.cipherSize then
    raise "streaming upload sent unexpected ciphertext size"
  else if s.packetNum ≠ u.totalPackets + 1 then
    raise "streaming upload sent unexpected packet count"
  else pure s.crc

/-- From packet 0 on. -/
def streamUpload (env : ClientEnv σ) (u : Upload) (path : Bytes) : Client σ UInt32 := do
  let n ← tick
  write env (build828Packet0Iv u.cid u.cipherSize u.plainSize u.totalPackets u.fileName
    (env.makeIv n))
  let content ← openFile env path
  match content with
  | none => raise "failed to open file: "
  | some content => do
      let s ← readPieces env u (content.length + 1) content { chain := (env.makeIv n).val }
      finishStream env u s

/-- The sizes and the key, checked in the order of the source. -/
def prepareUpload (uuid encryptKey path content : Bytes) : Except String Upload :=
  let plainSize := content.length
  let cipherSize := paddedCbcSize plainSize
  if 2 ^ 32 ≤ plainSize then .error "file too large for current 828 protocol"
  else if 2 ^ 32 ≤ cipherSize then .error "ciphertext too large for current 828 protocol"
  else if packetCount cipherSize = 0 ∨ 65535 < packetCount cipherSize then
    .error "too many upload packets"
  else
    match parseClientIdHex32 uuid with
    | .error e => .error e
    | .ok cid =>
        if (decodeBase64 encryptKey).length ≠ 32 then .error "AES key must be exactly 32 bytes"
        else .ok
          { cid, cipherSize, plainSize
            totalPackets := packetCount cipherSize
            chunkSize := chooseUploadChunkSize cipherSize
            fileName := protocolFilenameFromPath path
            key := decodeBase64 encryptKey }

/-- `request_828_streaming`: the checksum of the file, or `none` after an error. -/
def request828Streaming (env : ClientEnv σ) (uuid encryptKey path : Bytes) :
    Client σ (Option UInt32) :=
  attempt
    (do
      let file ← look fun w => w.files path
      match file with
      | none => raise "filesystem error: cannot get file size"
      | some content => do
          let u ← ofExcept (prepareUpload uuid encryptKey path content)
          let crc ← streamUpload env u path
          note (.streamed crc)
          pure (some crc))
    fun _ => pure none

/-! ### The outcome of an attempt -/

/-- `request_900`, `request_901` and `request_902` build the same payload. -/
def confirm (env : ClientEnv σ) (build : ClientId → Bytes → Bytes) (name uuid : Bytes) :
    Client σ Unit :=
  writeLogged env ((parseClientIdHex32 uuid).map fun cid => build cid name)

def request900 (env : ClientEnv σ) (name uuid : Bytes) : Client σ Unit :=
  confirm env build900CrcOk name uuid

def request901 (env : ClientEnv σ) (name uuid : Bytes) : Client σ Unit :=
  confirm env build901CrcRetry name uuid

def request902 (env : ClientEnv σ) (name uuid : Bytes) : Client σ Unit :=
  confirm env build902CrcFail name uuid

/-- The report of a mismatch: the fourth gives up. -/
def reportMismatch (env : ClientEnv σ) (left : ℕ) (name uuid : Bytes) : Client σ Unit :=
  if left = 0 then request902 env name uuid else request901 env name uuid

def maxRetries : ℕ := 4

/-- The loop of `request_828_retry` with the attempts that are left. It ends
with a match, with the last attempt, with a file that could not be sent or with a
fatal response. -/
def retryLoop (env : ClientEnv σ) (encryptKey path : Bytes) : ℕ → Client σ Unit
  | 0 => pure ()
  | left + 1 => do
      let cc ← look fun w => w.cc
      let original ← request828Streaming env cc.clientId encryptKey path
      match original with
      | none => setError (utf8Encode "upload send failed before receiving server CRC")
      | some crc => do
          let (step, crcOk) ← answerManager env (some crc)
          if step = .fatal then pure ()
          else do
            let cc ← look fun w => w.cc
            if crcOk then request900 env (protocolFilenameFromPath path) cc.clientId
            else do
              reportMismatch env left (protocolFilenameFromPath path) cc.clientId
              retryLoop env encryptKey path left

def request828Retry (env : ClientEnv σ) (encryptKey path : Bytes) : Client σ Unit :=
  retryLoop env encryptKey path maxRetries

/-- `send_single_file` on a socket that is open or not. -/
def sendSingleFile (env : ClientEnv σ) (isOpen : Bool) (aesKey path : Bytes) : Client σ Bool := do
  setError []
  let normalized := normalizeUserPathInput path
  let there ← fileExists normalized
  if normalized = [] ∨ !there then do
    setError (utf8Encode "file does not exist or is not a regular file: " ++ normalized)
    pure false
  else if !isOpen then failWith "not connected"
  else if aesKey = [] then failWith "missing AES key"
  else do
    let went ← attempt
      (do
        request828Retry env aesKey normalized
        pure true)
      fun e => failWith e
    if !went then pure false
    else do
      let (step, _) ← answerManager env
      pure (step ≠ .fatal)

end

end Seftp.ClientUpload
