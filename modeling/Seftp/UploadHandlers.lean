import Seftp.AccountHandlers

/-!
# Uploads

The handlers of requests 828, 900, 901 and 902. A refusal of any of them has one
shape: the tracked row may be marked as failed, a 1607 may go out, the upload
slot is given back and the transfer state is reset. The checks of 828 are
functions to `Except Refusal`, in the order of the source.
-/
namespace Seftp.UploadHandlers
open LittleEndian ExceptState OutsideWorld BlockChaining Checksum Text Protocol ClientStore
open ServerSession Answers AccountHandlers

/-- How a request is turned down: the reason recorded for the row and the text
of the 1607, where the branch has them. -/
structure Refusal where
  failure : Option String := none
  answer : Option String := none
  deriving DecidableEq, Repr

/-- `_best_effort_fail_upload`. -/
def bestEffortFailUpload (ctx : Ctx) (failureReason : String) : Server Unit := do
  let w ← fetch
  if w.session.transfer.uploadId.isSome then do
    let _ ← onStore (failUploadRecord ctx.out w.session.transfer.uploadId failureReason .failed
      (ctx.out.now w.store.calls))
  else pure ()

def recordFailure (ctx : Ctx) : Option String → Server Unit
  | none => pure ()
  | some reason => bestEffortFailUpload ctx reason

def sendRefusal (ctx : Ctx) (clientId version : Bytes) : Option String → Server Unit
  | none => pure ()
  | some text => answer1607 ctx clientId version text

/-- The end of every refusing branch. -/
def abandon (ctx : Ctx) : Server Unit := do
  releaseUploadSlot
  resetTransferState ctx

def refuse (ctx : Ctx) (clientId version : Bytes) (r : Refusal) : Server Unit := do
  recordFailure ctx r.failure
  sendRefusal ctx clientId version r.answer
  abandon ctx

/-! ### The checks of 828 -/

/-- The fields of an 828 payload. -/
structure Packet where
  contentSize : ℕ
  origFileSize : ℕ
  packetNum : ℕ
  totalPackets : ℕ
  fileName : String
  cipherChunk : Bytes
  deriving DecidableEq, Repr

def parse828 (payload : Bytes) : Except Refusal Packet :=
  match (payload.drop 12).findIdx? (· = 0) with
  | none => .error {}
  | some sep =>
      match utf8Decode ((payload.drop 12).take sep) with
      | none => .error { answer := some "bad 828 payload: name is not valid UTF-8" }
      | some name => .ok
          { contentSize := leNat (payload.take 4)
            origFileSize := leNat ((payload.drop 4).take 4)
            packetNum := leNat ((payload.drop 8).take 2)
            totalPackets := leNat ((payload.drop 10).take 2)
            fileName := basename name
            cipherChunk := (payload.drop 12).drop (sep + 1) }

/-- The first packet of an upload looks up the client and its AES key; later
packets use what that found. -/
def bindUpload (store : Store) (clientIdHex : String) (t : Transfer) : Except Refusal Transfer :=
  if t.uploadClientIdHex.isSome then .ok t
  else
    match store.getClientById clientIdHex with
    | none => .error {}
    | some record =>
        let aesKeyB64 := record.aesKeyB64.getD ""
        if aesKeyB64 = "" then .error { answer := some "bad 828: missing AES key" }
        else
          match b64decode false aesKeyB64 with
          | none => .error { answer := some "bad 828: invalid AES key" }
          | some key => .ok { t with
              uploadAesKey := some key
              uploadUsername := some record.username
              uploadClientIdHex := some clientIdHex }

def validateHeader (config : Config) (p : Packet) : Option String :=
  if p.totalPackets = 0 then some "bad 828: total_packets not valid"
  else if p.totalPackets < p.packetNum then some "bad 828: packet_num out of range"
  else if p.contentSize = 0 then some "bad 828: content_size not valid"
  else if p.origFileSize = 0 then some "bad 828: orig_file_size not valid"
  else if config.maxPackets < p.totalPackets then some "bad 828: total_packets too large"
  else if config.maxFileSize < p.origFileSize then some "bad 828: orig_file_size too large"
  else if config.maxFileSize < p.contentSize then some "bad 828: content_size too large"
  else none

/-- Packet 0 brings the initialisation vector and the announced sizes. A short
vector is reported with the text of the file name check. -/
def acceptIv (t : Transfer) (p : Packet) : Except Refusal Transfer :=
  if t.uploadActive ∨ t.transferIv.isSome then
    .error { answer := some "bad 828 payload: currently uploading with new upload" }
  else if h : p.cipherChunk.length < 16 then
    .error { answer := some "bad 828 payload: name is not valid UTF-8" }
  else .ok { t with
    transferIv := some ⟨p.cipherChunk.take 16, by rw [List.length_take]; omega⟩
    expectedPacketNum := some 1
    expectedTotalPackets := some p.totalPackets
    expectedContentSize := some p.contentSize
    expectedOrigFileSize := some p.origFileSize
    receivedCipherBytes := 0 }

/-- The checks of a ciphertext packet against what packet 0 announced. -/
def checkChunk (config : Config) (t : Transfer) (p : Packet) : Except Refusal Unit :=
  if t.transferIv.isNone then
    .error { failure := some "missing IV packet", answer := some "bad 828: missing IV packet" }
  else if t.expectedPacketNum.getD 0 = 0 then
    .error { failure := some "expected_packet_num is None"
             answer := some "bad 828: expected packet num is not initialize" }
  else if some p.totalPackets ≠ t.expectedTotalPackets then
    .error { failure := some "total_packets != expected_total_packets"
             answer := some "bad 828:total_packets != expected_total_packets" }
  else if some p.contentSize ≠ t.expectedContentSize ∨
      some p.origFileSize ≠ t.expectedOrigFileSize then
    .error { failure := some "content_size or orig_file_size not as expected"
             answer := some "bad 828: content_size or orig_file_size not as expected" }
  else if config.maxChunkSize < p.cipherChunk.length then
    .error { failure := some "cipher_chunk bigger than the max"
             answer := some "bad 828: cipher_chunk bigger than the max" }
  else .ok ()

/-- The checks of a ciphertext packet against what has arrived. Packet 1 has
already started the upload when they run. -/
def checkOrder (t : Transfer) (p : Packet) : Except Refusal Unit :=
  if t.expectedContentSize.getD 0 < t.receivedCipherBytes + p.cipherChunk.length then
    .error { failure := some "content_size will overflow"
             answer := some "bad 828: content_size will overflow" }
  else if some p.packetNum ≠ t.expectedPacketNum then
    .error { failure := some "out of order packet_num", answer := some "bad 828: out of order" }
  else .ok ()

/-! ### Packet 1 -/

/-- `False` when the limit is reached; a slot already held is kept. -/
def acquireUploadSlot : Server Bool := do
  let w ← fetch
  if w.session.hasUploadSlot then pure true
  else if w.limiter.tryAcquire.1 then do
    update fun w => { w with
      session := { w.session with hasUploadSlot := true }
      limiter := w.limiter.tryAcquire.2 }
    pure true
  else pure false

/-- `os.path.normpath` of the client's directory and the file name. -/
def outPath (clientIdHex fileName : String) : String :=
  normPath (joinPath (joinPath "data/uploads" clientIdHex) fileName)

def tmpPath (clientIdHex fileName connectionId : String) : String :=
  outPath clientIdHex fileName ++ ".tmp." ++ connectionId

/-- `AES.new` raises for a key of another length. -/
def newDecryptCipher (key : Bytes) (iv : Bytes) : Except PyError DecryptCipher :=
  if key.length = 16 ∨ key.length = 24 ∨ key.length = 32 then .ok { key, chain := iv }
  else .error (.value "Incorrect AES key length")

/-- The temporary file and the cipher of a new upload. -/
def openUpload (ctx : Ctx) (clientId : Bytes) (p : Packet) : Server Unit := do
  onFiles (touchFiles ctx.out)
  let s ← look fun w => w.session
  let tmp := tmpPath (hex clientId) p.fileName s.connectionId
  onTransfer fun t => { t with
    uploadPath := some (outPath (hex clientId) p.fileName), uploadTmpPath := some tmp }
  let file ← onFiles (openWb ctx.out tmp)
  onTransfer fun t => { t with uploadTmpFile := some file }
  let cipher ← ofExcept (newDecryptCipher (s.transfer.uploadAesKey.getD [])
    ((s.transfer.transferIv.map Subtype.val).getD []))
  onTransfer fun t => { t with
    uploadDecryptCipher := some cipher
    uploadPlainTail := []
    uploadPlainBytesWritten := 0
    uploadCrc32State := 0 }
  logEvent ctx (.clientId clientId) "request_828"

/-- What packet 1 does before the order of packets is checked; `false` means that
it has answered and returned. -/
def startUpload (ctx : Ctx) (clientId version : Bytes) (p : Packet) : Server Bool := do
  let acquired ← acquireUploadSlot
  if !acquired then do
    answer1607 ctx clientId version "server busy: too many concurrent uploads"
    resetTransferState ctx
    pure false
  else do
    onTransfer fun t => { t with uploadActive := true, uploadFilename := some p.fileName }
    markUploadProgress ctx
    let _ ← onStore (touchClientLastSeen ctx.out (hex clientId))
    let t ← look fun w => w.session.transfer
    let uploadId ← onStore (createUploadRecord ctx.out (hex clientId) p.fileName p.origFileSize
      (t.expectedContentSize.getD 0))
    onTransfer fun t => { t with uploadId }
    if uploadId.isNone then do
      refuse ctx clientId version { answer := some "bad 828: upload id is None in db" }
      pure false
    else do
      openUpload ctx clientId p
      pure true

/-! ### Decryption -/

/-- `_write_plain_stream`. -/
def writePlainStream (ctx : Ctx) (plain : Bytes) : Server Unit :=
  if plain = [] then pure ()
  else do
    let file ← look fun w => w.session.transfer.uploadTmpFile
    match file with
    | none => raise .attribute
    | some inode => do
        onFiles (writeFile ctx.out inode plain)
        onTransfer fun t => { t with
          uploadPlainBytesWritten := t.uploadPlainBytesWritten + plain.length
          uploadCrc32State := crc32 plain t.uploadCrc32State }

/-- `cipher.decrypt` of whole blocks. -/
def decryptChunk (ctx : Ctx) (cipherChunk : Bytes) : Server Bytes := do
  let cipher ← look fun w => w.session.transfer.uploadDecryptCipher
  match cipher with
  | none => raise .attribute
  | some c => do
      onTransfer fun t => { t with
        uploadDecryptCipher := some { c with chain := chainValue 16 c.chain cipherChunk } }
      pure (cbcDecrypt (ctx.env.aesDecrypt c.key) 16 c.chain cipherChunk)

/-- Split what may be written now from the block that is held back. -/
def holdBack (combined : Bytes) : Bytes × Bytes :=
  (combined.take (combined.length - 16), combined.drop (combined.length - 16))

/-- `_process_streaming_cipher_chunk`. Until the last packet the final 16 bytes
stay behind, because they may be padding. -/
def processStreamingCipherChunk (ctx : Ctx) (cipherChunk : Bytes) (isLast : Bool) :
    Server Unit := do
  if cipherChunk = [] then raise (.value "empty ciphertext chunk")
  else if cipherChunk.length % 16 ≠ 0 then raise (.value "ciphertext chunk is not block aligned")
  else do
    let plain ← decryptChunk ctx cipherChunk
    let tail ← look fun w => w.session.transfer.uploadPlainTail
    let combined := tail ++ plain
    if isLast then
      match unpad 16 combined with
      | none => raise (.value "invalid PKCS#7 padding")
      | some finalPlain => do
          writePlainStream ctx finalPlain
          onTransfer fun t => { t with uploadPlainTail := [] }
    else if combined.length ≤ 16 then onTransfer fun t => { t with uploadPlainTail := combined }
    else do
      writePlainStream ctx (holdBack combined).1
      onTransfer fun t => { t with uploadPlainTail := (holdBack combined).2 }

/-! ### The last packet -/

/-- After the last packet the temporary file takes its final name and the
checksum is reported. -/
def storeUpload (ctx : Ctx) (clientId version : Bytes) (p : Packet) (tmp path : String) :
    Server Unit := do
  onFiles (touchFiles ctx.out)
  onFiles (touchFiles ctx.out)
  onTransfer fun t => { t with uploadTmpFile := none }
  let t ← look fun w => w.session.transfer
  if t.uploadPlainBytesWritten ≠ p.origFileSize then
    refuse ctx clientId version { failure := some "plaintext size mismatch"
                                  answer := some "bad 828: plaintext size mismatch" }
  else do
    onFiles (replaceFile ctx.out tmp path)
    onTransfer fun t => { t with uploadTmpPath := none, uploadCrc := some t.uploadCrc32State }
    answer1603 ctx clientId version p.fileName p.contentSize t.uploadCrc32State

def finishUpload (ctx : Ctx) (clientId version : Bytes) (p : Packet) : Server Unit := do
  let t ← look fun w => w.session.transfer
  if some t.receivedCipherBytes ≠ t.expectedContentSize then
    refuse ctx clientId version
      { failure := some "received_cipher_bytes != expected_content_size"
        answer := some "bad 828: received_cipher_bytes != expected_content_size" }
  else do
    let _ ← onStore (touchClientLastSeen ctx.out (hex clientId))
    match t.uploadTmpFile, t.uploadTmpPath, t.uploadPath with
    | some _, some tmp, some path => storeUpload ctx clientId version p tmp path
    | _, _, _ =>
        refuse ctx clientId version
          { failure := some "streaming upload file state is missing"
            answer := some "bad 828: streaming upload state missing" }

/-- From the order check to the end of 828. -/
def receiveChunk (ctx : Ctx) (clientId version : Bytes) (p : Packet) : Server Unit := do
  let t ← look fun w => w.session.transfer
  match checkOrder t p with
  | .error r => refuse ctx clientId version r
  | .ok _ => do
      markUploadProgress ctx
      let failed ← attempt
        (do
          processStreamingCipherChunk ctx p.cipherChunk (p.packetNum = p.totalPackets)
          pure none)
        fun e =>
          match e with
          | .value text => pure (some text)
          | e => raise e
      match failed with
      | some text =>
          refuse ctx clientId version
            { failure := some ("streaming decrypt failed: " ++ text)
              answer := some "bad 828: streaming decrypt failed" }
      | none => do
          onTransfer fun t => { t with
            expectedPacketNum := t.expectedPacketNum.map (· + 1)
            receivedCipherBytes := t.receivedCipherBytes + p.cipherChunk.length }
          if p.packetNum = p.totalPackets then finishUpload ctx clientId version p else pure ()

/-! ### Request 828 -/

/-- A packet whose header is valid and whose client owns the upload. -/
def admitPacket (ctx : Ctx) (clientId version : Bytes) (p : Packet) : Server Unit := do
  let t ← look fun w => w.session.transfer
  if p.packetNum = 0 then
    match acceptIv t p with
    | .error r => refuse ctx clientId version r
    | .ok t => onTransfer fun _ => t
  else
    match checkChunk ctx.env.config t p with
    | .error r => refuse ctx clientId version r
    | .ok _ => do
        let go ← if p.packetNum = 1 then startUpload ctx clientId version p else pure true
        if go then receiveChunk ctx clientId version p else pure ()

def request828 (ctx : Ctx) (payload version clientId : Bytes) : Server Unit := do
  match parse828 payload with
  | .error r => refuse ctx clientId version r
  | .ok p => do
      let w ← fetch
      match bindUpload w.store (hex clientId) w.session.transfer with
      | .error r => refuse ctx clientId version r
      | .ok t => do
          onTransfer fun _ => t
          if t.uploadClientIdHex ≠ some (hex clientId) then
            refuse ctx clientId version { answer := some "bad 828: client mismatch during upload" }
          else
            match validateHeader ctx.env.config p with
            | some msg => do
                attempt (answer1607 ctx clientId version msg) fun _ => pure ()
                abandon ctx
            | none => admitPacket ctx clientId version p

/-! ### Requests 900, 901 and 902 -/

/-- The file name of a confirmation. -/
def confirmedName (payload : Bytes) : Except PyError String :=
  match utf8Decode payload with
  | none => .error .unicodeDecode
  | some s => .ok (rstripNulStr s)

def request900 (ctx : Ctx) (payload version clientId : Bytes) : Server Unit := do
  let fileName ← ofExcept (confirmedName payload)
  let _ ← onStore (touchClientLastSeen ctx.out (hex clientId))
  logEvent ctx (.clientId clientId) "request_900"
  let w ← fetch
  let t := w.session.transfer
  match t.uploadId, t.uploadPath, t.uploadCrc with
  | some uploadId, some path, some crc =>
      if t.uploadFilename ≠ some fileName then
        refuse ctx clientId version
          { answer := some "bad 900: session upload attributes are invalid" }
      else do
        let ok ← onStore (completeUploadRecord ctx.out (some uploadId) path crc.toNat
          (ctx.out.now w.store.calls))
        if !ok then
          refuse ctx clientId version
            { answer := some "bad 900: complete upload record problem in db" }
        else do
          answer1604 ctx clientId version
          abandon ctx
  | _, _, _ =>
      refuse ctx clientId version
        { answer := some "bad 900: session upload attributes are invalid" }

def request901 (ctx : Ctx) (payload version clientId : Bytes) : Server Unit := do
  let fileName ← ofExcept (confirmedName payload)
  let _ ← onStore (touchClientLastSeen ctx.out (hex clientId))
  let w ← fetch
  let now := ctx.out.now w.store.calls
  if w.session.transfer.uploadFilename ≠ some fileName then
    refuse ctx clientId version { answer := some "bad 901: session upload name is invalid" }
  else do
    let ok ← onStore (failUploadRecord ctx.out w.session.transfer.uploadId "CRC mismatch"
      .crcMismatch now)
    if !ok then
      refuse ctx clientId version { answer := some "bad 901: fail_upload_record problem in db" }
    else do
      abandon ctx
      update fun w => w.setStore (w.store.appendLog (.clientId clientId) "request_901" now)

def request902 (ctx : Ctx) (payload version clientId : Bytes) : Server Unit := do
  let fileName ← ofExcept (confirmedName payload)
  let _ ← onStore (touchClientLastSeen ctx.out (hex clientId))
  let w ← fetch
  let now := ctx.out.now w.store.calls
  if w.session.transfer.uploadFilename ≠ some fileName then
    refuse ctx clientId version { answer := some "bad 902: session upload name is invalid" }
  else do
    let ok ← onStore (failUploadRecord ctx.out w.session.transfer.uploadId
      "invalid CRC on the 4th time" .failed now)
    if !ok then
      refuse ctx clientId version { answer := some "bad 902: fail_upload_record problem in db" }
    else do
      update fun w => w.setStore (w.store.appendLog (.clientId clientId) "request_902" now)
      answer1604 ctx clientId version
      abandon ctx

end Seftp.UploadHandlers
