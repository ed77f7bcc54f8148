import Seftp.BlockChaining
import Seftp.Checksum
import Seftp.ClientStore
import Seftp.Protocol

/-!
# A connection's session and what it shares

`ClientSession` with the store, the file system and the upload limiter it works
on. A handler is a program over all four. The fields that
`reset_transfer_state` clears are one record whose defaults are the values it
restores, so the reset is the assignment of that record.

The primitives of the cryptographic library are parameters; nothing is assumed
of them here. A file is an inode, so a rename moves the content and a handle
keeps its file when the path is gone.
-/
namespace Seftp.ServerSession
open LittleEndian ExceptState OutsideWorld BlockChaining Checksum ClientStore

/-! ### Parameters -/

/-- The limits a session reads. -/
structure Config where
  maxFileSize : ℕ := 100 * 1024 * 1024
  maxPackets : ℕ := 65535
  maxChunkSize : ℕ := 64 * 1024
  maxPayloadSize : ℕ := 10000000
  idleTimeoutS : ℚ := 60
  uploadInactivityTimeoutS : ℚ := 20

/-- What the handlers ask of an imported RSA key. -/
structure RsaKey where
  hasPrivate : Bool
  sizeInBits : ℕ
  e : ℕ
  deriving DecidableEq, Repr

/-- The configuration, the server's identity key and the libraries. An optional
result is absent where the library raises. `oaepEncrypt` and `signTranscript` are
functions of their arguments, where the library draws a seed and a salt for each call. -/
structure Env where
  config : Config
  rsaImport : Bytes → Option RsaKey
  oaepEncrypt : (der key : Bytes) → Option Bytes
  signTranscript : Bytes → Option Bytes
  serverPublicKeyDer : Bytes
  aesDecrypt : (key block : Bytes) → Bytes
  isAlnum : Char → Bool
  repr : String → String

/-- The parameters with the outside world of one event. -/
structure Ctx where
  env : Env
  out : Outside

/-! ### The file system -/

/-- An operation that names paths. -/
inductive PathOp where
  | opened (path : String)
  | replaced (source target : String)
  | removed (path : String)
  deriving DecidableEq

/-- Directories are not represented: an operation on a path that names one is an
operation that the outside world makes raise. -/
structure FileSystem where
  entry : String → Option ℕ
  content : ℕ → Bytes
  nextInode : ℕ
  /-- Operations made so far. -/
  calls : ℕ
  /-- Those that named paths and succeeded, in order. -/
  journal : List PathOp := []

namespace FileSystem

/-- What stands at a path. -/
def read (fs : FileSystem) (path : String) : Option Bytes := (fs.entry path).map fs.content

/-- `open(path, "wb")`: an existing file is emptied and keeps its inode. -/
def create (fs : FileSystem) (path : String) : ℕ × FileSystem :=
  match fs.entry path with
  | some i =>
      (i, { fs with
        content := Function.update fs.content i []
        journal := fs.journal ++ [.opened path] })
  | none =>
      (fs.nextInode,
        { fs with
          entry := Function.update fs.entry path (some fs.nextInode)
          content := Function.update fs.content fs.nextInode []
          nextInode := fs.nextInode + 1
          journal := fs.journal ++ [.opened path] })

def append (fs : FileSystem) (inode : ℕ) (data : Bytes) : FileSystem :=
  { fs with content := Function.update fs.content inode (fs.content inode ++ data) }

/-- `os.replace`: the target's old inode loses the name. -/
def rename (fs : FileSystem) (source target : String) : FileSystem :=
  { fs with
    entry := Function.update (Function.update fs.entry target (fs.entry source)) source none
    journal := fs.journal ++ [.replaced source target] }

def unlink (fs : FileSystem) (path : String) : FileSystem :=
  { fs with entry := Function.update fs.entry path none, journal := fs.journal ++ [.removed path] }

end FileSystem

/-- A POSIX system refuses to create a name longer than `NAME_MAX` bytes. -/
def nameMax : ℕ := 255

abbrev FileProg := Prog FileSystem PyError

/-- One operation. A raising operation has no effect. -/
def fileCall {α : Type} (o : Outside) (f : FileSystem → α × FileSystem) : FileProg α := do
  let fs ← fetch
  update fun fs => { fs with calls := fs.calls + 1 }
  if o.fileRaises fs.calls then raise .os
  else do
    update fun fs => (f fs).2
    pure (f fs).1

/-- `open(path, "wb")`. -/
def openWb (o : Outside) (path : String) : FileProg ℕ :=
  if nameMax < (Text.utf8Encode (Text.basename path)).length then raise .os
  else fileCall o (·.create path)

def writeFile (o : Outside) (inode : ℕ) (data : Bytes) : FileProg Unit :=
  fileCall o fun fs => ((), fs.append inode data)

/-- `os.replace(source, target)`; a missing source raises. -/
def replaceFile (o : Outside) (source target : String) : FileProg Unit := do
  let fs ← fetch
  if (fs.entry source).isNone then raise .os
  else fileCall o fun fs => ((), fs.rename source target)

/-- A call with no effect on what the model holds: `flush`, `close`,
`os.makedirs`. -/
def touchFiles (o : Outside) : FileProg Unit := fileCall o fun fs => ((), fs)

/-- `if os.path.exists(path): os.remove(path)`. -/
def removeIfExists (o : Outside) (path : String) : FileProg Unit := do
  let fs ← fetch
  if (fs.entry path).isSome then fileCall o fun fs => ((), fs.unlink path)
  else pure ()

/-! ### The upload limiter -/

/-- The constructor refuses a limit that is not positive. -/
structure UploadLimiter where
  maxConcurrentUploads : ℕ
  positive : 0 < maxConcurrentUploads
  activeUploads : ℕ
  bounded : activeUploads ≤ maxConcurrentUploads

namespace UploadLimiter

def tryAcquire (l : UploadLimiter) : Bool × UploadLimiter :=
  if h : l.maxConcurrentUploads ≤ l.activeUploads then (false, l)
  else (true, { l with activeUploads := l.activeUploads + 1, bounded := by omega })

def release (l : UploadLimiter) : UploadLimiter :=
  { l with activeUploads := l.activeUploads - 1, bounded := by have := l.bounded; omega }

end UploadLimiter

/-! ### The session -/

/-- A CBC decryption object: its key and the last ciphertext block it saw. -/
structure DecryptCipher where
  key : Bytes
  chain : Bytes
  deriving DecidableEq, Repr

/-- The fields `reset_transfer_state` clears. -/
structure Transfer where
  transferIv : Option Protocol.Iv := none
  uploadActive : Bool := false
  lastUploadProgressTs : Option ℚ := none
  uploadFilename : Option String := none
  expectedPacketNum : Option ℕ := none
  expectedTotalPackets : Option ℕ := none
  expectedContentSize : Option ℕ := none
  expectedOrigFileSize : Option ℕ := none
  receivedCipherBytes : ℕ := 0
  uploadUsername : Option String := none
  uploadAesKey : Option Bytes := none
  uploadClientIdHex : Option String := none
  uploadId : Option ℕ := none
  uploadPath : Option String := none
  uploadCrc : Option UInt32 := none
  uploadDecryptCipher : Option DecryptCipher := none
  uploadTmpPath : Option String := none
  uploadTmpFile : Option ℕ := none
  uploadPlainTail : Bytes := []
  uploadPlainBytesWritten : ℕ := 0
  uploadCrc32State : UInt32 := 0
  deriving DecidableEq

/-- The handshake's four fields. -/
structure Handshake where
  verified : Bool := false
  clientNonce : Option Bytes := none
  serverNonce : Option Bytes := none
  securityVersion : Option UInt8 := none
  deriving DecidableEq, Repr

structure Session where
  connectionId : String
  connectedAt : ℚ
  lastActivity : ℚ
  transfer : Transfer := {}
  hasUploadSlot : Bool := false
  handshake : Handshake := {}
  disconnectReason : String := "unknown"
  lastClientId : Option Bytes := none
  lastVersion : Option Bytes := none
  /-- The messages handed to `writer.write`, in order. -/
  sent : List Bytes := []
  /-- Readings of the monotonic clock so far. -/
  ticks : ℕ := 0

/-- A new `ClientSession`. -/
def Session.fresh (connectionId : String) (now : ℚ) : Session :=
  { connectionId, connectedAt := now, lastActivity := now }

structure World where
  session : Session
  store : Store
  files : FileSystem
  limiter : UploadLimiter

abbrev Server := Prog World PyError

/-! ### Lifting -/

def World.setStore (st : Store) (w : World) : World := { w with store := st }

def World.setFiles (fs : FileSystem) (w : World) : World := { w with files := fs }

def World.setSession (s : Session) (w : World) : World := { w with session := s }

def World.setTransfer (t : Transfer) (w : World) : World :=
  { w with session := { w.session with transfer := t } }

/-- A store operation inside a handler. -/
def onStore {α : Type} (x : StoreProg α) : Server α := zoom World.store World.setStore x

/-- A file operation inside a handler. -/
def onFiles {α : Type} (x : FileProg α) : Server α := zoom World.files World.setFiles x

/-- Assign to fields of the session. -/
def onSession (f : Session → Session) : Server Unit := update fun w => w.setSession (f w.session)

/-- Assign to fields of the transfer. -/
def onTransfer (f : Transfer → Transfer) : Server Unit :=
  update fun w => w.setTransfer (f w.session.transfer)

/-- `store.clients_recent_log[key].append([event, str(datetime.datetime.now())])`. -/
def logEvent (ctx : Ctx) (key : LogKey) (event : String) : Server Unit :=
  update fun w => w.setStore (w.store.appendLog key event (ctx.out.now w.store.calls))

/-! ### The methods of `ClientSession` -/

/-- `time.monotonic()`. -/
def monotonic (ctx : Ctx) : Server ℚ := do
  let n ← look fun w => w.session.ticks
  onSession fun s => { s with ticks := s.ticks + 1 }
  pure (ctx.out.monotonic n)

def markActivity (ctx : Ctx) : Server Unit := do
  let now ← monotonic ctx
  onSession fun s => { s with lastActivity := now }

def markUploadProgress (ctx : Ctx) : Server Unit := do
  let now ← monotonic ctx
  onTransfer fun t => { t with lastUploadProgressTs := some now }
  markActivity ctx

/-- The message is handed to the writer before `drain` may raise. -/
def send (ctx : Ctx) (data : Bytes) : Server Unit :=
  if data = [] then pure ()
  else do
    let n ← look fun w => w.session.sent.length
    onSession fun s => { s with sent := s.sent ++ [data] }
    match ctx.out.sendRaises n with
    | none => markActivity ctx
    | some e =>
        if e = .connectionReset ∨ e = .brokenPipe then do
          onSession fun s => { s with disconnectReason := "send_error" }
          raise e
        else raise e

def onFrameBad (reason : String) : Server Unit :=
  onSession fun s =>
    { s with disconnectReason := if reason = "" then s.disconnectReason else reason }

/-- `release_upload_slot`. -/
def releaseUploadSlot : Server Unit := update fun w =>
  if w.session.hasUploadSlot then
    { w with session := { w.session with hasUploadSlot := false }, limiter := w.limiter.release }
  else w

def closeTmpFile (ctx : Ctx) (t : Transfer) : FileProg Unit :=
  match t.uploadTmpFile with
  | none => pure ()
  | some _ => attempt (touchFiles ctx.out) fun _ => pure ()

def removeTmpFile (ctx : Ctx) (t : Transfer) : FileProg Unit :=
  match t.uploadTmpPath with
  | none => pure ()
  | some path => attempt (removeIfExists ctx.out path) fun _ => pure ()

/-- The temporary file is closed and removed as far as that works. -/
def dropTmpFile (ctx : Ctx) (t : Transfer) : FileProg Unit := do
  closeTmpFile ctx t
  removeTmpFile ctx t

/-- `reset_transfer_state`. -/
def resetTransferState (ctx : Ctx) : Server Unit := do
  let t ← look fun w => w.session.transfer
  onFiles (dropTmpFile ctx t)
  onTransfer fun _ => {}

end Seftp.ServerSession
