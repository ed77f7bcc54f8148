import Seftp.Base64
import Seftp.BlockChaining
import Seftp.Checksum
import Seftp.ExceptState
import Seftp.Protocol
import Seftp.Text

/-!
# The client's side of the connection

What the client's functions work on: its context, its local files, the bytes that
have arrived and are unread, and the other end of the connection. The other end is
a parameter with a state of its own: it hears every message the client writes and
may speak when the client waits. The trace records what the client has done; no
function reads it.

A `std::string` is a byte string here, and a file name is one too.
-/
namespace Seftp.ClientProgram
open LittleEndian ExceptState BlockChaining Text Protocol

/-! ### Parameters -/

/-- The libraries, the outside world and the other end. An optional result is
absent where the library throws. Every call on the outside world counts, and the
answer may depend on the count. -/
structure ClientEnv (σ : Type) where
  sha256Hex : Bytes → Bytes
  /-- `VerifyMessage` under a public key loaded from DER; false where the load
  throws. -/
  verifyMessage : (der message signature : Bytes) → Bool
  /-- Decryption under a private key loaded from DER. -/
  oaepDecrypt : (privateDer ciphertext : Bytes) → Option Bytes
  /-- The public key of a private key, both as DER. -/
  publicOf : Bytes → Option Bytes
  aesEncrypt : (key block : Bytes) → Bytes
  /-- A new key pair: private and public DER. -/
  newKeypair : ℕ → Option (Bytes × Bytes)
  nonce : ℕ → Nonce
  makeIv : ℕ → Iv
  writeRaises : ℕ → Bool
  /-- An operation on a local file. -/
  fileFails : ℕ → Bool
  /-- What the other end does with a message, and the bytes it answers. -/
  hears : Bytes → σ → σ × Bytes
  /-- What the other end sends while the client waits for a response. -/
  speaks : σ → σ × Bytes

/-! ### State -/

/-- `ClientContext`, less the fields that nothing reads. -/
structure ClientContext where
  clientId : Bytes := []
  username : Bytes := []
  needRegister : Bool := false
  sendPublicKey : Bool := false
  lastErrorText : Bytes := []
  securityVersion : UInt8 := 0
  clientNonce : Bytes := List.replicate 32 0
  serverNonce : Bytes := List.replicate 32 0
  stage7HandshakeComplete : Bool := false
  serverPublicKeyDer : Bytes := []
  deriving DecidableEq, Repr

inductive Event where
  | wrote (message : Bytes)
  | read (frame : ResponseFrame)
  /-- A file has been streamed and this is its checksum. -/
  | streamed (crc : UInt32)
  /-- A key has been written to `aes.key`. -/
  | savedKey (aesKeyB64 : Bytes)
  /-- A new key pair has been generated. -/
  | madeKeypair
  deriving DecidableEq, Repr

structure ClientWorld (σ : Type) where
  cc : ClientContext
  files : Bytes → Option Bytes
  incoming : Bytes
  peer : σ
  trace : List Event
  calls : ℕ

/-- A client function; what it throws is the text of `what()`. -/
abbrev Client (σ : Type) := Prog (ClientWorld σ) String

section
variable {σ : Type}

def onContext (f : ClientContext → ClientContext) : Client σ Unit :=
  update fun w => { w with cc := f w.cc }

def note (e : Event) : Client σ Unit := update fun w => { w with trace := w.trace ++ [e] }

/-- `cc.last_error_text = …`. -/
def setError (text : Bytes) : Client σ Unit := onContext fun cc => { cc with lastErrorText := text }

/-- The number of calls on the outside world so far, and one more. -/
def tick : Client σ ℕ := do
  let n ← look fun w => w.calls
  update fun w => { w with calls := w.calls + 1 }
  pure n

/-! ### Local files -/

def fails (env : ClientEnv σ) : Client σ Bool := do
  let n ← tick
  pure (env.fileFails n)

def setFile (name : Bytes) (content : Option Bytes) : Client σ Unit :=
  update fun w => { w with files := Function.update w.files name content }

def kMeInfo : Bytes := utf8Encode "me.info"
def kAesKey : Bytes := utf8Encode "aes.key"
def kPrivKey : Bytes := utf8Encode "priv.key"
def kFingerprint : Bytes := utf8Encode "server.fingerprint"
def kServerPin : Bytes := utf8Encode "server.pin"

/-- `std::filesystem::remove` without an error code. -/
def removeTmp (env : ClientEnv σ) (tmp : Bytes) : Client σ Unit := do
  let failed ← fails env
  if failed then raise "filesystem error: cannot remove" else setFile tmp none

/-- `set_owner_only_permissions` where it is asked for; true is a refusal. -/
def permissionsRefused (env : ClientEnv σ) (ownerOnly : Bool) : Client σ Bool :=
  if ownerOnly then fails env else pure false

/-- `std::filesystem::remove` with an error code that nothing reads. -/
def removeOld (env : ClientEnv σ) (fileName : Bytes) : Client σ Unit := do
  let kept ← fails env
  if kept then pure () else setFile fileName none

/-- The old file is removed before the rename, so a failed rename loses it. -/
def atomicWrite (env : ClientEnv σ) (fileName content : Bytes) (ownerOnly : Bool) :
    Client σ Bool := do
  let tmp := fileName ++ utf8Encode ".tmp"
  let closed ← fails env
  if closed then pure false
  else do
    setFile tmp (some content)
    let unwritten ← fails env
    if unwritten then do
      removeTmp env tmp
      pure false
    else do
      let refused ← permissionsRefused env ownerOnly
      if refused then do
        removeTmp env tmp
        pure false
      else do
        removeOld env fileName
        let unmoved ← fails env
        if unmoved then do
          removeTmp env tmp
          pure false
        else do
          setFile fileName (some content)
          setFile tmp none
          pure true

/-- An input stream on a local file, or `none` where it does not open. -/
def openFile (env : ClientEnv σ) (fileName : Bytes) : Client σ (Option Bytes) := do
  let failed ← fails env
  if failed then pure none else look fun w => w.files fileName

/-- `std::getline`: a line and what follows it, or `none` at the end. -/
def getline (text : Bytes) : Option (Bytes × Bytes) :=
  if text = [] then none
  else some (text.takeWhile (· ≠ 10), (text.dropWhile (· ≠ 10)).drop 1)

/-- The first line, empty when there is none. -/
def firstLine (text : Bytes) : Bytes := text.takeWhile (· ≠ 10)

/-- `read_aes_key`, `read_fingerprint` and `read_server_pin`. -/
def readLine (env : ClientEnv σ) (fileName : Bytes) : Client σ (Option Bytes) := do
  let text ← openFile env fileName
  pure (text.map firstLine)

def readAesKey (env : ClientEnv σ) : Client σ (Option Bytes) := readLine env kAesKey

def readFingerprint (env : ClientEnv σ) : Client σ (Option Bytes) := readLine env kFingerprint

def readServerPin (env : ClientEnv σ) : Client σ (Option Bytes) := readLine env kServerPin

def readPrivateKey (env : ClientEnv σ) : Client σ (Option Bytes) := openFile env kPrivKey

structure StoredIdentity where
  username : Bytes
  clientId : Bytes
  publicKeyB64 : Bytes := []
  deriving DecidableEq, Repr

def parseMeInfo (text : Bytes) : Option StoredIdentity :=
  match getline text with
  | none => none
  | some (username, rest) =>
      match getline rest with
      | none => none
      | some (clientId, rest) => some { username, clientId, publicKeyB64 := firstLine rest }

def readMeInfo (env : ClientEnv σ) : Client σ (Option StoredIdentity) := do
  let text ← openFile env kMeInfo
  pure (text.bind parseMeInfo)

def writeMeIdentity (env : ClientEnv σ) (username clientIdHex : Bytes) : Client σ Bool :=
  atomicWrite env kMeInfo (username ++ [10] ++ clientIdHex ++ [10]) false

def writeMePublicKey (env : ClientEnv σ) (publicKeyB64 : Bytes) : Client σ Bool := do
  let stored ← readMeInfo env
  match stored with
  | none => pure false
  | some me =>
      atomicWrite env kMeInfo (me.username ++ [10] ++ me.clientId ++ [10] ++ publicKeyB64 ++ [10])
        false

/-- `std::filesystem::exists`. -/
def fileExists (fileName : Bytes) : Client σ Bool := look fun w => (w.files fileName).isSome

def writePrivateKey (env : ClientEnv σ) (privateKeyDer : Bytes) : Client σ Bool := do
  let there ← fileExists kPrivKey
  if there then pure false else atomicWrite env kPrivKey privateKeyDer true

/-- A successful save is recorded in the trace. -/
def writeAesKey (env : ClientEnv σ) (aesKeyB64 : Bytes) : Client σ Bool := do
  let saved ← atomicWrite env kAesKey (aesKeyB64 ++ [10]) true
  if saved then do
    note (.savedKey aesKeyB64)
    pure true
  else pure false

def writeFingerprint (env : ClientEnv σ) (fingerprint : Bytes) : Client σ Bool :=
  atomicWrite env kFingerprint (fingerprint ++ [10]) true

/-! ### Texts -/

/-- The encoder of the library without line breaks. -/
def encodeBase64 (raw : Bytes) : Bytes := (Base64.encode raw).map fun c => UInt8.ofNat c.toNat

/-- Six bits for every digit; a byte leaves as soon as it has all its bits. -/
def gatherBits : (held acc : ℕ) → List ℕ → Bytes
  | _, _, [] => []
  | n, acc, v :: vs =>
      if 8 ≤ n + 6 then
        UInt8.ofNat ((acc * 64 + v) / 2 ^ (n + 6 - 8)) ::
          gatherBits (n + 6 - 8) ((acc * 64 + v) % 2 ^ (n + 6 - 8)) vs
      else gatherBits (n + 6) (acc * 64 + v) vs

/-- The decoder of the library skips what is not in the alphabet, padding
included, and drops bits that do not fill a byte. -/
def decodeBase64 (text : Bytes) : Bytes :=
  gatherBits 0 0 (text.filterMap fun b => Base64.value (Char.ofNat b.toNat))

/-- `client_id_to_hex`. -/
def clientIdToHex (clientId : Bytes) : Bytes := utf8Encode (hex clientId)

theorem length_unhexChars {cs : List Char} {bs : Bytes} (h : unhexChars cs = some bs) :
    cs.length = 2 * bs.length := by
  induction cs using unhexChars.induct generalizing bs with
  | case1 =>
      cases h
      rfl
  | case2 => cases h
  | case3 hi lo cs a b ha hb ih =>
      simp only [unhexChars, ha, hb, Option.map_eq_some_iff] at h
      obtain ⟨rest, hrest, rfl⟩ := h
      have := ih hrest
      simp only [List.length_cons]
      omega
  | case4 hi lo cs hno =>
      rw [unhexChars] at h
      split at h
      · rename_i a b ha hb
        exact (hno a b ha hb).elim
      · cases h

def parseClientIdHex32 (hex32 : Bytes) : Except String ClientId :=
  if h : hex32.length ≠ 32 then .error "client_id must be exactly 32 hex characters"
  else
    match hb : unhexChars (hex32.map fun b => Char.ofNat b.toNat) with
    | none => .error "client_id contains non-hex characters"
    | some bs => .ok ⟨bs, by
        have := length_unhexChars hb
        rw [List.length_map] at this
        omega⟩

def trimCopy (s : Bytes) : Bytes := stripBytes s

def isQuoted (s : Bytes) : Bool :=
  2 ≤ s.length && ((s.head? = some 39 && s.getLast? = some 39) ||
    (s.head? = some 34 && s.getLast? = some 34))

/-- One pair of quotes around a path is taken off. -/
def normalizeUserPathInput (row : Bytes) : Bytes :=
  let s := trimCopy row
  if isQuoted s then trimCopy ((s.drop 1).take (s.length - 2)) else s

/-- `std::filesystem::path(path).filename()`. -/
def protocolFilenameFromPath (path : Bytes) : Bytes := path.rtakeWhile (· ≠ 47)

/-! ### The socket -/

/-- A message reaches the other end. -/
def heard (env : ClientEnv σ) (message : Bytes) (w : ClientWorld σ) : ClientWorld σ :=
  { w with
    peer := (env.hears message w.peer).1
    incoming := w.incoming ++ (env.hears message w.peer).2
    trace := w.trace ++ [.wrote message] }

/-- `boost::asio::write`. -/
def write (env : ClientEnv σ) (message : Bytes) : Client σ Unit := do
  let n ← tick
  if env.writeRaises n then raise "write: Broken pipe" else update (heard env message)

/-- A write whose failure is only logged. -/
def writeLogged (env : ClientEnv σ) (message : Except String Bytes) : Client σ Unit :=
  attempt (ofExcept message >>= write env) fun _ => pure ()

/-- `read_exact`. When the stream ends first, what there was is gone. -/
def readExact (n : ℕ) : Client σ Bytes := do
  let w ← fetch
  update fun w => { w with incoming := w.incoming.drop n }
  if w.incoming.length < n then raise "EOF while reading frame" else pure (w.incoming.take n)

def kMaxPayload : ℕ := 128 * 1024

/-- The client waits, and the other end may speak. -/
def awaited (env : ClientEnv σ) (w : ClientWorld σ) : ClientWorld σ :=
  { w with
    peer := (env.speaks w.peer).1
    incoming := w.incoming ++ (env.speaks w.peer).2 }

def readResponseFrame (env : ClientEnv σ) : Client σ ResponseFrame := do
  update (awaited env)
  let hdr ← readExact 7
  if kMaxPayload < readLe 4 3 hdr then raise "payload_size exceeds max"
  else do
    let payload ← readExact (readLe 4 3 hdr)
    let frame : ResponseFrame := { version := hdr.headD 0, code := readLe 2 1 hdr, payload }
    note (.read frame)
    pure frame

/-! ### How the primitives run -/

variable {Q : Unit → ClientWorld σ → Prop} {E : String → ClientWorld σ → Prop} {w : ClientWorld σ}

/-- One more call on the outside world. -/
def ticked (w : ClientWorld σ) : ClientWorld σ := { w with calls := w.calls + 1 }

@[simp] theorem wp_tick {Q : ℕ → ClientWorld σ → Prop} :
    wp (tick : Client σ ℕ) Q E w ↔ Q w.calls (ticked w) := by
  rw [tick, wp_bind, wp_look, wp_bind, wp_update, wp_pure]
  rfl

@[simp] theorem wp_fails {env : ClientEnv σ} {Q : Bool → ClientWorld σ → Prop} :
    wp (fails env) Q E w ↔ Q (env.fileFails w.calls) (ticked w) := by
  rw [fails, wp_bind, wp_tick, wp_pure]

@[simp] theorem wp_note {e : Event} :
    wp (note e : Client σ Unit) Q E w ↔ Q () { w with trace := w.trace ++ [e] } := wp_update

theorem openFile_eq (env : ClientEnv σ) (fileName : Bytes) (w : ClientWorld σ) :
    openFile env fileName w =
      (.ok (if env.fileFails w.calls then none else w.files fileName), ticked w) := by
  have hn : fails env w = (.ok (env.fileFails w.calls), ticked w) := rfl
  rw [openFile, bind_ok hn]
  cases env.fileFails w.calls with
  | true => rfl
  | false => rfl

theorem readLine_eq (env : ClientEnv σ) (fileName : Bytes) (w : ClientWorld σ) :
    readLine env fileName w =
      (.ok ((if env.fileFails w.calls then none else w.files fileName).map firstLine), ticked w) :=
  bind_ok (openFile_eq env fileName w)

theorem write_raises {env : ClientEnv σ} {message : Bytes} (h : env.writeRaises w.calls = true) :
    write env message w = (.error "write: Broken pipe", ticked w) := by
  have hn : (tick : Client σ ℕ) w = (.ok w.calls, ticked w) := rfl
  rw [write, bind_ok hn, if_pos h]
  rfl

theorem write_ok {env : ClientEnv σ} {message : Bytes} (h : env.writeRaises w.calls = false) :
    write env message w = (.ok (), heard env message (ticked w)) := by
  have hn : (tick : Client σ ℕ) w = (.ok w.calls, ticked w) := rfl
  rw [write, bind_ok hn, if_neg (by simp [h])]
  rfl

/-- A logged write is the write where it works. -/
theorem writeLogged_eq (env : ClientEnv σ) (message : Bytes) (w : ClientWorld σ) :
    writeLogged env (.ok message) w =
      (.ok (), if env.writeRaises w.calls then ticked w else heard env message (ticked w)) := by
  change attempt (write env message) _ w = _
  unfold attempt
  cases h : env.writeRaises w.calls with
  | false =>
      rw [write_ok h]
      rfl
  | true =>
      rw [write_raises h]
      rfl

theorem writeLogged_returns (env : ClientEnv σ) (message : Except String Bytes)
    (w : ClientWorld σ) :
    writeLogged env message w = (.ok (), (writeLogged env message w).2) := by
  cases message with
  | error e => rfl
  | ok m => rw [writeLogged_eq]

end

/-- The temporary file of a replacement is another file. -/
theorem tmp_ne (fileName : Bytes) : fileName ≠ fileName ++ utf8Encode ".tmp" := by
  intro h
  have hlen := congrArg List.length h
  rw [List.length_append, show (utf8Encode ".tmp").length = 4 by decide +kernel] at hlen
  omega

end Seftp.ClientProgram
