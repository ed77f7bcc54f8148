import Seftp.ClientProgram

/-!
# The client's dialogue with the server

The handshake of the client, the dispatch of one response and the flow that
connects, registers or logs in again. `answer_manager` reads one frame and changes
the context and the local files; its caller learns the next step, and whether a
checksum matched where it asked for one.
-/
namespace Seftp.ClientDialogue
open LittleEndian ExceptState Text Protocol ClientProgram

section
variable {σ : Type}

/-! ### Requests -/

def request825 (env : ClientEnv σ) (name : Bytes) : Client σ Unit :=
  writeLogged env (.ok (build825Register name))

def request826 (env : ClientEnv σ) (name publicKeyStr uuid : Bytes) : Client σ Unit :=
  writeLogged env ((parseClientIdHex32 uuid).map fun cid => build826PublicKey cid name publicKeyStr)

def request827 (env : ClientEnv σ) (name uuid : Bytes) : Client σ Unit :=
  writeLogged env ((parseClientIdHex32 uuid).map fun cid => build827Relogin cid name)

def request829 (env : ClientEnv σ) (clientNonce : Nonce) : Client σ Unit :=
  writeLogged env (.ok (build829ClientHello clientNonce))

def request830 (env : ClientEnv σ) : Client σ Unit :=
  writeLogged env (.ok build830ClientHandshakeAck)

/-! ### Signatures -/

def verifyServerHelloSignature (env : ClientEnv σ) (securityVersion : UInt8)
    (clientNonce serverNonce serverPublicKeyDer signature : Bytes) : Bool :=
  env.verifyMessage serverPublicKeyDer
    (utf8Encode "SEFTP_STAGE7_SERVER_HELLO" ++ [securityVersion] ++ clientNonce ++ serverNonce ++
      serverPublicKeyDer) signature

def verifyAesKeyBindingSignature (env : ClientEnv σ) (securityVersion : UInt8)
    (clientNonce serverNonce clientId : Bytes) (responseCode : ℕ)
    (encryptedKey serverPublicKeyDer signature : Bytes) : Bool :=
  env.verifyMessage serverPublicKeyDer
    (utf8Encode "SEFTP_STAGE7_AES_KEY_BINDING" ++ [securityVersion] ++ clientNonce ++ serverNonce ++
      clientId ++ leBytes 2 responseCode ++ encryptedKey) signature

/-! ### The server's identity -/

/-- The text of the first check that fails. -/
def validateServerHelloPayload (hello : Res1608) : Option String :=
  if hello.securityVersion ≠ kSecurityVersion then some "unsupported security version"
  else if hello.serverPublicKeyDer = [] then some "public key is empty"
  else if 4096 < hello.serverPublicKeyDer.length then some "public key too large"
  else if hello.signature = [] then some "signature is empty"
  else if hello.signature.length ≠ 256 then some "signature size mismatch"
  else none

/-- Report a failure in the context. -/
def failWith (text : String) : Client σ Bool := do
  setError (utf8Encode text)
  pure false

/-- A pin decides alone; without one the first fingerprint seen is kept. -/
def validateServerTrust (env : ClientEnv σ) (fingerprint : Bytes) : Client σ Bool := do
  let pinned ← readServerPin env
  match pinned with
  | some pinned =>
      if trimCopy pinned ≠ fingerprint then failWith "pinned server fingerprint mismatch"
      else pure true
  | none => do
      let stored ← readFingerprint env
      match stored with
      | some stored =>
          if trimCopy stored ≠ fingerprint then failWith "server fingerprint mismatch"
          else pure true
      | none => do
          let saved ← writeFingerprint env fingerprint
          if saved then pure true else failWith "failed to save server fingerprint"

/-- The body of the `try` block. -/
def verifyServerHello (env : ClientEnv σ) (clientNonce : Nonce) : Client σ Bool := do
  let frame ← readResponseFrame env
  if frame.code ≠ ResCode.serverHello.value then failWith "expected SERVER_HELLO (1608)"
  else do
    let hello ← ofExcept (parse1608 frame.payload)
    match validateServerHelloPayload hello with
    | some text => failWith text
    | none =>
        if !verifyServerHelloSignature env hello.securityVersion clientNonce.val hello.serverNonce
            hello.serverPublicKeyDer hello.signature then
          failWith "server identity signature verification failed"
        else do
          let trusted ← validateServerTrust env (env.sha256Hex hello.serverPublicKeyDer)
          if !trusted then pure false
          else do
            onContext fun cc => { cc with
              securityVersion := hello.securityVersion
              clientNonce := clientNonce.val
              serverNonce := hello.serverNonce
              stage7HandshakeComplete := true
              serverPublicKeyDer := hello.serverPublicKeyDer }
            pure true

def executeServerIdentityHandshake (env : ClientEnv σ) : Client σ Bool := do
  let n ← tick
  request829 env (env.nonce n)
  let verified ← attempt (verifyServerHello env (env.nonce n)) fun _ => pure false
  if verified then do
    request830 env
    pure true
  else pure false

/-! ### One response -/

inductive NextStep where
  | none | needRegister | needSendPublicKey | fatal
  deriving DecidableEq, Repr

def rsaOaepSha1DecryptFromFile (env : ClientEnv σ) (ciphertext : Bytes) : Client σ Bytes := do
  if ciphertext.length ≠ 256 then raise "RSA ciphertext must be 256 bytes (RSA-2048)"
  else do
    let priv ← readPrivateKey env
    match priv.bind fun der => env.oaepDecrypt der ciphertext with
    | none => raise "cannot decrypt"
    | some decrypted =>
        if decrypted.length ≠ 32 then raise "Decrypted AES key must be 32 bytes" else pure decrypted

/-- A failed save is only logged. -/
def answer1602 (env : ClientEnv σ) (ciphertext : Bytes) : Client σ Unit := do
  let decrypted ← attempt (rsaOaepSha1DecryptFromFile env ciphertext) fun e =>
    raise
      ("failed to decrypt AES key with local private key; manual identity reset required: " ++ e)
  let _ ← writeAesKey env (encodeBase64 decrypted)

/-- Response 1605 is handled as 1602 is. -/
def answer1605 (env : ClientEnv σ) (ciphertext : Bytes) : Client σ Unit := answer1602 env ciphertext

def answerKey (env : ClientEnv σ) (code : ℕ) (ciphertext : Bytes) : Client σ Unit :=
  if code = ResCode.aesKey.value then answer1602 env ciphertext else answer1605 env ciphertext

def handle1602Or1605 (env : ClientEnv σ) (code : ℕ) (r : Res1602) : Client σ Bytes := do
  let cc ← look fun w => w.cc
  if !cc.stage7HandshakeComplete then
    raise "AES key response received before completed Stage 7 handshake"
  else if cc.serverPublicKeyDer = [] then
    raise "missing server public key for AES key binding verification"
  else if !verifyAesKeyBindingSignature env cc.securityVersion cc.clientNonce cc.serverNonce
      r.clientId code r.encryptedKey cc.serverPublicKeyDer r.signature then
    raise "invalid AES key binding signature"
  else do
    answerKey env code r.encryptedKey
    pure (clientIdToHex r.clientId)

def fatal (text : Bytes) : Client σ NextStep := do
  setError text
  pure .fatal

/-- The cases 1602 and 1605 with their `try` block. -/
def acceptAesKey (env : ClientEnv σ) (frame : ResponseFrame) : Client σ NextStep :=
  attempt
    (do
      let r ← ofExcept (parse1602 frame.payload)
      let clientId ← handle1602Or1605 env frame.code r
      onContext fun cc => { cc with clientId }
      pure .none)
    fun e => fatal (utf8Encode e)

/-- An unsaved identity is an empty one. -/
def answer1600 (env : ClientEnv σ) (payload : Bytes) : Client σ Bytes := do
  let name ← look fun w => w.cc.username
  let saved ← writeMeIdentity env name (clientIdToHex payload)
  if saved then pure (clientIdToHex payload) else pure []

def handle1606 (payload : Bytes) : Client σ NextStep := do
  if payload.length < 16 then fatal (utf8Encode "1606 payload too short")
  else if payload.take 16 = zeroClientId.val then do
    onContext fun cc => { cc with needRegister := true }
    pure .needRegister
  else do
    onContext fun cc =>
      { cc with clientId := clientIdToHex (payload.take 16), sendPublicKey := true }
    pure .needSendPublicKey

/-- The text of a 1607 up to its first NUL. -/
def errorText (payload : Bytes) : Bytes :=
  if payload.length < 16 then utf8Encode "payload for 1607 too short"
  else
    let text := (payload.drop 16).takeWhile (· ≠ 0)
    if text = [] then utf8Encode "1607 error (empty text)" else text

/-- The dispatch on a frame that has been read. `originalCrc` is given where the
caller passes a flag; the flag after the call is the second result. -/
def dispatch (env : ClientEnv σ) (originalCrc : Option UInt32) (frame : ResponseFrame) :
    Client σ (NextStep × Bool) := do
  match ResCode.ofValue frame.code with
  | some .registerOk => do
      let payload ← ofExcept (parse1600 frame.payload)
      let clientId ← answer1600 env payload
      onContext fun cc => { cc with clientId }
      pure (.none, false)
  | some .registerFail => do
      let step ← fatal (utf8Encode "1601 register failed")
      pure (step, false)
  | some .aesKey | some .reloginOk => do
      let step ← acceptAesKey env frame
      pure (step, false)
  | some .reloginFail => do
      let step ← handle1606 frame.payload
      pure (step, false)
  | some .crcResult => do
      let r ← ofExcept (parse1603 frame.payload)
      pure (.none, originalCrc.any fun crc => r.serverCrc = crc.toNat)
  | some .transferDone => pure (.none, false)
  | some .error => do
      let step ← fatal (errorText frame.payload)
      pure (step, false)
  | some .serverHello | none => do
      let step ← fatal (utf8Encode ("Unknown response code: " ++ toString frame.code))
      pure (step, false)

def answerManager (env : ClientEnv σ) (originalCrc : Option UInt32 := none) :
    Client σ (NextStep × Bool) := do
  let frame ← readResponseFrame env
  dispatch env originalCrc frame

/-! ### Registration and login -/

/-- `generate_rsa2048_keypair_der`: the private DER is empty for a key that was
loaded. -/
def generateRsa2048KeypairDer (env : ClientEnv σ) (key : Bytes) : Client σ (Bytes × Bytes) := do
  let n ← tick
  if key = [] then
    match env.newKeypair n with
    | some pair => do
        note .madeKeypair
        pure pair
    | none => raise "failed to generate RSA keys: key generation"
  else
    match env.publicOf key with
    | some publicDer => pure ([], publicDer)
    | none => raise "failed to generate RSA keys: BER decode error"

/-- A new private key is saved unless one is there; a loaded key is not saved
again. -/
def saveNewPrivateKey (env : ClientEnv σ) (key privateKeyDer : Bytes) : Client σ Unit := do
  let there ← fileExists kPrivKey
  if key ≠ [] then pure ()
  else if there then raise "refusing to overwrite existing priv.key; manual identity reset required"
  else if privateKeyDer = [] then raise "generated private key DER is empty"
  else do
    let saved ← writePrivateKey env privateKeyDer
    if saved then pure () else raise "failed to save private key"

def makingRSAkeys (env : ClientEnv σ) (key : Bytes) : Client σ Unit := do
  let pair ← generateRsa2048KeypairDer env key
  saveNewPrivateKey env key pair.1
  let saved ← writeMePublicKey env (encodeBase64 pair.2)
  if saved then do
    let cc ← look fun w => w.cc
    request826 env cc.username (encodeBase64 pair.2) cc.clientId
  else raise "failed to save public key to me.info"

/-- Send a public key and read the response; false ends the flow. -/
def exchangeKeys (env : ClientEnv σ) (key : Bytes) : Client σ Bool := do
  let made ← attempt
    (do
      makingRSAkeys env key
      pure true)
    fun e => failWith e
  if !made then pure false
  else do
    let (step, _) ← answerManager env
    pure (step ≠ .fatal)

/-- Requests 825 and 826 with their responses. -/
def signOn (env : ClientEnv σ) : Client σ Bool := do
  let cc ← look fun w => w.cc
  request825 env cc.username
  let (step, _) ← answerManager env
  if step = .fatal then pure false else exchangeKeys env []

/-- Request 827 and the two ways of recovery. -/
def relogin (env : ClientEnv σ) (stored : StoredIdentity) : Client σ Bool := do
  let cc ← look fun w => w.cc
  if stored.username ≠ cc.username then do
    setError (utf8Encode "me.info username mismatch. transfer.info=" ++ cc.username ++
      utf8Encode " me.info=" ++ stored.username)
    pure false
  else do
    onContext fun cc => { cc with clientId := stored.clientId }
    request827 env cc.username stored.clientId
    let (step, _) ← answerManager env
    match step with
    | .needRegister => signOn env
    | .needSendPublicKey => do
        let priv ← readPrivateKey env
        match priv with
        | none =>
            failWith "local private key is missing or unreadable; manual identity reset required"
        | some key => exchangeKeys env key
    | .fatal => pure false
    | .none => pure true

/-- The branch on `me.info`. -/
def enter (env : ClientEnv σ) : Option StoredIdentity → Client σ Bool
  | none => signOn env
  | some stored => relogin env stored

/-- What the flow ends with: the key comes from the file. -/
def loadAesKey (env : ClientEnv σ) : Client σ (Option Bytes) := do
  let key ← readAesKey env
  match key with
  | none => do
      setError (utf8Encode "failed to load AES key from aes.key")
      pure none
  | some key => pure (some key)

/-- `connect_and_handshake` from the established connection on. The result is
`out_aes_b64` where the source returns true. -/
def connectAndHandshake (env : ClientEnv σ) (connects : Bool) : Client σ (Option Bytes) := do
  setError []
  if !connects then do
    setError (utf8Encode "Failed to connect: ")
    pure none
  else do
    let trusted ← executeServerIdentityHandshake env
    if !trusted then pure none
    else do
      let stored ← readMeInfo env
      let ok ← enter env stored
      if ok then loadAesKey env else pure none

end

end Seftp.ClientDialogue
