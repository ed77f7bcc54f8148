import Seftp.Protocol
import Seftp.ServerSession

/-!
# The server's responses

`answers.py`. A response is a version byte, a code, a payload size and a payload.
Sending one also records it in the recent log and, for a known client, refreshes
`last_seen`; both happen before the message goes out. Responses 1602 and 1605
carry a signature that binds the encrypted key to this connection's handshake.
-/
namespace Seftp.Answers
open LittleEndian ExceptState OutsideWorld Text Protocol ClientStore ServerSession

/-- `int.to_bytes` raises for a value that does not fit. -/
def toBytes (width v : ℕ) : Except PyError Bytes :=
  if v < 256 ^ width then .ok (leBytes width v) else .error .overflow

def messageAnswer (version : Bytes) (codeNum : ResCode) (payloadSize : ℕ) (payload : Bytes) :
    Except PyError Bytes :=
  if version.length ≠ 1 then .error (.value "version must be exactly 1 byte")
  else if payloadSize ≠ payload.length then .error (.value "payload_size mismatch")
  else do
    let code ← toBytes 2 codeNum.value
    let size ← toBytes 4 payloadSize
    .ok (version ++ code ++ size ++ payload)

/-! ### Signed transcripts -/

def serverHelloContext : Bytes := utf8Encode "SEFTP_STAGE7_SERVER_HELLO"

def aesKeyBindingContext : Bytes := utf8Encode "SEFTP_STAGE7_AES_KEY_BINDING"

/-- What `sign_server_hello` signs. -/
def serverHelloTranscript (securityVersion : UInt8) (clientNonce serverNonce der : Bytes) : Bytes :=
  serverHelloContext ++ [securityVersion] ++ clientNonce ++ serverNonce ++ der

/-- What `sign_aes_key_binding` signs. -/
def aesKeyBindingTranscript (securityVersion : UInt8) (clientNonce serverNonce clientId : Bytes)
    (responseCode : ℕ) (encryptedKey : Bytes) : Bytes :=
  aesKeyBindingContext ++ [securityVersion] ++ clientNonce ++ serverNonce ++ clientId ++
    leBytes 2 responseCode ++ encryptedKey

/-- A signature with the identity key. -/
def sign (env : Env) (transcript : Bytes) : Except PyError Bytes :=
  match env.signTranscript transcript with
  | some signature => .ok signature
  | none => .error .crypto

def buildBoundAesKeyPayload (env : Env) (h : Handshake) (cipherTextAesEncrypted clientId : Bytes)
    (responseCode : ResCode) : Except PyError Bytes :=
  if !h.verified then .error (.runtime "cannot send AES key before Stage 7 handshake completion")
  else
    match h.securityVersion, h.clientNonce, h.serverNonce with
    | some securityVersion, some clientNonce, some serverNonce => do
        let signature ← sign env (aesKeyBindingTranscript securityVersion clientNonce serverNonce
          clientId responseCode.value cipherTextAesEncrypted)
        if 65535 < cipherTextAesEncrypted.length then .error (.value "encrypted AES key too large")
        else if 65535 < signature.length then .error (.value "AES key binding signature too large")
        else .ok (clientId ++ leBytes 2 cipherTextAesEncrypted.length ++ cipherTextAesEncrypted ++
          leBytes 2 signature.length ++ signature)
    | _, _, _ => .error (.runtime "missing Stage 7 handshake state for AES key binding")

/-! ### The nine responses -/

def answer1600 (ctx : Ctx) (clientId version : Bytes) : Server Unit := do
  logEvent ctx (.clientId clientId) "answer_1600"
  let message ← ofExcept (messageAnswer version .registerOk 16 clientId)
  send ctx message

def answer1601 (ctx : Ctx) (version : Bytes) : Server Unit := do
  let message ← ofExcept (messageAnswer version .registerFail 0 [])
  send ctx message

/-- The common body of 1602 and 1605. -/
def answerAesKey (ctx : Ctx) (code : ResCode) (event : String)
    (cipherTextAesEncrypted clientId version : Bytes) : Server Unit := do
  let h ← look fun w => w.session.handshake
  let payload ← ofExcept (buildBoundAesKeyPayload ctx.env h cipherTextAesEncrypted clientId code)
  let message ← ofExcept (messageAnswer version code payload.length payload)
  let _ ← onStore (touchClientLastSeen ctx.out (hex clientId))
  logEvent ctx (.clientId clientId) event
  send ctx message

def answer1602 (ctx : Ctx) (cipherTextAesEncrypted clientId version : Bytes) : Server Unit :=
  answerAesKey ctx .aesKey "answer_1602" cipherTextAesEncrypted clientId version

def answer1605 (ctx : Ctx) (cipherTextAesEncrypted clientId version : Bytes) : Server Unit :=
  answerAesKey ctx .reloginOk "answer_1605" cipherTextAesEncrypted clientId version

def answer1603 (ctx : Ctx) (clientId version : Bytes) (fileName : String) (contentSize : ℕ)
    (crc32Val : UInt32) : Server Unit := do
  let _ ← onStore (touchClientLastSeen ctx.out (hex clientId))
  logEvent ctx (.clientId clientId) "answer_1603"
  let checksumBytes := leBytes 4 crc32Val.toNat
  let contentSizeBytes ← ofExcept (toBytes 4 contentSize)
  let fileNameBytes := utf8Encode fileName ++ [0]
  let payload := clientId ++ contentSizeBytes ++ fileNameBytes ++ checksumBytes
  let message ← ofExcept (messageAnswer version .crcResult payload.length payload)
  send ctx message

/-- `last_seen` of a client the index knows. -/
def touchKnown (ctx : Ctx) (clientId : Bytes) : Server Unit := do
  let r ← look fun w => w.store.getClientById (hex clientId)
  match r with
  | none => pure ()
  | some r => do
      let _ ← onStore (touchClientLastSeen ctx.out r.clientIdHex)

def answer1604 (ctx : Ctx) (clientId version : Bytes) : Server Unit := do
  let message ← ofExcept (messageAnswer version .transferDone 16 clientId)
  touchKnown ctx clientId
  logEvent ctx (.clientId clientId) "answer_1604"
  send ctx message

def answer1606 (ctx : Ctx) (clientId version : Bytes) (name : String) : Server Unit := do
  let message ← ofExcept (messageAnswer version .reloginFail 16 clientId)
  if clientId = zeroClientId.val then logEvent ctx (.name name) "answer_1606"
  else do
    logEvent ctx (.clientId clientId) "answer_1606"
    let _ ← onStore (touchClientLastSeen ctx.out (hex clientId))
  send ctx message

def answer1607 (ctx : Ctx) (clientId version : Bytes) (text : String) : Server Unit := do
  let payload := clientId ++ utf8Encode text
  let message ← ofExcept (messageAnswer version .error payload.length payload)
  touchKnown ctx clientId
  logEvent ctx (.clientId clientId) "answer_1607"
  send ctx message

def answer1608 (ctx : Ctx) (version : Bytes) (securityVersion : UInt8)
    (serverNonce serverPublicKeyDer signature : Bytes) : Server Unit := do
  let payload ← ofExcept
    (if serverNonce.length ≠ 32 then .error (.value "server_nonce must be exactly 32 bytes")
    else if 65535 < serverPublicKeyDer.length then
      .error (.value "server_public_key_der too large")
    else if 65535 < signature.length then .error (.value "signature too large")
    else .ok ([securityVersion] ++ serverNonce ++ leBytes 2 serverPublicKeyDer.length ++
      serverPublicKeyDer ++ leBytes 2 signature.length ++ signature))
  let message ← ofExcept (messageAnswer version .serverHello payload.length payload)
  send ctx message

end Seftp.Answers
