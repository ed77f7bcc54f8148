import Seftp.Answers
import Seftp.Base64

/-!
# Registration, key exchange and handshake

The handlers of requests 825, 826, 827, 829 and 830. Between reading a client's
record and handing the response to the writer none of them waits for anything,
so a handler runs as one step of the server.
-/
namespace Seftp.AccountHandlers
open LittleEndian ExceptState OutsideWorld Text Protocol ClientStore ServerSession Answers

/-- `base64.b64decode` of a `str`; `none` is an exception. -/
def b64decode (validate : Bool) (s : String) : Option Bytes :=
  if s.toList.all (·.toNat < 128) then Base64.decode validate s.toList else none

/-- `base64.b64encode(key).decode("ascii")`. -/
def b64encode (key : Bytes) : String := String.ofList (Base64.encode key)

def isValidUsername (env : Env) (name : String) : Bool :=
  1 ≤ name.toList.length && name.toList.length ≤ 64 && name.toList.head?.any env.isAlnum &&
    name.toList.all fun ch => env.isAlnum ch || ch ∈ ['.', '_', '-']

/-- A name's log moves under the id the name has got. -/
def moveRecentLog (name : String) (clientId : Bytes) : Server Unit := update fun w =>
  match w.store.recentLog (.name name) with
  | none => w
  | some past =>
      w.setStore { w.store with
        recentLog := Function.update
          (Function.update w.store.recentLog (.clientId clientId)
            (some ((w.store.recentLog (.clientId clientId)).getD [] ++ past)))
          (.name name) none }

def request825 (ctx : Ctx) (payload version : Bytes) : Server Unit := do
  match utf8Decode (rstripNul payload) with
  | none => raise .unicodeDecode
  | some name =>
      let known ← look fun w => w.store.clientExistsByUsername name
      if !isValidUsername ctx.env name then answer1601 ctx version
      else if known then answer1601 ctx version
      else do
        let record ← onStore (createClient ctx.out name)
        match record with
        | none => raise .attribute
        | some record =>
            match fromHex record.clientIdHex with
            | none => raise (.value "non-hexadecimal number found in fromhex() arg")
            | some clientId => do
                moveRecentLog name clientId
                logEvent ctx (.clientId clientId) "request_825"
                answer1600 ctx clientId version

/-- The checks of an 826 payload: the name, then the key's Base64. -/
def parse826 (env : Env) (nameInDb : String) (payload : Bytes) : Except String (String × Bytes) :=
  match payload.findIdx? (· = 0) with
  | none => .error "bad 826 payload: missing NUL after name"
  | some 0 => .error "bad 826 payload: missing NUL after name"
  | some sep =>
      match utf8Decode (payload.take sep) with
      | none => .error "bad 826 payload: name is not valid UTF-8"
      | some rawName =>
          let name := strip rawName
          if name ≠ nameInDb then
            .error ("name mismatch: got " ++ env.repr name ++ ", expected " ++ env.repr nameInDb)
          else
            match asciiDecode (stripBytes (rstripNul (payload.drop (sep + 1)))) with
            | none => .error "bad 826 payload: public key is not ASCII base64"
            | some publicStr =>
                match b64decode true publicStr with
                | none => .error "bad 826 payload: key is not valid Base64"
                | some der => .ok (name, der)

/-- The `try` block of 826; `false` means that it has answered and returned. -/
def checkPublicKey (ctx : Ctx) (clientId version : Bytes) (name : String) (der : Bytes) :
    Server Bool :=
  match ctx.env.rsaImport der with
  | none => raise .crypto
  | some keyRsa =>
      if keyRsa.hasPrivate ∨ keyRsa.sizeInBits ≠ 2048 ∨ keyRsa.e < 3 ∨ keyRsa.e % 2 = 0 then do
        answer1606 ctx clientId version name
        pure false
      else pure true

/-- A fresh AES key, stored for the client. -/
def freshAesKey (ctx : Ctx) (clientIdHex : String) : Server Bytes := do
  let n ← look fun w => w.store.calls
  let key := (ctx.out.randomBytes n 32).val
  let _ ← onStore (setClientAesKey ctx.out clientIdHex (b64encode key))
  pure key

/-- RSA-OAEP under the key that `der` encodes. -/
def encryptKey (env : Env) (der key : Bytes) : Except PyError Bytes :=
  match env.oaepEncrypt der key with
  | some ciphertext => .ok ciphertext
  | none => .error .crypto

/-- The four key states of 826, for a key that passed the checks. `record` is the
client's record as it was looked up. -/
def enrollKey (ctx : Ctx) (clientId version : Bytes) (record : ClientRecord) (der : Bytes) :
    Server Unit := do
  match record.publicKeyDer with
  | none => do
      let _ ← onStore (setClientPublicKey ctx.out (hex clientId) der)
      let key ← freshAesKey ctx (hex clientId)
      let ciphertext ← ofExcept (encryptKey ctx.env der key)
      answer1602 ctx ciphertext clientId version
  | some stored =>
      if der ≠ stored then answer1607 ctx clientId version "public key mismatch"
      else
        match record.aesKeyB64 with
        | none => do
            let key ← freshAesKey ctx (hex clientId)
            let ciphertext ← ofExcept (encryptKey ctx.env der key)
            answer1602 ctx ciphertext clientId version
        | some aesKeyB64 =>
            match b64decode false aesKeyB64 with
            | none => raise (.value "Incorrect padding")
            | some key => do
                let ciphertext ← ofExcept (encryptKey ctx.env der key)
                answer1602 ctx ciphertext clientId version

def request826 (ctx : Ctx) (clientId payload version : Bytes) : Server Unit := do
  let record ← look fun w => w.store.getClientById (hex clientId)
  match record with
  | none => answer1607 ctx clientId version "unknown client id"
  | some record => do
      let _ ← onStore (touchClientLastSeen ctx.out (hex clientId))
      logEvent ctx (.clientId clientId) "request_826"
      match parse826 ctx.env record.username payload with
      | .error text => answer1607 ctx clientId version text
      | .ok (name, der) => do
          let accepted ← attempt (checkPublicKey ctx clientId version name der) fun _ => do
            answer1607 ctx clientId version "Invalid RSA public key"
            pure false
          if accepted then enrollKey ctx clientId version record der else pure ()

/-- The new session key of an accepted 827. -/
def reloginKey (ctx : Ctx) (clientId version : Bytes) (name : String) (der : Bytes) :
    Server Unit := do
  let _ ← onStore (touchClientLastSeen ctx.out (hex clientId))
  logEvent ctx (.clientId clientId) "request_827"
  match ctx.env.rsaImport der with
  | none => answer1606 ctx clientId version name
  | some pub =>
      if pub.sizeInBits ≠ 2048 then answer1606 ctx clientId version name
      else do
        let key ← freshAesKey ctx (hex clientId)
        let ciphertext ← ofExcept (encryptKey ctx.env der key)
        answer1605 ctx ciphertext clientId version

def request827 (ctx : Ctx) (clientId payload version : Bytes) : Server Unit := do
  match utf8Decode (rstripNul payload) with
  | none => answer1606 ctx zeroClientId.val version ""
  | some rawName => do
      let name := strip rawName
      let record ← look fun w => w.store.getClientByUsername name
      match record with
      | none => do
          logEvent ctx (.name name) "request_827"
          answer1606 ctx zeroClientId.val version name
      | some record =>
          if record.clientIdHex ≠ hex clientId then do
            logEvent ctx (.name name) "request_827"
            answer1606 ctx zeroClientId.val version name
          else
            match record.publicKeyDer with
            | none => answer1606 ctx clientId version name
            | some der =>
                if der = [] then answer1606 ctx clientId version name
                else reloginKey ctx clientId version name der

/-! ### The handshake -/

/-- The nonce and version are kept before the signing call, which may raise; the
server nonce only after it. -/
def request829 (ctx : Ctx) (payload version clientId : Bytes) : Server Unit := do
  let h ← look fun w => w.session.handshake
  if h.verified then answer1607 ctx clientId version "bad 829: handshake already completed"
  else if h.clientNonce.isSome ∨ h.serverNonce.isSome ∨ h.securityVersion.isSome then
    answer1607 ctx clientId version "bad 829: handshake already started"
  else if payload.length ≠ 34 then
    answer1607 ctx clientId version "bad 829: invalid payload length"
  else
    let securityVersion := payload.headD 0
    let clientNonce := (payload.drop 1).take 32
    let flags := (payload.drop 33).headD 0
    if securityVersion ≠ 1 then
      answer1607 ctx clientId version "bad 829: unsupported security version"
    else if clientNonce.length ≠ 32 then
      answer1607 ctx clientId version "bad 829: invalid client nonce"
    else if flags ≠ 0 then answer1607 ctx clientId version "bad 829: unsupported flags"
    else do
      onSession fun s => { s with
        handshake := { s.handshake with
          securityVersion := some securityVersion, clientNonce := some clientNonce } }
      let n ← look fun w => w.store.calls
      let serverNonce := (ctx.out.randomBytes n 32).val
      let signature ← ofExcept (sign ctx.env (serverHelloTranscript securityVersion clientNonce
        serverNonce ctx.env.serverPublicKeyDer))
      onSession fun s => { s with
        handshake := { s.handshake with serverNonce := some serverNonce } }
      answer1608 ctx version securityVersion serverNonce ctx.env.serverPublicKeyDer signature

def request830 (ctx : Ctx) (payload version clientId : Bytes) : Server Unit := do
  let h ← look fun w => w.session.handshake
  if payload ≠ [] then answer1607 ctx clientId version "bad 830: expected empty payload"
  else if h.verified then answer1607 ctx clientId version "bad 830: handshake already completed"
  else if h.clientNonce.isNone ∨ h.serverNonce.isNone ∨ h.securityVersion.isNone then
    answer1607 ctx clientId version "bad 830: server hello not completed"
  else onSession fun s => { s with handshake := { s.handshake with verified := true } }

end Seftp.AccountHandlers
