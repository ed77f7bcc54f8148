import Seftp.LittleEndian

/-!
# The wire format

The frame builders and response parsers of `protocol.hpp`, which the client and
its tests use. A request is a client id of 16 bytes, a version byte, a code of
two bytes, a payload size of four bytes and the payload; a response has no client
id. Sizes and codes are little-endian, and a size is cast to 32 bits on the way
into its field.
-/
namespace Seftp.Protocol
open LittleEndian

def kVersion : UInt8 := 3
def kSecurityVersion : UInt8 := 1

/-- `std::array<uint8_t, kClientIdLen>`. -/
abbrev ClientId := { b : Bytes // b.length = 16 }

/-- `std::array<uint8_t, kStage7NonceLen>`. -/
abbrev Nonce := { b : Bytes // b.length = 32 }

/-- An initialisation vector, `std::array<uint8_t, 16>`. -/
abbrev Iv := { b : Bytes // b.length = 16 }

inductive ReqCode where
  | register | publicKey | reLogin | fileChunk | clientHello | clientHandshakeAck
  | crcOk | crcRetry | crcFail
  deriving DecidableEq, Repr

def ReqCode.value : ReqCode → ℕ
  | .register => 825
  | .publicKey => 826
  | .reLogin => 827
  | .fileChunk => 828
  | .clientHello => 829
  | .clientHandshakeAck => 830
  | .crcOk => 900
  | .crcRetry => 901
  | .crcFail => 902

inductive ResCode where
  | registerOk | registerFail | aesKey | crcResult | transferDone | reloginOk | reloginFail
  | error | serverHello
  deriving DecidableEq, Repr

def ResCode.value : ResCode → ℕ
  | .registerOk => 1600
  | .registerFail => 1601
  | .aesKey => 1602
  | .crcResult => 1603
  | .transferDone => 1604
  | .reloginOk => 1605
  | .reloginFail => 1606
  | .error => 1607
  | .serverHello => 1608

/-- The enumerator a 16-bit code denotes; a cast may leave the enumeration. -/
def ResCode.ofValue (n : ℕ) : Option ResCode :=
  [ResCode.registerOk, .registerFail, .aesKey, .crcResult, .transferDone, .reloginOk,
    .reloginFail, .error, .serverHello].find? (·.value = n)

/-! ### Requests -/

def zeroClientId : ClientId := ⟨List.replicate 16 0, rfl⟩

/-- `client_id(16) + version(1) + code(2) + payload_size(4) + payload`. The code
is any value of the enumeration's underlying 16-bit type. -/
def buildRequest (clientId : ClientId) (code : ℕ) (payload : Bytes)
    (version : UInt8 := kVersion) : Bytes :=
  clientId.val ++ [version] ++ leBytes 2 code ++ leBytes 4 payload.length ++ payload

/-- The bytes of a C string: the text and a terminator. -/
def makeCstrPayload (s : Bytes) : Bytes := s ++ [0]

def build825Register (username : Bytes) : Bytes :=
  buildRequest zeroClientId ReqCode.register.value (makeCstrPayload username)

def build826PublicKey (clientId : ClientId) (username publicKeyB64 : Bytes) : Bytes :=
  buildRequest clientId ReqCode.publicKey.value (username ++ [0] ++ publicKeyB64)

def build827Relogin (clientId : ClientId) (username : Bytes) : Bytes :=
  buildRequest clientId ReqCode.reLogin.value (makeCstrPayload username)

/-- `total_cipher_size(4) + orig_plain_size(4) + packet_no(2) + total_packets(2)
+ filename + NUL + data`. -/
def filePacketPayload (cipherSize plainSize packetNum totalPackets : ℕ) (filename data : Bytes) :
    Bytes :=
  leBytes 4 cipherSize ++ leBytes 4 plainSize ++ leBytes 2 packetNum ++ leBytes 2 totalPackets ++
    filename ++ [0] ++ data

/-- Packet 0 carries the initialisation vector. -/
def build828Packet0Iv (clientId : ClientId) (cipherSize plainSize totalPackets : ℕ)
    (filename : Bytes) (iv : Iv) : Bytes :=
  buildRequest clientId ReqCode.fileChunk.value
    (filePacketPayload cipherSize plainSize 0 totalPackets filename iv.val)

/-- A ciphertext packet. The builder refuses packet number 0, which is the
vector's. -/
def build828PacketChunk (clientId : ClientId) (cipherSize plainSize packetNum totalPackets : ℕ)
    (filename chunk : Bytes) : Except String Bytes :=
  if packetNum % 65536 = 0 then .error "packet_num must be >= 1 for chunk packets"
  else .ok (buildRequest clientId ReqCode.fileChunk.value
    (filePacketPayload cipherSize plainSize packetNum totalPackets filename chunk))

def build829ClientHello (clientNonce : Nonce) : Bytes :=
  buildRequest zeroClientId ReqCode.clientHello.value
    ([kSecurityVersion] ++ clientNonce.val ++ [0])

def build830ClientHandshakeAck : Bytes :=
  buildRequest zeroClientId ReqCode.clientHandshakeAck.value []

def build900CrcOk (clientId : ClientId) (filename : Bytes) : Bytes :=
  buildRequest clientId ReqCode.crcOk.value (makeCstrPayload filename)

def build901CrcRetry (clientId : ClientId) (filename : Bytes) : Bytes :=
  buildRequest clientId ReqCode.crcRetry.value (makeCstrPayload filename)

def build902CrcFail (clientId : ClientId) (filename : Bytes) : Bytes :=
  buildRequest clientId ReqCode.crcFail.value (makeCstrPayload filename)

/-! ### Responses -/

/-- A frame as the client's reader returns it. -/
structure ResponseFrame where
  version : UInt8
  code : ℕ
  payload : Bytes
  deriving DecidableEq, Repr

structure Res1602 where
  clientId : Bytes
  encryptedKey : Bytes
  signature : Bytes
  deriving DecidableEq, Repr

structure Res1603 where
  clientId : Bytes
  contentSize : ℕ
  filename : Bytes
  serverCrc : ℕ
  deriving DecidableEq, Repr

structure Res1608 where
  securityVersion : UInt8
  serverNonce : Bytes
  serverPublicKeyDer : Bytes
  signature : Bytes
  deriving DecidableEq, Repr

/-- `read_u16_le` and `read_u32_le` at an offset. -/
def readLe (width off : ℕ) (payload : Bytes) : ℕ := leNat ((payload.drop off).take width)

def parse1600 (payload : Bytes) : Except String Bytes :=
  if payload.length ≠ 16 then .error "1600 payload must be 16 bytes" else .ok payload

def parse1602 (payload : Bytes) : Except String Res1602 :=
  if payload.length < 16 + 2 then .error "1602 payload too short"
  else
    let keyLen := readLe 2 16 payload
    if keyLen = 0 then .error "1602 encrypted key is empty"
    else if payload.length < 18 + keyLen + 2 then .error "1602 encrypted key truncated"
    else
      let sigLen := readLe 2 (18 + keyLen) payload
      if sigLen = 0 then .error "1602 signature is empty"
      else if payload.length ≠ 20 + keyLen + sigLen then .error "1602 signature length mismatch"
      else .ok
        { clientId := payload.take 16
          encryptedKey := (payload.drop 18).take keyLen
          signature := (payload.drop (20 + keyLen)).take sigLen }

/-- The file name has no length field: it is what stands between the content
size and the last four bytes. -/
def parse1603 (payload : Bytes) : Except String Res1603 :=
  if payload.length < 16 + 4 + 4 then .error "1603 payload too short"
  else
    let nameLen := payload.length - 20 - 4
    .ok
      { clientId := payload.take 16
        contentSize := readLe 4 16 payload
        filename := (payload.drop 20).take nameLen
        serverCrc := readLe 4 (20 + nameLen) payload }

def parse1608 (payload : Bytes) : Except String Res1608 :=
  if payload.length < 1 + 32 + 2 + 2 then .error "1608 payload too short"
  else
    let keyLen := readLe 2 33 payload
    if payload.length < 35 + keyLen + 2 then .error "1608 public key length out of bounds"
    else
      let sigLen := readLe 2 (35 + keyLen) payload
      if 37 + keyLen + sigLen ≠ payload.length then .error "1608 signature length mismatch"
      else .ok
        { securityVersion := payload.headD 0
          serverNonce := (payload.drop 1).take 32
          serverPublicKeyDer := (payload.drop 35).take keyLen
          signature := (payload.drop (37 + keyLen)).take sigLen }

end Seftp.Protocol
