import Seftp.HandlerFrames

/-!
# Payloads built by the server and parsed by the client

The payloads of 1602 and 1605, of 1603 and of 1608 are built in `answers.py` and
taken apart in `protocol.hpp`. A variable field of the first and the last has a
16-bit length before it; the file name of a 1603 has none, and the server ends it
with a terminator that the client takes for a part of the name.

The parsers are also given with every read of the payload checked against its end,
in the order in which they read.
-/
namespace Seftp.PayloadCodecs
open LittleEndian ExceptState OutsideWorld Text Protocol ClientStore ServerSession Answers
open SessionFrames HandlerFrames

/-! ### Reading within a byte string -/

/-- `len` bytes from `off`, absent when the payload ends before them. -/
def bytesAt (payload : Bytes) (off len : ℕ) : Option Bytes :=
  if off + len ≤ payload.length then some ((payload.drop off).take len) else none

def numberAt (payload : Bytes) (off width : ℕ) : Option ℕ := (bytesAt payload off width).map leNat

theorem bytesAt_within {payload : Bytes} {off len : ℕ} (h : off + len ≤ payload.length) :
    bytesAt payload off len = some ((payload.drop off).take len) := if_pos h

theorem numberAt_within {payload : Bytes} {off width : ℕ} (h : off + width ≤ payload.length) :
    numberAt payload off width = some (readLe width off payload) := by
  rw [numberAt, bytesAt_within h]
  rfl

/-- A field behind a known number of bytes. -/
theorem field_append {before field after : Bytes} {off len : ℕ} (ho : before.length = off)
    (hl : field.length = len) : ((before ++ field ++ after).drop off).take len = field := by
  rw [List.append_assoc, List.drop_left' ho, List.take_left' hl]

theorem readLe_append {before after : Bytes} {off v : ℕ} (ho : before.length = off)
    (hv : v ≤ 65535) : readLe 2 off (before ++ leBytes 2 v ++ after) = v := by
  rw [readLe, field_append ho (length_leBytes 2 v)]
  exact leNat_leBytes_of_lt (by omega)

/-- A length field that is read back. -/
theorem leBytes_readLe {payload : Bytes} {off : ℕ} (h : off + 2 ≤ payload.length) :
    leBytes 2 (readLe 2 off payload) = (payload.drop off).take 2 := by
  have hl : ((payload.drop off).take 2).length = 2 := by
    rw [List.length_take, List.length_drop]
    omega
  have hback := leBytes_leNat ((payload.drop off).take 2)
  rwa [hl] at hback

theorem readLe_lt {payload : Bytes} {off : ℕ} : readLe 2 off payload ≤ 65535 := by
  have h := leNat_lt ((payload.drop off).take 2)
  have hl : ((payload.drop off).take 2).length ≤ 2 := List.length_take_le _ _
  have hp := Nat.pow_le_pow_right (show 0 < 256 by omega) hl
  unfold readLe
  omega

/-! ### Two fields behind a fixed part -/

/-- Two byte strings with their 16-bit lengths, behind `front`. -/
def twoFields (front a b : Bytes) : Bytes :=
  front ++ leBytes 2 a.length ++ a ++ leBytes 2 b.length ++ b

section
variable {front a b : Bytes} {off : ℕ}

theorem length_twoFields (hf : front.length = off) :
    (twoFields front a b).length = off + 2 + a.length + 2 + b.length := by
  simp only [twoFields, List.length_append, length_leBytes, hf]

theorem take_twoFields (hf : front.length = off) : (twoFields front a b).take off = front := by
  simp only [twoFields, List.append_assoc]
  exact List.take_left' hf

theorem firstLength_twoFields (hf : front.length = off) (ha : a.length ≤ 65535) :
    readLe 2 off (twoFields front a b) = a.length := by
  simp only [twoFields, List.append_assoc]
  rw [← List.append_assoc]
  exact readLe_append hf ha

theorem secondLength_twoFields (hf : front.length = off) (hb : b.length ≤ 65535) :
    readLe 2 (off + 2 + a.length) (twoFields front a b) = b.length :=
  readLe_append (by simp only [List.length_append, length_leBytes, hf]) hb

theorem first_twoFields (hf : front.length = off) :
    ((twoFields front a b).drop (off + 2)).take a.length = a := by
  rw [twoFields, List.append_assoc _ _ b]
  exact field_append (by rw [List.length_append, length_leBytes, hf]) rfl

theorem second_twoFields (hf : front.length = off) :
    ((twoFields front a b).drop (off + 2 + a.length + 2)).take b.length = b := by
  rw [twoFields, List.drop_left' (by simp only [List.length_append, length_leBytes, hf]),
    List.take_length]

/-- A byte string whose length fields add up is put together from its parts. -/
theorem eq_twoFields {payload : Bytes} {k n : ℕ} (hk : readLe 2 off payload = k)
    (hn : readLe 2 (off + 2 + k) payload = n) (hlen : payload.length = off + 2 + k + 2 + n) :
    payload = twoFields (payload.take off) ((payload.drop (off + 2)).take k)
      ((payload.drop (off + 2 + k + 2)).take n) := by
  have ha : ((payload.drop (off + 2)).take k).length = k := by
    rw [List.length_take, List.length_drop]
    omega
  have hb : ((payload.drop (off + 2 + k + 2)).take n).length = n := by
    rw [List.length_take, List.length_drop]
    omega
  have hk' : leBytes 2 k = (payload.drop off).take 2 := by
    rw [← hk]
    exact leBytes_readLe (by omega)
  have hn' : leBytes 2 n = (payload.drop (off + 2 + k)).take 2 := by
    rw [← hn]
    exact leBytes_readLe (by omega)
  rw [twoFields, ha, hb, hk', hn', ← List.take_add, ← List.take_add, ← List.take_add,
    ← List.take_add, ← hlen, List.take_length]
end

/-! ### 1602 and 1605 -/

/-- `signature` is the session's signature of this key. -/
def SignsKey (env : Env) (h : Handshake) (key clientId : Bytes) (code : ResCode)
    (signature : Bytes) : Prop :=
  h.verified = true ∧ ∃ sv cn sn, h.securityVersion = some sv ∧ h.clientNonce = some cn ∧
    h.serverNonce = some sn ∧
    sign env (aesKeyBindingTranscript sv cn sn clientId code.value key) = .ok signature

theorem buildBoundAesKeyPayload_eq {env : Env} {h : Handshake} {key clientId signature : Bytes}
    {code : ResCode} (hs : SignsKey env h key clientId code signature) (hk : key.length ≤ 65535)
    (hg : signature.length ≤ 65535) :
    buildBoundAesKeyPayload env h key clientId code = .ok (twoFields clientId key signature) := by
  obtain ⟨hv, sv, cn, sn, h₁, h₂, h₃, hsig⟩ := hs
  simp only [buildBoundAesKeyPayload, hv, h₁, h₂, h₃, hsig, Bool.not_true, Bool.false_eq_true,
    if_false, bind, Except.bind, if_neg (Nat.not_lt.mpr hk), if_neg (Nat.not_lt.mpr hg)]
  rfl

/-- `parse_1602` with its reads checked. -/
def parse1602Reads (payload : Bytes) : Option (Except String Res1602) :=
  if payload.length < 16 + 2 then some (.error "1602 payload too short")
  else
    (bytesAt payload 0 16).bind fun clientId =>
    (numberAt payload 16 2).bind fun keyLen =>
    if keyLen = 0 then some (.error "1602 encrypted key is empty")
    else if payload.length < 18 + keyLen + 2 then some (.error "1602 encrypted key truncated")
    else
      (bytesAt payload 18 keyLen).bind fun encryptedKey =>
      (numberAt payload (18 + keyLen) 2).bind fun sigLen =>
      if sigLen = 0 then some (.error "1602 signature is empty")
      else if payload.length ≠ 20 + keyLen + sigLen then
        some (.error "1602 signature length mismatch")
      else
        (bytesAt payload (20 + keyLen) sigLen).bind fun signature =>
        some (.ok { clientId, encryptedKey, signature })

theorem parse1602_within (payload : Bytes) : parse1602Reads payload = some (parse1602 payload) := by
  unfold parse1602Reads parse1602
  by_cases h₁ : payload.length < 16 + 2
  · rw [if_pos h₁, if_pos h₁]
  rw [if_neg h₁, if_neg h₁, bytesAt_within (by omega), numberAt_within (by omega)]
  simp only [Option.bind_some, List.drop_zero]
  by_cases h₂ : readLe 2 16 payload = 0
  · rw [if_pos h₂, if_pos h₂]
  rw [if_neg h₂, if_neg h₂]
  by_cases h₃ : payload.length < 18 + readLe 2 16 payload + 2
  · rw [if_pos h₃, if_pos h₃]
  rw [if_neg h₃, if_neg h₃, bytesAt_within (by omega), numberAt_within (by omega)]
  simp only [Option.bind_some]
  by_cases h₄ : readLe 2 (18 + readLe 2 16 payload) payload = 0
  · rw [if_pos h₄, if_pos h₄]
  rw [if_neg h₄, if_neg h₄]
  by_cases h₅ : payload.length ≠
      20 + readLe 2 16 payload + readLe 2 (18 + readLe 2 16 payload) payload
  · rw [if_pos h₅, if_pos h₅]
  rw [if_neg h₅, if_neg h₅, bytesAt_within (by omega)]
  rfl

theorem parse1602_twoFields {clientId key signature : Bytes} (hc : clientId.length = 16)
    (hk : 1 ≤ key.length ∧ key.length ≤ 65535)
    (hg : 1 ≤ signature.length ∧ signature.length ≤ 65535) :
    parse1602 (twoFields clientId key signature) =
      .ok { clientId, encryptedKey := key, signature } := by
  have hlen := length_twoFields (a := key) (b := signature) hc
  have hsigLen := secondLength_twoFields (a := key) hc hg.2
  have hsig := second_twoFields (a := key) (b := signature) hc
  rw [show 16 + 2 + key.length + 2 = 20 + key.length by omega] at hsig
  simp only [parse1602, firstLength_twoFields hc hk.2, hsigLen, hlen]
  rw [if_neg (by omega), if_neg (by omega), if_neg (by omega), if_neg (by omega), if_neg (by omega),
    take_twoFields hc, first_twoFields hc, hsig]

theorem parse1602_ok {payload : Bytes} {r : Res1602} (h : parse1602 payload = .ok r) :
    r.clientId.length = 16 ∧ (1 ≤ r.encryptedKey.length ∧ r.encryptedKey.length ≤ 65535) ∧
      (1 ≤ r.signature.length ∧ r.signature.length ≤ 65535) ∧
      payload = twoFields r.clientId r.encryptedKey r.signature := by
  unfold parse1602 at h
  simp only at h
  split_ifs at h with h₁ h₂ h₃ h₄ h₅
  cases h
  generalize hk : readLe 2 16 payload = k at *
  generalize hn : readLe 2 (18 + k) payload = n at *
  have hk' : k ≤ 65535 := hk ▸ readLe_lt
  have hn' : n ≤ 65535 := hn ▸ readLe_lt
  have heq := eq_twoFields hk hn (by omega)
  rw [show 16 + 2 + k + 2 = 20 + k by omega] at heq
  simp only [List.length_take, List.length_drop]
  exact ⟨by omega, ⟨by omega, by omega⟩, ⟨by omega, by omega⟩, heq⟩

/-! ### 1608 -/

/-- The payload `answer_1608` builds. -/
def serverHelloPayload (securityVersion : UInt8)
    (serverNonce serverPublicKeyDer signature : Bytes) :
    Except PyError Bytes :=
  if serverNonce.length ≠ 32 then .error (.value "server_nonce must be exactly 32 bytes")
  else if 65535 < serverPublicKeyDer.length then
    .error (.value "server_public_key_der too large")
  else if 65535 < signature.length then .error (.value "signature too large")
  else .ok ([securityVersion] ++ serverNonce ++ leBytes 2 serverPublicKeyDer.length ++
    serverPublicKeyDer ++ leBytes 2 signature.length ++ signature)

theorem answer1608_eq (ctx : Ctx) (version : Bytes) (securityVersion : UInt8)
    (serverNonce serverPublicKeyDer signature : Bytes) :
    answer1608 ctx version securityVersion serverNonce serverPublicKeyDer signature =
      ofExcept (serverHelloPayload securityVersion serverNonce serverPublicKeyDer signature) >>=
        fun payload => ofExcept (messageAnswer version .serverHello payload.length payload) >>=
          send ctx := rfl

theorem serverHelloPayload_eq {securityVersion : UInt8}
    {serverNonce serverPublicKeyDer signature : Bytes} (hn : serverNonce.length = 32)
    (hk : serverPublicKeyDer.length ≤ 65535) (hg : signature.length ≤ 65535) :
    serverHelloPayload securityVersion serverNonce serverPublicKeyDer signature =
      .ok (twoFields ([securityVersion] ++ serverNonce) serverPublicKeyDer signature) := by
  rw [serverHelloPayload, if_neg (by simp [hn]), if_neg (by omega), if_neg (by omega)]
  rfl

/-- `parse_1608` with its reads checked. -/
def parse1608Reads (payload : Bytes) : Option (Except String Res1608) :=
  if payload.length < 1 + 32 + 2 + 2 then some (.error "1608 payload too short")
  else
    payload[0]?.bind fun securityVersion =>
    (bytesAt payload 1 32).bind fun serverNonce =>
    (numberAt payload 33 2).bind fun keyLen =>
    if payload.length < 35 + keyLen + 2 then some (.error "1608 public key length out of bounds")
    else
      (bytesAt payload 35 keyLen).bind fun serverPublicKeyDer =>
      (numberAt payload (35 + keyLen) 2).bind fun sigLen =>
      if 37 + keyLen + sigLen ≠ payload.length then some (.error "1608 signature length mismatch")
      else
        (bytesAt payload (37 + keyLen) sigLen).bind fun signature =>
        some (.ok { securityVersion, serverNonce, serverPublicKeyDer, signature })

theorem parse1608_within (payload : Bytes) : parse1608Reads payload = some (parse1608 payload) := by
  unfold parse1608Reads parse1608
  by_cases h₁ : payload.length < 1 + 32 + 2 + 2
  · rw [if_pos h₁, if_pos h₁]
  have hfirst : payload[0]? = some (payload.headD 0) := by
    cases payload with
    | nil => simp at h₁
    | cons b bs => rfl
  rw [if_neg h₁, if_neg h₁, hfirst, bytesAt_within (by omega), numberAt_within (by omega)]
  simp only [Option.bind_some]
  by_cases h₂ : payload.length < 35 + readLe 2 33 payload + 2
  · rw [if_pos h₂, if_pos h₂]
  rw [if_neg h₂, if_neg h₂, bytesAt_within (by omega), numberAt_within (by omega)]
  simp only [Option.bind_some]
  by_cases h₃ : 37 + readLe 2 33 payload + readLe 2 (35 + readLe 2 33 payload) payload ≠
      payload.length
  · rw [if_pos h₃, if_pos h₃]
  rw [if_neg h₃, if_neg h₃, bytesAt_within (by omega)]
  rfl

theorem parse1608_twoFields {securityVersion : UInt8}
    {serverNonce serverPublicKeyDer signature : Bytes} (hn : serverNonce.length = 32)
    (hk : serverPublicKeyDer.length ≤ 65535) (hg : signature.length ≤ 65535) :
    parse1608 (twoFields ([securityVersion] ++ serverNonce) serverPublicKeyDer signature) =
      .ok { securityVersion, serverNonce, serverPublicKeyDer, signature } := by
  have hf : ([securityVersion] ++ serverNonce).length = 33 := by
    rw [List.length_append, hn]
    rfl
  have hlen := length_twoFields (a := serverPublicKeyDer) (b := signature) hf
  have hsigLen := secondLength_twoFields (a := serverPublicKeyDer) hf hg
  have hsig := second_twoFields (a := serverPublicKeyDer) (b := signature) hf
  rw [show 33 + 2 + serverPublicKeyDer.length + 2 = 37 + serverPublicKeyDer.length by omega] at hsig
  have hnonce : ((twoFields ([securityVersion] ++ serverNonce) serverPublicKeyDer signature).drop
      1).take 32 = serverNonce := by
    simp only [twoFields, List.append_assoc]
    exact List.take_left' hn
  simp only [parse1608, firstLength_twoFields hf hk, hsigLen, hlen]
  rw [if_neg (by omega), if_neg (by omega), if_neg (by omega), first_twoFields hf, hsig, hnonce]
  rfl

theorem parse1608_ok {payload : Bytes} {r : Res1608} (h : parse1608 payload = .ok r) :
    r.serverNonce.length = 32 ∧ r.serverPublicKeyDer.length ≤ 65535 ∧
      r.signature.length ≤ 65535 ∧
      payload = twoFields ([r.securityVersion] ++ r.serverNonce) r.serverPublicKeyDer
        r.signature := by
  unfold parse1608 at h
  simp only at h
  split_ifs at h with h₁ h₂ h₃
  cases h
  generalize hk : readLe 2 33 payload = k at *
  generalize hn : readLe 2 (35 + k) payload = n at *
  have hk' : k ≤ 65535 := hk ▸ readLe_lt
  have hn' : n ≤ 65535 := hn ▸ readLe_lt
  have heq := eq_twoFields hk hn (by omega)
  have hfront : payload.take 33 = [payload.headD 0] ++ (payload.drop 1).take 32 := by
    cases payload with
    | nil => simp at h₁
    | cons b bs => rfl
  rw [show 33 + 2 + k + 2 = 37 + k by omega, hfront] at heq
  simp only [List.length_take, List.length_drop]
  exact ⟨by omega, by omega, by omega, heq⟩

/-- Building and parsing are inverse to each other for keys and hellos, and no parser
reads outside its payload. -/
theorem key_and_hello_codecs_exact :
    (∀ (env : Env) (h : Handshake) (clientId : ClientId) (key signature : Bytes) (code : ResCode),
      SignsKey env h key clientId.val code signature →
      1 ≤ key.length ∧ key.length ≤ 65535 → 1 ≤ signature.length ∧ signature.length ≤ 65535 →
      ∃ payload, buildBoundAesKeyPayload env h key clientId.val code = .ok payload ∧
        parse1602 payload =
          .ok { clientId := clientId.val, encryptedKey := key, signature := signature }) ∧
    (∀ (payload : Bytes) (r : Res1602), parse1602 payload = .ok r →
      r.clientId.length = 16 ∧ (1 ≤ r.encryptedKey.length ∧ r.encryptedKey.length ≤ 65535) ∧
      (1 ≤ r.signature.length ∧ r.signature.length ≤ 65535) ∧
      ∀ (env : Env) (h : Handshake) (code : ResCode),
        SignsKey env h r.encryptedKey r.clientId code r.signature →
        buildBoundAesKeyPayload env h r.encryptedKey r.clientId code = .ok payload) ∧
    (∀ (securityVersion : UInt8) (serverNonce : Nonce) (serverPublicKeyDer signature : Bytes),
      serverPublicKeyDer.length ≤ 65535 → signature.length ≤ 65535 →
      ∃ payload,
        serverHelloPayload securityVersion serverNonce.val serverPublicKeyDer signature =
          .ok payload ∧
        parse1608 payload = .ok
          { securityVersion := securityVersion
            serverNonce := serverNonce.val
            serverPublicKeyDer := serverPublicKeyDer
            signature := signature }) ∧
    (∀ (payload : Bytes) (r : Res1608), parse1608 payload = .ok r →
      r.serverNonce.length = 32 ∧ r.serverPublicKeyDer.length ≤ 65535 ∧
      r.signature.length ≤ 65535 ∧
      serverHelloPayload r.securityVersion r.serverNonce r.serverPublicKeyDer r.signature =
        .ok payload) ∧
    (∀ (ctx : Ctx) (version : Bytes) (securityVersion : UInt8)
      (serverNonce serverPublicKeyDer signature : Bytes),
      answer1608 ctx version securityVersion serverNonce serverPublicKeyDer signature =
        ofExcept (serverHelloPayload securityVersion serverNonce serverPublicKeyDer signature) >>=
          fun payload => ofExcept (messageAnswer version .serverHello payload.length payload) >>=
            send ctx) ∧
    ∀ payload : Bytes, parse1602Reads payload = some (parse1602 payload) ∧
      parse1608Reads payload = some (parse1608 payload) := by
  refine ⟨?_, ?_, ?_, ?_, answer1608_eq, fun payload =>
    ⟨parse1602_within payload, parse1608_within payload⟩⟩
  · intro env h clientId key signature code hs hk hg
    exact ⟨_, buildBoundAesKeyPayload_eq hs hk.2 hg.2, parse1602_twoFields clientId.2 hk hg⟩
  · intro payload r hr
    obtain ⟨hc, hk, hg, heq⟩ := parse1602_ok hr
    refine ⟨hc, hk, hg, fun env h code hs => ?_⟩
    rw [buildBoundAesKeyPayload_eq hs hk.2 hg.2, ← heq]
  · intro securityVersion serverNonce serverPublicKeyDer signature hk hg
    exact ⟨_, serverHelloPayload_eq serverNonce.2 hk hg, parse1608_twoFields serverNonce.2 hk hg⟩
  · intro payload r hr
    obtain ⟨hn, hk, hg, heq⟩ := parse1608_ok hr
    refine ⟨hn, hk, hg, ?_⟩
    rw [serverHelloPayload_eq hn hk hg, ← heq]

/-- A key of three bytes and a signature of two. -/
def signingEnv : Env where
  config := {}
  rsaImport _ := none
  oaepEncrypt _ _ := none
  signTranscript _ := some [8, 9]
  serverPublicKeyDer := [1, 2, 3]
  aesDecrypt _ block := block
  isAlnum _ := false
  repr name := name

def signedHandshake : Handshake :=
  { verified := true
    securityVersion := some 1
    clientNonce := some (List.replicate 32 5)
    serverNonce := some (List.replicate 32 6) }

theorem small_key_round_trip :
    ∃ payload, buildBoundAesKeyPayload signingEnv signedHandshake
      [4, 5, 6] zeroClientId.val .aesKey =
        .ok payload ∧
      parse1602 payload =
        .ok { clientId := zeroClientId.val, encryptedKey := [4, 5, 6], signature := [8, 9] } :=
  key_and_hello_codecs_exact.1 signingEnv signedHandshake zeroClientId [4, 5, 6] [8, 9] .aesKey
    ⟨rfl, 1, _, _, rfl, rfl, rfl, rfl⟩ (by decide) (by decide)

/-! ### 1603 -/

/-- The payload `answer_1603` builds. -/
def crcResultPayload (clientId : Bytes) (fileName : String) (contentSize : ℕ) (crc32Val : UInt32) :
    Except PyError Bytes := do
  let contentSizeBytes ← toBytes 4 contentSize
  .ok (clientId ++ contentSizeBytes ++ (utf8Encode fileName ++ [0]) ++ leBytes 4 crc32Val.toNat)

theorem answer1603_eq (ctx : Ctx) (clientId version : Bytes) (fileName : String) (contentSize : ℕ)
    (crc32Val : UInt32) :
    answer1603 ctx clientId version fileName contentSize crc32Val = (do
      let _ ← onStore (touchClientLastSeen ctx.out (hex clientId))
      logEvent ctx (.clientId clientId) "answer_1603"
      let payload ← ofExcept (crcResultPayload clientId fileName contentSize crc32Val)
      let message ← ofExcept (messageAnswer version .crcResult payload.length payload)
      send ctx message) := by
  simp only [answer1603, crcResultPayload]
  rcases toBytes 4 contentSize with e | size
  · rfl
  · rfl

theorem readLe_four_append {before after : Bytes} {off : ℕ} (v : UInt32)
    (ho : before.length = off) :
    readLe 4 off (before ++ leBytes 4 v.toNat ++ after) = v.toNat := by
  rw [readLe, field_append ho (length_leBytes 4 v.toNat)]
  exact leNat_leBytes_of_lt v.toNat_lt

/-- What the client makes of a 1603: the terminator is a part of the name. -/
theorem parse1603_crcResult (clientId : ClientId) (fileName : String) (contentSize crc : UInt32) :
    ∃ payload, crcResultPayload clientId.val fileName contentSize.toNat crc = .ok payload ∧
      parse1603 payload = .ok
        { clientId := clientId.val
          contentSize := contentSize.toNat
          filename := utf8Encode fileName ++ [0]
          serverCrc := crc.toNat } := by
  refine ⟨clientId.val ++ leBytes 4 contentSize.toNat ++ (utf8Encode fileName ++ [0]) ++
    leBytes 4 crc.toNat, ?_, ?_⟩
  · have hsize : contentSize.toNat < 256 ^ 4 := contentSize.toNat_lt
    rw [crcResultPayload, toBytes, if_pos hsize]
    rfl
  generalize utf8Encode fileName ++ [0] = name
  have hid := clientId.2
  have hfront : (clientId.val ++ leBytes 4 contentSize.toNat).length = 20 := by
    rw [List.length_append, length_leBytes, hid]
  have hlen : (clientId.val ++ leBytes 4 contentSize.toNat ++ name ++ leBytes 4 crc.toNat).length =
      24 + name.length := by
    simp only [List.length_append, length_leBytes, hid]
    omega
  have hsize : readLe 4 16 (clientId.val ++ leBytes 4 contentSize.toNat ++ name ++
      leBytes 4 crc.toNat) = contentSize.toNat := by
    rw [List.append_assoc _ name]
    exact readLe_four_append contentSize hid
  have hcrc : readLe 4 (20 + name.length) (clientId.val ++ leBytes 4 contentSize.toNat ++ name ++
      leBytes 4 crc.toNat) = crc.toNat := by
    have hbefore : (clientId.val ++ leBytes 4 contentSize.toNat ++ name).length =
        20 + name.length := by
      rw [List.length_append, hfront]
    rw [← List.append_nil (_ ++ leBytes 4 crc.toNat)]
    exact readLe_four_append crc hbefore
  have htake :
      (clientId.val ++ leBytes 4 contentSize.toNat ++ name ++ leBytes 4 crc.toNat).take 16 =
      clientId.val := by
    rw [List.append_assoc, List.append_assoc]
    exact List.take_left' hid
  simp only [parse1603, hlen]
  rw [if_neg (by omega), show 24 + name.length - 20 - 4 = name.length by omega, hsize, hcrc, htake,
    field_append hfront rfl]

/-- The client gets back the fields the server put in. -/
def CrcResultRoundTrip (clientId : ClientId) (fileName : String)
    (contentSize crc : UInt32) : Prop :=
  ∃ payload, crcResultPayload clientId.val fileName contentSize.toNat crc = .ok payload ∧
    parse1603 payload = .ok
      { clientId := clientId.val
        contentSize := contentSize.toNat
        filename := utf8Encode fileName
        serverCrc := crc.toNat }

/-- The name comes back with the terminator, so no 1603 makes the round trip. -/
theorem no_crcResult_round_trip (clientId : ClientId) (fileName : String)
    (contentSize crc : UInt32) :
    (∀ (ctx : Ctx) (version : Bytes),
      answer1603 ctx clientId.val version fileName contentSize.toNat crc = (do
        let _ ← onStore (touchClientLastSeen ctx.out (hex clientId.val))
        logEvent ctx (.clientId clientId.val) "answer_1603"
        let payload ← ofExcept (crcResultPayload clientId.val fileName contentSize.toNat crc)
        let message ← ofExcept (messageAnswer version .crcResult payload.length payload)
        send ctx message)) ∧
    ¬ CrcResultRoundTrip clientId fileName contentSize crc := by
  refine ⟨fun ctx version => answer1603_eq ctx _ version _ _ _, ?_⟩
  rintro ⟨payload, hbuild, hparse⟩
  obtain ⟨payload', hbuild', hparse'⟩ := parse1603_crcResult clientId fileName contentSize crc
  rw [hbuild] at hbuild'
  cases hbuild'
  rw [hparse] at hparse'
  have hname := congrArg Res1603.filename (Except.ok.inj hparse')
  exact absurd (congrArg List.length hname) (by simp)

/-- A file of 5 bytes: the name comes back as `a.txt` and a zero byte. -/
theorem crcResult_of_a_txt : ¬ CrcResultRoundTrip zeroClientId "a.txt" 5 0x12345678 := by
  rintro ⟨payload, hbuild, hparse⟩
  cases hbuild
  revert hparse
  decide +kernel

end Seftp.PayloadCodecs
