import Seftp.UploadPackets

/-!
# The limit on the size of a file

`validate_header` on the packets that the client makes of a file. The limit is applied to
the size of the file and to that of the padded ciphertext, so the ciphertext decides, and
a file of no bytes is turned away. With the default limits on packets nothing else
stops an upload.
-/
namespace Seftp.SizeLimits
open LittleEndian ExceptState OutsideWorld BlockChaining Checksum Text Protocol ServerSession
open UploadHandlers UploadSteps ChunkSteps UploadStages ClientProgram ClientUpload ClientStream
open UploadPackets
open UploadDelivery (aliceClient aliceFiles aliceUuid aliceKeyText aliceContent zeroKeyAes_inverts
  outgoing_alice)

/-- The numbers of a payload, as `request_828` reads them. -/
def headerOf (payload : Bytes) : Packet :=
  { contentSize := leNat (payload.take 4)
    origFileSize := leNat ((payload.drop 4).take 4)
    packetNum := leNat ((payload.drop 8).take 2)
    totalPackets := leNat ((payload.drop 10).take 2)
    fileName := ""
    cipherChunk := [] }

/-- The payload of packet `k`. -/
def packetPayload (u : Upload) (k : ℕ) (data : Bytes) : Bytes :=
  filePacketPayload u.cipherSize u.plainSize k u.totalPackets u.fileName data

/-- Every packet passes `validate_header` and every chunk the check of its size. -/
structure Passes (config : Config) (u : Upload) (iv : Bytes) (chunks : List Bytes) : Prop where
  headers : ∀ k data, (iv :: chunks)[k]? = some data →
    validateHeader config (headerOf (packetPayload u k data)) = none
  chunks : ∀ c ∈ chunks, c.length ≤ config.maxChunkSize

/-- Packet 0 is turned away: by `validate_header`, and whenever `request_828` returns the
session has no upload. -/
structure TurnedAway (config : Config) (u : Upload) (iv : Bytes) : Prop where
  header : validateHeader config (headerOf (packetPayload u 0 iv)) ≠ none
  reset : ∀ (ctx : Ctx) (version clientId : Bytes) (w w' : World), ctx.env.config = config →
    request828 ctx (packetPayload u 0 iv) version clientId w = (.ok (), w') →
    w'.session.transfer = {}

section
variable {config : Config} {payload : Bytes} {p : Packet}

/-- The name and the chunk do not matter to `validate_header`. -/
theorem validateHeader_parse (h : parse828 payload = .ok p) :
    validateHeader config p = validateHeader config (headerOf payload) := by
  unfold parse828 at h
  split at h
  · cases h
  · split at h
    · cases h
    · cases h
      rfl

/-- A packet whose header is turned away leaves no upload. -/
theorem reset_of_header {ctx : Ctx} {version clientId : Bytes} {w w' : World}
    (hheader : validateHeader ctx.env.config (headerOf payload) ≠ none)
    (hrun : request828 ctx payload version clientId w = (.ok (), w')) :
    w'.session.transfer = {} := by
  have huploads := (wp_of_eq_ok hrun).mp (wp_request828 payload)
  cases huploads with
  | unparsed r hparse hplain href => exact href.transfer
  | unbound p r hparse hbind hplain href => exact href.transfer
  | foreign p hparse hid hother href => exact href.transfer
  | header p t text hparse hbind hheader habandon => exact habandon.transfer
  | admitted p t u hparse hbind hown hnone hd hadmits =>
      rw [validateHeader_parse hparse] at hnone
      exact absurd hnone hheader

end

section
variable {config : Config} {u : Upload} {k : ℕ} {data : Bytes}

/-- A header that fits is read as it was written. -/
theorem validateHeader_payload (hu : Lossless u) (hk : k ≤ u.totalPackets) :
    validateHeader config (headerOf (packetPayload u k data)) =
      validateHeader config
        { contentSize := u.cipherSize, origFileSize := u.plainSize, packetNum := k
          totalPackets := u.totalPackets, fileName := "", cipherChunk := [] } := by
  obtain ⟨h₁, h₂, h₃, h₄⟩ := hu.fields k hk data
  rw [headerOf, packetPayload, h₁, h₂, h₃, h₄]

theorem validateHeader_of {p : Packet} (h : p.totalPackets ≠ 0 ∧ p.packetNum ≤ p.totalPackets ∧
    p.contentSize ≠ 0 ∧ p.origFileSize ≠ 0 ∧ p.totalPackets ≤ config.maxPackets ∧
    p.origFileSize ≤ config.maxFileSize ∧ p.contentSize ≤ config.maxFileSize) :
    validateHeader config p = none := by
  obtain ⟨h₁, h₂, h₃, h₄, h₅, h₆, h₇⟩ := h
  rw [validateHeader, if_neg h₁, if_neg (by omega), if_neg h₃, if_neg h₄, if_neg (by omega),
    if_neg (by omega), if_neg (by omega)]

end

/-- Files of up to 100 MiB go out in packets of 8 KiB. -/
theorem chooseUploadChunkSize_small {n : ℕ} (h : n ≤ 100 * 1024 * 1024) :
    chooseUploadChunkSize n = 8192 := by
  unfold chooseUploadChunkSize
  omega

/-- With the default limits on packets and a file size limit of at most 100 MiB, the
packets of a file pass exactly when the file has a byte and its padded ciphertext is
within the limit; otherwise packet 0 is turned away. -/
theorem size_limit_exact {σ : Type} (env : ClientEnv σ) (dec : Bytes → Bytes) (w : ClientWorld σ)
    (uuid encryptKey path content : Bytes) (cid : ClientId) (config : Config)
    (hreliable : Reliable env) (haes : Inverts (env.aesEncrypt (decodeBase64 encryptKey)) dec 16)
    (hcid : parseClientIdHex32 uuid = .ok cid) (hkey : (decodeBase64 encryptKey).length = 32)
    (hfile : w.files path = some content) (hsent : paddedCbcSize content.length < 2 ^ 32)
    (hlimit : config.maxFileSize ≤ 100 * 1024 * 1024) (hpackets : config.maxPackets = 65535)
    (hchunk : config.maxChunkSize = 64 * 1024) :
    let u := uploadOf cid (decodeBase64 encryptKey) path content
    let iv := (env.makeIv w.calls).val
    ∃ chunks t, request828Streaming env uuid encryptKey path w = (.ok (some (crc32 content 0)), t) ∧
      t.trace = w.trace ++ (packetMessages u 0 (iv :: chunks)).map Event.wrote ++
        [.streamed (crc32 content 0)] ∧
      (Passes config u iv chunks ↔
        0 < content.length ∧ paddedCbcSize content.length ≤ config.maxFileSize) ∧
      (¬ (0 < content.length ∧ paddedCbcSize content.length ≤ config.maxFileSize) →
        TurnedAway config u iv) ∧
      (config.maxFileSize < content.length → TurnedAway config u iv) := by
  intro u iv
  obtain ⟨chunks, t, hrun, hcut, htrace⟩ := request828Streaming_emits hreliable haes rfl hkey hcid
    hfile hsent
  have hlossless : Lossless u := lossless_uploadOf cid _ path hsent
  have hgt := paddedCbcSize_gt content.length
  obtain ⟨hpos, hmax, -⟩ := packetCount_bounds (Nat.lt_of_le_of_lt (Nat.zero_le _) hgt)
  have hfirst : validateHeader config (headerOf (packetPayload u 0 iv)) = none →
      0 < content.length ∧ paddedCbcSize content.length ≤ config.maxFileSize := by
    intro hnone
    rw [validateHeader_payload hlossless (Nat.zero_le _)] at hnone
    obtain ⟨-, -, -, hplain, -, -, hcipher⟩ := validateHeader_none hnone
    exact ⟨Nat.pos_of_ne_zero hplain, hcipher⟩
  have haway (hout : ¬ (0 < content.length ∧ paddedCbcSize content.length ≤ config.maxFileSize)) :
      TurnedAway config u iv := by
    have hheader : validateHeader config (headerOf (packetPayload u 0 iv)) ≠ none :=
      fun hnone => hout (hfirst hnone)
    refine ⟨hheader, fun ctx version clientId x x' hconfig hreturns => ?_⟩
    exact reset_of_header (by rwa [hconfig]) hreturns
  refine ⟨chunks, t, hrun, htrace,
    ⟨fun hpasses => ?_, fun hin => ⟨fun k data hk => ?_, fun c hc => ?_⟩⟩,
    haway, fun hlarge => haway fun hin => ?_⟩
  · exact hfirst (hpasses.headers 0 iv rfl)
  · have hle : k ≤ u.totalPackets := by
      have hlen := (List.getElem?_eq_some_iff.mp hk).choose
      rw [List.length_cons, hcut.count] at hlen
      exact Nat.lt_succ_iff.mp hlen
    rw [validateHeader_payload hlossless hle]
    refine validateHeader_of ⟨?_, hle, ?_, ?_, ?_, ?_, hin.2⟩
    · exact Nat.ne_of_gt hpos
    · exact Nat.ne_of_gt (Nat.lt_of_le_of_lt (Nat.zero_le _) hgt)
    · exact Nat.ne_of_gt hin.1
    · rw [hpackets]
      exact hmax
    · exact hgt.le.trans hin.2
  · have hsize : u.chunkSize = 8192 := chooseUploadChunkSize_small (hin.2.trans hlimit)
    have hbound : c.length ≤ u.chunkSize := hcut.bounded c hc
    rw [hchunk]
    exact hbound.trans (hsize.trans_le (by decide))
  · exact absurd (hgt.le.trans hin.2) (Nat.not_le_of_lt hlarge)

/-- A file of 17 bytes under the default limits. -/
theorem size_limit_exact_alice :
    let u := uploadOf ⟨UploadSlot.aliceId, rfl⟩ (decodeBase64 aliceKeyText) (utf8Encode "docs/f")
      aliceContent
    ∃ chunks t, request828Streaming aliceClient aliceUuid aliceKeyText (utf8Encode "docs/f")
        aliceFiles = (.ok (some (crc32 aliceContent 0)), t) ∧
      Passes {} u (aliceClient.makeIv 0).val chunks := by
  intro u
  obtain ⟨chunks, t, hrun, -, hpasses, -⟩ := size_limit_exact aliceClient UploadSlot.zeroKeyAes
    aliceFiles aliceUuid aliceKeyText (utf8Encode "docs/f") aliceContent
      ⟨UploadSlot.aliceId, rfl⟩ {}
    outgoing_alice.reliable zeroKeyAes_inverts outgoing_alice.id (by decide +kernel) rfl
    (by decide +kernel) (by decide) rfl rfl
  exact ⟨chunks, t, hrun, hpasses.mpr ⟨by decide +kernel, by decide +kernel⟩⟩

/-- A file that the server accepts under the limit `M`. -/
def Accepted (M : ℕ) (content : Bytes) : Prop :=
  ∃ chunks t, request828Streaming aliceClient aliceUuid aliceKeyText (utf8Encode "docs/f")
      { aliceFiles with files := fun _ => some content } = (.ok (some (crc32 content 0)), t) ∧
    Passes { maxFileSize := M }
      (uploadOf ⟨UploadSlot.aliceId, rfl⟩ (decodeBase64 aliceKeyText) (utf8Encode "docs/f") content)
      (aliceClient.makeIv 0).val chunks

/-- A file as long as the limit is turned away for its padding, and a file of no bytes
for its size. -/
theorem limit_is_not_of_the_file :
    ¬ (∀ M, 0 < M → M ≤ 100 * 1024 * 1024 → ∀ content : Bytes, 0 < content.length →
      content.length ≤ M → Accepted M content) ∧
    ¬ (∀ M, 0 < M → M ≤ 100 * 1024 * 1024 → Accepted M []) := by
  constructor
  · intro h
    obtain ⟨chunks, t, -, hpasses⟩ := h 16 (by decide) (by decide) (List.replicate 16 65)
      (by decide) (by decide)
    have hheader := hpasses.headers 0 _ rfl
    revert hheader
    decide +kernel
  · intro h
    obtain ⟨chunks, t, -, hpasses⟩ := h (100 * 1024 * 1024) (by decide) (by decide)
    have hheader := hpasses.headers 0 _ rfl
    revert hheader
    decide +kernel

end Seftp.SizeLimits
