import Seftp.UploadDelivery
import Mathlib.Algebra.Order.Floor.Div

/-!
# The packets of every file

`request_828_streaming` for every file whose padded size fits 32 bits. The packets cut
the ciphertext that one call of `aes256_cbc_encrypt` would give: as many as the ceiling
of its size over the packet size, all but the last of them full. The numbers in their
headers come back as they were, and the only exception of the streaming is that of a
write: on a connection that breaks the client does what it does on one that holds, up to
the first write that throws.
-/
namespace Seftp.UploadPackets
open LittleEndian ExceptState BlockChaining Checksum Text Protocol ClientProgram ClientDialogue
open ClientUpload ClientStream
open UploadDelivery (aliceClient aliceFiles aliceUuid aliceKeyText zeroKeyAes_inverts
  outgoing_alice)

section
variable {σ : Type}

/-- `aes256_cbc_encrypt`, which pads by itself; a key of another length gives nothing. -/
def aes256CbcEncrypt (env : ClientEnv σ) (plaintext key : Bytes) (iv : Iv) : Bytes :=
  if key.length ≠ 32 then [] else cbcEncrypt (env.aesEncrypt key) 16 iv.val (pad 16 plaintext)

/-! ### A connection that breaks -/

/-- The client on a connection that takes every write. -/
def steady (env : ClientEnv σ) : ClientEnv σ := { env with writeRaises := fun _ => false }

/-- The first program does what the second does, or a write has thrown. -/
def Breaks {α : Type} (x y : Client σ α) : Prop :=
  ∀ w, x w = y w ∨ ∃ t, x w = (.error "write: Broken pipe", t)

section
variable {α β : Type} {x x' y y' : Client σ α}

theorem breaks_refl (x : Client σ α) : Breaks x x := fun _ => .inl rfl

theorem breaks_bind {f g : α → Client σ β} (h : Breaks x y) (hf : ∀ a, Breaks (f a) (g a)) :
    Breaks (x >>= f) (y >>= g) := by
  intro w
  rcases h w with hsame | ⟨t, hbroken⟩
  · rw [bind_apply, bind_apply, hsame]
    rcases y w with ⟨e | a, t⟩
    · exact .inl rfl
    · exact hf a t
  · exact .inr ⟨t, bind_error hbroken⟩

theorem breaks_ite {c : Prop} [Decidable c] (hx : Breaks x x') (hy : Breaks y y') :
    Breaks (if c then x else y) (if c then x' else y') := by
  split
  · exact hx
  · exact hy

end

variable (env : ClientEnv σ) (u : Upload)

theorem breaks_write (message : Bytes) :
    Breaks (write env message) (write (steady env) message) := by
  refine breaks_bind (breaks_refl tick) fun n => ?_
  rcases hraises : env.writeRaises n with _ | _
  · rw [if_neg (by decide), if_neg (by simp [steady])]
    exact breaks_refl _
  · rw [if_pos rfl]
    exact fun w => .inr ⟨w, rfl⟩

theorem breaks_sendPacket (data : Bytes) (s : Streaming) :
    Breaks (sendPacket env u data s) (sendPacket (steady env) u data s) :=
  breaks_ite (breaks_refl _) (breaks_ite (breaks_refl _) (breaks_bind (breaks_refl _) fun message =>
    breaks_bind (breaks_write env message) fun _ => breaks_refl _))

theorem breaks_sendFullPackets (fuel : ℕ) (s : Streaming) :
    Breaks (sendFullPackets env u fuel s) (sendFullPackets (steady env) u fuel s) := by
  induction fuel generalizing s with
  | zero => exact breaks_refl _
  | succ fuel ih =>
      exact breaks_ite (breaks_refl _) (breaks_bind (breaks_sendPacket env u _ _) fun s => ih s)

theorem breaks_encryptBlocks (plain : Bytes) (s : Streaming) :
    Breaks (encryptBlocks env u plain s) (encryptBlocks (steady env) u plain s) :=
  breaks_sendFullPackets env u _ _

theorem breaks_takePiece (got : Bytes) (s : Streaming) :
    Breaks (takePiece env u got s) (takePiece (steady env) u got s) :=
  breaks_ite (breaks_bind (breaks_encryptBlocks env u _ _) fun _ => breaks_refl _) (breaks_refl _)

theorem breaks_readPieces (fuel : ℕ) (rest : Bytes) (s : Streaming) :
    Breaks (readPieces env u fuel rest s) (readPieces (steady env) u fuel rest s) := by
  induction fuel generalizing rest s with
  | zero => exact breaks_refl _
  | succ fuel ih =>
      refine breaks_bind (breaks_refl (fails env)) fun failed => breaks_ite (breaks_refl _) ?_
      refine breaks_bind (breaks_takePiece env u _ s) fun s => breaks_ite (breaks_refl _) (ih _ s)

theorem breaks_finishStream (s : Streaming) :
    Breaks (finishStream env u s) (finishStream (steady env) u s) := by
  refine breaks_bind (breaks_encryptBlocks env u _ s) fun s => breaks_bind ?_ fun _ => breaks_refl _
  exact breaks_ite (breaks_refl _) (breaks_sendPacket env u _ s)

theorem breaks_streamUpload (path : Bytes) :
    Breaks (streamUpload env u path) (streamUpload (steady env) u path) := by
  refine breaks_bind (breaks_refl tick) fun n => breaks_bind (breaks_write env _) fun _ => ?_
  refine breaks_bind (breaks_refl (openFile env path)) fun content => ?_
  cases content with
  | none => exact breaks_refl _
  | some content =>
      exact breaks_bind (breaks_readPieces env u _ _ _) fun s => breaks_finishStream env u s

end

/-! ### Every file -/

/-- The packets cut the stream: all but the last are full and the last is not empty. -/
structure Packets (u : Upload) (stream : Bytes) (chunks : List Bytes) : Prop where
  whole : chunks.flatten = stream
  count : chunks.length = u.totalPackets
  full : ∀ c ∈ chunks.dropLast, c.length = u.chunkSize
  last : ∃ c, chunks.getLast? = some c ∧ 16 ≤ c.length ∧ c.length ≤ u.chunkSize
  aligned : ∀ c ∈ chunks, 16 ∣ c.length

/-- What the headers say is what was to be said. The size of the payload depends on the
length of the file name too. -/
structure Lossless (u : Upload) : Prop where
  fields : ∀ k ≤ u.totalPackets, ∀ data : Bytes,
    let payload := filePacketPayload u.cipherSize u.plainSize k u.totalPackets u.fileName data
    leNat (payload.take 4) = u.cipherSize ∧ leNat ((payload.drop 4).take 4) = u.plainSize ∧
      leNat ((payload.drop 8).take 2) = k ∧ leNat ((payload.drop 10).take 2) = u.totalPackets
  size : u.fileName.length < 2 ^ 31 → ∀ (k : ℕ) (data : Bytes), data.length ≤ max 16 u.chunkSize →
    leNat (((packetMessage u k data).drop 19).take 4) =
      (filePacketPayload u.cipherSize u.plainSize k u.totalPackets u.fileName data).length

theorem packets_of_cut {u : Upload} {stream : Bytes} {chunks : List Bytes}
    (h : ExactCut u stream chunks) (hpos : 0 < u.totalPackets) : Packets u stream chunks := by
  have hne : chunks ≠ [] := by
    rintro rfl
    have := h.count
    rw [List.length_nil] at this
    omega
  have hmem := List.getLast_mem hne
  have hsome : 0 < (chunks.getLast hne).length := List.length_pos_iff.mpr (h.nonempty _ hmem)
  refine ⟨h.whole, h.count, h.full, ⟨chunks.getLast hne, List.getLast?_eq_some_getLast hne, ?_,
    h.bounded _ hmem⟩, h.aligned⟩
  exact Nat.le_of_dvd hsome (h.aligned _ hmem)

theorem lossless_uploadOf (cid : ClientId) (key path : Bytes) {content : Bytes}
    (hsize : paddedCbcSize content.length < 2 ^ 32) :
    Lossless (uploadOf cid key path content) := by
  have hlimit := (sized_uploadOf cid key path content).limit
  constructor
  · intro k hk data
    refine header_filePacketPayload _ data hsize ((paddedCbcSize_gt _).trans hsize) ?_ ?_
    · omega
    · omega
  · intro hname k data hdata
    have hchunk : (uploadOf cid key path content).chunkSize < 2 ^ 17 :=
      chooseUploadChunkSize_lt hsize
    generalize uploadOf cid key path content = u at *
    have hlen :
        (filePacketPayload u.cipherSize u.plainSize k u.totalPackets u.fileName data).length <
        256 ^ 4 := by
      simp only [filePacketPayload, List.length_append, length_leBytes, List.length_singleton]
      omega
    have hcid := u.cid.property
    have hdrop : ((packetMessage u k data).drop 19).take 4 =
        leBytes 4 (filePacketPayload u.cipherSize u.plainSize k u.totalPackets u.fileName
          data).length := by
      rw [packetMessage, buildRequest, List.append_assoc, List.drop_left' (by simp [hcid]),
        List.take_left' (length_leBytes ..)]
    rw [hdrop, leNat_leBytes_of_lt hlen]

/-- Every file that fits the protocol goes out as packet 0 and the packets of its
ciphertext, and nothing but a write throws. -/
theorem packetisation_exact {σ : Type} (env : ClientEnv σ) (dec : Bytes → Bytes) (w : ClientWorld σ)
    (uuid encryptKey path content : Bytes) (cid : ClientId) (hreads : ∀ n, env.fileFails n = false)
    (haes : Inverts (env.aesEncrypt (decodeBase64 encryptKey)) dec 16)
    (hcid : parseClientIdHex32 uuid = .ok cid) (hkey : (decodeBase64 encryptKey).length = 32)
    (hfile : w.files path = some content) (hsize : content.length ≤ 2 ^ 32 - 17) :
    let u := uploadOf cid (decodeBase64 encryptKey) path content
    prepareUpload uuid encryptKey path content = .ok u ∧
    u.totalPackets = paddedCbcSize content.length ⌈/⌉ u.chunkSize ∧ u.totalPackets ≤ 65535 ∧
    Lossless u ∧
    ((∀ n, env.writeRaises n = false) → ∃ chunks t,
      request828Streaming env uuid encryptKey path w = (.ok (some (crc32 content 0)), t) ∧
      Packets u (aes256CbcEncrypt env content (decodeBase64 encryptKey)
        (env.makeIv w.calls)) chunks ∧
      t.trace = w.trace ++ (packetMessages u 0 ((env.makeIv w.calls).val :: chunks)).map
        Event.wrote ++ [.streamed (crc32 content 0)]) ∧
    ∀ (v : ClientWorld σ), v.files path = some content → ∀ e t,
      streamUpload env u path v = (.error e, t) → e = "write: Broken pipe" := by
  intro u
  have hpadded : paddedCbcSize content.length < 2 ^ 32 := by
    unfold paddedCbcSize
    omega
  have hsized := sized_uploadOf cid (decodeBase64 encryptKey) path content
  have hpos : 0 < u.totalPackets :=
    (packetCount_bounds (Nat.lt_of_le_of_lt (Nat.zero_le _) (paddedCbcSize_gt content.length))).1
  refine ⟨prepareUpload_ok hpadded hcid rfl hkey, rfl, hsized.limit,
    lossless_uploadOf _ _ _ hpadded, fun hwrites => ?_, fun v hv e t herror => ?_⟩
  · obtain ⟨chunks, t, hrun, hcut, htrace⟩ :=
      request828Streaming_emits ⟨hwrites, hreads⟩ haes rfl hkey
      hcid hfile hpadded
    refine ⟨chunks, t, hrun, ?_, htrace⟩
    rw [aes256CbcEncrypt, if_neg (by simp [hkey])]
    exact packets_of_cut hcut hpos
  · -- on a connection that holds there is no exception at all
    have hreliable : Reliable (steady env) := ⟨fun _ => rfl, hreads⟩
    have hsteady := wp_streamUpload hreliable hsized haes hv (paddedCbcSize_eq content)
    rcases breaks_streamUpload env u path v with hsame | ⟨t', hbroken⟩
    · rw [herror] at hsame
      rw [wp_of_eq_error hsame.symm] at hsteady
      exact hsteady.elim
    · rw [herror] at hbroken
      cases hbroken
      rfl

/-- A file of 20000 bytes. -/
def longContent : Bytes := List.replicate 20000 65

theorem length_longContent : longContent.length = 20000 := List.length_replicate

/-- It is sent in three packets, two of them full. -/
theorem packetisation_exact_alice :
    let u := uploadOf ⟨UploadSlot.aliceId, rfl⟩ (decodeBase64 aliceKeyText) (utf8Encode "docs/f")
      longContent
    u.totalPackets = 3 ∧ u.chunkSize = 8192 ∧ Lossless u ∧ ∃ chunks t,
      request828Streaming aliceClient aliceUuid aliceKeyText (utf8Encode "docs/f")
          { aliceFiles with files := fun _ => some longContent } =
        (.ok (some (crc32 longContent 0)), t) ∧
      Packets u (aes256CbcEncrypt aliceClient longContent (decodeBase64 aliceKeyText)
        (aliceClient.makeIv 0)) chunks ∧ chunks.length = 3 := by
  intro u
  have hpackets : u.totalPackets = 3 := by
    change packetCount (paddedCbcSize longContent.length) = 3
    rw [length_longContent]
    decide +kernel
  have hchunk : u.chunkSize = 8192 := by
    change chooseUploadChunkSize (paddedCbcSize longContent.length) = 8192
    rw [length_longContent]
    decide +kernel
  obtain ⟨-, -, -, hlossless, hemits, -⟩ := packetisation_exact aliceClient UploadSlot.zeroKeyAes
    { aliceFiles with files := fun _ => some longContent } aliceUuid aliceKeyText
    (utf8Encode "docs/f") longContent ⟨UploadSlot.aliceId, rfl⟩ (fun _ => rfl) zeroKeyAes_inverts
    outgoing_alice.id (by decide +kernel) rfl (by rw [length_longContent]; decide)
  obtain ⟨chunks, t, hrun, hcut, -⟩ := hemits fun _ => rfl
  exact ⟨hpackets, hchunk, hlossless, chunks, t, hrun, hcut, hcut.count.trans hpackets⟩

end Seftp.UploadPackets
