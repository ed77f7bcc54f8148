import Seftp.ClientStream
import Seftp.RequestRoundTrip
import Seftp.UploadNames

/-!
# A well-formed upload is accepted

What the client and the server have to agree on for an upload is an `Agreement`: the
key, the vector, the sizes, the file name and the limits. Under an agreement every
packet that the client writes is read back as it was meant, passes the checks of
request 828 and decrypts; the last one leaves the file.
-/
namespace Seftp.UploadAcceptance
open LittleEndian ExceptState OutsideWorld BlockChaining Checksum Text Protocol ClientStore
open StoreFrames ServerSession Answers SessionFrames AccountHandlers UploadHandlers HandlerFrames
open UploadSteps ChunkSteps AccountSteps FrameSteps Router HandshakeGate UploadStages UploadTrail
open UploadSoundness RequestRoundTrip ClientProgram ClientStream UploadPaths UploadNames
open ClientUpload (Upload)

/-! ### Names -/

section
variable {name : String}

theorem utf8Encode_eq_flatMap (s : String) :
    utf8Encode s = s.toList.flatMap String.utf8EncodeChar := by
  have hs : s.toByteArray = s.toList.utf8Encode := by
    rw [← String.toByteArray_ofList, String.ofList_toList]
  rw [utf8Encode, hs, List.utf8Encode]
  simp

theorem utf8Encode_append (a b : String) : utf8Encode (a ++ b) = utf8Encode a ++ utf8Encode b := by
  rw [utf8Encode_eq_flatMap, utf8Encode_eq_flatMap, utf8Encode_eq_flatMap, String.toList_append,
    List.flatMap_append]

/-- An ASCII character is its byte. -/
theorem not_mem_of_encode {c : Char} {b : UInt8} (hc : String.utf8EncodeChar c = [b])
    (h : b ∉ utf8Encode name) : c ∉ name.toList := by
  intro hmem
  apply h
  rw [utf8Encode_eq_flatMap]
  exact List.mem_flatMap.mpr ⟨c, hmem, by rw [hc]; exact List.mem_singleton.mpr rfl⟩

/-- The name of a confirmation is the name that was sent. -/
theorem confirmedName_cstr (h : 0 ∉ utf8Encode name) :
    confirmedName (makeCstrPayload (utf8Encode name)) = .ok name := by
  have hnul : Char.ofNat 0 ∉ name.toList := not_mem_of_encode (b := 0) (by decide) h
  have hpayload : makeCstrPayload (utf8Encode name) = utf8Encode (name ++ "\x00") := by
    rw [utf8Encode_append]
    rfl
  have hstrip : rstripNulStr (name ++ "\x00") = name := by
    apply String.toList_injective
    rw [rstripNulStr, String.toList_ofList, String.toList_append]
    have hlast : ("\x00" : String).toList = [Char.ofNat 0] := by decide
    rw [hlast, List.rdropWhile_concat_pos _ _ _ (by simp)]
    apply List.rdropWhile_eq_self_iff.mpr
    intro hne
    have hmem : name.toList.getLast hne ∈ name.toList := List.getLast_mem hne
    simp only [decide_eq_true_eq]
    exact fun he => hnul (he ▸ hmem)
  rw [confirmedName, hpayload, utf8Decode_utf8Encode]
  exact congrArg Except.ok hstrip

end

/-! ### What a packet carries -/

/-- Packet `k` as the server reads it. -/
def packetAt (u : Upload) (name : String) (k : ℕ) (data : Bytes) : Packet :=
  { contentSize := u.cipherSize
    origFileSize := u.plainSize
    packetNum := k
    totalPackets := u.totalPackets
    fileName := name
    cipherChunk := data }

/-- A name that a file can have. -/
structure FileName (name : String) : Prop where
  clean : 0 ∉ utf8Encode name
  plain : '/' ∉ name.toList
  proper : name ∉ special

/-- The fields of an upload fit the fields of a packet. -/
structure Encodable (u : Upload) (name : String) : Prop extends FileName name where
  cipherSize : u.cipherSize < 2 ^ 32
  plainSize : u.plainSize < 2 ^ 32
  totalPackets : u.totalPackets ≤ 65535
  chunkSize : u.chunkSize < 2 ^ 31
  fileName : u.fileName = utf8Encode name
  short : (utf8Encode name).length ≤ nameMax

section
variable {u : Upload} {name : String} {k : ℕ} {data : Bytes}

theorem parse828_payload (h : Encodable u name) (hk : k ≤ 65535) :
    parse828 (filePacketPayload u.cipherSize u.plainSize k u.totalPackets u.fileName data) =
      .ok (packetAt u name k data) := by
  have hsplit : filePacketPayload u.cipherSize u.plainSize k u.totalPackets u.fileName data =
      leBytes 4 u.cipherSize ++
        (leBytes 4 u.plainSize ++ (leBytes 2 k ++ (leBytes 2 u.totalPackets ++
        (utf8Encode name ++ 0 :: data)))) := by
    rw [filePacketPayload, h.fileName]
    simp
  have hrest :
      (filePacketPayload u.cipherSize u.plainSize k u.totalPackets u.fileName data).drop 12 =
      utf8Encode name ++ 0 :: data := by
    rw [hsplit]
    simp [leBytes]
  have hsep : (utf8Encode name ++ 0 :: data).findIdx? (· = 0) = some (utf8Encode name).length := by
    rw [List.findIdx?_append]
    have hnone : (utf8Encode name).findIdx? (· = 0) = none := by
      rw [List.findIdx?_eq_none_iff]
      intro b hb
      have hne : b ≠ 0 := fun he => h.clean (he ▸ hb)
      simpa using hne
    rw [hnone, List.findIdx?_cons]
    simp
  have hsize := h.cipherSize
  have hplain := h.plainSize
  have htotal := h.totalPackets
  obtain ⟨h₁, h₂, h₃, h₄⟩ := header_filePacketPayload u.fileName data hsize hplain
    (show k < 2 ^ 16 by omega) (show u.totalPackets < 2 ^ 16 by omega)
  rw [parse828, hrest, hsep]
  simp only [List.take_left, utf8Decode_utf8Encode, basename_of_plain h.plain]
  congr 1
  rw [packetAt]
  congr 1
  · rw [show (utf8Encode name).length + 1 = (utf8Encode name ++ [0]).length by simp,
      show utf8Encode name ++ 0 :: data = (utf8Encode name ++ [0]) ++ data by simp, List.drop_left]

theorem length_filePacketPayload : (filePacketPayload u.cipherSize u.plainSize k u.totalPackets
    u.fileName data).length = 13 + u.fileName.length + data.length := by
  simp [filePacketPayload]
  omega

/-- A frame that the client builds has the fields it was built from. -/
theorem parseFrame_request (cid : ClientId) {code : ℕ} {payload : Bytes} (hcode : code < 65536)
    (hlen : payload.length < 2 ^ 32) :
    wellFormed (buildRequest cid code payload) = true ∧
      parseFrame (buildRequest cid code payload) =
        { clientId := cid.val, version := [kVersion], code, payload } := by
  have hr : (ClientRequest.mk cid kVersion (UInt16.ofNat code) payload).encode =
      buildRequest cid code payload := by
    rw [ClientRequest.encode, UInt16.toNat_ofNat_of_lt' hcode]
  have hsize : leNat (((buildRequest cid code payload).drop 19).take 4) = payload.length := by
    rw [← hr]
    have := payloadSize_encode (ClientRequest.mk cid kVersion (UInt16.ofNat code) payload)
    rwa [Nat.mod_eq_of_lt (by omega : payload.length < 256 ^ 4)] at this
  have hlength := length_encode (ClientRequest.mk cid kVersion (UInt16.ofNat code) payload)
  rw [hr] at hlength
  constructor
  · simp only [wellFormed, hsize, hlength, Framing.headerLen, Bool.and_eq_true, decide_eq_true_eq]
    omega
  · rw [← hr, parseFrame_encode hlen, ClientRequest.fields, UInt16.toNat_ofNat_of_lt' hcode]

theorem carries_packet (h : Encodable u name) (hk : k ≤ 65535) (hdata : data.length < 2 ^ 31) :
    Carries (packetMessage u k data) u.cid.val (packetAt u name k data) ∧
      (parseFrame (packetMessage u k data)).version = [kVersion] := by
  have hlen : (filePacketPayload u.cipherSize u.plainSize k u.totalPackets u.fileName
      data).length < 2 ^ 32 := by
    have hshort := h.short
    rw [length_filePacketPayload, h.fileName]
    unfold nameMax at hshort
    omega
  have hcode : ReqCode.fileChunk.value < 65536 := by decide
  obtain ⟨hform, hfields⟩ := parseFrame_request u.cid hcode hlen
  refine ⟨⟨hform, ?_, ?_, ?_⟩, ?_⟩
  · exact congrArg Request.code hfields
  · exact congrArg Request.clientId hfields
  · rw [show (parseFrame (packetMessage u k data)).payload = _ from
      congrArg Request.payload hfields]
    exact parse828_payload h hk
  · exact congrArg Request.version hfields

end

/-! ### The agreement -/

/-- What the two sides have to agree on for the upload of `content`: the client
encrypts by `enc` and sends the vector and the chunks. -/
structure Agreement (env : Env) (enc : Bytes → Bytes) (u : Upload) (name : String)
    (iv content : Bytes) (chunks : List Bytes) : Prop extends Encodable u name where
  cut : Cut u (cbcEncrypt enc 16 iv (pad 16 content)) chunks
  inverts : Inverts enc (env.aesDecrypt u.key) 16
  blocks : AesBlocks env
  vector : iv.length = 16
  padded : u.cipherSize = (pad 16 content).length
  size : u.plainSize = content.length
  nonempty : content ≠ []
  key : u.key.length = 32
  maxFileSize : u.cipherSize ≤ env.config.maxFileSize
  maxChunkSize : u.chunkSize ≤ env.config.maxChunkSize
  maxPackets : u.totalPackets ≤ env.config.maxPackets

/-- The packets from number `k` on, as the server reads them. -/
def packetsFrom (u : Upload) (name : String) : ℕ → List Bytes → List Packet
  | _, [] => []
  | k, c :: cs => packetAt u name k c :: packetsFrom u name (k + 1) cs

/-- The announcement and the packets so far. -/
def trailOf (u : Upload) (name : String) (iv : Bytes) (sofar : List Bytes) : Trail :=
  { clientId := u.cid.val
    key := u.key
    announced := packetAt u name 0 iv
    taken := packetsFrom u name 1 sofar }

section
variable {env : Env} {enc : Bytes → Bytes} {u : Upload} {name : String} {iv content c : Bytes}
variable {chunks sofar rest : List Bytes} {k : ℕ}

@[simp] theorem length_packetsFrom (cs : List Bytes) :
    (packetsFrom u name k cs).length = cs.length := by
  induction cs generalizing k with
  | nil => rfl
  | cons c cs ih => rw [packetsFrom, List.length_cons, ih, List.length_cons]

theorem packetsFrom_concat (cs : List Bytes) :
    packetsFrom u name k (cs ++ [c]) =
      packetsFrom u name k cs ++ [packetAt u name (k + cs.length) c] := by
  induction cs generalizing k with
  | nil => rfl
  | cons d cs ih =>
      rw [List.cons_append, packetsFrom, ih, packetsFrom, List.cons_append, List.length_cons,
        Nat.add_right_comm, Nat.add_assoc]

theorem chunks_packetsFrom (cs : List Bytes) :
    (packetsFrom u name k cs).map Packet.cipherChunk = cs := by
  induction cs generalizing k with
  | nil => rfl
  | cons c cs ih =>
      rw [packetsFrom, List.map_cons, ih]
      rfl

theorem numbers_packetsFrom (cs : List Bytes) :
    (packetsFrom u name k cs).map Packet.packetNum = List.range' k cs.length := by
  induction cs generalizing k with
  | nil => rfl
  | cons c cs ih =>
      rw [packetsFrom, List.map_cons, ih, List.length_cons, List.range'_succ]
      rfl

theorem mem_packetsFrom {cs : List Bytes} {q : Packet} (h : q ∈ packetsFrom u name k cs) :
    ∃ j d, q = packetAt u name j d := by
  induction cs generalizing k with
  | nil => cases h
  | cons c cs ih =>
      rcases List.mem_cons.mp h with rfl | h
      · exact ⟨k, c, rfl⟩
      · exact ih h

theorem trailOf_push :
    (trailOf u name iv sofar).push (packetAt u name (sofar.length + 1) c) =
      trailOf u name iv (sofar ++ [c]) := by
  rw [Trail.push, trailOf, trailOf, packetsFrom_concat, Nat.add_comm 1]

theorem cipher_trailOf : (trailOf u name iv sofar).cipher = sofar.flatten := by
  rw [Trail.cipher, trailOf, chunks_packetsFrom]

theorem iv_trailOf (hiv : iv.length = 16) : (trailOf u name iv sofar).iv = iv :=
  List.take_of_length_le (Nat.le_of_eq hiv)

theorem consistent_trailOf (hiv : iv.length = 16) : (trailOf u name iv sofar).Consistent := by
  have hall {P : Packet → Prop} (hp : ∀ j d, P (packetAt u name j d)) :
      ∀ q ∈ packetsFrom u name 1 sofar, P q := by
    intro q hq
    obtain ⟨j, d, rfl⟩ := mem_packetsFrom hq
    exact hp j d
  refine ⟨rfl, Nat.le_of_eq hiv.symm, ?_, hall fun _ _ => rfl, hall fun _ _ => rfl,
    hall fun _ _ => rfl⟩
  change (packetsFrom u name 1 sofar).map _ = _
  rw [numbers_packetsFrom]
  exact congrArg (List.range' 1) (length_packetsFrom sofar).symm

/-- The server decrypts the whole stream to the padded file. -/
theorem padded_trailOf (h : Agreement env enc u name iv content chunks) :
    (trailOf u name iv chunks).padded env = pad 16 content := by
  rw [Trail.padded, cipher_trailOf, iv_trailOf h.vector, h.cut.whole]
  exact cbcDecrypt_cbcEncrypt (by decide) h.inverts h.vector (dvd_length_pad (by decide) _)

theorem length_flatten_chunks (h : Agreement env enc u name iv content chunks) :
    chunks.flatten.length = u.cipherSize := by
  rw [h.cut.whole, length_cbcEncrypt h.inverts h.vector (dvd_length_pad (by decide) _), h.padded]

theorem cipherSize_gt (h : Agreement env enc u name iv content chunks) :
    u.plainSize < u.cipherSize := by
  rw [h.size, h.padded, ← paddedCbcSize_eq]
  exact paddedCbcSize_gt _

theorem validateHeader_packet (h : Agreement env enc u name iv content chunks) {data : Bytes}
    (hpos : 0 < u.totalPackets) (hk : k ≤ u.totalPackets) :
    validateHeader env.config (packetAt u name k data) = none := by
  have hgt := cipherSize_gt h
  have hsome : 0 < u.plainSize := by
    rw [h.size]
    exact List.length_pos_iff.mpr h.nonempty
  have h₁ := h.maxFileSize
  have h₂ := h.maxPackets
  rw [validateHeader, if_neg (by change ¬ u.totalPackets = 0; omega),
    if_neg (by change ¬ u.totalPackets < k; omega), if_neg (by change ¬ u.cipherSize = 0; omega),
    if_neg (by change ¬ u.plainSize = 0; omega),
    if_neg (by change ¬ env.config.maxPackets < u.totalPackets; omega),
    if_neg (by change ¬ env.config.maxFileSize < u.plainSize; omega),
    if_neg (by change ¬ env.config.maxFileSize < u.cipherSize; omega)]

theorem checkChunk_packet (h : Agreement env enc u name iv content chunks) {t : Transfer}
    (ht : Tracking (trailOf u name iv sofar) t) (hc : c.length ≤ u.chunkSize) :
    checkChunk env.config t (packetAt u name k c) = .ok () := by
  have hiv : t.transferIv.isNone = false := by
    have := ht.iv
    rcases hv : t.transferIv with _ | v
    · rw [hv] at this
      cases this
    · rfl
  have hmax := h.maxChunkSize
  rw [checkChunk, if_neg (by simp [hiv]), if_neg (by simp [ht.expected]),
    if_neg (by simp [ht.total, trailOf, packetAt]),
    if_neg (by simp [ht.content, ht.orig, trailOf, packetAt]),
    if_neg (by simp only [packetAt]; omega)]

/-! ### A session that takes the packets -/

/-- The session has completed its handshake and tracks the row of the upload. -/
structure Tracked (name : String) (id : ℕ) (c : SessionFrames.Core) : Prop where
  filename : c.transfer.uploadFilename = some name
  uploadId : c.transfer.uploadId = some id
  row : ∃ r ∈ c.store.uploads, r.id = id
  connected : c.store.connected = true
  verified : Verified c.handshake

/-- The upload is open and the chunks so far have been decrypted. -/
structure Loading (env : Env) (u : Upload) (name : String) (iv : Bytes) (sofar : List Bytes)
    (id : ℕ) (c : SessionFrames.Core) : Prop where
  tracking : Tracking (trailOf u name iv sofar) c.transfer
  active : c.transfer.uploadActive = true
  unreported : c.transfer.uploadCrc = none
  decrypting : ∃ written, Decrypting env (trailOf u name iv sofar) name c written
  tracked : Tracked name id c

variable {ctx : Ctx} {w w' : World} {id : ℕ} {version : Bytes}

theorem count_split (h : Agreement env enc u name iv content (sofar ++ c :: rest)) :
    sofar.length + 1 + rest.length = u.totalPackets := by
  rw [← h.cut.count, List.length_append, List.length_cons]
  omega

theorem length_split (h : Agreement env enc u name iv content (sofar ++ c :: rest)) :
    sofar.flatten.length + c.length + rest.flatten.length = u.cipherSize := by
  rw [← length_flatten_chunks h]
  simp [Nat.add_assoc]

/-- The blocks that the next chunk adds to the tail. -/
theorem unpad_fresh (h : Agreement env enc u name iv content (sofar ++ [c])) {written : Bytes}
    (hdec : Decrypting env (trailOf u name iv sofar) name (SessionFrames.core w) written) :
    ∃ out, unpad 16 (fresh env (trailOf u name iv sofar) w.session.transfer.uploadPlainTail
      (packetAt u name (sofar.length + 1) c)) = some out ∧ written ++ out = content := by
  have haligned : 16 ∣ c.length := h.cut.aligned c (by simp)
  have hne : c ≠ [] := h.cut.nonempty c (by simp)
  have hwhole := written_fresh hdec (p := packetAt u name (sofar.length + 1) c)
  rw [trailOf_push, padded_trailOf h] at hwhole
  obtain ⟨-, hdvd⟩ := dvd_fresh h.blocks (consistent_trailOf h.vector) hdec
    (p := packetAt u name (sofar.length + 1) c) haligned
  have hiv : (chainValue 16 (trailOf u name iv sofar).iv (trailOf u name iv sofar).cipher).length =
      16 := length_chainValue _ (by rw [iv_trailOf h.vector, h.vector])
  have hlong : 16 ≤ (fresh env (trailOf u name iv sofar) w.session.transfer.uploadPlainTail
      (packetAt u name (sofar.length + 1) c)).length := by
    refine Nat.le_of_dvd ?_ hdvd
    have hlen : (cbcDecrypt (env.aesDecrypt (trailOf u name iv sofar).key) 16
        (chainValue 16 (trailOf u name iv sofar).iv (trailOf u name iv sofar).cipher)
        (packetAt u name (sofar.length + 1) c).cipherChunk).length = c.length :=
      length_cbcDecrypt (h.blocks _) hiv haligned
    have hpos := List.length_pos_iff.mpr hne
    rw [fresh, List.length_append, hlen]
    omega
  have hun : unpad 16 (written ++ _) = _ := unpad_append (by decide) hdec.blocks hlong
  rw [hwhole, unpad_pad (by decide) (by decide)] at hun
  obtain ⟨out, hout, hcontent⟩ := Option.map_eq_some_iff.mp hun.symm
  exact ⟨out, hout, hcontent⟩

/-- The next packet is the last one when no chunk is left. -/
theorem last_iff (h : Agreement env enc u name iv content (sofar ++ c :: rest)) :
    (packetAt u name (sofar.length + 1) c).packetNum =
      (packetAt u name (sofar.length + 1) c).totalPackets ↔ rest = [] := by
  have hcount := count_split h
  change sofar.length + 1 = u.totalPackets ↔ _
  rw [← List.length_eq_zero_iff]
  omega

theorem decrypts_next (h : Agreement env enc u name iv content (sofar ++ c :: rest))
    {written : Bytes}
    (hdec : Decrypting env (trailOf u name iv sofar) name (SessionFrames.core w) written) :
    ∃ cipher out tail, Decrypts env c ((packetAt u name (sofar.length + 1) c).packetNum =
        (packetAt u name (sofar.length + 1) c).totalPackets) w.session.transfer cipher out tail ∧
      (rest = [] → written ++ out = content) := by
  obtain ⟨inode, hfile, -, -⟩ := hdec.file
  have hopen : w.session.transfer.uploadTmpFile.isSome := Option.isSome_of_eq_some hfile
  have hne : c ≠ [] := h.cut.nonempty c (by simp)
  have haligned : 16 ∣ c.length := h.cut.aligned c (by simp)
  rcases hrest : rest with _ | ⟨d, ds⟩
  · subst hrest
    obtain ⟨out, hout, hcontent⟩ := unpad_fresh h hdec
    refine ⟨_, out, [], ⟨hdec.cipher, hne, haligned, ?_, fun _ => hopen⟩, fun _ => hcontent⟩
    have hlast : decide ((packetAt u name (sofar.length + 1) c).packetNum =
        (packetAt u name (sofar.length + 1) c).totalPackets) = true := by
      simpa using (last_iff h).mpr rfl
    rw [hlast, splitPlain, if_pos rfl]
    exact congrArg (Option.map (·, [])) hout
  · have hmore : decide ((packetAt u name (sofar.length + 1) c).packetNum =
        (packetAt u name (sofar.length + 1) c).totalPackets) = false := by
      simpa [hrest] using (last_iff h).not.mpr (by simp [hrest])
    let held := holdBack (fresh env (trailOf u name iv sofar) w.session.transfer.uploadPlainTail
      (packetAt u name (sofar.length + 1) c))
    refine ⟨_, held.1, held.2, ⟨hdec.cipher, hne, haligned, ?_, fun _ => hopen⟩, by simp⟩
    rw [hmore]
    rfl

/-- The next chunk is acceptable. -/
theorem acceptable_next (h : Agreement env enc u name iv content (sofar ++ c :: rest))
    (hl : Loading env u name iv sofar id (SessionFrames.core w)) :
    Acceptable env (packetAt u name (sofar.length + 1) c) w.session.transfer := by
  obtain ⟨written, hdec⟩ := hl.decrypting
  obtain ⟨inode, hfile, -, -⟩ := hdec.file
  obtain ⟨cipher, out, tail, hdecrypts, hcontent⟩ := decrypts_next h hdec
  have hexpected : w.session.transfer.expectedPacketNum = some (sofar.length + 1) :=
    hl.tracking.expected.trans (by rw [trailOf, length_packetsFrom])
  have hreceived : w.session.transfer.receivedCipherBytes = sofar.flatten.length :=
    hl.tracking.received.trans (by rw [cipher_trailOf])
  have hsize : w.session.transfer.expectedContentSize = some u.cipherSize := hl.tracking.content
  have hlength := length_split h
  refine ⟨cipher, out, tail, ⟨?_, hdecrypts⟩, fun hlast => ?_⟩
  · rw [checkOrder, if_neg, if_neg]
    · rw [hexpected]
      simp [packetAt]
    · rw [hsize, hreceived]
      change ¬ u.cipherSize < sofar.flatten.length + c.length
      omega
  · have hrest := (last_iff h).mp hlast
    have hcount : w.session.transfer.uploadPlainBytesWritten = written.length := hdec.count
    refine ⟨?_, Option.isSome_of_eq_some hfile, Option.isSome_of_eq_some hdec.tmp,
      Option.isSome_of_eq_some hdec.path, ?_⟩
    · rw [hrest, List.flatten_nil, List.length_nil, Nat.add_zero] at hlength
      rw [hsize, hreceived, ← hlength]
      rfl
    · rw [hcount, ← List.length_append, hcontent hrest]
      exact h.size.symm

theorem fits_packet (h : Encodable u name) : Fits (packetAt u name k c) := by
  have hsize := h.cipherSize
  have hshort := h.short
  unfold nameMax at hshort
  constructor
  · change u.cipherSize < 256 ^ 4
    omega
  · change (utf8Encode name).length < 2 ^ 31
    omega

theorem receives_next (h : Encodable u name) (hfiles : ctx.out.FilesWork)
    (hl : Loading env u name iv sofar id (SessionFrames.core w)) :
    Receives ctx (packetAt u name k c) (SessionFrames.core w) := by
  obtain ⟨written, hdec⟩ := hl.decrypting
  obtain ⟨inode, hfile, hentry, -⟩ := hdec.file
  refine ⟨⟨hfiles, fits_packet h, ?_⟩, fun _ => ⟨?_, Option.isSome_of_eq_some hfile⟩⟩
  · intro tmp htmp
    rw [hdec.tmp] at htmp
    cases htmp
    exact Option.isSome_of_eq_some hentry
  · exact Option.isSome_of_eq_some hdec.cipher

theorem wp_receiveNext (h : Agreement ctx.env enc u name iv content (sofar ++ c :: rest))
    (hl : Loading ctx.env u name iv sofar id (SessionFrames.core w))
    (hanswer : Answering ctx w u.cid.val version) (hfiles : ctx.out.FilesWork) :
    wp (receiveChunk ctx u.cid.val version (packetAt u name (sofar.length + 1) c))
      (fun _ w' => Accepts ctx.env u.cid.val version (packetAt u name (sofar.length + 1) c) w w')
      (fun _ _ => False) w := by
  apply wp_mono (wp_receiveChunk _)
  · rintro _ w' (haccept | ⟨r, -, -, hno⟩)
    · exact haccept
    · exact (hno (acceptable_next h hl)).elim
  · rintro _ v ⟨-, hno⟩
    exact hno ⟨hanswer, receives_next h.toEncodable hfiles hl⟩

theorem tracked_takes {p : Packet} (h : Tracked name id (SessionFrames.core w))
    (ht : Takes env p w w') : Tracked name id (SessionFrames.core w') := by
  obtain ⟨ts, cipher, out, tail, -, hd⟩ := ht
  rw [hd.core_eq]
  exact ⟨h.filename, h.uploadId, h.row, h.connected, h.verified⟩

theorem sent_takes {p : Packet} (ht : Takes env p w w') : w'.session.sent = w.session.sent := by
  obtain ⟨ts, cipher, out, tail, -, hd⟩ := ht
  exact hd.sent

/-- A packet before the last one. -/
theorem loading_next {d : Bytes} (h : Agreement env enc u name iv content (sofar ++ c :: d :: rest))
    (hl : Loading env u name iv sofar id (SessionFrames.core w))
    (ha : Accepts env u.cid.val version (packetAt u name (sofar.length + 1) c) w w') :
    Loading env u name iv (sofar ++ [c]) id (SessionFrames.core w') ∧
      w'.session.sent = w.session.sent := by
  have hmore : (packetAt u name (sofar.length + 1) c).packetNum ≠
      (packetAt u name (sofar.length + 1) c).totalPackets := (last_iff h).not.mpr (by simp)
  rcases ha with ⟨-, ht⟩ | ⟨hlast, -⟩
  · obtain ⟨written, hdec⟩ := hl.decrypting
    obtain ⟨-, htracking⟩ := tracking_takes hl.tracking ht
    have hdecrypting := decrypting_takes h.blocks (consistent_trailOf h.vector) hdec hmore ht
    rw [trailOf_push] at htracking hdecrypting
    have htracked := tracked_takes hl.tracked ht
    refine ⟨⟨htracking, ?_, ?_, hdecrypting, htracked⟩, sent_takes ht⟩
    · obtain ⟨ts, cipher, out, tail, -, hd⟩ := ht
      rw [hd.core_eq]
      exact hl.active
    · obtain ⟨ts, cipher, out, tail, -, hd⟩ := ht
      rw [hd.core_eq]
      exact hl.unreported
  · exact (hmore hlast).elim

/-- The upload is stored and waits for its confirmation. -/
structure Stored (u : Upload) (name : String) (content : Bytes) (id : ℕ) (w : World) : Prop where
  path : w.session.transfer.uploadPath = some (outPath (hex u.cid.val) name)
  crc : w.session.transfer.uploadCrc = some (crc32 content 0)
  file : w.files.read (outPath (hex u.cid.val) name) = some content
  tracked : Tracked name id (SessionFrames.core w)

/-- The last packet. -/
theorem stored_last (h : Agreement env enc u name iv content (sofar ++ [c]))
    (hl : Loading env u name iv sofar id (SessionFrames.core w))
    (ha : Accepts env u.cid.val version (packetAt u name (sofar.length + 1) c) w w') :
    Stored u name content id w' ∧ w'.session.sent = w.session.sent ++
      [crcMessage u.cid.val version (packetAt u name (sofar.length + 1) c) (crc32 content 0)] := by
  have hlast : (packetAt u name (sofar.length + 1) c).packetNum =
      (packetAt u name (sofar.length + 1) c).totalPackets := (last_iff h).mpr rfl
  obtain ⟨written, hdec⟩ := hl.decrypting
  rcases ha with ⟨hmore, -⟩ | ⟨-, x, ht, tmp, path, hs, hsaid⟩
  · exact (hmore hlast).elim
  · obtain ⟨plain, hplain, hw⟩ :=
      decrypting_last h.blocks (consistent_trailOf h.vector) hdec hlast ht
    rw [trailOf_push, padded_trailOf h, unpad_pad (by decide) (by decide)] at hplain
    cases hplain
    have hstate : x.session.transfer.uploadCrc32State = crc32 content 0 := hw.crc
    have htracked := tracked_takes hl.tracked ht
    obtain rfl : tmp = tmpPath (hex u.cid.val) name x.session.connectionId :=
      Option.some.inj (hs.tmp.symm.trans hw.tmp)
    obtain rfl : path = outPath (hex u.cid.val) name := Option.some.inj (hs.path.symm.trans hw.path)
    obtain ⟨inode, -, hentry, hcontent⟩ := hw.file
    refine ⟨⟨?_, ?_, ?_, ?_⟩, ?_⟩
    · exact (congrArg (fun c => c.transfer.uploadPath) hsaid.core_eq).trans hw.path
    · exact (congrArg (fun c => c.transfer.uploadCrc) hsaid.core_eq).trans (congrArg some hstate)
    · have hread : (SessionFrames.core x).files.read
          (tmpPath (hex u.cid.val) name x.session.connectionId) = some content := by
        have he : (SessionFrames.core x).files.entry
            (tmpPath (hex u.cid.val) name x.session.connectionId) = some inode := hentry
        rw [FileSystem.read, he, Option.map_some, hcontent]
      have hfiles : (SessionFrames.core w').files.read (outPath (hex u.cid.val) name) =
          some content := by
        rw [hsaid.core_eq]
        exact (read_rename (tmpPath_ne _ _ _)).trans hread
      exact hfiles
    · rw [hsaid.core_eq]
      exact ⟨htracked.filename, htracked.uploadId, htracked.row, htracked.connected,
        htracked.verified⟩
    · rw [hsaid.sent, sent_takes ht, hstate]

end

end Seftp.UploadAcceptance
