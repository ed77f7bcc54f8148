import Seftp.ClientUpload

/-!
# The packets of an upload

`request_828_streaming` where no write and no local read fails. Whatever the pieces
in which the file is read, the packets after packet 0 cut the ciphertext of the whole
padded file: all but the last are full, none is empty, and there are as many of them
as packet 0 has announced. The invariant of every loop is that the packets sent and
the bytes that wait are the ciphertext of the whole blocks read so far.
-/
namespace Seftp.ClientStream
open LittleEndian ExceptState BlockChaining Checksum Text Protocol ClientProgram ClientDialogue
open ClientUpload

/-! ### Sizes -/

theorem dvd_chooseUploadChunkSize (n : ℕ) : 1024 ∣ chooseUploadChunkSize n := Nat.dvd_mul_left _ _

theorem chooseUploadChunkSize_ge (n : ℕ) : 8192 ≤ chooseUploadChunkSize n ∧
    n ≤ 65535 * chooseUploadChunkSize n := by
  unfold chooseUploadChunkSize
  have h₁ := Nat.le_max_left 8192 ((n + 65535 - 1) / 65535)
  have h₂ := Nat.le_max_right 8192 ((n + 65535 - 1) / 65535)
  omega

theorem chooseUploadChunkSize_lt {n : ℕ} (h : n < 2 ^ 32) : chooseUploadChunkSize n < 2 ^ 17 := by
  unfold chooseUploadChunkSize
  omega

/-- The sizes of an upload agree: its packets hold the ciphertext and one packet less
would not. -/
structure Sized (u : Upload) : Prop where
  positive : 0 < u.chunkSize
  aligned : 16 ∣ u.chunkSize
  limit : u.totalPackets ≤ 65535
  room : u.cipherSize ≤ u.totalPackets * u.chunkSize
  tight : u.totalPackets * u.chunkSize < u.cipherSize + u.chunkSize

theorem packetCount_bounds {n : ℕ} (h : 0 < n) : 0 < packetCount n ∧ packetCount n ≤ 65535 ∧
    n ≤ packetCount n * chooseUploadChunkSize n ∧
    packetCount n * chooseUploadChunkSize n < n + chooseUploadChunkSize n := by
  obtain ⟨hmin, hmax⟩ := chooseUploadChunkSize_ge n
  unfold packetCount
  generalize chooseUploadChunkSize n = c at hmin hmax ⊢
  have hc : 0 < c := by omega
  have hdiv := Nat.div_add_mod (n + c - 1) c
  have hmod := Nat.mod_lt (n + c - 1) hc
  rw [Nat.mul_comm] at hdiv
  refine ⟨Nat.div_pos (by omega) hc, ?_, by omega, by omega⟩
  have : (n + c - 1) / c < 65536 := by
    rw [Nat.div_lt_iff_lt_mul hc]
    omega
  omega

/-! ### Messages -/

/-- Packet `k` of an upload. -/
def packetMessage (u : Upload) (k : ℕ) (data : Bytes) : Bytes :=
  buildRequest u.cid ReqCode.fileChunk.value
    (filePacketPayload u.cipherSize u.plainSize k u.totalPackets u.fileName data)

/-- The packets from number `k` on. -/
def packetMessages (u : Upload) : ℕ → List Bytes → List Bytes
  | _, [] => []
  | k, c :: cs => packetMessage u k c :: packetMessages u (k + 1) cs

theorem packetMessages_append (u : Upload) (k : ℕ) (as bs : List Bytes) :
    packetMessages u k (as ++ bs) = packetMessages u k as ++ packetMessages u
      (k + as.length) bs := by
  induction as generalizing k with
  | nil => rfl
  | cons a as ih =>
      rw [List.cons_append, packetMessages, ih, packetMessages, List.cons_append, List.length_cons,
        Nat.add_right_comm, Nat.add_assoc]

/-- The header of a packet can be read back. -/
theorem header_filePacketPayload {cipherSize plainSize k totalPackets : ℕ} (fileName data : Bytes)
    (hcipher : cipherSize < 2 ^ 32) (hplain : plainSize < 2 ^ 32) (hk : k < 2 ^ 16)
    (htotal : totalPackets < 2 ^ 16) :
    let payload := filePacketPayload cipherSize plainSize k totalPackets fileName data
    leNat (payload.take 4) = cipherSize ∧ leNat ((payload.drop 4).take 4) = plainSize ∧
      leNat ((payload.drop 8).take 2) = k ∧ leNat ((payload.drop 10).take 2) = totalPackets := by
  intro payload
  have hsplit : payload = leBytes 4 cipherSize ++ (leBytes 4 plainSize ++ (leBytes 2 k ++
      (leBytes 2 totalPackets ++ (fileName ++ 0 :: data)))) := by
    change filePacketPayload _ _ _ _ _ _ = _
    rw [filePacketPayload]
    simp
  rw [hsplit]
  refine ⟨?_, ?_, ?_, ?_⟩
  · rw [List.take_left' (length_leBytes ..), leNat_leBytes_of_lt (by omega)]
  · rw [List.drop_left' (length_leBytes ..), List.take_left' (length_leBytes ..),
      leNat_leBytes_of_lt (by omega)]
  · rw [← List.append_assoc, List.drop_left' (by simp), List.take_left' (length_leBytes ..),
      leNat_leBytes_of_lt (by omega)]
  · rw [← List.append_assoc, ← List.append_assoc, List.drop_left' (by simp),
      List.take_left' (length_leBytes ..), leNat_leBytes_of_lt (by omega)]

section
variable {σ : Type}

/-- No write raises and no operation on a local file fails. -/
structure Reliable (env : ClientEnv σ) : Prop where
  writes : ∀ n, env.writeRaises n = false
  reads : ∀ n, env.fileFails n = false

/-- The messages have been written, and the local files are as before. -/
structure Emits (ms : List Bytes) (w t : ClientWorld σ) : Prop where
  trace : t.trace = w.trace ++ ms.map Event.wrote
  files : t.files = w.files

variable {env : ClientEnv σ} {u : Upload} {w t v : ClientWorld σ} {s : Streaming}

theorem Emits.refl (w : ClientWorld σ) : Emits [] w w := ⟨by simp, rfl⟩

theorem Emits.trans {ms ns : List Bytes} (h : Emits ms w t) (h' : Emits ns t v) :
    Emits (ms ++ ns) w v :=
  ⟨by rw [h'.trace, h.trace, List.map_append, List.append_assoc], h'.files.trans h.files⟩

theorem emits_ticked (w : ClientWorld σ) : Emits [] w (ticked w) := ⟨by simp [ticked], rfl⟩

theorem wp_write (hr : Reliable env) (message : Bytes) :
    wp (write env message) (fun _ t => Emits [message] w t) (fun _ _ => False) w := by
  rw [wp_of_eq_ok (write_ok (hr.writes _))]
  exact ⟨rfl, rfl⟩

/-! ### Packets -/

/-- The streaming variables after a packet. -/
def afterPacket (data : Bytes) (s : Streaming) : Streaming :=
  { s with
    sentCipherBytes := s.sentCipherBytes + data.length
    packetNum := s.packetNum + 1 }

theorem wp_sendPacket (hr : Reliable env) (hu : Sized u) {data : Bytes} (hne : data ≠ [])
    (hpos : 0 < s.packetNum) (hnum : s.packetNum ≤ u.totalPackets) :
    wp (sendPacket env u data s)
      (fun s' t => s' = afterPacket data s ∧ Emits [packetMessage u s.packetNum data] w t)
      (fun _ _ => False) w := by
  have hlimit := hu.limit
  have hbuild : build828PacketChunk u.cid u.cipherSize u.plainSize s.packetNum u.totalPackets
      u.fileName data = .ok (packetMessage u s.packetNum data) := if_neg (by omega)
  rw [sendPacket, if_neg hne, if_neg (by omega), hbuild, wp_bind, wp_ofExcept_ok]
  apply wp_then (wp_write hr _)
  intro _ t ht
  rw [wp_pure]
  exact ⟨rfl, ht⟩

/-- The packets sent and the bytes that wait are the ciphertext so far. -/
structure Sending (u : Upload) (stream : Bytes) (chunks : List Bytes) (s : Streaming) : Prop where
  whole : chunks.flatten ++ s.pendingCipherPacket = stream
  full : ∀ c ∈ chunks, c.length = u.chunkSize
  number : s.packetNum = chunks.length + 1
  sent : s.sentCipherBytes = chunks.flatten.length

/-- The loops over packets leave the plaintext side alone. -/
structure SamePlain (s s' : Streaming) : Prop where
  plain : s'.pendingPlain = s.pendingPlain
  chain : s'.chain = s.chain
  crc : s'.crc = s.crc

variable {stream : Bytes} {chunks : List Bytes}

theorem Sending.length (h : Sending u stream chunks s) :
    stream.length = u.chunkSize * chunks.length + s.pendingCipherPacket.length := by
  rw [← h.whole, List.length_append, length_flatten_of h.full]

/-- A whole packet goes out. -/
theorem sending_packet (h : Sending u stream chunks s)
    (hlen : u.chunkSize ≤ s.pendingCipherPacket.length) :
    Sending u stream (chunks ++ [s.pendingCipherPacket.take u.chunkSize])
      (afterPacket (s.pendingCipherPacket.take u.chunkSize)
        { s with pendingCipherPacket := s.pendingCipherPacket.drop u.chunkSize }) := by
  constructor
  · rw [← h.whole, List.flatten_append, List.append_assoc]
    simp [afterPacket]
  · intro c hc
    rcases List.mem_append.mp hc with hc | hc
    · exact h.full c hc
    · rw [List.mem_singleton.mp hc, List.length_take, Nat.min_eq_left hlen]
  · simp [afterPacket, h.number]
  · simp [afterPacket, h.sent]

/-- The loop sends whole packets until fewer bytes wait than a packet holds. -/
theorem wp_sendFullPackets (hr : Reliable env) (hu : Sized u) (fuel : ℕ)
    (hsize : stream.length ≤ u.cipherSize) (h : Sending u stream chunks s)
    (hfuel : s.pendingCipherPacket.length ≤ fuel) :
    wp (sendFullPackets env u fuel s)
      (fun s' t => ∃ more, Sending u stream (chunks ++ more) s' ∧
        s'.pendingCipherPacket.length < u.chunkSize ∧ SamePlain s s' ∧
        Emits (packetMessages u (chunks.length + 1) more) w t)
      (fun _ _ => False) w := by
  have hpos := hu.positive
  induction fuel generalizing s chunks w with
  | zero =>
      rw [sendFullPackets, wp_pure]
      exact ⟨[], by rwa [List.append_nil], by omega, ⟨rfl, rfl, rfl⟩, Emits.refl w⟩
  | succ fuel ih =>
      rw [sendFullPackets]
      apply wp_branch
      · intro hshort
        rw [wp_pure]
        exact ⟨[], by rwa [List.append_nil], hshort, ⟨rfl, rfl, rfl⟩, Emits.refl w⟩
      · intro hlong
        have hfull : u.chunkSize ≤ s.pendingCipherPacket.length := Nat.le_of_not_lt hlong
        -- the packet fits the announced number, as its bytes fit the announced size
        have hroom : chunks.length + 1 ≤ u.totalPackets := by
          have hlength := h.length
          have hle : u.chunkSize * (chunks.length + 1) ≤ u.totalPackets * u.chunkSize := by
            have := hu.room
            rw [Nat.mul_succ]
            omega
          rw [Nat.mul_comm] at hle
          exact Nat.le_of_mul_le_mul_right hle hpos
        have hne : s.pendingCipherPacket.take u.chunkSize ≠ [] := by
          intro hnil
          have := congrArg List.length hnil
          rw [List.length_take, Nat.min_eq_left hfull, List.length_nil] at this
          omega
        have hnumber := h.number
        apply wp_then (wp_sendPacket hr hu hne (by simp [hnumber]) (by simpa [hnumber] using hroom))
        rintro _ t ⟨rfl, ht⟩
        have hnext := sending_packet h hfull
        have hless : (s.pendingCipherPacket.drop u.chunkSize).length ≤ fuel := by
          rw [List.length_drop]
          omega
        apply wp_mono (ih hnext hless)
        · rintro s' v ⟨more, hsending, hshort, hsame, hv⟩
          refine ⟨s.pendingCipherPacket.take u.chunkSize :: more, ?_, hshort,
            ⟨hsame.plain, hsame.chain, hsame.crc⟩, ?_⟩
          · rwa [List.append_assoc] at hsending
          · have hboth := ht.trans hv
            rwa [List.length_append, List.length_singleton, hnumber] at hboth
        · exact fun _ _ hf => hf

/-! ### Blocks -/

/-- `ProcessData` of whole blocks extends the ciphertext. -/
theorem wp_encryptBlocks (hr : Reliable env) (hu : Sized u) {plain : Bytes}
    (hsize : (stream ++ cbcEncrypt (env.aesEncrypt u.key) 16 s.chain plain).length ≤ u.cipherSize)
    (h : Sending u stream chunks s) :
    wp (encryptBlocks env u plain s)
      (fun s' t => ∃ more,
        Sending u (stream ++ cbcEncrypt (env.aesEncrypt u.key) 16 s.chain plain)
          (chunks ++ more) s' ∧ s'.pendingCipherPacket.length < u.chunkSize ∧
        s'.chain = chainValue 16 s.chain (cbcEncrypt (env.aesEncrypt u.key) 16 s.chain plain) ∧
        s'.pendingPlain = s.pendingPlain ∧ s'.crc = s.crc ∧
        Emits (packetMessages u (chunks.length + 1) more) w t)
      (fun _ _ => False) w := by
  rw [encryptBlocks, appendCipherBytes]
  have hnext : Sending u (stream ++ cbcEncrypt (env.aesEncrypt u.key) 16 s.chain plain) chunks
      { s with
        chain := chainValue 16 s.chain (cbcEncrypt (env.aesEncrypt u.key) 16 s.chain plain)
        pendingCipherPacket :=
          s.pendingCipherPacket ++ cbcEncrypt (env.aesEncrypt u.key) 16 s.chain plain } :=
    ⟨by rw [← h.whole, List.append_assoc], h.full, h.number, h.sent⟩
  apply wp_mono (wp_sendFullPackets hr hu _ hsize hnext (Nat.le_refl _))
  · rintro s' t ⟨more, hsending, hshort, hsame, ht⟩
    exact ⟨more, hsending, hshort, hsame.chain, hsame.plain, hsame.crc, ht⟩
  · exact fun _ _ hf => hf

/-- The whole blocks of what has been read are encrypted, the rest waits. -/
structure Streamed (env : ClientEnv σ) (u : Upload) (iv done : Bytes) (chunks : List Bytes)
    (s : Streaming) : Prop where
  crc : s.crc = crc32 done 0
  short : s.pendingCipherPacket.length < u.chunkSize
  blocks : ∃ front, front ++ s.pendingPlain = done ∧ 16 ∣ front.length ∧
    Sending u (cbcEncrypt (env.aesEncrypt u.key) 16 iv front) chunks s ∧
    s.chain = chainValue 16 iv (cbcEncrypt (env.aesEncrypt u.key) 16 iv front)

variable {dec : Bytes → Bytes} {iv done : Bytes}

/-- Encrypting whole blocks after whole blocks. -/
theorem wp_encryptNext (hr : Reliable env) (hu : Sized u)
    (haes : Inverts (env.aesEncrypt u.key) dec 16) (hiv : iv.length = 16) {front plain : Bytes}
    (hfront : 16 ∣ front.length) (hplain : 16 ∣ plain.length)
    (hsize : front.length + plain.length ≤ u.cipherSize)
    (h : Sending u (cbcEncrypt (env.aesEncrypt u.key) 16 iv front) chunks s)
    (hchain : s.chain = chainValue 16 iv (cbcEncrypt (env.aesEncrypt u.key) 16 iv front)) :
    wp (encryptBlocks env u plain s)
      (fun s' t => ∃ more,
        Sending u (cbcEncrypt (env.aesEncrypt u.key) 16 iv (front ++ plain)) (chunks ++ more) s' ∧
        s'.pendingCipherPacket.length < u.chunkSize ∧
        s'.chain = chainValue 16 iv (cbcEncrypt (env.aesEncrypt u.key) 16 iv (front ++ plain)) ∧
        s'.pendingPlain = s.pendingPlain ∧ s'.crc = s.crc ∧
        Emits (packetMessages u (chunks.length + 1) more) w t)
      (fun _ _ => False) w := by
  have hwhole : cbcEncrypt (env.aesEncrypt u.key) 16 iv (front ++ plain) =
      cbcEncrypt (env.aesEncrypt u.key) 16 iv front ++
        cbcEncrypt (env.aesEncrypt u.key) 16 s.chain plain := by
    rw [cbcEncrypt_append (by decide) haes _ hiv hfront, ← hchain]
  have hlength : (cbcEncrypt (env.aesEncrypt u.key) 16 iv (front ++ plain)).length =
      front.length + plain.length := by
    rw [length_cbcEncrypt haes hiv (by rw [List.length_append]; exact Nat.dvd_add hfront hplain),
      List.length_append]
  have hcipher : 16 ∣ (cbcEncrypt (env.aesEncrypt u.key) 16 iv front).length := by
    rwa [length_cbcEncrypt haes hiv hfront]
  apply wp_mono (wp_encryptBlocks hr hu (by rw [← hwhole, hlength]; exact hsize) h)
  · rintro s' t ⟨more, hsending, hshort, hnext, hkept, hcrc, ht⟩
    refine ⟨more, hwhole ▸ hsending, hshort, ?_, hkept, hcrc, ht⟩
    rw [hnext, hwhole, chainValue_append (by decide) _ _ hcipher, hchain]
  · exact fun _ _ hf => hf

/-! ### The file -/

theorem wp_takePiece (hr : Reliable env) (hu : Sized u)
    (haes : Inverts (env.aesEncrypt u.key) dec 16) (hiv : iv.length = 16) {got : Bytes}
    (hsize : (done ++ got).length ≤ u.cipherSize) (h : Streamed env u iv done chunks s) :
    wp (takePiece env u got s)
      (fun s' t => ∃ more, Streamed env u iv (done ++ got) (chunks ++ more) s' ∧
        Emits (packetMessages u (chunks.length + 1) more) w t)
      (fun _ _ => False) w := by
  obtain ⟨front, hfront, haligned, hsending, hchain⟩ := h.blocks
  have hcrc : crc32 got s.crc = crc32 (done ++ got) 0 := by rw [h.crc, crc32_append]
  have hdone : done ++ got = front ++ (s.pendingPlain ++ got) := by
    rw [← hfront, List.append_assoc]
  rw [takePiece]
  apply wp_branch
  · intro _
    have hlen : ((s.pendingPlain ++ got).take ((s.pendingPlain ++ got).length / 16 * 16)).length =
        (s.pendingPlain ++ got).length / 16 * 16 := by
      rw [List.length_take]
      omega
    have hroom : front.length +
        ((s.pendingPlain ++ got).take ((s.pendingPlain ++ got).length / 16 * 16)).length ≤
          u.cipherSize := by
      rw [hdone, List.length_append] at hsize
      omega
    apply wp_then (wp_encryptNext hr hu haes hiv haligned (by rw [hlen]; exact Nat.dvd_mul_left _ _)
      hroom (s := { s with crc := crc32 got s.crc, pendingPlain := s.pendingPlain ++ got })
      ⟨hsending.whole, hsending.full, hsending.number, hsending.sent⟩ hchain)
    rintro s' t ⟨more, hnext, hshort, hchain', hkept, hcrc', ht⟩
    rw [wp_pure]
    refine ⟨more, ⟨hcrc'.trans hcrc, hshort, _, ?_, ?_, ⟨hnext.whole, hnext.full, hnext.number,
      hnext.sent⟩, hchain'⟩, ht⟩
    · rw [hdone, List.append_assoc, List.take_append_drop]
    · rw [List.length_append, hlen]
      exact Nat.dvd_add haligned (Nat.dvd_mul_left _ _)
  · intro _
    rw [wp_pure]
    refine ⟨[], ⟨hcrc, h.short, front, hdone.symm, haligned, ?_, hchain⟩, Emits.refl w⟩
    rw [List.append_nil]
    exact ⟨hsending.whole, hsending.full, hsending.number, hsending.sent⟩

/-- The reading loop comes to the end of the file. -/
theorem wp_readPieces (hr : Reliable env) (hu : Sized u)
    (haes : Inverts (env.aesEncrypt u.key) dec 16) (hiv : iv.length = 16) (fuel : ℕ) {rest : Bytes}
    (hsize : (done ++ rest).length ≤ u.cipherSize) (h : Streamed env u iv done chunks s)
    (hfuel : rest.length < fuel) :
    wp (readPieces env u fuel rest s)
      (fun s' t => ∃ more, Streamed env u iv (done ++ rest) (chunks ++ more) s' ∧
        Emits (packetMessages u (chunks.length + 1) more) w t)
      (fun _ _ => False) w := by
  induction fuel generalizing rest done chunks s w with
  | zero => omega
  | succ fuel ih =>
      rw [readPieces, wp_bind, wp_fails, hr.reads]
      simp only [Bool.false_eq_true, false_or]
      have hticked := emits_ticked w
      apply wp_branch
      · intro hnil
        rw [wp_pure]
        exact ⟨[], by rwa [hnil, List.append_nil, List.append_nil], hticked⟩
      · intro hne
        have hpiece : (done ++ rest.take readSize).length ≤ u.cipherSize := by
          rw [List.length_append] at hsize
          rw [List.length_append, List.length_take]
          omega
        apply wp_then (wp_takePiece hr hu haes hiv hpiece h)
        rintro s' t ⟨more, hnext, ht⟩
        apply wp_branch
        · intro hshort
          rw [wp_pure]
          rw [List.take_of_length_le (Nat.le_of_lt hshort)] at hnext
          exact ⟨more, hnext, hticked.trans ht⟩
        · intro hlong
          have hall : done ++ rest.take readSize ++ rest.drop readSize = done ++ rest := by
            rw [List.append_assoc, List.take_append_drop]
          have hless : (rest.drop readSize).length < fuel := by
            have : 0 < readSize := by decide
            rw [List.length_drop]
            omega
          apply wp_mono (ih (by rwa [hall]) hnext hless)
          · rintro s'' v ⟨more', hlast, hv⟩
            refine ⟨more ++ more', ?_, ?_⟩
            · rwa [hall, List.append_assoc] at hlast
            · rw [List.length_append, Nat.add_right_comm] at hv
              rw [packetMessages_append]
              exact (hticked.trans ht).trans hv
          · exact fun _ _ hf => hf

/-! ### The end of the stream -/

/-- The packets of a ciphertext, as many as announced. -/
structure Cut (u : Upload) (stream : Bytes) (chunks : List Bytes) : Prop where
  whole : chunks.flatten = stream
  count : chunks.length = u.totalPackets
  nonempty : ∀ c ∈ chunks, c ≠ []
  bounded : ∀ c ∈ chunks, c.length ≤ u.chunkSize
  aligned : ∀ c ∈ chunks, 16 ∣ c.length

/-- All packets but the last are full. -/
structure ExactCut (u : Upload) (stream : Bytes) (chunks : List Bytes) : Prop
    extends Cut u stream chunks where
  full : ∀ c ∈ chunks.dropLast, c.length = u.chunkSize

/-- What is short of a packet at the end is a packet of its own. -/
def lastPacket (s : Streaming) : List Bytes :=
  if s.pendingCipherPacket = [] then [] else [s.pendingCipherPacket]

theorem flatten_lastPacket (s : Streaming) : (lastPacket s).flatten = s.pendingCipherPacket := by
  unfold lastPacket
  split_ifs with h
  · rw [h, List.flatten_nil]
  · rw [List.flatten_singleton]

theorem mem_lastPacket {c : Bytes} (h : c ∈ lastPacket s) :
    c = s.pendingCipherPacket ∧ c ≠ [] := by
  unfold lastPacket at h
  split_ifs at h with hne
  · cases h
  · rw [List.mem_singleton] at h
    exact ⟨h, h ▸ hne⟩

/-- The announced number of packets is the number sent. -/
theorem count_lastPacket (hu : Sized u) (h : Sending u stream chunks s)
    (hshort : s.pendingCipherPacket.length < u.chunkSize) (hsize : stream.length = u.cipherSize) :
    (chunks ++ lastPacket s).length = u.totalPackets := by
  have hpos := hu.positive
  have hroom := hu.room
  have htight := hu.tight
  have hlength := h.length
  rw [Nat.mul_comm] at hroom htight
  unfold lastPacket
  split_ifs with hnil
  · rw [hnil, List.length_nil, Nat.add_zero] at hlength
    rw [← hsize, hlength] at hroom htight
    rw [← Nat.mul_succ] at htight
    have h₁ := Nat.le_of_mul_le_mul_left hroom hpos
    have h₂ := Nat.lt_of_mul_lt_mul_left htight
    rw [List.append_nil]
    omega
  · have hsome : 0 < s.pendingCipherPacket.length := List.length_pos_iff.mpr hnil
    have h₁ : u.chunkSize * chunks.length < u.chunkSize * u.totalPackets := by omega
    have h₂ : u.chunkSize * u.totalPackets < u.chunkSize * (chunks.length + 2) := by
      rw [Nat.mul_add]
      omega
    have h₃ := Nat.lt_of_mul_lt_mul_left h₁
    have h₄ := Nat.lt_of_mul_lt_mul_left h₂
    rw [List.length_append, List.length_singleton]
    omega

theorem dropLast_lastPacket {c : Bytes} (h : c ∈ (chunks ++ lastPacket s).dropLast) :
    c ∈ chunks := by
  unfold lastPacket at h
  split_ifs at h
  · rw [List.append_nil] at h
    exact List.dropLast_subset chunks h
  · rwa [List.dropLast_concat] at h

theorem cut_lastPacket (hu : Sized u) (h : Sending u stream chunks s)
    (hshort : s.pendingCipherPacket.length < u.chunkSize) (hsize : stream.length = u.cipherSize)
    (hstream : 16 ∣ stream.length) : ExactCut u stream (chunks ++ lastPacket s) := by
  have hpending : 16 ∣ s.pendingCipherPacket.length := by
    have hlength := h.length
    rw [hlength] at hstream
    exact (Nat.dvd_add_right (Nat.dvd_mul_right_of_dvd hu.aligned _)).mp hstream
  have hmem {P : Bytes → Prop} (hfull : ∀ c ∈ chunks, P c) (hlast : ∀ c ∈ lastPacket s, P c) :
      ∀ c ∈ chunks ++ lastPacket s, P c := by
    intro c hc
    rcases List.mem_append.mp hc with hc | hc
    · exact hfull c hc
    · exact hlast c hc
  refine ⟨⟨?_, count_lastPacket hu h hshort hsize, hmem ?_ ?_, hmem ?_ ?_, hmem ?_ ?_⟩,
    fun c hc => h.full c (dropLast_lastPacket hc)⟩
  · rw [List.flatten_append, flatten_lastPacket, h.whole]
  · intro c hc hnil
    have := h.full c hc
    rw [hnil, List.length_nil] at this
    exact absurd this (Nat.ne_of_lt hu.positive)
  · exact fun c hc => (mem_lastPacket hc).2
  · exact fun c hc => Nat.le_of_eq (h.full c hc)
  · intro c hc
    rw [(mem_lastPacket hc).1]
    exact Nat.le_of_lt hshort
  · intro c hc
    rw [h.full c hc]
    exact hu.aligned
  · intro c hc
    rw [(mem_lastPacket hc).1]
    exact hpending

theorem wp_sendRest (hr : Reliable env) (hu : Sized u) (h : Sending u stream chunks s)
    (hcount : (chunks ++ lastPacket s).length = u.totalPackets) :
    wp (sendRest env u s)
      (fun s' t => s'.sentCipherBytes = stream.length ∧ s'.packetNum = u.totalPackets + 1 ∧
        s'.crc = s.crc ∧ Emits (packetMessages u (chunks.length + 1) (lastPacket s)) w t)
      (fun _ _ => False) w := by
  have hnumber := h.number
  have hsent := h.sent
  have hwhole := congrArg List.length h.whole
  rw [List.length_append] at hwhole
  unfold lastPacket at hcount ⊢
  rw [sendRest]
  apply wp_branch
  · intro hnil
    rw [if_pos hnil, List.append_nil] at hcount
    rw [hnil, List.length_nil, Nat.add_zero] at hwhole
    rw [wp_pure, if_pos hnil]
    exact ⟨hsent.trans hwhole, by rw [hnumber, hcount], rfl, Emits.refl w⟩
  · intro hne
    rw [if_neg hne, List.length_append, List.length_singleton] at hcount
    rw [if_neg hne]
    apply wp_mono (wp_sendPacket hr hu hne (by omega) (by omega))
    · rintro s' t ⟨rfl, ht⟩
      refine ⟨?_, ?_, rfl, ?_⟩
      · rw [← hwhole, ← hsent]
        rfl
      · rw [← hcount, ← hnumber]
        rfl
      · rwa [hnumber] at ht
    · exact fun _ _ hf => hf

/-- The padding and what is left are sent, and the two checks at the end pass. -/
theorem wp_finishStream (hr : Reliable env) (hu : Sized u)
    (haes : Inverts (env.aesEncrypt u.key) dec 16) (hiv : iv.length = 16)
    (hsize : u.cipherSize = (pad 16 done).length) (h : Streamed env u iv done chunks s) :
    wp (finishStream env u s)
      (fun crc t => crc = crc32 done 0 ∧ ∃ more,
        ExactCut u (cbcEncrypt (env.aesEncrypt u.key) 16 iv (pad 16 done)) (chunks ++ more) ∧
        Emits (packetMessages u (chunks.length + 1) more) w t)
      (fun _ _ => False) w := by
  obtain ⟨front, hfront, haligned, hsending, hchain⟩ := h.blocks
  have hpad : front ++ pad 16 s.pendingPlain = pad 16 done := by
    rw [← hfront, pad_append _ haligned]
  have hblocks : 16 ∣ (pad 16 done).length := dvd_length_pad (by decide) _
  have hcipher : (cbcEncrypt (env.aesEncrypt u.key) 16 iv (pad 16 done)).length = u.cipherSize := by
    rw [length_cbcEncrypt haes hiv hblocks, hsize]
  rw [finishStream]
  apply wp_then (wp_encryptNext hr hu haes hiv haligned (dvd_length_pad (by decide) _)
    (by rw [hsize, ← hpad, List.length_append]) hsending hchain)
  rintro s' t ⟨more, hnext, hshort, -, -, hcrc, ht⟩
  rw [hpad] at hnext
  have hcount := count_lastPacket hu hnext hshort hcipher
  apply wp_then (wp_sendRest hr hu hnext hcount)
  rintro s'' v ⟨hsent, hnumber, hcrc', hv⟩
  rw [if_neg (by rw [hsent, hcipher]; simp), if_neg (by rw [hnumber]; simp), wp_pure]
  refine ⟨(hcrc'.trans hcrc).trans h.crc, more ++ lastPacket s', ?_, ?_⟩
  · rw [← List.append_assoc]
    exact cut_lastPacket hu hnext hshort hcipher (by rw [hcipher, hsize]; exact hblocks)
  · rw [packetMessages_append]
    rw [List.length_append, Nat.add_right_comm] at hv
    exact ht.trans hv

/-! ### The whole request -/

/-- The upload that `request_828_streaming` makes of a file. -/
def uploadOf (cid : ClientId) (key path content : Bytes) : Upload :=
  { cid, key
    cipherSize := paddedCbcSize content.length
    plainSize := content.length
    totalPackets := packetCount (paddedCbcSize content.length)
    chunkSize := chooseUploadChunkSize (paddedCbcSize content.length)
    fileName := protocolFilenameFromPath path }

theorem paddedCbcSize_eq (content : Bytes) :
    paddedCbcSize content.length = (pad 16 content).length := (length_pad 16 content).symm

theorem paddedCbcSize_gt (n : ℕ) : n < paddedCbcSize n := by
  have := Nat.mod_lt n (show 0 < 16 by decide)
  unfold paddedCbcSize
  omega

theorem sized_uploadOf (cid : ClientId) (key path content : Bytes) :
    Sized (uploadOf cid key path content) := by
  have hpos : 0 < paddedCbcSize content.length :=
    Nat.lt_of_le_of_lt (Nat.zero_le _) (paddedCbcSize_gt content.length)
  obtain ⟨-, hlimit, hroom, htight⟩ := packetCount_bounds hpos
  have hmin := (chooseUploadChunkSize_ge (paddedCbcSize content.length)).1
  refine ⟨?_, ?_, hlimit, hroom, htight⟩
  · change 0 < chooseUploadChunkSize _
    omega
  · exact Nat.dvd_trans (by decide) (dvd_chooseUploadChunkSize _)

theorem prepareUpload_ok {uuid encryptKey path content key : Bytes} {cid : ClientId}
    (hsize : paddedCbcSize content.length < 2 ^ 32) (hcid : parseClientIdHex32 uuid = .ok cid)
    (hkey : decodeBase64 encryptKey = key) (hlen : key.length = 32) :
    prepareUpload uuid encryptKey path content = .ok (uploadOf cid key path content) := by
  have hgt := paddedCbcSize_gt content.length
  obtain ⟨hpos, hlimit, -⟩ := packetCount_bounds (n := paddedCbcSize content.length) (by omega)
  simp only [prepareUpload]
  rw [if_neg (by omega), if_neg (by omega), if_neg (by omega), hcid, hkey]
  exact if_neg (by simp [hlen])

/-- Before the first piece. -/
theorem streamed_nil (hu : Sized u) : Streamed env u iv [] [] { chain := iv } :=
  ⟨by simp, hu.positive, [], rfl, Nat.dvd_zero _,
    ⟨by simp [cbcEncrypt, blocks, pieces, chainEncrypt],
    by simp, rfl, rfl⟩, by simp [chainValue, cbcEncrypt, blocks, pieces, chainEncrypt]⟩

variable {path content : Bytes}

theorem wp_streamUpload (hr : Reliable env) (hu : Sized u)
    (haes : Inverts (env.aesEncrypt u.key) dec 16) (hfile : w.files path = some content)
    (hsize : u.cipherSize = (pad 16 content).length) :
    wp (streamUpload env u path)
      (fun crc t => crc = crc32 content 0 ∧ ∃ chunks,
        ExactCut u (cbcEncrypt (env.aesEncrypt u.key) 16 (env.makeIv w.calls).val
          (pad 16 content)) chunks ∧
        Emits (packetMessages u 0 ((env.makeIv w.calls).val :: chunks)) w t)
      (fun _ _ => False) w := by
  rw [streamUpload, wp_bind, wp_tick]
  apply wp_then (wp_write hr _)
  intro _ t ht
  have hfirst : Emits [packetMessage u 0 (env.makeIv w.calls).val] w t := (emits_ticked w).trans ht
  rw [wp_bind, wp_of_eq_ok (openFile_eq env path t), hr.reads]
  have hopen : t.files path = some content := by rw [hfirst.files, hfile]
  simp only [Bool.false_eq_true, if_false, hopen]
  have hiv := (env.makeIv w.calls).property
  have hroom : (([] : Bytes) ++ content).length ≤ u.cipherSize := by
    rw [hsize, length_pad, List.nil_append]
    omega
  apply wp_then (wp_readPieces hr hu haes hiv _ hroom (streamed_nil hu) (Nat.lt_succ_self _))
  rintro s v ⟨chunks, hstreamed, hv⟩
  apply wp_mono (wp_finishStream hr hu haes hiv hsize hstreamed)
  · rintro crc x ⟨hcrc, more, hcut, hx⟩
    refine ⟨hcrc, chunks ++ more, hcut, ?_⟩
    rw [packetMessages, packetMessages_append]
    rw [Nat.add_comm] at hx
    exact ((hfirst.trans (emits_ticked t)).trans hv).trans hx
  · exact fun _ _ hf => hf

/-- `request_828_streaming` returns the checksum of the file and has written packet 0
with the vector and the packets of the ciphertext. -/
theorem request828Streaming_emits {uuid encryptKey key : Bytes} {cid : ClientId} (hr : Reliable env)
    (haes : Inverts (env.aesEncrypt key) dec 16) (hkey : decodeBase64 encryptKey = key)
    (hlen : key.length = 32) (hcid : parseClientIdHex32 uuid = .ok cid)
    (hfile : w.files path = some content) (hsize : paddedCbcSize content.length < 2 ^ 32) :
    ∃ chunks t, request828Streaming env uuid encryptKey path w = (.ok (some (crc32 content 0)), t) ∧
      ExactCut (uploadOf cid key path content)
        (cbcEncrypt (env.aesEncrypt key) 16 (env.makeIv w.calls).val (pad 16 content)) chunks ∧
      t.trace = w.trace ++ (packetMessages (uploadOf cid key path content) 0
        ((env.makeIv w.calls).val :: chunks)).map Event.wrote ++ [.streamed (crc32 content 0)] := by
  have hrun : wp (request828Streaming env uuid encryptKey path)
      (fun r t => r = some (crc32 content 0) ∧ ∃ chunks,
        ExactCut (uploadOf cid key path content)
          (cbcEncrypt (env.aesEncrypt key) 16 (env.makeIv w.calls).val (pad 16 content)) chunks ∧
        t.trace = w.trace ++ (packetMessages (uploadOf cid key path content) 0
          ((env.makeIv w.calls).val :: chunks)).map Event.wrote ++ [.streamed (crc32 content 0)])
      (fun _ _ => False) w := by
    rw [request828Streaming, wp_attempt, wp_bind, wp_look, hfile]
    dsimp only
    rw [prepareUpload_ok hsize hcid hkey hlen, wp_bind, wp_ofExcept_ok]
    apply wp_seq (wp_streamUpload hr (sized_uploadOf cid key path content) haes hfile
      (paddedCbcSize_eq content))
    · rintro crc t ⟨rfl, chunks, hcut, ht⟩
      rw [wp_bind, wp_note, wp_pure]
      exact ⟨rfl, chunks, hcut,
        congrArg (fun es => es ++ [Event.streamed (crc32 content 0)]) ht.trace⟩
    · exact fun _ _ hf => hf.elim
  unfold wp at hrun
  rcases hx : request828Streaming env uuid encryptKey path w with ⟨_ | r, t⟩
  · rw [hx] at hrun
    exact hrun.elim
  · rw [hx] at hrun
    obtain ⟨rfl, chunks, hcut, htrace⟩ := hrun
    exact ⟨chunks, t, rfl, hcut, htrace⟩

end

end Seftp.ClientStream
