import Seftp.UploadSoundness

/-!
# The bounds of the upload state

While an upload is active its fields are set, its packets and bytes are counted
within what packet 0 announced, and the plaintext that has been written and the
block held back add up to the ciphertext received. Every frame keeps this, in
whatever order frames come and whatever raises. The size of a write is bounded by
the same count, so no temporary file outgrows the limit, not even in a frame that
ends with a refusal.
-/
namespace Seftp.UploadBounds
open LittleEndian ExceptState OutsideWorld BlockChaining Checksum Text Protocol ClientStore
open StoreFrames ServerSession Answers SessionFrames AccountHandlers UploadHandlers HandlerFrames
open UploadSteps ChunkSteps AccountSteps FrameSteps Router HandshakeGate UploadStages UploadTrail
open FileMoves UploadLedger UploadSlot UploadSoundness

/-! ### The parts of a decrypted chunk -/

section
variable {isLast : Bool} {combined out tail : Bytes}

/-- Until the last packet a whole block stays behind. -/
theorem split_more (h : splitPlain false combined = some (out, tail))
    (hlen : 16 ≤ combined.length) :
    tail.length = 16 ∧ out.length + tail.length = combined.length := by
  rw [splitPlain, if_neg (by decide), holdBack] at h
  cases h
  rw [List.length_take, List.length_drop]
  omega

/-- The last packet writes everything but the padding. -/
theorem split_last (h : splitPlain true combined = some (out, tail)) :
    out.length < combined.length ∧ combined.length ≤ out.length + 16 := by
  rw [splitPlain, if_pos rfl] at h
  rcases hun : unpad 16 combined with _ | final
  · rw [hun] at h
    cases h
  · rw [hun] at h
    cases h
    exact length_unpad hun

theorem split_le (h : splitPlain isLast combined = some (out, tail)) :
    out.length ≤ combined.length := by
  rcases isLast with _ | _
  · rw [splitPlain, if_neg (by decide), holdBack] at h
    cases h
    rw [List.length_take]
    omega
  · exact (split_last h).1.le

theorem length_combined {env : Env} (haes : AesBlocks env) {cipher : DecryptCipher}
    (hchain : cipher.chain.length = 16) {chunk : Bytes} (haligned : 16 ∣ chunk.length)
    (held : Bytes) : (held ++ cbcDecrypt (env.aesDecrypt cipher.key) 16 cipher.chain chunk).length =
      held.length + chunk.length := by
  rw [List.length_append, length_cbcDecrypt (haes cipher.key) hchain haligned]

end

/-! ### Bounds -/

/-- An active upload that expects packet `k` of `n` and was announced with `size`
bytes of ciphertext. -/
structure Fields (limit : ℕ) (t : Transfer) (k n size : ℕ) : Prop where
  active : t.uploadActive = true
  iv : t.transferIv.isSome
  uploadId : t.uploadId.isSome
  fileName : t.uploadFilename.isSome
  client : t.uploadClientIdHex.isSome
  packetNum : t.expectedPacketNum = some k
  totalPackets : t.expectedTotalPackets = some n
  contentSize : t.expectedContentSize = some size
  origFileSize : t.expectedOrigFileSize.isSome
  received : t.receivedCipherBytes ≤ size
  limited : size ≤ limit

/-- The temporary file is open and `held` bytes of plaintext are not yet in it. -/
structure Streaming (c : SessionFrames.Core) (held : ℕ) : Prop where
  cipher : ∃ cipher, c.transfer.uploadDecryptCipher = some cipher ∧ cipher.chain.length = 16
  file : c.transfer.uploadTmpFile.isSome
  names : ∃ path, c.transfer.uploadPath = some path ∧
    c.transfer.uploadTmpPath = some (path ++ ".tmp." ++ c.connectionId)
  unstored : c.transfer.uploadCrc = none
  tail : c.transfer.uploadPlainTail.length = held
  count : c.transfer.uploadPlainBytesWritten + c.transfer.uploadPlainTail.length =
    c.transfer.receivedCipherBytes

/-- The file has its final name, and its `size` bytes of ciphertext ended in a
padding. -/
structure Done (c : SessionFrames.Core) (size : ℕ) : Prop where
  stored : c.transfer.uploadCrc.isSome
  closed : c.transfer.uploadTmpFile = none
  moved : c.transfer.uploadTmpPath = none
  gone : ∃ path, c.transfer.uploadPath = some path ∧
    c.files.entry (path ++ ".tmp." ++ c.connectionId) = none
  padded : c.transfer.uploadPlainBytesWritten < size ∧
    size ≤ c.transfer.uploadPlainBytesWritten + 16

inductive Bounds (limit : ℕ) (c : SessionFrames.Core) : Prop
  | idle (hactive : c.transfer.uploadActive = false) (hcrc : c.transfer.uploadCrc = none)
      (hexpected : ∀ k ∈ c.transfer.expectedPacketNum, k = 1)
      (hnone : c.transfer.receivedCipherBytes = 0)
  | receiving (k n size : ℕ) (hf : Fields limit c.transfer k n size) (hbegun : 2 ≤ k)
      (hmore : k ≤ n)
      (hblock : 16 ≤ c.transfer.receivedCipherBytes) (hs : Streaming c 16)
  | done (n size : ℕ) (hf : Fields limit c.transfer (n + 1) n size) (hbegun : 1 ≤ n)
      (hblock : 16 ≤ c.transfer.receivedCipherBytes) (hs : Done c size)

section
variable {limit : ℕ} {ctx : Ctx} {frame clientId version : Bytes} {p : Packet} {w u w' : World}

theorem bounds_reset (h : w.session.transfer = {}) : Bounds limit (SessionFrames.core w) := by
  apply Bounds.idle
  · rw [SessionFrames.core, h]
  · rw [SessionFrames.core, h]
  · rw [SessionFrames.core, h]
    intro k hk
    cases hk
  · rw [SessionFrames.core, h]

/-- The bounds depend on the transfer, the connection and the files. -/
theorem bounds_congr {c c' : SessionFrames.Core} (h : Bounds limit c)
    (ht : c'.transfer = c.transfer) (hc : c'.connectionId = c.connectionId)
    (hf : c'.files = c.files) : Bounds limit c' := by
  rcases c with ⟨transfer, _, _, connectionId, files, _, _⟩
  rcases c' with ⟨transfer', _, _, connectionId', files', _, _⟩
  dsimp only at ht hc hf
  subst ht hc hf
  cases h with
  | idle h₁ h₂ h₃ h₄ => exact .idle h₁ h₂ h₃ h₄
  | receiving k n size h hbegun hmore hblock hs =>
      exact .receiving k n size h hbegun hmore hblock
        ⟨hs.cipher, hs.file, hs.names, hs.unstored, hs.tail, hs.count⟩
  | done n size h hbegun hblock hs =>
      exact .done n size h hbegun hblock ⟨hs.stored, hs.closed, hs.moved, hs.gone, hs.padded⟩

/-! ### Packets -/

/-- A packet that is taken brings at least one block. -/
theorem length_taken {env : Env} {t : Transfer} {cipher : DecryptCipher} {out tail : Bytes}
    (h : Taken env p t cipher out tail) : 16 ≤ p.cipherChunk.length :=
  Nat.le_of_dvd (List.length_pos_iff.mpr h.decrypts.nonempty) h.decrypts.aligned

/-- What a packet that is taken does to the counts. -/
theorem fields_takes {env : Env} {k n size : ℕ} (hf : Fields limit u.session.transfer k n size)
    (ht : Takes env p u w) : p.packetNum = k ∧ Fields limit w.session.transfer (k + 1) n size ∧
      16 ≤ w.session.transfer.receivedCipherBytes := by
  obtain ⟨ts, cipher, out, tail, htaken, hd⟩ := ht
  obtain ⟨hnum, hfits⟩ := checkOrder_ok htaken.order
  rw [hf.contentSize, Option.getD_some] at hfits
  have hlen := length_taken htaken
  have hw : w.session.transfer = (advanced p ts cipher out tail (SessionFrames.core u)).transfer :=
    congrArg Core.transfer hd.core_eq
  have hexpected : Option.map (· + 1) u.session.transfer.expectedPacketNum = some (k + 1) := by
    rw [hf.packetNum]
    rfl
  rw [hw]
  refine ⟨Option.some.inj (hnum.symm.trans hf.packetNum), ?_, ?_⟩
  · exact ⟨hf.active, hf.iv, hf.uploadId, hf.fileName, hf.client, hexpected, hf.totalPackets,
      hf.contentSize, hf.origFileSize, hfits, hf.limited⟩
  · change 16 ≤ u.session.transfer.receivedCipherBytes + p.cipherChunk.length
    omega

theorem streaming_takes {env : Env} (haes : AesBlocks env) {held : ℕ}
    (hs : Streaming (SessionFrames.core u) held) (hmore : p.packetNum ≠ p.totalPackets)
    (ht : Takes env p u w) : Streaming (SessionFrames.core w) 16 := by
  obtain ⟨ts, cipher, out, tail, htaken, hd⟩ := ht
  obtain ⟨cipher', hcipher, hchain⟩ := hs.cipher
  obtain rfl : cipher' = cipher :=
    Option.some.inj (hcipher.symm.trans htaken.decrypts.cipher_eq)
  have hlen := length_taken htaken
  have hall :=
    length_combined haes hchain htaken.decrypts.aligned u.session.transfer.uploadPlainTail
  have hsplit := htaken.decrypts.split
  rw [decide_eq_false hmore] at hsplit
  obtain ⟨htail, hparts⟩ := split_more hsplit (by omega)
  have hcount : u.session.transfer.uploadPlainBytesWritten +
      u.session.transfer.uploadPlainTail.length = u.session.transfer.receivedCipherBytes := hs.count
  rw [hd.core_eq]
  refine ⟨⟨_, rfl, length_chainValue _ hchain⟩, hs.file, hs.names, hs.unstored, htail, ?_⟩
  change u.session.transfer.uploadPlainBytesWritten + out.length + tail.length =
    u.session.transfer.receivedCipherBytes + p.cipherChunk.length
  omega

/-- The last packet leaves all but the padding written. -/
theorem written_last {env : Env} (haes : AesBlocks env) {held : ℕ}
    (hs : Streaming (SessionFrames.core u) held) (hlast : p.packetNum = p.totalPackets)
    (ht : Takes env p u w) :
    (∃ path, w.session.transfer.uploadPath = some path ∧
      w.session.transfer.uploadTmpPath = some (path ++ ".tmp." ++ w.session.connectionId)) ∧
    w.session.transfer.uploadPlainBytesWritten < w.session.transfer.receivedCipherBytes ∧
      w.session.transfer.receivedCipherBytes ≤ w.session.transfer.uploadPlainBytesWritten + 16 := by
  obtain ⟨ts, cipher, out, tail, htaken, hd⟩ := ht
  obtain ⟨cipher', hcipher, hchain⟩ := hs.cipher
  obtain rfl : cipher' = cipher :=
    Option.some.inj (hcipher.symm.trans htaken.decrypts.cipher_eq)
  have hall :=
    length_combined haes hchain htaken.decrypts.aligned u.session.transfer.uploadPlainTail
  have hsplit := htaken.decrypts.split
  rw [decide_eq_true hlast] at hsplit
  have hpadding := split_last hsplit
  have hcount : u.session.transfer.uploadPlainBytesWritten +
      u.session.transfer.uploadPlainTail.length = u.session.transfer.receivedCipherBytes := hs.count
  have hw : w.session.transfer = (advanced p ts cipher' out tail (SessionFrames.core u)).transfer :=
    congrArg Core.transfer hd.core_eq
  have hconn : w.session.connectionId = u.session.connectionId :=
    congrArg Core.connectionId hd.core_eq
  rw [hw, hconn]
  refine ⟨hs.names, ?_⟩
  change u.session.transfer.uploadPlainBytesWritten + out.length <
      u.session.transfer.receivedCipherBytes + p.cipherChunk.length ∧
    u.session.transfer.receivedCipherBytes + p.cipherChunk.length ≤
      u.session.transfer.uploadPlainBytesWritten + out.length + 16
  omega

theorem bounds_accepts {env : Env} (haes : AesBlocks env) {k size held : ℕ}
    (hf : Fields limit u.session.transfer k p.totalPackets size) (hk : 1 ≤ k)
    (hle : p.packetNum ≤ p.totalPackets) (hs : Streaming (SessionFrames.core u) held)
    (ha : Accepts env clientId version p u w') : Bounds limit (SessionFrames.core w') := by
  rcases ha with ⟨hmore, ht⟩ | ⟨hlast, x, ht, tmp, path, hstores, hsaid⟩
  · obtain ⟨hnum, hfields, hblock⟩ := fields_takes hf ht
    exact .receiving _ _ _ hfields (by omega) (by omega) hblock (streaming_takes haes hs hmore ht)
  · obtain ⟨hnum, hfields, hblock⟩ := fields_takes hf ht
    obtain ⟨⟨path', hpath', htmp'⟩, hpadding⟩ := written_last haes hs hlast ht
    cases hpath'.symm.trans hstores.path
    cases htmp'.symm.trans hstores.tmp
    have hsize : x.session.transfer.receivedCipherBytes = size :=
      Option.some.inj (hstores.received.trans hfields.contentSize)
    rw [hsize] at hpadding
    obtain rfl : k = p.totalPackets := by omega
    have hfields' : Fields limit (stored (path ++ ".tmp." ++ x.session.connectionId) path
        (SessionFrames.core x)).transfer (p.totalPackets + 1) p.totalPackets size :=
      ⟨hfields.active, hfields.iv, hfields.uploadId, hfields.fileName, hfields.client,
        hfields.packetNum, hfields.totalPackets, hfields.contentSize, hfields.origFileSize,
        hfields.received, hfields.limited⟩
    rw [hsaid.core_eq]
    exact .done p.totalPackets size hfields' hk hblock
      ⟨rfl, rfl, rfl, ⟨path, hstores.path, Function.update_self ..⟩, hpadding⟩

/-- The upload that packet 1 has just started. -/
theorem fields_started (h : Started clientId p w u)
    (hheader : validateHeader ctx.env.config p = none)
    (hcheck : checkChunk ctx.env.config w.session.transfer p = .ok ())
    (hclient : w.session.transfer.uploadClientIdHex.isSome)
    (hexpected : w.session.transfer.expectedPacketNum = some 1)
    (hnone : w.session.transfer.receivedCipherBytes = 0) :
    Fields ctx.env.config.maxFileSize u.session.transfer 1 p.totalPackets p.contentSize := by
  obtain ⟨-, -, -, -, -, -, hlimit⟩ := validateHeader_none hheader
  obtain ⟨hiv, htotal, hcontent, horig, -, -⟩ := checkChunk_ok hcheck
  obtain ⟨ts, time, limiter, hd⟩ := h.does
  have hu : u.session.transfer =
      (started clientId p ts time limiter (SessionFrames.core w)).transfer :=
    congrArg Core.transfer hd.core_eq
  rw [hu]
  refine ⟨rfl, hiv, rfl, rfl, hclient, hexpected, htotal, hcontent, ?_, ?_, hlimit⟩
  · exact Option.isSome_of_eq_some horig
  · exact hnone.trans_le (Nat.zero_le _)

theorem streaming_started (h : Started clientId p w u)
    (hiv : w.session.transfer.transferIv.isSome)
    (hcrc : w.session.transfer.uploadCrc = none)
    (hnone : w.session.transfer.receivedCipherBytes = 0) : Streaming (SessionFrames.core u) 0 := by
  obtain ⟨iv, hiv⟩ := Option.isSome_iff_exists.mp hiv
  obtain ⟨ts, time, limiter, hd⟩ := h.does
  have hchain : ((w.session.transfer.transferIv.map Subtype.val).getD []).length = 16 := by
    rw [hiv]
    exact iv.2
  rw [hd.core_eq]
  exact ⟨⟨_, rfl, hchain⟩, rfl, ⟨_, rfl, rfl⟩, hcrc, rfl, hnone.symm⟩

/-- Packet 0 announces an upload to an idle session. -/
theorem bounds_announced {t : Transfer} (h : Bounds limit (SessionFrames.core w))
    (hiv : acceptIv w.session.transfer p = .ok t)
    (hd : Does (withTransfer fun _ => t) w w') : Bounds limit (SessionFrames.core w') := by
  unfold acceptIv at hiv
  split_ifs at hiv with hbusy
  cases hiv
  rw [not_or] at hbusy
  cases h with
  | idle h₁ h₂ h₃ h₄ =>
      rw [hd.core_eq]
      refine .idle h₁ h₂ ?_ rfl
      rintro k ⟨⟩
      rfl
  | receiving k n size hf => exact (hbusy.1 hf.active).elim
  | done n size hf => exact (hbusy.1 hf.active).elim

/-- A packet from the state in which it is admitted. -/
theorem bounds_admits (haes : AesBlocks ctx.env)
    (h : Bounds ctx.env.config.maxFileSize (SessionFrames.core w))
    (hheader : validateHeader ctx.env.config p = none)
    (hclient : w.session.transfer.uploadClientIdHex.isSome)
    (ha : Admits ctx clientId version p w w') :
    Bounds ctx.env.config.maxFileSize (SessionFrames.core w') := by
  obtain ⟨hzero, hle, -⟩ := validateHeader_none hheader
  cases ha with
  | announced t hnum hiv hd => exact bounds_announced h hiv hd
  | declined r hnum hiv hplain href => exact bounds_reset href.transfer
  | failed r hnum hfail href => exact bounds_reset href.transfer
  | busy hnum hcheck hbusy => exact bounds_reset hbusy.transfer
  | unrecorded hnum hcheck hdown => exact bounds_reset hdown.transfer
  | restarted x r hnum hcheck hstart hfail href => exact bounds_reset href.transfer
  | began x hnum hcheck hstart haccept =>
      have hexpected := began_expected hstart haccept hnum
      cases h with
      | idle hactive hcrc hfirst hnone =>
          have hfields := fields_started hstart hheader hcheck hclient hexpected hnone
          have hstream := streaming_started hstart (checkChunk_ok hcheck).1 hcrc hnone
          exact bounds_accepts haes hfields le_rfl hle hstream haccept
      | receiving k n size hf hbegun =>
          have := Option.some.inj (hf.packetNum.symm.trans hexpected)
          omega
      | done n size hf hbegun =>
          have := Option.some.inj (hf.packetNum.symm.trans hexpected)
          omega
  | taken hnum hcheck haccept =>
      have hexpected := accepts_expected haccept
      have htotal := (checkChunk_ok hcheck).2.1
      cases h with
      | idle hactive hcrc hfirst hnone =>
          have := hfirst p.packetNum hexpected
          omega
      | receiving k n size hf hbegun hmore hblock hs =>
          obtain rfl : n = p.totalPackets := Option.some.inj (hf.totalPackets.symm.trans htotal)
          exact bounds_accepts haes hf (by omega) hle hs haccept
      | done n size hf =>
          have hn := Option.some.inj (hf.totalPackets.symm.trans htotal)
          have hk := Option.some.inj (hf.packetNum.symm.trans hexpected)
          omega

/-- Binding the client leaves the bounds. -/
theorem bounds_bind {store : Store} {idHex : String} {t : Transfer}
    (h : Bounds limit (SessionFrames.core w))
    (hb : bindUpload store idHex w.session.transfer = .ok t)
    (hd : Does (withTransfer fun _ => t) w u) : Bounds limit (SessionFrames.core u) := by
  rw [hd.core_eq]
  rcases bindUpload_ok hb with ⟨-, rfl⟩ | ⟨hnone, record, b64, key, -, -, -, rfl⟩
  · exact bounds_congr h rfl rfl rfl
  · cases h with
    | idle h₁ h₂ h₃ h₄ => exact .idle h₁ h₂ h₃ h₄
    | receiving k n size hf => exact absurd hf.client (by rw [SessionFrames.core, hnone]; decide)
    | done n size hf => exact absurd hf.client (by rw [SessionFrames.core, hnone]; decide)

/-! ### Frames -/

theorem bounds_uploads {payload : Bytes} (haes : AesBlocks ctx.env)
    (h : Bounds ctx.env.config.maxFileSize (SessionFrames.core w))
    (hu : Uploads ctx clientId version payload w w') :
    Bounds ctx.env.config.maxFileSize (SessionFrames.core w') := by
  cases hu with
  | unparsed r hparse hplain href => exact bounds_reset href.transfer
  | unbound p r hparse hbind hplain href => exact bounds_reset href.transfer
  | foreign p hparse hid hother href => exact bounds_reset href.transfer
  | header p t text hparse hbind hheader habandon => exact bounds_reset habandon.transfer
  | admitted p t u hparse hbind hown hheader hd hadmits =>
      have ht : u.session.transfer = t := congrArg Core.transfer hd.core_eq
      have hclient : u.session.transfer.uploadClientIdHex.isSome := by
        rw [ht, hown]
        rfl
      exact bounds_admits haes (bounds_bind h hbind hd) hheader hclient hadmits

theorem bounds_account {env : Env} (h : Bounds limit (SessionFrames.core w))
    (hstep : AccountOnly env w w') : Bounds limit (SessionFrames.core w') :=
  bounds_congr h hstep.transfer hstep.connectionId hstep.files

theorem Bounds.later {c : SessionFrames.Core} (h : Bounds limit c) :
    ∀ k, c.transfer.expectedPacketNum = some k → 1 < k → c.transfer.uploadActive = true := by
  intro k hexpected hk
  cases h with
  | idle _ _ h₃ _ =>
      have := h₃ k hexpected
      omega
  | receiving k n size hf => exact hf.active
  | done n size hf => exact hf.active

theorem bounds_broke (h : Bounds limit (SessionFrames.core w)) (hb : Broke ctx frame w u)
    (hu : u.session.transfer.uploadActive = false) : Bounds limit (SessionFrames.core u) := by
  obtain ⟨hw, key, name, idHex, ht⟩ := broke_fields h.later hb hu
  cases h with
  | idle _ h₂ h₃ h₄ =>
      apply Bounds.idle hu
      · rw [SessionFrames.core, ht]
        exact h₂
      · rw [SessionFrames.core, ht]
        exact h₃
      · rw [SessionFrames.core, ht]
        exact h₄
  | receiving k n size hf => exact absurd (hw.symm.trans hf.active) (by decide)
  | done n size hf => exact absurd (hw.symm.trans hf.active) (by decide)

/-- Every frame keeps the bounds. -/
theorem bounds_steps (haes : AesBlocks ctx.env)
    (h : Bounds ctx.env.config.maxFileSize (SessionFrames.core w)) (hs : Steps ctx frame w w') :
    Bounds ctx.env.config.maxFileSize (SessionFrames.core w') := by
  cases hs with
  | locked hv ht hstep =>
      apply bounds_congr h
      · rw [hstep.core_eq]
      · rw [hstep.core_eq]
      · rw [hstep.core_eq]
  | handled hv hstep =>
      have hnote : Bounds ctx.env.config.maxFileSize
          (SessionFrames.core (noteIdentity (parseFrame frame) w)) := h
      cases hstep with
      | short hlen hstep => exact hstep.core_eq ▸ h
      | routed hlen hstep =>
          rcases routed_cases hstep with hstep | hreset | ⟨-, -, hstep⟩
          · exact bounds_account hnote hstep
          · exact bounds_reset hreset
          · exact bounds_uploads haes hnote hstep
      | raised hlen u hstep hcause hend =>
          cases hend with
          | dropped hactive hdrop => exact bounds_reset hdrop.transfer
          | kept hactive hkept => exact hkept ▸ bounds_broke hnote hstep hactive

theorem bounds_run {env : Env} {w₀ : World} (haes : AesBlocks env) (hsound : Sound w₀)
    (ht : w₀.session.transfer = {}) (es : List Event) :
    Bounds env.config.maxFileSize (SessionFrames.core (runFrames env es w₀)) := by
  induction es using List.reverseRecOn with
  | nil => exact bounds_reset ht
  | append_singleton es e ih => exact bounds_steps haes ih (run_steps hsound es e)

/-! ### Writes -/

/-- Packet 1 writes to an empty file and finds nothing held back. -/
theorem room_first {env : Env} {t : Transfer} {out : Bytes} (haes : AesBlocks env)
    (hiv : t.transferIv.isSome) (hcontent : t.expectedContentSize = some p.contentSize)
    (ha : Adds env p (begunTransfer t) out) : out.length ≤ p.contentSize := by
  obtain ⟨iv, hiv⟩ := Option.isSome_iff_exists.mp hiv
  obtain ⟨cipher, tail, hcipher, hsplit⟩ := ha.plain
  have hchain : cipher.chain.length = 16 := by
    cases hcipher
    change ((t.transferIv.map Subtype.val).getD []).length = 16
    rw [hiv]
    exact iv.2
  have hout : out.length ≤ ([] : Bytes).length + p.cipherChunk.length :=
    (split_le hsplit).trans_eq (length_combined haes hchain ha.aligned [])
  have hfits : t.receivedCipherBytes + p.cipherChunk.length ≤ t.expectedContentSize.getD 0 :=
    (checkOrder_ok ha.order).2
  rw [hcontent, Option.getD_some] at hfits
  rw [List.length_nil] at hout
  omega

/-- A later packet writes at most what is held back and what it brings. -/
theorem room_later {env : Env} {c : SessionFrames.Core} {held : ℕ} {out : Bytes}
    (haes : AesBlocks env) (hs : Streaming c held)
    (hcontent : c.transfer.expectedContentSize = some p.contentSize)
    (ha : Adds env p c.transfer out) :
    c.transfer.uploadPlainBytesWritten + out.length ≤ p.contentSize := by
  obtain ⟨cipher, tail, hcipher, hsplit⟩ := ha.plain
  obtain ⟨cipher', hcipher', hchain⟩ := hs.cipher
  cases hcipher'.symm.trans hcipher
  have hout := (split_le hsplit).trans_eq (length_combined haes hchain ha.aligned _)
  have hfits := (checkOrder_ok ha.order).2
  rw [hcontent, Option.getD_some] at hfits
  have hcount := hs.count
  omega

/-- The counter is the length of the open file. -/
theorem fileLength_later {k : Option ℕ} (hl : Ledger (SessionFrames.core w) k)
    (hmore : p.packetNum ≠ 1) (hfile : w.session.transfer.uploadTmpFile.isSome) :
    fileLength p w = w.session.transfer.uploadPlainBytesWritten := by
  obtain ⟨i, hi⟩ := Option.isSome_iff_exists.mp hfile
  rw [fileLength, if_neg hmore, hi]
  cases hl with
  | idle _ hnone _ => cases hnone.symm.trans hi
  | writing tmp inode hw =>
      cases hw.file.symm.trans hi
      exact hw.count.symm
  | deposited path inode hd => cases hd.file.symm.trans hi

/-- The file of a packet does not outgrow the announced ciphertext, whether the
packet is accepted in the end or not. -/
theorem roomy_bounds (ctx : Ctx) {payload : Bytes} {k : Option ℕ} (haes : AesBlocks ctx.env)
    (h : Bounds ctx.env.config.maxFileSize (SessionFrames.core w))
    (hl : Ledger (SessionFrames.core w) k) :
    Roomy (· ≤ ctx.env.config.maxFileSize) ctx clientId payload w := by
  refine ⟨Nat.zero_le _, fun p t out hp ha => ?_⟩
  obtain ⟨-, hle, -, -, -, -, hlimit⟩ := validateHeader_none hp.header
  obtain ⟨hiv, htotal, hcontent, -, -, -⟩ := checkChunk_ok hp.check
  by_cases hone : p.packetNum = 1
  · rw [readyFor, if_pos hone] at ha
    rw [fileLength, if_pos hone, Nat.zero_add]
    exact (room_first haes hiv hcontent ha).trans hlimit
  · rw [readyFor, if_neg hone] at ha
    have hexpected := (checkOrder_ok ha.order).1
    have hd : Does (withTransfer fun _ => t) w (w.setTransfer t) := ⟨rfl, rfl⟩
    cases bounds_bind h hp.binds hd with
    | idle _ _ hfirst _ => exact (hone (hfirst p.packetNum hexpected)).elim
    | receiving k n size hf hbegun hmore hblock hs =>
        have hlength : fileLength p (w.setTransfer t) = t.uploadPlainBytesWritten :=
          fileLength_later (ledger_bind hl hp.binds hd) hone hs.file
        have hsame : fileLength p (w.setTransfer t) = fileLength p w := by
          rcases bindUpload_ok hp.binds with ⟨-, rfl⟩ | ⟨-, record, b64, key, -, -, -, rfl⟩ <;> rfl
        rw [← hsame, hlength]
        exact (room_later haes hs hcontent ha).trans hlimit
    | done n size hf =>
        have hn := Option.some.inj (hf.totalPackets.symm.trans htotal)
        have hk := Option.some.inj (hf.packetNum.symm.trans hexpected)
        omega

end

/-! ### Runs -/

/-- The bounds of an active upload that expects packet `k` of `n` and was announced
with `size` bytes. -/
structure Within (limit : ℕ) (w : World) (k n size : ℕ) : Prop where
  fields : Fields limit w.session.transfer k n size
  begun : 2 ≤ k
  counted : k ≤ n + 1
  block : 16 ≤ w.session.transfer.receivedCipherBytes
  outstanding : k ≤ n → w.session.transfer.uploadTmpFile.isSome ∧
    w.session.transfer.uploadPlainBytesWritten + w.session.transfer.uploadPlainTail.length =
      w.session.transfer.receivedCipherBytes ∧
    w.session.transfer.uploadPlainTail.length = 16 ∧ w.session.transfer.uploadCrc = none
  complete : k = n + 1 → w.session.transfer.uploadCrc.isSome ∧
    w.session.transfer.uploadTmpFile = none ∧ w.session.transfer.uploadTmpPath = none ∧
    (∃ path, w.session.transfer.uploadPath = some path ∧
      w.files.entry (path ++ ".tmp." ++ w.session.connectionId) = none) ∧
    1 ≤ size - w.session.transfer.uploadPlainBytesWritten ∧
    size - w.session.transfer.uploadPlainBytesWritten ≤ 16

/-- The state of a session that started from `w₀`: its fields are within bounds, a
file it has changed has at most the permitted size, and the next frame changes files
one move at a time, none of which leaves a larger one. -/
structure StaysWithin (env : Env) (w₀ w : World) : Prop where
  active : w.session.transfer.uploadActive = true →
    ∃ k n size, Within env.config.maxFileSize w k n size
  inactive : w.session.transfer.uploadActive = false → w.session.transfer.uploadCrc = none
  contents : ∀ i, w.files.content i = w₀.files.content i ∨
    (w.files.content i).length ≤ env.config.maxFileSize
  moves : ∀ e : Event, SizedMoves (reasons ⟨env, e.1⟩ e.2 w) (· ≤ env.config.maxFileSize) w
    (handleEvent handlers env w e)

section
variable {env : Env} {w₀ : World}

theorem within_of_bounds {limit : ℕ} {w : World} (h : Bounds limit (SessionFrames.core w))
    (hactive : w.session.transfer.uploadActive = true) : ∃ k n size, Within limit w k n size := by
  cases h with
  | idle hno _ _ _ => exact absurd (hno.symm.trans hactive) (by decide)
  | receiving k n size hf hbegun hmore hblock hs =>
      refine ⟨k, n, size, hf, hbegun, by omega, hblock, fun _ => ?_, by omega⟩
      exact ⟨hs.file, hs.count, hs.tail, hs.unstored⟩
  | done n size hf hbegun hblock hs =>
      refine ⟨n + 1, n, size, hf, by omega, le_rfl, hblock, by omega, fun _ => ?_⟩
      have hpadded : w.session.transfer.uploadPlainBytesWritten < size ∧
          size ≤ w.session.transfer.uploadPlainBytesWritten + 16 := hs.padded
      exact ⟨hs.stored, hs.closed, hs.moved, hs.gone, by omega, by omega⟩

theorem unstored_of_bounds {limit : ℕ} {w : World} (h : Bounds limit (SessionFrames.core w))
    (hactive : w.session.transfer.uploadActive = false) : w.session.transfer.uploadCrc = none := by
  cases h with
  | idle _ hcrc _ _ => exact hcrc
  | receiving k n size hf => exact absurd (hactive.symm.trans hf.active) (by decide)
  | done n size hf => exact absurd (hactive.symm.trans hf.active) (by decide)

/-- The next frame of a run. -/
theorem sizedMoves_run (haes : AesBlocks env) (hsound : Sound w₀) (ht : w₀.session.transfer = {})
    (es : List Event) (e : Event) :
    SizedMoves (reasons ⟨env, e.1⟩ e.2 (runFrames env es w₀)) (· ≤ env.config.maxFileSize)
      (runFrames env es w₀) (handleEvent handlers env (runFrames env es w₀) e) := by
  have hbounds : Bounds env.config.maxFileSize (SessionFrames.core (runFrames env es w₀)) :=
    bounds_run haes hsound ht es
  have hledger : ∃ k, Ledger (SessionFrames.core (runFrames env es w₀)) k := ledger_run hsound ht es
  obtain ⟨k, hk⟩ := hledger
  have hroom (clientId payload : Bytes) : Roomy (· ≤ env.config.maxFileSize) ⟨env, e.1⟩ clientId
      payload (runFrames env es w₀) := roomy_bounds ⟨env, e.1⟩ haes hbounds hk
  exact sizedMoves_handleFrame (hroom _ _)

theorem contents_run (haes : AesBlocks env) (hsound : Sound w₀) (ht : w₀.session.transfer = {})
    (es : List Event) (i : ℕ) :
    (runFrames env es w₀).files.content i = w₀.files.content i ∨
      ((runFrames env es w₀).files.content i).length ≤ env.config.maxFileSize := by
  induction es using List.reverseRecOn with
  | nil => exact .inl rfl
  | append_singleton es e ih =>
      rw [runFrames_snoc]
      rcases (sizedMoves_run haes hsound ht es e).contents i with hsame | hsize
      · rw [hsame]
        exact ih
      · exact .inr hsize

end

/-- After any frames of a new session, whatever raises, the upload state is within its
bounds and no write goes over the limit. -/
theorem upload_stays_within (env : Env) (haes : AesBlocks env) (connectionId : String) (now : ℚ)
    (store : Store) (files : FileSystem) (limiter : UploadLimiter) (es : List Event) :
    StaysWithin env (freshWorld connectionId now store files limiter)
      (runFrames env es (freshWorld connectionId now store files limiter)) := by
  have hsound := sound_freshWorld connectionId now store files limiter
  have hbounds := bounds_run haes hsound rfl es
  exact ⟨within_of_bounds hbounds, unstored_of_bounds hbounds, contents_run haes hsound rfl es,
    sizedMoves_run haes hsound rfl es⟩

/-- An upload between its packets and one that waits for its confirmation. -/
theorem upload_stays_within_alice :
    ((runFrames plainEnv aliceUpload aliceWorld).session.transfer.uploadTmpFile.isSome ∧
      StaysWithin plainEnv aliceWorld (runFrames plainEnv aliceUpload aliceWorld)) ∧
    ((runFrames plainEnv wholeUpload aliceWorld).session.transfer.uploadCrc.isSome ∧
      StaysWithin plainEnv aliceWorld (runFrames plainEnv wholeUpload aliceWorld)) :=
  ⟨⟨by decide +kernel, upload_stays_within plainEnv plainEnv_blocks "c1" 0 aliceWorld.store
      aliceWorld.files aliceWorld.limiter aliceUpload⟩,
    ⟨by decide +kernel, upload_stays_within plainEnv plainEnv_blocks "c1" 0 aliceWorld.store
      aliceWorld.files aliceWorld.limiter wholeUpload⟩⟩

end Seftp.UploadBounds
