import Seftp.Router

/-!
# The times that a session keeps

`connected_at` is written once. `last_upload_progress_ts` is written by
`mark_upload_progress`, which is called when an upload begins and for every packet that
is taken, and by the reset. What a frame does to them is followed along the program text.
-/
namespace Seftp.SessionClock
open LittleEndian ExceptState OutsideWorld Text Protocol ClientStore ServerSession Answers
open AccountHandlers UploadHandlers Router

/-- The time of the connection stays. An upload that is active has made progress at one
of the times in `T`, or it was active before and has made none. -/
structure Clocked (T : ℚ → Prop) (w w' : World) : Prop where
  connectedAt : w'.session.connectedAt = w.session.connectedAt
  progress : w'.session.transfer.uploadActive = true →
    (∃ ts, w'.session.transfer.lastUploadProgressTs = some ts ∧ T ts) ∨
      (w.session.transfer.uploadActive = true ∧
        w'.session.transfer.lastUploadProgressTs = w.session.transfer.lastUploadProgressTs)

section
variable {T : ℚ → Prop} {w w' u : World}

theorem clocked_same (hc : w'.session.connectedAt = w.session.connectedAt)
    (ht : w'.session.transfer = w.session.transfer) : Clocked T w w' :=
  ⟨hc, fun h => .inr ⟨ht ▸ h, by rw [ht]⟩⟩

instance : Std.Refl (Clocked T) := ⟨fun _ => clocked_same rfl rfl⟩

instance : IsTrans World (Clocked T) where
  trans a b c h h' := by
    refine ⟨h'.connectedAt.trans h.connectedAt, fun hactive => ?_⟩
    rcases h'.progress hactive with hnew | ⟨hb, hts⟩
    · exact .inl hnew
    · rw [hts]
      exact h.progress hb

variable {α : Type} {ctx : Ctx} {clientId version : Bytes}

/-! ### Primitives -/

theorem clocked_onStore (x : StoreProg α) : Keeps (Clocked T) (onStore x) :=
  fun _ => clocked_same rfl rfl

theorem clocked_onFiles (x : FileProg α) : Keeps (Clocked T) (onFiles x) :=
  fun _ => clocked_same rfl rfl

theorem clocked_onSession {f : Session → Session}
    (h : ∀ s, (f s).connectedAt = s.connectedAt ∧ (f s).transfer = s.transfer) :
    Keeps (Clocked T) (onSession f) := fun w => clocked_same (h w.session).1 (h w.session).2

/-- An assignment that neither begins an upload nor notes progress. -/
theorem clocked_onTransfer {f : Transfer → Transfer}
    (h : ∀ t, (f t).uploadActive = true → t.uploadActive = true ∧
      (f t).lastUploadProgressTs = t.lastUploadProgressTs) :
    Keeps (Clocked T) (onTransfer f) := fun _ => ⟨rfl, fun hactive => .inr (h _ hactive)⟩

/-- A transfer computed from the one there is. -/
theorem clocked_setTransfer {t : Transfer}
    (hactive : t.uploadActive = w.session.transfer.uploadActive)
    (hts : t.lastUploadProgressTs = w.session.transfer.lastUploadProgressTs) :
    Clocked T w (onTransfer (fun _ => t) w).2 :=
  ⟨rfl, fun h => .inr ⟨hactive ▸ h, hts⟩⟩

theorem clocked_logEvent (key : LogKey) (event : String) :
    Keeps (Clocked T) (logEvent ctx key event) := fun _ => clocked_same rfl rfl

theorem clocked_monotonic : Keeps (Clocked T) (monotonic ctx) :=
  keeps_look_bind fun _ => keeps_bind (clocked_onSession fun _ => ⟨rfl, rfl⟩) fun _ => keeps_pure _

theorem clocked_markActivity : Keeps (Clocked T) (markActivity ctx) :=
  keeps_bind clocked_monotonic fun _ => clocked_onSession fun _ => ⟨rfl, rfl⟩

theorem clocked_onFrameBad (reason : String) : Keeps (Clocked T) (onFrameBad reason) :=
  clocked_onSession fun _ => ⟨rfl, rfl⟩

theorem clocked_send (data : Bytes) : Keeps (Clocked T) (send ctx data) := by
  refine keeps_ite (keeps_pure _) (keeps_look_bind fun n => ?_)
  refine keeps_bind (clocked_onSession fun _ => ⟨rfl, rfl⟩) fun _ => ?_
  split
  · exact clocked_markActivity
  · exact keeps_ite (keeps_bind (clocked_onSession fun _ => ⟨rfl, rfl⟩) fun _ => keeps_raise _)
      (keeps_raise _)

theorem clocked_release : Keeps (Clocked T) releaseUploadSlot := by
  refine keeps_update fun w => ?_
  split
  · exact clocked_same rfl rfl
  · exact clocked_same rfl rfl

theorem clocked_acquire : Keeps (Clocked T) acquireUploadSlot :=
  keeps_bind keeps_fetch fun _ => keeps_ite (keeps_pure _) (keeps_ite
    (keeps_bind (keeps_update fun _ => clocked_same rfl rfl) fun _ => keeps_pure _) (keeps_pure _))

theorem clocked_reset : Keeps (Clocked T) (resetTransferState ctx) := by
  refine keeps_look_bind fun t => keeps_bind (clocked_onFiles _) fun _ => clocked_onTransfer ?_
  intro _ hactive
  cases hactive

theorem clocked_abandon : Keeps (Clocked T) (abandon ctx) :=
  keeps_bind clocked_release fun _ => clocked_reset

/-! ### Responses -/

theorem clocked_touchKnown : Keeps (Clocked T) (touchKnown ctx clientId) := by
  refine keeps_look_bind fun r => ?_
  split
  · exact keeps_pure _
  · exact keeps_bind (clocked_onStore _) fun _ => keeps_pure _

theorem clocked_answer1600 : Keeps (Clocked T) (answer1600 ctx clientId version) :=
  keeps_bind (clocked_logEvent _ _) fun _ => keeps_ofExcept_bind fun _ _ => clocked_send _

theorem clocked_answer1601 : Keeps (Clocked T) (answer1601 ctx version) :=
  keeps_ofExcept_bind fun _ _ => clocked_send _

theorem clocked_answerAesKey (code : ResCode) (event : String) (ciphertext : Bytes) :
    Keeps (Clocked T) (answerAesKey ctx code event ciphertext clientId version) :=
  keeps_look_bind fun _ => keeps_ofExcept_bind fun _ _ => keeps_ofExcept_bind fun _ _ =>
    keeps_bind (clocked_onStore _) fun _ => keeps_bind (clocked_logEvent _ _) fun _ =>
      clocked_send _

theorem clocked_answer1603 (fileName : String) (contentSize : ℕ) (crc : UInt32) :
    Keeps (Clocked T) (answer1603 ctx clientId version fileName contentSize crc) :=
  keeps_bind (clocked_onStore _) fun _ => keeps_bind (clocked_logEvent _ _) fun _ =>
    keeps_ofExcept_bind fun _ _ => keeps_ofExcept_bind fun _ _ => clocked_send _

theorem clocked_answer1604 : Keeps (Clocked T) (answer1604 ctx clientId version) :=
  keeps_ofExcept_bind fun _ _ => keeps_bind clocked_touchKnown fun _ =>
    keeps_bind (clocked_logEvent _ _) fun _ => clocked_send _

theorem clocked_answer1606 (name : String) :
    Keeps (Clocked T) (answer1606 ctx clientId version name) := by
  refine keeps_ofExcept_bind fun _ _ => ?_
  refine keeps_ite (keeps_bind (clocked_logEvent _ _) fun _ => clocked_send _) ?_
  exact keeps_bind (clocked_logEvent _ _) fun _ => keeps_bind (clocked_onStore _) fun _ =>
    clocked_send _

theorem clocked_answer1607 (text : String) :
    Keeps (Clocked T) (answer1607 ctx clientId version text) :=
  keeps_ofExcept_bind fun _ _ => keeps_bind clocked_touchKnown fun _ =>
    keeps_bind (clocked_logEvent _ _) fun _ => clocked_send _

theorem clocked_answer1608 (securityVersion : UInt8) (nonce der signature : Bytes) :
    Keeps (Clocked T) (answer1608 ctx version securityVersion nonce der signature) :=
  keeps_ofExcept_bind fun _ _ => keeps_ofExcept_bind fun _ _ => clocked_send _

/-! ### Accounts and handshake -/

theorem clocked_request825 (payload : Bytes) :
    Keeps (Clocked T) (request825 ctx payload version) := by
  unfold request825
  split
  · exact keeps_raise _
  · refine keeps_look_bind fun known => keeps_ite clocked_answer1601
      (keeps_ite clocked_answer1601 ?_)
    refine keeps_bind (clocked_onStore _) fun record => ?_
    split
    · exact keeps_raise _
    · split
      · exact keeps_raise _
      · refine keeps_bind (keeps_update fun w => ?_) fun _ =>
          keeps_bind (clocked_logEvent _ _) fun _ => clocked_answer1600
        split
        · exact clocked_same rfl rfl
        · exact clocked_same rfl rfl

theorem clocked_freshAesKey (clientIdHex : String) :
    Keeps (Clocked T) (freshAesKey ctx clientIdHex) :=
  keeps_look_bind fun _ => keeps_bind (clocked_onStore _) fun _ => keeps_pure _

theorem clocked_enrollKey (record : ClientRecord) (der : Bytes) :
    Keeps (Clocked T) (enrollKey ctx clientId version record der) := by
  unfold enrollKey
  split
  · exact keeps_bind (clocked_onStore _) fun _ => keeps_bind (clocked_freshAesKey _) fun _ =>
      keeps_ofExcept_bind fun _ _ => clocked_answerAesKey _ _ _
  · refine keeps_ite (clocked_answer1607 _) ?_
    split
    · exact keeps_bind (clocked_freshAesKey _) fun _ =>
        keeps_ofExcept_bind fun _ _ => clocked_answerAesKey _ _ _
    · split
      · exact keeps_raise _
      · exact keeps_ofExcept_bind fun _ _ => clocked_answerAesKey _ _ _

theorem clocked_checkPublicKey (name : String) (der : Bytes) :
    Keeps (Clocked T) (checkPublicKey ctx clientId version name der) := by
  unfold checkPublicKey
  split
  · exact keeps_raise _
  · exact keeps_ite (keeps_bind (clocked_answer1606 _) fun _ => keeps_pure _) (keeps_pure _)

theorem clocked_request826 (payload : Bytes) :
    Keeps (Clocked T) (request826 ctx clientId payload version) := by
  refine keeps_look_bind fun record => ?_
  split
  · exact clocked_answer1607 _
  · refine keeps_bind (clocked_onStore _) fun _ => keeps_bind (clocked_logEvent _ _) fun _ => ?_
    split
    · exact clocked_answer1607 _
    · refine keeps_bind (keeps_attempt (clocked_checkPublicKey _ _) fun _ => ?_) fun accepted => ?_
      · exact keeps_bind (clocked_answer1607 _) fun _ => keeps_pure _
      · exact keeps_ite (clocked_enrollKey _ _) (keeps_pure _)

theorem clocked_reloginKey (name : String) (der : Bytes) :
    Keeps (Clocked T) (reloginKey ctx clientId version name der) := by
  refine keeps_bind (clocked_onStore _) fun _ => keeps_bind (clocked_logEvent _ _) fun _ => ?_
  split
  · exact clocked_answer1606 _
  · refine keeps_ite (clocked_answer1606 _) ?_
    exact keeps_bind (clocked_freshAesKey _) fun _ =>
      keeps_ofExcept_bind fun _ _ => clocked_answerAesKey _ _ _

theorem clocked_request827 (payload : Bytes) :
    Keeps (Clocked T) (request827 ctx clientId payload version) := by
  have hunknown (name : String) : Keeps (Clocked T) (do
      logEvent ctx (.name name) "request_827"
      answer1606 ctx zeroClientId.val version name) :=
    keeps_bind (clocked_logEvent _ _) fun _ => clocked_answer1606 _
  unfold request827
  split
  · exact clocked_answer1606 _
  · refine keeps_look_bind fun record => ?_
    split
    · exact hunknown _
    · refine keeps_ite (hunknown _) ?_
      split
      · exact clocked_answer1606 _
      · exact keeps_ite (clocked_answer1606 _) (clocked_reloginKey _ _)

theorem clocked_request829 (payload : Bytes) :
    Keeps (Clocked T) (request829 ctx payload version clientId) := by
  refine keeps_look_bind fun h => keeps_ite (clocked_answer1607 _) (keeps_ite (clocked_answer1607 _)
    (keeps_ite (clocked_answer1607 _) (keeps_ite (clocked_answer1607 _)
      (keeps_ite (clocked_answer1607 _) (keeps_ite (clocked_answer1607 _) ?_)))))
  refine keeps_bind (clocked_onSession fun _ => ⟨rfl, rfl⟩) fun _ => keeps_look_bind fun n =>
    keeps_ofExcept_bind fun signature _ => ?_
  exact keeps_bind (clocked_onSession fun _ => ⟨rfl, rfl⟩) fun _ => clocked_answer1608 _ _ _ _

theorem clocked_request830 (payload : Bytes) :
    Keeps (Clocked T) (request830 ctx payload version clientId) :=
  keeps_look_bind fun _ => keeps_ite (clocked_answer1607 _) (keeps_ite (clocked_answer1607 _)
    (keeps_ite (clocked_answer1607 _) (clocked_onSession fun _ => ⟨rfl, rfl⟩)))

/-! ### Uploads -/

theorem clocked_refuse (r : Refusal) : Keeps (Clocked T) (refuse ctx clientId version r) := by
  refine keeps_bind ?_ fun _ => keeps_bind ?_ fun _ => clocked_abandon
  · unfold recordFailure
    split
    · exact keeps_pure _
    · exact keeps_look_bind fun _ => keeps_ite
        (keeps_bind (clocked_onStore _) fun _ => keeps_pure _) (keeps_pure _)
  · unfold sendRefusal
    split
    · exact keeps_pure _
    · exact clocked_answer1607 _

theorem clocked_openUpload (p : Packet) : Keeps (Clocked T) (openUpload ctx clientId p) :=
  keeps_bind (clocked_onFiles _) fun _ => keeps_look_bind fun _ =>
    keeps_bind (clocked_onTransfer fun _ h => ⟨h, rfl⟩) fun _ =>
      keeps_bind (clocked_onFiles _) fun _ =>
      keeps_bind (clocked_onTransfer fun _ h => ⟨h, rfl⟩) fun _ => keeps_ofExcept_bind fun _ _ =>
        keeps_bind (clocked_onTransfer fun _ h => ⟨h, rfl⟩) fun _ => clocked_logEvent _ _

theorem clocked_writePlainStream (plain : Bytes) :
    Keeps (Clocked T) (writePlainStream ctx plain) := by
  refine keeps_ite (keeps_pure _) (keeps_look_bind fun file => ?_)
  split
  · exact keeps_raise _
  · exact keeps_bind (clocked_onFiles _) fun _ => clocked_onTransfer fun _ h => ⟨h, rfl⟩

theorem clocked_processStreamingCipherChunk (chunk : Bytes) (isLast : Bool) :
    Keeps (Clocked T) (processStreamingCipherChunk ctx chunk isLast) := by
  refine keeps_ite (keeps_raise _) (keeps_ite (keeps_raise _) ?_)
  refine keeps_bind (keeps_look_bind fun cipher => ?_) fun plain => keeps_look_bind fun tail => ?_
  · split
    · exact keeps_raise _
    · exact keeps_bind (clocked_onTransfer fun _ h => ⟨h, rfl⟩) fun _ => keeps_pure _
  refine keeps_ite ?_ (keeps_ite (clocked_onTransfer fun _ h => ⟨h, rfl⟩) ?_)
  · split
    · exact keeps_raise _
    · exact keeps_bind (clocked_writePlainStream _) fun _ => clocked_onTransfer fun _ h => ⟨h, rfl⟩
  · exact keeps_bind (clocked_writePlainStream _) fun _ => clocked_onTransfer fun _ h => ⟨h, rfl⟩

theorem clocked_storeUpload (p : Packet) (tmp path : String) :
    Keeps (Clocked T) (storeUpload ctx clientId version p tmp path) := by
  refine keeps_bind (clocked_onFiles _) fun _ => keeps_bind (clocked_onFiles _) fun _ =>
    keeps_bind (clocked_onTransfer fun _ h => ⟨h, rfl⟩) fun _ => keeps_look_bind fun t =>
      keeps_ite (clocked_refuse _) ?_
  exact keeps_bind (clocked_onFiles _) fun _ =>
    keeps_bind (clocked_onTransfer fun _ h => ⟨h, rfl⟩) fun _ => clocked_answer1603 _ _ _

theorem clocked_finishUpload (p : Packet) :
    Keeps (Clocked T) (finishUpload ctx clientId version p) := by
  refine keeps_look_bind fun t => keeps_ite (clocked_refuse _) ?_
  refine keeps_bind (clocked_onStore _) fun _ => ?_
  split
  · exact clocked_storeUpload p _ _
  · exact clocked_refuse _

theorem acceptIv_progress {t t' : Transfer} {p : Packet} (h : acceptIv t p = .ok t') :
    t'.uploadActive = t.uploadActive ∧ t'.lastUploadProgressTs = t.lastUploadProgressTs := by
  unfold acceptIv at h
  split_ifs at h
  cases h
  exact ⟨rfl, rfl⟩

theorem bindUpload_progress {store : Store} {id : String} {t t' : Transfer}
    (h : bindUpload store id t = .ok t') :
    t'.uploadActive = t.uploadActive ∧ t'.lastUploadProgressTs = t.lastUploadProgressTs := by
  unfold bindUpload at h
  split at h
  · cases h
    exact ⟨rfl, rfl⟩
  · split at h
    · cases h
    · dsimp only at h
      split at h
      · cases h
      · split at h
        · cases h
        · cases h
          exact ⟨rfl, rfl⟩

section
variable (hT : ∀ n, T (ctx.out.monotonic n))

include hT

/-- Whatever is assigned before it, progress is noted at a time that the clock shows. -/
theorem clocked_noteProgress (f : Transfer → Transfer) : Keeps (Clocked T) (do
    onTransfer f
    markUploadProgress ctx) :=
  fun w => ⟨rfl, fun _ => .inl ⟨ctx.out.monotonic w.session.ticks, rfl, hT _⟩⟩

theorem clocked_markUploadProgress : Keeps (Clocked T) (markUploadProgress ctx) :=
  fun w => ⟨rfl, fun _ => .inl ⟨ctx.out.monotonic w.session.ticks, rfl, hT _⟩⟩

theorem clocked_startUpload (p : Packet) :
    Keeps (Clocked T) (startUpload ctx clientId version p) := by
  refine keeps_bind clocked_acquire fun acquired => keeps_ite ?_ ?_
  · exact keeps_bind (clocked_answer1607 _) fun _ => keeps_bind clocked_reset fun _ => keeps_pure _
  · refine keeps_pair (clocked_noteProgress hT _) fun _ =>
      keeps_bind (clocked_onStore _) fun _ => keeps_look_bind fun t =>
        keeps_bind (clocked_onStore _) fun uploadId =>
          keeps_bind (clocked_onTransfer fun _ h => ⟨h, rfl⟩) fun _ => keeps_ite ?_ ?_
    · exact keeps_bind (clocked_refuse _) fun _ => keeps_pure _
    · exact keeps_bind (clocked_openUpload p) fun _ => keeps_pure _

theorem clocked_receiveChunk (p : Packet) :
    Keeps (Clocked T) (receiveChunk ctx clientId version p) := by
  refine keeps_look_bind fun t => ?_
  split
  · exact clocked_refuse _
  refine keeps_bind (clocked_markUploadProgress hT) fun _ =>
    keeps_bind (keeps_attempt ?_ fun e => ?_)
    fun failed => ?_
  · exact keeps_bind (clocked_processStreamingCipherChunk _ _) fun _ => keeps_pure _
  · split
    · exact keeps_pure _
    · exact keeps_raise _
  · split
    · exact clocked_refuse _
    · exact keeps_bind (clocked_onTransfer fun _ h => ⟨h, rfl⟩) fun _ =>
        keeps_ite (clocked_finishUpload p) (keeps_pure _)

theorem clocked_admitPacket (p : Packet) :
    Keeps (Clocked T) (admitPacket ctx clientId version p) := by
  intro w
  have hlook : (look fun w => w.session.transfer : Server Transfer) w =
      (.ok w.session.transfer, w) := rfl
  rw [admitPacket, bind_ok hlook]
  by_cases hzero : p.packetNum = 0
  · rw [if_pos hzero]
    rcases hiv : acceptIv w.session.transfer p with r | t
    · exact clocked_refuse r w
    · obtain ⟨hactive, hts⟩ := acceptIv_progress hiv
      exact clocked_setTransfer hactive hts
  · rw [if_neg hzero]
    rcases checkChunk ctx.env.config w.session.transfer p with r | _
    · exact clocked_refuse r w
    · have hgo (go : Bool) : Keeps (Clocked T)
          (if go = true then receiveChunk ctx clientId version p else pure ()) :=
        keeps_ite (clocked_receiveChunk hT p) (keeps_pure _)
      refine keeps_ite (R := Clocked T) ?_ ?_ w
      · exact keeps_bind (clocked_startUpload hT p) hgo
      · exact keeps_bind (keeps_pure _) hgo

theorem clocked_request828 (payload : Bytes) :
    Keeps (Clocked T) (request828 ctx payload version clientId) := by
  unfold request828
  rcases parse828 payload with r | p
  · exact clocked_refuse r
  refine keeps_fetch_bind fun w => ?_
  rcases hbind : bindUpload w.store (hex clientId) w.session.transfer with r | t
  · exact clocked_refuse r w
  obtain ⟨hactive, hts⟩ := bindUpload_progress hbind
  refine trans_of (Clocked T) (clocked_setTransfer hactive hts) ?_
  refine keeps_ite (R := Clocked T) (clocked_refuse _) ?_ _
  rcases validateHeader ctx.env.config p with _ | msg
  · exact clocked_admitPacket hT p
  · exact keeps_bind (keeps_attempt (clocked_answer1607 _) fun _ => keeps_pure _) fun _ =>
      clocked_abandon

omit hT in
theorem clocked_request900 (payload : Bytes) :
    Keeps (Clocked T) (request900 ctx payload version clientId) := by
  refine keeps_ofExcept_bind fun fileName _ => keeps_bind (clocked_onStore _) fun _ =>
    keeps_bind (clocked_logEvent _ _) fun _ => keeps_bind keeps_fetch fun w => ?_
  dsimp only
  split
  · refine keeps_ite (clocked_refuse _) ?_
    refine keeps_bind (clocked_onStore _) fun ok => keeps_ite (clocked_refuse _) ?_
    exact keeps_bind clocked_answer1604 fun _ => clocked_abandon
  · exact clocked_refuse _

omit hT in
theorem clocked_request901 (payload : Bytes) :
    Keeps (Clocked T) (request901 ctx payload version clientId) := by
  refine keeps_ofExcept_bind fun fileName _ => keeps_bind (clocked_onStore _) fun _ =>
    keeps_bind keeps_fetch fun w => keeps_ite (clocked_refuse _) ?_
  refine keeps_bind (clocked_onStore _) fun ok => keeps_ite (clocked_refuse _) ?_
  exact keeps_bind clocked_abandon fun _ => keeps_update fun _ => clocked_same rfl rfl

omit hT in
theorem clocked_request902 (payload : Bytes) :
    Keeps (Clocked T) (request902 ctx payload version clientId) := by
  refine keeps_ofExcept_bind fun fileName _ => keeps_bind (clocked_onStore _) fun _ =>
    keeps_bind keeps_fetch fun w => keeps_ite (clocked_refuse _) ?_
  refine keeps_bind (clocked_onStore _) fun ok => keeps_ite (clocked_refuse _) ?_
  refine keeps_bind (keeps_update fun _ => clocked_same rfl rfl) fun _ => ?_
  exact keeps_bind clocked_answer1604 fun _ => clocked_abandon

/-! ### Frames -/

theorem clocked_dispatch (r : Request) : Keeps (Clocked T) (dispatch handlers ctx r) := by
  refine keeps_look_bind fun verified => ?_
  unfold dispatchAs
  refine keeps_ite (clocked_answer1607 _) (keeps_ite (clocked_answer1607 _) ?_)
  refine keeps_ite (clocked_request825 _) (keeps_ite (clocked_request827 _) ?_)
  refine keeps_ite (clocked_request826 _) (keeps_ite (clocked_request828 hT _) ?_)
  refine keeps_ite (clocked_request829 _) (keeps_ite (clocked_request830 _) ?_)
  refine keeps_ite (clocked_request900 _) (keeps_ite (clocked_request901 _) ?_)
  refine keeps_ite (clocked_request902 _) ?_
  exact keeps_bind (clocked_onFrameBad _) fun _ => keeps_bind (clocked_answer1607 _) fun _ =>
    keeps_look_bind fun _ => keeps_ite clocked_reset (keeps_pure _)

/-- A frame moves the times of the session only so. -/
theorem clocked_handleFrame (frame : Bytes) : Keeps (Clocked T) (handleFrame ctx frame) := by
  have hmalformed (reason text : String) : Keeps (Clocked T) (do
      onFrameBad reason
      answer1607 ctx (parseFrame frame).clientId (parseFrame frame).version text
      resetTransferState ctx) :=
    keeps_bind (clocked_onFrameBad _) fun _ => keeps_bind (clocked_answer1607 _) fun _ =>
      clocked_reset
  have hroute : Keeps (Clocked T) (routeFrame handlers ctx frame) :=
    keeps_ite (hmalformed _ _) (keeps_ite (hmalformed _ _) (clocked_dispatch hT _))
  refine keeps_ite (clocked_onFrameBad _) (keeps_bind ?_ fun _ => keeps_attempt hroute fun e => ?_)
  · exact keeps_update fun _ => clocked_same rfl rfl
  · refine keeps_bind (clocked_onFrameBad _) fun _ => keeps_look_bind fun reason =>
      keeps_ite (keeps_raise _) (keeps_bind ?_ fun _ => ?_)
    · exact keeps_attempt (clocked_answer1607 _) fun _ => keeps_pure _
    · exact keeps_look_bind fun _ => keeps_ite clocked_reset (keeps_pure _)

end

end

end Seftp.SessionClock
