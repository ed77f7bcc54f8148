import Seftp.Confirmations
import Seftp.StoredFiles

/-!
# What a completed record says about its file

Only request 900 completes a row, with the path and the checksum of the session's
transfer. These are right about the file as long as nobody else has touched it:
while the upload is received its temporary file, and between the last packet and
the confirmation the file at its final path. Neither path is the session's alone.
-/
namespace Seftp.CompletedRecords
open LittleEndian ExceptState OutsideWorld BlockChaining Checksum Text Protocol ClientStore
open StoreFrames ServerSession Answers SessionFrames AccountHandlers UploadHandlers HandlerFrames
open UploadSteps ChunkSteps AccountSteps Router FrameSteps HandshakeGate UploadStages KeyBinding
open FileMoves TemporaryFiles FileTouches UploadLedger RowSteps UploadSlot StoredFiles
open UploadPaths (newOps Mentions)
open Confirmations (aliceBoot onConnection sound_runs)

/-! ### Who completes a row -/

/-- Every completed row was there before. -/
def NoneDone (w w' : World) : Prop :=
  ∀ r ∈ w'.store.working.uploads, r.status = .completed → r ∈ w.store.working.uploads

instance : Std.Refl NoneDone := ⟨fun _ _ h _ => h⟩

instance : IsTrans World NoneDone := ⟨fun _ _ _ h h' r hr hs => h r (h' r hr hs) hs⟩

/-- A completed row that was not there before is the tracked one, with the path and
the checksum of the transfer. -/
def Done (w w' : World) : Prop :=
  ∀ r ∈ w'.store.working.uploads, r.status = .completed → r ∈ w.store.working.uploads ∨
    ∃ r₀ ∈ w.store.working.uploads, ∃ path crc,
      w.session.transfer.uploadId = some r₀.id ∧ w.session.transfer.uploadPath = some path ∧
      w.session.transfer.uploadCrc = some crc ∧ r.storedPath = some path ∧
      r.serverCrc32 = some crc.toNat ∧ r.origFileSize = r₀.origFileSize

section
variable {ctx : Ctx} {clientId version : Bytes} {w u w' : World}

theorem NoneDone.done (h : NoneDone w w') : Done w w' := fun r hr hs => .inl (h r hr hs)

theorem Done.then (h : Done w u) (h' : NoneDone u w') : Done w w' := fun r hr hs =>
  h r (h' r hr hs) hs

theorem noneDone_of_rows {α : Type} {x : Server α} (hx : Keeps SameRows x) : Keeps NoneDone x := by
  intro w r hr _
  rw [← show (x w).2.store.working.uploads = _ from hx w]
  exact hr

theorem noneDone_of_idle {α : Type} {x : Server α} (hx : Keeps Idle x) : Keeps NoneDone x :=
  noneDone_of_rows (sameRows_of_idle hx)

theorem noneDone_onTransfer (f : Transfer → Transfer) : Keeps NoneDone (onTransfer f) :=
  noneDone_of_rows fun _ => rfl

theorem noneDone_onFiles {α : Type} (x : FileProg α) : Keeps NoneDone (onFiles x) :=
  noneDone_of_rows fun _ => rfl

theorem noneDone_reset : Keeps NoneDone (resetTransferState ctx) :=
  noneDone_of_rows sameRows_reset

theorem noneDone_abandon : Keeps NoneDone (abandon ctx) :=
  keeps_bind (noneDone_of_idle idle_release) fun _ => noneDone_reset

theorem noneDone_answer1607 (text : String) :
    Keeps NoneDone (answer1607 ctx clientId version text) := noneDone_of_idle (idle_answer1607 text)

/-- A row of the changed table. -/
theorem mem_changeRows {id : Option ℕ} {c : UploadChange} {rows : List UploadRow} {r : UploadRow}
    (h : r ∈ changeRows id c rows) :
    r ∈ rows ∨ ∃ r₀ ∈ rows, some r₀.id = id ∧ r = r₀.change c := by
  obtain ⟨r₀, hr₀, hr⟩ := List.mem_map.mp h
  split_ifs at hr with hid
  · exact .inr ⟨r₀, hr₀, hid, hr.symm⟩
  · exact .inl (hr ▸ hr₀)

/-- The table after an update, whether or not it can be committed. -/
theorem rows_change (id : Option ℕ) (c : UploadChange) :
    wp (onStore (changeUploadRecord ctx.out id c))
      (fun _ u => SameRows w u ∨
        u.store.working.uploads = changeRows id c w.store.working.uploads)
      (fun _ u => SameRows w u ∨
        u.store.working.uploads = changeRows id c w.store.working.uploads) w := by
  have hrows {st : Store} (h : Changed id c w.store st) :
      st.working.uploads = changeRows id c w.store.working.uploads :=
    congrArg StoreFrames.Core.uploads h
  rw [onStore, wp_zoom]
  apply wp_mono wp_changeUploadRecord
  · rintro b st (⟨-, -, rfl⟩ | ⟨-, -, hch⟩)
    · exact .inl rfl
    · exact .inr (hrows hch)
  · rintro _ st (h | h)
    · exact .inl (congrArg StoreFrames.Core.uploads h)
    · exact .inr (hrows h)

theorem noneDone_fail (id : Option ℕ) (reason : String) {status : UploadStatus} (time : String)
    (hs : status ≠ .completed) :
    Keeps NoneDone (onStore (failUploadRecord ctx.out id reason status time)) := by
  have hrows {w u : World} (h : SameRows w u ∨
      u.store.working.uploads = changeRows id (.fail reason status time) w.store.working.uploads) :
      NoneDone w u := by
    intro r hr hdone
    rcases h with h | h
    · rw [← show u.store.working.uploads = _ from h]
      exact hr
    · rw [h] at hr
      rcases mem_changeRows hr with hr | ⟨r₀, -, -, rfl⟩
      · exact hr
      · exact (hs hdone).elim
  apply keeps_of_wp
  intro w
  exact wp_mono (rows_change id _) (fun _ _ h => hrows h) (fun _ _ h => hrows h)

theorem noneDone_createUploadRecord (idHex fileName : String) (orig cipher : ℕ) :
    Keeps NoneDone (onStore (createUploadRecord ctx.out idHex fileName orig cipher)) := by
  have hnew {w : World} {st : Store} {time : String}
      (h : Appended (newRow idHex fileName orig cipher time) w.store st) :
      NoneDone w (w.setStore st) := by
    intro r hr hdone
    have hrows : st.working.uploads = w.store.working.uploads ++
        [newRow idHex fileName orig cipher time w.store.working.nextUploadId] :=
      congrArg StoreFrames.Core.uploads h
    rw [show (w.setStore st).store.working.uploads = _ from hrows] at hr
    rcases List.mem_append.mp hr with hr | hr
    · exact hr
    · rw [List.mem_singleton.mp hr] at hdone
      cases hdone
  apply keeps_of_wp
  intro w
  rw [onStore, wp_zoom]
  apply wp_mono wp_createUploadRecord
  · rintro r st (⟨-, -, rfl⟩ | ⟨-, -, happ⟩)
    · exact fun r hr _ => hr
    · exact hnew happ
  · rintro _ st (h | happ)
    · intro r hr _
      have hrows : st.working.uploads = w.store.working.uploads :=
        congrArg StoreFrames.Core.uploads h
      rw [← hrows]
      exact hr
    · exact hnew happ

theorem noneDone_refuse (r : Refusal) : Keeps NoneDone (refuse ctx clientId version r) := by
  refine keeps_bind ?_ fun _ => keeps_bind ?_ fun _ => noneDone_abandon
  · rcases r.failure with _ | reason
    · exact keeps_pure _
    · refine keeps_bind keeps_fetch fun w => keeps_ite ?_ (keeps_pure _)
      exact keeps_bind (noneDone_fail _ _ _ (by decide)) fun _ => keeps_pure _
  · rcases r.answer with _ | text
    · exact keeps_pure _
    · exact noneDone_answer1607 text

theorem noneDone_startUpload (p : Packet) :
    Keeps NoneDone (startUpload ctx clientId version p) := by
  refine keeps_bind (noneDone_of_idle idle_acquireUploadSlot) fun acquired => keeps_ite ?_ ?_
  · exact keeps_bind (noneDone_answer1607 _) fun _ => keeps_bind noneDone_reset fun _ =>
      keeps_pure _
  refine keeps_bind (noneDone_onTransfer _) fun _ =>
    keeps_bind (noneDone_of_idle idle_markUploadProgress) fun _ =>
      keeps_bind (noneDone_of_idle (idle_touch _)) fun _ => keeps_look_bind fun t =>
        keeps_bind (noneDone_createUploadRecord _ _ _ _) fun uploadId =>
          keeps_bind (noneDone_onTransfer _) fun _ => keeps_ite ?_ ?_
  · exact keeps_bind (noneDone_refuse _) fun _ => keeps_pure _
  · exact keeps_bind (noneDone_of_idle (idle_openUpload p)) fun _ => keeps_pure _

theorem noneDone_finishUpload (p : Packet) :
    Keeps NoneDone (finishUpload ctx clientId version p) := by
  refine keeps_look_bind fun t => keeps_ite (noneDone_refuse _) ?_
  refine keeps_bind (noneDone_of_idle (idle_touch _)) fun _ => ?_
  split
  · refine keeps_bind (noneDone_onFiles _) fun _ => keeps_bind (noneDone_onFiles _) fun _ =>
      keeps_bind (noneDone_onTransfer _) fun _ => keeps_look_bind fun t =>
        keeps_ite (noneDone_refuse _) ?_
    exact keeps_bind (noneDone_onFiles _) fun _ => keeps_bind (noneDone_onTransfer _) fun _ =>
      noneDone_of_idle (idle_of_quiet (quiet_answer1603 _ _ _))
  · exact noneDone_refuse _

theorem noneDone_receiveChunk (p : Packet) :
    Keeps NoneDone (receiveChunk ctx clientId version p) := by
  refine keeps_look_bind fun t => ?_
  rcases checkOrder t p with r | ⟨⟩
  · exact noneDone_refuse r
  refine keeps_bind (noneDone_of_idle idle_markUploadProgress) fun _ =>
    keeps_bind (noneDone_of_idle ?_) fun failed => ?_
  · refine keeps_attempt (keeps_bind (idle_processStreamingCipherChunk _ _) fun _ => keeps_pure _)
      fun e => ?_
    split
    · exact keeps_pure _
    · exact keeps_raise _
  rcases failed with _ | text
  · exact keeps_bind (noneDone_onTransfer _) fun _ =>
      keeps_ite (noneDone_finishUpload p) (keeps_pure _)
  · exact noneDone_refuse _

theorem noneDone_request828 (payload : Bytes) :
    Keeps NoneDone (request828 ctx payload version clientId) := by
  unfold request828
  rcases parse828 payload with r | p
  · exact noneDone_refuse r
  refine keeps_bind keeps_fetch fun w => ?_
  rcases bindUpload w.store (hex clientId) w.session.transfer with r | t
  · exact noneDone_refuse r
  refine keeps_bind (noneDone_onTransfer _) fun _ => keeps_ite (noneDone_refuse _) ?_
  rcases validateHeader ctx.env.config p with _ | text
  · refine keeps_look_bind fun t => keeps_ite ?_ ?_
    · rcases acceptIv t p with r | t
      · exact noneDone_refuse r
      · exact noneDone_onTransfer _
    · rcases checkChunk ctx.env.config t p with r | ⟨⟩
      · exact noneDone_refuse r
      have hrest (go : Bool) : Keeps NoneDone
          (if go then receiveChunk ctx clientId version p else pure () : Server Unit) :=
        keeps_ite (noneDone_receiveChunk p) (keeps_pure _)
      exact keeps_ite (keeps_bind (noneDone_startUpload p) hrest)
        (keeps_bind (keeps_pure _) hrest)
  · exact keeps_bind (keeps_attempt (noneDone_answer1607 _) fun _ => keeps_pure _) fun _ =>
      noneDone_abandon

theorem noneDone_request901 (payload : Bytes) :
    Keeps NoneDone (request901 ctx payload version clientId) := by
  refine keeps_ofExcept_bind fun name _ => keeps_bind (noneDone_of_idle (idle_touch _)) fun _ =>
    keeps_bind keeps_fetch fun w => keeps_ite (noneDone_refuse _)
      (keeps_bind (noneDone_fail _ _ _ (by decide)) fun ok => keeps_ite (noneDone_refuse _) ?_)
  exact keeps_bind noneDone_abandon fun _ => noneDone_of_idle (idle_appendLog _ _ _)

theorem noneDone_request902 (payload : Bytes) :
    Keeps NoneDone (request902 ctx payload version clientId) := by
  refine keeps_ofExcept_bind fun name _ => keeps_bind (noneDone_of_idle (idle_touch _)) fun _ =>
    keeps_bind keeps_fetch fun w => keeps_ite (noneDone_refuse _)
      (keeps_bind (noneDone_fail _ _ _ (by decide)) fun ok => keeps_ite (noneDone_refuse _) ?_)
  exact keeps_bind (noneDone_of_idle (idle_appendLog _ _ _)) fun _ =>
    keeps_bind (noneDone_of_idle (idle_of_quiet quiet_answer1604)) fun _ => noneDone_abandon

/-- Request 900 completes the tracked row. -/
theorem done_request900 (payload : Bytes) :
    wp (request900 ctx payload version clientId) (fun _ u => Done w u) (fun _ u => Done w u) w := by
  have hsame {v : World} (h : Tells [] w v) : NoneDone w v := by
    intro r hr _
    have hrows : v.store.working.uploads = w.store.working.uploads :=
      congrArg (fun c => c.store.uploads) h.core_eq
    rw [← hrows]
    exact hr
  have hthen {v : World} (h : Done w v) {x : Server Unit} (hx : Keeps NoneDone x) :
      wp x (fun _ u => Done w u) (fun _ u => Done w u) v :=
    wp_mono (hx.wp v) (fun _ _ h' => h.then h') (fun _ _ h' => h.then h')
  apply wp_ofExcept_bind
  · intro name _
    apply wp_seq ((tells_touch _).wp w)
    · intro _ u hu
      apply wp_seq ((tells_logEvent _ _).wp u)
      · intro _ v hv
        have hwv : Tells [] w v := hu.trans hv
        have ht : v.session.transfer = w.session.transfer := congrArg Core.transfer hwv.core_eq
        have hrows : v.store.working.uploads = w.store.working.uploads :=
          congrArg (fun c => c.store.uploads) hwv.core_eq
        rw [wp_bind, wp_fetch]
        dsimp only
        split
        · rename_i id path crc hid hpath hcrc
          apply wp_branch
          · exact fun _ => hthen (hsame hwv).done (noneDone_refuse _)
          intro _
          -- the update, with what the transfer says
          have hupdate {x : World} (hx : SameRows v x ∨ x.store.working.uploads = changeRows
              (some id) (.complete path crc.toNat (ctx.out.now v.store.calls))
                v.store.working.uploads) : Done w x := by
            intro r hr hdone
            rw [SameRows, hrows] at hx
            rcases hx with hx | hx
            · exact .inl (hx ▸ hr)
            · rw [hx] at hr
              rcases mem_changeRows hr with hr | ⟨r₀, hr₀, hid₀, rfl⟩
              · exact .inl hr
              · rw [ht] at hid hpath hcrc
                exact .inr ⟨r₀, hr₀, path, crc, hid.trans hid₀.symm, hpath, hcrc, rfl, rfl, rfl⟩
          apply wp_seq (rows_change (some id) _)
          · intro ok x hx
            apply wp_branch
            · exact fun _ => hthen (hupdate hx) (noneDone_refuse _)
            · exact fun _ => hthen (hupdate hx) (keeps_bind
                (noneDone_of_idle (idle_of_quiet quiet_answer1604)) fun _ => noneDone_abandon)
          · exact fun _ x hx => hupdate hx
        · exact hthen (hsame hwv).done (noneDone_refuse _)
      · exact fun _ v hv => (hsame (hu.trans hv)).done
    · exact fun _ u hu => (hsame hu).done
  · exact fun _ _ => NoneDone.done fun r hr _ => hr

/-- Only a request 900 completes a row. -/
theorem done_dispatchAs (r : Request) (verified : Bool) :
    wp (dispatchAs handlers ctx r verified) (fun _ u => NoneDone w u ∨ (r.code = 900 ∧ Done w u))
      (fun _ u => NoneDone w u ∨ (r.code = 900 ∧ Done w u)) w := by
  have hother {x : Server Unit} (hx : Keeps NoneDone x) :
      wp x (fun _ u => NoneDone w u ∨ (r.code = 900 ∧ Done w u))
        (fun _ u => NoneDone w u ∨ (r.code = 900 ∧ Done w u)) w :=
    wp_mono (hx.wp w) (fun _ _ h => .inl h) (fun _ _ h => .inl h)
  have haccount {x : Server Unit} (hx : Keeps (AccountOnly ctx.env) x) : Keeps NoneDone x :=
    noneDone_of_idle (idle_of_account ctx.env hx)
  unfold dispatchAs
  apply wp_branch
  · exact fun _ => hother (noneDone_answer1607 _)
  intro _
  apply wp_branch
  · exact fun _ => hother (noneDone_answer1607 _)
  intro _
  apply wp_branch
  · exact fun _ => hother (haccount (account_request825 _))
  intro _
  apply wp_branch
  · exact fun _ => hother (haccount (account_request827 _))
  intro _
  apply wp_branch
  · exact fun _ => hother (haccount (account_request826 _))
  intro _
  apply wp_branch
  · exact fun _ => hother (noneDone_request828 _)
  intro _
  apply wp_branch
  · exact fun _ => hother (noneDone_of_idle (idle_request829 _))
  intro _
  apply wp_branch
  · exact fun _ => hother (noneDone_of_idle (idle_request830 _))
  intro _
  apply wp_branch
  · exact fun hcode => wp_mono (done_request900 _) (fun _ _ h => .inr ⟨hcode, h⟩)
      (fun _ _ h => .inr ⟨hcode, h⟩)
  intro _
  apply wp_branch
  · exact fun _ => hother (noneDone_request901 _)
  intro _
  apply wp_branch
  · exact fun _ => hother (noneDone_request902 _)
  intro _
  exact hother (keeps_bind (noneDone_of_idle (idle_onFrameBad _)) fun _ =>
    keeps_bind (noneDone_answer1607 _) fun _ => keeps_look_bind fun active =>
      keeps_ite noneDone_reset (keeps_pure _))

theorem noneDone_recover (r : Request) (e : PyError) : Keeps NoneDone (recover ctx r e) := by
  refine keeps_bind (noneDone_of_idle (idle_onFrameBad _)) fun _ => keeps_look_bind fun reason =>
    keeps_ite (keeps_raise _) (keeps_bind ?_ fun _ => keeps_look_bind fun active =>
      keeps_ite noneDone_reset (keeps_pure _))
  exact keeps_attempt (noneDone_answer1607 _) fun _ => keeps_pure _

/-- Whatever the frame and whatever raises, a row it completes is the tracked one. -/
theorem done_handleFrame (ctx : Ctx) (frame : Bytes) (w : World) :
    NoneDone w (handleFrame ctx frame w).2 ∨
      ((parseFrame frame).code = 900 ∧ Done w (handleFrame ctx frame w).2) := by
  unfold handleFrame
  rcases Nat.lt_or_ge frame.length 17 with hlen | hlen
  · rw [handleFrameWith_short hlen]
    exact .inl (noneDone_of_idle (idle_onFrameBad _) w)
  rw [handleFrameWith_long hlen]
  have hmalformed (reason text : String) : Keeps NoneDone (do
      onFrameBad reason
      answer1607 ctx (parseFrame frame).clientId (parseFrame frame).version text
      resetTransferState ctx) :=
    keeps_bind (noneDone_of_idle (idle_onFrameBad _)) fun _ =>
      keeps_bind (noneDone_answer1607 _) fun _ => noneDone_reset
  have hroute : wp (routeFrame handlers ctx frame)
      (fun _ u => NoneDone w u ∨ ((parseFrame frame).code = 900 ∧ Done w u))
      (fun _ u => NoneDone w u ∨ ((parseFrame frame).code = 900 ∧ Done w u))
      (noteIdentity (parseFrame frame) w) := by
    unfold routeFrame
    apply wp_branch
    · exact fun _ => wp_mono ((hmalformed _ _).wp _) (fun _ _ h => .inl h) (fun _ _ h => .inl h)
    intro _
    apply wp_branch
    · exact fun _ => wp_mono ((hmalformed _ _).wp _) (fun _ _ h => .inl h) (fun _ _ h => .inl h)
    intro _
    rw [wp_dispatch]
    have hdispatch (verified : Bool) : wp (dispatchAs handlers ctx (parseFrame frame) verified)
        (fun _ u => NoneDone (noteIdentity (parseFrame frame) w) u ∨
          ((parseFrame frame).code = 900 ∧ Done (noteIdentity (parseFrame frame) w) u))
        (fun _ u => NoneDone (noteIdentity (parseFrame frame) w) u ∨
          ((parseFrame frame).code = 900 ∧ Done (noteIdentity (parseFrame frame) w) u))
        (noteIdentity (parseFrame frame) w) := done_dispatchAs _ verified
    exact hdispatch _
  have hall : wp (attempt (routeFrame handlers ctx frame) (recover ctx (parseFrame frame)))
      (fun _ u => NoneDone w u ∨ ((parseFrame frame).code = 900 ∧ Done w u))
      (fun _ u => NoneDone w u ∨ ((parseFrame frame).code = 900 ∧ Done w u))
      (noteIdentity (parseFrame frame) w) := by
    rw [wp_attempt]
    apply wp_mono hroute
    · exact fun _ _ h => h
    · intro e u hu
      have hnext {v : World} (hv : NoneDone u v) :
          NoneDone w v ∨ ((parseFrame frame).code = 900 ∧ Done w v) := by
        rcases hu with hu | ⟨hcode, hu⟩
        · exact .inl (trans_of NoneDone hu hv)
        · exact .inr ⟨hcode, hu.then hv⟩
      exact wp_mono ((noneDone_recover _ e).wp u) (fun _ _ h => hnext h) (fun _ _ h => hnext h)
  exact wp_state.mp hall

end

/-! ### Between two uploads -/

/-- No file is open or stored, and only a first packet can come next. -/
structure Rested (t : Transfer) : Prop where
  expected : ∀ k ∈ t.expectedPacketNum, k = 1
  tmpPath : t.uploadTmpPath = none
  tmpFile : t.uploadTmpFile = none
  crc : t.uploadCrc = none

/-- So it is while no upload is active. -/
def Resting (t : Transfer) : Prop := t.uploadActive = false → Rested t

section
variable {ctx : Ctx} {frame clientId version : Bytes} {p : Packet} {w w' u : World}

theorem resting_reset (h : w.session.transfer = {}) : Resting w.session.transfer := by
  intro _
  rw [h]
  exact ⟨(fun k hk => by cases hk), rfl, rfl, rfl⟩

theorem resting_active (h : w.session.transfer.uploadActive = true) : Resting w.session.transfer :=
  fun hno => absurd (hno.symm.trans h) (by decide)

/-- A packet after the first is expected only while an upload is active. -/
theorem Resting.later {t : Transfer} (h : Resting t) :
    ∀ k, t.expectedPacketNum = some k → 1 < k → t.uploadActive = true := by
  intro k hk hlt
  by_contra hno
  have hone := (h (Bool.eq_false_iff.mpr hno)).expected k hk
  omega

/-- An accepted packet leaves the flag. -/
theorem active_accepts {env : Env} (h : Accepts env clientId version p u w') :
    w'.session.transfer.uploadActive = u.session.transfer.uploadActive := by
  have hflag {f : SessionFrames.Core → SessionFrames.Core} {x y : World} (ms : List Bytes)
      (hd : Does f x y ∨ Says ms f x y)
      (hf : (f (SessionFrames.core x)).transfer.uploadActive = x.session.transfer.uploadActive) :
      y.session.transfer.uploadActive = x.session.transfer.uploadActive :=
    (congrArg (fun c => c.transfer.uploadActive) (hd.elim Does.core_eq Says.core_eq)).trans hf
  rcases h with ⟨-, ts, cipher, out, tail, -, hd⟩ |
    ⟨-, x, ⟨ts, cipher, out, tail, -, hd⟩, tmp, path, -, hs⟩
  · exact hflag [] (.inl hd) rfl
  · exact (hflag _ (.inr hs) rfl).trans (hflag [] (.inl hd) rfl)

theorem resting_admits (h : Resting w.session.transfer)
    (ha : Admits ctx clientId version p w w') : Resting w'.session.transfer := by
  cases ha with
  | announced t hnum hiv hd =>
      unfold acceptIv at hiv
      split_ifs at hiv with hbusy
      cases hiv
      intro hactive
      have hbefore := h (by simpa using (not_or.mp hbusy).1)
      have ht : w'.session.transfer = _ := congrArg Core.transfer hd.core_eq
      rw [ht]
      refine ⟨fun k hk => ?_, hbefore.tmpPath, hbefore.tmpFile, hbefore.crc⟩
      cases hk
      rfl
  | declined r hnum hiv hplain href => exact resting_reset href.transfer
  | failed r hnum hfail href => exact resting_reset href.transfer
  | busy hnum hcheck hbusy => exact resting_reset hbusy.transfer
  | unrecorded hnum hcheck hdown => exact resting_reset hdown.transfer
  | restarted x r hnum hcheck hstart hfail href => exact resting_reset href.transfer
  | began x hnum hcheck hstart haccept =>
      obtain ⟨ts, time, limiter, hd⟩ := hstart.does
      have hx : x.session.transfer.uploadActive = true :=
        congrArg (fun c => c.transfer.uploadActive) hd.core_eq
      exact resting_active ((active_accepts haccept).trans hx)
  | taken hnum hcheck haccept =>
      exact resting_active
        ((active_accepts haccept).trans (h.later _ (accepts_expected haccept) hnum))

theorem resting_uploads {payload : Bytes} (h : Resting w.session.transfer)
    (hu : Uploads ctx clientId version payload w w') : Resting w'.session.transfer := by
  cases hu with
  | unparsed r hparse hplain href => exact resting_reset href.transfer
  | unbound p r hparse hbind hplain href => exact resting_reset href.transfer
  | foreign p hparse hid hother href => exact resting_reset href.transfer
  | header p t text hparse hbind hheader habandon => exact resting_reset habandon.transfer
  | admitted p t u hparse hbind hown hheader hd hadmits =>
      have ht : u.session.transfer = t := congrArg Core.transfer hd.core_eq
      refine resting_admits ?_ hadmits
      rw [ht]
      rcases bindUpload_ok hbind with ⟨-, rfl⟩ | ⟨-, record, b64, key, -, -, -, rfl⟩
      · exact h
      · exact fun hactive => ⟨(h hactive).expected, (h hactive).tmpPath, (h hactive).tmpFile,
          (h hactive).crc⟩

/-- Every frame keeps this, whatever the files are. -/
theorem resting_steps (h : Resting w.session.transfer) (hs : Steps ctx frame w w') :
    Resting w'.session.transfer := by
  cases hs with
  | locked hv ht hstep =>
      exact resting_reset ((congrArg Core.transfer hstep.core_eq).trans ht)
  | handled hv hstep =>
      cases hstep with
      | short hlen hstep =>
          have ht : w'.session.transfer = w.session.transfer := congrArg Core.transfer hstep.core_eq
          rw [ht]
          exact h
      | routed hlen hstep =>
          rcases routed_cases hstep with hstep | hreset | ⟨-, -, hstep⟩
          · rw [hstep.transfer]
            exact h
          · exact resting_reset hreset
          · exact resting_uploads (w := noteIdentity (parseFrame frame) w) h hstep
      | raised hlen u hstep hcause hend =>
          cases hend with
          | dropped hactive hdrop => exact resting_reset hdrop.transfer
          | kept hactive hkept =>
              have ht : w'.session.transfer = u.session.transfer := congrArg Core.transfer hkept
              have hbefore : Resting (noteIdentity (parseFrame frame) w).session.transfer := h
              obtain ⟨hw, key, name, idHex, hu⟩ := broke_fields hbefore.later hstep hactive
              have hrested := hbefore hw
              intro _
              rw [ht, hu]
              exact ⟨hrested.expected, hrested.tmpPath, hrested.tmpFile, hrested.crc⟩

end

/-- What every run keeps, whatever the sessions do to each other's files. -/
structure Tidy (s : System) : Prop where
  plain : FileSystem.Plain s.files
  resting : ∀ i, Resting (s.sessions i).transfer
  handles : ∀ i, ∀ m ∈ (s.sessions i).transfer.uploadTmpFile, m < s.files.nextInode

theorem tidy_run (env : Env) (b : Boot) (hfs : FileSystem.Plain b.files) (as : List Arrival) :
    Tidy (b.system.run env as) := by
  induction as using List.reverseRecOn with
  | nil =>
      refine ⟨hfs, fun i => resting_reset (w := b.system.world i) rfl, fun i m hm => ?_⟩
      cases hm
  | append_singleton as a ih =>
      have hsteps : Steps ⟨env, a.out⟩ a.frame ((b.system.run env as).world a.connection)
          (handleFrame ⟨env, a.out⟩ a.frame ((b.system.run env as).world a.connection)).2 :=
        steps_of_sound (sound_runs env b as a.connection) a.frame
      rw [run_snoc]
      generalize b.system.run env as = s at ih hsteps ⊢
      obtain ⟨hplain, hnext, haway, -⟩ := untouched_moves (N := fun _ => False)
        (moves_handleFrame ⟨env, a.out⟩ a.frame (s.world a.connection)) ih.plain
        (fun m hm => ⟨ih.handles a.connection m hm, fun _ hq => hq.elim⟩) fun _ hq => hq.elim
      have hworld : (s.step env a).world a.connection =
          (handleFrame ⟨env, a.out⟩ a.frame (s.world a.connection)).2 := world_step s a
      refine ⟨hplain, fun i => ?_, fun i m hm => ?_⟩
      · by_cases hi : i = a.connection
        · subst hi
          change Resting ((s.step env a).world a.connection).session.transfer
          rw [hworld]
          exact resting_steps (ih.resting a.connection) hsteps
        · rw [sessions_step env hi]
          exact ih.resting i
      · by_cases hi : i = a.connection
        · subst hi
          have hm' : m ∈ ((s.step env a).world a.connection).session.transfer.uploadTmpFile := hm
          rw [hworld] at hm'
          exact (haway m hm').1
        · rw [sessions_step env hi] at hm
          exact (ih.handles i m hm).trans_le hnext

/-! ### The file of an upload among other sessions -/

/-- The paths of an upload: that of its open temporary file, and its final path once
the file is there. -/
inductive Held (t : Transfer) (q : String) : Prop
  | writing (hfile : t.uploadTmpFile.isSome) (hq : t.uploadTmpPath = some q)
  | stored (hcrc : t.uploadCrc.isSome) (hq : t.uploadPath = some q)

/-- The frame leaves the upload of session `i` alone: a frame of another session opens,
renames and removes nothing at its paths, and a first packet of its own opens a file that
no other session has open. -/
structure Undisturbed (env : Env) (i : ℕ) (s : System) (a : Arrival) : Prop where
  others : a.connection ≠ i → ∀ q, Held (s.sessions i).transfer q →
    ∀ op ∈ newOps s.files (s.step env a).files, ¬ Mentions q op
  own : a.connection = i → ∀ clientId p,
    (reasons ⟨env, a.out⟩ a.frame (s.world i)).opens clientId p →
    ∀ j ≠ i, ∀ h ∈ (s.sessions j).transfer.uploadTmpFile,
      s.files.entry (tmpPath (hex clientId) p.fileName (s.sessions i).connectionId) ≠ some h

/-- The file of session `i` is `k`, and no other session has it open. -/
structure Guarded (s : System) (i : ℕ) (k : Option ℕ) : Prop where
  plain : FileSystem.Plain s.files
  sound : Sound (s.world i)
  stage : Stage (SessionFrames.core (s.world i))
  ledger : Ledger (SessionFrames.core (s.world i)) k
  others : ∀ j ≠ i, ∀ h ∈ (s.sessions j).transfer.uploadTmpFile,
    h < s.files.nextInode ∧ k ≠ some h

section
variable {env : Env} {s : System} {i : ℕ} {k : Option ℕ} {a : Arrival}

/-- The file of an upload is at one of its paths. -/
theorem held_of_entry {w : World} {inode : ℕ} {q : String}
    (hl : Ledger (SessionFrames.core w) (some inode)) (hplain : FileSystem.Plain w.files)
    (hq : w.files.entry q = some inode) : Held w.session.transfer q := by
  cases hl with
  | writing tmp _ h =>
      rw [hplain.distinct q tmp inode hq h.entry]
      exact .writing (by rw [show w.session.transfer.uploadTmpFile = _ from h.file]; rfl)
        h.tmpPath_eq
  | deposited path _ h =>
      rw [hplain.distinct q path inode hq h.entry]
      exact .stored (by rw [show w.session.transfer.uploadCrc = _ from h.crc]; rfl) h.path_eq

/-- The stage depends on the transfer and the open file. -/
theorem stage_files {c c' : SessionFrames.Core} (h : Stage c) (ht : c'.transfer = c.transfer)
    (hf : c.transfer.uploadTmpFile.isSome → ∀ t ∈ c.transfer.uploadTmpPath,
      c'.files.entry t = c.files.entry t) : Stage c' := by
  cases h with
  | idle h₁ h₂ h₃ => exact .idle (ht ▸ h₁) (ht ▸ h₂) (ht ▸ h₃)
  | waiting m n h =>
      refine .waiting m n ⟨ht ▸ h.active, ht ▸ h.expected, ht ▸ h.total, h.within,
        ht ▸ h.openFile, fun tmp htmp => ?_⟩
      rw [ht] at htmp
      rw [hf h.openFile.file tmp htmp]
      exact h.present tmp htmp
  | complete m n h₁ h₂ h₃ h₄ h₅ => exact .complete m n (ht ▸ h₁) (ht ▸ h₂) (ht ▸ h₃) h₄ (ht ▸ h₅)

theorem change_origFileSize (r : UploadRow) (c : UploadChange) :
    (r.change c).origFileSize = r.origFileSize := by
  cases c <;> rfl

/-- Changes leave the size of a row. -/
theorem size_of_changes {mine : ℕ → Prop} {rows rows' : List UploadRow}
    (h : RowChanges mine rows rows') {id : ℕ} (hid : id ∈ rows.map UploadRow.id) :
    ∀ r' ∈ rows', r'.id = id → ∃ r ∈ rows, r.id = id ∧ r.origFileSize = r'.origFileSize := by
  induction h with
  | refl => exact fun r hr hid => ⟨r, hr, hid, rfl⟩
  | tail hall hstep ih =>
      intro r' hr' hid'
      cases hstep with
      | inserted r hnew _ =>
          rcases List.mem_append.mp hr' with hr' | hr'
          · exact ih r' hr' hid'
          · have hthere := ids_of_changes hall hid
            rw [← hid', List.mem_singleton.mp hr'] at hthere
            exact (hnew hthere).elim
      | concluded id' c _ _ _ =>
          rcases mem_changeRows hr' with hr' | ⟨r₀, hr₀, -, rfl⟩
          · exact ih r' hr' hid'
          · rw [UploadRow.change_id] at hid'
            rw [change_origFileSize]
            exact ih r₀ hr₀ hid'

/-- A frame of another session. -/
theorem guarded_other (hapart : Apart s) (h : Guarded s i k) (hi : a.connection ≠ i)
    (hclear : Undisturbed env i s a) : Guarded (s.step env a) i k := by
  have hsession : (s.step env a).sessions i = s.sessions i := sessions_step env hi.symm
  -- the paths to be left alone are those of the file of session `i`
  have hmoves := moves_handleFrame ⟨env, a.out⟩ a.frame (s.world a.connection)
  have haway : HandleAway (fun q => ∃ inode, k = some inode ∧ s.files.entry q = some inode)
      (s.world a.connection) := by
    intro m hm
    obtain ⟨hlt, hne⟩ := h.others a.connection hi m hm
    refine ⟨hlt, ?_⟩
    rintro q ⟨inode, rfl, hq⟩ hsame
    exact hne (hq.symm.trans hsame)
  obtain ⟨hplain, hnext, haway', hsame⟩ := unnamed_moves hmoves h.plain haway (by
    rintro op hop q ⟨inode, rfl, hq⟩
    exact hclear.others hi q (held_of_entry h.ledger h.plain hq) op hop)
  have hkept {q : String} {inode : ℕ} (hk : k = some inode) (hq : s.files.entry q = some inode) :
      (s.step env a).files.entry q = some inode ∧
        (s.step env a).files.content inode = s.files.content inode := by
    obtain ⟨hentry, hcontent⟩ := hsame q ⟨inode, hk, hq⟩
    exact ⟨hentry.trans hq, hcontent inode hq⟩
  have htransfer : ((s.step env a).world i).session.transfer = (s.world i).session.transfer :=
    congrArg Session.transfer hsession
  refine ⟨hplain, ?_, stage_files h.stage htransfer ?_, ledger_congr h.ledger htransfer
    (fun q inode hk hq => hkept hk hq) ?_, ?_⟩
  · have hsound := h.sound
    unfold Sound at hsound ⊢
    rwa [show ((s.step env a).world i).session = (s.world i).session from hsession]
  · intro hfile t ht
    obtain ⟨m, hm⟩ := Option.isSome_iff_exists.mp hfile
    obtain ⟨hk, tmp, htmp, hentry⟩ := h.ledger.handle hm
    cases htmp.symm.trans ht
    exact (hkept hk hentry).1.trans hentry.symm
  · intro hfits id hid r' hr' hrid
    have hid' : (s.sessions i).transfer.uploadId = some id := by
      rw [← hsession]
      exact hid
    obtain ⟨r₀, hr₀, hid₀, -⟩ := (hapart.live i).row id hid'
    obtain ⟨r, hr, hrid', hsize⟩ := size_of_changes (good_step env hapart a).1.rows
      (hid₀ ▸ List.mem_map_of_mem hr₀) r' hr' hrid
    rw [← hsize]
    exact (congrArg Transfer.expectedOrigFileSize htransfer).trans (hfits id hid' r hr hrid')
  · intro j hj m hm
    by_cases hja : j = a.connection
    · subst hja
      have hm' : m ∈ ((s.step env a).world a.connection).session.transfer.uploadTmpFile := hm
      rw [world_step] at hm'
      obtain ⟨hlt, hnot⟩ := haway' m hm'
      refine ⟨hlt, ?_⟩
      rintro rfl
      obtain ⟨q, hq⟩ : ∃ q, s.files.entry q = some m := by
        cases h.ledger with
        | writing tmp _ hw => exact ⟨tmp, hw.entry⟩
        | deposited path _ hd => exact ⟨path, hd.entry⟩
      exact hnot q ⟨m, rfl, hq⟩ (hkept rfl hq).1
    · have hsame : (s.step env a).sessions j = s.sessions j := sessions_step env hja
      rw [hsame] at hm
      obtain ⟨hlt, hne⟩ := h.others j hj m hm
      exact ⟨hlt.trans_le hnext, hne⟩

/-- A frame of the session itself. -/
theorem guarded_own (h : Guarded s a.connection k) (hclear : Undisturbed env a.connection s a) :
    ∃ k', Guarded (s.step env a) a.connection k' := by
  have hsteps : Steps ⟨env, a.out⟩ a.frame (s.world a.connection)
      ((s.step env a).world a.connection) := by
    rw [world_step]
    exact steps_of_sound h.sound a.frame
  -- a file that the frame opens is none that another session has open
  have hopens : ∀ clientId p,
      (reasons ⟨env, a.out⟩ a.frame (s.world a.connection)).opens clientId p →
      ∀ j ≠ a.connection, ∀ m ∈ (s.sessions j).transfer.uploadTmpFile,
        openedFile clientId p (s.world a.connection) ≠ m := by
    rintro clientId p hop j hj m hm rfl
    have hnot := hclear.own rfl clientId p hop j hj _ hm
    rcases hentry : s.files.entry (tmpPath (hex clientId) p.fileName
        (s.sessions a.connection).connectionId) with _ | inode
    · have hfresh : openedFile clientId p (s.world a.connection) = s.files.nextInode :=
        congrArg Prod.fst (create_none hentry)
      exact absurd (hfresh ▸ (h.others j hj _ hm).1) (lt_irrefl _)
    · have hthere : openedFile clientId p (s.world a.connection) = inode :=
        congrArg Prod.fst (create_some hentry)
      exact hnot (hentry.trans (congrArg some hthere.symm))
  have hafter : LedgerAfter (fun n => ∀ j ≠ a.connection,
      ∀ m ∈ (s.sessions j).transfer.uploadTmpFile, n ≠ m) k
        ((s.step env a).world a.connection) := ledger_steps h.stage h.ledger hopens hsteps
  obtain ⟨k', hledger, hpassed⟩ := hafter
  have haway : HandleAway (fun _ => False) (s.world a.connection) := by
    intro m hm
    obtain ⟨-, tmp, -, hentry⟩ := h.ledger.handle hm
    exact ⟨h.plain.bounded tmp m hentry, fun _ hq => hq.elim⟩
  obtain ⟨hplain, hnext, -, -⟩ :=
    untouched_moves (moves_handleFrame ⟨env, a.out⟩ a.frame (s.world a.connection)) h.plain haway
      fun _ hq => hq.elim
  refine ⟨k', hplain, ?_, stage_steps h.stage hsteps, hledger, fun j hj m hm => ?_⟩
  · rw [world_step]
    exact sound_handleFrame h.sound a.frame
  · have hsame : (s.step env a).sessions j = s.sessions j := sessions_step env hj
    rw [hsame] at hm
    obtain ⟨hlt, hne⟩ := h.others j hj m hm
    refine ⟨hlt.trans_le hnext, ?_⟩
    cases hpassed with
    | same => exact hne
    | gone => exact fun hno => by cases hno
    | opened n hn => exact fun hno => hn j hj m hm (Option.some.inj hno)

/-- The frames of a run from a state leave the upload of session `i` alone. -/
def UndisturbedRun (env : Env) (i : ℕ) : System → List Arrival → Prop
  | _, [] => True
  | s, a :: as => Undisturbed env i s a ∧ UndisturbedRun env i (s.step env a) as

/-- Before an upload begins there is no file to be guarded. -/
theorem guarded_start (env : Env) (b : Boot) (hfs : FileSystem.Plain b.files) (as : List Arrival)
    (hidle : ((b.system.run env as).sessions i).transfer.uploadActive = false) :
    Guarded (b.system.run env as) i none := by
  have htidy := tidy_run env b hfs as
  have hrested := htidy.resting i hidle
  refine ⟨htidy.plain, sound_runs env b as i, .idle hidle hrested.expected hrested.tmpPath,
    .idle hidle hrested.tmpFile hrested.crc, fun j _ m hm => ⟨htidy.handles j m hm, fun hno => ?_⟩⟩
  cases hno

theorem guarded_run (env : Env) (b : Boot) (before during : List Arrival) {k : Option ℕ}
    (h : Guarded (b.system.run env before) i k)
    (hclear : UndisturbedRun env i (b.system.run env before) during) :
    ∃ k', Guarded (b.system.run env (before ++ during)) i k' := by
  induction during generalizing before k with
  | nil =>
      rw [List.append_nil]
      exact ⟨k, h⟩
  | cons a during ih =>
      obtain ⟨hfirst, hrest⟩ := hclear
      obtain ⟨k', hnext⟩ : ∃ k', Guarded (b.system.run env (before ++ [a])) i k' := by
        rw [run_snoc]
        by_cases hi : a.connection = i
        · subst hi
          exact guarded_own h hfirst
        · exact ⟨k, guarded_other (apart_run env (apart_boot b) before) h hi hfirst⟩
      rw [← run_snoc] at hrest
      have hall := ih (before ++ [a]) hnext hrest
      rwa [List.append_assoc] at hall

end

/-- For any number of sessions and any interleaving of their frames: if the upload of a
session has been left alone since a moment when the session had none, a row that a frame
of this session completes describes the file at its path, whatever happened before. -/
theorem completed_record_describes_file (env : Env) (b : Boot) (hfs : FileSystem.Plain b.files)
    (before during : List Arrival) (a : Arrival)
    (hidle : ((b.system.run env before).sessions a.connection).transfer.uploadActive = false)
    (hclear : UndisturbedRun env a.connection (b.system.run env before) during) (r : UploadRow)
    (hr : r ∈ (b.system.run env (before ++ during ++ [a])).store.working.uploads)
    (hdone : r.status = .completed)
    (hnew : r ∉ (b.system.run env (before ++ during)).store.working.uploads) :
    (parseFrame a.frame).code = 900 ∧
      Describes (b.system.run env (before ++ during ++ [a])).files r := by
  obtain ⟨k, hk⟩ := guarded_run env b before during (guarded_start env b hfs before hidle) hclear
  rw [run_snoc] at hr ⊢
  generalize b.system.run env (before ++ during) = s at hk hr hnew ⊢
  rcases done_handleFrame ⟨env, a.out⟩ a.frame (s.world a.connection) with hno | ⟨hcode, hyes⟩
  · exact (hnew (hno r hr hdone)).elim
  refine ⟨hcode, ?_⟩
  obtain hold | ⟨r₀, hr₀, path, crc, hid, hpath, hcrc, hstored, hserver, hsize⟩ := hyes r hr hdone
  · exact (hnew hold).elim
  -- the upload is stored, and a request 900 touches no file of it
  cases hk.ledger with
  | idle _ _ hnone => cases hnone.symm.trans hcrc
  | writing tmp inode hw => cases hw.unstored.symm.trans hcrc
  | deposited path' inode hd =>
      cases hd.path_eq.symm.trans hpath
      have hnot828 : (parseFrame a.frame).code ≠ 828 := by
        rw [hcode]
        decide
      have haway : HandleAway (· = path) (s.world a.connection) := by
        intro m hm
        cases hd.file.symm.trans hm
      obtain ⟨-, -, -, hsame⟩ :=
        untouched_moves (moves_handleFrame ⟨env, a.out⟩ a.frame (s.world a.connection)) hk.plain
          haway (by
            intro q _ htouch
            cases htouch with
            | tracked h => cases hd.moved.symm.trans h
            | opens clientId p h _ => exact hnot828 h.2.1
            | stores h _ => exact hnot828 h.2.1
            | storesAtOnce h _ _ _ _ => exact hnot828 h.2.1)
      have hread : (s.step env a).files.read path = some (s.files.content inode) := by
        have hbefore : s.files.read path = some (s.files.content inode) := by
          rw [FileSystem.read, show s.files.entry path = _ from hd.entry, Option.map_some]
        exact (hsame path rfl).read_eq.trans hbefore
      refine ⟨s.files.content inode, ?_, ?_, ?_⟩
      · rw [hstored]
        exact hread
      · rw [hserver, ← Option.some.inj (hcrc.symm.trans hd.crc).symm]
        rfl
      · have hfits := hd.row r₀.id hid r₀ hr₀ rfl
        rw [hsize]
        exact Option.some.inj (hd.size.symm.trans hfits)

/-! ### Two sessions that upload one file -/

/-- One client with two connections. -/
def twoConnections : Boot :=
  { aliceBoot with connectionIds := fun i => if i = 0 then "c1" else "c2" }

/-- The handshake and an upload of `f` on a connection, with its vector. -/
def uploadOn (i : ℕ) (vector : Bytes) : List Arrival :=
  (aliceUpload.take 2 ++ [alicePacket 0 vector, alicePacket 1 firstChunk,
    alicePacket 2 lastChunk]).map (onConnection i)

def confirmOn (i : ℕ) : Arrival := onConnection i (aliceRequest 900 (utf8Encode "f"))

/-- Packet `num` of two for the file `g` of 17 bytes. -/
def otherPacket (num : ℕ) (chunk : Bytes) : Event :=
  aliceRequest 828 (leBytes 4 32 ++ leBytes 4 17 ++ leBytes 2 num ++ leBytes 2 2 ++
    utf8Encode "g" ++ [0] ++ chunk)

/-- Both sessions upload `f`, and the second stores its file before the first confirms. -/
def disturbed : List Arrival :=
  uploadOn 0 (List.replicate 16 9) ++ uploadOn 1 (List.replicate 16 8) ++ [confirmOn 0]

/-- The first session uploads `f` again while the second one confirms its file and
uploads `g`. -/
def apart : List Arrival :=
  [confirmOn 1, onConnection 0 (alicePacket 0 (List.replicate 16 7)),
    onConnection 1 (otherPacket 0 (List.replicate 16 6)), onConnection 0 (alicePacket 1 firstChunk),
    onConnection 1 (otherPacket 1 firstChunk), onConnection 0 (alicePacket 2 lastChunk),
    onConnection 1 (otherPacket 2 lastChunk)]

/-- A frame that can be seen to leave the upload of session `i` alone: a frame of another
session names none of its paths, and one of its own opens a file that is not there. -/
def Spares (env : Env) (i : ℕ) (s : System) (a : Arrival) : Prop :=
  if a.connection = i then
    ∀ p ∈ (parse828 (parseFrame a.frame).payload).toOption, p.packetNum = 1 →
      s.files.entry (tmpPath (hex (parseFrame a.frame).clientId) p.fileName
        (s.sessions i).connectionId) = none
  else
    ∀ q ∈ (s.sessions i).transfer.uploadTmpPath.toList ++ (s.sessions i).transfer.uploadPath.toList,
      ∀ op ∈ newOps s.files (s.step env a).files, ¬ Mentions q op

instance (q : String) : (op : PathOp) → Decidable (Mentions q op)
  | .opened _ => inferInstanceAs (Decidable (_ = _))
  | .replaced _ _ => inferInstanceAs (Decidable (_ ∨ _))
  | .removed _ => inferInstanceAs (Decidable (_ = _))

instance (env : Env) (i : ℕ) (s : System) (a : Arrival) : Decidable (Spares env i s a) :=
  inferInstanceAs (Decidable (ite _ _ _))

def SparesRun (env : Env) (i : ℕ) : System → List Arrival → Prop
  | _, [] => True
  | s, a :: as => Spares env i s a ∧ SparesRun env i (s.step env a) as

instance SparesRun.decidable (env : Env) (i : ℕ) : (s : System) → (as : List Arrival) →
    Decidable (SparesRun env i s as)
  | _, [] => inferInstanceAs (Decidable True)
  | s, a :: as =>
      have := SparesRun.decidable env i (s.step env a) as
      inferInstanceAs (Decidable (_ ∧ _))

theorem undisturbed_of_spares {env : Env} {s : System} {a : Arrival} {i : ℕ}
    (h : Spares env i s a) : Undisturbed env i s a := by
  constructor
  · intro hi q hq
    unfold Spares at h
    rw [if_neg hi] at h
    apply h q
    cases hq with
    | writing _ h => exact List.mem_append_left _ (Option.mem_toList.mpr h)
    | stored _ h => exact List.mem_append_right _ (Option.mem_toList.mpr h)
  · rintro rfl clientId p ⟨-, -, rfl, t, hbegins⟩ j _ m _ hthere
    unfold Spares at h
    rw [if_pos rfl] at h
    have hnone := h p (by rw [hbegins.parses]; rfl) hbegins.first
    rw [hthere] at hnone
    cases hnone

theorem undisturbedRun_of_spares {env : Env} {s : System} {as : List Arrival} {i : ℕ}
    (h : SparesRun env i s as) : UndisturbedRun env i s as := by
  induction as generalizing s with
  | nil => trivial
  | cons a as ih => exact ⟨undisturbed_of_spares h.1, ih h.2⟩

/-- The second upload of the first session was left alone, although another session was
uploading and the first upload was disturbed. -/
theorem completed_record_describes_file_alice :
    ∃ r ∈ (twoConnections.system.run plainEnv (disturbed ++ apart ++
        [confirmOn 0])).store.working.uploads,
      r.id = 3 ∧ r.status = .completed ∧ r.storedPath = some alicePath ∧
      Describes
        (twoConnections.system.run plainEnv (disturbed ++ apart ++ [confirmOn 0])).files r := by
  obtain ⟨hspares, hidle, hrow⟩ :
      SparesRun plainEnv (confirmOn 0).connection (twoConnections.system.run plainEnv disturbed)
        apart ∧
      ((twoConnections.system.run plainEnv disturbed).sessions
        (confirmOn 0).connection).transfer.uploadActive = false ∧
      ∃ r ∈ (twoConnections.system.run plainEnv (disturbed ++ apart ++
        [confirmOn 0])).store.working.uploads, r.id = 3 ∧ r.status = .completed ∧
        r.storedPath = some alicePath ∧
        r ∉ (twoConnections.system.run plainEnv (disturbed ++ apart)).store.working.uploads := by
    decide +kernel
  have hplain : FileSystem.Plain twoConnections.files :=
    ⟨(fun _ _ h => by cases h), (fun _ _ _ h => by cases h)⟩
  obtain ⟨r, hr, hid, hdone, hpath, hnew⟩ := hrow
  exact ⟨r, hr, hid, hdone, hpath, (completed_record_describes_file plainEnv twoConnections hplain
    disturbed apart (confirmOn 0) hidle (undisturbedRun_of_spares hspares) r hr hdone hnew).2⟩

/-- Both sessions upload `f`, and the second stores its file before the first has
confirmed: the row completed by the first has the checksum of a file that is gone. -/
theorem completed_record_of_replaced_file :
    ∃ r ∈ (twoConnections.system.run plainEnv disturbed).store.working.uploads,
      r.status = .completed ∧
      r ∉ (twoConnections.system.run plainEnv (uploadOn 0 (List.replicate 16 9) ++
        uploadOn 1 (List.replicate 16 8))).store.working.uploads ∧
      r.storedPath = some alicePath ∧
      ¬ Describes (twoConnections.system.run plainEnv disturbed).files r := by
  decide +kernel

end Seftp.CompletedRecords
