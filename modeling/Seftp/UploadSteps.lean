import Seftp.HandlerFrames

/-!
# What the upload handlers do

One specification for each part of request 828, for returning and for raising
runs. A refusal first records and reports the failure, which may raise, and then
gives the slot back and resets, which may not. A raise names what must have gone
wrong: its postcondition denies the conditions under which the part returns.
-/
namespace Seftp.UploadSteps
open LittleEndian ExceptState OutsideWorld BlockChaining Checksum Text Protocol ClientStore
open StoreFrames ServerSession Answers SessionFrames AccountHandlers UploadHandlers HandlerFrames

/-! ### Reset and release -/

/-- The world after `reset_transfer_state`. -/
def resetWorld (ctx : Ctx) (w : World) : World :=
  (w.setFiles (dropTmpFile ctx w.session.transfer w.files).2).setTransfer {}

/-- The world after `release_upload_slot`. -/
def releaseWorld (w : World) : World :=
  if w.session.hasUploadSlot then
    { w with session := { w.session with hasUploadSlot := false }, limiter := w.limiter.release }
  else w

section
variable {ctx : Ctx} {w : World} {clientId version : Bytes}

/-- Closing and removing the temporary file never raises. -/
theorem dropTmpFile_ok (t : Transfer) (fs : FileSystem) :
    wp (dropTmpFile ctx t) (fun _ _ => True) (fun _ _ => False) fs := by
  have hpass (x : FileProg Unit) (fs : FileSystem) :
      wp (attempt x fun _ => pure ()) (fun _ _ => True) (fun _ _ => False) fs := by
    simp only [wp_attempt, wp_pure]
    exact wp_state.mpr trivial
  have hremove (fs : FileSystem) :
      wp (removeTmpFile ctx t) (fun _ _ => True) (fun _ _ => False) fs := by
    unfold removeTmpFile
    rcases t.uploadTmpPath with _ | path
    · exact (wp_pure ()).mpr trivial
    · exact hpass _ fs
  rw [dropTmpFile, wp_bind]
  have hclose : wp (closeTmpFile ctx t) (fun _ _ => True) (fun _ _ => False) fs := by
    unfold closeTmpFile
    rcases t.uploadTmpFile with _ | file
    · exact (wp_pure ()).mpr trivial
    · exact hpass _ fs
  exact wp_mono hclose (fun _ fs' _ => hremove fs') (fun _ _ h => h)

theorem resetTransferState_eq : resetTransferState ctx w = (.ok (), resetWorld ctx w) := by
  have hok : wp (dropTmpFile ctx w.session.transfer) (fun _ _ => True) (fun _ _ => False)
      w.files := dropTmpFile_ok _ _
  rcases hd : dropTmpFile ctx w.session.transfer w.files with ⟨e | _, fs⟩
  · rw [wp_of_eq_error hd] at hok
    exact hok.elim
  have hf : onFiles (dropTmpFile ctx w.session.transfer) w = (.ok (), w.setFiles fs) := by
    simp only [onFiles, zoom, hd]
  have hr : resetTransferState ctx w =
      (onFiles (dropTmpFile ctx w.session.transfer) >>= fun _ => onTransfer fun _ => {}) w := rfl
  rw [hr, bind_ok hf, resetWorld, hd]
  rfl

@[simp] theorem wp_reset {Q : Unit → World → Prop} {E : PyError → World → Prop} :
    wp (resetTransferState ctx) Q E w ↔ Q () (resetWorld ctx w) := wp_of_eq_ok resetTransferState_eq

@[simp] theorem wp_release {Q : Unit → World → Prop} {E : PyError → World → Prop} :
    wp releaseUploadSlot Q E w ↔ Q () (releaseWorld w) := by
  rw [releaseUploadSlot, wp_update]
  rfl

@[simp] theorem wp_abandon {Q : Unit → World → Prop} {E : PyError → World → Prop} :
    wp (abandon ctx) Q E w ↔ Q () (resetWorld ctx (releaseWorld w)) := by
  rw [abandon, wp_bind, wp_release, wp_reset]

@[simp] theorem resetWorld_transfer : (resetWorld ctx w).session.transfer = {} := rfl

@[simp] theorem resetWorld_slot :
    (resetWorld ctx w).session.hasUploadSlot = w.session.hasUploadSlot := rfl

@[simp] theorem resetWorld_store : (resetWorld ctx w).store = w.store := rfl

@[simp] theorem resetWorld_sent : (resetWorld ctx w).session.sent = w.session.sent := rfl

@[simp] theorem releaseWorld_slot : (releaseWorld w).session.hasUploadSlot = false := by
  unfold releaseWorld
  split_ifs with h
  · rfl
  · simpa using h

@[simp] theorem releaseWorld_store : (releaseWorld w).store = w.store := by
  unfold releaseWorld
  split <;> rfl

@[simp] theorem releaseWorld_sent : (releaseWorld w).session.sent = w.session.sent := by
  unfold releaseWorld
  split <;> rfl

/-! ### Silent steps -/

/-- A step that changes the core by `f` and sends nothing. -/
structure Does (f : SessionFrames.Core → SessionFrames.Core) (w w' : World) : Prop where
  core_eq : SessionFrames.core w' = f (SessionFrames.core w)
  sent : w'.session.sent = w.session.sent

theorem Does.refl (w : World) : Does id w w := ⟨rfl, rfl⟩

theorem Does.trans {f g : SessionFrames.Core → SessionFrames.Core} {u v : World} (h : Does f w u)
    (h' : Does g u v) : Does (fun c => g (f c)) w v :=
  ⟨by rw [h'.core_eq, h.core_eq], h'.sent.trans h.sent⟩

/-- A change of the transfer, on cores. -/
def withTransfer (g : Transfer → Transfer) (c : SessionFrames.Core) : SessionFrames.Core :=
  { c with transfer := g c.transfer }

/-- A change of the files, on cores. -/
def withFiles (g : FileSystem → FileSystem) (c : SessionFrames.Core) : SessionFrames.Core :=
  { c with files := g c.files }

/-- A step that changes the core by `f` and sends `ms`. -/
structure Says (ms : List Bytes) (f : SessionFrames.Core → SessionFrames.Core) (w w' : World) :
    Prop where
  core_eq : SessionFrames.core w' = f (SessionFrames.core w)
  sent : w'.session.sent = w.session.sent ++ ms

theorem Does.tells {f : SessionFrames.Core → SessionFrames.Core} {ms : List Bytes} {u v : World}
    (h : Does f w u) (h' : Tells ms u v) : Says ms f w v :=
  ⟨h'.core_eq.trans h.core_eq, by rw [h'.sent, h.sent]⟩

theorem does_of_tells {u : World} (h : Tells [] w u) : Does id w u :=
  ⟨h.core_eq, by rw [h.sent, List.append_nil]⟩

theorem wp_onTransfer (g : Transfer → Transfer) :
    wp (onTransfer g) (fun _ w' => Does (withTransfer g) w w') (fun _ _ => False) w := by
  rw [onTransfer, wp_update]
  exact ⟨rfl, rfl⟩

theorem wp_logEvent (key : LogKey) (event : String) :
    wp (logEvent ctx key event) (fun _ w' => Does id w w') (fun _ _ => False) w := by
  rw [logEvent, wp_update]
  exact ⟨rfl, rfl⟩

/-! ### Responses that go out -/

/-- During the frame responses are sent and store calls succeed. -/
structure Answering (ctx : Ctx) (w : World) (clientId version : Bytes) : Prop where
  sends : ctx.out.SendsWork
  sql : ctx.out.SqlWorks
  indexed : (StoreFrames.core w.store).Indexed
  version : version.length = 1
  clientId : clientId.length = 16

theorem Answering.of_store {u : World} (h : Answering ctx w clientId version)
    (hs : ∃ us, StoreFrames.core u.store = { StoreFrames.core w.store with uploads := us }) :
    Answering ctx u clientId version := by
  obtain ⟨us, hus⟩ := hs
  exact { h with indexed := by rw [hus]; exact h.indexed }

theorem Answering.of_core {u : World} (h : Answering ctx w clientId version)
    (hc : SessionFrames.core u = SessionFrames.core w) : Answering ctx u clientId version :=
  h.of_store ⟨_, congrArg Core.store hc⟩

/-- A text that fits a message with a client id. -/
def Short (text : String) : Prop := (utf8Encode text).length < 2 ^ 31

instance (text : String) : Decidable (Short text) := inferInstanceAs (Decidable (_ < _))

theorem touchKnown_returns (h : Answering ctx w clientId version) :
    wp (touchKnown ctx clientId) (fun _ _ => True) (fun _ _ => False) w := by
  simp only [touchKnown, wp_bind, wp_look]
  rcases w.store.getClientById (hex clientId) with _ | r
  · exact (wp_pure ()).mpr trivial
  · simp only [wp_bind, wp_pure, onStore, wp_zoom]
    exact touch_returns h.sql h.indexed

theorem wp_touch (idHex : String) :
    wp (onStore (touchClientLastSeen ctx.out idHex)) (fun _ u => Does id w u)
      (fun _ u => Does id w u ∧ ¬ (ctx.out.SqlWorks ∧ (StoreFrames.core w.store).Indexed)) w := by
  have hreturns (h : ctx.out.SqlWorks ∧ (StoreFrames.core w.store).Indexed) :
      wp (onStore (touchClientLastSeen ctx.out idHex)) (fun _ _ => True) (fun _ _ => False) w := by
    rw [onStore, wp_zoom]
    exact touch_returns h.1 h.2
  exact wp_mono (wp_blame ((tells_touch idHex).wp w) hreturns)
    (fun _ _ h => does_of_tells h) (fun _ _ h => ⟨does_of_tells h.1, h.2⟩)

/-- The message of a 1607. -/
def errorMessage (clientId version : Bytes) (text : String) : Bytes :=
  message version .error (clientId ++ utf8Encode text)

theorem tells_answer1607 (text : String) :
    wp (answer1607 ctx clientId version text)
      (fun _ w' => Tells [errorMessage clientId version text] w w')
      (fun _ w' => SessionFrames.core w' = SessionFrames.core w) w := by
  simp only [answer1607, wp_bind]
  rcases hm : messageAnswer version .error _ (clientId ++ utf8Encode text) with e | m
  · rw [wp_ofExcept_error]
  obtain ⟨-, -, -, rfl⟩ := messageAnswer_ok.mp hm
  rw [wp_ofExcept_ok]
  apply wp_mono (tells_touchKnown.wp w)
  · intro _ t ht
    apply wp_mono ((tells_logEvent _ _).wp t)
    · intro _ u hu
      have hq := ht.trans hu
      exact wp_mono ((tells_send message_ne_nil).wp u) (fun _ _ h => hq.trans h)
        (fun _ _ h => (hq.trans h).core_eq)
    · exact fun _ _ h => (ht.trans h).core_eq
  · exact fun _ _ h => h.core_eq

theorem answer1607_returns {text : String} (h : Answering ctx w clientId version)
    (ht : Short text) :
    wp (answer1607 ctx clientId version text) (fun _ _ => True) (fun _ _ => False) w := by
  have hm : messageAnswer version .error (clientId ++ utf8Encode text).length
      (clientId ++ utf8Encode text) = .ok (errorMessage clientId version text) := by
    refine messageAnswer_ok.mpr ⟨h.version, rfl, ?_, rfl⟩
    have hc := h.clientId
    unfold Short at ht
    rw [List.length_append]
    omega
  simp only [answer1607, wp_bind, hm, wp_ofExcept_ok]
  apply wp_mono (touchKnown_returns h)
  · intro _ t _
    simp only [logEvent, wp_update]
    exact send_returns h.sends
  · exact fun _ _ h => h

/-- A 1607 that goes out, or what must be wrong. -/
theorem wp_answer1607 (text : String) :
    wp (answer1607 ctx clientId version text)
      (fun _ w' => Tells [errorMessage clientId version text] w w')
      (fun _ w' => SessionFrames.core w' = SessionFrames.core w ∧
        ¬ (Answering ctx w clientId version ∧ Short text)) w :=
  wp_blame (tells_answer1607 text) fun h => answer1607_returns h.1 h.2

/-! ### Refusals -/

/-- The rows after the failure of the tracked upload `id` has been recorded. -/
def Recorded (failure : Option String) (id : Option ℕ) (connected : Bool)
    (rows rows' : List UploadRow) : Prop :=
  match failure with
  | none => rows' = rows
  | some reason =>
      if id.isSome ∧ connected then
        ∃ time, rows' = changeRows id (.fail reason .failed time) rows
      else rows' = rows

/-- A refused request: the failure is recorded and reported, the slot is free and
the transfer is as in a new session. -/
structure Refused (clientId version : Bytes) (r : Refusal) (w w' : World) : Prop where
  transfer : w'.session.transfer = {}
  slot : w'.session.hasUploadSlot = false
  rows : Recorded r.failure w.session.transfer.uploadId w.store.connected
    w.store.working.uploads w'.store.working.uploads
  sent : w'.session.sent = w.session.sent ++ (r.answer.map (errorMessage clientId version)).toList

/-- A refusal after a step that changed neither the tracked upload nor the store. -/
theorem Refused.after {r : Refusal} {f : SessionFrames.Core → SessionFrames.Core} {u w' : World}
    (h : Refused clientId version r u w') (hd : Does f w u)
    (hid : (f (SessionFrames.core w)).transfer.uploadId = w.session.transfer.uploadId)
    (hstore : (f (SessionFrames.core w)).store = StoreFrames.core w.store) :
    Refused clientId version r w w' := by
  have hu : u.session.transfer.uploadId = w.session.transfer.uploadId :=
    (congrArg (fun c => c.transfer.uploadId) hd.core_eq).trans hid
  have hs : StoreFrames.core u.store = StoreFrames.core w.store :=
    (congrArg Core.store hd.core_eq).trans hstore
  have hrows : u.store.working.uploads = w.store.working.uploads :=
    congrArg StoreFrames.Core.uploads hs
  have hup : u.store.connected = w.store.connected := congrArg StoreFrames.Core.connected hs
  refine ⟨h.transfer, h.slot, ?_, by rw [h.sent, hd.sent]⟩
  have := h.rows
  rwa [hu, hrows, hup] at this

theorem Answering.after {f : SessionFrames.Core → SessionFrames.Core} {u : World}
    (h : Answering ctx w clientId version) (hd : Does f w u)
    (hstore : (f (SessionFrames.core w)).store = StoreFrames.core w.store) :
    Answering ctx u clientId version :=
  h.of_store ⟨_, (congrArg Core.store hd.core_eq).trans hstore⟩

/-- The text a refusal reports is short. -/
def ShortAnswer (r : Refusal) : Prop := ∀ text ∈ r.answer, Short text

theorem wp_bestEffortFailUpload (reason : String) :
    wp (bestEffortFailUpload ctx reason)
      (fun _ u => ∃ rows, Recorded (some reason) w.session.transfer.uploadId w.store.connected
          w.store.working.uploads rows ∧ u = w.setStore u.store ∧
        StoreFrames.core u.store = { StoreFrames.core w.store with uploads := rows })
      (fun _ u => u = w.setStore u.store ∧ ¬ ctx.out.SqlWorks) w := by
  simp only [bestEffortFailUpload, wp_bind, wp_fetch, wp_ite, wp_pure, onStore, wp_zoom,
    failUploadRecord]
  by_cases hid : w.session.transfer.uploadId.isSome
  · rw [if_pos hid]
    apply wp_mono (wp_blame wp_changeUploadRecord changeUploadRecord_returns)
    · rintro b st (⟨-, hdown, rfl⟩ | ⟨-, hup, hch⟩)
      · exact ⟨w.store.working.uploads, by simp [Recorded, hdown], rfl, rfl⟩
      · refine ⟨_, ?_, rfl, hch⟩
        simp only [Recorded, hid, hup, and_self, if_true]
        exact ⟨_, rfl⟩
    · exact fun _ st h => ⟨rfl, h.2⟩
  · rw [if_neg hid]
    exact ⟨w.store.working.uploads, by simp [Recorded, hid], rfl, rfl⟩

theorem wp_recordFailure (failure : Option String) :
    wp (recordFailure ctx failure)
      (fun _ u => ∃ rows, Recorded failure w.session.transfer.uploadId w.store.connected
          w.store.working.uploads rows ∧ u = w.setStore u.store ∧
        StoreFrames.core u.store = { StoreFrames.core w.store with uploads := rows })
      (fun _ u => u = w.setStore u.store ∧ ¬ ctx.out.SqlWorks) w := by
  rcases failure with _ | reason
  · rw [recordFailure, wp_pure]
    exact ⟨w.store.working.uploads, rfl, rfl, rfl⟩
  · exact wp_bestEffortFailUpload reason

theorem wp_sendRefusal (answer : Option String) :
    wp (sendRefusal ctx clientId version answer)
      (fun _ u => Tells (answer.map (errorMessage clientId version)).toList w u)
      (fun _ u => SessionFrames.core u = SessionFrames.core w ∧
        ¬ (Answering ctx w clientId version ∧ ∀ text ∈ answer, Short text)) w := by
  rcases answer with _ | text
  · rw [sendRefusal, wp_pure]
    exact Tells.refl w
  · apply wp_mono (wp_answer1607 text)
    · exact fun _ _ h => h
    · exact fun _ u h => ⟨h.1, fun hg => h.2 ⟨hg.1, hg.2 text rfl⟩⟩

/-- Neither the transfer nor the slot has changed. -/
structure Untouched (w u : World) : Prop where
  transfer : u.session.transfer = w.session.transfer
  slot : u.session.hasUploadSlot = w.session.hasUploadSlot

theorem untouched_of_core {u : World} (h : SessionFrames.core u = SessionFrames.core w) :
    Untouched w u := ⟨congrArg Core.transfer h, congrArg Core.hasUploadSlot h⟩

theorem Untouched.trans {u v : World} (h : Untouched w u) (h' : Untouched u v) : Untouched w v :=
  ⟨h'.transfer.trans h.transfer, h'.slot.trans h.slot⟩

/-- A refusal: record, report, abandon. -/
theorem wp_refuse (r : Refusal) :
    wp (refuse ctx clientId version r) (fun _ w' => Refused clientId version r w w')
      (fun _ u => Untouched w u ∧ ¬ (Answering ctx w clientId version ∧ ShortAnswer r)) w := by
  simp only [refuse, wp_bind, wp_abandon]
  apply wp_mono (wp_recordFailure r.failure)
  · rintro _ u ⟨rows, hrec, hu, hcore⟩
    have htr : u.session.transfer = w.session.transfer := by rw [hu]; rfl
    have hslot : u.session.hasUploadSlot = w.session.hasUploadSlot := by rw [hu]; rfl
    have hsent : u.session.sent = w.session.sent := by rw [hu]; rfl
    apply wp_mono (wp_sendRefusal r.answer)
    · intro _ v hv
      have hrows : v.store.working.uploads = rows :=
        (congrArg (fun c => c.store.uploads) hv.core_eq).trans
          (congrArg StoreFrames.Core.uploads hcore)
      refine ⟨rfl, releaseWorld_slot, ?_, ?_⟩
      · simpa [hrows] using hrec
      · simp [hv.sent, hsent]
    · rintro _ v ⟨hv, hno⟩
      refine ⟨Untouched.trans ⟨htr, hslot⟩ (untouched_of_core hv), fun hg => hno ⟨?_, hg.2⟩⟩
      exact hg.1.of_store ⟨rows, hcore⟩
  · rintro _ u ⟨hu, hno⟩
    exact ⟨⟨by rw [hu]; rfl, by rw [hu]; rfl⟩, fun hg => hno hg.1.sql⟩

/-! ### File operations -/

theorem wp_fileCall {α : Type} {o : Outside} {f : FileSystem → α × FileSystem} {fs : FileSystem}
    {Q : α → FileSystem → Prop} {E : PyError → FileSystem → Prop} :
    wp (fileCall o f) Q E fs ↔
      if o.fileRaises fs.calls then E .os { fs with calls := fs.calls + 1 }
      else Q (f fs).1 (f { fs with calls := fs.calls + 1 }).2 := by
  simp only [fileCall, wp_bind, wp_fetch, wp_update, wp_ite, wp_raise, wp_pure]

/-- An operation on files that counts and changes the files by `f`. -/
theorem wp_onFileCall {α : Type} {f : FileSystem → α × FileSystem}
    (hf : ∀ fs, (f fs).1 = (f (bare fs)).1 ∧ bare (f fs).2 = bare (f (bare fs)).2) :
    wp (onFiles (fileCall ctx.out f))
      (fun a w' => a = (f (SessionFrames.core w).files).1 ∧
        Does (withFiles fun fs => bare (f fs).2) w w')
      (fun e w' => Does id w w' ∧ e = .os ∧ ¬ ctx.out.FilesWork) w := by
  rw [onFiles, wp_zoom, wp_fileCall]
  split_ifs with hraise
  · refine ⟨⟨rfl, rfl⟩, rfl, fun h => ?_⟩
    rw [h] at hraise
    cases hraise
  · refine ⟨(hf w.files).1, ?_, rfl⟩
    have h := (hf { w.files with calls := w.files.calls + 1 }).2
    exact congrArg (fun fs => { SessionFrames.core w with files := fs }) h

/-- An operation without effect. -/
theorem wp_touchFiles :
    wp (onFiles (touchFiles ctx.out)) (fun _ w' => Does id w w')
      (fun _ w' => Does id w w' ∧ ¬ ctx.out.FilesWork) w :=
  wp_mono (wp_onFileCall fun _ => ⟨rfl, rfl⟩) (fun _ _ h => ⟨h.2.core_eq, h.2.sent⟩)
    (fun _ _ h => ⟨h.1, h.2.2⟩)

theorem create_bare (fs : FileSystem) (path : String) :
    (fs.create path).1 = ((bare fs).create path).1 ∧
      bare (fs.create path).2 = bare ((bare fs).create path).2 := by
  unfold FileSystem.create bare
  rcases fs.entry path with _ | i
  · exact ⟨rfl, rfl⟩
  · exact ⟨rfl, rfl⟩

/-- The last component of a path is short enough to be created. -/
def NameFits (path : String) : Prop := (utf8Encode (basename path)).length ≤ nameMax

theorem wp_openWb (path : String) :
    wp (onFiles (openWb ctx.out path))
      (fun i w' => i = ((SessionFrames.core w).files.create path).1 ∧
        Does (withFiles fun fs => bare (fs.create path).2) w w')
      (fun _ w' => Does id w w' ∧ ¬ (ctx.out.FilesWork ∧ NameFits path)) w := by
  unfold openWb
  split_ifs with hname
  · rw [onFiles, wp_zoom, wp_raise]
    exact ⟨⟨rfl, rfl⟩, fun h => absurd h.2 (by unfold NameFits; omega)⟩
  · exact wp_mono (wp_onFileCall fun fs => create_bare fs path) (fun _ _ h => h)
      (fun _ _ h => ⟨h.1, fun hg => h.2.2 hg.1⟩)

/-! ### Packet 1 -/

/-- A slot, on cores. -/
def withSlot (limiter : UploadLimiter) (c : SessionFrames.Core) : SessionFrames.Core :=
  { c with hasUploadSlot := true, limiter := limiter }

theorem tryAcquire_fails {l : UploadLimiter} :
    l.tryAcquire.1 = false ↔ l.maxConcurrentUploads ≤ l.activeUploads := by
  unfold UploadLimiter.tryAcquire
  split_ifs with h
  · simp [h]
  · simp [h]

/-- The session has a slot or can get one. -/
def CanTake (c : SessionFrames.Core) : Prop :=
  c.hasUploadSlot = true ∨ c.limiter.activeUploads < c.limiter.maxConcurrentUploads

theorem wp_acquireUploadSlot :
    wp acquireUploadSlot
      (fun acquired u => (acquired = true ∧ CanTake (SessionFrames.core w) ∧ ∃ limiter,
        Does (withSlot limiter) w u) ∨ (acquired = false ∧ w.session.hasUploadSlot = false ∧
          w.limiter.maxConcurrentUploads ≤ w.limiter.activeUploads ∧ u = w))
      (fun _ _ => False) w := by
  simp only [acquireUploadSlot, wp_bind, wp_fetch, wp_ite, wp_update, wp_pure]
  split_ifs with hslot hfree
  · refine .inl ⟨trivial, .inl hslot, w.limiter, ?_, rfl⟩
    rw [withSlot, ← hslot]
    rfl
  · refine .inl ⟨trivial, .inr ?_, w.limiter.tryAcquire.2, rfl, rfl⟩
    by_contra hfull
    have hno : w.limiter.tryAcquire.1 = false := tryAcquire_fails.mpr (Nat.le_of_not_lt hfull)
    rw [hno] at hfree
    cases hfree
  · exact .inr ⟨trivial, by simpa using hslot, tryAcquire_fails.mp (by simpa using hfree), trivial⟩

theorem wp_markUploadProgress :
    wp (markUploadProgress ctx)
      (fun _ w' => ∃ ts,
        Does (withTransfer fun t => { t with lastUploadProgressTs := some ts }) w w')
      (fun _ _ => False) w := by
  simp only [markUploadProgress, monotonic, onSession, onTransfer, wp_bind, wp_look, wp_update,
    wp_pure, wp_markActivity]
  exact ⟨_, rfl, rfl⟩

/-- A key length that `AES.new` takes. -/
def AesKeyLength (key : Bytes) : Prop := key.length = 16 ∨ key.length = 24 ∨ key.length = 32

/-- What opening the temporary file and the cipher needs. -/
structure Opens (ctx : Ctx) (clientId : Bytes) (p : Packet) (c : SessionFrames.Core) : Prop where
  files : ctx.out.FilesWork
  name : NameFits (tmpPath (hex clientId) p.fileName c.connectionId)
  key : AesKeyLength (c.transfer.uploadAesKey.getD [])

/-- The core with the temporary file and the cipher of packet 1. -/
def opened (clientId : Bytes) (p : Packet) (c : SessionFrames.Core) : SessionFrames.Core :=
  let tmp := tmpPath (hex clientId) p.fileName c.connectionId
  { c with
    transfer := { c.transfer with
      uploadPath := some (outPath (hex clientId) p.fileName)
      uploadTmpPath := some tmp
      uploadTmpFile := some (c.files.create tmp).1
      uploadDecryptCipher := some
        { key := c.transfer.uploadAesKey.getD []
          chain := (c.transfer.transferIv.map Subtype.val).getD [] }
      uploadPlainTail := []
      uploadPlainBytesWritten := 0
      uploadCrc32State := 0 }
    files := bare (c.files.create tmp).2 }

/-- The active flag and the slot are as before. -/
structure Holds (w u : World) : Prop where
  active : u.session.transfer.uploadActive = w.session.transfer.uploadActive
  slot : u.session.hasUploadSlot = w.session.hasUploadSlot

theorem Untouched.holds {u : World} (h : Untouched w u) : Holds w u :=
  ⟨congrArg Transfer.uploadActive h.transfer, h.slot⟩

theorem Holds.trans {u v : World} (h : Holds w u) (h' : Holds u v) : Holds w v :=
  ⟨h'.active.trans h.active, h'.slot.trans h.slot⟩

theorem Does.holds {f : SessionFrames.Core → SessionFrames.Core} {u : World} (h : Does f w u)
    (ha : (f (SessionFrames.core w)).transfer.uploadActive = w.session.transfer.uploadActive)
    (hs : (f (SessionFrames.core w)).hasUploadSlot = w.session.hasUploadSlot) : Holds w u := by
  constructor
  · exact (congrArg (fun c => c.transfer.uploadActive) h.core_eq).trans ha
  · exact (congrArg Core.hasUploadSlot h.core_eq).trans hs

theorem wp_openUpload (p : Packet) :
    wp (openUpload ctx clientId p)
      (fun _ w' => Does (opened clientId p) w w')
      (fun _ w' => Holds w w' ∧ ¬ Opens ctx clientId p (SessionFrames.core w)) w := by
  apply wp_seq wp_touchFiles
  · intro _ u hu
    have htu : u.session.transfer = w.session.transfer := congrArg Core.transfer hu.core_eq
    have hcu : u.session.connectionId = w.session.connectionId :=
      congrArg Core.connectionId hu.core_eq
    rw [wp_bind, wp_look, htu, hcu]
    apply wp_then (wp_onTransfer _)
    intro _ v hv
    have hnamed := hu.trans hv
    apply wp_seq (wp_openWb _)
    · rintro file x ⟨hfile, hx⟩
      have hmade := hnamed.trans hx
      apply wp_then (wp_onTransfer _)
      intro _ y hy
      have hopen := hmade.trans hy
      unfold newDecryptCipher
      split_ifs with hkey
      · rw [wp_bind, wp_ofExcept_ok]
        apply wp_then (wp_onTransfer _)
        intro _ z hz
        apply wp_mono (wp_logEvent _ _)
        · intro _ w' hw'
          have hdone := (hopen.trans hz).trans hw'
          have hfile' : file = ((SessionFrames.core w).files.create
              (tmpPath (hex clientId) p.fileName w.session.connectionId)).1 := by
            rw [hfile, hnamed.core_eq]
            rfl
          refine ⟨hdone.core_eq.trans ?_, hdone.sent⟩
          rw [hfile']
          rfl
        · exact fun _ _ h => h.elim
      · rw [wp_bind, wp_ofExcept_error]
        exact ⟨hopen.holds rfl rfl, fun h => hkey h.key⟩
    · rintro _ x ⟨hx, hno⟩
      exact ⟨(hnamed.trans hx).holds rfl rfl,
        fun h => hno ⟨h.files, h.name⟩⟩
  · rintro _ u ⟨hu, hno⟩
    exact ⟨hu.holds rfl rfl, fun h => hno h.files⟩

/-- The id of the next row. -/
def nextId (rows : List UploadRow) : ℕ := (rows.map UploadRow.id).foldr max 0 + 1

/-- The core with a slot, a row, an empty temporary file and a cipher. -/
def started (clientId : Bytes) (p : Packet) (ts : ℚ) (time : String) (limiter : UploadLimiter)
    (c : SessionFrames.Core) : SessionFrames.Core :=
  opened clientId p
    { c with
      hasUploadSlot := true
      limiter := limiter
      transfer := { c.transfer with
        uploadActive := true
        uploadFilename := some p.fileName
        lastUploadProgressTs := some ts
        uploadId := some (nextId c.store.uploads) }
      store := { c.store with
        uploads := c.store.uploads ++ [newRow (hex clientId) p.fileName p.origFileSize
          (c.transfer.expectedContentSize.getD 0) time (nextId c.store.uploads)] } }

/-- The upload is started, with a slot and on a connected store. -/
structure Started (clientId : Bytes) (p : Packet) (w w' : World) : Prop where
  connected : w.store.connected = true
  canTake : CanTake (SessionFrames.core w)
  does : ∃ ts time limiter, Does (started clientId p ts time limiter) w w'

/-- All slots are taken. -/
structure Busy (clientId version : Bytes) (w w' : World) : Prop where
  full : w.limiter.maxConcurrentUploads ≤ w.limiter.activeUploads
  before : w.session.hasUploadSlot = false
  transfer : w'.session.transfer = {}
  slot : w'.session.hasUploadSlot = false
  rows : w'.store.working.uploads = w.store.working.uploads
  sent : w'.session.sent = w.session.sent ++
    [errorMessage clientId version "server busy: too many concurrent uploads"]

/-- The store has no connection. -/
structure Unrecorded (clientId version : Bytes) (w w' : World) : Prop where
  down : w.store.connected = false
  transfer : w'.session.transfer = {}
  slot : w'.session.hasUploadSlot = false
  rows : w'.store.working.uploads = w.store.working.uploads
  sent : w'.session.sent = w.session.sent ++
    [errorMessage clientId version "bad 828: upload id is None in db"]

/-- The client has a row, as the foreign key of an upload row demands. -/
def Owned (clientId : Bytes) (c : SessionFrames.Core) : Prop :=
  hex clientId ∈ c.store.clients.map ClientRecord.clientIdHex

theorem owned_iff : Owned clientId (SessionFrames.core w) ↔
    hex clientId ∈ w.store.working.clients.map ClientRecord.clientIdHex := by
  have hids : (w.store.working.clients.map forgetSeen).map ClientRecord.clientIdHex =
      w.store.working.clients.map ClientRecord.clientIdHex := by
    rw [List.map_map]
    rfl
  rw [Owned, ← hids]
  rfl

/-- A new row, on cores. -/
def withRow (row : ℕ → UploadRow) (c : SessionFrames.Core) : SessionFrames.Core :=
  { c with store := { c.store with uploads := c.store.uploads ++ [row (nextId c.store.uploads)] } }

theorem wp_newRow {fileName : String} {orig cipher : ℕ} :
    wp (onStore (createUploadRecord ctx.out (hex clientId) fileName orig cipher))
      (fun r u => (r = none ∧ w.store.connected = false ∧ Does id w u) ∨
        (r = some (nextId w.store.working.uploads) ∧ w.store.connected = true ∧
          ∃ time, Does (withRow (newRow (hex clientId) fileName orig cipher time)) w u))
      (fun _ u => Untouched w u ∧
        ¬ (ctx.out.SqlWorks ∧ Owned clientId (SessionFrames.core w))) w := by
  rw [onStore, wp_zoom]
  apply wp_mono (wp_blame wp_createUploadRecord fun h : ctx.out.SqlWorks ∧ Owned clientId _ =>
    createUploadRecord_returns h.1 fun _ => owned_iff.mp h.2)
  · rintro r st (⟨hr, hdown, rfl⟩ | ⟨hr, hup, hst⟩)
    · exact .inl ⟨hr, hdown, rfl, rfl⟩
    · refine .inr ⟨hr, hup, ctx.out.now w.store.calls, ?_, rfl⟩
      exact congrArg (fun c => { SessionFrames.core w with store := c }) hst
  · rintro e st ⟨-, hno⟩
    exact ⟨⟨rfl, rfl⟩, hno⟩

/-- What starting an upload needs besides sending and store calls. -/
structure Starts (ctx : Ctx) (clientId : Bytes) (p : Packet) (c : SessionFrames.Core) : Prop where
  opens : Opens ctx clientId p c
  owned : Owned clientId c

theorem wp_startUpload (p : Packet) :
    wp (startUpload ctx clientId version p)
      (fun go w' => (go = true ∧ Started clientId p w w') ∨
        (go = false ∧ (Busy clientId version w w' ∨ Unrecorded clientId version w w')))
      (fun _ u => (Untouched w u ∧ ¬ Answering ctx w clientId version ∨
          CanTake (SessionFrames.core w) ∧ u.session.transfer.uploadActive = true ∧
            u.session.hasUploadSlot = true) ∧
        ¬ (Answering ctx w clientId version ∧ (CanTake (SessionFrames.core w) →
          Starts ctx clientId p (SessionFrames.core w)))) w := by
  apply wp_then wp_acquireUploadSlot
  rintro _ u (⟨rfl, hcan, limiter, hu⟩ | ⟨rfl, hslot, hfull, rfl⟩)
  · simp only [Bool.not_true, Bool.false_eq_true, if_false]
    apply wp_then (wp_onTransfer _)
    intro _ v hv
    apply wp_then wp_markUploadProgress
    rintro _ x ⟨ts, hx⟩
    have hactive := (hu.trans hv).trans hx
    -- from here on the upload is active and holds a slot
    have hon {y : World} (h : Holds x y) : CanTake (SessionFrames.core w) ∧
        y.session.transfer.uploadActive = true ∧ y.session.hasUploadSlot = true := by
      have hc := hactive.core_eq
      exact ⟨hcan, h.active.trans (congrArg (fun c => c.transfer.uploadActive) hc),
        h.slot.trans (congrArg Core.hasUploadSlot hc)⟩
    have hanswer (h : Answering ctx w clientId version) : Answering ctx x clientId version :=
      h.of_store ⟨_, congrArg Core.store hactive.core_eq⟩
    apply wp_seq (wp_touch _)
    · intro _ y hy
      have hseen := hactive.trans hy
      have hrows : y.store.working.uploads = w.store.working.uploads :=
        congrArg (fun c => c.store.uploads) hseen.core_eq
      have hup : y.store.connected = w.store.connected :=
        congrArg (fun c => c.store.connected) hseen.core_eq
      have hsize : y.session.transfer.expectedContentSize =
          w.session.transfer.expectedContentSize :=
        congrArg (fun c => c.transfer.expectedContentSize) hseen.core_eq
      have hyx : Holds x y := hy.holds rfl rfl
      rw [wp_bind, wp_look]
      apply wp_seq wp_newRow
      · rintro r z (⟨rfl, hdown, hz⟩ | ⟨rfl, hyup, time, hz⟩)
        · apply wp_then (wp_onTransfer _)
          intro _ a ha
          simp only [Option.isNone_none, if_true]
          have hnone := (hseen.trans hz).trans ha
          apply wp_seq (wp_refuse _)
          · intro _ w' hw'
            rw [wp_pure]
            refine .inr ⟨rfl, .inr ⟨hup ▸ hdown, hw'.transfer, hw'.slot, ?_, ?_⟩⟩
            · exact hw'.rows.trans (congrArg (fun c => c.store.uploads) hnone.core_eq)
            · rw [hw'.sent, hnone.sent]
              rfl
          · rintro _ b ⟨hb, hno⟩
            have hxa : Holds x a := ((hy.trans hz).trans ha).holds rfl rfl
            refine ⟨.inr (hon (hxa.trans hb.holds)), fun hg => hno ⟨?_, ?_⟩⟩
            · exact hg.1.of_store ⟨_, congrArg Core.store hnone.core_eq⟩
            · intro text ht
              cases ht
              decide +kernel
        · apply wp_then (wp_onTransfer _)
          intro _ a ha
          have hrow := (hseen.trans hz).trans ha
          have hxa : Holds x a := ((hy.trans hz).trans ha).holds rfl rfl
          simp only [Option.isNone_some, Bool.false_eq_true, if_false]
          apply wp_seq (wp_openUpload p)
          · intro _ w' hw'
            rw [wp_pure]
            refine .inl ⟨rfl, hup ▸ hyup, hcan, ts, time, limiter, ?_⟩
            have hdone := hrow.trans hw'
            refine ⟨hdone.core_eq.trans ?_, hdone.sent⟩
            rw [hrows, hsize]
            rfl
          · rintro _ b ⟨hb, hno⟩
            refine ⟨.inr (hon (hxa.trans hb)), fun hg => hno ?_⟩
            have hop := (hg.2 hcan).opens
            rw [hrow.core_eq]
            exact ⟨hop.files, hop.name, hop.key⟩
      · rintro e z ⟨hz, hno⟩
        refine ⟨.inr (hon (hyx.trans hz.holds)), fun hg => hno ⟨hg.1.sql, ?_⟩⟩
        rw [hseen.core_eq]
        exact (hg.2 hcan).owned
    · rintro e y ⟨hy, hno⟩
      have hyx : Holds x y := hy.holds rfl rfl
      exact ⟨.inr (hon hyx), fun hg => hno ⟨hg.1.sql, (hanswer hg.1).indexed⟩⟩
  · simp only [Bool.not_false, if_true]
    apply wp_seq (wp_answer1607 _)
    · intro _ v hv
      rw [wp_bind, wp_reset, wp_pure]
      refine .inr ⟨rfl, .inl ⟨hfull, hslot, rfl, ?_, ?_, hv.sent⟩⟩
      · exact (congrArg Core.hasUploadSlot hv.core_eq).trans hslot
      · exact congrArg (fun c => c.store.uploads) hv.core_eq
    · rintro e v ⟨hv, hno⟩
      have hshort : Short "server busy: too many concurrent uploads" := by decide +kernel
      exact ⟨.inl ⟨untouched_of_core hv, fun h => hno ⟨h, hshort⟩⟩, fun hg => hno ⟨hg.1, hshort⟩⟩

end

end Seftp.UploadSteps
