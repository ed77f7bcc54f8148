import Seftp.FileMoves
import Seftp.UploadTrail

/-!
# What the counters of an upload say about its file

While an upload is received, the number of bytes and the checksum in the transfer
are those of the temporary file; once it is stored, the checksum is that of the
file under its final name, whose length is the announced one. The tracked row has
that length too. Unlike a trail, which follows the packets, this holds whatever
raises.
-/
namespace Seftp.UploadLedger
open LittleEndian ExceptState OutsideWorld BlockChaining Checksum Text Protocol ClientStore
open StoreFrames ServerSession Answers SessionFrames AccountHandlers UploadHandlers HandlerFrames
open UploadSteps ChunkSteps AccountSteps FrameSteps Router HandshakeGate UploadStages UploadTrail
open FileMoves

/-- The tracked row has the announced size. -/
def RowFits (c : SessionFrames.Core) : Prop :=
  ∀ id ∈ c.transfer.uploadId, ∀ r ∈ c.store.uploads, r.id = id →
    c.transfer.expectedOrigFileSize = some r.origFileSize

/-- An open temporary file, with its size and checksum. -/
structure Writing (c : SessionFrames.Core) (tmp : String) (inode : ℕ) : Prop where
  active : c.transfer.uploadActive = true
  file : c.transfer.uploadTmpFile = some inode
  tmpPath_eq : c.transfer.uploadTmpPath = some tmp
  entry : c.files.entry tmp = some inode
  final : ∀ path ∈ c.transfer.uploadPath, tmp ≠ path
  unstored : c.transfer.uploadCrc = none
  count : c.transfer.uploadPlainBytesWritten = (c.files.content inode).length
  crc : c.transfer.uploadCrc32State = crc32 (c.files.content inode) 0
  row : RowFits c

/-- A stored file that waits for its confirmation. -/
structure Deposited (c : SessionFrames.Core) (path : String) (inode : ℕ) : Prop where
  active : c.transfer.uploadActive = true
  file : c.transfer.uploadTmpFile = none
  moved : c.transfer.uploadTmpPath = none
  path_eq : c.transfer.uploadPath = some path
  entry : c.files.entry path = some inode
  crc : c.transfer.uploadCrc = some (crc32 (c.files.content inode) 0)
  size : c.transfer.expectedOrigFileSize = some (c.files.content inode).length
  row : RowFits c

/-- The file of the session's upload, if it has one. -/
inductive Ledger (c : SessionFrames.Core) : Option ℕ → Prop
  | idle (hactive : c.transfer.uploadActive = false) (hfile : c.transfer.uploadTmpFile = none)
      (hcrc : c.transfer.uploadCrc = none) : Ledger c none
  | writing (tmp : String) (inode : ℕ) (h : Writing c tmp inode) : Ledger c (some inode)
  | deposited (path : String) (inode : ℕ) (h : Deposited c path inode) : Ledger c (some inode)

/-- The file at the path of a row has the row's checksum and size. -/
def Describes (fs : FileSystem) (r : UploadRow) : Prop :=
  ∃ x ∈ r.storedPath.bind fs.read,
    r.serverCrc32 = some (crc32 x 0).toNat ∧ x.length = r.origFileSize

instance (fs : FileSystem) (r : UploadRow) : Decidable (Describes fs r) :=
  inferInstanceAs (Decidable (∃ x ∈ _, _))

section
variable {ctx : Ctx} {frame clientId version : Bytes} {p : Packet} {w u w' : World} {k : Option ℕ}

theorem ledger_reset (h : w.session.transfer = {}) : Ledger (SessionFrames.core w) none := by
  apply Ledger.idle
  · rw [SessionFrames.core, h]
  · rw [SessionFrames.core, h]
  · rw [SessionFrames.core, h]

/-- An open file is the file of the upload, at the temporary path. -/
theorem Ledger.handle {c : SessionFrames.Core} (h : Ledger c k) {inode : ℕ}
    (hfile : c.transfer.uploadTmpFile = some inode) : k = some inode ∧
      ∃ tmp, c.transfer.uploadTmpPath = some tmp ∧ c.files.entry tmp = some inode := by
  cases h with
  | idle _ hnone _ => cases hnone.symm.trans hfile
  | writing tmp inode hw =>
      cases hw.file.symm.trans hfile
      exact ⟨rfl, tmp, hw.tmpPath_eq, hw.entry⟩
  | deposited path inode hd => cases hd.file.symm.trans hfile

/-- The ledger depends on the transfer, the file of the upload and the tracked row. -/
theorem ledger_congr {c c' : SessionFrames.Core} (h : Ledger c k) (ht : c'.transfer = c.transfer)
    (hf : ∀ q i, k = some i → c.files.entry q = some i →
      c'.files.entry q = some i ∧ c'.files.content i = c.files.content i)
    (hrow : RowFits c → RowFits c') : Ledger c' k := by
  cases h with
  | idle h₁ h₂ h₃ => exact .idle (ht ▸ h₁) (ht ▸ h₂) (ht ▸ h₃)
  | writing tmp inode h =>
      obtain ⟨hentry, hcontent⟩ := hf tmp inode rfl h.entry
      refine .writing tmp inode ⟨ht ▸ h.active, ht ▸ h.file, ht ▸ h.tmpPath_eq, hentry,
        ht ▸ h.final, ht ▸ h.unstored, ?_, ?_, hrow h.row⟩
      · rw [ht, hcontent]
        exact h.count
      · rw [ht, hcontent]
        exact h.crc
  | deposited path inode h =>
      obtain ⟨hentry, hcontent⟩ := hf path inode rfl h.entry
      refine .deposited path inode ⟨ht ▸ h.active, ht ▸ h.file, ht ▸ h.moved,
        ht ▸ h.path_eq, hentry, ?_, ?_, hrow h.row⟩
      · rw [ht, hcontent]
        exact h.crc
      · rw [ht, hcontent]
        exact h.size

/-- The same files and rows. -/
theorem ledger_same {c c' : SessionFrames.Core} (h : Ledger c k) (ht : c'.transfer = c.transfer)
    (hf : c'.files = c.files) (hr : c'.store.uploads = c.store.uploads) : Ledger c' k := by
  apply ledger_congr h ht
  · intro q i _ hentry
    rw [hf]
    exact ⟨hentry, rfl⟩
  · unfold RowFits
    rw [ht, hr]
    exact fun h => h

/-! ### Packets -/

theorem lt_nextId {rows : List UploadRow} {r : UploadRow} (h : r ∈ rows) : r.id < nextId rows := by
  induction rows with
  | nil => cases h
  | cons a rows ih =>
      have hcons : nextId (a :: rows) = max a.id (nextId rows - 1) + 1 := rfl
      rcases List.mem_cons.mp h with rfl | h
      · omega
      · have := ih h
        omega

theorem bare_create (fs : FileSystem) (q : String) :
    ((bare fs).create q).1 = (fs.create q).1 := by
  have hentry : (bare fs).entry = fs.entry := rfl
  unfold FileSystem.create
  rw [hentry]
  cases fs.entry q <;> rfl

/-- The file that packet 1 opens. -/
def openedFile (clientId : Bytes) (p : Packet) (w : World) : ℕ :=
  (w.files.create (tmpPath (hex clientId) p.fileName w.session.connectionId)).1

/-- The upload that packet 1 has just started. -/
theorem writing_started (h : Started clientId p w u)
    (hcrc : w.session.transfer.uploadCrc = none)
    (horig : w.session.transfer.expectedOrigFileSize = some p.origFileSize) :
    ∃ tmp, Writing (SessionFrames.core u) tmp (openedFile clientId p w) := by
  obtain ⟨ts, time, limiter, hd⟩ := h.does
  rw [hd.core_eq]
  have hempty : ∀ path, ((SessionFrames.core w).files.create path).2.content
      ((SessionFrames.core w).files.create path).1 = [] := create_content _
  have hsame : ((SessionFrames.core w).files.create
      (tmpPath (hex clientId) p.fileName w.session.connectionId)).1 = openedFile clientId p w :=
    bare_create _ _
  rw [← hsame]
  refine ⟨_, rfl, rfl, rfl, create_entry _ _, ?_, hcrc, ?_, ?_, ?_⟩
  · rintro path ⟨⟩
    exact tmpPath_ne _ _ _
  · exact (congrArg List.length (hempty _)).symm
  · exact (congrArg (crc32 · 0) (hempty _)).symm
  · rintro id ⟨⟩ r hr hid
    rcases List.mem_append.mp hr with hr | hr
    · exact absurd hid (lt_nextId hr).ne
    · rw [List.mem_singleton.mp hr]
      exact horig

theorem writing_takes {env : Env} {tmp : String} {inode : ℕ}
    (h : Writing (SessionFrames.core w) tmp inode) (ht : Takes env p w u) :
    Writing (SessionFrames.core u) tmp inode ∧
      u.session.transfer.expectedOrigFileSize = w.session.transfer.expectedOrigFileSize := by
  obtain ⟨ts, cipher, out, tail, -, hd⟩ := ht
  have hfiles : (SessionFrames.core u).files =
      bare ((SessionFrames.core w).files.append inode out) := by
    rw [hd.core_eq]
    change appended (SessionFrames.core w).transfer.uploadTmpFile out _ = _
    rw [h.file]
    rfl
  have hcontent : (SessionFrames.core u).files.content inode =
      (SessionFrames.core w).files.content inode ++ out := by
    rw [hfiles]
    exact Function.update_self ..
  refine ⟨⟨?_, ?_, ?_, ?_, ?_, ?_, ?_, ?_, ?_⟩,
    congrArg (fun c => c.transfer.expectedOrigFileSize) hd.core_eq⟩
  · rw [hd.core_eq]
    exact h.active
  · rw [hd.core_eq]
    exact h.file
  · rw [hd.core_eq]
    exact h.tmpPath_eq
  · rw [hfiles]
    exact h.entry
  · rw [hd.core_eq]
    exact h.final
  · rw [hd.core_eq]
    exact h.unstored
  · rw [hcontent, List.length_append, ← h.count, hd.core_eq]
    rfl
  · rw [hcontent, crc32_append, ← h.crc, hd.core_eq]
    rfl
  · rw [hd.core_eq]
    exact h.row

/-- The last packet gives the file its final name. -/
theorem deposited_finished {tmp : String} {inode : ℕ} (h : Writing (SessionFrames.core w) tmp inode)
    (horig : w.session.transfer.expectedOrigFileSize = some p.origFileSize)
    (hf : Finished clientId version p w w') :
    ∃ path, Deposited (SessionFrames.core w') path inode := by
  obtain ⟨tmp', path, hs, hsaid⟩ := hf
  obtain rfl : tmp' = tmp := Option.some.inj (hs.tmp.symm.trans h.tmpPath_eq)
  rw [hsaid.core_eq]
  refine ⟨path, h.active, rfl, rfl, hs.path, ?_, congrArg some h.crc, ?_, h.row⟩
  · exact (rename_target (h.final path hs.path)).trans h.entry
  · change (SessionFrames.core w).transfer.expectedOrigFileSize =
      some ((SessionFrames.core w).files.content inode).length
    rw [← h.count]
    exact horig.trans (congrArg some hs.written.symm)

theorem ledger_accepts {env : Env} {tmp : String} {inode : ℕ}
    (h : Writing (SessionFrames.core w) tmp inode)
    (horig : w.session.transfer.expectedOrigFileSize = some p.origFileSize)
    (ha : Accepts env clientId version p w w') : Ledger (SessionFrames.core w') (some inode) := by
  rcases ha with ⟨-, ht⟩ | ⟨-, x, ht, hf⟩
  · exact .writing tmp inode (writing_takes h ht).1
  · obtain ⟨hx, hsize⟩ := writing_takes h ht
    obtain ⟨path, hd⟩ := deposited_finished hx (hsize.trans horig) hf
    exact .deposited path inode hd

/-- A stored file has had its last packet. -/
theorem deposited_past {path : String} {inode m n : ℕ} {c : SessionFrames.Core}
    (hs : Stage c) (h : Deposited c path inode) (hm : c.transfer.expectedPacketNum = some m)
    (hn : c.transfer.expectedTotalPackets = some n) : n < m := by
  cases hs with
  | idle hactive => exact absurd (hactive.symm.trans h.active) (by decide)
  | waiting k n hw =>
      have := hw.openFile.file
      rw [h.file] at this
      cases this
  | complete m' n' hactive hexpected htotal hpast =>
      cases hexpected.symm.trans hm
      cases htotal.symm.trans hn
      exact hpast

/-- A frame goes on with the file of the upload, or gives it up, or opens one. -/
inductive Passed (opens : ℕ → Prop) (k : Option ℕ) : Option ℕ → Prop
  | same : Passed opens k k
  | gone : Passed opens k none
  | opened (inode : ℕ) (h : opens inode) : Passed opens k (some inode)

/-- The ledger after a frame. -/
def LedgerAfter (opens : ℕ → Prop) (k : Option ℕ) (w' : World) : Prop :=
  ∃ k', Ledger (SessionFrames.core w') k' ∧ Passed opens k k'

variable {opens : ℕ → Prop}

theorem after_reset (h : w'.session.transfer = {}) : LedgerAfter opens k w' :=
  ⟨none, ledger_reset h, .gone⟩

/-- A packet from the state in which it is admitted. -/
theorem ledger_admits (hs : Stage (SessionFrames.core w)) (hl : Ledger (SessionFrames.core w) k)
    (hheader : validateHeader ctx.env.config p = none)
    (hopens : p.packetNum = 1 → checkChunk ctx.env.config w.session.transfer p = .ok () →
      CanTake (SessionFrames.core w) → opens (openedFile clientId p w))
    (h : Admits ctx clientId version p w w') : LedgerAfter opens k w' := by
  obtain ⟨hzero, hle, -⟩ := validateHeader_none hheader
  cases h with
  | announced t hnum hiv hd =>
      unfold acceptIv at hiv
      split_ifs at hiv with hbusy
      cases hiv
      have hinactive : w.session.transfer.uploadActive = false := by
        simpa using (not_or.mp hbusy).1
      refine ⟨k, ?_, .same⟩
      rw [hd.core_eq]
      cases hl with
      | idle h₁ h₂ h₃ => exact .idle h₁ h₂ h₃
      | writing tmp inode h => exact absurd (hinactive.symm.trans h.active) (by decide)
      | deposited path inode h => exact absurd (hinactive.symm.trans h.active) (by decide)
  | declined r hnum hiv hplain href => exact after_reset href.transfer
  | failed r hnum hfail href => exact after_reset href.transfer
  | busy hnum hcheck hbusy => exact after_reset hbusy.transfer
  | unrecorded hnum hcheck hdown => exact after_reset hdown.transfer
  | restarted x r hnum hcheck hstart hfail href => exact after_reset href.transfer
  | began x hnum hcheck hstart haccept =>
      obtain ⟨-, htot, -, horig, -⟩ := checkChunk_ok hcheck
      obtain ⟨ts, time, limiter, hd⟩ := hstart.does
      have hexp := began_expected hstart haccept hnum
      have hcrc : w.session.transfer.uploadCrc = none := by
        cases hl with
        | idle _ _ h => exact h
        | writing tmp inode h => exact h.unstored
        | deposited path inode h =>
            have := deposited_past hs h hexp htot
            omega
      obtain ⟨tmp, hw⟩ := writing_started hstart hcrc horig
      have hsize : x.session.transfer.expectedOrigFileSize =
          w.session.transfer.expectedOrigFileSize :=
        congrArg (fun c => c.transfer.expectedOrigFileSize) hd.core_eq
      exact ⟨_, ledger_accepts hw (hsize.trans horig) haccept,
        .opened _ (hopens hnum hcheck hstart.canTake)⟩
  | taken hnum hcheck haccept =>
      obtain ⟨-, htot, -, horig, -⟩ := checkChunk_ok hcheck
      have hexp := accepts_expected haccept
      cases hl with
      | idle hactive _ _ =>
          cases hs with
          | idle _ hexpected _ =>
              have := hexpected _ hexp
              omega
          | waiting k n h => exact absurd (hactive.symm.trans h.active) (by decide)
          | complete k n h => exact absurd (hactive.symm.trans h) (by decide)
      | writing tmp inode h => exact ⟨_, ledger_accepts h horig haccept, .same⟩
      | deposited path inode h =>
          have := deposited_past hs h hexp htot
          omega

theorem ledger_bind {store : Store} {idHex : String} {t : Transfer}
    (hl : Ledger (SessionFrames.core w) k) (hb : bindUpload store idHex w.session.transfer = .ok t)
    (hd : Does (withTransfer fun _ => t) w u) : Ledger (SessionFrames.core u) k := by
  rw [hd.core_eq]
  rcases bindUpload_ok hb with ⟨-, rfl⟩ | ⟨-, record, b64, key, -, -, -, rfl⟩
  · exact ledger_same hl rfl rfl rfl
  · cases hl with
    | idle h₁ h₂ h₃ => exact .idle h₁ h₂ h₃
    | writing tmp inode h =>
        exact .writing tmp inode ⟨h.active, h.file, h.tmpPath_eq, h.entry, h.final, h.unstored,
          h.count, h.crc, h.row⟩
    | deposited path inode h =>
        exact .deposited path inode ⟨h.active, h.file, h.moved, h.path_eq, h.entry, h.crc, h.size,
          h.row⟩

/-! ### Frames -/

theorem ledger_uploads {payload : Bytes} (hs : Stage (SessionFrames.core w))
    (hl : Ledger (SessionFrames.core w) k)
    (hopens : ∀ p t, Begins ctx clientId payload w p t → opens (openedFile clientId p w))
    (h : Uploads ctx clientId version payload w w') : LedgerAfter opens k w' := by
  cases h with
  | unparsed r hparse hplain href => exact after_reset href.transfer
  | unbound p r hparse hbind hplain href => exact after_reset href.transfer
  | foreign p hparse hid hother href => exact after_reset href.transfer
  | header p t text hparse hbind hheader habandon => exact after_reset habandon.transfer
  | admitted p t u hparse hbind hown hheader hd hadmits =>
      have ht : u.session.transfer = t := congrArg Core.transfer hd.core_eq
      refine ledger_admits (stage_bind hs hbind hd) (ledger_bind hl hbind hd) hheader ?_ hadmits
      intro hnum hcheck hcan
      rw [ht] at hcheck
      rw [hd.core_eq] at hcan
      have hfile : openedFile clientId p u = openedFile clientId p w := by
        have hfiles : bare u.files = bare w.files := congrArg Core.files hd.core_eq
        have hconn : u.session.connectionId = w.session.connectionId :=
          congrArg Core.connectionId hd.core_eq
        rw [openedFile, openedFile, ← bare_create, ← bare_create w.files, hfiles, hconn]
      rw [hfile]
      exact hopens p t ⟨hparse, hbind, hown, hheader, hnum, hcheck, hcan⟩

theorem ledger_account {env : Env} (hl : Ledger (SessionFrames.core w) k)
    (h : AccountOnly env w w') : Ledger (SessionFrames.core w') k :=
  ledger_same hl h.transfer h.files h.uploads

theorem ledger_routed (hs : Stage (SessionFrames.core w)) (hl : Ledger (SessionFrames.core w) k)
    (hopens : ∀ clientId p, (reasons ctx frame w).opens clientId p →
      opens (openedFile clientId p w))
    (h : Routed ctx frame w w') : LedgerAfter opens k w' := by
  rcases routed_cases h with hstep | hreset | ⟨hform, hcode, hstep⟩
  · exact ⟨k, ledger_account hl hstep, .same⟩
  · exact after_reset hreset
  · exact ledger_uploads hs hl (fun p t h => hopens _ p ⟨hform, hcode, rfl, t, h⟩) hstep

/-- An inactive upload has no file. -/
theorem ledger_broke (hs : Stage (SessionFrames.core w)) (hl : Ledger (SessionFrames.core w) k)
    (h : Broke ctx frame w u) (hu : u.session.transfer.uploadActive = false) :
    Ledger (SessionFrames.core u) k := by
  obtain ⟨hw, key, name, idHex, ht⟩ := broke_fields hs.later h hu
  cases hl with
  | idle _ h₂ h₃ =>
      apply Ledger.idle hu
      · rw [SessionFrames.core, ht]
        exact h₂
      · rw [SessionFrames.core, ht]
        exact h₃
  | writing tmp inode h => exact absurd (hw.symm.trans h.active) (by decide)
  | deposited path inode h => exact absurd (hw.symm.trans h.active) (by decide)

/-- Every frame of the session keeps its ledger. -/
theorem ledger_steps (hs : Stage (SessionFrames.core w)) (hl : Ledger (SessionFrames.core w) k)
    (hopens : ∀ clientId p, (reasons ctx frame w).opens clientId p →
      opens (openedFile clientId p w))
    (h : Steps ctx frame w w') : LedgerAfter opens k w' := by
  cases h with
  | locked hv ht hstep =>
      refine ⟨k, ledger_same hl ?_ ?_ ?_, .same⟩
      · rw [hstep.core_eq]
      · rw [hstep.core_eq]
      · rw [hstep.core_eq]
  | handled hv hstep =>
      have hnote : Stage (SessionFrames.core (noteIdentity (parseFrame frame) w)) := hs
      cases hstep with
      | short hlen hstep => exact ⟨k, hstep.core_eq ▸ hl, .same⟩
      | routed hlen hstep =>
          refine ledger_routed hnote hl ?_ hstep
          rw [reasons_noteIdentity]
          exact hopens
      | raised hlen u hstep hcause hend =>
          cases hend with
          | dropped hactive hdrop => exact after_reset hdrop.transfer
          | kept hactive hkept => exact ⟨k, hkept ▸ ledger_broke hnote hl hstep hactive, .same⟩

/-- Every state of a run has a ledger. -/
theorem ledger_run {env : Env} {w₀ : World} (h : Sound w₀) (ht : w₀.session.transfer = {})
    (es : List Event) : ∃ k, Ledger (SessionFrames.core (runFrames env es w₀)) k := by
  induction es using List.reverseRecOn with
  | nil => exact ⟨none, ledger_reset ht⟩
  | append_singleton es e ih =>
      obtain ⟨k, hk⟩ := ih
      have hafter : LedgerAfter (fun _ => True) k (runFrames env (es ++ [e]) w₀) :=
        ledger_steps (stage_run h ht es) hk (fun _ _ _ => trivial) (run_steps h es e)
      obtain ⟨k', hk', -⟩ := hafter
      exact ⟨k', hk'⟩

end

end Seftp.UploadLedger
