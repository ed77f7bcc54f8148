import Seftp.FileMoves
import Seftp.KeyBinding

/-!
# The life of an upload row

A row is inserted as in progress and concluded once. The SQL updates do not look at
the status they replace, so this rests on the handlers: after an update the tracked
id is gone before the next frame, also when a response cannot be sent. A raise
between the update and the reset leaves an active upload, and the router resets an
active upload after every raise.
-/
namespace Seftp.RowSteps
open LittleEndian ExceptState OutsideWorld BlockChaining Text Protocol ClientStore StoreFrames
open ServerSession Answers SessionFrames AccountHandlers UploadHandlers HandlerFrames UploadSteps
open ChunkSteps AccountSteps Router FrameSteps HandshakeGate UploadStages KeyBinding

/-! ### Changes of the table -/

/-- An update that ends an upload. -/
def Concluding : UploadChange → Prop
  | .complete _ _ _ => True
  | .fail _ status _ => status ≠ .inProgress

/-- One change of the table; only rows of the kind `mine` are concluded. -/
inductive RowChange (mine : ℕ → Prop) (rows : List UploadRow) : List UploadRow → Prop
  | inserted (r : UploadRow) (hid : r.id ∉ rows.map UploadRow.id)
      (hstatus : r.status = .inProgress) : RowChange mine rows (rows ++ [r])
  | concluded (id : ℕ) (c : UploadChange) (hmine : mine id) (hc : Concluding c)
      (hrows : ∀ r ∈ rows, r.id = id → r.status = .inProgress) :
      RowChange mine rows (changeRows (some id) c rows)

/-- Any number of changes. -/
abbrev RowChanges (mine : ℕ → Prop) : List UploadRow → List UploadRow → Prop :=
  Relation.ReflTransGen (RowChange mine)

section
variable {mine : ℕ → Prop} {rows rows' : List UploadRow} {r : UploadRow}

/-- A row stays as it is unless it is in progress and of the given kind. -/
theorem mem_of_changes (h : RowChanges mine rows rows') (hr : r ∈ rows)
    (hkeep : mine r.id → r.status ≠ .inProgress) : r ∈ rows' := by
  induction h with
  | refl => exact hr
  | tail _ hstep ih =>
      cases hstep with
      | inserted r' hid hstatus => exact List.mem_append_left _ ih
      | concluded id c hmine hc hrows =>
          have hne : some r.id ≠ some id := by
            rintro ⟨⟩
            exact hkeep hmine (hrows r ih rfl)
          exact List.mem_map.mpr ⟨r, ih, if_neg hne⟩

theorem changeRows_ids (id : Option ℕ) (c : UploadChange) (rows : List UploadRow) :
    (changeRows id c rows).map UploadRow.id = rows.map UploadRow.id := by
  rw [changeRows, List.map_map]
  apply List.map_congr_left
  intro r _
  dsimp only [Function.comp]
  split
  · exact r.change_id c
  · rfl

/-- Rows are never deleted. -/
theorem ids_of_changes (h : RowChanges mine rows rows') {id : ℕ}
    (hid : id ∈ rows.map UploadRow.id) : id ∈ rows'.map UploadRow.id := by
  induction h with
  | refl => exact hid
  | tail _ hstep ih =>
      cases hstep with
      | inserted r' _ _ =>
          rw [List.map_append]
          exact List.mem_append_left _ ih
      | concluded id' c _ _ _ =>
          rw [changeRows_ids]
          exact ih

theorem changeRows_none (c : UploadChange) (rows : List UploadRow) :
    changeRows none c rows = rows := by
  simp [changeRows]

end

/-! ### What a frame may do -/

/-- The tracked upload and the table. -/
structure RowView where
  tracked : Option ℕ
  owner : Option String
  active : Bool
  connected : Bool
  rows : List UploadRow

def rowView (c : SessionFrames.Core) : RowView :=
  { tracked := c.transfer.uploadId
    owner := c.transfer.uploadClientIdHex
    active := c.transfer.uploadActive
    connected := c.store.connected
    rows := c.store.uploads }

def rowsOf (w : World) : RowView := rowView (SessionFrames.core w)

/-- The tracked row is in progress and belongs to the session's client. -/
structure RowView.Live (v : RowView) : Prop where
  active : v.tracked.isSome → v.active = true
  connected : v.tracked.isSome → v.connected = true
  row : ∀ id ∈ v.tracked, ∃ r ∈ v.rows, r.id = id ∧ r.status = .inProgress ∧
    v.owner = some r.clientIdHex

/-- The rows a frame may conclude: the tracked one and those it inserts. -/
def RowView.Mine (v : RowView) (id : ℕ) : Prop :=
  v.tracked = some id ∨ id ∉ v.rows.map UploadRow.id

/-- What a frame has done since the state `v₀`. -/
structure Within (v₀ v : RowView) : Prop where
  rows : RowChanges v₀.Mine v₀.rows v.rows
  own : ∀ id ∈ v.tracked, v₀.Mine id
  connected : v.connected = v₀.connected

/-- Between two frames. -/
def Good (v₀ v : RowView) : Prop := Within v₀ v ∧ v.Live

/-- After an update the tracked row may be concluded, but then the upload is
active. -/
def Spent (v₀ v : RowView) : Prop := Within v₀ v ∧ (v.Live ∨ v.active = true)

/-- Between frames `x` keeps the tracked row alive. -/
def Tidy {α : Type} (x : Server α) : Prop := ∀ v₀ w, Good v₀ (rowsOf w) →
  wp x (fun _ u => Good v₀ (rowsOf u)) (fun _ u => Spent v₀ (rowsOf u)) w

/-- After an update `x` gets rid of the tracked row. -/
def Ends {α : Type} (x : Server α) : Prop := ∀ v₀ w, Spent v₀ (rowsOf w) →
  wp x (fun _ u => Good v₀ (rowsOf u)) (fun _ u => Spent v₀ (rowsOf u)) w

/-- The rows of the table stay. -/
def SameRows (w w' : World) : Prop := w'.store.working.uploads = w.store.working.uploads

instance : Std.Refl SameRows := ⟨fun _ => rfl⟩

instance : IsTrans World SameRows := ⟨fun _ _ _ h h' => h'.trans h⟩

/-- Nothing that concerns rows changes. -/
def Idle (w w' : World) : Prop := rowsOf w' = rowsOf w

instance : Std.Refl Idle := ⟨fun _ => rfl⟩

instance : IsTrans World Idle := ⟨fun _ _ _ h h' => h'.trans h⟩

section
variable {α β : Type} {v₀ v : RowView}

theorem Good.spent (h : Good v₀ v) : Spent v₀ v := ⟨h.1, .inl h.2⟩

theorem live_of_untracked (h : v.tracked = none) : v.Live := by
  constructor <;> simp [h]

theorem tidy_of_ends {x : Server α} (h : Ends x) : Tidy x := fun v₀ w hw => h v₀ w hw.spent

theorem tidy_of_idle {x : Server α} (h : Keeps Idle x) : Tidy x := by
  intro v₀ w hw
  apply wp_mono (h.wp w)
  · intro _ u hu
    rw [show rowsOf u = rowsOf w from hu]
    exact hw
  · intro _ u hu
    rw [show rowsOf u = rowsOf w from hu]
    exact hw.spent

theorem tidy_bind {x : Server α} {f : α → Server β} (hx : Tidy x) (hf : ∀ a, Tidy (f a)) :
    Tidy (x >>= f) := fun v₀ w hw =>
  wp_seq (hx v₀ w hw) (fun a u hu => hf a v₀ u hu) (fun _ _ h => h)

theorem tidy_look_bind {γ : Type} {f : World → γ} {g : γ → Server β} (h : ∀ c, Tidy (g c)) :
    Tidy (look f >>= g) := fun v₀ w hw => wp_bind.mpr (wp_look.mpr (h (f w) v₀ w hw))

theorem tidy_ofExcept_bind {x : Except PyError α} {f : α → Server β} (h : ∀ a, Tidy (f a)) :
    Tidy (ofExcept x >>= f) := fun v₀ w hw =>
  wp_ofExcept_bind (fun a _ => h a v₀ w hw) (fun _ _ => hw.spent)

theorem tidy_ite {c : Prop} [Decidable c] {x y : Server α} (hx : Tidy x) (hy : Tidy y) :
    Tidy (if c then x else y) :=
      fun v₀ w hw => wp_branch (fun _ => hx v₀ w hw) (fun _ => hy v₀ w hw)

theorem ends_bind {x : Server α} {f : α → Server β} (hx : Keeps Idle x) (hf : ∀ a, Ends (f a)) :
    Ends (x >>= f) := by
  intro v₀ w hw
  apply wp_seq (hx.wp w)
  · intro a u hu
    apply hf a v₀ u
    rw [show rowsOf u = rowsOf w from hu]
    exact hw
  · intro _ u hu
    rw [show rowsOf u = rowsOf w from hu]
    exact hw

end

/-! ### Steps that leave rows alone -/

section
variable {ctx : Ctx} {clientId version : Bytes}

theorem idle_of_quiet {α : Type} {P : Bytes → Prop} {x : Server α} (hx : Keeps (Quiet P) x) :
    Keeps Idle x := fun w => congrArg rowView (hx w).core_eq

theorem idle_of_tells {α : Type} {x : Server α} (hx : Keeps (Tells []) x) : Keeps Idle x :=
  fun w => congrArg rowView (hx w).core_eq

theorem idle_of_account {α : Type} (env : Env) {x : Server α} (hx : Keeps (AccountOnly env) x) :
    Keeps Idle x := by
  intro w
  have h := hx w
  simp only [Idle, rowsOf, rowView, SessionFrames.core, StoreFrames.core, h.transfer, h.uploads,
    h.connected]

theorem idle_onTransfer {f : Transfer → Transfer} (h : ∀ t, (f t).uploadId = t.uploadId ∧
    (f t).uploadClientIdHex = t.uploadClientIdHex ∧ (f t).uploadActive = t.uploadActive) :
    Keeps Idle (onTransfer f) := by
  intro w
  obtain ⟨hid, howner, hactive⟩ := h w.session.transfer
  simp only [Idle, rowsOf, rowView, SessionFrames.core, onTransfer, update, World.setTransfer, hid,
    howner, hactive]

theorem idle_onFiles {α : Type} (x : FileProg α) : Keeps Idle (onFiles x) := fun _ => rfl

theorem idle_onSession {f : Session → Session} (h : ∀ s, (f s).transfer = s.transfer) :
    Keeps Idle (onSession f) := by
  intro w
  simp only [Idle, rowsOf, rowView, SessionFrames.core, onSession, update, World.setSession, h]

theorem idle_release : Keeps Idle releaseUploadSlot := by
  intro w
  simp only [releaseUploadSlot, update]
  split <;> rfl

theorem idle_acquireUploadSlot : Keeps Idle acquireUploadSlot := by
  refine keeps_bind keeps_fetch fun w => keeps_ite (keeps_pure _) (keeps_ite ?_ (keeps_pure _))
  exact keeps_bind (keeps_update fun _ => rfl) fun _ => keeps_pure _

theorem idle_answer1607 (text : String) : Keeps Idle (answer1607 ctx clientId version text) :=
  idle_of_quiet (quiet_answer1607 text)

theorem idle_touch (id : String) : Keeps Idle (onStore (touchClientLastSeen ctx.out id)) :=
  idle_of_tells (tells_touch id)

theorem idle_log (key : LogKey) (event : String) : Keeps Idle (logEvent ctx key event) :=
  idle_of_tells (tells_logEvent key event)

theorem idle_appendLog (key : LogKey) (event now : String) : Keeps Idle
    (update fun w : World => w.setStore (w.store.appendLog key event now) : Server Unit) :=
  fun _ => rfl

theorem idle_markUploadProgress : Keeps Idle (markUploadProgress ctx) := by
  have hclock : Keeps Idle (monotonic ctx) :=
    keeps_look_bind fun n => keeps_bind (idle_onSession fun _ => rfl) fun _ => keeps_pure _
  have hset (now : ℚ) :
      Keeps Idle (onTransfer fun t => { t with lastUploadProgressTs := some now }) :=
    idle_onTransfer fun _ => ⟨rfl, rfl, rfl⟩
  exact keeps_bind hclock fun now => keeps_bind (hset now) fun _ =>
    keeps_bind hclock fun _ => idle_onSession fun _ => rfl

theorem idle_openUpload (p : Packet) : Keeps Idle (openUpload ctx clientId p) := by
  refine keeps_bind (idle_onFiles _) fun _ => keeps_look_bind fun s => ?_
  refine keeps_bind (idle_onTransfer fun _ => ⟨rfl, rfl, rfl⟩) fun _ => ?_
  refine keeps_bind (idle_onFiles _) fun file => ?_
  refine keeps_bind (idle_onTransfer fun _ => ⟨rfl, rfl, rfl⟩) fun _ => ?_
  refine keeps_ofExcept_bind fun cipher _ => ?_
  exact keeps_bind (idle_onTransfer fun _ => ⟨rfl, rfl, rfl⟩) fun _ => idle_log _ _

theorem idle_writePlainStream (plain : Bytes) : Keeps Idle (writePlainStream ctx plain) := by
  refine keeps_ite (keeps_pure _) (keeps_look_bind fun file => ?_)
  rcases file with _ | inode
  · exact keeps_raise _
  · exact keeps_bind (idle_onFiles _) fun _ => idle_onTransfer fun _ => ⟨rfl, rfl, rfl⟩

theorem idle_processStreamingCipherChunk (chunk : Bytes) (isLast : Bool) :
    Keeps Idle (processStreamingCipherChunk ctx chunk isLast) := by
  have htail (tail : Bytes) : Keeps Idle (onTransfer fun t => { t with uploadPlainTail := tail }) :=
    idle_onTransfer fun _ => ⟨rfl, rfl, rfl⟩
  refine keeps_ite (keeps_raise _) (keeps_ite (keeps_raise _) ?_)
  refine keeps_bind (keeps_look_bind fun cipher => ?_) fun plain => keeps_look_bind fun tail => ?_
  · rcases cipher with _ | c
    · exact keeps_raise _
    · exact keeps_bind (idle_onTransfer fun _ => ⟨rfl, rfl, rfl⟩) fun _ => keeps_pure _
  refine keeps_ite ?_ (keeps_ite (htail _) ?_)
  · rcases unpad 16 (tail ++ plain) with _ | final
    · exact keeps_raise _
    · exact keeps_bind (idle_writePlainStream _) fun _ => htail _
  · exact keeps_bind (idle_writePlainStream _) fun _ => htail _

/-! ### Concluding a row -/

theorem sameRows_of_idle {α : Type} {x : Server α} (hx : Keeps Idle x) : Keeps SameRows x :=
  fun w => congrArg RowView.rows (hx w)

theorem sameRows_reset : Keeps SameRows (resetTransferState ctx) := by
  intro w
  rw [resetTransferState_eq]
  rfl

theorem ends_reset : Ends (resetTransferState ctx) := by
  intro v₀ w hw
  rw [wp_reset]
  have hrows : (rowsOf (resetWorld ctx w)).rows = (rowsOf w).rows := rfl
  refine ⟨⟨?_, ?_, hw.1.connected⟩, live_of_untracked rfl⟩
  · rw [hrows]
    exact hw.1.rows
  · intro id hid
    cases hid

theorem ends_abandon : Ends (abandon ctx) := ends_bind idle_release fun _ => ends_reset

theorem ends_refusal (answer : Option String) : Ends (do
    sendRefusal ctx clientId version answer
    abandon ctx) := by
  apply ends_bind
  · rcases answer with _ | text
    · exact keeps_pure _
    · exact idle_answer1607 text
  · exact fun _ => ends_abandon

/-- The ids of a database's rows are unique. -/
theorem row_unique (db : Database) {r r' : UploadRow} (hr : r ∈ db.uploads) (hr' : r' ∈ db.uploads)
    (hid : r.id = r'.id) : r = r' := List.inj_on_of_nodup_map db.upload_ids_unique hr hr' hid

/-- An update of the tracked row, whether or not it can be committed. -/
theorem spent_change {v₀ : RowView} {w : World} {c : UploadChange} (hc : Concluding c)
    (hw : Good v₀ (rowsOf w)) :
    wp (onStore (changeUploadRecord ctx.out w.session.transfer.uploadId c))
      (fun _ u => Spent v₀ (rowsOf u)) (fun _ u => Spent v₀ (rowsOf u)) w := by
  have hsame {st : Store} (h : StoreFrames.core st = StoreFrames.core w.store) :
      Spent v₀ (rowsOf (w.setStore st)) := by
    rw [show rowsOf (w.setStore st) = rowsOf w by
      simp only [rowsOf, rowView, SessionFrames.core, World.setStore, h]]
    exact hw.spent
  have hchanged {st : Store} (h : Changed w.session.transfer.uploadId c w.store st) :
      Spent v₀ (rowsOf (w.setStore st)) := by
    have hview : rowsOf (w.setStore st) = { rowsOf w with
        rows := changeRows w.session.transfer.uploadId c (rowsOf w).rows } := by
      simp only [rowsOf, rowView, SessionFrames.core, World.setStore,
        show StoreFrames.core st = _ from h]
      rfl
    rw [hview]
    rcases htracked : w.session.transfer.uploadId with _ | id
    · rw [changeRows_none]
      exact hw.spent
    · obtain ⟨r, hr, hid, hstatus, -⟩ := hw.2.row id htracked
      have hrows : ∀ r' ∈ (rowsOf w).rows, r'.id = id → r'.status = .inProgress := by
        intro r' hr' hid'
        rw [row_unique w.store.working hr' hr (hid'.trans hid.symm)]
        exact hstatus
      have hnext := hw.1.rows.tail (.concluded id c (hw.1.own id htracked) hc hrows)
      refine ⟨⟨hnext, hw.1.own, hw.1.connected⟩, .inr ?_⟩
      exact hw.2.active (by rw [show (rowsOf w).tracked = _ from htracked]; rfl)
  rw [onStore, wp_zoom]
  apply wp_mono wp_changeUploadRecord
  · rintro b st (⟨-, -, rfl⟩ | ⟨-, -, hch⟩)
    · exact hsame rfl
    · exact hchanged hch
  · rintro _ st (h | h)
    · exact hsame h
    · exact hchanged h

theorem tidy_refuse (r : Refusal) : Tidy (refuse ctx clientId version r) := by
  intro v₀ w hw
  have hrecord : wp (recordFailure ctx r.failure) (fun _ u => Spent v₀ (rowsOf u))
      (fun _ u => Spent v₀ (rowsOf u)) w := by
    rcases r.failure with _ | reason
    · rw [recordFailure, wp_pure]
      exact hw.spent
    · rw [recordFailure, bestEffortFailUpload, wp_bind, wp_fetch]
      apply wp_branch
      · intro _
        rw [wp_bind]
        have hfail : Concluding (.fail reason .failed (ctx.out.now w.store.calls)) := by
          simp [Concluding]
        apply wp_mono (spent_change hfail hw)
        · intro _ u hu
          rw [wp_pure]
          exact hu
        · exact fun _ _ h => h
      · intro _
        rw [wp_pure]
        exact hw.spent
  exact wp_seq hrecord (fun _ u hu => ends_refusal r.answer v₀ u hu) (fun _ _ h => h)

/-! ### Packets -/

/-- The id of a new row is not that of an earlier one. -/
theorem nextUploadId_notMem (db : Database) : db.nextUploadId ∉ db.uploads.map UploadRow.id := by
  intro h
  obtain ⟨r, hr, hid⟩ := List.mem_map.mp h
  exact (db.lt_nextUploadId hr).ne hid

/-- The insertion of a row that the session then tracks. -/
theorem good_createUploadRecord {v₀ : RowView} {w : World} {fileName : String} {orig cipher : ℕ}
    (hw : Good v₀ (rowsOf w)) (howner : (rowsOf w).owner = some (hex clientId))
    (hactive : (rowsOf w).active = true) :
    wp (onStore (createUploadRecord ctx.out (hex clientId) fileName orig cipher))
      (fun r u => Good v₀ { rowsOf u with tracked := r }) (fun _ u => Spent v₀ (rowsOf u)) w := by
  have hnew := nextUploadId_notMem w.store.working
  have hview {st : Store} {row : ℕ → UploadRow} (h : Appended row w.store st) :
      rowsOf (w.setStore st) = { rowsOf w with
        rows := (rowsOf w).rows ++ [row w.store.working.nextUploadId] } := by
    simp only [rowsOf, rowView, SessionFrames.core, World.setStore,
      show StoreFrames.core st = _ from h]
    rfl
  have hrows (time : String) : RowChanges v₀.Mine v₀.rows ((rowsOf w).rows ++
      [newRow (hex clientId) fileName orig cipher time w.store.working.nextUploadId]) :=
    hw.1.rows.tail (.inserted _ hnew rfl)
  rw [onStore, wp_zoom]
  apply wp_mono wp_createUploadRecord
  · rintro r st (⟨rfl, -, rfl⟩ | ⟨rfl, hup, happ⟩)
    · exact ⟨⟨hw.1.rows, (fun id hid => by cases hid), hw.1.connected⟩, live_of_untracked rfl⟩
    · rw [hview happ]
      refine ⟨⟨hrows _, ?_, hw.1.connected⟩, ⟨fun _ => hactive, fun _ => hup, ?_⟩⟩
      · rintro id ⟨⟩
        exact .inr fun h => hnew (ids_of_changes hw.1.rows h)
      · rintro id ⟨⟩
        exact ⟨_, List.mem_append_right _ (List.mem_singleton.mpr rfl), rfl, rfl, howner⟩
  · rintro _ st (h | happ)
    · rw [show rowsOf (w.setStore st) = rowsOf w by
        simp only [rowsOf, rowView, SessionFrames.core, World.setStore, h]]
      exact hw.spent
    · rw [hview happ]
      exact ⟨⟨hrows _, hw.1.own, hw.1.connected⟩, .inr hactive⟩

theorem tidy_startUpload {p : Packet} {v₀ : RowView} {w : World} (hw : Good v₀ (rowsOf w))
    (howner : (rowsOf w).owner = some (hex clientId)) :
    wp (startUpload ctx clientId version p) (fun _ u => Good v₀ (rowsOf u))
      (fun _ u => Spent v₀ (rowsOf u)) w := by
  apply wp_seq (idle_acquireUploadSlot.wp w)
  · intro acquired u hu
    have hview : rowsOf u = rowsOf w := hu
    apply wp_branch
    · intro _
      have hbusy : Tidy (do
          answer1607 ctx clientId version "server busy: too many concurrent uploads"
          resetTransferState ctx
          pure false) :=
        tidy_bind (tidy_of_idle (idle_answer1607 _)) fun _ =>
          tidy_bind (tidy_of_ends ends_reset) fun _ => tidy_of_idle (keeps_pure _)
      exact hbusy v₀ u (by rwa [hview])
    intro _
    apply wp_then (wp_onTransfer _)
    intro _ v hv
    have hactive : rowsOf v = { rowsOf w with active := true } := by
      rw [← hview]
      exact congrArg rowView hv.core_eq
    have hgood : Good v₀ (rowsOf v) := by
      rw [hactive]
      exact ⟨⟨hw.1.rows, hw.1.own, hw.1.connected⟩, ⟨fun _ => rfl, hw.2.connected, hw.2.row⟩⟩
    apply wp_seq (idle_markUploadProgress.wp v)
    · intro _ x hx
      apply wp_seq ((idle_touch _).wp x)
      · intro _ y hy
        have hy' : rowsOf y = rowsOf v := (show rowsOf y = rowsOf x from hy).trans hx
        rw [wp_bind, wp_look]
        have hcreate : wp (onStore (createUploadRecord ctx.out (hex clientId) p.fileName
            p.origFileSize (y.session.transfer.expectedContentSize.getD 0))) _ _ y :=
          good_createUploadRecord (by rwa [hy']) (by rw [hy', hactive]; exact howner)
            (by rw [hy', hactive])
        apply wp_seq hcreate
        · intro uploadId z hz
          apply wp_then (wp_onTransfer _)
          intro _ a ha
          have ha' : Good v₀ (rowsOf a) := by
            rw [show rowsOf a = { rowsOf z with tracked := uploadId } from
              congrArg rowView ha.core_eq]
            exact hz
          have hend : Tidy (if uploadId.isNone then do
                refuse ctx clientId version { answer := some "bad 828: upload id is None in db" }
                pure false
              else do
                openUpload ctx clientId p
                pure true) :=
            tidy_ite (tidy_bind (tidy_refuse _) fun _ => tidy_of_idle (keeps_pure _))
              (tidy_of_idle (keeps_bind (idle_openUpload p) fun _ => keeps_pure _))
          exact hend v₀ a ha'
        · exact fun _ _ h => h
      · intro _ y hy
        rw [show rowsOf y = rowsOf v from (show rowsOf y = rowsOf x from hy).trans hx]
        exact hgood.spent
    · intro _ x hx
      rw [show rowsOf x = rowsOf v from hx]
      exact hgood.spent
  · intro _ u hu
    rw [show rowsOf u = rowsOf w from hu]
    exact hw.spent

theorem tidy_storeUpload (p : Packet) (tmp path : String) :
    Tidy (storeUpload ctx clientId version p tmp path) := by
  refine tidy_bind (tidy_of_idle (idle_onFiles _)) fun _ =>
    tidy_bind (tidy_of_idle (idle_onFiles _)) fun _ =>
      tidy_bind (tidy_of_idle (idle_onTransfer fun _ => ⟨rfl, rfl, rfl⟩)) fun _ =>
        tidy_look_bind fun t => tidy_ite (tidy_refuse _) ?_
  exact tidy_bind (tidy_of_idle (idle_onFiles _)) fun _ =>
    tidy_bind (tidy_of_idle (idle_onTransfer fun _ => ⟨rfl, rfl, rfl⟩)) fun _ =>
      tidy_of_idle (idle_of_quiet (quiet_answer1603 _ _ _))

theorem tidy_finishUpload (p : Packet) : Tidy (finishUpload ctx clientId version p) := by
  refine tidy_look_bind fun t => tidy_ite (tidy_refuse _) ?_
  refine tidy_bind (tidy_of_idle (idle_touch _)) fun _ => ?_
  split
  · exact tidy_storeUpload p _ _
  · exact tidy_refuse _

theorem tidy_receiveChunk (p : Packet) : Tidy (receiveChunk ctx clientId version p) := by
  refine tidy_look_bind fun t => ?_
  rcases checkOrder t p with r | ⟨⟩
  · exact tidy_refuse r
  refine tidy_bind (tidy_of_idle idle_markUploadProgress) fun _ => tidy_bind (tidy_of_idle ?_)
    fun failed => ?_
  · refine keeps_attempt (keeps_bind (idle_processStreamingCipherChunk _ _) fun _ => keeps_pure _)
      fun e => ?_
    split
    · exact keeps_pure _
    · exact keeps_raise _
  rcases failed with _ | text
  · exact tidy_bind (tidy_of_idle (idle_onTransfer fun _ => ⟨rfl, rfl, rfl⟩)) fun _ =>
      tidy_ite (tidy_finishUpload p) (tidy_of_idle (keeps_pure _))
  · exact tidy_refuse _

theorem tidy_admitPacket {p : Packet} {v₀ : RowView} {w : World} (hw : Good v₀ (rowsOf w))
    (howner : (rowsOf w).owner = some (hex clientId)) :
    wp (admitPacket ctx clientId version p) (fun _ u => Good v₀ (rowsOf u))
      (fun _ u => Spent v₀ (rowsOf u)) w := by
  rw [admitPacket, wp_bind, wp_look]
  apply wp_branch
  · intro _
    rcases hiv : acceptIv w.session.transfer p with r | t
    · exact tidy_refuse r v₀ w hw
    · apply wp_mono (wp_onTransfer _)
      · intro _ u hu
        have hview : rowsOf u = rowsOf w := by
          have hcore : rowsOf u = rowView { SessionFrames.core w with transfer := t } :=
            congrArg rowView hu.core_eq
          rw [hcore]
          unfold acceptIv at hiv
          split_ifs at hiv
          cases hiv
          rfl
        rwa [hview]
      · exact fun _ _ h => h.elim
  · intro _
    rcases checkChunk ctx.env.config w.session.transfer p with r | ⟨⟩
    · exact tidy_refuse r v₀ w hw
    have hrest (go : Bool) :
        Tidy (if go then receiveChunk ctx clientId version p else pure () : Server Unit) :=
      tidy_ite (tidy_receiveChunk p) (tidy_of_idle (keeps_pure _))
    apply wp_branch
    · exact fun _ => wp_seq (tidy_startUpload hw howner) (fun go u hu => hrest go v₀ u hu)
        (fun _ _ h => h)
    · intro _
      rw [wp_bind, wp_pure]
      exact hrest true v₀ w hw

/-- The first packet of an upload binds a session that tracks no row. -/
theorem good_bind {v₀ : RowView} {w u : World} {t : Transfer} (hw : Good v₀ (rowsOf w))
    (hbind : bindUpload w.store (hex clientId) w.session.transfer = .ok t)
    (hu : Does (withTransfer fun _ => t) w u) : Good v₀ (rowsOf u) := by
  have hview : rowsOf u = rowView { SessionFrames.core w with transfer := t } :=
    congrArg rowView hu.core_eq
  rw [hview]
  rcases bindUpload_ok hbind with ⟨-, rfl⟩ | ⟨hnone, record, b64, key, -, -, -, rfl⟩
  · exact hw
  · have huntracked : (rowsOf w).tracked = none := by
      rcases htracked : (rowsOf w).tracked with _ | id
      · rfl
      · obtain ⟨r, -, -, -, howner⟩ := hw.2.row id htracked
        rw [show (rowsOf w).owner = none from hnone] at howner
        cases howner
    exact ⟨⟨hw.1.rows, hw.1.own, hw.1.connected⟩, live_of_untracked huntracked⟩

theorem tidy_request828 (payload : Bytes) : Tidy (request828 ctx payload version clientId) := by
  intro v₀ w hw
  unfold request828
  rcases parse828 payload with r | p
  · exact tidy_refuse r v₀ w hw
  dsimp only
  rw [wp_bind, wp_fetch]
  rcases hbind : bindUpload w.store (hex clientId) w.session.transfer with r | t
  · exact tidy_refuse r v₀ w hw
  dsimp only
  apply wp_then (wp_onTransfer _)
  intro _ u hu
  have hgood := good_bind hw hbind hu
  apply wp_branch
  · exact fun _ => tidy_refuse _ v₀ u hgood
  intro howner
  rcases validateHeader ctx.env.config p with _ | text
  · apply tidy_admitPacket hgood
    change u.session.transfer.uploadClientIdHex = _
    rw [show u.session.transfer = t from congrArg Core.transfer hu.core_eq]
    exact not_not.mp howner
  · have hreport : Tidy (do
        attempt (answer1607 ctx clientId version text) fun _ => pure ()
        abandon ctx) :=
      tidy_bind (tidy_of_idle (keeps_attempt (idle_answer1607 _) fun _ => keeps_pure _))
        fun _ => tidy_of_ends ends_abandon
    exact hreport v₀ u hgood

/-! ### Confirmations -/

theorem tidy_request900 (payload : Bytes) : Tidy (request900 ctx payload version clientId) := by
  refine tidy_ofExcept_bind fun name => tidy_bind (tidy_of_idle (idle_touch _)) fun _ =>
    tidy_bind (tidy_of_idle (idle_log _ _)) fun _ => ?_
  intro v₀ w hw
  rw [wp_bind, wp_fetch]
  dsimp only
  split
  · rename_i id path crc hid hpath hcrc
    apply wp_branch
    · exact fun _ => tidy_refuse _ v₀ w hw
    intro _
    rw [← hid]
    have hc : Concluding (.complete path crc.toNat (ctx.out.now w.store.calls)) := trivial
    apply wp_seq (spent_change hc hw)
    · intro ok u hu
      apply wp_branch
      · exact fun _ => ends_refusal _ v₀ u hu
      · exact fun _ => ends_bind (idle_of_quiet quiet_answer1604) (fun _ => ends_abandon) v₀ u hu
    · exact fun _ _ h => h
  · exact tidy_refuse _ v₀ w hw

theorem tidy_request901 (payload : Bytes) : Tidy (request901 ctx payload version clientId) := by
  refine tidy_ofExcept_bind fun name => tidy_bind (tidy_of_idle (idle_touch _)) fun _ => ?_
  intro v₀ w hw
  rw [wp_bind, wp_fetch]
  apply wp_branch
  · exact fun _ => tidy_refuse _ v₀ w hw
  intro _
  apply wp_seq (spent_change (by simp [Concluding]) hw)
  · intro ok u hu
    apply wp_branch
    · exact fun _ => ends_refusal _ v₀ u hu
    · intro _
      apply wp_seq (ends_abandon v₀ u hu)
      · exact fun _ x hx => tidy_of_idle (idle_appendLog _ _ _) v₀ x hx
      · exact fun _ _ h => h
  · exact fun _ _ h => h

theorem tidy_request902 (payload : Bytes) : Tidy (request902 ctx payload version clientId) := by
  refine tidy_ofExcept_bind fun name => tidy_bind (tidy_of_idle (idle_touch _)) fun _ => ?_
  intro v₀ w hw
  rw [wp_bind, wp_fetch]
  apply wp_branch
  · exact fun _ => tidy_refuse _ v₀ w hw
  intro _
  apply wp_seq (spent_change (by simp [Concluding]) hw)
  · intro ok u hu
    apply wp_branch
    · exact fun _ => ends_refusal _ v₀ u hu
    · exact fun _ => ends_bind (idle_appendLog _ _ _) (fun _ =>
        ends_bind (idle_of_quiet quiet_answer1604) fun _ => ends_abandon) v₀ u hu
  · exact fun _ _ h => h

/-! ### Frames -/

theorem idle_request829 (payload : Bytes) :
    Keeps Idle (request829 ctx payload version clientId) := by
  refine keeps_look_bind fun h => keeps_ite (idle_answer1607 _) (keeps_ite (idle_answer1607 _)
    (keeps_ite (idle_answer1607 _) (keeps_ite (idle_answer1607 _) (keeps_ite (idle_answer1607 _)
      (keeps_ite (idle_answer1607 _) ?_)))))
  exact keeps_bind (idle_onSession fun _ => rfl) fun _ => keeps_look_bind fun n =>
    keeps_ofExcept_bind fun signature _ => keeps_bind (idle_onSession fun _ => rfl) fun _ =>
      idle_of_quiet (quiet_answer1608 _ _ _ _)

theorem idle_request830 (payload : Bytes) : Keeps Idle (request830 ctx payload version clientId) :=
  keeps_look_bind fun _ => keeps_ite (idle_answer1607 _) (keeps_ite (idle_answer1607 _)
    (keeps_ite (idle_answer1607 _) (idle_onSession fun _ => rfl)))

theorem idle_onFrameBad (reason : String) : Keeps Idle (onFrameBad reason) :=
  idle_of_tells (tells_onFrameBad reason)

theorem tidy_dispatchAs (r : Request) (verified : Bool) :
    Tidy (dispatchAs handlers ctx r verified) := by
  have hreply (text : String) : Tidy (answer1607 ctx r.clientId r.version text) :=
    tidy_of_idle (idle_answer1607 text)
  refine tidy_ite (hreply _) (tidy_ite (hreply _) ?_)
  refine tidy_ite (tidy_of_idle (idle_of_account ctx.env (account_request825 _))) ?_
  refine tidy_ite (tidy_of_idle (idle_of_account ctx.env (account_request827 _))) ?_
  refine tidy_ite (tidy_of_idle (idle_of_account ctx.env (account_request826 _))) ?_
  refine tidy_ite (tidy_request828 _) ?_
  refine tidy_ite (tidy_of_idle (idle_request829 _))
    (tidy_ite (tidy_of_idle (idle_request830 _)) ?_)
  refine tidy_ite (tidy_request900 _)
    (tidy_ite (tidy_request901 _) (tidy_ite (tidy_request902 _) ?_))
  exact tidy_bind (tidy_of_idle (idle_onFrameBad _)) fun _ => tidy_bind (hreply _) fun _ =>
    tidy_look_bind fun active => tidy_ite (tidy_of_ends ends_reset) (tidy_of_idle (keeps_pure _))

theorem tidy_routeFrame (frame : Bytes) : Tidy (routeFrame handlers ctx frame) := by
  have hmalformed (reason text : String) : Tidy (do
      onFrameBad reason
      answer1607 ctx (parseFrame frame).clientId (parseFrame frame).version text
      resetTransferState ctx) :=
    tidy_bind (tidy_of_idle (idle_onFrameBad _)) fun _ =>
      tidy_bind (tidy_of_idle (idle_answer1607 _)) fun _ => tidy_of_ends ends_reset
  exact tidy_ite (hmalformed _ _) (tidy_ite (hmalformed _ _)
    (tidy_look_bind fun verified => tidy_dispatchAs _ verified))

/-- After a raise an active upload is reset, so no concluded row stays tracked. -/
theorem good_recover {v₀ : RowView} {w : World} (r : Request) (e : PyError)
    (hw : Spent v₀ (rowsOf w)) :
    wp (recover ctx r e) (fun _ u => Good v₀ (rowsOf u)) (fun _ _ => False) w := by
  have hreason : wp (onFrameBad "handle_frame_exception" : Server Unit)
      (fun _ u => Idle w u ∧ u.session.disconnectReason = "handle_frame_exception")
      (fun _ _ => False) w := by
    rw [onFrameBad, onSession, wp_update]
    exact ⟨rfl, rfl⟩
  apply wp_then hreason
  rintro _ u ⟨hu, hr⟩
  -- the reason written just now is not that of a failed send, so nothing is raised again
  rw [wp_bind, wp_look, hr, if_neg (by decide), wp_bind, wp_attempt]
  have hend (v : World) (hv : Idle u v) :
      wp (look (fun w => w.session.transfer.uploadActive) >>= fun active =>
          if active = true then resetTransferState ctx else pure ())
        (fun _ u => Good v₀ (rowsOf u)) (fun _ _ => False) v := by
    have hspent : Spent v₀ (rowsOf v) := by
      rwa [show rowsOf v = rowsOf w from (show rowsOf v = rowsOf u from hv).trans hu]
    rw [wp_bind, wp_look]
    apply wp_branch
    · intro _
      have hreset : wp (resetTransferState ctx) _ _ v := ends_reset v₀ v hspent
      rw [wp_reset] at hreset ⊢
      exact hreset
    · intro hactive
      rw [wp_pure]
      exact ⟨hspent.1, hspent.2.resolve_right hactive⟩
  apply wp_mono ((idle_answer1607 _).wp u)
  · exact fun _ v hv => hend v hv
  · intro _ v hv
    rw [wp_pure]
    exact hend v hv

/-- Whatever the frame and whatever raises, the frame concludes only its own rows
and leaves a tracked row in progress. -/
theorem good_handleFrame (ctx : Ctx) (frame : Bytes) {w : World} (hw : (rowsOf w).Live) :
    Good (rowsOf w) (rowsOf (handleFrame ctx frame w).2) := by
  have hstart : Good (rowsOf w) (rowsOf w) := ⟨⟨.refl, fun id hid => .inl hid, rfl⟩, hw⟩
  unfold handleFrame
  rcases Nat.lt_or_ge frame.length 17 with hlen | hlen
  · rw [handleFrameWith_short hlen, show rowsOf (onFrameBad "short_frame_lt_17" w).2 = rowsOf w from
      idle_onFrameBad _ w]
    exact hstart
  rw [handleFrameWith_long hlen]
  have hall : wp (attempt (routeFrame handlers ctx frame) (recover ctx (parseFrame frame)))
      (fun _ u => Good (rowsOf w) (rowsOf u)) (fun _ u => Good (rowsOf w) (rowsOf u))
      (noteIdentity (parseFrame frame) w) := by
    rw [wp_attempt]
    apply wp_mono (tidy_routeFrame frame (rowsOf w) (noteIdentity (parseFrame frame) w) hstart)
    · exact fun _ _ h => h
    · exact fun e u hu => wp_mono (good_recover _ e hu) (fun _ _ h => h) (fun _ _ h => h.elim)
  exact wp_state.mp hall

end

/-! ### Any number of sessions -/

/-- What a server is started with; the connections carry their ids and the times at
which they are accepted. -/
structure Boot where
  db : Database
  connectionIds : ℕ → String
  times : ℕ → ℚ
  files : FileSystem
  limiter : UploadLimiter

/-- The started server, before any frame. -/
def Boot.system (b : Boot) : System :=
  System.start b.db (fun i => Session.fresh (b.connectionIds i) (b.times i)) b.files b.limiter

/-- Every session tracks a row of its own that is in progress. -/
structure Apart (s : System) : Prop where
  live : ∀ i, (rowsOf (s.world i)).Live
  own : ∀ i j id, (s.sessions i).transfer.uploadId = some id →
    (s.sessions j).transfer.uploadId = some id → i = j

section
variable {env : Env} {s : System}

theorem apart_boot (b : Boot) : Apart b.system := by
  constructor
  · exact fun i => live_of_untracked rfl
  · intro i j id hi
    cases hi

/-- A frame is handled in the world of its session. -/
theorem world_step (s : System) (a : Arrival) : (s.step env a).world a.connection =
    (handleFrame ⟨env, a.out⟩ a.frame (s.world a.connection)).2 := by
  simp [System.step, System.put, System.world]

/-- The frame of a session, on the table. -/
theorem good_step (env : Env) (h : Apart s) (a : Arrival) :
    Good (rowsOf (s.world a.connection)) (rowsOf ((s.step env a).world a.connection)) := by
  rw [world_step]
  exact good_handleFrame _ _ (h.live _)

theorem sessions_step (env : Env) {a : Arrival} {i : ℕ} (h : i ≠ a.connection) :
    (s.step env a).sessions i = s.sessions i := Function.update_of_ne h _ _

/-- A row that another session tracks is not one of the frame's. -/
theorem not_mine (h : Apart s) {i c id : ℕ} (hi : i ≠ c)
    (hid : (s.sessions i).transfer.uploadId = some id) : ¬ (rowsOf (s.world c)).Mine id := by
  rintro (hmine | hnew)
  · exact hi (h.own i c id hid hmine)
  · obtain ⟨r, hr, rfl, -⟩ := (h.live i).row id hid
    exact hnew (List.mem_map_of_mem hr)

theorem apart_step (h : Apart s) (a : Arrival) : Apart (s.step env a) := by
  obtain ⟨hwithin, hlive⟩ := good_step env h a
  constructor
  · intro i
    by_cases hi : i = a.connection
    · rw [hi]
      exact hlive
    · have hsession := sessions_step (s := s) env hi
      have htracked : (rowsOf ((s.step env a).world i)).tracked = (rowsOf (s.world i)).tracked :=
        congrArg (fun s => s.transfer.uploadId) hsession
      have hactive : (rowsOf ((s.step env a).world i)).active = (rowsOf (s.world i)).active :=
        congrArg (fun s => s.transfer.uploadActive) hsession
      have howner : (rowsOf ((s.step env a).world i)).owner = (rowsOf (s.world i)).owner :=
        congrArg (fun s => s.transfer.uploadClientIdHex) hsession
      constructor
      · rw [htracked, hactive]
        exact (h.live i).active
      · rw [htracked]
        exact fun hid => hwithin.connected.trans ((h.live i).connected hid)
      · rw [htracked, howner]
        intro id hid
        obtain ⟨r, hr, rfl, hstatus, hown⟩ := (h.live i).row id hid
        have hkeep := not_mine h hi hid
        exact ⟨r, mem_of_changes hwithin.rows hr fun hm => (hkeep hm).elim, rfl, hstatus, hown⟩
  · intro i j id hi hj
    by_contra hne
    by_cases hia : i = a.connection
    · have hja : j ≠ a.connection := fun hja => hne (hia.trans hja.symm)
      rw [sessions_step env hja] at hj
      rw [hia] at hi
      exact not_mine h hja hj (hwithin.own id hi)
    · rw [sessions_step env hia] at hi
      by_cases hja : j = a.connection
      · rw [hja] at hj
        exact not_mine h hia hi (hwithin.own id hj)
      · rw [sessions_step env hja] at hj
        exact hne (h.own i j id hi hj)

theorem apart_run (env : Env) (h : Apart s) (as : List Arrival) : Apart (s.run env as) := by
  induction as using List.reverseRecOn with
  | nil => exact h
  | append_singleton as a ih =>
      rw [run_snoc]
      exact apart_step ih a

/-- A concluded row stays as it is. -/
theorem mem_of_run (h : Apart s) {r : UploadRow} (hr : r ∈ s.store.working.uploads)
    (hstatus : r.status ≠ .inProgress) (as : List Arrival) :
    r ∈ (s.run env as).store.working.uploads := by
  induction as using List.reverseRecOn with
  | nil => exact hr
  | append_singleton as a ih =>
      rw [run_snoc]
      exact mem_of_changes (good_step env (apart_run env h as) a).1.rows ih fun _ => hstatus

end

/-- For any number of sessions and every order of their frames, whatever raises: a
frame changes the table by inserting rows in progress and by concluding rows in
progress that it tracks or has inserted; a concluded row never changes again; and a
tracked row is in progress, belongs to the client of its session and is tracked by
no other. -/
theorem upload_rows_change_once (env : Env) (b : Boot) (as : List Arrival) :
    (∀ a, RowChanges (rowsOf ((b.system.run env as).world a.connection)).Mine
      (b.system.run env as).store.working.uploads
      (b.system.run env (as ++ [a])).store.working.uploads) ∧
    (∀ r ∈ (b.system.run env as).store.working.uploads, r.status ≠ .inProgress →
      ∀ bs, r ∈ (b.system.run env (as ++ bs)).store.working.uploads) ∧
    ∀ i id, ((b.system.run env as).sessions i).transfer.uploadId = some id →
      (∃ r ∈ (b.system.run env as).store.working.uploads, r.id = id ∧ r.status = .inProgress ∧
        ((b.system.run env as).sessions i).transfer.uploadClientIdHex = some r.clientIdHex) ∧
      ∀ j, j ≠ i → ((b.system.run env as).sessions j).transfer.uploadId ≠ some id := by
  have hapart : Apart (b.system.run env as) := apart_run env (apart_boot b) as
  refine ⟨fun a => ?_, fun r hr hstatus bs => ?_, fun i id hid => ⟨(hapart.live i).row id hid, ?_⟩⟩
  · rw [run_snoc]
    exact (good_step env hapart a).1.rows
  · rw [run_append]
    exact mem_of_run hapart hr hstatus bs
  · intro j hj hjd
    exact hj (hapart.own j i id hjd hid)

end Seftp.RowSteps
