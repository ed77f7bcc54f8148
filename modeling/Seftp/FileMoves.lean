import Seftp.UploadStages
import Mathlib.Logic.Relation

/-!
# What a frame does to files

A session touches files in eight ways only. `Move` lists them; a frame, however it
ends, is a chain of moves. The two that matter later carry the condition under
which the frame makes them: a temporary file is opened by a first packet that has
passed its checks, and a file takes its final name with a last packet that is
complete. Both conditions are about the state before the frame.
-/
namespace Seftp.FileMoves
open LittleEndian ExceptState OutsideWorld BlockChaining Text Protocol ClientStore ServerSession
open Answers SessionFrames AccountHandlers UploadHandlers HandlerFrames UploadSteps ChunkSteps
open AccountSteps Router FrameSteps HandshakeGate UploadStages HandlerParts

section
variable {fs : FileSystem} {q : String}

theorem create_entry_ne {path : String} (h : q ≠ path) :
    (fs.create path).2.entry q = fs.entry q := by
  unfold FileSystem.create
  rcases fs.entry path with _ | i
  · exact Function.update_of_ne h _ _
  · rfl

theorem rename_entry_ne {source target : String} (hs : q ≠ source) (ht : q ≠ target) :
    (fs.rename source target).entry q = fs.entry q :=
  (Function.update_of_ne hs _ _).trans (Function.update_of_ne ht _ _)

/-- Opening a file empties it and leaves the others. -/
theorem create_contents (fs : FileSystem) (path : String) (i : ℕ) :
    (fs.create path).2.content i = fs.content i ∨ ((fs.create path).2.content i).length = 0 := by
  have hempties (j : ℕ) : Function.update fs.content j [] i = fs.content i ∨
      (Function.update fs.content j [] i).length = 0 := by
    by_cases hi : i = j
    · rw [hi, Function.update_self]
      exact .inr rfl
    · exact .inl (Function.update_of_ne hi _ _)
  unfold FileSystem.create
  rcases fs.entry path with _ | j
  · exact hempties _
  · exact hempties j

theorem unlink_entry_ne {path : String} (h : q ≠ path) : (fs.unlink path).entry q = fs.entry q :=
  Function.update_of_ne h _ _

end

/-- The session's fields that name files, and the files. -/
structure FileView where
  active : Bool
  client : Option String
  path : Option String
  tmpPath : Option String
  tmpFile : Option ℕ
  connectionId : String
  files : FileSystem

def viewOf (c : SessionFrames.Core) : FileView :=
  { active := c.transfer.uploadActive
    client := c.transfer.uploadClientIdHex
    path := c.transfer.uploadPath
    tmpPath := c.transfer.uploadTmpPath
    tmpFile := c.transfer.uploadTmpFile
    connectionId := c.connectionId
    files := c.files }

def view (w : World) : FileView := viewOf (SessionFrames.core w)

/-- When the moves that need a reason are made. -/
structure Reasons where
  /-- A first packet opens its temporary file. -/
  opens : Bytes → Packet → Prop
  /-- The last packet is complete. -/
  stores : Prop
  /-- File operations succeed. -/
  works : Prop

/-- A temporary file is gone, or could not be removed. -/
inductive Removed (works : Prop) (tmp : Option String) (fs : FileSystem) : FileSystem → Prop
  | kept (h : works → ∀ t ∈ tmp, fs.entry t = none) : Removed works tmp fs fs
  | gone (t : String) (h : tmp = some t) : Removed works tmp fs (fs.unlink t)

inductive Move (g : Reasons) (v : FileView) : FileView → Prop
  | bound (id : String) (h : v.client = none) : Move g v { v with client := some id }
  | activated : Move g v { v with active := true }
  | aimed (clientId : Bytes) (p : Packet) (h : g.opens clientId p) (hactive : v.active = true)
      (hclient : v.client = some (hex clientId)) : Move g v { v with
        path := some (outPath (hex clientId) p.fileName)
        tmpPath := some (tmpPath (hex clientId) p.fileName v.connectionId) }
  | opened (clientId : Bytes) (p : Packet) (h : g.opens clientId p) (tmp : String)
      (htmp : tmp = tmpPath (hex clientId) p.fileName v.connectionId)
      (hthere : v.tmpPath = some tmp) : Move g v { v with
        tmpFile := some (v.files.create tmp).1, files := bare (v.files.create tmp).2 }
  | written (i : ℕ) (data : Bytes) (h : v.tmpFile = some i) :
      Move g v { v with files := bare (v.files.append i data) }
  | closed : Move g v { v with tmpFile := none }
  | renamed (tmp path : String) (h : g.stores) (htmp : v.tmpPath = some tmp)
      (hpath : v.path = some path) : Move g v { v with
        tmpPath := none, files := bare (v.files.rename tmp path) }
  | reset (fs : FileSystem) (h : Removed g.works v.tmpPath v.files fs) : Move g v
      { active := false, client := none, path := none, tmpPath := none, tmpFile := none,
        connectionId := v.connectionId, files := fs }

/-- Any number of moves. -/
def Moves (g : Reasons) (w w' : World) : Prop :=
  Relation.ReflTransGen (Move g) (view w) (view w')

/-- A move after which every file it has changed has an allowed size. -/
def SizedMove (g : Reasons) (P : ℕ → Prop) (v v' : FileView) : Prop :=
  Move g v v' ∧ ∀ i, v'.files.content i = v.files.content i ∨ P (v'.files.content i).length

/-- Any number of such moves. -/
def SizedMoves (g : Reasons) (P : ℕ → Prop) (w w' : World) : Prop :=
  Relation.ReflTransGen (SizedMove g P) (view w) (view w')

instance (g : Reasons) (P : ℕ → Prop) : Std.Refl (SizedMoves g P) := ⟨fun _ => .refl⟩

instance (g : Reasons) (P : ℕ → Prop) : IsTrans World (SizedMoves g P) :=
  ⟨fun _ _ _ h h' => h.trans h'⟩

section
variable {g : Reasons} {P : ℕ → Prop} {ctx : Ctx} {w u w' : World} {clientId version : Bytes}

theorem SizedMoves.trans (h : SizedMoves g P w u) (h' : SizedMoves g P u w') :
    SizedMoves g P w w' := Relation.ReflTransGen.trans h h'

/-- The sizes forgotten. -/
theorem SizedMoves.moves (h : SizedMoves g P w w') : Moves g w w' :=
  Relation.ReflTransGen.mono (r := SizedMove g P) (fun _ _ h => h.1) _ _ h

/-- A move that changes no content. -/
theorem SizedMoves.one (h : Move g (view w) (view u))
    (hc : (view u).files.content = (view w).files.content) : SizedMoves g P w u :=
  Relation.ReflTransGen.single ⟨h, fun i => .inl (congrFun hc i)⟩

/-- A file changed over any number of moves has an allowed size. -/
theorem SizedMoves.contents (h : SizedMoves g P w w') (i : ℕ) :
    w'.files.content i = w.files.content i ∨ P (w'.files.content i).length := by
  have hall {v : FileView} (h : Relation.ReflTransGen (SizedMove g P) (view w) v) :
      v.files.content i = (view w).files.content i ∨ P (v.files.content i).length := by
    induction h with
    | refl => exact .inl rfl
    | tail _ hmove ih =>
        rcases hmove.2 i with hsame | hsize
        · rw [hsame]
          exact ih
        · exact .inr hsize
  exact hall h

/-! ### Steps that touch no file -/

theorem SizedMoves.of_view (h : view w' = view w) : SizedMoves g P w w' := by
  unfold SizedMoves
  rw [h]

theorem SizedMoves.of_core (h : SessionFrames.core w' = SessionFrames.core w) :
    SizedMoves g P w w' :=
  .of_view (congrArg viewOf h)

theorem view_of_does {f : SessionFrames.Core → SessionFrames.Core} (h : Does f w u) :
    view u = viewOf (f (SessionFrames.core w)) := congrArg viewOf h.core_eq

theorem moves_of_quiet {α : Type} {Q : Bytes → Prop} {x : Server α} (hx : Keeps (Quiet Q) x) :
    Keeps (SizedMoves g P) x := fun w => .of_core (hx w).core_eq

theorem moves_of_account {α : Type} (env : Env) {x : Server α}
    (hx : Keeps (AccountOnly env) x) : Keeps (SizedMoves g P) x := by
  intro w
  have h := hx w
  apply SizedMoves.of_view
  simp only [view, viewOf]
  rw [h.files]
  simp only [SessionFrames.core, h.transfer, h.connectionId]

theorem view_onStore {α : Type} {x : StoreProg α} :
    wp (onStore x) (fun _ u => view u = view w) (fun _ u => view u = view w) w := wp_state.mpr rfl

theorem moves_onStore {α : Type} (x : StoreProg α) : Keeps (SizedMoves g P) (onStore x) := fun _ =>
  .of_view rfl

theorem moves_release : Keeps (SizedMoves g P) releaseUploadSlot := by
  intro w
  apply SizedMoves.of_view
  simp only [releaseUploadSlot, update]
  split <;> rfl

/-! ### Refusals -/

theorem removed_dropTmpFile (ctx : Ctx) (t : Transfer) (fs : FileSystem) :
    Removed ctx.out.FilesWork t.uploadTmpPath (bare fs) (bare (dropTmpFile ctx t fs).2) := by
  have hclose : wp (closeTmpFile ctx t) (fun _ fs' => bare fs' = bare fs)
      (fun _ _ => False) fs := by
    unfold closeTmpFile
    rcases t.uploadTmpFile with _ | i
    · rw [wp_pure]
    · rw [wp_attempt, touchFiles, wp_fileCall]
      split_ifs
      · rw [wp_pure]
        rfl
      · rfl
  have hremove (fs' : FileSystem) (h : bare fs' = bare fs) :
      wp (removeTmpFile ctx t)
        (fun _ fs'' => Removed ctx.out.FilesWork t.uploadTmpPath (bare fs) (bare fs''))
        (fun _ fs'' => Removed ctx.out.FilesWork t.uploadTmpPath (bare fs) (bare fs'')) fs' := by
    have hentry : (bare fs').entry = (bare fs).entry := congrArg FileSystem.entry h
    unfold removeTmpFile
    rcases t.uploadTmpPath with _ | path
    · rw [wp_pure, h]
      exact .kept fun _ t ht => by cases ht
    · rw [wp_attempt, removeIfExists, wp_bind, wp_fetch]
      split_ifs with hthere
      · rw [wp_fileCall]
        split_ifs with hraise
        · rw [wp_pure, show bare { fs' with calls := fs'.calls + 1 } = bare fs from h]
          exact .kept fun hworks => absurd hraise (by simp [hworks _])
        · have hgone : bare (FileSystem.unlink { fs' with calls := fs'.calls + 1 } path) =
              (bare fs).unlink path := by
            rw [← h]
            rfl
          rw [hgone]
          exact .gone path rfl
      · rw [wp_pure, h]
        refine .kept fun _ t ht => ?_
        cases ht
        rw [← hentry]
        exact Option.not_isSome_iff_eq_none.mp hthere
  have hall : wp (dropTmpFile ctx t)
      (fun _ fs'' => Removed ctx.out.FilesWork t.uploadTmpPath (bare fs) (bare fs''))
      (fun _ fs'' => Removed ctx.out.FilesWork t.uploadTmpPath (bare fs) (bare fs'')) fs :=
    wp_then hclose fun _ fs' h => hremove fs' h
  exact wp_state.mp hall

/-- A reset, whichever files can be removed. -/
theorem moves_reset (hworks : g.works = ctx.out.FilesWork) :
    Keeps (SizedMoves g P) (resetTransferState ctx) := by
  intro w
  rw [resetTransferState_eq]
  have hfs : Removed g.works (view w).tmpPath (view w).files
      (bare (dropTmpFile ctx w.session.transfer w.files).2) := by
    rw [hworks]
    exact removed_dropTmpFile ctx _ _
  have hcontent : (bare (dropTmpFile ctx w.session.transfer w.files).2).content =
      (view w).files.content := by
    generalize bare (dropTmpFile ctx w.session.transfer w.files).2 = fs at hfs ⊢
    cases hfs with
    | kept _ => rfl
    | gone _ _ => rfl
  exact .one (.reset _ hfs) hcontent

theorem moves_answer1607 (text : String) :
    Keeps (SizedMoves g P) (answer1607 ctx clientId version text) :=
  moves_of_quiet (quiet_answer1607 text)

theorem moves_parts (hworks : g.works = ctx.out.FilesWork) : RefusalParts ctx (SizedMoves g P) where
  tells hx w := .of_core (hx w).core_eq
  answers hx _ := moves_of_quiet hx
  changeUploadRecord _ _ := moves_onStore _
  log _ _ _ _ := .of_view rfl
  release := moves_release
  reset := moves_reset hworks

/-! ### Packet 1 -/

theorem moves_openUpload {p : Packet} (hempty : P 0) (hopens : g.opens clientId p)
    (hactive : (view w).active = true) (hclient : (view w).client = some (hex clientId)) :
    wp (openUpload ctx clientId p) (fun _ u => SizedMoves g P w u)
      (fun _ u => SizedMoves g P w u) w := by
  apply wp_seq wp_touchFiles
  · intro _ u hu
    have hview : view u = view w := view_of_does hu
    have hconn : u.session.connectionId = (view w).connectionId :=
      congrArg FileView.connectionId hview
    rw [wp_bind, wp_look]
    apply wp_then (wp_onTransfer _)
    intro _ v hv
    have haimed : view v = { view w with
        path := some (outPath (hex clientId) p.fileName)
        tmpPath := some (tmpPath (hex clientId) p.fileName (view w).connectionId) } := by
      rw [← hview]
      exact view_of_does hv
    have haim : Move g (view w) (view v) := by
      rw [haimed]
      exact .aimed clientId p hopens hactive hclient
    have hmoved : SizedMoves g P w v := .one haim (by rw [haimed])
    apply wp_seq (wp_openWb _)
    · rintro file x ⟨hfile, hx⟩
      apply wp_then (wp_onTransfer _)
      intro _ y hy
      have hy' : view y = { view v with
          tmpFile := some ((view v).files.create
            (tmpPath (hex clientId) p.fileName u.session.connectionId)).1
          files := bare ((view v).files.create
            (tmpPath (hex clientId) p.fileName u.session.connectionId)).2 } := by
        rw [hfile] at hy
        exact view_of_does (hx.trans hy)
      have hopen : SizedMove g P (view v) (view y) := by
        rw [hy']
        refine ⟨.opened clientId p hopens _ (by rw [haimed, hconn]) (by rw [haimed, ← hconn]), ?_⟩
        intro i
        rcases create_contents (view v).files
          (tmpPath (hex clientId) p.fileName u.session.connectionId) i with hsame | hnil
        · exact .inl hsame
        · exact .inr (hnil.symm ▸ hempty)
      have hdone : SizedMoves g P w y := hmoved.trans (.single hopen)
      apply wp_ofExcept_bind
      · intro cipher _
        apply wp_then (wp_onTransfer _)
        intro _ z hz
        have hdone' : SizedMoves g P w z := hdone.trans (.of_view (view_of_does hz))
        apply wp_mono (wp_logEvent _ _)
        · exact fun _ _ h => hdone'.trans (.of_core h.core_eq)
        · exact fun _ _ h => h.elim
      · exact fun _ _ => hdone
    · rintro _ x ⟨hx, -⟩
      exact hmoved.trans (.of_core hx.core_eq)
  · rintro _ u ⟨hu, -⟩
    exact .of_core hu.core_eq

/-- The first packet opens its file only when the session can have a slot. -/
theorem moves_startUpload {p : Packet} (hempty : P 0) (hworks : g.works = ctx.out.FilesWork)
    (hopens : CanTake (SessionFrames.core w) → g.opens clientId p)
    (hclient : (view w).client = some (hex clientId)) :
    wp (startUpload ctx clientId version p) (fun _ u => SizedMoves g P w u)
      (fun _ u => SizedMoves g P w u) w := by
  apply wp_then wp_acquireUploadSlot
  rintro _ u (⟨rfl, hcan, limiter, hu⟩ | ⟨rfl, -, -, rfl⟩)
  · simp only [Bool.not_true, Bool.false_eq_true, if_false]
    apply wp_then (wp_onTransfer _)
    intro _ v hv
    have hactive : view v = { view w with active := true } := view_of_does (hu.trans hv)
    have hmark : Move g (view w) (view v) := by
      rw [hactive]
      exact .activated
    have hmoved : SizedMoves g P w v := .one hmark (by rw [hactive])
    apply wp_then wp_markUploadProgress
    rintro _ x ⟨ts, hx⟩
    have hxv : view x = view v := view_of_does hx
    apply wp_seq view_onStore
    · intro _ y hy
      rw [wp_bind, wp_look]
      apply wp_seq view_onStore
      · intro uploadId z hz
        apply wp_then (wp_onTransfer _)
        intro _ a ha
        have hav : view a = view v := (view_of_does ha).trans (hz.trans (hy.trans hxv))
        have hmoved' : SizedMoves g P w a := hmoved.trans (.of_view hav)
        apply wp_branch
        · intro _
          have hrefuse : Keeps (SizedMoves g P) (do
              refuse ctx clientId version { answer := some "bad 828: upload id is None in db" }
              pure false) := keeps_bind ((moves_parts hworks).keeps_refuse _) fun _ => keeps_pure _
          exact wp_mono (hrefuse.wp a) (fun _ _ h => hmoved'.trans h) (fun _ _ h => hmoved'.trans h)
        · intro _
          have hopen : wp (openUpload ctx clientId p) (fun _ u => SizedMoves g P a u)
              (fun _ u => SizedMoves g P a u) a :=
            moves_openUpload hempty (hopens hcan) (by rw [hav, hactive])
              (by rw [hav, hactive]; exact hclient)
          apply wp_seq hopen
          · intro _ b hb
            rw [wp_pure]
            exact hmoved'.trans hb
          · exact fun _ _ h => hmoved'.trans h
      · exact fun _ z hz => hmoved.trans (.of_view (hz.trans (hy.trans hxv)))
    · exact fun _ y hy => hmoved.trans (.of_view (hy.trans hxv))
  · simp only [Bool.not_false, if_true]
    have hbusy : Keeps (SizedMoves g P) (do
        answer1607 ctx clientId version "server busy: too many concurrent uploads"
        resetTransferState ctx
        pure false) :=
      keeps_bind (moves_answer1607 _) fun _ => keeps_bind (moves_reset hworks) fun _ => keeps_pure _
    exact hbusy.wp u

/-! ### Ciphertext packets -/

/-- A decrypted chunk is one write to the open file. -/
theorem moves_streamed {cipher : DecryptCipher} {chunk out tail : Bytes}
    (hd : Does (streamed cipher chunk out tail) w u)
    (hroom : ∀ i ∈ w.session.transfer.uploadTmpFile, P ((w.files.content i).length + out.length)) :
    SizedMoves g P w u := by
  have hview : view u = { view w with files := appended (view w).tmpFile out (view w).files } :=
    view_of_does hd
  rcases hfile : w.session.transfer.uploadTmpFile with _ | i
  · apply SizedMoves.of_view
    rw [hview, show (view w).tmpFile = none from hfile]
    rfl
  · have hwrite : view u = { view w with files := bare ((view w).files.append i out) } := by
      rw [hview, show (view w).tmpFile = some i from hfile]
      rfl
    have hsize : ((view w).files.content i ++ out).length =
        (w.files.content i).length + out.length :=
      List.length_append
    refine Relation.ReflTransGen.single ⟨hwrite ▸ .written i out hfile, fun j => ?_⟩
    rw [hwrite]
    by_cases hj : j = i
    · subst hj
      change _ ∨ P (Function.update (view w).files.content j _ j).length
      rw [Function.update_self, hsize]
      exact .inr (hroom j hfile)
    · exact .inl (Function.update_of_ne hj _ _)

theorem moves_recoded (h : Recoded w u) : SizedMoves g P w u := by
  obtain ⟨cipher, hd⟩ := h
  exact .of_view (view_of_does hd)

/-- The packet completes the upload: it is the last, arrives in order, ends the
padding and brings the announced sizes. -/
structure Finishing (env : Env) (p : Packet) (t : Transfer) : Prop where
  last : p.packetNum = p.totalPackets
  order : checkOrder t p = .ok ()
  plain : ∃ cipher final, t.uploadDecryptCipher = some cipher ∧
    unpad 16 (t.uploadPlainTail ++
      cbcDecrypt (env.aesDecrypt cipher.key) 16 cipher.chain p.cipherChunk) = some final ∧
    t.uploadPlainBytesWritten + final.length = p.origFileSize
  received : some (t.receivedCipherBytes + p.cipherChunk.length) = t.expectedContentSize

/-- The packet is the next one and adds `out` to the file. -/
structure Adds (env : Env) (p : Packet) (t : Transfer) (out : Bytes) : Prop where
  order : checkOrder t p = .ok ()
  aligned : 16 ∣ p.cipherChunk.length
  plain : ∃ cipher tail, t.uploadDecryptCipher = some cipher ∧
    splitPlain (p.packetNum = p.totalPackets) (t.uploadPlainTail ++
      cbcDecrypt (env.aesDecrypt cipher.key) 16 cipher.chain p.cipherChunk) = some (out, tail)

theorem moves_storeUpload {p : Packet} {tmp path : String} (hworks : g.works = ctx.out.FilesWork)
    (hstores : w.session.transfer.uploadPlainBytesWritten = p.origFileSize → g.stores)
    (htmp : w.session.transfer.uploadTmpPath = some tmp)
    (hpath : w.session.transfer.uploadPath = some path) :
    wp (storeUpload ctx clientId version p tmp path) (fun _ u => SizedMoves g P w u)
      (fun _ u => SizedMoves g P w u) w := by
  apply wp_seq wp_touchFiles
  · intro _ u hu
    apply wp_seq wp_touchFiles
    · intro _ v hv
      apply wp_then (wp_onTransfer _)
      intro _ x hx
      have hall := (hu.trans hv).trans hx
      have hwritten : x.session.transfer.uploadPlainBytesWritten =
          w.session.transfer.uploadPlainBytesWritten :=
        congrArg (fun c => c.transfer.uploadPlainBytesWritten) hall.core_eq
      have hclosed : view x = { view w with tmpFile := none } := view_of_does hall
      have hclose : Move g (view w) (view x) := by
        rw [hclosed]
        exact .closed
      have hmoved : SizedMoves g P w x := .one hclose (by rw [hclosed])
      rw [wp_bind, wp_look, hwritten]
      split_ifs with hsize
      · exact wp_mono (((moves_parts hworks).keeps_refuse _).wp x) (fun _ _ h => hmoved.trans h)
          (fun _ _ h => hmoved.trans h)
      · apply wp_seq (wp_replaceFile tmp path)
        · intro _ y hy
          apply wp_then (wp_onTransfer _)
          intro _ z hz
          have hmove : view z = { view x with
              tmpPath := none, files := bare ((view x).files.rename tmp path) } :=
            view_of_does (hy.trans hz)
          have hrename : Move g (view x) (view z) := by
            rw [hmove]
            refine .renamed tmp path (hstores (not_not.mp hsize)) ?_ ?_
            · rw [hclosed]
              exact htmp
            · rw [hclosed]
              exact hpath
          have hdone : SizedMoves g P w z := hmoved.trans (.one hrename (by rw [hmove]; rfl))
          have hanswer : Keeps (SizedMoves g P) (answer1603 ctx clientId version p.fileName
              p.contentSize x.session.transfer.uploadCrc32State) :=
                moves_of_quiet (quiet_answer1603 _ _ _)
          exact wp_mono (hanswer.wp z) (fun _ _ h => hdone.trans h) (fun _ _ h => hdone.trans h)
        · exact fun _ y hy => hmoved.trans (.of_core hy.1.core_eq)
    · exact fun _ v hv => .of_core (hu.trans hv.1).core_eq
  · exact fun _ u hu => .of_core hu.1.core_eq

theorem moves_finishUpload {p : Packet} (hworks : g.works = ctx.out.FilesWork)
    (hstores : some w.session.transfer.receivedCipherBytes =
        w.session.transfer.expectedContentSize →
      w.session.transfer.uploadPlainBytesWritten = p.origFileSize → g.stores) :
    wp (finishUpload ctx clientId version p) (fun _ u => SizedMoves g P w u)
      (fun _ u => SizedMoves g P w u) w := by
  rw [finishUpload, wp_bind, wp_look]
  split_ifs with hreceived
  · exact ((moves_parts hworks).keeps_refuse _).wp w
  · apply wp_seq (wp_touch _)
    · intro _ u hu
      have ht : u.session.transfer = w.session.transfer := congrArg Core.transfer hu.core_eq
      have hmoved : SizedMoves g P w u := .of_core hu.core_eq
      split
      · rename_i file tmp path hfile htmp hpath
        have hstore : wp (storeUpload ctx clientId version p tmp path)
            (fun _ v => SizedMoves g P u v)
            (fun _ v => SizedMoves g P u v) u :=
          moves_storeUpload hworks (by rw [ht]; exact hstores (not_not.mp hreceived))
            (by rw [ht, htmp]) (by rw [ht, hpath])
        exact wp_mono hstore (fun _ _ h => hmoved.trans h) (fun _ _ h => hmoved.trans h)
      · exact wp_mono (((moves_parts hworks).keeps_refuse _).wp u) (fun _ _ h => hmoved.trans h)
          (fun _ _ h => hmoved.trans h)
    · exact fun _ u hu => .of_core hu.1.core_eq

theorem moves_receiveChunk {p : Packet} (hworks : g.works = ctx.out.FilesWork)
    (hroom : ∀ out, Adds ctx.env p w.session.transfer out →
      ∀ i ∈ w.session.transfer.uploadTmpFile, P ((w.files.content i).length + out.length))
    (hstores : Finishing ctx.env p w.session.transfer → g.stores) :
    wp (receiveChunk ctx clientId version p) (fun _ u => SizedMoves g P w u)
      (fun _ u => SizedMoves g P w u) w := by
  rw [receiveChunk, wp_bind, wp_look]
  rcases horder : checkOrder w.session.transfer p with r | ⟨⟩
  · exact ((moves_parts hworks).keeps_refuse r).wp w
  apply wp_then wp_markUploadProgress
  rintro _ u ⟨ts, hu⟩
  have htu : u.session.transfer = { w.session.transfer with lastUploadProgressTs := some ts } :=
    congrArg Core.transfer hu.core_eq
  have hmoved : SizedMoves g P w u := .of_view (view_of_does hu)
  have hcontent : u.files.content = w.files.content :=
    congrArg (fun c => c.files.content) hu.core_eq
  apply wp_seq (wp_tryDecrypt p.cipherChunk (p.packetNum = p.totalPackets))
  · rintro failed v (⟨rfl, cipher, out, tail, hdec, hdoes⟩ | ⟨text, rfl, hrecoded, -⟩)
    · rw [htu] at hdec
      have hadds : Adds ctx.env p w.session.transfer out :=
        ⟨horder, hdec.aligned, cipher, tail, hdec.cipher_eq, hdec.split⟩
      have hmoved' : SizedMoves g P w v := by
        apply hmoved.trans (moves_streamed hdoes _)
        rw [htu, hcontent]
        exact hroom out hadds
      apply wp_then (wp_onTransfer _)
      intro _ x hx
      have hmoved'' : SizedMoves g P w x := hmoved'.trans (.of_view (view_of_does hx))
      have hall := (hu.trans hdoes).trans hx
      split_ifs with hlast
      · have hfinish : wp (finishUpload ctx clientId version p) (fun _ y => SizedMoves g P x y)
            (fun _ y => SizedMoves g P x y) x := by
          apply moves_finishUpload hworks
          intro hreceived hwritten
          have htx := congrArg Core.transfer hall.core_eq
          rw [show x.session.transfer = _ from htx] at hreceived hwritten
          apply hstores
          have hsplit := hdec.split
          rw [splitPlain, if_pos (by simpa using hlast)] at hsplit
          rcases hun : unpad 16 (w.session.transfer.uploadPlainTail ++
              cbcDecrypt (ctx.env.aesDecrypt cipher.key) 16 cipher.chain
                p.cipherChunk) with _ | final
          · rw [hun] at hsplit
            cases hsplit
          · rw [hun] at hsplit
            cases hsplit
            exact ⟨hlast, horder, ⟨cipher, _, hdec.cipher_eq, hun, hwritten⟩, hreceived⟩
        exact wp_mono hfinish (fun _ _ h => hmoved''.trans h) (fun _ _ h => hmoved''.trans h)
      · rw [wp_pure]
        exact hmoved''
    · have hmoved' : SizedMoves g P w v := hmoved.trans (moves_recoded hrecoded)
      exact wp_mono (((moves_parts hworks).keeps_refuse _).wp v) (fun _ _ h => hmoved'.trans h)
        (fun _ _ h => hmoved'.trans h)
  · exact fun _ v hv => hmoved.trans (moves_recoded hv.1)

/-- The transfer with the cipher of a new upload and nothing written. -/
def begunTransfer (t : Transfer) : Transfer :=
  { t with
    uploadDecryptCipher := some
      { key := t.uploadAesKey.getD [], chain := (t.transferIv.map Subtype.val).getD [] }
    uploadPlainTail := []
    uploadPlainBytesWritten := 0 }

/-- What the order and the decryption of a packet are judged by: packet 1 starts
the upload first. -/
def readyFor (p : Packet) (t : Transfer) : Transfer :=
  if p.packetNum = 1 then begunTransfer t else t

/-- The length of the file that the packet adds to; packet 1 opens an empty one. -/
def fileLength (p : Packet) (w : World) : ℕ :=
  if p.packetNum = 1 then 0
  else (w.session.transfer.uploadTmpFile.map fun i => (w.files.content i).length).getD 0

theorem moves_admitPacket {p : Packet} (hempty : P 0) (hworks : g.works = ctx.out.FilesWork)
    (hclient : (view w).client = some (hex clientId))
    (hopens : p.packetNum = 1 → checkChunk ctx.env.config w.session.transfer p = .ok () →
      CanTake (SessionFrames.core w) → g.opens clientId p)
    (hroom : checkChunk ctx.env.config w.session.transfer p = .ok () →
      (p.packetNum = 1 → CanTake (SessionFrames.core w)) →
      ∀ out, Adds ctx.env p (readyFor p w.session.transfer) out →
        P (fileLength p w + out.length))
    (hstores : checkChunk ctx.env.config w.session.transfer p = .ok () →
      (p.packetNum = 1 → CanTake (SessionFrames.core w)) →
      Finishing ctx.env p (readyFor p w.session.transfer) → g.stores) :
    wp (admitPacket ctx clientId version p) (fun _ u => SizedMoves g P w u)
      (fun _ u => SizedMoves g P w u) w := by
  rw [admitPacket, wp_bind, wp_look]
  split_ifs with hzero hone
  · rcases hiv : acceptIv w.session.transfer p with r | t
    · exact ((moves_parts hworks).keeps_refuse r).wp w
    · apply wp_mono (wp_onTransfer _)
      · intro _ u hu
        apply SizedMoves.of_view
        rw [view_of_does hu]
        unfold acceptIv at hiv
        split_ifs at hiv
        cases hiv
        rfl
      · exact fun _ _ h => h.elim
  · rcases hcheck : checkChunk ctx.env.config w.session.transfer p with r | ⟨⟩
    · exact ((moves_parts hworks).keeps_refuse r).wp w
    have hstart : wp (startUpload ctx clientId version p) (fun _ u => SizedMoves g P w u)
        (fun _ u => SizedMoves g P w u) w :=
      moves_startUpload hempty hworks (hopens hone hcheck) hclient
    apply wp_seq (wp_and (wp_startUpload p) hstart)
    · rintro go x ⟨hgo, hx⟩
      apply wp_branch
      · rintro rfl
        rcases hgo with ⟨-, hstarted⟩ | ⟨hno, -⟩
        · obtain ⟨ts, time, limiter, hdoes⟩ := hstarted.does
          have htx := congrArg Core.transfer hdoes.core_eq
          have hrest : wp (receiveChunk ctx clientId version p) (fun _ u => SizedMoves g P x u)
              (fun _ u => SizedMoves g P x u) x := by
            have hready : readyFor p w.session.transfer = begunTransfer w.session.transfer :=
              if_pos hone
            apply moves_receiveChunk hworks
            · intro out hadds i hi
              have hall := hroom hcheck (fun _ => hstarted.canTake) out
              rw [hready, fileLength, if_pos hone] at hall
              rw [started_content hstarted hi]
              rw [show x.session.transfer = _ from htx] at hadds
              exact hall ⟨hadds.order, hadds.aligned, hadds.plain⟩
            · rw [show x.session.transfer = _ from htx]
              intro hfin
              refine hstores hcheck (fun _ => hstarted.canTake) ?_
              rw [hready]
              exact ⟨hfin.last, hfin.order, hfin.plain, hfin.received⟩
          exact wp_mono hrest (fun _ _ h => hx.trans h) (fun _ _ h => hx.trans h)
        · cases hno
      · intro _
        rw [wp_pure]
        exact hx
    · exact fun _ _ h => h.2
  · rcases hcheck : checkChunk ctx.env.config w.session.transfer p with r | ⟨⟩
    · exact ((moves_parts hworks).keeps_refuse r).wp w
    rw [wp_bind, wp_pure]
    have hready : readyFor p w.session.transfer = w.session.transfer := if_neg hone
    rw [hready] at hroom hstores
    apply moves_receiveChunk hworks
    · intro out hadds i hi
      have hall := hroom hcheck (fun h => (hone h).elim) out hadds
      rw [fileLength, if_neg hone, hi] at hall
      exact hall
    · exact hstores hcheck fun h => (hone h).elim

/-- The packet of a frame that gets past the checks against packet 0, with the
transfer these were made on. -/
structure Passes (ctx : Ctx) (clientId payload : Bytes) (w : World) (p : Packet) (t : Transfer) :
    Prop where
  parses : parse828 payload = .ok p
  binds : bindUpload w.store (hex clientId) w.session.transfer = .ok t
  owns : t.uploadClientIdHex = some (hex clientId)
  header : validateHeader ctx.env.config p = none
  check : checkChunk ctx.env.config t p = .ok ()
  canTake : p.packetNum = 1 → CanTake (SessionFrames.core w)

/-- A file has an allowed size when it is opened and after the packet of the payload. -/
structure Roomy (P : ℕ → Prop) (ctx : Ctx) (clientId payload : Bytes) (w : World) : Prop where
  empty : P 0
  adds : ∀ p t out, Passes ctx clientId payload w p t → Adds ctx.env p (readyFor p t) out →
    P (fileLength p w + out.length)

theorem moves_request828 {payload : Bytes} (hroom : Roomy P ctx clientId payload w)
    (hworks : g.works = ctx.out.FilesWork)
    (hopens : ∀ p t, Begins ctx clientId payload w p t → g.opens clientId p)
    (hstores : ∀ p t, Passes ctx clientId payload w p t → Finishing ctx.env p (readyFor p t) →
      g.stores) :
    wp (request828 ctx payload version clientId) (fun _ u => SizedMoves g P w u)
      (fun _ u => SizedMoves g P w u) w := by
  unfold request828
  rcases hparse : parse828 payload with r | p
  · exact ((moves_parts hworks).keeps_refuse r).wp w
  dsimp only
  rw [wp_bind, wp_fetch]
  rcases hbind : bindUpload w.store (hex clientId) w.session.transfer with r | t
  · exact ((moves_parts hworks).keeps_refuse r).wp w
  dsimp only
  apply wp_then (wp_onTransfer _)
  intro _ u hu
  have htu : u.session.transfer = t := congrArg Core.transfer hu.core_eq
  have hmoved : SizedMoves g P w u := by
    have hview : view u = viewOf { SessionFrames.core w with transfer := t } := view_of_does hu
    rcases bindUpload_ok hbind with ⟨-, rfl⟩ | ⟨hnone, record, b64, key, -, -, -, rfl⟩
    · exact .of_view hview
    · have hbound : Move g (view w) (view u) := by
        rw [hview]
        exact .bound (hex clientId) hnone
      exact .one hbound (by rw [hview]; rfl)
  apply wp_branch
  · intro _
    exact wp_mono (((moves_parts hworks).keeps_refuse _).wp u) (fun _ _ h => hmoved.trans h)
      (fun _ _ h => hmoved.trans h)
  · intro hown
    rcases hheader : validateHeader ctx.env.config p with _ | text
    · have hlength : fileLength p u = fileLength p w := by
        have hfile : u.session.transfer.uploadTmpFile = w.session.transfer.uploadTmpFile := by
          rw [htu]
          rcases bindUpload_ok hbind with ⟨-, rfl⟩ | ⟨-, record, b64, key, -, -, -, rfl⟩ <;> rfl
        have hcontent : u.files.content = w.files.content :=
          congrArg (fun c => c.files.content) hu.core_eq
        rw [fileLength, fileLength, hfile, hcontent]
      have hadmits : wp (admitPacket ctx clientId version p) (fun _ v => SizedMoves g P u v)
          (fun _ v => SizedMoves g P u v) u := by
        apply moves_admitPacket hroom.empty hworks
        · change u.session.transfer.uploadClientIdHex = _
          rw [htu]
          exact not_not.mp hown
        · intro hone hcheck hcan
          rw [htu] at hcheck
          rw [hu.core_eq] at hcan
          exact hopens p t ⟨hparse, hbind, not_not.mp hown, hheader, hone, hcheck, hcan⟩
        · intro hcheck hcan out hadds
          rw [htu] at hcheck hadds
          rw [hu.core_eq] at hcan
          rw [hlength]
          exact hroom.adds p t out ⟨hparse, hbind, not_not.mp hown, hheader, hcheck, hcan⟩ hadds
        · intro hcheck hcan hfin
          rw [htu] at hcheck hfin
          rw [hu.core_eq] at hcan
          exact hstores p t ⟨hparse, hbind, not_not.mp hown, hheader, hcheck, hcan⟩ hfin
      exact wp_mono hadmits (fun _ _ h => hmoved.trans h) (fun _ _ h => hmoved.trans h)
    · have hreport : Keeps (SizedMoves g P) (do
          attempt (answer1607 ctx clientId version text) fun _ => pure ()
          abandon ctx) :=
        keeps_bind (keeps_attempt (moves_answer1607 _) fun _ => keeps_pure _) fun _ =>
          (moves_parts hworks).keeps_abandon
      exact wp_mono (hreport.wp u) (fun _ _ h => hmoved.trans h) (fun _ _ h => hmoved.trans h)

/-! ### Frames -/

theorem moves_onSession {f : Session → Session}
    (h : ∀ s, (f s).transfer = s.transfer ∧ (f s).connectionId = s.connectionId) :
    Keeps (SizedMoves g P) (onSession f) := by
  intro w
  obtain ⟨ht, hc⟩ := h w.session
  apply SizedMoves.of_view
  simp only [view, viewOf, SessionFrames.core, onSession, update, World.setSession, ht, hc]

theorem moves_request829 (payload : Bytes) :
    Keeps (SizedMoves g P) (request829 ctx payload version clientId) := by
  have hset (f : Handshake → Handshake) :
      Keeps (SizedMoves g P) (onSession fun s => { s with handshake := f s.handshake }) :=
    moves_onSession fun _ => ⟨rfl, rfl⟩
  refine keeps_look_bind fun h => keeps_ite (moves_answer1607 _) (keeps_ite (moves_answer1607 _)
    (keeps_ite (moves_answer1607 _) (keeps_ite (moves_answer1607 _) (keeps_ite (moves_answer1607 _)
      (keeps_ite (moves_answer1607 _) ?_)))))
  exact keeps_bind (hset fun h => { h with
      securityVersion := some (payload.headD 0), clientNonce := some ((payload.drop 1).take 32) })
    fun _ => keeps_look_bind fun n => keeps_ofExcept_bind fun signature _ =>
      keeps_bind (hset fun h => { h with serverNonce := some (ctx.out.randomBytes n 32).val })
        fun _ => moves_of_quiet (quiet_answer1608 _ _ _ _)

theorem moves_request830 (payload : Bytes) :
    Keeps (SizedMoves g P) (request830 ctx payload version clientId) := by
  have hset : Keeps (SizedMoves g P)
      (onSession fun s => { s with handshake := { s.handshake with verified := true } }) :=
    moves_onSession fun _ => ⟨rfl, rfl⟩
  exact keeps_look_bind fun h => keeps_ite (moves_answer1607 _) (keeps_ite (moves_answer1607 _)
    (keeps_ite (moves_answer1607 _) hset))

/-- Why a frame touches files, from the state before it. -/
def reasons (ctx : Ctx) (frame : Bytes) (w : World) : Reasons where
  opens clientId p := wellFormed frame = true ∧ (parseFrame frame).code = 828 ∧
    clientId = (parseFrame frame).clientId ∧
    ∃ t, Begins ctx clientId (parseFrame frame).payload w p t
  stores := wellFormed frame = true ∧ (parseFrame frame).code = 828 ∧
    ∃ p t, Passes ctx (parseFrame frame).clientId (parseFrame frame).payload w p t ∧
      Finishing ctx.env p (readyFor p t)
  works := ctx.out.FilesWork

theorem moves_dispatchAs {frame : Bytes} (verified : Bool) (hform : wellFormed frame = true)
    (hroom : Roomy P ctx (parseFrame frame).clientId (parseFrame frame).payload w) :
    wp (dispatchAs handlers ctx (parseFrame frame) verified)
      (fun _ u => SizedMoves (reasons ctx frame w) P w u)
      (fun _ u => SizedMoves (reasons ctx frame w) P w u) w := by
  unfold dispatchAs
  apply wp_branch
  · exact fun _ => (moves_answer1607 _).wp w
  intro _
  apply wp_branch
  · exact fun _ => (moves_answer1607 _).wp w
  intro _
  apply wp_branch
  · exact fun _ => (moves_of_account ctx.env (account_request825 _)).wp w
  intro _
  apply wp_branch
  · exact fun _ => (moves_of_account ctx.env (account_request827 _)).wp w
  intro _
  apply wp_branch
  · exact fun _ => (moves_of_account ctx.env (account_request826 _)).wp w
  intro _
  apply wp_branch
  · intro hcode
    exact moves_request828 hroom rfl (fun p t h => ⟨hform, hcode, rfl, t, h⟩)
      (fun p t h hfin => ⟨hform, hcode, p, t, h, hfin⟩)
  intro _
  apply wp_branch
  · exact fun _ => (moves_request829 _).wp w
  intro _
  apply wp_branch
  · exact fun _ => (moves_request830 _).wp w
  intro _
  apply wp_branch
  · exact fun _ => ((moves_parts rfl).keeps_request900 _).wp w
  intro _
  apply wp_branch
  · exact fun _ => ((moves_parts rfl).keeps_request901 _).wp w
  intro _
  apply wp_branch
  · exact fun _ => ((moves_parts rfl).keeps_request902 _).wp w
  intro _
  have hunknown : Keeps (SizedMoves (reasons ctx frame w) P) (do
      onFrameBad "unknown_code"
      answer1607 ctx (parseFrame frame).clientId (parseFrame frame).version
        "protocol error: unknown code"
      let active ← look fun w => w.session.transfer.uploadActive
      if active then resetTransferState ctx else pure ()) :=
    keeps_bind (moves_onSession fun _ => ⟨rfl, rfl⟩) fun _ => keeps_bind (moves_answer1607 _)
      fun _ => keeps_look_bind fun active => keeps_ite (moves_reset rfl) (keeps_pure _)
  exact hunknown.wp w

theorem moves_recover (hworks : g.works = ctx.out.FilesWork) (r : Request) (e : PyError) :
    Keeps (SizedMoves g P) (recover ctx r e) := by
  refine keeps_bind (moves_onSession fun _ => ⟨rfl, rfl⟩) fun _ => keeps_look_bind fun reason =>
    keeps_ite (keeps_raise _) (keeps_bind ?_ fun _ => keeps_look_bind fun active =>
      keeps_ite (moves_reset hworks) (keeps_pure _))
  exact keeps_attempt (moves_answer1607 _) fun _ => keeps_pure _

theorem moves_routeFrame {frame : Bytes}
    (hroom : Roomy P ctx (parseFrame frame).clientId (parseFrame frame).payload w) :
    wp (routeFrame handlers ctx frame)
      (fun _ u => SizedMoves (reasons ctx frame w) P w u)
      (fun _ u => SizedMoves (reasons ctx frame w) P w u) w := by
  have hmalformed (reason text : String) : Keeps (SizedMoves (reasons ctx frame w) P) (do
      onFrameBad reason
      answer1607 ctx (parseFrame frame).clientId (parseFrame frame).version text
      resetTransferState ctx) :=
    keeps_bind (moves_onSession fun _ => ⟨rfl, rfl⟩) fun _ => keeps_bind (moves_answer1607 _)
      fun _ => moves_reset rfl
  unfold routeFrame
  apply wp_branch
  · exact fun _ => (hmalformed _ _).wp w
  intro _
  apply wp_branch
  · exact fun _ => (hmalformed _ _).wp w
  intro hform
  rw [wp_dispatch]
  exact moves_dispatchAs _ (by simpa using hform) hroom

theorem passes_noteIdentity (r : Request) {payload : Bytes} {p : Packet} {t : Transfer} :
    Passes ctx clientId payload (noteIdentity r w) p t ↔ Passes ctx clientId payload w p t :=
  ⟨fun h => ⟨h.parses, h.binds, h.owns, h.header, h.check, h.canTake⟩,
    fun h => ⟨h.parses, h.binds, h.owns, h.header, h.check, h.canTake⟩⟩

/-- The note of the identity changes no reason. -/
theorem reasons_noteIdentity (frame : Bytes) (r : Request) :
    reasons ctx frame (noteIdentity r w) = reasons ctx frame w := by
  have hbegins (clientId payload : Bytes) (p : Packet) (t : Transfer) :
      Begins ctx clientId payload (noteIdentity r w) p t ↔ Begins ctx clientId payload w p t :=
    ⟨fun h => ⟨h.parses, h.binds, h.owns, h.header, h.first, h.check, h.canTake⟩,
      fun h => ⟨h.parses, h.binds, h.owns, h.header, h.first, h.check, h.canTake⟩⟩
  simp only [reasons, hbegins, passes_noteIdentity]

/-- A frame whose packet has room, however its handling ends. -/
theorem sizedMoves_handleFrame {frame : Bytes}
    (hroom : Roomy P ctx (parseFrame frame).clientId (parseFrame frame).payload w) :
    SizedMoves (reasons ctx frame w) P w (handleFrame ctx frame w).2 := by
  unfold handleFrame
  rcases Nat.lt_or_ge frame.length 17 with hlen | hlen
  · rw [handleFrameWith_short hlen]
    exact moves_onSession (fun _ => ⟨rfl, rfl⟩) w
  rw [handleFrameWith_long hlen]
  have hnote : Roomy P ctx (parseFrame frame).clientId (parseFrame frame).payload
      (noteIdentity (parseFrame frame) w) :=
    ⟨hroom.empty, fun p t out hp hout => hroom.adds p t out ((passes_noteIdentity _).mp hp) hout⟩
  have hroute : wp (routeFrame handlers ctx frame) _ _ (noteIdentity (parseFrame frame) w) :=
    moves_routeFrame hnote
  rw [reasons_noteIdentity] at hroute
  have hall : wp (attempt (routeFrame handlers ctx frame) (recover ctx (parseFrame frame)))
      (fun _ u => SizedMoves (reasons ctx frame w) P (noteIdentity (parseFrame frame) w) u)
      (fun _ u => SizedMoves (reasons ctx frame w) P (noteIdentity (parseFrame frame) w) u)
      (noteIdentity (parseFrame frame) w) := by
    rw [wp_attempt]
    apply wp_mono hroute
    · exact fun _ _ h => h
    · intro e u hu
      exact wp_mono ((moves_recover rfl _ e).wp u) (fun _ _ h => hu.trans h)
        (fun _ _ h => hu.trans h)
  exact wp_state.mp hall

/-- Whatever the frame and however its handling ends, files change by moves that
have their reasons. -/
theorem moves_handleFrame (ctx : Ctx) (frame : Bytes) (w : World) :
    Moves (reasons ctx frame w) w (handleFrame ctx frame w).2 := by
  have hroom : Roomy (fun _ => True) ctx (parseFrame frame).clientId (parseFrame frame).payload w :=
    ⟨trivial, fun _ _ _ _ _ => trivial⟩
  exact (sizedMoves_handleFrame hroom).moves

end

end Seftp.FileMoves
