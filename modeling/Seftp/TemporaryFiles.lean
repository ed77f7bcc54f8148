import Seftp.ConnectionLoop
import Seftp.UploadPaths

/-!
# Temporary files

A session creates temporary files with the first packets of its uploads and has
one field for the path of the current one. A first packet that comes while a
temporary file of another name is tracked overwrites that field, and nothing
removes the file it named. In every run without such a packet each temporary file
that exists is the tracked one, and the cleanup of the connection removes it.

A file is known by its inode: a later file may have the same path.
-/
namespace Seftp.TemporaryFiles
open LittleEndian ExceptState OutsideWorld Text Protocol ClientStore ServerSession Answers
open SessionFrames UploadHandlers UploadSteps ChunkSteps Router HandshakeGate UploadStages
open ConnectionLoop FileMoves UploadSlot

/-- The frame is a first packet that gets as far as opening a temporary file at
`q`. -/
def OpensAt (env : Env) (w : World) (e : Event) (q : String) : Prop :=
  ∃ clientId p, (reasons ⟨env, e.1⟩ e.2 w).opens clientId p ∧
    q = tmpPath (hex clientId) p.fileName w.session.connectionId

/-- One of the frames has created the file `inode` at the temporary path `q`. -/
def Created (env : Env) (w₀ : World) (es : List Event) (q : String) (inode : ℕ) : Prop :=
  ∃ pre e post, es = pre ++ e :: post ∧ OpensAt env (runFrames env pre w₀) e q ∧
    inode = (runFrames env pre w₀).files.nextInode ∧
    inode < (runFrames env (pre ++ [e]) w₀).files.nextInode

/-- A frame that opens a temporary file finds none tracked, or the same. -/
def OneTemp (env : Env) (w : World) (e : Event) : Prop :=
  ∀ q, OpensAt env w e q → ∀ t ∈ w.session.transfer.uploadTmpPath, t = q

/-- Inodes in use are below the next one. -/
def FileSystem.Bounded (fs : FileSystem) : Prop := ∀ r i, fs.entry r = some i → i < fs.nextInode

/-- What holds of the created files throughout a frame. A rename only shortens
the path of a file, so a file that has left its temporary path never returns. -/
structure Kept (C : String → ℕ → Prop) (v : FileView) : Prop where
  bounded : FileSystem.Bounded v.files
  created : ∀ q i, C q i → i < v.files.nextInode
  tracked : ∀ q i, C q i → ∀ r, v.files.entry r = some i →
    (r = q ∧ v.tmpPath = some q) ∨ r.length < q.length
  paths : ∀ t ∈ v.tmpPath, v.active = true ∧ ∃ p, v.path = some p ∧ p.length < t.length

section
variable {C : String → ℕ → Prop} {v : FileView} {fs : FileSystem}

theorem length_tmpPath (h n c : String) : (outPath h n).length < (tmpPath h n c).length := by
  have hdot : ".tmp.".length = 5 := by decide
  rw [tmpPath, String.length_append, String.length_append, hdot]
  omega

theorem create_some {path : String} {i : ℕ} (h : fs.entry path = some i) :
    fs.create path = (i, { fs with
      content := Function.update fs.content i []
      journal := fs.journal ++ [.opened path] }) := by
  simp only [FileSystem.create, h]

theorem create_none {path : String} (h : fs.entry path = none) :
    fs.create path = (fs.nextInode, { fs with
      entry := Function.update fs.entry path (some fs.nextInode)
      content := Function.update fs.content fs.nextInode []
      nextInode := fs.nextInode + 1
      journal := fs.journal ++ [.opened path] }) := by
  simp only [FileSystem.create, h]

/-- Opening keeps the files there are, or adds one with the next inode. -/
theorem create_entries {path r : String} {i : ℕ} (h : (fs.create path).2.entry r = some i) :
    fs.entry r = some i ∨
      (r = path ∧ i = fs.nextInode ∧ (fs.create path).2.nextInode = fs.nextInode + 1) := by
  rcases hp : fs.entry path with _ | j
  · rw [create_none hp] at h ⊢
    by_cases hr : r = path
    · subst hr
      have : some fs.nextInode = some i :=
        (Function.update_self r (some fs.nextInode) fs.entry).symm.trans h
      exact .inr ⟨rfl, (Option.some.inj this).symm, rfl⟩
    · exact .inl ((Function.update_of_ne hr (some fs.nextInode) fs.entry).symm.trans h)
  · rw [create_some hp] at h
    exact .inl h

theorem nextInode_create (path : String) : fs.nextInode ≤ (fs.create path).2.nextInode := by
  rcases hp : fs.entry path with _ | j
  · rw [create_none hp]
    exact Nat.le_succ _
  · rw [create_some hp]

theorem rename_entry {source target r : String} {i : ℕ}
    (h : (fs.rename source target).entry r = some i) :
    r ≠ source ∧ (r = target ∧ fs.entry source = some i ∨ fs.entry r = some i) := by
  change Function.update (Function.update fs.entry target (fs.entry source)) source none r = _ at h
  by_cases hs : r = source
  · subst hs
    rw [Function.update_self] at h
    cases h
  · rw [Function.update_of_ne hs] at h
    by_cases ht : r = target
    · subst ht
      rw [Function.update_self] at h
      exact ⟨hs, .inl ⟨rfl, h⟩⟩
    · rw [Function.update_of_ne ht] at h
      exact ⟨hs, .inr h⟩

theorem unlink_entry {path r : String} {i : ℕ} (h : (fs.unlink path).entry r = some i) :
    r ≠ path ∧ fs.entry r = some i := by
  change Function.update fs.entry path none r = _ at h
  by_cases hr : r = path
  · subst hr
    rw [Function.update_self] at h
    cases h
  · rw [Function.update_of_ne hr] at h
    exact ⟨hr, h⟩

/-- After a working reset no created file is at its temporary path. -/
theorem Kept.gone {works : Prop} {fs : FileSystem} (h : Kept C v) (hw : works)
    (hfs : Removed works v.tmpPath v.files fs) :
    FileSystem.Bounded fs ∧ fs.nextInode = v.files.nextInode ∧
      ∀ q i, C q i → ∀ r, fs.entry r = some i → r.length < q.length := by
  cases hfs with
  | kept hnone =>
      refine ⟨h.bounded, rfl, fun q i hc r hr => ?_⟩
      rcases h.tracked q i hc r hr with ⟨rfl, htmp⟩ | hlt
      · rw [hnone hw r htmp] at hr
        cases hr
      · exact hlt
  | gone t hthere =>
      refine ⟨fun r i hr => h.bounded r i (unlink_entry hr).2, rfl, fun q i hc r hr => ?_⟩
      obtain ⟨hne, hr⟩ := unlink_entry hr
      rcases h.tracked q i hc r hr with ⟨rfl, htmp⟩ | hlt
      · exact (hne (Option.some.inj (htmp.symm.trans hthere))).elim
      · exact hlt

/-- Files created so far: those of earlier frames, and the inodes that have been
given out since the frame began, at the path it opens. -/
def During (C : String → ℕ → Prop) (Q : String → Prop) (first : ℕ) (v : FileView) (q : String)
    (i : ℕ) : Prop := C q i ∨ (Q q ∧ first ≤ i ∧ i < v.files.nextInode)

/-- One frame. The induction is on its moves; the path it opens is `q`. -/
theorem kept_moves {g : Reasons} {v v' : FileView} {q : String}
    (h : Relation.ReflTransGen (Move g) v v') (hworks : g.works)
    (hopens : ∀ clientId p, g.opens clientId p →
      tmpPath (hex clientId) p.fileName v.connectionId = q)
    (hone : (∃ clientId p, g.opens clientId p) → ∀ t ∈ v.tmpPath, t = q) (hk : Kept C v) :
    v'.connectionId = v.connectionId ∧ v.files.nextInode ≤ v'.files.nextInode ∧
      ((∃ clientId p, g.opens clientId p) → ∀ t ∈ v'.tmpPath, t = q) ∧
      Kept (During C (· = q) v.files.nextInode v') v' := by
  induction h with
  | refl =>
      refine ⟨rfl, le_rfl, hone, hk.bounded, ?_, ?_, hk.paths⟩
      · rintro r i (hc | ⟨-, -, hlt⟩)
        · exact hk.created r i hc
        · exact hlt
      · rintro r i (hc | ⟨-, hle, hlt⟩) s hs
        · exact hk.tracked r i hc s hs
        · have := hk.bounded s i hs
          omega
  | @tail b c _ hmove ih =>
      obtain ⟨hconn, hnext, hsame, hkept⟩ := ih
      cases hmove with
      | bound id hid =>
          exact ⟨hconn, hnext, hsame, hkept.bounded, hkept.created, hkept.tracked, hkept.paths⟩
      | activated =>
          exact ⟨hconn, hnext, hsame, hkept.bounded, hkept.created, hkept.tracked,
            fun t ht => ⟨rfl, (hkept.paths t ht).2⟩⟩
      | aimed clientId p hop hactive hclient =>
          have hq := hopens clientId p hop
          rw [← hconn] at hq
          refine ⟨hconn, hnext, fun _ t ht => (Option.some.inj ht).symm.trans hq, hkept.bounded,
            hkept.created, fun r i hc s hs => ?_, fun t ht => ⟨hactive, _, rfl, ?_⟩⟩
          · rcases hkept.tracked r i hc s hs with ⟨rfl, htmp⟩ | hlt
            · exact .inl ⟨rfl, congrArg some (hq.trans (hsame ⟨_, _, hop⟩ s htmp).symm)⟩
            · exact .inr hlt
          · rw [← Option.some.inj ht]
            exact length_tmpPath _ _ _
      | opened clientId p hop tmp hname hthere =>
          have hq : tmp = q := by
            rw [hname, hconn]
            exact hopens clientId p hop
          refine ⟨hconn, hnext.trans (nextInode_create tmp), hsame, fun r i hr => ?_,
            fun r i hc => ?_, fun r i hc s hs => ?_, hkept.paths⟩
          · rcases create_entries hr with hr | ⟨-, rfl, hsucc⟩
            · exact (hkept.bounded r i hr).trans_le (nextInode_create tmp)
            · exact hsucc ▸ Nat.lt_succ_self _
          · rcases hc with hc | ⟨-, -, hlt⟩
            · exact (hkept.created r i (.inl hc)).trans_le (nextInode_create tmp)
            · exact hlt
          · rcases create_entries hs with hs | ⟨rfl, rfl, -⟩
            · -- a file that was there before
              have hold : During C (· = q) v.files.nextInode b r i := by
                rcases hc with hc | ⟨hr, hle, -⟩
                · exact .inl hc
                · exact .inr ⟨hr, hle, hkept.bounded s i hs⟩
              exact hkept.tracked r i hold s hs
            · rcases hc with hc | ⟨hr, -, -⟩
              · exact absurd (hkept.created r _ (.inl hc)) (lt_irrefl _)
              · exact .inl ⟨hq.trans hr.symm, by rw [hr, ← hq]; exact hthere⟩
      | written i data hi =>
          exact ⟨hconn, hnext, hsame, hkept.bounded, hkept.created, hkept.tracked, hkept.paths⟩
      | closed =>
          exact ⟨hconn, hnext, hsame, hkept.bounded, hkept.created, hkept.tracked, hkept.paths⟩
      | renamed tmp path hstore hthere hfinal =>
          obtain ⟨-, p, hp, hshort⟩ := hkept.paths tmp hthere
          cases hp.symm.trans hfinal
          refine ⟨hconn, hnext, (fun _ t ht => by cases ht), fun r i hr => ?_, hkept.created,
            fun r i hc s hs => .inr ?_, fun t ht => by cases ht⟩
          · rcases rename_entry hr with ⟨-, ⟨-, hr⟩ | hr⟩
            · exact hkept.bounded _ i hr
            · exact hkept.bounded r i hr
          · rcases rename_entry hs with ⟨hne, ⟨rfl, hold⟩ | hs⟩
            · rcases hkept.tracked r i hc tmp hold with ⟨rfl, -⟩ | hlt
              · exact hshort
              · omega
            · rcases hkept.tracked r i hc s hs with ⟨rfl, htmp⟩ | hlt
              · exact (hne (Option.some.inj (htmp.symm.trans hthere))).elim
              · exact hlt
      | reset fs hfs =>
          obtain ⟨hbounded, hinode, hgone⟩ := hkept.gone hworks hfs
          have hback {r : String} {i : ℕ} (hc : C r i ∨ (r = q ∧ v.files.nextInode ≤ i ∧
              i < fs.nextInode)) : During C (· = q) v.files.nextInode b r i := by
            rw [hinode] at hc
            exact hc
          refine ⟨hconn, hinode ▸ hnext, (fun _ t ht => by cases ht), hbounded, fun r i hc => ?_,
            fun r i hc s hs => .inr (hgone r i (hback hc) s hs), fun t ht => by cases ht⟩
          change i < fs.nextInode
          rw [hinode]
          exact hkept.created r i (hback hc)

/-! ### Runs -/

variable {env : Env} {w₀ : World}

/-- A frame opens at most one path. -/
theorem opensAt_unique {w : World} {e : Event} {q q' : String} (h : OpensAt env w e q)
    (h' : OpensAt env w e q') : q = q' := by
  obtain ⟨clientId, p, ⟨-, -, rfl, t, hb⟩, rfl⟩ := h
  obtain ⟨clientId', p', ⟨-, -, rfl, t', hb'⟩, rfl⟩ := h'
  cases Except.ok.inj (hb.parses.symm.trans hb'.parses)
  rfl

theorem created_snoc {es : List Event} {e : Event} {q : String} {i : ℕ}
    (h : Created env w₀ (es ++ [e]) q i) :
    Created env w₀ es q i ∨ (OpensAt env (runFrames env es w₀) e q ∧
      i = (runFrames env es w₀).files.nextInode ∧
      i < (runFrames env (es ++ [e]) w₀).files.nextInode) := by
  obtain ⟨pre, f, post, hes, hrest⟩ := h
  induction post using List.reverseRecOn with
  | nil =>
      obtain ⟨rfl, he⟩ := List.append_inj' hes rfl
      cases he
      exact .inr hrest
  | append_singleton post g ih =>
      rw [← List.cons_append, ← List.append_assoc] at hes
      obtain ⟨rfl, -⟩ := List.append_inj' hes rfl
      exact .inl ⟨pre, f, post, rfl, hrest⟩

theorem kept_step {es : List Event} {e : Event}
    (h : Kept (Created env w₀ es) (view (runFrames env es w₀))) (hfiles : e.1.FilesWork)
    (hone : OneTemp env (runFrames env es w₀) e) :
    Kept (Created env w₀ (es ++ [e])) (view (runFrames env (es ++ [e]) w₀)) := by
  have hmoves := moves_handleFrame ⟨env, e.1⟩ e.2 (runFrames env es w₀)
  obtain ⟨q, hq⟩ : ∃ q, ∀ q', OpensAt env (runFrames env es w₀) e q' → q' = q := by
    by_cases hopen : ∃ q, OpensAt env (runFrames env es w₀) e q
    · obtain ⟨q, h⟩ := hopen
      exact ⟨q, fun q' h' => opensAt_unique h' h⟩
    · exact ⟨"", fun q' h' => (hopen ⟨q', h'⟩).elim⟩
  obtain ⟨-, -, -, hkept⟩ := kept_moves hmoves hfiles
    (fun clientId p hop => hq _ ⟨clientId, p, hop, rfl⟩)
    (fun ⟨clientId, p, hop⟩ t ht => by
      have hat : OpensAt env (runFrames env es w₀) e _ := ⟨clientId, p, hop, rfl⟩
      exact (hone _ hat t ht).trans (hq _ hat)) h
  rw [runFrames_snoc]
  have hback {r : String} {i : ℕ} (hc : Created env w₀ (es ++ [e]) r i) :
      During (Created env w₀ es) (· = q) (runFrames env es w₀).files.nextInode
        (view (handleEvent handlers env (runFrames env es w₀) e)) r i := by
    rcases created_snoc hc with hc | ⟨hat, hi, hlt⟩
    · exact .inl hc
    · rw [runFrames_snoc] at hlt
      exact .inr ⟨hq r hat, hi.ge, hlt⟩
  exact ⟨hkept.bounded, fun r i hc => hkept.created r i (hback hc),
    fun r i hc => hkept.tracked r i (hback hc), hkept.paths⟩

theorem kept_run (ht : w₀.session.transfer = {}) (hfs : FileSystem.Bounded w₀.files)
    (es : List Event) (hfiles : ∀ e ∈ es, e.1.FilesWork) (hone : Along env (OneTemp env) w₀ es) :
    Kept (Created env w₀ es) (view (runFrames env es w₀)) := by
  induction es using List.reverseRecOn with
  | nil =>
      have hnone {q : String} {i : ℕ} (h : Created env w₀ [] q i) : False := by
        obtain ⟨pre, e, post, hes, -⟩ := h
        simp at hes
      refine ⟨hfs, fun q i h => (hnone h).elim, fun q i h => (hnone h).elim, fun t hmem => ?_⟩
      have htmp : (view w₀).tmpPath = none := congrArg Transfer.uploadTmpPath ht
      cases htmp.symm.trans hmem
  | append_singleton es e ih =>
      obtain ⟨hall, hlast⟩ := along_snoc.mp hone
      exact kept_step (ih (fun f hf => hfiles f (List.mem_append_left _ hf)) hall)
        (hfiles e (by simp)) hlast

end

/-- The disconnect cleanup leaves no created file at its temporary path. -/
theorem cleanup_gone {env : Env} {o : Outside} {w : World} {C : String → ℕ → Prop}
    (h : Kept C (view w)) (hfiles : o.FilesWork) {q : String} {i : ℕ} (hc : C q i) :
    (disconnectCleanup ⟨env, o⟩ w).2.files.entry q ≠ some i := by
  have hrelease (u : World) : (releaseWorld u).files = u.files := by
    unfold releaseWorld
    split <;> rfl
  have hall : wp (disconnectCleanup ⟨env, o⟩) (fun _ u => u.files.entry q ≠ some i)
      (fun _ u => u.files.entry q ≠ some i) w := by
    rw [disconnectCleanup, wp_bind, wp_look]
    by_cases hactive : w.session.transfer.uploadActive = true
    · rw [if_pos hactive, wp_bind, wp_reset, wp_release, hrelease]
      have hfs : Removed o.FilesWork w.session.transfer.uploadTmpPath (bare w.files)
          (bare (dropTmpFile ⟨env, o⟩ w.session.transfer w.files).2) :=
        removed_dropTmpFile ⟨env, o⟩ _ _
      intro hthere
      exact absurd ((h.gone hfiles hfs).2.2 q i hc q hthere) (lt_irrefl _)
    · rw [if_neg hactive]
      change wp releaseUploadSlot _ _ w
      rw [wp_release, hrelease]
      intro hthere
      rcases h.tracked q i hc q hthere with ⟨-, htmp⟩ | hlt
      · exact hactive (h.paths q htmp).1
      · exact absurd hlt (lt_irrefl _)
  exact wp_state.mp hall

/-- In every run whose file operations succeed and in which no first packet opens
a temporary file beside a tracked one, after each frame every temporary file that
the session has created and that still exists is the tracked one; and after the
disconnect cleanup none exists. -/
theorem no_leaked_temporary_file (env : Env) (connectionId : String) (now : ℚ) (store : Store)
    (files : FileSystem) (limiter : UploadLimiter) (hfs : FileSystem.Bounded files)
    (es : List Event) (hfiles : ∀ e ∈ es, e.1.FilesWork)
    (hone : Along env (OneTemp env) (freshWorld connectionId now store files limiter) es)
    (o : Outside) (ho : o.FilesWork) (q : String) (i : ℕ)
    (hc : Created env (freshWorld connectionId now store files limiter) es q i) :
    ((runFrames env es (freshWorld connectionId now store files limiter)).files.entry q = some i →
      (runFrames env es
        (freshWorld connectionId now store files limiter)).session.transfer.uploadTmpPath =
          some q) ∧
    (disconnectCleanup ⟨env, o⟩
      (runFrames env es (freshWorld connectionId now store files limiter))).2.files.entry q ≠
        some i := by
  have hkept := kept_run rfl hfs es hfiles hone
  refine ⟨fun hthere => ?_, cleanup_gone hkept ho hc⟩
  rcases hkept.tracked q i hc q hthere with ⟨-, htmp⟩ | hlt
  · exact htmp
  · exact absurd hlt (lt_irrefl _)

/-! ### Two first packets -/

/-- The first ciphertext packet of a file, of two. -/
def firstPacket (name : String) : Event :=
  aliceRequest 828 (leBytes 4 32 ++ leBytes 4 17 ++ leBytes 2 1 ++ leBytes 2 2 ++
    utf8Encode name ++ [0] ++ List.replicate 16 65)

/-- The temporary path of the file `f`. -/
def aliceTmp : String := "data/uploads/01010101010101010101010101010101/f.tmp.c1"

theorem aliceUpload_created : Created plainEnv aliceWorld aliceUpload aliceTmp 0 := by
  refine ⟨aliceUpload.take 3, firstPacket "f", [], rfl, ⟨aliceId, aliceFirst, ?_, ?_⟩,
    by decide +kernel, by decide +kernel⟩
  · refine ⟨by decide +kernel, by decide +kernel, by decide +kernel,
      aliceAnnounced.session.transfer, ?_⟩
    exact ⟨by decide +kernel, by decide +kernel, by decide +kernel, by decide +kernel, rfl,
      by decide +kernel, .inr (by decide +kernel)⟩
  · decide +kernel

theorem no_leaked_temporary_file_alice :
    Created plainEnv aliceWorld aliceUpload aliceTmp 0 ∧
      (runFrames plainEnv aliceUpload aliceWorld).files.entry aliceTmp = some 0 ∧
      (runFrames plainEnv aliceUpload aliceWorld).session.transfer.uploadTmpPath = some aliceTmp ∧
      (disconnectCleanup ⟨plainEnv, calm⟩
        (runFrames plainEnv aliceUpload aliceWorld)).2.files.entry aliceTmp ≠ some 0 := by
  have hone {w : World} {e : Event} (h : w.session.transfer.uploadTmpPath = none) :
      OneTemp plainEnv w e := by
    intro q _ t ht
    cases h.symm.trans ht
  have hthere : (runFrames plainEnv aliceUpload aliceWorld).files.entry aliceTmp = some 0 := by
    decide +kernel
  have hfiles : ∀ e ∈ aliceUpload, e.1.FilesWork := by
    intro e he
    simp only [aliceUpload, List.mem_cons, List.not_mem_nil, or_false] at he
    rcases he with rfl | rfl | rfl | rfl <;> exact fun _ => rfl
  have h := no_leaked_temporary_file plainEnv "c1" 0 (Store.initialized aliceDb)
    { entry := fun _ => none, content := fun _ => [], nextInode := 0, calls := 0 }
    { maxConcurrentUploads := 10, positive := by decide, activeUploads := 0, bounded := by decide }
    (fun _ _ h => by cases h) aliceUpload hfiles
    ⟨hone rfl, hone (by decide +kernel), hone (by decide +kernel),
      hone (by decide +kernel), trivial⟩
    calm (fun _ => rfl) aliceTmp 0 aliceUpload_created
  exact ⟨aliceUpload_created, hthere, h.1 hthere, h.2⟩

/-- Packet 1 of `f`, then packet 1 of `g`: the second is refused and its file
removed, the file of the first stays. -/
theorem second_first_packet_leaks :
    Created plainEnv aliceWorld (aliceUpload ++ [firstPacket "g"]) aliceTmp 0 ∧
      (runFrames plainEnv (aliceUpload ++ [firstPacket "g"]) aliceWorld).files.entry aliceTmp =
        some 0 ∧
      (runFrames plainEnv (aliceUpload ++ [firstPacket "g"])
        aliceWorld).session.transfer.uploadTmpPath = none ∧
      (disconnectCleanup ⟨plainEnv, calm⟩ (runFrames plainEnv (aliceUpload ++ [firstPacket "g"])
        aliceWorld)).2.files.entry aliceTmp = some 0 := by
  refine ⟨?_, by decide +kernel⟩
  obtain ⟨pre, e, post, hes, hrest⟩ := aliceUpload_created
  exact ⟨pre, e, post ++ [firstPacket "g"], by rw [hes]; simp, hrest⟩

end Seftp.TemporaryFiles
