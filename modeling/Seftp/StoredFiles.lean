import Seftp.FileTouches
import Seftp.UploadLedger
import Seftp.UploadRecords
import Seftp.RowSteps

/-!
# Stored files and unconfirmed uploads

An upload writes to a temporary file until its last packet, which replaces the
file at the final path; the confirmation comes later. So an upload that ends
before its last packet, in whichever way, leaves the file that was there, and one
that ends between the last packet and the confirmation does not.
-/
namespace Seftp.StoredFiles
open LittleEndian ExceptState OutsideWorld Text Protocol ClientStore ServerSession Answers
open SessionFrames HandlerFrames UploadHandlers UploadSteps FrameSteps Router HandshakeGate
open UploadStages ConnectionLoop UploadSlot UploadRecords FileMoves TemporaryFiles FileTouches
open UploadLedger RowSteps

/-! ### Events -/

/-- Why an event touches files. Only frames open and store them. -/
def eventReasons (env : Env) (w : World) : SessionEvent → Reasons
  | .received o => { opens := fun _ _ => False, stores := False, works := o.FilesWork }
  | .frame o bytes => reasons ⟨env, o⟩ bytes w
  | .timeout o => { opens := fun _ _ => False, stores := False, works := o.FilesWork }
  | .disconnect o => { opens := fun _ _ => False, stores := False, works := o.FilesWork }

/-- The event may change the file at `q`: it is the path of a temporary file, or the
final path of an upload whose complete last packet the event brings. -/
def EventTouches (env : Env) (q : String) (w : World) (e : SessionEvent) : Prop :=
  Touches (eventReasons env w e) (view w) q

section
variable {env : Env} {o : Outside} {ctx : Ctx} {g : Reasons} {w : World}

theorem moves_disconnectCleanup {P : ℕ → Prop} (hworks : g.works = ctx.out.FilesWork) :
    Keeps (SizedMoves g P) (disconnectCleanup ctx) :=
  keeps_disconnectCleanup (moves_reset hworks) moves_release

/-- Every event changes files by moves that have their reasons. -/
theorem moves_serveOpen (e : SessionEvent) :
    Moves (eventReasons env w e) w (serveOpen env w e).world := by
  cases e with
  | received o => exact SizedMoves.moves (P := fun _ => True) (.of_core rfl)
  | frame o bytes =>
      rw [serveOpen_frame]
      exact moves_handleFrame ⟨env, o⟩ bytes w
  | timeout o =>
      apply SizedMoves.moves (P := fun _ => True)
      exact keeps_timeout
        (keeps_readTimeout (fun _ h => moves_onSession fun s => ⟨(h s).1, (h s).2.1⟩)
        (fun _ _ text => moves_answer1607 text) (moves_reset rfl)) (moves_disconnectCleanup rfl)
  | disconnect o =>
      apply SizedMoves.moves (P := fun _ => True)
      exact moves_disconnectCleanup rfl w

theorem sameRows_disconnectCleanup : Keeps SameRows (disconnectCleanup ctx) :=
  keeps_disconnectCleanup sameRows_reset (sameRows_of_idle idle_release)

/-- Every event changes the table by inserting rows and concluding the session's. -/
theorem rows_serveOpen (h : (rowsOf w).Live) (e : SessionEvent) :
    RowChanges (rowsOf w).Mine w.store.working.uploads
        (serveOpen env w e).world.store.working.uploads ∧
      ((serveOpen env w e).isOpen = true → (rowsOf (serveOpen env w e).world).Live) := by
  have hsame {w' : World} (hw : SameRows w w') :
      RowChanges (rowsOf w).Mine w.store.working.uploads w'.store.working.uploads := by
    rw [show w'.store.working.uploads = _ from hw]
  cases e with
  | received o => exact ⟨hsame rfl, fun _ => h⟩
  | frame o bytes =>
      rw [serveOpen_frame]
      obtain ⟨hwithin, hlive⟩ := good_handleFrame ⟨env, o⟩ bytes h
      exact ⟨hwithin.rows, fun _ => hlive⟩
  | timeout o =>
      refine ⟨hsame ?_, fun hopen => ?_⟩
      · exact keeps_timeout (keeps_readTimeout (fun _ _ _ => rfl)
          (fun _ _ text => sameRows_of_idle (idle_answer1607 text)) sameRows_reset)
          sameRows_disconnectCleanup
      · rcases serveOpen_timeout env o w with hc | ⟨hclosed, -⟩
        · rw [show rowsOf (serveOpen env w (.timeout o)).world = rowsOf w from congrArg rowView hc]
          exact h
        · cases hclosed.symm.trans hopen
  | disconnect o => exact ⟨hsame (sameRows_disconnectCleanup w), fun hopen => by cases hopen⟩

/-! ### The state of an open connection -/

/-- What holds of an open connection between two events. -/
structure Settled (w : World) : Prop where
  kept : Kept w
  ledger : ∃ k, Ledger (SessionFrames.core w) k
  live : (rowsOf w).Live
  plain : FileSystem.Plain w.files

/-- The open file is at the tracked temporary path only. -/
theorem Settled.handle (h : Settled w) {N : String → Prop}
    (hN : ∀ q, N q → w.session.transfer.uploadTmpPath ≠ some q) : HandleAway N w := by
  intro i hi
  obtain ⟨k, hledger⟩ := h.ledger
  obtain ⟨-, tmp, htmp, hentry⟩ := hledger.handle hi
  refine ⟨h.plain.bounded tmp i hentry, fun q hq hsame => hN q hq ?_⟩
  rw [h.plain.distinct q tmp i hsame hentry]
  exact htmp

theorem plain_serveOpen (h : Settled w) (e : SessionEvent) :
    FileSystem.Plain (serveOpen env w e).world.files :=
  (untouched_moves (N := fun _ => False) (moves_serveOpen e) h.plain
    (h.handle fun _ hq => hq.elim) fun _ hq => hq.elim).1

theorem settled_serveOpen (h : Settled w) (e : SessionEvent)
    (hopen : (serveOpen env w e).isOpen = true) : Settled (serveOpen env w e).world := by
  refine ⟨kept_serveOpen h.kept e hopen, ?_, (rows_serveOpen h.live e).2 hopen, plain_serveOpen h e⟩
  cases e with
  | received o => exact h.ledger
  | frame o bytes =>
      obtain ⟨k, hledger⟩ := h.ledger
      rw [serveOpen_frame]
      have hafter : LedgerAfter (fun _ => True) k (handleFrame ⟨env, o⟩ bytes w).2 :=
        ledger_steps h.kept.stage hledger (fun _ _ _ => trivial) (steps_of_sound h.kept.sound bytes)
      obtain ⟨k', hnext, -⟩ := hafter
      exact ⟨k', hnext⟩
  | timeout o =>
      rcases serveOpen_timeout env o w with hc | ⟨hclosed, -⟩
      · exact hc ▸ h.ledger
      · cases hclosed.symm.trans hopen
  | disconnect o => cases hopen

end

theorem settled_serveAll {env : Env} {c : Connection} (h : c.isOpen = true → Settled c.world)
    (es : List SessionEvent) :
    (serveAll env c es).isOpen = true → Settled (serveAll env c es).world := by
  induction es using List.reverseRecOn with
  | nil => exact h
  | append_singleton es e ih =>
      rw [serveAll_snoc, serve]
      split_ifs with hopen
      · exact settled_serveOpen (ih hopen) e
      · exact fun h => absurd h hopen

theorem serveAll_append (env : Env) (c : Connection) (es fs : List SessionEvent) :
    serveAll env c (es ++ fs) = serveAll env (serveAll env c es) fs := List.foldl_append

/-- Events that do not touch `q` leave its file and the concluded rows. -/
theorem untouched_serveAll {env : Env} {q : String} (es : List SessionEvent) {c : Connection}
    (h : c.isOpen = true → Settled c.world)
    (hclear : AlongEvents env (fun w e => ¬ EventTouches env q w e) c es) :
    SameAt q c.world.files (serveAll env c es).world.files ∧
      ∀ r ∈ c.world.store.working.uploads, r.status ≠ .inProgress →
        r ∈ (serveAll env c es).world.store.working.uploads := by
  induction es generalizing c with
  | nil => exact ⟨sameAt_of_entry rfl rfl, fun r hr _ => hr⟩
  | cons e es ih =>
      obtain ⟨hfirst, hrest⟩ := hclear
      change SameAt q _ (serveAll env (serve env c e) es).world.files ∧ ∀ r ∈ _, _ →
        r ∈ (serveAll env (serve env c e) es).world.store.working.uploads
      by_cases hopen : c.isOpen = true
      · have hserve : serve env c e = serveOpen env c.world e := if_pos hopen
        rw [hserve] at hrest ⊢
        have hsettled := h hopen
        have hno := hfirst hopen
        obtain ⟨hsame, hrows⟩ := ih (settled_serveOpen hsettled e) hrest
        obtain ⟨-, -, -, hkeep⟩ := untouched_moves (N := (· = q)) (moves_serveOpen e)
          hsettled.plain (hsettled.handle fun r hr ht => hno (hr ▸ .tracked ht))
          (fun r hr => by rw [hr]; exact hno)
        refine ⟨(hkeep q rfl).trans hsame, fun r hr hstatus => hrows r ?_ hstatus⟩
        exact mem_of_changes (rows_serveOpen hsettled.live e).1 hr fun _ => hstatus
      · have hserve : serve env c e = c := if_neg hopen
        rw [hserve] at hrest ⊢
        exact ih h hrest

/-- Over every stretch of every run of a session in which no event brings the
complete last packet of an upload to `q`, and `q` is not the path of a temporary
file of the session, the file at `q` stays as it was, however uploads end; and a
row that was completed for `q` still describes it. -/
theorem stored_file_survives (env : Env) (connectionId : String) (now : ℚ) (store : Store)
    (files : FileSystem) (limiter : UploadLimiter) (hfs : FileSystem.Plain files)
    (pre es : List SessionEvent) (q : String)
    (hclear : AlongEvents env (fun w e => ¬ EventTouches env q w e)
      (serveAll env (accepted connectionId now store files limiter) pre) es) :
    (serveAll env (accepted connectionId now store files limiter) (pre ++ es)).world.files.read q =
      (serveAll env (accepted connectionId now store files limiter) pre).world.files.read q ∧
    ∀ r ∈ (serveAll env (accepted connectionId now store files limiter)
        pre).world.store.working.uploads,
      r.status = .completed → r.storedPath = some q →
      Describes (serveAll env (accepted connectionId now store files limiter) pre).world.files r →
      r ∈ (serveAll env (accepted connectionId now store files limiter)
          (pre ++ es)).world.store.working.uploads ∧
        Describes (serveAll env (accepted connectionId now store files limiter)
          (pre ++ es)).world.files r := by
  have hfresh : Settled (accepted connectionId now store files limiter).world :=
    ⟨⟨sound_freshWorld connectionId now store files limiter, stage_reset rfl, tracks_reset rfl⟩,
      ⟨none, ledger_reset rfl⟩, live_of_untracked rfl, hfs⟩
  obtain ⟨hsame, hrows⟩ :=
    untouched_serveAll es (settled_serveAll (fun _ => hfresh) pre) hclear
  rw [serveAll_append]
  have hread := hsame.read_eq
  refine ⟨hread, fun r hr hstatus hpath hdesc => ⟨hrows r hr ?_, ?_⟩⟩
  · rw [hstatus]
    decide
  · unfold Describes at hdesc ⊢
    rw [hpath, Option.bind_some] at hdesc ⊢
    rw [hread]
    exact hdesc

/-! ### Two uploads of one file -/

/-- A packet before the last one touches its temporary path and the tracked one. -/
theorem spares_packet {env : Env} {o : Outside} {bytes : Bytes} {p : Packet} {w : World}
    {q : String} (hparse : parse828 (parseFrame bytes).payload = .ok p)
    (hmore : p.packetNum ≠ p.totalPackets) (htracked : w.session.transfer.uploadTmpPath ≠ some q)
    (htmp : q ≠ tmpPath (hex (parseFrame bytes).clientId) p.fileName w.session.connectionId) :
    ¬ EventTouches env q w (.frame o bytes) := by
  have hno : ¬ (reasons ⟨env, o⟩ bytes w).stores := by
    rintro ⟨-, -, p', t, hpass, hfin⟩
    cases hparse.symm.trans hpass.parses
    exact hmore hfin.last
  intro h
  cases h with
  | tracked h => exact htracked h
  | opens clientId p' h hq =>
      obtain ⟨-, -, rfl, t, hbegins⟩ := h
      cases hparse.symm.trans hbegins.parses
      exact htmp hq
  | stores h _ => exact hno h
  | storesAtOnce h _ _ _ _ => exact hno h

def aliceFrame (e : Event) : SessionEvent := .frame e.1 e.2

/-- A confirmed upload of `f`. -/
def confirmedUpload : List SessionEvent :=
  (aliceUpload.take 3 ++ [alicePacket 1 firstChunk, alicePacket 2 lastChunk,
    aliceRequest 900 (utf8Encode "f")]).map aliceFrame

/-- The next upload of `f`, with another vector, up to its first packet. -/
def secondUpload : List SessionEvent :=
  [alicePacket 0 (List.replicate 16 8), alicePacket 1 firstChunk].map aliceFrame

/-- The path of the file `f`. -/
def alicePath : String := "data/uploads/01010101010101010101010101010101/f"

theorem secondUpload_spares :
    AlongEvents plainEnv (fun w e => ¬ EventTouches plainEnv alicePath w e)
    (serveAll plainEnv aliceConnection confirmedUpload) (secondUpload ++ [.disconnect calm]) := by
  refine ⟨fun _ => spares_packet (p := { aliceFirst with
      packetNum := 0, cipherChunk := List.replicate 16 8 }) (by decide +kernel) (by decide)
      (by decide +kernel) (by decide +kernel),
    fun _ => spares_packet (p := { aliceFirst with cipherChunk := firstChunk }) (by decide +kernel)
      (by decide) (by decide +kernel) (by decide +kernel), fun _ h => ?_, trivial⟩
  cases h with
  | tracked h => exact absurd h (by decide +kernel)
  | opens clientId p h hq => exact h
  | stores h hq => exact h
  | storesAtOnce h clientId p hopens hq => exact h

theorem stored_file_survives_alice :
    AlongEvents plainEnv (fun w e => ¬ EventTouches plainEnv alicePath w e)
        (serveAll plainEnv aliceConnection confirmedUpload) (secondUpload ++ [.disconnect calm]) ∧
      (serveAll plainEnv aliceConnection
        (confirmedUpload ++ (secondUpload ++ [.disconnect calm]))).world.files.read alicePath =
        (serveAll plainEnv aliceConnection confirmedUpload).world.files.read alicePath := by
  have hplain : FileSystem.Plain aliceWorld.files :=
    ⟨(fun _ _ h => by cases h), (fun _ _ _ h => by cases h)⟩
  have haccepted : accepted "c1" 0 aliceWorld.store aliceWorld.files aliceWorld.limiter =
      aliceConnection := rfl
  have h := stored_file_survives plainEnv "c1" 0 aliceWorld.store aliceWorld.files
    aliceWorld.limiter hplain confirmedUpload (secondUpload ++ [.disconnect calm]) alicePath
  rw [haccepted] at h
  exact ⟨secondUpload_spares, (h secondUpload_spares).1⟩

/-- The last packet of the second upload replaces the confirmed file. The client
gives the upload up: its row is marked as failed, and the row that was completed
for the path does not describe the file any more. -/
theorem given_up_upload_replaces_file :
    (∃ r ∈ (serveAll plainEnv aliceConnection confirmedUpload).world.store.working.uploads,
      r.status = .completed ∧ r.storedPath = some alicePath ∧
        Describes (serveAll plainEnv aliceConnection confirmedUpload).world.files r ∧
        ¬ Describes (serveAll plainEnv aliceConnection (confirmedUpload ++ secondUpload ++
          [alicePacket 2 lastChunk, aliceRequest 902 (utf8Encode "f")].map
            aliceFrame)).world.files r) ∧
      (serveAll plainEnv aliceConnection (confirmedUpload ++
        secondUpload)).world.session.transfer.uploadId = some 2 ∧
      statusOf (serveAll plainEnv aliceConnection (confirmedUpload ++ secondUpload ++
        [alicePacket 2 lastChunk, aliceRequest 902 (utf8Encode "f")].map
          aliceFrame)).world.store.working.uploads 2 = some .failed ∧
      (serveAll plainEnv aliceConnection (confirmedUpload ++ secondUpload ++
        [alicePacket 2 lastChunk, aliceRequest 902 (utf8Encode "f")].map
          aliceFrame)).world.files.read alicePath ≠
        (serveAll plainEnv aliceConnection confirmedUpload).world.files.read alicePath := by
  decide +kernel

end Seftp.StoredFiles
