import Seftp.AccountSteps
import Seftp.ChunkSteps
import Seftp.Router

/-!
# What a frame does to an upload

The confirmations, the requests that leave an upload alone, and the router around
them. A frame either is handled as a request, or it is answered by the router
itself, which resets the transfer without giving the slot back.
-/
namespace Seftp.FrameSteps
open LittleEndian ExceptState OutsideWorld BlockChaining Checksum Text Protocol ClientStore
open StoreFrames ServerSession Answers SessionFrames AccountHandlers UploadHandlers HandlerFrames
open UploadSteps ChunkSteps AccountSteps Router

section
variable {ctx : Ctx} {w : World} {clientId version : Bytes}

/-! ### Confirmations -/

/-- Changed rows, on cores. -/
def withRows (f : List UploadRow → List UploadRow) (c : SessionFrames.Core) : SessionFrames.Core :=
  { c with store := { c.store with uploads := f c.store.uploads } }

theorem wp_changeRow (row : Option ℕ) (change : UploadChange) :
    wp (onStore (changeUploadRecord ctx.out row change))
      (fun ok u => (ok = false ∧ w.store.connected = false ∧ Does id w u) ∨
        (ok = decide (0 < w.store.working.uploadRows row) ∧ w.store.connected = true ∧
          Does (withRows (changeRows row change)) w u))
      (fun _ u => Untouched w u ∧ ¬ ctx.out.SqlWorks) w := by
  rw [onStore, wp_zoom]
  apply wp_mono (wp_blame wp_changeUploadRecord changeUploadRecord_returns)
  · rintro ok st (⟨hok, hdown, rfl⟩ | ⟨hok, hup, hst⟩)
    · exact .inl ⟨hok, hdown, rfl, rfl⟩
    · refine .inr ⟨hok, hup, ?_, rfl⟩
      exact congrArg (fun c => { SessionFrames.core w with store := c }) hst
  · exact fun _ st h => ⟨⟨rfl, rfl⟩, h.2⟩

/-- The message of a 1604. -/
def doneMessage (clientId version : Bytes) : Bytes := message version .transferDone clientId

theorem tells_answer1604 :
    wp (answer1604 ctx clientId version)
      (fun _ u => Tells [doneMessage clientId version] w u)
      (fun _ u => SessionFrames.core u = SessionFrames.core w) w := by
  apply wp_ofExcept_bind
  · intro m hm
    obtain ⟨-, -, -, rfl⟩ := messageAnswer_ok.mp hm
    apply wp_seq (tells_touchKnown.wp w)
    · intro _ u hu
      apply wp_seq ((tells_logEvent _ _).wp u)
      · intro _ v hv
        have hbooks := hu.trans hv
        exact wp_mono ((tells_send message_ne_nil).wp v) (fun _ _ h => hbooks.trans h)
          (fun _ _ h => (hbooks.trans h).core_eq)
      · exact fun _ _ h => (hu.trans h).core_eq
    · exact fun _ _ h => h.core_eq
  · exact fun _ _ => rfl

theorem answer1604_returns (h : Answering ctx w clientId version) :
    wp (answer1604 ctx clientId version) (fun _ _ => True) (fun _ _ => False) w := by
  have hm : messageAnswer version .transferDone 16 clientId =
      .ok (doneMessage clientId version) := by
    refine messageAnswer_ok.mpr ⟨h.version, h.clientId.symm, ?_, rfl⟩
    rw [h.clientId]
    decide
  rw [answer1604, hm, wp_bind, wp_ofExcept_ok]
  apply wp_then (touchKnown_returns h)
  intro _ u _
  apply wp_then (wp_logEvent _ _)
  intro _ v _
  exact send_returns h.sends

theorem wp_answer1604 :
    wp (answer1604 ctx clientId version)
      (fun _ u => Tells [doneMessage clientId version] w u)
      (fun _ u => SessionFrames.core u = SessionFrames.core w ∧
        ¬ Answering ctx w clientId version) w :=
  wp_blame tells_answer1604 answer1604_returns

/-- The state after a confirmation whose row took the change. -/
structure Settled (change : UploadChange) (w w' : World) : Prop where
  transfer : w'.session.transfer = {}
  slot : w'.session.hasUploadSlot = false
  connected : w.store.connected = true
  rows : w'.store.working.uploads =
    changeRows w.session.transfer.uploadId change w.store.working.uploads

/-- A confirmation that is turned down. -/
structure TurnedDown (clientId version : Bytes) (w w' : World) : Prop where
  transfer : w'.session.transfer = {}
  slot : w'.session.hasUploadSlot = false
  sent : ∃ text, Short text ∧
    w'.session.sent = w.session.sent ++ [errorMessage clientId version text]

theorem turnedDown_of_refused {text : String} {u v : World} (hs : Short text)
    (hsent : u.session.sent = w.session.sent)
    (h : Refused clientId version { answer := some text } u v) :
    TurnedDown clientId version w v :=
  ⟨h.transfer, h.slot, text, hs, by rw [h.sent, hsent]; rfl⟩

/-- The name in a confirmation is text. -/
def NameDecodes (payload : Bytes) : Prop := ∃ name, confirmedName payload = .ok name

/-- A completed upload: its row has the path and the checksum of the transfer. -/
structure Completes (clientId version payload : Bytes) (w w' : World) : Prop where
  completed : ∃ name row path crc time, confirmedName payload = .ok name ∧
    w.session.transfer.uploadId = some row ∧ w.session.transfer.uploadPath = some path ∧
    w.session.transfer.uploadCrc = some crc ∧ w.session.transfer.uploadFilename = some name ∧
    Settled (.complete path crc.toNat time) w w'
  found : 0 < w.store.working.uploadRows w.session.transfer.uploadId
  sent : w'.session.sent = w.session.sent ++ [doneMessage clientId version]

/-- The session has an upload of that name, with a row, a path and a checksum. -/
structure Confirmable (payload : Bytes) (w : World) : Prop where
  name : ∃ name, confirmedName payload = .ok name ∧ w.session.transfer.uploadFilename = some name
  path : w.session.transfer.uploadPath.isSome
  crc : w.session.transfer.uploadCrc.isSome
  connected : w.store.connected = true
  row : ∃ row, w.session.transfer.uploadId = some row ∧ 0 < w.store.working.uploadRows (some row)

theorem uploadRows_congr {db db' : Database} (h : db.uploads = db'.uploads) (row : Option ℕ) :
    db.uploadRows row = db'.uploadRows row := by
  unfold Database.uploadRows
  rw [h]

theorem changeRows_of_none {row : Option ℕ} {change : UploadChange} {db : Database}
    (h : ¬ 0 < db.uploadRows row) : changeRows row change db.uploads = db.uploads := by
  have hnil : db.uploads.filter (fun r => some r.id = row) = [] :=
    List.eq_nil_of_length_eq_zero (by unfold Database.uploadRows at h; omega)
  have hid : db.uploads.map (fun r => if some r.id = row then r.change change else r) =
      db.uploads.map id := by
    apply List.map_congr_left
    intro r hr
    rw [if_neg]
    · rfl
    · intro he
      have hmem : r ∈ db.uploads.filter (fun r => some r.id = row) :=
        List.mem_filter.mpr ⟨hr, by simpa using he⟩
      rw [hnil] at hmem
      cases hmem
  rw [changeRows, hid, List.map_id]

/-- Request 900 completes the row, or is turned down with the rows as they were. -/
theorem wp_request900 (payload : Bytes) :
    wp (request900 ctx payload version clientId)
      (fun _ w' => Completes clientId version payload w w' ∨
        (TurnedDown clientId version w w' ∧
          w'.store.working.uploads = w.store.working.uploads ∧ ¬ Confirmable payload w))
      (fun _ u => Untouched w u ∧
        ¬ (Answering ctx w clientId version ∧ NameDecodes payload)) w := by
  have hinvalid : Short "bad 900: session upload attributes are invalid" := by decide +kernel
  have hproblem : Short "bad 900: complete upload record problem in db" := by decide +kernel
  -- a refusal from a state with the same rows
  have hrefuse {text : String} {u : World} (hs : Short text)
      (hu : Does (withRows fun _ => w.store.working.uploads) w u)
      (hcause : ¬ Confirmable payload w) :
      wp (refuse ctx clientId version { answer := some text })
        (fun _ w' => Completes clientId version payload w w' ∨
          (TurnedDown clientId version w w' ∧
            w'.store.working.uploads = w.store.working.uploads ∧ ¬ Confirmable payload w))
        (fun _ v => Untouched w v ∧
          ¬ (Answering ctx w clientId version ∧ NameDecodes payload)) u := by
    apply wp_mono (wp_refuse _)
    · intro _ w' hw'
      refine .inr ⟨turnedDown_of_refused hs hu.sent hw', ?_, hcause⟩
      exact hw'.rows.trans (congrArg (fun c => c.store.uploads) hu.core_eq)
    · rintro _ v ⟨hv, hno⟩
      refine ⟨Untouched.trans ⟨congrArg Core.transfer hu.core_eq,
        congrArg Core.hasUploadSlot hu.core_eq⟩ hv, fun hg => hno ⟨?_, (plain_mk hs).2⟩⟩
      exact hg.1.of_store ⟨_, congrArg Core.store hu.core_eq⟩
  apply wp_ofExcept_bind
  · intro name hname
    apply wp_seq (wp_touch _)
    · intro _ u hu
      apply wp_then (wp_logEvent _ _)
      intro _ v hv
      have hbooks : Does id w v := hu.trans hv
      have ht : v.session.transfer = w.session.transfer := congrArg Core.transfer hbooks.core_eq
      rw [wp_bind, wp_fetch]
      dsimp only
      split
      · rename_i row path crc hrow hpath hcrc
        split_ifs with hfile
        · refine hrefuse hinvalid ⟨hbooks.core_eq, hbooks.sent⟩ fun h => ?_
          obtain ⟨name', hname', hfile'⟩ := h.name
          cases hname.symm.trans hname'
          exact hfile (ht ▸ hfile')
        · apply wp_seq (wp_changeRow _ _)
          · rintro ok x (⟨rfl, hdown, hx⟩ | ⟨hok, hup, hx⟩)
            · simp only [Bool.not_false, if_true]
              have hall := hbooks.trans hx
              have hwdown : w.store.connected = false :=
                (congrArg (fun c => c.store.connected) hbooks.core_eq).symm.trans hdown
              exact hrefuse hproblem ⟨hall.core_eq, hall.sent⟩ fun h =>
                absurd (hwdown.symm.trans h.connected) (by decide)
            · have hrows : v.store.working.uploads = w.store.working.uploads :=
                congrArg (fun c => c.store.uploads) hbooks.core_eq
              have hall := hbooks.trans hx
              rw [uploadRows_congr hrows] at hok
              by_cases hfound : 0 < w.store.working.uploadRows (some row)
              · simp only [hok, hfound, decide_true, Bool.not_true, Bool.false_eq_true, if_false]
                rw [ht] at hrow hpath hcrc hfile
                apply wp_seq wp_answer1604
                · intro _ y hy
                  rw [wp_abandon]
                  have hlast := hall.tells hy
                  refine .inl ⟨⟨name, row, path, crc, ctx.out.now v.store.calls, hname, hrow, hpath,
                    hcrc, not_not.mp hfile, rfl, releaseWorld_slot, ?_, ?_⟩, hrow ▸ hfound, ?_⟩
                  · exact (congrArg (fun c => c.store.connected) hbooks.core_eq).symm.trans hup
                  · rw [resetWorld_store, releaseWorld_store, hrow]
                    exact congrArg (fun c => c.store.uploads) hlast.core_eq
                  · rw [resetWorld_sent, releaseWorld_sent, hlast.sent]
                · rintro _ y ⟨hy, hno⟩
                  refine ⟨Untouched.trans ⟨congrArg Core.transfer hall.core_eq,
                    congrArg Core.hasUploadSlot hall.core_eq⟩ (untouched_of_core hy),
                    fun hg => hno (hg.1.of_store ⟨_, congrArg Core.store hall.core_eq⟩)⟩
              · simp only [hok, hfound, decide_false, Bool.not_false, if_true]
                refine hrefuse hproblem ⟨hall.core_eq.trans ?_, hall.sent⟩ fun h => ?_
                · exact congrArg (fun rows => withRows (fun _ => rows) (SessionFrames.core w))
                    (changeRows_of_none hfound)
                · obtain ⟨row', hrow', hfound'⟩ := h.row
                  rw [ht, hrow'] at hrow
                  cases hrow
                  exact hfound hfound'
          · rintro _ x ⟨hx, hno⟩
            exact ⟨Untouched.trans (untouched_of_core hbooks.core_eq) hx,
              fun hg => hno hg.1.sql⟩
      · rename_i hmissing
        refine hrefuse hinvalid ⟨hbooks.core_eq, hbooks.sent⟩ fun h => ?_
        obtain ⟨row, hrow, -⟩ := h.row
        obtain ⟨path, hpath⟩ := Option.isSome_iff_exists.mp h.path
        obtain ⟨crc, hcrc⟩ := Option.isSome_iff_exists.mp h.crc
        exact hmissing row path crc (ht ▸ hrow) (ht ▸ hpath) (ht ▸ hcrc)
    · rintro _ u ⟨hu, hno⟩
      exact ⟨untouched_of_core hu.core_eq, fun hg => hno ⟨hg.1.sql, hg.1.indexed⟩⟩
  · intro e he
    refine ⟨⟨rfl, rfl⟩, fun hg => ?_⟩
    obtain ⟨name, hname⟩ := hg.2
    rw [hname] at he
    cases he

/-- A confirmation that records a failure of the row. -/
structure Gives (sent : List Bytes) (reason : String) (status : UploadStatus) (w w' : World) :
    Prop where
  settled : ∃ time, Settled (.fail reason status time) w w'
  sent : w'.session.sent = w.session.sent ++ sent

section
variable {name : String} {reason : String} {status : UploadStatus}

/-- What 901 and 902 share: the row fails, or the request is turned down. -/
theorem wp_failRow {x : World → Server Unit} {sent : List Bytes} {text₁ text₂ : String}
    (h₁ : Short text₁) (h₂ : Short text₂)
    (hx : ∀ v u : World, Does (withRows (changeRows w.session.transfer.uploadId
        (.fail reason status (ctx.out.now v.store.calls)))) w u → w.store.connected = true →
      wp (x v) (fun _ w' => Gives sent reason status w w')
        (fun _ y => Untouched w y ∧ ¬ Answering ctx w clientId version) u) :
    wp (do
        let _ ← onStore (touchClientLastSeen ctx.out (hex clientId))
        let v ← fetch
        if v.session.transfer.uploadFilename ≠ some name then
          refuse ctx clientId version { answer := some text₁ }
        else do
          let ok ← onStore (failUploadRecord ctx.out v.session.transfer.uploadId reason status
            (ctx.out.now v.store.calls))
          if !ok then refuse ctx clientId version { answer := some text₂ }
          else x v)
      (fun _ w' => Gives sent reason status w w' ∨ TurnedDown clientId version w w')
      (fun _ u => Untouched w u ∧ ¬ Answering ctx w clientId version) w := by
  have hrefuse {f : SessionFrames.Core → SessionFrames.Core} {text : String} {u : World}
      (hs : Short text) (hu : Does f w u) (hw : Untouched w u)
      (hstore : ∃ us, StoreFrames.core u.store = { StoreFrames.core w.store with uploads := us }) :
      wp (refuse ctx clientId version { answer := some text })
        (fun _ w' => Gives sent reason status w w' ∨ TurnedDown clientId version w w')
        (fun _ v => Untouched w v ∧ ¬ Answering ctx w clientId version) u := by
    apply wp_mono (wp_refuse _)
    · exact fun _ w' hw' => .inr (turnedDown_of_refused hs hu.sent hw')
    · rintro _ v ⟨hv, hno⟩
      exact ⟨hw.trans hv, fun hg => hno ⟨hg.of_store hstore, (plain_mk hs).2⟩⟩
  apply wp_seq (wp_touch _)
  · intro _ u hu
    have ht : u.session.transfer = w.session.transfer := congrArg Core.transfer hu.core_eq
    have hwu : Untouched w u := untouched_of_core hu.core_eq
    rw [wp_bind, wp_fetch]
    split_ifs with hname
    · exact hrefuse h₁ hu hwu ⟨_, congrArg Core.store hu.core_eq⟩
    · apply wp_seq (wp_changeRow _ _)
      · rintro ok v (⟨rfl, hdown, hv⟩ | ⟨-, hup, hv⟩)
        · simp only [Bool.not_false, if_true]
          have hall := hu.trans hv
          exact hrefuse h₂ hall (untouched_of_core hall.core_eq)
            ⟨_, congrArg Core.store hall.core_eq⟩
        · have hall := hu.trans hv
          have hwv : Untouched w v :=
            ⟨congrArg Core.transfer hall.core_eq, congrArg Core.hasUploadSlot hall.core_eq⟩
          rcases ok with _ | _
          · simp only [Bool.not_false, if_true]
            exact hrefuse h₂ hall hwv ⟨_, congrArg Core.store hall.core_eq⟩
          · simp only [Bool.not_true, Bool.false_eq_true, if_false]
            have hconn : w.store.connected = true :=
              (congrArg (fun c => c.store.connected) hu.core_eq).symm.trans hup
            refine wp_mono (hx u v ⟨?_, hall.sent⟩ hconn) (fun _ _ h => .inl h) (fun _ _ h => h)
            rw [hall.core_eq, ht]
            rfl
      · rintro _ v ⟨hv, hno⟩
        exact ⟨hwu.trans hv, fun hg => hno hg.sql⟩
  · rintro _ u ⟨hu, hno⟩
    exact ⟨untouched_of_core hu.core_eq, fun hg => hno ⟨hg.sql, hg.indexed⟩⟩

end

theorem wp_request901 (payload : Bytes) :
    wp (request901 ctx payload version clientId)
      (fun _ w' => Gives [] "CRC mismatch" .crcMismatch w w' ∨ TurnedDown clientId version w w')
      (fun _ u => Untouched w u ∧
        ¬ (Answering ctx w clientId version ∧ NameDecodes payload)) w := by
  apply wp_ofExcept_bind
  · intro name hname
    apply wp_mono (wp_failRow (x := fun v => do
        abandon ctx
        update fun w => w.setStore (w.store.appendLog (.clientId clientId) "request_901"
          (ctx.out.now v.store.calls)))
      (by decide +kernel : Short "bad 901: session upload name is invalid")
      (by decide +kernel : Short "bad 901: fail_upload_record problem in db") ?_)
    · exact fun _ _ h => h
    · exact fun _ _ h => ⟨h.1, fun hg => h.2 hg.1⟩
    intro v u hu hup
    rw [wp_bind, wp_abandon, wp_update]
    refine ⟨⟨ctx.out.now v.store.calls, rfl, releaseWorld_slot, hup, ?_⟩, ?_⟩
    · have hrows : (releaseWorld u).store.working.uploads = u.store.working.uploads := by simp
      exact hrows.trans (congrArg (fun c => c.store.uploads) hu.core_eq)
    · have hsent : (releaseWorld u).session.sent = u.session.sent := by simp
      exact hsent.trans (hu.sent.trans (List.append_nil _).symm)
  · intro e he
    refine ⟨⟨rfl, rfl⟩, fun hg => ?_⟩
    obtain ⟨name, hname⟩ := hg.2
    rw [hname] at he
    cases he

theorem wp_request902 (payload : Bytes) :
    wp (request902 ctx payload version clientId)
      (fun _ w' => Gives [doneMessage clientId version] "invalid CRC on the 4th time" .failed w w' ∨
        TurnedDown clientId version w w')
      (fun _ u => Untouched w u ∧
        ¬ (Answering ctx w clientId version ∧ NameDecodes payload)) w := by
  apply wp_ofExcept_bind
  · intro name hname
    apply wp_mono (wp_failRow (x := fun v => do
        update fun w => w.setStore (w.store.appendLog (.clientId clientId) "request_902"
          (ctx.out.now v.store.calls))
        answer1604 ctx clientId version
        abandon ctx)
      (by decide +kernel : Short "bad 902: session upload name is invalid")
      (by decide +kernel : Short "bad 902: fail_upload_record problem in db") ?_)
    · exact fun _ _ h => h
    · exact fun _ _ h => ⟨h.1, fun hg => h.2 hg.1⟩
    intro v u hu hup
    rw [wp_bind, wp_update]
    have hlog : Does id u (u.setStore (u.store.appendLog (.clientId clientId) "request_902"
        (ctx.out.now v.store.calls))) := ⟨rfl, rfl⟩
    have hall := hu.trans hlog
    apply wp_seq wp_answer1604
    · intro _ z hz
      rw [wp_abandon]
      have hlast := hall.tells hz
      refine ⟨⟨ctx.out.now v.store.calls, rfl, releaseWorld_slot, hup, ?_⟩, ?_⟩
      · rw [resetWorld_store, releaseWorld_store]
        exact congrArg (fun c => c.store.uploads) hlast.core_eq
      · rw [resetWorld_sent, releaseWorld_sent, hlast.sent]
    · rintro _ z ⟨hz, hno⟩
      refine ⟨Untouched.trans ⟨congrArg Core.transfer hall.core_eq,
        congrArg Core.hasUploadSlot hall.core_eq⟩ (untouched_of_core hz), fun hg => hno ?_⟩
      exact hg.of_store ⟨_, congrArg Core.store hall.core_eq⟩
  · intro e he
    refine ⟨⟨rfl, rfl⟩, fun hg => ?_⟩
    obtain ⟨name, hname⟩ := hg.2
    rw [hname] at he
    cases he

/-! ### The router -/

/-- A request code that has a handler. -/
def Known (code : ℕ) : Prop := code ∈ [825, 826, 827, 828, 829, 830, 900, 901, 902]

instance (code : ℕ) : Decidable (Known code) := inferInstanceAs (Decidable (_ ∈ _))

/-- The router's own reset: the transfer goes, the slot stays. -/
structure Dropped (w w' : World) : Prop where
  transfer : w'.session.transfer = {}
  slot : w'.session.hasUploadSlot = w.session.hasUploadSlot
  rows : w'.store.working.uploads = w.store.working.uploads

/-- What a frame of a verified session does when nothing raises. -/
inductive Routed (ctx : Ctx) (frame : Bytes) (w w' : World) : Prop
  | aside (hform : wellFormed frame = true)
      (hcode : (parseFrame frame).code ∈ [825, 826, 827, 829, 830])
      (hstep : AccountOnly ctx.env w w')
  | malformed (hform : wellFormed frame = false) (hstep : Dropped w w')
  | unknown (hform : wellFormed frame = true) (hcode : ¬ Known (parseFrame frame).code)
      (hactive : w.session.transfer.uploadActive = true) (hstep : Dropped w w')
  | ignored (hform : wellFormed frame = true) (hcode : ¬ Known (parseFrame frame).code)
      (hactive : w.session.transfer.uploadActive = false) (hstep : AccountOnly ctx.env w w')
  | upload (hform : wellFormed frame = true) (hcode : (parseFrame frame).code = 828)
      (hstep : Uploads ctx (parseFrame frame).clientId (parseFrame frame).version
        (parseFrame frame).payload w w')
  | complete (hform : wellFormed frame = true) (hcode : (parseFrame frame).code = 900)
      (hstep : Completes (parseFrame frame).clientId (parseFrame frame).version
          (parseFrame frame).payload w w' ∨
        (TurnedDown (parseFrame frame).clientId (parseFrame frame).version w w' ∧
          w'.store.working.uploads = w.store.working.uploads))
  | mismatch (hform : wellFormed frame = true) (hcode : (parseFrame frame).code = 901)
      (hstep : Gives [] "CRC mismatch" .crcMismatch w w' ∨
        TurnedDown (parseFrame frame).clientId (parseFrame frame).version w w')
  | giveUp (hform : wellFormed frame = true) (hcode : (parseFrame frame).code = 902)
      (hstep : Gives [doneMessage (parseFrame frame).clientId (parseFrame frame).version]
          "invalid CRC on the 4th time" .failed w w' ∨
        TurnedDown (parseFrame frame).clientId (parseFrame frame).version w w')

/-- A frame that is no upload packet leaves the upload alone or resets it. -/
theorem routed_cases {ctx : Ctx} {frame : Bytes} {w w' : World} (h : Routed ctx frame w w') :
    AccountOnly ctx.env w w' ∨ w'.session.transfer = {} ∨
      (wellFormed frame = true ∧ (parseFrame frame).code = 828 ∧
        Uploads ctx (parseFrame frame).clientId (parseFrame frame).version
          (parseFrame frame).payload w w') := by
  have hgives {ms : List Bytes} {text : String} {status : UploadStatus}
      (hstep : Gives ms text status w w' ∨
        TurnedDown (parseFrame frame).clientId (parseFrame frame).version w w') :
      w'.session.transfer = {} := by
    rcases hstep with ⟨⟨time, hset⟩, -⟩ | hdown
    · exact hset.transfer
    · exact hdown.transfer
  cases h with
  | aside hform hcode hstep => exact .inl hstep
  | malformed hform hstep => exact .inr (.inl hstep.transfer)
  | unknown hform hcode hactive hstep => exact .inr (.inl hstep.transfer)
  | ignored hform hcode hactive hstep => exact .inl hstep
  | upload hform hcode hstep => exact .inr (.inr ⟨hform, hcode, hstep⟩)
  | complete hform hcode hstep =>
      rcases hstep with hdone | ⟨hdown, -⟩
      · obtain ⟨name, row, path, crc, time, -, -, -, -, -, hset⟩ := hdone.completed
        exact .inr (.inl hset.transfer)
      · exact .inr (.inl hdown.transfer)
  | mismatch hform hcode hstep => exact .inr (.inl (hgives hstep))
  | giveUp hform hcode hstep => exact .inr (.inl (hgives hstep))

/-- What a frame leaves behind when it raises. -/
inductive Broke (ctx : Ctx) (frame : Bytes) (w u : World) : Prop
  | aside (hstep : AccountOnly ctx.env w u)
  | upload (hform : wellFormed frame = true) (hcode : (parseFrame frame).code = 828)
      (hstep : Stopped828 ctx (parseFrame frame).clientId (parseFrame frame).version
        (parseFrame frame).payload w u)
  | confirm (hcode : (parseFrame frame).code ∈ [900, 901, 902]) (hstep : Untouched w u)
      (hkept : Answering ctx w (parseFrame frame).clientId (parseFrame frame).version →
        SessionFrames.core u = SessionFrames.core w)

/-- The conditions, on the state before the frame and on what the frame meets,
under which its request does not raise. -/
structure Smooth (ctx : Ctx) (frame : Bytes) (w : World) : Prop where
  answering : Answering ctx w (parseFrame frame).clientId (parseFrame frame).version
  register : (parseFrame frame).code = 825 → Smooth825 ctx (parseFrame frame).payload w
  enrol : (parseFrame frame).code = 826 →
    Smooth826 ctx (parseFrame frame).clientId (parseFrame frame).payload w
  relogin : (parseFrame frame).code = 827 → LibraryWorks ctx.env
  upload : (parseFrame frame).code = 828 →
    Smooth828 ctx (parseFrame frame).clientId (parseFrame frame).payload w
  confirm : (parseFrame frame).code ∈ [900, 901, 902] → NameDecodes (parseFrame frame).payload

variable {frame : Bytes}

/-- A 1607, as an account step. -/
theorem wp_error {text : String} (hs : Short text) :
    wp (answer1607 ctx clientId version text)
      (fun _ u => SessionFrames.core u = SessionFrames.core w ∧ AccountOnly ctx.env w u)
      (fun _ u => AccountOnly ctx.env w u ∧ ¬ Answering ctx w clientId version) w := by
  apply wp_mono (wp_and (wp_answer1607 text) ((account_answer1607 text).wp w))
  · exact fun _ _ h => ⟨h.1.core_eq, h.2⟩
  · exact fun _ _ h => ⟨h.2, fun hg => h.1.2 ⟨hg, hs⟩⟩

theorem wp_onFrameBad (reason : String) :
    wp (onFrameBad reason)
      (fun _ u => SessionFrames.core u = SessionFrames.core w ∧ AccountOnly ctx.env w u)
      (fun _ _ => False) w := by
  have hq : AccountOnly ctx.env w (onFrameBad reason w).2 :=
    account_of_tells (tells_onFrameBad reason) w
  rw [onFrameBad, onSession, wp_update]
  exact ⟨rfl, hq⟩

/-- The router's report of a protocol error. -/
theorem wp_reportError {reason text : String} (hs : Short text) {x : Server Unit}
    {Q : Unit → World → Prop} {E : PyError → World → Prop}
    (hx : ∀ u, SessionFrames.core u = SessionFrames.core w → AccountOnly ctx.env w u → wp x Q E u)
    (he : ∀ e u, AccountOnly ctx.env w u → ¬ Answering ctx w clientId version → E e u) :
    wp (do
        onFrameBad reason
        answer1607 ctx clientId version text
        x) Q E w := by
  apply wp_then (wp_onFrameBad reason)
  rintro _ u ⟨hu, hua⟩
  apply wp_seq (wp_error hs)
  · rintro _ v ⟨hv, hva⟩
    exact hx v (hv.trans hu) (trans_of (AccountOnly ctx.env) hua hva)
  · rintro e v ⟨hv, hno⟩
    exact he e v (trans_of (AccountOnly ctx.env) hua hv) fun hg => hno (hg.of_core hu)

theorem dropped_of_core {u : World} (h : SessionFrames.core u = SessionFrames.core w) :
    Dropped w (resetWorld ctx u) :=
  ⟨rfl, congrArg Core.hasUploadSlot h, congrArg (fun c => c.store.uploads) h⟩

theorem wp_dispatchAs (hv : Verified w.session.handshake) (hform : wellFormed frame = true) :
    wp (dispatchAs handlers ctx (parseFrame frame) true)
      (fun _ w' => Routed ctx frame w w')
      (fun _ u => Broke ctx frame w u ∧ ¬ Smooth ctx frame w) w := by
  -- a request that leaves the upload alone and returns when the frame is smooth
  have haside {x : Server Unit} (hcode : (parseFrame frame).code ∈ [825, 826, 827, 829, 830])
      (hx : Keeps (AccountOnly ctx.env) x)
      (hret : Smooth ctx frame w → wp x (fun _ _ => True) (fun _ _ => False) w) :
      wp x (fun _ w' => Routed ctx frame w w')
        (fun _ u => Broke ctx frame w u ∧ ¬ Smooth ctx frame w) w := by
    apply wp_mono (wp_blame (hx.wp w) hret)
    · exact fun _ _ h => .aside hform hcode h
    · exact fun _ _ h => ⟨.aside h.1, h.2⟩
  -- a confirmation; one whose name is not text raises before anything else
  have hconfirm {x : String → Server Unit} {Q : World → Prop}
      (hcode : (parseFrame frame).code ∈ [900, 901, 902])
      (hx : wp (ofExcept (confirmedName (parseFrame frame).payload) >>= x) (fun _ w' => Q w')
        (fun _ u => Untouched w u ∧
          ¬ (Answering ctx w (parseFrame frame).clientId (parseFrame frame).version ∧
            NameDecodes (parseFrame frame).payload)) w)
      (hq : ∀ w', Q w' → Routed ctx frame w w') :
      wp (ofExcept (confirmedName (parseFrame frame).payload) >>= x)
        (fun _ w' => Routed ctx frame w w')
        (fun _ u => Broke ctx frame w u ∧ ¬ Smooth ctx frame w) w := by
    rcases hname : confirmedName (parseFrame frame).payload with e | name
    · rw [wp_bind, wp_ofExcept_error]
      refine ⟨.confirm hcode ⟨rfl, rfl⟩ fun _ => rfl, fun hs => ?_⟩
      obtain ⟨name, hn⟩ := hs.confirm hcode
      exact absurd (hname.symm.trans hn) (by simp)
    · rw [hname] at hx
      have hdecodes : NameDecodes (parseFrame frame).payload := ⟨name, hname⟩
      apply wp_mono hx
      · exact fun _ w' h => hq w' h
      · exact fun _ u h => ⟨.confirm hcode h.1 fun hg => (h.2 ⟨hg, hdecodes⟩).elim,
          fun hs => h.2 ⟨hs.answering, hdecodes⟩⟩
  unfold dispatchAs
  rw [if_neg (by simp)]
  by_cases h₉ : (parseFrame frame).code = 829 ∨ (parseFrame frame).code = 830
  · rw [if_pos ⟨rfl, h₉⟩]
    refine haside (by rcases h₉ with h | h <;> rw [h] <;> decide) (account_answer1607 _)
      fun hs => ?_
    exact answer1607_returns hs.answering (by decide +kernel)
  rw [if_neg fun h => h₉ h.2]
  by_cases h₅ : (parseFrame frame).code = 825
  · rw [if_pos h₅]
    exact haside (by rw [h₅]; decide) (account_request825 _) fun hs =>
      request825_returns hs.answering (hs.register h₅)
  rw [if_neg h₅]
  by_cases h₇ : (parseFrame frame).code = 827
  · rw [if_pos h₇]
    exact haside (by rw [h₇]; decide) (account_request827 _) fun hs =>
      request827_returns hs.answering hv (hs.relogin h₇)
  rw [if_neg h₇]
  by_cases h₆ : (parseFrame frame).code = 826
  · rw [if_pos h₆]
    exact haside (by rw [h₆]; decide) (account_request826 _) fun hs =>
      request826_returns hs.answering hv (hs.enrol h₆)
  rw [if_neg h₆]
  by_cases h₈ : (parseFrame frame).code = 828
  · rw [if_pos h₈]
    apply wp_mono (wp_request828 _)
    · exact fun _ _ h => .upload hform h₈ h
    · exact fun _ _ h => ⟨.upload hform h₈ h.1, fun hs => h.2 ⟨hs.answering, hs.upload h₈⟩⟩
  push Not at h₉
  rw [if_neg h₈, if_neg h₉.1, if_neg h₉.2]
  by_cases h900 : (parseFrame frame).code = 900
  · rw [if_pos h900]
    exact hconfirm (by rw [h900]; decide) (wp_request900 _) fun _ h =>
      .complete hform h900 (h.imp_right fun h => ⟨h.1, h.2.1⟩)
  rw [if_neg h900]
  by_cases h901 : (parseFrame frame).code = 901
  · rw [if_pos h901]
    exact hconfirm (by rw [h901]; decide) (wp_request901 _) fun _ h => .mismatch hform h901 h
  rw [if_neg h901]
  by_cases h902 : (parseFrame frame).code = 902
  · rw [if_pos h902]
    exact hconfirm (by rw [h902]; decide) (wp_request902 _) fun _ h => .giveUp hform h902 h
  rw [if_neg h902]
  have hunknown : ¬ Known (parseFrame frame).code := by simp [Known, *]
  apply wp_reportError (by decide +kernel)
  · intro u hu hua
    have hactive : u.session.transfer.uploadActive = w.session.transfer.uploadActive :=
      congrArg (fun c => c.transfer.uploadActive) hu
    rw [wp_bind, wp_look]
    split_ifs with ha
    · rw [wp_reset]
      exact .unknown hform hunknown (hactive ▸ ha) (dropped_of_core hu)
    · rw [wp_pure]
      exact .ignored hform hunknown (by rw [← hactive]; simpa using ha) hua
  · exact fun _ u hu hno => ⟨.aside hu, fun hs => hno hs.answering⟩

theorem wp_routeFrame (hv : Verified w.session.handshake) :
    wp (routeFrame handlers ctx frame) (fun _ w' => Routed ctx frame w w')
      (fun _ u => Broke ctx frame w u ∧ ¬ Smooth ctx frame w) w := by
  have hmalformed {reason text : String} (hform : wellFormed frame = false) (ht : Short text) :
      wp (do
          onFrameBad reason
          answer1607 ctx (parseFrame frame).clientId (parseFrame frame).version text
          resetTransferState ctx)
        (fun _ w' => Routed ctx frame w w')
        (fun _ u => Broke ctx frame w u ∧ ¬ Smooth ctx frame w) w := by
    apply wp_reportError ht
    · intro u hu _
      rw [wp_reset]
      exact .malformed hform (dropped_of_core hu)
    · exact fun _ u hu hno => ⟨.aside hu, fun hs => hno hs.answering⟩
  unfold routeFrame
  split_ifs with hshort hform
  · refine hmalformed ?_ (by decide +kernel)
    simp only [wellFormed, Bool.and_eq_false_iff, decide_eq_false_iff_not]
    exact .inl (by omega)
  · exact hmalformed (by simpa using hform) (by decide +kernel)
  · rw [dispatch, wp_bind, wp_look, hv.verified]
    exact wp_dispatchAs hv (by simpa using hform)

/-- After a raise the report is best effort and an active upload is reset. -/
inductive Recovered (u w' : World) : Prop
  | dropped (hactive : u.session.transfer.uploadActive = true) (hstep : Dropped u w')
  | kept (hactive : u.session.transfer.uploadActive = false)
      (hstep : SessionFrames.core w' = SessionFrames.core u)

theorem wp_recover (r : Request) (e : PyError) :
    wp (recover ctx r e) (fun _ w' => Recovered w w') (fun _ _ => False) w := by
  have hreason : wp (onFrameBad "handle_frame_exception" : Server Unit)
      (fun _ u => SessionFrames.core u = SessionFrames.core w ∧
        u.session.disconnectReason = "handle_frame_exception") (fun _ _ => False) w := by
    rw [onFrameBad, onSession, wp_update]
    exact ⟨rfl, rfl⟩
  apply wp_then hreason
  rintro _ u ⟨hu, hr⟩
  -- the reason written just now is not that of a failed send, so nothing is raised again
  rw [wp_bind, wp_look, hr, if_neg (by decide), wp_bind, wp_attempt]
  have hend (v : World) (hv : SessionFrames.core v = SessionFrames.core u) :
      wp (look (fun w => w.session.transfer.uploadActive) >>= fun active =>
          if active = true then resetTransferState ctx else pure ())
        (fun _ w' => Recovered w w') (fun _ _ => False) v := by
    have hvw := hv.trans hu
    have hactive : v.session.transfer.uploadActive = w.session.transfer.uploadActive :=
      congrArg (fun c => c.transfer.uploadActive) hvw
    rw [wp_bind, wp_look]
    split_ifs with ha
    · rw [wp_reset]
      exact .dropped (hactive ▸ ha) (dropped_of_core hvw)
    · rw [wp_pure]
      exact .kept (by rw [← hactive]; simpa using ha) hvw
  apply wp_mono (wp_answer1607 _)
  · exact fun _ v hv => hend v hv.core_eq
  · rintro _ v ⟨hv, -⟩
    rw [wp_pure]
    exact hend v hv

/-- The three ways a frame of a verified session can go. -/
inductive Handled (ctx : Ctx) (frame : Bytes) (w w' : World) : Prop
  | short (hlen : frame.length < 17) (hstep : Tells [] w w')
  | routed (hlen : 17 ≤ frame.length)
      (hstep : Routed ctx frame (noteIdentity (parseFrame frame) w) w')
  | raised (hlen : 17 ≤ frame.length) (u : World)
      (hstep : Broke ctx frame (noteIdentity (parseFrame frame) w) u)
      (hcause : ¬ Smooth ctx frame (noteIdentity (parseFrame frame) w)) (hend : Recovered u w')

theorem handled (hv : Verified w.session.handshake) :
    Handled ctx frame w (handleFrame ctx frame w).2 := by
  unfold handleFrame
  rcases Nat.lt_or_ge frame.length 17 with hlen | hlen
  · rw [handleFrameWith_short hlen]
    exact .short hlen (tells_onFrameBad _ w)
  rw [handleFrameWith_long hlen]
  apply wp_state.mp
  rw [wp_attempt]
  have hroute : wp (routeFrame handlers ctx frame) _ _ (noteIdentity (parseFrame frame) w) :=
    wp_routeFrame hv
  apply wp_mono hroute
  · exact fun _ w' h => .routed hlen h
  · rintro e u ⟨hbroke, hno⟩
    exact wp_mono (wp_recover _ e) (fun _ w' h => .raised hlen u hbroke hno h)
      (fun _ _ h => h.elim)

end

end Seftp.FrameSteps
