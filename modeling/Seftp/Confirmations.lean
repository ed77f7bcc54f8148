import Seftp.RowSteps
import Seftp.UploadSlot

/-!
# Who concludes an upload

Requests 900, 901 and 902 conclude the tracked upload. They look at the file name
and at what the session has stored, but not at the client in the header. `Reaches`
is what it takes for such a request to get to the row; the property that a foreign
request leaves the row alone holds exactly when it does not.
-/
namespace Seftp.Confirmations
open LittleEndian ExceptState OutsideWorld Text Protocol ClientStore StoreFrames ServerSession
open Answers SessionFrames AccountHandlers UploadHandlers HandlerFrames UploadSteps FrameSteps
open Router HandshakeGate UploadStages UploadSlot KeyBinding RowSteps AccountSteps

/-! ### Reaching the row -/

/-- The two SQL calls of a `last_seen` update succeed and the index is complete for
the client. -/
structure Touches (o : Outside) (idHex : String) (st : Store) : Prop where
  statement : o.sqlRaises st.calls = false
  commit : o.sqlRaises (st.calls + 1) = false
  indexed : 0 < st.working.clientRows idHex → (st.clientsById idHex).isSome = true

/-- A confirmation passes its checks and its update of the row does not fail. -/
structure Reaches (o : Outside) (r : Request) (w : World) : Prop where
  name : ∃ name, confirmedName r.payload = .ok name ∧
    w.session.transfer.uploadFilename = some name
  touches : Touches o (hex r.clientId) w.store
  update : o.sqlRaises (w.store.calls + 2) = false
  stored : r.code = 900 → w.session.transfer.uploadPath.isSome = true ∧
    w.session.transfer.uploadCrc.isSome = true

/-- The row `id` is no longer in progress. -/
def Concluded (id : ℕ) (w : World) : Prop :=
  ∃ r ∈ w.store.working.uploads, r.id = id ∧ r.status ≠ .inProgress

/-- The rows stay, and only messages of one kind are sent. -/
structure RowsKept (P : Bytes → Prop) (w w' : World) : Prop where
  rows : w'.store.working.uploads = w.store.working.uploads
  sent : ∃ ms, w'.session.sent = w.session.sent ++ ms ∧ ∀ m ∈ ms, P m

instance (P : Bytes → Prop) : Std.Refl (RowsKept P) := ⟨fun _ => ⟨rfl, [], by simp, by simp⟩⟩

instance (P : Bytes → Prop) : IsTrans World (RowsKept P) where
  trans a b c h h' := by
    obtain ⟨ms, hm, hp⟩ := h.sent
    obtain ⟨ns, hn, hq⟩ := h'.sent
    refine ⟨h'.rows.trans h.rows, ms ++ ns, by rw [hn, hm, List.append_assoc], ?_⟩
    exact fun m hmem => (List.mem_append.mp hmem).elim (hp m) (hq m)

/-- A confirmation concludes the row if it reaches it, and else reports an error. -/
structure Outcome (reached : Prop) (id : ℕ) (w w' : World) : Prop where
  concluded : reached → Concluded id w'
  kept : ¬ reached → RowsKept (Coded .error) w w'

section
variable {ctx : Ctx} {P : Bytes → Prop} {w u v : World} {clientId version : Bytes} {id : ℕ}
  {reached : Prop}

theorem kept_of_quiet (h : Quiet P w u) : RowsKept P w u := by
  obtain ⟨ms, ht, hm⟩ := h
  exact ⟨congrArg (fun c => c.store.uploads) ht.core_eq, ms, ht.sent, hm⟩

theorem RowsKept.mono {P' : Bytes → Prop} (h : RowsKept P w u) (hp : ∀ m, P m → P' m) :
    RowsKept P' w u := by
  obtain ⟨ms, hm, hall⟩ := h.sent
  exact ⟨h.rows, ms, hm, fun m hmem => hp m (hall m hmem)⟩

theorem kept_reset : Keeps (RowsKept P) (resetTransferState ctx) := by
  intro w
  rw [resetTransferState_eq]
  exact ⟨rfl, [], by simp, by simp⟩

theorem kept_abandon : Keeps (RowsKept P) (abandon ctx) := by
  refine keeps_bind (fun w => ?_) fun _ => kept_reset
  change RowsKept P w (releaseWorld w)
  exact ⟨by rw [releaseWorld_store], [], by simp, by simp⟩

theorem kept_answer1607 (text : String) :
    Keeps (RowsKept (Coded .error)) (answer1607 ctx clientId version text) := fun w =>
  kept_of_quiet (quiet_answer1607 text w)

theorem kept_refusal (text : String) :
    Keeps (RowsKept (Coded .error)) (refuse ctx clientId version { answer := some text }) :=
  keeps_bind (keeps_pure _) fun _ => keeps_bind (kept_answer1607 text) fun _ => kept_abandon

theorem kept_recover (r : Request) (e : PyError) :
    Keeps (RowsKept (Coded .error)) (recover ctx r e) := by
  have hnote : Keeps (RowsKept (Coded .error)) (onFrameBad "handle_frame_exception") := fun w =>
    kept_of_quiet (quiet_of_tells (tells_onFrameBad _) w)
  refine keeps_bind hnote fun _ => keeps_look_bind fun reason => keeps_ite (keeps_raise _) ?_
  exact keeps_bind (keeps_attempt (kept_answer1607 _) fun _ => keeps_pure _) fun _ =>
    keeps_look_bind fun active => keeps_ite kept_reset (keeps_pure _)

theorem Concluded.kept (h : Concluded id w) (hk : RowsKept P w u) : Concluded id u := by
  obtain ⟨r, hr, hrest⟩ := h
  exact ⟨r, by rw [hk.rows]; exact hr, hrest⟩

/-- An error report after the checks have failed. -/
theorem Outcome.turned (hno : ¬ reached) (h : RowsKept (Coded .error) w u) :
    Outcome reached id w u := ⟨fun hyes => (hno hyes).elim, fun _ => h⟩

/-! ### The handlers -/

/-- A `last_seen` update, with the calls it makes. -/
theorem wp_touch_exact (idHex : String) (hup : w.store.connected = true) :
    wp (onStore (touchClientLastSeen ctx.out idHex))
      (fun _ u => Tells [] w u ∧ u.store.calls = w.store.calls + 2 ∧ Touches ctx.out idHex w.store)
      (fun _ u => Tells [] w u ∧ ¬ Touches ctx.out idHex w.store) w := by
  have hcalls : wp (onStore (touchClientLastSeen ctx.out idHex))
      (fun _ u => u.store.calls = w.store.calls + 2 ∧ Touches ctx.out idHex w.store)
      (fun _ u => ¬ Touches ctx.out idHex w.store) w := by
    rw [onStore, wp_zoom, touchClientLastSeen, wp_bind, wp_fetch]
    simp only [setClientField, wp_bind, wp_fetch, wp_ite, wp_execute, wp_commit, wp_pure, hup,
      Bool.not_true, Bool.false_eq_true, if_false]
    split_ifs with h₁ h₂ hrows
    · exact fun h => absurd h.statement (by simp [h₁])
    · exact fun h => absurd h.commit (by simp [h₂])
    · exact ⟨rfl, by simpa using h₁, by simpa using h₂, fun h => absurd hrows h.ne'⟩
    · rcases hindex : w.store.clientsById idHex with _ | ref
      · rw [wp_raise]
        intro h
        have := h.indexed (Nat.pos_of_ne_zero hrows)
        rw [hindex] at this
        cases this
      · rw [wp_bind, wp_update, wp_pure]
        exact ⟨rfl, by simpa using h₁, by simpa using h₂, fun _ => by rw [hindex]; rfl⟩
  exact wp_mono (wp_and ((tells_touch idHex).wp w) hcalls) (fun _ _ h => h) (fun _ _ h => h)

/-- The update of a row, and what follows it without touching rows. -/
theorem outcome_change {c : UploadChange} {x : Bool → Server Unit} (hup : w.store.connected = true)
    (hc : Concluding c) (hrow : ∃ r ∈ w.store.working.uploads, r.id = id)
    (hx : ∀ ok, Keeps (RowsKept fun _ => True) (x ok)) :
    wp (onStore (changeUploadRecord ctx.out (some id) c) >>= x)
      (fun _ u => Outcome (ctx.out.sqlRaises w.store.calls = false) id w u)
      (fun _ u => Outcome (ctx.out.sqlRaises w.store.calls = false) id w u) w := by
  have hchanged {st : Store} (h : st.working = w.store.working.updateUpload (some id) c) :
      Concluded id (w.setStore st) := by
    obtain ⟨r, hr, rfl⟩ := hrow
    refine ⟨r.change c, ?_, r.change_id c, ?_⟩
    · rw [show (w.setStore st).store.working = _ from h]
      exact List.mem_map.mpr ⟨r, hr, if_pos rfl⟩
    · cases c with
      | complete path crc time => simp [UploadRow.change]
      | fail reason status time => exact hc
  have hstore : wp (onStore (changeUploadRecord ctx.out (some id) c))
      (fun _ u => ctx.out.sqlRaises w.store.calls = false ∧ Concluded id u)
      (fun _ u => Outcome (ctx.out.sqlRaises w.store.calls = false) id w u) w := by
    rw [onStore, wp_zoom]
    simp only [changeUploadRecord, wp_bind, wp_fetch, wp_ite, wp_execute, wp_commit, wp_pure, hup,
      Bool.not_true, Bool.false_eq_true, if_false]
    split_ifs with h₁ h₂
    · exact .turned (by simp [h₁]) ⟨rfl, [], by simp [World.setStore], by simp⟩
    · exact ⟨fun _ => hchanged rfl, fun hno => absurd (by simpa using h₁) hno⟩
    · exact ⟨by simpa using h₁, hchanged rfl⟩
  apply wp_seq hstore
  · rintro ok u ⟨hworks, hu⟩
    have hend (v : World) (hv : RowsKept (fun _ => True) u v) :
        Outcome (ctx.out.sqlRaises w.store.calls = false) id w v :=
      ⟨fun _ => hu.kept hv, fun hno => (hno hworks).elim⟩
    exact wp_mono ((hx ok).wp u) (fun _ v hv => hend v hv) (fun _ v hv => hend v hv)
  · exact fun _ _ h => h

/-- After the name has been decoded and `last_seen` refreshed. -/
structure Greeted (o : Outside) (r : Request) (name : String) (w u : World) : Prop where
  name : confirmedName r.payload = .ok name
  tells : Tells [] w u
  calls : u.store.calls = w.store.calls + 2
  touches : Touches o (hex r.clientId) w.store

theorem Greeted.kept {o : Outside} {r : Request} {name : String} (h : Greeted o r name w u) :
    RowsKept (Coded .error) w u := kept_of_quiet h.tells.silent

theorem greeted_log {o : Outside} {r : Request} {name : String} (h : Greeted o r name w u)
    (key : LogKey) (event time : String) :
    Greeted o r name w (u.setStore (u.store.appendLog key event time)) := by
  have hlog : Tells [] u (u.setStore (u.store.appendLog key event time)) :=
    ⟨rfl, by simp [World.setStore], ⟨rfl, .inl (.refl _)⟩⟩
  exact ⟨h.name, h.tells.trans hlog, h.calls, h.touches⟩

/-- The common beginning of the three requests. -/
theorem outcome_greet {r : Request} {body : String → Server Unit} (hup : w.store.connected = true)
    (hbody : ∀ name u, Greeted ctx.out r name w u →
      wp (body name) (fun _ v => Outcome (Reaches ctx.out r w) id w v)
        (fun _ v => Outcome (Reaches ctx.out r w) id w v) u) :
    wp (do
        let name ← ofExcept (confirmedName r.payload)
        let _ ← onStore (touchClientLastSeen ctx.out (hex r.clientId))
        body name)
      (fun _ v => Outcome (Reaches ctx.out r w) id w v)
      (fun _ v => Outcome (Reaches ctx.out r w) id w v) w := by
  apply wp_ofExcept_bind
  · intro name hname
    apply wp_seq (wp_touch_exact (hex r.clientId) hup)
    · exact fun _ u hu => hbody name u ⟨hname, hu.1, hu.2.1, hu.2.2⟩
    · exact fun _ u hu => .turned (fun h => hu.2 h.touches) (kept_of_quiet hu.1.silent)
  · intro e he
    refine .turned (fun h => ?_) (refl_of (RowsKept _) w)
    obtain ⟨name, hname, -⟩ := h.name
    rw [he] at hname
    cases hname

/-- A refusal of a request that does not reach the row. -/
theorem outcome_refuse {r : Request} {name text : String} (hu : Greeted ctx.out r name w u)
    (hno : ¬ Reaches ctx.out r w) :
    wp (refuse ctx r.clientId r.version { answer := some text })
      (fun _ v => Outcome (Reaches ctx.out r w) id w v)
      (fun _ v => Outcome (Reaches ctx.out r w) id w v) u := by
  have hend (v : World) (hv : RowsKept (Coded .error) u v) :
      Outcome (Reaches ctx.out r w) id w v := .turned hno (trans_of (RowsKept _) hu.kept hv)
  exact wp_mono ((kept_refusal text).wp u) (fun _ v hv => hend v hv) (fun _ v hv => hend v hv)

theorem not_reaches {r : Request} {name : String} (hu : Greeted ctx.out r name w u)
    (hname : u.session.transfer.uploadFilename ≠ some name) : ¬ Reaches ctx.out r w := by
  intro h
  obtain ⟨name', hname', hfile⟩ := h.name
  rw [hu.name] at hname'
  cases hname'
  rw [hu.tells.transfer] at hname
  exact hname hfile

/-- A request for the right name goes on to the row. -/
theorem outcome_row {r : Request} {name : String} {c : UploadChange} {x : Bool → Server Unit}
    (hup : w.store.connected = true) (hrow : ∃ r ∈ w.store.working.uploads, r.id = id)
    (hu : Greeted ctx.out r name w u) (hname : u.session.transfer.uploadFilename = some name)
    (hstored : r.code = 900 → w.session.transfer.uploadPath.isSome = true ∧
      w.session.transfer.uploadCrc.isSome = true)
    (hc : Concluding c) (hx : ∀ ok, Keeps (RowsKept fun _ => True) (x ok)) :
    wp (onStore (changeUploadRecord ctx.out (some id) c) >>= x)
      (fun _ v => Outcome (Reaches ctx.out r w) id w v)
      (fun _ v => Outcome (Reaches ctx.out r w) id w v) u := by
  have hrows : u.store.working.uploads = w.store.working.uploads := hu.kept.rows
  have hchange : wp (onStore (changeUploadRecord ctx.out (some id) c) >>= x)
      (fun _ v => Outcome (ctx.out.sqlRaises u.store.calls = false) id u v)
      (fun _ v => Outcome (ctx.out.sqlRaises u.store.calls = false) id u v) u :=
    outcome_change (by rw [← hup]; exact congrArg (fun c => c.store.connected) hu.tells.core_eq) hc
      (by rw [hrows]; exact hrow) hx
  rw [hu.calls] at hchange
  have hend (v : World) (hv : Outcome (ctx.out.sqlRaises (w.store.calls + 2) = false) id u v) :
      Outcome (Reaches ctx.out r w) id w v := by
    refine ⟨fun h => hv.concluded h.update, fun hno => ?_⟩
    refine trans_of (RowsKept _) hu.kept (hv.kept fun hworks => hno ?_)
    rw [hu.tells.transfer] at hname
    exact ⟨⟨name, hu.name, hname⟩, hu.touches, hworks, hstored⟩
  exact wp_mono hchange (fun _ v hv => hend v hv) (fun _ v hv => hend v hv)

theorem kept_any {α : Type} {x : Server α} (hx : Keeps (RowsKept P) x) :
    Keeps (RowsKept fun _ => True) x := fun w => (hx w).mono fun _ _ => trivial

theorem kept_answer1604 : Keeps (RowsKept fun _ => True) (answer1604 ctx clientId version) :=
  kept_any fun w => kept_of_quiet (quiet_answer1604 w)

theorem kept_log (key : LogKey) (event now : String) : Keeps (RowsKept fun _ => True)
    (update fun w : World => w.setStore (w.store.appendLog key event now) : Server Unit) :=
  fun _ => ⟨rfl, [], by simp [update, World.setStore], by simp⟩

section
variable {r : Request} (hup : w.store.connected = true)
  (hid : w.session.transfer.uploadId = some id) (hrow : ∃ r ∈ w.store.working.uploads, r.id = id)
include hup hid hrow

theorem outcome_request900 (hcode : r.code = 900) :
    wp (request900 ctx r.payload r.version r.clientId)
      (fun _ v => Outcome (Reaches ctx.out r w) id w v)
      (fun _ v => Outcome (Reaches ctx.out r w) id w v) w := by
  apply outcome_greet hup
  intro name x hx
  rw [logEvent, wp_bind, wp_update, wp_bind, wp_fetch]
  have hu := greeted_log hx (.clientId r.clientId) "request_900" (ctx.out.now x.store.calls)
  generalize x.setStore (x.store.appendLog (.clientId r.clientId) "request_900"
    (ctx.out.now x.store.calls)) = u at hu
  have hid' : u.session.transfer.uploadId = some id := by rw [hu.tells.transfer, hid]
  dsimp only
  split
  · rename_i row path crc hrowId hpath hcrc
    rw [hid'] at hrowId
    cases hrowId
    rw [hu.tells.transfer] at hpath hcrc
    apply wp_branch
    · exact fun hname => outcome_refuse hu (not_reaches hu hname)
    intro hname
    apply outcome_row hup hrow hu (not_not.mp hname)
    · exact fun _ => ⟨by rw [hpath]; rfl, by rw [hcrc]; rfl⟩
    · trivial
    · exact fun ok => keeps_ite (kept_any (kept_refusal _))
        (keeps_bind kept_answer1604 fun _ => kept_abandon)
  · rename_i hmissing
    apply outcome_refuse hu
    intro h
    obtain ⟨hpath, hcrc⟩ := h.stored hcode
    rw [← hu.tells.transfer] at hpath hcrc
    obtain ⟨path, hpath⟩ := Option.isSome_iff_exists.mp hpath
    obtain ⟨crc, hcrc⟩ := Option.isSome_iff_exists.mp hcrc
    exact hmissing id path crc hid' hpath hcrc

theorem outcome_request901 (hcode : r.code = 901) :
    wp (request901 ctx r.payload r.version r.clientId)
      (fun _ v => Outcome (Reaches ctx.out r w) id w v)
      (fun _ v => Outcome (Reaches ctx.out r w) id w v) w := by
  apply outcome_greet hup
  intro name u hu
  rw [wp_bind, wp_fetch]
  apply wp_branch
  · exact fun hname => outcome_refuse hu (not_reaches hu hname)
  intro hname
  have hid' : u.session.transfer.uploadId = some id := by rw [hu.tells.transfer, hid]
  rw [hid']
  apply outcome_row hup hrow hu (not_not.mp hname)
  · exact fun h => absurd (hcode.symm.trans h) (by decide)
  · simp [Concluding]
  · exact fun ok => keeps_ite (kept_any (kept_refusal _))
      (keeps_bind kept_abandon fun _ => kept_log _ _ _)

theorem outcome_request902 (hcode : r.code = 902) :
    wp (request902 ctx r.payload r.version r.clientId)
      (fun _ v => Outcome (Reaches ctx.out r w) id w v)
      (fun _ v => Outcome (Reaches ctx.out r w) id w v) w := by
  apply outcome_greet hup
  intro name u hu
  rw [wp_bind, wp_fetch]
  apply wp_branch
  · exact fun hname => outcome_refuse hu (not_reaches hu hname)
  intro hname
  have hid' : u.session.transfer.uploadId = some id := by rw [hu.tells.transfer, hid]
  rw [hid']
  apply outcome_row hup hrow hu (not_not.mp hname)
  · exact fun h => absurd (hcode.symm.trans h) (by decide)
  · simp [Concluding]
  · exact fun ok => keeps_ite (kept_any (kept_refusal _))
      (keeps_bind (kept_log _ _ _) fun _ => keeps_bind kept_answer1604 fun _ => kept_abandon)

end

/-- The dispatch of the three requests. -/
theorem outcome_dispatchAs {r : Request} (hup : w.store.connected = true)
    (hid : w.session.transfer.uploadId = some id) (hrow : ∃ r ∈ w.store.working.uploads, r.id = id)
    (hcode : r.code = 900 ∨ r.code = 901 ∨ r.code = 902) :
    wp (dispatchAs handlers ctx r true) (fun _ v => Outcome (Reaches ctx.out r w) id w v)
      (fun _ v => Outcome (Reaches ctx.out r w) id w v) w := by
  have hother {n : ℕ} (h₀ : n ≠ 900) (h₁ : n ≠ 901) (h₂ : n ≠ 902) : r.code ≠ n := by omega
  unfold dispatchAs
  rw [if_neg (by simp), if_neg (fun h => h.2.elim (hother (by decide) (by decide) (by decide))
    (hother (by decide) (by decide) (by decide))),
    if_neg (hother (by decide) (by decide) (by decide)),
    if_neg (hother (by decide) (by decide) (by decide)),
    if_neg (hother (by decide) (by decide) (by decide)),
    if_neg (hother (by decide) (by decide) (by decide)),
    if_neg (hother (by decide) (by decide) (by decide)),
    if_neg (hother (by decide) (by decide) (by decide))]
  apply wp_branch
  · exact fun h => outcome_request900 hup hid hrow h
  intro h₀
  apply wp_branch
  · exact fun h => outcome_request901 hup hid hrow h
  intro h₁
  apply wp_branch
  · exact fun h => outcome_request902 hup hid hrow h
  · intro h₂
    omega

theorem kept_onFrameBad (reason : String) : Keeps (RowsKept (Coded .error)) (onFrameBad reason) :=
  fun w => kept_of_quiet (quiet_of_tells (tells_onFrameBad _) w)

/-- A frame the router turns down by itself. -/
theorem outcome_malformed {r : Request} (reason text : String) (hno : ¬ reached) :
    wp (do
        onFrameBad reason
        answer1607 ctx r.clientId r.version text
        resetTransferState ctx)
      (fun _ v => Outcome reached id w v) (fun _ v => Outcome reached id w v) w := by
  have hkept : Keeps (RowsKept (Coded .error)) (do
      onFrameBad reason
      answer1607 ctx r.clientId r.version text
      resetTransferState ctx) :=
    keeps_bind (kept_onFrameBad reason) fun _ => keeps_bind (kept_answer1607 text) fun _ =>
      kept_reset
  exact wp_mono (hkept.wp w) (fun _ _ h => .turned hno h) (fun _ _ h => .turned hno h)

/-- A whole frame with one of the three codes. -/
theorem outcome_handleFrame (ctx : Ctx) {frame : Bytes} (hv : w.session.handshake.verified = true)
    (hup : w.store.connected = true) (hid : w.session.transfer.uploadId = some id)
    (hrow : ∃ r ∈ w.store.working.uploads, r.id = id)
    (hcode : (parseFrame frame).code = 900 ∨ (parseFrame frame).code = 901 ∨
      (parseFrame frame).code = 902) :
    Outcome (wellFormed frame = true ∧ Reaches ctx.out (parseFrame frame) w) id w
      (handleFrame ctx frame w).2 := by
  unfold handleFrame
  rcases Nat.lt_or_ge frame.length 17 with hlen | hlen
  · rw [handleFrameWith_short hlen]
    refine .turned (fun h => ?_) (kept_onFrameBad _ w)
    have hform := h.1
    simp only [wellFormed, Bool.and_eq_true, decide_eq_true_eq] at hform
    omega
  rw [handleFrameWith_long hlen]
  have hroute : wp (routeFrame handlers ctx frame)
      (fun _ v => Outcome (wellFormed frame = true ∧ Reaches ctx.out (parseFrame frame) w) id
        (noteIdentity (parseFrame frame) w) v)
      (fun _ v => Outcome (wellFormed frame = true ∧ Reaches ctx.out (parseFrame frame) w) id
        (noteIdentity (parseFrame frame) w) v) (noteIdentity (parseFrame frame) w) := by
    unfold routeFrame
    apply wp_branch
    · intro hshort
      apply outcome_malformed
      rintro ⟨hform, -⟩
      simp only [wellFormed, Bool.and_eq_true, decide_eq_true_eq] at hform
      omega
    intro _
    apply wp_branch
    · intro hform
      apply outcome_malformed
      rintro ⟨hform', -⟩
      rw [hform'] at hform
      cases hform
    intro hform
    have hform' : wellFormed frame = true := by simpa using hform
    rw [dispatch, wp_bind, wp_look]
    rw [show (noteIdentity (parseFrame frame) w).session.handshake.verified = true from hv]
    have hreaches : Reaches ctx.out (parseFrame frame) (noteIdentity (parseFrame frame) w) ↔
        wellFormed frame = true ∧ Reaches ctx.out (parseFrame frame) w :=
      ⟨fun h => ⟨hform', h.name, h.touches, h.update, h.stored⟩,
        fun h => ⟨h.2.name, h.2.touches, h.2.update, h.2.stored⟩⟩
    rw [← hreaches]
    exact outcome_dispatchAs hup hid hrow hcode
  have hall : wp (attempt (routeFrame handlers ctx frame) (recover ctx (parseFrame frame)))
      (fun _ v => Outcome (wellFormed frame = true ∧ Reaches ctx.out (parseFrame frame) w) id
        (noteIdentity (parseFrame frame) w) v)
      (fun _ v => Outcome (wellFormed frame = true ∧ Reaches ctx.out (parseFrame frame) w) id
        (noteIdentity (parseFrame frame) w) v) (noteIdentity (parseFrame frame) w) := by
    rw [wp_attempt]
    apply wp_mono hroute
    · exact fun _ _ h => h
    · intro e u hu
      have hend (v : World) (hv : RowsKept (Coded .error) u v) :
          Outcome (wellFormed frame = true ∧ Reaches ctx.out (parseFrame frame) w) id
            (noteIdentity (parseFrame frame) w) v :=
        ⟨fun h => (hu.concluded h).kept hv, fun h => trans_of (RowsKept _) (hu.kept h) hv⟩
      exact wp_mono ((kept_recover _ e).wp u) (fun _ v hv => hend v hv) (fun _ v hv => hend v hv)
  obtain ⟨hconcluded, hkept⟩ := wp_state.mp hall
  exact ⟨hconcluded, fun h => ⟨(hkept h).rows, (hkept h).sent⟩⟩

end

/-! ### Runs -/

section
variable {env : Env} {s : System}

theorem sound_step (h : ∀ i, Sound (s.world i)) (a : Arrival) (i : ℕ) :
    Sound ((s.step env a).world i) := by
  by_cases hi : i = a.connection
  · rw [hi, world_step]
    exact sound_handleFrame (h _) _
  · have hsession : ((s.step env a).world i).session = (s.world i).session := sessions_step env hi
    unfold Sound
    rw [hsession]
    exact h i

theorem sound_runs (env : Env) (b : Boot) (as : List Arrival) (i : ℕ) :
    Sound ((b.system.run env as).world i) := by
  induction as using List.reverseRecOn generalizing i with
  | nil => exact .inl ⟨rfl, rfl⟩
  | append_singleton as a ih =>
      rw [run_snoc]
      exact sound_step ih a i

/-- A session that tracks an upload has completed its handshake. -/
theorem verified_of_tracked {w : World} (h : Sound w) {id : ℕ}
    (hid : w.session.transfer.uploadId = some id) : w.session.handshake.verified = true := by
  rcases h with ⟨-, ht⟩ | hv
  · rw [ht] at hid
    cases hid
  · exact hv.verified

end

/-- In every reachable state and for every confirmation with another client's id in
its header: the tracked row stays in progress and no 1604 is sent exactly when the
frame does not reach the row. -/
theorem foreign_confirmation_iff (env : Env) (b : Boot) (as : List Arrival) (a : Arrival) (id : ℕ)
    (owner : String)
    (hid : ((b.system.run env as).sessions a.connection).transfer.uploadId = some id)
    (_howner : ((b.system.run env as).sessions a.connection).transfer.uploadClientIdHex =
      some owner)
    (hcode : (parseFrame a.frame).code = 900 ∨ (parseFrame a.frame).code = 901 ∨
      (parseFrame a.frame).code = 902)
    (_hforeign : hex (parseFrame a.frame).clientId ≠ owner) :
    ((∃ r ∈ (b.system.run env (as ++ [a])).store.working.uploads,
        r.id = id ∧ r.status = .inProgress) ∧
      ∀ m ∈ (b.system.run env as).sentBy env a, ¬ Coded .transferDone m) ↔
    ¬ (wellFormed a.frame = true ∧
      Reaches a.out (parseFrame a.frame) ((b.system.run env as).world a.connection)) := by
  have hlive := (apart_run env (apart_boot b) as).live a.connection
  have hverified := verified_of_tracked (sound_runs env b as a.connection) hid
  obtain ⟨r, hr, hrid, hstatus, -⟩ := hlive.row id hid
  have hout : Outcome (wellFormed a.frame = true ∧
        Reaches a.out (parseFrame a.frame) ((b.system.run env as).world a.connection)) id
      ((b.system.run env as).world a.connection)
      (((b.system.run env as).step env a).world a.connection) := by
    rw [world_step]
    exact outcome_handleFrame ⟨env, a.out⟩ hverified
      (hlive.connected (Option.isSome_of_eq_some hid)) hid
      ⟨r, hr, hrid⟩ hcode
  rw [run_snoc]
  constructor
  · rintro ⟨⟨r', hr', hid', hprogress⟩, -⟩ hreach
    obtain ⟨r'', hr'', hid'', hdone⟩ := hout.concluded hreach
    have hsame := row_unique ((b.system.run env as).step env a).store.working hr' hr''
      (hid'.trans hid''.symm)
    exact hdone (hsame ▸ hprogress)
  · intro hno
    obtain ⟨hrows, ms, hms, herror⟩ := hout.kept hno
    have hkept : r ∈ ((b.system.run env as).step env a).store.working.uploads := by
      rw [show ((b.system.run env as).step env a).store.working.uploads = _ from hrows]
      exact hr
    refine ⟨⟨r, hkept, hrid, hstatus⟩, ?_⟩
    intro m hm hdone
    have hmem : m ∈ ms := by
      rw [System.sentBy, newSent_eq hms] at hm
      exact hm
    exact absurd (coded_unique hdone (herror m hmem)) (by decide)

/-- A server that knows one client, with connection 0 for that client. -/
def aliceBoot : Boot where
  db := aliceDb
  connectionIds _ := "c1"
  times _ := 0
  files := { entry := fun _ => none, content := fun _ => [], nextInode := 0, calls := 0 }
  limiter := aliceWorld.limiter

def onConnection (i : ℕ) (e : Event) : Arrival := { connection := i, out := e.1, frame := e.2 }

/-- The last attempt for `f` failed, says a client with another id. -/
def foreign902 : Arrival :=
  onConnection 0 (calm, List.replicate 16 2 ++ [3] ++ leBytes 2 902 ++ leBytes 4 1 ++
    utf8Encode "f")

/-- The same for a file that is not being uploaded. -/
def foreign902Other : Arrival :=
  onConnection 0 (calm, List.replicate 16 2 ++ [3] ++ leBytes 2 902 ++ leBytes 4 1 ++
    utf8Encode "g")

theorem foreign_confirmation_iff_other :
    ((aliceBoot.system.run plainEnv (aliceUpload.map (onConnection 0))).sessions
        0).transfer.uploadId = some 1 ∧
      (∃ r ∈ (aliceBoot.system.run plainEnv (aliceUpload.map (onConnection 0) ++
          [foreign902Other])).store.working.uploads, r.id = 1 ∧ r.status = .inProgress) ∧
      ∀ m ∈ (aliceBoot.system.run plainEnv (aliceUpload.map (onConnection 0))).sentBy plainEnv
        foreign902Other, ¬ Coded .transferDone m := by
  obtain ⟨hid, hf⟩ : ((aliceBoot.system.run plainEnv (aliceUpload.map (onConnection 0))).sessions
      0).transfer.uploadId = some 1 ∧
      ((aliceBoot.system.run plainEnv (aliceUpload.map (onConnection 0))).world
        0).session.transfer.uploadFilename = some "f" := by decide +kernel
  have hno : ¬ (wellFormed foreign902Other.frame = true ∧
      Reaches foreign902Other.out (parseFrame foreign902Other.frame)
        ((aliceBoot.system.run plainEnv (aliceUpload.map (onConnection 0))).world 0)) := by
    rintro ⟨-, h⟩
    obtain ⟨name, hname, hfile⟩ := h.name
    have hg : confirmedName (parseFrame foreign902Other.frame).payload = .ok "g" := by
      decide +kernel
    rw [hg] at hname
    cases hname
    exact absurd (hf.symm.trans hfile) (by decide)
  exact ⟨hid, (foreign_confirmation_iff plainEnv aliceBoot (aliceUpload.map (onConnection 0))
    foreign902Other 1 (hex aliceId) hid (by decide +kernel) (.inr (.inr (by decide +kernel)))
    (by decide +kernel)).mpr hno⟩

/-- During an upload of one client a request 902 in the name of another marks the
row as failed and is answered with 1604. -/
theorem foreign_client_concludes :
    ((aliceBoot.system.run plainEnv (aliceUpload.map (onConnection 0))).sessions
        0).transfer.uploadId = some 1 ∧
      ((aliceBoot.system.run plainEnv (aliceUpload.map (onConnection 0))).sessions
        0).transfer.uploadClientIdHex = some (hex aliceId) ∧
      (parseFrame foreign902.frame).code = 902 ∧
      hex (parseFrame foreign902.frame).clientId ≠ hex aliceId ∧
      (∃ r ∈ (aliceBoot.system.run plainEnv (aliceUpload.map (onConnection 0) ++
        [foreign902])).store.working.uploads, r.id = 1 ∧ r.status = .failed) ∧
      ∃ m ∈ (aliceBoot.system.run plainEnv (aliceUpload.map (onConnection 0))).sentBy plainEnv
        foreign902, Coded .transferDone m := by
  unfold Coded
  decide +kernel

end Seftp.Confirmations
