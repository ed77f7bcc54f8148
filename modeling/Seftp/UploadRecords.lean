import Seftp.ConnectionLoop
import Seftp.UploadSlot

/-!
# The row of an upload that ends

A session that stops tracking a row has marked it as failed, in every run whose
events are safe. The unsafe events are resets that do not touch the store: the
cleanup of a connection, an upload timeout, a frame that the router resets for, and
the refusals of request 828 that record nothing.
-/
namespace Seftp.UploadRecords
open LittleEndian ExceptState OutsideWorld BlockChaining Checksum Text Protocol ClientStore
open StoreFrames ServerSession Answers SessionFrames AccountHandlers UploadHandlers HandlerFrames
open UploadSteps ChunkSteps AccountSteps FrameSteps Router HandshakeGate UploadStages
open ConnectionLoop UploadSlot

/-! ### The status of a row -/

/-- The `status` of the row with an id. -/
def statusOf (rows : List UploadRow) (id : ℕ) : Option UploadStatus :=
  (rows.find? fun r => r.id = id).map UploadRow.status

theorem statusOf_fail {rows : List UploadRow} {id : ℕ} {reason time : String}
    {status : UploadStatus} (h : id ∈ rows.map UploadRow.id) :
    statusOf (changeRows (some id) (.fail reason status time) rows) id = some status := by
  induction rows with
  | nil => cases h
  | cons r rows ih =>
      by_cases hr : r.id = id
      · subst hr
        simp [statusOf, changeRows, UploadRow.change]
      · have hrest : id ∈ rows.map UploadRow.id := by
          rcases List.mem_cons.mp h with he | h
          · exact (hr he.symm).elim
          · exact h
        have := ih hrest
        simpa [statusOf, changeRows, hr] using this

/-! ### Tracked rows -/

/-- A tracked row exists, and it is tracked only by an active upload. -/
structure Tracks (w : World) : Prop where
  active : w.session.transfer.uploadId.isSome → w.session.transfer.uploadActive = true
  connected : w.session.transfer.uploadId.isSome → w.store.connected = true
  row : ∀ id ∈ w.session.transfer.uploadId, id ∈ w.store.working.uploads.map UploadRow.id

/-- A step that leaves the tracked upload and the rows. -/
structure SameTrack (w w' : World) : Prop where
  uploadId : w'.session.transfer.uploadId = w.session.transfer.uploadId
  active : w'.session.transfer.uploadActive = w.session.transfer.uploadActive
  connected : w'.store.connected = w.store.connected
  rows : w'.store.working.uploads = w.store.working.uploads

section
variable {ctx : Ctx} {frame clientId version payload : Bytes} {p : Packet} {w w' u : World}

theorem tracks_reset (h : w.session.transfer = {}) : Tracks w := by
  constructor <;> simp [h]

theorem tracks_same (h : Tracks w) (hs : SameTrack w w') : Tracks w' := by
  constructor
  · rw [hs.uploadId, hs.active]
    exact h.active
  · rw [hs.uploadId, hs.connected]
    exact h.connected
  · rw [hs.uploadId, hs.rows]
    exact h.row

theorem sameTrack_core (h : SessionFrames.core w' = SessionFrames.core w) : SameTrack w w' :=
  ⟨congrArg (fun c => c.transfer.uploadId) h, congrArg (fun c => c.transfer.uploadActive) h,
    congrArg (fun c => c.store.connected) h, congrArg (fun c => c.store.uploads) h⟩

theorem sameTrack_account {env : Env} (h : AccountOnly env w w') : SameTrack w w' :=
  ⟨congrArg Transfer.uploadId h.transfer, congrArg Transfer.uploadActive h.transfer, h.connected,
    h.uploads⟩

theorem SameTrack.trans (h : SameTrack w u) (h' : SameTrack u w') : SameTrack w w' :=
  ⟨h'.uploadId.trans h.uploadId, h'.active.trans h.active, h'.connected.trans h.connected,
    h'.rows.trans h.rows⟩

/-- A change of the core that leaves the tracked upload and the rows. -/
theorem sameTrack_of_core {c : SessionFrames.Core} (h : SessionFrames.core w' = c)
    (hid : c.transfer.uploadId = w.session.transfer.uploadId)
    (hactive : c.transfer.uploadActive = w.session.transfer.uploadActive)
    (hstore : c.store = StoreFrames.core w.store) : SameTrack w w' := by
  subst h
  exact ⟨hid, hactive, congrArg StoreFrames.Core.connected hstore,
    congrArg StoreFrames.Core.uploads hstore⟩

theorem sameTrack_accepts {env : Env} (h : Accepts env clientId version p w w') :
    SameTrack w w' := by
  rcases h with ⟨-, ts, cipher, out, tail, -, hd⟩ | ⟨-, x, ⟨ts, cipher, out, tail, -, hd⟩, hfin⟩
  · exact sameTrack_of_core hd.core_eq rfl rfl rfl
  · obtain ⟨tmp, path, -, hsaid⟩ := hfin
    have hx : SameTrack w x := sameTrack_of_core hd.core_eq rfl rfl rfl
    exact hx.trans (sameTrack_of_core hsaid.core_eq rfl rfl rfl)

theorem tracks_started (h : Started clientId p w w') : Tracks w' := by
  obtain ⟨ts, time, limiter, hd⟩ := h.does
  have hid : w'.session.transfer.uploadId = some (nextId w.store.working.uploads) :=
    congrArg (fun c => c.transfer.uploadId) hd.core_eq
  have hactive : w'.session.transfer.uploadActive = true :=
    congrArg (fun c => c.transfer.uploadActive) hd.core_eq
  have hconnected : w'.store.connected = w.store.connected :=
    congrArg (fun c => c.store.connected) hd.core_eq
  have hrows : w'.store.working.uploads = w.store.working.uploads ++ [newRow (hex clientId)
      p.fileName p.origFileSize (w.session.transfer.expectedContentSize.getD 0) time
      (nextId w.store.working.uploads)] := congrArg (fun c => c.store.uploads) hd.core_eq
  constructor
  · exact fun _ => hactive
  · exact fun _ => hconnected.trans h.connected
  · intro id h
    rw [hid] at h
    cases h
    rw [hrows, List.map_append]
    exact List.mem_append_right _ (List.mem_singleton.mpr rfl)

theorem tracks_admits (h : Tracks w) (ha : Admits ctx clientId version p w w') : Tracks w' := by
  cases ha with
  | announced t hnum hiv hd =>
      unfold acceptIv at hiv
      split_ifs at hiv
      cases hiv
      exact tracks_same h (sameTrack_of_core hd.core_eq rfl rfl rfl)
  | declined r hnum hiv hplain href => exact tracks_reset href.transfer
  | failed r hnum hfail href => exact tracks_reset href.transfer
  | busy hnum hcheck hbusy => exact tracks_reset hbusy.transfer
  | unrecorded hnum hcheck hdown => exact tracks_reset hdown.transfer
  | began x hnum hcheck hstart haccept =>
      exact tracks_same (tracks_started hstart) (sameTrack_accepts haccept)
  | restarted x r hnum hcheck hstart hfail href => exact tracks_reset href.transfer
  | taken hnum hcheck haccept => exact tracks_same h (sameTrack_accepts haccept)

theorem sameTrack_bind {store : Store} {idHex : String} {t : Transfer}
    (hb : bindUpload store idHex w.session.transfer = .ok t)
    (hd : Does (withTransfer fun _ => t) w u) : SameTrack w u :=
  sameTrack_of_core hd.core_eq (bindUpload_same hb).uploadId (bindUpload_same hb).active rfl

theorem tracks_uploads (h : Tracks w) (hu : Uploads ctx clientId version payload w w') :
    Tracks w' := by
  cases hu with
  | unparsed r hparse hplain href => exact tracks_reset href.transfer
  | unbound p r hparse hbind hplain href => exact tracks_reset href.transfer
  | foreign p hparse hid hother href => exact tracks_reset href.transfer
  | header p t text hparse hbind hheader habandon => exact tracks_reset habandon.transfer
  | admitted p t x hparse hbind hown hheader hd hadmits =>
      exact tracks_admits (tracks_same h (sameTrack_bind hbind hd)) hadmits

theorem tracks_routed (h : Tracks w) (hr : Routed ctx frame w w') : Tracks w' := by
  rcases routed_cases hr with hstep | hreset | ⟨-, -, hstep⟩
  · exact tracks_same h (sameTrack_account hstep)
  · exact tracks_reset hreset
  · exact tracks_uploads h hstep

/-- A raise with no active upload leaves no tracked row. -/
theorem untracked_broke (hs : Stage (SessionFrames.core w)) (h : Tracks w)
    (hb : Broke ctx frame w u) (hu : u.session.transfer.uploadActive = false) :
    u.session.transfer.uploadId = none := by
  obtain ⟨hw, key, name, idHex, ht⟩ := broke_fields hs.later hb hu
  -- the id is that of the state before, and there it would belong to an active upload
  have hid : u.session.transfer.uploadId = w.session.transfer.uploadId := by rw [ht]
  by_contra hne
  have hactive := h.active (hid ▸ Option.isSome_iff_ne_none.mpr hne)
  exact absurd (hw.symm.trans hactive) (by decide)

theorem tracks_steps (hs : Stage (SessionFrames.core w)) (h : Tracks w)
    (hstep : Steps ctx frame w w') : Tracks w' := by
  cases hstep with
  | locked hv ht hstep =>
      exact tracks_same h (sameTrack_of_core hstep.core_eq rfl rfl rfl)
  | handled hv hstep =>
      have hnote : Tracks (noteIdentity (parseFrame frame) w) := ⟨h.active, h.connected, h.row⟩
      cases hstep with
      | short hlen hstep => exact tracks_same h (sameTrack_core hstep.core_eq)
      | routed hlen hstep => exact tracks_routed hnote hstep
      | raised hlen u hbroke hcause hend =>
          cases hend with
          | dropped hactive hdrop => exact tracks_reset hdrop.transfer
          | kept hactive hkept =>
              have hnone := untracked_broke (w := noteIdentity (parseFrame frame) w) hs hnote hbroke
                hactive
              have hw' : w'.session.transfer.uploadId = none :=
                (congrArg (fun c => c.transfer.uploadId) hkept).trans hnone
              constructor <;> simp [hw']

end

/-! ### Events -/

/-- The events after which a session no longer tracks its row: a rejected or
restarting request 828, an unknown code, a raise, a timeout, a disconnect. -/
def Listed (env : Env) (w : World) : SessionEvent → Prop
  | .received _ => False
  | .frame o bytes => 17 ≤ bytes.length ∧
      ((parseFrame bytes).code = 828 ∨ ¬ Known (parseFrame bytes).code ∨
        ∃ err, (routeFrame handlers ⟨env, o⟩ bytes (noteIdentity (parseFrame bytes) w)).1 =
          .error err)
  | .timeout _ => True
  | .disconnect _ => True

/-- A row that is no longer tracked because of a listed event is marked as failed. -/
def NoOrphan (env : Env) (w : World) (e : SessionEvent) (w' : World) : Prop :=
  ∀ id, w.session.transfer.uploadId = some id → w'.session.transfer.uploadId ≠ some id →
    Listed env w e → statusOf w'.store.working.uploads id = some .failed

/-- An upload packet that records a failure if it is not accepted. -/
structure SafePacket (config : Config) (t : Transfer) (clientId payload : Bytes) (p : Packet) :
    Prop where
  parses : parse828 payload = .ok p
  owner : t.uploadClientIdHex = some (hex clientId)
  header : validateHeader config p = none
  later : p.packetNum ≠ 0
  first : p.packetNum = 1 → checkChunk config t p ≠ .ok ()

/-- A frame that resets a tracked upload only after recording its failure. -/
structure SafeFrame (ctx : Ctx) (frame : Bytes) (w : World) : Prop where
  orderly : Orderly ctx frame w
  known : Known (parseFrame frame).code
  formed : (parseFrame frame).code = 828 → wellFormed frame = true
  packet : (parseFrame frame).code = 828 → ∃ p, SafePacket ctx.env.config w.session.transfer
    (parseFrame frame).clientId (parseFrame frame).payload p

/-- The condition on an event and the state before it. It asks nothing of a session
that tracks no row. -/
def RecordSafe (env : Env) (w : World) : SessionEvent → Prop
  | .received _ => True
  | .frame o bytes => 17 ≤ bytes.length → w.session.transfer.uploadId.isSome →
      SafeFrame ⟨env, o⟩ bytes w
  | .timeout o => w.session.transfer.uploadId.isSome →
      o.monotonic w.session.ticks - lastProgress w.session < env.config.uploadInactivityTimeoutS
  | .disconnect _ => w.session.transfer.uploadId = none

section
variable {env : Env} {o : Outside} {ctx : Ctx} {frame clientId version payload : Bytes} {p : Packet}
  {w w' : World} {id : ℕ}

/-- A refusal that records a failure marks the tracked row. -/
theorem statusOf_refused {r : Refusal} (h : Tracks w)
    (hid : w.session.transfer.uploadId = some id) (hr : Failing r)
    (href : Refused clientId version r w w') :
    statusOf w'.store.working.uploads id = some .failed := by
  obtain ⟨reason, hreason⟩ := Option.isSome_iff_exists.mp hr.1
  have hrec := href.rows
  have hup := h.connected (by rw [hid]; rfl)
  rw [hreason, hid, hup] at hrec
  simp only [Recorded, Option.isSome_some, and_self, if_true] at hrec
  obtain ⟨time, hrows⟩ := hrec
  rw [hrows]
  exact statusOf_fail (h.row id (by rw [hid]; rfl))

theorem statusOf_uploads (h : Tracks w) (hid : w.session.transfer.uploadId = some id)
    (hgone : w'.session.transfer.uploadId ≠ some id)
    (hsafe : SafePacket ctx.env.config w.session.transfer clientId payload p)
    (hu : Uploads ctx clientId version payload w w') :
    statusOf w'.store.working.uploads id = some .failed := by
  have hbound : w.session.transfer.uploadClientIdHex.isSome := by rw [hsafe.owner]; rfl
  cases hu with
  | unparsed r hparse hplain href => exact absurd (hsafe.parses.symm.trans hparse) (by simp)
  | unbound q r hparse hbind hplain href =>
      rw [bindUpload, if_pos hbound] at hbind
      cases hbind
  | foreign q hparse hown hother href => exact (hother hsafe.owner).elim
  | header q t text hparse hbind hheader habandon =>
      cases hsafe.parses.symm.trans hparse
      exact absurd (hsafe.header.symm.trans hheader) (by simp)
  | admitted q t x hparse hbind hown hheader hd hadmits =>
      cases hsafe.parses.symm.trans hparse
      have ht : t = w.session.transfer := by
        rw [bindUpload, if_pos hbound] at hbind
        exact (Except.ok.inj hbind).symm
      have hsame := sameTrack_bind hbind hd
      have hxt : x.session.transfer = w.session.transfer :=
        (congrArg Core.transfer hd.core_eq).trans ht
      have hxid : x.session.transfer.uploadId = some id := hsame.uploadId.trans hid
      have hfirst (hnum : p.packetNum = 1)
          (hcheck : checkChunk ctx.env.config x.session.transfer p = .ok ()) : False :=
        hsafe.first hnum (hxt ▸ hcheck)
      cases hadmits with
      | announced t hnum hiv hd => exact (hsafe.later hnum).elim
      | declined r hnum hiv hplain href => exact (hsafe.later hnum).elim
      | failed r hnum hfail href => exact statusOf_refused (tracks_same h hsame) hxid hfail href
      | busy hnum hcheck hbusy => exact (hfirst hnum hcheck).elim
      | unrecorded hnum hcheck hdown => exact (hfirst hnum hcheck).elim
      | began y hnum hcheck hstart haccept => exact (hfirst hnum hcheck).elim
      | restarted y r hnum hcheck hstart hfail href => exact (hfirst hnum hcheck).elim
      | taken hnum hcheck haccept =>
          exact (hgone ((sameTrack_accepts haccept).uploadId.trans hxid)).elim

/-- A safe frame of a verified session. -/
theorem noOrphan_handled (hs : Stage (SessionFrames.core w)) (h : Tracks w)
    (hv : Verified w.session.handshake) (hstep : Handled ⟨env, o⟩ frame w w')
    (hsafe : RecordSafe env w (.frame o frame)) : NoOrphan env w (.frame o frame) w' := by
  rintro id hid hgone ⟨hlen, hlisted⟩
  have hf : SafeFrame ⟨env, o⟩ frame w := hsafe hlen (by rw [hid]; rfl)
  have hnote : Tracks (noteIdentity (parseFrame frame) w) := ⟨h.active, h.connected, h.row⟩
  have hsmooth : Smooth ⟨env, o⟩ frame (noteIdentity (parseFrame frame) w) :=
    smooth_of_orderly (w := noteIdentity (parseFrame frame) w) hs (orderly_note hf.orderly)
  -- the frame is an upload packet, since it neither raises nor has an unknown code
  have hcode : (parseFrame frame).code = 828 := by
    rcases hlisted with hcode | hcode | ⟨err, herr⟩
    · exact hcode
    · exact (hcode hf.known).elim
    · have hroute : wp (routeFrame handlers ⟨env, o⟩ frame) _ _
          (noteIdentity (parseFrame frame) w) := wp_routeFrame hv
      rw [wp_of_eq_error (Prod.ext herr rfl)] at hroute
      exact (hroute.2 hsmooth).elim
  obtain ⟨p, hp⟩ := hf.packet hcode
  cases hstep with
  | short hshort hstep => omega
  | routed hlen hstep =>
      cases hstep with
      | upload hform _ hstep =>
          exact statusOf_uploads (w := noteIdentity _ w) hnote hid hgone hp hstep
      | malformed hform hstep => exact absurd (hform.symm.trans (hf.formed hcode)) (by decide)
      | aside hform hother hstep =>
          rw [hcode] at hother
          exact absurd hother (by decide)
      | unknown hform hother hactive hstep => exact (hother hf.known).elim
      | ignored hform hother hactive hstep => exact (hother hf.known).elim
      | complete hform hother hstep => exact absurd (hcode.symm.trans hother) (by decide)
      | mismatch hform hother hstep => exact absurd (hcode.symm.trans hother) (by decide)
      | giveUp hform hother hstep => exact absurd (hcode.symm.trans hother) (by decide)
  | raised hlen u hbroke hcause hend => exact (hcause hsmooth).elim

theorem noOrphan_steps (hs : Stage (SessionFrames.core w)) (h : Tracks w)
    (hstep : Steps ⟨env, o⟩ frame w w') (hsafe : RecordSafe env w (.frame o frame)) :
    NoOrphan env w (.frame o frame) w' := by
  cases hstep with
  | locked hv ht hstep =>
      intro id hid
      rw [ht] at hid
      cases hid
  | handled hv hstep => exact noOrphan_handled hs h hv hstep hsafe

/-! ### Runs of a connection -/

/-- What holds of a connection as long as it is open. -/
structure Kept (w : World) : Prop where
  sound : Sound w
  stage : Stage (SessionFrames.core w)
  tracks : Tracks w

theorem kept_of_core (h : Kept w) (hc : SessionFrames.core w' = SessionFrames.core w) :
    Kept w' := by
  have hk : w'.session.handshake = w.session.handshake := congrArg Core.handshake hc
  have ht : w'.session.transfer = w.session.transfer := congrArg Core.transfer hc
  refine ⟨?_, hc ▸ h.stage, tracks_same h.tracks (sameTrack_core hc)⟩
  have := h.sound
  rwa [Sound, ← hk, ← ht] at this

/-- The branch of a timeout that keeps the connection open changes nothing. -/
theorem wp_readTimeout (env : Env) (o : Outside) (w : World) :
    wp (readTimeout ⟨env, o⟩)
      (fun leave w' => (leave = false ∧ SessionFrames.core w' = SessionFrames.core w) ∨
        (leave = true ∧ w.session.transfer.uploadActive = false ∧
          SessionFrames.core w' = SessionFrames.core w) ∨
        (leave = true ∧ env.config.uploadInactivityTimeoutS ≤
          o.monotonic w.session.ticks - lastProgress w.session))
      (fun _ _ => env.config.uploadInactivityTimeoutS ≤
          o.monotonic w.session.ticks - lastProgress w.session) w := by
  simp only [readTimeout, monotonic, onSession, wp_bind, wp_look, wp_update, wp_pure]
  split_ifs with hactive hlate hidle
  · have hlate' : env.config.uploadInactivityTimeoutS ≤
        o.monotonic w.session.ticks - lastProgress w.session := hlate
    rw [wp_bind, wp_update]
    have hreport (x : Server Unit) (u : World) : wp x (fun _ _ => True) (fun _ _ => True) u :=
      (wp_state (P := fun _ => True)).mpr trivial
    apply wp_seq (hreport _ _)
    · intro _ u _
      rw [wp_bind, wp_reset, wp_pure]
      exact .inr (.inr ⟨rfl, hlate'⟩)
    · exact fun _ _ _ => hlate'
  · rw [wp_pure]
    exact .inl ⟨rfl, rfl⟩
  · rw [wp_bind, wp_update, wp_pure]
    have hinactive : ¬ w.session.transfer.uploadActive = true := hactive
    exact .inr (.inl ⟨rfl, by simpa using hinactive, rfl⟩)
  · rw [wp_pure]
    exact .inl ⟨rfl, rfl⟩

/-- The outcomes of a timeout, on the connection. -/
theorem serveOpen_timeout (env : Env) (o : Outside) (w : World) :
    (SessionFrames.core (serveOpen env w (.timeout o)).world = SessionFrames.core w) ∨
      ((serveOpen env w (.timeout o)).isOpen = false ∧
        (w.session.transfer.uploadActive = false ∨ env.config.uploadInactivityTimeoutS ≤
          o.monotonic w.session.ticks - lastProgress w.session)) := by
  have h := wp_readTimeout env o w
  rcases hr : readTimeout ⟨env, o⟩ w with ⟨e | leave, w'⟩
  · rw [wp_of_eq_error hr] at h
    refine .inr ⟨?_, .inr h⟩
    simp only [serveOpen, hr]
    rfl
  · rw [wp_of_eq_ok hr] at h
    rcases h with ⟨rfl, hc⟩ | ⟨rfl, hinactive, hc⟩ | ⟨rfl, hlate⟩
    · refine .inl ?_
      simp only [serveOpen, hr]
      exact hc
    · refine .inr ⟨?_, .inl hinactive⟩
      simp only [serveOpen, hr]
      rfl
    · refine .inr ⟨?_, .inr hlate⟩
      simp only [serveOpen, hr]
      rfl

theorem kept_serveOpen (h : Kept w) (e : SessionEvent)
    (hopen : (serveOpen env w e).isOpen = true) : Kept (serveOpen env w e).world := by
  cases e with
  | received o => exact kept_of_core h rfl
  | frame o bytes =>
      rw [serveOpen_frame]
      have hsteps : Steps ⟨env, o⟩ bytes w _ := steps_of_sound h.sound bytes
      exact ⟨sound_handleFrame h.sound bytes, stage_steps h.stage hsteps,
        tracks_steps h.stage h.tracks hsteps⟩
  | timeout o =>
      rcases serveOpen_timeout env o w with hc | ⟨hclosed, -⟩
      · exact kept_of_core h hc
      · rw [hclosed] at hopen
        cases hopen
  | disconnect o => cases hopen

theorem noOrphan_serveOpen (h : Kept w) {e : SessionEvent} (hsafe : RecordSafe env w e) :
    NoOrphan env w e (serveOpen env w e).world := by
  cases e with
  | received o => exact fun _ _ _ hlisted => hlisted.elim
  | frame o bytes =>
      rw [serveOpen_frame]
      exact noOrphan_steps h.stage h.tracks (steps_of_sound h.sound bytes) hsafe
  | timeout o =>
      intro id hid hgone _
      have htracked : w.session.transfer.uploadId.isSome := by rw [hid]; rfl
      rcases serveOpen_timeout env o w with hc | ⟨-, hinactive | hlate⟩
      · exact (hgone ((sameTrack_core hc).uploadId.trans hid)).elim
      · exact absurd (hinactive.symm.trans (h.tracks.active htracked)) (by decide)
      · exact absurd hlate (not_le.mpr (hsafe htracked))
  | disconnect o =>
      intro id hid
      rw [show w.session.transfer.uploadId = none from hsafe] at hid
      cases hid

end

theorem kept_serveAll {env : Env} {c : Connection} (h : c.isOpen = true → Kept c.world)
    (es : List SessionEvent) :
    (serveAll env c es).isOpen = true → Kept (serveAll env c es).world := by
  induction es using List.reverseRecOn with
  | nil => exact h
  | append_singleton es e ih =>
      rw [serveAll_snoc, serve]
      split_ifs with hopen
      · exact kept_serveOpen (ih hopen) e
      · exact fun h => absurd h hopen

/-- A connection that has just been accepted. -/
def accepted (connectionId : String) (now : ℚ) (store : Store) (files : FileSystem)
    (limiter : UploadLimiter) : Connection :=
  { world := freshWorld connectionId now store files limiter, isOpen := true }

/-- In every run whose events are safe, each event that makes the session stop
tracking a row, for one of the listed reasons, leaves that row marked as failed. -/
theorem no_orphaned_upload_record (env : Env) (connectionId : String) (now : ℚ) (store : Store)
    (files : FileSystem) (limiter : UploadLimiter) (es : List SessionEvent)
    (hsafe : AlongEvents env (RecordSafe env) (accepted connectionId now store files limiter) es)
    (pre post : List SessionEvent) (e : SessionEvent) (hes : es = pre ++ e :: post) :
    NoOrphan env (serveAll env (accepted connectionId now store files limiter) pre).world e
      (serveAll env (accepted connectionId now store files limiter) (pre ++ [e])).world := by
  subst hes
  have hfresh : Kept (accepted connectionId now store files limiter).world :=
    ⟨sound_freshWorld connectionId now store files limiter, stage_reset rfl, tracks_reset rfl⟩
  rw [serveAll_snoc, serve]
  split_ifs with hopen
  · exact noOrphan_serveOpen (kept_serveAll (fun _ => hfresh) pre hopen)
      (alongEvents_mid hsafe hopen)
  · exact fun id hid hgone => (hgone hid).elim

/-! ### The connection of one client -/

/-- The frames of that client as events. -/
def aliceEvents : List SessionEvent := aliceUpload.map fun e => .frame e.1 e.2

def aliceConnection : Connection := { world := aliceWorld, isOpen := true }

/-- A second packet without ciphertext. -/
def aliceEmpty : SessionEvent := .frame calm (alicePacket 2 []).2

/-- That packet is refused after its failure has been recorded. -/
theorem aliceEmpty_safe :
    SafeFrame ⟨plainEnv, calm⟩ (alicePacket 2 []).2
      (serveAll plainEnv aliceConnection aliceEvents).world := by
  have hcode : (parseFrame (alicePacket 2 []).2).code = 828 := by decide +kernel
  have hparse : parse828 (parseFrame (alicePacket 2 []).2).payload =
      .ok { contentSize := 32, origFileSize := 17, packetNum := 2, totalPackets := 2,
            fileName := "f", cipherChunk := [] } := by decide +kernel
  have hother {c : ℕ} (hc : c ≠ 828) : (parseFrame (alicePacket 2 []).2).code ≠ c :=
    fun h => hc (h.symm.trans hcode)
  refine ⟨⟨⟨fun _ => rfl, fun _ => rfl, ?_, ?_, ?_⟩, ?_, ?_, ?_, fun _ _ => rfl, ?_, ?_,
    ?_⟩, ?_, ?_, ?_⟩
  · unfold StoreFrames.Core.Indexed
    decide +kernel
  · decide +kernel
  · decide +kernel
  · exact fun h => (hother (by decide) h).elim
  · exact fun h => (hother (by decide) h).elim
  · exact fun h => (hother (by decide) h).elim
  · intro _ p hp
    cases hparse.symm.trans hp
    decide +kernel
  · intro _ p t hb
    cases hparse.symm.trans hb.parses
    exact absurd hb.first (by decide)
  · rw [hcode]
    exact fun h => absurd h (by decide)
  · decide +kernel
  · exact fun _ => by decide +kernel
  · exact fun _ => ⟨_, hparse, by decide +kernel, by decide +kernel, by decide, fun h => by cases h⟩

theorem aliceRun_safe : AlongEvents plainEnv (RecordSafe plainEnv) aliceConnection
    (aliceEvents ++ [aliceEmpty, .disconnect calm]) := by
  have hidle {w : World} {o : Outside} {bytes : Bytes}
      (h : w.session.transfer.uploadId.isSome = false) :
      RecordSafe plainEnv w (.frame o bytes) := fun _ hs => absurd hs (by simp [h])
  refine ⟨fun _ => hidle rfl, fun _ => hidle (by decide +kernel), fun _ =>
    hidle (by decide +kernel),
    fun _ => hidle (by decide +kernel), fun _ _ _ => aliceEmpty_safe, fun _ => ?_, trivial⟩
  unfold RecordSafe
  decide +kernel

theorem no_orphaned_upload_record_alice :
    AlongEvents plainEnv (RecordSafe plainEnv) aliceConnection
        (aliceEvents ++ [aliceEmpty, .disconnect calm]) ∧
      NoOrphan plainEnv (serveAll plainEnv aliceConnection aliceEvents).world aliceEmpty
        (serveAll plainEnv aliceConnection (aliceEvents ++ [aliceEmpty])).world ∧
      (serveAll plainEnv aliceConnection aliceEvents).world.session.transfer.uploadId = some 1 ∧
      statusOf (serveAll plainEnv aliceConnection
        (aliceEvents ++ [aliceEmpty])).world.store.working.uploads 1 = some .failed :=
  ⟨aliceRun_safe, no_orphaned_upload_record plainEnv "c1" 0 _ _ _ _ aliceRun_safe aliceEvents
    [.disconnect calm] aliceEmpty rfl, by decide +kernel⟩

/-- A disconnect during an upload leaves its row in progress. -/
theorem disconnect_orphans_record :
    ¬ NoOrphan plainEnv (serveAll plainEnv aliceConnection aliceEvents).world (.disconnect calm)
      (serveAll plainEnv aliceConnection (aliceEvents ++ [.disconnect calm])).world := by
  intro h
  have hrow := h 1 (by decide +kernel) (by decide +kernel) trivial
  exact absurd hrow (by decide +kernel)

end Seftp.UploadRecords
