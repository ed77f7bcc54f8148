import Seftp.CompletedRecords

/-!
# A completed row has its packets

While responses can be sent and store calls succeed, the session is always in one
of two states: it has no transfer, or it follows the trail of packets since an
announcement. So the row that a request 900 completes has a trail with all its
packets, and the path and the checksum written into it are those of the decrypted
plaintext.
-/
namespace Seftp.UploadSoundness
open LittleEndian ExceptState OutsideWorld BlockChaining Checksum Text Protocol ClientStore
open StoreFrames ServerSession Answers SessionFrames AccountHandlers UploadHandlers HandlerFrames
open UploadSteps ChunkSteps AccountSteps FrameSteps Router HandshakeGate UploadStages UploadTrail
open UploadSlot KeyBinding KeySteps CompletedRecords StoredFiles

/-- The indices of the store are consistent and complete, as they are on every
database it is opened on. -/
structure Ready (st : Store) : Prop where
  linked : Linked st
  indexed : (StoreFrames.core st).Indexed

/-- Responses can be sent and store calls succeed. File operations may fail. -/
structure Works (o : Outside) : Prop where
  sends : o.SendsWork
  sql : o.SqlWorks

theorem ready_initialized (db : Database) : Ready (Store.initialized db) :=
  ⟨linked_initialized db, indexed_initialized db⟩

section
variable {env : Env} {ctx : Ctx} {frame : Bytes} {g : Trail} {w u w' : World}

theorem ready_handleFrame (h : Ready w.store) (ho : ctx.out.SqlWorks) (frame : Bytes) :
    Ready (handleFrame ctx frame w).2.store := by
  have hstep : KeyStep ctx (parseFrame frame) (Raises ctx frame w) w (handleFrame ctx frame w).2 :=
    step_handleFrame h.linked frame
  refine ⟨linked_step h.linked hstep, ?_⟩
  cases hstep with
  | quiet ms hacts hm => exact hacts.changes.indexed ho h.indexed
  | registered name uid record ms hcode hname huid husername hid hpub haes hup hnewId hnewName
      hrowId hrowName hacts hann hm => exact hacts.changes.indexed ho h.indexed
  | keyed record fs ms hfound hgrants hacts hm hanswer =>
      exact hacts.changes.indexed ho h.indexed

/-- The requests of such a frame can be answered. -/
theorem answering (h : Ready w.store) (ho : Works ctx.out) (hlen : 17 ≤ frame.length) :
    Answering ctx (noteIdentity (parseFrame frame) w) (parseFrame frame).clientId
      (parseFrame frame).version := by
  refine ⟨ho.sends, ho.sql, h.indexed, ?_, ?_⟩
  · rw [parseFrame, List.length_take, List.length_drop]
    omega
  · rw [parseFrame, List.length_take]
    omega

/-! ### A frame while a trail is followed -/

theorem follow_uploads (haes : AesBlocks ctx.env) (hg : g.Consistent)
    (h : Follows ctx.env g (SessionFrames.core w)) (hform : wellFormed frame = true)
    (hcode : (parseFrame frame).code = 828)
    (hup : Uploads ctx (parseFrame frame).clientId (parseFrame frame).version
      (parseFrame frame).payload w w') : Follow ctx.env g frame w w' := by
  cases hup with
  | unparsed r hparse hplain href => exact .reset href.transfer
  | unbound p r hparse hbind hplain href => exact .reset href.transfer
  | foreign p hparse hid hother href => exact .reset href.transfer
  | header p t text hparse hbind hheader habandon => exact .reset habandon.transfer
  | admitted p t u hparse hbind hown hheader hd hadmits =>
      have hclient : w.session.transfer.uploadClientIdHex = some (hex g.clientId) :=
        h.tracking.client
      -- the session is bound, so the transfer is the same
      have ht : t = w.session.transfer := by
        rcases bindUpload_ok hbind with ⟨-, ht⟩ | ⟨hnone, -⟩
        · exact ht
        · cases hnone.symm.trans hclient
      subst ht
      have hcore : SessionFrames.core u = SessionFrames.core w := hd.core_eq
      have hid : (parseFrame frame).clientId = g.clientId :=
        hex_injective (Option.some.inj (hown.symm.trans hclient))
      rw [hid] at hadmits
      have hfollow : Follow ctx.env g frame u w' :=
        follow_admits haes hg (hcore ▸ h) ⟨hform, hcode, hid, hparse⟩ hheader hadmits
      exact hfollow.after hcore

theorem follow_routed (haes : AesBlocks ctx.env) (hg : g.Consistent)
    (h : Follows ctx.env g (SessionFrames.core w)) (hr : Routed ctx frame w w') :
    Follow ctx.env g frame w w' := by
  rcases routed_cases hr with hstep | hreset | ⟨hform, hcode, hstep⟩
  · exact .still (still_account hstep)
  · exact .reset hreset
  · exact follow_uploads haes hg h hform hcode hstep

/-- A raise that is no failed response or store call ends an active upload. -/
theorem still_broke (hanswer : Answering ctx w (parseFrame frame).clientId
      (parseFrame frame).version) (hb : Broke ctx frame w u)
    (hidle : u.session.transfer.uploadActive = false)
    (hstage : Stage (SessionFrames.core w)) : Still w u := by
  cases hb with
  | aside hstep => exact still_account hstep
  | confirm hcode hstep hkept => exact still_core (hkept hanswer)
  | upload hform hcode hstep =>
      cases hstep with
      | bound ht hslot hcause => exact (hcause hanswer).elim
      | begun p t hbegins hactive hslot => exact absurd (hactive.symm.trans hidle) (by decide)
      | going hstep k hk hexpected =>
          have hactive := hstep.active.trans (hstage.later k hexpected hk)
          exact absurd (hidle.symm.trans hactive) (by decide)

theorem follow_frame (haes : AesBlocks ctx.env) (hready : Ready w.store) (ho : Works ctx.out)
    (hstage : Stage (SessionFrames.core w)) (hg : g.Consistent)
    (h : Follows ctx.env g (SessionFrames.core w)) (hs : Steps ctx frame w w') :
    Follow ctx.env g frame w w' := by
  have hnote : SessionFrames.core (noteIdentity (parseFrame frame) w) = SessionFrames.core w := rfl
  cases hs with
  | locked hv ht hstep =>
      have hkey : w.session.transfer.uploadAesKey = some g.key := h.tracking.key
      rw [ht] at hkey
      cases hkey
  | handled hv hstep =>
      cases hstep with
      | short hlen hstep => exact .still (still_core hstep.core_eq)
      | routed hlen hstep =>
          have hfollow : Follow ctx.env g frame (noteIdentity (parseFrame frame) w) w' :=
            follow_routed haes hg h hstep
          exact hfollow.after hnote
      | raised hlen u hb hcause hend =>
          cases hend with
          | dropped hactive hdrop => exact .reset hdrop.transfer
          | kept hinactive hkept =>
              have hstill : Still (noteIdentity (parseFrame frame) w) u :=
                still_broke (answering hready ho hlen) hb hinactive hstage
              have hlast : Still u w' := still_core hkept
              exact .still ⟨hlast.transfer.trans hstill.transfer, hlast.files.trans hstill.files,
                hlast.connectionId.trans hstill.connectionId⟩

/-! ### A frame without a transfer -/

theorem begin_uploads (ht : w.session.transfer = {}) (hform : wellFormed frame = true)
    (hcode : (parseFrame frame).code = 828)
    (hup : Uploads ctx (parseFrame frame).clientId (parseFrame frame).version
      (parseFrame frame).payload w w') : Begin ctx.env frame w w' := by
  cases hup with
  | unparsed r hparse hplain href => exact .blank href.transfer
  | unbound p r hparse hbind hplain href => exact .blank href.transfer
  | foreign p hparse hid hother href => exact .blank href.transfer
  | header p t text hparse hbind hheader habandon => exact .blank habandon.transfer
  | admitted p t u hparse hbind hown hheader hd hadmits =>
      rcases bindUpload_ok hbind with ⟨hbound, -⟩ | ⟨-, record, b64, key, hrecord, hb64, hkey, rfl⟩
      · rw [ht] at hbound
        cases hbound
      · have htu : u.session.transfer =
            { uploadAesKey := some key
              uploadUsername := some record.username
              uploadClientIdHex := some (hex (parseFrame frame).clientId) } := by
          rw [show u.session.transfer = _ from congrArg Core.transfer hd.core_eq, ht]
          rfl
        exact begin_admits htu ⟨hform, hcode, rfl, hparse⟩ hrecord hb64 hkey hadmits rfl

theorem begin_routed (ht : w.session.transfer = {}) (hr : Routed ctx frame w w') :
    Begin ctx.env frame w w' := by
  rcases routed_cases hr with hstep | hreset | ⟨hform, hcode, hstep⟩
  · exact .blank (hstep.transfer.trans ht)
  · exact .blank hreset
  · exact begin_uploads ht hform hcode hstep

theorem begin_frame (hready : Ready w.store) (ho : Works ctx.out) (ht : w.session.transfer = {})
    (hs : Steps ctx frame w w') : Begin ctx.env frame w w' := by
  cases hs with
  | locked hv _ hstep =>
      refine .blank ?_
      have htransfer : (SessionFrames.core w').transfer = w.session.transfer := by
        rw [hstep.core_eq]
        rfl
      exact htransfer.trans ht
  | handled hv hstep =>
      cases hstep with
      | short hlen hstep => exact .blank ((congrArg Core.transfer hstep.core_eq).trans ht)
      | routed hlen hstep =>
          have hbegin : Begin ctx.env frame (noteIdentity (parseFrame frame) w) w' :=
            begin_routed ht hstep
          exact hbegin.after rfl
      | raised hlen u hb hcause hend =>
          cases hend with
          | dropped hactive hdrop => exact .blank hdrop.transfer
          | kept hinactive hkept =>
              have hstill : Still (noteIdentity (parseFrame frame) w) u :=
                still_broke (answering hready ho hlen) hb hinactive (stage_reset ht)
              have hu : u.session.transfer = {} := hstill.transfer.trans ht
              exact .blank ((congrArg Core.transfer hkept).trans hu)

end

/-! ### Runs -/

/-- The frames of a run that make a trail: the announcement finds no transfer, and
each later frame brings the next packet or leaves the transfer and the files. The
key is the one that the store has for the client at the announcement. -/
inductive Makes (env : Env) (w₀ : World) : List Event → Trail → Prop
  | announced (es : List Event) (e : Event) (clientId key : Bytes) (p : Packet)
      (record : ClientRecord) (b64 : String)
      (hblank : (runFrames env es w₀).session.transfer = {}) (hcarries : Carries e.2 clientId p)
      (hrecord : (runFrames env es w₀).store.getClientById (hex clientId) = some record)
      (hb64 : record.aesKeyB64 = some b64) (hkey : b64decode false b64 = some key) :
      Makes env w₀ (es ++ [e]) ⟨clientId, key, p, []⟩
  | still (es : List Event) (e : Event) (g : Trail) (h : Makes env w₀ es g)
      (hstill : Still (runFrames env es w₀) (runFrames env (es ++ [e]) w₀)) :
      Makes env w₀ (es ++ [e]) g
  | pushed (es : List Event) (e : Event) (g : Trail) (p : Packet) (h : Makes env w₀ es g)
      (hcarries : Carries e.2 g.clientId p) (hnum : p.packetNum = g.taken.length + 1) :
      Makes env w₀ (es ++ [e]) (g.push p)

/-- The session has no transfer, or follows the trail that its frames make. -/
def OnTrail (env : Env) (w₀ : World) (es : List Event) : Prop :=
  (runFrames env es w₀).session.transfer = {} ∨ ∃ g, Makes env w₀ es g ∧ g.Consistent ∧
    Follows env g (SessionFrames.core (runFrames env es w₀))

section
variable {env : Env} {w₀ : World}

theorem ready_run (h : Ready w₀.store) (es : List Event) (hworks : ∀ e ∈ es, Works e.1) :
    Ready (runFrames env es w₀).store := by
  induction es using List.reverseRecOn with
  | nil => exact h
  | append_singleton es e ih =>
      have he : Works e.1 := hworks e (by simp)
      rw [runFrames_snoc]
      exact ready_handleFrame (ih fun f hf => hworks f (List.mem_append_left _ hf)) he.sql e.2

theorem onTrail_run (haes : AesBlocks env) (hready : Ready w₀.store) (hsound : Sound w₀)
    (ht : w₀.session.transfer = {}) (es : List Event) (hworks : ∀ e ∈ es, Works e.1) :
    OnTrail env w₀ es := by
  induction es using List.reverseRecOn with
  | nil => exact .inl ht
  | append_singleton es e ih =>
      have hbefore : ∀ f ∈ es, Works f.1 := fun f hf => hworks f (List.mem_append_left _ hf)
      have he : Works e.1 := hworks e (by simp)
      have hstore : Ready (runFrames env es w₀).store := ready_run hready es hbefore
      have hstep : Steps ⟨env, e.1⟩ e.2 (runFrames env es w₀) (runFrames env (es ++ [e]) w₀) :=
        run_steps hsound es e
      rcases ih hbefore with hblank | ⟨g, hmakes, hcons, hfollows⟩
      · have hbegin : Begin env e.2 _ _ := begin_frame hstore he hblank hstep
        cases hbegin with
        | blank h => exact .inl h
        | announced clientId key p record b64 hcarries hrecord hb64 hkey hcons hfollows =>
            exact .inr ⟨_, .announced es e clientId key p record b64 hblank hcarries hrecord hb64
              hkey, hcons, hfollows⟩
      · have hstage : Stage (SessionFrames.core (runFrames env es w₀)) := stage_run hsound ht es
        have hfollow : Follow env g e.2 _ _ :=
          follow_frame haes hstore he hstage hcons hfollows hstep
        cases hfollow with
        | reset h => exact .inl h
        | still h => exact .inr ⟨g, .still es e g hmakes h, hcons, follows_still hfollows h⟩
        | pushed p hcarries hnum hcons' hfollows' =>
            exact .inr ⟨g.push p, .pushed es e g p hmakes hcarries hnum, hcons', hfollows'⟩

end

/-- Whatever frames a session handles, while responses can be sent and store calls
succeed: a row that a frame completes has the path and the checksum of the plaintext
of a complete trail of packets, and the file at that path is this plaintext. -/
theorem completion_sound (env : Env) (haes : AesBlocks env) (connectionId : String) (now : ℚ)
    (store : Store) (hready : Ready store) (files : FileSystem) (limiter : UploadLimiter)
    (es : List Event) (e : Event) (hworks : ∀ f ∈ es ++ [e], Works f.1) (r : UploadRow)
    (hr : r ∈ (runFrames env (es ++ [e])
      (freshWorld connectionId now store files limiter)).store.working.uploads)
    (hdone : r.status = .completed)
    (hnew : r ∉ (runFrames env es
      (freshWorld connectionId now store files limiter)).store.working.uploads) :
    (parseFrame e.2).code = 900 ∧
    ∃ g name x, Makes env (freshWorld connectionId now store files limiter) es g ∧
      g.Consistent ∧ g.name = some name ∧
      Complete env g (outPath (hex g.clientId) name) x
        (runFrames env es (freshWorld connectionId now store files limiter)).files ∧
      r.storedPath = some (outPath (hex g.clientId) name) ∧
      r.serverCrc32 = some (crc32 x 0).toNat := by
  have hsound := sound_freshWorld connectionId now store files limiter
  have htrail := onTrail_run haes hready hsound rfl es
    fun f hf => hworks f (List.mem_append_left _ hf)
  rw [runFrames_snoc] at hr
  rcases done_handleFrame ⟨env, e.1⟩ e.2 (runFrames env es
    (freshWorld connectionId now store files limiter)) with hno | ⟨hcode, hyes⟩
  · exact (hnew (hno r hr hdone)).elim
  refine ⟨hcode, ?_⟩
  obtain hold | ⟨r₀, hr₀, path, crc, hid, hpath, hcrc, hstored, hserver, hsize⟩ := hyes r hr hdone
  · exact (hnew hold).elim
  rcases htrail with hblank | ⟨g, hmakes, hcons, hfollows⟩
  · rw [hblank] at hcrc
    cases hcrc
  cases hfollows with
  | announced _ _ _ hnone => cases hnone.symm.trans hcrc
  | going _ _ _ _ _ hnone _ => cases hnone.symm.trans hcrc
  | done name x htrack hname hactive hsum hfinal hcomplete =>
      have hp : path = outPath (hex g.clientId) name :=
        Option.some.inj (hpath.symm.trans hfinal)
      have hc : crc = crc32 x 0 := Option.some.inj (hcrc.symm.trans hsum)
      subst hp hc
      exact ⟨g, name, x, hmakes, hcons, hname,
        ⟨hcomplete.plain, hcomplete.size, hcomplete.content, hcomplete.all, hcomplete.file⟩,
        hstored, hserver⟩

/-! ### A whole upload -/

theorem plainEnv_blocks : AesBlocks plainEnv := by
  intro key block hblock
  have hall : ∀ pair ∈ zeroKeyBlocks, pair.1.length = 16 ∧ pair.2.length = 16 := by
    decide +kernel
  change (zeroKeyAes block).length = 16
  unfold zeroKeyAes
  split
  · rename_i pair hfind
    exact (hall pair (List.mem_of_find?_eq_some hfind)).2
  · split
    · rename_i pair hfind
      exact (hall pair (List.mem_of_find?_eq_some hfind)).1
    · exact hblock

theorem completion_sound_alice :
    ∃ r ∈ (runFrames plainEnv (wholeUpload ++ [aliceRequest 900 (utf8Encode "f")])
        aliceWorld).store.working.uploads,
      r.status = .completed ∧
      ∃ g name x, Makes plainEnv aliceWorld wholeUpload g ∧ g.Consistent ∧ g.name = some name ∧
        Complete plainEnv g (outPath (hex g.clientId) name) x
          (runFrames plainEnv wholeUpload aliceWorld).files ∧
        r.storedPath = some (outPath (hex g.clientId) name) ∧
        r.serverCrc32 = some (crc32 x 0).toNat := by
  have hrow : ∃ r ∈ (runFrames plainEnv (wholeUpload ++ [aliceRequest 900 (utf8Encode "f")])
      aliceWorld).store.working.uploads, r.status = .completed ∧
        r ∉ (runFrames plainEnv wholeUpload aliceWorld).store.working.uploads := by decide +kernel
  have hworks : ∀ f ∈ wholeUpload ++ [aliceRequest 900 (utf8Encode "f")], Works f.1 := by
    have hcalm : ∀ f ∈ wholeUpload ++ [aliceRequest 900 (utf8Encode "f")], f.1 = calm := by
      simp [wholeUpload, aliceUpload, aliceRequest, alicePacket]
    intro f hf
    rw [hcalm f hf]
    exact ⟨fun _ => rfl, fun _ => rfl⟩
  obtain ⟨r, hr, hdone, hnew⟩ := hrow
  exact ⟨r, hr, hdone, (completion_sound plainEnv plainEnv_blocks "c1" 0 aliceWorld.store
    (ready_initialized aliceDb) aliceWorld.files aliceWorld.limiter wholeUpload
    (aliceRequest 900 (utf8Encode "f")) hworks r hr hdone hnew).2⟩

end Seftp.UploadSoundness
