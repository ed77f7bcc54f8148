import Seftp.SuccessReports
import Seftp.UploadAcceptance

/-!
# From the client's file to the server's

The frames that `request_828_streaming` writes, handled one after the other by a
session that waits for an upload. No packet but the last is answered; the last one
is answered with the checksum that the client has computed and leaves the file under
its final name; the confirmation completes the row.
-/
namespace Seftp.UploadDelivery
open LittleEndian ExceptState OutsideWorld BlockChaining Checksum Text Protocol ClientStore
open StoreFrames ServerSession Answers SessionFrames AccountHandlers UploadHandlers HandlerFrames
open UploadSteps ChunkSteps AccountSteps FrameSteps Router HandshakeGate UploadStages UploadTrail
open UploadSlot UploadSoundness KeySteps ClientProgram ClientStream UploadPaths UploadNames
open UploadAcceptance
open ClientUpload (Upload paddedCbcSize chooseUploadChunkSize packetCount request828Streaming)

section
variable {ctx : Ctx} {frame clientId version payload : Bytes} {p : Packet} {w w' : World}

/-! ### One frame -/

/-- A frame whose handler returns leaves what the handler leaves. -/
theorem handleFrame_returns {Q : World → Prop} (hlen : 17 ≤ frame.length)
    (h : wp (routeFrame handlers ctx frame) (fun _ u => Q u) (fun _ _ => False)
      (noteIdentity (parseFrame frame) w)) : Q (handleFrame ctx frame w).2 := by
  unfold handleFrame
  rw [handleFrameWith_long hlen]
  apply wp_state.mp
  rw [wp_attempt]
  exact wp_mono h (fun _ _ hq => hq) (fun _ _ hf => hf.elim)

theorem length_of_wellFormed (h : wellFormed frame = true) : 23 ≤ frame.length := by
  simp only [wellFormed, Bool.and_eq_true, decide_eq_true_eq] at h
  exact h.1

theorem routeFrame_wellFormed {Q : Unit → World → Prop} {E : PyError → World → Prop}
    (hform : wellFormed frame = true) (hv : w.session.handshake.verified = true)
    (h : wp (dispatchAs handlers ctx (parseFrame frame) true) Q E w) :
    wp (routeFrame handlers ctx frame) Q E w := by
  have hlen := length_of_wellFormed hform
  rw [routeFrame, if_neg (by omega), if_neg (by simp [hform]), dispatch, wp_bind, wp_look, hv]
  exact h

theorem handleFrame_828 {Q : World → Prop} (hc : Carries frame clientId p)
    (hv : w.session.handshake.verified = true)
    (h : wp (request828 ctx (parseFrame frame).payload (parseFrame frame).version clientId)
      (fun _ u => Q u) (fun _ _ => False) (noteIdentity (parseFrame frame) w)) :
    Q (handleFrame ctx frame w).2 := by
  have hlen := length_of_wellFormed hc.formed
  apply handleFrame_returns (by omega)
  apply routeFrame_wellFormed (w := noteIdentity (parseFrame frame) w) hc.formed hv
  rw [dispatchAs, if_neg (by simp), if_neg (by rw [hc.code]; decide),
    if_neg (by rw [hc.code]; decide),
    if_neg (by rw [hc.code]; decide), if_neg (by rw [hc.code]; decide), if_pos hc.code, hc.client]
  exact h

theorem handleFrame_900 {Q : World → Prop} (hform : wellFormed frame = true)
    (hcode : (parseFrame frame).code = 900) (hv : w.session.handshake.verified = true)
    (h : wp (request900 ctx (parseFrame frame).payload (parseFrame frame).version
        (parseFrame frame).clientId)
      (fun _ u => Q u) (fun _ _ => False) (noteIdentity (parseFrame frame) w)) :
    Q (handleFrame ctx frame w).2 := by
  have hlen := length_of_wellFormed hform
  apply handleFrame_returns (by omega)
  apply routeFrame_wellFormed (w := noteIdentity (parseFrame frame) w) hform hv
  rw [dispatchAs, if_neg (by simp), if_neg (by rw [hcode]; decide), if_neg (by rw [hcode]; decide),
    if_neg (by rw [hcode]; decide), if_neg (by rw [hcode]; decide), if_neg (by rw [hcode]; decide),
    if_neg (by rw [hcode]; decide), if_neg (by rw [hcode]; decide), if_pos hcode]
  exact h

/-- Request 828 with a valid header from the client that owns the upload. -/
theorem wp_request828_admits {Q : Unit → World → Prop} {E : PyError → World → Prop} {t : Transfer}
    (hparse : parse828 payload = .ok p)
    (hbind : bindUpload w.store (hex clientId) w.session.transfer = .ok t)
    (hown : t.uploadClientIdHex = some (hex clientId))
    (hheader : validateHeader ctx.env.config p = none)
    (h : ∀ x, Does (withTransfer fun _ => t) w x → wp (admitPacket ctx clientId version p) Q E x) :
    wp (request828 ctx payload version clientId) Q E w := by
  unfold request828
  rw [hparse]
  dsimp only
  rw [wp_bind, wp_fetch, hbind]
  dsimp only
  apply wp_then (wp_onTransfer _)
  intro _ x hx
  rw [if_neg (by simp [hown]), hheader]
  exact h x hx

end

/-! ### The session before and between the packets -/

/-- A session of a registered client that waits for an upload. -/
structure Awaiting (cid : ClientId) (key : Bytes) (name : String) (w : World) : Prop where
  ready : Ready w.store
  verified : Verified w.session.handshake
  transfer : w.session.transfer = {}
  registered : ∃ record b64, w.store.getClientById (hex cid.val) = some record ∧
    record.aesKeyB64 = some b64 ∧ b64decode false b64 = some key
  slot : CanTake (SessionFrames.core w)
  fits : (utf8Encode (name ++ ".tmp." ++ w.session.connectionId)).length ≤ nameMax

/-- Packet 0 has been taken. -/
structure Announced (u : Upload) (name : String) (iv : Bytes) (c : SessionFrames.Core) : Prop where
  tracking : Tracking (trailOf u name iv []) c.transfer
  unreported : c.transfer.uploadCrc = none
  verified : Verified c.handshake
  connected : c.store.connected = true
  owned : Owned u.cid.val c
  slot : CanTake c
  fits : NameFits (tmpPath (hex u.cid.val) name c.connectionId)

/-- The session waits for the packet after those of the chunks so far. -/
inductive Receptive (env : Env) (u : Upload) (name : String) (iv : Bytes) :
    List Bytes → SessionFrames.Core → Prop
  | announced {c : SessionFrames.Core} (h : Announced u name iv c) : Receptive env u name iv [] c
  | loading {c : SessionFrames.Core} {sofar : List Bytes} (id : ℕ) (hne : sofar ≠ [])
      (h : Loading env u name iv sofar id c) : Receptive env u name iv sofar c

section
variable {ctx : Ctx} {enc : Bytes → Bytes} {u : Upload} {name : String} {iv content c key : Bytes}
variable {sofar rest chunks : List Bytes} {w w' : World} {cid : ClientId} {version : Bytes} {id : ℕ}

theorem connected_of_record {st : Store} {idHex : String} {record : ClientRecord}
    (h : st.getClientById idHex = some record) : st.connected = true := by
  unfold Store.getClientById at h
  split_ifs at h with hc
  exact hc

theorem owned_of_record (hl : Linked w.store) {record : ClientRecord}
    (h : w.store.getClientById (hex cid.val) = some record) :
    Owned cid.val (SessionFrames.core w) := by
  apply owned_iff.mpr
  apply hl.ids
  unfold Store.getClientById at h
  split_ifs at h
  rcases hi : w.store.clientsById (hex cid.val) with _ | i
  · rw [hi] at h
    cases h
  · rfl

/-- The transfer of a client that has announced nothing yet. -/
theorem bindUpload_fresh (ha : Awaiting cid key name w) (hkey : key.length = 32) :
    ∃ username, bindUpload w.store (hex cid.val) w.session.transfer = .ok
      { uploadAesKey := some key
        uploadUsername := some username
        uploadClientIdHex := some (hex cid.val) } := by
  obtain ⟨record, b64, hrecord, hb64, hdecode⟩ := ha.registered
  have hne : b64 ≠ "" := by
    rintro rfl
    have hnil : b64decode false "" = some [] := by decide
    cases hnil.symm.trans hdecode
    cases hkey
  refine ⟨record.username, ?_⟩
  rw [bindUpload, ha.transfer, if_neg (by simp), hrecord]
  simp only [hb64, Option.getD_some, if_neg hne, hdecode]

/-- The temporary file can be created. -/
theorem nameFits_tmpPath {connectionId : String} (hname : FileName name)
    (hfits : (utf8Encode (name ++ ".tmp." ++ connectionId)).length ≤ nameMax) :
    NameFits (tmpPath (hex cid.val) name connectionId) := by
  have hid : cid.val ≠ [] := by
    intro hnil
    have hlen := cid.property
    rw [hnil] at hlen
    cases hlen
  have hproper := hname.proper
  simp only [special, List.mem_cons, List.not_mem_nil, or_false, not_or] at hproper
  have hpath : tmpPath (hex cid.val) name connectionId =
      "data/uploads/" ++ hex cid.val ++ "/" ++ (name ++ ".tmp." ++ connectionId) := by
    rw [tmpPath, outPath_eq (component_hex hid) hname.plain, if_neg (by tauto), if_neg hproper.2.2]
    simp only [String.append_assoc]
  rw [NameFits, hpath, basename_append]
  exact (utf8Encode_basename _).length_le.trans hfits

theorem announced_of_does {username : String} (h : Agreement ctx.env enc u name iv content chunks)
    (ha : Awaiting u.cid u.key name w) {t : Transfer}
    (ht : acceptIv { uploadAesKey := some u.key
                     uploadUsername := some username
                     uploadClientIdHex := some (hex u.cid.val) } (packetAt u name 0 iv) = .ok t)
    (hd : SessionFrames.core w' = withTransfer (fun _ => t) (SessionFrames.core w)) :
    Announced u name iv (SessionFrames.core w') := by
  obtain ⟨record, b64, hrecord, -, -⟩ := ha.registered
  have hiv : ¬ (packetAt u name 0 iv).cipherChunk.length < 16 := by
    change ¬ iv.length < 16
    have := h.vector
    omega
  unfold acceptIv at ht
  rw [if_neg (by simp), dif_neg hiv] at ht
  cases ht
  rw [hd]
  exact ⟨⟨rfl, rfl, rfl, rfl, rfl, rfl, rfl, rfl⟩, rfl, ha.verified, connected_of_record hrecord,
    owned_of_record ha.ready.linked hrecord, ha.slot, nameFits_tmpPath h.toFileName ha.fits⟩

theorem totalPackets_pos {env : Env} (h : Agreement env enc u name iv content chunks) :
    0 < u.totalPackets := by
  have hlength := length_flatten_chunks h
  have hgt := cipherSize_gt h
  rw [← h.cut.count]
  apply List.length_pos_iff.mpr
  rintro rfl
  simp only [List.flatten_nil, List.length_nil] at hlength
  omega

/-- Packet 0 is taken without a response. -/
theorem frame_zero (ctx : Ctx) (h : Agreement ctx.env enc u name iv content chunks)
    (ha : Awaiting u.cid u.key name w) :
    Announced u name iv (SessionFrames.core (handleFrame ctx (packetMessage u 0 iv) w).2) ∧
      (handleFrame ctx (packetMessage u 0 iv) w).2.session.sent = w.session.sent := by
  have hvector := h.vector
  have hdata : iv.length < 2 ^ 31 := by omega
  obtain ⟨hcarries, -⟩ := carries_packet h.toEncodable (Nat.zero_le 65535) hdata
  obtain ⟨username, hbind⟩ := bindUpload_fresh ha h.key
  refine handleFrame_828 (Q := fun v => Announced u name iv (SessionFrames.core v) ∧
    v.session.sent = w.session.sent) hcarries ha.verified.verified ?_
  refine wp_request828_admits (w := noteIdentity _ w) hcarries.parses hbind rfl
    (validateHeader_packet h (totalPackets_pos h) (Nat.zero_le _)) fun x hx => ?_
  have htx : x.session.transfer =
      { uploadAesKey := some u.key
        uploadUsername := some username
        uploadClientIdHex := some (hex u.cid.val) } := congrArg Core.transfer hx.core_eq
  have hnum : (packetAt u name 0 iv).packetNum = 0 := rfl
  rw [admitPacket, wp_bind, wp_look, htx, if_pos hnum]
  rcases hiv : acceptIv _ (packetAt u name 0 iv) with r | t
  · unfold acceptIv at hiv
    rw [if_neg (by simp), dif_neg (by change ¬ iv.length < 16; omega)] at hiv
    cases hiv
  · apply wp_mono (wp_onTransfer _)
    · intro _ y hy
      have hall := hx.trans hy
      refine ⟨announced_of_does h ha hiv ?_, hall.sent⟩
      exact hall.core_eq
    · exact fun _ _ hf => hf

/-- Packet 1 opens the upload. -/
theorem loading_started (env : Env) (ha : Announced u name iv (SessionFrames.core w))
    (hs : Started u.cid.val (packetAt u name 1 c) w w') :
    Loading env u name iv [] (nextId w.store.working.uploads) (SessionFrames.core w') := by
  obtain ⟨htrack, hactive, hcrc, hdec⟩ := decrypting_started env hs ha.tracking rfl
  obtain ⟨ts, time, limiter, hd⟩ := hs.does
  refine ⟨htrack, hactive, hcrc.trans ha.unreported, ⟨[], hdec⟩, ?_⟩
  rw [hd.core_eq]
  refine ⟨rfl, rfl, ⟨_, List.mem_append_right _ (List.mem_singleton.mpr rfl), rfl⟩, ?_, ha.verified⟩
  exact hs.connected

theorem wp_startNext (h : Agreement ctx.env enc u name iv content chunks)
    (ha : Announced u name iv (SessionFrames.core w)) (hanswer : Answering ctx w u.cid.val version)
    (hfiles : ctx.out.FilesWork) :
    wp (startUpload ctx u.cid.val version (packetAt u name 1 c))
      (fun go w' => go = true ∧ Started u.cid.val (packetAt u name 1 c) w w')
      (fun _ _ => False) w := by
  have hkey : w.session.transfer.uploadAesKey = some u.key := ha.tracking.key
  apply wp_mono (wp_startUpload _)
  · rintro go w' (hstarted | ⟨-, hbusy | hdown⟩)
    · exact hstarted
    · rcases ha.slot with hslot | hslot
      · exact absurd (hbusy.before.symm.trans hslot) (by decide)
      · exact absurd hbusy.full (Nat.not_le_of_lt hslot)
    · exact absurd (hdown.down.symm.trans ha.connected) (by decide)
  · rintro _ v ⟨-, hno⟩
    refine hno ⟨hanswer, fun _ => ⟨⟨hfiles, ha.fits, ?_⟩, ha.owned⟩⟩
    change AesKeyLength (w.session.transfer.uploadAesKey.getD [])
    rw [hkey]
    exact .inr (.inr h.key)

/-- The next packet is taken by an upload that is open. -/
def TakesNext (env : Env) (u : Upload) (name : String) (iv : Bytes) (sofar : List Bytes) (c : Bytes)
    (version : Bytes) (w w' : World) : Prop :=
  ∃ id x, Loading env u name iv sofar id (SessionFrames.core x) ∧
    x.session.sent = w.session.sent ∧
    Accepts env u.cid.val version (packetAt u name (sofar.length + 1) c) x w'

theorem wp_admitFirst (h : Agreement ctx.env enc u name iv content (c :: rest))
    (ha : Announced u name iv (SessionFrames.core w)) (hanswer : Answering ctx w u.cid.val version)
    (hfiles : ctx.out.FilesWork) :
    wp (admitPacket ctx u.cid.val version (packetAt u name 1 c))
      (fun _ w' => TakesNext ctx.env u name iv [] c version w w') (fun _ _ => False) w := by
  have hbound : c.length ≤ u.chunkSize := h.cut.bounded c (by simp)
  have hcheck : checkChunk ctx.env.config w.session.transfer (packetAt u name 1 c) = .ok () :=
    checkChunk_packet h ha.tracking hbound
  have hnum : (packetAt u name 1 c).packetNum = 1 := rfl
  rw [admitPacket, wp_bind, wp_look, if_neg (by simp [packetAt]), hcheck]
  dsimp only
  rw [if_pos hnum]
  apply wp_then (wp_startNext h ha hanswer hfiles)
  rintro _ x ⟨rfl, hstart⟩
  rw [if_pos rfl]
  obtain ⟨ts, time, limiter, hd⟩ := hstart.does
  have hload := loading_started ctx.env ha hstart
  have hanswer' : Answering ctx x u.cid.val version :=
    hanswer.of_store ⟨_, congrArg Core.store hd.core_eq⟩
  have hsplit : Agreement ctx.env enc u name iv content ([] ++ c :: rest) := h
  apply wp_mono (wp_receiveNext hsplit hload hanswer' hfiles)
  · exact fun _ w' haccept => ⟨_, x, hload, hd.sent, haccept⟩
  · exact fun _ _ hf => hf

theorem wp_admitLater (h : Agreement ctx.env enc u name iv content (sofar ++ c :: rest))
    (hne : sofar ≠ []) (hl : Loading ctx.env u name iv sofar id (SessionFrames.core w))
    (hanswer : Answering ctx w u.cid.val version) (hfiles : ctx.out.FilesWork) :
    wp (admitPacket ctx u.cid.val version (packetAt u name (sofar.length + 1) c))
      (fun _ w' => TakesNext ctx.env u name iv sofar c version w w') (fun _ _ => False) w := by
  have hbound : c.length ≤ u.chunkSize := h.cut.bounded c (by simp)
  have hpos := List.length_pos_iff.mpr hne
  have hcheck : checkChunk ctx.env.config w.session.transfer
      (packetAt u name (sofar.length + 1) c) = .ok () := checkChunk_packet h hl.tracking hbound
  rw [admitPacket, wp_bind, wp_look, if_neg (by simp [packetAt]), hcheck]
  dsimp only
  rw [if_neg (by simp only [packetAt]; omega), pure_bind, if_pos rfl]
  apply wp_mono (wp_receiveNext h hl hanswer hfiles)
  · exact fun _ w' haccept => ⟨id, w, hl, rfl, haccept⟩
  · exact fun _ _ hf => hf

/-- The next frame of the client is taken. -/
theorem takes_frame (ctx : Ctx) (h : Agreement ctx.env enc u name iv content (sofar ++ c :: rest))
    (hr : Receptive ctx.env u name iv sofar (SessionFrames.core w)) (hready : Ready w.store)
    (ho : Works ctx.out) (hfiles : ctx.out.FilesWork) :
    TakesNext ctx.env u name iv sofar c [kVersion] w
      (handleFrame ctx (packetMessage u (sofar.length + 1) c) w).2 := by
  have hcount := count_split h
  have hlimit := h.totalPackets
  have hbound : c.length ≤ u.chunkSize := h.cut.bounded c (by simp)
  have hchunk := h.chunkSize
  have hdata : c.length < 2 ^ 31 := by omega
  have hnumber : sofar.length + 1 ≤ 65535 := by omega
  obtain ⟨hcarries, hversion⟩ := carries_packet h.toEncodable hnumber hdata
  have hheader : validateHeader ctx.env.config (packetAt u name (sofar.length + 1) c) = none :=
    validateHeader_packet h (totalPackets_pos h) (by omega)
  obtain ⟨hown, hverified⟩ : w.session.transfer.uploadClientIdHex = some (hex u.cid.val) ∧
      Verified w.session.handshake := by
    cases hr with
    | announced ha => exact ⟨ha.tracking.client, ha.verified⟩
    | loading id hne hl => exact ⟨hl.tracking.client, hl.tracked.verified⟩
  have hlen := length_of_wellFormed hcarries.formed
  have hanswer :=
    answering hready ho (show 17 ≤ (packetMessage u (sofar.length + 1) c).length by omega)
  rw [hcarries.client, hversion] at hanswer
  refine handleFrame_828 (Q := fun v => TakesNext ctx.env u name iv sofar c [kVersion] w v) hcarries
    hverified.verified ?_
  rw [hversion]
  refine wp_request828_admits hcarries.parses (if_pos (Option.isSome_of_eq_some hown)) hown hheader
    fun x hx => ?_
  have hcore : SessionFrames.core x = SessionFrames.core w := hx.core_eq
  have hsent : x.session.sent = w.session.sent := hx.sent
  have hanswer' : Answering ctx x u.cid.val [kVersion] := hanswer.of_core hcore
  have hend {w' : World} (ht : TakesNext ctx.env u name iv sofar c [kVersion] x w') :
      TakesNext ctx.env u name iv sofar c [kVersion] w w' := by
    obtain ⟨id, y, hl, hy, haccept⟩ := ht
    exact ⟨id, y, hl, hy.trans hsent, haccept⟩
  rw [← hcore] at hr
  cases hr with
  | announced ha =>
      exact wp_mono (wp_admitFirst h ha hanswer' hfiles) (fun _ _ ht => hend ht) fun _ _ hf => hf
  | loading id hne hl =>
      exact wp_mono (wp_admitLater h hne hl hanswer' hfiles) (fun _ _ ht => hend ht)
        fun _ _ hf => hf

theorem receptive_next {env : Env} {d : Bytes}
    (h : Agreement env enc u name iv content (sofar ++ c :: d :: rest))
    (ht : TakesNext env u name iv sofar c version w w') :
    Receptive env u name iv (sofar ++ [c]) (SessionFrames.core w') ∧
      w'.session.sent = w.session.sent := by
  obtain ⟨id, x, hl, hsent, haccept⟩ := ht
  obtain ⟨hnext, hsame⟩ := loading_next h hl haccept
  exact ⟨.loading id (by simp) hnext, hsame.trans hsent⟩

end

/-! ### The whole upload -/

/-- Sending, store calls and file operations succeed. -/
structure Undisturbed (o : Outside) : Prop extends Works o where
  files : o.FilesWork

/-- The response to the last packet. -/
def crcReport (cid : ClientId) (cipherSize : ℕ) (name : String) (crc : UInt32) : Bytes :=
  message [kVersion] .crcResult (cid.val ++ leBytes 4 cipherSize ++ (utf8Encode name ++ [0]) ++
    leBytes 4 crc.toNat)

section
variable {env : Env} {enc : Bytes → Bytes} {u : Upload} {name : String} {iv content : Bytes}
variable {sofar rest chunks : List Bytes} {w w' : World} {id : ℕ} {es : List HandshakeGate.Event}

/-- The packets from the next one to the last. -/
theorem run_packets (h : Agreement env enc u name iv content (sofar ++ rest)) (hne : rest ≠ [])
    (hr : Receptive env u name iv sofar (SessionFrames.core w)) (hready : Ready w.store)
    (hes : es.map Prod.snd = packetMessages u (sofar.length + 1) rest)
    (hworks : ∀ e ∈ es, Undisturbed e.1) :
    (∀ k < es.length, (runFrames env (es.take k) w).session.sent = w.session.sent) ∧
      (∃ id, Stored u name content id (runFrames env es w)) ∧
      (runFrames env es w).session.sent = w.session.sent ++
        [crcReport u.cid u.cipherSize name (crc32 content 0)] := by
  induction rest generalizing sofar w es with
  | nil => exact (hne rfl).elim
  | cons c rest ih =>
      obtain _ | ⟨e, es⟩ := es
      · cases hes
      rw [packetMessages, List.map_cons] at hes
      obtain ⟨he, hes⟩ := List.cons.inj hes
      have ho : Undisturbed e.1 := hworks e (by simp)
      have hnext : TakesNext env u name iv sofar c [kVersion] w
          (handleFrame ⟨env, e.1⟩ e.2 w).2 := by
        rw [he]
        exact takes_frame ⟨env, e.1⟩ h hr hready ho.toWorks ho.files
      have hrun (fs : List HandshakeGate.Event) :
          runFrames env (e :: fs) w = runFrames env fs (handleFrame ⟨env, e.1⟩ e.2 w).2 := rfl
      obtain _ | ⟨d, rest⟩ := rest
      · -- the last packet
        obtain rfl : es = [] := List.map_eq_nil_iff.mp hes
        obtain ⟨id, x, hl, hsent, haccept⟩ := hnext
        obtain ⟨hstored, hreport⟩ := stored_last h hl haccept
        refine ⟨fun k hk => ?_, ⟨id, hstored⟩, ?_⟩
        · obtain rfl : k = 0 := by simpa using hk
          rfl
        · rw [hrun, runFrames_nil, hreport, hsent]
          rfl
      · obtain ⟨hr', hsame⟩ := receptive_next h hnext
        have hready' : Ready (handleFrame ⟨env, e.1⟩ e.2 w).2.store :=
          ready_handleFrame hready ho.sql e.2
        have hsplit : Agreement env enc u name iv content ((sofar ++ [c]) ++ d :: rest) := by
          rwa [List.append_assoc]
        obtain ⟨hsilent, hstored, hreport⟩ := ih hsplit (by simp) hr' hready'
          (by rw [hes, List.length_append, List.length_singleton])
          (fun f hf => hworks f (List.mem_cons_of_mem _ hf))
        refine ⟨fun k hk => ?_, hstored, ?_⟩
        · obtain _ | k := k
          · rfl
          · rw [List.take_succ_cons, hrun, hsilent k (by simpa using hk), hsame]
        · rw [hrun, hreport, hsame]

/-- Packet 0 and all others. -/
theorem run_upload (h : Agreement env enc u name iv content chunks)
    (ha : Awaiting u.cid u.key name w) (hes : es.map Prod.snd = packetMessages u 0 (iv :: chunks))
    (hworks : ∀ e ∈ es, Undisturbed e.1) :
    (∀ k < es.length, (runFrames env (es.take k) w).session.sent = w.session.sent) ∧
      (∃ id, Stored u name content id (runFrames env es w)) ∧
      (runFrames env es w).session.sent = w.session.sent ++
        [crcReport u.cid u.cipherSize name (crc32 content 0)] := by
  obtain _ | ⟨e, es⟩ := es
  · cases hes
  rw [packetMessages, List.map_cons] at hes
  obtain ⟨he, hes⟩ := List.cons.inj hes
  have ho : Undisturbed e.1 := hworks e (by simp)
  obtain ⟨hannounced, hsame⟩ := frame_zero ⟨env, e.1⟩ h ha
  rw [← he] at hannounced hsame
  have hready : Ready (handleFrame ⟨env, e.1⟩ e.2 w).2.store :=
    ready_handleFrame ha.ready ho.sql e.2
  have hne : chunks ≠ [] := by
    have hpos := totalPackets_pos h
    rw [← h.cut.count] at hpos
    exact List.length_pos_iff.mp hpos
  have hrun (fs : List HandshakeGate.Event) :
      runFrames env (e :: fs) w = runFrames env fs (handleFrame ⟨env, e.1⟩ e.2 w).2 := rfl
  obtain ⟨hsilent, hstored, hreport⟩ := run_packets h hne (.announced hannounced) hready
    hes (fun f hf => hworks f (List.mem_cons_of_mem _ hf))
  refine ⟨fun k hk => ?_, hstored, ?_⟩
  · obtain _ | k := k
    · rfl
    · rw [List.take_succ_cons, hrun, hsilent k (by simpa using hk), hsame]
  · rw [hrun, hreport, hsame]

/-- The confirmation of a stored upload completes its row. -/
theorem confirm_stored (h : Encodable u name) (hs : Stored u name content id w)
    (hready : Ready w.store)
    {o : Outside} (ho : Undisturbed o) :
    (handleFrame ⟨env, o⟩ (build900CrcOk u.cid (utf8Encode name)) w).2.session.sent =
        w.session.sent ++ [doneMessage u.cid.val [kVersion]] ∧
      ∃ r ∈ (handleFrame ⟨env, o⟩ (build900CrcOk u.cid (utf8Encode name))
        w).2.store.working.uploads, r.id = id ∧ r.status = .completed := by
  have hshort := h.short
  unfold nameMax at hshort
  have hlen : (makeCstrPayload (utf8Encode name)).length < 2 ^ 32 := by
    rw [makeCstrPayload, List.length_append, List.length_singleton]
    omega
  have hcode : ReqCode.crcOk.value < 65536 := by decide
  obtain ⟨hform, hfields⟩ := parseFrame_request u.cid hcode hlen
  have hname : confirmedName (makeCstrPayload (utf8Encode name)) = .ok name :=
    confirmedName_cstr h.clean
  obtain ⟨row, hrow, hrowid⟩ := hs.tracked.row
  have hid : w.session.transfer.uploadId = some id := hs.tracked.uploadId
  have hfound : 0 < w.store.working.uploadRows (some id) := by
    apply List.length_pos_iff.mpr
    refine List.ne_nil_of_mem (a := row) (List.mem_filter.mpr ⟨hrow, ?_⟩)
    simp [hrowid]
  have hconfirm : Confirmable (makeCstrPayload (utf8Encode name)) w :=
    ⟨⟨name, hname, hs.tracked.filename⟩, Option.isSome_of_eq_some hs.path,
      Option.isSome_of_eq_some hs.crc, hs.tracked.connected, id, hid, hfound⟩
  have hlong := length_of_wellFormed hform
  have hanswer := @answering ⟨env, o⟩ (build900CrcOk u.cid (utf8Encode name)) w hready ho.toWorks
    (by change 17 ≤ (buildRequest u.cid _ _).length; omega)
  rw [show parseFrame (build900CrcOk u.cid (utf8Encode name)) = _ from hfields] at hanswer
  refine handleFrame_900 (Q := fun v => v.session.sent =
    w.session.sent ++ [doneMessage u.cid.val [kVersion]] ∧
    ∃ r ∈ v.store.working.uploads, r.id = id ∧ r.status = .completed) hform
    (congrArg Request.code hfields) hs.tracked.verified.verified ?_
  rw [show parseFrame (build900CrcOk u.cid (utf8Encode name)) = _ from hfields]
  apply wp_mono (wp_request900 _)
  · rintro _ v (hdone | ⟨-, -, hno⟩)
    · obtain ⟨name', row', path, crc, time, -, -, -, -, -, hset⟩ := hdone.completed
      refine ⟨hdone.sent, row.change (.complete path crc.toNat time), ?_, ?_, rfl⟩
      · rw [hset.rows]
        refine List.mem_map.mpr ⟨row, hrow, if_pos ?_⟩
        rw [hrowid]
        exact hid.symm
      · rw [UploadRow.change_id, hrowid]
    · exact (hno ⟨hconfirm.name, hconfirm.path, hconfirm.crc, hconfirm.connected,
        hconfirm.row⟩).elim
  · exact fun _ _ hf => hf.2 ⟨hanswer, name, hname⟩

end

/-! ### Both sides -/

/-- What `request_828_streaming` is called with: the file and the credentials, and
that the sizes fit the fields of a packet, which the client checks. -/
structure Outgoing {σ : Type} (env : ClientEnv σ) (uuid encryptKey path : Bytes) (cid : ClientId)
    (key : Bytes) (name : String) (content : Bytes) (w : ClientWorld σ) : Prop where
  reliable : Reliable env
  id : parseClientIdHex32 uuid = .ok cid
  decodes : decodeBase64 encryptKey = key
  key : key.length = 32
  named : protocolFilenameFromPath path = utf8Encode name
  name : FileName name
  file : w.files path = some content
  nonempty : content ≠ []
  small : paddedCbcSize content.length < 2 ^ 32

/-- The sizes that the client chooses are within the limits of the server. -/
structure Within (config : Config) (content : Bytes) : Prop where
  fileSize : paddedCbcSize content.length ≤ config.maxFileSize
  chunkSize : chooseUploadChunkSize (paddedCbcSize content.length) ≤ config.maxChunkSize
  packets : packetCount (paddedCbcSize content.length) ≤ config.maxPackets

section
variable {σ : Type} {cenv : ClientEnv σ} {client : ClientWorld σ} {env : Env} {server : World}
variable {uuid encryptKey path key content iv : Bytes} {cid : ClientId} {name : String}
variable {chunks : List Bytes}

theorem agreement_outgoing (hout : Outgoing cenv uuid encryptKey path cid key name content client)
    (hlimits : Within env.config content)
    (haes : Inverts (cenv.aesEncrypt key) (env.aesDecrypt key) 16) (hblocks : AesBlocks env)
    (hawait : Awaiting cid key name server) (hiv : iv.length = 16)
    (hcut : Cut (uploadOf cid key path content)
      (cbcEncrypt (cenv.aesEncrypt key) 16 iv (pad 16 content)) chunks) :
    Agreement env (cenv.aesEncrypt key) (uploadOf cid key path content) name iv content chunks where
  cipherSize := hout.small
  plainSize := (paddedCbcSize_gt _).trans hout.small
  totalPackets := (sized_uploadOf cid key path content).limit
  chunkSize := (chooseUploadChunkSize_lt hout.small).trans (by decide)
  fileName := hout.named
  toFileName := hout.name
  short := by
    have hfits := hawait.fits
    rw [utf8Encode_append, utf8Encode_append, List.length_append, List.length_append] at hfits
    omega
  cut := hcut
  inverts := haes
  blocks := hblocks
  vector := hiv
  padded := paddedCbcSize_eq content
  size := rfl
  nonempty := hout.nonempty
  key := hout.key
  maxFileSize := hlimits.fileSize
  maxChunkSize := hlimits.chunkSize
  maxPackets := hlimits.packets

/-- The frames of the client, handled in order by a session that waits for an upload:
nothing is answered before the last, which is answered with the client's checksum and
leaves the file; the confirmation is answered and completes the row. -/
theorem upload_delivered (hout : Outgoing cenv uuid encryptKey path cid key name content client)
    (hlimits : Within env.config content)
    (haes : Inverts (cenv.aesEncrypt key) (env.aesDecrypt key) 16) (hblocks : AesBlocks env)
    (hawait : Awaiting cid key name server) :
    ∃ crc frames client',
      request828Streaming cenv uuid encryptKey path client = (.ok (some crc), client') ∧
      client'.trace = client.trace ++ frames.map .wrote ++ [.streamed crc] ∧
      ∀ es : List HandshakeGate.Event, es.map Prod.snd = frames → (∀ e ∈ es, Undisturbed e.1) →
        (∀ k < es.length, (runFrames env (es.take k) server).session.sent = server.session.sent) ∧
        (runFrames env es server).session.sent =
          server.session.sent ++ [crcReport cid (paddedCbcSize content.length) name crc] ∧
        (∃ stored, (runFrames env es server).session.transfer.uploadPath = some stored ∧
          (runFrames env es server).files.read stored = some content) ∧
        ∀ o, Undisturbed o →
          (handleFrame ⟨env, o⟩ (build900CrcOk cid (protocolFilenameFromPath path))
              (runFrames env es server)).2.session.sent =
            (runFrames env es server).session.sent ++ [doneMessage cid.val [kVersion]] ∧
          ∃ r ∈ (handleFrame ⟨env, o⟩ (build900CrcOk cid (protocolFilenameFromPath path))
              (runFrames env es server)).2.store.working.uploads,
            some r.id = (runFrames env es server).session.transfer.uploadId ∧
            r.status = .completed := by
  obtain ⟨chunks, client', hrun, hcut, htrace⟩ := request828Streaming_emits hout.reliable haes
    hout.decodes hout.key hout.id hout.file hout.small
  have hagree := agreement_outgoing hout hlimits haes hblocks hawait
    (cenv.makeIv client.calls).property hcut.toCut
  refine ⟨_, _, client', hrun, htrace, fun es hes hworks => ?_⟩
  obtain ⟨hsilent, ⟨id, hstored⟩, hreport⟩ := run_upload hagree hawait hes hworks
  refine ⟨hsilent, hreport, ⟨_, hstored.path, hstored.file⟩, fun o ho => ?_⟩
  have hready : Ready (runFrames env es server).store :=
    ready_run hawait.ready es fun e he => (hworks e he).toWorks
  obtain ⟨hsent, r, hr, hid, hstatus⟩ := confirm_stored hagree.toEncodable hstored hready ho
  rw [hout.named]
  refine ⟨hsent, r, hr, ?_, hstatus⟩
  rw [hid]
  exact hstored.tracked.uploadId.symm

end

/-- The blocks of `zeroKeyAes` are exchanged. -/
theorem zeroKeyAes_inverts : Inverts zeroKeyAes zeroKeyAes 16 := by
  have hall : ∀ pair ∈ zeroKeyBlocks, zeroKeyAes pair.1 = pair.2 ∧ zeroKeyAes pair.2 = pair.1 := by
    decide +kernel
  refine ⟨plainEnv_blocks [], fun block _ => ?_⟩
  rcases h₁ : zeroKeyBlocks.find? (·.1 = block) with _ | pair
  · rcases h₂ : zeroKeyBlocks.find? (·.2 = block) with _ | pair
    · have hself : zeroKeyAes block = block := by
        simp only [zeroKeyAes, h₁, h₂]
      rw [hself, hself]
    · have hmem := hall pair (List.mem_of_find?_eq_some h₂)
      obtain rfl : pair.2 = block := by simpa using List.find?_some h₂
      rw [hmem.2, hmem.1]
  · have hmem := hall pair (List.mem_of_find?_eq_some h₁)
    obtain rfl : pair.1 = block := by simpa using List.find?_some h₁
    rw [hmem.1, hmem.2]

/-- A client whose key is 32 zero bytes. -/
def aliceClient : ClientEnv Unit :=
  { SuccessReports.scripted with aesEncrypt := fun _ block => zeroKeyAes block }

def aliceContent : Bytes := utf8Encode "a file of 17 byte"

def aliceFiles : ClientWorld Unit where
  cc := {}
  files path := if path = utf8Encode "docs/f" then some aliceContent else none
  incoming := []
  peer := ()
  trace := []
  calls := 0

def aliceUuid : Bytes := utf8Encode "01010101010101010101010101010101"

def aliceKeyText : Bytes := utf8Encode "AAAAAAAAAAAAAAAAAAAAAAAAAAAAAAAAAAAAAAAAAAA="

/-- The session after the handshake. -/
def aliceVerified : World := runFrames plainEnv (aliceUpload.take 2) aliceWorld

theorem outgoing_alice : Outgoing aliceClient aliceUuid aliceKeyText (utf8Encode "docs/f")
    ⟨aliceId, rfl⟩ (List.replicate 32 0) "f" aliceContent aliceFiles where
  reliable := ⟨fun _ => rfl, fun _ => rfl⟩
  id := by decide +kernel
  decodes := by decide +kernel
  key := rfl
  named := by decide +kernel
  name := ⟨by decide +kernel, by decide, by decide⟩
  file := rfl
  nonempty := by decide +kernel
  small := by decide +kernel

theorem awaiting_alice : Awaiting ⟨aliceId, rfl⟩ (List.replicate 32 0) "f" aliceVerified where
  ready := by
    apply ready_run (ready_initialized aliceDb)
    intro e he
    simp only [aliceUpload, List.take_succ_cons, List.take_zero, List.mem_cons, List.not_mem_nil,
      or_false] at he
    rcases he with rfl | rfl
    · exact ⟨fun _ => rfl, fun _ => rfl⟩
    · exact ⟨fun _ => rfl, fun _ => rfl⟩
  verified := ⟨by decide +kernel, by decide +kernel, by decide +kernel, by decide +kernel⟩
  transfer := by decide +kernel
  registered := ⟨alice, _, by decide +kernel, rfl, by decide +kernel⟩
  slot := .inr (by decide +kernel)
  fits := by decide +kernel

theorem upload_delivered_alice :
    ∃ (crc : UInt32) (frames : List Bytes) (client' : ClientWorld Unit),
    request828Streaming aliceClient aliceUuid aliceKeyText (utf8Encode "docs/f") aliceFiles =
      (.ok (some crc), client') ∧
    client'.trace = frames.map .wrote ++ [.streamed crc] ∧
    (runFrames plainEnv (frames.map fun f => (calm, f)) aliceVerified).session.sent =
      aliceVerified.session.sent ++ [crcReport ⟨aliceId, rfl⟩ 32 "f" crc] ∧
    ∃ stored, (runFrames plainEnv (frames.map fun f => (calm, f))
        aliceVerified).session.transfer.uploadPath = some stored ∧
      (runFrames plainEnv (frames.map fun f => (calm, f)) aliceVerified).files.read stored =
        some aliceContent := by
  have hlimits : Within plainEnv.config aliceContent :=
    ⟨by decide +kernel, by decide +kernel, by decide +kernel⟩
  obtain ⟨crc, frames, client', hrun, htrace, h⟩ := upload_delivered outgoing_alice hlimits
    zeroKeyAes_inverts plainEnv_blocks awaiting_alice
  have hsize : paddedCbcSize aliceContent.length = 32 := by decide +kernel
  have hframes : (frames.map fun f => (calm, f)).map Prod.snd = frames := by simp
  have hcalm : ∀ e ∈ frames.map (fun f => (calm, f)), Undisturbed e.1 := by
    intro e he
    obtain ⟨f, -, rfl⟩ := List.mem_map.mp he
    exact ⟨⟨fun _ => rfl, fun _ => rfl⟩, fun _ => rfl⟩
  obtain ⟨-, hsent, hstored, -⟩ := h _ hframes hcalm
  rw [hsize] at hsent
  exact ⟨crc, frames, client', hrun, htrace, hsent, hstored⟩

end Seftp.UploadDelivery
