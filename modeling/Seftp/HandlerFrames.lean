import Seftp.HandlerParts

/-!
# What a request can touch at all

The requests fall into two groups. Registration and key exchange leave the
transfer, the slot, the files and the upload rows alone; the upload requests leave
the clients and their keys alone. Neither group changes the handshake, and every
message either group sends is of a known kind.
-/
namespace Seftp.HandlerFrames
open LittleEndian ExceptState OutsideWorld Text Protocol ClientStore StoreFrames ServerSession
open Answers SessionFrames HandlerParts AccountHandlers UploadHandlers

/-- A key response whose signature covers the nonces of `h`. -/
def BoundTo (env : Env) (h : Handshake) (m : Bytes) : Prop :=
  ∃ (version clientId key signature : Bytes) (code : ResCode) (sv : UInt8) (cn sn : Bytes),
    h.securityVersion = some sv ∧ h.clientNonce = some cn ∧ h.serverNonce = some sn ∧
    h.verified = true ∧
    env.signTranscript (aesKeyBindingTranscript sv cn sn clientId code.value key) = some signature ∧
    m = message version code (clientId ++ leBytes 2 key.length ++ key ++
      leBytes 2 signature.length ++ signature)

/-- What an application handler may send: never a 1608, and key responses only
bound to the handshake. -/
structure Permitted (env : Env) (h : Handshake) (m : Bytes) : Prop where
  coded : ∃ c, c ≠ .serverHello ∧ Coded c m
  bound : Coded .aesKey m ∨ Coded .reloginOk m → BoundTo env h m

theorem value_injective {c d : ResCode} (h : c.value = d.value) : c = d := by
  cases c <;> cases d <;> first | rfl | exact absurd h (by decide)

theorem coded_unique {c d : ResCode} {m : Bytes} (h : Coded c m) (h' : Coded d m) : c = d :=
  value_injective (h.symm.trans h')

theorem permitted_of_coded {env : Env} {h : Handshake} {c : ResCode} {m : Bytes} (hm : Coded c m)
    (h₂ : c ≠ .aesKey) (h₅ : c ≠ .reloginOk) (h₈ : c ≠ .serverHello) : Permitted env h m :=
  ⟨⟨c, h₈, hm⟩, fun hk => (hk.elim (fun hk => h₂ (coded_unique hm hk))
    (fun hk => h₅ (coded_unique hm hk))).elim⟩

/-! ### Account requests -/

/-- The store's core apart from the clients. -/
structure AccountOnly (env : Env) (w w' : World) : Prop where
  transfer : w'.session.transfer = w.session.transfer
  slot : w'.session.hasUploadSlot = w.session.hasUploadSlot
  handshake : w'.session.handshake = w.session.handshake
  connectionId : w'.session.connectionId = w.session.connectionId
  files : (core w').files = (core w).files
  limiter : w'.limiter = w.limiter
  uploads : w'.store.working.uploads = w.store.working.uploads
  connected : w'.store.connected = w.store.connected
  sent : ∃ ms, w'.session.sent = w.session.sent ++ ms ∧
    ∀ m ∈ ms, Permitted env w.session.handshake m

instance (env : Env) : Std.Refl (AccountOnly env) :=
  ⟨fun _ => ⟨rfl, rfl, rfl, rfl, rfl, rfl, rfl, rfl, [], by simp, by simp⟩⟩

instance (env : Env) : IsTrans World (AccountOnly env) where
  trans a b c h h' := by
    obtain ⟨ms, hm, hp⟩ := h.sent
    obtain ⟨ns, hn, hq⟩ := h'.sent
    refine ⟨h'.transfer.trans h.transfer, h'.slot.trans h.slot, h'.handshake.trans h.handshake,
      h'.connectionId.trans h.connectionId, h'.files.trans h.files, h'.limiter.trans h.limiter,
      h'.uploads.trans h.uploads, h'.connected.trans h.connected, ms ++ ns,
        by rw [hn, hm, List.append_assoc], fun m hmem => ?_⟩
    rcases List.mem_append.mp hmem with hmem | hmem
    · exact hp m hmem
    · exact h.handshake ▸ hq m hmem

section
variable {env : Env} {ctx : Ctx} {w w' : World} {version clientId : Bytes}

theorem accountOnly_of_quiet {P : Bytes → Prop} (h : Quiet P w w')
    (hp : ∀ m, P m → Permitted env w.session.handshake m) : AccountOnly env w w' := by
  obtain ⟨ms, ht, hm⟩ := h
  have hc := ht.core_eq
  exact ⟨congrArg Core.transfer hc, congrArg Core.hasUploadSlot hc, congrArg Core.handshake hc,
    congrArg Core.connectionId hc, congrArg Core.files hc, congrArg Core.limiter hc,
    congrArg (fun c => c.store.uploads) hc, congrArg (fun c => c.store.connected) hc, ms, ht.sent,
    fun m h => hp m (hm m h)⟩

/-- An answer of any kind but the three of the handshake. -/
theorem account_of_coded {α : Type} {c : ResCode} {x : Server α} (hx : Keeps (Quiet (Coded c)) x)
    (h₂ : c ≠ .aesKey) (h₅ : c ≠ .reloginOk) (h₈ : c ≠ .serverHello) :
    Keeps (AccountOnly env) x := fun w =>
  accountOnly_of_quiet (hx w) fun _ hm => permitted_of_coded hm h₂ h₅ h₈

theorem account_of_tells {α : Type} {x : Server α} (hx : Keeps (Tells []) x) :
    Keeps (AccountOnly env) x := fun w => by
  have h : Quiet (fun _ => False) w (x w).2 := (hx w).silent
  exact accountOnly_of_quiet h fun _ h => h.elim

/-- The upload rows and the connection stay. -/
def UploadsKept (st st' : Store) : Prop :=
  st'.working.uploads = st.working.uploads ∧ st'.connected = st.connected

/-- A store operation that leaves the upload rows alone. -/
theorem account_onStore {α : Type} {x : StoreProg α} (hx : Keeps UploadsKept x) :
    Keeps (AccountOnly env) (onStore x) :=
  keeps_zoom hx fun w st h =>
    ⟨rfl, rfl, rfl, rfl, rfl, rfl, h.1, h.2, [], by simp [World.setStore], by simp⟩

theorem uploads_setClientField {o : Outside} {id : String} {f : ClientField} :
    Keeps UploadsKept (setClientField o id f) := by
  apply keeps_of_wp
  intro st
  exact wp_setClientField (fun _ => ⟨rfl, rfl⟩) ⟨rfl, rfl⟩ ⟨rfl, rfl⟩ (fun _ => ⟨rfl, rfl⟩)
    (fun _ _ => ⟨rfl, rfl⟩) (fun _ _ _ => ⟨rfl, rfl⟩)

theorem account_log (key : LogKey) (event : String) :
    Keeps (AccountOnly env) (logEvent ctx key event) := account_of_tells (tells_logEvent key event)

theorem account_touch (id : String) :
    Keeps (AccountOnly env) (onStore (touchClientLastSeen ctx.out id)) :=
  account_of_tells (tells_touch id)

theorem account_answer1606 (name : String) :
    Keeps (AccountOnly env) (answer1606 ctx clientId version name) :=
  account_of_coded (quiet_answer1606 name) (by decide) (by decide) (by decide)

theorem account_answer1607 (text : String) :
    Keeps (AccountOnly env) (answer1607 ctx clientId version text) :=
  account_of_coded (quiet_answer1607 text) (by decide) (by decide) (by decide)

/-- The payload of a key response, taken apart. -/
theorem buildBoundAesKeyPayload_ok {h : Handshake} {key payload : Bytes} {code : ResCode}
    (hb : buildBoundAesKeyPayload env h key clientId code = .ok payload) :
    ∃ sv cn sn signature, h.securityVersion = some sv ∧ h.clientNonce = some cn ∧
      h.serverNonce = some sn ∧ h.verified = true ∧
      env.signTranscript (aesKeyBindingTranscript sv cn sn clientId code.value key) =
        some signature ∧ key.length ≤ 65535 ∧ signature.length ≤ 65535 ∧
      payload = clientId ++ leBytes 2 key.length ++ key ++ leBytes 2 signature.length ++
        signature := by
  unfold buildBoundAesKeyPayload at hb
  rcases hv : h.verified with _ | _
  · rw [hv] at hb
    cases hb
  simp only [hv, Bool.not_true, Bool.false_eq_true, if_false] at hb
  rcases hs : h.securityVersion with _ | sv <;> rcases hc : h.clientNonce with _ | cn <;>
    rcases hn : h.serverNonce with _ | sn <;> simp only [hs, hc, hn] at hb <;> try cases hb
  unfold sign at hb
  rcases hg : env.signTranscript (aesKeyBindingTranscript sv cn sn clientId code.value key) with
    _ | signature
  · rw [hg] at hb
    cases hb
  · rw [hg] at hb
    simp only [bind, Except.bind] at hb
    split_ifs at hb with h₁ h₂
    cases hb
    exact ⟨sv, cn, sn, signature, rfl, rfl, rfl, rfl, hg, by omega, by omega, rfl⟩

theorem account_answerAesKey (code : ResCode) (event : String) (key : Bytes)
    (hc : code ≠ .serverHello) :
    Keeps (AccountOnly ctx.env) (answerAesKey ctx code event key clientId version) := by
  intro w
  -- the handshake is read once, at the start
  have hq : Keeps (Quiet (Permitted ctx.env w.session.handshake)) (do
      let payload ← ofExcept
        (buildBoundAesKeyPayload ctx.env w.session.handshake key clientId code)
      let message ← ofExcept (messageAnswer version code payload.length payload)
      let _ ← onStore (touchClientLastSeen ctx.out (hex clientId))
      logEvent ctx (.clientId clientId) event
      send ctx message) := by
    refine keeps_ofExcept_bind fun payload hp => keeps_ofExcept_bind fun m hm =>
      keeps_bind (quiet_touch _) fun _ => keeps_bind (quiet_log _ _) fun _ => quiet_send ?_
    refine ⟨⟨code, hc, coded_of_ok hm⟩, fun _ => ?_⟩
    obtain ⟨sv, cn, sn, signature, hs, hcn, hsn, hv, hg, -, -, rfl⟩ :=
      buildBoundAesKeyPayload_ok hp
    obtain ⟨-, -, -, rfl⟩ := messageAnswer_ok.mp hm
    exact ⟨version, clientId, key, signature, code, sv, cn, sn, hs, hcn, hsn, hv, hg, rfl⟩
  exact accountOnly_of_quiet (hq w) fun _ h => h

theorem uploads_createClient {o : Outside} {name : String} :
    Keeps UploadsKept (createClient o name) := by
  apply keeps_of_wp
  intro st
  exact wp_createClient (fun _ => ⟨rfl, rfl⟩) ⟨rfl, rfl⟩
    (fun _ h => ⟨(insertClient_some h).2.2.2, rfl⟩) (fun _ h => ⟨(insertClient_some h).2.2.2, rfl⟩)

theorem account_request825 (payload : Bytes) :
    Keeps (AccountOnly env) (request825 ctx payload version) := by
  unfold request825
  rcases utf8Decode (rstripNul payload) with _ | name
  · exact keeps_raise _
  refine keeps_look_bind fun known => ?_
  have h1601 : Keeps (AccountOnly env) (answer1601 ctx version) :=
    account_of_coded quiet_answer1601 (by decide) (by decide) (by decide)
  refine keeps_ite h1601 (keeps_ite h1601 ?_)
  refine keeps_bind (account_onStore uploads_createClient) fun record => ?_
  rcases record with _ | record
  · exact keeps_raise _
  dsimp only
  rcases fromHex record.clientIdHex with _ | id
  · exact keeps_raise _
  refine keeps_bind (keeps_update fun w => ?_) fun _ => keeps_bind (account_log _ _) fun _ =>
    account_of_coded quiet_answer1600 (by decide) (by decide) (by decide)
  rcases w.store.recentLog (.name name) with _ | past
  · exact refl_of _ _
  · exact ⟨rfl, rfl, rfl, rfl, rfl, rfl, rfl, rfl, [], by simp [World.setStore], by simp⟩

theorem account_freshAesKey (id : String) : Keeps (AccountOnly env) (freshAesKey ctx id) :=
  keeps_look_bind fun _ =>
    keeps_bind (account_onStore uploads_setClientField) fun _ => keeps_pure _

/-- Wrap a key and send it in a 1602 or a 1605. -/
theorem account_wrapKey (code : ResCode) (event : String) (der key : Bytes)
    (hc : code ≠ .serverHello) :
    Keeps (AccountOnly ctx.env) (do
      let ciphertext ← ofExcept (encryptKey ctx.env der key)
      answerAesKey ctx code event ciphertext clientId version) :=
  keeps_ofExcept_bind fun _ _ => account_answerAesKey code event _ hc

theorem account_enrollKey (record : ClientRecord) (der : Bytes) :
    Keeps (AccountOnly ctx.env) (enrollKey ctx clientId version record der) := by
  unfold enrollKey
  have hsend (key : Bytes) : Keeps (AccountOnly ctx.env) (do
      let ciphertext ← ofExcept (encryptKey ctx.env der key)
      answerAesKey ctx .aesKey "answer_1602" ciphertext clientId version) :=
    account_wrapKey .aesKey "answer_1602" der key (by decide)
  rcases record.publicKeyDer with _ | stored
  · exact keeps_bind (account_onStore uploads_setClientField) fun _ =>
      keeps_bind (account_freshAesKey _) fun key => hsend key
  refine keeps_ite (account_answer1607 _) ?_
  rcases record.aesKeyB64 with _ | b64
  · exact keeps_bind (account_freshAesKey _) fun key => hsend key
  dsimp only
  rcases b64decode false b64 with _ | key
  · exact keeps_raise _
  · exact hsend key

theorem account_request826 (payload : Bytes) :
    Keeps (AccountOnly ctx.env) (request826 ctx clientId payload version) := by
  refine keeps_look_bind fun record => ?_
  rcases record with _ | record
  · exact account_answer1607 _
  refine keeps_bind (account_touch _) fun _ => keeps_bind (account_log _ _) fun _ => ?_
  rcases parse826 ctx.env record.username payload with text | ⟨name, der⟩
  · exact account_answer1607 _
  refine keeps_bind (keeps_attempt ?_ fun _ => ?_) fun accepted => ?_
  · unfold checkPublicKey
    rcases ctx.env.rsaImport der with _ | key
    · exact keeps_raise _
    · exact keeps_ite (keeps_bind (account_answer1606 _) fun _ => keeps_pure _) (keeps_pure _)
  · exact keeps_bind (account_answer1607 _) fun _ => keeps_pure _
  · exact keeps_ite (account_enrollKey record der) (keeps_pure _)

theorem account_request827 (payload : Bytes) :
    Keeps (AccountOnly ctx.env) (request827 ctx clientId payload version) := by
  unfold request827
  rcases utf8Decode (rstripNul payload) with _ | rawName
  · exact account_answer1606 _
  refine keeps_look_bind fun record => ?_
  rcases record with _ | record
  · exact keeps_bind (account_log _ _) fun _ => account_answer1606 _
  refine keeps_ite (keeps_bind (account_log _ _) fun _ => account_answer1606 _) ?_
  rcases record.publicKeyDer with _ | der
  · exact account_answer1606 _
  refine keeps_ite (account_answer1606 _) ?_
  refine keeps_bind (account_touch _) fun _ => keeps_bind (account_log _ _) fun _ => ?_
  rcases ctx.env.rsaImport der with _ | pub
  · exact account_answer1606 _
  refine keeps_ite (account_answer1606 _) ?_
  exact keeps_bind (account_freshAesKey _) fun key =>
    account_wrapKey .reloginOk "answer_1605" der key (by decide)

end

/-! ### Upload requests -/

/-- The three responses of an upload. -/
def UploadCoded (m : Bytes) : Prop :=
  Coded .crcResult m ∨ Coded .transferDone m ∨ Coded .error m

/-- Clients, keys and indices stay; the handshake stays. -/
structure UploadOnly (w w' : World) : Prop where
  handshake : w'.session.handshake = w.session.handshake
  connectionId : w'.session.connectionId = w.session.connectionId
  store : ∃ us, StoreFrames.core w'.store = { StoreFrames.core w.store with uploads := us }
  sent : ∃ ms, w'.session.sent = w.session.sent ++ ms ∧ ∀ m ∈ ms, UploadCoded m

instance : Std.Refl UploadOnly :=
  ⟨fun w => ⟨rfl, rfl, ⟨w.store.working.uploads, rfl⟩, [], by simp, by simp⟩⟩

instance : IsTrans World UploadOnly where
  trans a b c h h' := by
    obtain ⟨ms, hm, hp⟩ := h.sent
    obtain ⟨ns, hn, hq⟩ := h'.sent
    obtain ⟨us, hu⟩ := h.store
    obtain ⟨vs, hv⟩ := h'.store
    refine ⟨h'.handshake.trans h.handshake, h'.connectionId.trans h.connectionId,
      ⟨vs, by rw [hv, hu]⟩, ms ++ ns, by rw [hn, hm, List.append_assoc], fun m hmem => ?_⟩
    exact (List.mem_append.mp hmem).elim (hp m) (hq m)

section
variable {ctx : Ctx} {version clientId : Bytes}

theorem upload_of_coded {α : Type} {c : ResCode} {x : Server α} (hx : Keeps (Quiet (Coded c)) x)
    (hc : ∀ m, Coded c m → UploadCoded m) : Keeps UploadOnly x := fun w => by
  obtain ⟨ms, ht, hm⟩ := hx w
  exact ⟨congrArg Core.handshake ht.core_eq, congrArg Core.connectionId ht.core_eq,
    ⟨w.store.working.uploads, congrArg Core.store ht.core_eq⟩, ms, ht.sent,
    fun m h => hc m (hm m h)⟩

theorem upload_of_tells {α : Type} {x : Server α} (hx : Keeps (Tells []) x) :
    Keeps UploadOnly x :=
  upload_of_coded (c := .error) (quiet_of_tells hx) fun _ h => .inr (.inr h)

theorem upload_onTransfer (f : Transfer → Transfer) : Keeps UploadOnly (onTransfer f) := fun w =>
  ⟨rfl, rfl, ⟨w.store.working.uploads, rfl⟩, [], by simp [onTransfer, update, World.setTransfer],
    by simp⟩

theorem upload_onFiles {α : Type} (x : FileProg α) : Keeps UploadOnly (onFiles x) := fun w =>
  ⟨rfl, rfl, ⟨w.store.working.uploads, rfl⟩, [], by simp [onFiles, zoom, World.setFiles], by simp⟩

theorem upload_onStore {α : Type} {x : StoreProg α}
    (hx : Keeps (fun st st' => ∃ us, StoreFrames.core st' =
      { StoreFrames.core st with uploads := us }) x) : Keeps UploadOnly (onStore x) :=
  keeps_zoom hx fun w st h => ⟨rfl, rfl, h, [], by simp [World.setStore], by simp⟩

theorem upload_changeUploadRecord (id : Option ℕ) (c : UploadChange) :
    Keeps UploadOnly (onStore (changeUploadRecord ctx.out id c)) := by
  refine upload_onStore (keeps_of_wp fun st => wp_mono wp_changeUploadRecord ?_ ?_)
  · rintro b st' (⟨-, -, rfl⟩ | ⟨-, -, h⟩)
    · exact ⟨st'.working.uploads, rfl⟩
    · exact ⟨_, h⟩
  · rintro e st' (h | h)
    · exact ⟨st.working.uploads, h⟩
    · exact ⟨_, h⟩

theorem upload_createUploadRecord (id name : String) (orig cipher : ℕ) :
    Keeps UploadOnly (onStore (createUploadRecord ctx.out id name orig cipher)) := by
  refine upload_onStore (keeps_of_wp fun st => wp_mono wp_createUploadRecord ?_ ?_)
  · rintro b st' (⟨-, -, rfl⟩ | ⟨-, -, h⟩)
    · exact ⟨st'.working.uploads, rfl⟩
    · exact ⟨_, h⟩
  · rintro e st' (h | h)
    · exact ⟨st.working.uploads, h⟩
    · exact ⟨_, h⟩

theorem upload_parts : UploadParts ctx UploadOnly where
  tells := upload_of_tells
  answers hx hc := upload_of_coded hx fun m hm => by
    rcases hc with rfl | rfl | rfl
    · exact .inl hm
    · exact .inr (.inl hm)
    · exact .inr (.inr hm)
  onTransfer := upload_onTransfer
  onFiles := upload_onFiles
  changeUploadRecord := upload_changeUploadRecord
  createUploadRecord := upload_createUploadRecord
  log _ _ _ := keeps_update fun w =>
    ⟨rfl, rfl, ⟨w.store.working.uploads, rfl⟩, [], by simp [World.setStore], by simp⟩
  acquire := by
    intro w
    refine keeps_ite (R := UploadOnly) (keeps_pure true) (keeps_ite ?_ (keeps_pure false)) w
    refine keeps_bind (keeps_update fun w => ?_) fun _ => keeps_pure true
    exact ⟨rfl, rfl, ⟨w.store.working.uploads, rfl⟩, [], by simp, by simp⟩
  release := keeps_update fun w => by
    split
    · exact ⟨rfl, rfl, ⟨w.store.working.uploads, rfl⟩, [], by simp, by simp⟩
    · exact refl_of _ w

theorem upload_resetTransferState : Keeps UploadOnly (resetTransferState ctx) :=
  upload_parts.keeps_resetTransferState

theorem upload_request828 (payload : Bytes) :
    Keeps UploadOnly (request828 ctx payload version clientId) :=
  upload_parts.keeps_request828 payload

theorem upload_request900 (payload : Bytes) :
    Keeps UploadOnly (request900 ctx payload version clientId) :=
  upload_parts.refusal.keeps_request900 payload

theorem upload_request901 (payload : Bytes) :
    Keeps UploadOnly (request901 ctx payload version clientId) :=
  upload_parts.refusal.keeps_request901 payload

theorem upload_request902 (payload : Bytes) :
    Keeps UploadOnly (request902 ctx payload version clientId) :=
  upload_parts.refusal.keeps_request902 payload

end

end Seftp.HandlerFrames
