import Seftp.KeyAgreement
import Seftp.KeyFreshness
import Seftp.PayloadCodecs
import Seftp.SignedTranscripts

/-!
# Where a saved key comes from

Nothing is assumed of the network: the other end of the client is arbitrary, and so
are the frames that reach the server. Assumed are the signature scheme, whose
signatures come from the server and fit one message each, and the encryption, which
gives back what was encrypted or nothing. Then every key that the client saves is one
that the server held for the client named in the response, and it was sent in a session
that has the nonces of this very call.
-/
namespace Seftp.KeyAuthenticity
open LittleEndian ExceptState OutsideWorld Text Protocol ClientStore StoreFrames ServerSession
open Answers
open SessionFrames AccountHandlers UploadHandlers HandlerFrames Router HandshakeGate UploadStages
open KeySteps KeyBinding RowSteps Confirmations KeyAgreement PayloadCodecs SignedTranscripts
open ClientProgram (ClientEnv ClientWorld Client encodeBase64)

/-! ### The key responses of a session -/

def KeyCoded (m : Bytes) : Prop := Coded .aesKey m ∨ Coded .reloginOk m

/-- A key response under the signature of a session. -/
def Sealed (env : Env) (h : Handshake) (clientId encryptedKey m : Bytes) : Prop :=
  ∃ (version signature : Bytes) (code : ResCode) (sv : UInt8) (cn sn : Bytes),
    version.length = 1 ∧ h.securityVersion = some sv ∧ h.clientNonce = some cn ∧
    h.serverNonce = some sn ∧ h.verified = true ∧ encryptedKey.length ≤ 65535 ∧
    signature.length ≤ 65535 ∧
    env.signTranscript (aesKeyBindingTranscript sv cn sn clientId code.value encryptedKey) =
      some signature ∧
    m = message version code (twoFields clientId encryptedKey signature)

/-- The store holds both keys of a client. -/
def Holds (st : Store) (idHex : String) (der key : Bytes) : Prop :=
  ∃ record b64, (book st).find idHex = some record ∧ record.publicKeyDer = some der ∧
    record.aesKeyB64 = some b64 ∧ b64decode false b64 = some key

/-- The key responses of a step carry the key that the store holds after it. -/
structure Hands (env : Env) (clientId : Bytes) (w w' : World) : Prop where
  handshake : w'.session.handshake = w.session.handshake
  sent : ∃ ms, w'.session.sent = w.session.sent ++ ms ∧ ∀ m ∈ ms, KeyCoded m →
    ∃ der key encryptedKey, Holds w'.store (hex clientId) der key ∧
      env.oaepEncrypt der key = some encryptedKey ∧
      Sealed env w.session.handshake clientId encryptedKey m

/-- No key goes out. -/
structure Hushed (w w' : World) : Prop where
  handshake : w'.session.handshake = w.session.handshake
  sent : ∃ ms, w'.session.sent = w.session.sent ++ ms ∧ ∀ m ∈ ms, ¬ KeyCoded m

instance : Std.Refl Hushed := ⟨fun _ => ⟨rfl, [], by simp, by simp⟩⟩

instance : IsTrans World Hushed where
  trans _ _ _ h h' := by
    obtain ⟨ms, hs, hm⟩ := h.sent
    obtain ⟨ns, hs', hn⟩ := h'.sent
    refine ⟨h'.handshake.trans h.handshake, ms ++ ns, by rw [hs', hs, List.append_assoc], ?_⟩
    exact fun m hmem => (List.mem_append.mp hmem).elim (hm m) (hn m)

/-- What goes on around them. -/
structure Still (o : Outside) (w w' : World) : Prop where
  calm : Calm o w w'
  handshake : w'.session.handshake = w.session.handshake

instance (o : Outside) : Std.Refl (Still o) := ⟨fun w => ⟨refl_of (Calm o) w, rfl⟩⟩

instance (o : Outside) : IsTrans World (Still o) where
  trans _ _ _ h h' := ⟨trans_of (Calm o) h.calm h'.calm, h'.handshake.trans h.handshake⟩

section
variable {α : Type} {ctx : Ctx} {o : Outside} {clientId version : Bytes} {w u v w' : World}

theorem tame_not_keyCoded {m : Bytes} (h : Tame m) : ¬ KeyCoded m :=
  fun hk => hk.elim h.aesKey h.reloginOk

theorem Holds.of_book {st st' : Store} {idHex : String} {der key : Bytes}
    (h : Holds st idHex der key)
    (hb : book st' = book st) : Holds st' idHex der key := by
  obtain ⟨record, b64, hfind, h⟩ := h
  exact ⟨record, b64, hb ▸ hfind, h⟩

theorem still_of_quiet {c : ResCode} {x : Server α} (hx : Keeps (Quiet (Coded c)) x)
    (h₀ : c ≠ .registerOk) (h₂ : c ≠ .aesKey) (h₅ : c ≠ .reloginOk) : Keeps (Still o) x := fun w =>
  ⟨calm_of_quiet hx h₀ h₂ h₅ w, congrArg Core.handshake (hx w).core_eq⟩

theorem still_of_tells {x : Server α} (hx : Keeps (Tells []) x) : Keeps (Still o) x := fun w =>
  ⟨calm_of_tells hx w, (hx w).handshake⟩

theorem still_of_upload {x : Server α} (hx : Keeps UploadOnly x) : Keeps (Still ctx.out) x :=
  fun w => ⟨calm_of_upload hx w, (hx w).handshake⟩

theorem still_answer1606 (name : String) :
    Keeps (Still o) (answer1606 ctx clientId version name) :=
  still_of_quiet (quiet_answer1606 name) (by decide) (by decide) (by decide)

theorem still_answer1607 (text : String) :
    Keeps (Still o) (answer1607 ctx clientId version text) :=
  still_of_quiet (quiet_answer1607 text) (by decide) (by decide) (by decide)

theorem Hands.between {env : Env} (h : Still o w u) (hh : Hands env clientId u v)
    (h' : Still o v w') :
    Hands env clientId w w' := by
  obtain ⟨ms₁, ha, hm₁⟩ := h.calm
  obtain ⟨ms₂, ha', hm₂⟩ := h'.calm
  obtain ⟨ms, hsent, hm⟩ := hh.sent
  refine ⟨h'.handshake.trans (hh.handshake.trans h.handshake), ms₁ ++ ms ++ ms₂,
    by rw [ha'.sent, hsent, ha.sent, List.append_assoc, List.append_assoc, List.append_assoc], ?_⟩
  intro m hmem hk
  rcases List.mem_append.mp hmem with hmem | hmem
  · rcases List.mem_append.mp hmem with hmem | hmem
    · exact (tame_not_keyCoded (hm₁ m hmem) hk).elim
    · obtain ⟨der, key, encryptedKey, hholds, hkey, hseal⟩ := hm m hmem hk
      rw [h.handshake] at hseal
      exact ⟨der, key, encryptedKey, hholds.of_book ha'.changes.book_eq, hkey, hseal⟩
  · exact (tame_not_keyCoded (hm₂ m hmem) hk).elim

theorem Still.hushed (h : Still o w w') : Hushed w w' := by
  obtain ⟨ms, ha, hm⟩ := h.calm
  exact ⟨h.handshake, ms, ha.sent, fun m hmem => tame_not_keyCoded (hm m hmem)⟩

theorem Hushed.hands {env : Env} (h : Hushed w w') : Hands env clientId w w' := by
  obtain ⟨ms, hs, hm⟩ := h.sent
  exact ⟨h.handshake, ms, hs, fun m hmem hk => (hm m hmem hk).elim⟩

theorem hands_of_still {env : Env} (h : Still o w w') : Hands env clientId w w' := h.hushed.hands

/-- A step before, whatever it does to the store. -/
theorem Hands.behind {env : Env} (hh : u.session.handshake = w.session.handshake)
    (hs : u.session.sent = w.session.sent) (h : Hands env clientId u v) :
    Hands env clientId w v := by
  obtain ⟨ms, hsent, hm⟩ := h.sent
  exact ⟨h.handshake.trans hh, ms, by rw [hsent, hs], hh ▸ hm⟩

/-- Both ends of a run hand out keys of the store. -/
def HandsOver (ctx : Ctx) (clientId : Bytes) (x : Server α) (w : World) : Prop :=
  wp x (fun _ w' => Hands ctx.env clientId w w') (fun _ w' => Hands ctx.env clientId w w') w

theorem handsOver_of_still {x : Server α} (hx : Keeps (Still o) x) : HandsOver ctx clientId x w :=
  wp_mono (hx.wp w) (fun _ _ h => hands_of_still h) fun _ _ h => hands_of_still h

theorem handsOver_bind {β : Type} {x : Server α} {f : α → Server β} (hx : Keeps (Still o) x)
    (hf : ∀ a u, Still o w u → HandsOver ctx clientId (f a) u) :
    HandsOver ctx clientId (x >>= f) w := by
  refine wp_seq (hx.wp w) (fun a u hu => ?_) fun _ _ h => hands_of_still h
  exact wp_mono (hf a u hu) (fun _ _ h => h.between hu (refl_of _ _))
    fun _ _ h => h.between hu (refl_of _ _)

theorem handsOver_answer (code : ResCode) (event : String) {der key encryptedKey : Bytes}
    (hholds : Holds w.store (hex clientId) der key)
    (hkey : ctx.env.oaepEncrypt der key = some encryptedKey) :
    HandsOver ctx clientId (answerAesKey ctx code event encryptedKey clientId version) w := by
  have hq : Keeps (Quiet (Sealed ctx.env w.session.handshake clientId encryptedKey)) (do
      let payload ← ofExcept
        (buildBoundAesKeyPayload ctx.env w.session.handshake encryptedKey clientId code)
      let message ← ofExcept (messageAnswer version code payload.length payload)
      let _ ← onStore (touchClientLastSeen ctx.out (hex clientId))
      logEvent ctx (.clientId clientId) event
      send ctx message) := by
    refine keeps_ofExcept_bind fun payload hp => keeps_ofExcept_bind fun m hm =>
      keeps_bind (quiet_touch _) fun _ => keeps_bind (quiet_log _ _) fun _ => quiet_send ?_
    obtain ⟨sv, cn, sn, signature, hs, hcn, hsn, hv, hg, hlen, hsig, rfl⟩ :=
      buildBoundAesKeyPayload_ok hp
    obtain ⟨hversion, -, -, rfl⟩ := messageAnswer_ok.mp hm
    exact ⟨version, signature, code, sv, cn, sn, hversion, hs, hcn, hsn, hv, hlen, hsig, hg, rfl⟩
  refine wp_state.mpr ?_
  obtain ⟨ms, ht, hm⟩ := hq w
  have hbook := (acts_of_tells (o := ctx.out) ht).changes.book_eq
  exact ⟨ht.handshake, ms, ht.sent, fun m hmem _ =>
    ⟨der, key, encryptedKey, hholds.of_book hbook, hkey, hm m hmem⟩⟩

theorem handsOver_wrap (code : ResCode) (event : String) {der key : Bytes}
    (hholds : Holds w.store (hex clientId) der key) :
    HandsOver ctx clientId (do
      let ciphertext ← ofExcept (encryptKey ctx.env der key)
      answerAesKey ctx code event ciphertext clientId version) w := by
  refine wp_ofExcept_bind (fun ciphertext hc => ?_) fun _ _ =>
    hands_of_still (refl_of (Still ctx.out) w)
  unfold encryptKey at hc
  split at hc
  · cases hc
    exact handsOver_answer code event hholds (by assumption)
  · cases hc

/-- A fresh key is in the store before it goes out. -/
theorem handsOver_fresh (code : ResCode) (event : String) {record : ClientRecord} {der : Bytes}
    (h : Linked w.store) (hfound : (book w.store).find (hex clientId) = some record)
    (hder : record.publicKeyDer = some der) :
    HandsOver ctx clientId (do
      let key ← freshAesKey ctx (hex clientId)
      let ciphertext ← ofExcept (encryptKey ctx.env der key)
      answerAesKey ctx code event ciphertext clientId version) w := by
  have hsome : ((book w.store).find (hex clientId)).isSome := by
    rw [hfound]
    rfl
  have haccount : Keeps (AccountOnly ctx.env) (freshAesKey ctx (hex clientId)) :=
    account_freshAesKey _
  have hsame : Keeps (fun w w' : World => w'.session.handshake = w.session.handshake)
      (freshAesKey ctx (hex clientId)) := haccount.mono fun _ _ h => h.handshake
  refine wp_seq (wp_and (wp_freshAesKey h hsome) (hsame.wp w)) ?_ ?_
  · rintro key u ⟨hu, hhand⟩
    have hholds : Holds u.store (hex clientId) der key := by
      refine ⟨record.set (.aesKeyB64 (b64encode key)), b64encode key, ?_, hder, rfl,
        b64decode_b64encode key⟩
      rw [hu.changes.book_eq, Book.find_set h.indices, hfound, Option.map_some, if_pos rfl]
    have hsent : u.session.sent = w.session.sent := by rw [hu.sent, List.append_nil]
    exact wp_mono (handsOver_wrap code event hholds) (fun _ _ hv => hv.behind hhand hsent)
      fun _ _ hv => hv.behind hhand hsent
  · rintro e u ⟨hu, hhand⟩
    exact ⟨hhand, [], hu.sent, by simp⟩

/-! ### The requests -/

theorem handsOver_enrollKey {record : ClientRecord} (h : Linked w.store)
    (hfound : (book w.store).find (hex clientId) = some (forgetSeen record)) (der : Bytes) :
    HandsOver ctx clientId (enrollKey ctx clientId version record der) w := by
  have hsome : ((book w.store).find (hex clientId)).isSome := by
    rw [hfound]
    rfl
  unfold enrollKey
  rcases hpub : record.publicKeyDer with _ | stored
  · -- the public key is bound first
    have hsame : Keeps (fun w w' : World => w'.session.handshake = w.session.handshake)
        (onStore (setClientPublicKey ctx.out (hex clientId) der)) := fun _ => rfl
    refine wp_seq (wp_and (acts_onStore (wp_setKey h (isKey_publicKeyDer der) hsome))
      (hsame.wp w)) ?_ ?_
    · rintro _ u ⟨⟨hu, hsent⟩, hhand⟩
      rw [List.append_nil] at hsent
      have hbound : (book u.store).find (hex clientId) =
          some ((forgetSeen record).set (.publicKeyDer der)) := by
        rw [hu.book_eq, Book.find_set h.indices, hfound, Option.map_some, if_pos rfl]
      exact wp_mono (handsOver_fresh .aesKey "answer_1602" (linked_setField h hu) hbound rfl)
        (fun _ _ hv => hv.behind hhand hsent) fun _ _ hv => hv.behind hhand hsent
    · rintro _ u ⟨⟨-, hsent⟩, hhand⟩
      exact ⟨hhand, [], hsent, by simp⟩
  dsimp only
  refine wp_branch (fun _ => handsOver_of_still (o := ctx.out) (still_answer1607 _))
    fun hother => ?_
  obtain rfl : der = stored := not_not.mp hother
  rcases haes : record.aesKeyB64 with _ | b64
  · exact handsOver_fresh .aesKey "answer_1602" h hfound hpub
  dsimp only
  rcases hkey : b64decode false b64 with _ | key
  · exact (wp_raise _).mpr (hands_of_still (refl_of (Still ctx.out) w))
  · exact handsOver_wrap .aesKey "answer_1602" ⟨_, b64, hfound, hpub, haes, hkey⟩

theorem handsOver_request826 (h : Linked w.store) (payload : Bytes) :
    HandsOver ctx clientId (request826 ctx clientId payload version) w := by
  rw [HandsOver, request826, wp_bind, wp_look]
  rcases hrec : w.store.getClientById (hex clientId) with _ | record
  · exact handsOver_of_still (o := ctx.out) (still_answer1607 _)
  have hfound : (book w.store).find (hex clientId) = some (forgetSeen record) := by
    rw [find_book, hrec]
    rfl
  refine handsOver_bind (o := ctx.out) (still_of_tells (tells_touch _)) fun _ u hu => ?_
  refine handsOver_bind (o := ctx.out) (still_of_tells (tells_logEvent _ _)) fun _ v hv => ?_
  have hwv := trans_of (Still ctx.out) hu hv
  rcases parse826 ctx.env record.username payload with text | ⟨name, der⟩
  · exact handsOver_of_still (o := ctx.out) (still_answer1607 _)
  have hcheck : Keeps (Still ctx.out) (attempt (checkPublicKey ctx clientId version name der)
      fun _ => do
        answer1607 ctx clientId version "Invalid RSA public key"
        pure false) := by
    apply keeps_attempt
    · unfold checkPublicKey
      rcases ctx.env.rsaImport der with _ | key
      · exact keeps_raise _
      · exact keeps_ite (keeps_bind (still_answer1606 _) fun _ => keeps_pure _) (keeps_pure _)
    · exact fun _ => keeps_bind (still_answer1607 _) fun _ => keeps_pure _
  refine handsOver_bind hcheck fun accepted x hx => ?_
  have hwx := trans_of (Still ctx.out) hwv hx
  refine wp_branch (fun _ => handsOver_enrollKey (linked_calm h hwx.calm) ?_ der) fun _ =>
    (wp_pure _).mpr (hands_of_still (refl_of (Still ctx.out) x))
  rw [book_calm hwx.calm, hfound]

theorem handsOver_request827 (h : Linked w.store) (payload : Bytes) :
    HandsOver ctx clientId (request827 ctx clientId payload version) w := by
  have h1606 {x : World} {id : Bytes} {name : String} :
      HandsOver ctx clientId (answer1606 ctx id version name) x :=
    handsOver_of_still (o := ctx.out) (still_answer1606 _)
  have hunknown {x : World} {name : String} : HandsOver ctx clientId (do
      logEvent ctx (.name name) "request_827"
      answer1606 ctx zeroClientId.val version name) x :=
    handsOver_of_still (o := ctx.out)
      (keeps_bind (still_of_tells (tells_logEvent _ _)) fun _ => still_answer1606 _)
  unfold request827
  rcases utf8Decode (rstripNul payload) with _ | rawName
  · exact h1606
  rw [HandsOver, wp_bind, wp_look]
  rcases hrec : w.store.getClientByUsername (strip rawName) with _ | record
  · exact hunknown
  refine wp_branch (fun _ => hunknown) fun hid => ?_
  rcases hpub : record.publicKeyDer with _ | der
  · exact h1606
  refine wp_branch (fun _ => h1606) fun _ => ?_
  have hbyName : (book w.store).findName (strip rawName) = some (forgetSeen record) := by
    rw [findName_book, hrec]
    rfl
  have hfound : (book w.store).find (hex clientId) = some (forgetSeen record) := by
    have := (h.indices.findName_iff.mp hbyName).1
    rwa [show (forgetSeen record).clientIdHex = hex clientId from not_not.mp hid] at this
  refine handsOver_bind (o := ctx.out) (still_of_tells (tells_touch _)) fun _ u hu => ?_
  refine handsOver_bind (o := ctx.out) (still_of_tells (tells_logEvent _ _)) fun _ v hv => ?_
  have hwv := trans_of (Still ctx.out) hu hv
  rcases ctx.env.rsaImport der with _ | pub
  · exact h1606
  refine wp_branch (fun _ => h1606) fun _ => ?_
  have hfoundv : (book v.store).find (hex clientId) = some (forgetSeen record) := by
    rw [book_calm hwv.calm, hfound]
  exact handsOver_fresh .reloginOk "answer_1605" (linked_calm h hwv.calm) hfoundv hpub

theorem hushed_request825 (payload : Bytes) : Keeps Hushed (request825 ctx payload version) := by
  have hcoded {x : Server Unit} {c : ResCode} (hx : Keeps (Quiet (Coded c)) x) (h₂ : c ≠ .aesKey)
      (h₅ : c ≠ .reloginOk) : Keeps Hushed x := fun w => by
    obtain ⟨ms, ht, hm⟩ := hx w
    refine ⟨ht.handshake, ms, ht.sent, fun m hmem hk => ?_⟩
    exact hk.elim (fun hk => h₂ (coded_unique (hm m hmem) hk)) fun hk =>
      h₅ (coded_unique (hm m hmem) hk)
  have h1601 : Keeps Hushed (answer1601 ctx version) :=
    hcoded quiet_answer1601 (by decide) (by decide)
  unfold request825
  rcases utf8Decode (rstripNul payload) with _ | name
  · exact keeps_raise _
  refine keeps_look_bind fun known =>
    keeps_ite h1601 (keeps_ite h1601 (keeps_bind ?_ fun record => ?_))
  · exact fun w => ⟨rfl, [], by simp [onStore, zoom, World.setStore], by simp⟩
  rcases record with _ | record
  · exact keeps_raise _
  dsimp only
  rcases fromHex record.clientIdHex with _ | id
  · exact keeps_raise _
  refine keeps_bind (keeps_update fun w => ?_) fun _ => keeps_bind
    ((still_of_tells (o := ctx.out) (tells_logEvent _ _)).mono fun _ _ h => h.hushed) fun _ =>
      hcoded quiet_answer1600 (by decide) (by decide)
  rcases w.store.recentLog (.name name) with _ | past
  · exact refl_of _ _
  · exact ⟨rfl, [], by simp [World.setStore], by simp⟩

/-! ### A frame after the handshake -/

theorem still_report (reason text : String) : Keeps (Still ctx.out) (do
    onFrameBad reason
    answer1607 ctx clientId version text
    resetTransferState ctx) :=
  keeps_bind (still_of_tells (tells_onFrameBad _)) fun _ => keeps_bind (still_answer1607 _) fun _ =>
    still_of_upload upload_resetTransferState

theorem still_reset_if : Keeps (Still ctx.out) (do
    let active ← look fun w => w.session.transfer.uploadActive
    if active then resetTransferState ctx else pure ()) :=
  keeps_look_bind fun _ => keeps_ite (still_of_upload upload_resetTransferState) (keeps_pure _)

theorem handsOver_dispatchAs (h : Linked w.store) (r : Request) :
    HandsOver ctx r.clientId (dispatchAs handlers ctx r true) w := by
  have hstill {x : Server Unit} (hx : Keeps (Still ctx.out) x) : HandsOver ctx r.clientId x w :=
    handsOver_of_still hx
  unfold dispatchAs
  refine wp_branch (fun _ => hstill (still_answer1607 _)) fun _ => ?_
  refine wp_branch (fun _ => hstill (still_answer1607 _)) fun hopen => ?_
  refine wp_branch (fun _ => ?_) fun _ => ?_
  · exact wp_state.mpr (hushed_request825 r.payload w).hands
  refine wp_branch (fun _ => handsOver_request827 h _) fun _ => ?_
  refine wp_branch (fun _ => handsOver_request826 h _) fun _ => ?_
  refine wp_branch (fun _ => hstill (still_of_upload (upload_request828 _))) fun _ => ?_
  refine wp_branch (fun hcode => (hopen ⟨rfl, .inl hcode⟩).elim) fun _ => ?_
  refine wp_branch (fun hcode => (hopen ⟨rfl, .inr hcode⟩).elim) fun _ => ?_
  refine wp_branch (fun _ => hstill (still_of_upload (upload_request900 _))) fun _ => ?_
  refine wp_branch (fun _ => hstill (still_of_upload (upload_request901 _))) fun _ => ?_
  refine wp_branch (fun _ => hstill (still_of_upload (upload_request902 _))) fun _ => ?_
  exact hstill (keeps_bind (still_of_tells (tells_onFrameBad _)) fun _ =>
    keeps_bind (still_answer1607 _) fun _ => still_reset_if)

theorem still_recover (r : Request) (e : PyError) : Keeps (Still ctx.out) (recover ctx r e) :=
  keeps_bind (still_of_tells (tells_onFrameBad _)) fun _ => keeps_look_bind fun _ =>
    keeps_ite (keeps_raise _) (keeps_bind (keeps_attempt (still_answer1607 _) fun _ => keeps_pure _)
      fun _ => still_reset_if)

theorem hands_handleFrame (ctx : Ctx) (frame : Bytes) (h : Linked w.store)
    (hv : w.session.handshake.verified = true) :
    Hands ctx.env (parseFrame frame).clientId w (handleFrame ctx frame w).2 := by
  unfold handleFrame
  rcases Nat.lt_or_ge frame.length 17 with hlen | hlen
  · rw [handleFrameWith_short hlen]
    exact hands_of_still (still_of_tells (o := ctx.out) (tells_onFrameBad _) w)
  have hnote : Still ctx.out w (noteIdentity (parseFrame frame) w) :=
    ⟨⟨[], ⟨Changes.refl _, by simp [noteIdentity, World.setSession]⟩, by simp⟩, rfl⟩
  rw [handleFrameWith_long hlen]
  have hroute : HandsOver ctx (parseFrame frame).clientId (routeFrame handlers ctx frame)
      (noteIdentity (parseFrame frame) w) := by
    unfold routeFrame
    refine wp_branch (fun _ => handsOver_of_still (still_report _ _)) fun _ => ?_
    refine wp_branch (fun _ => handsOver_of_still (still_report _ _)) fun _ => wp_dispatch.mpr ?_
    rw [show (noteIdentity (parseFrame frame) w).session.handshake.verified = true from hv]
    exact handsOver_dispatchAs (w := noteIdentity (parseFrame frame) w) h _
  refine (wp_state.mp (wp_attempt.mpr (wp_mono hroute (fun _ u hu => hu) fun e u hu => ?_)) :
    Hands ctx.env _ (noteIdentity (parseFrame frame) w) _).between hnote (refl_of (Still ctx.out) _)
  exact wp_state.mpr (hu.between (refl_of (Still ctx.out) _) (still_recover _ e u))

end

/-! ### A frame before it -/

/-- A hello under the signature of the server. -/
def Greeting (env : Env) (m : Bytes) : Prop :=
  ∃ (version signature : Bytes) (hello : ServerHello), version.length = 1 ∧
    hello.serverPublicKeyDer.length ≤ 65535 ∧ signature.length ≤ 65535 ∧
    env.signTranscript hello.transcript = some signature ∧
    m = message version .serverHello
      (twoFields ([hello.securityVersion] ++ hello.serverNonce.val)
        hello.serverPublicKeyDer signature)

/-- The nonces of a handshake have 32 bytes. -/
structure Wide (h : Handshake) : Prop where
  client : ∀ n ∈ h.clientNonce, n.length = 32
  server : ∀ n ∈ h.serverNonce, n.length = 32

/-- Every hello is signed, and the nonces keep their width. -/
structure Welcomes (env : Env) (w w' : World) : Prop where
  wide : Wide w.session.handshake → Wide w'.session.handshake
  sent : ∃ ms, w'.session.sent = w.session.sent ++ ms ∧
    ∀ m ∈ ms, Coded .serverHello m → Greeting env m

instance (env : Env) : Std.Refl (Welcomes env) := ⟨fun _ => ⟨id, [], by simp, by simp⟩⟩

instance (env : Env) : IsTrans World (Welcomes env) where
  trans _ _ _ h h' := by
    obtain ⟨ms, hs, hm⟩ := h.sent
    obtain ⟨ns, hs', hn⟩ := h'.sent
    refine ⟨h'.wide ∘ h.wide, ms ++ ns, by rw [hs', hs, List.append_assoc], ?_⟩
    exact fun m hmem => (List.mem_append.mp hmem).elim (hm m) (hn m)

section
variable {α : Type} {ctx : Ctx} {env : Env} {clientId version : Bytes} {w w' : World}

theorem welcomes_of_quiet {P : Bytes → Prop} {x : Server α} (hx : Keeps (Quiet P) x)
    (hp : ∀ m, P m → Coded .serverHello m → Greeting env m) : Keeps (Welcomes env) x := fun w => by
  obtain ⟨ms, ht, hm⟩ := hx w
  exact ⟨fun h => ht.handshake ▸ h, ms, ht.sent, fun m hmem => hp m (hm m hmem)⟩

theorem welcomes_answer1607 (text : String) :
    Keeps (Welcomes env) (answer1607 ctx clientId version text) :=
  welcomes_of_quiet (quiet_answer1607 text) fun _ hm h8 => by cases coded_unique hm h8

theorem welcomes_of_tells {x : Server α} (hx : Keeps (Tells []) x) : Keeps (Welcomes env) x :=
  welcomes_of_quiet (P := fun _ => False) (quiet_of_tells hx) fun _ h => h.elim

theorem welcomes_of_upload {x : Server α} (hx : Keeps UploadOnly x) : Keeps (Welcomes env) x := by
  refine hx.mono fun _ _ h => ?_
  obtain ⟨ms, hs, hm⟩ := h.sent
  refine ⟨fun hw => h.handshake ▸ hw, ms, hs, fun m hmem h8 => ?_⟩
  rcases hm m hmem with hc | hc | hc
  · cases coded_unique hc h8
  · cases coded_unique hc h8
  · cases coded_unique hc h8

theorem welcomes_request829 (payload : Bytes) :
    Keeps (Welcomes ctx.env) (request829 ctx payload version clientId) := by
  refine keeps_look_bind fun h => ?_
  dsimp only
  split_ifs with h₁ h₂ h₃ h₄ h₅ h₆
  · exact welcomes_answer1607 _
  · exact welcomes_answer1607 _
  · exact welcomes_answer1607 _
  · exact welcomes_answer1607 _
  · exact welcomes_answer1607 _
  · exact welcomes_answer1607 _
  have hcn : ((payload.drop 1).take 32).length = 32 := not_not.mp h₅
  refine keeps_bind (fun w => ⟨fun hw => ⟨fun n hn => ?_, hw.server⟩, [], by
    simp [onSession, update, World.setSession], by simp⟩) fun _ => keeps_look_bind fun n => ?_
  · cases hn
    exact hcn
  have hsn := (ctx.out.randomBytes n 32).property
  refine keeps_ofExcept_bind fun signature hs => keeps_bind (fun w =>
    ⟨fun hw => ⟨hw.client, fun n hn => ?_⟩, [],
      by simp [onSession, update, World.setSession], by simp⟩)
    fun _ => ?_
  · cases hn
    exact hsn
  rw [answer1608_eq]
  refine keeps_ofExcept_bind fun p hp => keeps_ofExcept_bind fun m hm =>
    welcomes_of_quiet (P := Greeting ctx.env) (quiet_send ?_) fun _ hg _ => hg
  unfold serverHelloPayload at hp
  split_ifs at hp with _ hk hg
  cases hp
  obtain ⟨hversion, -, -, rfl⟩ := messageAnswer_ok.mp hm
  exact ⟨version, signature,
    ⟨payload.headD 0, ⟨_, hcn⟩, ⟨_, hsn⟩, ctx.env.serverPublicKeyDer⟩, hversion,
    Nat.le_of_not_lt hk, Nat.le_of_not_lt hg, sign_ok hs, rfl⟩

theorem welcomes_request830 (payload : Bytes) :
    Keeps (Welcomes env) (request830 ctx payload version clientId) :=
  keeps_look_bind fun _ => keeps_ite (welcomes_answer1607 _) (keeps_ite (welcomes_answer1607 _)
    (keeps_ite (welcomes_answer1607 _) fun w => ⟨fun hw => ⟨hw.client, hw.server⟩, [], by
      simp [onSession, update, World.setSession], by simp⟩))

theorem welcomes_report (reason text : String) : Keeps (Welcomes env) (do
    onFrameBad reason
    answer1607 ctx clientId version text
    resetTransferState ctx) :=
  keeps_bind (welcomes_of_tells (tells_onFrameBad _)) fun _ => keeps_bind (welcomes_answer1607 _)
    fun _ => welcomes_of_upload upload_resetTransferState

theorem welcomes_recover (r : Request) (e : PyError) : Keeps (Welcomes env) (recover ctx r e) :=
  keeps_bind (welcomes_of_tells (tells_onFrameBad _)) fun _ => keeps_look_bind fun _ =>
    keeps_ite (keeps_raise _)
      (keeps_bind (keeps_attempt (welcomes_answer1607 _) fun _ => keeps_pure _)
      fun _ => keeps_look_bind fun _ =>
        keeps_ite (welcomes_of_upload upload_resetTransferState) (keeps_pure _))

theorem welcomes_handleFrame (ctx : Ctx) (frame : Bytes)
    (hv : w.session.handshake.verified = false) :
    Welcomes ctx.env w (handleFrame ctx frame w).2 := by
  unfold handleFrame
  rcases Nat.lt_or_ge frame.length 17 with hlen | hlen
  · rw [handleFrameWith_short hlen]
    exact welcomes_of_tells (tells_onFrameBad _) w
  have hnote : Welcomes ctx.env w (noteIdentity (parseFrame frame) w) :=
    ⟨id, [], by simp [noteIdentity, World.setSession], by simp⟩
  rw [handleFrameWith_long hlen]
  refine trans_of (Welcomes ctx.env) hnote (wp_state.mp (wp_attempt.mpr ?_))
  have hroute : Welcomes ctx.env (noteIdentity (parseFrame frame) w)
      (routeFrame handlers ctx frame (noteIdentity (parseFrame frame) w)).2 := by
    refine wp_state.mp ?_
    unfold routeFrame
    refine wp_branch (fun _ => (welcomes_report _ _).wp _) fun _ => ?_
    refine wp_branch (fun _ => (welcomes_report _ _).wp _) fun _ => wp_dispatch.mpr ?_
    rw [show (noteIdentity (parseFrame frame) w).session.handshake.verified = false from hv,
      dispatchAs_false]
    exact (keeps_ite (welcomes_request829 _) (keeps_ite (welcomes_request830 _)
      (welcomes_answer1607 _))).wp _
  refine wp_mono (wp_state.mpr hroute) (fun _ _ hu => hu) fun e u hu => ?_
  exact wp_state.mpr (trans_of (Welcomes ctx.env) hu (welcomes_recover _ e u))

end

/-! ### Reading a signature back -/

/-- The signature in a response, as the client reads it. -/
def signatureOf (m : Bytes) : Option Bytes :=
  match ResCode.ofValue (readLe 2 1 m) with
  | some .aesKey | some .reloginOk => (parse1602 (m.drop 7)).toOption.map Res1602.signature
  | some .serverHello => (parse1608 (m.drop 7)).toOption.map Res1608.signature
  | _ => none

theorem drop_message {version payload : Bytes} (code : ResCode) (h : version.length = 1) :
    (message version code payload).drop 7 = payload := by
  have hlen : (version ++ leBytes 2 code.value ++ leBytes 4 payload.length).length = 7 := by
    simp [h]
  rw [message, ← hlen, List.drop_left]

/-- Two fields behind fronts of one length. The lengths are written modulo 65536, and one
side has short fields. -/
theorem twoFields_inj {front front' a a' b b' : Bytes} (hf : front.length = front'.length)
    (ha : a.length ≤ 65535) (hb : b.length ≤ 65535)
    (h : twoFields front a b = twoFields front' a' b') : front = front' ∧ a = a' ∧ b = b' := by
  have htotal := congrArg List.length h
  rw [length_twoFields rfl, length_twoFields rfl] at htotal
  simp only [twoFields, List.append_assoc] at h
  obtain ⟨hfront, h⟩ := List.append_inj h hf
  obtain ⟨hlen, h⟩ := List.append_inj h (by simp)
  have hmod : a.length % 65536 = a'.length % 65536 := by
    have := congrArg leNat hlen
    rwa [leNat_leBytes, leNat_leBytes] at this
  obtain ⟨hfirst, h⟩ := List.append_inj h (by omega)
  exact ⟨hfront, hfirst, (List.append_inj h (by simp)).2⟩

theorem of_toOption {ε β γ : Type} {x : Except ε β} {f : β → γ} {c : γ}
    (h : x.toOption.map f = some c) : ∃ r, x = .ok r ∧ f r = c := by
  cases x with
  | error e => cases h
  | ok r => exact ⟨r, rfl, Option.some.inj h⟩

/-- Only three kinds of responses carry a signature. -/
theorem signatureOf_cases {m signature : Bytes} (h : signatureOf m = some signature) :
    (KeyCoded m ∧ ∃ r, parse1602 (m.drop 7) = .ok r ∧ r.signature = signature) ∨
      (Coded .serverHello m ∧ ∃ r, parse1608 (m.drop 7) = .ok r ∧ r.signature = signature) := by
  unfold signatureOf at h
  split at h
  · exact .inl ⟨.inl (ClientFrames.value_of_ofValue (by assumption)), of_toOption h⟩
  · exact .inl ⟨.inr (ClientFrames.value_of_ofValue (by assumption)), of_toOption h⟩
  · exact .inr ⟨ClientFrames.value_of_ofValue (by assumption), of_toOption h⟩
  · cases h

/-! ### Signed in a run -/

/-- The answer to a frame is a 1602 or 1605 that carries these fields under this signature, the
session that handles the frame has them, and the store then holds the key that is wrapped. -/
structure Issued (env : Env) (s : System) (a : Arrival) (g : AesKeyBinding)
    (signature key : Bytes) : Prop where
  sent : ∃ (version : Bytes) (code : ResCode), version.length = 1 ∧
    (code = .aesKey ∨ code = .reloginOk) ∧ g.responseCode.toNat = code.value ∧
    message version code (twoFields g.clientId.val g.encryptedKey signature) ∈ s.sentBy env a
  signed : env.signTranscript g.transcript = some signature
  verified : (s.sessions a.connection).handshake.verified = true
  securityVersion : (s.sessions a.connection).handshake.securityVersion = some g.securityVersion
  clientNonce : (s.sessions a.connection).handshake.clientNonce = some g.clientNonce.val
  serverNonce : (s.sessions a.connection).handshake.serverNonce = some g.serverNonce.val
  client : (parseFrame a.frame).clientId = g.clientId.val
  wraps : ∃ der, Holds (s.step env a).store (hex g.clientId.val) der key ∧
    env.oaepEncrypt der key = some g.encryptedKey

section
variable {env : Env} {b : Boot} {as : List Arrival} {a : Arrival} {m signature : Bytes}

theorem wide_run (env : Env) (b : Boot) (as : List Arrival) (i : ℕ) :
    Wide ((b.system.run env as).sessions i).handshake := by
  induction as using List.reverseRecOn generalizing i with
  | nil => exact ⟨(fun _ h => by cases h), fun _ h => by cases h⟩
  | append_singleton as a ih =>
      rw [run_snoc]
      by_cases hi : i = a.connection
      · subst hi
        change Wide (((b.system.run env as).step env a).world a.connection).session.handshake
        rw [world_step]
        rcases hv : ((b.system.run env as).world a.connection).session.handshake.verified with _ | _
        · exact (welcomes_handleFrame _ a.frame hv).wide (ih _)
        · rw [(open_handleFrame _ a.frame hv).handshake]
          exact ih _
      · rw [sessions_step env hi]
        exact ih i

/-- A message of a frame that is long enough to be routed. -/
theorem length_of_sent {s : System} (hm : m ∈ s.sentBy env a) : 17 ≤ a.frame.length := by
  by_contra hshort
  have hworld : (s.step env a).world a.connection =
      (handleFrame ⟨env, a.out⟩ a.frame (s.world a.connection)).2 := world_step s a
  rw [System.sentBy, hworld, handleFrame, handleFrameWith_short (by omega),
    newSent_eq (tells_onFrameBad _ _).sent] at hm
  exact List.not_mem_nil hm

theorem locked_not_keyCoded {frame : Bytes} {w : World} {h : Handshake} {ms : List Bytes}
    (hmove : LockedMove env w frame h ms) (hm : m ∈ ms) : ¬ KeyCoded m := by
  have hno {c : ResCode} (hc : Coded c m) (h₂ : c ≠ .aesKey) (h₅ : c ≠ .reloginOk) : ¬ KeyCoded m :=
    fun hk => hk.elim (fun hk => h₂ (coded_unique hc hk)) fun hk => h₅ (coded_unique hc hk)
  cases hmove with
  | stay _ he => exact hno (he m hm) (by decide) (by decide)
  | started _ _ he => exact hno (he m hm) (by decide) (by decide)
  | ack _ _ he => exact hno (he m hm) (by decide) (by decide)
  | hello _ rest _ _ he h8 _ =>
      rcases h8 with rfl | ⟨m', hm', rfl⟩
      · exact hno (he m hm) (by decide) (by decide)
      · rcases List.mem_cons.mp hm with rfl | hm
        · exact hno hm' (by decide) (by decide)
        · exact hno (he m hm) (by decide) (by decide)

/-- The signature of a key response. -/
theorem issued_of_sent (hm : m ∈ (b.system.run env as).sentBy env a) (hk : KeyCoded m)
    (hv : ((b.system.run env as).sessions a.connection).handshake.verified = true) {r : Res1602}
    (hr : parse1602 (m.drop 7) = .ok r) :
    ∃ (g : AesKeyBinding) (key : Bytes), Issued env (b.system.run env as) a g r.signature key := by
  have hlen := length_of_sent hm
  have hl := linked_boot env b as
  have hhands := hands_handleFrame (w := (b.system.run env as).world a.connection)
    ⟨env, a.out⟩ a.frame
    hl hv
  have hworld : ((b.system.run env as).step env a).world a.connection =
      (handleFrame ⟨env, a.out⟩ a.frame ((b.system.run env as).world a.connection)).2 :=
    world_step _ a
  rw [← hworld] at hhands
  obtain ⟨ms, hsent, hall⟩ := hhands.sent
  have hin : m ∈ ms := by rwa [System.sentBy, newSent_eq hsent] at hm
  obtain ⟨der, key, encryptedKey, hholds, hkey, version, signature, code, sv, cn, sn, hversion, hsv,
    hcn, hsn, -, hkeyLen, hsigLen, hsign, rfl⟩ := hall m hin hk
  have hcodes : code = .aesKey ∨ code = .reloginOk :=
    hk.imp (coded_unique (coded_message code _ hversion))
      (coded_unique (coded_message code _ hversion))
  have hid : (parseFrame a.frame).clientId.length = 16 := by
    simp only [parseFrame, List.length_take]
    omega
  obtain ⟨hrid, -, -, hpayload⟩ := parse1602_ok hr
  rw [drop_message code hversion] at hpayload
  obtain ⟨-, -, hsame⟩ := twoFields_inj (hid.trans hrid.symm) hkeyLen hsigLen hpayload
  have hwide := wide_run env b as a.connection
  have hcode : (UInt16.ofNat code.value).toNat = code.value :=
    UInt16.toNat_ofNat_of_lt' (value_lt code)
  obtain rfl : signature = r.signature := hsame
  refine ⟨⟨sv, ⟨cn, hwide.client cn hcn⟩, ⟨sn, hwide.server sn hsn⟩, ⟨_, hid⟩,
    UInt16.ofNat code.value, encryptedKey⟩, key, ⟨version, code, hversion, hcodes, hcode, hm⟩, ?_,
    hv, hsv, hcn, hsn, rfl, der, hholds, hkey⟩
  rw [AesKeyBinding.transcript, hcode, hsign]

/-- What the server has signed by any of its responses. -/
theorem signed_of_sent (hm : m ∈ (b.system.run env as).sentBy env a)
    (hs : signatureOf m = some signature) :
    (∃ f : ServerHello, env.signTranscript f.transcript = some signature) ∨
      ∃ (g : AesKeyBinding) (key : Bytes), Issued env (b.system.run env as) a g signature key := by
  have hworld : ((b.system.run env as).step env a).world a.connection =
      (handleFrame ⟨env, a.out⟩ a.frame ((b.system.run env as).world a.connection)).2 :=
    world_step _ a
  rcases sound_runs env b as a.connection with ⟨hv, ht⟩ | hver
  · -- before the handshake is complete nothing but a hello is signed
    have hlocked : LockedStep env a.frame ((b.system.run env as).world a.connection)
        (handleFrame ⟨env, a.out⟩ a.frame ((b.system.run env as).world a.connection)).2 :=
      locked_handleFrameWith handlers ⟨env, a.out⟩ a.frame hv ht
    obtain ⟨ms, hsent, hmove⟩ := hlocked.move
    have hwelcomes := welcomes_handleFrame ⟨env, a.out⟩ a.frame hv
    obtain ⟨ms', hsent', hall⟩ := hwelcomes.sent
    rw [System.sentBy, hworld] at hm
    have hin : m ∈ ms := by rwa [newSent_eq hsent] at hm
    have hin' : m ∈ ms' := by rwa [newSent_eq hsent'] at hm
    rcases signatureOf_cases hs with ⟨hk, -⟩ | ⟨h8, r, hr, rfl⟩
    · exact (locked_not_keyCoded hmove hin hk).elim
    · obtain ⟨version, signature, hello, hversion, hder, hsig, hsign, rfl⟩ := hall m hin' h8
      obtain ⟨hnonce, -, -, hpayload⟩ := parse1608_ok hr
      rw [drop_message _ hversion] at hpayload
      obtain ⟨-, -, hsame⟩ := twoFields_inj (by simp [hnonce, hello.serverNonce.property]) hder hsig
        hpayload
      exact .inl ⟨hello, by rw [hsign, hsame]⟩
  · have hv : ((b.system.run env as).sessions a.connection).handshake.verified = true :=
      hver.verified
    rcases signatureOf_cases hs with ⟨hk, r, hr, rfl⟩ | ⟨h8, -⟩
    · exact .inr (issued_of_sent hm hk hv hr)
    · obtain ⟨ms, hsent, hall⟩ := (open_handleFrame (w := (b.system.run env as).world a.connection)
        ⟨env, a.out⟩ a.frame hv).sent
      rw [System.sentBy, hworld, newSent_eq hsent] at hm
      obtain ⟨c, hc, hcoded⟩ := (hall m hm).coded
      exact (hc (coded_unique hcoded h8)).elim

end

/-- The signatures in the responses of a run. -/
def released (env : Env) : System → List Arrival → List Bytes
  | _, [] => []
  | s, a :: as => (s.sentBy env a).filterMap signatureOf ++ released env (s.step env a) as

theorem mem_released {env : Env} {s : System} {as : List Arrival} {signature : Bytes}
    (h : signature ∈ released env s as) : ∃ before a after, as = before ++ a :: after ∧
      ∃ m ∈ (s.run env before).sentBy env a, signatureOf m = some signature := by
  induction as generalizing s with
  | nil => exact (List.not_mem_nil h).elim
  | cons a as ih =>
      rcases List.mem_append.mp h with h | h
      · obtain ⟨m, hm, hs⟩ := List.mem_filterMap.mp h
        exact ⟨[], a, as, rfl, m, hm, hs⟩
      · obtain ⟨before, a', after, rfl, hrest⟩ := ih h
        exact ⟨a :: before, a', after, rfl, hrest⟩

/-! ### The client's side -/

section
open ClientDialogue ClientFrames KeyFreshness
variable {σ : Type}

/-- A key that the client has accepted from a response under the handshake in its context. -/
def Vouched (client : ClientEnv σ) (cc : ClientProgram.ClientContext) (frame : ResponseFrame)
    (b64 : Bytes) : Prop :=
  ∃ (r : Res1602) (code : ResCode) (priv key : Bytes), frame.code = code.value ∧
    parse1602 frame.payload = .ok r ∧
    verifyAesKeyBindingSignature client cc.securityVersion cc.clientNonce cc.serverNonce r.clientId
      code.value r.encryptedKey cc.serverPublicKeyDer r.signature = true ∧
    client.oaepDecrypt priv r.encryptedKey = some key ∧ b64 = encodeBase64 key

/-- Every key that is saved comes from the response read right before it. -/
def AllVouched (client : ClientEnv σ) (cc : ClientProgram.ClientContext)
    (es : List ClientProgram.Event) : Prop :=
  ∀ b64, .savedKey b64 ∈ es →
    ∃ frame, [.read frame, .savedKey b64] <:+: es ∧ Vouched client cc frame b64

theorem allVouched_append {client : ClientEnv σ} {cc : ClientProgram.ClientContext}
    {es fs : List ClientProgram.Event} (h : AllVouched client cc es)
    (h' : AllVouched client cc fs) :
    AllVouched client cc (es ++ fs) := by
  intro b64 hb
  rcases List.mem_append.mp hb with hb | hb
  · obtain ⟨frame, hin, hv⟩ := h b64 hb
    exact ⟨frame, hin.trans (List.prefix_append es fs).isInfix, hv⟩
  · obtain ⟨frame, hin, hv⟩ := h' b64 hb
    exact ⟨frame, hin.trans (List.suffix_append es fs).isInfix, hv⟩

theorem allVouched_unsaved {client : ClientEnv σ} {cc : ClientProgram.ClientContext}
    {es : List ClientProgram.Event} (h : ∀ e ∈ es, Unsaved e) : AllVouched client cc es :=
  fun b64 hb => (h _ hb b64 rfl).elim

/-- A part of the call under the handshake in `cc`. -/
def Guarded (client : ClientEnv σ) (cc : ClientProgram.ClientContext)
    (w t : ClientWorld σ) : Prop :=
  identity w.cc = identity cc → identity t.cc = identity cc ∧
    ∃ es, t.trace = w.trace ++ es ∧ AllVouched client cc es

variable {client : ClientEnv σ} {cc : ClientProgram.ClientContext} {w u t : ClientWorld σ}

instance : Std.Refl (Guarded client cc) :=
  ⟨fun _ h => ⟨h, [], by simp, allVouched_unsaved (by simp)⟩⟩

instance : IsTrans (ClientWorld σ) (Guarded client cc) where
  trans _ _ _ h h' hid := by
    obtain ⟨hid, es, hes, hall⟩ := h hid
    obtain ⟨hid, es', hes', hall'⟩ := h' hid
    exact ⟨hid, es ++ es', by rw [hes', hes, List.append_assoc], allVouched_append hall hall'⟩

theorem guarded_of_later (h : Later w t) : Guarded client cc w t := by
  intro hid
  obtain ⟨es, hes, hall⟩ := h.events
  exact ⟨h.identity.trans hid, es, hes, allVouched_unsaved hall⟩

theorem guarded_moves_of {T : Bytes → Prop} (h : Moves Unsaved T w t) : Guarded client cc w t := by
  intro hid
  obtain ⟨es, hes, hall⟩ := h.events
  exact ⟨h.identity.trans hid, es, hes, allVouched_unsaved hall⟩

theorem guarded_moves {α : Type} {T : Bytes → Prop} {x : Client σ α}
    (hx : Keeps (Moves Unsaved T) x) :
    Keeps (Guarded client cc) x := hx.mono fun _ _ => guarded_moves_of

/-- A response that has been read, and the key that it brings. -/
theorem guarded_acceptAesKey {frame : ResponseFrame}
    (hcode : ResCode.ofValue frame.code = some .aesKey ∨
      ResCode.ofValue frame.code = some .reloginOk)
    (hread : u.trace = w.trace ++ [.read frame]) (hsame : identity u.cc = identity w.cc) :
    wp (acceptAesKey client frame) (fun _ t => Guarded client cc w t)
      (fun _ t => Guarded client cc w t)
      u := by
  refine wp_mono (wp_acceptAesKey client frame u) (fun _ t ht hw => ?_) fun _ _ hf => hf.elim
  have hu := hsame.trans hw
  rcases ht with hcalm | ⟨r, priv, key, hr, hv, hkey, -, htrace, -, hid⟩
  · refine ⟨hcalm.identity.trans hu, [.read frame], hcalm.silent.trans hread, ?_⟩
    exact allVouched_unsaved (by simp [Unsaved])
  obtain ⟨hsv, hcn, hsn, hder⟩ := identity_inj hu
  obtain ⟨code, hvalue⟩ : ∃ code : ResCode, frame.code = code.value :=
    hcode.elim (fun h => ⟨_, value_of_ofValue h⟩) fun h => ⟨_, value_of_ofValue h⟩
  refine ⟨hid.trans hu, [.read frame, .savedKey (encodeBase64 key)], ?_, fun b64 hb => ?_⟩
  · rw [htrace, hread, List.append_assoc]
    rfl
  · obtain rfl : b64 = encodeBase64 key := by simpa using hb
    rw [hsv, hcn, hsn, hder, hvalue] at hv
    exact ⟨frame, List.infix_refl _, r, code, priv, key, hvalue, hr, hv, hkey, rfl⟩

theorem guarded_answerManager : Keeps (Guarded client cc) (answerManager client none) := by
  have hread : Keeps (Moves Unsaved (fun _ => False)) (ClientProgram.readResponseFrame client) :=
    keeps_readResponseFrame client fun _ _ h => by cases h
  refine keeps_of_wp fun w => ?_
  refine wp_seq (wp_and (hread.wp w) (wp_readResponseFrame client w)) (fun frame u hu => ?_)
    fun _ u hu => guarded_moves_of hu.1
  obtain ⟨hmoves, htrace⟩ := hu
  by_cases hcode : ResCode.ofValue frame.code = some .aesKey ∨
    ResCode.ofValue frame.code = some .reloginOk
  · rw [dispatch_key client none hcode, wp_bind]
    exact wp_mono (guarded_acceptAesKey hcode htrace hmoves.identity)
      (fun _ _ ht => (wp_pure _).mpr ht)
      fun _ _ ht => ht
  · rw [not_or] at hcode
    have hplain : Keeps (Moves Unsaved (Around ClientProgram.kMeInfo))
        (dispatch client none frame) :=
      keeps_dispatch_plain client none hcode.1 hcode.2 fun _ h => h
    have hstart : Guarded client cc w u := guarded_moves_of hmoves
    exact wp_mono (hplain.wp u) (fun _ _ ht => trans_of (Guarded client cc) hstart
      (guarded_moves_of ht))
      fun _ _ ht => trans_of (Guarded client cc) hstart (guarded_moves_of ht)

theorem guarded_failWith (text : String) :
    Keeps (Guarded client cc) (failWith text : Client σ Bool) :=
  keeps_bind (guarded_moves (T := fun _ => False) (keeps_setError _)) fun _ => keeps_pure _

theorem guarded_exchangeKeys (key : Bytes) :
    Keeps (Guarded client cc) (exchangeKeys client key) := by
  refine keeps_bind (keeps_attempt ?_ fun e => guarded_failWith e) fun made =>
    keeps_ite (keeps_pure _) ?_
  · exact keeps_bind ((later_makingRSAkeys client key).mono fun _ _ h => guarded_of_later h)
      fun _ => keeps_pure _
  · exact keeps_bind guarded_answerManager fun _ => keeps_pure _

theorem guarded_signOn : Keeps (Guarded client cc) (signOn client) :=
  keeps_bind keeps_look fun _ =>
    keeps_bind ((later_request825 client _).mono fun _ _ h => guarded_of_later h) fun _ =>
      keeps_bind guarded_answerManager fun _ => keeps_ite (keeps_pure _) (guarded_exchangeKeys _)

theorem guarded_enter (stored : Option ClientProgram.StoredIdentity) :
    Keeps (Guarded client cc) (enter client stored) := by
  cases stored with
  | none => exact guarded_signOn
  | some stored =>
      refine keeps_bind keeps_look fun _ => keeps_ite ?_ ?_
      · exact keeps_bind (guarded_moves (T := fun _ => False) (keeps_setError _)) fun _ =>
          keeps_pure _
      refine keeps_bind (fun _ hid => ⟨hid, [], by simp [ClientProgram.onContext, update],
        allVouched_unsaved (by simp)⟩) fun _ =>
          keeps_bind ((later_request827 client _ _).mono fun _ _ h => guarded_of_later h) fun _ =>
          keeps_bind guarded_answerManager fun r => ?_
      obtain ⟨step, ok⟩ := r
      cases step with
      | none => exact keeps_pure _
      | needRegister => exact guarded_signOn
      | fatal => exact keeps_pure _
      | needSendPublicKey =>
          refine keeps_bind ((later_readPrivateKey client).mono fun _ _ h => guarded_of_later h)
            fun priv => ?_
          cases priv with
          | none => exact guarded_failWith _
          | some key => exact guarded_exchangeKeys key

theorem guarded_loadAesKey : Keeps (Guarded client cc) (loadAesKey client) := by
  refine keeps_bind (guarded_moves (T := fun _ => False) (keeps_readLine client _)) fun key => ?_
  cases key with
  | none =>
      exact keeps_bind (guarded_moves (T := fun _ => False) (keeps_setError _)) fun _ =>
        keeps_pure _
  | some key => exact keeps_pure _

/-- Nothing is saved. -/
def Saveless (w t : ClientWorld σ) : Prop := ∃ es, t.trace = w.trace ++ es ∧ ∀ e ∈ es, Unsaved e

instance : Std.Refl (Saveless (σ := σ)) := ⟨fun _ => ⟨[], by simp, by simp⟩⟩

instance : IsTrans (ClientWorld σ) Saveless where
  trans _ _ _ h h' := by
    obtain ⟨es, hes, hall⟩ := h
    obtain ⟨es', hes', hall'⟩ := h'
    refine ⟨es ++ es', by rw [hes', hes, List.append_assoc], fun e he => ?_⟩
    exact (List.mem_append.mp he).elim (hall e) (hall' e)

theorem saveless_moves {α : Type} {T : Bytes → Prop} {x : Client σ α}
    (hx : Keeps (Moves Unsaved T) x) : Keeps Saveless x := hx.mono fun _ _ h => h.events

theorem saveless_handshake : Keeps Saveless (executeServerIdentityHandshake client) := by
  have hwrite (m : Bytes) : Keeps Saveless (ClientProgram.writeLogged client (.ok m)) :=
    saveless_moves (T := fun _ => False) (keeps_writeLogged client fun _ _ _ h => by cases h)
  have hfail (text : String) : Keeps Saveless (failWith text : Client σ Bool) :=
    keeps_bind (saveless_moves (T := fun _ => False) (keeps_setError _)) fun _ => keeps_pure _
  refine keeps_bind (saveless_moves (T := fun _ => False) keeps_tick) fun n =>
    keeps_bind (hwrite _) fun _ => keeps_bind (keeps_attempt ?_ fun _ => keeps_pure _)
      fun verified =>
      keeps_ite (keeps_bind (hwrite _) fun _ => keeps_pure _) (keeps_pure _)
  refine keeps_bind (saveless_moves (T := fun _ => False)
    (keeps_readResponseFrame client fun _ _ h => by cases h)) fun frame => keeps_ite (hfail _) ?_
  refine keeps_ofExcept_bind fun hello _ => ?_
  cases validateServerHelloPayload hello with
  | some text => exact hfail _
  | none =>
      refine keeps_ite (hfail _)
        (keeps_bind (saveless_moves ((moves_trust client _).mono fun _ _ h =>
        h.mono (fun _ hf => hf.elim) fun _ hn => hn)) fun trusted => keeps_ite (keeps_pure _) ?_)
      exact keeps_bind (fun _ => ⟨[], by simp [ClientProgram.onContext, update], by simp⟩) fun _ =>
        keeps_pure _

/-- What the client has of a key that it has saved in a call. -/
structure Kept (client : ClientEnv σ) (w t : ClientWorld σ) (frame : ResponseFrame) (b64 : Bytes) :
    Prop where
  vouched : Vouched client t.cc frame b64
  clientNonce : t.cc.clientNonce = (client.nonce w.calls).val
  serverNonce : t.cc.serverNonce.length = 32

/-- Every key that the events save comes from a response that a call has read. -/
def AllKept (client : ClientEnv σ) (w t : ClientWorld σ) (es : List ClientProgram.Event) : Prop :=
  ∀ b64, .savedKey b64 ∈ es →
    ∃ frame, [.read frame, .savedKey b64] <:+: es ∧ Kept client w t frame b64

theorem vouched_identity {cc' : ClientProgram.ClientContext} {frame : ResponseFrame} {b64 : Bytes}
    (h : identity cc' = identity cc) (hv : Vouched client cc frame b64) :
    Vouched client cc' frame b64 := by
  obtain ⟨hsv, hcn, hsn, hder⟩ := identity_inj h
  unfold Vouched
  rw [hsv, hcn, hsn, hder]
  exact hv

/-- After the handshake every key is vouched for. -/
theorem wp_afterHandshake {u : ClientWorld σ} {frame : ResponseFrame} {hello : Res1608}
    (hg : Greets client w u frame hello) (hu : Saveless w u) :
    let P := fun t : ClientWorld σ => ∃ es, t.trace = w.trace ++ es ∧ AllKept client w t es
    wp (do
        let stored ← ClientProgram.readMeInfo client
        let ok ← enter client stored
        if ok then loadAesKey client else pure none)
      (fun _ t => P t) (fun _ t => P t) u := by
  intro P
  have hkeeps : Keeps (Guarded client u.cc) (do
      let stored ← ClientProgram.readMeInfo client
      let ok ← enter client stored
      if ok then loadAesKey client else pure none) :=
    keeps_bind (guarded_moves (T := fun _ => False) (keeps_readMeInfo client)) fun stored =>
      keeps_bind (guarded_enter stored) fun ok => keeps_ite guarded_loadAesKey (keeps_pure _)
  refine wp_state.mpr ?_
  obtain ⟨hid, es, hes, hall⟩ := hkeeps u rfl
  obtain ⟨before, hbefore, hnone⟩ := hu
  have hidentity := hid.trans hg.identity
  simp only [ClientFrames.identity, Prod.mk.injEq] at hidentity
  refine ⟨before ++ es, by rw [hes, hbefore, List.append_assoc], fun b64 hb => ?_⟩
  rcases List.mem_append.mp hb with hb | hb
  · exact (hnone _ hb b64 rfl).elim
  · obtain ⟨frame, hin, hv⟩ := hall b64 hb
    refine ⟨frame, hin.trans (List.suffix_append before es).isInfix, vouched_identity hid hv,
      hidentity.2.1, ?_⟩
    rw [hidentity.2.2.1]
    exact (parse1608_ok hg.parses).1

theorem wp_connectAndHandshake (client : ClientEnv σ) (connects : Bool) (w : ClientWorld σ) :
    let P := fun t : ClientWorld σ => ∃ es, t.trace = w.trace ++ es ∧ AllKept client w t es
    wp (connectAndHandshake client connects) (fun _ t => P t) (fun _ t => P t) w := by
  intro P
  have hnone {t : ClientWorld σ} (h : Saveless w t) : P t := by
    obtain ⟨es, hes, hall⟩ := h
    exact ⟨es, hes, fun b64 hb => (hall _ hb b64 rfl).elim⟩
  have hset (text : Bytes) : Keeps Saveless (ClientProgram.setError text : Client σ Unit) :=
    saveless_moves (T := fun _ => False) (keeps_setError _)
  rw [connectAndHandshake, wp_bind, ClientProgram.setError, ClientProgram.onContext, wp_update]
  generalize hx : ({ w with cc := { w.cc with lastErrorText := [] } } : ClientWorld σ) = x
  have hstart : Saveless w x := hx ▸ hset [] w
  refine wp_branch (fun _ => ?_) fun _ => ?_
  · exact wp_state.mpr (hnone (trans_of Saveless hstart
      (keeps_bind (hset _) (fun _ => keeps_pure _) x)))
  have hshake : wp (executeServerIdentityHandshake client)
      (fun ok u => Saveless x u ∧ (ok = true → ∃ frame hello, Greets client w u frame hello))
      (fun _ u => Saveless x u) x := by
    refine wp_mono (wp_and (saveless_handshake.wp x) ((wp_result (P := fun r u => r = .ok true →
      ∃ frame hello, Greets client w u frame hello)).mpr ?_)) ?_ fun _ _ h => h.1
    · intro hok
      obtain ⟨frame, hello, hg⟩ := handshake_greets (Prod.ext hok rfl)
      rw [← hx] at hg ⊢
      exact ⟨frame, hello, hg.trace, hg.code, hg.parses, hg.verified, hg.identity, hg.files⟩
    · rintro ok u ⟨hu, hg⟩
      exact ⟨hu, fun hok => hg (congrArg Except.ok hok)⟩
  refine wp_seq hshake (fun ok u hu => ?_) fun _ _ h => hnone (trans_of Saveless hstart h)
  obtain ⟨hu, hg⟩ := hu
  have hwu := trans_of Saveless hstart hu
  cases ok with
  | false => exact (wp_pure _).mpr (hnone hwu)
  | true =>
      obtain ⟨frame, hello, hg⟩ := hg rfl
      exact wp_afterHandshake hg hwu

end

/-! ### Both sides -/

theorem keys_of_holds {st : Store} {idHex : String} {der key : Bytes} (h : Holds st idHex der key) :
    StoreKey st idHex key ∧ (publicKeyOf st idHex).isSome = true := by
  obtain ⟨record, b64, hfind, hpub, haes, hdecode⟩ := h
  refine ⟨⟨b64, ?_, hdecode⟩, ?_⟩
  · rw [aesKeyOf_book, hfind, Option.bind_some, haes]
  · rw [publicKeyOf_book, hfind, Option.bind_some, hpub]
    rfl

/-- A signature that verifies under the server's key stands in one of the server's responses. -/
def Unforged {σ : Type} (env : Env) (client : ClientEnv σ) (s : System)
    (as : List Arrival) : Prop :=
  ∀ transcript signature, client.verifyMessage env.serverPublicKeyDer transcript signature = true →
    signature ∈ released env s as

/-- Decryption gives what was encrypted or nothing. -/
def OpensWhatWasSealed {σ : Type} (env : Env) (client : ClientEnv σ) : Prop :=
  ∀ der key encryptedKey priv key', env.oaepEncrypt der key = some encryptedKey →
    client.oaepDecrypt priv encryptedKey = some key' → key' = key

/-- A response that the client has read carries the fields that were signed. -/
structure Carries (frame : ResponseFrame) (r : Res1602) (g : AesKeyBinding) : Prop where
  code : frame.code = g.responseCode.toNat
  parses : parse1602 frame.payload = .ok r
  clientId : r.clientId = g.clientId.val
  encryptedKey : r.encryptedKey = g.encryptedKey

/-- Over any network, for every run of the server and every call of
`connect_and_handshake`: for a key that the call saves, if it trusts the server's public
key, the server has sent a 1602 or 1605 with the client id, the wrapped key and the
signature of the response that the call has read, in a session with the nonces of the
call, and the store held that key for that client then and holds it until its next relogin. -/
theorem saved_keys_authentic {σ : Type} (env : Env) (b : Boot) (as : List Arrival)
    (client : ClientEnv σ) (hideal : SignsIdeally env client env.serverPublicKeyDer)
    (hunforged : Unforged env client b.system as) (hopens : OpensWhatWasSealed env client)
    (connects : Bool) (w t : ClientWorld σ) (result : Except String (Option Bytes))
    (hcall : ClientDialogue.connectAndHandshake client connects w = (result, t))
    (htrust : t.cc.serverPublicKeyDer = env.serverPublicKeyDer) (b64 : Bytes)
    (hsaved : .savedKey b64 ∈ t.trace.drop w.trace.length) :
    ∃ frame r g before a after key, [.read frame, .savedKey b64] <:+: t.trace.drop w.trace.length ∧
      Carries frame r g ∧ as = before ++ a :: after ∧
      Issued env (b.system.run env before) a g r.signature key ∧
      g.clientNonce = client.nonce w.calls ∧ g.serverNonce.val = t.cc.serverNonce ∧
      b64 = encodeBase64 key ∧
      ∀ more, Unrotated env (b.system.run env (before ++ [a])) (hex g.clientId.val) more →
        StoreKey (b.system.run env (before ++ [a] ++ more)).store (hex g.clientId.val) key := by
  have hrun := wp_state.mp (wp_connectAndHandshake client connects w)
  rw [hcall] at hrun
  obtain ⟨es, hes, hall⟩ := hrun
  rw [hes, List.drop_left] at hsaved ⊢
  obtain ⟨frame, hin, ⟨r, code, priv, key, hread, hparse, hverify, hdecrypt, rfl⟩, hcn, hsn⟩ :=
    hall b64 hsaved
  have hid : r.clientId.length = 16 := (parse1602_ok hparse).1
  -- the fields that the client has checked
  let own : AesKeyBinding := ⟨t.cc.securityVersion, client.nonce w.calls, ⟨t.cc.serverNonce, hsn⟩,
    ⟨r.clientId, hid⟩, UInt16.ofNat code.value, r.encryptedKey⟩
  have hcode : (UInt16.ofNat code.value).toNat = code.value :=
    UInt16.toNat_ofNat_of_lt' (value_lt code)
  have hown : client.verifyMessage env.serverPublicKeyDer own.transcript r.signature = true := by
    rw [AesKeyBinding.transcript, hcode]
    rw [htrust, hcn] at hverify
    exact hverify
  obtain ⟨before, a, after, rfl, m, hm, hsignature⟩ := mem_released (hunforged _ _ hown)
  rcases signed_of_sent hm hsignature with ⟨f, hsign⟩ | ⟨g, key', hissued⟩
  · exact (hello_ne_binding f own (hideal _ _ hsign _ hown).symm).elim
  · obtain rfl : own = g := binding_injective (hideal _ _ hissued.signed _ hown)
    obtain ⟨der, hholds, hencrypt⟩ := hissued.wraps
    obtain rfl : key = key' := hopens der key' _ priv key hencrypt hdecrypt
    refine ⟨frame, r, own, before, a, after, key, hin,
      ⟨hread.trans hcode.symm, hparse, rfl, rfl⟩, rfl, hissued, rfl, rfl, rfl, fun more hno => ?_⟩
    obtain ⟨hstored, hpublic⟩ := keys_of_holds hholds
    rw [← run_snoc] at hstored hpublic
    exact (storeKey_run hpublic hstored hno).1

/-! ### A registration over an honest network -/

/-- A scheme whose signatures are the messages and whose ciphertexts begin with the key. -/
def openEnv : Env where
  config := {}
  rsaImport _ := some { hasPrivate := false, sizeInBits := 2048, e := 65537 }
  oaepEncrypt _ key := if key.length = 32 then some (key ++ List.replicate 224 0) else none
  signTranscript transcript := some transcript
  serverPublicKeyDer := List.replicate 166 7
  aesDecrypt _ block := block
  isAlnum c := c.isAlphanum
  repr name := name

def bobNonce : Nonce := ⟨List.replicate 32 4, List.length_replicate⟩

/-- The id that the server draws. -/
def bobId : ClientId := ⟨(calm.uuid4 0).val, (calm.uuid4 0).property⟩

/-- The key that the server draws, in Base64. -/
def bobKeyText : Bytes := encodeBase64 (calm.randomBytes 6 32).val

/-- A hello, its acknowledgement, a registration and a public key. -/
def bobFrames : List Bytes :=
  [build829ClientHello bobNonce, build830ClientHandshakeAck, build825Register (utf8Encode "bob"),
    build826PublicKey bobId (utf8Encode "bob") (encodeBase64 [2])]

def bobArrivals : List Arrival := bobFrames.map fun frame => onConnection 0 (calm, frame)

/-- The bytes that the server answers to the frame with this number. -/
def bobHears (n : ℕ) : Bytes :=
  match bobArrivals[n]? with
  | some a => ((aliceBoot.system.run openEnv (bobArrivals.take n)).sentBy openEnv a).flatten
  | none => []

def bobClient : ClientEnv ℕ where
  sha256Hex _ := utf8Encode "00"
  verifyMessage _ transcript signature :=
    transcript = signature ∧ signature ∈ released openEnv aliceBoot.system bobArrivals
  oaepDecrypt _ ciphertext := some (ciphertext.take 32)
  publicOf _ := none
  aesEncrypt _ block := block
  newKeypair _ := some ([1], [2])
  nonce _ := bobNonce
  makeIv _ := ⟨List.replicate 16 8, List.length_replicate⟩
  writeRaises _ := false
  fileFails _ := false
  hears _ n := (n + 1, bobHears n)
  speaks n := (n, [])

def bobWorld : ClientWorld ℕ where
  cc := { username := utf8Encode "bob" }
  files _ := none
  incoming := []
  peer := 0
  trace := []
  calls := 0

/-- The call and what it leaves. -/
def bobCall : Except String (Option Bytes) × ClientWorld ℕ :=
  ClientDialogue.connectAndHandshake bobClient true bobWorld

/-- The call writes the frames that the server has handled and ends with the key that the server
has sent. -/
theorem saved_keys_authentic_bob : (∀ frame ∈ bobFrames, .wrote frame ∈ bobCall.2.trace) ∧
    bobCall.1 = .ok (some bobKeyText) ∧
    ∃ frame r g before a after key, [.read frame, .savedKey bobKeyText] <:+: bobCall.2.trace ∧
      Carries frame r g ∧ bobArrivals = before ++ a :: after ∧
      Issued openEnv (aliceBoot.system.run openEnv before) a g r.signature key ∧
      g.clientNonce = bobNonce ∧ g.serverNonce.val = bobCall.2.cc.serverNonce ∧
      bobKeyText = encodeBase64 key := by
  obtain ⟨hwrote, hresult, htrust, hsaved⟩ : (∀ frame ∈ bobFrames, .wrote frame ∈ bobCall.2.trace) ∧
      bobCall.1 = .ok (some bobKeyText) ∧
      bobCall.2.cc.serverPublicKeyDer = openEnv.serverPublicKeyDer ∧
      .savedKey bobKeyText ∈ bobCall.2.trace.drop bobWorld.trace.length := by
    decide +kernel
  have hideal : SignsIdeally openEnv bobClient openEnv.serverPublicKeyDer := by
    intro transcript signature hs other hv
    rw [Option.some.inj hs]
    exact (of_decide_eq_true hv).1
  have hunforged : Unforged openEnv bobClient aliceBoot.system bobArrivals :=
    fun _ _ hv => (of_decide_eq_true hv).2
  have hopens : OpensWhatWasSealed openEnv bobClient := by
    intro der key encryptedKey priv key' he hd
    simp only [openEnv] at he
    split_ifs at he with hlen
    cases he
    cases hd
    rw [← hlen, List.take_left]
  have hcall : ClientDialogue.connectAndHandshake bobClient true bobWorld =
      (bobCall.1, bobCall.2) := by
    rw [Prod.mk.eta, bobCall]
  obtain ⟨frame, r, g, before, a, after, key, hin, hcarries, has, hissued, hcn, hsn, hkey, -⟩ :=
    saved_keys_authentic openEnv aliceBoot bobArrivals bobClient hideal hunforged hopens
      true bobWorld
      bobCall.2 bobCall.1 hcall htrust bobKeyText hsaved
  exact ⟨hwrote, hresult, frame, r, g, before, a, after, key, hin, hcarries, has, hissued, hcn, hsn,
    hkey⟩

end Seftp.KeyAuthenticity
