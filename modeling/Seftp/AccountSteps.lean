import Seftp.UploadSteps

/-!
# When account requests return

Requests 825, 826 and 827 raise only for what lies outside them: a response that
cannot be sent, a failing database, a library that raises, or data that does not
decode. The conditions below are read off the handlers, and under them every
request returns.
-/
namespace Seftp.AccountSteps
open LittleEndian ExceptState OutsideWorld Text Protocol ClientStore StoreFrames ServerSession
open Answers SessionFrames AccountHandlers HandlerFrames UploadSteps

/-- The calls to the cryptographic library succeed, with results that fit their
length fields. -/
structure LibraryWorks (env : Env) : Prop where
  sign : ∀ transcript, ∃ signature, env.signTranscript transcript = some signature ∧
    signature.length ≤ 65535
  encrypt : ∀ der key rsa, env.rsaImport der = some rsa →
    ∃ ciphertext, env.oaepEncrypt der key = some ciphertext ∧ ciphertext.length ≤ 65535

/-- The handshake is complete. -/
structure Verified (h : Handshake) : Prop where
  verified : h.verified = true
  clientNonce : h.clientNonce.isSome
  serverNonce : h.serverNonce.isSome
  securityVersion : h.securityVersion.isSome

/-- A registration finds a free name and a free id. -/
structure Smooth825 (ctx : Ctx) (payload : Bytes) (w : World) : Prop where
  connected : w.store.connected = true
  decodes : (utf8Decode (rstripNul payload)).isSome
  free : ∀ name ∈ utf8Decode (rstripNul payload), isValidUsername ctx.env name = true →
    w.store.clientExistsByUsername name = false →
    (w.store.working.insertClient (newClient ctx.out w.store.calls name)).isSome

/-- A key enrolment whose stored key decodes and whose report fits. -/
structure Smooth826 (ctx : Ctx) (clientId payload : Bytes) (w : World) : Prop where
  library : LibraryWorks ctx.env
  report : ∀ record ∈ w.store.getClientById (hex clientId), ∀ text,
    parse826 ctx.env record.username payload = .error text → Short text
  stored : ∀ record ∈ w.store.getClientById (hex clientId), ∀ b64 ∈ record.aesKeyB64,
    (b64decode false b64).isSome

section
variable {ctx : Ctx} {w : World} {clientId version : Bytes}

/-- A single-column update inside a handler. -/
theorem setField_answering (h : Answering ctx w clientId version) (idHex : String)
    (f : ClientField) :
    wp (onStore (setClientField ctx.out idHex f))
      (fun _ u => Answering ctx u clientId version ∧ u.session = w.session)
      (fun _ _ => False) w := by
  rw [onStore, wp_zoom]
  apply wp_mono (wp_and (indexed_setClientField.wp w.store)
    (setClientField_returns h.sql h.indexed))
  · rintro _ st ⟨hst, -⟩
    exact ⟨{ h with indexed := hst h.indexed }, rfl⟩
  · exact fun _ _ h => h.2

theorem touch_answering (h : Answering ctx w clientId version) (idHex : String) :
    wp (onStore (touchClientLastSeen ctx.out idHex))
      (fun _ u => Answering ctx u clientId version ∧ u.session = w.session)
      (fun _ _ => False) w := by
  have hf := setField_answering h idHex (.lastSeen (ctx.out.now w.store.calls))
  rw [onStore, wp_zoom] at hf ⊢
  rwa [touchClientLastSeen, wp_bind, wp_fetch]

theorem log_answering (h : Answering ctx w clientId version) (key : LogKey) (event : String) :
    wp (logEvent ctx key event)
      (fun _ u => Answering ctx u clientId version ∧ u.session = w.session)
      (fun _ _ => False) w := by
  rw [logEvent, wp_update]
  exact ⟨{ h with indexed := h.indexed }, rfl⟩

/-- A message that fits is sent. -/
theorem sendMessage_returns (h : Answering ctx w clientId version) (code : ResCode)
    (payload : Bytes) (hp : payload.length < 256 ^ 4) :
    wp (do
        let m ← ofExcept (messageAnswer version code payload.length payload)
        send ctx m) (fun _ _ => True) (fun _ _ => False) w := by
  have hm : messageAnswer version code payload.length payload =
      .ok (message version code payload) :=
    messageAnswer_ok.mpr ⟨h.version, rfl, hp, rfl⟩
  rw [hm, wp_bind, wp_ofExcept_ok]
  exact send_returns h.sends

theorem answer1600_returns {newId : Bytes} (h : Answering ctx w clientId version)
    (hid : newId.length = 16) :
    wp (answer1600 ctx newId version) (fun _ _ => True) (fun _ _ => False) w := by
  apply wp_then (log_answering h _ _)
  rintro _ u ⟨hu, -⟩
  have hsend := sendMessage_returns hu .registerOk newId (by omega)
  rwa [hid] at hsend

theorem answer1601_returns (h : Answering ctx w clientId version) :
    wp (answer1601 ctx version) (fun _ _ => True) (fun _ _ => False) w :=
  sendMessage_returns h .registerFail [] (by decide)

theorem answer1606_returns {id : Bytes} (h : Answering ctx w clientId version)
    (hid : id.length = 16) (name : String) :
    wp (answer1606 ctx id version name) (fun _ _ => True) (fun _ _ => False) w := by
  have hm : messageAnswer version .reloginFail 16 id = .ok (message version .reloginFail id) :=
    messageAnswer_ok.mpr ⟨h.version, hid.symm, by omega, rfl⟩
  rw [answer1606, hm, wp_bind, wp_ofExcept_ok]
  split_ifs
  · apply wp_then (log_answering h _ _)
    exact fun _ u hu => send_returns hu.1.sends
  · apply wp_then (log_answering h _ _)
    rintro _ u ⟨hu, -⟩
    apply wp_then (touch_answering hu _)
    exact fun _ v hv => send_returns hv.1.sends

theorem answerAesKey_returns (h : Answering ctx w clientId version) (hl : LibraryWorks ctx.env)
    (hv : Verified w.session.handshake) (code : ResCode) (event : String) {key : Bytes}
    (hk : key.length ≤ 65535) :
    wp (answerAesKey ctx code event key clientId version) (fun _ _ => True)
      (fun _ _ => False) w := by
  obtain ⟨cn, hcn⟩ := Option.isSome_iff_exists.mp hv.clientNonce
  obtain ⟨sn, hsn⟩ := Option.isSome_iff_exists.mp hv.serverNonce
  obtain ⟨sv, hsv⟩ := Option.isSome_iff_exists.mp hv.securityVersion
  obtain ⟨signature, hg, hlen⟩ :=
    hl.sign (aesKeyBindingTranscript sv cn sn clientId code.value key)
  have hpayload : buildBoundAesKeyPayload ctx.env w.session.handshake key clientId code =
      .ok (clientId ++ leBytes 2 key.length ++ key ++ leBytes 2 signature.length ++ signature) := by
    simp only [buildBoundAesKeyPayload, hv.verified, Bool.not_true, Bool.false_eq_true, if_false,
      hsv, hcn, hsn, sign, hg, bind, Except.bind]
    rw [if_neg (by omega), if_neg (by omega)]
  have hsize : (clientId ++ leBytes 2 key.length ++ key ++ leBytes 2 signature.length ++
      signature).length < 256 ^ 4 := by
    have := h.clientId
    simp only [List.length_append, length_leBytes]
    omega
  generalize clientId ++ leBytes 2 key.length ++ key ++ leBytes 2 signature.length ++ signature =
    payload at hpayload hsize
  have hm : messageAnswer version code payload.length payload =
      .ok (message version code payload) :=
    messageAnswer_ok.mpr ⟨h.version, rfl, hsize, rfl⟩
  rw [answerAesKey, wp_bind, wp_look, hpayload, wp_bind, wp_ofExcept_ok, hm, wp_bind,
    wp_ofExcept_ok]
  apply wp_then (touch_answering h _)
  rintro _ u ⟨hu, -⟩
  apply wp_then (log_answering hu _ _)
  exact fun _ v hv => send_returns hv.1.sends

theorem freshAesKey_answering (h : Answering ctx w clientId version) (idHex : String) :
    wp (freshAesKey ctx idHex)
      (fun _ u => Answering ctx u clientId version ∧ u.session = w.session)
      (fun _ _ => False) w := by
  rw [freshAesKey, wp_bind, wp_look]
  apply wp_then (setField_answering h _ _)
  intro _ u hu
  rw [wp_pure]
  exact hu

/-- A key is wrapped and sent. -/
theorem wrapKey_returns (h : Answering ctx w clientId version) (hl : LibraryWorks ctx.env)
    (hv : Verified w.session.handshake) (code : ResCode) (event : String) {der : Bytes}
    {rsa : RsaKey} (hr : ctx.env.rsaImport der = some rsa) (key : Bytes) :
    wp (do
        let ciphertext ← ofExcept (encryptKey ctx.env der key)
        answerAesKey ctx code event ciphertext clientId version)
      (fun _ _ => True) (fun _ _ => False) w := by
  obtain ⟨ciphertext, he, hlen⟩ := hl.encrypt der key rsa hr
  rw [encryptKey, he, wp_bind, wp_ofExcept_ok]
  exact answerAesKey_returns h hl hv code event hlen

theorem freshWrap_returns (h : Answering ctx w clientId version) (hl : LibraryWorks ctx.env)
    (hv : Verified w.session.handshake) (code : ResCode) (event idHex : String) {der : Bytes}
    {rsa : RsaKey} (hr : ctx.env.rsaImport der = some rsa) :
    wp (do
        let key ← freshAesKey ctx idHex
        let ciphertext ← ofExcept (encryptKey ctx.env der key)
        answerAesKey ctx code event ciphertext clientId version)
      (fun _ _ => True) (fun _ _ => False) w := by
  apply wp_then (freshAesKey_answering h idHex)
  rintro key u ⟨hu, hs⟩
  exact wrapKey_returns hu hl (hs ▸ hv) code event hr key

/-- A registration keeps the index complete. -/
theorem indexed_register {st : Store} {r : ClientRecord} {db : Database} (n : ℕ)
    (hdb : st.working.insertClient r = some db) (hi : (StoreFrames.core st).Indexed) :
    (StoreFrames.core (Store.indexPut { st with calls := n, working := db, committed := db }
      r)).Indexed := by
  obtain ⟨-, -, hclients, -⟩ := insertClient_some hdb
  rw [indexed_iff] at hi ⊢
  intro idHex hid
  change idHex ∈ db.clients.map ClientRecord.clientIdHex at hid
  rw [hclients, List.map_append, List.mem_append] at hid
  change (Function.update st.clientsById r.clientIdHex _ idHex).isSome = true
  rw [Function.update_apply]
  split_ifs with he
  · rfl
  · rcases hid with hid | hid
    · exact hi idHex hid
    · exact (he (by simpa using hid)).elim

theorem request825_returns {payload : Bytes} (h : Answering ctx w clientId version)
    (hs : Smooth825 ctx payload w) :
    wp (request825 ctx payload version) (fun _ _ => True) (fun _ _ => False) w := by
  obtain ⟨name, hname⟩ := Option.isSome_iff_exists.mp hs.decodes
  rw [request825, hname, wp_bind, wp_look]
  split_ifs with hvalid hknown
  · exact answer1601_returns h
  · exact answer1601_returns h
  obtain ⟨db, hdb⟩ := Option.isSome_iff_exists.mp
    (hs.free name hname (by simpa using hvalid) (by simpa using hknown))
  have hcreate : wp (onStore (createClient ctx.out name))
      (fun r u => r = some (newClient ctx.out w.store.calls name) ∧
        Answering ctx u clientId version) (fun _ _ => False) w := by
    simp only [onStore, wp_zoom, createClient, wp_bind, wp_fetch, wp_ite, wp_execute, wp_commit,
      h.sql _, hs.connected, hdb, wp_pure, wp_update, Option.map_some, Bool.false_eq_true, if_false,
      Bool.not_true]
    exact ⟨trivial, { h with indexed := indexed_register (w.store.calls + 2) hdb h.indexed }⟩
  apply wp_then hcreate
  rintro _ u ⟨rfl, hu⟩
  simp only [newClient, fromHex_hex]
  rw [wp_bind, moveRecentLog, wp_update]
  rcases u.store.recentLog (.name name) with _ | past
  · apply wp_then (log_answering hu _ _)
    rintro _ v ⟨hv, -⟩
    exact answer1600_returns hv (ctx.out.uuid4 w.store.calls).property
  · have hmoved (log : LogKey → Option (List (String × String))) :
        Answering ctx (u.setStore { u.store with recentLog := log }) clientId version :=
      { hu with indexed := hu.indexed }
    apply wp_then (log_answering (hmoved _) _ _)
    rintro _ v ⟨hv, -⟩
    exact answer1600_returns hv (ctx.out.uuid4 w.store.calls).property

theorem request826_returns {payload : Bytes} (h : Answering ctx w clientId version)
    (hv : Verified w.session.handshake) (hs : Smooth826 ctx clientId payload w) :
    wp (request826 ctx clientId payload version) (fun _ _ => True) (fun _ _ => False) w := by
  have hshort (text : String) (ht : Short text) {u : World}
      (hu : Answering ctx u clientId version) :
      wp (answer1607 ctx clientId version text) (fun _ _ => True) (fun _ _ => False) u :=
    answer1607_returns hu ht
  rw [request826, wp_bind, wp_look]
  rcases hrec : w.store.getClientById (hex clientId) with _ | record
  · exact hshort _ (by decide +kernel) h
  apply wp_then (touch_answering h _)
  rintro _ u ⟨hu, hus⟩
  apply wp_then (log_answering hu _ _)
  rintro _ v ⟨hva, hvs⟩
  rcases hparse : parse826 ctx.env record.username payload with text | ⟨name, der⟩
  · exact hshort text (hs.report record hrec text hparse) hva
  -- the `try` block never raises; where it accepts, the key could be imported
  have hcheck : wp (attempt (checkPublicKey ctx clientId version name der) fun _ => do
        answer1607 ctx clientId version "Invalid RSA public key"
        pure false)
      (fun ok x => ok = true → x = v ∧ ∃ rsa, ctx.env.rsaImport der = some rsa)
      (fun _ _ => False) v := by
    rw [wp_attempt, checkPublicKey]
    rcases hr : ctx.env.rsaImport der with _ | rsa
    · rw [wp_raise]
      apply wp_then (hshort _ (by decide +kernel) hva)
      intro _ x _
      rw [wp_pure]
      exact fun h => Bool.noConfusion h
    · dsimp only
      split_ifs
      · apply wp_then (answer1606_returns hva hva.clientId name)
        intro _ x _
        rw [wp_pure]
        exact fun h => Bool.noConfusion h
      · rw [wp_pure]
        exact fun _ => ⟨rfl, rsa, rfl⟩
  apply wp_then hcheck
  intro ok x hok
  rcases ok with _ | _
  · simp only [Bool.false_eq_true, if_false, wp_pure]
  obtain ⟨rfl, rsa, hr⟩ := hok rfl
  have hxv : Verified x.session.handshake := by rw [hvs, hus]; exact hv
  simp only [if_true]
  unfold enrollKey
  rcases record.publicKeyDer with _ | stored
  · apply wp_then (setField_answering hva _ _)
    rintro _ y ⟨hy, hys⟩
    exact freshWrap_returns hy hs.library (hys ▸ hxv) .aesKey "answer_1602" _ hr
  · dsimp only
    split_ifs
    · exact hshort _ (by decide +kernel) hva
    rcases hb : record.aesKeyB64 with _ | b64
    · exact freshWrap_returns hva hs.library hxv .aesKey "answer_1602" _ hr
    · obtain ⟨key, hkey⟩ := Option.isSome_iff_exists.mp (hs.stored record hrec b64 hb)
      simp only [hkey]
      exact wrapKey_returns hva hs.library hxv .aesKey "answer_1602" hr key

theorem request827_returns {payload : Bytes} (h : Answering ctx w clientId version)
    (hv : Verified w.session.handshake) (hl : LibraryWorks ctx.env) :
    wp (request827 ctx clientId payload version) (fun _ _ => True) (fun _ _ => False) w := by
  have hzero : zeroClientId.val.length = 16 := zeroClientId.property
  unfold request827
  rcases utf8Decode (rstripNul payload) with _ | rawName
  · exact answer1606_returns h hzero ""
  dsimp only
  rw [wp_bind, wp_look]
  rcases w.store.getClientByUsername (strip rawName) with _ | record
  · apply wp_then (log_answering h _ _)
    exact fun _ u hu => answer1606_returns hu.1 hzero _
  dsimp only
  split_ifs
  · apply wp_then (log_answering h _ _)
    exact fun _ u hu => answer1606_returns hu.1 hzero _
  rcases record.publicKeyDer with _ | der
  · exact answer1606_returns h h.clientId _
  dsimp only
  split_ifs
  · exact answer1606_returns h h.clientId _
  apply wp_then (touch_answering h _)
  rintro _ u ⟨hu, hus⟩
  apply wp_then (log_answering hu _ _)
  rintro _ x ⟨hx, hxs⟩
  have hxv : Verified x.session.handshake := by rw [hxs, hus]; exact hv
  rcases hr : ctx.env.rsaImport der with _ | pub
  · exact answer1606_returns hx hx.clientId _
  dsimp only
  split_ifs
  · exact answer1606_returns hx hx.clientId _
  · exact freshWrap_returns hx hl hxv .reloginOk "answer_1605" _ hr

end

end Seftp.AccountSteps
