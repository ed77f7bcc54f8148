import Seftp.SuccessReports

/-!
# Where the client's key comes from

`connect_and_handshake` takes the AES key from `aes.key` at its end, whatever the
dialogue was. A key that a verified 1602 or 1605 brought in this call is the one it
finds there. But every response that is not fatal lets the flow go on, and a key that
cannot be saved is only logged, so a dialogue without a saved key ends with the file
of an earlier run. `Stale` lists these dialogues.
-/
namespace Seftp.KeyFreshness
open LittleEndian ExceptState Text Protocol ClientProgram ClientDialogue ClientUpload ClientFrames
open ResponseSteps SuccessReports

/-- Nothing that saves a key. -/
def Unsaved (e : Event) : Prop := ∀ b64, e ≠ .savedKey b64

/-- A later state of a dialogue in which no key has been saved since: the private
key is the same if there was one, and `aes.key` is the same or gone. -/
structure Later {σ : Type} (w t : ClientWorld σ) : Prop where
  events : ∃ es : List Event, t.trace = w.trace ++ es ∧ ∀ e ∈ es, Unsaved e
  priv : ∀ der, w.files kPrivKey = some der → t.files kPrivKey = some der
  aes : t.files kAesKey = w.files kAesKey ∨ t.files kAesKey = none
  identity : identity t.cc = identity w.cc

/-- A response has been verified and the key it brought has been saved. -/
structure Brings {σ : Type} (env : ClientEnv σ) (w t : ClientWorld σ) (frame : ResponseFrame)
    (r : Res1602) (priv key : Bytes) : Prop where
  code : frame.code = ResCode.aesKey.value ∨ frame.code = ResCode.reloginOk.value
  parses : parse1602 frame.payload = .ok r
  verified : verifyAesKeyBindingSignature env w.cc.securityVersion w.cc.clientNonce w.cc.serverNonce
    r.clientId frame.code r.encryptedKey w.cc.serverPublicKeyDer r.signature = true
  decrypts : env.oaepDecrypt priv r.encryptedKey = some key
  priv : t.files kPrivKey = some priv
  trace : ∃ pre post,
    t.trace = w.trace ++ pre ++ [.read frame, .savedKey (encodeBase64 key)] ++ post
  aes : t.files kAesKey = some (encodeBase64 key ++ [10]) ∨ t.files kAesKey = none
  identity : identity t.cc = identity w.cc

section
variable {σ : Type} {env : ClientEnv σ} {w u v t : ClientWorld σ}

theorem Later.refl (w : ClientWorld σ) : Later w w :=
  ⟨⟨[], (List.append_nil _).symm, by simp⟩, fun _ h => h, .inl rfl, rfl⟩

theorem Later.trans (h : Later w u) (h' : Later u t) : Later w t := by
  obtain ⟨es, hes, hall⟩ := h.events
  obtain ⟨es', hes', hall'⟩ := h'.events
  refine ⟨⟨es ++ es', by rw [hes', hes, List.append_assoc], ?_⟩,
    fun der hd => h'.priv der (h.priv der hd), ?_, h'.identity.trans h.identity⟩
  · intro e he
    rcases List.mem_append.mp he with he | he
    · exact hall e he
    · exact hall' e he
  · rcases h'.aes with he | he
    · rw [he]
      exact h.aes
    · exact .inr he

instance : Std.Refl (Later (σ := σ)) := ⟨Later.refl⟩

instance : IsTrans (ClientWorld σ) Later := ⟨fun _ _ _ => Later.trans⟩

/-- A step that leaves both key files alone. -/
theorem later_of_moves {T : Bytes → Prop} (h : Moves Unsaved T w t) (hp : ¬ T kPrivKey)
    (ha : ¬ T kAesKey) : Later w t :=
  ⟨h.events, fun _ hd => (h.files kPrivKey hp).trans hd, .inl (h.files kAesKey ha), h.identity⟩

theorem unsaved_coded {code : ℕ} (e : Event) (he : Coded code e) : Unsaved e := by
  obtain ⟨cid, payload, rfl⟩ := he
  intro b64 h
  cases h

/-! ### Writing a file -/

/-- A write succeeds and the file is there, or it fails and the file is the old one
or gone. The temporary file is another one. -/
theorem wp_atomicWrite (env : ClientEnv σ) (fileName content : Bytes) (ownerOnly : Bool)
    (w : ClientWorld σ) :
    wp (atomicWrite env fileName content ownerOnly)
      (fun ok t => if ok then t.files fileName = some content
        else t.files fileName = w.files fileName ∨ t.files fileName = none)
      (fun _ t => t.files fileName = w.files fileName ∨ t.files fileName = none) w := by
  have htmp := tmp_ne fileName
  have hdrop {x : ClientWorld σ} (hx : x.files fileName = w.files fileName ∨
      x.files fileName = none) :
      wp (do
        removeTmp env (fileName ++ utf8Encode ".tmp")
        pure false)
        (fun ok t => if ok then t.files fileName = some content
          else t.files fileName = w.files fileName ∨ t.files fileName = none)
        (fun _ t => t.files fileName = w.files fileName ∨ t.files fileName = none) x := by
    rw [removeTmp, wp_bind, wp_bind, wp_fails, wp_ite]
    split_ifs
    · exact (wp_raise _).mpr hx
    · refine wp_update.mpr ((wp_pure _).mpr ?_)
      change Function.update x.files _ none fileName = _ ∨
        Function.update x.files _ none fileName = _
      rw [Function.update_of_ne htmp]
      exact hx
  rw [atomicWrite, wp_bind, wp_fails, wp_ite]
  split_ifs
  · exact (wp_pure _).mpr (.inl rfl)
  rw [wp_bind]
  refine wp_update.mpr ?_
  have hopen : Function.update w.files (fileName ++ utf8Encode ".tmp") (some content) fileName =
      w.files fileName := Function.update_of_ne htmp _ _
  rw [wp_bind, wp_fails, wp_ite]
  split_ifs
  · exact hdrop (.inl hopen)
  rw [wp_bind, permissionsRefused, wp_ite]
  have hrest {x : ClientWorld σ} (hx : x.files fileName = w.files fileName) (refused : Bool) :
      wp (if refused then do
          removeTmp env (fileName ++ utf8Encode ".tmp")
          pure false
        else do
          removeOld env fileName
          let unmoved ← fails env
          if unmoved then do
            removeTmp env (fileName ++ utf8Encode ".tmp")
            pure false
          else do
            setFile fileName (some content)
            setFile (fileName ++ utf8Encode ".tmp") none
            pure true)
        (fun ok t => if ok then t.files fileName = some content
          else t.files fileName = w.files fileName ∨ t.files fileName = none)
        (fun _ t => t.files fileName = w.files fileName ∨ t.files fileName = none) x := by
    rw [wp_ite]
    split_ifs
    · exact hdrop (.inl hx)
    have hold : wp (removeOld env fileName)
        (fun _ t => t.files fileName = w.files fileName ∨ t.files fileName = none)
        (fun _ _ => False) x := by
      rw [removeOld, wp_bind, wp_fails, wp_ite]
      split_ifs
      · exact (wp_pure _).mpr (.inl hx)
      · exact wp_update.mpr (.inr (Function.update_self ..))
    refine wp_then hold fun _ y hy => ?_
    rw [wp_bind, wp_fails, wp_ite]
    split_ifs
    · exact hdrop hy
    · rw [wp_bind]
      refine wp_update.mpr ?_
      rw [wp_bind]
      refine wp_update.mpr ((wp_pure _).mpr ?_)
      change Function.update (Function.update y.files fileName (some content))
        (fileName ++ utf8Encode ".tmp") none fileName = some content
      rw [Function.update_of_ne htmp, Function.update_self]
  split_ifs
  · exact wp_fails.mpr (hrest hopen _)
  · exact (wp_pure _).mpr (hrest hopen _)

/-! ### One response -/

/-- A step without an event that leaves the private key, and leaves `aes.key` or
loses it. -/
structure Calm (w t : ClientWorld σ) : Prop extends Later w t where
  silent : t.trace = w.trace

theorem Calm.trans (h : Calm w u) (h' : Calm u t) : Calm w t :=
  ⟨h.toLater.trans h'.toLater, h'.silent.trans h.silent⟩

theorem calm_ticked (w : ClientWorld σ) : Calm w (ticked w) :=
  ⟨⟨⟨[], (List.append_nil _).symm, by simp⟩, fun _ h => h, .inl rfl, rfl⟩, rfl⟩

/-- A step without an event that leaves both key files. -/
theorem calm_of_moves {T : Bytes → Prop} (h : Moves (fun _ => False) T w t) (hp : ¬ T kPrivKey)
    (ha : ¬ T kAesKey) : Calm w t :=
  ⟨later_of_moves (h.mono (fun _ hf => hf.elim) fun _ hn => hn) hp ha, trace_of_none h⟩

theorem apart_names : ¬ Around kAesKey kPrivKey ∧ ¬ Around kMeInfo kPrivKey ∧
    ¬ Around kMeInfo kAesKey ∧ ¬ Around kPrivKey kAesKey ∧ ¬ Around kFingerprint kPrivKey ∧
    ¬ Around kFingerprint kAesKey ∧ ¬ Around kFingerprint kMeInfo := by
  unfold Around
  decide +kernel

/-- Writing `aes.key` leaves the private key alone. -/
theorem wp_writeAesKey (env : ClientEnv σ) (b64 : Bytes) (w : ClientWorld σ) :
    wp (writeAesKey env b64)
      (fun _ t => Calm w t ∨ (t.trace = w.trace ++ [.savedKey b64] ∧
        t.files kPrivKey = w.files kPrivKey ∧ t.files kAesKey = some (b64 ++ [10]) ∧
        identity t.cc = identity w.cc))
      (fun _ t => Calm w t) w := by
  have hkeep : Keeps (Moves (fun _ => False) (Around kAesKey))
      (atomicWrite env kAesKey (b64 ++ [10]) true) := keeps_atomicWrite env _ _ fun _ h => h
  have hcalm {x : ClientWorld σ} (hm : Moves (fun _ => False) (Around kAesKey) w x)
      (ha : x.files kAesKey = w.files kAesKey ∨ x.files kAesKey = none) : Calm w x := by
    have hpriv := hm.files kPrivKey apart_names.1
    have hsilent : x.trace = w.trace := trace_of_none hm
    exact ⟨⟨⟨[], by rw [hsilent, List.append_nil], by simp⟩, fun der hd => hpriv.trans hd, ha,
      hm.identity⟩, hsilent⟩
  rw [writeAesKey]
  refine wp_seq (wp_and (hkeep.wp w) (wp_atomicWrite env kAesKey (b64 ++ [10]) true w))
    (fun ok t ht => ?_) fun _ t ht => hcalm ht.1 ht.2
  cases ok with
  | false => exact (wp_pure _).mpr (.inl (hcalm ht.1 ht.2))
  | true =>
      rw [if_pos rfl, wp_bind, wp_note, wp_pure]
      refine .inr ⟨?_, ht.1.files kPrivKey apart_names.1, ht.2, ht.1.identity⟩
      exact congrArg (fun es => es ++ [.savedKey b64]) (trace_of_none ht.1)

theorem wp_decrypt (env : ClientEnv σ) (ciphertext : Bytes) (w : ClientWorld σ) :
    wp (rsaOaepSha1DecryptFromFile env ciphertext)
      (fun key t => ∃ priv, w.files kPrivKey = some priv ∧
        env.oaepDecrypt priv ciphertext = some key ∧ t = ticked w)
      (fun _ t => Calm w t) w := by
  rw [rsaOaepSha1DecryptFromFile, wp_ite]
  split_ifs
  · exact (wp_raise _).mpr ⟨Later.refl w, rfl⟩
  rw [wp_bind, readPrivateKey, openFile, wp_bind, wp_fails, wp_ite]
  split_ifs
  · rw [wp_pure]
    exact (wp_raise _).mpr (calm_ticked w)
  rw [wp_look]
  rcases hb : ((ticked w).files kPrivKey).bind fun der =>
    env.oaepDecrypt der ciphertext with _ | key
  · exact (wp_raise _).mpr (calm_ticked w)
  · obtain ⟨priv, hpriv, hkey⟩ := Option.bind_eq_some_iff.mp hb
    change wp (if key.length ≠ 32 then raise _ else pure key) _ _ _
    rw [wp_ite]
    split_ifs
    · exact (wp_raise _).mpr (calm_ticked w)
    · exact (wp_pure _).mpr ⟨priv, hpriv, hkey, rfl⟩

/-- A 1602 or 1605 brings a key that is saved, or nothing. -/
theorem wp_acceptAesKey (env : ClientEnv σ) (frame : ResponseFrame) (w : ClientWorld σ) :
    wp (acceptAesKey env frame)
      (fun _ t => Calm w t ∨ ∃ r priv key, parse1602 frame.payload = .ok r ∧
        verifyAesKeyBindingSignature env w.cc.securityVersion w.cc.clientNonce w.cc.serverNonce
          r.clientId frame.code r.encryptedKey w.cc.serverPublicKeyDer r.signature = true ∧
        env.oaepDecrypt priv r.encryptedKey = some key ∧ t.files kPrivKey = some priv ∧
        t.trace = w.trace ++ [.savedKey (encodeBase64 key)] ∧
        t.files kAesKey = some (encodeBase64 key ++ [10]) ∧ identity t.cc = identity w.cc)
      (fun _ _ => False) w := by
  have hfatal {x : ClientWorld σ} {e : String} {Q : NextStep → ClientWorld σ → Prop}
      (h : ∀ y, Calm x y → Q .fatal y) : wp (fatal (utf8Encode e)) Q (fun _ _ => False) x := by
    rw [fatal, wp_bind]
    refine wp_update.mpr ((wp_pure _).mpr (h _ ?_))
    exact ⟨⟨⟨[], (List.append_nil _).symm, by simp⟩, fun _ h => h, .inl rfl, rfl⟩, rfl⟩
  rw [acceptAesKey, wp_attempt]
  have hcalm {x : ClientWorld σ} (e : String) (hx : Calm w x) := hfatal (x := x) (e := e)
    (Q := fun _ t => Calm w t ∨ ∃ r priv key, parse1602 frame.payload = .ok r ∧
        verifyAesKeyBindingSignature env w.cc.securityVersion w.cc.clientNonce w.cc.serverNonce
          r.clientId frame.code r.encryptedKey w.cc.serverPublicKeyDer r.signature = true ∧
        env.oaepDecrypt priv r.encryptedKey = some key ∧ t.files kPrivKey = some priv ∧
        t.trace = w.trace ++ [.savedKey (encodeBase64 key)] ∧
        t.files kAesKey = some (encodeBase64 key ++ [10]) ∧ identity t.cc = identity w.cc)
    fun y hy => .inl (hx.trans hy)
  have hself : Calm w w := ⟨Later.refl w, rfl⟩
  refine wp_ofExcept_bind (fun r hr => ?_) fun e _ => hcalm e hself
  rw [wp_bind, handle1602Or1605, wp_bind, wp_look]
  refine wp_branch (fun _ => (wp_raise _).mpr (hcalm _ hself)) fun _ => ?_
  refine wp_branch (fun _ => (wp_raise _).mpr (hcalm _ hself)) fun _ => ?_
  refine wp_branch (fun _ => (wp_raise _).mpr (hcalm _ hself)) fun hv => ?_
  have hanswer : answerKey env frame.code r.encryptedKey = answer1602 env r.encryptedKey := by
    unfold answerKey answer1605
    split <;> rfl
  rw [wp_bind, hanswer, answer1602, wp_bind, wp_attempt]
  refine wp_mono (wp_decrypt env r.encryptedKey w) (fun key t ht => ?_) fun e t ht =>
    (wp_raise _).mpr (hcalm _ ht)
  obtain ⟨priv, hpriv, hkey, rfl⟩ := ht
  rw [wp_bind]
  have htick := calm_ticked w
  refine wp_mono (wp_writeAesKey env (encodeBase64 key) (ticked w)) (fun _ t ht => ?_)
    fun e t ht => hcalm e (htick.trans ht)
  rw [wp_pure, wp_pure, wp_bind]
  refine wp_update.mpr ((wp_pure _).mpr ?_)
  rcases ht with ht | ⟨htrace, hp, ha, hid⟩
  · refine .inl (htick.trans (ht.trans ?_))
    exact ⟨⟨⟨[], (List.append_nil _).symm, by simp⟩, fun _ h => h, .inl rfl, rfl⟩, rfl⟩
  · exact .inr ⟨r, priv, key, hr, by simpa using hv, hkey, hp.trans hpriv, htrace, ha, hid⟩

theorem identity_inj {cc cc' : ClientContext} (h : identity cc = identity cc') :
    cc.securityVersion = cc'.securityVersion ∧ cc.clientNonce = cc'.clientNonce ∧
      cc.serverNonce = cc'.serverNonce ∧ cc.serverPublicKeyDer = cc'.serverPublicKeyDer := by
  simp only [ClientFrames.identity, Prod.mk.injEq] at h
  exact ⟨h.1, h.2.1, h.2.2.1, h.2.2.2.2⟩

/-- A response leaves its frame, and its key if it brought one that was saved. -/
theorem answer_cases {r : NextStep × Bool} (h : answerManager env none w = (.ok r, t)) :
    (Later w t ∧ ∃ frame, t.trace = w.trace ++ [.read frame]) ∨
      ∃ frame r priv key, Brings env w t frame r priv key := by
  have hread : Keeps (Moves (fun e => ∃ frame, e = .read frame) (fun _ => False))
      (readResponseFrame env) := keeps_readResponseFrame env fun frame => ⟨frame, rfl⟩
  have hall : wp (answerManager env none)
      (fun _ t => (Later w t ∧ ∃ frame, t.trace = w.trace ++ [.read frame]) ∨
        ∃ frame r priv key, Brings env w t frame r priv key) (fun _ _ => True) w := by
    rw [answerManager]
    refine wp_seq (wp_and (hread.wp w) (wp_readResponseFrame env w)) (fun frame x hx => ?_)
      fun _ _ _ => trivial
    obtain ⟨hmoves, htrace⟩ := hx
    have hlater : Later w x := by
      refine later_of_moves (hmoves.mono ?_ fun _ hn => hn) (fun h => h) fun h => h
      rintro e ⟨f, rfl⟩ b64 hb
      cases hb
    by_cases hcode : ResCode.ofValue frame.code = some .aesKey ∨
        ResCode.ofValue frame.code = some .reloginOk
    · rw [dispatch_key env none hcode, wp_bind]
      refine wp_mono (wp_acceptAesKey env frame x) (fun _ t ht => ?_) fun _ _ _ => trivial
      rw [wp_pure]
      rcases ht with ht | ⟨r, priv, key, hr, hv, hkey, hpriv, hsaved, haes, hid⟩
      · exact .inl ⟨hlater.trans ht.toLater, frame, ht.silent.trans htrace⟩
      · obtain ⟨hsv, hcn, hsn, hder⟩ := identity_inj hmoves.identity
        rw [hsv, hcn, hsn, hder] at hv
        refine .inr ⟨frame, r, priv, key, ?_, hr, hv, hkey, hpriv, ⟨[], [], ?_⟩, .inl haes,
          hid.trans hmoves.identity⟩
        · exact hcode.imp value_of_ofValue value_of_ofValue
        · rw [hsaved, htrace]
          simp
    · have hk : Keeps (Moves (fun _ => False) (Around kMeInfo)) (dispatch env none frame) :=
        keeps_dispatch_plain env none (fun h => hcode (.inl h)) (fun h => hcode (.inr h))
          fun _ hn => hn
      refine wp_mono (hk.wp x) (fun _ t ht => ?_) fun _ _ _ => trivial
      have hcalm := calm_of_moves ht apart_names.2.1 apart_names.2.2.1
      exact .inl ⟨hlater.trans hcalm.toLater, frame, hcalm.silent.trans htrace⟩
  rwa [wp_of_eq_ok h] at hall

/-- A later state of the same handshake. -/
structure Grows (w t : ClientWorld σ) : Prop where
  events : ∃ es, t.trace = w.trace ++ es
  identity : identity t.cc = identity w.cc

theorem Later.grows (h : Later w t) : Grows w t := by
  obtain ⟨es, hes, -⟩ := h.events
  exact ⟨⟨es, hes⟩, h.identity⟩

theorem Grows.trans (h : Grows w u) (h' : Grows u t) : Grows w t := by
  obtain ⟨es, hes⟩ := h.events
  obtain ⟨es', hes'⟩ := h'.events
  exact ⟨⟨es ++ es', by rw [hes', hes, List.append_assoc]⟩, h'.identity.trans h.identity⟩

theorem Brings.grows {frame : ResponseFrame} {r : Res1602} {priv key : Bytes}
    (h : Brings env w t frame r priv key) : Grows w t := by
  obtain ⟨pre, post, htrace⟩ := h.trace
  exact ⟨⟨_, by rw [htrace, List.append_assoc, List.append_assoc]⟩, h.identity⟩

/-- What came before a key, and what comes after it without another one. -/
theorem Brings.around {frame : ResponseFrame} {r : Res1602} {priv key : Bytes} (hu : Grows w u)
    (h : Brings env u v frame r priv key) (ht : Later v t) : Brings env w t frame r priv key := by
  obtain ⟨es, hes⟩ := hu.events
  obtain ⟨es', hes', -⟩ := ht.events
  obtain ⟨pre, post, htrace⟩ := h.trace
  obtain ⟨hsv, hcn, hsn, hder⟩ := identity_inj hu.identity
  refine ⟨h.code, h.parses, ?_, h.decrypts, ht.priv priv h.priv, ⟨es ++ pre, post ++ es', ?_⟩, ?_,
    ht.identity.trans (h.identity.trans hu.identity)⟩
  · rw [← hsv, ← hcn, ← hsn, ← hder]
    exact h.verified
  · rw [hes', htrace, hes]
    simp
  · rcases ht.aes with he | he
    · rw [he]
      exact h.aes
    · exact .inr he

/-! ### The steps between responses -/

theorem keeps_later_of_moves {α : Type} {T : Bytes → Prop} {x : Client σ α}
    (h : Keeps (Moves Unsaved T) x) (hp : ¬ T kPrivKey) (ha : ¬ T kAesKey) : Keeps Later x :=
  h.mono fun _ _ hm => later_of_moves hm hp ha

theorem later_request825 (env : ClientEnv σ) (name : Bytes) :
    Keeps Later (request825 env name) := by
  refine keeps_later_of_moves (T := fun _ => False) (keeps_writeLogged env fun m hm => ?_)
    (fun h => h)
    fun h => h
  cases hm
  exact unsaved_coded _ ⟨_, _, rfl⟩

theorem later_request827 (env : ClientEnv σ) (name uuid : Bytes) :
    Keeps Later (request827 env name uuid) :=
  keeps_later_of_moves (T := fun _ => False)
    (keeps_writeLogged_coded env (fun _ => rfl) unsaved_coded) (fun h => h) fun h => h

theorem later_readPrivateKey (env : ClientEnv σ) : Keeps Later (readPrivateKey env) :=
  keeps_later_of_moves (T := fun _ => False) (keeps_openFile env _) (fun h => h) fun h => h

/-- A private key is written only where there is none. -/
theorem later_saveNewPrivateKey (env : ClientEnv σ) (key der : Bytes) :
    Keeps Later (saveNewPrivateKey env key der) := by
  apply keeps_of_wp
  intro w
  have hself : Later w w := Later.refl w
  rw [saveNewPrivateKey, wp_bind, fileExists, wp_look]
  refine wp_branch (fun _ => (wp_pure _).mpr hself) fun _ => ?_
  refine wp_branch (fun _ => (wp_raise _).mpr hself) fun habsent => ?_
  refine wp_branch (fun _ => (wp_raise _).mpr hself) fun _ => ?_
  have hnone : w.files kPrivKey = none := by simpa using habsent
  have hk : Keeps (Moves Unsaved (Around kPrivKey)) (writePrivateKey env der) :=
    keeps_writePrivateKey env der fun _ h => h
  have hlater {t : ClientWorld σ} (ht : Moves Unsaved (Around kPrivKey) w t) : Later w t := by
    refine ⟨ht.events, fun d hd => ?_, .inl (ht.files kAesKey apart_names.2.2.2.1), ht.identity⟩
    rw [hnone] at hd
    cases hd
  refine wp_seq (hk.wp w) (fun saved t ht => ?_) fun _ t ht => hlater ht
  exact wp_branch (fun _ => (wp_pure _).mpr (hlater ht)) fun _ => (wp_raise _).mpr (hlater ht)

theorem later_makingRSAkeys (env : ClientEnv σ) (key : Bytes) :
    Keeps Later (makingRSAkeys env key) := by
  refine keeps_bind (keeps_later_of_moves (T := fun _ => False)
    (keeps_generate env key fun _ b64 h => by cases h) (fun h => h) fun h => h) fun pair => ?_
  refine keeps_bind (later_saveNewPrivateKey env key _) fun _ => ?_
  refine keeps_bind
    (keeps_later_of_moves (keeps_writeMePublicKey env _ fun _ h => h) apart_names.2.1
    apart_names.2.2.1) fun saved => keeps_ite (keeps_bind keeps_look fun cc => ?_) (keeps_raise _)
  exact keeps_later_of_moves (T := fun _ => False)
    (keeps_writeLogged_coded env (fun _ => rfl) unsaved_coded) (fun h => h) fun h => h

end

/-! ### Dialogues without a key -/

/-- The response that comes next asks for this step, and no key is saved for it. -/
structure Unkeyed {σ : Type} (env : ClientEnv σ) (w : ClientWorld σ) (step : NextStep)
    (t : ClientWorld σ) : Prop where
  step : Answers env w step
  keyless : ¬ SavesKey env w
  next : t = answered env w

/-- A public key is sent, and the response is not fatal and saves no key. -/
def KeylessExchange {σ : Type} (env : ClientEnv σ) (key : Bytes) (w t : ClientWorld σ) : Prop :=
  ∃ u step, makingRSAkeys env key w = (.ok (), u) ∧ Unkeyed env u step t ∧ step ≠ .fatal

/-- So is a registration. -/
def KeylessSignOn {σ : Type} (env : ClientEnv σ) (w t : ClientWorld σ) : Prop :=
  ∃ step u, Unkeyed env (request825 env w.cc.username w).2 step u ∧ step ≠ .fatal ∧
    KeylessExchange env [] u t

/-- Request 827 for the stored identity. -/
def asked {σ : Type} (env : ClientEnv σ) (stored : StoredIdentity) (w : ClientWorld σ) :
    ClientWorld σ :=
  (request827 env w.cc.username stored.clientId
    { w with cc := { w.cc with clientId := stored.clientId } }).2

/-- The ways through the dialogue on which no response saves a key. -/
inductive Keyless {σ : Type} (env : ClientEnv σ) :
    Option StoredIdentity → ClientWorld σ → ClientWorld σ → Prop
  | registered {w t : ClientWorld σ} (h : KeylessSignOn env w t) : Keyless env none w t
  | resumed {w t : ClientWorld σ} {stored : StoredIdentity}
      (hname : stored.username = w.cc.username)
      (h : Unkeyed env (asked env stored w) .none t) : Keyless env (some stored) w t
  | registeredAgain {w u t : ClientWorld σ} {stored : StoredIdentity}
      (hname : stored.username = w.cc.username)
      (h : Unkeyed env (asked env stored w) .needRegister u) (hsign : KeylessSignOn env u t) :
      Keyless env (some stored) w t
  | sentAgain {w u v t : ClientWorld σ} {stored : StoredIdentity} {key : Bytes}
      (hname : stored.username = w.cc.username)
      (h : Unkeyed env (asked env stored w) .needSendPublicKey u)
      (hkey : readPrivateKey env u = (.ok (some key), v))
      (hexchange : KeylessExchange env key v t) :
      Keyless env (some stored) w t

section
variable {σ : Type} {env : ClientEnv σ} {w u v t : ClientWorld σ} {key : Bytes}

/-- A key has been saved on the way. -/
def Keyed (env : ClientEnv σ) (w t : ClientWorld σ) : Prop :=
  ∃ frame r priv key, Brings env w t frame r priv key

theorem Keyed.around (hu : Grows w u) (h : Keyed env u v) (ht : Later v t) : Keyed env w t := by
  obtain ⟨frame, r, priv, key, h⟩ := h
  exact ⟨frame, r, priv, key, h.around hu ht⟩

/-- So it is read, and nothing else happens. -/
theorem unkeyed_iff {step : NextStep} : Unkeyed env w step t ↔
    ∃ ok, answerManager env none w = (.ok (step, ok), t) ∧
      ∃ frame, t.trace = w.trace ++ [.read frame] := by
  constructor
  · rintro ⟨hstep, hno, rfl⟩
    obtain ⟨ok, ha⟩ := run_of_answers none hstep
    exact ⟨ok, ha, (read_of_answers ha).mp hno⟩
  · rintro ⟨ok, ha, hframe⟩
    exact ⟨answers_of_run ha, (read_of_answers ha).mpr hframe, by rw [answered, ha]⟩

theorem later_of_unkeyed {step : NextStep} (h : Unkeyed env w step t) : Later w t := by
  obtain ⟨ok, hrun, frame, htrace⟩ := unkeyed_iff.mp h
  rcases answer_cases hrun with ⟨hlater, -⟩ | ⟨frame', r, priv, key, hb⟩
  · exact hlater
  · obtain ⟨pre, post, hb⟩ := hb.trace
    have hlen := congrArg List.length (htrace.symm.trans hb)
    simp only [List.length_append, List.length_cons, List.length_nil] at hlen
    omega

/-- A response that is not fatal is without a key, or brings one. -/
theorem unkeyed_or_keyed {step : NextStep} {ok : Bool}
    (h : answerManager env none w = (.ok (step, ok), t)) :
    Unkeyed env w step t ∨ Keyed env w t := by
  rcases answer_cases h with ⟨-, hframe⟩ | hb
  · exact .inl (unkeyed_iff.mpr ⟨ok, h, hframe⟩)
  · exact .inr hb

theorem grows_of_answer {step : NextStep} {ok : Bool}
    (h : answerManager env none w = (.ok (step, ok), t)) : Grows w t := by
  rcases unkeyed_or_keyed h with h | ⟨frame, r, priv, key, h⟩
  · exact (later_of_unkeyed h).grows
  · exact h.grows

/-! ### The flow as its responses decide it -/

theorem exchangeKeys_true : exchangeKeys env key w = (.ok true, t) ↔
    ∃ u r, makingRSAkeys env key w = (.ok (), u) ∧ answerManager env none u = (.ok r, t) ∧
      r.1 ≠ .fatal := by
  unfold exchangeKeys
  rw [bind_eq_ok]
  constructor
  · rintro ⟨made, u, hmade, hrest⟩
    cases made with
    | false => cases hrest
    | true =>
        obtain ⟨⟨step, ok⟩, u', ha, hlast⟩ := bind_eq_ok.mp hrest
        have hend : decide (step ≠ .fatal) = true ∧ u' = t := pure_eq_ok.mp hlast
        obtain ⟨hstep, rfl⟩ := hend
        rcases attempt_eq_ok.mp hmade with hm | ⟨e, x, -, hf⟩
        · obtain ⟨⟨⟩, x, hkeys, hx⟩ := bind_eq_ok.mp hm
          obtain rfl : x = u := (pure_eq_ok.mp hx).2
          exact ⟨x, (step, ok), hkeys, ha, of_decide_eq_true hstep⟩
        · cases hf
  · rintro ⟨u, ⟨step, ok⟩, hm, ha, hfatal⟩
    refine ⟨true, u, attempt_eq_ok.mpr (.inl (bind_eq_ok.mpr ⟨(), u, hm, rfl⟩)), ?_⟩
    exact bind_eq_ok.mpr ⟨(step, ok), t, ha, pure_eq_ok.mpr ⟨by simpa using hfatal, rfl⟩⟩

theorem signOn_true : signOn env w = (.ok true, t) ↔
    ∃ r u, answerManager env none (request825 env w.cc.username w).2 = (.ok r, u) ∧
      r.1 ≠ .fatal ∧ exchangeKeys env [] u = (.ok true, t) := by
  have hsent : request825 env w.cc.username w = (.ok (), (request825 env w.cc.username w).2) :=
    writeLogged_returns env _ w
  change (request825 env w.cc.username >>= fun _ => answerManager env none >>= fun r =>
    if r.1 = .fatal then pure false else exchangeKeys env []) w = _ ↔ _
  rw [bind_ok hsent, bind_eq_ok]
  refine exists_congr fun r => exists_congr fun u => and_congr_right fun _ => ?_
  by_cases hfatal : r.1 = .fatal
  · rw [if_pos hfatal]
    constructor
    · intro h
      cases h
    · exact fun h => (h.1 hfatal).elim
  · rw [if_neg hfatal]
    exact ⟨fun h => ⟨hfatal, h⟩, fun h => h.2⟩

theorem relogin_true {stored : StoredIdentity} : relogin env stored w = (.ok true, t) ↔
    stored.username = w.cc.username ∧
      ∃ r u, answerManager env none (asked env stored w) = (.ok r, u) ∧
        match r.1 with
        | .needRegister => signOn env u = (.ok true, t)
        | .needSendPublicKey => ∃ key v, readPrivateKey env u = (.ok (some key), v) ∧
            exchangeKeys env key v = (.ok true, t)
        | .fatal => False
        | .none => u = t := by
  change (if stored.username ≠ w.cc.username then _ else _ : Client σ Bool) w = _ ↔ _
  by_cases hname : stored.username = w.cc.username
  swap
  · rw [if_pos hname]
    constructor
    · intro h
      cases h
    · exact fun h => (hname h.1).elim
  rw [if_neg (by simpa using hname)]
  have hsent : request827 env w.cc.username stored.clientId
      { w with cc := { w.cc with clientId := stored.clientId } } = (.ok (), asked env stored w) :=
    writeLogged_returns env _ _
  change (request827 env w.cc.username stored.clientId >>= _)
    { w with cc := { w.cc with clientId := stored.clientId } } = _ ↔ _
  rw [bind_ok hsent, bind_eq_ok]
  simp only [hname, true_and]
  refine exists_congr fun r => exists_congr fun u => and_congr_right fun _ => ?_
  obtain ⟨step, ok⟩ := r
  cases step with
  | none => exact ⟨fun h => (pure_eq_ok.mp h).2, fun h => pure_eq_ok.mpr ⟨rfl, h⟩⟩
  | needRegister => rfl
  | fatal => exact ⟨(fun h => by cases h), False.elim⟩
  | needSendPublicKey =>
      change (readPrivateKey env >>= _) u = _ ↔ _
      rw [bind_eq_ok]
      constructor
      · rintro ⟨priv, v, hp, hrest⟩
        cases priv with
        | none => cases hrest
        | some key => exact ⟨key, v, hp, hrest⟩
      · rintro ⟨key, v, hp, hrest⟩
        exact ⟨some key, v, hp, hrest⟩

/-! ### Both ways through the flow -/

theorem exchangeKeys_cases (h : exchangeKeys env key w = (.ok true, t)) :
    KeylessExchange env key w t ∨ Keyed env w t := by
  obtain ⟨u, ⟨step, ok⟩, hm, ha, hfatal⟩ := exchangeKeys_true.mp h
  have hu : Later w u := by
    have := later_makingRSAkeys env key w
    rwa [hm] at this
  rcases unkeyed_or_keyed ha with hun | hk
  · exact .inl ⟨u, step, hm, hun, hfatal⟩
  · exact .inr (hk.around hu.grows (Later.refl t))

theorem exchangeKeys_keyless (h : KeylessExchange env key w t) :
    exchangeKeys env key w = (.ok true, t) ∧ Later w t := by
  obtain ⟨u, step, hm, hun, hfatal⟩ := h
  have hu : Later w u := by
    have := later_makingRSAkeys env key w
    rwa [hm] at this
  refine ⟨?_, hu.trans (later_of_unkeyed hun)⟩
  obtain ⟨ok, ha, -⟩ := unkeyed_iff.mp hun
  exact exchangeKeys_true.mpr ⟨u, (step, ok), hm, ha, hfatal⟩

/-- A keyless rest after a response: the key of that response, or none at all. -/
theorem keyed_or_keyless {step : NextStep} {ok : Bool} {rest : Prop} (hw : Later w u)
    (ha : answerManager env none u = (.ok (step, ok), v)) (hrest : rest ∨ Keyed env v t)
    (hlater : rest → Later v t) : (Unkeyed env u step v ∧ rest) ∨ Keyed env w t := by
  rcases hrest with hr | hk
  · rcases unkeyed_or_keyed ha with hun | hk
    · exact .inl ⟨hun, hr⟩
    · exact .inr (hk.around hw.grows (hlater hr))
  · exact .inr (hk.around (hw.grows.trans (grows_of_answer ha)) (Later.refl t))

theorem signOn_cases (h : signOn env w = (.ok true, t)) :
    KeylessSignOn env w t ∨ Keyed env w t := by
  obtain ⟨⟨step, ok⟩, u, ha, hfatal, hex⟩ := signOn_true.mp h
  have hsent : Later w (request825 env w.cc.username w).2 := later_request825 env _ w
  rcases keyed_or_keyless hsent ha (exchangeKeys_cases hex) fun h => (exchangeKeys_keyless h).2 with
    ⟨hun, hex⟩ | hk
  · exact .inl ⟨step, u, hun, hfatal, hex⟩
  · exact .inr hk

theorem signOn_keyless (h : KeylessSignOn env w t) : signOn env w = (.ok true, t) ∧ Later w t := by
  obtain ⟨step, u, hun, hfatal, hex⟩ := h
  have hsent : Later w (request825 env w.cc.username w).2 := later_request825 env _ w
  obtain ⟨hrun, hlater⟩ := exchangeKeys_keyless hex
  refine ⟨?_, hsent.trans ((later_of_unkeyed hun).trans hlater)⟩
  obtain ⟨ok, ha, -⟩ := unkeyed_iff.mp hun
  exact signOn_true.mpr ⟨(step, ok), u, ha, hfatal, hrun⟩

theorem later_asked (env : ClientEnv σ) (stored : StoredIdentity) (w : ClientWorld σ) :
    Later w (asked env stored w) := by
  have hset : Later w { w with cc := { w.cc with clientId := stored.clientId } } :=
    ⟨⟨[], (List.append_nil _).symm, by simp⟩, fun _ h => h, .inl rfl, rfl⟩
  exact hset.trans (later_request827 env _ _ _)

theorem enter_cases {stored : Option StoredIdentity} (h : enter env stored w = (.ok true, t)) :
    Keyless env stored w t ∨ Keyed env w t := by
  cases stored with
  | none => exact (signOn_cases h).imp_left .registered
  | some stored =>
      obtain ⟨hname, ⟨step, ok⟩, u, ha, hrest⟩ := relogin_true.mp h
      have hasked := later_asked env stored w
      cases step with
      | none =>
          obtain rfl : u = t := hrest
          rcases unkeyed_or_keyed ha with hun | hk
          · exact .inl (.resumed hname hun)
          · exact .inr (hk.around hasked.grows (Later.refl u))
      | needRegister =>
          rcases keyed_or_keyless hasked ha (signOn_cases hrest) fun h => (signOn_keyless h).2 with
            ⟨hun, hsign⟩ | hk
          · exact .inl (.registeredAgain hname hun hsign)
          · exact .inr hk
      | needSendPublicKey =>
          obtain ⟨key, v, hkey, hex⟩ := hrest
          have hv : Later u v := by
            have := later_readPrivateKey env u
            rwa [hkey] at this
          have hex' : KeylessExchange env key v t ∨ Keyed env u t :=
            (exchangeKeys_cases hex).imp_right fun hk => hk.around hv.grows (Later.refl t)
          rcases keyed_or_keyless hasked ha hex' fun h => hv.trans (exchangeKeys_keyless h).2 with
            ⟨hun, hex⟩ | hk
          · exact .inl (.sentAgain hname hun hkey hex)
          · exact .inr hk
      | fatal => exact hrest.elim

theorem enter_keyless {stored : Option StoredIdentity} (h : Keyless env stored w t) :
    enter env stored w = (.ok true, t) ∧ Later w t := by
  cases h with
  | registered h => exact signOn_keyless h
  | resumed hname hun =>
      refine ⟨?_, (later_asked env _ w).trans (later_of_unkeyed hun)⟩
      obtain ⟨ok, ha, -⟩ := unkeyed_iff.mp hun
      exact relogin_true.mpr ⟨hname, (.none, ok), t, ha, rfl⟩
  | registeredAgain hname hun hsign =>
      obtain ⟨hrun, hlater⟩ := signOn_keyless hsign
      refine ⟨?_, (later_asked env _ w).trans ((later_of_unkeyed hun).trans hlater)⟩
      obtain ⟨ok, ha, -⟩ := unkeyed_iff.mp hun
      exact relogin_true.mpr ⟨hname, (.needRegister, ok), _, ha, hrun⟩
  | @sentAgain _ u v _ stored key hname hun hkey hex =>
      obtain ⟨hrun, hlater⟩ := exchangeKeys_keyless hex
      have hv := later_readPrivateKey env u
      rw [hkey] at hv
      refine ⟨?_, (later_asked env _ w).trans ((later_of_unkeyed hun).trans (hv.trans hlater))⟩
      obtain ⟨ok, ha, -⟩ := unkeyed_iff.mp hun
      exact relogin_true.mpr ⟨hname, (.needSendPublicKey, ok), _, ha, _, _, hkey, hrun⟩

/-! ### The handshake of the call -/

/-- The first response of the call is a 1608 whose signature covers the nonce that the
call drew, and the context holds what it says. -/
structure Greets (env : ClientEnv σ) (w u : ClientWorld σ) (frame : ResponseFrame)
    (hello : Res1608) : Prop where
  trace : ∃ pre post : List Event, u.trace = w.trace ++ pre ++ [.read frame] ++ post ∧
    ∀ e ∈ pre ++ post, ∃ m, e = .wrote m
  code : frame.code = ResCode.serverHello.value
  parses : parse1608 frame.payload = .ok hello
  verified : verifyServerHelloSignature env hello.securityVersion (env.nonce w.calls).val
    hello.serverNonce hello.serverPublicKeyDer hello.signature = true
  identity : identity u.cc = (hello.securityVersion, (env.nonce w.calls).val,
    hello.serverNonce, true, hello.serverPublicKeyDer)
  files : ∀ name, ¬ Around kFingerprint name → u.files name = w.files name

theorem moves_trust (env : ClientEnv σ) (fingerprint : Bytes) :
    Keeps (Moves (fun _ => False) (Around kFingerprint)) (validateServerTrust env fingerprint) := by
  have hfail (text : String) :
      Keeps (Moves (fun _ => False) (Around kFingerprint)) (failWith text : Client σ Bool) :=
    keeps_bind (keeps_setError _) fun _ => keeps_pure _
  refine keeps_bind (keeps_readLine env _) fun pinned => ?_
  cases pinned with
  | some pinned => exact keeps_ite (hfail _) (keeps_pure _)
  | none =>
      refine keeps_bind (keeps_readLine env _) fun stored => ?_
      cases stored with
      | some stored => exact keeps_ite (hfail _) (keeps_pure _)
      | none =>
          refine keeps_bind (keeps_atomicWrite env _ _ fun _ h => h) fun saved => ?_
          exact keeps_ite (keeps_pure _) (hfail _)

/-- What the checks of a 1608 leave. -/
theorem wp_verifyServerHello (env : ClientEnv σ) (nonce : Nonce) (w : ClientWorld σ) :
    wp (verifyServerHello env nonce)
      (fun ok t => ok = true → ∃ frame hello, t.trace = w.trace ++ [.read frame] ∧
        frame.code = ResCode.serverHello.value ∧ parse1608 frame.payload = .ok hello ∧
        verifyServerHelloSignature env hello.securityVersion nonce.val hello.serverNonce
          hello.serverPublicKeyDer hello.signature = true ∧
        identity t.cc = (hello.securityVersion, nonce.val, hello.serverNonce, true,
          hello.serverPublicKeyDer) ∧
        ∀ name, ¬ Around kFingerprint name → t.files name = w.files name)
      (fun _ _ => True) w := by
  have hread : Keeps (Moves (fun _ => True) (fun _ => False)) (readResponseFrame env) :=
    keeps_readResponseFrame env fun _ => trivial
  have hfail {x : ClientWorld σ} {text : String} {Q : Bool → ClientWorld σ → Prop}
      (h : ∀ y, Q false y) : wp (failWith text) Q (fun _ _ => True) x := by
    rw [failWith, wp_bind]
    exact wp_update.mpr ((wp_pure _).mpr (h _))
  rw [verifyServerHello]
  refine wp_seq (wp_and (hread.wp w) (wp_readResponseFrame env w)) (fun frame x hx => ?_)
    fun _ _ _ => trivial
  refine wp_branch (fun _ => hfail fun _ h => by cases h) fun hcode => ?_
  refine wp_ofExcept_bind (fun hello hparse => ?_) fun _ _ => trivial
  cases validateServerHelloPayload hello with
  | some text => exact hfail fun _ h => by cases h
  | none =>
      refine wp_branch (fun _ => hfail fun _ h => by cases h) fun hv => ?_
      refine wp_seq ((moves_trust env _).wp x) (fun trusted t ht => ?_) fun _ _ _ => trivial
      refine wp_branch (fun _ => (wp_pure _).mpr fun h => by cases h) fun _ => ?_
      rw [wp_bind]
      refine wp_update.mpr ((wp_pure _).mpr fun _ =>
        ⟨frame, hello, ?_, by simpa using hcode, hparse, by simpa using hv, rfl, fun name hn => ?_⟩)
      · exact (trace_of_none ht).trans hx.2
      · exact (ht.files name hn).trans (hx.1.files name fun h => h)

theorem handshake_greets (h : executeServerIdentityHandshake env w = (.ok true, u)) :
    ∃ frame hello, Greets env w u frame hello := by
  obtain ⟨n, x, hn, h⟩ := bind_eq_ok.mp h
  cases hn
  obtain ⟨⟨⟩, y, hsent, h⟩ := bind_eq_ok.mp h
  obtain ⟨verified, z, hverified, h⟩ := bind_eq_ok.mp h
  cases verified with
  | false => cases h
  | true =>
      obtain ⟨⟨⟩, v, hack, h⟩ := bind_eq_ok.mp h
      obtain rfl : v = u := (pure_eq_ok.mp h).2
      have hwrote (m : Bytes) : Keeps (Moves (fun e => ∃ m, e = .wrote m) (fun _ => False))
          (writeLogged env (.ok m)) := keeps_writeLogged env fun m _ => ⟨m, rfl⟩
      have hy := hwrote (build829ClientHello (env.nonce w.calls)) (ticked w)
      rw [show writeLogged env (.ok (build829ClientHello (env.nonce w.calls))) (ticked w) =
        (.ok (), y)
        from hsent] at hy
      have hv := hwrote build830ClientHandshakeAck z
      rw [show writeLogged env (.ok build830ClientHandshakeAck) z = (.ok (), v) from hack] at hv
      rcases attempt_eq_ok.mp hverified with hok | ⟨e, x, -, hf⟩
      swap
      · cases hf
      have hall := wp_verifyServerHello env (env.nonce w.calls) y
      rw [wp_of_eq_ok hok] at hall
      obtain ⟨frame, hello, htrace, hcode, hparse, hsig, hid, hfiles⟩ := hall rfl
      obtain ⟨pre, hpre, hprew⟩ := hy.events
      obtain ⟨post, hpost, hpostw⟩ := hv.events
      refine ⟨frame, hello, ⟨pre, post, ?_, ?_⟩, hcode, hparse, hsig, hv.identity.trans hid, ?_⟩
      · rw [hpost, htrace, hpre]
        rfl
      · intro e he
        rcases List.mem_append.mp he with he | he
        · exact hprew e he
        · exact hpostw e he
      · intro name hn
        exact (hv.files name fun h => h).trans ((hfiles name hn).trans (hy.files name fun h => h))

/-! ### The key of the call -/

theorem firstLine_key (key : Bytes) : firstLine (encodeBase64 key ++ [10]) = encodeBase64 key := by
  have hno : ∀ b ∈ encodeBase64 key, (decide (b ≠ 10)) = true := by
    intro b hb
    obtain ⟨c, hc, rfl⟩ := List.mem_map.mp hb
    obtain ⟨hlow, hhigh⟩ := Base64.encode_range key c hc
    rw [decide_eq_true_eq]
    intro h
    have hval : (UInt8.ofNat c.toNat).toNat = 10 := by rw [h]; rfl
    rw [UInt8.toNat_ofNat_of_lt' (by change c.toNat < 256; omega)] at hval
    omega
  unfold firstLine
  rw [List.takeWhile_append_of_pos hno]
  simp

theorem loadAesKey_some {b64 : Bytes} : loadAesKey env t = (.ok (some b64), u) ↔
    env.fileFails t.calls = false ∧ (∃ content, t.files kAesKey = some content ∧
      firstLine content = b64) ∧ u = ticked t := by
  have hopen : readAesKey env t = (.ok ((if env.fileFails t.calls then none
      else t.files kAesKey).map firstLine), ticked t) := readLine_eq env kAesKey t
  unfold loadAesKey
  rw [bind_ok hopen]
  cases hf : env.fileFails t.calls with
  | true =>
      constructor
      · intro h
        cases h
      · rintro ⟨h, -⟩
        cases h
  | false =>
      cases hc : t.files kAesKey with
      | none =>
          constructor
          · intro h
            cases h
          · rintro ⟨-, ⟨content, h, -⟩, -⟩
            cases h
      | some content =>
          constructor
          · intro h
            cases h
            exact ⟨rfl, ⟨content, rfl, rfl⟩, rfl⟩
          · rintro ⟨-, ⟨content', h, rfl⟩, rfl⟩
            cases h
            rfl

theorem connect_some {connects : Bool} {b64 : Bytes} :
    connectAndHandshake env connects w = (.ok (some b64), t) ↔ connects = true ∧
      ∃ u stored v x, executeServerIdentityHandshake env (setError [] w).2 = (.ok true, u) ∧
        readMeInfo env u = (.ok stored, v) ∧ enter env stored v = (.ok true, x) ∧
        loadAesKey env x = (.ok (some b64), t) := by
  change (if !connects then _ else _ : Client σ (Option Bytes)) (setError [] w).2 = _ ↔ _
  cases connects with
  | false =>
      constructor
      · intro h
        cases h
      · rintro ⟨h, -⟩
        cases h
  | true =>
      rw [if_neg (by simp), bind_eq_ok]
      constructor
      · rintro ⟨trusted, u, hu, h⟩
        cases trusted with
        | false => cases h
        | true =>
            obtain ⟨stored, v, hv, h⟩ := bind_eq_ok.mp h
            obtain ⟨ok, x, hx, h⟩ := bind_eq_ok.mp h
            cases ok with
            | false => cases h
            | true => exact ⟨rfl, u, stored, v, x, hu, hv, hx, h⟩
      · rintro ⟨-, u, stored, v, x, hu, hv, hx, h⟩
        refine ⟨true, u, hu, bind_eq_ok.mpr ⟨stored, v, hv, bind_eq_ok.mpr ⟨true, x, hx, h⟩⟩⟩

end

/-- Between the two states of a call the client verified a 1608 as its first response,
then a 1602 or 1605 whose signature covers the nonces and the public key of that
1608, and saved the key that it decrypts to, which is the one returned. -/
def Fresh {σ : Type} (env : ClientEnv σ) (w t : ClientWorld σ) (b64 : Bytes) : Prop :=
  ∃ (before after : List Event) (helloFrame : ResponseFrame) (hello : Res1608)
    (frame : ResponseFrame) (r : Res1602) (priv key : Bytes),
    t.trace = w.trace ++ before ++ [.read helloFrame] ++ after ∧
    (∀ e ∈ before, ∃ m, e = .wrote m) ∧
    helloFrame.code = ResCode.serverHello.value ∧ parse1608 helloFrame.payload = .ok hello ∧
    verifyServerHelloSignature env hello.securityVersion (env.nonce w.calls).val hello.serverNonce
      hello.serverPublicKeyDer hello.signature = true ∧
    [.read frame, .savedKey b64] <:+: after ∧
    (frame.code = ResCode.aesKey.value ∨ frame.code = ResCode.reloginOk.value) ∧
    parse1602 frame.payload = .ok r ∧
    verifyAesKeyBindingSignature env hello.securityVersion (env.nonce w.calls).val hello.serverNonce
      r.clientId frame.code r.encryptedKey hello.serverPublicKeyDer r.signature = true ∧
    t.files kPrivKey = some priv ∧ env.oaepDecrypt priv r.encryptedKey = some key ∧
    b64 = encodeBase64 key

/-- The handshake succeeds, no response of the dialogue saves a key, none ends it, and
`aes.key` can be read. -/
def Stale {σ : Type} (env : ClientEnv σ) (connects : Bool) (w : ClientWorld σ) : Prop :=
  connects = true ∧ ∃ u stored v t,
    executeServerIdentityHandshake env (setError [] w).2 = (.ok true, u) ∧
    readMeInfo env u = (.ok stored, v) ∧ Keyless env stored v t ∧
    env.fileFails t.calls = false ∧ (t.files kAesKey).isSome = true

section
variable {σ : Type} {env : ClientEnv σ} {w u v t : ClientWorld σ}

/-- A key saved after the handshake is fresh if it is still in the file. -/
theorem fresh_of_keyed {frame : ResponseFrame} {hello : Res1608} {content : Bytes}
    (hg : Greets env (setError [] w).2 u frame hello) (hv : Later u v) (hk : Keyed env v t)
    (ha : t.files kAesKey = some content) : Fresh env w (ticked t) (firstLine content) := by
  obtain ⟨key_frame, r, priv, key, hb⟩ := hk
  have hb := hb.around hv.grows (Later.refl t)
  obtain ⟨pre, post, htrace, hwrote⟩ := hg.trace
  obtain ⟨pre', post', htrace'⟩ := hb.trace
  have hid := hg.identity
  simp only [ClientFrames.identity, Prod.mk.injEq] at hid
  obtain ⟨hsv, hcn, hsn, -, hder⟩ := hid
  have hverified := hb.verified
  rw [hsv, hcn, hsn, hder] at hverified
  have hcontent : content = encodeBase64 key ++ [10] := by
    rcases hb.aes with h | h
    · exact Option.some.inj (ha.symm.trans h)
    · rw [ha] at h
      cases h
  rw [hcontent, firstLine_key]
  refine ⟨pre, post ++ pre' ++ [.read key_frame, .savedKey (encodeBase64 key)] ++ post',
    frame, hello,
    key_frame, r, priv, key, ?_, fun e he => hwrote e (List.mem_append_left _ he),
      hg.code, hg.parses,
    hg.verified, ⟨post ++ pre', post', rfl⟩, hb.code, hb.parses, hverified, hb.priv,
      hb.decrypts, rfl⟩
  change t.trace = _
  rw [htrace', htrace]
  simp only [List.append_assoc]
  rfl

/-- Without a saved key nothing is fresh. -/
theorem not_fresh {b64 : Bytes} (h : ∃ es, t.trace = w.trace ++ es ∧ ∀ e ∈ es, Unsaved e) :
    ¬ Fresh env w t b64 := by
  rintro ⟨before, after, helloFrame, hello, frame, r, priv, key, htrace, -, -, -, -,
    ⟨pre, post, hin⟩, -⟩
  obtain ⟨es, hes, hall⟩ := h
  have hes' : es = before ++ [.read helloFrame] ++ after := by
    rw [htrace, List.append_assoc, List.append_assoc, List.append_cancel_left_eq] at hes
    rw [← hes, List.append_assoc]
  refine hall (.savedKey b64) ?_ b64 rfl
  rw [hes', ← hin]
  simp

theorem later_greets {frame : ResponseFrame} {hello : Res1608} (h : Greets env w u frame hello) :
    ∃ es, u.trace = w.trace ++ es ∧ ∀ e ∈ es, Unsaved e := by
  obtain ⟨pre, post, htrace, hwrote⟩ := h.trace
  refine ⟨pre ++ [.read frame] ++ post, by rw [htrace]; simp, ?_⟩
  intro e he b64 hb
  subst hb
  simp only [List.mem_append, List.mem_singleton, reduceCtorEq, or_false] at he
  obtain ⟨m, hm⟩ := hwrote _ (List.mem_append.mpr he)
  cases hm

end

/-- The key that a call returns is the fresh one, unless the dialogue of the call is
stale. -/
theorem key_fresh_iff {σ : Type} (env : ClientEnv σ) (connects : Bool) (w : ClientWorld σ) :
    (∀ b64 t, connectAndHandshake env connects w = (.ok (some b64), t) → Fresh env w t b64) ↔
      ¬ Stale env connects w := by
  have hread (u : ClientWorld σ) : Later u (readMeInfo env u).2 := by
    have hk : Keeps (Moves Unsaved (fun _ => False)) (readMeInfo env) := keeps_readMeInfo env
    exact later_of_moves (hk u) (fun h => h) fun h => h
  constructor
  · rintro hall ⟨hconn, u, stored, v, x, hu, hv, hkeyless, hf, ha⟩
    obtain ⟨content, hcontent⟩ := Option.isSome_iff_exists.mp ha
    obtain ⟨henter, hlater⟩ := enter_keyless hkeyless
    have hrun := connect_some.mpr ⟨hconn, u, stored, v, x, hu, hv, henter,
      loadAesKey_some.mpr ⟨hf, ⟨content, hcontent, rfl⟩, rfl⟩⟩
    refine not_fresh ?_ (hall _ _ hrun)
    -- the handshake and the dialogue have left no key in the trace
    obtain ⟨frame, hello, hg⟩ := handshake_greets hu
    obtain ⟨es, hes, hno⟩ := later_greets hg
    have hux : Later u x := by
      have := hread u
      rw [hv] at this
      exact this.trans hlater
    obtain ⟨es', hes', hno'⟩ := hux.events
    refine ⟨es ++ es', ?_, ?_⟩
    · change x.trace = _
      rw [hes', hes, List.append_assoc]
      rfl
    · intro e he
      rcases List.mem_append.mp he with he | he
      · exact hno e he
      · exact hno' e he
  · intro hstale b64 t hrun
    obtain ⟨hconn, u, stored, v, x, hu, hv, henter, hload⟩ := connect_some.mp hrun
    obtain ⟨hf, ⟨content, hcontent, rfl⟩, rfl⟩ := loadAesKey_some.mp hload
    rcases enter_cases henter with hkeyless | hkeyed
    · refine (hstale ⟨hconn, u, stored, v, x, hu, hv, hkeyless, hf, ?_⟩).elim
      rw [hcontent]
      rfl
    · obtain ⟨frame, hello, hg⟩ := handshake_greets hu
      have huv := hread u
      rw [hv] at huv
      exact fresh_of_keyed hg huv hkeyed hcontent

/-! ### An answer in the place of the key -/

/-- The server's signatures are good. -/
def trusting : ClientEnv Unit := { scripted with verifyMessage := fun _ _ _ => true }

def serverHello : Bytes :=
  response .serverHello ([1] ++ List.replicate 32 7 ++ leBytes 2 3 ++ [1, 2, 3] ++ leBytes 2 256 ++
    List.replicate 256 0)

/-- A client that has logged in before meets a server that answers its relogin with
1604. -/
def returning : ClientWorld Unit where
  cc := { username := utf8Encode "u" }
  files name :=
    if name = kMeInfo then some (utf8Encode "u" ++ [10] ++ List.replicate 32 48 ++ [10])
    else if name = kAesKey then some (utf8Encode "OLD" ++ [10])
    else none
  incoming := serverHello ++ transferDone
  peer := ()
  trace := []
  calls := 0

def isSavedKey : Event → Bool
  | .savedKey _ => true
  | _ => false

/-- The call returns the key of the earlier run. -/
theorem old_key_returned :
    (connectAndHandshake trusting true returning).1 = .ok (some (utf8Encode "OLD")) ∧
      ¬ Fresh trusting returning (connectAndHandshake trusting true returning).2
        (utf8Encode "OLD") := by
  refine ⟨by decide +kernel, not_fresh ⟨_, (List.nil_append _).symm, ?_⟩⟩
  have hno : ∀ e ∈ (connectAndHandshake trusting true returning).2.trace,
      isSavedKey e = false := by decide +kernel
  intro e he b64 hb
  have := hno e he
  rw [hb] at this
  cases this

end Seftp.KeyFreshness
