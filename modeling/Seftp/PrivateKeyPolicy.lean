import Seftp.KeyFreshness

/-!
# When the client makes a private key

The policy is that a local identity keeps its private key: a file `priv.key` is never
replaced, and no key pair is made while `me.info` can be loaded. The overwrite guards
keep the first half on every path. The second half rests on the branch on `me.info`
alone, and the recovery of a relogin leaves it: a server that no longer knows the
client makes it register again with a new key pair, where the sibling recovery asks for
the old private key and stops without one. `Regenerates` lists the ways there.
-/
namespace Seftp.PrivateKeyPolicy
open LittleEndian ExceptState Text Protocol ClientProgram ClientDialogue ClientFrames
open ResponseSteps SuccessReports KeyFreshness

/-- `me.info` is there with its two lines. -/
def Loadable {σ : Type} (w : ClientWorld σ) : Prop :=
  ((w.files kMeInfo).bind parseMeInfo).isSome = true

/-- The policy for a call that begins at `w` and ends at `t`. The local identity is what
`load_identity` loads, the file `me.info`. -/
structure Policy {σ : Type} (w t : ClientWorld σ) : Prop where
  kept : (w.files kPrivKey).isSome = true ∨ Loadable w → t.files kPrivKey = w.files kPrivKey
  made : .madeKeypair ∈ t.trace.drop w.trace.length → ¬ Loadable w

/-- No key pair is made and `priv.key` is the same. -/
structure Spares {σ : Type} (w t : ClientWorld σ) : Prop where
  events : ∃ es, t.trace = w.trace ++ es ∧ .madeKeypair ∉ es
  priv : t.files kPrivKey = w.files kPrivKey

/-- A `priv.key` that is there stays. -/
structure Guards {σ : Type} (w t : ClientWorld σ) : Prop where
  events : ∃ es, t.trace = w.trace ++ es
  priv : ∀ der, w.files kPrivKey = some der → t.files kPrivKey = some der

/-- A key pair is made on the way. -/
def Makes {σ : Type} (w t : ClientWorld σ) : Prop :=
  ∃ es, t.trace = w.trace ++ es ∧ .madeKeypair ∈ es

section
variable {σ : Type} {env : ClientEnv σ} {w u v t : ClientWorld σ}

theorem Spares.refl (w : ClientWorld σ) : Spares w w :=
  ⟨⟨[], (List.append_nil _).symm, List.not_mem_nil⟩, rfl⟩

theorem Spares.trans (h : Spares w u) (h' : Spares u t) : Spares w t := by
  obtain ⟨es, hes, hno⟩ := h.events
  obtain ⟨es', hes', hno'⟩ := h'.events
  refine ⟨⟨es ++ es', by rw [hes', hes, List.append_assoc], ?_⟩, h'.priv.trans h.priv⟩
  intro hmem
  rcases List.mem_append.mp hmem with hmem | hmem
  · exact hno hmem
  · exact hno' hmem

theorem Spares.guards (h : Spares w t) : Guards w t := by
  obtain ⟨es, hes, -⟩ := h.events
  exact ⟨⟨es, hes⟩, fun der hd => h.priv.trans hd⟩

theorem Guards.refl (w : ClientWorld σ) : Guards w w := (Spares.refl w).guards

theorem Guards.trans (h : Guards w u) (h' : Guards u t) : Guards w t := by
  obtain ⟨es, hes⟩ := h.events
  obtain ⟨es', hes'⟩ := h'.events
  exact ⟨⟨es ++ es', by rw [hes', hes, List.append_assoc]⟩, fun der hd =>
    h'.priv der (h.priv der hd)⟩

instance : Std.Refl (Spares (σ := σ)) := ⟨Spares.refl⟩

instance : IsTrans (ClientWorld σ) Spares := ⟨fun _ _ _ => Spares.trans⟩

instance : Std.Refl (Guards (σ := σ)) := ⟨Guards.refl⟩

instance : IsTrans (ClientWorld σ) Guards := ⟨fun _ _ _ => Guards.trans⟩

theorem guards_of_later (h : Later w t) : Guards w t := ⟨h.grows.events, h.priv⟩

/-- What comes before and after the making of a key pair. -/
theorem Makes.around (hu : Guards w u) (h : Makes u v) (ht : Guards v t) : Makes w t := by
  obtain ⟨es, hes⟩ := hu.events
  obtain ⟨made, hmade, hmem⟩ := h
  obtain ⟨es', hes'⟩ := ht.events
  refine ⟨es ++ made ++ es', ?_, List.mem_append_left _ (List.mem_append_right _ hmem)⟩
  rw [hes', hmade, hes]
  simp only [List.append_assoc]

/-- A step with other events that leaves `priv.key` out. -/
theorem keeps_spares {α : Type} {T : Bytes → Prop} {x : Client σ α}
    (h : Keeps (Moves (fun e => e ≠ .madeKeypair) T) x) (hp : ¬ T kPrivKey) : Keeps Spares x := by
  refine h.mono fun w t hm => ?_
  obtain ⟨es, hes, hall⟩ := hm.events
  exact ⟨⟨es, hes, fun hmem => hall _ hmem rfl⟩, hm.files kPrivKey hp⟩

theorem keeps_guards {α : Type} {x : Client σ α} (h : Keeps Spares x) : Keeps Guards x :=
  h.mono fun _ _ hs => hs.guards

/-! ### The steps between the key pairs -/

theorem spares_writeLogged (env : ClientEnv σ) (message : Except String Bytes) :
    Keeps Spares (writeLogged env message) :=
  keeps_spares (T := fun _ => False) (keeps_writeLogged env fun _ _ h => by cases h) fun h => h

theorem spares_setError (text : Bytes) : Keeps Spares (setError text : Client σ Unit) :=
  keeps_spares (T := fun _ => False) (keeps_setError text) fun h => h

theorem spares_failWith (text : String) : Keeps Spares (failWith text : Client σ Bool) :=
  keeps_bind (spares_setError _) fun _ => keeps_pure _

theorem spares_openFile (env : ClientEnv σ) (fileName : Bytes) :
    Keeps Spares (openFile env fileName) :=
  keeps_spares (T := fun _ => False) (keeps_openFile env fileName) fun h => h

theorem not_answering_priv : ¬ Answering kPrivKey := by
  intro h
  exact h.elim apart_names.1 apart_names.2.1

theorem spares_answerManager (env : ClientEnv σ) : Keeps Spares (answerManager env none) := by
  refine keeps_spares (keeps_answerManager env none ?_ fun _ hn => hn) not_answering_priv
  intro e he h
  subst h
  rcases he with ⟨frame, h⟩ | ⟨b64, h⟩
  · cases h
  · cases h

/-- The handshake touches the fingerprint only. -/
theorem spares_handshake (env : ClientEnv σ) :
    Keeps Spares (executeServerIdentityHandshake env) := by
  have htrust (fingerprint : Bytes) : Keeps Spares (validateServerTrust env fingerprint) :=
    keeps_spares (keeps_mono (moves_trust env fingerprint) (fun _ h => h.elim) fun _ hn => hn)
      apart_names.2.2.2.2.1
  have hread : Keeps Spares (readResponseFrame env) :=
    keeps_spares (T := fun _ => False) (keeps_readResponseFrame env fun _ h =>
      by cases h) fun h => h
  have hverify (nonce : Nonce) : Keeps Spares (verifyServerHello env nonce) := by
    refine keeps_bind hread fun frame => keeps_ite (spares_failWith _) ?_
    refine keeps_ofExcept_bind fun hello _ => ?_
    cases validateServerHelloPayload hello with
    | some text => exact spares_failWith _
    | none =>
        refine keeps_ite (spares_failWith _) (keeps_bind (htrust _) fun trusted => ?_)
        refine keeps_ite (keeps_pure _) (keeps_bind (keeps_update fun w => ?_) fun _ =>
          keeps_pure _)
        exact ⟨⟨[], (List.append_nil _).symm, List.not_mem_nil⟩, rfl⟩
  refine keeps_bind (keeps_spares (T := fun _ => False) keeps_tick fun h => h) fun n => ?_
  refine keeps_bind (spares_writeLogged env _) fun _ => ?_
  refine keeps_bind (keeps_attempt (hverify _) fun _ => keeps_pure _) fun verified => ?_
  exact keeps_ite (keeps_bind (spares_writeLogged env _) fun _ => keeps_pure _) (keeps_pure _)

/-! ### Sending a public key -/

theorem guards_exchangeKeys (env : ClientEnv σ) (key : Bytes) :
    Keeps Guards (exchangeKeys env key) := by
  have hmake : Keeps Guards (makingRSAkeys env key) :=
    (later_makingRSAkeys env key).mono fun _ _ h => guards_of_later h
  refine keeps_bind (keeps_attempt (keeps_bind hmake fun _ => keeps_pure _) fun e =>
    keeps_guards (spares_failWith e)) fun made => keeps_ite (keeps_pure _) ?_
  exact keeps_bind (keeps_guards (spares_answerManager env)) fun _ => keeps_pure _

/-- The rest of `making_RSAkeys` after the private key. -/
theorem spares_publish (env : ClientEnv σ) (publicKeyB64 : Bytes) : Keeps Spares (do
    let saved ← writeMePublicKey env publicKeyB64
    if saved then do
      let cc ← look fun w => w.cc
      request826 env cc.username publicKeyB64 cc.clientId
    else raise "failed to save public key to me.info") := by
  refine keeps_bind (keeps_spares (keeps_writeMePublicKey env _ fun _ hn => hn) apart_names.2.1)
    fun saved => keeps_ite (keeps_bind keeps_look fun cc => ?_) (keeps_raise _)
  exact spares_writeLogged env _

/-- A private key that was loaded is sent again as it is. -/
theorem spares_exchangeKeys (env : ClientEnv σ) {key : Bytes} (h : key ≠ []) :
    Keeps Spares (exchangeKeys env key) := by
  have hsave (der : Bytes) : Keeps Spares (saveNewPrivateKey env key der) := by
    refine keeps_bind keeps_look fun there => ?_
    rw [if_pos h]
    exact keeps_pure _
  have hmake : Keeps Spares (makingRSAkeys env key) := by
    refine keeps_bind
      (keeps_spares (T := fun _ => False) (keeps_generate env key fun hk => (h hk).elim)
      fun h => h) fun pair => keeps_bind (hsave _) fun _ => spares_publish env _
  refine keeps_bind (keeps_attempt (keeps_bind hmake fun _ => keeps_pure _) fun e =>
    spares_failWith e)
    fun made => keeps_ite (keeps_pure _) ?_
  exact keeps_bind (spares_answerManager env) fun _ => keeps_pure _

/-- Without a loaded key a pair is made, or the library throws. -/
theorem wp_generate_new (env : ClientEnv σ) (w : ClientWorld σ) :
    wp (generateRsa2048KeypairDer env [])
      (fun _ t => (env.newKeypair w.calls).isSome = true ∧ Makes w t)
      (fun _ t => env.newKeypair w.calls = none ∧ Spares w t) w := by
  rw [generateRsa2048KeypairDer, wp_bind, wp_tick, if_pos rfl]
  cases env.newKeypair w.calls with
  | none => exact (wp_raise _).mpr ⟨rfl, ⟨[], (List.append_nil _).symm, List.not_mem_nil⟩, rfl⟩
  | some pair =>
      change wp (note .madeKeypair >>= fun _ => pure pair) _ _ _
      rw [wp_bind, wp_note, wp_pure]
      exact ⟨rfl, [.madeKeypair], rfl, List.mem_singleton_self _⟩

/-- What `exchangeKeys` does without a loaded key. -/
def Exchanged (env : ClientEnv σ) (w t : ClientWorld σ) : Prop :=
  ((env.newKeypair w.calls).isSome = true ∧ Makes w t) ∨
    (env.newKeypair w.calls = none ∧ Spares w t)

theorem exchangeKeys_new (env : ClientEnv σ) (w : ClientWorld σ) :
    Exchanged env w (exchangeKeys env [] w).2 := by
  suffices hall : wp (exchangeKeys env []) (fun _ t => Exchanged env w t)
      (fun _ t => Exchanged env w t) w from wp_state.mp hall
  have hfail {e : String} {x : ClientWorld σ} (hx : Exchanged env w (setError (utf8Encode e) x).2) :
      wp (failWith e) (fun made => wp (if !made then pure false
        else answerManager env none >>= fun r => pure (decide (r.1 ≠ .fatal)))
          (fun _ t => Exchanged env w t) fun _ t => Exchanged env w t)
        (fun _ t => Exchanged env w t) x := by
    rw [failWith, wp_bind]
    exact wp_update.mpr ((wp_pure _).mpr ((wp_pure _).mpr hx))
  have hrest (pair : Bytes × Bytes) : Keeps Guards (do
      saveNewPrivateKey env [] pair.1
      let saved ← writeMePublicKey env (encodeBase64 pair.2)
      if saved then do
        let cc ← look fun w => w.cc
        request826 env cc.username (encodeBase64 pair.2) cc.clientId
      else raise "failed to save public key to me.info") :=
    keeps_bind ((later_saveNewPrivateKey env [] _).mono fun _ _ h => guards_of_later h) fun _ =>
      keeps_guards (spares_publish env _)
  rw [exchangeKeys, wp_bind, wp_attempt, wp_bind, makingRSAkeys, wp_bind]
  refine wp_mono (wp_generate_new env w) (fun pair u hu => ?_) fun e u hu => ?_
  · -- whatever follows, the pair has been made
    have hafter {x : ClientWorld σ} (hx : Guards u x) : Exchanged env w x :=
      .inl ⟨hu.1, hu.2.around (Guards.refl w) hx⟩
    refine wp_mono ((hrest pair).wp u) (fun _ x hx => ?_) fun e x hx => ?_
    · rw [wp_pure]
      have hread :
          Keeps Guards (answerManager env none >>= fun r => pure (decide (r.1 ≠ .fatal))) :=
        keeps_bind (keeps_guards (spares_answerManager env)) fun _ => keeps_pure _
      exact wp_mono (hread.wp x) (fun _ _ h => hafter (hx.trans h)) fun _ _ h => hafter (hx.trans h)
    · exact hfail (hafter (hx.trans (keeps_guards (spares_setError _) x)))
  · exact hfail (.inr ⟨hu.1, hu.2.trans (spares_setError _ u)⟩)

end

/-! ### The ways to a new key pair -/

/-- The answer to 825 is not fatal and the library makes a key pair. -/
def SignsOn {σ : Type} (env : ClientEnv σ) (w : ClientWorld σ) : Prop :=
  GoesOn env (request825 env w.cc.username w).2 ∧
    (env.newKeypair (answered env (request825 env w.cc.username w).2).calls).isSome = true

/-- From the branch on `me.info` to the making of a key pair: the file could not be
opened, or the server answers 827 with a 1606 without an id, or with a 1606 that has
one while `priv.key` is an empty file. -/
inductive Reaches {σ : Type} (env : ClientEnv σ) : Option StoredIdentity → ClientWorld σ → Prop
  | unread {w : ClientWorld σ} (h : SignsOn env w) : Reaches env none w
  | forgotten {w : ClientWorld σ} {stored : StoredIdentity}
      (hname : stored.username = w.cc.username)
      (ha : Answers env (asked env stored w) .needRegister)
      (h : SignsOn env (answered env (asked env stored w))) : Reaches env (some stored) w
  | emptied {w v : ClientWorld σ} {stored : StoredIdentity}
      (hname : stored.username = w.cc.username)
      (ha : Answers env (asked env stored w) .needSendPublicKey)
      (hkey : readPrivateKey env (answered env (asked env stored w)) = (.ok (some []), v))
      (hmade : (env.newKeypair v.calls).isSome = true) : Reaches env (some stored) w

/-- The handshake of the call succeeds and the flow comes to a key pair. -/
def Generates {σ : Type} (env : ClientEnv σ) (connects : Bool) (w : ClientWorld σ) : Prop :=
  connects = true ∧ ∃ u stored v,
    executeServerIdentityHandshake env (setError [] w).2 = (.ok true, u) ∧
    readMeInfo env u = (.ok stored, v) ∧ Reaches env stored v

/-- It does so although `me.info` could be loaded when the call began. -/
def Regenerates {σ : Type} (env : ClientEnv σ) (connects : Bool) (w : ClientWorld σ) : Prop :=
  Loadable w ∧ Generates env connects w

section
variable {σ : Type} {env : ClientEnv σ} {w u v t : ClientWorld σ}

/-- A part of the flow either makes a key pair, and then in the ways `reach` lists, or
spares the private key. -/
def Decides (reach : Prop) (w t : ClientWorld σ) : Prop :=
  (reach ∧ Makes w t ∧ Guards w t) ∨ (¬ reach ∧ Spares w t)

theorem Decides.guards {reach : Prop} (h : Decides reach w t) : Guards w t := by
  rcases h with ⟨-, -, hg⟩ | ⟨-, hs⟩
  · exact hg
  · exact hs.guards

/-- A part that spares the private key before one that decides. -/
theorem Decides.after {reach reach' : Prop} (hu : Spares w u) (h : Decides reach u t)
    (hiff : reach' ↔ reach) : Decides reach' w t := by
  rcases h with ⟨hr, hm, hg⟩ | ⟨hr, hs⟩
  · exact .inl ⟨hiff.mpr hr, hm.around hu.guards (Guards.refl t), hu.guards.trans hg⟩
  · exact .inr ⟨fun h => hr (hiff.mp h), hu.trans hs⟩

/-- And one after it. -/
theorem Decides.before {reach : Prop} (h : Decides reach w u) (ht : Spares u t) :
    Decides reach w t := by
  rcases h with ⟨hr, hm, hg⟩ | ⟨hr, hs⟩
  · exact .inl ⟨hr, hm.around (Guards.refl w) ht.guards, hg.trans ht.guards⟩
  · exact .inr ⟨hr, hs.trans ht⟩

theorem exchangeKeys_decides (env : ClientEnv σ) (w : ClientWorld σ) :
    Decides ((env.newKeypair w.calls).isSome = true) w (exchangeKeys env [] w).2 := by
  rcases exchangeKeys_new env w with ⟨hsome, hm⟩ | ⟨hnone, hs⟩
  · exact .inl ⟨hsome, hm, guards_exchangeKeys env [] w⟩
  · exact .inr ⟨by simp [hnone], hs⟩

theorem signOn_decides (env : ClientEnv σ) (w : ClientWorld σ) :
    Decides (SignsOn env w) w (signOn env w).2 := by
  have hsent : request825 env w.cc.username w = (.ok (), (request825 env w.cc.username w).2) :=
    writeLogged_returns env _ w
  have hspare : Spares w (request825 env w.cc.username w).2 := spares_writeLogged env _ w
  have hanswer := spares_answerManager env (request825 env w.cc.username w).2
  change Decides _ w ((request825 env w.cc.username >>= fun _ => answerManager env none >>= fun r =>
    if r.1 = .fatal then pure false else exchangeKeys env []) w).2
  rw [bind_ok hsent]
  rcases ha : answerManager env none (request825 env w.cc.username w).2 with ⟨e | r, u⟩
  · rw [ha] at hanswer
    rw [bind_error ha]
    refine .inr ⟨?_, hspare.trans hanswer⟩
    rintro ⟨hgo, -⟩
    obtain ⟨r, h, -⟩ := goesOn_iff.mp hgo
    cases ha.symm.trans h
  · rw [ha] at hanswer
    have hu : answered env (request825 env w.cc.username w).2 = u := by rw [answered, ha]
    rw [bind_ok ha]
    by_cases hfatal : r.1 = .fatal
    · rw [if_pos hfatal]
      refine .inr ⟨?_, hspare.trans hanswer⟩
      rintro ⟨hgo, -⟩
      obtain ⟨r', h, hne⟩ := goesOn_iff.mp hgo
      cases ha.symm.trans h
      exact hne hfatal
    · rw [if_neg hfatal]
      refine (exchangeKeys_decides env u).after (hspare.trans hanswer) ⟨fun h => hu ▸ h.2, ?_⟩
      exact fun hmade => ⟨⟨r.1, answers_of_run ha, hfatal⟩, hu.symm ▸ hmade⟩

theorem relogin_decides (env : ClientEnv σ) (stored : StoredIdentity) (w : ClientWorld σ) :
    Decides (Reaches env (some stored) w) w (relogin env stored w).2 := by
  change Decides _ w ((if stored.username ≠ w.cc.username then _ else _ : Client σ Bool) w).2
  by_cases hname : stored.username = w.cc.username
  swap
  · rw [if_pos hname]
    refine .inr ⟨?_, keeps_bind (spares_setError _) (fun _ => keeps_pure _) w⟩
    intro h
    cases h with
    | forgotten h => exact hname h
    | emptied h => exact hname h
  rw [if_neg (by simpa using hname)]
  have hsent : request827 env w.cc.username stored.clientId
      { w with cc := { w.cc with clientId := stored.clientId } } = (.ok (), asked env stored w) :=
    writeLogged_returns env _ _
  have hasked : Spares w (asked env stored w) := by
    have hset : Spares w { w with cc := { w.cc with clientId := stored.clientId } } :=
      ⟨⟨[], (List.append_nil _).symm, List.not_mem_nil⟩, rfl⟩
    exact hset.trans (spares_writeLogged env _ _)
  change Decides _ w ((request827 env w.cc.username stored.clientId >>= _)
    { w with cc := { w.cc with clientId := stored.clientId } }).2
  rw [bind_ok hsent]
  have hanswer := spares_answerManager env (asked env stored w)
  rcases ha : answerManager env none (asked env stored w) with ⟨e | ⟨step, ok⟩, u⟩
  · rw [ha] at hanswer
    rw [bind_error ha]
    refine .inr ⟨?_, hasked.trans hanswer⟩
    have hno {step : NextStep} (h : Answers env (asked env stored w) step) : False := by
      obtain ⟨ok, h⟩ := run_of_answers none h
      cases ha.symm.trans h
    intro h
    cases h with
    | forgotten _ h => exact hno h
    | emptied _ h => exact hno h
  rw [ha] at hanswer
  rw [bind_ok ha]
  have hstep : Answers env (asked env stored w) step := answers_of_run ha
  have hafter : answered env (asked env stored w) = u := by rw [answered, ha]
  have hu : Spares w u := hasked.trans hanswer
  -- a step that is neither of the two recoveries ends here
  have hends (hreg : step ≠ .needRegister) (hsend : step ≠ .needSendPublicKey) :
      ¬ Reaches env (some stored) w := by
    intro h
    cases h with
    | forgotten _ h => exact hreg (hstep.unique h)
    | emptied _ h => exact hsend (hstep.unique h)
  cases step with
  | none => exact .inr ⟨hends (by simp) (by simp), hu⟩
  | fatal => exact .inr ⟨hends (by simp) (by simp), hu⟩
  | needRegister =>
      refine (signOn_decides env u).after hu ⟨?_, fun h => .forgotten hname hstep (hafter.symm ▸ h)⟩
      intro h
      cases h with
      | forgotten _ _ hs => exact hafter ▸ hs
      | emptied _ h => cases hstep.unique h
  | needSendPublicKey =>
      obtain ⟨priv, hread⟩ : ∃ priv, readPrivateKey env u = (.ok priv, ticked u) :=
        ⟨_, openFile_eq env kPrivKey u⟩
      have hopen : Spares u (readPrivateKey env u).2 := spares_openFile env kPrivKey u
      rw [hread] at hopen
      have hinv (h : Reaches env (some stored) w) :
          priv = some [] ∧ (env.newKeypair (ticked u).calls).isSome = true := by
        cases h with
        | forgotten _ h => cases hstep.unique h
        | emptied _ _ hkey hmade =>
            rw [hafter, hread] at hkey
            cases hkey
            exact ⟨rfl, hmade⟩
      change Decides _ w ((readPrivateKey env >>= _) u).2
      rw [bind_ok hread]
      rcases priv with _ | ⟨_ | ⟨b, key⟩⟩
      · refine .inr ⟨fun h => ?_, hu.trans (hopen.trans (spares_failWith _ _))⟩
        cases (hinv h).1
      · refine (exchangeKeys_decides env (ticked u)).after (hu.trans hopen)
          ⟨fun h => (hinv h).2, ?_⟩
        exact fun h => .emptied hname hstep (hafter.symm ▸ hread) h
      · refine .inr ⟨fun h => ?_, hu.trans (hopen.trans (spares_exchangeKeys env (by simp) _))⟩
        cases (hinv h).1

theorem enter_decides (env : ClientEnv σ) (stored : Option StoredIdentity) (w : ClientWorld σ) :
    Decides (Reaches env stored w) w (enter env stored w).2 := by
  cases stored with
  | none =>
      refine (signOn_decides env w).after (Spares.refl w) ⟨?_, .unread⟩
      intro h
      cases h with
      | unread h => exact h
  | some stored => exact relogin_decides env stored w

theorem spares_loadAesKey (env : ClientEnv σ) : Keeps Spares (loadAesKey env) := by
  refine keeps_bind (keeps_bind (spares_openFile env _) fun _ => keeps_pure _) fun key => ?_
  cases key with
  | none => exact keeps_bind (spares_setError _) fun _ => keeps_pure _
  | some key => exact keeps_pure _

theorem connect_decides (env : ClientEnv σ) (connects : Bool) (w : ClientWorld σ) :
    Decides (Generates env connects w) w (connectAndHandshake env connects w).2 := by
  have hstart : Spares w (setError [] w).2 := spares_setError [] w
  change Decides _ w ((if !connects then _ else _ : Client σ (Option Bytes)) (setError [] w).2).2
  cases connects with
  | false =>
      refine .inr ⟨?_, hstart.trans (keeps_bind (spares_setError _) (fun _ => keeps_pure _) _)⟩
      rintro ⟨h, -⟩
      cases h
  | true =>
      rw [if_neg (by simp)]
      have hshake := spares_handshake env (setError [] w).2
      rcases hh : executeServerIdentityHandshake env (setError [] w).2 with ⟨e | trusted, u⟩
      · rw [hh] at hshake
        rw [bind_error hh]
        refine .inr ⟨?_, hstart.trans hshake⟩
        rintro ⟨-, u', stored, v, h, -⟩
        rw [hh] at h
        cases h
      rw [hh] at hshake
      rw [bind_ok hh]
      cases trusted with
      | false =>
          refine .inr ⟨?_, hstart.trans hshake⟩
          rintro ⟨-, u', stored, v, h, -⟩
          rw [hh] at h
          cases h
      | true =>
          obtain ⟨stored, hread⟩ : ∃ stored, readMeInfo env u = (.ok stored, ticked u) := by
            rw [readMeInfo, bind_ok (openFile_eq env kMeInfo u)]
            exact ⟨_, rfl⟩
          have hopen : Spares u (ticked u) :=
            ⟨⟨[], (List.append_nil _).symm, List.not_mem_nil⟩, rfl⟩
          change Decides _ w ((readMeInfo env >>= fun stored => enter env stored >>= fun ok =>
            if ok then loadAesKey env else pure none) u).2
          rw [bind_ok hread]
          have henter : Decides (Generates env true w) w (enter env stored (ticked u)).2 := by
            refine (enter_decides env stored (ticked u)).after
              (hstart.trans (hshake.trans hopen)) ⟨?_, ?_⟩
            · rintro ⟨-, u', stored', v', h, h', hreach⟩
              rw [hh] at h
              cases h
              rw [hread] at h'
              cases h'
              exact hreach
            · exact fun hreach => ⟨rfl, u, stored, ticked u, hh, hread, hreach⟩
          rcases he : enter env stored (ticked u) with ⟨e | ok, x⟩
          · rw [he] at henter
            rw [bind_error he]
            exact henter
          · rw [he] at henter
            rw [bind_ok he]
            refine henter.before ?_
            cases ok with
            | true => exact spares_loadAesKey env x
            | false => exact Spares.refl x

end

/-- A call keeps to the policy unless it makes a key pair for an identity that could be
loaded. -/
theorem private_key_policy_iff {σ : Type} (env : ClientEnv σ) (connects : Bool)
    (w : ClientWorld σ) :
    Policy w (connectAndHandshake env connects w).2 ↔ ¬ Regenerates env connects w := by
  have hdecides := connect_decides env connects w
  constructor
  · rintro hpolicy ⟨hload, hreach⟩
    rcases hdecides with ⟨-, ⟨es, hes, hmem⟩, -⟩ | ⟨hno, -⟩
    · refine hpolicy.made ?_ hload
      rw [hes, List.drop_left]
      exact hmem
    · exact hno hreach
  · intro hno
    have hspares (hload : Loadable w) : Spares w (connectAndHandshake env connects w).2 := by
      rcases hdecides with ⟨hreach, -⟩ | ⟨-, hs⟩
      · exact (hno ⟨hload, hreach⟩).elim
      · exact hs
    constructor
    · rintro (hsome | hload)
      · obtain ⟨der, hder⟩ := Option.isSome_iff_exists.mp hsome
        rw [hder]
        exact hdecides.guards.priv der hder
      · exact (hspares hload).priv
    · intro hmem hload
      obtain ⟨es, hes, hnot⟩ := (hspares hload).events
      rw [hes, List.drop_left] at hmem
      exact hnot hmem

/-! ### A server that has forgotten the client -/

/-- The library makes key pairs. -/
def keyMaking : ClientEnv Unit := { trusting with newKeypair := fun _ => some ([1], [2]) }

/-- The client has logged in before and its private key is missing. The server answers
827 with a 1606 without an id and 825 with a new id. -/
def forgottenClient : ClientWorld Unit where
  cc := { username := utf8Encode "u" }
  files name :=
    if name = kMeInfo then some (utf8Encode "u" ++ [10] ++ List.replicate 32 48 ++ [10]) else none
  incoming := serverHello ++ response .reloginFail (List.replicate 16 0) ++
    response .registerOk (List.replicate 16 1)
  peer := ()
  trace := []
  calls := 0

/-- `me.info` could be loaded, `priv.key` was absent, and the call writes one. -/
theorem private_key_written_on_relogin :
    Loadable forgottenClient ∧ forgottenClient.files kPrivKey = none ∧
      (connectAndHandshake keyMaking true forgottenClient).2.files kPrivKey = some [1] ∧
      ¬ Policy forgottenClient (connectAndHandshake keyMaking true forgottenClient).2 := by
  have hload : Loadable forgottenClient := by
    unfold Loadable
    decide +kernel
  have hbefore : forgottenClient.files kPrivKey = none := by decide +kernel
  have hafter : (connectAndHandshake keyMaking true forgottenClient).2.files kPrivKey =
      some [1] := by
    decide +kernel
  refine ⟨hload, hbefore, hafter, fun hpolicy => ?_⟩
  have hkept := hpolicy.kept (.inr hload)
  rw [hbefore, hafter] at hkept
  cases hkept

end Seftp.PrivateKeyPolicy
