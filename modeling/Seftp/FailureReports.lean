import Seftp.KeyFreshness

/-!
# Failures that the client reports

A flow reports a failure when it returns and the context has a text for it. The
parts of a flow inside a `try` block do: whatever they throw has a text. A response
that is read outside of one has to be a whole frame that `answer_manager` can take,
and a server hello has to be one that its checks can judge, because the handler
around them sets no text. `FlowReads` and `SendReads` are the states in which the
two flows read outside a `try` block.
-/
namespace Seftp.FailureReports
open LittleEndian ExceptState Text Protocol ClientProgram ClientDialogue ClientUpload ClientFrames
open ResponseSteps SuccessReports KeyFreshness
open ResponseStream (cutResponse)

/-! ### Flows and the responses they read -/

section
variable {σ : Type}

/-- The flow returns, and where it returns a failure there is a text. -/
def Reports {α : Type} (x : Client σ α) (failure : α) (w : ClientWorld σ) : Prop :=
  ∃ a t, x w = (.ok a, t) ∧ (a = failure → t.cc.lastErrorText ≠ [])

/-- A trust file opens, or a fingerprint can be saved or given up. -/
def Trustable (env : ClientEnv σ) (w : ClientWorld σ) : Prop :=
  (env.fileFails w.calls = false ∧ (w.files kServerPin).isSome = true) ∨
    (env.fileFails (w.calls + 1) = false ∧ (w.files kFingerprint).isSome = true) ∨
      tmpStuck env true (w.calls + 2) = false

/-- The checks of a frame as the server's hello come to an end: a 1608 parses, and one
that is valid comes to a decision on trust. -/
def HelloJudged (env : ClientEnv σ) (nonce : Nonce) (frame : ResponseFrame) (w : ClientWorld σ) :
    Prop :=
  frame.code = ResCode.serverHello.value → ∃ hello, parse1608 frame.payload = .ok hello ∧
    (validateServerHelloPayload hello = none →
      verifyServerHelloSignature env hello.securityVersion nonce.val hello.serverNonce
        hello.serverPublicKeyDer hello.signature = true → Trustable env w)

/-- The bytes that come in begin with a whole frame that can be judged. -/
def Judged (env : ClientEnv σ) (nonce : Nonce) (w : ClientWorld σ) : Prop :=
  ∃ frame, (cutResponse (awaited env w).incoming).1 = .ok frame ∧ HelloJudged env nonce frame w

/-- The state in which the client waits for the hello. -/
def greeted (env : ClientEnv σ) (w : ClientWorld σ) : ClientWorld σ :=
  (request829 env (env.nonce w.calls) (ticked w)).2

/-- Where a registration reads: after 825 and, if the answer allows it, after 826. -/
inductive SignOnReads (env : ClientEnv σ) (w : ClientWorld σ) : ClientWorld σ → Prop
  | registered : SignOnReads env w (request825 env w.cc.username w).2
  | keyed {r : NextStep × Bool} {u v : ClientWorld σ}
      (ha : answerManager env none (request825 env w.cc.username w).2 = (.ok r, u))
      (hr : r.1 ≠ .fatal) (hk : makingRSAkeys env [] u = (.ok (), v)) : SignOnReads env w v

/-- Where the flow reads from the branch on `me.info` on. -/
inductive EnterReads (env : ClientEnv σ) :
    Option StoredIdentity → ClientWorld σ → ClientWorld σ → Prop
  | signedOn {w v : ClientWorld σ} (h : SignOnReads env w v) : EnterReads env none w v
  | asked {w : ClientWorld σ} {stored : StoredIdentity} (hname : stored.username = w.cc.username) :
      EnterReads env (some stored) w (asked env stored w)
  | again {w u v : ClientWorld σ} {stored : StoredIdentity} {ok : Bool}
      (hname : stored.username = w.cc.username)
      (ha : answerManager env none (KeyFreshness.asked env stored w) = (.ok (.needRegister, ok), u))
      (h : SignOnReads env u v) : EnterReads env (some stored) w v
  | resent {w u v x : ClientWorld σ} {stored : StoredIdentity} {ok : Bool} {key : Bytes}
      (hname : stored.username = w.cc.username)
      (ha : answerManager env none (KeyFreshness.asked env stored w) =
        (.ok (.needSendPublicKey, ok), u))
      (hkey : readPrivateKey env u = (.ok (some key), x))
      (hk : makingRSAkeys env key x = (.ok (), v)) : EnterReads env (some stored) w v

/-- Where `connect_and_handshake` reads after the server's identity is settled. -/
def FlowReads (env : ClientEnv σ) (w v : ClientWorld σ) : Prop :=
  ∃ u stored x, executeServerIdentityHandshake env (setError [] w).2 = (.ok true, u) ∧
    readMeInfo env u = (.ok stored, x) ∧ EnterReads env stored x v

/-- Where `send_single_file` reads after the attempts to upload. -/
def SendReads (env : ClientEnv σ) (isOpen : Bool) (key path : Bytes) (w v : ClientWorld σ) : Prop :=
  Starts isOpen key path w ∧
    request828Retry env key (normalizeUserPathInput path) (setError [] w).2 = (.ok (), v)

/-- `send_single_file` on a file system that may refuse to say what stands at a path:
`std::filesystem::exists` then throws. -/
def sendSingleFileFrom (refuses : Bytes → Bool) (env : ClientEnv σ) (isOpen : Bool)
    (aesKey path : Bytes) : Client σ Bool := do
  setError []
  if normalizeUserPathInput path ≠ [] ∧ refuses (normalizeUserPathInput path) = true then
    raise "filesystem error: cannot get file status"
  else sendSingleFile env isOpen aesKey path

end

/-! ### Exceptions with a text -/

section
variable {σ α β : Type} {env : ClientEnv σ} {w : ClientWorld σ}

theorem utf8Encode_ne_nil {e : String} (h : e ≠ "") : utf8Encode e ≠ [] := by
  intro hnil
  have hd := utf8Decode_utf8Encode e
  have hempty : utf8Encode e = utf8Encode "" := hnil.trans (by decide +kernel)
  rw [hempty, utf8Decode_utf8Encode] at hd
  exact h (Option.some.inj hd).symm

theorem append_ne_empty {a : String} (b : String) (h : a ≠ "") : a ++ b ≠ "" := by
  intro hab
  exact h (String.append_eq_empty_iff.mp hab).1

/-- Whatever `x` throws has a text. -/
def Telling (x : Client σ α) : Prop := ∀ w, wp x (fun _ _ => True) (fun e _ => e ≠ "") w

theorem telling_raise {e : String} (h : e ≠ "") : Telling (raise e : Client σ α) :=
  fun _ => (wp_raise e).mpr h

theorem telling_pure (a : α) : Telling (pure a : Client σ α) := fun _ => (wp_pure a).mpr trivial

theorem telling_returns {x : Client σ α} (h : ∀ w, ∃ a t, x w = (.ok a, t)) : Telling x := by
  intro w
  obtain ⟨a, t, hx⟩ := h w
  exact (wp_of_eq_ok hx).mpr trivial

theorem telling_bind {x : Client σ α} {f : α → Client σ β} (hx : Telling x)
    (hf : ∀ a, Telling (f a)) : Telling (x >>= f) :=
  fun w => wp_seq (hx w) (fun a t _ => hf a t) fun _ _ h => h

theorem telling_attempt {x : Client σ α} {h : String → Client σ α} (hx : Telling x)
    (hh : ∀ e, e ≠ "" → Telling (h e)) : Telling (attempt x h) :=
  fun w => wp_attempt.mpr (wp_mono (hx w) (fun _ _ _ => trivial) fun e t he => hh e he t)

theorem telling_ite {c : Prop} [Decidable c] {x y : Client σ α} (hx : Telling x) (hy : Telling y) :
    Telling (if c then x else y) := by
  split
  · exact hx
  · exact hy

theorem telling_update (f : ClientWorld σ → ClientWorld σ) : Telling (update f : Client σ Unit) :=
  fun _ => wp_update.mpr trivial

theorem telling_look (f : ClientWorld σ → α) : Telling (look f : Client σ α) :=
  fun _ => wp_look.mpr trivial

theorem telling_fails (env : ClientEnv σ) : Telling (fails env) := fun _ => wp_fails.mpr trivial

theorem telling_openFile (env : ClientEnv σ) (fileName : Bytes) : Telling (openFile env fileName) :=
  telling_returns fun w => ⟨_, _, openFile_eq env fileName w⟩

theorem telling_writeLogged (env : ClientEnv σ) (message : Except String Bytes) :
    Telling (writeLogged env message) :=
  telling_returns fun w => ⟨(), _, writeLogged_returns env message w⟩

theorem telling_removeTmp (env : ClientEnv σ) (tmp : Bytes) : Telling (removeTmp env tmp) :=
  telling_bind (telling_fails env) fun _ =>
    telling_ite (telling_raise (by decide)) (telling_update _)

theorem telling_atomicWrite (env : ClientEnv σ) (fileName content : Bytes) (ownerOnly : Bool) :
    Telling (atomicWrite env fileName content ownerOnly) := by
  have hgive : Telling (do
      removeTmp env (fileName ++ utf8Encode ".tmp")
      pure false) := telling_bind (telling_removeTmp env _) fun _ => telling_pure _
  refine telling_bind (telling_fails env) fun _ => telling_ite (telling_pure _) ?_
  refine telling_bind (telling_update _) fun _ => telling_bind (telling_fails env) fun _ => ?_
  refine telling_ite hgive ?_
  refine telling_bind (telling_ite (telling_fails env) (telling_pure _)) fun _ => ?_
  refine telling_ite hgive (telling_bind ?_ fun _ => telling_bind (telling_fails env) fun _ => ?_)
  · exact telling_bind (telling_fails env) fun _ => telling_ite (telling_pure _) (telling_update _)
  · refine telling_ite hgive ?_
    exact telling_bind (telling_update _) fun _ =>
      telling_bind (telling_update _) fun _ => telling_pure _

theorem telling_generate (env : ClientEnv σ) (key : Bytes) :
    Telling (generateRsa2048KeypairDer env key) := by
  refine telling_bind (fun _ => wp_tick.mpr trivial) fun n => telling_ite ?_ ?_
  · cases env.newKeypair n with
    | some pair => exact telling_bind (telling_update _) fun _ => telling_pure _
    | none => exact telling_raise (by decide)
  · cases env.publicOf key with
    | some der => exact telling_pure _
    | none => exact telling_raise (by decide)

theorem telling_saveNewPrivateKey (env : ClientEnv σ) (key der : Bytes) :
    Telling (saveNewPrivateKey env key der) := by
  refine telling_bind (telling_look _) fun there => telling_ite (telling_pure _) ?_
  refine telling_ite (telling_raise (by decide)) (telling_ite (telling_raise (by decide)) ?_)
  refine telling_bind ?_ fun saved => telling_ite (telling_pure _) (telling_raise (by decide))
  exact telling_bind (telling_look _) fun _ =>
    telling_ite (telling_pure _) (telling_atomicWrite env _ _ _)

theorem telling_makingRSAkeys (env : ClientEnv σ) (key : Bytes) :
    Telling (makingRSAkeys env key) := by
  refine telling_bind (telling_generate env key) fun pair => ?_
  refine telling_bind (telling_saveNewPrivateKey env key pair.1) fun _ => ?_
  refine telling_bind ?_ fun saved => ?_
  · refine telling_bind (telling_bind (telling_openFile env _) fun _ => telling_pure _) ?_
    intro stored
    cases stored with
    | none => exact telling_pure _
    | some me => exact telling_atomicWrite env _ _ _
  · refine telling_ite (telling_bind (telling_look _) fun _ => ?_) (telling_raise (by decide))
    exact telling_writeLogged env _

end

/-! ### One response -/

section
variable {σ : Type} {env : ClientEnv σ} {w : ClientWorld σ}

theorem same_removeTmp (env : ClientEnv σ) (tmp : Bytes) :
    Keeps (Same (·.cc)) (removeTmp env tmp) :=
  keeps_bind (fun _ => rfl) fun _ => keeps_ite (keeps_raise _) fun _ => rfl

theorem same_atomicWrite (env : ClientEnv σ) (fileName content : Bytes) (ownerOnly : Bool) :
    Keeps (Same (·.cc)) (atomicWrite env fileName content ownerOnly) := by
  have hfails : Keeps (Same (·.cc)) (fails env) := fun _ => rfl
  have hset (name : Bytes) (c : Option Bytes) :
      Keeps (Same (·.cc)) (setFile name c : Client σ Unit) := fun _ => rfl
  have hgive : Keeps (Same (·.cc)) (do
      removeTmp env (fileName ++ utf8Encode ".tmp")
      pure false) := keeps_bind (same_removeTmp env _) fun _ => keeps_pure _
  refine keeps_bind hfails fun _ => keeps_ite (keeps_pure _) ?_
  refine keeps_bind (hset _ _) fun _ => keeps_bind hfails fun _ => keeps_ite hgive ?_
  refine keeps_bind (keeps_ite hfails (keeps_pure _)) fun _ => keeps_ite hgive ?_
  refine keeps_bind (keeps_bind hfails fun _ => keeps_ite (keeps_pure _) (hset _ _)) fun _ => ?_
  refine keeps_bind hfails fun _ => keeps_ite hgive ?_
  exact keeps_bind (hset _ _) fun _ => keeps_bind (hset _ _) fun _ => keeps_pure _

theorem cutResponse_error {stream : Bytes} {e : String} (h : (cutResponse stream).1 = .error e) :
    e ≠ "" := by
  unfold cutResponse at h
  split_ifs at h
  · cases h
    decide
  · cases h
    decide
  · cases h
    decide

theorem wp_fatal_text {text : Bytes} (h : text ≠ []) :
    wp (fatal text : Client σ NextStep) (fun step t => step = .fatal → t.cc.lastErrorText ≠ [])
      (fun _ _ => False) w := by
  rw [fatal, wp_bind]
  exact wp_update.mpr ((wp_pure _).mpr fun _ => h)

/-- Whatever goes wrong with a key is reported. -/
theorem wp_acceptAesKey_text (env : ClientEnv σ) (frame : ResponseFrame) (w : ClientWorld σ) :
    wp (acceptAesKey env frame) (fun step t => step = .fatal → t.cc.lastErrorText ≠ [])
      (fun _ _ => False) w := by
  have hdecrypt (c : Bytes) : Telling (rsaOaepSha1DecryptFromFile env c) := by
    refine telling_ite (telling_raise (by decide)) ?_
    refine telling_bind (telling_openFile env _) fun priv => ?_
    rcases priv.bind fun der => env.oaepDecrypt der c with _ | decrypted
    · exact telling_raise (by decide)
    · exact telling_ite (telling_raise (by decide)) (telling_pure _)
  have hanswer (c : Bytes) : Telling (answer1602 env c) := by
    refine telling_bind (telling_attempt (hdecrypt c) fun e _ => ?_) fun decrypted => ?_
    · exact telling_raise (append_ne_empty e (by decide))
    · refine telling_bind (telling_bind (telling_atomicWrite env _ _ _) fun saved => ?_) fun _ =>
        telling_pure _
      exact telling_ite (telling_bind (telling_update _) fun _ => telling_pure _) (telling_pure _)
  have hhandle (r : Res1602) : Telling (handle1602Or1605 env frame.code r) := by
    refine telling_bind (telling_look _) fun cc => telling_ite (telling_raise (by decide)) ?_
    refine telling_ite (telling_raise (by decide)) (telling_ite (telling_raise (by decide)) ?_)
    exact telling_bind (telling_ite (hanswer _) (hanswer _)) fun _ => telling_pure _
  have hparse (e : String) (h : parse1602 frame.payload = .error e) : e ≠ "" := by
    unfold parse1602 at h
    dsimp only at h
    split_ifs at h <;> cases h <;> decide
  rw [acceptAesKey, wp_attempt]
  refine wp_ofExcept_bind (fun r _ => ?_) fun e he =>
    wp_fatal_text (utf8Encode_ne_nil (hparse e he))
  refine wp_seq (hhandle r w) (fun clientId t _ => ?_) fun e t he =>
    wp_fatal_text (utf8Encode_ne_nil he)
  rw [wp_bind]
  exact wp_update.mpr ((wp_pure _).mpr fun h => by cases h)

theorem errorText_ne_nil (payload : Bytes) : errorText payload ≠ [] := by
  unfold errorText
  dsimp only
  split_ifs with h₁ h₂
  · decide +kernel
  · decide +kernel
  · exact h₂

/-- A fatal step has a text, and so has an exception. -/
def Worded (x : Client σ (NextStep × Bool)) (w : ClientWorld σ) : Prop :=
  wp x (fun r t => r.1 = .fatal → t.cc.lastErrorText ≠ []) (fun e _ => e ≠ "") w

section
variable {frame : ResponseFrame}

/-- A step that does not throw and has a text where it is fatal. -/
theorem worded_step {x : Client σ NextStep}
    (h : wp x (fun step t => step = .fatal → t.cc.lastErrorText ≠ []) (fun _ _ => False) w) :
    Worded (do
      let step ← x
      pure (step, false)) w :=
  wp_then h fun _ _ hstep => (wp_pure _).mpr hstep

theorem wp_handle1606_text (payload : Bytes) (w : ClientWorld σ) :
    wp (handle1606 payload : Client σ NextStep)
      (fun step t => step = .fatal → t.cc.lastErrorText ≠ []) (fun _ _ => False) w := by
  unfold handle1606
  refine wp_branch (fun _ => ?_) fun _ => wp_branch (fun _ => ?_) fun _ => ?_
  · exact wp_fatal_text (utf8Encode_ne_nil (by decide))
  · rw [wp_bind]
    exact wp_update.mpr ((wp_pure _).mpr fun h => by cases h)
  · rw [wp_bind]
    exact wp_update.mpr ((wp_pure _).mpr fun h => by cases h)

theorem worded_registered (w : ClientWorld σ) : Worded (do
    let payload ← ofExcept (parse1600 frame.payload)
    let clientId ← answer1600 env payload
    onContext fun cc => { cc with clientId }
    pure (NextStep.none, false)) w := by
  refine wp_ofExcept_bind (fun payload _ => ?_) fun e he => ?_
  · rw [wp_bind, answer1600, wp_bind, wp_look]
    refine wp_seq (telling_atomicWrite env kMeInfo _ false w) (fun saved t _ => ?_) fun _ _ he => he
    rw [wp_ite]
    split_ifs <;> rw [wp_pure, wp_bind] <;>
      exact wp_update.mpr ((wp_pure _).mpr fun h => by cases h)
  · unfold parse1600 at he
    split_ifs at he
    cases he
    decide

theorem worded_checksum (originalCrc : Option UInt32) (w : ClientWorld σ) : Worded (do
    let r ← ofExcept (parse1603 frame.payload)
    pure (NextStep.none, originalCrc.any fun crc => r.serverCrc = crc.toNat)) w := by
  refine wp_ofExcept_bind (fun r _ => (wp_pure _).mpr fun h => by cases h) fun e he => ?_
  unfold parse1603 at he
  dsimp only at he
  split_ifs at he
  cases he
  decide

theorem worded_dispatch (env : ClientEnv σ) (originalCrc : Option UInt32) (frame : ResponseFrame)
    (w : ClientWorld σ) : Worded (dispatch env originalCrc frame) w := by
  unfold dispatch
  rcases ResCode.ofValue frame.code with _ | code
  · exact worded_step (wp_fatal_text (utf8Encode_ne_nil (append_ne_empty _ (by decide))))
  cases code with
  | registerOk => exact worded_registered w
  | crcResult => exact worded_checksum originalCrc w
  | registerFail => exact worded_step (wp_fatal_text (utf8Encode_ne_nil (by decide)))
  | aesKey => exact worded_step (wp_acceptAesKey_text env frame w)
  | reloginOk => exact worded_step (wp_acceptAesKey_text env frame w)
  | reloginFail => exact worded_step (wp_handle1606_text _ w)
  | transferDone => exact (wp_pure _).mpr fun h => by cases h
  | error => exact worded_step (wp_fatal_text (errorText_ne_nil _))
  | serverHello =>
      exact worded_step (wp_fatal_text (utf8Encode_ne_nil (append_ne_empty _ (by decide))))

end

/-- One response is answered exactly when it is answerable, and otherwise throws. -/
theorem wp_answerManager_text (env : ClientEnv σ) (originalCrc : Option UInt32)
    (w : ClientWorld σ) :
    wp (answerManager env originalCrc)
      (fun r t => Answerable env w ∧ (r.1 = .fatal → t.cc.lastErrorText ≠ []))
      (fun e _ => ¬ Answerable env w ∧ e ≠ "") w := by
  refine wp_seq (wp_read env w) (fun frame t ht => ?_) fun e t he => ?_
  · have hd :=
      wp_and (wp_dispatch_asks env originalCrc frame t) (worded_dispatch env originalCrc frame t)
    rw [show t.calls = w.calls from congrArg (·.2.2) ht.2] at hd
    refine wp_mono hd (fun r x hr => ⟨⟨frame, ht.1, hr.1.1⟩, hr.2⟩) fun e x he => ⟨?_, he.2⟩
    rintro ⟨frame', hframe', htaken⟩
    cases ht.1.symm.trans hframe'
    exact he.1 htaken
  · refine ⟨?_, cutResponse_error he.1⟩
    rintro ⟨frame', hframe', -⟩
    rw [he.1] at hframe'
    cases hframe'

end

/-! ### Registration and login -/

section
variable {σ : Type} {env : ClientEnv σ} {w u t : ClientWorld σ} {cond : Prop} {key : Bytes}

/-- The program throws exactly where `cond` fails, and false has a text. -/
def Settles (cond : Prop) (x : Client σ Bool) (w : ClientWorld σ) : Prop :=
  wp x (fun ok t => cond ∧ (ok = false → t.cc.lastErrorText ≠ [])) (fun _ _ => ¬ cond) w

theorem Settles.congr {cond' : Prop} {x : Client σ Bool} (h : Settles cond x w)
    (hiff : cond' ↔ cond) : Settles cond' x w := by
  rwa [Settles, hiff]

theorem answer_ok {r : NextStep × Bool} (h : answerManager env none w = (.ok r, t)) :
    Answerable env w ∧ (r.1 = .fatal → t.cc.lastErrorText ≠ []) :=
  (wp_of_eq_ok h).mp (wp_answerManager_text env none w)

theorem answer_error {e : String} (h : answerManager env none w = (.error e, t)) :
    ¬ Answerable env w :=
  ((wp_of_eq_error h).mp (wp_answerManager_text env none w)).1

/-- The last response of a flow. -/
theorem settles_last (env : ClientEnv σ) (w : ClientWorld σ) :
    Settles (Answerable env w) (do
      let (step, _) ← answerManager env
      pure (step ≠ .fatal)) w := by
  refine wp_seq (wp_answerManager_text env none w) (fun r t hr => ?_) fun _ _ he => he.1
  exact (wp_pure _).mpr ⟨hr.1, fun h => hr.2 (by simpa using h)⟩

theorem settles_failWith {text : String} (h : text ≠ "") (hc : cond) :
    Settles cond (failWith text) w := by
  rw [Settles, failWith, wp_bind]
  exact wp_update.mpr ((wp_pure _).mpr ⟨hc, fun _ => utf8Encode_ne_nil h⟩)

theorem exchangeKeys_settles (env : ClientEnv σ) (key : Bytes) (w : ClientWorld σ) :
    Settles (∀ v, makingRSAkeys env key w = (.ok (), v) → Answerable env v) (exchangeKeys env key)
      w := by
  have htell := telling_makingRSAkeys env key w
  rw [Settles, exchangeKeys, wp_bind, wp_attempt, wp_bind]
  rcases hk : makingRSAkeys env key w with ⟨e | ⟨⟩, u⟩
  · rw [wp_of_eq_error hk] at htell
    rw [wp_of_eq_error hk, failWith, wp_bind]
    refine wp_update.mpr ((wp_pure _).mpr ?_)
    rw [if_pos (by simp), wp_pure]
    refine ⟨fun v hv => ?_, fun _ => utf8Encode_ne_nil htell⟩
    cases hv
  · rw [wp_of_eq_ok hk, wp_pure, if_neg (by simp)]
    refine (settles_last env u).congr ⟨fun h => h u rfl, fun h v hv => ?_⟩
    cases hv
    exact h

theorem signOn_settles (env : ClientEnv σ) (w : ClientWorld σ) :
    Settles (∀ v, SignOnReads env w v → Answerable env v) (signOn env) w := by
  have hsent : request825 env w.cc.username w = (.ok (), (request825 env w.cc.username w).2) :=
    writeLogged_returns env _ w
  rw [Settles, signOn, wp_bind, wp_look, wp_bind, wp_of_eq_ok hsent, wp_bind]
  rcases ha : answerManager env none (request825 env w.cc.username w).2 with ⟨e | r, u⟩
  · rw [wp_of_eq_error ha]
    exact fun h => answer_error ha (h _ .registered)
  · rw [wp_of_eq_ok ha]
    obtain ⟨hans, htext⟩ := answer_ok ha
    change wp (if r.1 = .fatal then _ else _) _ _ _
    by_cases hr : r.1 = .fatal
    · rw [if_pos hr, wp_pure]
      refine ⟨fun v hv => ?_, fun _ => htext hr⟩
      cases hv with
      | registered => exact hans
      | keyed ha' hr' =>
          rw [ha] at ha'
          cases ha'
          exact (hr' hr).elim
    · rw [if_neg hr]
      refine (exchangeKeys_settles env [] u).congr
        ⟨fun h v hk => h v (.keyed ha hr hk), fun h v hv => ?_⟩
      cases hv with
      | registered => exact hans
      | keyed ha' _ hk =>
          rw [ha] at ha'
          cases ha'
          exact h v hk

theorem relogin_settles (env : ClientEnv σ) (stored : StoredIdentity) (w : ClientWorld σ) :
    Settles (∀ v, EnterReads env (some stored) w v → Answerable env v) (relogin env stored) w := by
  rw [Settles, relogin, wp_bind, wp_look]
  by_cases hname : stored.username = w.cc.username
  swap
  · rw [if_pos hname, wp_bind]
    refine wp_update.mpr ((wp_pure _).mpr ⟨fun v hv => ?_, fun _ h => ?_⟩)
    · cases hv with
      | asked h | again h | resent h => exact (hname h).elim
    · have hfront := (List.append_eq_nil_iff.mp (List.append_eq_nil_iff.mp
        (List.append_eq_nil_iff.mp h).1).1).1
      exact utf8Encode_ne_nil (by decide) hfront
  rw [if_neg (by simpa using hname), wp_bind]
  refine wp_update.mpr ?_
  have hsent : request827 env w.cc.username stored.clientId
      { w with cc := { w.cc with clientId := stored.clientId } } = (.ok (), asked env stored w) :=
    writeLogged_returns env _ _
  rw [wp_bind, wp_of_eq_ok hsent, wp_bind]
  rcases ha : answerManager env none (asked env stored w) with ⟨e | ⟨step, ok⟩, u⟩
  · rw [wp_of_eq_error ha]
    exact fun h => answer_error ha (h _ (.asked hname))
  rw [wp_of_eq_ok ha]
  obtain ⟨hans, htext⟩ := answer_ok ha
  -- what is read later depends on the step
  have hreads {P : ClientWorld σ → Prop}
      (hagain : ∀ v, step = .needRegister → SignOnReads env u v → P v)
      (hresent : ∀ key x v, step = .needSendPublicKey → readPrivateKey env u = (.ok (some key), x) →
        makingRSAkeys env key x = (.ok (), v) → P v) (hfirst : P (asked env stored w))
      (v : ClientWorld σ) (hv : EnterReads env (some stored) w v) : P v := by
    cases hv with
    | asked => exact hfirst
    | again _ ha' h =>
        rw [ha] at ha'
        cases ha'
        exact hagain v rfl h
    | resent _ ha' hkey hk =>
        rw [ha] at ha'
        cases ha'
        exact hresent _ _ v rfl hkey hk
  cases step with
  | none => exact (wp_pure _).mpr ⟨hreads (by simp) (by simp) hans, fun h => by cases h⟩
  | fatal => exact (wp_pure _).mpr ⟨hreads (by simp) (by simp) hans, fun _ => htext rfl⟩
  | needRegister =>
      refine (signOn_settles env u).congr ⟨fun h v hv => h v (.again hname ha hv), fun h => ?_⟩
      exact hreads (fun v _ hv => h v hv) (by simp) hans
  | needSendPublicKey =>
      have hopen : readPrivateKey env u = (.ok (if env.fileFails u.calls then none
          else u.files kPrivKey), ticked u) := openFile_eq env kPrivKey u
      change wp (readPrivateKey env >>= _) _ _ _
      rw [wp_bind, wp_of_eq_ok hopen]
      rcases hpriv : (if env.fileFails u.calls then none else u.files kPrivKey) with _ | key
      · refine settles_failWith (by decide) (hreads (by simp) (fun key x v _ hkey _ => ?_) hans)
        rw [hopen, hpriv] at hkey
        cases hkey
      · rw [hpriv] at hopen
        refine (exchangeKeys_settles env key (ticked u)).congr ⟨fun h v hk => ?_, fun h => ?_⟩
        · exact h v (.resent hname ha hopen hk)
        · refine hreads (by simp) (fun key' x v _ hkey hk => ?_) hans
          rw [hopen] at hkey
          cases hkey
          exact h v hk

theorem enter_settles (env : ClientEnv σ) (stored : Option StoredIdentity) (w : ClientWorld σ) :
    Settles (∀ v, EnterReads env stored w v → Answerable env v) (enter env stored) w := by
  cases stored with
  | none =>
      refine (signOn_settles env w).congr ⟨fun h v hv => h v (.signedOn hv), fun h v hv => ?_⟩
      cases hv with
      | signedOn hv => exact h v hv
  | some stored => exact relogin_settles env stored w

end

/-! ### The server's identity -/

section
variable {σ : Type} {env : ClientEnv σ} {w u t : ClientWorld σ}

/-- A failure that is not the answer leaves what the context said. -/
def Speaks (cond : Prop) (x : Client σ Bool) (w : ClientWorld σ) : Prop :=
  wp x (fun ok t => cond ∧ (ok = false → t.cc.lastErrorText ≠ []))
    (fun _ t => ¬ cond ∧ t.cc.lastErrorText = w.cc.lastErrorText) w

theorem speaks_failWith {text : String} {cond : Prop} (h : text ≠ "") (hc : cond) :
    Speaks cond (failWith text) w := by
  rw [Speaks, failWith, wp_bind]
  exact wp_update.mpr ((wp_pure _).mpr ⟨hc, fun _ => utf8Encode_ne_nil h⟩)

theorem speaks_compare (line fingerprint : Bytes) {text : String} {cond : Prop} (h : text ≠ "")
    (hc : cond) :
    Speaks cond (if trimCopy line ≠ fingerprint then failWith text else pure true) w := by
  refine wp_branch (fun _ => ?_) fun _ => ?_
  · exact speaks_failWith h hc
  · exact (wp_pure _).mpr ⟨hc, fun h => by cases h⟩

theorem speaks_trust (env : ClientEnv σ) (fingerprint : Bytes) (w : ClientWorld σ) :
    Speaks (Trustable env w) (validateServerTrust env fingerprint) w := by
  have hopens {n : ℕ} {fileName : Bytes} {text : Bytes}
      (h : (if env.fileFails n then none else w.files fileName) = some text) :
      env.fileFails n = false ∧ (w.files fileName).isSome = true := by
    split_ifs at h with hf
    exact ⟨by simpa using hf, by rw [h]; rfl⟩
  have hshut {n : ℕ} {fileName : Bytes}
      (h : (if env.fileFails n then none else w.files fileName) = none) :
      ¬ (env.fileFails n = false ∧ (w.files fileName).isSome = true) := by
    rintro ⟨hf, hs⟩
    rw [hf, if_neg (by simp)] at h
    rw [h] at hs
    cases hs
  rw [Speaks, validateServerTrust, readServerPin, wp_bind, wp_of_eq_ok (readLine_eq env _ w)]
  rcases hpin : (if env.fileFails w.calls then none else w.files kServerPin) with _ | pin
  swap
  · have hc : Trustable env w := .inl (hopens hpin)
    exact speaks_compare (w := ticked w) (firstLine pin) fingerprint (by decide) hc
  have hsecond : readFingerprint env (ticked w) = (.ok ((if env.fileFails (w.calls + 1) then none
      else w.files kFingerprint).map firstLine), ticked (ticked w)) :=
    readLine_eq env kFingerprint (ticked w)
  change wp (readFingerprint env >>= _) _ _ _
  rw [wp_bind, wp_of_eq_ok hsecond]
  rcases hstored : (if env.fileFails (w.calls + 1) then none else w.files kFingerprint) with
    _ | stored
  swap
  · have hc : Trustable env w := .inr (.inl (hopens hstored))
    exact speaks_compare (w := ticked (ticked w)) (firstLine stored) fingerprint (by decide) hc
  have hwrite := wp_and
    (wp_atomicWrite_stuck env kFingerprint (fingerprint ++ [10]) true (ticked (ticked w)))
    ((same_atomicWrite env kFingerprint (fingerprint ++ [10]) true).wp (ticked (ticked w)))
  refine wp_seq hwrite (fun saved t hs => ?_) fun e t he => ⟨?_, ?_⟩
  · have hc : Trustable env w := .inr (.inr hs.1.1)
    rw [wp_ite]
    split_ifs
    · exact (wp_pure _).mpr ⟨hc, fun h => by cases h⟩
    · rw [failWith, wp_bind]
      exact wp_update.mpr ((wp_pure _).mpr ⟨hc, fun _ => utf8Encode_ne_nil (by decide)⟩)
  · rintro (h | h | h)
    · exact hshut hpin h
    · exact hshut hstored h
    · have hstuck : tmpStuck env true (w.calls + 2) = true := he.1
      rw [h] at hstuck
      cases hstuck
  · exact congrArg (·.lastErrorText) he.2

theorem validate_text {hello : Res1608} {text : String}
    (h : validateServerHelloPayload hello = some text) : text ≠ "" := by
  unfold validateServerHelloPayload at h
  split_ifs at h <;> cases h <;> decide

theorem trustable_same {x : ClientWorld σ}
    (h : (x.cc, x.files, x.calls) = (w.cc, w.files, w.calls)) :
    Trustable env x ↔ Trustable env w := by
  have hfiles : x.files = w.files := congrArg (·.2.1) h
  have hcalls : x.calls = w.calls := congrArg (·.2.2) h
  rw [Trustable, Trustable, hfiles, hcalls]

/-- The frame that is judged is the one that is read. -/
theorem judged_iff {nonce : Nonce} {frame : ResponseFrame}
    (h : (cutResponse (awaited env w).incoming).1 = .ok frame) :
    Judged env nonce w ↔ HelloJudged env nonce frame w := by
  constructor
  · rintro ⟨frame', hframe', hj⟩
    rw [h] at hframe'
    cases hframe'
    exact hj
  · exact fun hj => ⟨frame, h, hj⟩

theorem speaks_hello (env : ClientEnv σ) (nonce : Nonce) (w : ClientWorld σ) :
    Speaks (Judged env nonce w) (verifyServerHello env nonce) w := by
  refine wp_seq (wp_read env w) (fun frame x hx => ?_) fun e t he => ⟨?_, ?_⟩
  · have hcc : x.cc = w.cc := congrArg (·.1) hx.2
    have hjudged : Judged env nonce w ↔ HelloJudged env nonce frame w := judged_iff hx.1
    have hfail {text : String} (ht : text ≠ "") (hj : Judged env nonce w) :
        wp (failWith text : Client σ Bool)
          (fun ok t => Judged env nonce w ∧ (ok = false → t.cc.lastErrorText ≠ []))
          (fun _ t => ¬ Judged env nonce w ∧ t.cc.lastErrorText = w.cc.lastErrorText) x := by
      rw [failWith, wp_bind]
      exact wp_update.mpr ((wp_pure _).mpr ⟨hj, fun _ => utf8Encode_ne_nil ht⟩)
    refine wp_branch (fun hcode => ?_) fun hcode => ?_
    · exact hfail (by decide) (hjudged.mpr fun h => (hcode h).elim)
    refine wp_ofExcept_bind (fun hello hparse => ?_) fun e he => ⟨fun hj => ?_, ?_⟩
    · cases hv : validateServerHelloPayload hello with
      | some text =>
          refine hfail (validate_text hv) (hjudged.mpr fun _ => ⟨hello, hparse, fun h => ?_⟩)
          rw [hv] at h
          cases h
      | none =>
          refine wp_branch (fun hs => ?_) fun hs => ?_
          · refine hfail (by decide) (hjudged.mpr fun _ => ⟨hello, hparse, fun _ h => ?_⟩)
            rw [h] at hs
            cases hs
          have hsig : verifyServerHelloSignature env hello.securityVersion nonce.val
              hello.serverNonce hello.serverPublicKeyDer hello.signature = true := by
            simpa using hs
          have hiff : Judged env nonce w ↔ Trustable env x := by
            rw [trustable_same hx.2, hjudged, HelloJudged]
            constructor
            · intro h
              obtain ⟨hello', hparse', ht⟩ := h (not_not.mp hcode)
              rw [hparse] at hparse'
              cases hparse'
              exact ht hv hsig
            · exact fun h _ => ⟨hello, hparse, fun _ _ => h⟩
          refine wp_seq (speaks_trust env _ x) (fun trusted t ht => ?_) fun e t he => ?_
          · rw [hiff]
            refine wp_branch (fun htrusted => ?_) fun _ => ?_
            · exact (wp_pure _).mpr ⟨ht.1, fun _ => ht.2 (by simpa using htrusted)⟩
            · rw [wp_bind]
              exact wp_update.mpr ((wp_pure _).mpr ⟨ht.1, fun h => by cases h⟩)
          · rw [hiff, ← hcc]
            exact he
    · obtain ⟨hello, hparse, -⟩ := hjudged.mp hj (not_not.mp hcode)
      rw [he] at hparse
      cases hparse
    · rw [hcc]
  · rintro ⟨frame, hframe, -⟩
    rw [he.1] at hframe
    cases hframe
  · rw [he.2]

theorem greeted_cc (env : ClientEnv σ) (w : ClientWorld σ) : (greeted env w).cc = w.cc := by
  rw [greeted, request829, writeLogged_eq]
  split_ifs
  · rfl
  · rfl

/-- The handshake returns, and false has a text exactly if the hello could be
judged. -/
theorem wp_handshake_text (env : ClientEnv σ) (w : ClientWorld σ) :
    wp (executeServerIdentityHandshake env)
      (fun ok t => (Judged env (env.nonce w.calls) (greeted env w) ∧
          (ok = false → t.cc.lastErrorText ≠ [])) ∨
        (¬ Judged env (env.nonce w.calls) (greeted env w) ∧ ok = false ∧
          t.cc.lastErrorText = w.cc.lastErrorText))
      (fun _ _ => False) w := by
  have hsent : request829 env (env.nonce w.calls) (ticked w) = (.ok (), greeted env w) :=
    writeLogged_returns env _ _
  rw [executeServerIdentityHandshake, wp_bind, wp_tick, wp_bind, wp_of_eq_ok hsent, wp_bind,
    wp_attempt]
  refine wp_mono (speaks_hello env (env.nonce w.calls) (greeted env w)) (fun verified t ht => ?_)
    fun e t he => ?_
  · refine wp_branch (fun hv => ?_) fun hv => ?_
    · have hack : request830 env t = (.ok (), (request830 env t).2) := writeLogged_returns env _ _
      rw [wp_bind, wp_of_eq_ok hack, wp_pure]
      exact .inl ⟨ht.1, fun h => by cases h⟩
    · exact (wp_pure _).mpr (.inl ⟨ht.1, fun _ => ht.2 (by simpa using hv)⟩)
  · rw [wp_pure, if_neg (by simp), wp_pure]
    refine .inr ⟨he.1, rfl, ?_⟩
    rw [he.2, greeted_cc]

end

/-! ### The two flows -/

section
variable {σ : Type} {env : ClientEnv σ} {w t : ClientWorld σ}

theorem reports_returned {α : Type} {x : Client σ α} {a failure : α} (h : x w = (.ok a, t)) :
    Reports x failure w ↔ (a = failure → t.cc.lastErrorText ≠ []) := by
  constructor
  · rintro ⟨a', t', h', hr⟩
    rw [h] at h'
    cases h'
    exact hr
  · exact fun hr => ⟨a, t, h, hr⟩

theorem not_reports_thrown {α : Type} {x : Client σ α} {failure : α} {e : String}
    (h : x w = (.error e, t)) : ¬ Reports x failure w := by
  rintro ⟨a, t', h', -⟩
  rw [h] at h'
  cases h'

theorem loadAesKey_reports (env : ClientEnv σ) (w : ClientWorld σ) :
    Reports (loadAesKey env) none w := by
  have hopen : readAesKey env w = (.ok ((if env.fileFails w.calls then none
      else w.files kAesKey).map firstLine), ticked w) := readLine_eq env kAesKey w
  rw [Reports, loadAesKey, bind_ok hopen]
  cases (if env.fileFails w.calls then none else w.files kAesKey).map firstLine with
  | none => exact ⟨none, _, rfl, fun _ => utf8Encode_ne_nil (by decide)⟩
  | some key => exact ⟨some key, _, rfl, fun h => by cases h⟩

/-- `connect_and_handshake` on an established connection reports its failures exactly
when the hello can be judged and every later response it reads is answerable. -/
theorem connect_reports (env : ClientEnv σ) (w : ClientWorld σ) :
    Reports (connectAndHandshake env true) none w ↔
      Judged env (env.nonce w.calls) (greeted env (setError [] w).2) ∧
        ∀ v, FlowReads env w v → Answerable env v := by
  have hrun : connectAndHandshake env true w = (executeServerIdentityHandshake env >>=
      fun trusted => if !trusted then pure none
      else readMeInfo env >>= fun stored => enter env stored >>= fun ok =>
        if ok then loadAesKey env else pure none) (setError [] w).2 := rfl
  have hshake := wp_handshake_text env (setError [] w).2
  rcases hh : executeServerIdentityHandshake env (setError [] w).2 with ⟨e | trusted, u⟩
  · exact ((wp_of_eq_error hh).mp hshake).elim
  rw [wp_of_eq_ok hh] at hshake
  rw [bind_ok hh] at hrun
  cases trusted with
  | false =>
      have hnone : connectAndHandshake env true w = (.ok none, u) := hrun
      have hreads (v : ClientWorld σ) : ¬ FlowReads env w v := by
        rintro ⟨u', stored, x, h, -⟩
        rw [hh] at h
        cases h
      rw [reports_returned hnone]
      rcases hshake with ⟨hj, htext⟩ | ⟨hj, -, htext⟩
      · exact iff_of_true (fun _ => htext rfl) ⟨hj, fun v hv => (hreads v hv).elim⟩
      · exact iff_of_false (fun h => h rfl htext) fun h => hj h.1
  | true =>
      have hj : Judged env (env.nonce w.calls) (greeted env (setError [] w).2) := by
        rcases hshake with ⟨hj, -⟩ | ⟨-, h, -⟩
        · exact hj
        · cases h
      obtain ⟨stored, hread⟩ : ∃ stored, readMeInfo env u = (.ok stored, ticked u) :=
        ⟨_, bind_ok (openFile_eq env kMeInfo u)⟩
      have hflow (v : ClientWorld σ) : FlowReads env w v ↔ EnterReads env stored (ticked u) v := by
        constructor
        · rintro ⟨u', stored', x, h, h', hv⟩
          rw [hh] at h
          cases h
          rw [hread] at h'
          cases h'
          exact hv
        · exact fun hv => ⟨u, stored, ticked u, hh, hread, hv⟩
      simp only [hflow, hj, true_and]
      rw [if_neg (by simp), bind_ok hread] at hrun
      have hsettles := enter_settles env stored (ticked u)
      rcases he : enter env stored (ticked u) with ⟨e | ok, x⟩
      · have hthrown : connectAndHandshake env true w = (.error e, x) := by
          rw [hrun, bind_error he]
        exact iff_of_false (not_reports_thrown hthrown) ((wp_of_eq_error he).mp hsettles)
      · obtain ⟨hcond, htext⟩ := (wp_of_eq_ok he).mp hsettles
        rw [bind_ok he] at hrun
        refine iff_of_true ?_ hcond
        cases ok with
        | false => exact (reports_returned hrun).mpr fun _ => htext rfl
        | true =>
            obtain ⟨key, x', hkey, hr⟩ := loadAesKey_reports env x
            exact ⟨key, x', hrun.trans hkey, hr⟩

theorem telling_retryLoop (env : ClientEnv σ) (key path : Bytes) (left : ℕ) :
    Telling (retryLoop env key path left) := by
  induction left with
  | zero => exact telling_pure _
  | succ left ih =>
      refine telling_bind (telling_look _) fun cc => ?_
      refine telling_bind (telling_returns fun w => streaming_returns env _ key path w) ?_
      intro original
      cases original with
      | none => exact telling_update _
      | some crc =>
          refine telling_bind (fun w => ?_) fun r => telling_ite (telling_pure _) ?_
          · exact wp_mono (wp_answerManager_text env (some crc) w) (fun _ _ _ => trivial)
              fun _ _ h => h.2
          · refine telling_bind (telling_look _) fun cc => ?_
            refine telling_ite (telling_writeLogged env _) ?_
            refine telling_bind (telling_returns fun w => ?_) fun _ => ih
            exact ⟨(), _, reportMismatch_returns env left _ _ w⟩

theorem sendSingleFile_refusal {isOpen : Bool} {key path : Bytes} (h : ¬ Starts isOpen key path w) :
    Reports (sendSingleFile env isOpen key path) false w := by
  change ∃ a t, (if normalizeUserPathInput path = [] ∨
    !(w.files (normalizeUserPathInput path)).isSome then _ else _ : Client σ Bool)
      (setError [] w).2 = (.ok a, t) ∧ _
  split_ifs with h₁ h₂ h₃
  · refine ⟨false, _, rfl, fun _ htext => ?_⟩
    exact utf8Encode_ne_nil (by decide) (List.append_eq_nil_iff.mp htext).1
  · exact ⟨false, _, rfl, fun _ => utf8Encode_ne_nil (by decide)⟩
  · exact ⟨false, _, rfl, fun _ => utf8Encode_ne_nil (by decide)⟩
  · refine (h ⟨fun he => h₁ (.inl he), ?_, by simpa using h₂, h₃⟩).elim
    by_contra hf
    exact h₁ (.inr (by simpa using hf))

theorem sendSingleFile_reports (env : ClientEnv σ) (isOpen : Bool) (key path : Bytes)
    (w : ClientWorld σ) :
    Reports (sendSingleFile env isOpen key path) false w ↔
      ∀ v, SendReads env isOpen key path w v → Answerable env v := by
  by_cases hstart : Starts isOpen key path w
  swap
  · exact iff_of_true (sendSingleFile_refusal hstart) fun v hv => (hstart hv.1).elim
  have hsend := sendSingleFile_starts env hstart
  have htell := telling_retryLoop env key (normalizeUserPathInput path) maxRetries (setError [] w).2
  rcases hloop : retryLoop env key (normalizeUserPathInput path) maxRetries (setError [] w).2 with
    ⟨e | ⟨⟩, t⟩
  · rw [wp_of_eq_error hloop] at htell
    rw [hloop] at hsend
    rw [reports_returned hsend]
    refine iff_of_true (fun _ => utf8Encode_ne_nil htell) fun v hv => ?_
    have hv' := hv.2
    rw [request828Retry, hloop] at hv'
    cases hv'
  · rw [hloop] at hsend
    have hreads : (∀ v, SendReads env isOpen key path w v → Answerable env v) ↔
        Answerable env t := by
      constructor
      · exact fun h => h t ⟨hstart, hloop⟩
      · intro h v hv
        have hv' := hv.2
        rw [request828Retry, hloop] at hv'
        cases hv'
        exact h
    rw [hreads]
    rcases ha : answerManager env none t with ⟨e | r, t'⟩
    · simp only [ha] at hsend
      exact iff_of_false (not_reports_thrown hsend) (answer_error ha)
    · simp only [ha] at hsend
      obtain ⟨hans, htext⟩ := answer_ok ha
      exact iff_of_true ((reports_returned hsend).mpr fun h => htext (by simpa using h)) hans

/-- `connect_and_handshake` and `send_single_file` report their failures exactly when
the hello can be judged, the file system says what stands at the path, and every response
read outside a `try` block is answerable. -/
theorem failures_reported_iff (env : ClientEnv σ) (refuses : Bytes → Bool) (w : ClientWorld σ) :
    (Reports (connectAndHandshake env true) none w ↔
      Judged env (env.nonce w.calls) (greeted env (setError [] w).2) ∧
        ∀ v, FlowReads env w v → Answerable env v) ∧
    ∀ (isOpen : Bool) (key path : Bytes),
      Reports (sendSingleFileFrom refuses env isOpen key path) false w ↔
        (normalizeUserPathInput path ≠ [] → refuses (normalizeUserPathInput path) = false) ∧
          ∀ v, SendReads env isOpen key path w v → Answerable env v := by
  refine ⟨connect_reports env w, fun isOpen key path => ?_⟩
  by_cases hr : normalizeUserPathInput path ≠ [] ∧ refuses (normalizeUserPathInput path) = true
  · have hrun : sendSingleFileFrom refuses env isOpen key path w =
        (.error "filesystem error: cannot get file status", (setError [] w).2) := by
      change (if _ then _ else _ : Client σ Bool) (setError [] w).2 = _
      rw [if_pos hr]
      rfl
    refine iff_of_false (not_reports_thrown hrun) fun h => ?_
    have hfalse := h.1 hr.1
    rw [hr.2] at hfalse
    cases hfalse
  · have hrun : sendSingleFileFrom refuses env isOpen key path w =
        sendSingleFile env isOpen key path w := by
      change (if _ then _ else _ : Client σ Bool) (setError [] w).2 = _
      rw [if_neg hr]
      rfl
    have hallowed : normalizeUserPathInput path ≠ [] →
        refuses (normalizeUserPathInput path) = false := by
      intro hne
      by_contra h
      exact hr ⟨hne, by simpa using h⟩
    rw [Reports, hrun, ← Reports, sendSingleFile_reports]
    exact ⟨fun h => ⟨hallowed, h⟩, fun h => h.2⟩

end

/-! ### A stream that ends -/

/-- The server refuses the upload with a 1607 and closes. -/
def refusedUpload : ClientWorld Unit :=
  { lateSuccess with incoming := response .error (List.replicate 16 0 ++ utf8Encode "disk full") }

/-- The server closes after these bytes. -/
def closing (stream : Bytes) : ClientWorld Unit := { returning with incoming := stream }

/-- The exception of the last read leaves `send_single_file`, the exception of the
read after 827 leaves `connect_and_handshake`, and a connection that is closed before the
hello fails without a text. -/
theorem failures_unreported :
    ¬ Reports (sendSingleFileFrom (fun _ => false) scripted true zeroKey (utf8Encode "a.txt")) false
        refusedUpload ∧
      ¬ Reports (connectAndHandshake trusting true) none (closing serverHello) ∧
      ¬ Reports (connectAndHandshake trusting true) none (closing []) := by
  refine ⟨?_, ?_, ?_⟩
  · rintro ⟨a, t, h, -⟩
    have hthrown : (sendSingleFileFrom (fun _ => false) scripted true zeroKey (utf8Encode "a.txt")
        refusedUpload).1 = .error "EOF while reading frame" := by decide +kernel
    rw [h] at hthrown
    cases hthrown
  · rintro ⟨a, t, h, -⟩
    have hthrown : (connectAndHandshake trusting true (closing serverHello)).1 =
        .error "EOF while reading frame" := by decide +kernel
    rw [h] at hthrown
    cases hthrown
  · rintro ⟨a, t, h, htext⟩
    have hsilent : (connectAndHandshake trusting true (closing [])).1 = .ok none ∧
        (connectAndHandshake trusting true (closing [])).2.cc.lastErrorText = [] := by
      decide +kernel
    rw [h] at hsilent
    exact htext (Except.ok.inj hsilent.1) hsilent.2

end Seftp.FailureReports
