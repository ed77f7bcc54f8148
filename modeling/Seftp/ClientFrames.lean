import Seftp.ClientUpload

/-!
# What a client function leaves alone

`Moves P T` says that the events of a run satisfy `P`, that only files named in `T`
have changed and that the verified handshake is the same. It composes along the
program text, so each function needs one statement.
-/
namespace Seftp.ClientFrames
open LittleEndian ExceptState BlockChaining Checksum Text Protocol ClientProgram ClientDialogue
open ClientUpload

/-- What the handshake has put into the context. -/
def identity (cc : ClientContext) : UInt8 × Bytes × Bytes × Bool × Bytes :=
  (cc.securityVersion, cc.clientNonce, cc.serverNonce, cc.stage7HandshakeComplete,
    cc.serverPublicKeyDer)

structure Moves {σ : Type} (P : Event → Prop) (T : Bytes → Prop) (w w' : ClientWorld σ) : Prop where
  events : ∃ es, w'.trace = w.trace ++ es ∧ ∀ e ∈ es, P e
  files : ∀ name, ¬ T name → w'.files name = w.files name
  identity : identity w'.cc = identity w.cc

/-- The message of a request with this code. -/
def Coded (code : ℕ) (e : Event) : Prop := ∃ cid payload, e = .wrote (buildRequest cid code payload)

/-- A response, or the key it brought. -/
def Received (e : Event) : Prop := (∃ frame, e = .read frame) ∨ ∃ b64, e = .savedKey b64

/-- A file and the temporary one it is written through. -/
def Around (fileName : Bytes) (name : Bytes) : Prop :=
  name = fileName ∨ name = fileName ++ utf8Encode ".tmp"

section
variable {σ : Type} {P Q : Event → Prop} {T U : Bytes → Prop} {w u w' : ClientWorld σ}

theorem Moves.refl (w : ClientWorld σ) : Moves P T w w :=
  ⟨⟨[], (List.append_nil _).symm, by simp⟩, fun _ _ => rfl, rfl⟩

theorem Moves.trans (h : Moves P T w u) (h' : Moves P T u w') : Moves P T w w' := by
  obtain ⟨⟨es, hes, hall⟩, hfiles, hid⟩ := h
  obtain ⟨⟨es', hes', hall'⟩, hfiles', hid'⟩ := h'
  refine ⟨⟨es ++ es', by rw [hes', hes, List.append_assoc], ?_⟩,
    fun name hn => (hfiles' name hn).trans (hfiles name hn), hid'.trans hid⟩
  intro e he
  rcases List.mem_append.mp he with he | he
  · exact hall e he
  · exact hall' e he

instance : Std.Refl (Moves (σ := σ) P T) := ⟨Moves.refl⟩

instance : IsTrans (ClientWorld σ) (Moves P T) := ⟨fun _ _ _ => Moves.trans⟩

theorem Moves.mono (h : Moves P T w w') (hp : ∀ e, P e → Q e) (ht : ∀ n, T n → U n) :
    Moves Q U w w' := by
  obtain ⟨⟨es, hes, hall⟩, hfiles, hid⟩ := h
  exact ⟨⟨es, hes, fun e he => hp e (hall e he)⟩, fun name hn => hfiles name fun h =>
    hn (ht name h), hid⟩

theorem keeps_mono {α : Type} {x : Client σ α} (h : Keeps (Moves P T) x) (hp : ∀ e, P e → Q e)
    (ht : ∀ n, T n → U n) : Keeps (Moves Q U) x := h.mono fun _ _ h => h.mono hp ht

/-! ### Primitives -/

/-- A step outside the trace, the files and the handshake. -/
theorem moves_of_same (ht : w'.trace = w.trace) (hf : w'.files = w.files)
    (hi : identity w'.cc = identity w.cc) : Moves P T w w' :=
  ⟨⟨[], by rw [ht, List.append_nil], by simp⟩, fun _ _ => by rw [hf], hi⟩

theorem keeps_tick : Keeps (Moves P T) (tick : Client σ ℕ) :=
  keeps_look_bind fun _ => keeps_bind (keeps_update fun _ => moves_of_same rfl rfl rfl)
    fun _ => keeps_pure _

theorem keeps_fails (env : ClientEnv σ) : Keeps (Moves P T) (fails env) :=
  keeps_bind keeps_tick fun _ => keeps_pure _

theorem keeps_setFile {name : Bytes} (h : T name) (content : Option Bytes) :
    Keeps (Moves P T) (setFile name content : Client σ Unit) := by
  apply keeps_update
  intro w
  refine ⟨⟨[], (List.append_nil _).symm, by simp⟩, ?_, rfl⟩
  intro other hn
  exact Function.update_of_ne (fun he => hn (by rw [he]; exact h)) _ _

theorem keeps_setError (text : Bytes) : Keeps (Moves P T) (setError text : Client σ Unit) :=
  keeps_update fun _ => moves_of_same rfl rfl rfl

theorem keeps_note {e : Event} (h : P e) : Keeps (Moves P T) (note e : Client σ Unit) := by
  apply keeps_update
  intro w
  exact ⟨⟨[e], rfl, by simpa using h⟩, fun _ _ => rfl, rfl⟩

/-! ### Local files -/

theorem keeps_removeTmp (env : ClientEnv σ) {tmp : Bytes} (h : T tmp) :
    Keeps (Moves P T) (removeTmp env tmp) :=
  keeps_bind (keeps_fails env) fun _ => keeps_ite (keeps_raise _) (keeps_setFile h none)

theorem keeps_atomicWrite (env : ClientEnv σ) {fileName : Bytes} (content : Bytes)
    (ownerOnly : Bool) (h : ∀ n, Around fileName n → T n) :
    Keeps (Moves P T) (atomicWrite env fileName content ownerOnly) := by
  have hfile : T fileName := h _ (.inl rfl)
  have htmp : T (fileName ++ utf8Encode ".tmp") := h _ (.inr rfl)
  have hdrop : Keeps (Moves P T) (do
      removeTmp env (fileName ++ utf8Encode ".tmp")
      pure false) := keeps_bind (keeps_removeTmp env htmp) fun _ => keeps_pure _
  refine keeps_bind (keeps_fails env) fun _ => keeps_ite (keeps_pure _) ?_
  refine keeps_bind (keeps_setFile htmp _) fun _ => keeps_bind (keeps_fails env) fun _ => ?_
  refine keeps_ite hdrop (keeps_bind (keeps_ite (keeps_fails env) (keeps_pure _)) fun _ => ?_)
  refine keeps_ite hdrop (keeps_bind (keeps_bind (keeps_fails env) fun _ => ?_) fun _ => ?_)
  · exact keeps_ite (keeps_pure _) (keeps_setFile hfile _)
  refine keeps_bind (keeps_fails env) fun _ => keeps_ite hdrop ?_
  exact keeps_bind (keeps_setFile hfile _) fun _ =>
    keeps_bind (keeps_setFile htmp _) fun _ => keeps_pure _

theorem keeps_openFile (env : ClientEnv σ) (fileName : Bytes) :
    Keeps (Moves P T) (openFile env fileName) :=
  keeps_bind (keeps_fails env) fun _ => keeps_ite (keeps_pure _) keeps_look

theorem keeps_readLine (env : ClientEnv σ) (fileName : Bytes) :
    Keeps (Moves P T) (readLine env fileName) :=
  keeps_bind (keeps_openFile env fileName) fun _ => keeps_pure _

theorem keeps_readMeInfo (env : ClientEnv σ) : Keeps (Moves P T) (readMeInfo env) :=
  keeps_bind (keeps_openFile env _) fun _ => keeps_pure _

theorem keeps_writeMePublicKey (env : ClientEnv σ) (publicKeyB64 : Bytes)
    (h : ∀ n, Around kMeInfo n → T n) : Keeps (Moves P T) (writeMePublicKey env publicKeyB64) := by
  refine keeps_bind (keeps_readMeInfo env) fun stored => ?_
  cases stored with
  | none => exact keeps_pure _
  | some me => exact keeps_atomicWrite env _ _ h

theorem keeps_writePrivateKey (env : ClientEnv σ) (der : Bytes) (h : ∀ n, Around kPrivKey n → T n) :
    Keeps (Moves P T) (writePrivateKey env der) :=
  keeps_bind keeps_look fun _ => keeps_ite (keeps_pure _) (keeps_atomicWrite env _ _ h)

theorem keeps_writeAesKey (env : ClientEnv σ) (b64 : Bytes) (hp : P (.savedKey b64))
    (h : ∀ n, Around kAesKey n → T n) : Keeps (Moves P T) (writeAesKey env b64) :=
  keeps_bind (keeps_atomicWrite env _ _ h) fun _ =>
    keeps_ite (keeps_bind (keeps_note hp) fun _ => keeps_pure _) (keeps_pure _)

/-! ### The socket -/

theorem keeps_write (env : ClientEnv σ) {message : Bytes} (h : P (.wrote message)) :
    Keeps (Moves P T) (write env message) := by
  refine keeps_bind keeps_tick fun _ => keeps_ite (keeps_raise _) (keeps_update fun w => ?_)
  exact ⟨⟨[.wrote message], rfl, by simpa using h⟩, fun _ _ => rfl, rfl⟩

theorem keeps_writeLogged (env : ClientEnv σ) {message : Except String Bytes}
    (h : ∀ m, message = .ok m → P (.wrote m)) : Keeps (Moves P T) (writeLogged env message) :=
  keeps_attempt (keeps_ofExcept_bind fun m hm => keeps_write env (h m hm)) fun _ => keeps_pure _

/-- A request whose client id is read from its text. -/
theorem keeps_writeLogged_coded (env : ClientEnv σ) {uuid : Bytes} {build : ClientId → Bytes}
    {code : ℕ} {payload : Bytes} (hb : ∀ cid, build cid = buildRequest cid code payload)
    (h : ∀ e, Coded code e → P e) :
    Keeps (Moves P T) (writeLogged env ((parseClientIdHex32 uuid).map build)) := by
  apply keeps_writeLogged env
  intro m hm
  apply h
  rcases hp : parseClientIdHex32 uuid with e | cid
  · rw [hp] at hm
    cases hm
  · rw [hp] at hm
    cases hm
    exact ⟨cid, payload, congrArg Event.wrote (hb cid)⟩

theorem keeps_readExact (n : ℕ) : Keeps (Moves P T) (readExact n : Client σ Bytes) :=
  keeps_bind keeps_fetch fun _ =>
    keeps_bind (keeps_update fun _ => moves_of_same rfl rfl rfl) fun _ =>
      keeps_ite (keeps_raise _) (keeps_pure _)

theorem keeps_readResponseFrame (env : ClientEnv σ) (h : ∀ frame, P (.read frame)) :
    Keeps (Moves P T) (readResponseFrame env) := by
  refine keeps_bind (keeps_update fun _ => moves_of_same rfl rfl rfl) fun _ => ?_
  refine keeps_bind (keeps_readExact 7) fun hdr => keeps_ite (keeps_raise _) ?_
  refine keeps_bind (keeps_readExact _) fun payload => ?_
  exact keeps_bind (keeps_note (h _)) fun _ => keeps_pure _

theorem value_of_ofValue {n : ℕ} {c : ResCode} (h : ResCode.ofValue n = some c) : n = c.value := by
  have := List.find?_some h
  simpa using Eq.symm (by simpa using this)

/-- A response leaves its frame in the trace. -/
theorem wp_readResponseFrame (env : ClientEnv σ) (w : ClientWorld σ) :
    wp (readResponseFrame env) (fun frame t => t.trace = w.trace ++ [.read frame]) (fun _ _ => True)
      w := by
  have hexact (n : ℕ) (t : ClientWorld σ) : wp (readExact n : Client σ Bytes)
      (fun _ t' => t'.trace = t.trace) (fun _ _ => True) t := by
    rw [readExact, wp_bind, wp_fetch, wp_bind, wp_update, wp_ite]
    split_ifs
    · exact (wp_raise _).mpr trivial
    · exact (wp_pure _).mpr rfl
  rw [readResponseFrame, wp_bind, wp_update]
  refine wp_seq (hexact 7 _) (fun hdr t ht => ?_) fun _ _ _ => trivial
  rw [wp_ite]
  split_ifs
  · exact (wp_raise _).mpr trivial
  · refine wp_seq (hexact _ t) (fun payload t' ht' => ?_) fun _ _ _ => trivial
    rw [wp_bind, wp_note, wp_pure]
    change t'.trace ++ _ = _
    rw [ht', ht]
    rfl

theorem wp_any {α : Type} (x : Client σ α) (w : ClientWorld σ) :
    wp x (fun _ _ => True) (fun _ _ => True) w :=
  (wp_state (P := fun _ => True)).mpr trivial

/-! ### One response -/

theorem keeps_fatal (text : Bytes) : Keeps (Moves P T) (fatal text : Client σ NextStep) :=
  keeps_bind (keeps_setError text) fun _ => keeps_pure _

/-- A change of the context outside the handshake. -/
theorem keeps_onContext {f : ClientContext → ClientContext}
    (h : ∀ cc, identity (f cc) = identity cc) :
    Keeps (Moves P T) (onContext f : Client σ Unit) :=
  keeps_update fun w => moves_of_same rfl rfl (h w.cc)

theorem keeps_decrypt (env : ClientEnv σ) (ciphertext : Bytes) :
    Keeps (Moves P T) (rsaOaepSha1DecryptFromFile env ciphertext) := by
  refine keeps_ite (keeps_raise _) (keeps_bind (keeps_openFile env _) fun priv => ?_)
  rcases priv.bind (fun der => env.oaepDecrypt der ciphertext) with _ | decrypted
  · exact keeps_raise _
  · exact keeps_ite (keeps_raise _) (keeps_pure _)

theorem keeps_answer1602 (env : ClientEnv σ) (ciphertext : Bytes) (hp : ∀ b64, P (.savedKey b64))
    (h : ∀ n, Around kAesKey n → T n) : Keeps (Moves P T) (answer1602 env ciphertext) := by
  refine keeps_bind (keeps_attempt (keeps_decrypt env _) fun _ => keeps_raise _) fun key => ?_
  exact keeps_bind (keeps_writeAesKey env _ (hp _) h) fun _ => keeps_pure _

theorem keeps_acceptAesKey (env : ClientEnv σ) (frame : ResponseFrame)
    (hp : ∀ b64, P (.savedKey b64)) (h : ∀ n, Around kAesKey n → T n) :
    Keeps (Moves P T) (acceptAesKey env frame) := by
  refine keeps_attempt (keeps_ofExcept_bind fun r _ => keeps_bind ?_ fun _ => ?_)
    fun e => keeps_fatal _
  · refine keeps_bind keeps_look fun cc => keeps_ite (keeps_raise _) ?_
    refine keeps_ite (keeps_raise _)
      (keeps_ite (keeps_raise _) (keeps_bind ?_ fun _ => keeps_pure _))
    exact keeps_ite (keeps_answer1602 env _ hp h) (keeps_answer1602 env _ hp h)
  · exact keeps_bind (keeps_onContext fun _ => rfl) fun _ => keeps_pure _

theorem keeps_handle1606 (payload : Bytes) :
    Keeps (Moves P T) (handle1606 payload : Client σ NextStep) := by
  refine keeps_ite (keeps_fatal _) (keeps_ite ?_ ?_)
  · exact keeps_bind (keeps_onContext fun _ => rfl) fun _ => keeps_pure _
  · exact keeps_bind (keeps_onContext fun _ => rfl) fun _ => keeps_pure _

/-- The files a response may change. -/
def Answering (name : Bytes) : Prop := Around kAesKey name ∨ Around kMeInfo name

/-- A response other than 1602 and 1605. -/
theorem keeps_dispatch_plain (env : ClientEnv σ) (originalCrc : Option UInt32)
    {frame : ResponseFrame}
    (hkey : ResCode.ofValue frame.code ≠ some .aesKey)
    (hlogin : ResCode.ofValue frame.code ≠ some .reloginOk) (ht : ∀ n, Around kMeInfo n → T n) :
    Keeps (Moves P T) (dispatch env originalCrc frame) := by
  have hfatal (text : Bytes) : Keeps (Moves P T) (do
      let step ← fatal text
      pure (step, false) : Client σ (NextStep × Bool)) :=
    keeps_bind (keeps_fatal _) fun _ => keeps_pure _
  unfold dispatch
  rcases hc : ResCode.ofValue frame.code with _ | code
  · exact hfatal _
  · cases code with
    | registerOk =>
        refine keeps_ofExcept_bind fun payload _ => keeps_bind ?_ fun clientId =>
          keeps_bind (keeps_onContext fun _ => rfl) fun _ => keeps_pure _
        refine keeps_bind keeps_look fun name => keeps_bind (keeps_atomicWrite env _ _ ht)
          fun _ => ?_
        exact keeps_ite (keeps_pure _) (keeps_pure _)
    | registerFail => exact hfatal _
    | aesKey => exact (hkey hc).elim
    | crcResult => exact keeps_ofExcept_bind fun r _ => keeps_pure _
    | transferDone => exact keeps_pure _
    | reloginOk => exact (hlogin hc).elim
    | reloginFail => exact keeps_bind (keeps_handle1606 _) fun _ => keeps_pure _
    | error => exact hfatal _
    | serverHello => exact hfatal _

/-- Responses 1602 and 1605 have one case. -/
theorem dispatch_key (env : ClientEnv σ) (originalCrc : Option UInt32) {frame : ResponseFrame}
    (h : ResCode.ofValue frame.code = some .aesKey ∨ ResCode.ofValue frame.code = some .reloginOk) :
    dispatch env originalCrc frame = acceptAesKey env frame >>= fun step => pure (step, false) := by
  unfold dispatch
  rcases h with h | h
  · rw [h]
  · rw [h]

theorem keeps_dispatch (env : ClientEnv σ) (originalCrc : Option UInt32) (frame : ResponseFrame)
    (hp : ∀ e, Received e → P e) (ht : ∀ n, Answering n → T n) :
    Keeps (Moves P T) (dispatch env originalCrc frame) := by
  by_cases h : ResCode.ofValue frame.code = some .aesKey ∨
      ResCode.ofValue frame.code = some .reloginOk
  · rw [dispatch_key env originalCrc h]
    exact keeps_bind (keeps_acceptAesKey env frame (fun b64 => hp _ (.inr ⟨b64, rfl⟩))
      fun n hn => ht n (.inl hn)) fun _ => keeps_pure _
  · exact keeps_dispatch_plain env originalCrc (fun hk => h (.inl hk)) (fun hl => h (.inr hl))
      fun n hn => ht n (.inr hn)

theorem keeps_answerManager (env : ClientEnv σ) (originalCrc : Option UInt32)
    (hp : ∀ e, Received e → P e) (ht : ∀ n, Answering n → T n) :
    Keeps (Moves P T) (answerManager env originalCrc) :=
  keeps_bind (keeps_readResponseFrame env fun frame => hp _ (.inl ⟨frame, rfl⟩)) fun frame =>
    keeps_dispatch env originalCrc frame hp ht

/-! ### Key pairs -/

theorem keeps_generate (env : ClientEnv σ) (key : Bytes) (hp : key = [] → P .madeKeypair) :
    Keeps (Moves P T) (generateRsa2048KeypairDer env key) := by
  refine keeps_bind keeps_tick fun n => ?_
  by_cases h : key = []
  · rw [if_pos h]
    cases env.newKeypair n with
    | none => exact keeps_raise _
    | some pair => exact keeps_bind (keeps_note (hp h)) fun _ => keeps_pure _
  · rw [if_neg h]
    cases env.publicOf key with
    | none => exact keeps_raise _
    | some publicDer => exact keeps_pure _

/-! ### Streaming -/

theorem coded_chunk {cid : ClientId} {cs ps num total : ℕ} {name chunk message : Bytes}
    (h : build828PacketChunk cid cs ps num total name chunk = .ok message) :
    Coded ReqCode.fileChunk.value (.wrote message) := by
  unfold build828PacketChunk at h
  split_ifs at h
  cases h
  exact ⟨_, _, rfl⟩

variable {env : ClientEnv σ} {u₀ : Upload}

theorem keeps_sendPacket (hp : ∀ e, Coded ReqCode.fileChunk.value e → P e) (packetData : Bytes)
    (s : Streaming) : Keeps (Moves P T) (sendPacket env u₀ packetData s) := by
  refine keeps_ite (keeps_raise _) (keeps_ite (keeps_raise _) ?_)
  refine keeps_ofExcept_bind fun message hm => ?_
  exact keeps_bind (keeps_write env (hp _ (coded_chunk hm))) fun _ => keeps_pure _

theorem keeps_sendFullPackets (hp : ∀ e, Coded ReqCode.fileChunk.value e → P e) (fuel : ℕ)
    (s : Streaming) : Keeps (Moves P T) (sendFullPackets env u₀ fuel s) := by
  induction fuel generalizing s with
  | zero => exact keeps_pure _
  | succ fuel ih =>
      exact keeps_ite (keeps_pure _) (keeps_bind (keeps_sendPacket hp _ _) fun s => ih s)

theorem keeps_encryptBlocks (hp : ∀ e, Coded ReqCode.fileChunk.value e → P e) (plain : Bytes)
    (s : Streaming) : Keeps (Moves P T) (encryptBlocks env u₀ plain s) :=
  keeps_sendFullPackets hp _ _

theorem keeps_readPieces (hp : ∀ e, Coded ReqCode.fileChunk.value e → P e) (fuel : ℕ)
    (rest : Bytes) (s : Streaming) : Keeps (Moves P T) (readPieces env u₀ fuel rest s) := by
  induction fuel generalizing rest s with
  | zero => exact keeps_pure _
  | succ fuel ih =>
      refine keeps_bind (keeps_fails env) fun _ =>
        keeps_ite (keeps_pure _) (keeps_bind ?_ fun s => ?_)
      · exact keeps_ite (keeps_bind (keeps_encryptBlocks hp _ _) fun _ => keeps_pure _)
          (keeps_pure _)
      · exact keeps_ite (keeps_pure _) (ih _ s)

theorem keeps_finishStream (hp : ∀ e, Coded ReqCode.fileChunk.value e → P e) (s : Streaming) :
    Keeps (Moves P T) (finishStream env u₀ s) := by
  refine keeps_bind (keeps_encryptBlocks hp _ s) fun s => keeps_bind ?_ fun s => ?_
  · exact keeps_ite (keeps_pure _) (keeps_sendPacket hp _ s)
  · exact keeps_ite (keeps_raise _) (keeps_ite (keeps_raise _) (keeps_pure _))

theorem keeps_streamUpload (hp : ∀ e, Coded ReqCode.fileChunk.value e → P e) (path : Bytes) :
    Keeps (Moves P T) (streamUpload env u₀ path) := by
  refine keeps_bind keeps_tick fun n => keeps_bind (keeps_write env (hp _ ⟨_, _, rfl⟩)) fun _ => ?_
  refine keeps_bind (keeps_openFile env path) fun content => ?_
  cases content with
  | none => exact keeps_raise _
  | some content =>
      exact keeps_bind (keeps_readPieces hp _ _ _) fun s => keeps_finishStream hp s

/-- Streaming writes packets and no file. -/
theorem keeps_request828Streaming (env : ClientEnv σ) (uuid encryptKey path : Bytes)
    (hp : ∀ e, Coded ReqCode.fileChunk.value e → P e) (hs : ∀ crc, P (.streamed crc)) :
    Keeps (Moves P T) (request828Streaming env uuid encryptKey path) := by
  refine keeps_attempt (keeps_bind keeps_look fun file => ?_) fun _ => keeps_pure _
  cases file with
  | none => exact keeps_raise _
  | some content =>
      refine keeps_ofExcept_bind fun u _ => keeps_bind (keeps_streamUpload hp path) fun crc => ?_
      exact keeps_bind (keeps_note (hs crc)) fun _ => keeps_pure _

theorem keeps_confirm (env : ClientEnv σ) {build : ClientId → Bytes → Bytes} {code : ℕ}
    {name uuid : Bytes} (hb : ∀ cid, build cid name = buildRequest cid code (makeCstrPayload name))
    (hp : ∀ e, Coded code e → P e) : Keeps (Moves P T) (confirm env build name uuid) :=
  keeps_writeLogged_coded env hb hp

end

end Seftp.ClientFrames
