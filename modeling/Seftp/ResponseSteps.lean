import Seftp.ClientFrames
import Seftp.ResponseStream

/-!
# What a response asks for

The client reads one frame and takes its next step from it. Whether `answer_manager`
takes the frame and which step it is depends on the frame and, for a wrapped AES key, on
the handshake, on the private key and on the file operations that fail: `Answers` says
it without running the client.
-/
namespace Seftp.ResponseSteps
open LittleEndian ExceptState Text Protocol ClientProgram ClientDialogue ClientUpload ClientFrames
open ResponseStream (cutResponse readResponseFrame_from readResponseFrameFrom_eq)

section
variable {σ : Type}

/-- Of the calls from number `n` on, that of `atomicWrite` which removes the
temporary file fails. -/
def tmpStuck (env : ClientEnv σ) (ownerOnly : Bool) (n : ℕ) : Bool :=
  if env.fileFails n then false
  else if env.fileFails (n + 1) then env.fileFails (n + 2)
  else if ownerOnly && env.fileFails (n + 2) then env.fileFails (n + 3)
  else
    let m := if ownerOnly then n + 4 else n + 3
    env.fileFails m && env.fileFails (m + 1)

/-- From call number `n` on, `atomicWrite` puts the new file in place. -/
def tmpPlaced (env : ClientEnv σ) (ownerOnly : Bool) (n : ℕ) : Bool :=
  !env.fileFails n && !env.fileFails (n + 1) &&
    if ownerOnly then !env.fileFails (n + 2) && !env.fileFails (n + 4) else !env.fileFails (n + 3)

/-- A frame that `answer_manager` can take after so many calls: a 1600 is an id that
can be saved or given up, and a 1603 has its fixed fields. -/
structure Taken (env : ClientEnv σ) (calls : ℕ) (frame : ResponseFrame) : Prop where
  registered : frame.code = ResCode.registerOk.value →
    frame.payload.length = 16 ∧ tmpStuck env false calls = false
  checksum : frame.code = ResCode.crcResult.value → 24 ≤ frame.payload.length

/-- The bytes that come in begin with a whole frame, within the limit, that can be
taken. -/
def Answerable (env : ClientEnv σ) (w : ClientWorld σ) : Prop :=
  ∃ frame, (cutResponse (awaited env w).incoming).1 = .ok frame ∧ Taken env w.calls frame

/-- The AES key in a ciphertext, as the private key on disk opens it now. -/
def unwrapped (env : ClientEnv σ) (w : ClientWorld σ) (ciphertext : Bytes) : Option Bytes :=
  if ciphertext.length ≠ 256 ∨ env.fileFails w.calls = true then none
  else ((w.files kPrivKey).bind fun der => env.oaepDecrypt der ciphertext).filter (·.length = 32)

/-- The frame brings an AES key that is accepted: after a handshake it is signed for this
session, the private key opens it, and `aes.key` can be written or given up. -/
structure Unlocks (env : ClientEnv σ) (w : ClientWorld σ) (frame : ResponseFrame) : Prop where
  handshake : w.cc.stage7HandshakeComplete = true
  server : w.cc.serverPublicKeyDer ≠ []
  key : ∃ r, parse1602 frame.payload = .ok r ∧
    verifyAesKeyBindingSignature env w.cc.securityVersion w.cc.clientNonce w.cc.serverNonce
      r.clientId frame.code r.encryptedKey w.cc.serverPublicKeyDer r.signature = true ∧
    (unwrapped env w r.encryptedKey).isSome = true
  written : tmpStuck env true (w.calls + 1) = false

/-- The frame brings an AES key, and it is saved. -/
structure Keys (env : ClientEnv σ) (w : ClientWorld σ) (frame : ResponseFrame) : Prop where
  code : ResCode.ofValue frame.code = some .aesKey ∨ ResCode.ofValue frame.code = some .reloginOk
  unlocks : Unlocks env w frame
  placed : tmpPlaced env true (w.calls + 1) = true

/-- The step of a 1606. -/
def reloginStep (payload : Bytes) : NextStep :=
  if payload.length < 16 then .fatal
  else if payload.take 16 = zeroClientId.val then .needRegister
  else .needSendPublicKey

/-- The step that a frame asks for. -/
def Asks (env : ClientEnv σ) (w : ClientWorld σ) (frame : ResponseFrame) (step : NextStep) : Prop :=
  match ResCode.ofValue frame.code with
  | some .registerOk | some .crcResult | some .transferDone => step = .none
  | some .aesKey | some .reloginOk =>
      (step = .none ∧ Unlocks env w frame) ∨ (step = .fatal ∧ ¬ Unlocks env w frame)
  | some .reloginFail => step = reloginStep frame.payload
  | some .registerFail | some .error | some .serverHello | none => step = .fatal

/-- The bytes that come in begin with a whole frame that can be taken and asks for this
step. -/
def Answers (env : ClientEnv σ) (w : ClientWorld σ) (step : NextStep) : Prop :=
  ∃ frame, (cutResponse (awaited env w).incoming).1 = .ok frame ∧ Taken env w.calls frame ∧
    Asks env w frame step

/-- They begin with a frame whose AES key is saved. -/
def SavesKey (env : ClientEnv σ) (w : ClientWorld σ) : Prop :=
  ∃ frame, (cutResponse (awaited env w).incoming).1 = .ok frame ∧ Keys env w frame

end

/-! ### Writing a file -/

section
variable {σ : Type} {env : ClientEnv σ} {w : ClientWorld σ}

section
variable {b p : Bool}

theorem wp_give (env : ClientEnv σ) (tmp : Bytes) (h : env.fileFails w.calls = b)
    (hp : false = p) : wp (do
      removeTmp env tmp
      pure false) (fun placed _ => b = false ∧ placed = p) (fun _ _ => b = true) w := by
  rw [removeTmp, wp_bind, wp_bind, wp_fails, h]
  cases b with
  | true => exact (wp_raise _).mpr rfl
  | false => exact wp_update.mpr ((wp_pure _).mpr ⟨rfl, hp⟩)

/-- The old file is removed or not, and the rename decides. -/
theorem wp_move (env : ClientEnv σ) (fileName tmp content : Bytes) {m : ℕ} (hm : w.calls + 1 = m)
    (h : (env.fileFails m && env.fileFails (m + 1)) = b) (hp : (!env.fileFails m) = p) : wp (do
      removeOld env fileName
      let unmoved ← fails env
      if unmoved then do
        removeTmp env tmp
        pure false
      else do
        setFile fileName (some content)
        setFile tmp none
        pure true) (fun placed _ => b = false ∧ placed = p) (fun _ _ => b = true) w := by
  have hold : wp (removeOld env fileName) (fun _ t => t.calls = m) (fun _ _ => False) w := by
    rw [removeOld, wp_bind, wp_fails, wp_ite]
    split_ifs
    · exact (wp_pure _).mpr hm
    · exact wp_update.mpr hm
  refine wp_then hold fun _ x hx => ?_
  rw [wp_bind, wp_fails, hx]
  cases hf : env.fileFails m with
  | true =>
      rw [hf, Bool.true_and, ← hx] at h
      rw [hf] at hp
      exact wp_give (w := ticked x) env tmp h hp
  | false =>
      rw [hf, Bool.false_and] at h
      rw [hf] at hp
      rw [if_neg (by simp), wp_bind]
      refine wp_update.mpr ?_
      rw [wp_bind]
      exact wp_update.mpr ((wp_pure _).mpr ⟨h.symm, hp⟩)

end

/-- `atomicWrite` throws exactly when the temporary file stays, and otherwise says
whether the file is in place. -/
theorem wp_atomicWrite_stuck (env : ClientEnv σ) (fileName content : Bytes) (ownerOnly : Bool)
    (w : ClientWorld σ) :
    wp (atomicWrite env fileName content ownerOnly)
      (fun placed _ => tmpStuck env ownerOnly w.calls = false ∧
        placed = tmpPlaced env ownerOnly w.calls)
      (fun _ _ => tmpStuck env ownerOnly w.calls = true) w := by
  generalize hb : tmpStuck env ownerOnly w.calls = b
  generalize hp : tmpPlaced env ownerOnly w.calls = p
  rw [tmpStuck] at hb
  rw [tmpPlaced] at hp
  rw [atomicWrite, wp_bind, wp_fails]
  cases h₀ : env.fileFails w.calls with
  | true =>
      rw [h₀, if_pos rfl] at hb
      rw [h₀] at hp
      exact (wp_pure _).mpr ⟨hb.symm, hp⟩
  | false =>
      rw [h₀, if_neg (by simp)] at hb
      rw [h₀, Bool.not_false, Bool.true_and] at hp
      rw [if_neg (by simp), wp_bind]
      refine wp_update.mpr ?_
      rw [wp_bind, wp_fails]
      change wp (if env.fileFails (w.calls + 1) = true then _ else _) _ _ _
      cases h₁ : env.fileFails (w.calls + 1) with
      | true =>
          rw [h₁, if_pos rfl] at hb
          rw [h₁] at hp
          exact wp_give env _ hb hp
      | false =>
          rw [h₁, if_neg (by simp)] at hb
          rw [h₁, Bool.not_false, Bool.true_and] at hp
          rw [if_neg (by simp), wp_bind, permissionsRefused]
          cases ownerOnly with
          | false =>
              rw [if_neg (by simp), wp_pure, if_neg (by simp)]
              exact wp_move env _ _ _ rfl hb hp
          | true =>
              rw [if_pos rfl] at hp
              rw [if_pos rfl, wp_fails]
              change wp (if env.fileFails (w.calls + 2) = true then _ else _) _ _ _
              cases h₂ : env.fileFails (w.calls + 2) with
              | true =>
                  rw [h₂, if_pos (by simp)] at hb
                  rw [h₂] at hp
                  exact wp_give env _ hb hp
              | false =>
                  rw [h₂, if_neg (by simp)] at hb
                  rw [h₂, Bool.not_false, Bool.true_and] at hp
                  rw [if_neg (by simp)]
                  exact wp_move env _ _ _ rfl hb hp

/-! ### One frame -/

/-- A read changes neither the context nor the local files. -/
theorem same_readResponseFrame (env : ClientEnv σ) :
    Keeps (Same fun w => (w.cc, w.files, w.calls)) (readResponseFrame env) := by
  have hexact (n : ℕ) :
      Keeps (Same fun w : ClientWorld σ => (w.cc, w.files, w.calls)) (readExact n) :=
    keeps_bind keeps_fetch fun _ => keeps_bind (fun _ => rfl) fun _ =>
      keeps_ite (keeps_raise _) (keeps_pure _)
  refine keeps_bind (fun _ => rfl) fun _ => keeps_bind (hexact 7) fun _ => ?_
  refine keeps_ite (keeps_raise _) (keeps_bind (hexact _) fun _ => ?_)
  exact keeps_bind (fun _ => rfl) fun _ => keeps_pure _

/-- What is read is the first frame of the stream. -/
theorem wp_read (env : ClientEnv σ) (w : ClientWorld σ) :
    wp (readResponseFrame env)
      (fun frame t => (cutResponse (awaited env w).incoming).1 = .ok frame ∧
        (t.cc, t.files, t.calls) = (w.cc, w.files, w.calls))
      (fun e t => (cutResponse (awaited env w).incoming).1 = .error e ∧ t.cc = w.cc) w := by
  have hrest : (PartialReads.sized fun _ => 1).rest
      { rest := (awaited env w).incoming, calls := 0 } = (awaited env w).incoming := rfl
  have hfrom := readResponseFrame_from env w hrest
  obtain ⟨u, hu, -⟩ := readResponseFrameFrom_eq (PartialReads.sized fun _ => 1)
    { rest := (awaited env w).incoming, calls := 0 }
  have hcut : (readResponseFrame env w).1 = (cutResponse (awaited env w).incoming).1 := by
    rw [hfrom.1, hu]
    rfl
  have hsame := same_readResponseFrame env w
  rcases hr : readResponseFrame env w with ⟨e | frame, t⟩
  · rw [hr] at hcut hsame
    exact (wp_of_eq_error hr).mpr ⟨hcut.symm, congrArg (·.1) hsame⟩
  · rw [hr] at hcut hsame
    exact (wp_of_eq_ok hr).mpr ⟨hcut.symm, hsame⟩

theorem ofValue_value (c : ResCode) : ResCode.ofValue c.value = some c := by
  cases c <;> rfl

section
variable {frame : ResponseFrame}

/-- Every code but 1600 and 1603 can be taken. -/
theorem taken_of_code {code : Option ResCode} {calls : ℕ} (hc : ResCode.ofValue frame.code = code)
    (h : code ≠ some .registerOk) (h' : code ≠ some .crcResult) : Taken env calls frame := by
  constructor
  · intro hcode
    rw [hcode, ofValue_value] at hc
    exact (h hc.symm).elim
  · intro hcode
    rw [hcode, ofValue_value] at hc
    exact (h' hc.symm).elim

/-- A frame asks for one step. -/
theorem Asks.unique {step step' : NextStep} (h : Asks env w frame step)
    (h' : Asks env w frame step') : step = step' := by
  unfold Asks at h h'
  rcases hc : ResCode.ofValue frame.code with _ | code
  · rw [hc] at h h'
    exact h.trans h'.symm
  rw [hc] at h h'
  have hkey (hu : (step = .none ∧ Unlocks env w frame) ∨ (step = .fatal ∧ ¬ Unlocks env w frame))
      (hu' : (step' = .none ∧ Unlocks env w frame) ∨ (step' = .fatal ∧ ¬ Unlocks env w frame)) :
      step = step' := by
    rcases hu with ⟨rfl, hu⟩ | ⟨rfl, hu⟩
    · rcases hu' with ⟨rfl, -⟩ | ⟨-, hno⟩
      · rfl
      · exact (hno hu).elim
    · rcases hu' with ⟨-, hyes⟩ | ⟨rfl, -⟩
      · exact (hu hyes).elim
      · rfl
  cases code with
  | aesKey => exact hkey h h'
  | reloginOk => exact hkey h h'
  | registerOk | registerFail | reloginFail | crcResult | transferDone | error | serverHello =>
      exact h.trans h'.symm

/-- Only the context, the files and the count of operations decide. -/
theorem unlocks_congr {t : ClientWorld σ}
    (h : (t.cc, t.files, t.calls) = (w.cc, w.files, w.calls)) :
    Unlocks env t frame ↔ Unlocks env w frame := by
  obtain ⟨hcc, hfiles, hcalls⟩ : t.cc = w.cc ∧ t.files = w.files ∧ t.calls = w.calls := by
    simpa using h
  have hopen (c : Bytes) : unwrapped env t c = unwrapped env w c := by
    rw [unwrapped, unwrapped, hfiles, hcalls]
  constructor
  · rintro ⟨hshake, hserver, hkey, hwritten⟩
    simp only [hcc, hopen, hcalls] at hshake hserver hkey hwritten
    exact ⟨hshake, hserver, hkey, hwritten⟩
  · rintro ⟨hshake, hserver, hkey, hwritten⟩
    simp only [← hcc, ← hopen, ← hcalls] at hshake hserver hkey hwritten
    exact ⟨hshake, hserver, hkey, hwritten⟩

theorem keys_congr {t : ClientWorld σ} (h : (t.cc, t.files, t.calls) = (w.cc, w.files, w.calls)) :
    Keys env t frame ↔ Keys env w frame := by
  have hcalls : t.calls = w.calls := congrArg (·.2.2) h
  constructor
  · rintro ⟨hcode, hun, hplaced⟩
    exact ⟨hcode, (unlocks_congr h).mp hun, hcalls ▸ hplaced⟩
  · rintro ⟨hcode, hun, hplaced⟩
    exact ⟨hcode, (unlocks_congr h).mpr hun, hcalls ▸ hplaced⟩

theorem asks_congr {t : ClientWorld σ} {step : NextStep}
    (h : (t.cc, t.files, t.calls) = (w.cc, w.files, w.calls)) :
    Asks env t frame step ↔ Asks env w frame step := by
  unfold Asks
  rw [unlocks_congr h]

/-! ### A wrapped key -/

theorem trace_of_none {T : Bytes → Prop} {t : ClientWorld σ} (h : Moves (fun _ => False) T w t) :
    t.trace = w.trace := by
  obtain ⟨es, hes, hall⟩ := h.events
  rcases es with _ | ⟨e, es⟩
  · rw [hes, List.append_nil]
  · exact (hall e (by simp)).elim

/-- The private key opens the ciphertext, or the program throws. -/
theorem wp_unwrap (env : ClientEnv σ) (ciphertext : Bytes) (w : ClientWorld σ) :
    wp (rsaOaepSha1DecryptFromFile env ciphertext)
      (fun key t => unwrapped env w ciphertext = some key ∧ t = ticked w)
      (fun _ t => unwrapped env w ciphertext = none ∧ t.trace = w.trace) w := by
  rw [rsaOaepSha1DecryptFromFile]
  refine wp_branch (fun hlen => (wp_raise _).mpr ⟨if_pos (.inl hlen), rfl⟩) fun hlen => ?_
  rw [wp_bind, readPrivateKey, wp_of_eq_ok (openFile_eq env kPrivKey w)]
  cases hf : env.fileFails w.calls with
  | true => exact (wp_raise _).mpr ⟨if_pos (.inr hf), rfl⟩
  | false =>
      have hopen : unwrapped env w ciphertext =
          ((w.files kPrivKey).bind fun der => env.oaepDecrypt der ciphertext).filter
            (·.length = 32) := by
        rw [unwrapped, if_neg]
        rintro (h | h)
        · exact hlen h
        · cases hf.symm.trans h
      rw [if_neg (by simp), hopen]
      rcases (w.files kPrivKey).bind fun der => env.oaepDecrypt der ciphertext with _ | key
      · exact (wp_raise _).mpr ⟨rfl, rfl⟩
      · refine wp_branch (fun h => (wp_raise _).mpr ⟨?_, rfl⟩) fun h => (wp_pure _).mpr ⟨?_, rfl⟩
        · exact Option.filter_some_neg (by simpa using h)
        · exact Option.filter_some_pos (by simpa using h)

/-- The key is saved exactly when its file is put in place. -/
theorem wp_writeAesKey_placed (env : ClientEnv σ) (b64 : Bytes) (w : ClientWorld σ) :
    wp (writeAesKey env b64)
      (fun _ t => tmpStuck env true w.calls = false ∧
        t.trace = if tmpPlaced env true w.calls then w.trace ++ [.savedKey b64] else w.trace)
      (fun _ t => tmpStuck env true w.calls = true ∧ t.trace = w.trace) w := by
  have hmoves : Keeps (Moves (fun _ => False) (fun _ => True))
      (atomicWrite env kAesKey (b64 ++ [10]) true) := keeps_atomicWrite env _ _ fun _ _ => trivial
  rw [writeAesKey]
  refine wp_seq (wp_and (wp_atomicWrite_stuck env kAesKey (b64 ++ [10]) true w) (hmoves.wp w))
    (fun placed t ht => ?_) fun _ t ht => ⟨ht.1, trace_of_none ht.2⟩
  obtain ⟨⟨hstuck, rfl⟩, hm⟩ := ht
  rw [wp_ite]
  split_ifs with hplaced
  · rw [wp_bind, wp_note, wp_pure]
    exact ⟨hstuck, congrArg (· ++ [.savedKey b64]) (trace_of_none hm)⟩
  · exact (wp_pure _).mpr ⟨hstuck, trace_of_none hm⟩

/-- A 1602 or 1605 is accepted or fatal, and its key is saved or not. -/
theorem wp_acceptAesKey_asks (env : ClientEnv σ) (frame : ResponseFrame) (w : ClientWorld σ) :
    wp (acceptAesKey env frame)
      (fun step t => (step = .none ∧ Unlocks env w frame ∧ ∃ b64, t.trace =
          if tmpPlaced env true (w.calls + 1) then w.trace ++ [.savedKey b64] else w.trace) ∨
        (step = .fatal ∧ ¬ Unlocks env w frame ∧ t.trace = w.trace))
      (fun _ _ => False) w := by
  have hfatal {x : ClientWorld σ} (e : String) (hno : ¬ Unlocks env w frame)
      (hx : x.trace = w.trace) : wp (fatal (utf8Encode e) : Client σ NextStep)
        (fun step t => (step = .none ∧ Unlocks env w frame ∧ ∃ b64, t.trace =
            if tmpPlaced env true (w.calls + 1) then w.trace ++ [.savedKey b64] else w.trace) ∨
          (step = .fatal ∧ ¬ Unlocks env w frame ∧ t.trace = w.trace))
        (fun _ _ => False) x := by
    rw [fatal, wp_bind]
    exact wp_update.mpr ((wp_pure _).mpr (.inr ⟨rfl, hno, hx⟩))
  rw [acceptAesKey, wp_attempt]
  refine wp_ofExcept_bind (fun r hr => ?_) fun e he => hfatal e (fun h => ?_) rfl
  swap
  · obtain ⟨r, hr, -⟩ := h.key
    cases he.symm.trans hr
  have hparsed {p : Prop} (h : Unlocks env w frame)
      (hp : verifyAesKeyBindingSignature env w.cc.securityVersion w.cc.clientNonce w.cc.serverNonce
          r.clientId frame.code r.encryptedKey w.cc.serverPublicKeyDer r.signature = true →
        (unwrapped env w r.encryptedKey).isSome = true → p) : p := by
    obtain ⟨r', hr', hv, hopen⟩ := h.key
    cases hr.symm.trans hr'
    exact hp hv hopen
  rw [wp_bind, handle1602Or1605, wp_bind, wp_look]
  refine wp_branch (fun h₁ => (wp_raise _).mpr (hfatal _ (fun h => ?_) rfl)) fun h₁ => ?_
  · simp [h.handshake] at h₁
  refine wp_branch (fun h₂ => (wp_raise _).mpr (hfatal _ (fun h => h.server h₂) rfl)) fun h₂ => ?_
  refine wp_branch (fun h₃ => (wp_raise _).mpr (hfatal _ (fun h => ?_) rfl)) fun h₃ => ?_
  · exact hparsed h fun hv _ => by simp [hv] at h₃
  have hanswer : answerKey env frame.code r.encryptedKey = answer1602 env r.encryptedKey := by
    unfold answerKey answer1605
    split <;> rfl
  rw [wp_bind, hanswer, answer1602, wp_bind, wp_attempt]
  refine wp_mono (wp_unwrap env r.encryptedKey w) (fun key t ht => ?_) fun e t ht =>
    (wp_raise _).mpr (hfatal _ (fun h => ?_) ht.2)
  swap
  · exact hparsed h fun _ hopen => by simp [ht.1] at hopen
  obtain ⟨hopen, rfl⟩ := ht
  rw [wp_bind]
  refine wp_mono (wp_writeAesKey_placed env (encodeBase64 key) (ticked w)) (fun _ t ht => ?_)
    fun e t ht => hfatal _ (fun h => ?_) ht.2
  · rw [wp_pure, wp_pure, wp_bind]
    refine wp_update.mpr ((wp_pure _).mpr (.inl ⟨rfl, ?_, encodeBase64 key, ht.2⟩))
    refine ⟨by simpa using h₁, h₂, ⟨r, hr, by simpa using h₃, ?_⟩, ht.1⟩
    rw [hopen]
    rfl
  · cases h.written.symm.trans ht.1

/-! ### The step of a response -/

theorem wp_handle1606_step (payload : Bytes) (w : ClientWorld σ) :
    wp (handle1606 payload : Client σ NextStep) (fun step _ => step = reloginStep payload)
      (fun _ _ => False) w := by
  unfold handle1606 reloginStep
  refine wp_branch (fun h => ?_) fun h => ?_
  · rw [if_pos h, fatal, wp_bind]
    exact wp_update.mpr ((wp_pure _).mpr rfl)
  rw [if_neg h]
  refine wp_branch (fun hzero => ?_) fun hzero => ?_
  · rw [if_pos hzero, wp_bind]
    exact wp_update.mpr ((wp_pure _).mpr rfl)
  · rw [if_neg hzero, wp_bind]
    exact wp_update.mpr ((wp_pure _).mpr rfl)

/-- A step without exceptions, for a code whose frames can be taken. -/
theorem wp_step {x : Client σ NextStep} {Q : NextStep → Prop} (ht : Taken env w.calls frame)
    (h : wp x (fun step _ => Q step) (fun _ _ => False) w) :
    wp (do
      let step ← x
      pure (step, false)) (fun r _ => Taken env w.calls frame ∧ Q r.1)
      (fun _ _ => ¬ Taken env w.calls frame) w :=
  wp_then h fun _ _ hq => (wp_pure _).mpr ⟨ht, hq⟩

theorem wp_fatal_step (text : Bytes) (w : ClientWorld σ) :
    wp (fatal text : Client σ NextStep) (fun step _ => step = .fatal) (fun _ _ => False) w := by
  rw [fatal, wp_bind]
  exact wp_update.mpr ((wp_pure _).mpr rfl)

theorem wp_registered (hcode : frame.code = ResCode.registerOk.value) :
    wp (do
      let payload ← ofExcept (parse1600 frame.payload)
      let clientId ← answer1600 env payload
      onContext fun cc => { cc with clientId }
      pure (NextStep.none, false)) (fun r _ => Taken env w.calls frame ∧ r.1 = .none)
      (fun _ _ => ¬ Taken env w.calls frame) w := by
  refine wp_ofExcept_bind (fun payload hp => ?_) fun e he ht => ?_
  · have hlen : frame.payload.length = 16 := by
      unfold parse1600 at hp
      split_ifs at hp with hlen
      exact not_not.mp hlen
    rw [wp_bind, answer1600, wp_bind, wp_look]
    refine wp_seq (wp_atomicWrite_stuck env kMeInfo _ false w) (fun saved t hs => ?_)
      fun e t he ht => ?_
    · have ht : Taken env w.calls frame := by
        refine ⟨fun _ => ⟨hlen, hs.1⟩, fun h => ?_⟩
        rw [hcode] at h
        cases h
      rw [wp_ite]
      split_ifs <;> rw [wp_pure, wp_bind] <;>
        exact wp_update.mpr ((wp_pure _).mpr ⟨ht, rfl⟩)
    · rw [(ht.registered hcode).2] at he
      cases he
  · unfold parse1600 at he
    split_ifs at he with hlen
    exact hlen (ht.registered hcode).1

theorem wp_checksum (originalCrc : Option UInt32) (hcode : frame.code = ResCode.crcResult.value) :
    wp (do
      let r ← ofExcept (parse1603 frame.payload)
      pure (NextStep.none, originalCrc.any fun crc => r.serverCrc = crc.toNat))
      (fun r _ => Taken env w.calls frame ∧ r.1 = .none)
      (fun _ _ => ¬ Taken env w.calls frame) w := by
  refine wp_ofExcept_bind (fun r hr => ?_) fun e he ht => ?_
  · unfold parse1603 at hr
    dsimp only at hr
    split_ifs at hr with hlen
    refine (wp_pure _).mpr ⟨⟨fun h => ?_, fun _ => Nat.not_lt.mp hlen⟩, rfl⟩
    rw [hcode] at h
    cases h
  · unfold parse1603 at he
    dsimp only at he
    split_ifs at he with hlen
    have := ht.checksum hcode
    omega

/-- A frame is taken or the program throws, and its step is the one it asks for. -/
theorem wp_dispatch_asks (env : ClientEnv σ) (originalCrc : Option UInt32) (frame : ResponseFrame)
    (w : ClientWorld σ) :
    wp (dispatch env originalCrc frame) (fun r _ => Taken env w.calls frame ∧ Asks env w frame r.1)
      (fun _ _ => ¬ Taken env w.calls frame) w := by
  unfold dispatch Asks
  rcases hc : ResCode.ofValue frame.code with _ | code
  · exact wp_step (taken_of_code hc (by decide) (by decide)) (wp_fatal_step _ w)
  have hkey : wp (acceptAesKey env frame) (fun step _ => (step = .none ∧ Unlocks env w frame) ∨
      (step = .fatal ∧ ¬ Unlocks env w frame)) (fun _ _ => False) w :=
    wp_mono (wp_acceptAesKey_asks env frame w)
      (fun _ _ h => h.imp (fun h => ⟨h.1, h.2.1⟩) fun h => ⟨h.1, h.2.1⟩) fun _ _ h => h
  cases code with
  | registerOk => exact wp_registered (value_of_ofValue hc)
  | crcResult => exact wp_checksum originalCrc (value_of_ofValue hc)
  | transferDone => exact (wp_pure _).mpr ⟨taken_of_code hc (by decide) (by decide), rfl⟩
  | registerFail => exact wp_step (taken_of_code hc (by decide) (by decide)) (wp_fatal_step _ w)
  | aesKey => exact wp_step (taken_of_code hc (by decide) (by decide)) hkey
  | reloginOk => exact wp_step (taken_of_code hc (by decide) (by decide)) hkey
  | reloginFail =>
      exact wp_step (taken_of_code hc (by decide) (by decide)) (wp_handle1606_step _ w)
  | error => exact wp_step (taken_of_code hc (by decide) (by decide)) (wp_fatal_step _ w)
  | serverHello => exact wp_step (taken_of_code hc (by decide) (by decide)) (wp_fatal_step _ w)

/-- A frame leaves no event, or the key that it brings is saved. -/
theorem wp_dispatch_saves (env : ClientEnv σ) (originalCrc : Option UInt32) (frame : ResponseFrame)
    (w : ClientWorld σ) :
    wp (dispatch env originalCrc frame)
      (fun _ t => (¬ Keys env w frame ∧ t.trace = w.trace) ∨
        (Keys env w frame ∧ ∃ b64, t.trace = w.trace ++ [.savedKey b64]))
      (fun _ _ => True) w := by
  by_cases hkey : ResCode.ofValue frame.code = some .aesKey ∨
      ResCode.ofValue frame.code = some .reloginOk
  · rw [dispatch_key env originalCrc hkey, wp_bind]
    refine wp_mono (wp_acceptAesKey_asks env frame w) (fun step t ht => ?_) fun _ _ _ => trivial
    rw [wp_pure]
    rcases ht with ⟨-, hun, b64, htrace⟩ | ⟨-, hun, htrace⟩
    · cases hplaced : tmpPlaced env true (w.calls + 1) with
      | true =>
          rw [hplaced, if_pos rfl] at htrace
          exact .inr ⟨⟨hkey, hun, hplaced⟩, b64, htrace⟩
      | false =>
          rw [hplaced, if_neg (by simp)] at htrace
          exact .inl ⟨fun h => Bool.false_ne_true (hplaced.symm.trans h.placed), htrace⟩
    · exact .inl ⟨fun h => hun h.unlocks, htrace⟩
  · have hplain : Keeps (Moves (fun _ => False) (fun _ => True)) (dispatch env originalCrc frame) :=
      keeps_dispatch_plain env originalCrc (fun h => hkey (.inl h)) (fun h => hkey (.inr h))
        fun _ _ => trivial
    refine wp_mono (hplain.wp w) (fun _ t ht => ?_) fun _ _ _ => trivial
    exact .inl ⟨fun h => hkey h.code, trace_of_none ht⟩

end

/-- The state after the response. -/
def answered (env : ClientEnv σ) (w : ClientWorld σ) : ClientWorld σ := (answerManager env none w).2

/-- One response is answered as its frame asks, or the program throws. -/
theorem wp_answerManager_asks (env : ClientEnv σ) (originalCrc : Option UInt32)
    (w : ClientWorld σ) :
    wp (answerManager env originalCrc)
      (fun r t => Answers env w r.1 ∧
        (¬ SavesKey env w ↔ ∃ frame, t.trace = w.trace ++ [.read frame]))
      (fun _ _ => ¬ Answerable env w) w := by
  refine wp_seq (wp_and (wp_read env w) (wp_readResponseFrame env w)) (fun frame u hu => ?_)
    fun e t he => ?_
  · obtain ⟨⟨hcut, hsame⟩, htrace⟩ := hu
    have hcalls : u.calls = w.calls := congrArg (·.2.2) hsame
    have hsaves : SavesKey env w ↔ Keys env u frame := by
      rw [keys_congr hsame]
      refine ⟨?_, fun h => ⟨frame, hcut, h⟩⟩
      rintro ⟨frame', hcut', h⟩
      cases hcut.symm.trans hcut'
      exact h
    refine wp_mono (wp_and (wp_dispatch_asks env originalCrc frame u)
      (wp_dispatch_saves env originalCrc frame u)) (fun r t ht => ⟨?_, ?_⟩) fun e t he => ?_
    · exact ⟨frame, hcut, hcalls ▸ ht.1.1, (asks_congr hsame).mp ht.1.2⟩
    · rw [hsaves]
      rcases ht.2 with ⟨hno, ht⟩ | ⟨hkeys, b64, ht⟩
      · exact iff_of_true hno ⟨frame, ht.trans htrace⟩
      · refine iff_of_false (not_not_intro hkeys) ?_
        rintro ⟨frame', ht'⟩
        -- the key is one event more
        have hlen := congrArg List.length (ht.symm.trans ht')
        simp [htrace] at hlen
    · rintro ⟨frame', hcut', htaken⟩
      cases hcut.symm.trans hcut'
      exact he.1 (hcalls ▸ htaken)
  · rintro ⟨frame, hcut, -⟩
    cases he.1.1.symm.trans hcut

/-- A response asks for one step. -/
theorem Answers.unique {step step' : NextStep} (h : Answers env w step)
    (h' : Answers env w step') : step = step' := by
  obtain ⟨frame, hcut, -, hasks⟩ := h
  obtain ⟨frame', hcut', -, hasks'⟩ := h'
  cases hcut.symm.trans hcut'
  exact hasks.unique hasks'

theorem answers_of_run {originalCrc : Option UInt32} {step : NextStep} {ok : Bool}
    {t : ClientWorld σ} (h : answerManager env originalCrc w = (.ok (step, ok), t)) :
    Answers env w step :=
  ((wp_of_eq_ok h).mp (wp_answerManager_asks env originalCrc w)).1

/-- An exception comes of a frame that cannot be taken, so a step that is asked for is
taken. -/
theorem run_of_answers (originalCrc : Option UInt32) {step : NextStep} (h : Answers env w step) :
    ∃ ok, answerManager env originalCrc w =
      (.ok (step, ok), (answerManager env originalCrc w).2) := by
  rcases ha : answerManager env originalCrc w with ⟨e | ⟨step', ok⟩, t⟩
  · obtain ⟨frame, hcut, htaken, -⟩ := h
    have hno := (wp_of_eq_error ha).mp (wp_answerManager_asks env originalCrc w)
    exact (hno ⟨frame, hcut, htaken⟩).elim
  · cases (answers_of_run ha).unique h
    exact ⟨ok, rfl⟩

/-- A response that saves no key is the only event of its run. -/
theorem read_of_answers {step : NextStep} {ok : Bool} {t : ClientWorld σ}
    (h : answerManager env none w = (.ok (step, ok), t)) :
    ¬ SavesKey env w ↔ ∃ frame, t.trace = w.trace ++ [.read frame] :=
  ((wp_of_eq_ok h).mp (wp_answerManager_asks env none w)).2

end

end Seftp.ResponseSteps
