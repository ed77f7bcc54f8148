import Seftp.ResponseSteps

/-!
# When the client reports success

`send_single_file` decides by the response it reads after the retry loop, and the
loop does not say how it ended. So it reports success without a confirmed upload
exactly when an attempt that failed, or the last mismatch, is followed by a response
that is not fatal. `Misled` lists these sequences.
-/
namespace Seftp.SuccessReports
open LittleEndian ExceptState Text Protocol ClientProgram ClientDialogue ClientUpload ClientFrames
open ResponseSteps

/-! ### What the client has confirmed -/

/-- Between the two states the client wrote a request 900 for `name`, and an attempt
streamed a file and then read a 1603 with the checksum of that file. -/
def Confirmed {σ : Type} (name : Bytes) (w w' : ClientWorld σ) : Prop :=
  ∃ es, w'.trace = w.trace ++ es ∧ (∃ cid, .wrote (build900CrcOk cid name) ∈ es) ∧
    ∃ crc frame r, [.streamed crc, .read frame] <:+: es ∧
      frame.code = ResCode.crcResult.value ∧ parse1603 frame.payload = .ok r ∧
      r.serverCrc = crc.toNat

/-- Not a request 900. -/
def Unconfirming (e : Event) : Prop := ∀ cid name, e ≠ .wrote (build900CrcOk cid name)

/-- The response that comes next is not fatal. -/
def GoesOn {σ : Type} (env : ClientEnv σ) (w : ClientWorld σ) : Prop :=
  ∃ step, Answers env w step ∧ step ≠ .fatal

/-- A request can be built and written now. -/
def Writable {σ : Type} (env : ClientEnv σ) (w : ClientWorld σ) : Prop :=
  (∃ cid, parseClientIdHex32 w.cc.clientId = .ok cid) ∧ env.writeRaises w.calls = false

/-- With so many attempts left the responses lead to a success that was not
confirmed. -/
inductive Misled {σ : Type} (env : ClientEnv σ) (key path : Bytes) : ℕ → ClientWorld σ → Prop
  /-- All attempts mismatched, and the response to the 902 is not fatal. -/
  | exhausted {w : ClientWorld σ} (h : GoesOn env w) : Misled env key path 0 w
  /-- The file could not be sent. -/
  | unsent {left : ℕ} {w u : ClientWorld σ}
      (hs : request828Streaming env w.cc.clientId key path w = (.ok none, u))
      (h : GoesOn env
        (setError (utf8Encode "upload send failed before receiving server CRC") u).2) :
      Misled env key path (left + 1) w
  /-- A fatal response ends the loop, and another one follows that is not fatal. -/
  | aborted {left : ℕ} {w u w' : ClientWorld σ} {crc : UInt32} {ok : Bool}
      (hs : request828Streaming env w.cc.clientId key path w = (.ok (some crc), u))
      (ha : answerManager env (some crc) u = (.ok (.fatal, ok), w')) (h : GoesOn env w') :
      Misled env key path (left + 1) w
  /-- The checksum matched and the 900 could not be written. -/
  | unconfirmed {left : ℕ} {w u w' : ClientWorld σ} {crc : UInt32} {step : NextStep}
      (hs : request828Streaming env w.cc.clientId key path w = (.ok (some crc), u))
      (ha : answerManager env (some crc) u = (.ok (step, true), w')) (hstep : step ≠ .fatal)
      (hw : ¬ Writable env w')
      (h : GoesOn env (request900 env (protocolFilenameFromPath path) w'.cc.clientId w').2) :
      Misled env key path (left + 1) w
  /-- Neither fatal nor a match, and the attempts that are left end so. -/
  | mismatched {left : ℕ} {w u w' : ClientWorld σ} {crc : UInt32} {step : NextStep}
      (hs : request828Streaming env w.cc.clientId key path w = (.ok (some crc), u))
      (ha : answerManager env (some crc) u = (.ok (step, false), w')) (hstep : step ≠ .fatal)
      (h : Misled env key path left
        (reportMismatch env left (protocolFilenameFromPath path) w'.cc.clientId w').2) :
      Misled env key path (left + 1) w

/-- The checks before the first attempt. -/
def Starts {σ : Type} (isOpen : Bool) (key path : Bytes) (w : ClientWorld σ) : Prop :=
  normalizeUserPathInput path ≠ [] ∧ (w.files (normalizeUserPathInput path)).isSome = true ∧
    isOpen = true ∧ key ≠ []

section
variable {σ : Type} {env : ClientEnv σ} {key path name : Bytes} {w u v w' : ClientWorld σ}

theorem Confirmed.mono {P : Event → Prop} {T : Bytes → Prop} (h : Confirmed name u v)
    (hw : Moves P T w u) (hv : Moves P T v w') : Confirmed name w w' := by
  obtain ⟨es, hes, ⟨cid, hcid⟩, crc, frame, r, ⟨pre, post, hpart⟩, hframe⟩ := h
  obtain ⟨before, hbefore, -⟩ := hw.events
  obtain ⟨after, hafter, -⟩ := hv.events
  refine ⟨before ++ es ++ after, by rw [hafter, hes, hbefore]; simp, ⟨cid, by simp [hcid]⟩, crc,
    frame, r, ⟨before ++ pre, post ++ after, ?_⟩, hframe⟩
  rw [← hpart]
  simp

theorem not_confirmed {T : Bytes → Prop} (h : Moves Unconfirming T w w') :
    ¬ Confirmed name w w' := by
  rintro ⟨es, hes, ⟨cid, hcid⟩, -⟩
  obtain ⟨es', hes', hall⟩ := h.events
  rw [hes', List.append_cancel_left_eq] at hes
  subst hes
  exact hall _ hcid cid name rfl

/-! ### Messages -/

/-- The code stands in the bytes 17 and 18 of a request. -/
theorem code_buildRequest (cid : ClientId) (code : ℕ) (payload : Bytes) :
    ((buildRequest cid code payload).drop 17).take 2 = leBytes 2 code := by
  obtain ⟨id, hid⟩ := cid
  have hsplit : buildRequest ⟨id, hid⟩ code payload = (id ++ [kVersion]) ++
      (leBytes 2 code ++ (leBytes 4 payload.length ++ payload)) := by
    simp [buildRequest]
  have hlen : (id ++ [kVersion]).length = 17 := by simp [hid]
  rw [hsplit, ← hlen, List.drop_left, List.take_append_of_le_length (by simp)]
  exact List.take_of_length_le (by simp)

theorem unconfirming_coded {code : ℕ} (h : leBytes 2 code ≠ leBytes 2 900) (e : Event)
    (he : Coded code e) : Unconfirming e := by
  obtain ⟨cid, payload, rfl⟩ := he
  intro cid' name heq
  have hm : buildRequest cid code payload = build900CrcOk cid' name := Event.wrote.inj heq
  apply h
  rw [← code_buildRequest cid code payload, hm]
  exact code_buildRequest _ _ _

theorem unconfirming_received (e : Event) (he : Received e) : Unconfirming e := by
  rcases he with ⟨frame, rfl⟩ | ⟨b64, rfl⟩
  · intro cid name h
    cases h
  · intro cid name h
    cases h

/-! ### One attempt -/

abbrev Quiet (w w' : ClientWorld σ) : Prop := Moves Unconfirming (fun _ => True) w w'

theorem quiet_streaming (env : ClientEnv σ) (uuid key path : Bytes) (w : ClientWorld σ) :
    Quiet w (request828Streaming env uuid key path w).2 :=
  keeps_request828Streaming env uuid key path (unconfirming_coded (by decide))
    (fun _ _ _ h => by cases h) w

theorem quiet_answer (env : ClientEnv σ) (crc : Option UInt32) (w : ClientWorld σ) :
    Quiet w (answerManager env crc w).2 :=
  keeps_answerManager env crc unconfirming_received (fun _ _ => trivial) w

theorem quiet_mismatch (env : ClientEnv σ) (left : ℕ) (name uuid : Bytes) (w : ClientWorld σ) :
    Quiet w (reportMismatch env left name uuid w).2 := by
  unfold reportMismatch
  split_ifs
  · exact keeps_confirm env (fun _ => rfl) (unconfirming_coded (by decide)) w
  · exact keeps_confirm env (fun _ => rfl) (unconfirming_coded (by decide)) w

/-- Streaming never throws. -/
theorem streaming_returns (env : ClientEnv σ) (uuid key path : Bytes) (w : ClientWorld σ) :
    ∃ o u, request828Streaming env uuid key path w = (.ok o, u) := by
  unfold request828Streaming attempt
  split
  · exact ⟨_, _, rfl⟩
  · exact ⟨none, _, rfl⟩

/-- The checksum is the last thing a successful attempt records. -/
theorem streamed_last {uuid : Bytes} {crc : UInt32}
    (h : request828Streaming env uuid key path w = (.ok (some crc), u)) :
    ∃ es, u.trace = w.trace ++ es ++ [.streamed crc] := by
  have hall : wp (request828Streaming env uuid key path)
      (fun o t => ∀ crc, o = some crc → ∃ es, t.trace = w.trace ++ es ++ [.streamed crc])
      (fun _ _ => True) w := by
    rw [request828Streaming, wp_attempt, wp_bind, wp_look]
    rcases w.files path with _ | content
    · rw [wp_raise, wp_pure]
      exact fun _ h => by cases h
    · refine wp_ofExcept_bind (fun up _ => ?_) fun _ _ => ?_
      · have hk : Keeps (Moves (fun _ => True) (fun _ => True)) (streamUpload env up path) :=
          keeps_streamUpload (fun _ _ => trivial) path
        refine wp_seq (hk.wp w) (fun c t ht => ?_) fun _ _ _ => ?_
        · obtain ⟨es, hes, -⟩ := ht.events
          rw [wp_bind, wp_note, wp_pure]
          intro crc hcrc
          cases hcrc
          exact ⟨es, by rw [hes]⟩
        · rw [wp_pure]
          exact fun _ h => by cases h
      · rw [wp_pure]
        exact fun _ h => by cases h
  rw [wp_of_eq_ok h] at hall
  exact hall crc rfl

/-- The flag is set by a 1603 with the checksum asked for, and by nothing else. -/
theorem wp_dispatch_flag (env : ClientEnv σ) (crc : UInt32) (frame : ResponseFrame)
    (w : ClientWorld σ) :
    wp (dispatch env (some crc) frame)
      (fun r t => r.2 = true → t = w ∧ frame.code = ResCode.crcResult.value ∧
        ∃ r, parse1603 frame.payload = .ok r ∧ r.serverCrc = crc.toNat) (fun _ _ => True) w := by
  have hno {α : Type} {x : Client σ α} {f : α → NextStep} : wp (do
      let a ← x
      pure (f a, false))
      (fun r t => r.2 = true → t = w ∧ frame.code = ResCode.crcResult.value ∧
        ∃ r, parse1603 frame.payload = .ok r ∧ r.serverCrc = crc.toNat) (fun _ _ => True) w := by
    rw [wp_bind]
    refine wp_mono (wp_any x w) (fun a t _ => ?_) fun _ _ _ => trivial
    rw [wp_pure]
    exact fun h => by cases h
  unfold dispatch
  rcases hcode : ResCode.ofValue frame.code with _ | code
  · exact hno
  · cases code with
    | registerOk =>
        refine wp_ofExcept_bind (fun payload _ => ?_) fun _ _ => trivial
        rw [wp_bind]
        refine wp_mono (wp_any _ w) (fun a t _ => ?_) fun _ _ _ => trivial
        rw [wp_bind]
        refine wp_mono (wp_any _ t) (fun a t _ => ?_) fun _ _ _ => trivial
        rw [wp_pure]
        exact fun h => by cases h
    | registerFail => exact hno
    | aesKey => exact hno
    | crcResult =>
        refine wp_ofExcept_bind (fun r hr => ?_) fun _ _ => trivial
        rw [wp_pure]
        intro h
        exact ⟨rfl, value_of_ofValue hcode, r, hr, by simpa using h⟩
    | transferDone =>
        rw [wp_pure]
        exact fun h => by cases h
    | reloginOk => exact hno
    | reloginFail => exact hno
    | error => exact hno
    | serverHello => exact hno

theorem answer_matched {crc : UInt32} {step : NextStep}
    (h : answerManager env (some crc) u = (.ok (step, true), w')) :
    ∃ (frame : ResponseFrame) (r : Res1603), w'.trace = u.trace ++ [.read frame] ∧
      frame.code = ResCode.crcResult.value ∧ parse1603 frame.payload = .ok r ∧
      r.serverCrc = crc.toNat := by
  have hall : wp (answerManager env (some crc))
      (fun r t => r.2 = true → ∃ (frame : ResponseFrame) (r : Res1603),
        t.trace = u.trace ++ [.read frame] ∧ frame.code = ResCode.crcResult.value ∧
        parse1603 frame.payload = .ok r ∧ r.serverCrc = crc.toNat) (fun _ _ => True) u := by
    refine wp_seq (wp_readResponseFrame env u) (fun frame t ht => ?_) fun _ _ _ => trivial
    refine wp_mono (wp_dispatch_flag env crc frame t) (fun r t' hr htrue => ?_) fun _ _ _ => trivial
    obtain ⟨rfl, hcode, r, hr, hcrc⟩ := hr htrue
    exact ⟨frame, r, ht, hcode, hr, hcrc⟩
  rw [wp_of_eq_ok h] at hall
  exact hall rfl

/-- Request 900 is written where it can be, and leaves no trace otherwise. -/
theorem request900_cases (env : ClientEnv σ) (name : Bytes) (w : ClientWorld σ) :
    (Writable env w ∧ ∃ cid, (request900 env name w.cc.clientId w).2.trace =
      w.trace ++ [.wrote (build900CrcOk cid name)]) ∨
    (¬ Writable env w ∧ Quiet w (request900 env name w.cc.clientId w).2) := by
  unfold request900 confirm
  rcases hp : parseClientIdHex32 w.cc.clientId with e | cid
  · right
    refine ⟨fun h => ?_, Moves.refl w⟩
    obtain ⟨cid, hcid⟩ := h.1
    rw [hp] at hcid
    cases hcid
  · have hrun := writeLogged_eq env (build900CrcOk cid name) w
    cases hw : env.writeRaises w.calls with
    | true =>
        right
        rw [hw] at hrun
        refine ⟨fun h => ?_, ?_⟩
        · rw [h.2] at hw
          cases hw
        · change Quiet w (writeLogged env (.ok (build900CrcOk cid name)) w).2
          rw [hrun]
          exact moves_of_same rfl rfl rfl
    | false =>
        left
        rw [hw] at hrun
        refine ⟨⟨⟨cid, hp⟩, hw⟩, cid, ?_⟩
        change (writeLogged env (.ok (build900CrcOk cid name)) w).2.trace = _
        rw [hrun]
        rfl

/-! ### The sequences that mislead, one attempt at a time -/

section
variable {left : ℕ} {crc : UInt32} {step : NextStep} {ok : Bool} {e : String}

theorem misled_unsent (hs : request828Streaming env w.cc.clientId key path w = (.ok none, u)) :
    Misled env key path (left + 1) w ↔
      GoesOn env (setError (utf8Encode "upload send failed before receiving server CRC") u).2 := by
  refine ⟨fun h => ?_, .unsent hs⟩
  cases h with
  | unsent hs' h =>
      rw [hs] at hs'
      cases hs'
      exact h
  | aborted hs' | unconfirmed hs' | mismatched hs' =>
      rw [hs] at hs'
      cases hs'

theorem not_misled_raised
    (hs : request828Streaming env w.cc.clientId key path w = (.ok (some crc), u))
    (ha : answerManager env (some crc) u = (.error e, w')) :
    ¬ Misled env key path (left + 1) w := by
  intro h
  cases h with
  | unsent hs' =>
      rw [hs] at hs'
      cases hs'
  | aborted hs' ha' | unconfirmed hs' ha' | mismatched hs' ha' =>
      rw [hs] at hs'
      cases hs'
      rw [ha] at ha'
      cases ha'

/-- An attempt that got an answer misleads in the way its answer allows. -/
theorem misled_answered
    (hs : request828Streaming env w.cc.clientId key path w = (.ok (some crc), u))
    (ha : answerManager env (some crc) u = (.ok (step, ok), w'))
    (h : Misled env key path (left + 1) w) :
    (step = .fatal ∧ GoesOn env w') ∨
      (step ≠ .fatal ∧ ok = true ∧ ¬ Writable env w' ∧
        GoesOn env (request900 env (protocolFilenameFromPath path) w'.cc.clientId w').2) ∨
      (step ≠ .fatal ∧ ok = false ∧ Misled env key path left
        (reportMismatch env left (protocolFilenameFromPath path) w'.cc.clientId w').2) := by
  cases h with
  | unsent hs' =>
      rw [hs] at hs'
      cases hs'
  | aborted hs' ha' h =>
      rw [hs] at hs'
      cases hs'
      rw [ha] at ha'
      cases ha'
      exact .inl ⟨rfl, h⟩
  | unconfirmed hs' ha' hstep hw h =>
      rw [hs] at hs'
      cases hs'
      rw [ha] at ha'
      cases ha'
      exact .inr (.inl ⟨hstep, rfl, hw, h⟩)
  | mismatched hs' ha' hstep h =>
      rw [hs] at hs'
      cases hs'
      rw [ha] at ha'
      cases ha'
      exact .inr (.inr ⟨hstep, rfl, h⟩)

theorem misled_fatal
    (hs : request828Streaming env w.cc.clientId key path w = (.ok (some crc), u))
    (ha : answerManager env (some crc) u = (.ok (.fatal, ok), w')) :
    Misled env key path (left + 1) w ↔ GoesOn env w' := by
  refine ⟨fun h => ?_, .aborted hs ha⟩
  rcases misled_answered hs ha h with ⟨-, hgo⟩ | ⟨hstep, -⟩ | ⟨hstep, -⟩
  · exact hgo
  · exact (hstep rfl).elim
  · exact (hstep rfl).elim

theorem misled_match
    (hs : request828Streaming env w.cc.clientId key path w = (.ok (some crc), u))
    (ha : answerManager env (some crc) u = (.ok (step, true), w')) (hstep : step ≠ .fatal) :
    Misled env key path (left + 1) w ↔ ¬ Writable env w' ∧
      GoesOn env (request900 env (protocolFilenameFromPath path) w'.cc.clientId w').2 := by
  refine ⟨fun h => ?_, fun h => .unconfirmed hs ha hstep h.1 h.2⟩
  rcases misled_answered hs ha h with ⟨hfatal, -⟩ | ⟨-, -, hmisled⟩ | ⟨-, hok, -⟩
  · exact (hstep hfatal).elim
  · exact hmisled
  · cases hok

theorem misled_mismatch
    (hs : request828Streaming env w.cc.clientId key path w = (.ok (some crc), u))
    (ha : answerManager env (some crc) u = (.ok (step, false), w')) (hstep : step ≠ .fatal) :
    Misled env key path (left + 1) w ↔ Misled env key path left
      (reportMismatch env left (protocolFilenameFromPath path) w'.cc.clientId w').2 := by
  refine ⟨fun h => ?_, .mismatched hs ha hstep⟩
  rcases misled_answered hs ha h with ⟨hfatal, -⟩ | ⟨-, hok, -⟩ | ⟨-, -, hmisled⟩
  · exact (hstep hfatal).elim
  · cases hok
  · exact hmisled

end

/-- Whether the client goes on is what its run finds. -/
theorem goesOn_iff : GoesOn env w ↔
    ∃ r, answerManager env none w = (.ok r, answered env w) ∧ r.1 ≠ .fatal := by
  constructor
  · rintro ⟨step, hstep, hfatal⟩
    obtain ⟨ok, ha⟩ := run_of_answers none hstep
    exact ⟨(step, ok), ha, hfatal⟩
  · rintro ⟨⟨step, ok⟩, ha, hfatal⟩
    exact ⟨step, answers_of_run ha, hfatal⟩

/-! ### The retry loop -/

/-- How the loop ends: with a confirmed upload, or without one and then the next
response decides. -/
def Ends (env : ClientEnv σ) (key path : Bytes) (left : ℕ) (w t : ClientWorld σ) : Prop :=
  (Confirmed (protocolFilenameFromPath path) w t ∧ ¬ Misled env key path left w) ∨
    (Quiet w t ∧ (Misled env key path left w ↔ GoesOn env t))

theorem confirm_returns (env : ClientEnv σ) (build : ClientId → Bytes → Bytes) (name uuid : Bytes)
    (w : ClientWorld σ) :
    confirm env build name uuid w = (.ok (), (confirm env build name uuid w).2) :=
  writeLogged_returns env _ w

theorem reportMismatch_returns (env : ClientEnv σ) (left : ℕ) (name uuid : Bytes)
    (w : ClientWorld σ) :
    reportMismatch env left name uuid w = (.ok (), (reportMismatch env left name uuid w).2) := by
  unfold reportMismatch
  split_ifs
  · exact confirm_returns env _ name uuid w
  · exact confirm_returns env _ name uuid w

theorem wp_retryLoop (env : ClientEnv σ) (key path : Bytes) (left : ℕ) (w : ClientWorld σ) :
    wp (retryLoop env key path left) (fun _ t => Ends env key path left w t)
      (fun _ _ => ¬ Misled env key path left w) w := by
  induction left generalizing w with
  | zero =>
      refine (wp_pure _).mpr (.inr ⟨Moves.refl w, ?_⟩)
      refine ⟨fun h => ?_, .exhausted⟩
      cases h with
      | exhausted h => exact h
  | succ left ih =>
      rw [retryLoop, wp_bind, wp_look, wp_bind]
      obtain ⟨o, u, hs⟩ := streaming_returns env w.cc.clientId key path w
      have hqu : Quiet w u := by
        have := quiet_streaming env w.cc.clientId key path w
        rwa [hs] at this
      rw [wp_of_eq_ok hs]
      cases o with
      | none =>
          refine wp_update.mpr (.inr ⟨hqu.trans (moves_of_same rfl rfl rfl), misled_unsent hs⟩)
      | some crc =>
          rw [wp_bind]
          have hqa := quiet_answer env (some crc) u
          rcases ha : answerManager env (some crc) u with ⟨e | ⟨step, matched⟩, w'⟩
          · rw [wp_of_eq_error ha]
            exact not_misled_raised hs ha
          rw [ha] at hqa
          rw [wp_of_eq_ok ha]
          by_cases hstep : step = .fatal
          · subst hstep
            change wp (if NextStep.fatal = .fatal then _ else _) _ _ _
            rw [if_pos rfl, wp_pure]
            exact .inr ⟨hqu.trans hqa, misled_fatal hs ha⟩
          change wp (if step = .fatal then _ else _) _ _ _
          rw [if_neg hstep, wp_bind, wp_look]
          cases matched with
          | true =>
              -- the match is in the trace, and the 900 follows it if it can be written
              rw [if_pos rfl]
              obtain ⟨frame, r, hread, hcode, hr, hcrc⟩ := answer_matched ha
              obtain ⟨es, hes⟩ := streamed_last hs
              rw [request900, wp_of_eq_ok (confirm_returns env _ _ _ w')]
              change Ends env key path (left + 1) w
                (request900 env (protocolFilenameFromPath path) w'.cc.clientId w').2
              rcases request900_cases env (protocolFilenameFromPath path) w' with
                ⟨hw, cid, htrace⟩ | ⟨hw, hquiet⟩
              · refine .inl ⟨⟨es ++ [.streamed crc, .read frame] ++
                  [.wrote (build900CrcOk cid (protocolFilenameFromPath path))], ?_,
                    ⟨cid, by simp⟩, crc, frame, r, ⟨es, _, rfl⟩, hcode, hr, hcrc⟩, ?_⟩
                · rw [htrace, hread, hes]
                  simp
                · rw [misled_match hs ha hstep]
                  exact fun h => h.1 hw
              · refine .inr ⟨hqu.trans (hqa.trans hquiet), ?_⟩
                rw [misled_match hs ha hstep]
                exact ⟨fun h => h.2, fun h => ⟨hw, h⟩⟩
          | false =>
              rw [if_neg (by simp), wp_bind, wp_of_eq_ok (reportMismatch_returns env left _ _ w')]
              have hq := hqu.trans (hqa.trans (quiet_mismatch env left
                (protocolFilenameFromPath path) w'.cc.clientId w'))
              refine wp_mono (ih _) (fun _ t ht => ?_) fun _ t ht => ?_
              · rw [Ends, misled_mismatch hs ha hstep]
                rcases ht with ⟨hconf, hno⟩ | ⟨hquiet, hiff⟩
                · exact .inl ⟨hconf.mono hq (Moves.refl t), hno⟩
                · exact .inr ⟨hq.trans hquiet, hiff⟩
              · rw [misled_mismatch hs ha hstep]
                exact ht

/-! ### The report -/

theorem sendSingleFile_refuses (env : ClientEnv σ) {isOpen : Bool}
    (h : ¬ Starts isOpen key path w) : ∃ t, sendSingleFile env isOpen key path w =
      (.ok false, t) := by
  change ∃ t, (if normalizeUserPathInput path = [] ∨ !(w.files (normalizeUserPathInput path)).isSome
    then _ else _ : Client σ Bool) (setError [] w).2 = (.ok false, t)
  split_ifs with h₁ h₂ h₃
  · exact ⟨_, rfl⟩
  · exact ⟨_, rfl⟩
  · exact ⟨_, rfl⟩
  · refine (h ⟨fun he => h₁ (.inl he), ?_, by simpa using h₂, h₃⟩).elim
    by_contra hf
    exact h₁ (.inr (by simpa using hf))

/-- From the checks on, the loop and one response. -/
theorem sendSingleFile_starts (env : ClientEnv σ) {isOpen : Bool} (h : Starts isOpen key path w) :
    sendSingleFile env isOpen key path w =
      match retryLoop env key (normalizeUserPathInput path) maxRetries (setError [] w).2 with
      | (.error e, t) => (.ok false, (setError (utf8Encode e) t).2)
      | (.ok _, t) =>
          match answerManager env none t with
          | (.ok r, t') => (.ok (r.1 ≠ .fatal), t')
          | (.error e, t') => (.error e, t') := by
  obtain ⟨hpath, hfile, hopen, hkey⟩ := h
  change (if normalizeUserPathInput path = [] ∨ !(w.files (normalizeUserPathInput path)).isSome
    then _ else _ : Client σ Bool) (setError [] w).2 = _
  rw [if_neg (by simp [hpath, hfile]), if_neg (by simp [hopen]), if_neg hkey, bind_apply]
  unfold attempt
  rw [bind_apply, request828Retry]
  rcases retryLoop env key (normalizeUserPathInput path) maxRetries (setError [] w).2 with
    ⟨e | _, t⟩
  · rfl
  · change (answerManager env none >>= fun r => pure (decide (r.1 ≠ .fatal))) t =
      match answerManager env none t with
      | (.ok r, t') => (.ok (decide (r.1 ≠ .fatal)), t')
      | (.error e, t') => (.error e, t')
    rw [bind_apply]
    rcases answerManager env none t with ⟨e | ⟨step, ok⟩, t'⟩
    · rfl
    · rfl

/-- The client reports success only for a confirmed upload, unless the checks pass
and the responses mislead it. -/
theorem success_confirmed_iff (env : ClientEnv σ) (isOpen : Bool) (key path : Bytes)
    (w : ClientWorld σ) :
    (∀ w', sendSingleFile env isOpen key path w = (.ok true, w') →
      Confirmed (protocolFilenameFromPath (normalizeUserPathInput path)) w w') ↔
    ¬ (Starts isOpen key path w ∧
      Misled env key (normalizeUserPathInput path) maxRetries (setError [] w).2) := by
  have hset : Quiet w (setError [] w).2 := moves_of_same rfl rfl rfl
  have hloop := wp_retryLoop env key (normalizeUserPathInput path) maxRetries (setError [] w).2
  by_cases hstart : Starts isOpen key path w
  swap
  · obtain ⟨t, ht⟩ := sendSingleFile_refuses env hstart
    refine ⟨fun _ h => hstart h.1, fun _ w' hrun => ?_⟩
    rw [ht] at hrun
    cases hrun
  have hsend := sendSingleFile_starts env hstart
  rcases hrun : retryLoop env key (normalizeUserPathInput path) maxRetries (setError [] w).2 with
    ⟨e | _, t⟩
  · -- an exception ends the call without a report
    rw [wp_of_eq_error hrun] at hloop
    rw [hrun] at hsend
    refine ⟨fun _ h => hloop h.2, fun _ w' hw' => ?_⟩
    rw [hsend] at hw'
    cases hw'
  rw [wp_of_eq_ok hrun] at hloop
  rw [hrun] at hsend
  have hq := quiet_answer env none t
  rcases ha : answerManager env none t with ⟨e | ⟨step, ok⟩, t'⟩
  · have hno : ¬ GoesOn env t := fun hgo => by
      obtain ⟨r, h, -⟩ := goesOn_iff.mp hgo
      cases ha.symm.trans h
    simp only [ha] at hsend
    refine ⟨fun _ h => ?_, fun _ w' hw' => ?_⟩
    · rcases hloop with ⟨-, hnot⟩ | ⟨-, hiff⟩
      · exact hnot h.2
      · exact hno (hiff.mp h.2)
    · rw [hsend] at hw'
      cases hw'
  rw [ha] at hq
  simp only [ha] at hsend
  constructor
  · rintro hall ⟨-, hmis⟩
    rcases hloop with ⟨-, hnot⟩ | ⟨hquiet, hiff⟩
    · exact hnot hmis
    · obtain ⟨r, hr, hfatal⟩ := goesOn_iff.mp (hiff.mp hmis)
      have hstep : step ≠ .fatal := by
        rw [ha] at hr
        cases hr
        exact hfatal
      have htrue : sendSingleFile env isOpen key path w = (.ok true, t') := by
        rw [hsend]
        simp [hstep]
      exact not_confirmed (hset.trans (hquiet.trans hq)) (hall t' htrue)
  · intro hnot w' hw'
    rw [hsend] at hw'
    have hgo : GoesOn env t := ⟨step, answers_of_run ha, by simpa using congrArg (·.1) hw'⟩
    obtain rfl : t' = w' := congrArg (·.2) hw'
    rcases hloop with ⟨hconf, -⟩ | ⟨-, hiff⟩
    · exact hconf.mono hset hq
    · exact (hnot ⟨hstart, hiff.mpr hgo⟩).elim

end

/-! ### Four mismatches and a friendly answer -/

/-- A connection on which everything works and the other end has said all it will
say. -/
def scripted : ClientEnv Unit where
  sha256Hex _ := []
  verifyMessage _ _ _ := false
  oaepDecrypt _ _ := none
  publicOf _ := none
  aesEncrypt _ block := block
  newKeypair _ := none
  nonce _ := ⟨List.replicate 32 5, List.length_replicate⟩
  makeIv _ := ⟨List.replicate 16 9, List.length_replicate⟩
  writeRaises _ := false
  fileFails _ := false
  hears _ s := (s, [])
  speaks s := (s, [])

/-- A response as the server sends it. -/
def response (code : ResCode) (payload : Bytes) : Bytes :=
  [3] ++ leBytes 2 code.value ++ leBytes 4 payload.length ++ payload

/-- A 1603 for `a.txt` with checksum 0, and the 1604 that answers a 902. -/
def wrongChecksum : Bytes :=
  response .crcResult (List.replicate 16 0 ++ leBytes 4 16 ++ utf8Encode "a.txt" ++ [0] ++
    leBytes 4 0)

def transferDone : Bytes := response .transferDone (List.replicate 16 0)

def lateSuccess : ClientWorld Unit where
  cc := { clientId := List.replicate 32 48 }
  files name := if name = utf8Encode "a.txt" then some [1] else none
  incoming := wrongChecksum ++ wrongChecksum ++ wrongChecksum ++ wrongChecksum ++ transferDone
  peer := ()
  trace := []
  calls := 0

def zeroKey : Bytes := encodeBase64 (List.replicate 32 0)

/-- The code of a written request. -/
def codeOf : Event → Bytes
  | .wrote message => (message.drop 17).take 2
  | _ => []

/-- Four checksums of the server differ from the client's, the client gives up, and
the answer to that makes the upload a success. -/
theorem success_after_giving_up :
    (sendSingleFile scripted true zeroKey (utf8Encode "a.txt") lateSuccess).1 = .ok true ∧
      ¬ Confirmed (utf8Encode "a.txt") lateSuccess
        (sendSingleFile scripted true zeroKey (utf8Encode "a.txt") lateSuccess).2 := by
  refine ⟨by decide +kernel, ?_⟩
  rintro ⟨es, hes, ⟨cid, hcid⟩, -⟩
  have hno : ∀ e ∈ (sendSingleFile scripted true zeroKey (utf8Encode "a.txt") lateSuccess).2.trace,
      codeOf e ≠ leBytes 2 900 := by decide +kernel
  rw [hes] at hno
  exact hno _ (List.mem_append_right _ hcid) (code_buildRequest _ _ _)

end Seftp.SuccessReports
