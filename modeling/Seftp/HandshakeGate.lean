import Seftp.HandlerFrames
import Seftp.Router

/-!
# The handshake gate

Nothing but the handshake happens before it is complete, it happens once, and the
nonces it agreed on are those that later key responses are signed over. The
invariant follows the three handshake fields through the states nothing started,
hello received, hello answered and verified.
-/
namespace Seftp.HandshakeGate
open LittleEndian ExceptState OutsideWorld Text Protocol ClientStore StoreFrames ServerSession
open Answers SessionFrames AccountHandlers UploadHandlers HandlerFrames Router

/-! ### Runs of frames -/

/-- The outside world of a frame and the frame. -/
abbrev Event := Outside × Bytes

def handleEvent (h : AppHandlers) (env : Env) (w : World) (e : Event) : World :=
  (handleFrameWith h ⟨env, e.1⟩ e.2 w).2

/-- The frames handled one after the other, with a table of handlers. -/
def runWith (h : AppHandlers) (env : Env) (es : List Event) (w : World) : World :=
  es.foldl (handleEvent h env) w

/-- The frames handled one after the other by the server. -/
def runFrames (env : Env) (es : List Event) (w : World) : World := runWith handlers env es w

theorem runFrames_append (env : Env) (es fs : List Event) (w : World) :
    runFrames env (es ++ fs) w = runFrames env fs (runFrames env es w) := List.foldl_append

@[simp] theorem runFrames_nil (env : Env) (w : World) : runFrames env [] w = w := rfl

theorem runFrames_snoc (env : Env) (es : List Event) (e : Event) (w : World) :
    runFrames env (es ++ [e]) w = handleEvent handlers env (runFrames env es w) e := by
  rw [runFrames_append]
  rfl

/-! ### Accepted handshake frames -/

/-- The frame reaches the dispatch. -/
def reaches (frame : Bytes) : Prop := 17 ≤ frame.length ∧ wellFormed frame = true

/-- A client hello that the server takes up. -/
structure AcceptsHello (w : World) (frame : Bytes) : Prop where
  reaches : reaches frame
  code : (parseFrame frame).code = 829
  length : (parseFrame frame).payload.length = 34
  version : (parseFrame frame).payload.headD 0 = 1
  flags : ((parseFrame frame).payload.drop 33).headD 0 = 0
  unstarted : w.session.handshake = {}

/-- The nonce of a client hello. -/
def helloNonce (frame : Bytes) : Bytes := ((parseFrame frame).payload.drop 1).take 32

/-- An acknowledgement that completes the handshake. -/
structure AcceptsAck (w : World) (frame : Bytes) : Prop where
  reaches : reaches frame
  code : (parseFrame frame).code = 830
  empty : (parseFrame frame).payload = []
  unverified : w.session.handshake.verified = false
  client : w.session.handshake.clientNonce.isSome
  server : w.session.handshake.serverNonce.isSome
  security : w.session.handshake.securityVersion.isSome

/-- The server hello that answers a client hello. -/
def serverHello (env : Env) (version serverNonce signature : Bytes) : Bytes :=
  message version .serverHello ([1] ++ serverNonce ++ leBytes 2 env.serverPublicKeyDer.length ++
    env.serverPublicKeyDer ++ leBytes 2 signature.length ++ signature)

/-- The identity key's encoding and its signatures fit their length fields. -/
structure IdentityFits (env : Env) : Prop where
  publicKey : env.serverPublicKeyDer.length ≤ 65535
  signature : ∀ t s, env.signTranscript t = some s → s.length ≤ 65535

/-! ### One frame before the handshake is complete -/

/-- The fields after a hello whose signing raised. -/
def started (frame : Bytes) : Handshake :=
  { securityVersion := some 1, clientNonce := some (helloNonce frame) }

/-- The fields after a hello that was signed. -/
def answered (frame serverNonce : Bytes) : Handshake :=
  { started frame with serverNonce := some serverNonce }

/-- What the handshake fields and the messages do in one locked step. -/
inductive LockedMove (env : Env) (w : World) (frame : Bytes) : Handshake → List Bytes → Prop
  | stay (ms : List Bytes) (hm : ∀ m ∈ ms, Coded .error m) :
      LockedMove env w frame w.session.handshake ms
  | started (ms : List Bytes) (ha : AcceptsHello w frame) (hm : ∀ m ∈ ms, Coded .error m) :
      LockedMove env w frame (started frame) ms
  | hello (ms rest : List Bytes) (serverNonce : Bytes) (ha : AcceptsHello w frame)
      (hm : ∀ m ∈ rest, Coded .error m)
      (h8 : ms = rest ∨ ∃ m, Coded .serverHello m ∧ ms = m :: rest)
      (hfits : IdentityFits env → ∃ version signature,
        ms = serverHello env version serverNonce signature :: rest) :
      LockedMove env w frame (answered frame serverNonce) ms
  | ack (ms : List Bytes) (ha : AcceptsAck w frame) (hm : ∀ m ∈ ms, Coded .error m) :
      LockedMove env w frame { w.session.handshake with verified := true } ms

/-- One locked step: the core keeps everything but the handshake. -/
structure LockedStep (env : Env) (frame : Bytes) (w w' : World) : Prop where
  move : ∃ ms, w'.session.sent = w.session.sent ++ ms ∧
    LockedMove env w frame w'.session.handshake ms
  core_eq : core w' = { core w with handshake := w'.session.handshake }
  store : SeenOnly w.store w'.store

section
variable {env : Env} {ctx : Ctx} {frame version clientId : Bytes} {w w' t : World}

theorem LockedMove.errors {h : Handshake} {ms es : List Bytes} (hm : LockedMove env w frame h ms)
    (he : ∀ m ∈ es, Coded .error m) : LockedMove env w frame h (ms ++ es) := by
  have happ {l : List Bytes} (hl : ∀ m ∈ l, Coded .error m) : ∀ m ∈ l ++ es, Coded .error m :=
    fun m h => (List.mem_append.mp h).elim (hl m) (he m)
  cases hm with
  | stay ms hm => exact .stay _ (happ hm)
  | started ms ha hm => exact .started _ ha (happ hm)
  | hello ms rest nonce ha hm h8 hfits =>
      refine .hello _ (rest ++ es) nonce ha (happ hm) ?_ fun hf => ?_
      · rcases h8 with rfl | ⟨m, hm8, rfl⟩
        · exact .inl rfl
        · exact .inr ⟨m, hm8, rfl⟩
      · obtain ⟨v, sig, rfl⟩ := hfits hf
        exact ⟨v, sig, rfl⟩
  | ack ms ha hm => exact .ack _ ha (happ hm)

/-- Error messages after a locked step belong to it. -/
theorem LockedStep.errors (h : LockedStep env frame w t) (hq : Quiet (Coded .error) t w') :
    LockedStep env frame w w' := by
  obtain ⟨ms, hs, hm⟩ := h.move
  obtain ⟨es, ht, he⟩ := hq
  have hh := ht.handshake
  refine ⟨⟨ms ++ es, ?_, ?_⟩, ?_, trans_of SeenOnly h.store ht.store⟩
  · rw [ht.sent, hs, List.append_assoc]
  · rw [hh]
    exact hm.errors he
  · rw [ht.core_eq, h.core_eq, hh]

theorem LockedStep.stay (hq : Quiet (Coded .error) w w') : LockedStep env frame w w' := by
  obtain ⟨es, ht, he⟩ := hq
  have hh := ht.handshake
  refine ⟨⟨es, ht.sent, ?_⟩, ?_, ht.store⟩
  · rw [hh]
    exact .stay es he
  · rw [ht.core_eq, hh]
    rfl

/-- A locked step may begin with bookkeeping. -/
theorem LockedStep.after (hq : Tells [] w t) (h : LockedStep env frame t w') :
    LockedStep env frame w w' := by
  obtain ⟨ms, hs, hm⟩ := h.move
  have hh := hq.handshake
  refine ⟨⟨ms, by rw [hs, hq.sent, List.append_nil], ?_⟩, by rw [h.core_eq, hq.core_eq],
    trans_of SeenOnly hq.store h.store⟩
  generalize w'.session.handshake = k at hm
  cases hm with
  | stay _ hm => rw [hh]; exact .stay _ hm
  | started _ ha hm => exact .started _ { ha with unstarted := hh ▸ ha.unstarted } hm
  | hello _ rest nonce ha hm h8 hf =>
      exact .hello _ rest nonce { ha with unstarted := hh ▸ ha.unstarted } hm h8 hf
  | ack _ ha hm =>
      rw [hh]
      exact .ack _ ⟨ha.reaches, ha.code, ha.empty, hh ▸ ha.unverified, hh ▸ ha.client,
        hh ▸ ha.server, hh ▸ ha.security⟩ hm

theorem locked_answer1607 (text : String) :
    wp (answer1607 ctx clientId version text) (fun _ w' => LockedStep env frame w w')
      (fun _ w' => LockedStep env frame w w') w :=
  wp_mono ((quiet_answer1607 text).wp w) (fun _ _ h => .stay h) (fun _ _ h => .stay h)

/-- A change of the handshake alone. -/
theorem core_setHandshake (w : World) (h : Handshake) :
    core (w.setSession { w.session with handshake := h }) = { core w with handshake := h } := rfl

/-- The server hello goes out once, unless it does not fit its fields. -/
theorem answer1608_tells {nonce signature : Bytes} (hn : nonce.length = 32)
    (hv : version.length = 1) (w : World) :
    let w' := (answer1608 ctx version 1 nonce ctx.env.serverPublicKeyDer signature w).2
    Tells [serverHello ctx.env version nonce signature] w w' ∨
      Tells [] w w' ∧
        ¬ (ctx.env.serverPublicKeyDer.length ≤ 65535 ∧ signature.length ≤ 65535) := by
  have hq : ∀ s : World, wp (answer1608 ctx version 1 nonce ctx.env.serverPublicKeyDer signature)
      (fun _ w' => Tells [serverHello ctx.env version nonce signature] s w')
      (fun _ w' => Tells [serverHello ctx.env version nonce signature] s w' ∨
        Tells [] s w' ∧
          ¬ (ctx.env.serverPublicKeyDer.length ≤ 65535 ∧ signature.length ≤ 65535)) s := by
    intro s
    rw [answer1608, wp_bind, if_neg (by simp [hn])]
    split_ifs with h₁ h₂
    · rw [wp_ofExcept_error]
      exact .inr ⟨.refl s, by omega⟩
    · rw [wp_ofExcept_error]
      exact .inr ⟨.refl s, by omega⟩
    · have hm : messageAnswer version .serverHello _ ([1] ++ nonce ++
          leBytes 2 ctx.env.serverPublicKeyDer.length ++ ctx.env.serverPublicKeyDer ++
          leBytes 2 signature.length ++ signature) =
            .ok (serverHello ctx.env version nonce signature) :=
        messageAnswer_ok.mpr ⟨hv, rfl, by simp; omega, rfl⟩
      rw [wp_ofExcept_ok, wp_bind, hm, wp_ofExcept_ok]
      exact wp_mono ((tells_send message_ne_nil).wp s) (fun _ _ h => h) (fun _ _ h => .inl h)
  exact wp_state.mp (wp_mono (hq w) (fun _ _ h => .inl h) (fun _ _ h => h))

theorem length_version (hr : reaches frame) : (parseFrame frame).version.length = 1 := by
  have := hr.1
  simp only [parseFrame, List.length_take, List.length_drop]
  omega

/-- The answer to an accepted hello, from the state with all three fields set. -/
theorem locked_serverHello {nonce signature transcript : Bytes} (ha : AcceptsHello w frame)
    (hv : version.length = 1) (hn : nonce.length = 32)
    (hg : ctx.env.signTranscript transcript = some signature)
    (hc : core t = { core w with handshake := answered frame nonce })
    (hs : t.session.sent = w.session.sent) (hst : SeenOnly w.store t.store) :
    LockedStep ctx.env frame w
      (answer1608 ctx version 1 nonce ctx.env.serverPublicKeyDer signature t).2 := by
  have hd : t.session.handshake = answered frame nonce := congrArg Core.handshake hc
  rcases answer1608_tells hn hv t with ht | ⟨ht, hno⟩
  · have hh := ht.handshake.trans hd
    refine ⟨⟨_, by rw [ht.sent, hs], ?_⟩, ?_, trans_of SeenOnly hst ht.store⟩
    · rw [hh]
      exact .hello _ [] nonce ha (by simp) (.inr ⟨_, coded_message _ _ hv, rfl⟩)
        fun _ => ⟨version, signature, rfl⟩
    · rw [ht.core_eq, hc, hh]
  · have hh := ht.handshake.trans hd
    refine ⟨⟨[], by rw [ht.sent, hs], ?_⟩, ?_, trans_of SeenOnly hst ht.store⟩
    · rw [hh]
      exact .hello _ [] nonce ha (by simp) (.inl rfl)
        fun hf => (hno ⟨hf.publicKey, hf.signature _ _ hg⟩).elim
    · rw [ht.core_eq, hc, hh]

theorem locked_request829 {payload : Bytes} (hr : reaches frame)
    (hp : parseFrame frame = ⟨clientId, version, 829, payload⟩)
    (hv : w.session.handshake.verified = false) :
    wp (request829 ctx payload version clientId) (fun _ w' => LockedStep ctx.env frame w w')
      (fun _ w' => LockedStep ctx.env frame w w') w := by
  simp only [request829, wp_bind, wp_look, wp_ite, hv, Bool.false_eq_true, if_false]
  split_ifs with h₁ h₂ h₃ h₄ h₅
  · exact locked_answer1607 _
  · exact locked_answer1607 _
  · exact locked_answer1607 _
  · exact locked_answer1607 _
  · exact locked_answer1607 _
  have ha : AcceptsHello w frame := by
    refine ⟨hr, by rw [hp], by rw [hp]; simpa using h₂, by rw [hp]; simpa using h₃,
      by rw [hp]; simpa using h₅, ?_⟩
    simp only [Option.isSome_iff_ne_none, not_or, not_not] at h₁
    obtain ⟨hc, hs, hsv⟩ := h₁
    rcases hh : w.session.handshake with ⟨v, c, s, sv⟩
    simp only [hh] at hv hc hs hsv
    subst hv hc hs hsv
    rfl
  have hn : (payload.drop 1).take 32 = helloNonce frame := by rw [helloNonce, hp]
  have hver : payload.headD 0 = 1 := by simpa using h₃
  have hlen : version.length = 1 := by simpa [hp] using length_version hr
  simp only [onSession, wp_update, ha.unstarted, hver, hn, sign]
  rcases hg : ctx.env.signTranscript _ with _ | signature
  · -- the signing call raises between the two assignments
    rw [wp_ofExcept_error]
    exact ⟨⟨[], by simp [World.setSession], .started [] ha (by simp)⟩, core_setHandshake w _,
      refl_of SeenOnly _⟩
  · rw [wp_ofExcept_ok, wp_state]
    exact locked_serverHello ha hlen (ctx.out.randomBytes w.store.calls 32).property hg rfl rfl
      (refl_of SeenOnly _)

theorem locked_request830 {payload : Bytes} (hr : reaches frame)
    (hp : parseFrame frame = ⟨clientId, version, 830, payload⟩)
    (hv : w.session.handshake.verified = false) :
    wp (request830 ctx payload version clientId) (fun _ w' => LockedStep env frame w w')
      (fun _ w' => LockedStep env frame w w') w := by
  simp only [request830, wp_bind, wp_look, wp_ite, hv, Bool.false_eq_true, if_false]
  split_ifs with h₁ h₂
  · exact locked_answer1607 _
  · exact locked_answer1607 _
  · simp only [not_or, Option.isNone_iff_eq_none, ← Option.isSome_iff_ne_none] at h₂
    have ha : AcceptsAck w frame :=
      ⟨hr, by rw [hp], by rw [hp]; simpa using h₁, hv, h₂.1, h₂.2.1, h₂.2.2⟩
    simp only [onSession, wp_update]
    exact ⟨⟨[], by simp [World.setSession], .ack [] ha (by simp)⟩, core_setHandshake w _,
      refl_of SeenOnly _⟩

/-- Before the handshake is complete the table of handlers is not looked at. -/
theorem dispatchAs_false (h : AppHandlers) (r : Request) :
    dispatchAs h ctx r false =
      if r.code = 829 then request829 ctx r.payload r.version r.clientId
      else if r.code = 830 then request830 ctx r.payload r.version r.clientId
      else answer1607 ctx r.clientId r.version "stage7 handshake required" := by
  unfold dispatchAs
  by_cases h₉ : r.code = 829
  · simp [h₉]
  · by_cases h₀ : r.code = 830
    · simp [h₀]
    · simp [h₉, h₀]

theorem wp_dispatch {h : AppHandlers} {r : Request} {Q : Unit → World → Prop}
    {E : PyError → World → Prop} :
    wp (dispatch h ctx r) Q E w ↔ wp (dispatchAs h ctx r w.session.handshake.verified) Q E w := by
  rw [dispatch, wp_bind, wp_look]

/-- A reset of the initial transfer changes nothing. -/
theorem resetTransferState_initial (ht : w.session.transfer = {}) :
    resetTransferState ctx w = (.ok (), w) := by
  rcases w with ⟨⟨_, _, _, transfer, _, _, _, _, _, _, _⟩, store, files, limiter⟩
  cases ht
  rfl

theorem wp_reset_initial {Q : Unit → World → Prop} {E : PyError → World → Prop}
    (ht : w.session.transfer = {}) : wp (resetTransferState ctx) Q E w ↔ Q () w :=
  wp_of_eq_ok (resetTransferState_initial ht)

/-- A protocol error reported by the router itself. -/
theorem locked_report (reason text : String) (r : Request) (ht : w.session.transfer = {}) :
    wp (do
        onFrameBad reason
        answer1607 ctx r.clientId r.version text
        resetTransferState ctx)
      (fun _ w' => LockedStep env frame w w') (fun _ w' => LockedStep env frame w w') w := by
  simp only [wp_bind]
  refine wp_mono ((tells_onFrameBad reason).wp w) (fun _ u hu => ?_) (fun _ u hu => .stay hu.silent)
  refine wp_mono ((quiet_answer1607 text).wp u) (fun _ v hv => ?_)
    (fun _ v hv => .after hu (.stay hv))
  have hi : v.session.transfer = {} :=
    (congrArg Core.transfer hv.core_eq).trans (hu.transfer.trans ht)
  rw [wp_reset_initial hi]
  exact .after hu (.stay hv)

theorem locked_routeFrame (h : AppHandlers) (hlen : 17 ≤ frame.length)
    (hv : w.session.handshake.verified = false) (ht : w.session.transfer = {}) :
    wp (routeFrame h ctx frame) (fun _ w' => LockedStep ctx.env frame w w')
      (fun _ w' => LockedStep ctx.env frame w w') w := by
  unfold routeFrame
  split_ifs with h₁ h₂
  · exact locked_report _ _ _ ht
  · exact locked_report _ _ _ ht
  have hr : reaches frame := ⟨hlen, by simpa using h₂⟩
  rw [wp_dispatch, hv, dispatchAs_false]
  split_ifs with h₃ h₄
  · exact locked_request829 hr (by rw [← h₃]) hv
  · exact locked_request830 hr (by rw [← h₄]) hv
  · exact locked_answer1607 _

theorem locked_recover (r : Request) (e : PyError) (hs : LockedStep env frame t w)
    (ht : w.session.transfer = {}) :
    wp (recover ctx r e) (fun _ w' => LockedStep env frame t w')
      (fun _ w' => LockedStep env frame t w') w := by
  simp only [recover, wp_bind, wp_look, wp_ite, wp_raise, wp_attempt, wp_pure]
  refine wp_mono ((tells_onFrameBad _).wp w) (fun _ u hu => ?_) (fun _ u hu => hs.errors hu.silent)
  split_ifs
  · exact hs.errors hu.silent
  -- whether or not the report goes out, what follows is the same
  have hend (v : World) (hq : Quiet (Coded .error) u v) :
      if v.session.transfer.uploadActive then
        wp (resetTransferState ctx) (fun _ w' => LockedStep env frame t w')
          (fun _ w' => LockedStep env frame t w') v
      else LockedStep env frame t v := by
    have hi : v.session.transfer = {} :=
      (congrArg Core.transfer hq.core_eq).trans (hu.transfer.trans ht)
    rw [if_neg (by simp [hi])]
    exact hs.errors (trans_of (Quiet (Coded .error)) hu.silent hq)
  exact wp_mono ((quiet_answer1607 _).wp u) (fun _ v hq => hend v hq) (fun _ v hq => hend v hq)

theorem tells_noteIdentity (r : Request) (w : World) : Tells [] w (noteIdentity r w) :=
  tells_setSession rfl rfl rfl rfl rfl

/-- One frame before the handshake is complete, whatever the application
handlers are. -/
theorem locked_handleFrameWith (h : AppHandlers) (ctx : Ctx) (frame : Bytes)
    (hv : w.session.handshake.verified = false) (ht : w.session.transfer = {}) :
    LockedStep ctx.env frame w (handleFrameWith h ctx frame w).2 := by
  rcases Nat.lt_or_ge frame.length 17 with hlen | hlen
  · rw [handleFrameWith_short hlen]
    exact .stay (tells_onFrameBad _ w).silent
  have hb := tells_noteIdentity (parseFrame frame) w
  rw [handleFrameWith_long hlen]
  refine .after hb (wp_state.mp (wp_attempt.mpr ?_))
  refine wp_mono (locked_routeFrame h hlen hv ht) (fun _ u hu => hu) (fun e u hu => ?_)
  exact locked_recover _ e hu ((congrArg Core.transfer hu.core_eq).trans ht)

/-- The application handlers do not matter before the handshake is complete. -/
theorem handleFrameWith_locked (h h' : AppHandlers) (frame : Bytes)
    (hv : w.session.handshake.verified = false) :
    handleFrameWith h ctx frame w = handleFrameWith h' ctx frame w := by
  rcases Nat.lt_or_ge frame.length 17 with hlen | hlen
  · rw [handleFrameWith_short hlen, handleFrameWith_short hlen]
  have hd : ∀ u : World, u.session.handshake.verified = false →
      routeFrame h ctx frame u = routeFrame h' ctx frame u := by
    intro u hu
    unfold routeFrame
    split_ifs
    · rfl
    · rfl
    · change dispatchAs h ctx _ u.session.handshake.verified u =
        dispatchAs h' ctx _ u.session.handshake.verified u
      rw [hu, dispatchAs_false, dispatchAs_false]
  rw [handleFrameWith_long hlen, handleFrameWith_long hlen, attempt, attempt,
    hd (noteIdentity _ w) hv]

end

/-! ### One frame after the handshake -/

/-- The handshake stays and every message is one that it permits. -/
structure OpenStep (env : Env) (w w' : World) : Prop where
  handshake : w'.session.handshake = w.session.handshake
  sent : ∃ ms, w'.session.sent = w.session.sent ++ ms ∧
    ∀ m ∈ ms, Permitted env w.session.handshake m

instance (env : Env) : Std.Refl (OpenStep env) := ⟨fun _ => ⟨rfl, [], by simp, by simp⟩⟩

instance (env : Env) : IsTrans World (OpenStep env) where
  trans a b c h h' := by
    obtain ⟨ms, hm, hp⟩ := h.sent
    obtain ⟨ns, hn, hq⟩ := h'.sent
    refine ⟨h'.handshake.trans h.handshake, ms ++ ns, by rw [hn, hm, List.append_assoc],
      fun m hmem => (List.mem_append.mp hmem).elim (hp m) fun hm => h.handshake ▸ hq m hm⟩

section
variable {env : Env} {ctx : Ctx} {w w' : World}

theorem open_of_account {α : Type} {x : Server α} (hx : Keeps (AccountOnly env) x) :
    Keeps (OpenStep env) x := hx.mono fun _ _ h => ⟨h.handshake, h.sent⟩

theorem permitted_of_uploadCoded {h : Handshake} {m : Bytes} (hm : UploadCoded m) :
    Permitted env h m := by
  rcases hm with hm | hm | hm <;> exact permitted_of_coded hm (by decide) (by decide) (by decide)

theorem open_of_upload {α : Type} {x : Server α} (hx : Keeps UploadOnly x) :
    Keeps (OpenStep env) x := hx.mono fun _ _ h => by
  obtain ⟨ms, hs, hm⟩ := h.sent
  exact ⟨h.handshake, ms, hs, fun m hmem => permitted_of_uploadCoded (hm m hmem)⟩

theorem open_answer1607 {clientId version : Bytes} (text : String) :
    Keeps (OpenStep env) (answer1607 ctx clientId version text) :=
  open_of_account (account_answer1607 text)

theorem open_onFrameBad (reason : String) : Keeps (OpenStep env) (onFrameBad reason) :=
  open_of_account (account_of_tells (tells_onFrameBad reason))

theorem open_dispatchAs (r : Request) :
    Keeps (OpenStep ctx.env) (dispatchAs handlers ctx r true) := by
  unfold dispatchAs
  by_cases hh : r.code = 829 ∨ r.code = 830
  · simp only [hh, Bool.not_true, Bool.false_eq_true, false_and, if_false, and_self, if_true]
    exact open_answer1607 _
  simp only [hh, Bool.not_true, Bool.false_eq_true, false_and, if_false, and_false]
  push Not at hh
  rw [if_neg hh.1, if_neg hh.2]
  refine keeps_ite (open_of_account (account_request825 _)) ?_
  refine keeps_ite (open_of_account (account_request827 _)) ?_
  refine keeps_ite (open_of_account (account_request826 _)) ?_
  refine keeps_ite (open_of_upload (upload_request828 _)) ?_
  refine keeps_ite (open_of_upload (upload_request900 _)) ?_
  refine keeps_ite (open_of_upload (upload_request901 _)) ?_
  refine keeps_ite (open_of_upload (upload_request902 _)) ?_
  exact keeps_bind (open_onFrameBad _) fun _ => keeps_bind (open_answer1607 _) fun _ =>
    keeps_look_bind fun _ => keeps_ite (open_of_upload upload_resetTransferState) (keeps_pure _)

theorem open_recover (r : Request) (e : PyError) : Keeps (OpenStep env) (recover ctx r e) :=
  keeps_bind (open_onFrameBad _) fun _ => keeps_look_bind fun _ => keeps_ite (keeps_raise _)
    (keeps_bind (keeps_attempt (open_answer1607 _) fun _ => keeps_pure _) fun _ =>
      keeps_look_bind fun _ => keeps_ite (open_of_upload upload_resetTransferState) (keeps_pure _))

theorem open_routeFrame (frame : Bytes) (hv : w.session.handshake.verified = true) :
    OpenStep ctx.env w (routeFrame handlers ctx frame w).2 := by
  have hreport (reason text : String) (r : Request) : Keeps (OpenStep ctx.env) (do
      onFrameBad reason
      answer1607 ctx r.clientId r.version text
      resetTransferState ctx) :=
    keeps_bind (open_onFrameBad _) fun _ => keeps_bind (open_answer1607 _) fun _ =>
      open_of_upload upload_resetTransferState
  unfold routeFrame
  split_ifs
  · exact hreport _ _ _ w
  · exact hreport _ _ _ w
  · have h : OpenStep ctx.env w _ := open_dispatchAs (parseFrame frame) w
    rwa [← hv] at h

/-- One frame after the handshake. -/
theorem open_handleFrame (ctx : Ctx) (frame : Bytes) (hv : w.session.handshake.verified = true) :
    OpenStep ctx.env w (handleFrame ctx frame w).2 := by
  unfold handleFrame
  rcases Nat.lt_or_ge frame.length 17 with hlen | hlen
  · rw [handleFrameWith_short hlen]
    exact open_onFrameBad _ w
  have hb : AccountOnly ctx.env w (noteIdentity (parseFrame frame) w) :=
    accountOnly_of_quiet (tells_noteIdentity (parseFrame frame) w).silent fun _ h => h
  rw [handleFrameWith_long hlen]
  refine trans_of (OpenStep ctx.env) ⟨hb.handshake, hb.sent⟩ (wp_state.mp (wp_attempt.mpr ?_))
  refine wp_mono (wp_state.mpr (open_routeFrame frame hv)) (fun _ u hu => hu) (fun e u hu => ?_)
  exact wp_state.mpr (trans_of (OpenStep ctx.env) hu (open_recover _ e u))

end

/-! ### Whole runs -/

instance (c : ResCode) : DecidablePred (Coded c) := fun _ => inferInstanceAs (Decidable (_ = _))

/-- The server hellos handed to the writer so far. -/
def hellosSent (w : World) : ℕ := w.session.sent.countP fun m => Coded .serverHello m

/-- The messages handed over while `e` was handled after `pre`. -/
def sentDuring (env : Env) (w₀ : World) (pre : List Event) (e : Event) : List Bytes :=
  (runFrames env (pre ++ [e]) w₀).session.sent.drop (runFrames env pre w₀).session.sent.length

/-- How far the handshake has come, and through which hello. -/
inductive Phase (env : Env) (w₀ : World) (es : List Event) (w : World) : Prop
  | idle (hw : w.session.handshake = {}) (hc : hellosSent w = 0)
  | helloed (pre mid : List Event) (e : Event) (hes : es = pre ++ e :: mid)
      (ha : AcceptsHello (runFrames env pre w₀) e.2) (hw : w.session.handshake = started e.2)
      (hc : hellosSent w = 0)
  | answered (pre mid : List Event) (e : Event) (hes : es = pre ++ e :: mid)
      (ha : AcceptsHello (runFrames env pre w₀) e.2) (serverNonce : Bytes) (verified : Bool)
      (hw : w.session.handshake = { answered e.2 serverNonce with verified := verified })
      (hc : hellosSent w ≤ 1)
      (hfits : IdentityFits env → ∃ version signature,
        serverHello env version serverNonce signature ∈ sentDuring env w₀ pre e)

/-- A hello and, later, an acknowledgement have been accepted. -/
def Completed (env : Env) (w₀ : World) (es : List Event) : Prop :=
  ∃ pre hello mid ack post, es = pre ++ hello :: (mid ++ ack :: post) ∧
    AcceptsHello (runFrames env pre w₀) hello.2 ∧
    AcceptsAck (runFrames env (pre ++ hello :: mid) w₀) ack.2

/-- What holds while the gate is closed. -/
structure Closed (env : Env) (w₀ : World) (es : List Event) (w : World) : Prop where
  sent : ∀ m ∈ w.session.sent, Coded .error m ∨ Coded .serverHello m
  untouched : ∀ h, runWith h env es w₀ = w
  transfer : w.session.transfer = {}
  store : SeenOnly w₀.store w.store

structure Gated (env : Env) (w₀ : World) (es : List Event) (w : World) : Prop where
  phase : Phase env w₀ es w
  closed : w.session.handshake.verified = false → Closed env w₀ es w
  completed : w.session.handshake.verified = true → Completed env w₀ es
  bound : ∀ m ∈ w.session.sent, Coded .aesKey m ∨ Coded .reloginOk m →
    BoundTo env w.session.handshake m

section
variable {env : Env} {w₀ w w' : World} {es : List Event} {e : Event}

theorem countP_hello_append {a b : List Bytes} (hb : ∀ m ∈ b, ∃ c, c ≠ .serverHello ∧ Coded c m) :
    (a ++ b).countP (fun m => Coded .serverHello m) =
      a.countP (fun m => Coded .serverHello m) := by
  have hz : b.countP (fun m => Coded .serverHello m) = 0 := by
    refine List.countP_eq_zero.mpr fun m hm h => ?_
    obtain ⟨c, hc, hd⟩ := hb m hm
    exact hc (coded_unique hd (by simpa using h))
  rw [List.countP_append, hz, Nat.add_zero]

theorem coded_error_other {m : Bytes} (h : Coded .error m) : ∃ c, c ≠ .serverHello ∧ Coded c m :=
  ⟨.error, by decide, h⟩

/-- A phase goes on while the handshake and the count of hellos stay. -/
theorem Phase.extend (h : Phase env w₀ es w) (e : Event)
    (hh : w'.session.handshake = w.session.handshake) (hc : hellosSent w' = hellosSent w) :
    Phase env w₀ (es ++ [e]) w' := by
  cases h with
  | idle hw h0 => exact .idle (hh.trans hw) (hc.trans h0)
  | helloed pre mid e₁ hes ha hw h0 =>
      exact .helloed pre (mid ++ [e]) e₁ (by simp [hes]) ha (hh.trans hw) (hc.trans h0)
  | answered pre mid e₁ hes ha sn b hw h1 hf =>
      exact .answered pre (mid ++ [e]) e₁ (by simp [hes]) ha sn b (hh.trans hw) (hc ▸ h1) hf

theorem Completed.extend (h : Completed env w₀ es) (e : Event) : Completed env w₀ (es ++ [e]) := by
  obtain ⟨pre, hello, mid, ack, post, hes, ha, hb⟩ := h
  exact ⟨pre, hello, mid, ack, post ++ [e], by simp [hes], ha, hb⟩

theorem gated_init (hs : w₀.session.sent = []) (hh : w₀.session.handshake = {})
    (ht : w₀.session.transfer = {}) : Gated env w₀ [] w₀ where
  phase := .idle hh (by simp [hellosSent, hs])
  closed _ := ⟨by simp [hs], fun _ => rfl, ht, refl_of SeenOnly _⟩
  completed h := by simp [hh] at h
  bound := by simp [hs]

/-- A frame after the handshake keeps the invariant. -/
theorem Gated.open_step (h : Gated env w₀ es w) (e : Event)
    (hv : w.session.handshake.verified = true) (hs : OpenStep env w w') :
    Gated env w₀ (es ++ [e]) w' := by
  obtain ⟨ms, hm, hp⟩ := hs.sent
  refine ⟨h.phase.extend e hs.handshake ?_, fun hf => ?_, fun _ => (h.completed hv).extend e, ?_⟩
  · rw [hellosSent, hm]
    exact countP_hello_append fun m hmem => (hp m hmem).coded
  · rw [hs.handshake, hv] at hf
    exact Bool.noConfusion hf
  · intro m hmem hk
    rw [hs.handshake]
    rw [hm] at hmem
    exact (List.mem_append.mp hmem).elim (fun hmem => h.bound m hmem hk)
      (fun hmem => (hp m hmem).bound hk)

/-- Errors add no hello. -/
theorem hellosSent_errors {ms : List Bytes} (hs : w'.session.sent = w.session.sent ++ ms)
    (hm : ∀ m ∈ ms, Coded .error m) : hellosSent w' = hellosSent w := by
  rw [hellosSent, hs]
  exact countP_hello_append fun m h => coded_error_other (hm m h)

/-- While the gate is closed a hello can be accepted only in the first phase. -/
theorem Phase.hellosSent_zero (h : Phase env w₀ es w) (hw : w.session.handshake = {}) :
    hellosSent w = 0 := by
  cases h with
  | idle _ hc => exact hc
  | helloed _ _ _ _ _ _ hc => exact hc
  | answered pre mid e hes ha sn b hw' hc hf =>
      rw [hw'] at hw
      exact absurd (congrArg Handshake.serverNonce hw) (by simp [HandshakeGate.answered])

/-- The phase after a frame before the handshake is complete. -/
theorem Phase.locked_step (h : Phase env w₀ es w) (hw : w = runFrames env es w₀)
    (hw' : w' = runFrames env (es ++ [e]) w₀) {ms : List Bytes}
    (hs : w'.session.sent = w.session.sent ++ ms)
    (hm : LockedMove env w e.2 w'.session.handshake ms) : Phase env w₀ (es ++ [e]) w' := by
  generalize hk : w'.session.handshake = k at hm
  cases hm with
  | stay _ hm => exact h.extend e hk (hellosSent_errors hs hm)
  | started _ ha hm =>
      refine .helloed es [] e rfl (hw ▸ ha) hk ?_
      rw [hellosSent_errors hs hm]
      exact h.hellosSent_zero ha.unstarted
  | hello _ rest sn ha hm h8 hf =>
      have h0 := h.hellosSent_zero ha.unstarted
      refine .answered es [] e rfl (hw ▸ ha) sn false hk ?_ fun hfits => ?_
      · rcases h8 with rfl | ⟨m, -, rfl⟩
        · rw [hellosSent_errors hs hm]
          omega
        · rw [hellosSent, hs, List.append_cons, countP_hello_append fun m h =>
            coded_error_other (hm m h), List.countP_append, List.countP_singleton]
          unfold hellosSent at h0
          split <;> omega
      · obtain ⟨v, sig, rfl⟩ := hf hfits
        refine ⟨v, sig, ?_⟩
        rw [sentDuring, ← hw', ← hw, hs, List.drop_left]
        exact List.mem_cons_self
  | ack _ ha hm =>
      have hc := hellosSent_errors hs hm
      cases h with
      | idle hi _ => exact absurd ha.client (by simp [hi])
      | helloed pre mid e₁ hes hae hi _ => exact absurd ha.server (by simp [hi, started])
      | answered pre mid e₁ hes hae sn b hi h1 hf =>
          refine .answered pre (mid ++ [e]) e₁ (by simp [hes]) hae sn true ?_ (hc ▸ h1) hf
          rw [hk, hi]

/-- A frame before the handshake is complete keeps the invariant. -/
theorem Gated.locked_step (h : Gated env w₀ es w) (hw : w = runFrames env es w₀)
    (hw' : w' = runFrames env (es ++ [e]) w₀) (hv : w.session.handshake.verified = false) :
    Gated env w₀ (es ++ [e]) w' := by
  have hc := h.closed hv
  have hstep : w' = handleEvent handlers env w e := by rw [hw', runFrames_snoc, ← hw]
  have hl : LockedStep env e.2 w w' := by
    rw [hstep]
    exact locked_handleFrameWith handlers ⟨env, e.1⟩ e.2 hv hc.transfer
  obtain ⟨ms, hs, hm⟩ := hl.move
  have hcodes : ∀ m ∈ ms, Coded .error m ∨ Coded .serverHello m := by
    generalize w'.session.handshake = k at hm
    cases hm with
    | stay _ hm => exact fun m h => .inl (hm m h)
    | started _ _ hm => exact fun m h => .inl (hm m h)
    | ack _ _ hm => exact fun m h => .inl (hm m h)
    | hello _ rest sn ha hm h8 hf =>
        rcases h8 with rfl | ⟨m8, h8, rfl⟩
        · exact fun m h => .inl (hm m h)
        · exact fun m h => (List.mem_cons.mp h).elim (fun h => .inr (h ▸ h8)) fun h => .inl (hm m h)
  have hsent : ∀ m ∈ w'.session.sent, Coded .error m ∨ Coded .serverHello m := by
    rw [hs]
    exact fun m h => (List.mem_append.mp h).elim (hc.sent m) (hcodes m)
  refine ⟨h.phase.locked_step hw hw' hs hm, fun _ => ⟨hsent, fun hd => ?_, ?_, ?_⟩,
    fun ht => ?_, ?_⟩
  · -- any other handlers would have done the same
    rw [hstep, runWith, List.foldl_append]
    change handleEvent hd env (runWith hd env es w₀) e = _
    rw [hc.untouched hd]
    exact congrArg Prod.snd (handleFrameWith_locked hd handlers e.2 hv)
  · exact (congrArg Core.transfer hl.core_eq).trans hc.transfer
  · exact trans_of SeenOnly hc.store hl.store
  · -- only an accepted acknowledgement verifies, and only after an answered hello
    generalize w'.session.handshake = k at hm ht
    cases hm with
    | stay _ _ => exact absurd (hv.symm.trans ht) (by decide)
    | started _ _ _ => exact absurd ht (by simp [started])
    | hello _ _ _ _ _ _ _ => exact absurd ht (by simp [answered, started])
    | ack _ ha _ =>
        cases h.phase with
        | idle hi _ => exact absurd ha.client (by simp [hi])
        | helloed pre mid e₁ hes hae hi _ => exact absurd ha.server (by simp [hi, started])
        | answered pre mid e₁ hes hae sn b hi h1 hf =>
            exact ⟨pre, e₁, mid, e, [], by simp [hes], hae, by rw [← hes, ← hw]; exact ha⟩
  · intro m hm hk
    rcases hsent m hm with he | he <;> rcases hk with hk | hk <;>
      exact absurd (coded_unique he hk) (by decide)

theorem gated_run (hs : w₀.session.sent = []) (hh : w₀.session.handshake = {})
    (ht : w₀.session.transfer = {}) (es : List Event) :
    Gated env w₀ es (runFrames env es w₀) := by
  induction es using List.reverseRecOn with
  | nil => exact gated_init hs hh ht
  | append_singleton es e ih =>
      rcases hv : (runFrames env es w₀).session.handshake.verified with _ | _
      · exact ih.locked_step rfl rfl hv
      · refine ih.open_step e hv ?_
        rw [runFrames_snoc]
        exact open_handleFrame ⟨env, e.1⟩ e.2 hv

/-- Once verified, the handshake fields never change. -/
theorem handshake_fixed (fs : List Event) (hv : w.session.handshake.verified = true) :
    (runFrames env fs w).session.handshake = w.session.handshake := by
  induction fs using List.reverseRecOn with
  | nil => rfl
  | append_singleton fs e ih =>
      rw [runFrames_snoc, ← ih]
      exact (open_handleFrame ⟨env, e.1⟩ e.2 (ih ▸ hv)).handshake

end

/-- A key response signed over these two nonces. -/
def SignedOver (env : Env) (clientNonce serverNonce m : Bytes) : Prop :=
  ∃ (version clientId key signature : Bytes) (code : ResCode),
    env.signTranscript (aesKeyBindingTranscript 1 clientNonce serverNonce clientId code.value key) =
      some signature ∧
    m = message version code (clientId ++ leBytes 2 key.length ++ key ++
      leBytes 2 signature.length ++ signature)

/-- The gate over one run of a session. -/
structure GateHolds (env : Env) (w₀ : World) (es : List Event) : Prop where
  closed : ¬ Completed env w₀ es → Closed env w₀ es (runFrames env es w₀)
  one_hello : hellosSent (runFrames env es w₀) ≤ 1
  fixed : ∀ pre post, es = pre ++ post →
    (runFrames env pre w₀).session.handshake.verified = true →
    (runFrames env es w₀).session.handshake = (runFrames env pre w₀).session.handshake
  bound : IdentityFits env → ∀ m ∈ (runFrames env es w₀).session.sent,
    Coded .aesKey m ∨ Coded .reloginOk m →
      ∃ pre e mid version serverNonce signature, es = pre ++ e :: mid ∧
        AcceptsHello (runFrames env pre w₀) e.2 ∧
        serverHello env version serverNonce signature ∈ sentDuring env w₀ pre e ∧
        SignedOver env (helloNonce e.2) serverNonce m

/-- A connection that has just been accepted. -/
def freshWorld (connectionId : String) (now : ℚ) (store : Store) (files : FileSystem)
    (limiter : UploadLimiter) : World :=
  { session := Session.fresh connectionId now, store, files, limiter }

/-- Every sequence of frames on a fresh session meets the gate. -/
theorem handshake_gate (env : Env) (connectionId : String) (now : ℚ) (store : Store)
    (files : FileSystem) (limiter : UploadLimiter) (es : List Event) :
    GateHolds env (freshWorld connectionId now store files limiter) es := by
  have hg : Gated env (freshWorld connectionId now store files limiter) es _ :=
    gated_run rfl rfl rfl es
  refine ⟨fun hn => hg.closed ?_, ?_, ?_, fun hfits m hm hk => ?_⟩
  · by_contra hv
    exact hn (hg.completed (by simpa using hv))
  · cases hg.phase with
    | idle _ hc => omega
    | helloed _ _ _ _ _ _ hc => omega
    | answered _ _ _ _ _ _ _ _ hc _ => exact hc
  · rintro pre post rfl hv
    rw [runFrames_append]
    exact handshake_fixed post hv
  · obtain ⟨v, id, key, sig, code, sv, cn, sn, hsv, hcn, hsn, hver, hsig, rfl⟩ := hg.bound m hm hk
    cases hg.phase with
    | idle hi _ => exact absurd hver (by simp [hi])
    | helloed _ _ _ _ _ hi _ => exact absurd hver (by simp [hi, started])
    | answered pre mid e hes ha nonce b hi _ hf =>
        rw [hi] at hsv hcn hsn
        simp only [answered, started, Option.some.injEq] at hsv hcn hsn
        subst hsv hcn hsn
        obtain ⟨v8, sig8, h8⟩ := hf hfits
        exact ⟨pre, e, mid, v8, nonce, sig8, hes, ha, h8, v, id, key, sig, code, hsig, rfl⟩

end Seftp.HandshakeGate
