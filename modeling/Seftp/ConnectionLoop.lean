import Seftp.UploadStages

/-!
# The connection loop

`handle_client`: frames, read timeouts and the end of the connection, for one
session. A read timeout ends an upload that has made no progress for too long and
otherwise only an idle connection; the cleanup resets an active upload and gives
the slot back. A frame never ends the connection, not even one whose response
could not be sent.
-/
namespace Seftp.ConnectionLoop
open LittleEndian ExceptState OutsideWorld ClientStore StoreFrames ServerSession Answers
open SessionFrames HandlerFrames UploadSteps FrameSteps Router HandshakeGate UploadStages

/-- `last_upload_progress_ts or connected_at`: a time of zero counts as none. -/
def lastProgress (s : Session) : ℚ :=
  match s.transfer.lastUploadProgressTs with
  | none => s.connectedAt
  | some ts => if ts = 0 then s.connectedAt else ts

/-- The report of an upload timeout, to the client seen last. -/
def reportTimeout (ctx : Ctx) (s : Session) : Server Unit :=
  match s.lastClientId, s.lastVersion with
  | some clientId, some version =>
      attempt (answer1607 ctx clientId version "upload inactivity timeout") fun _ => pure ()
  | _, _ => pure ()

/-- The `asyncio.TimeoutError` branch; `true` leaves the loop. -/
def readTimeout (ctx : Ctx) : Server Bool := do
  let now ← monotonic ctx
  let s ← look fun w => w.session
  if s.transfer.uploadActive then
    if ctx.env.config.uploadInactivityTimeoutS ≤ now - lastProgress s then do
      onSession fun s => { s with disconnectReason := "upload_timeout" }
      reportTimeout ctx s
      resetTransferState ctx
      pure true
    else pure false
  else if ctx.env.config.idleTimeoutS ≤ now - s.lastActivity then do
    onSession fun s => { s with disconnectReason := "idle_timeout" }
    pure true
  else pure false

/-- The `finally` clause. -/
def disconnectCleanup (ctx : Ctx) : Server Unit := do
  let active ← look fun w => w.session.transfer.uploadActive
  if active then resetTransferState ctx else pure ()
  releaseUploadSlot

/-- What can happen to a connection, each with the outside world it meets. -/
inductive SessionEvent where
  /-- A chunk has been read. -/
  | received (o : Outside)
  | frame (o : Outside) (bytes : Bytes)
  | timeout (o : Outside)
  /-- The end of the stream, an error of the transport, a cancellation or the rate
  limit. -/
  | disconnect (o : Outside)

structure Connection where
  world : World
  isOpen : Bool

/-- The end of the connection. -/
def finish (env : Env) (o : Outside) (w : World) : Connection :=
  { world := (disconnectCleanup ⟨env, o⟩ w).2, isOpen := false }

def serveOpen (env : Env) (w : World) : SessionEvent → Connection
  | .received o => { world := (markActivity ⟨env, o⟩ w).2, isOpen := true }
  | .frame o bytes =>
      match handleFrame ⟨env, o⟩ bytes w with
      | (.ok _, w') => { world := w', isOpen := true }
      | (.error _, w') => finish env o w'
  | .timeout o =>
      match readTimeout ⟨env, o⟩ w with
      | (.ok false, w') => { world := w', isOpen := true }
      | (_, w') => finish env o w'
  | .disconnect o => finish env o w

/-- A closed connection takes no more events. -/
def serve (env : Env) (c : Connection) (e : SessionEvent) : Connection :=
  if c.isOpen then serveOpen env c.world e else c

def serveAll (env : Env) (c : Connection) (es : List SessionEvent) : Connection :=
  es.foldl (serve env) c

theorem serveAll_snoc (env : Env) (c : Connection) (es : List SessionEvent) (e : SessionEvent) :
    serveAll env c (es ++ [e]) = serve env (serveAll env c es) e := List.foldl_concat ..

/-- Every event of a run meets a condition on the state before it. -/
def AlongEvents (env : Env) (P : World → SessionEvent → Prop) :
    Connection → List SessionEvent → Prop
  | _, [] => True
  | c, e :: es => (c.isOpen = true → P c.world e) ∧ AlongEvents env P (serve env c e) es

section
variable {env : Env} {P : World → SessionEvent → Prop} {c : Connection} {ctx : Ctx} {w : World}
  {o : Outside}

theorem alongEvents_mid {pre post : List SessionEvent} {e : SessionEvent}
    (h : AlongEvents env P c (pre ++ e :: post)) :
    (serveAll env c pre).isOpen = true → P (serveAll env c pre).world e := by
  induction pre generalizing c with
  | nil => exact h.1
  | cons a pre ih => exact ih h.2

/-- No frame raises out of `handle_frame`. -/
theorem handleFrame_returns (frame : Bytes) :
    wp (handleFrame ctx frame) (fun _ _ => True) (fun _ _ => False) w := by
  unfold handleFrame
  rcases Nat.lt_or_ge frame.length 17 with hlen | hlen
  · rw [handleFrameWith_short hlen, onFrameBad, onSession, wp_update]
    trivial
  · rw [handleFrameWith, if_neg (by omega), wp_bind, wp_update, wp_attempt]
    have hroute :=
      wp_state (x := routeFrame handlers ctx frame) (s := noteIdentity (parseFrame frame) w)
      (P := fun _ => True) |>.mpr trivial
    refine wp_mono hroute (fun _ _ h => h) (fun e u _ => ?_)
    exact wp_mono (wp_recover _ e) (fun _ _ _ => trivial) (fun _ _ h => h)

theorem serveOpen_frame (o : Outside) (bytes : Bytes) :
    serveOpen env w (.frame o bytes) =
      { world := (handleFrame ⟨env, o⟩ bytes w).2, isOpen := true } := by
  have h : wp (handleFrame ⟨env, o⟩ bytes) (fun _ _ => True) (fun _ _ => False) w :=
    handleFrame_returns bytes
  rcases hf : handleFrame ⟨env, o⟩ bytes w with ⟨e | _, w'⟩
  · rw [wp_of_eq_error hf] at h
    exact h.elim
  · simp only [serveOpen, hf]

/-- A relation that the steps of a timeout keep. -/
theorem keeps_readTimeout {R : World → World → Prop} [Std.Refl R] [IsTrans World R]
    (hset : ∀ f : Session → Session, (∀ s, (f s).transfer = s.transfer ∧
      (f s).connectionId = s.connectionId ∧ (f s).hasUploadSlot = s.hasUploadSlot) →
        Keeps R (onSession f))
    (hanswer : ∀ clientId version text, Keeps R (answer1607 ctx clientId version text))
    (hreset : Keeps R (resetTransferState ctx)) : Keeps R (readTimeout ctx) := by
  have hclock : Keeps R (monotonic ctx) :=
    keeps_look_bind fun n => keeps_bind (hset _ fun _ => ⟨rfl, rfl, rfl⟩) fun _ => keeps_pure _
  have hreport (s : Session) : Keeps R (reportTimeout ctx s) := by
    unfold reportTimeout
    split
    · exact keeps_attempt (hanswer _ _ _) fun _ => keeps_pure _
    · exact keeps_pure _
  refine keeps_bind hclock fun now => keeps_look_bind fun s => keeps_ite ?_ ?_
  · refine keeps_ite ?_ (keeps_pure _)
    exact keeps_bind (hset _ fun _ => ⟨rfl, rfl, rfl⟩) fun _ => keeps_bind (hreport s) fun _ =>
      keeps_bind hreset fun _ => keeps_pure _
  · refine keeps_ite ?_ (keeps_pure _)
    exact keeps_bind (hset _ fun _ => ⟨rfl, rfl, rfl⟩) fun _ => keeps_pure _

theorem keeps_disconnectCleanup {R : World → World → Prop} [Std.Refl R] [IsTrans World R]
    (hreset : Keeps R (resetTransferState ctx)) (hrelease : Keeps R releaseUploadSlot) :
    Keeps R (disconnectCleanup ctx) :=
  keeps_look_bind fun _ => keeps_ite (keeps_bind hreset fun _ => hrelease) hrelease

/-- A timeout is its branch, with or without the cleanup. -/
theorem keeps_timeout {R : World → World → Prop} [IsTrans World R]
    (hread : Keeps R (readTimeout ⟨env, o⟩)) (hclean : Keeps R (disconnectCleanup ⟨env, o⟩)) :
    R w (serveOpen env w (.timeout o)).world := by
  have h := hread w
  rcases hr : readTimeout ⟨env, o⟩ w with ⟨e | leave, w'⟩
  · rw [hr] at h
    simp only [serveOpen, hr]
    exact trans_of R h (hclean w')
  · rw [hr] at h
    cases leave with
    | false =>
        simp only [serveOpen, hr]
        exact h
    | true =>
        simp only [serveOpen, hr]
        exact trans_of R h (hclean w')

end

/-! ### A response that cannot be sent -/

/-- The peer is gone: the exceptions `send` notes as `send_error`. -/
def PyError.IsDisconnect (e : PyError) : Prop := e = .connectionReset ∨ e = .brokenPipe

/-- Message `n` of the session is handed to the writer while the frame is handled,
and its `drain` raises. -/
structure SendFails (ctx : Ctx) (frame : Bytes) (w : World) (n : ℕ) (e : PyError) : Prop where
  before : w.session.sent.length ≤ n
  after : n < (handleFrame ctx frame w).2.session.sent.length
  raises : ctx.out.sendRaises n = some e
  disconnect : PyError.IsDisconnect e

/-- Whatever the state and the frame, a send that finds the peer gone does not
come out of `handle_frame`: it returns, the connection stays open and the next
frame is handled. -/
theorem dead_connection_goes_on (env : Env) (o : Outside) (frame : Bytes) (w : World) (n : ℕ)
    (e : PyError) (_h : SendFails ⟨env, o⟩ frame w n e) :
    (handleFrame ⟨env, o⟩ frame w).1 = .ok () ∧
      (handleFrame ⟨env, o⟩ frame w).1 ≠ .error e ∧
      (serveOpen env w (.frame o frame)).isOpen = true := by
  have hret : wp (handleFrame ⟨env, o⟩ frame) (fun _ _ => True) (fun _ _ => False) w :=
    handleFrame_returns frame
  have hok : (handleFrame ⟨env, o⟩ frame w).1 = .ok () := by
    rcases hf : handleFrame ⟨env, o⟩ frame w with ⟨e | ⟨⟩, w'⟩
    · rw [wp_of_eq_error hf] at hret
      exact hret.elim
    · rfl
  refine ⟨hok, ?_, ?_⟩
  · rw [hok]
    simp
  · rw [serveOpen_frame]

/-- A connection to an empty server. -/
def lonelyWorld : World :=
  freshWorld "c1" 0 (Store.initialized Database.empty)
    { entry := fun _ => none, content := fun _ => [], nextInode := 0, calls := 0 }
    { maxConcurrentUploads := 1, positive := by decide, activeUploads := 0, bounded := by decide }

/-- Libraries that always fail. -/
def bareEnv : Env where
  config := {}
  rsaImport _ := none
  oaepEncrypt _ _ := none
  signTranscript _ := none
  serverPublicKeyDer := []
  aesDecrypt _ block := block
  isAlnum c := c.isAlphanum
  repr s := s

/-- Every send finds that the peer has reset the connection. -/
def peerGone : Outside := { calm with sendRaises := fun _ => some .connectionReset }

/-- An 825 before the handshake, answered 1607. -/
def earlyFrame : Bytes := List.replicate 16 0 ++ [3] ++ leBytes 2 825 ++ leBytes 4 0

theorem earlyFrame_fails :
    SendFails ⟨bareEnv, peerGone⟩ earlyFrame lonelyWorld 0 .connectionReset :=
  ⟨by decide, by decide +kernel, rfl, .inl rfl⟩

theorem dead_connection_goes_on_early :
    SendFails ⟨bareEnv, peerGone⟩ earlyFrame lonelyWorld 0 .connectionReset ∧
      (handleFrame ⟨bareEnv, peerGone⟩ earlyFrame lonelyWorld).1 = .ok () :=
  ⟨earlyFrame_fails, (dead_connection_goes_on _ _ _ _ _ _ earlyFrame_fails).1⟩

/-- The error is hidden: the reason that `send` left is overwritten before it is
looked at. -/
theorem send_error_is_hidden :
    SendFails ⟨bareEnv, peerGone⟩ earlyFrame lonelyWorld 0 .connectionReset ∧
      (handleFrame ⟨bareEnv, peerGone⟩ earlyFrame lonelyWorld).1 ≠ .error .connectionReset ∧
      (serveOpen bareEnv lonelyWorld (.frame peerGone earlyFrame)).isOpen = true :=
  ⟨earlyFrame_fails, by decide +kernel, by decide +kernel⟩

end Seftp.ConnectionLoop
