import Seftp.ConnectionLoop
import Seftp.EventRuns
import Seftp.Framing
import Seftp.SessionClock
import Seftp.UploadSlot
import Mathlib.Tactic.Linarith

/-!
# The read loop against the clock

The loop of `handle_client` with its clock, its framer and its rate limit. An iteration
looks at the clock and at the deadline of the handshake, waits for bytes for at most
`read_timeout_s`, and then hands the frames of the bytes to `handle_frame` one after the
other, each with a look at the clock.

Both deadlines are tested in one place only. The handshake's is tested before the wait,
so a frame that arrives after it is handled all the same; the test for a stalled upload
stands in the branch of the timeout, so a peer that keeps sending never meets it.
-/
namespace Seftp.ReadLoop
open LittleEndian ExceptState EventRuns OutsideWorld ServerSession Answers Router ConnectionLoop
open Framing SessionClock

/-- `Config.load` gives a whole number for the window (`env_int`) and floats for the two
timeouts (`env_float`). Times are exact here and doubles in the code: its difference of a
time and a window is compared as the exact one (`RequestRate.allowRequestNow_rounded`),
its difference of two times may be off by a rounding. -/
structure LoopConfig where
  handshakeTimeoutS : ℚ := 5
  readTimeoutS : ℚ := 10
  maxReqPerWindow : ℕ := 50
  reqWindowS : ℕ := 5

def controlPlaneRateLimitedCodes : List ℕ := [825, 826, 827, 829, 830, 900, 901, 902]

/-- `_parse_frame_identity`: the client, the version and the code. -/
def parseFrameIdentity (frame : Bytes) : Option (Bytes × Bytes × ℕ) :=
  if frame.length < 19 then none
  else some (frame.take 16, (frame.drop 16).take 1, leNat ((frame.drop 17).take 2))

/-- `_is_control_plane_rate_limited`. -/
def isControlPlaneRateLimited (code : Option ℕ) : Bool :=
  code.any (· ∈ controlPlaneRateLimitedCodes)

/-- `allow_request_now`, on the times of the requests in the window. -/
def allowRequestNow (cfg : LoopConfig) (now : ℚ) (requestTimestamps : List ℚ) : Bool × List ℚ :=
  let kept := requestTimestamps.dropWhile (· < now - cfg.reqWindowS)
  if cfg.maxReqPerWindow ≤ kept.length then (false, kept) else (true, kept ++ [now])

/-- The connection in the loop. `passed` records every frame that was handed on: the
clock as it was read for it and the session at that time. -/
structure Loop where
  world : World
  framer : Framer
  requestTimestamps : List ℚ := []
  isOpen : Bool := true
  passed : List (ℚ × Session) := []

/-- How the wait for bytes ends. The frames of a chunk have a time and an outside world
each. -/
inductive Outcome where
  | timeout
  | chunk (data : Bytes) (frames : ℕ → ℚ × Outside)
  /-- A transport error or a cancellation. -/
  | broken (reason : String)

/-- An iteration: the clock at its top, the outside world and the end of the wait. -/
structure Iteration where
  now : ℚ
  out : Outside
  outcome : Outcome

section
variable (env : Env) (cfg : LoopConfig)

/-- The loop is left and the `finally` clause runs. -/
def leave (o : Outside) (l : Loop) : Loop :=
  { l with world := (finish env o l.world).world, isOpen := false }

/-- The loop notes why it is left. -/
def noteReason (reason : String) (w : World) : World :=
  w.setSession { w.session with disconnectReason := reason }

/-- The loop is left for a reason. -/
def close (o : Outside) (reason : String) (l : Loop) : Loop :=
  leave env o { l with world := noteReason reason l.world }

/-- The reason that the `except` clauses note. -/
def raisedReason : PyError → String
  | .connectionReset | .brokenPipe => "reset"
  | _ => "server_exception"

/-- The report of the rate limit; an exception is dropped. -/
def reportRateLimit (o : Outside) (frame : Bytes) (w : World) : World :=
  (attempt (answer1607 ⟨env, o⟩
    (((parseFrameIdentity frame).map fun id => id.1).getD (List.replicate 16 0))
    (((parseFrameIdentity frame).map fun id => id.2.1).getD [0]) "request rate limit exceeded")
    (fun _ => pure ()) w).2

/-- A frame goes to `handle_frame`. -/
def pass (now : ℚ) (o : Outside) (frame : Bytes) (l : Loop) : Loop :=
  let passed := l.passed ++ [(now, l.world.session)]
  match handleFrame ⟨env, o⟩ frame l.world with
  | (.ok _, w) => { l with world := w, passed }
  | (.error e, w) => close env o (raisedReason e) { l with world := w, passed }

/-- The body of the `for` loop, with the rate limit: the reason is noted before the
report, whose `send` may overwrite it. -/
def passOne (now : ℚ) (o : Outside) (frame : Bytes) (l : Loop) : Loop :=
  if isControlPlaneRateLimited ((parseFrameIdentity frame).map fun id => id.2.2) then
    let allowed := allowRequestNow cfg now l.requestTimestamps
    if allowed.1 then pass env now o frame { l with requestTimestamps := allowed.2 }
    else leave env o
      { l with
        world := reportRateLimit env o frame (noteReason "request_rate_limited" l.world)
        requestTimestamps := allowed.2 }
  else pass env now o frame l

/-- The `for` loop from frame `i` on. -/
def passFrames (frames : ℕ → ℚ × Outside) : ℕ → List Bytes → Loop → Loop
  | _, [], l => l
  | i, frame :: rest, l =>
      let l := passOne env cfg (frames i).1 (frames i).2 frame l
      if l.isOpen then passFrames frames (i + 1) rest l else l

/-- A chunk that has been read; an oversized header raises out of the loop. -/
def receive (o : Outside) (data : Bytes) (frames : ℕ → ℚ × Outside) (l : Loop) : Loop :=
  if data = [] then close env o "eof" l
  else
    let fed := l.framer.feed data
    let l := { l with world := (markActivity ⟨env, o⟩ l.world).2, framer := fed.2 }
    match fed.1 with
    | none => close env o "server_exception" l
    | some units => passFrames env cfg frames 0 units l

/-- One turn of `while True`. -/
def iterate (l : Loop) (it : Iteration) : Loop :=
  if !l.isOpen then l
  else if l.world.session.handshake.verified = false ∧
      cfg.handshakeTimeoutS ≤ it.now - l.world.session.connectedAt then
    close env it.out "handshake_timeout" l
  else
    match it.outcome with
    | .timeout =>
        match readTimeout ⟨env, it.out⟩ l.world with
        | (.ok false, w) => { l with world := w }
        | (_, w) => leave env it.out { l with world := w }
    | .broken reason => close env it.out reason l
    | .chunk data frames => receive env cfg it.out data frames l

end

/-! ### What the loop itself keeps -/

/-- A relation that the parts of the loop keep, `handle_frame` apart. -/
structure LoopParts (env : Env) (R : World → World → Prop) : Prop where
  assigns : ∀ f : Session → Session, (∀ s, (f s).connectedAt = s.connectedAt ∧
    (f s).transfer = s.transfer ∧ (f s).handshake = s.handshake) → Keeps R (onSession f)
  answers : ∀ o clientId version text, Keeps R (answer1607 ⟨env, o⟩ clientId version text)
  reset : ∀ o, Keeps R (resetTransferState ⟨env, o⟩)
  release : Keeps R releaseUploadSlot

namespace LoopParts
variable {env : Env} {R : World → World → Prop} [Std.Refl R] [IsTrans World R] (h : LoopParts env R)
  {o : Outside}

include h

theorem keeps_monotonic : Keeps R (monotonic ⟨env, o⟩) :=
  keeps_look_bind fun _ => keeps_bind (h.assigns _ fun _ => ⟨rfl, rfl, rfl⟩) fun _ => keeps_pure _

theorem keeps_markActivity : Keeps R (markActivity ⟨env, o⟩) :=
  keeps_bind h.keeps_monotonic fun _ => h.assigns _ fun _ => ⟨rfl, rfl, rfl⟩

theorem keeps_readTimeout : Keeps R (readTimeout ⟨env, o⟩) := by
  have hreport (s : Session) : Keeps R (reportTimeout ⟨env, o⟩ s) := by
    unfold reportTimeout
    split
    · exact keeps_attempt (h.answers _ _ _ _) fun _ => keeps_pure _
    · exact keeps_pure _
  have hreason (reason : String) :
      Keeps R (onSession fun s => { s with disconnectReason := reason }) :=
    h.assigns _ fun _ => ⟨rfl, rfl, rfl⟩
  refine keeps_bind h.keeps_monotonic fun now => keeps_look_bind fun s => keeps_ite ?_ ?_
  · refine keeps_ite ?_ (keeps_pure _)
    exact keeps_bind (hreason _) fun _ => keeps_bind (hreport s) fun _ =>
      keeps_bind (h.reset o) fun _ => keeps_pure _
  · exact keeps_ite (keeps_bind (hreason _) fun _ => keeps_pure _) (keeps_pure _)

theorem keeps_leave (l : Loop) : R l.world (leave env o l).world :=
  keeps_disconnectCleanup (h.reset o) h.release l.world

omit [Std.Refl R] [IsTrans World R] in
theorem keeps_noteReason (reason : String) (w : World) : R w (noteReason reason w) :=
  h.assigns (fun s => { s with disconnectReason := reason }) (fun _ => ⟨rfl, rfl, rfl⟩) w

theorem keeps_close (reason : String) (l : Loop) : R l.world (close env o reason l).world :=
  trans_of R (h.keeps_noteReason reason l.world)
    (h.keeps_leave { l with world := noteReason reason l.world })

theorem keeps_reportRateLimit (frame : Bytes) (w : World) : R w (reportRateLimit env o frame w) :=
  keeps_attempt (R := R) (h.answers o _ _ _) (fun _ => keeps_pure _) w

section
variable {cfg : LoopConfig} {frames : ℕ → ℚ × Outside}

theorem keeps_pass (hframe : ∀ frame, Keeps R (handleFrame ⟨env, o⟩ frame)) (now : ℚ)
    (frame : Bytes) (l : Loop) : R l.world (pass env now o frame l).world := by
  have hf := hframe frame l.world
  unfold pass
  dsimp only
  rcases hrun : handleFrame ⟨env, o⟩ frame l.world with ⟨e | _, w⟩
  · rw [hrun] at hf
    exact trans_of R hf (h.keeps_close (raisedReason e) { l with world := w, passed := _ })
  · rw [hrun] at hf
    exact hf

theorem keeps_passOne (hframe : ∀ frame, Keeps R (handleFrame ⟨env, o⟩ frame)) (now : ℚ)
    (frame : Bytes) (l : Loop) : R l.world (passOne env cfg now o frame l).world := by
  unfold passOne
  dsimp only
  split_ifs
  · exact h.keeps_pass hframe now frame
      { l with requestTimestamps := (allowRequestNow cfg now l.requestTimestamps).2 }
  · have hnoted := h.keeps_noteReason "request_rate_limited" l.world
    have hreported := h.keeps_reportRateLimit (o := o) frame
      (noteReason "request_rate_limited" l.world)
    exact trans_of R hnoted (trans_of R hreported
      (h.keeps_leave { l with world := _, requestTimestamps := _ }))
  · exact h.keeps_pass hframe now frame l

theorem keeps_passFrames (hframe : ∀ i frame, Keeps R (handleFrame ⟨env, (frames i).2⟩ frame))
    (i : ℕ) (units : List Bytes) (l : Loop) :
    R l.world (passFrames env cfg frames i units l).world := by
  induction units generalizing i l with
  | nil => exact refl_of R l.world
  | cons frame rest ih =>
      have hone : R l.world (passOne env cfg (frames i).1 (frames i).2 frame l).world :=
        h.keeps_passOne (hframe i) (frames i).1 frame l
      rw [passFrames]
      split_ifs
      · exact trans_of R hone (ih (i + 1) _)
      · exact hone

/-- The whole iteration keeps what its parts and the frames keep. -/
theorem keeps_iterate {it : Iteration}
    (hframe : ∀ data frames, it.outcome = .chunk data frames →
      ∀ i frame, Keeps R (handleFrame ⟨env, (frames i).2⟩ frame)) (l : Loop) :
    R l.world (iterate env cfg l it).world := by
  unfold iterate
  split_ifs
  · exact refl_of R l.world
  · exact h.keeps_close _ l
  · split
    · have hread := h.keeps_readTimeout (o := it.out) l.world
      split
      · rename_i w hrun
        rw [hrun] at hread
        exact hread
      · rename_i r w _ hrun
        rw [hrun] at hread
        exact trans_of R hread (h.keeps_leave { l with world := w })
    · exact h.keeps_close _ l
    · rename_i data frames houtcome
      have hmark := h.keeps_markActivity (o := it.out) l.world
      unfold receive
      dsimp only
      split_ifs
      · exact h.keeps_close _ l
      · split
        · exact trans_of R hmark
            (h.keeps_close "server_exception" { l with world := _, framer := _ })
        · exact trans_of R hmark (h.keeps_passFrames (hframe data frames houtcome) 0 _
            { l with world := _, framer := _ })

end

end LoopParts

/-- The times of the session along the loop. -/
theorem clocked_parts (env : Env) (T : ℚ → Prop) : LoopParts env (Clocked T) where
  assigns _ h := clocked_onSession fun s => ⟨(h s).1, (h s).2.1⟩
  answers _ _ _ _ := clocked_answer1607 _
  reset _ := clocked_reset
  release := clocked_release

/-- The handshake is the same. -/
def SameHandshake (w w' : World) : Prop := w'.session.handshake = w.session.handshake

instance : Std.Refl SameHandshake := ⟨fun _ => rfl⟩

instance : IsTrans World SameHandshake := ⟨fun _ _ _ h h' => Eq.trans h' h⟩

theorem sameHandshake_parts (env : Env) : LoopParts env SameHandshake where
  assigns _ h w := (h w.session).2.2
  answers _ _ _ text w := by
    obtain ⟨ms, htells, -⟩ := SessionFrames.quiet_answer1607 text w
    exact congrArg SessionFrames.Core.handshake htells.core_eq
  reset _ w := by
    rw [UploadSteps.resetTransferState_eq]
    rfl
  release w := by
    unfold releaseUploadSlot SameHandshake
    simp only [update]
    split_ifs
    · rfl
    · rfl

/-- A handshake that is complete stays so. -/
def StaysVerified (w w' : World) : Prop :=
  w.session.handshake.verified = true → w'.session.handshake.verified = true

instance : Std.Refl StaysVerified := ⟨fun _ h => h⟩

instance : IsTrans World StaysVerified := ⟨fun _ _ _ h h' hv => h' (h hv)⟩

theorem staysVerified_of_same {α : Type} {x : Server α} (h : Keeps SameHandshake x) :
    Keeps StaysVerified x :=
  h.mono fun _ _ hsame hv => (congrArg Handshake.verified hsame).trans hv

theorem staysVerified_parts (env : Env) : LoopParts env StaysVerified where
  assigns f h := staysVerified_of_same ((sameHandshake_parts env).assigns f h)
  answers o _ _ _ := staysVerified_of_same ((sameHandshake_parts env).answers o _ _ _)
  reset o := staysVerified_of_same ((sameHandshake_parts env).reset o)
  release := staysVerified_of_same (sameHandshake_parts env).release

theorem staysVerified_handleFrame (ctx : Ctx) (frame : Bytes) :
    Keeps StaysVerified (handleFrame ctx frame) := fun _ hv =>
  (congrArg Handshake.verified (HandshakeGate.open_handleFrame ctx frame hv).handshake).trans hv

/-! ### The deadline of the handshake -/

/-- No frame has been handed on at the deadline or later before the handshake was
complete, and if it is complete, a frame before the deadline has completed it. -/
structure Punctual (deadline : ℚ) (l : Loop) : Prop where
  passed : ∀ p ∈ l.passed, p.2.handshake.verified = false → p.1 < deadline
  completed : l.world.session.handshake.verified = true →
    ∃ p ∈ l.passed, p.2.handshake.verified = false ∧ p.1 < deadline

/-- An iteration that begins before the deadline, with the handshake not complete, has
reached the frames of the bytes that it reads before the deadline. Nothing is said about
an iteration that begins at the deadline or later. -/
def InTime (cfg : LoopConfig) (l : Loop) (it : Iteration) : Prop :=
  l.world.session.handshake.verified = false →
    it.now < l.world.session.connectedAt + cfg.handshakeTimeoutS →
      ∀ data frames units, it.outcome = .chunk data frames →
        (l.framer.feed data).1 = some units → ∀ i < units.length,
          (frames i).1 < l.world.session.connectedAt + cfg.handshakeTimeoutS

section
variable {env : Env} {cfg : LoopConfig} {deadline now : ℚ} {o : Outside} {frame : Bytes}
  {l l' : Loop} {it : Iteration}

/-- Nothing is handed on and the handshake is the same. -/
theorem punctual_keep (h : Punctual deadline l) (hpassed : l'.passed = l.passed)
    (hsame : SameHandshake l.world l'.world) : Punctual deadline l' := by
  constructor
  · rw [hpassed]
    exact h.passed
  · rw [hpassed, hsame]
    exact h.completed

/-- One more frame is handed on, whatever becomes of it. -/
theorem punctual_snoc (h : Punctual deadline l)
    (hpassed : l'.passed = l.passed ++ [(now, l.world.session)])
    (hnow : l.world.session.handshake.verified = false → now < deadline) :
    Punctual deadline l' := by
  have hmem : (now, l.world.session) ∈ l'.passed := by
    rw [hpassed]
    exact List.mem_append_right _ List.mem_cons_self
  constructor
  · intro p hp hun
    rw [hpassed, List.mem_append, List.mem_singleton] at hp
    rcases hp with hp | rfl
    · exact h.passed p hp hun
    · exact hnow hun
  · intro _
    rcases hv : l.world.session.handshake.verified with _ | _
    · exact ⟨_, hmem, hv, hnow hv⟩
    · obtain ⟨p, hp, hbefore⟩ := h.completed hv
      refine ⟨p, ?_, hbefore⟩
      rw [hpassed]
      exact List.mem_append_left _ hp

theorem passed_pass : (pass env now o frame l).passed = l.passed ++ [(now, l.world.session)] := by
  unfold pass
  dsimp only
  split
  · rfl
  · rfl

theorem punctual_leave (h : Punctual deadline l) : Punctual deadline (leave env o l) :=
  punctual_keep h rfl ((sameHandshake_parts env).keeps_leave l)

theorem punctual_close (h : Punctual deadline l) (reason : String) :
    Punctual deadline (close env o reason l) :=
  punctual_keep h rfl ((sameHandshake_parts env).keeps_close reason l)

theorem punctual_passOne (h : Punctual deadline l)
    (hnow : l.world.session.handshake.verified = false → now < deadline) :
    Punctual deadline (passOne env cfg now o frame l) := by
  unfold passOne
  dsimp only
  split_ifs
  · exact punctual_snoc h passed_pass hnow
  · apply punctual_leave
    refine punctual_keep h rfl (trans_of SameHandshake
      ((sameHandshake_parts env).keeps_noteReason "request_rate_limited" l.world) ?_)
    exact (sameHandshake_parts env).keeps_reportRateLimit frame _
  · exact punctual_snoc h passed_pass hnow

theorem punctual_passFrames {frames : ℕ → ℚ × Outside} (units : List Bytes) (i : ℕ)
    (h : Punctual deadline l)
    (hin : l.world.session.handshake.verified = false →
      ∀ j < units.length, (frames (i + j)).1 < deadline) :
    Punctual deadline (passFrames env cfg frames i units l) := by
  induction units generalizing i l with
  | nil => exact h
  | cons frame rest ih =>
      have hone : Punctual deadline (passOne env cfg (frames i).1 (frames i).2 frame l) :=
        punctual_passOne h fun hun => hin hun 0 (Nat.succ_pos _)
      rw [passFrames]
      split_ifs
      · refine ih (i + 1) hone fun hun j hj => ?_
        -- before the frame the handshake was not complete either
        have hbefore : l.world.session.handshake.verified = false := by
          by_contra hv
          have hstays : (passOne env cfg (frames i).1 (frames i).2 frame
              l).world.session.handshake.verified = true :=
            (staysVerified_parts env).keeps_passOne (staysVerified_handleFrame ⟨env, (frames i).2⟩)
              (frames i).1 frame l (by simpa using hv)
          rw [hun] at hstays
          cases hstays
        have hlt := hin hbefore (j + 1) (Nat.succ_lt_succ hj)
        rwa [← Nat.add_assoc, Nat.add_right_comm] at hlt
      · exact hone

theorem punctual_iterate (h : Punctual (l.world.session.connectedAt + cfg.handshakeTimeoutS) l)
    (hin : InTime cfg l it) :
    Punctual (l.world.session.connectedAt + cfg.handshakeTimeoutS) (iterate env cfg l it) := by
  unfold iterate
  split_ifs with _ hlate
  · exact h
  · exact punctual_close h _
  · -- the test has let the iteration through
    have hearly (hun : l.world.session.handshake.verified = false) :
        it.now < l.world.session.connectedAt + cfg.handshakeTimeoutS := by
      have hbefore := not_le.mp fun hpast => hlate ⟨hun, hpast⟩
      linarith
    split
    · have hread := (sameHandshake_parts env).keeps_readTimeout (o := it.out) l.world
      split
      · rename_i w hrun
        rw [hrun] at hread
        exact punctual_keep h rfl hread
      · rename_i r w _ hrun
        rw [hrun] at hread
        exact punctual_leave (punctual_keep h rfl hread)
    · exact punctual_close h _
    · rename_i data frames houtcome
      have hmark : SameHandshake l.world (markActivity ⟨env, it.out⟩ l.world).2 :=
        (sameHandshake_parts env).keeps_markActivity l.world
      unfold receive
      dsimp only
      split_ifs
      · exact punctual_close h _
      · split
        · apply punctual_close
          exact punctual_keep h rfl hmark
        · rename_i units hfed
          refine punctual_passFrames units 0 (punctual_keep h rfl hmark) fun hun j hj => ?_
          have hun' : l.world.session.handshake.verified = false :=
            (congrArg Handshake.verified hmark).symm.trans hun
          rw [Nat.zero_add]
          exact hin hun' (hearly hun') data frames units houtcome hfed j hj

end

/-- The loop as `handle_client` enters it. -/
def begin (connectionId : String) (now : ℚ) (store : ClientStore.Store)
    (files : FileSystem) (limiter : UploadLimiter) (framer : Framer) : Loop :=
  { world := HandshakeGate.freshWorld connectionId now store files limiter, framer }

/-- In every run whose iterations from before the deadline reach their frames before it,
no frame is handed on at the deadline or later while the handshake is not complete, and it
is complete before the deadline or never. -/
theorem handshake_deadline (env : Env) (cfg : LoopConfig) (connectionId : String) (now : ℚ)
    (store : ClientStore.Store) (files : FileSystem) (limiter : UploadLimiter) (framer : Framer)
    (its : List Iteration) (h : Along (iterate env cfg) (InTime cfg)
      (begin connectionId now store files limiter framer) its) :
    Punctual (now + cfg.handshakeTimeoutS)
      (run (iterate env cfg) (begin connectionId now store files limiter framer) its) := by
  have hrun := invariant_along (I := fun l => l.world.session.connectedAt = now ∧
      Punctual (now + cfg.handshakeTimeoutS) l) (P := InTime cfg)
    (s := begin connectionId now store files limiter framer) ⟨rfl, ?_, ?_⟩ ?_ h
  · exact hrun.2
  · intro p hp
    cases hp
  · intro hv
    cases hv
  · rintro l it ⟨hconnected, hpunctual⟩ hin
    have hclocked : Clocked (fun _ => True) l.world (iterate env cfg l it).world :=
      (clocked_parts env _).keeps_iterate
        (fun _ _ _ _ frame => clocked_handleFrame (fun _ => trivial) frame) l
    rw [← hconnected] at hpunctual ⊢
    exact ⟨hclocked.connectedAt, punctual_iterate hpunctual hin⟩

/-! ### Schedules -/

/-- The clock after the wait. -/
def Iteration.after (it : Iteration) : ℚ := it.out.monotonic 0

/-- The clock does not go back, `asyncio.wait_for` gives the bytes within its timeout,
and what follows the wait takes no time. -/
structure Instant (cfg : LoopConfig) (since : ℚ) (it : Iteration) : Prop where
  top : since ≤ it.now
  wait : it.now ≤ it.after
  out : ∀ n, it.out.monotonic n = it.after
  chunk : ∀ data frames, it.outcome = .chunk data frames →
    it.after ≤ it.now + cfg.readTimeoutS ∧
      ∀ i, (frames i).1 = it.after ∧ ∀ n, (frames i).2.monotonic n = it.after

/-- Iterations one after the other. -/
def Scheduled (cfg : LoopConfig) : ℚ → List Iteration → Prop
  | _, [] => True
  | since, it :: its => Instant cfg since it ∧ Scheduled cfg it.after its

/-- The clock at the end of the iterations. -/
def lastTime (since : ℚ) (its : List Iteration) : ℚ := its.foldl (fun _ it => it.after) since

/-! ### Stalled uploads -/

/-- An active upload has made progress less than `bound` ago. -/
structure Lively (bound since : ℚ) (l : Loop) : Prop where
  connected : l.world.session.connectedAt ≤ since
  progress : l.isOpen = true → l.world.session.transfer.uploadActive = true →
    ∃ ts, l.world.session.transfer.lastUploadProgressTs = some ts ∧
      l.world.session.connectedAt ≤ ts ∧ since - ts < bound

/-- When bytes are read while an upload is active, its last progress was not too long
ago at the top of the iteration. -/
def Watched (env : Env) (l : Loop) (it : Iteration) : Prop :=
  ∀ data frames, it.outcome = .chunk data frames → l.world.session.transfer.uploadActive = true →
    it.now - lastProgress l.world.session < env.config.uploadInactivityTimeoutS

section
variable {env : Env} {cfg : LoopConfig} {l : Loop} {it : Iteration} {since : ℚ}

/-- A time of zero counts as none, but the connection is no younger. -/
theorem lastProgress_le {s : Session} {ts : ℚ} (hts : s.transfer.lastUploadProgressTs = some ts)
    (hle : s.connectedAt ≤ ts) : lastProgress s ≤ ts := by
  unfold lastProgress
  rw [hts]
  dsimp only
  split_ifs
  · exact hle
  · exact le_refl ts

/-- A timeout that leaves an active upload its connection. -/
theorem readTimeout_false {o : Outside} {w w' : World}
    (hactive : w.session.transfer.uploadActive = true)
    (h : readTimeout ⟨env, o⟩ w = (.ok false, w')) :
    o.monotonic w.session.ticks - lastProgress w.session < env.config.uploadInactivityTimeoutS := by
  have hwp : wp (readTimeout ⟨env, o⟩) (fun leave _ => leave = false →
      o.monotonic w.session.ticks - lastProgress w.session < env.config.uploadInactivityTimeoutS)
      (fun _ _ => True) w := by
    simp only [readTimeout, monotonic, onSession, wp_bind, wp_look, wp_update, wp_pure]
    split_ifs with hactive' hlate
    · rw [wp_bind, wp_update]
      have hany (x : Server Unit) (u : World) : wp x (fun _ _ => True) (fun _ _ => True) u :=
        (wp_state (P := fun _ => True)).mpr trivial
      refine wp_seq (hany _ _) (fun _ u _ => ?_) fun _ _ _ => trivial
      refine wp_seq (hany _ u) (fun _ v _ => ?_) fun _ _ _ => trivial
      exact (wp_pure _).mpr fun hfalse => by cases hfalse
    · rw [wp_pure]
      exact fun _ => not_le.mp hlate
    · exact absurd hactive hactive'
    · exact absurd hactive hactive'
  exact (wp_of_eq_ok h).mp hwp rfl

/-- An iteration that ends with an open connection. -/
theorem iterate_open (h : (iterate env cfg l it).isOpen = true) : l.isOpen = true ∧
    (it.outcome = .timeout → ∃ w, readTimeout ⟨env, it.out⟩ l.world = (.ok false, w)) ∧
    ∀ reason, it.outcome ≠ .broken reason := by
  unfold iterate at h
  split_ifs at h with hopen hdeadline
  · rw [h] at hopen
    cases hopen
  · cases h
  · have hopen' : l.isOpen = true := by simpa using hopen
    refine ⟨hopen', fun htimeout => ?_, fun reason hbroken => ?_⟩
    · rw [htimeout] at h
      dsimp only at h
      split at h
      · rename_i w hrun
        exact ⟨w, hrun⟩
      · cases h
    · rw [hbroken] at h
      cases h

theorem lively_iterate (hread : 0 < cfg.readTimeoutS)
    (hupload : 0 < env.config.uploadInactivityTimeoutS)
    (h : Lively (env.config.uploadInactivityTimeoutS + cfg.readTimeoutS) since l)
    (hinstant : Instant cfg since it) (hwatched : Watched env l it) :
    Lively (env.config.uploadInactivityTimeoutS + cfg.readTimeoutS) it.after
      (iterate env cfg l it) := by
  have hclocked : Clocked (· = it.after) l.world (iterate env cfg l it).world :=
    (clocked_parts env _).keeps_iterate (fun data frames houtcome i frame =>
      clocked_handleFrame (((hinstant.chunk data frames houtcome).2 i).2) frame) l
  have hafter : l.world.session.connectedAt ≤ it.after :=
    h.connected.trans (hinstant.top.trans hinstant.wait)
  refine ⟨hclocked.connectedAt ▸ hafter, fun hopen hactive => ?_⟩
  rw [hclocked.connectedAt]
  rcases hclocked.progress hactive with ⟨ts, hts, rfl⟩ | ⟨hbefore, hsame⟩
  · refine ⟨_, hts, hafter, ?_⟩
    linarith
  · obtain ⟨hopen', htimeout, hbroken⟩ := iterate_open hopen
    obtain ⟨ts, hts, hle, -⟩ := h.progress hopen' hbefore
    have hlast := lastProgress_le hts hle
    refine ⟨ts, hsame.trans hts, hle, ?_⟩
    rcases houtcome : it.outcome with _ | ⟨data, frames⟩ | reason
    · obtain ⟨w, hrun⟩ := htimeout houtcome
      have hfresh := readTimeout_false hbefore hrun
      rw [hinstant.out] at hfresh
      linarith
    · have hfresh := hwatched data frames houtcome hbefore
      have hwait := (hinstant.chunk data frames houtcome).1
      linarith
    · exact absurd houtcome (hbroken reason)

theorem lively_run (hread : 0 < cfg.readTimeoutS)
    (hupload : 0 < env.config.uploadInactivityTimeoutS) {its : List Iteration}
    (h : Lively (env.config.uploadInactivityTimeoutS + cfg.readTimeoutS) since l)
    (hscheduled : Scheduled cfg since its)
    (hwatched : Along (iterate env cfg) (Watched env) l its) :
    Lively (env.config.uploadInactivityTimeoutS + cfg.readTimeoutS) (lastTime since its)
      (run (iterate env cfg) l its) := by
  induction its generalizing since l with
  | nil => exact h
  | cons it its ih =>
      exact ih (lively_iterate hread hupload h hscheduled.1 hwatched.1) hscheduled.2 hwatched.2

end

/-- On every schedule with positive timeouts whose iterations read bytes only while the
active upload is not overdue, an upload that is active after an iteration has made
progress within the two timeouts. -/
theorem stalled_upload_cut_off (env : Env) (cfg : LoopConfig) (connectionId : String) (now : ℚ)
    (store : ClientStore.Store) (files : FileSystem) (limiter : UploadLimiter) (framer : Framer)
    (its : List Iteration) (it : Iteration) (hread : 0 < cfg.readTimeoutS)
    (hupload : 0 < env.config.uploadInactivityTimeoutS)
    (hscheduled : Scheduled cfg now (its ++ [it]))
    (hwatched : Along (iterate env cfg) (Watched env)
      (begin connectionId now store files limiter framer) (its ++ [it]))
    (hopen : (run (iterate env cfg) (begin connectionId now store files limiter framer)
      (its ++ [it])).isOpen = true)
    (hactive : (run (iterate env cfg) (begin connectionId now store files limiter framer)
      (its ++ [it])).world.session.transfer.uploadActive = true) :
    ∃ ts, (run (iterate env cfg) (begin connectionId now store files limiter framer)
        (its ++ [it])).world.session.transfer.lastUploadProgressTs = some ts ∧
      it.after - ts < env.config.uploadInactivityTimeoutS + cfg.readTimeoutS := by
  have hbegin : Lively (env.config.uploadInactivityTimeoutS + cfg.readTimeoutS) now
      (begin connectionId now store files limiter framer) := by
    refine ⟨le_refl now, fun _ hidle => ?_⟩
    cases hidle
  have hlively := lively_run hread hupload hbegin hscheduled hwatched
  obtain ⟨ts, hts, -, hlate⟩ := hlively.progress hopen hactive
  refine ⟨ts, hts, ?_⟩
  rwa [lastTime, List.foldl_concat] at hlate

/-! ### Two late peers -/

/-- Everything happens at one time. -/
def atTime (t : ℚ) : Outside := { calm with monotonic := fun _ => t }

/-- Bytes that arrive at time `t`. -/
def arrive (now t : ℚ) (data : Bytes) : Iteration :=
  ⟨now, atTime t, .chunk data fun _ => (t, atTime t)⟩

theorem instant_arrive {cfg : LoopConfig} {since now t : ℚ} (data : Bytes) (htop : since ≤ now)
    (hwait : now ≤ t) (htimeout : t ≤ now + cfg.readTimeoutS) :
    Instant cfg since (arrive now t data) where
  top := htop
  wait := hwait
  out _ := rfl
  chunk _ _ h := by
    cases h
    exact ⟨htimeout, fun _ => ⟨rfl, fun _ => rfl⟩⟩

/-- The first messages of an upload in one piece. -/
def aliceBytes (n : ℕ) : Bytes := ((UploadSlot.aliceUpload.take n).map Prod.snd).flatten

def aliceLoop : Loop :=
  begin "c1" 0 UploadSlot.aliceWorld.store UploadSlot.aliceWorld.files UploadSlot.aliceWorld.limiter
    ⟨10000000, by decide, []⟩

theorem inTime_arrive {l : Loop} {now t : ℚ} (data : Bytes)
    (h : t < l.world.session.connectedAt + 5) :
    InTime {} l (arrive now t data) := by
  intro _ _ data frames units houtcome _ i _
  cases houtcome
  exact h

/-- The first message of a handshake in time and the second one late: the iteration that
would read it begins after the deadline. -/
def lateSecond : List Iteration :=
  [arrive 0 1 (aliceBytes 1), arrive 6 12 ((aliceBytes 2).drop (aliceBytes 1).length)]

/-- A peer whose second message comes after the deadline is cut off, and one whose
messages come in time goes on after it. -/
theorem handshake_deadline_prompt :
    let prompt := [arrive 0 1 (aliceBytes 2), arrive 6 7 [0]]
    let late := run (iterate UploadSlot.plainEnv {}) aliceLoop lateSecond
    Punctual 5 late ∧ late.isOpen = false ∧ late.passed.length = 1 ∧
      Punctual 5 (run (iterate UploadSlot.plainEnv {}) aliceLoop prompt) ∧
      (run (iterate UploadSlot.plainEnv {}) aliceLoop prompt).isOpen = true := by
  intro prompt late
  have hsame : (0 : ℚ) + ({} : LoopConfig).handshakeTimeoutS = 5 := by decide +kernel
  have hlate : Along (iterate UploadSlot.plainEnv {}) (InTime {}) aliceLoop lateSecond := by
    refine ⟨inTime_arrive _ (by decide +kernel), fun _ hearly => ?_, trivial⟩
    exact absurd hearly (by decide +kernel)
  have hprompt : Along (iterate UploadSlot.plainEnv {}) (InTime {}) aliceLoop prompt := by
    refine ⟨inTime_arrive _ (by decide +kernel), fun hun => ?_, trivial⟩
    exact absurd hun (by decide +kernel)
  have hcut := handshake_deadline UploadSlot.plainEnv {} "c1" 0 _ _ _ _ _ hlate
  have hgoes := handshake_deadline UploadSlot.plainEnv {} "c1" 0 _ _ _ _ _ hprompt
  rw [hsame] at hcut hgoes
  exact ⟨hcut, by decide +kernel, by decide +kernel, hgoes, by decide +kernel⟩

/-- With the default timeouts a handshake whose messages arrive twelve seconds after the
connection is completed, although its deadline was after five. -/
theorem handshake_after_deadline : ¬ ∀ (env : Env) (cfg : LoopConfig) (connectionId : String)
    (now : ℚ) (store : ClientStore.Store) (files : FileSystem) (limiter : UploadLimiter)
    (framer : Framer) (its : List Iteration), 0 < cfg.handshakeTimeoutS → 0 < cfg.readTimeoutS →
      Scheduled cfg now its → Punctual (now + cfg.handshakeTimeoutS)
        (run (iterate env cfg) (begin connectionId now store files limiter framer) its) := by
  intro h
  have hlate := h UploadSlot.plainEnv {} "c1" 0 UploadSlot.aliceWorld.store
    UploadSlot.aliceWorld.files UploadSlot.aliceWorld.limiter ⟨10000000, by decide, []⟩
    [arrive 4 12 (aliceBytes 2)] (by decide +kernel) (by decide +kernel)
    ⟨instant_arrive _ (by decide +kernel) (by decide +kernel) (by decide +kernel), trivial⟩
  have hany : (run (iterate UploadSlot.plainEnv {}) aliceLoop
      [arrive 4 12 (aliceBytes 2)]).passed.any
        (fun p => !p.2.handshake.verified && decide (5 ≤ p.1)) = true := by
    decide +kernel
  obtain ⟨p, hp, hcheck⟩ := List.any_eq_true.mp hany
  rw [Bool.and_eq_true, Bool.not_eq_true', decide_eq_true_eq] at hcheck
  have hlt := hlate.passed p hp hcheck.1
  rw [show (0 : ℚ) + ({} : LoopConfig).handshakeTimeoutS = 5 by decide +kernel] at hlt
  exact absurd hcheck.2 (not_le.mpr hlt)

/-- A byte ten seconds after the first packet. -/
theorem stalled_upload_cut_off_byte :
    let its := [arrive 0 1 (aliceBytes 4)]
    ∃ ts, (run (iterate UploadSlot.plainEnv {}) aliceLoop
        (its ++ [arrive 1 11 [0]])).world.session.transfer.lastUploadProgressTs = some ts ∧
      (arrive 1 11 [0]).after - ts < 20 + 10 := by
  intro its
  have hwatched : Along (iterate UploadSlot.plainEnv {}) (Watched UploadSlot.plainEnv) aliceLoop
      (its ++ [arrive 1 11 [0]]) := by
    refine ⟨fun _ _ _ hidle => ?_, fun _ _ _ _ => ?_, trivial⟩
    · cases hidle
    · decide +kernel
  exact stalled_upload_cut_off UploadSlot.plainEnv {} "c1" 0 _ _ _ _ its (arrive 1 11 [0])
    (by decide +kernel) (by decide +kernel)
    ⟨instant_arrive _ (by decide +kernel) (by decide +kernel) (by decide +kernel),
      instant_arrive _ (by decide +kernel) (by decide +kernel) (by decide +kernel), trivial⟩
    hwatched (by decide +kernel) (by decide +kernel)

/-- One byte every ten seconds: the upload has stood still for thirty seconds and the
connection is open. -/
theorem stalled_upload_goes_on :
    ¬ ∀ (env : Env) (cfg : LoopConfig) (connectionId : String) (now : ℚ)
    (store : ClientStore.Store) (files : FileSystem) (limiter : UploadLimiter) (framer : Framer)
    (its : List Iteration) (it : Iteration), 0 < cfg.readTimeoutS →
      0 < env.config.uploadInactivityTimeoutS → Scheduled cfg now (its ++ [it]) →
      (run (iterate env cfg) (begin connectionId now store files limiter framer)
        (its ++ [it])).isOpen = true →
      (run (iterate env cfg) (begin connectionId now store files limiter framer)
        (its ++ [it])).world.session.transfer.uploadActive = true →
      ∃ ts, (run (iterate env cfg) (begin connectionId now store files limiter framer)
          (its ++ [it])).world.session.transfer.lastUploadProgressTs = some ts ∧
        it.after - ts < env.config.uploadInactivityTimeoutS + cfg.readTimeoutS := by
  intro h
  have hwait {since now t : ℚ} (data : Bytes) (htop : since ≤ now) (hle : now ≤ t)
      (htimeout : t ≤ now + 10) : Instant {} since (arrive now t data) :=
    instant_arrive data htop hle htimeout
  obtain ⟨ts, hts, hlt⟩ := h UploadSlot.plainEnv {} "c1" 0 UploadSlot.aliceWorld.store
    UploadSlot.aliceWorld.files UploadSlot.aliceWorld.limiter ⟨10000000, by decide, []⟩
    [arrive 0 1 (aliceBytes 4), arrive 1 11 [0], arrive 11 21 [0]] (arrive 21 31 [0])
    (by decide +kernel) (by decide +kernel)
    ⟨hwait _ (by decide +kernel) (by decide +kernel) (by decide +kernel),
      hwait _ (by decide +kernel) (by decide +kernel) (by decide +kernel),
      hwait _ (by decide +kernel) (by decide +kernel) (by decide +kernel),
      hwait _ (by decide +kernel) (by decide +kernel) (by decide +kernel), trivial⟩
    (by decide +kernel) (by decide +kernel)
  have hone : (run (iterate UploadSlot.plainEnv {}) aliceLoop
      [arrive 0 1 (aliceBytes 4), arrive 1 11 [0], arrive 11 21 [0],
        arrive 21 31 [0]]).world.session.transfer.lastUploadProgressTs = some 1 := by
    decide +kernel
  obtain rfl : ts = 1 := Option.some.inj (hts.symm.trans hone)
  revert hlt
  decide +kernel

end Seftp.ReadLoop
