import Seftp.ReadLoop
import Seftp.RoundedDifference
import Seftp.SlidingWindow

/-!
# The limit on bursts of requests

`allow_request_now` on any sequence of times that does not go back, and the read loop
around it. The queue holds the times of the last window only; it answers as if it held
every request let in since the connection began. The loop asks for the requests of the
control plane and hands on the ones that are allowed, so their times are those that the
limiter has let in.

The code computes the start of the window with doubles. The window is a whole number of
seconds, and then its answers are those of exact arithmetic.
-/
namespace Seftp.RequestRate
open LittleEndian EventRuns OutsideWorld ServerSession Router Framing ReadLoop SlidingWindow
open RoundedDifference

/-! ### The calls of one session -/

theorem allowRequestNow_eq (cfg : LoopConfig) (now : ℚ) (queue : List ℚ) :
    allowRequestNow cfg now queue = allows cfg.maxReqPerWindow (cfg.reqWindowS : ℚ) now queue := rfl

/-- A call, with the record of the calls that were answered with `True`. -/
def ask (cfg : LoopConfig) (g : Log ℚ) (now : ℚ) : Log ℚ :=
  { accepted := if (allowRequestNow cfg now g.queue).1 then g.accepted ++ [now] else g.accepted
    queue := (allowRequestNow cfg now g.queue).2 }

/-- The calls of a new session at the given times. -/
def askAll (cfg : LoopConfig) (ts : List ℚ) : Log ℚ := ts.foldl (ask cfg) {}

theorem askAll_eq (cfg : LoopConfig) (ts : List ℚ) :
    askAll cfg ts = Log.run cfg.maxReqPerWindow (cfg.reqWindowS : ℚ) ts := rfl

/-- The call at `now` after the calls at `ts`. -/
structure ExactLimit (cfg : LoopConfig) (ts : List ℚ) (now : ℚ) : Prop where
  exact : (allowRequestNow cfg now (askAll cfg ts).queue).1 = true ↔
    (inside (now - cfg.reqWindowS) now (askAll cfg ts).accepted).length < cfg.maxReqPerWindow
  sparse : ∀ a : ℚ, (inside a (a + cfg.reqWindowS) (askAll cfg (ts ++ [now])).accepted).length ≤
    cfg.maxReqPerWindow
  bounded : (askAll cfg (ts ++ [now])).queue.length ≤ cfg.maxReqPerWindow
  /-- Without the calls that were answered with `False` the answer is the same. -/
  free : (allowRequestNow cfg now (askAll cfg (askAll cfg ts).accepted).queue).1 =
    (allowRequestNow cfg now (askAll cfg ts).queue).1

theorem exactLimit (cfg : LoopConfig) {ts : List ℚ} {now : ℚ}
    (h : (ts ++ [now]).Pairwise (· ≤ ·)) : ExactLimit cfg ts now := by
  have hbefore : Tracks cfg.maxReqPerWindow (cfg.reqWindowS : ℚ) now (askAll cfg ts) := tracks_run h
  have hafter : Tracks cfg.maxReqPerWindow (cfg.reqWindowS : ℚ) now (askAll cfg (ts ++ [now])) := by
    rw [askAll_eq, run_snoc]
    exact hbefore.ask
  refine ⟨hbefore.allows_iff, hafter.sparse, hafter.bounded, ?_⟩
  have hsub : ((askAll cfg ts).accepted ++ [now]).Pairwise (· ≤ ·) :=
    h.sublist ((accepted_sublist ts).append (List.Sublist.refl _))
  have hagain : Tracks cfg.maxReqPerWindow (cfg.reqWindowS : ℚ) now
    (askAll cfg (askAll cfg ts).accepted) := tracks_run hsub
  have hsame : (askAll cfg (askAll cfg ts).accepted).accepted = (askAll cfg ts).accepted :=
    run_accepted (List.pairwise_append.mp h).1
  rw [Bool.eq_iff_iff, allowRequestNow_eq, allowRequestNow_eq, hagain.allows_iff,
    hbefore.allows_iff, hsame]

/-! ### Doubles -/

/-- `allow_request_now` with a rounded difference. -/
def allowRequestNowRounded (round : ℚ → ℚ) (cfg : LoopConfig) (now : ℚ)
    (requestTimestamps : List ℚ) : Bool × List ℚ :=
  let kept := requestTimestamps.dropWhile (· < round (now - cfg.reqWindowS))
  if cfg.maxReqPerWindow ≤ kept.length then (false, kept) else (true, kept ++ [now])

/-- The calls of a new session, with rounded differences. -/
def askAllRounded (round : ℚ → ℚ) (cfg : LoopConfig) (ts : List ℚ) : Log ℚ :=
  ts.foldl (fun g now =>
    { accepted :=
        if (allowRequestNowRounded round cfg now g.queue).1 then g.accepted ++ [now] else g.accepted
      queue := (allowRequestNowRounded round cfg now g.queue).2 }) {}

/-- A reading of the clock is a double, not negative and below `2 ^ 53`. -/
structure IsReading (t : ℚ) : Prop where
  nonneg : 0 ≤ t
  double : IsFloat 53 t
  small : t < 2 ^ 53

section
variable {round : ℚ → ℚ} {cfg : LoopConfig} {now : ℚ} {queue ts : List ℚ}

theorem allowRequestNow_rounded (hround : IsRounding 53 round) (hnow : IsReading now)
    (hqueue : ∀ s ∈ queue, 0 ≤ s) :
    allowRequestNowRounded round cfg now queue = allowRequestNow cfg now queue := by
  have hkept : queue.dropWhile (· < round (now - cfg.reqWindowS)) =
      queue.dropWhile (· < now - cfg.reqWindowS) := by
    induction queue with
    | nil => rfl
    | cons s queue ih =>
        have hs := lt_round_iff hround (hqueue s List.mem_cons_self) hnow.double hnow.small
          cfg.reqWindowS
        rw [List.dropWhile_cons, List.dropWhile_cons, decide_eq_decide.mpr hs,
          ih fun t ht => hqueue t (List.mem_cons_of_mem s ht)]
  unfold allowRequestNowRounded allowRequestNow
  rw [hkept]

/-- The queue holds times of calls. -/
theorem queue_subset (cfg : LoopConfig) (ts : List ℚ) : ∀ s ∈ (askAll cfg ts).queue, s ∈ ts := by
  induction ts using List.reverseRecOn with
  | nil => exact fun s hs => absurd hs List.not_mem_nil
  | append_singleton ts t ih =>
      intro s hs
      rw [askAll_eq, run_snoc, ← askAll_eq] at hs
      have hdrop {r : ℚ} (hr : r ∈ (askAll cfg ts).queue.dropWhile (· < t - cfg.reqWindowS)) :
          r ∈ ts ++ [t] :=
        List.mem_append_left _ (ih r ((List.dropWhile_sublist _).subset hr))
      unfold Log.ask allows at hs
      dsimp only at hs
      split_ifs at hs
      · exact hdrop hs
      · rcases List.mem_append.mp hs with hs | hs
        · exact hdrop hs
        · exact List.mem_append_right _ hs

/-- With doubles the calls of a session are answered alike. -/
theorem askAll_rounded (hround : IsRounding 53 round) (hts : ∀ t ∈ ts, IsReading t) :
    askAllRounded round cfg ts = askAll cfg ts := by
  induction ts using List.reverseRecOn with
  | nil => rfl
  | append_singleton ts t ih =>
      have hbefore := ih fun s hs => hts s (List.mem_append_left _ hs)
      have hqueue : ∀ s ∈ (askAll cfg ts).queue, 0 ≤ s := fun s hs =>
        (hts s (List.mem_append_left _ (queue_subset cfg ts s hs))).nonneg
      have ht : IsReading t := hts t (List.mem_append_right _ List.mem_cons_self)
      have hone : allowRequestNowRounded round cfg t (askAll cfg ts).queue =
          allowRequestNow cfg t (askAll cfg ts).queue := allowRequestNow_rounded hround ht hqueue
      unfold askAllRounded askAll at hbefore hone ⊢
      rw [List.foldl_concat, List.foldl_concat, hbefore, ask, hone]

end

/-! ### The requests of a connection -/

/-- A frame for which the loop asks the limiter. -/
def isLimited (frame : Bytes) : Bool :=
  isControlPlaneRateLimited ((parseFrameIdentity frame).map fun id => id.2.2)

section
variable (env : Env) (cfg : LoopConfig)

/-- The frames that the `for` loop takes up: the clock as it is read for the frame, and
whether it is a request of the control plane that is handed on. -/
def readingsOf (frames : ℕ → ℚ × Outside) : ℕ → List Bytes → Loop → List (ℚ × Bool)
  | _, [], _ => []
  | i, frame :: rest, l =>
      let next := passOne env cfg (frames i).1 (frames i).2 frame l
      ((frames i).1, isLimited frame && decide (l.passed.length < next.passed.length)) ::
        if next.isOpen then readingsOf frames (i + 1) rest next else []

/-- The frames of one iteration. -/
def readingsIn (l : Loop) (it : Iteration) : List (ℚ × Bool) :=
  if !l.isOpen then []
  else if l.world.session.handshake.verified = false ∧
      cfg.handshakeTimeoutS ≤ it.now - l.world.session.connectedAt then []
  else
    match it.outcome with
    | .timeout => []
    | .broken _ => []
    | .chunk data frames =>
        if data = [] then []
        else
          match (l.framer.feed data).1 with
          | none => []
          | some units => readingsOf env cfg frames 0 units
              { l with
                world := (markActivity ⟨env, it.out⟩ l.world).2
                framer := (l.framer.feed data).2 }

/-- The frames of a connection. -/
def readings : Loop → List Iteration → List (ℚ × Bool)
  | _, [] => []
  | l, it :: its => readingsIn env cfg l it ++ readings (iterate env cfg l it) its

end

/-- The times of the requests of the control plane that were handed on. -/
def served (rs : List (ℚ × Bool)) : List ℚ := (rs.filter (·.2)).map (·.1)

/-- The limiter has let in what has been served. -/
def Limits (cfg : LoopConfig) (rs : List (ℚ × Bool)) (l : Loop) : Prop :=
  ∃ g : Log ℚ, g.queue = l.requestTimestamps ∧ g.accepted = served rs ∧
    ∀ now, (∀ r ∈ rs, r.1 ≤ now) → Tracks cfg.maxReqPerWindow (cfg.reqWindowS : ℚ) now g

section
variable {env : Env} {cfg : LoopConfig} {rs : List (ℚ × Bool)} {l l' : Loop} {now : ℚ} {o : Outside}
  {frame : Bytes}

theorem limits_same (h : Limits cfg rs l) (hsame : l'.requestTimestamps = l.requestTimestamps) :
    Limits cfg rs l' := by
  obtain ⟨g, hqueue, haccepted, htracks⟩ := h
  exact ⟨g, hqueue.trans hsame.symm, haccepted, htracks⟩

theorem requestTimestamps_pass :
    (ReadLoop.pass env now o frame l).requestTimestamps = l.requestTimestamps := by
  unfold ReadLoop.pass
  dsimp only
  split
  · rfl
  · rfl

theorem served_snoc (rs : List (ℚ × Bool)) (now : ℚ) (b : Bool) :
    served (rs ++ [(now, b)]) = if b then served rs ++ [now] else served rs := by
  unfold served
  rw [List.filter_append, List.map_append]
  rcases b with _ | _
  · simp
  · simp

/-- A frame that the limiter is not asked about. -/
theorem limits_snoc (h : Limits cfg rs l) (hsame : l'.requestTimestamps = l.requestTimestamps) :
    Limits cfg (rs ++ [(now, false)]) l' := by
  obtain ⟨g, hqueue, haccepted, htracks⟩ := h
  refine ⟨g, hqueue.trans hsame.symm, ?_, fun later hlater => htracks later fun r hr => ?_⟩
  · rw [haccepted, served_snoc, if_neg (by decide)]
  · exact hlater r (List.mem_append_left _ hr)

/-- A frame that the limiter is asked about. -/
theorem limits_ask (h : Limits cfg rs l) (hnow : ∀ r ∈ rs, r.1 ≤ now)
    (hnext : l'.requestTimestamps = (allowRequestNow cfg now l.requestTimestamps).2) :
    Limits cfg (rs ++ [(now, (allowRequestNow cfg now l.requestTimestamps).1)]) l' := by
  obtain ⟨g, hqueue, haccepted, htracks⟩ := h
  refine ⟨ask cfg g now, ?_, ?_, fun later hlater => ?_⟩
  · rw [hnext, ← hqueue]
    rfl
  · rw [served_snoc, ← haccepted, ← hqueue]
    rfl
  · have hle : now ≤ later := hlater _ (List.mem_append_right _ List.mem_cons_self)
    exact (htracks now hnow).ask.mono hle

/-- The three ways of a frame in the body of the `for` loop. -/
theorem passOne_cases (env : Env) (cfg : LoopConfig) (now : ℚ) (o : Outside) (frame : Bytes)
    (l : Loop) :
    (isLimited frame = false ∧ passOne env cfg now o frame l = ReadLoop.pass env now o frame l) ∨
    (isLimited frame = true ∧ (allowRequestNow cfg now l.requestTimestamps).1 = true ∧
      passOne env cfg now o frame l = ReadLoop.pass env now o frame
        { l with requestTimestamps := (allowRequestNow cfg now l.requestTimestamps).2 }) ∨
    (isLimited frame = true ∧ (allowRequestNow cfg now l.requestTimestamps).1 = false ∧
      passOne env cfg now o frame l = leave env o
        { l with
          world := reportRateLimit env o frame (noteReason "request_rate_limited" l.world)
          requestTimestamps := (allowRequestNow cfg now l.requestTimestamps).2 }) := by
  rcases hlimited : isLimited frame with _ | _
  · exact .inl ⟨rfl, if_neg (Bool.eq_false_iff.mp hlimited)⟩
  · have hif : passOne env cfg now o frame l = _ := if_pos hlimited
    rcases hallowed : (allowRequestNow cfg now l.requestTimestamps).1 with _ | _
    · exact .inr (.inr ⟨rfl, rfl, hif.trans (if_neg (Bool.eq_false_iff.mp hallowed))⟩)
    · exact .inr (.inl ⟨rfl, rfl, hif.trans (if_pos hallowed)⟩)

theorem limits_passOne (env : Env) (o : Outside) (frame : Bytes) (h : Limits cfg rs l)
    (hnow : ∀ r ∈ rs, r.1 ≤ now) :
    Limits cfg (rs ++ [(now, isLimited frame &&
        decide (l.passed.length < (passOne env cfg now o frame l).passed.length))])
      (passOne env cfg now o frame l) := by
  have hasked : Limits cfg _ { l with
    requestTimestamps := (allowRequestNow cfg now l.requestTimestamps).2 } := limits_ask h hnow rfl
  rcases passOne_cases env cfg now o frame l with
    ⟨hlimited, heq⟩ | ⟨hlimited, hallowed, heq⟩ | ⟨hlimited, hrefused, heq⟩
  · rw [heq, hlimited, Bool.false_and]
    exact limits_snoc h requestTimestamps_pass
  · have hpassed : l.passed.length < (passOne env cfg now o frame l).passed.length := by
      rw [heq, passed_pass, List.length_append]
      exact Nat.lt_succ_self _
    rw [hallowed] at hasked
    rw [decide_eq_true hpassed, heq, hlimited]
    exact limits_same hasked requestTimestamps_pass
  · have hkept : ¬ l.passed.length < (passOne env cfg now o frame l).passed.length := by
      rw [heq]
      exact Nat.lt_irrefl _
    rw [hrefused] at hasked
    rw [decide_eq_false hkept, heq, hlimited]
    exact limits_same hasked rfl

/-- Readings that go on from earlier ones are not before them. -/
theorem later_head {r : ℚ × Bool} {rest : List (ℚ × Bool)}
    (h : ((rs ++ r :: rest).map Prod.fst).Pairwise (· ≤ ·)) : ∀ s ∈ rs, s.1 ≤ r.1 := by
  intro s hs
  rw [List.map_append, List.map_cons, List.pairwise_append] at h
  exact h.2.2 s.1 (List.mem_map_of_mem hs) r.1 List.mem_cons_self

theorem limits_passFrames {frames : ℕ → ℚ × Outside} (units : List Bytes) (i : ℕ)
    (h : Limits cfg rs l)
    (hclock : ((rs ++ readingsOf env cfg frames i units l).map Prod.fst).Pairwise (· ≤ ·)) :
    Limits cfg (rs ++ readingsOf env cfg frames i units l)
      (passFrames env cfg frames i units l) := by
  induction units generalizing i l rs with
  | nil =>
      rw [readingsOf, List.append_nil]
      exact h
  | cons frame rest ih =>
      rw [readingsOf] at hclock ⊢
      rw [passFrames]
      have hone := limits_passOne env (frames i).2 frame h (later_head hclock)
      split_ifs at hclock ⊢ with hopen
      · rw [List.append_cons] at hclock ⊢
        exact ih (i + 1) hone hclock
      · exact hone

theorem limits_iterate {it : Iteration} (h : Limits cfg rs l)
    (hclock : ((rs ++ readingsIn env cfg l it).map Prod.fst).Pairwise (· ≤ ·)) :
    Limits cfg (rs ++ readingsIn env cfg l it) (iterate env cfg l it) := by
  unfold iterate
  unfold readingsIn at hclock ⊢
  split_ifs at hclock ⊢
  · rw [List.append_nil]
    exact h
  · rw [List.append_nil]
    exact limits_same h rfl
  · rcases houtcome : it.outcome with _ | ⟨data, frames⟩ | reason
    · rw [List.append_nil]
      dsimp only
      split
      · exact limits_same h rfl
      · exact limits_same h rfl
    · rw [houtcome] at hclock
      unfold receive
      dsimp only at hclock ⊢
      split_ifs at hclock ⊢
      · rw [List.append_nil]
        exact limits_same h rfl
      · rcases hfed : (l.framer.feed data).1 with _ | units
        · rw [List.append_nil]
          exact limits_same h rfl
        · rw [hfed] at hclock
          exact limits_passFrames units 0 (limits_same h rfl) hclock
    · rw [List.append_nil]
      exact limits_same h rfl

theorem limits_run (its : List Iteration) (h : Limits cfg rs l)
    (hclock : ((rs ++ readings env cfg l its).map Prod.fst).Pairwise (· ≤ ·)) :
    Limits cfg (rs ++ readings env cfg l its) (run (iterate env cfg) l its) := by
  induction its generalizing l rs with
  | nil =>
      rw [readings, List.append_nil]
      exact h
  | cons it its ih =>
      rw [readings, ← List.append_assoc] at hclock ⊢
      rw [run_cons]
      refine ih (limits_iterate h ?_) hclock
      rw [List.map_append] at hclock
      exact (List.pairwise_append.mp hclock).1

end

/-- A session that has been asked nothing. -/
theorem limits_nil {cfg : LoopConfig} {l : Loop} (h : l.requestTimestamps = []) : Limits cfg [] l :=
  ⟨{}, h.symm, rfl, fun _ _ => tracks_nil⟩

/-- On calls in order of time the limiter answers by the requests let in during the
window, whatever it has forgotten; on every connection whose clock does not go back, a
closed interval as long as the window has at most the allowed number of requests. -/
theorem burst_limit_exact (cfg : LoopConfig) :
    (∀ (ts : List ℚ) (now : ℚ), (ts ++ [now]).Pairwise (· ≤ ·) → ExactLimit cfg ts now) ∧
    ∀ (env : Env) (connectionId : String) (connected : ℚ) (store : ClientStore.Store)
      (files : FileSystem) (limiter : UploadLimiter) (framer : Framer) (its : List Iteration),
      let rs := readings env cfg (begin connectionId connected store files limiter framer) its
      (rs.map Prod.fst).Pairwise (· ≤ ·) →
        ∀ a : ℚ, (inside a (a + cfg.reqWindowS) (served rs)).length ≤ cfg.maxReqPerWindow := by
  refine ⟨fun ts now h => exactLimit cfg h, ?_⟩
  intro env connectionId connected store files limiter framer its rs hclock a
  have hnil : Limits cfg [] (begin connectionId connected store files limiter framer) :=
    limits_nil rfl
  obtain ⟨g, -, haccepted, htracks⟩ := limits_run its hnil hclock
  rw [List.nil_append] at haccepted htracks
  rw [← haccepted]
  -- a time after every reading
  obtain ⟨now, hnow⟩ : ∃ now : ℚ, ∀ r ∈ rs, r.1 ≤ now := by
    rcases List.eq_nil_or_concat rs with hnil | ⟨front, r, hlast⟩
    · refine ⟨0, fun r hr => ?_⟩
      rw [hnil] at hr
      cases hr
    · refine ⟨r.1, fun s hs => ?_⟩
      rw [hlast, List.concat_eq_append] at hs
      have hsorted := hclock
      rw [hlast, List.concat_eq_append] at hsorted
      rcases List.mem_append.mp hs with hs | hs
      · exact later_head hsorted s hs
      · rw [List.mem_singleton.mp hs]
  exact (htracks now hnow).sparse a

/-- Two requests in five seconds: the third is turned away, also on the edge of the
window, and a handshake of two messages in one piece is cut off after the first. -/
theorem burst_limit_exact_two :
    let cfg : LoopConfig := { maxReqPerWindow := 2, reqWindowS := 5 }
    let one : LoopConfig := { maxReqPerWindow := 1 }
    let rs := readings UploadSlot.plainEnv one aliceLoop [arrive 0 1 (aliceBytes 2)]
    ExactLimit cfg [0, 1, 2] 5 ∧ (allowRequestNow cfg 5 (askAll cfg [0, 1, 2]).queue).1 = false ∧
      ExactLimit cfg [0, 1, 2, 5] 6 ∧ served rs = [1] ∧
        (inside 1 (1 + 5) (served rs)).length ≤ 1 := by
  intro cfg one rs
  have hlimit := burst_limit_exact cfg
  refine ⟨hlimit.1 _ _ (by decide +kernel), by decide +kernel, hlimit.1 _ _ (by decide +kernel),
    by decide +kernel, ?_⟩
  exact (burst_limit_exact one).2 UploadSlot.plainEnv "c1" 0 UploadSlot.aliceWorld.store
    UploadSlot.aliceWorld.files UploadSlot.aliceWorld.limiter ⟨10000000, by decide, []⟩
    [arrive 0 1 (aliceBytes 2)] (by decide +kernel) 1

end Seftp.RequestRate
