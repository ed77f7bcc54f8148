import Seftp.CompletionHandlers

/-!
# The asynchronous C++ server

`async_server.hpp`. One accept after another is issued; a connection that is accepted is
started and remembered by a weak pointer, or refused when as many as allowed are still
remembered after the dead have been dropped. A failed accept is issued again after a
delay. The handlers run one after the other on the server's strand, while connections
end on theirs: an ending inside a handler is one before or after it.

The live connections are always among the remembered ones, so there are never too many
of them and `stop_impl` asks every one of them to stop.
-/
namespace Seftp.ServerStrand
open EventRuns CompletionHandlers

def kDefaultMaxActiveConnections : ℕ := 128

/-- The members of the class. Connections are numbered as they are made; `live` are
those that still have an owner. The handlers of accepts and of retry waits that are
pending are counted, and so are all that were ever started; `asked` are the connections
that were told to stop. -/
structure AsyncServer where
  connections : List ℕ := []
  maxActiveConnections : ℕ := kDefaultMaxActiveConnections
  stopped : Bool := false
  live : List ℕ := []
  accepts : ℕ := 0
  retries : ℕ := 0
  startedConnections : ℕ := 0
  issuedAccepts : ℕ := 0
  armedRetries : ℕ := 0
  asked : List ℕ := []
  deriving DecidableEq, Repr

/-! ### Operations -/

def acceptNext (s : AsyncServer) : AsyncServer :=
  if s.stopped then s
  else { s with accepts := s.accepts + 1, issuedAccepts := s.issuedAccepts + 1 }

def pruneExpiredConnections (s : AsyncServer) : AsyncServer :=
  { s with connections := s.connections.filter (· ∈ s.live) }

/-- `lock` succeeds for the connections that live. -/
def stopImpl (s : AsyncServer) : AsyncServer :=
  if s.stopped then s
  else { s with
    stopped := true
    asked := s.asked ++ s.connections.filter (· ∈ s.live)
    connections := [] }

def startImpl (s : AsyncServer) : AsyncServer :=
  if s.stopped then s else acceptNext s

def scheduleAcceptRetry (s : AsyncServer) : AsyncServer :=
  { s with retries := s.retries + 1, armedRetries := s.armedRetries + 1 }

/-- `make_shared`, `push_back` and `start`. -/
def startConnection (s : AsyncServer) : AsyncServer :=
  { s with
    connections := s.connections ++ [s.startedConnections]
    live := s.live ++ [s.startedConnections]
    startedConnections := s.startedConnections + 1 }

/-! ### Handlers -/

/-- The handler of `accept_next`. A socket that is not kept is closed. -/
def onAccept (ec : Option ErrorCode) (s : AsyncServer) : AsyncServer :=
  if ec.isSome then
    if s.stopped then s else scheduleAcceptRetry s
  else if s.stopped then s
  else
    let s := pruneExpiredConnections s
    if s.maxActiveConnections ≤ s.connections.length then acceptNext s
    else acceptNext (startConnection s)

/-- The handler of `schedule_accept_retry`. -/
def onRetry (ec : Option ErrorCode) (s : AsyncServer) : AsyncServer :=
  if ec.isSome then s
  else if s.stopped then s
  else acceptNext s

inductive Event where
  | start
  | stop
  | accepted (ec : Option ErrorCode)
  | retry (ec : Option ErrorCode)
  | ended (connection : ℕ)
  deriving DecidableEq, Repr

/-- An event whose handler is not pending does nothing. -/
def step (s : AsyncServer) : Event → AsyncServer
  | .start => startImpl s
  | .stop => stopImpl s
  | .accepted ec => if s.accepts = 0 then s else onAccept ec { s with accepts := s.accepts - 1 }
  | .retry ec => if s.retries = 0 then s else onRetry ec { s with retries := s.retries - 1 }
  | .ended connection => { s with live := s.live.erase connection }

/-! ### The connections that are remembered -/

/-- Until the stop every live connection is remembered, and there are not too many. -/
structure Tracks (max : ℕ) (s : AsyncServer) : Prop where
  limit : s.maxActiveConnections = max
  tracked : s.stopped = false → s.live.Sublist s.connections
  remembered : s.connections.length ≤ max
  bounded : s.live.length ≤ max

section
variable {max : ℕ} {s : AsyncServer}

theorem tracks_acceptNext (h : Tracks max s) : Tracks max (acceptNext s) := by
  unfold acceptNext
  split_ifs
  · exact h
  · exact ⟨h.limit, h.tracked, h.remembered, h.bounded⟩

theorem tracks_prune (h : Tracks max s) : Tracks max (pruneExpiredConnections s) := by
  refine ⟨h.limit, fun hopen => ?_, (List.length_filter_le _ _).trans h.remembered, h.bounded⟩
  have hall : s.live.filter (· ∈ s.live) = s.live :=
    List.filter_eq_self.mpr fun id hid => decide_eq_true hid
  have hsub := (h.tracked hopen).filter (· ∈ s.live)
  rwa [hall] at hsub

/-- There is room for one more. -/
theorem tracks_startConnection (h : Tracks max s) (hopen : s.stopped = false)
    (hroom : s.connections.length < max) : Tracks max (startConnection s) := by
  have hle := (h.tracked hopen).length_le
  refine ⟨h.limit, fun _ => (h.tracked hopen).append (.refl _), ?_, ?_⟩
  · simp only [startConnection, List.length_append, List.length_singleton]
    omega
  · simp only [startConnection, List.length_append, List.length_singleton]
    omega

theorem tracks_onAccept (h : Tracks max s) (ec : Option ErrorCode) :
    Tracks max (onAccept ec s) := by
  have hprune := tracks_prune h
  unfold onAccept
  dsimp only
  split_ifs with he hs hs hfull
  · exact h
  · exact ⟨h.limit, h.tracked, h.remembered, h.bounded⟩
  · exact h
  · exact tracks_acceptNext hprune
  · rw [hprune.limit] at hfull
    exact tracks_acceptNext
      (tracks_startConnection hprune (Bool.eq_false_iff.mpr hs) (Nat.not_le.mp hfull))

theorem tracks_stopImpl (h : Tracks max s) : Tracks max (stopImpl s) := by
  unfold stopImpl
  split_ifs
  · exact h
  · refine ⟨h.limit, fun hopen => ?_, Nat.zero_le _, h.bounded⟩
    cases hopen

theorem tracks_step (h : Tracks max s) (e : Event) : Tracks max (step s e) := by
  cases e with
  | start =>
      rw [step, startImpl]
      split_ifs
      · exact h
      · exact tracks_acceptNext h
  | stop => exact tracks_stopImpl h
  | accepted ec =>
      have hless : Tracks max { s with accepts := s.accepts - 1 } :=
        ⟨h.limit, h.tracked, h.remembered, h.bounded⟩
      rw [step]
      split_ifs
      · exact h
      · exact tracks_onAccept hless ec
  | retry ec =>
      have hless : Tracks max { s with retries := s.retries - 1 } :=
        ⟨h.limit, h.tracked, h.remembered, h.bounded⟩
      rw [step, onRetry]
      split_ifs
      · exact h
      · exact hless
      · exact hless
      · exact tracks_acceptNext hless
  | ended connection =>
      exact ⟨h.limit, fun hopen => List.erase_sublist.trans (h.tracked hopen), h.remembered,
        List.erase_sublist.length_le.trans h.bounded⟩

end

/-! ### After the stop -/

/-- Nothing is started. -/
structure Rests (s d : AsyncServer) : Prop where
  stopped : d.stopped = s.stopped
  startedConnections : d.startedConnections = s.startedConnections
  issuedAccepts : d.issuedAccepts = s.issuedAccepts
  armedRetries : d.armedRetries = s.armedRetries

instance : Std.Refl Rests where
  refl _ := ⟨rfl, rfl, rfl, rfl⟩

instance : IsTrans AsyncServer Rests where
  trans _ _ _ h k := ⟨k.stopped.trans h.stopped, k.startedConnections.trans h.startedConnections,
    k.issuedAccepts.trans h.issuedAccepts, k.armedRetries.trans h.armedRetries⟩

theorem step_rests {s : AsyncServer} (h : s.stopped) (e : Event) : Rests s (step s e) := by
  cases e with
  | start =>
      rw [step, startImpl, if_pos h]
      exact Std.Refl.refl s
  | stop =>
      rw [step, stopImpl, if_pos h]
      exact Std.Refl.refl s
  | accepted ec =>
      rw [step, onAccept, if_pos h, if_pos h, ite_self]
      split_ifs
      · exact Std.Refl.refl s
      · exact ⟨rfl, rfl, rfl, rfl⟩
  | retry ec =>
      rw [step, onRetry, if_pos h, ite_self]
      split_ifs
      · exact Std.Refl.refl s
      · exact ⟨rfl, rfl, rfl, rfl⟩
  | ended connection => exact ⟨rfl, rfl, rfl, rfl⟩

/-- The stop asks the live connections that are remembered. -/
theorem mem_asked_stopImpl {s : AsyncServer} {id : ℕ} (hopen : s.stopped = false)
    (hlive : id ∈ s.live) (htracked : id ∈ s.connections) : id ∈ (stopImpl s).asked := by
  rw [stopImpl, if_neg (by rw [hopen]; exact Bool.false_ne_true)]
  refine List.mem_append_right _ (List.mem_filter.mpr ⟨htracked, ?_⟩)
  exact decide_eq_true hlive

/-- After every run of the server's strand: the live connections are within the limit;
as long as `stop_impl` has not run they are remembered and it would ask them all to
stop; and once it has run, whatever runs after it starts no connection, issues no accept
and arms no retry. -/
theorem bounded_admission_and_shutdown (maxActiveConnections : ℕ) (es : List Event) :
    (run step { maxActiveConnections } es).live.length ≤ maxActiveConnections ∧
    ((run step { maxActiveConnections } es).stopped = false →
      ∀ id ∈ (run step { maxActiveConnections } es).live,
        id ∈ (run step { maxActiveConnections } es).connections ∧
          id ∈ (run step { maxActiveConnections } (es ++ [.stop])).asked) ∧
    ((run step { maxActiveConnections } es).stopped → ∀ fs,
      Rests (run step { maxActiveConnections } es)
        (run step { maxActiveConnections } (es ++ fs))) := by
  have htracks : Tracks maxActiveConnections (run step { maxActiveConnections } es) :=
    invariant_run es ⟨rfl, fun _ => .slnil, Nat.zero_le _, Nat.zero_le _⟩
      fun _ e h => tracks_step h e
  refine ⟨htracks.bounded, fun hopen id hid => ?_, fun hstopped fs => ?_⟩
  · have hmem := (htracks.tracked hopen).subset hid
    rw [run_append]
    exact ⟨hmem, mem_asked_stopImpl hopen hid hmem⟩
  · rw [run_append]
    refine related_run (I := fun s => s.stopped = true) fs hstopped fun s e hs => ?_
    have hrests := step_rests hs e
    exact ⟨hrests.stopped.trans hs, hrests⟩

/-- With room for one connection, two are accepted: the second is refused, and once the
first has ended the third takes its place. -/
example : (run step { maxActiveConnections := 1 }
    [.start, .accepted none, .accepted none, .ended 0, .accepted none]).live = [1] := by decide

end Seftp.ServerStrand
