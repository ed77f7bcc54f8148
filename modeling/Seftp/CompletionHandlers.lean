import Seftp.EventRuns
import Seftp.NativeConnection

/-!
# The asynchronous connection of the C++ server

`async_connection.hpp`. The handlers of one connection run one after the other on its
strand, in whatever order they become ready: a read or a write with any result, a wait
once it has been queued. A wait that is cancelled or armed anew before its expiry is
queued as aborted; one that is already queued stays as it is. Every pending handler
holds the object.

After `stop_impl` the handlers that are left change nothing and start nothing. A wait
that was queued by its expiry before the handler of its read could cancel it stops the
connection although the read has completed.
-/
namespace Seftp.CompletionHandlers
open LittleEndian EventRuns NativeFrames NativeConnection

inductive ErrorCode where
  | eof | operationAborted | other (value : ℕ)
  deriving DecidableEq, Repr

/-- What a read is to fill. -/
inductive ReadPart where
  | header
  | payload (size : ℕ)
  deriving DecidableEq, Repr

def ReadPart.size : ReadPart → ℕ
  | .header => kRequestHeaderSize
  | .payload n => n

inductive WaitState where
  | armed
  | queued (ec : Option ErrorCode)
  deriving DecidableEq, Repr

/-- A wait of the timer, with the number of the read it was armed for. -/
structure Wait where
  read : ℕ
  state : WaitState
  deriving DecidableEq, Repr

/-- The members of the class and its pending operations: reads by number, writes and
waits. `started` counts the reads, `sent` is what was handed to the socket with the
session at that time. -/
structure AsyncConnection where
  headerBuffer : Bytes := List.replicate kRequestHeaderSize 0
  frameBuffer : Bytes := []
  session : SessionState := .awaitingClientHello
  writeBuffer : Bytes := []
  stopped : Bool := false
  reads : List (ℕ × ReadPart) := []
  writes : ℕ := 0
  waits : List Wait := []
  started : ℕ := 0
  sent : List (Bytes × SessionState) := []
  deriving DecidableEq, Repr

/-! ### Operations -/

/-- The effect of cancelling the timer on one of its waits. -/
def Wait.cancelled (w : Wait) : Wait :=
  if w.state = .armed then { w with state := .queued (some .operationAborted) } else w

def cancelReadTimeout (c : AsyncConnection) : AsyncConnection :=
  { c with waits := c.waits.map Wait.cancelled }

/-- `expires_after` cancels the waits there are. -/
def armReadTimeout (c : AsyncConnection) : AsyncConnection :=
  { c with waits := c.waits.map Wait.cancelled ++ [⟨c.started, .armed⟩] }

/-- The timer and `async_read` for one part of a frame. -/
def startRead (part : ReadPart) (c : AsyncConnection) : AsyncConnection :=
  { armReadTimeout c with reads := c.reads ++ [(c.started, part)], started := c.started + 1 }

def readHeader (c : AsyncConnection) : AsyncConnection :=
  if c.stopped then c else startRead .header c

def readPayload (payloadSize : ℕ) (c : AsyncConnection) : AsyncConnection :=
  if c.stopped then c else startRead (.payload payloadSize) c

/-- The socket is closed with it: what is pending on it completes with some result. -/
def stopImpl (c : AsyncConnection) : AsyncConnection :=
  if c.stopped then c else { cancelReadTimeout c with stopped := true }

def startImpl (c : AsyncConnection) : AsyncConnection :=
  if c.stopped then c else readHeader c

def writeResponse (response : Bytes) (c : AsyncConnection) : AsyncConnection :=
  if c.stopped then c
  else { c with
    writeBuffer := response
    writes := c.writes + 1
    sent := c.sent ++ [(response, c.session)] }

/-- A frame that does not parse is dropped. -/
def processFrame (c : AsyncConnection) : AsyncConnection :=
  match parseRequestFrame c.frameBuffer with
  | .error _ => c
  | .ok request =>
      writeResponse (exchange c.session request).1
        { c with session := (exchange c.session request).2 }

/-- `std::vector::resize`. -/
def resize (n : ℕ) (bytes : Bytes) : Bytes := bytes.take n ++ List.replicate (n - bytes.length) 0

/-! ### Handlers -/

/-- The bytes of a read stand in its buffer. -/
def filled (part : ReadPart) (data : Bytes) (c : AsyncConnection) : AsyncConnection :=
  match part with
  | .header => { c with headerBuffer := data ++ c.headerBuffer.drop data.length }
  | .payload _ => { c with
      frameBuffer := c.frameBuffer.take kRequestHeaderSize ++ data ++
        c.frameBuffer.drop (kRequestHeaderSize + data.length) }

/-- What follows a complete header: too much is dropped without a word. -/
def onHeader (c : AsyncConnection) : AsyncConnection :=
  let payloadSize := leNat ((c.headerBuffer.drop kPayloadSizeOffset).take 4)
  if kDefaultMaxPayloadSize < payloadSize then c
  else
    let c := { c with
      frameBuffer := c.headerBuffer ++
        (resize (kRequestHeaderSize + payloadSize) c.frameBuffer).drop kRequestHeaderSize }
    if payloadSize = 0 then processFrame c else readPayload payloadSize c

/-- The handler of `read_header`. Its two error branches differ in what they log. -/
def onReadHeader (ec : Option ErrorCode) (c : AsyncConnection) : AsyncConnection :=
  let c := cancelReadTimeout c
  if ec.isSome then
    if c.stopped then c else stopImpl c
  else if c.stopped then c
  else onHeader c

/-- The handler of `read_payload`. After an error nothing is left to do. -/
def onReadPayload (ec : Option ErrorCode) (c : AsyncConnection) : AsyncConnection :=
  let c := cancelReadTimeout c
  if ec.isSome then c
  else if c.stopped then c
  else processFrame c

def onRead (part : ReadPart) (ec : Option ErrorCode) (c : AsyncConnection) : AsyncConnection :=
  match part with
  | .header => onReadHeader ec c
  | .payload _ => onReadPayload ec c

/-- The handler of `write_response`. -/
def onWrite (ec : Option ErrorCode) (c : AsyncConnection) : AsyncConnection :=
  if ec.isSome then c
  else if c.stopped then c
  else readHeader c

/-- The handler of `arm_read_timeout`. -/
def onWait (ec : Option ErrorCode) (c : AsyncConnection) : AsyncConnection :=
  if ec = some .operationAborted then c
  else if ec.isSome then c
  else if c.stopped then c
  else stopImpl c

/-! ### Events -/

/-- What can happen on the strand, and the expiry of a wait, which queues it. -/
inductive Event where
  | start
  | stop
  | read (number : ℕ) (ec : Option ErrorCode) (data : Bytes)
  | write (ec : Option ErrorCode)
  | expire (number : ℕ) (ec : Option ErrorCode)
  | wait (number : ℕ)
  deriving DecidableEq, Repr

/-- `async_read` succeeds when its buffer is full. -/
def ReadPart.Completes (part : ReadPart) (ec : Option ErrorCode) (data : Bytes) : Prop :=
  data.length ≤ part.size ∧ (ec = none → data.length = part.size)

instance (part : ReadPart) (ec : Option ErrorCode) (data : Bytes) :
    Decidable (part.Completes ec data) := inferInstanceAs (Decidable (_ ∧ _))

/-- A wait that is queued can run. -/
def Wait.runnable (number : ℕ) (w : Wait) : Bool := w.read = number && w.state ≠ .armed

def Wait.expired (number : ℕ) (ec : Option ErrorCode) (w : Wait) : Wait :=
  if w.read = number ∧ w.state = .armed then { w with state := .queued ec } else w

/-- The result a queued wait runs with. -/
def WaitState.result : WaitState → Option ErrorCode
  | .armed => none
  | .queued ec => ec

/-- The handler of read `number`. -/
def completeRead (number : ℕ) (part : ReadPart) (ec : Option ErrorCode) (data : Bytes)
    (c : AsyncConnection) : AsyncConnection :=
  onRead part ec (filled part data { c with reads := c.reads.eraseP (·.1 = number) })

/-- The handler of wait `number`. -/
def completeWait (number : ℕ) (ec : Option ErrorCode) (c : AsyncConnection) : AsyncConnection :=
  onWait ec { c with waits := c.waits.eraseP (Wait.runnable number) }

/-- An event whose handler is not pending does nothing. -/
def step (c : AsyncConnection) : Event → AsyncConnection
  | .start => startImpl c
  | .stop => stopImpl c
  | .read number ec data =>
      match c.reads.find? (·.1 = number) with
      | none => c
      | some (_, part) => if part.Completes ec data then completeRead number part ec data c else c
  | .write ec => if c.writes = 0 then c else onWrite ec { c with writes := c.writes - 1 }
  | .expire number ec => { c with waits := c.waits.map (Wait.expired number ec) }
  | .wait number =>
      match c.waits.find? (Wait.runnable number) with
      | none => c
      | some w => completeWait number w.state.result c

/-- The handlers that are pending: each holds the object by a shared pointer. -/
def owners (c : AsyncConnection) : ℕ := c.reads.length + c.writes + c.waits.length

/-- The event runs a pending handler. -/
def Pending (c : AsyncConnection) : Event → Prop
  | .read number ec data => ∃ part, c.reads.find? (·.1 = number) = some (number, part) ∧
      part.Completes ec data
  | .write _ => 0 < c.writes
  | .wait number => ∃ w ∈ c.waits, w.runnable number
  | .start | .stop | .expire _ _ => False

/-! ### What an operation leaves -/

section
variable (c : AsyncConnection)

@[simp] theorem stopped_cancelReadTimeout : (cancelReadTimeout c).stopped = c.stopped := rfl

@[simp] theorem stopped_filled (part : ReadPart) (data : Bytes) :
    (filled part data c).stopped = c.stopped := by
  cases part <;> rfl

@[simp] theorem reads_filled (part : ReadPart) (data : Bytes) :
    (filled part data c).reads = c.reads := by
  cases part <;> rfl

@[simp] theorem waits_filled (part : ReadPart) (data : Bytes) :
    (filled part data c).waits = c.waits := by
  cases part <;> rfl

theorem stopped_readHeader : (readHeader c).stopped = c.stopped := by
  unfold readHeader
  split <;> rfl

theorem stopped_readPayload (n : ℕ) : (readPayload n c).stopped = c.stopped := by
  unfold readPayload
  split <;> rfl

theorem processFrame_pending :
    (processFrame c).reads = c.reads ∧ (processFrame c).waits = c.waits ∧
      (processFrame c).stopped = c.stopped := by
  unfold processFrame
  split
  · exact ⟨rfl, rfl, rfl⟩
  · unfold writeResponse
    split
    · exact ⟨rfl, rfl, rfl⟩
    · exact ⟨rfl, rfl, rfl⟩

theorem stopped_onHeader : (onHeader c).stopped = c.stopped := by
  unfold onHeader
  dsimp only
  split_ifs
  · rfl
  · exact (processFrame_pending _).2.2
  · exact stopped_readPayload _ _

end

/-! ### After the stop -/

section
variable {c : AsyncConnection}

theorem stopImpl_stopped (h : c.stopped) : stopImpl c = c := if_pos h

/-- The timer is cancelled once more; nothing else follows a read. -/
theorem onRead_stopped (h : c.stopped) (part : ReadPart) (ec : Option ErrorCode) :
    onRead part ec c = cancelReadTimeout c := by
  have h' : (cancelReadTimeout c).stopped := h
  cases part with
  | header =>
      rw [onRead, onReadHeader, if_pos h', if_pos h', ite_self]
  | payload n =>
      rw [onRead, onReadPayload, if_pos h', ite_self]

theorem onWrite_stopped (h : c.stopped) (ec : Option ErrorCode) : onWrite ec c = c := by
  rw [onWrite, if_pos h, ite_self]

theorem onWait_stopped (h : c.stopped) (ec : Option ErrorCode) : onWait ec c = c := by
  rw [onWait, if_pos h, ite_self, ite_self]

theorem read_cancelled (w : Wait) : w.cancelled.read = w.read := by
  unfold Wait.cancelled
  split <;> rfl

theorem read_expired (number : ℕ) (ec : Option ErrorCode) (w : Wait) :
    (w.expired number ec).read = w.read := by
  unfold Wait.expired
  split <;> rfl

theorem map_read_cancelled (ws : List Wait) :
    (ws.map Wait.cancelled).map Wait.read = ws.map Wait.read := by
  rw [List.map_map]
  exact List.map_congr_left fun w _ => read_cancelled w

theorem map_read_expired (number : ℕ) (ec : Option ErrorCode) (ws : List Wait) :
    (ws.map (Wait.expired number ec)).map Wait.read = ws.map Wait.read := by
  rw [List.map_map]
  exact List.map_congr_left fun w _ => read_expired number ec w

/-- At most some handlers have gone; a buffer may have been filled and a wait aborted. -/
structure Remains (c d : AsyncConnection) : Prop where
  session : d.session = c.session
  sent : d.sent = c.sent
  writeBuffer : d.writeBuffer = c.writeBuffer
  started : d.started = c.started
  stopped : d.stopped = c.stopped
  reads : d.reads.Sublist c.reads
  writes : d.writes ≤ c.writes
  waits : (d.waits.map Wait.read).Sublist (c.waits.map Wait.read)

instance : Std.Refl Remains where
  refl _ := ⟨rfl, rfl, rfl, rfl, rfl, .refl _, Nat.le_refl _, .refl _⟩

instance : IsTrans AsyncConnection Remains where
  trans _ _ _ h k := ⟨k.session.trans h.session, k.sent.trans h.sent,
    k.writeBuffer.trans h.writeBuffer, k.started.trans h.started, k.stopped.trans h.stopped,
    k.reads.trans h.reads, k.writes.trans h.writes, k.waits.trans h.waits⟩

/-- What an event does to a stopped connection. -/
theorem step_stopped (h : c.stopped) (e : Event) : step c e = match e with
    | .start | .stop => c
    | .read number ec data =>
        match c.reads.find? (·.1 = number) with
        | none => c
        | some (_, part) =>
            if part.Completes ec data then
              cancelReadTimeout (filled part data { c with reads := c.reads.eraseP (·.1 = number) })
            else c
    | .write _ => { c with writes := c.writes - 1 }
    | .expire number ec => { c with waits := c.waits.map (Wait.expired number ec) }
    | .wait number => { c with waits := c.waits.eraseP (Wait.runnable number) } := by
  cases e with
  | start => exact if_pos h
  | stop => exact if_pos h
  | read number ec data =>
      have hrun (part : ReadPart) : completeRead number part ec data c = cancelReadTimeout
          (filled part data { c with reads := c.reads.eraseP (·.1 = number) }) :=
        onRead_stopped (by rwa [stopped_filled]) part ec
      simp only [step, hrun]
  | write ec =>
      simp only [step]
      split_ifs with hw
      · rw [hw]
        exact congrArg (fun n => { c with writes := n }) hw
      · exact onWrite_stopped (c := { c with writes := c.writes - 1 }) h ec
  | expire number ec => rfl
  | wait number =>
      simp only [step]
      rcases hfind : c.waits.find? (Wait.runnable number) with _ | w
      · rw [List.find?_eq_none] at hfind
        rw [List.eraseP_of_forall_not hfind]
      · exact onWait_stopped (c := { c with waits := c.waits.eraseP _ }) h _

theorem step_remains (h : c.stopped) (e : Event) : Remains c (step c e) := by
  rw [step_stopped h]
  cases e with
  | start => exact Std.Refl.refl c
  | stop => exact Std.Refl.refl c
  | read number ec data =>
      dsimp only
      split
      · exact Std.Refl.refl c
      · split_ifs
        · rename_i part _ _
          cases part with
          | header =>
              exact ⟨rfl, rfl, rfl, rfl, rfl, List.eraseP_sublist, Nat.le_refl _,
                map_read_cancelled c.waits ▸ .refl _⟩
          | payload n =>
              exact ⟨rfl, rfl, rfl, rfl, rfl, List.eraseP_sublist, Nat.le_refl _,
                map_read_cancelled c.waits ▸ .refl _⟩
        · exact Std.Refl.refl c
  | write ec => exact ⟨rfl, rfl, rfl, rfl, rfl, .refl _, Nat.sub_le _ _, .refl _⟩
  | expire number ec =>
      refine ⟨rfl, rfl, rfl, rfl, rfl, .refl _, Nat.le_refl _, ?_⟩
      exact (map_read_expired number ec c.waits) ▸ .refl _
  | wait number =>
      exact ⟨rfl, rfl, rfl, rfl, rfl, .refl _, Nat.le_refl _, List.eraseP_sublist.map _⟩

/-- A handler that has run is no longer an owner. -/
theorem owners_step (h : c.stopped) {e : Event} (hp : Pending c e) :
    owners (step c e) + 1 = owners c := by
  cases e with
  | start => cases hp
  | stop => cases hp
  | read number ec data =>
      obtain ⟨part, hfind, hcomplete⟩ := hp
      have hmem := List.mem_of_find?_eq_some hfind
      have hlen := List.length_eraseP_of_mem (p := (·.1 = number)) hmem (decide_eq_true rfl)
      have hpos := List.length_pos_of_mem hmem
      rw [step_stopped h]
      simp only [hfind, if_pos hcomplete, owners, cancelReadTimeout, List.length_map, reads_filled,
        waits_filled, hlen]
      have hwrites : (filled part data { c with reads := c.reads.eraseP (·.1 = number) }).writes =
          c.writes := by
        cases part <;> rfl
      omega
  | write ec =>
      have hw : 0 < c.writes := hp
      rw [step_stopped h, owners, owners]
      dsimp only
      omega
  | expire number ec => cases hp
  | wait number =>
      obtain ⟨w, hmem, hrun⟩ := hp
      have hlen := List.length_eraseP_of_mem hmem hrun
      have hpos := List.length_pos_of_mem hmem
      rw [step_stopped h, owners, owners]
      dsimp only
      omega

/-- With the stop every wait is queued. -/
def Quiet (c : AsyncConnection) : Prop := c.stopped → ∀ w ∈ c.waits, w.state ≠ .armed

theorem cancelled_not_armed (w : Wait) : w.cancelled.state ≠ .armed := by
  unfold Wait.cancelled
  split_ifs with h
  · exact WaitState.noConfusion
  · exact h

theorem expired_not_armed {number : ℕ} {ec : Option ErrorCode} {w : Wait} (h : w.state ≠ .armed) :
    (w.expired number ec).state ≠ .armed := by
  rw [Wait.expired, if_neg fun hw => h hw.2]
  exact h

theorem cancelReadTimeout_not_armed : ∀ w ∈ (cancelReadTimeout c).waits, w.state ≠ .armed := by
  intro w hw
  obtain ⟨v, -, rfl⟩ := List.mem_map.mp hw
  exact cancelled_not_armed v

theorem quiet_stopImpl (h : Quiet c) : Quiet (stopImpl c) := by
  unfold stopImpl
  split_ifs with hs
  · exact h
  · exact fun _ => cancelReadTimeout_not_armed

theorem quiet_onRead (part : ReadPart) (ec : Option ErrorCode) : Quiet (onRead part ec c) := by
  by_cases h : c.stopped
  · rw [onRead_stopped h]
    exact fun _ => cancelReadTimeout_not_armed
  · have hquiet : Quiet (cancelReadTimeout c) := fun hs => absurd hs h
    cases part with
    | header =>
        rw [onRead, onReadHeader]
        split_ifs
        · exact hquiet
        · exact quiet_stopImpl hquiet
        · exact hquiet
        · exact fun hs => absurd ((stopped_onHeader _).symm.trans hs) h
    | payload n =>
        rw [onRead, onReadPayload]
        split_ifs
        · exact hquiet
        · exact hquiet
        · exact fun hs => absurd ((processFrame_pending _).2.2.symm.trans hs) h

theorem quiet_step (h : Quiet c) (e : Event) : Quiet (step c e) := by
  cases e with
  | start =>
      rw [step, startImpl]
      split_ifs with hs
      · exact h
      · exact fun hd => absurd ((stopped_readHeader c).symm.trans hd) hs
  | stop => exact quiet_stopImpl h
  | read number ec data =>
      rw [step]
      split
      · exact h
      · split_ifs
        · exact quiet_onRead _ ec
        · exact h
  | write ec =>
      rw [step]
      split_ifs
      · exact h
      · rw [onWrite]
        split_ifs with he hs
        · exact h
        · exact h
        · exact fun hd => absurd ((stopped_readHeader _).symm.trans hd) hs
  | expire number ec =>
      intro hs w hw
      obtain ⟨v, hv, rfl⟩ := List.mem_map.mp hw
      exact expired_not_armed (h hs v hv)
  | wait number =>
      have hless : Quiet { c with waits := c.waits.eraseP (Wait.runnable number) } :=
        fun hs w hw => h hs w (List.eraseP_subset hw)
      rw [step]
      split
      · exact h
      · rw [completeWait, onWait]
        split_ifs
        · exact hless
        · exact hless
        · exact hless
        · exact quiet_stopImpl hless

/-- While there is an owner, a handler can run. -/
theorem exists_pending (h : Quiet c) (hs : c.stopped) (ho : owners c ≠ 0) : ∃ e, Pending c e := by
  rcases hr : c.reads with _ | ⟨⟨n, part⟩, rest⟩
  · by_cases hw : 0 < c.writes
    · exact ⟨.write none, hw⟩
    · rcases hwaits : c.waits with _ | ⟨w, ws⟩
      · rw [owners, hr, hwaits, Nat.eq_zero_of_not_pos hw] at ho
        exact absurd rfl ho
      · have hmem : w ∈ c.waits := hwaits ▸ List.mem_cons_self
        exact ⟨.wait w.read, w, hmem, by simp [Wait.runnable, h hs w hmem]⟩
  · refine ⟨.read n (some .eof) [], part, by simp [hr], Nat.zero_le _, ?_⟩
    intro hnone
    cases hnone

end

/-- Once `stop_impl` has run, whatever runs after it: the session stays, nothing is
handed to the socket, no read, write or wait is started, and the pending handlers only
become fewer, each of them that runs by one, until none holds the object. -/
theorem stop_final (es fs : List Event) (h : (run step {} es).stopped) :
    Remains (run step {} es) (run step {} (es ++ fs)) ∧
    step (run step {} (es ++ fs)) .stop = run step {} (es ++ fs) ∧
    (∀ e, Pending (run step {} (es ++ fs)) e →
      owners (step (run step {} (es ++ fs)) e) + 1 = owners (run step {} (es ++ fs))) ∧
    (owners (run step {} (es ++ fs)) = 0 ↔ ∀ e, ¬ Pending (run step {} (es ++ fs)) e) := by
  have hquiet : Quiet (run step {} (es ++ fs)) :=
    invariant_run (I := Quiet) _ (fun hs => absurd hs Bool.false_ne_true)
      fun _ e hq => quiet_step hq e
  have hremains : Remains (run step {} es) (run step {} (es ++ fs)) := by
    rw [run_append]
    refine related_run (I := fun c => c.stopped = true) fs h fun c e hs => ?_
    have hr := step_remains hs e
    exact ⟨hr.stopped.trans hs, hr⟩
  have hstopped : (run step {} (es ++ fs)).stopped := hremains.stopped.trans h
  generalize run step {} (es ++ fs) = d at *
  refine ⟨hremains, stopImpl_stopped hstopped, fun e => owners_step hstopped, ?_⟩
  constructor
  · intro hzero e hp
    have := owners_step hstopped hp
    omega
  · intro hnone
    by_contra ho
    obtain ⟨e, he⟩ := exists_pending hquiet hstopped ho
    exact hnone e he

/-- A hello. -/
def helloFrame : Bytes := List.replicate 16 0 ++ [3, 61, 3, 0, 0, 0, 0]

/-- A stop between the completion of a header and its handler. -/
theorem stop_final_read :
    let es := [Event.start, .stop]
    let fs := [Event.read 0 none helloFrame, .wait 0, .stop]
    (run step {} es).stopped ∧ Remains (run step {} es) (run step {} (es ++ fs)) ∧
      owners (run step {} es) = 2 ∧ owners (run step {} (es ++ fs)) = 0 := by
  intro es fs
  have h : (run step {} es).stopped := by decide
  exact ⟨h, (stop_final es fs h).1, by decide, by decide⟩

/-! ### Properties of the pending reads and waits -/

/-- A property of the pending reads and waits that the timer and a new read keep. -/
structure Closed (I : AsyncConnection → Prop) : Prop where
  cancel : ∀ c, I c → I (cancelReadTimeout c)
  start : ∀ c part, I c → I (startRead part c)
  frame : ∀ c d : AsyncConnection, d.reads = c.reads → d.waits = c.waits → I c → I d

namespace Closed
variable {I : AsyncConnection → Prop} {c : AsyncConnection} (hI : Closed I)

include hI

theorem stopImpl (h : I c) : I (stopImpl c) := by
  unfold CompletionHandlers.stopImpl
  split_ifs
  · exact h
  · exact hI.frame (cancelReadTimeout c) _ rfl rfl (hI.cancel c h)

theorem readHeader (h : I c) : I (readHeader c) := by
  unfold CompletionHandlers.readHeader
  split_ifs
  · exact h
  · exact hI.start c _ h

theorem processFrame (h : I c) : I (processFrame c) := by
  obtain ⟨hreads, hwaits, -⟩ := processFrame_pending c
  exact hI.frame _ _ hreads hwaits h

theorem onHeader (h : I c) : I (onHeader c) := by
  unfold CompletionHandlers.onHeader readPayload
  dsimp only
  split_ifs
  · exact h
  · exact hI.processFrame (hI.frame c _ rfl rfl h)
  · exact hI.frame c _ rfl rfl h
  · exact hI.start _ _ (hI.frame c _ rfl rfl h)

/-- What follows a read begins with the timer. -/
theorem onRead (h : I (cancelReadTimeout c)) (part : ReadPart) (ec : Option ErrorCode) :
    I (onRead part ec c) := by
  cases part with
  | header =>
      rw [CompletionHandlers.onRead, onReadHeader]
      split_ifs
      · exact h
      · exact hI.stopImpl h
      · exact h
      · exact hI.onHeader h
  | payload n =>
      rw [CompletionHandlers.onRead, onReadPayload]
      split_ifs
      · exact h
      · exact h
      · exact hI.processFrame h

theorem write (h : I c) (ec : Option ErrorCode) : I (step c (.write ec)) := by
  rw [step]
  split_ifs
  · exact h
  · rw [onWrite]
    split_ifs
    · exact hI.frame c _ rfl rfl h
    · exact hI.frame c _ rfl rfl h
    · exact hI.readHeader (hI.frame c _ rfl rfl h)

end Closed

/-! ### Waits of completed reads -/

/-- A wait that can still stop the connection. -/
def Wait.Live (w : Wait) : Prop := w.state = .armed ∨ w.state = .queued none

/-- A wait that can still stop the connection stands for a read that is pending. -/
def Guarded (c : AsyncConnection) : Prop := ∀ w ∈ c.waits, w.Live → w.read ∈ c.reads.map Prod.fst

/-- When the handler of a read runs, its own wait has not been queued by its expiry. -/
def Timely (c : AsyncConnection) (e : Event) : Prop :=
  ∀ number ec data, e = .read number ec data → Pending c e → ⟨number, .queued none⟩ ∉ c.waits

section
variable {c : AsyncConnection}

theorem live_cancelled {w : Wait} (h : w.cancelled.Live) :
    w.cancelled = w ∧ w.state = .queued none := by
  unfold Wait.cancelled at h ⊢
  split_ifs at h ⊢ with ha
  · rcases h with h | h <;> cases h
  · exact ⟨rfl, h.resolve_left ha⟩

theorem guarded_cancelReadTimeout (h : Guarded c) : Guarded (cancelReadTimeout c) := by
  intro w hw hlive
  obtain ⟨v, hv, rfl⟩ := List.mem_map.mp hw
  obtain ⟨hsame, hqueued⟩ := live_cancelled hlive
  rw [hsame]
  exact h v hv (.inr hqueued)

theorem guarded_closed : Closed Guarded where
  cancel _ h := guarded_cancelReadTimeout h
  start c part h := by
    intro w hw hlive
    have hreads : (startRead part c).reads.map Prod.fst = c.reads.map Prod.fst ++ [c.started] := by
      rw [startRead, List.map_append]
      rfl
    rw [hreads, List.mem_append]
    rcases List.mem_append.mp hw with hold | hnew
    · exact .inl (guarded_cancelReadTimeout h w hold hlive)
    · rw [List.mem_singleton.mp hnew]
      exact .inr List.mem_cons_self
  frame c d hreads hwaits h := by
    rw [Guarded, hreads, hwaits]
    exact h

/-- The read that has completed takes no live wait with it. -/
theorem guarded_completeRead (h : Guarded c) {number : ℕ} (hn : ⟨number, .queued none⟩ ∉ c.waits)
    (part : ReadPart) (ec : Option ErrorCode) (data : Bytes) :
    Guarded (completeRead number part ec data c) := by
  refine guarded_closed.onRead (fun w hw hlive => ?_) part ec
  rw [cancelReadTimeout, waits_filled] at hw
  obtain ⟨v, hv, rfl⟩ := List.mem_map.mp hw
  obtain ⟨hsame, hqueued⟩ := live_cancelled hlive
  have hne : v.read ≠ number := by
    intro he
    exact hn (by rwa [← he, ← hqueued])
  obtain ⟨⟨m, p⟩, hp, hm⟩ := List.mem_map.mp (h v hv (.inr hqueued))
  rw [hsame, cancelReadTimeout, reads_filled]
  refine List.mem_map.mpr ⟨(m, p), ?_, hm⟩
  have hm' : m = v.read := hm
  rw [List.mem_eraseP_of_neg (by simpa [hm'] using hne)]
  exact hp

theorem guarded_step (h : Guarded c) {e : Event} (ht : Timely c e) : Guarded (step c e) := by
  cases e with
  | start =>
      rw [step, startImpl]
      split_ifs
      · exact h
      · exact guarded_closed.readHeader h
  | stop => exact guarded_closed.stopImpl h
  | read number ec data =>
      rw [step]
      split
      · exact h
      · rename_i m part hfind
        split_ifs with hc
        · have hm : m = number := by simpa using List.find?_some hfind
          have hpending : Pending c (.read number ec data) := ⟨part, hm ▸ hfind, hc⟩
          exact guarded_completeRead h (ht number ec data rfl hpending) part ec data
        · exact h
  | write ec => exact guarded_closed.write h ec
  | expire number ec =>
      intro w hw hlive
      obtain ⟨v, hv, rfl⟩ := List.mem_map.mp hw
      rw [read_expired]
      refine h v hv ?_
      unfold Wait.expired at hlive
      split_ifs at hlive with ha
      · exact .inl ha.2
      · exact hlive
  | wait number =>
      have hless : Guarded { c with waits := c.waits.eraseP (Wait.runnable number) } :=
        fun w hw => h w (List.eraseP_subset hw)
      rw [step]
      split
      · exact h
      · rw [completeWait, onWait]
        split_ifs
        · exact hless
        · exact hless
        · exact hless
        · exact guarded_closed.stopImpl hless

/-- The wait of a read that is not pending leaves a guarded connection open. -/
theorem stopped_wait (h : Guarded c) {k : ℕ} (hk : k ∉ c.reads.map Prod.fst) :
    (step c (.wait k)).stopped = c.stopped := by
  rw [step]
  split
  · rfl
  · rename_i w hfind
    have hrun := List.find?_some hfind
    rw [Wait.runnable, Bool.and_eq_true, decide_eq_true_eq, decide_eq_true_eq] at hrun
    have hnot : w.state ≠ .queued none := by
      intro hq
      exact hk (hrun.1 ▸ h w (List.mem_of_find?_eq_some hfind) (.inr hq))
    have hsome : w.state.result.isSome := by
      rcases hstate : w.state with _ | ec
      · exact absurd hstate hrun.2
      · cases ec with
        | none => exact absurd hstate hnot
        | some e => rfl
    rw [completeWait, onWait, if_pos hsome, ite_self]

end

/-- In every run in which no wait is queued by its expiry before the handler of its
read runs, the wait of a read whose handler has run never stops the connection. -/
theorem completed_read_not_timed_out (es : List Event) (h : Along step Timely {} es) (k : ℕ)
    (_hk : k < (run step {} es).started) (hdone : k ∉ (run step {} es).reads.map Prod.fst) :
    (step (run step {} es) (.wait k)).stopped = (run step {} es).stopped := by
  have hguarded : Guarded (run step {} es) :=
    invariant_along (I := Guarded) (fun w hw => absurd hw List.not_mem_nil)
      (fun _ _ hg ht => guarded_step hg ht) h
  exact stopped_wait hguarded hdone

/-- The timer is cancelled by the handler of the read. -/
theorem completed_read_not_timed_out_header :
    (step (run step {} [.start, .read 0 none helloFrame]) (.wait 0)).stopped = false := by
  have htimely : Along step Timely {} [.start, .read 0 none helloFrame] := by
    refine ⟨fun _ _ _ he => absurd he (by simp), fun number ec data he _ => ?_, trivial⟩
    cases he
    decide
  exact (completed_read_not_timed_out _ htimely 0 (by decide) (by decide)).trans (by decide)

/-- The wait expires, the header of a hello completes before the handler of the wait
has run, and the connection is stopped by the wait of a read that is over. -/
theorem completed_read_timed_out : ¬ ∀ (es : List Event) (k : ℕ), k < (run step {} es).started →
    k ∉ (run step {} es).reads.map Prod.fst →
      (step (run step {} es) (.wait k)).stopped = (run step {} es).stopped := by
  intro h
  have hstop := h [.start, .expire 0 none, .read 0 none helloFrame] 0 (by decide)
    (by decide)
  revert hstop
  decide

end Seftp.CompletionHandlers
