import Seftp.CompletionHandlers
import Mathlib.Logic.Relation

/-!
# Both C++ connections answer alike

The handlers of `AsyncConnection` on a stream that ends with EOF, while no timer
expires, nobody stops it and every write succeeds. Whatever the pieces in which the
stream arrives and whenever the aborted waits run, the connection makes the exchanges
of the blocking loop, leaves the same rest of the stream unread and comes to an end.

The blocking loop, started from the session and the responses there are, is the
abstraction of a state between two requests; while a payload is awaited it is the loop
that has the header still before it.
-/
namespace Seftp.AsyncAgreement
open LittleEndian ExceptState EventRuns PartialReads NativeFrames NativeConnection
open CompletionHandlers

section
variable {τ : Type} (io : Source UInt8 τ)

/-- A handler runs: a read completes as a blocking read does, with all its bytes or at
the end of the stream, a write succeeds, a queued wait has its turn. -/
inductive Delivers : AsyncConnection × τ → AsyncConnection × τ → Prop
  | read {c : AsyncConnection} {t u : τ} {number : ℕ} {part : ReadPart} {data : Bytes}
      (hread : (number, part) ∈ c.reads) (h : readBuffer io part.size t = (.ok data, u)) :
      Delivers (c, t) (step c (.read number none data), u)
  | eof {c : AsyncConnection} {t u : τ} {number : ℕ} {part : ReadPart} {e : ReadError}
      (hread : (number, part) ∈ c.reads) (h : readBuffer io part.size t = (.error e, u)) :
      Delivers (c, t) (step c (.read number (some .eof) (io.rest t)), u)
  | write {c : AsyncConnection} {t : τ} (h : 0 < c.writes) :
      Delivers (c, t) (step c (.write none), t)
  | wait {c : AsyncConnection} {t : τ} {number : ℕ} (h : Pending c (.wait number)) :
      Delivers (c, t) (step c (.wait number), t)

end

/-! ### The blocking loop by one request -/

section
variable {τ : Type} {io : Source UInt8 τ} {t u : τ} {n : ℕ}

/-- Every write succeeds. -/
def noError (_ : ℕ) : Option FrameIoError := none

theorem handleConnection_ok {b : Blocking τ} {request : RequestFrame}
    (h : readRequestFrame io b.socket = (.ok request, u)) :
    handleConnection io noError (n + 1) b = handleConnection io noError n
      ⟨u, (exchange b.session request).2, b.sent ++ [exchange b.session request]⟩ := by
  rw [handleConnection, handleOneRequest, h]
  rfl

theorem handleConnection_error {b : Blocking τ} {e : ReadError}
    (h : readRequestFrame io b.socket = (.error e, u)) :
    (handleConnection io noError (n + 1) b).2 = { b with socket := u } := by
  rw [handleConnection, handleOneRequest, h]
  rcases e with e | e
  · cases e <;> rfl
  · rfl

/-- The responses there are stay. -/
theorem handleConnection_prefix (b : Blocking τ) :
    b.sent <+: (handleConnection io noError n b).2.sent := by
  induction n generalizing b with
  | zero => exact List.prefix_rfl
  | succ n ih =>
      rcases h : readRequestFrame io b.socket with ⟨e | request, u⟩
      · have hsame : (handleConnection io noError (n + 1) b).2.sent = b.sent :=
          congrArg (·.sent) (handleConnection_error h)
        exact ⟨[], (List.append_nil _).trans hsame.symm⟩
      · rw [handleConnection_ok h]
        have hmore := ih
          ⟨u, (exchange b.session request).2, b.sent ++ [exchange b.session request]⟩
        exact (List.prefix_append b.sent _).trans hmore

theorem readBuffer_rest {data : Bytes} (h : readBuffer io n t = (.ok data, u)) :
    data.length = n ∧ n ≤ (io.rest t).length ∧ data = (io.rest t).take n ∧
      io.rest u = (io.rest t).drop n := by
  by_cases hlen : n ≤ (io.rest t).length
  · obtain ⟨v, hv, hrest⟩ := readBuffer_ok hlen
    obtain ⟨hdata, rfl⟩ := Prod.mk.inj (hv.symm.trans h)
    cases hdata
    exact ⟨List.length_take_of_le hlen, hlen, rfl, hrest⟩
  · obtain ⟨v, hv, -⟩ := readBuffer_short (Nat.not_le.mp hlen)
    cases hv.symm.trans h

theorem readBuffer_error {e : ReadError} (h : readBuffer io n t = (.error e, u)) :
    (io.rest t).length < n ∧ io.rest u = [] := by
  by_cases hlen : n ≤ (io.rest t).length
  · obtain ⟨v, hv, -⟩ := readBuffer_ok hlen
    cases hv.symm.trans h
  · obtain ⟨v, hv, hrest⟩ := readBuffer_short (Nat.not_le.mp hlen)
    obtain ⟨-, rfl⟩ := Prod.mk.inj (hv.symm.trans h)
    exact ⟨Nat.not_le.mp hlen, hrest⟩

/-- The size that a header announces. -/
def announced (header : Bytes) : ℕ := leNat ((header.drop kPayloadSizeOffset).take 4)

theorem readRequestFrame_closed {e : ReadError}
    (h : readBuffer io kRequestHeaderSize t = (.error e, u)) :
    readRequestFrame io t = (.error e, u) := bind_error h

theorem readRequestFrame_tooLarge {header : Bytes}
    (h : readBuffer io kRequestHeaderSize t = (.ok header, u))
    (hmax : kDefaultMaxPayloadSize < announced header) :
    readRequestFrame io t = (.error (.parse .payloadTooLarge), u) := by
  rw [readRequestFrame, bind_ok h]
  exact congrFun (if_pos hmax) u

section
variable {s : τ} {header : Bytes} (h : readBuffer io kRequestHeaderSize s = (.ok header, t))
  (hmax : ¬ kDefaultMaxPayloadSize < announced header)

include h hmax

theorem readRequestFrame_cut {e : ReadError} (hpos : 0 < announced header)
    (hrest : readBuffer io (announced header) t = (.error e, u)) :
    readRequestFrame io s = (.error e, u) := by
  rw [readRequestFrame, bind_ok h]
  refine (congrFun (if_neg hmax) t).trans ?_
  rw [NativeFrames.readPayload]
  exact bind_error ((congrFun (if_pos hpos) t).trans hrest)

theorem readRequestFrame_whole {payload : Bytes}
    (hrest : NativeFrames.readPayload io (announced header) t = (.ok payload, u)) :
    readRequestFrame io s = ((parseRequestFrame (header ++ payload)).mapError .parse, u) := by
  rw [readRequestFrame, bind_ok h]
  refine (congrFun (if_neg hmax) t).trans ?_
  refine (bind_ok hrest).trans ?_
  rcases parseRequestFrame (header ++ payload) with e | request
  · rfl
  · rfl

end

end

/-! ### The simulation -/

section
variable {τ : Type} {io : Source UInt8 τ}

/-- What the blocking loop would have in hand. -/
def view (c : AsyncConnection) (t : τ) : Blocking τ := ⟨t, c.session, c.sent⟩

/-- The loop from here has the end `b`, and fuel for the rest of the stream. -/
def LeadsTo (io : Source UInt8 τ) (b : Blocking τ) (c : AsyncConnection) (t : τ) : Prop :=
  ∃ n, (io.rest t).length < n ∧ (handleConnection io noError n (view c t)).2 = b

/-- The states of an undisturbed connection by the one operation that is pending. -/
inductive Phase (io : Source UInt8 τ) (b : Blocking τ) : AsyncConnection × τ → Prop
  | header {c : AsyncConnection} {t : τ} {number : ℕ} (hreads : c.reads = [(number, .header)])
      (hwrites : c.writes = 0) (hopen : c.stopped = false) (hlen : c.headerBuffer.length = 23)
      (hleads : LeadsTo io b c t) : Phase io b (c, t)
  | payload {c : AsyncConnection} {s t : τ} {number : ℕ} {header : Bytes}
      (hreads : c.reads = [(number, .payload (announced header))])
      (hwrites : c.writes = 0) (hopen : c.stopped = false) (hlen : c.headerBuffer.length = 23)
      (hheader : readBuffer io kRequestHeaderSize s = (.ok header, t))
      (hpos : 0 < announced header) (hmax : ¬ kDefaultMaxPayloadSize < announced header)
      (hframe : c.frameBuffer.take kRequestHeaderSize = header)
      (hsize : c.frameBuffer.length = kRequestHeaderSize + announced header)
      (hleads : LeadsTo io b c s) : Phase io b (c, t)
  | write {c : AsyncConnection} {t : τ} (hreads : c.reads = []) (hwrites : c.writes = 1)
      (hopen : c.stopped = false) (hlen : c.headerBuffer.length = 23) (hleads : LeadsTo io b c t) :
      Phase io b (c, t)
  | ended {c : AsyncConnection} {t : τ} (hreads : c.reads = []) (hwrites : c.writes = 0)
      (hend : view c t = b) : Phase io b (c, t)

/-- No wait has been queued by its expiry. -/
def Unexpired (c : AsyncConnection) : Prop := ∀ w ∈ c.waits, w.state ≠ .queued none

section
variable {b : Blocking τ} {c : AsyncConnection} {t u : τ}

/-- The request has been read: it is answered, or the connection ends. -/
theorem phase_processFrame {s : τ} (hreads : c.reads = []) (hwrites : c.writes = 0)
    (hopen : c.stopped = false) (hlen : c.headerBuffer.length = 23) (hleads : LeadsTo io b c s)
    (hrequest : readRequestFrame io s = ((parseRequestFrame c.frameBuffer).mapError .parse, u)) :
    Phase io b (processFrame c, u) := by
  obtain ⟨n, hn, hb⟩ := hleads
  obtain _ | n := n
  · omega
  unfold processFrame
  rcases hparse : parseRequestFrame c.frameBuffer with e | request
  · rw [hparse] at hrequest
    rw [handleConnection_error hrequest] at hb
    exact .ended hreads hwrites hb
  · rw [hparse] at hrequest
    rw [handleConnection_ok (b := view c s) hrequest] at hb
    have hless : (io.rest u).length < n := by
      obtain ⟨v, hv, hrest⟩ := readRequestFrame_eq io s
      obtain ⟨hcut, rfl⟩ := Prod.mk.inj (hv.symm.trans hrequest)
      have hcons : (io.rest v).length + 23 ≤ (io.rest s).length :=
        length_cutRequest (Prod.ext hcut hrest.symm)
      omega
    dsimp only
    rw [writeResponse, if_neg (by rw [hopen]; exact Bool.false_ne_true)]
    exact .write hreads (by rw [hwrites]) hopen hlen ⟨n, hless, hb⟩

/-- A read whose completion handler is pending, by its number. -/
theorem find_single {number : ℕ} {part : ReadPart} (h : c.reads = [(number, part)]) :
    c.reads.find? (·.1 = number) = some (number, part) := by
  rw [h]
  simp

theorem step_read {number : ℕ} {part : ReadPart} {ec : Option ErrorCode} {data : Bytes}
    (h : c.reads = [(number, part)]) (hc : part.Completes ec data) :
    step c (.read number ec data) = onRead part ec (filled part data { c with reads := [] }) := by
  have herase : c.reads.eraseP (·.1 = number) = [] := by
    rw [h]
    simp
  simp only [step, find_single h, if_pos hc, completeRead, herase]

theorem onReadHeader_none (h : c.stopped = false) :
    onReadHeader none c = onHeader (cancelReadTimeout c) := by
  simp [onReadHeader, h]

theorem onReadPayload_none (h : c.stopped = false) :
    onReadPayload none c = processFrame (cancelReadTimeout c) := by
  simp [onReadPayload, h]

theorem onReadHeader_some (e : ErrorCode) (h : c.stopped = false) :
    onReadHeader (some e) c = { cancelReadTimeout (cancelReadTimeout c) with stopped := true } := by
  simp [onReadHeader, stopImpl, h]

/-- The size of the frame is that of its header and the announced payload. -/
theorem length_frame {header : Bytes} (h : header.length = kRequestHeaderSize) (n : ℕ)
    (frame : Bytes) :
    (header ++ (resize (kRequestHeaderSize + n) frame).drop kRequestHeaderSize).length =
      kRequestHeaderSize + n := by
  have hresize : (resize (kRequestHeaderSize + n) frame).length = kRequestHeaderSize + n := by
    rw [resize, List.length_append, List.length_take, List.length_replicate]
    omega
  rw [List.length_append, List.length_drop, hresize, h]
  omega

/-- The header of the next request is there. -/
theorem phase_onHeader (hreads : c.reads = []) (hwrites : c.writes = 0) (hopen : c.stopped = false)
    (hleads : LeadsTo io b c t)
    (h : readBuffer io kRequestHeaderSize t = (.ok c.headerBuffer, u)) :
    Phase io b (onHeader c, u) := by
  obtain ⟨hdata, henough, -, hrest⟩ := readBuffer_rest h
  have hframe := length_frame hdata (announced c.headerBuffer) c.frameBuffer
  unfold onHeader
  change Phase io b (if kDefaultMaxPayloadSize < announced c.headerBuffer then c else _, u)
  split_ifs with hmax hzero
  · obtain ⟨n, hn, hb⟩ := hleads
    obtain _ | n := n
    · omega
    rw [handleConnection_error (b := view c t) (readRequestFrame_tooLarge h hmax)] at hb
    exact .ended hreads hwrites hb
  · have hzero' : announced c.headerBuffer = 0 := hzero
    have hnone : NativeFrames.readPayload io (announced c.headerBuffer) u = (.ok [], u) := by
      rw [hzero']
      rfl
    have hnil : (resize (kRequestHeaderSize + announced c.headerBuffer) c.frameBuffer).drop
        kRequestHeaderSize = [] := by
      rw [List.length_append, hdata, hzero'] at hframe
      rw [hzero']
      exact List.eq_nil_of_length_eq_zero (by omega)
    refine phase_processFrame (s := t) hreads hwrites hopen hdata hleads ?_
    rw [readRequestFrame_whole h hmax hnone, ← hnil]
    rfl
  · dsimp only
    rw [CompletionHandlers.readPayload, if_neg (by rw [hopen]; exact Bool.false_ne_true)]
    have hstarted : c.reads ++ [(c.started, ReadPart.payload (announced c.headerBuffer))] =
        [(c.started, .payload (announced c.headerBuffer))] := by
      rw [hreads, List.nil_append]
    exact .payload hstarted hwrites hopen hdata h (Nat.pos_of_ne_zero hzero) hmax
      (List.take_left' hdata) hframe hleads

/-- The payload is there. -/
theorem phase_onPayload {s : τ} {header data : Bytes} (hreads : c.reads = [])
    (hwrites : c.writes = 0) (hopen : c.stopped = false) (hlen : c.headerBuffer.length = 23)
    (hheader : readBuffer io kRequestHeaderSize s = (.ok header, t)) (hpos : 0 < announced header)
    (hmax : ¬ kDefaultMaxPayloadSize < announced header) (hframe : c.frameBuffer = header ++ data)
    (hleads : LeadsTo io b c s) (h : readBuffer io (announced header) t = (.ok data, u)) :
    Phase io b (processFrame c, u) := by
  have hpayload : NativeFrames.readPayload io (announced header) t = (.ok data, u) := by
    rw [NativeFrames.readPayload, if_pos hpos]
    exact h
  refine phase_processFrame hreads hwrites hopen hlen hleads ?_
  rw [readRequestFrame_whole hheader hmax hpayload, hframe]

section
variable {number : ℕ} {part : ReadPart}

theorem phase_read {data : Bytes} (h : Phase io b (c, t)) (hread : (number, part) ∈ c.reads)
    (hdata : readBuffer io part.size t = (.ok data, u)) :
    Phase io b (step c (.read number none data), u) := by
  obtain ⟨hlength, -⟩ := readBuffer_rest hdata
  have hcomplete : part.Completes none data := ⟨Nat.le_of_eq hlength, fun _ => hlength⟩
  cases h with
  | header hreads hwrites hopen hlen hleads =>
      rw [hreads, List.mem_singleton, Prod.mk.injEq] at hread
      obtain ⟨rfl, rfl⟩ := hread
      have hbuffer : data ++ c.headerBuffer.drop data.length = data := by
        rw [List.drop_of_length_le (by rw [hlength, hlen]; exact Nat.le_refl _), List.append_nil]
      rw [step_read hreads hcomplete, onRead, onReadHeader_none]
      · refine phase_onHeader (t := t) rfl hwrites hopen hleads ?_
        exact hdata.trans (congrArg (fun d => (Except.ok d, u)) hbuffer.symm)
      · exact hopen
  | payload hreads hwrites hopen hlen hheader hpos hmax hframe hsize hleads =>
      rw [hreads, List.mem_singleton, Prod.mk.injEq] at hread
      obtain ⟨rfl, rfl⟩ := hread
      have hdone : c.frameBuffer.drop (kRequestHeaderSize + data.length) = [] :=
        List.drop_of_length_le (by rw [hsize, hlength]; exact Nat.le_refl _)
      rw [step_read hreads hcomplete, onRead, onReadPayload_none]
      · refine phase_onPayload rfl hwrites hopen hlen hheader hpos hmax ?_ hleads hdata
        change c.frameBuffer.take kRequestHeaderSize ++ data ++ c.frameBuffer.drop _ = _
        rw [hdone, List.append_nil, hframe]
      · exact hopen
  | write hreads _ _ _ _ => simp [hreads] at hread
  | ended hreads _ _ => simp [hreads] at hread

theorem phase_eof {e : ReadError} (h : Phase io b (c, t)) (hread : (number, part) ∈ c.reads)
    (hend : readBuffer io part.size t = (.error e, u)) :
    Phase io b (step c (.read number (some .eof) (io.rest t)), u) := by
  obtain ⟨hshort, -⟩ := readBuffer_error hend
  have hcomplete : part.Completes (some .eof) (io.rest t) :=
    ⟨Nat.le_of_lt hshort, fun hnone => by cases hnone⟩
  cases h with
  | header hreads hwrites hopen hlen hleads =>
      rw [hreads, List.mem_singleton, Prod.mk.injEq] at hread
      obtain ⟨rfl, rfl⟩ := hread
      obtain ⟨n, hn, hb⟩ := hleads
      obtain _ | n := n
      · omega
      rw [handleConnection_error (b := view c t) (readRequestFrame_closed hend)] at hb
      rw [step_read hreads hcomplete, onRead, onReadHeader_some]
      · exact .ended rfl hwrites hb
      · exact hopen
  | payload hreads hwrites hopen hlen hheader hpos hmax hframe hsize hleads =>
      rename_i s _ _
      rw [hreads, List.mem_singleton, Prod.mk.injEq] at hread
      obtain ⟨rfl, rfl⟩ := hread
      obtain ⟨n, hn, hb⟩ := hleads
      obtain _ | n := n
      · omega
      rw [handleConnection_error (b := view c s)
        (readRequestFrame_cut hheader hmax hpos hend)] at hb
      rw [step_read hreads hcomplete, onRead, onReadPayload]
      exact .ended rfl hwrites hb
  | write hreads _ _ _ _ => simp [hreads] at hread
  | ended hreads _ _ => simp [hreads] at hread

end

theorem phase_write (h : Phase io b (c, t)) (hpos : 0 < c.writes) :
    Phase io b (step c (.write none), t) := by
  cases h with
  | header _ hwrites _ _ _ => omega
  | payload _ hwrites _ _ _ _ _ _ _ _ => omega
  | ended _ hwrites _ => omega
  | write hreads hwrites hopen hlen hleads =>
      have hstep : step c (.write none) = startRead .header { c with writes := c.writes - 1 } := by
        simp [step, hwrites, onWrite, readHeader, hopen]
      rw [hstep]
      have hstarted : c.reads ++ [(c.started, ReadPart.header)] = [(c.started, .header)] := by
        rw [hreads, List.nil_append]
      exact .header hstarted (by rw [startRead, armReadTimeout, hwrites]) hopen hlen hleads

/-- The phase does not depend on the waits. -/
theorem phase_waits (h : Phase io b (c, t)) (ws : List Wait) :
    Phase io b ({ c with waits := ws }, t) := by
  cases h with
  | header hreads hwrites hopen hlen hleads => exact .header hreads hwrites hopen hlen hleads
  | payload hreads hwrites hopen hlen hheader hpos hmax hframe hsize hleads =>
      exact .payload hreads hwrites hopen hlen hheader hpos hmax hframe hsize hleads
  | write hreads hwrites hopen hlen hleads => exact .write hreads hwrites hopen hlen hleads
  | ended hreads hwrites hend => exact .ended hreads hwrites hend

/-- A wait that has not expired only goes. -/
theorem step_wait (h : Unexpired c) (number : ℕ) :
    step c (.wait number) = { c with waits := c.waits.eraseP (Wait.runnable number) } := by
  rw [step]
  rcases hfind : c.waits.find? (Wait.runnable number) with _ | w
  · rw [List.find?_eq_none] at hfind
    rw [List.eraseP_of_forall_not hfind]
  · have hrun := List.find?_some hfind
    rw [Wait.runnable, Bool.and_eq_true, decide_eq_true_eq, decide_eq_true_eq] at hrun
    have hsome : w.state.result.isSome := by
      have hnot := h w (List.mem_of_find?_eq_some hfind)
      rcases hstate : w.state with _ | ec
      · exact absurd hstate hrun.2
      · cases ec with
        | none => exact absurd hstate hnot
        | some e => rfl
    dsimp only
    rw [completeWait, onWait, if_pos hsome, ite_self]

/-- Every handler leads from one phase to another. -/
theorem phase_step {x y : AsyncConnection × τ} (h : Phase io b x) (hwaits : Unexpired x.1)
    (hstep : Delivers io x y) : Phase io b y := by
  cases hstep with
  | read hread hdata => exact phase_read h hread hdata
  | eof hread hend => exact phase_eof h hread hend
  | write hpos => exact phase_write h hpos
  | wait hrun =>
      rw [step_wait hwaits]
      exact phase_waits h _

theorem unexpired_cancelReadTimeout (h : Unexpired c) : Unexpired (cancelReadTimeout c) := by
  intro w hw
  obtain ⟨v, hv, rfl⟩ := List.mem_map.mp hw
  unfold Wait.cancelled
  split_ifs with ha
  · simp
  · exact h v hv

theorem unexpired_closed : Closed Unexpired where
  cancel _ h := unexpired_cancelReadTimeout h
  start c part h := by
    intro w hw
    rcases List.mem_append.mp hw with hold | hnew
    · exact unexpired_cancelReadTimeout h w hold
    · rw [List.mem_singleton.mp hnew]
      simp
  frame c d _ hwaits h := by
    rw [Unexpired, hwaits]
    exact h

theorem unexpired_read (h : Unexpired c) (number : ℕ) (ec : Option ErrorCode) (data : Bytes) :
    Unexpired (step c (.read number ec data)) := by
  rw [step]
  split
  · exact h
  · split_ifs
    · refine unexpired_closed.onRead (unexpired_cancelReadTimeout ?_) _ ec
      rw [Unexpired, waits_filled]
      exact h
    · exact h

/-- No handler of such a run lets a wait expire. -/
theorem unexpired_step {x y : AsyncConnection × τ} (h : Unexpired x.1) (hstep : Delivers io x y) :
    Unexpired y.1 := by
  cases hstep with
  | read _ _ => exact unexpired_read h _ _ _
  | eof _ _ => exact unexpired_read h _ _ _
  | write _ => exact unexpired_closed.write h none
  | wait _ =>
      rw [step_wait h]
      exact fun w hw => h w (List.eraseP_subset hw)

end

end

/-! ### Every run ends -/

def weight : ReadPart → ℕ
  | .header => 1
  | .payload _ => 4

/-- What the pending handlers can still set off, the bytes of the stream apart. -/
def load (c : AsyncConnection) : ℕ :=
  (c.reads.map fun r => weight r.2).sum + 3 * c.writes + c.waits.length

section
variable (c : AsyncConnection)

theorem load_cancelReadTimeout : load (cancelReadTimeout c) = load c := by
  simp [load, cancelReadTimeout]

theorem load_startRead (part : ReadPart) : load (startRead part c) = load c + weight part + 1 := by
  simp [load, startRead, armReadTimeout]
  omega

theorem load_filled (part : ReadPart) (data : Bytes) : load (filled part data c) = load c := by
  cases part <;> rfl

theorem load_stopImpl : load (stopImpl c) = load c := by
  unfold stopImpl
  split_ifs
  · rfl
  · exact load_cancelReadTimeout c

theorem load_readHeader : load (readHeader c) ≤ load c + 2 := by
  unfold readHeader
  split_ifs
  · omega
  · exact Nat.le_of_eq (load_startRead c .header)

theorem load_processFrame : load (processFrame c) ≤ load c + 3 := by
  unfold processFrame writeResponse
  split
  · omega
  · split_ifs
    · exact Nat.le_add_right _ 3
    · simp only [load]
      omega

theorem load_onHeader : load (onHeader c) ≤ load c + 5 := by
  unfold onHeader CompletionHandlers.readPayload
  dsimp only
  split_ifs
  · omega
  · exact (load_processFrame _).trans (Nat.add_le_add_left (by decide) _)
  · exact Nat.le_add_right _ 5
  · exact Nat.le_of_eq (load_startRead _ _)

/-- The bytes and the handler of a read outweigh what follows it. -/
theorem load_onRead (part : ReadPart) :
    load (onRead part none c) < load c + weight part + part.size := by
  have hcancel := load_cancelReadTimeout c
  cases part with
  | header =>
      have honHeader := load_onHeader (cancelReadTimeout c)
      have hstop := load_stopImpl (cancelReadTimeout c)
      simp only [onRead, onReadHeader, weight, ReadPart.size, kRequestHeaderSize]
      split_ifs
      all_goals omega
  | payload n =>
      have hprocess := load_processFrame (cancelReadTimeout c)
      simp only [onRead, onReadPayload, weight, ReadPart.size]
      split_ifs
      all_goals omega

theorem load_onRead_error (part : ReadPart) (e : ErrorCode) :
    load (onRead part (some e) c) = load c := by
  cases part with
  | header =>
      simp only [onRead, onReadHeader, Option.isSome_some, if_true]
      split_ifs
      · exact load_cancelReadTimeout c
      · rw [load_stopImpl, load_cancelReadTimeout]
  | payload n => exact load_cancelReadTimeout c

theorem weight_pos (part : ReadPart) : 0 < weight part := by
  cases part <;> exact Nat.succ_pos _

end

section
variable {τ : Type} {io : Source UInt8 τ} {b : Blocking τ} {x y : AsyncConnection × τ}

/-- The number of handlers that can still run is bounded by this. -/
def rank (io : Source UInt8 τ) (x : AsyncConnection × τ) : ℕ := (io.rest x.2).length + load x.1

/-- At most one read is pending. -/
theorem phase_single {c : AsyncConnection} {t : τ} {number : ℕ} {part : ReadPart}
    (h : Phase io b (c, t)) (hread : (number, part) ∈ c.reads) : c.reads = [(number, part)] := by
  cases h with
  | header hreads _ _ _ _ =>
      rw [hreads, List.mem_singleton] at hread
      rw [hreads, hread]
  | payload hreads _ _ _ _ _ _ _ _ _ =>
      rw [hreads, List.mem_singleton] at hread
      rw [hreads, hread]
  | write hreads _ _ _ _ => simp [hreads] at hread
  | ended hreads _ _ => simp [hreads] at hread

theorem load_single {c : AsyncConnection} {number : ℕ} {part : ReadPart}
    (h : c.reads = [(number, part)]) : load c = load { c with reads := [] } + weight part := by
  simp [load, h]
  omega

theorem rank_step (h : Phase io b x) (hwaits : Unexpired x.1) (hstep : Delivers io x y) :
    rank io y < rank io x := by
  cases hstep with
  | @read c t u number part data hread hdata =>
      obtain ⟨hlength, henough, -, hrest⟩ := readBuffer_rest hdata
      have hsingle := phase_single h hread
      have hload := load_onRead (filled part data { c with reads := [] }) part
      have hbefore := load_single hsingle
      rw [load_filled] at hload
      rw [step_read hsingle ⟨Nat.le_of_eq hlength, fun _ => hlength⟩]
      simp only [rank, hrest, List.length_drop]
      omega
  | @eof c t u number part e hread hend =>
      obtain ⟨hshort, hrest⟩ := readBuffer_error hend
      have hsingle := phase_single h hread
      have hbefore := load_single hsingle
      have hpos := weight_pos part
      rw [step_read hsingle ⟨Nat.le_of_lt hshort, fun hnone => by cases hnone⟩]
      simp only [rank, hrest, load_onRead_error, load_filled, List.length_nil]
      omega
  | @write c t hpos =>
      have hless : load { c with writes := c.writes - 1 } + 3 = load c := by
        simp only [load]
        omega
      have hread : load (step c (.write none)) < load c := by
        have hheader := load_readHeader { c with writes := c.writes - 1 }
        simp only [step, if_neg (Nat.ne_of_gt hpos), onWrite, Option.isSome_none]
        split_ifs
        all_goals omega
      exact Nat.add_lt_add_left hread _
  | @wait c t number hrun =>
      obtain ⟨w, hmem, hrunnable⟩ := hrun
      have hlen := List.length_eraseP_of_mem hmem hrunnable
      have hpos := List.length_pos_of_mem hmem
      rw [step_wait hwaits]
      simp only [rank, load, hlen]
      omega

/-- A connection that has not ended has a handler to run. -/
theorem phase_progress (h : Phase io b x) (hstuck : ∀ y, ¬ Delivers io x y) : view x.1 x.2 = b := by
  have hread {c : AsyncConnection} {t : τ} {number : ℕ} {part : ReadPart}
      (hmem : (number, part) ∈ c.reads) : ∃ y, Delivers io (c, t) y := by
    rcases hdata : readBuffer io part.size t with ⟨e | data, u⟩
    · exact ⟨_, .eof hmem hdata⟩
    · exact ⟨_, .read hmem hdata⟩
  cases h with
  | header hreads _ _ _ _ =>
      obtain ⟨y, hy⟩ := hread (by rw [hreads]; exact List.mem_singleton_self _)
      exact absurd hy (hstuck y)
  | payload hreads _ _ _ _ _ _ _ _ _ =>
      obtain ⟨y, hy⟩ := hread (by rw [hreads]; exact List.mem_singleton_self _)
      exact absurd hy (hstuck y)
  | write _ hwrites _ _ _ => exact absurd (.write (by rw [hwrites]; exact Nat.one_pos)) (hstuck _)
  | ended _ _ hend => exact hend

theorem leadsTo_prefix {c : AsyncConnection} {t : τ} (h : LeadsTo io b c t) :
    c.sent <+: b.sent := by
  obtain ⟨n, -, rfl⟩ := h
  exact handleConnection_prefix (view c t)

/-- In every phase the responses are the first of the blocking loop. -/
theorem phase_sent (h : Phase io b x) : x.1.sent <+: b.sent := by
  cases h with
  | header _ _ _ _ hleads => exact leadsTo_prefix hleads
  | payload _ _ _ _ _ _ _ _ _ hleads => exact leadsTo_prefix hleads
  | write _ _ _ _ hleads => exact leadsTo_prefix hleads
  | ended _ _ hend =>
      rw [← hend]
      exact List.prefix_rfl

end

/-! ### Agreement -/

section
variable {τ : Type} (io : Source UInt8 τ) (t : τ)

/-- The connection once `start_impl` has run. -/
def started : AsyncConnection × τ := (step {} .start, t)

variable {io t} {b : Blocking τ} {x : AsyncConnection × τ}

theorem phase_started {n : ℕ} (hn : (io.rest t).length < n)
    (hb : (handleConnection io noError n { socket := t }).2 = b) :
    Phase io b (started t) ∧ Unexpired (started t).1 := by
  constructor
  · exact .header rfl rfl rfl rfl ⟨n, hn, hb⟩
  · intro w hw
    rw [List.mem_singleton.mp hw]
    simp

theorem phase_reachable {y : AsyncConnection × τ} (hy : Phase io b y ∧ Unexpired y.1)
    (h : Relation.ReflTransGen (Delivers io) y x) : Phase io b x ∧ Unexpired x.1 := by
  induction h with
  | refl => exact hy
  | tail _ hstep ih => exact ⟨phase_step ih.1 ih.2 hstep, unexpired_step ih.2 hstep⟩

theorem rank_run {run : ℕ → AsyncConnection × τ} (h : Phase io b (run 0) ∧ Unexpired (run 0).1)
    (hsteps : ∀ i, Delivers io (run i) (run (i + 1))) (i : ℕ) :
    (Phase io b (run i) ∧ Unexpired (run i).1) ∧ rank io (run i) + i ≤ rank io (run 0) := by
  induction i with
  | zero => exact ⟨h, Nat.le_refl _⟩
  | succ i ih =>
      obtain ⟨⟨hphase, hwaits⟩, hle⟩ := ih
      have hless := rank_step hphase hwaits (hsteps i)
      exact ⟨⟨phase_step hphase hwaits (hsteps i), unexpired_step hwaits (hsteps i)⟩, by omega⟩

end

/-- On every stream, in whatever pieces it arrives and whatever the order of the
handlers, the asynchronous connection has sent the first responses of the blocking one
with the same sessions; no run goes on for ever, and where one ends, it has sent all of
them, is in the same session and has left the same rest of the stream. -/
theorem async_eq_blocking {τ : Type} (io : Source UInt8 τ) (t : τ) (n : ℕ)
    (hn : (io.rest t).length < n) :
    (handleConnection io noError n { socket := t }).1.isSome ∧
    (∀ x, Relation.ReflTransGen (Delivers io) (started t) x →
      x.1.sent <+: (handleConnection io noError n { socket := t }).2.sent ∧
      ((∀ y, ¬ Delivers io x y) →
        (⟨x.2, x.1.session, x.1.sent⟩ : Blocking τ) =
          (handleConnection io noError n { socket := t }).2)) ∧
    ∀ run : ℕ → AsyncConnection × τ, run 0 = started t →
      ¬ ∀ i, Delivers io (run i) (run (i + 1)) := by
  have hstarted := phase_started hn rfl
  refine ⟨(handleConnection_eq io { socket := t } hn).1, fun x hx => ?_, fun run hzero hsteps => ?_⟩
  · obtain ⟨hphase, -⟩ := phase_reachable hstarted hx
    exact ⟨phase_sent hphase, phase_progress hphase⟩
  · rw [← hzero] at hstarted
    have := (rank_run hstarted hsteps (rank io (run 0) + 1)).2
    omega

/-- Two hellos that arrive in pieces of five bytes. -/
def helloSource : Source UInt8 (Cursor UInt8) := sized fun _ => 5

def helloStream : Cursor UInt8 := ⟨helloFrame ++ helloFrame, 0⟩

/-- The handlers of their exchanges, the last read at the end of the stream. -/
def helloEvents : List Event :=
  [.start, .read 0 none helloFrame, .write none, .wait 0, .read 1 none helloFrame, .wait 1,
    .write none, .read 2 (some .eof) [], .wait 2]

/-- The connection after so many of them. -/
def helloState (k : ℕ) : AsyncConnection := run step {} (helloEvents.take k)

section
variable {k number : ℕ} {t u : Cursor UInt8}

theorem helloState_read {part : ReadPart} (data : Bytes)
    (hmem : (number, part) ∈ (helloState k).reads)
    (hdata : readBuffer helloSource part.size t = (.ok data, u))
    (hnext : helloState (k + 1) = step (helloState k) (.read number none data)) :
    Delivers helloSource (helloState k, t) (helloState (k + 1), u) := by
  rw [hnext]
  exact .read hmem hdata

theorem helloState_write (hpos : 0 < (helloState k).writes)
    (hnext : helloState (k + 1) = step (helloState k) (.write none)) :
    Delivers helloSource (helloState k, t) (helloState (k + 1), t) := by
  rw [hnext]
  exact .write hpos

/-- Every wait of the run has been cancelled by the handler of its read. -/
theorem helloState_wait (hw : ⟨number, .queued (some .operationAborted)⟩ ∈ (helloState k).waits)
    (hnext : helloState (k + 1) = step (helloState k) (.wait number)) :
    Delivers helloSource (helloState k, t) (helloState (k + 1), t) := by
  rw [hnext]
  exact .wait ⟨_, hw, by simp [Wait.runnable]⟩

end

theorem helloEvents_delivered : ∃ u v : Cursor UInt8,
    Relation.ReflTransGen (Delivers helloSource) (started helloStream) (helloState 5, u) ∧
      Relation.ReflTransGen (Delivers helloSource) (helloState 5, u) (helloState 9, v) := by
  obtain ⟨t, ht, hrest⟩ : ∃ t, readBuffer helloSource kRequestHeaderSize helloStream =
      (.ok helloFrame, t) ∧ t.rest = helloFrame := readBuffer_ok (by decide)
  obtain ⟨u, hu, hnone⟩ : ∃ u, readBuffer helloSource kRequestHeaderSize t =
      (.ok (t.rest.take kRequestHeaderSize), u) ∧ u.rest = t.rest.drop kRequestHeaderSize :=
    readBuffer_ok (by change _ ≤ t.rest.length; rw [hrest]; decide)
  rw [hrest] at hu hnone
  have hend : u.rest = [] := hnone
  obtain ⟨v, hv, -⟩ : ∃ v, readBuffer helloSource kRequestHeaderSize u =
      (.error (.io .connectionClosed), v) ∧ v.rest = [] :=
    readBuffer_short (by change u.rest.length < _; rw [hend]; decide)
  have h₁ : Delivers helloSource (helloState 1, helloStream) (helloState 2, t) :=
    helloState_read helloFrame (by decide : (0, ReadPart.header) ∈ (helloState 1).reads) ht rfl
  have h₂ : Delivers helloSource (helloState 2, t) (helloState 3, t) :=
    helloState_write (by decide +kernel) rfl
  have h₃ : Delivers helloSource (helloState 3, t) (helloState 4, t) :=
    helloState_wait (by decide +kernel : ⟨0, _⟩ ∈ (helloState 3).waits) rfl
  have h₄ : Delivers helloSource (helloState 4, t) (helloState 5, u) :=
    helloState_read helloFrame (by decide +kernel : (1, ReadPart.header) ∈ (helloState 4).reads) hu
      rfl
  have h₅ : Delivers helloSource (helloState 5, u) (helloState 6, u) :=
    helloState_wait (by decide +kernel : ⟨1, _⟩ ∈ (helloState 5).waits) rfl
  have h₆ : Delivers helloSource (helloState 6, u) (helloState 7, u) :=
    helloState_write (by decide +kernel) rfl
  have h₇ : Delivers helloSource (helloState 7, u) (helloState 8, v) := by
    have h := Delivers.eof (by decide +kernel : (2, ReadPart.header) ∈ (helloState 7).reads) hv
    rw [show helloSource.rest u = [] from hend] at h
    exact h
  have h₈ : Delivers helloSource (helloState 8, v) (helloState 9, v) :=
    helloState_wait (by decide +kernel : ⟨2, _⟩ ∈ (helloState 8).waits) rfl
  exact ⟨u, v, .tail (.tail (.tail (.tail .refl h₁) h₂) h₃) h₄,
    .tail (.tail (.tail (.tail .refl h₅) h₆) h₇) h₈⟩

/-- After the second read two responses have been sent, and the run that ends has sent
what the blocking connection sends. -/
theorem async_eq_blocking_hello :
    (helloState 5).sent.length = 2 ∧
      (helloState 5).sent <+:
        (handleConnection helloSource noError 47 { socket := helloStream }).2.sent ∧
      ∃ v, (⟨v, (helloState 9).session, (helloState 9).sent⟩ : Blocking (Cursor UInt8)) =
        (handleConnection helloSource noError 47 { socket := helloStream }).2 := by
  have h := async_eq_blocking helloSource helloStream 47 (by decide)
  obtain ⟨u, v, hsent, hrest⟩ := helloEvents_delivered
  have hend : (helloState 9).reads = [] ∧ (helloState 9).writes = 0 ∧
      (helloState 9).waits = [] := by
    decide +kernel
  have hstuck (y : AsyncConnection × Cursor UInt8) :
      ¬ Delivers helloSource (helloState 9, v) y := by
    intro hstep
    cases hstep with
    | read hread _ | eof hread _ =>
        rw [hend.1] at hread
        cases hread
    | write hpos =>
        rw [hend.2.1] at hpos
        cases hpos
    | wait hrun =>
        obtain ⟨w, hw, -⟩ := hrun
        rw [hend.2.2] at hw
        cases hw
  refine ⟨by decide +kernel, (h.2.1 _ hsent).1, v, ?_⟩
  exact (h.2.1 _ (hsent.trans hrest)).2 hstuck

end Seftp.AsyncAgreement
