import Seftp.NativeFrames

/-!
# The blocking connection of the C++ server

`router.hpp`, `session.hpp`, `response_frame.hpp` and `connection_handler.hpp`. A
session passes from the hello to the acknowledgement to the completed handshake; a
request that does not fit its state is answered with an error and changes nothing.
`handle_connection` reads, answers and reads again until one of the two fails.
-/
namespace Seftp.NativeConnection
open LittleEndian ExceptState PartialReads NativeFrames

/-! ### Responses -/

inductive ResponseCode where
  | registrationOk | registrationFailed | publicKeyAccepted | crcOk | messageReceived | reconnectOk
  | reconnectRejected | serverError | serverHello | crcRetry | crcFinalFailure | crcFatalFailure
  deriving DecidableEq, Repr

def ResponseCode.value : ResponseCode → ℕ
  | .registrationOk => 1600
  | .registrationFailed => 1601
  | .publicKeyAccepted => 1602
  | .crcOk => 1603
  | .messageReceived => 1604
  | .reconnectOk => 1605
  | .reconnectRejected => 1606
  | .serverError => 1607
  | .serverHello => 1608
  | .crcRetry => 900
  | .crcFinalFailure => 901
  | .crcFatalFailure => 902

structure ResponseFrame where
  version : UInt8
  code : ResponseCode
  payload : Bytes := []
  deriving DecidableEq, Repr

def buildResponseFrame (frame : ResponseFrame) : Bytes :=
  [frame.version] ++ leBytes 2 frame.code.value ++ leBytes 4 frame.payload.length ++ frame.payload

/-! ### The session -/

inductive SessionState where
  | awaitingClientHello | awaitingHandshakeAck | handshakeComplete
  deriving DecidableEq, Repr

structure RouteDecision where
  allowed : Bool
  rejectionCode : Option ResponseCode

def routeRequest (state : SessionState) (code : RequestCode) : RouteDecision :=
  match state with
  | .awaitingClientHello =>
      if code = .clientHello then ⟨true, none⟩ else ⟨false, some .serverError⟩
  | .awaitingHandshakeAck =>
      if code = .clientHandshakeAck then ⟨true, none⟩ else ⟨false, some .serverError⟩
  | .handshakeComplete =>
      match code with
      | .register | .sendPublicKey | .reconnect | .upload => ⟨true, none⟩
      | .clientHello | .clientHandshakeAck => ⟨false, some .serverError⟩

/-- `Session::apply_request`: whether the request is allowed, and the next state. -/
def applyRequest (state : SessionState) (code : RequestCode) : Bool × SessionState :=
  if !(routeRequest state code).allowed then (false, state)
  else if code = .clientHello ∧ state = .awaitingClientHello then (true, .awaitingHandshakeAck)
  else if code = .clientHandshakeAck ∧ state = .awaitingHandshakeAck then (true, .handshakeComplete)
  else (true, state)

/-- The response of both kinds of connection. -/
def responseTo (request : RequestFrame) (allowed : Bool) : ResponseFrame :=
  if !allowed then { version := request.version, code := .serverError }
  else if request.code = .clientHello then { version := request.version, code := .serverHello }
  else { version := request.version, code := .messageReceived }

/-- The bytes that answer a request, and the session after it. -/
def exchange (state : SessionState) (request : RequestFrame) : Bytes × SessionState :=
  (buildResponseFrame (responseTo request (applyRequest state request.code).1),
    (applyRequest state request.code).2)

/-! ### The blocking connection -/

inductive ConnectionResult where
  | responseSent | connectionLost | readFailed | writeFailed | protocolError
  deriving DecidableEq, Repr

section
variable {τ : Type}

/-- The socket, the session, and every response with the session after it. -/
structure Blocking (τ : Type) where
  socket : τ
  session : SessionState := .awaitingClientHello
  sent : List (Bytes × SessionState) := []

/-- `handle_one_request`. `writeError` is the result of `write_response_frame` after
that many responses. -/
def handleOneRequest (io : Source UInt8 τ) (writeError : ℕ → Option FrameIoError) (c : Blocking τ) :
    ConnectionResult × Blocking τ :=
  match readRequestFrame io c.socket with
  | (.error (.io .connectionClosed), t) => (.connectionLost, { c with socket := t })
  | (.error (.io _), t) => (.readFailed, { c with socket := t })
  | (.error (.parse _), t) => (.protocolError, { c with socket := t })
  | (.ok request, t) =>
      let c := { c with socket := t, session := (exchange c.session request).2,
                        sent := c.sent ++ [exchange c.session request] }
      match writeError (c.sent.length - 1) with
      | none => (.responseSent, c)
      | some .connectionClosed => (.connectionLost, c)
      | some _ => (.writeFailed, c)

/-- The loop of `handle_connection`; `none` is out of fuel. -/
def handleConnection (io : Source UInt8 τ) (writeError : ℕ → Option FrameIoError) :
    ℕ → Blocking τ → Option ConnectionResult × Blocking τ
  | 0, c => (none, c)
  | fuel + 1, c =>
      match handleOneRequest io writeError c with
      | (.responseSent, c') => handleConnection io writeError fuel c'
      | (r, c') => (some r, c')

end

/-! ### The stream decides -/

/-- The exchanges of a stream, up to its first request that cannot be read. Every
request takes at least its header, so the length of the stream is fuel enough. -/
def exchanges : ℕ → SessionState → Bytes → List (Bytes × SessionState)
  | 0, _, _ => []
  | fuel + 1, state, stream =>
      match cutRequest stream with
      | (.error _, _) => []
      | (.ok request, rest) =>
          exchange state request :: exchanges fuel (exchange state request).2 rest

theorem length_cutRequest {stream rest : Bytes} {request : RequestFrame}
    (h : cutRequest stream = (.ok request, rest)) : rest.length + 23 ≤ stream.length := by
  obtain ⟨hunit, rfl, -⟩ := cutRequest_ok (Nat.le_refl _) h
  obtain ⟨-, -, -, hle⟩ := Framing.frameVerdict_unit.mp hunit
  rw [List.length_drop]
  unfold Framing.headerLen at hle ⊢
  omega

theorem exchanges_fuel {n m : ℕ} {state : SessionState} {stream : Bytes} (hn : stream.length < n)
    (hm : stream.length < m) : exchanges n state stream = exchanges m state stream := by
  induction n generalizing m state stream with
  | zero => omega
  | succ n ih =>
      obtain _ | m := m
      · omega
      rw [exchanges, exchanges]
      rcases hcut : cutRequest stream with ⟨e | request, rest⟩
      · rfl
      · have hlen := length_cutRequest hcut
        exact congrArg _ (ih (by omega) (by omega))

/-- All exchanges of a stream. -/
def exchangesOf (state : SessionState) (stream : Bytes) : List (Bytes × SessionState) :=
  exchanges (stream.length + 1) state stream

section
variable {state : SessionState} {stream rest : Bytes} {request : RequestFrame}

theorem exchangesOf_error {e : ReadError} (h : cutRequest stream = (.error e, rest)) :
    exchangesOf state stream = [] := by
  rw [exchangesOf, exchanges, h]

theorem exchangesOf_ok (h : cutRequest stream = (.ok request, rest)) :
    exchangesOf state stream =
      exchange state request :: exchangesOf (exchange state request).2 rest := by
  have hlen := length_cutRequest h
  rw [exchangesOf, exchanges, h]
  exact congrArg _ (exchanges_fuel (by omega) (by omega))

/-- The blocking connection makes the exchanges of its stream and then ends. -/
theorem handleConnection_eq {τ : Type} (io : Source UInt8 τ) {n : ℕ} (c : Blocking τ)
    (h : (io.rest c.socket).length < n) :
    (handleConnection io (fun _ => none) n c).1.isSome ∧
      (handleConnection io (fun _ => none) n c).2.sent =
        c.sent ++ exchangesOf c.session (io.rest c.socket) := by
  induction n generalizing c with
  | zero => omega
  | succ n ih =>
      obtain ⟨u, hu, hrest⟩ := readRequestFrame_eq io c.socket
      rcases hcut : cutRequest (io.rest c.socket) with ⟨e | request, later⟩
      · rw [hcut] at hu
        rw [exchangesOf_error hcut, List.append_nil, handleConnection, handleOneRequest, hu]
        rcases e with e | e
        · cases e with
          | connectionClosed => exact ⟨rfl, rfl⟩
          | readFailed => exact ⟨rfl, rfl⟩
          | writeFailed => exact ⟨rfl, rfl⟩
        · exact ⟨rfl, rfl⟩
      · rw [hcut] at hu hrest
        dsimp only at hu hrest
        have hlen := length_cutRequest hcut
        rw [exchangesOf_ok hcut, handleConnection, handleOneRequest, hu]
        dsimp only
        obtain ⟨hend, hsent⟩ := ih
          { c with socket := u, session := (exchange c.session request).2,
                   sent := c.sent ++ [exchange c.session request] } (by rw [hrest]; omega)
        refine ⟨hend, ?_⟩
        rw [hsent, hrest, List.append_assoc]
        rfl

end

end Seftp.NativeConnection
