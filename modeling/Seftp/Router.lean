import Seftp.UploadHandlers

/-!
# Dispatching a frame

`handle_frame`. The seven handlers of the application are a table, so that what
the router does by itself can be told from what a handler does. Whatever a
handler raises is answered with 1607; the reason written first hides a failed
send, so nothing is raised again.
-/
namespace Seftp.Router
open LittleEndian ExceptState OutsideWorld ServerSession Answers AccountHandlers UploadHandlers

/-- The handlers behind the handshake. -/
structure AppHandlers where
  request825 : Ctx → (payload version : Bytes) → Server Unit
  request826 : Ctx → (clientId payload version : Bytes) → Server Unit
  request827 : Ctx → (clientId payload version : Bytes) → Server Unit
  request828 : Ctx → (payload version clientId : Bytes) → Server Unit
  request900 : Ctx → (payload version clientId : Bytes) → Server Unit
  request901 : Ctx → (payload version clientId : Bytes) → Server Unit
  request902 : Ctx → (payload version clientId : Bytes) → Server Unit

/-- The module `handlers`. -/
def handlers : AppHandlers :=
  { request825, request826, request827, request828, request900, request901, request902 }

/-- A frame's header and payload as the router reads them. -/
structure Request where
  clientId : Bytes
  version : Bytes
  code : ℕ
  payload : Bytes
  deriving DecidableEq, Repr

def parseFrame (frame : Bytes) : Request :=
  { clientId := frame.take 16
    version := (frame.drop 16).take 1
    code := leNat ((frame.drop 17).take 2)
    payload := (frame.drop 23).take (leNat ((frame.drop 19).take 4)) }

/-- The header is complete and so is the payload it announces. -/
def wellFormed (frame : Bytes) : Bool :=
  23 ≤ frame.length && 23 + leNat ((frame.drop 19).take 4) ≤ frame.length

/-- The choice of the handler for a well-formed frame. -/
def dispatchAs (h : AppHandlers) (ctx : Ctx) (r : Request) (verified : Bool) : Server Unit :=
  if !verified ∧ r.code ≠ 829 ∧ r.code ≠ 830 then
    answer1607 ctx r.clientId r.version "stage7 handshake required"
  else if verified ∧ (r.code = 829 ∨ r.code = 830) then
    answer1607 ctx r.clientId r.version "stage7 handshake already completed"
  else if r.code = 825 then h.request825 ctx r.payload r.version
  else if r.code = 827 then h.request827 ctx r.clientId r.payload r.version
  else if r.code = 826 then h.request826 ctx r.clientId r.payload r.version
  else if r.code = 828 then h.request828 ctx r.payload r.version r.clientId
  else if r.code = 829 then request829 ctx r.payload r.version r.clientId
  else if r.code = 830 then request830 ctx r.payload r.version r.clientId
  else if r.code = 900 then h.request900 ctx r.payload r.version r.clientId
  else if r.code = 901 then h.request901 ctx r.payload r.version r.clientId
  else if r.code = 902 then h.request902 ctx r.payload r.version r.clientId
  else do
    onFrameBad "unknown_code"
    answer1607 ctx r.clientId r.version "protocol error: unknown code"
    let active ← look fun w => w.session.transfer.uploadActive
    if active then resetTransferState ctx else pure ()

def dispatch (h : AppHandlers) (ctx : Ctx) (r : Request) : Server Unit := do
  let verified ← look fun w => w.session.handshake.verified
  dispatchAs h ctx r verified

/-- The body of the `try` block. -/
def routeFrame (h : AppHandlers) (ctx : Ctx) (frame : Bytes) : Server Unit := do
  let r := parseFrame frame
  if frame.length < 23 then do
    onFrameBad "short_frame_missing_header"
    answer1607 ctx r.clientId r.version "protocol error: missing request header"
    resetTransferState ctx
  else if !wellFormed frame then do
    onFrameBad "short_frame_payload_truncated"
    answer1607 ctx r.clientId r.version "protocol error: truncated payload"
    resetTransferState ctx
  else dispatch h ctx r

/-- The `except Exception` clause. -/
def recover (ctx : Ctx) (r : Request) (e : PyError) : Server Unit := do
  onFrameBad "handle_frame_exception"
  let reason ← look fun w => w.session.disconnectReason
  if reason = "send_error" then raise e
  else do
    attempt (answer1607 ctx r.clientId r.version "server error: internal handler failure")
      fun _ => pure ()
    let active ← look fun w => w.session.transfer.uploadActive
    if active then resetTransferState ctx else pure ()

/-- The identity a timeout is answered to. -/
def noteIdentity (r : Request) (w : World) : World :=
  w.setSession { w.session with lastClientId := some r.clientId, lastVersion := some r.version }

def handleFrameWith (h : AppHandlers) (ctx : Ctx) (frame : Bytes) : Server Unit :=
  if frame.length < 17 then onFrameBad "short_frame_lt_17"
  else do
    let r := parseFrame frame
    update (noteIdentity r)
    attempt (routeFrame h ctx frame) (recover ctx r)

def handleFrame (ctx : Ctx) (frame : Bytes) : Server Unit := handleFrameWith handlers ctx frame

theorem handleFrameWith_short {h : AppHandlers} {ctx : Ctx} {frame : Bytes}
    (hlen : frame.length < 17) : handleFrameWith h ctx frame = onFrameBad "short_frame_lt_17" :=
  if_pos hlen

theorem handleFrameWith_long {h : AppHandlers} {ctx : Ctx} {frame : Bytes}
    (hlen : 17 ≤ frame.length)
    (w : World) : handleFrameWith h ctx frame w =
      attempt (routeFrame h ctx frame) (recover ctx (parseFrame frame))
        (noteIdentity (parseFrame frame) w) := by
  rw [handleFrameWith, if_neg (by omega)]
  rfl

end Seftp.Router
