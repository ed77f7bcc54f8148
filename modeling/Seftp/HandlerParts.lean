import Seftp.SessionFrames
import Seftp.UploadHandlers

/-!
# What the parts of the upload handlers keep

A relation between the states before and after that every part of the upload
handlers keeps is kept by the handlers: assignments to the transfer, file calls, the
two kinds of calls on the upload table, the three responses, and taking and giving
back a slot. A refusal and a confirmation assign to the transfer only by resetting it.
-/
namespace Seftp.HandlerParts
open LittleEndian ExceptState OutsideWorld Text Protocol ClientStore StoreFrames ServerSession
open Answers SessionFrames UploadHandlers

/-- The relation is kept by each part of a refusal and of a confirmation. -/
structure RefusalParts (ctx : Ctx) (R : World → World → Prop) : Prop where
  tells : ∀ {α : Type} {x : Server α}, Keeps (Tells []) x → Keeps R x
  answers : ∀ {α : Type} {c : ResCode} {x : Server α}, Keeps (Quiet (Coded c)) x →
    c = .crcResult ∨ c = .transferDone ∨ c = .error → Keeps R x
  changeUploadRecord : ∀ (id : Option ℕ) (c : UploadChange),
    Keeps R (onStore (changeUploadRecord ctx.out id c))
  log : ∀ (key : LogKey) (event time : String),
    Keeps R (update fun w => w.setStore (w.store.appendLog key event time) : Server Unit)
  release : Keeps R releaseUploadSlot
  reset : Keeps R (resetTransferState ctx)

namespace RefusalParts

section
variable {ctx : Ctx} {version clientId : Bytes} {R : World → World → Prop}

theorem keeps_answer1607 (h : RefusalParts ctx R) (text : String) :
    Keeps R (answer1607 ctx clientId version text) :=
  h.answers (quiet_answer1607 text) (.inr (.inr rfl))

theorem keeps_answer1604 (h : RefusalParts ctx R) : Keeps R (answer1604 ctx clientId version) :=
  h.answers quiet_answer1604 (.inr (.inl rfl))

variable [IsTrans World R]

theorem keeps_abandon (h : RefusalParts ctx R) : Keeps R (abandon ctx) :=
  keeps_bind h.release fun _ => h.reset

variable [Std.Refl R]

theorem keeps_refuse (h : RefusalParts ctx R) (r : Refusal) :
    Keeps R (refuse ctx clientId version r) := by
  refine keeps_bind ?_ fun _ => keeps_bind ?_ fun _ => h.keeps_abandon
  · rcases r.failure with _ | reason
    · exact keeps_pure _
    · intro w
      refine keeps_ite (R := R) ?_ (keeps_pure _) w
      exact keeps_bind (h.changeUploadRecord _ _) fun _ => keeps_pure _
  · rcases r.answer with _ | text
    · exact keeps_pure _
    · exact h.keeps_answer1607 text

theorem keeps_request900 (h : RefusalParts ctx R) (payload : Bytes) :
    Keeps R (request900 ctx payload version clientId) := by
  refine keeps_ofExcept_bind fun fileName _ => keeps_bind (h.tells (tells_touch _)) fun _ =>
    keeps_bind (h.tells (tells_logEvent _ _)) fun _ => keeps_bind keeps_fetch fun w => ?_
  dsimp only
  split
  · refine keeps_ite (h.keeps_refuse _) ?_
    refine keeps_bind (h.changeUploadRecord _ _) fun ok => keeps_ite (h.keeps_refuse _) ?_
    exact keeps_bind h.keeps_answer1604 fun _ => h.keeps_abandon
  · exact h.keeps_refuse _

theorem keeps_request901 (h : RefusalParts ctx R) (payload : Bytes) :
    Keeps R (request901 ctx payload version clientId) := by
  refine keeps_ofExcept_bind fun fileName _ => keeps_bind (h.tells (tells_touch _)) fun _ =>
    keeps_bind keeps_fetch fun w => keeps_ite (h.keeps_refuse _) ?_
  refine keeps_bind (h.changeUploadRecord _ _) fun ok => keeps_ite (h.keeps_refuse _) ?_
  exact keeps_bind h.keeps_abandon fun _ => h.log _ _ _

theorem keeps_request902 (h : RefusalParts ctx R) (payload : Bytes) :
    Keeps R (request902 ctx payload version clientId) := by
  refine keeps_ofExcept_bind fun fileName _ => keeps_bind (h.tells (tells_touch _)) fun _ =>
    keeps_bind keeps_fetch fun w => keeps_ite (h.keeps_refuse _) ?_
  refine keeps_bind (h.changeUploadRecord _ _) fun ok => keeps_ite (h.keeps_refuse _) ?_
  exact keeps_bind (h.log _ _ _) fun _ => keeps_bind h.keeps_answer1604 fun _ => h.keeps_abandon

end

end RefusalParts

/-- The relation is kept by each part. -/
structure UploadParts (ctx : Ctx) (R : World → World → Prop) : Prop where
  tells : ∀ {α : Type} {x : Server α}, Keeps (Tells []) x → Keeps R x
  answers : ∀ {α : Type} {c : ResCode} {x : Server α}, Keeps (Quiet (Coded c)) x →
    c = .crcResult ∨ c = .transferDone ∨ c = .error → Keeps R x
  onTransfer : ∀ f : Transfer → Transfer, Keeps R (onTransfer f)
  onFiles : ∀ {α : Type} (x : FileProg α), Keeps R (onFiles x)
  changeUploadRecord : ∀ (id : Option ℕ) (c : UploadChange),
    Keeps R (onStore (changeUploadRecord ctx.out id c))
  createUploadRecord : ∀ (id name : String) (orig cipher : ℕ),
    Keeps R (onStore (createUploadRecord ctx.out id name orig cipher))
  log : ∀ (key : LogKey) (event time : String),
    Keeps R (update fun w => w.setStore (w.store.appendLog key event time) : Server Unit)
  acquire : Keeps R acquireUploadSlot
  release : Keeps R releaseUploadSlot

namespace UploadParts

section
variable {ctx : Ctx} {version clientId : Bytes} {R : World → World → Prop}

theorem keeps_answer1603 (h : UploadParts ctx R) (fileName : String) (contentSize : ℕ)
    (crc : UInt32) :
    Keeps R (answer1603 ctx clientId version fileName contentSize crc) :=
  h.answers (quiet_answer1603 fileName contentSize crc) (.inl rfl)

variable [IsTrans World R]

theorem keeps_resetTransferState (h : UploadParts ctx R) : Keeps R (resetTransferState ctx) :=
  keeps_look_bind fun _ => keeps_bind (h.onFiles _) fun _ => h.onTransfer _

theorem refusal (h : UploadParts ctx R) : RefusalParts ctx R where
  tells := h.tells
  answers := h.answers
  changeUploadRecord := h.changeUploadRecord
  log := h.log
  release := h.release
  reset := h.keeps_resetTransferState

theorem keeps_markUploadProgress (h : UploadParts ctx R) : Keeps R (markUploadProgress ctx) := by
  refine keeps_bind (h.tells ?_) fun now =>
    keeps_bind (h.onTransfer _) fun _ => h.tells tells_markActivity
  exact fun w => tells_setSession rfl rfl rfl rfl rfl

variable [Std.Refl R]

theorem keeps_openUpload (h : UploadParts ctx R) (p : Packet) :
    Keeps R (openUpload ctx clientId p) :=
  keeps_bind (h.onFiles _) fun _ => keeps_look_bind fun _ =>
    keeps_bind (h.onTransfer _) fun _ => keeps_bind (h.onFiles _) fun _ =>
      keeps_bind (h.onTransfer _) fun _ => keeps_ofExcept_bind fun _ _ =>
        keeps_bind (h.onTransfer _) fun _ => h.tells (tells_logEvent _ _)

theorem keeps_startUpload (h : UploadParts ctx R) (p : Packet) :
    Keeps R (startUpload ctx clientId version p) := by
  refine keeps_bind h.acquire fun acquired => keeps_ite ?_ ?_
  · exact keeps_bind (h.refusal.keeps_answer1607 _) fun _ =>
      keeps_bind h.keeps_resetTransferState fun _ => keeps_pure _
  · refine keeps_bind (h.onTransfer _) fun _ => keeps_bind h.keeps_markUploadProgress fun _ =>
      keeps_bind (h.tells (tells_touch _)) fun _ => keeps_look_bind fun t =>
        keeps_bind (h.createUploadRecord _ _ _ _) fun uploadId =>
          keeps_bind (h.onTransfer _) fun _ => keeps_ite ?_ ?_
    · exact keeps_bind (h.refusal.keeps_refuse _) fun _ => keeps_pure _
    · exact keeps_bind (h.keeps_openUpload p) fun _ => keeps_pure _

theorem keeps_writePlainStream (h : UploadParts ctx R) (plain : Bytes) :
    Keeps R (writePlainStream ctx plain) := by
  refine keeps_ite (keeps_pure _) (keeps_look_bind fun file => ?_)
  rcases file with _ | inode
  · exact keeps_raise _
  · exact keeps_bind (h.onFiles _) fun _ => h.onTransfer _

theorem keeps_processStreamingCipherChunk (h : UploadParts ctx R) (chunk : Bytes) (isLast : Bool) :
    Keeps R (processStreamingCipherChunk ctx chunk isLast) := by
  refine keeps_ite (keeps_raise _) (keeps_ite (keeps_raise _) ?_)
  refine keeps_bind (keeps_look_bind fun cipher => ?_) fun plain => keeps_look_bind fun tail => ?_
  · rcases cipher with _ | c
    · exact keeps_raise _
    · exact keeps_bind (h.onTransfer _) fun _ => keeps_pure _
  refine keeps_ite ?_ (keeps_ite (h.onTransfer _) ?_)
  · rcases BlockChaining.unpad 16 (tail ++ plain) with _ | finalPlain
    · exact keeps_raise _
    · exact keeps_bind (h.keeps_writePlainStream _) fun _ => h.onTransfer _
  · exact keeps_bind (h.keeps_writePlainStream _) fun _ => h.onTransfer _

theorem keeps_storeUpload (h : UploadParts ctx R) (p : Packet) (tmp path : String) :
    Keeps R (storeUpload ctx clientId version p tmp path) := by
  refine keeps_bind (h.onFiles _) fun _ => keeps_bind (h.onFiles _) fun _ =>
    keeps_bind (h.onTransfer _) fun _ => keeps_look_bind fun t =>
      keeps_ite (h.refusal.keeps_refuse _) ?_
  exact keeps_bind (h.onFiles _) fun _ => keeps_bind (h.onTransfer _) fun _ =>
    h.keeps_answer1603 _ _ _

theorem keeps_finishUpload (h : UploadParts ctx R) (p : Packet) :
    Keeps R (finishUpload ctx clientId version p) := by
  refine keeps_look_bind fun t => keeps_ite (h.refusal.keeps_refuse _) ?_
  refine keeps_bind (h.tells (tells_touch _)) fun _ => ?_
  split
  · exact h.keeps_storeUpload p _ _
  · exact h.refusal.keeps_refuse _

theorem keeps_receiveChunk (h : UploadParts ctx R) (p : Packet) :
    Keeps R (receiveChunk ctx clientId version p) := by
  refine keeps_look_bind fun t => ?_
  rcases checkOrder t p with r | _
  · exact h.refusal.keeps_refuse r
  refine keeps_bind h.keeps_markUploadProgress fun _ => keeps_bind (keeps_attempt ?_ fun e => ?_)
    fun failed => ?_
  · exact keeps_bind (h.keeps_processStreamingCipherChunk _ _) fun _ => keeps_pure _
  · split
    · exact keeps_pure _
    · exact keeps_raise _
  · rcases failed with _ | text
    · exact keeps_bind (h.onTransfer _) fun _ =>
        keeps_ite (h.keeps_finishUpload p) (keeps_pure _)
    · exact h.refusal.keeps_refuse _

theorem keeps_admitPacket (h : UploadParts ctx R) (p : Packet) :
    Keeps R (admitPacket ctx clientId version p) := by
  refine keeps_look_bind fun t => keeps_ite ?_ ?_
  · rcases acceptIv t p with r | t'
    · exact h.refusal.keeps_refuse r
    · exact h.onTransfer _
  · rcases checkChunk ctx.env.config t p with r | _
    · exact h.refusal.keeps_refuse r
    · have hgo (go : Bool) : Keeps R
          (if go = true then receiveChunk ctx clientId version p else pure ()) :=
        keeps_ite (h.keeps_receiveChunk p) (keeps_pure _)
      exact keeps_ite (keeps_bind (h.keeps_startUpload p) hgo) (keeps_bind (keeps_pure _) hgo)

theorem keeps_request828 (h : UploadParts ctx R) (payload : Bytes) :
    Keeps R (request828 ctx payload version clientId) := by
  unfold request828
  rcases parse828 payload with r | p
  · exact h.refusal.keeps_refuse r
  intro w
  refine keeps_bind (R := R) keeps_fetch (fun w => ?_) w
  rcases bindUpload w.store (hex clientId) w.session.transfer with r | t
  · exact h.refusal.keeps_refuse r
  refine keeps_bind (h.onTransfer _) fun _ => keeps_ite (h.refusal.keeps_refuse _) ?_
  rcases validateHeader ctx.env.config p with _ | msg
  · exact h.keeps_admitPacket p
  · exact keeps_bind (keeps_attempt (h.refusal.keeps_answer1607 _) fun _ => keeps_pure _) fun _ =>
      h.refusal.keeps_abandon

end

end UploadParts

end Seftp.HandlerParts
