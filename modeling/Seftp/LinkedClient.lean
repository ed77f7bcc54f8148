import Seftp.Pipeline
import Seftp.ResponseStream
import Seftp.UploadReplies

/-!
# The client and the server on one connection

The other end of the client's connection is the server of the other modules. A message
joins a queue, and the server handles the frames of the queue in order: any number of
them at once when a message is written and when the client waits for a response, and as
many as it takes when the response is not there yet. Before every frame any number of
frames of other connections may be handled.

If nothing is on its way and no response is there, the client waits in vain until the
server's timeout ends the connection: the line is hung up, and nothing is said about
what comes after.
-/
namespace Seftp.LinkedClient
open LittleEndian ExceptState OutsideWorld Text Protocol ClientStore StoreFrames ServerSession
open Answers SessionFrames UploadHandlers UploadSteps ChunkSteps AccountSteps FrameSteps Router
open HandshakeGate UploadStages UploadSoundness KeySteps KeyBinding RowSteps Confirmations
open PacketReports UploadReplies EventRuns Pipeline ClientProgram ClientUpload ResponseStream

/-! ### The server's end -/

/-- What a frame finds when the server comes to it. -/
structure Visit where
  world : World
  out : Outside
  frame : Bytes

/-- The server and the frames of this connection it has handled. -/
structure Served where
  system : System
  visits : List Visit

/-- Everything that is not decided by the two programs: which connection it is, what
arrives on the others before its frames, the outside world of its frames, and the pace
of the server. -/
structure Site where
  env : Env
  connection : ℕ
  others : ℕ → List Arrival
  out : ℕ → Outside
  pace : ℕ → ℕ

namespace Site

/-- The server before the next frame of this connection. -/
def before (site : Site) (s : Served) : System :=
  s.system.run site.env (site.others s.visits.length)

/-- `handle_frame` for the next frame. -/
def serve (site : Site) (s : Served) (frame : Bytes) : Served :=
  { system := (site.before s).step site.env
      { connection := site.connection, out := site.out s.visits.length, frame }
    visits := s.visits ++ [{ world := (site.before s).world site.connection
                             out := site.out s.visits.length, frame }] }

/-- All responses of the connection so far. -/
def sent (site : Site) (s : Served) : List Bytes := (s.system.sessions site.connection).sent

/-- What arrives at the client while the server goes from one state to another. -/
def said (site : Site) (s s' : Served) : Bytes := ((site.sent s').drop (site.sent s).length).flatten

end Site

/-- The queue to the server, and what the client has done with the responses. -/
structure Line where
  pipe : Pipe Served Bytes
  /-- Responses of the connection that the client has read. -/
  taken : ℕ
  moment : ℕ
  hungUp : Bool

namespace Site

def hears (site : Site) (message : Bytes) (l : Line) : Line × Bytes :=
  let pipe := (l.pipe.push message).advance site.serve (site.pace l.moment)
  ({ l with pipe, moment := l.moment + 1 }, site.said l.pipe.state pipe.state)

/-- The client waits for the first response that it has not read. -/
def awaitResponse (site : Site) (l : Line) : Pipe Served Bytes :=
  Pipe.advanceUntil site.serve (fun s => l.taken < (site.sent s).length) l.pipe.state
    l.pipe.underway

def speaks (site : Site) (l : Line) : Line × Bytes :=
  let waited := site.awaitResponse l
  let pipe := waited.advance site.serve (site.pace l.moment)
  let answered : Bool := l.taken < (site.sent waited.state).length
  ({ pipe
     taken := if answered then l.taken + 1 else l.taken
     moment := l.moment + 1
     hungUp := l.hungUp || !answered },
    site.said l.pipe.state pipe.state)

/-- The client's libraries and files, with the server at the other end. -/
def link (site : Site) (client : ClientEnv Unit) : ClientEnv Line where
  sha256Hex := client.sha256Hex
  verifyMessage := client.verifyMessage
  oaepDecrypt := client.oaepDecrypt
  publicOf := client.publicOf
  aesEncrypt := client.aesEncrypt
  newKeypair := client.newKeypair
  nonce := client.nonce
  makeIv := client.makeIv
  writeRaises := client.writeRaises
  fileFails := client.fileFails
  hears := site.hears
  speaks := site.speaks

/-- The server once it has handled everything that the client has written. -/
def settled (site : Site) (w : ClientWorld Line) : Served := w.peer.pipe.settled site.serve

/-- The responses that the client has not read, also those still to come. -/
def unread (site : Site) (w : ClientWorld Line) : List Bytes :=
  (site.sent (site.settled w)).drop w.peer.taken

/-- The other connections are other connections, and on this one responses go out and
database calls succeed. Its file operations may fail. -/
structure Steady (site : Site) : Prop where
  elsewhere : ∀ n, ∀ a ∈ site.others n, a.connection ≠ site.connection ∧ a.out.SqlWorks
  works : ∀ n, Works (site.out n)

end Site

/-! ### Reading -/

/-- The client program's reader cuts the first frame off the bytes that have come in. -/
theorem readResponseFrame_eq {σ : Type} (env : ClientEnv σ) (w : ClientWorld σ) :
    readResponseFrame env w =
      ((cutResponse (awaited env w).incoming).1,
        { awaited env w with
          incoming := (cutResponse (awaited env w).incoming).2
          trace := w.trace ++
            ((cutResponse (awaited env w).incoming).1.toOption.map Event.read).toList }) := by
  have htrace : w.trace = (awaited env w).trace := rfl
  have hstart : readResponseFrame env w = (ClientProgram.readExact 7 >>= fun hdr =>
      if kMaxPayload < readLe 4 3 hdr then raise "payload_size exceeds max"
      else ClientProgram.readExact (readLe 4 3 hdr) >>= fun payload =>
        note (.read { version := hdr.headD 0, code := readLe 2 1 hdr, payload }) >>=
          fun _ => pure { version := hdr.headD 0, code := readLe 2 1 hdr, payload })
      (awaited env w) := rfl
  rw [hstart, htrace]
  generalize awaited env w = x
  unfold cutResponse
  have hhdr := client_readExact 7 x
  by_cases hlen : x.incoming.length < 7
  · rw [if_pos hlen] at hhdr
    rw [if_pos hlen, bind_error hhdr, List.drop_of_length_le (by omega)]
    simp [Except.toOption]
  rw [if_neg hlen] at hhdr
  rw [if_neg hlen, bind_ok hhdr]
  by_cases hmax : kMaxPayload < readLe 4 3 (x.incoming.take 7)
  · rw [if_pos hmax, if_pos hmax]
    simp [Except.toOption, raise]
  rw [if_neg hmax, if_neg hmax]
  have hbody := client_readExact (readLe 4 3 (x.incoming.take 7))
    { x with incoming := x.incoming.drop 7 }
  by_cases hsize : (x.incoming.drop 7).length < readLe 4 3 (x.incoming.take 7)
  · rw [if_pos hsize] at hbody
    rw [if_pos hsize, bind_error hbody, List.drop_of_length_le hsize.le]
    simp [Except.toOption]
  · rw [if_neg hsize] at hbody
    rw [if_neg hsize, bind_ok hbody]
    rfl

/-! ### Streaming -/

/-- Streaming reads local files, writes messages and notes the checksum, and what these
three keep is kept. -/
structure StreamSteps {σ : Type} (env : ClientEnv σ) (R : ClientWorld σ → ClientWorld σ → Prop) :
    Prop where
  tick : ∀ w, R w (ticked w)
  hears : ∀ message w, R w (heard env message w)
  notes : ∀ crc w, R w { w with trace := w.trace ++ [.streamed crc] }

section
variable {σ : Type} {env : ClientEnv σ} {R : ClientWorld σ → ClientWorld σ → Prop}
variable (h : StreamSteps env R)
include h

theorem steps_fails : Keeps R (fails env) := fun w => h.tick w

variable [Std.Refl R] [IsTrans (ClientWorld σ) R]

theorem steps_write (message : Bytes) : Keeps R (write env message) := by
  have htick : Keeps R (tick : Client σ ℕ) := fun w => h.tick w
  exact keeps_bind htick fun n => keeps_ite (keeps_raise _) (keeps_update (h.hears message))

theorem steps_sendPacket (u : Upload) (packetData : Bytes) (s : Streaming) :
    Keeps R (sendPacket env u packetData s) := by
  refine keeps_ite (keeps_raise _) (keeps_ite (keeps_raise _) (keeps_ofExcept_bind fun m _ => ?_))
  exact keeps_bind (steps_write h m) fun _ => keeps_pure _

theorem steps_encryptBlocks (u : Upload) (plain : Bytes) (s : Streaming) :
    Keeps R (encryptBlocks env u plain s) := by
  have hfull (fuel : ℕ) (s : Streaming) : Keeps R (sendFullPackets env u fuel s) := by
    induction fuel generalizing s with
    | zero => exact keeps_pure _
    | succ fuel ih =>
        exact keeps_ite (keeps_pure _) (keeps_bind (steps_sendPacket h u _ _) fun s => ih s)
  exact hfull _ _

theorem steps_readPieces (u : Upload) (fuel : ℕ) (rest : Bytes) (s : Streaming) :
    Keeps R (readPieces env u fuel rest s) := by
  induction fuel generalizing rest s with
  | zero => exact keeps_pure _
  | succ fuel ih =>
      refine keeps_bind (steps_fails h) fun _ =>
        keeps_ite (keeps_pure _) (keeps_bind ?_ fun s => ?_)
      · exact keeps_ite (keeps_bind (steps_encryptBlocks h u _ _) fun _ => keeps_pure _)
          (keeps_pure _)
      · exact keeps_ite (keeps_pure _) (ih _ s)

theorem steps_streamUpload (u : Upload) (path : Bytes) : Keeps R (streamUpload env u path) := by
  have htick : Keeps R (tick : Client σ ℕ) := fun w => h.tick w
  have hopen : Keeps R (openFile env path) :=
    keeps_bind (steps_fails h) fun _ => keeps_ite (keeps_pure _) keeps_look
  refine keeps_bind htick fun n => keeps_bind (steps_write h _) fun _ =>
    keeps_bind hopen fun content => ?_
  cases content with
  | none => exact keeps_raise _
  | some content =>
      refine keeps_bind (steps_readPieces h u _ _ _) fun s =>
        keeps_bind (steps_encryptBlocks h u _ s) fun s => keeps_bind ?_ fun s => ?_
      · exact keeps_ite (keeps_pure _) (steps_sendPacket h u _ s)
      · exact keeps_ite (keeps_raise _) (keeps_ite (keeps_raise _) (keeps_pure _))

theorem steps_request828Streaming (uuid encryptKey path : Bytes) :
    Keeps R (request828Streaming env uuid encryptKey path) := by
  refine keeps_attempt (keeps_bind keeps_look fun file => ?_) fun _ => keeps_pure _
  cases file with
  | none => exact keeps_raise _
  | some content =>
      refine keeps_ofExcept_bind fun u _ => keeps_bind (steps_streamUpload h u path) fun crc => ?_
      exact keeps_bind (keeps_update (h.notes crc)) fun _ => keeps_pure _

end

/-! ### A line that is hung up stays so -/

/-- The other end is the same. -/
abbrev SamePeer {σ : Type} : ClientWorld σ → ClientWorld σ → Prop := Same ClientWorld.peer

section
variable {σ : Type} (env : ClientEnv σ)

theorem peer_atomicWrite (fileName content : Bytes) (ownerOnly : Bool) :
    Keeps SamePeer (atomicWrite env fileName content ownerOnly) := by
  have hfails : Keeps SamePeer (fails env) := fun _ => rfl
  have hset (name : Bytes) (c : Option Bytes) : Keeps SamePeer (setFile name c : Client σ Unit) :=
    fun _ => rfl
  have hremove (tmp : Bytes) : Keeps SamePeer (removeTmp env tmp) :=
    keeps_bind hfails fun _ => keeps_ite (keeps_raise _) (hset tmp none)
  have hdrop (tmp : Bytes) : Keeps SamePeer (do
      removeTmp env tmp
      pure false) := keeps_bind (hremove tmp) fun _ => keeps_pure _
  refine keeps_bind hfails fun _ => keeps_ite (keeps_pure _) (keeps_bind (hset _ _) fun _ =>
    keeps_bind hfails fun _ => keeps_ite (hdrop _) ?_)
  refine keeps_bind (keeps_ite hfails (keeps_pure _)) fun _ => keeps_ite (hdrop _) ?_
  refine keeps_bind (keeps_bind hfails fun _ => keeps_ite (keeps_pure _) (hset _ _)) fun _ =>
    keeps_bind hfails fun _ => keeps_ite (hdrop _) ?_
  exact keeps_bind (hset _ _) fun _ => keeps_bind (hset _ _) fun _ => keeps_pure _

theorem peer_acceptAesKey (frame : ResponseFrame) :
    Keeps SamePeer (ClientDialogue.acceptAesKey env frame) := by
  have hfatal (text : Bytes) : Keeps SamePeer (ClientDialogue.fatal text : Client σ _) :=
    fun _ => rfl
  have hopen : Keeps SamePeer (openFile env kPrivKey) :=
    keeps_bind (fun _ => rfl) fun _ => keeps_ite (keeps_pure _) keeps_look
  have hdecrypt (c : Bytes) : Keeps SamePeer (ClientDialogue.rsaOaepSha1DecryptFromFile env c) := by
    refine keeps_ite (keeps_raise _) (keeps_bind hopen fun priv => ?_)
    rcases priv.bind (fun der => env.oaepDecrypt der c) with _ | key
    · exact keeps_raise _
    · exact keeps_ite (keeps_raise _) (keeps_pure _)
  have hanswer (c : Bytes) : Keeps SamePeer (ClientDialogue.answer1602 env c) := by
    refine keeps_bind (keeps_attempt (hdecrypt c) fun _ => keeps_raise _) fun key =>
      keeps_bind (keeps_bind (peer_atomicWrite env _ _ _) fun _ => ?_) fun _ => keeps_pure _
    exact keeps_ite (keeps_bind (fun _ => rfl) fun _ => keeps_pure _) (keeps_pure _)
  refine keeps_attempt (keeps_ofExcept_bind fun r _ => keeps_bind ?_ fun _ =>
    keeps_bind (fun _ => rfl) fun _ => keeps_pure _) fun e => hfatal _
  refine keeps_bind keeps_look fun cc => keeps_ite (keeps_raise _) (keeps_ite (keeps_raise _)
    (keeps_ite (keeps_raise _) (keeps_bind ?_ fun _ => keeps_pure _)))
  exact keeps_ite (hanswer _) (hanswer _)

/-- Only reading and writing reach the other end. -/
theorem peer_dispatch (originalCrc : Option UInt32) (frame : ResponseFrame) :
    Keeps SamePeer (ClientDialogue.dispatch env originalCrc frame) := by
  have hfatal (text : Bytes) : Keeps SamePeer (do
      let step ← ClientDialogue.fatal text
      pure (step, false) : Client σ (ClientDialogue.NextStep × Bool)) := fun _ => rfl
  unfold ClientDialogue.dispatch
  rcases ResCode.ofValue frame.code with _ | code
  · exact hfatal _
  · cases code with
    | registerOk =>
        refine keeps_ofExcept_bind fun payload _ => keeps_bind ?_ fun clientId =>
          keeps_bind (fun _ => rfl) fun _ => keeps_pure _
        exact keeps_bind keeps_look fun name => keeps_bind (peer_atomicWrite env _ _ _) fun _ =>
          keeps_ite (keeps_pure _) (keeps_pure _)
    | registerFail => exact hfatal _
    | aesKey => exact keeps_bind (peer_acceptAesKey env frame) fun _ => keeps_pure _
    | crcResult => exact keeps_ofExcept_bind fun r _ => keeps_pure _
    | transferDone => exact keeps_pure _
    | reloginOk => exact keeps_bind (peer_acceptAesKey env frame) fun _ => keeps_pure _
    | reloginFail =>
        refine keeps_bind (keeps_ite (fun _ => rfl) (keeps_ite ?_ ?_)) fun _ => keeps_pure _
        · exact keeps_bind (fun _ => rfl) fun _ => keeps_pure _
        · exact keeps_bind (fun _ => rfl) fun _ => keeps_pure _
    | error => exact hfatal _
    | serverHello => exact hfatal _

end

/-! ### The server's end between two frames -/

/-- What a verified session of a server relies on from frame to frame. -/
structure Healthy (connection : ℕ) (s : System) : Prop where
  apart : Apart s
  sound : Sound (s.world connection)
  begun : Begun (s.world connection).session.transfer
  ready : Ready s.store
  verified : (s.sessions connection).handshake.verified = true

section
variable {env : Env} {connection : ℕ} {s : System} {a : Arrival}

theorem ready_step (env : Env) (h : Ready s.store) (ho : a.out.SqlWorks) :
    Ready (s.step env a).store :=
  ready_handleFrame h (show (Ctx.mk env a.out).out.SqlWorks from ho) a.frame

theorem healthy_elsewhere (env : Env) (h : Healthy connection s) (ha : a.connection ≠ connection)
    (ho : a.out.SqlWorks) : Healthy connection (s.step env a) := by
  have hsession : (s.step env a).sessions connection = s.sessions connection :=
    sessions_step env ha.symm
  refine ⟨apart_step h.apart a, ?_, ?_, ready_step env h.ready ho, ?_⟩
  · unfold Sound
    rw [show ((s.step env a).world connection).session = _ from hsession]
    exact h.sound
  · rw [show ((s.step env a).world connection).session = _ from hsession]
    exact h.begun
  · rw [hsession]
    exact h.verified

theorem healthy_own (h : Healthy connection s) (ha : a.connection = connection)
    (ho : a.out.SqlWorks) : Healthy connection (s.step env a) := by
  subst ha
  have hworld : (s.step env a).world a.connection =
      (handleFrame ⟨env, a.out⟩ a.frame (s.world a.connection)).2 := world_step s a
  refine ⟨apart_step h.apart a, ?_, ?_, ready_step env h.ready ho, ?_⟩
  · rw [hworld]
    exact sound_handleFrame h.sound a.frame
  · rw [hworld]
    exact begun_steps h.begun (steps_of_sound h.sound a.frame)
  · change ((s.step env a).world a.connection).session.handshake.verified = true
    rw [hworld, (open_handleFrame _ a.frame h.verified).handshake]
    exact h.verified

theorem healthy_others {as : List Arrival} (h : Healthy connection s)
    (has : ∀ a ∈ as, a.connection ≠ connection ∧ a.out.SqlWorks) :
    Healthy connection (s.run env as) ∧
      (s.run env as).sessions connection = s.sessions connection := by
  induction as generalizing s with
  | nil => exact ⟨h, rfl⟩
  | cons a as ih =>
      obtain ⟨hother, ho⟩ := has a List.mem_cons_self
      obtain ⟨hrun, hsession⟩ := ih (healthy_elsewhere env h hother ho) fun b hb =>
        has b (List.mem_cons_of_mem a hb)
      exact ⟨hrun, hsession.trans (sessions_step env hother.symm)⟩

/-- What every frame keeps of the store is kept by the others. -/
theorem registered_others {cid : Bytes} {as : List Arrival} (h : Healthy connection s)
    (has : ∀ a ∈ as, a.connection ≠ connection ∧ a.out.SqlWorks) (hk : Registered cid s.store) :
    Registered cid (s.run env as).store := by
  induction as generalizing s with
  | nil => exact hk
  | cons a as ih =>
      obtain ⟨hother, ho⟩ := has a List.mem_cons_self
      exact ih (healthy_elsewhere env h hother ho) (fun b hb => has b (List.mem_cons_of_mem a hb))
        (registered_handleFrame ⟨env, a.out⟩ h.ready.linked a.frame hk)

end

namespace Site

section
variable {site : Site} {s : Served} {frame : Bytes} {frames : List Bytes}

def Healthy (site : Site) (s : Served) : Prop := LinkedClient.Healthy site.connection s.system

/-- The transfer of the connection. -/
def transfer (site : Site) (s : Served) : Transfer := (s.system.sessions site.connection).transfer

/-- What the next frame finds. -/
def scene (site : Site) (s : Served) : World := (site.before s).world site.connection

/-- The session that answers the next frame. -/
def ctx (site : Site) (s : Served) : Ctx := ⟨site.env, site.out s.visits.length⟩

theorem healthy_before (hsite : site.Steady) (h : site.Healthy s) :
    LinkedClient.Healthy site.connection (site.before s) :=
  (healthy_others h (hsite.elsewhere _)).1

/-- The others do not touch the session. -/
theorem scene_session (hsite : site.Steady) (h : site.Healthy s) :
    (site.scene s).session = s.system.sessions site.connection :=
  (healthy_others h (hsite.elsewhere _)).2

theorem attentive_scene (hsite : site.Steady) (h : site.Healthy s) :
    Attentive (site.ctx s) (site.scene s) :=
  have hb := healthy_before hsite h
  ⟨hb.verified, hb.begun, hb.ready, hsite.works _⟩

theorem live_scene (hsite : site.Steady) (h : site.Healthy s) : (rowsOf (site.scene s)).Live :=
  (healthy_before hsite h).apart.live _

theorem healthy_serve (hsite : site.Steady) (h : site.Healthy s) (frame : Bytes) :
    site.Healthy (site.serve s frame) :=
  healthy_own (healthy_before hsite h) rfl (hsite.works _).sql

theorem registered_scene {cid : Bytes} (hsite : site.Steady) (h : site.Healthy s)
    (hk : Registered cid s.system.store) : Registered cid (site.scene s).store :=
  registered_others h (hsite.elsewhere _) hk

theorem registered_serve {cid : Bytes} (hsite : site.Steady) (h : site.Healthy s) (frame : Bytes)
    (hk : Registered cid (site.scene s).store) : Registered cid (site.serve s frame).system.store :=
  registered_handleFrame (site.ctx s) (healthy_before hsite h).ready.linked frame hk

/-- A frame is handled in its scene. -/
theorem session_serve (s : Served) (frame : Bytes) :
    (site.serve s frame).system.sessions site.connection =
      (handleFrame (site.ctx s) frame (site.scene s)).2.session :=
  congrArg World.session (world_step (site.before s)
    { connection := site.connection, out := site.out s.visits.length, frame })

theorem sent_scene (hsite : site.Steady) (h : site.Healthy s) :
    (site.scene s).session.sent = site.sent s := by
  rw [scene_session hsite h]
  rfl

theorem sent_after (s : Served) (frame : Bytes) : site.sent (site.serve s frame) =
    (handleFrame (site.ctx s) frame (site.scene s)).2.session.sent :=
  congrArg Session.sent (session_serve s frame)

theorem sent_serve (hsite : site.Steady) (h : site.Healthy s) (frame : Bytes) :
    site.sent s <+: site.sent (site.serve s frame) := by
  obtain ⟨ms, hms, -⟩ :=
    (open_handleFrame (site.ctx s) frame (attentive_scene hsite h).verified).sent
  rw [sent_scene hsite h] at hms
  exact ⟨ms, by rw [sent_after, hms]⟩

/-- Frame after frame the session stays healthy and only adds to its responses. -/
theorem serve_run (hsite : site.Steady) (h : site.Healthy s) (frames : List Bytes) :
    site.Healthy (EventRuns.run site.serve s frames) ∧
      site.sent s <+: site.sent (EventRuns.run site.serve s frames) := by
  induction frames generalizing s with
  | nil => exact ⟨h, List.prefix_rfl⟩
  | cons frame frames ih =>
      obtain ⟨hrun, hgrown⟩ := ih (healthy_serve hsite h frame)
      exact ⟨hrun, (sent_serve hsite h frame).trans hgrown⟩

/-! ### The client's end -/

/-- The bytes that have come in are the responses that the client has not read. -/
structure Attuned (site : Site) (w : ClientWorld Line) : Prop where
  healthy : site.Healthy w.peer.pipe.state
  arrived : w.incoming = ((site.sent w.peer.pipe.state).drop w.peer.taken).flatten
  taken : w.peer.taken ≤ (site.sent w.peer.pipe.state).length

variable {client : ClientEnv Unit} {w : ClientWorld Line}

/-- What arrives is what the client has not heard yet. -/
theorem arrived_said {s' : Served} {taken : ℕ} (h : site.sent s <+: site.sent s')
    (htaken : taken ≤ (site.sent s).length) :
    ((site.sent s).drop taken).flatten ++ site.said s s' =
      ((site.sent s').drop taken).flatten := by
  obtain ⟨ms, hms⟩ := h
  rw [said, ← hms, List.drop_left, List.drop_append_of_le_length htaken, List.flatten_append]

theorem settled_heard (client : ClientEnv Unit) (message : Bytes) (w : ClientWorld Line) :
    site.settled (heard (site.link client) message w) = site.serve (site.settled w) message := by
  change ((w.peer.pipe.push message).advance site.serve _).settled site.serve = _
  rw [Pipe.settled_advance, Pipe.settled_push]
  rfl

theorem attuned_heard (hsite : site.Steady) (h : site.Attuned w) (message : Bytes) :
    site.Attuned (heard (site.link client) message w) := by
  obtain ⟨hhealthy, hgrown⟩ := serve_run hsite h.healthy
    ((w.peer.pipe.push message).underway.take (site.pace w.peer.moment))
  refine ⟨hhealthy, ?_, h.taken.trans hgrown.length_le⟩
  change w.incoming ++ site.said _ _ = _
  rw [h.arrived]
  exact arrived_said hgrown h.taken

/-- The server while the client waits. -/
theorem awaited_pipe (client : ClientEnv Unit) (hsite : site.Steady) (h : site.Attuned w) :
    let x := awaited (site.link client) w
    site.settled x = site.settled w ∧ site.Healthy x.peer.pipe.state ∧
      x.incoming = ((site.sent x.peer.pipe.state).drop w.peer.taken).flatten ∧
      site.sent (site.awaitResponse w.peer).state <+: site.sent x.peer.pipe.state := by
  intro x
  obtain ⟨n, hn⟩ := Pipe.advanceUntil_run site.serve (fun s => w.peer.taken < (site.sent s).length)
    w.peer.pipe.state w.peer.pipe.underway
  obtain ⟨hhealthy, hgrown⟩ := serve_run hsite h.healthy (w.peer.pipe.underway.take n)
  rw [← hn] at hhealthy hgrown
  obtain ⟨hlater, hmore⟩ := serve_run hsite hhealthy
    ((site.awaitResponse w.peer).underway.take (site.pace w.peer.moment))
  refine ⟨?_, hlater, ?_, hmore⟩
  · change ((site.awaitResponse w.peer).advance site.serve _).settled site.serve = _
    rw [Pipe.settled_advance]
    exact Pipe.settled_advanceUntil
  · change w.incoming ++ site.said _ _ = _
    rw [h.arrived]
    exact arrived_said (hgrown.trans hmore) h.taken

/-- The responses so far begin the responses once everything has been handled. -/
theorem sent_settled (hsite : site.Steady) (h : site.Healthy w.peer.pipe.state) :
    site.sent w.peer.pipe.state <+: site.sent (site.settled w) :=
  (serve_run hsite h w.peer.pipe.underway).2

/-- Whether a response comes does not depend on the pace. -/
theorem answered_iff (site : Site) (w : ClientWorld Line) :
    w.peer.taken < (site.sent (site.awaitResponse w.peer).state).length ∨
      site.unread w = [] ∧ (site.awaitResponse w.peer).underway = [] ∧
        (site.awaitResponse w.peer).state = site.settled w := by
  by_cases hin : w.peer.taken < (site.sent (site.awaitResponse w.peer).state).length
  · exact .inl hin
  have hnil : (site.awaitResponse w.peer).underway = [] := by
    rcases Pipe.advanceUntil_ends site.serve (fun s => w.peer.taken < (site.sent s).length)
      w.peer.pipe.state w.peer.pipe.underway with h | h
    · exact (hin (of_decide_eq_true h)).elim
    · exact h
  have hsettled : (site.awaitResponse w.peer).settled site.serve = site.settled w :=
    Pipe.settled_advanceUntil
  rw [Pipe.settled, hnil, EventRuns.run_nil] at hsettled
  refine .inr ⟨?_, hnil, hsettled⟩
  rw [unread, ← hsettled]
  exact List.drop_eq_nil_of_le (Nat.le_of_not_lt hin)

/-- A response has been read. -/
structure Took (site : Site) (frame : ResponseFrame) (w w' : ClientWorld Line) : Prop where
  attuned : site.Attuned w'
  settled : site.settled w' = site.settled w
  taken : w'.peer.taken = w.peer.taken + 1
  hungUp : w'.peer.hungUp = w.peer.hungUp
  context : w'.cc = w.cc
  files : w'.files = w.files
  trace : w'.trace = w.trace ++ [.read frame]

/-- The client reads the first response that it has not read, whatever the pace. -/
theorem read_takes (client : ClientEnv Unit) (hsite : site.Steady) (h : site.Attuned w)
    {r : Response} {rest : List Bytes} (hunread : site.unread w = r.encoded :: rest) :
    ∃ w', readResponseFrame (site.link client) w = (.ok r.frame, w') ∧ site.Took r.frame w w' := by
  obtain ⟨hsettled, hhealthy, harrived, hmore⟩ := awaited_pipe client hsite h
  have hanswered : w.peer.taken < (site.sent (site.awaitResponse w.peer).state).length :=
    (answered_iff site w).resolve_right fun hno => by
      rw [hno.1] at hunread
      cases hunread
  have hlater := Nat.lt_of_lt_of_le hanswered hmore.length_le
  have htaken : (awaited (site.link client) w).peer.taken = w.peer.taken + 1 :=
    if_pos (decide_eq_true hanswered)
  have hhung : (awaited (site.link client) w).peer.hungUp = w.peer.hungUp := by
    change (w.peer.hungUp || !decide _) = _
    rw [decide_eq_true hanswered, Bool.not_true, Bool.or_false]
  -- the responses that have come in begin those that are unread
  obtain ⟨later, hdrop⟩ : ∃ later, (site.sent (awaited (site.link client) w).peer.pipe.state).drop
      w.peer.taken = r.encoded :: later := by
    have hgrown := sent_settled (w := awaited (site.link client) w) hsite hhealthy
    rw [hsettled] at hgrown
    obtain ⟨ms, hms⟩ := hgrown
    have hunread' := hunread
    rw [unread, ← hms, List.drop_append_of_le_length hlater.le] at hunread'
    rcases hd : (site.sent (awaited (site.link client) w).peer.pipe.state).drop w.peer.taken with
      _ | ⟨m, later⟩
    · exact absurd (List.drop_eq_nil_iff.mp hd) (Nat.not_le_of_lt hlater)
    · rw [hd, List.cons_append] at hunread'
      exact ⟨later, by rw [(List.cons.inj hunread').1]⟩
  have hrest : (site.sent (awaited (site.link client) w).peer.pipe.state).drop (w.peer.taken + 1) =
      later := by
    rw [← List.drop_drop, hdrop, List.drop_one, List.tail_cons]
  have hcut : cutResponse (awaited (site.link client) w).incoming =
      (.ok r.frame, later.flatten) := by
    rw [harrived, hdrop, List.flatten_cons]
    exact r.cut_encoded _
  have hread := readResponseFrame_eq (site.link client) w
  rw [hcut] at hread
  refine ⟨_, hread, ?_⟩
  refine ⟨⟨hhealthy, ?_, ?_⟩, hsettled, htaken, hhung, rfl, rfl, rfl⟩
  · change later.flatten = ((site.sent _).drop (awaited (site.link client) w).peer.taken).flatten
    rw [htaken, hrest]
  · change (awaited (site.link client) w).peer.taken ≤ _
    rw [htaken]
    exact hlater

/-- Where every response has been read the client waits in vain. -/
theorem read_hangs (client : ClientEnv Unit) (hsite : site.Steady) (h : site.Attuned w)
    (hunread : site.unread w = []) :
    ∃ e w', readResponseFrame (site.link client) w = (.error e, w') ∧ w'.peer.hungUp = true := by
  obtain ⟨hsettled, hhealthy, harrived, -⟩ := awaited_pipe client hsite h
  have hfew : (site.sent (site.settled w)).length ≤ w.peer.taken :=
    List.drop_eq_nil_iff.mp hunread
  have hgrown := sent_settled (w := awaited (site.link client) w) hsite hhealthy
  rw [hsettled] at hgrown
  have hnone : (awaited (site.link client) w).incoming = [] := by
    rw [harrived, List.drop_eq_nil_of_le (hgrown.length_le.trans hfew)]
    rfl
  have hcut : cutResponse (awaited (site.link client) w).incoming =
      (.error "EOF while reading frame", []) := by
    rw [hnone]
    rfl
  have hread := readResponseFrame_eq (site.link client) w
  rw [hcut] at hread
  refine ⟨_, _, hread, ?_⟩
  change (w.peer.hungUp || !decide _) = true
  rcases answered_iff site w with hanswered | ⟨-, -, hstate⟩
  · obtain ⟨-, -, -, hmore⟩ := awaited_pipe client hsite h
    have := hmore.length_le.trans (hgrown.length_le.trans hfew)
    omega
  · rw [hstate, decide_eq_false (Nat.not_lt_of_le hfew), Bool.not_false, Bool.or_true]

/-! ### Writing -/

/-- The messages among the events. -/
def messages (es : List ClientProgram.Event) : List Bytes :=
  es.filterMap fun e =>
    match e with
    | .wrote m => some m
    | _ => none

/-- The responses among the events. -/
def framesRead (es : List ClientProgram.Event) : List ResponseFrame :=
  es.filterMap fun e =>
    match e with
    | .read frame => some frame
    | _ => none

/-- Messages have been written and nothing has been read. -/
structure Conveys (site : Site) (w w' : ClientWorld Line) : Prop where
  events : ∃ es, w'.trace = w.trace ++ es ∧ framesRead es = [] ∧
    site.settled w' = EventRuns.run site.serve (site.settled w) (messages es)
  attuned : site.Attuned w → site.Attuned w'
  taken : w'.peer.taken = w.peer.taken
  hungUp : w'.peer.hungUp = w.peer.hungUp
  context : w'.cc = w.cc
  files : w'.files = w.files

theorem framesRead_append (es fs : List ClientProgram.Event) :
    framesRead (es ++ fs) = framesRead es ++ framesRead fs := List.filterMap_append

instance : Std.Refl site.Conveys := ⟨fun w => ⟨⟨[], by simp, rfl, rfl⟩, id, rfl, rfl, rfl, rfl⟩⟩

instance : IsTrans (ClientWorld Line) site.Conveys where
  trans a b c h h' := by
    obtain ⟨es, hes, hread, hsettled⟩ := h.events
    obtain ⟨fs, hfs, hread', hsettled'⟩ := h'.events
    refine ⟨⟨es ++ fs, by rw [hfs, hes, List.append_assoc], ?_, ?_⟩, h'.attuned ∘ h.attuned,
      h'.taken.trans h.taken, h'.hungUp.trans h.hungUp, h'.context.trans h.context,
      h'.files.trans h.files⟩
    · rw [framesRead_append, hread, hread']
      rfl
    · rw [hsettled', hsettled, ← EventRuns.run_append, messages, messages, messages,
        List.filterMap_append]

theorem conveys_heard (hsite : site.Steady) (message : Bytes) (w : ClientWorld Line) :
    site.Conveys w (heard (site.link client) message w) :=
  ⟨⟨[.wrote message], rfl, rfl, settled_heard client message w⟩, fun h =>
    attuned_heard hsite h message, rfl, rfl, rfl, rfl⟩

theorem steps_conveys (client : ClientEnv Unit) (hsite : site.Steady) :
    StreamSteps (site.link client) site.Conveys where
  tick w := ⟨⟨[], by simp [ticked], rfl, rfl⟩, fun h => ⟨h.healthy, h.arrived, h.taken⟩, rfl,
    rfl, rfl, rfl⟩
  hears := conveys_heard hsite
  notes crc w := ⟨⟨[.streamed crc], rfl, rfl, rfl⟩, fun h => ⟨h.healthy, h.arrived, h.taken⟩,
    rfl, rfl, rfl, rfl⟩

/-! ### A part of a call -/

/-- The bytes of a response. -/
def frameBytes (f : ResponseFrame) : Bytes :=
  [f.version] ++ leBytes 2 f.code ++ leBytes 4 f.payload.length ++ f.payload

/-- The responses that the client has read. -/
def heardSoFar (site : Site) (w : ClientWorld Line) : List Bytes :=
  (site.sent (site.settled w)).take w.peer.taken

/-- The client goes on: what it reads are the next responses, and its identity and its
local files are the same. -/
structure Goes (site : Site) (w w' : ClientWorld Line) : Prop where
  attuned : site.Attuned w'
  hungUp : w'.peer.hungUp = w.peer.hungUp
  clientId : w'.cc.clientId = w.cc.clientId
  files : w'.files = w.files
  reads : ∃ fs, framesRead w'.trace = framesRead w.trace ++ fs ∧
    site.heardSoFar w' = site.heardSoFar w ++ fs.map frameBytes

variable {w' w'' : ClientWorld Line}

theorem Goes.refl (h : site.Attuned w) : site.Goes w w := ⟨h, rfl, rfl, rfl, [], by simp, by simp⟩

theorem Goes.trans (h : site.Goes w w') (h' : site.Goes w' w'') : site.Goes w w'' := by
  obtain ⟨fs, hfs, hheard⟩ := h.reads
  obtain ⟨gs, hgs, hheard'⟩ := h'.reads
  refine ⟨h'.attuned, h'.hungUp.trans h.hungUp, h'.clientId.trans h.clientId,
    h'.files.trans h.files, fs ++ gs, by rw [hgs, hfs, List.append_assoc], ?_⟩
  rw [hheard', hheard, List.append_assoc, List.map_append]

theorem healthy_settled (hsite : site.Steady) (h : site.Attuned w) :
    site.Healthy (site.settled w) := (serve_run hsite h.healthy w.peer.pipe.underway).1

theorem taken_settled (hsite : site.Steady) (h : site.Attuned w) :
    w.peer.taken ≤ (site.sent (site.settled w)).length :=
  h.taken.trans (sent_settled hsite h.healthy).length_le

theorem goes_of_conveys (hsite : site.Steady) (h : site.Attuned w) (hc : site.Conveys w w') :
    site.Goes w w' := by
  obtain ⟨es, hes, hread, hsettled⟩ := hc.events
  refine ⟨hc.attuned h, hc.hungUp, congrArg _ hc.context, hc.files, [], ?_, ?_⟩
  · rw [hes, framesRead_append, hread]
  · obtain ⟨ms, hms⟩ := (serve_run hsite (healthy_settled hsite h) (messages es)).2
    rw [heardSoFar, heardSoFar, hsettled, hc.taken, ← hms,
      List.take_append_of_le_length (taken_settled hsite h), List.map_nil, List.append_nil]

theorem goes_of_took {r : Response} {rest : List Bytes}
    (hunread : site.unread w = r.encoded :: rest)
    (ht : site.Took r.frame w w') : site.Goes w w' ∧ site.unread w' = rest := by
  have hnext : (site.sent (site.settled w))[w.peer.taken]? = some r.encoded := by
    have := congrArg (fun l => l[0]?) hunread
    simpa [unread] using this
  refine ⟨⟨ht.attuned, ht.hungUp, congrArg _ ht.context, ht.files, [r.frame], ?_, ?_⟩, ?_⟩
  · rw [ht.trace, framesRead_append]
    rfl
  · rw [heardSoFar, heardSoFar, ht.settled, ht.taken, List.take_add_one, hnext]
    rfl
  · rw [unread, ht.settled, ht.taken, ← List.drop_drop, show List.drop _ _ = _ from hunread,
      List.drop_one, List.tail_cons]

/-! ### The line over a whole call -/

/-- A line that has been hung up stays so, and frames that have been written are not taken
back. -/
structure Onward (site : Site) (w w' : ClientWorld Line) : Prop where
  down : w.peer.hungUp = true → w'.peer.hungUp = true
  visits : (site.settled w).visits <+: (site.settled w').visits

instance : Std.Refl site.Onward := ⟨fun _ => ⟨id, List.prefix_rfl⟩⟩

instance : IsTrans (ClientWorld Line) site.Onward where
  trans _ _ _ h h' := ⟨h'.down ∘ h.down, h.visits.trans h'.visits⟩

theorem onward_of_peer (h : w'.peer = w.peer) : site.Onward w w' := by
  have hsettled : site.settled w' = site.settled w := by rw [settled, settled, h]
  exact ⟨fun hd => by rw [h]; exact hd, hsettled ▸ List.prefix_rfl⟩

theorem onward_heard (message : Bytes) (w : ClientWorld Line) :
    site.Onward w (heard (site.link client) message w) := by
  refine ⟨id, ?_⟩
  rw [settled_heard]
  exact List.prefix_append _ _

theorem onward_awaited (w : ClientWorld Line) : site.Onward w (awaited (site.link client) w) := by
  have hsettled : site.settled (awaited (site.link client) w) = site.settled w := by
    change ((site.awaitResponse w.peer).advance site.serve _).settled site.serve = _
    rw [Pipe.settled_advance]
    exact Pipe.settled_advanceUntil
  refine ⟨fun h => ?_, hsettled ▸ List.prefix_rfl⟩
  change (w.peer.hungUp || _) = true
  rw [h, Bool.true_or]

theorem keeps_onward {α : Type} {x : Client Line α} (h : Keeps SamePeer x) : Keeps site.Onward x :=
  h.mono fun _ _ => onward_of_peer

theorem onward_answerManager (originalCrc : Option UInt32) :
    Keeps site.Onward (ClientDialogue.answerManager (site.link client) originalCrc) := by
  have hexact (n : ℕ) : Keeps site.Onward (ClientProgram.readExact n : Client Line Bytes) :=
    keeps_bind keeps_fetch fun _ => keeps_bind (keeps_update fun _ => onward_of_peer rfl) fun _ =>
      keeps_ite (keeps_raise _) (keeps_pure _)
  refine keeps_bind ?_ fun frame => keeps_onward (peer_dispatch _ originalCrc frame)
  refine keeps_bind (keeps_update onward_awaited) fun _ => keeps_bind (hexact 7) fun hdr =>
    keeps_ite (keeps_raise _) (keeps_bind (hexact _) fun payload => ?_)
  exact keeps_bind (keeps_update fun _ => onward_of_peer rfl) fun _ => keeps_pure _

theorem onward_confirm (build : ClientId → Bytes → Bytes) (name uuid : Bytes) :
    Keeps site.Onward (confirm (site.link client) build name uuid) := by
  have hwrite (m : Bytes) : Keeps site.Onward (write (site.link client) m) :=
    keeps_bind (fun _ => onward_of_peer rfl) fun _ =>
      keeps_ite (keeps_raise _) (keeps_update (onward_heard m))
  exact keeps_attempt (keeps_ofExcept_bind fun m _ => hwrite m) fun _ => keeps_pure _

theorem onward_sendSingleFile (site : Site) (client : ClientEnv Unit) (isOpen : Bool)
    (aesKey path : Bytes) :
    Keeps site.Onward (sendSingleFile (site.link client) isOpen aesKey path) := by
  have herror (text : Bytes) : Keeps site.Onward (setError text : Client Line Unit) :=
    fun _ => onward_of_peer rfl
  have hfail (text : String) :
      Keeps site.Onward (ClientDialogue.failWith text : Client Line Bool) :=
    keeps_bind (herror _) fun _ => keeps_pure _
  have hsteps : StreamSteps (site.link client) site.Onward :=
    ⟨fun _ => onward_of_peer rfl, onward_heard, fun _ _ => onward_of_peer rfl⟩
  have hretry (path : Bytes) (left : ℕ) :
      Keeps site.Onward (retryLoop (site.link client) aesKey path left) := by
    induction left with
    | zero => exact keeps_pure _
    | succ left ih =>
        refine keeps_bind keeps_look fun cc =>
          keeps_bind (steps_request828Streaming hsteps _ _ _) fun original => ?_
        cases original with
        | none => exact herror _
        | some crc =>
            refine keeps_bind (onward_answerManager _) fun r => keeps_ite (keeps_pure _)
              (keeps_bind keeps_look fun cc => keeps_ite (onward_confirm _ _ _)
                (keeps_bind ?_ fun _ => ih))
            exact keeps_ite (onward_confirm _ _ _) (onward_confirm _ _ _)
  refine keeps_bind (herror _) fun _ => keeps_bind keeps_look fun there => keeps_ite
    (keeps_bind (herror _) fun _ => keeps_pure _) (keeps_ite (hfail _) (keeps_ite (hfail _) ?_))
  refine keeps_bind (keeps_attempt (keeps_bind (hretry _ _) fun _ => keeps_pure _) fun e => hfail e)
    fun went => keeps_ite (keeps_pure _) (keeps_bind (onward_answerManager none) fun _ =>
      keeps_pure _)

end

end Site

end Seftp.LinkedClient
