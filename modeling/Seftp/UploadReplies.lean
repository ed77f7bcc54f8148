import Seftp.PacketReports
import Seftp.UploadDelivery

/-!
# What the server answers during an upload

A packet is answered at most once. It is taken without a word, or stored with its
checksum if it is the last one, or dropped with the transfer as in a new session, and
then an error is all that can go out. So the number of responses to the packets of one
file depends on where the first one is dropped, since everything after it is dropped
too.
-/
namespace Seftp.UploadReplies
open LittleEndian ExceptState OutsideWorld BlockChaining Checksum Text Protocol ClientStore
open StoreFrames ServerSession Answers SessionFrames AccountHandlers UploadHandlers HandlerFrames
open UploadSteps ChunkSteps AccountSteps FrameSteps Router HandshakeGate UploadStages UploadSlot
open UploadSoundness KeySteps KeyBinding RowSteps Confirmations PacketReports UploadNames
open UploadAcceptance
open UploadDelivery (handleFrame_returns routeFrame_wellFormed handleFrame_828 handleFrame_900
  wp_request828_admits length_of_wellFormed)
open ClientUpload (Upload)
open ClientStream (packetMessage header_filePacketPayload)

/-! ### Error texts are short -/

/-- A 1607 that is no longer than this. -/
def Terse (m : Bytes) : Prop := Coded .error m → m.length ≤ 1100

/-- Messages go out, and the errors among them are terse. -/
def Spoke (w w' : World) : Prop :=
  ∃ ms, w'.session.sent = w.session.sent ++ ms ∧ ∀ m ∈ ms, Terse m

instance : Std.Refl Spoke := ⟨fun _ => ⟨[], by simp, by simp⟩⟩

instance : IsTrans World Spoke where
  trans a b c h h' := by
    obtain ⟨ms, hm, hp⟩ := h
    obtain ⟨ns, hn, hq⟩ := h'
    refine ⟨ms ++ ns, by rw [hn, hm, List.append_assoc], ?_⟩
    exact fun m hmem => (List.mem_append.mp hmem).elim (hp m) (hq m)

/-- The text of a refusal, if it has one, is terse. -/
def TerseAnswer (r : Refusal) : Prop := ∀ text ∈ r.answer, (utf8Encode text).length ≤ 1000

section
variable {α : Type} {ctx : Ctx} {clientId version : Bytes} {p : Packet} {w w' : World}

theorem terse_mk {failure : Option String} {text : String} (h : (utf8Encode text).length ≤ 1000) :
    TerseAnswer { failure, answer := some text } := by
  intro text' ht
  cases ht
  exact h

theorem terse_none {failure : Option String} : TerseAnswer { failure, answer := none } :=
  fun _ h => by cases h

theorem terse_parse828 {payload : Bytes} {r : Refusal} (h : parse828 payload = .error r) :
    TerseAnswer r := by
  unfold parse828 at h
  split at h
  · cases h
    exact terse_none
  · split at h
    · cases h
      exact terse_mk (by decide)
    · cases h

theorem terse_bindUpload {store : Store} {idHex : String} {t : Transfer} {r : Refusal}
    (h : bindUpload store idHex t = .error r) : TerseAnswer r := by
  unfold bindUpload at h
  split_ifs at h
  split at h
  · cases h
    exact terse_none
  · dsimp only at h
    split_ifs at h
    · cases h
      exact terse_mk (by decide)
    · split at h
      · cases h
        exact terse_mk (by decide)
      · cases h

theorem terse_validateHeader {config : Config} {text : String}
    (h : validateHeader config p = some text) : (utf8Encode text).length ≤ 1000 := by
  unfold validateHeader at h
  split_ifs at h <;> cases h <;> decide

theorem terse_acceptIv {t : Transfer} {r : Refusal} (h : acceptIv t p = .error r) :
    TerseAnswer r := by
  unfold acceptIv at h
  split_ifs at h <;> cases h <;> exact terse_mk (by decide)

theorem terse_checkChunk {config : Config} {t : Transfer} {r : Refusal}
    (h : checkChunk config t p = .error r) : TerseAnswer r := by
  unfold checkChunk at h
  split_ifs at h <;> cases h <;> exact terse_mk (by decide)

theorem terse_checkOrder {t : Transfer} {r : Refusal} (h : checkOrder t p = .error r) :
    TerseAnswer r := by
  unfold checkOrder at h
  split_ifs at h <;> cases h <;> exact terse_mk (by decide)

theorem spoke_of_mute {x : Server α} (h : Keeps Mute x) : Keeps Spoke x := fun w =>
  ⟨[], by rw [show (x w).2.session.sent = w.session.sent from h w, List.append_nil], by simp⟩

theorem spoke_message {c : ResCode} {payload : Bytes} (hc : c ≠ .error) (hv : version.length = 1) :
    Keeps Spoke (send ctx (message version c payload)) := fun w => by
  refine ⟨_, (tells_send message_ne_nil w).sent, fun m hm herror => ?_⟩
  rw [List.mem_singleton.mp hm] at herror
  exact (hc (coded_unique (coded_message c payload hv) herror)).elim

theorem mute_abandon : Keeps Mute (abandon ctx) := by
  apply keeps_of_wp
  intro w
  rw [wp_abandon, Mute, resetWorld_sent, releaseWorld_sent]

theorem spoke_answer1604 : Keeps Spoke (answer1604 ctx clientId version) := by
  refine keeps_ofExcept_bind fun m hm => ?_
  obtain ⟨hv, -, -, rfl⟩ := messageAnswer_ok.mp hm
  exact keeps_bind (spoke_of_mute (mute_of_tells tells_touchKnown)) fun _ =>
    keeps_bind (spoke_of_mute (mute_of_tells (tells_logEvent _ _))) fun _ =>
      spoke_message (by decide) hv

section
variable (hid : clientId.length = 16)
include hid

theorem spoke_answer1607 {text : String} (ht : (utf8Encode text).length ≤ 1000) :
    Keeps Spoke (answer1607 ctx clientId version text) := by
  refine keeps_ofExcept_bind fun m hm => ?_
  obtain ⟨hv, -, -, rfl⟩ := messageAnswer_ok.mp hm
  refine keeps_bind (spoke_of_mute (mute_of_tells tells_touchKnown)) fun _ =>
    keeps_bind (spoke_of_mute (mute_of_tells (tells_logEvent _ _))) fun _ w => ?_
  refine ⟨_, (tells_send message_ne_nil w).sent, fun m hm _ => ?_⟩
  rw [List.mem_singleton.mp hm, message]
  simp only [List.length_append, length_leBytes]
  omega

theorem spoke_refuse {r : Refusal} (hr : TerseAnswer r) :
    Keeps Spoke (refuse ctx clientId version r) := by
  have hrecord : Keeps Mute (recordFailure ctx r.failure) := by
    rcases r.failure with _ | reason
    · exact keeps_pure _
    · exact keeps_bind keeps_fetch fun w =>
        keeps_ite (keeps_bind (mute_onStore _) fun _ => keeps_pure _) (keeps_pure _)
  refine keeps_bind (spoke_of_mute hrecord) fun _ =>
    keeps_bind ?_ fun _ => spoke_of_mute mute_abandon
  rcases ha : r.answer with _ | text
  · exact keeps_pure _
  · exact spoke_answer1607 hid (hr text ha)

theorem spoke_startUpload (p : Packet) : Keeps Spoke (startUpload ctx clientId version p) := by
  have hacquire : Keeps Mute acquireUploadSlot :=
    keeps_bind keeps_fetch fun w => keeps_ite (keeps_pure _)
      (keeps_ite (keeps_bind (keeps_update fun _ => rfl) fun _ => keeps_pure _) (keeps_pure _))
  have hreset : Keeps Mute (resetTransferState ctx) := by
    apply keeps_of_wp
    intro w
    rw [wp_reset]
    exact resetWorld_sent
  refine keeps_bind (spoke_of_mute hacquire) fun acquired => keeps_ite ?_ ?_
  · exact keeps_bind (spoke_answer1607 hid (by decide)) fun _ =>
      keeps_bind (spoke_of_mute hreset) fun _ => keeps_pure _
  refine keeps_bind (spoke_of_mute (mute_onTransfer _)) fun _ =>
    keeps_bind (spoke_of_mute mute_markUploadProgress) fun _ =>
      keeps_bind (spoke_of_mute (mute_onStore _)) fun _ => keeps_look_bind fun t =>
        keeps_bind (spoke_of_mute (mute_onStore _)) fun uploadId =>
          keeps_bind (spoke_of_mute (mute_onTransfer _)) fun _ => keeps_ite ?_ ?_
  · exact keeps_bind (spoke_refuse hid (terse_mk (by decide))) fun _ => keeps_pure _
  · exact keeps_bind (spoke_of_mute (mute_openUpload p)) fun _ => keeps_pure _

theorem spoke_finishUpload (p : Packet) : Keeps Spoke (finishUpload ctx clientId version p) := by
  refine keeps_look_bind fun t => keeps_ite (spoke_refuse hid (terse_mk (by decide)))
    (keeps_bind (spoke_of_mute (mute_onStore _)) fun _ => ?_)
  split
  · refine keeps_bind (spoke_of_mute (mute_onFiles _)) fun _ =>
      keeps_bind (spoke_of_mute (mute_onFiles _)) fun _ =>
        keeps_bind (spoke_of_mute (mute_onTransfer _)) fun _ => keeps_look_bind fun t =>
          keeps_ite (spoke_refuse hid (terse_mk (by decide))) ?_
    refine keeps_bind (spoke_of_mute (mute_onFiles _)) fun _ =>
      keeps_bind (spoke_of_mute (mute_onTransfer _)) fun _ =>
        keeps_bind (spoke_of_mute (mute_onStore _)) fun _ =>
          keeps_bind (spoke_of_mute (mute_of_tells (tells_logEvent _ _))) fun _ =>
            keeps_ofExcept_bind fun _ _ => keeps_ofExcept_bind fun m hm => ?_
    obtain ⟨hv, -, -, rfl⟩ := messageAnswer_ok.mp hm
    exact spoke_message (by decide) hv
  · exact spoke_refuse hid (terse_mk (by decide))

theorem spoke_receiveChunk (p : Packet) : Keeps Spoke (receiveChunk ctx clientId version p) := by
  refine keeps_look_bind fun t => ?_
  rcases horder : checkOrder t p with r | ⟨⟩
  · exact spoke_refuse hid (terse_checkOrder horder)
  refine keeps_bind (spoke_of_mute mute_markUploadProgress) fun _ => keeps_bind ?_ fun failed => ?_
  · refine keeps_attempt (keeps_bind (spoke_of_mute (mute_processStreamingCipherChunk _ _)) fun _ =>
      keeps_pure _) fun e => ?_
    split
    · exact keeps_pure _
    · exact keeps_raise _
  rcases failed with _ | text
  · exact keeps_bind (spoke_of_mute (mute_onTransfer _)) fun _ =>
      keeps_ite (spoke_finishUpload hid p) (keeps_pure _)
  · exact spoke_refuse hid (terse_mk (by decide))

theorem spoke_request828 (payload : Bytes) :
    Keeps Spoke (request828 ctx payload version clientId) := by
  unfold request828
  rcases hparse : parse828 payload with r | p
  · exact spoke_refuse hid (terse_parse828 hparse)
  refine keeps_bind keeps_fetch fun w => ?_
  rcases hbind : bindUpload w.store (hex clientId) w.session.transfer with r | t
  · exact spoke_refuse hid (terse_bindUpload hbind)
  refine keeps_bind (spoke_of_mute (mute_onTransfer _)) fun _ =>
    keeps_ite (spoke_refuse hid (terse_mk (by decide))) ?_
  rcases hheader : validateHeader ctx.env.config p with _ | text
  · refine keeps_look_bind fun t => keeps_ite ?_ ?_
    · rcases hiv : acceptIv t p with r | t
      · exact spoke_refuse hid (terse_acceptIv hiv)
      · exact spoke_of_mute (mute_onTransfer _)
    · rcases hcheck : checkChunk ctx.env.config t p with r | ⟨⟩
      · exact spoke_refuse hid (terse_checkChunk hcheck)
      · have hrest (go : Bool) : Keeps Spoke
            (if go then receiveChunk ctx clientId version p else pure () : Server Unit) :=
          keeps_ite (spoke_receiveChunk hid p) (keeps_pure _)
        exact keeps_ite (keeps_bind (spoke_startUpload hid p) hrest)
          (keeps_bind (keeps_pure _) hrest)
  · exact keeps_bind (keeps_attempt (spoke_answer1607 hid (terse_validateHeader hheader)) fun _ =>
      keeps_pure _) fun _ => spoke_of_mute mute_abandon

theorem spoke_request900 (payload : Bytes) :
    Keeps Spoke (request900 ctx payload version clientId) := by
  refine keeps_ofExcept_bind fun name _ => keeps_bind (spoke_of_mute (mute_onStore _)) fun _ =>
    keeps_bind (spoke_of_mute (mute_of_tells (tells_logEvent _ _))) fun _ =>
      keeps_bind keeps_fetch fun w => ?_
  dsimp only
  split
  · refine keeps_ite (spoke_refuse hid (terse_mk (by decide)))
      (keeps_bind (spoke_of_mute (mute_onStore _)) fun ok => keeps_ite ?_ ?_)
    · exact spoke_refuse hid (terse_mk (by decide))
    · exact keeps_bind spoke_answer1604 fun _ => spoke_of_mute mute_abandon
  · exact spoke_refuse hid (terse_mk (by decide))

theorem spoke_request902 (payload : Bytes) :
    Keeps Spoke (request902 ctx payload version clientId) := by
  refine keeps_ofExcept_bind fun name _ => keeps_bind (spoke_of_mute (mute_onStore _)) fun _ =>
    keeps_bind keeps_fetch fun w => keeps_ite (spoke_refuse hid (terse_mk (by decide))) ?_
  refine keeps_bind (spoke_of_mute (mute_onStore _)) fun ok => keeps_ite ?_ ?_
  · exact spoke_refuse hid (terse_mk (by decide))
  · exact keeps_bind (spoke_of_mute fun _ => rfl) fun _ => keeps_bind spoke_answer1604 fun _ =>
      spoke_of_mute mute_abandon

end
end

/-! ### One packet -/

/-- The number in the header of a packet. -/
def numberOf (frame : Bytes) : ℕ := leNat (((parseFrame frame).payload.drop 8).take 2)

/-- The number of packets in the header of a packet. -/
def countOf (frame : Bytes) : ℕ := leNat (((parseFrame frame).payload.drop 10).take 2)

/-- A frame of packet `k` of `n` as the client builds it; the name of the file is any
byte string without a separator. -/
structure Packets (cid : Bytes) (n : ℕ) (fileName : Bytes) (k : ℕ) (frame : Bytes) : Prop where
  formed : wellFormed frame = true
  code : (parseFrame frame).code = 828
  client : (parseFrame frame).clientId = cid
  version : (parseFrame frame).version = [kVersion]
  id : cid.length = 16
  number : numberOf frame = k
  count : countOf frame = n
  separator : (((parseFrame frame).payload.drop 12).findIdx? (· = 0)).isSome = true
  parses : utf8Decode fileName ≠ none → ∃ p, parse828 (parseFrame frame).payload = .ok p
  name : ∀ p, parse828 (parseFrame frame).payload = .ok p → utf8Encode p.fileName = fileName

theorem parse828_header {payload : Bytes} {p : Packet} (h : parse828 payload = .ok p) :
    p.packetNum = leNat ((payload.drop 8).take 2) ∧
      p.totalPackets = leNat ((payload.drop 10).take 2) := by
  unfold parse828 at h
  split at h
  · cases h
  · split at h
    · cases h
    · cases h
      exact ⟨rfl, rfl⟩

/-- What the server relies on in the fields of an upload. -/
structure Sendable (u : Upload) : Prop where
  cipherSize : u.cipherSize < 2 ^ 32
  plainSize : u.plainSize < 2 ^ 32
  totalPackets : u.totalPackets < 2 ^ 16
  terminated : 0 ∉ u.fileName
  plain : 47 ∉ u.fileName
  short : u.fileName.length ≤ 255

theorem packets_message {u : Upload} (h : Sendable u) {k : ℕ} {data : Bytes} (hk : k < 2 ^ 16)
    (hdata : data.length < 2 ^ 31) :
    Packets u.cid.val u.totalPackets u.fileName k (packetMessage u k data) := by
  have hlen : (filePacketPayload u.cipherSize u.plainSize k u.totalPackets u.fileName
      data).length < 2 ^ 32 := by
    have hshort := h.short
    rw [length_filePacketPayload]
    omega
  have hcode : ReqCode.fileChunk.value < 65536 := by decide
  obtain ⟨hform, hfields⟩ := parseFrame_request u.cid hcode hlen
  have hpayload : (parseFrame (packetMessage u k data)).payload =
      filePacketPayload u.cipherSize u.plainSize k u.totalPackets u.fileName data :=
    congrArg Request.payload hfields
  obtain ⟨-, -, hnumber, hcount⟩ :=
    header_filePacketPayload u.fileName data h.cipherSize h.plainSize
    hk h.totalPackets
  -- the name ends at the first NUL, which is the separator
  have hbody :
      (filePacketPayload u.cipherSize u.plainSize k u.totalPackets u.fileName data).drop 12 =
      u.fileName ++ 0 :: data := by
    have hfront : (leBytes 4 u.cipherSize ++ leBytes 4 u.plainSize ++ leBytes 2 k ++
        leBytes 2 u.totalPackets).length = 12 := by
      simp only [List.length_append, length_leBytes]
    rw [filePacketPayload, List.append_assoc, List.append_assoc, List.drop_left' hfront]
    rfl
  have hsep : (u.fileName ++ 0 :: data).findIdx? (· = 0) = some u.fileName.length := by
    rw [List.findIdx?_append, List.findIdx?_eq_none_iff.mpr fun b hb => by
      simpa using fun he : b = 0 => h.terminated (he ▸ hb)]
    simp [List.findIdx?_cons]
  refine ⟨hform, congrArg Request.code hfields, congrArg Request.clientId hfields,
    congrArg Request.version hfields, u.cid.property, ?_, ?_, ?_, fun hname => ?_, fun p hp => ?_⟩
  · rw [numberOf, hpayload, hnumber]
  · rw [countOf, hpayload, hcount]
  · rw [hpayload, hbody, hsep]
    rfl
  · obtain ⟨name, hname⟩ := Option.ne_none_iff_exists'.mp hname
    rw [hpayload, parse828, hbody, hsep]
    dsimp only
    rw [List.take_left, hname]
    exact ⟨_, rfl⟩
  · rw [hpayload, parse828, hbody, hsep] at hp
    dsimp only at hp
    rw [List.take_left] at hp
    rcases hname : utf8Decode u.fileName with _ | name
    · rw [hname] at hp
      cases hp
    · rw [hname] at hp
      cases hp
      have henc := utf8Encode_of_decode hname
      have hplain : '/' ∉ name.toList :=
        not_mem_of_encode (b := 47) (by decide) (by rw [henc]; exact h.plain)
      change utf8Encode (basename name) = _
      rw [basename_of_plain hplain, henc]

/-- A session that can answer. -/
structure Attentive (ctx : Ctx) (w : World) : Prop where
  verified : w.session.handshake.verified = true
  begun : Begun w.session.transfer
  ready : Ready w.store
  works : Works ctx.out

/-- Packet `k` has been taken. From packet 1 on there is a file, a cipher and a row. -/
structure Midway (fileName : Bytes) (k : ℕ) (t : Transfer) : Prop where
  expected : t.expectedPacketNum = some (k + 1)
  opened : 0 < k → OpenFile t
  named : 0 < k → ∃ name, t.uploadFilename = some name ∧ utf8Encode name = fileName
  tracked : 0 < k → t.uploadId.isSome = true

/-- The session waits for packet `k`, or for a new transfer. -/
def Awaits (fileName : Bytes) (k : ℕ) (t : Transfer) : Prop :=
  t = {} ∨ ∃ j, k = j + 1 ∧ Midway fileName j t

/-- A 1607 that the client can read. -/
def ErrorTo (cid m : Bytes) : Prop :=
  (∃ text, m = errorMessage cid [kVersion] text) ∧ m.length ≤ 1100

/-- One error at most, and the transfer is as in a new session. -/
structure TurnedAway (cid : Bytes) (w w' : World) : Prop where
  transfer : w'.session.transfer = {}
  sent : ∃ es, w'.session.sent = w.session.sent ++ es ∧ es.length ≤ 1 ∧ ∀ m ∈ es, ErrorTo cid m

/-- An upload that waits for its confirmation. -/
structure Concluding (fileName : Bytes) (t : Transfer) : Prop where
  named : ∃ name, t.uploadFilename = some name ∧ utf8Encode name = fileName
  tracked : t.uploadId.isSome = true

/-- The last packet: the checksum goes out, and the upload can be concluded. -/
structure Concludes (cid fileName : Bytes) (w w' : World) : Prop where
  sent : ∃ p crc, utf8Encode p.fileName = fileName ∧
    w'.session.sent = w.session.sent ++ [crcMessage cid [kVersion] p crc]
  waits : Concluding fileName w'.session.transfer

/-- What becomes of packet `k`. Without a transfer only packet 0 is taken. -/
inductive Dealt (cid : Bytes) (n : ℕ) (fileName : Bytes) (k : ℕ) (w w' : World) : Prop
  | taken (hk : k < n) (hopen : k = 0 ∨ w.session.transfer ≠ {}) (hsent : Mute w w')
      (h : Midway fileName k w'.session.transfer)
  | stored (hk : k = n) (hopen : w.session.transfer ≠ {}) (h : Concludes cid fileName w w')
  | away (h : TurnedAway cid w w')

section
variable {ctx : Ctx} {cid version fileName payload frame : Bytes} {p : Packet} {n k : ℕ}
variable {w u w' : World}

/-- A refusal sends its text, if it has one. -/
theorem away_refused {r : Refusal} (hs : Spoke w w') (hmute : Mute w u)
    (h : Refused cid [kVersion] r u w') : TurnedAway cid w w' := by
  have hsent : w'.session.sent =
      w.session.sent ++ (r.answer.map (errorMessage cid [kVersion])).toList := by
    rw [h.sent, show u.session.sent = w.session.sent from hmute]
  obtain ⟨ms, hms, hterse⟩ := hs
  rw [hsent, List.append_cancel_left_eq] at hms
  refine ⟨h.transfer, _, hsent, ?_, fun m hm => ?_⟩
  · cases r.answer <;> simp
  · obtain ⟨text, -, rfl⟩ : ∃ text, r.answer = some text ∧
        errorMessage cid [kVersion] text = m := by
      simpa using hm
    refine ⟨⟨text, rfl⟩, hterse _ (hms ▸ hm) (coded_message _ _ rfl)⟩

theorem away_error {text : String} (hs : Spoke w w') (hmute : Mute w u)
    (ht : w'.session.transfer = {})
    (hsent : w'.session.sent = u.session.sent ++ [errorMessage cid [kVersion] text]) :
    TurnedAway cid w w' := by
  rw [show u.session.sent = w.session.sent from hmute] at hsent
  obtain ⟨ms, hms, hterse⟩ := hs
  rw [hsent, List.append_cancel_left_eq] at hms
  refine ⟨ht, _, hsent, by simp, fun m hm => ?_⟩
  rw [List.mem_singleton.mp hm]
  exact ⟨⟨text, rfl⟩, hterse _ (hms ▸ List.mem_singleton.mpr rfl) (coded_message _ _ rfl)⟩

/-- The fields that a packet leaves as they are. -/
theorem midway_takes {env : Env} (ht : Takes env p u w')
    (hfile : u.session.transfer.uploadTmpFile.isSome = true)
    (hname : u.session.transfer.uploadFilename = some p.fileName)
    (hid : u.session.transfer.uploadId.isSome = true) :
    Midway (utf8Encode p.fileName) p.packetNum w'.session.transfer := by
  obtain ⟨ts, cipher, out, tail, htaken, hd⟩ := ht
  have htransfer : w'.session.transfer =
      (advanced p ts cipher out tail (SessionFrames.core u)).transfer :=
    congrArg Core.transfer hd.core_eq
  rw [htransfer]
  refine ⟨?_, fun _ => ⟨rfl, hfile⟩, fun _ => ⟨_, hname, rfl⟩, fun _ => hid⟩
  change u.session.transfer.expectedPacketNum.map (· + 1) = _
  rw [(checkOrder_ok htaken.order).1]
  rfl

/-- A packet that is accepted by an open upload. -/
theorem dealt_accepts {env : Env} (hmute : Mute w u) (hopen : w.session.transfer ≠ {})
    (h : Accepts env cid [kVersion] p u w') (hle : p.packetNum ≤ p.totalPackets)
    (hfile : u.session.transfer.uploadTmpFile.isSome = true)
    (hname : u.session.transfer.uploadFilename = some p.fileName)
    (hid : u.session.transfer.uploadId.isSome = true) :
    Dealt cid p.totalPackets (utf8Encode p.fileName) p.packetNum w w' := by
  rcases h with ⟨hmore, ht⟩ | ⟨hlast, x, ht, tmp, path, -, hsaid⟩
  · obtain ⟨ts, cipher, out, tail, -, hd⟩ := id ht
    exact .taken (by omega) (.inr hopen) (hd.sent.trans hmute) (midway_takes ht hfile hname hid)
  · obtain ⟨ts, cipher, out, tail, -, hd⟩ := ht
    have hname' : w'.session.transfer.uploadFilename = some p.fileName :=
      (congrArg (fun c => c.transfer.uploadFilename) hsaid.core_eq).trans
        ((congrArg (fun c => c.transfer.uploadFilename) hd.core_eq).trans hname)
    have hid' : w'.session.transfer.uploadId = u.session.transfer.uploadId :=
      (congrArg (fun c => c.transfer.uploadId) hsaid.core_eq).trans
        (congrArg (fun c => c.transfer.uploadId) hd.core_eq)
    refine .stored hlast hopen ⟨⟨p, x.session.transfer.uploadCrc32State, rfl, ?_⟩,
      ⟨⟨_, hname', rfl⟩, by rw [hid', hid]⟩⟩
    rw [hsaid.sent, hd.sent, show u.session.sent = w.session.sent from hmute]

theorem utf8Encode_injective {a b : String} (h : utf8Encode a = utf8Encode b) : a = b := by
  have := congrArg utf8Decode h
  rw [utf8Decode_utf8Encode, utf8Decode_utf8Encode] at this
  exact Option.some.inj this

/-- Without a transfer no packet after the first is the next one. -/
theorem midway_of_expected {t : Transfer} (h : Awaits (utf8Encode p.fileName) p.packetNum t)
    (he : t.expectedPacketNum = some p.packetNum) :
    ∃ j, p.packetNum = j + 1 ∧ Midway (utf8Encode p.fileName) j t := by
  rcases h with rfl | h
  · cases he
  · exact h

/-- A chunk is checked against the vector of packet 0. -/
theorem open_of_check {config : Config} {store : Store} {idHex : String} {t t' : Transfer}
    (hbind : bindUpload store idHex t = .ok t') (hcheck : checkChunk config t' p = .ok ()) :
    t ≠ {} := by
  rintro rfl
  have hiv := (checkChunk_ok hcheck).1
  rw [(bindUpload_same hbind).iv] at hiv
  cases hiv

theorem dealt_admits (hs : Spoke w w') (hmute : Mute w u)
    (hwait : Awaits (utf8Encode p.fileName) p.packetNum w.session.transfer)
    (hbind : bindUpload w.store (hex cid) w.session.transfer = .ok u.session.transfer)
    (hheader : validateHeader ctx.env.config p = none)
    (h : Admits ctx cid [kVersion] p u w') :
    Dealt cid p.totalPackets (utf8Encode p.fileName) p.packetNum w w' := by
  have hle := (validateHeader_none hheader).2.1
  have hpos := (validateHeader_none hheader).1
  cases h with
  | announced t hnum hiv hd =>
      have ht : w'.session.transfer = t := congrArg Core.transfer hd.core_eq
      unfold acceptIv at hiv
      split_ifs at hiv
      cases hiv
      refine .taken (by omega) (.inl hnum) (hd.sent.trans hmute) ?_
      rw [ht, hnum]
      exact ⟨rfl, by simp, by simp, by simp⟩
  | declined r hnum hiv hplain href => exact .away (away_refused hs hmute href)
  | failed r hnum hfail href => exact .away (away_refused hs hmute href)
  | busy hnum hcheck hbusy =>
      exact .away (away_error hs hmute hbusy.transfer hbusy.sent)
  | unrecorded hnum hcheck hdown =>
      exact .away (away_error hs hmute hdown.transfer hdown.sent)
  | began x hnum hcheck hstart haccept =>
      obtain ⟨ts, time, limiter, hd⟩ := hstart.does
      have ht : x.session.transfer =
          (started cid p ts time limiter (SessionFrames.core u)).transfer :=
        congrArg Core.transfer hd.core_eq
      exact dealt_accepts (hd.sent.trans hmute) (open_of_check hbind hcheck) haccept hle
        (by rw [ht]; rfl) (by rw [ht]; rfl)
        (by rw [ht]; rfl)
  | restarted x r hnum hcheck hstart hfail href =>
      exact .away (away_refused hs ((started_active hstart).2.2.2.trans hmute) href)
  | taken hnum hcheck haccept =>
      have hexpected := (accepts_progress haccept).1
      rw [(bindUpload_same hbind).expected] at hexpected
      obtain ⟨j, hj, hmid⟩ := midway_of_expected hwait hexpected
      obtain ⟨name, hname, henc⟩ := hmid.named (by omega)
      have hsame : u.session.transfer.uploadTmpFile = w.session.transfer.uploadTmpFile ∧
          u.session.transfer.uploadFilename = w.session.transfer.uploadFilename ∧
          u.session.transfer.uploadId = w.session.transfer.uploadId := by
        rcases bindUpload_ok hbind with ⟨-, ht⟩ | ⟨-, record, b64, key, -, -, -, ht⟩
        · rw [ht]
          exact ⟨rfl, rfl, rfl⟩
        · rw [ht]
          exact ⟨rfl, rfl, rfl⟩
      refine dealt_accepts hmute (open_of_check hbind hcheck) haccept hle ?_ ?_ ?_
      · rw [hsame.1]
        exact (hmid.opened (by omega)).file
      · rw [hsame.2.1, hname, utf8Encode_injective henc]
      · rw [hsame.2.2]
        exact hmid.tracked (by omega)

theorem dealt_uploads (hs : Spoke w w') (ha : Answering ctx w cid [kVersion])
    (hnumber : ∀ p, parse828 payload = .ok p → p.packetNum = k)
    (htotal : ∀ p, parse828 payload = .ok p → p.totalPackets = n)
    (hname : ∀ p, parse828 payload = .ok p → utf8Encode p.fileName = fileName)
    (hwait : Awaits fileName k w.session.transfer)
    (h : Uploads ctx cid [kVersion] payload w w') : Dealt cid n fileName k w w' := by
  cases h with
  | unparsed r hparse hplain href => exact .away (away_refused hs rfl href)
  | unbound p r hparse hbind hplain href => exact .away (away_refused hs rfl href)
  | foreign p hparse hid hother href => exact .away (away_refused hs rfl href)
  | header p t text hparse hbind hheader habandon =>
      exact .away (away_error hs rfl habandon.transfer (habandon.sent ha))
  | admitted p t x hparse hbind hown hheader hd hadmits =>
      obtain rfl := hnumber p hparse
      obtain rfl := htotal p hparse
      obtain rfl := hname p hparse
      have hx : x.session.transfer = t := congrArg Core.transfer hd.core_eq
      exact dealt_admits hs hd.sent hwait (hx ▸ hbind) hheader hadmits

/-- After a raise an active upload is reported and reset. -/
theorem away_recover (r : Request) (e : PyError) (ha : Answering ctx u r.clientId [kVersion])
    (hr : r.version = [kVersion]) (hmute : Mute w u)
    (hactive : u.session.transfer.uploadActive = true) :
    wp (recover ctx r e) (fun _ v => TurnedAway r.clientId w v) (fun _ _ => False) u := by
  have hreason : wp (onFrameBad "handle_frame_exception" : Server Unit)
      (fun _ v => Tells [] u v ∧ v.session.disconnectReason = "handle_frame_exception")
      (fun _ _ => False) u := by
    rw [onFrameBad, onSession, wp_update]
    exact ⟨tells_setSession rfl rfl rfl rfl rfl, rfl⟩
  apply wp_then hreason
  rintro _ v ⟨hv, hnoted⟩
  rw [wp_bind, wp_look, hnoted, if_neg (by decide), wp_bind, wp_attempt, hr]
  have hshort : Short "server error: internal handler failure" := by decide
  apply wp_mono (wp_and (wp_answer1607 _)
    ((spoke_answer1607 ha.clientId (by decide)).wp v))
  · rintro _ x ⟨hx, hspoke⟩
    have hall := hv.trans hx
    have hstill : x.session.transfer.uploadActive = true := by rw [hall.transfer, hactive]
    have hquiet : Mute w v := by
      rw [Mute, hv.sent, List.append_nil]
      exact hmute
    rw [wp_bind, wp_look, if_pos hstill, wp_reset]
    refine away_error ?_ hquiet rfl hx.sent
    obtain ⟨ms, hms, hterse⟩ := hspoke
    exact ⟨ms, by rw [resetWorld_sent, hms, hquiet], hterse⟩
  · rintro _ x ⟨⟨-, hno⟩, -⟩
    exact (hno ⟨ha.of_core hv.core_eq, hshort⟩).elim

theorem Dealt.noted {r : Request} (h : Dealt cid n fileName k (noteIdentity r w) w') :
    Dealt cid n fileName k w w' := by
  cases h with
  | taken hk hopen hsent h => exact .taken hk hopen hsent h
  | stored hk hopen h => exact .stored hk hopen ⟨h.sent, h.waits⟩
  | away h => exact .away ⟨h.transfer, h.sent⟩

/-- Every packet of the client is dealt with. -/
theorem dealt_frame (hw : Attentive ctx w) (hp : Packets cid n fileName k frame)
    (hwait : Awaits fileName k w.session.transfer) :
    Dealt cid n fileName k w (handleFrame ctx frame w).2 := by
  have hlen := length_of_wellFormed hp.formed
  have ha : Answering ctx (noteIdentity (parseFrame frame) w) cid [kVersion] := by
    have hframe : 17 ≤ frame.length := by omega
    have := answering hw.ready hw.works hframe
    rwa [hp.client, hp.version] at this
  unfold handleFrame
  rw [handleFrameWith_long (by omega)]
  apply wp_state.mp
  rw [wp_attempt, routeFrame, if_neg (by omega), hp.formed, if_neg (by decide), wp_dispatch,
    show (noteIdentity (parseFrame frame) w).session.handshake.verified = true from hw.verified,
    dispatchAs_828 hp.code, hp.client, hp.version]
  apply wp_mono (wp_and (wp_request828 (parseFrame frame).payload)
    (wp_and (sendsLast_request828 ha.sends (parseFrame frame).payload _)
      (wp_and ((upload_request828 (parseFrame frame).payload).wp _)
        ((spoke_request828 hp.id (parseFrame frame).payload).wp _))))
  · rintro _ u ⟨hup, -, -, hspoke⟩
    exact Dealt.noted (dealt_uploads hspoke ha
      (fun p h => (parse828_header h).1.trans hp.number)
      (fun p h => (parse828_header h).2.trans hp.count) hp.name hwait hup)
  · rintro e u ⟨⟨hstop, -⟩, hmute, honly, -⟩
    have hactive : u.session.transfer.uploadActive = true :=
      active_of_stopped (w := noteIdentity (parseFrame frame) w) hw.begun hstop ha
    have hau := ha.of_store honly.store
    rw [← hp.client] at hau
    refine wp_mono (away_recover (w := w) _ e hau hp.version hmute hactive)
      (fun _ v h => ?_) (fun _ _ h => h.elim)
    rw [hp.client] at h
    exact .away h

end

/-! ### Which packets are answered -/

/-- The store knows the client. -/
def Registered (cid : Bytes) (st : Store) : Prop := (st.getClientById (hex cid)).isSome = true

/-- What a packet without a transfer needs to be answered: a name that is not text, or a
client that the store knows. -/
def Audible (cid fileName : Bytes) (st : Store) : Prop :=
  utf8Decode fileName = none ∨ Registered cid st

section
variable {ctx : Ctx} {cid fileName frame : Bytes} {n k : ℕ} {w w' : World}

/-- Clients are never forgotten. -/
theorem registered_handleFrame (ctx : Ctx) (hl : Linked w.store) (frame : Bytes)
    (h : Registered cid w.store) : Registered cid (handleFrame ctx frame w).2.store := by
  have hbook (st : Store) : Registered cid st ↔ ((book st).find (hex cid)).isSome = true := by
    rw [find_book, Option.isSome_map, Registered]
  rw [hbook] at h ⊢
  have hstep : KeyStep ctx (parseFrame frame) (Raises ctx frame w) w (handleFrame ctx frame w).2 :=
    step_handleFrame hl frame
  cases hstep with
  | quiet ms hacts hm =>
      rw [hacts.changes.book_eq]
      exact h
  | registered name uid record ms hcode hname huid husername hid hpub haes hup hnewId hnewName
      hrowId hrowName hacts hann hm =>
      rw [hacts.changes.book_eq, Book.find_put hl.indices hup]
      split_ifs
      · rfl
      · exact h
  | keyed record fs ms hfound hgrants hacts hm hanswer =>
      rw [hacts.changes.book_eq, find_setAll hl.indices, Option.isSome_map]
      exact h

theorem heard_of_audible (hp : Packets cid n fileName k frame) (h : Audible cid fileName w.store) :
    Heard cid (parseFrame frame).payload w := by
  refine ⟨hp.separator, fun p hparse => .inr (h.resolve_left fun hnone => ?_)⟩
  rw [← hp.name p hparse, utf8Decode_utf8Encode] at hnone
  cases hnone

/-- Without a transfer a packet that has any effect is audible. -/
theorem audible_of_effect (hw : Attentive ctx w) (hp : Packets cid n fileName k frame)
    (hidle : w.session.transfer = {})
    (h : ¬ (Mute w (handleFrame ctx frame w).2 ∧
      (handleFrame ctx frame w).2.session.transfer = {})) :
    Audible cid fileName w.store := by
  have hheard : Heard cid (parseFrame frame).payload w := by
    by_contra hno
    rw [← hp.client] at hno
    exact h (silent_handleFrame hw.verified hp.code hp.formed hno)
  by_cases hname : utf8Decode fileName = none
  · exact .inl hname
  obtain ⟨p, hparse⟩ := hp.parses hname
  refine .inr ((hheard.known p hparse).resolve_left ?_)
  rw [hidle]
  decide

/-- An audible packet that is dropped is answered once. -/
theorem answered_away (hw : Attentive ctx w) (hp : Packets cid n fileName k frame)
    (h : Heard cid (parseFrame frame).payload w)
    (haway : TurnedAway cid w (handleFrame ctx frame w).2) :
    (newSent w (handleFrame ctx frame w).2).length = 1 := by
  obtain ⟨es, hes, hone, -⟩ := haway.sent
  have hlen := length_of_wellFormed hp.formed
  have hframe : 17 ≤ frame.length := by omega
  have ha : Answering ctx w (parseFrame frame).clientId (parseFrame frame).version :=
    (answering hw.ready hw.works hframe).of_store ⟨_, rfl⟩
  rw [newSent_eq hes]
  rcases treated_handleFrame hw.verified hw.begun hp.code ha fun _ => hp.client.symm ▸ h with
    haccept | hreport
  · cases haccept with
    | advanced j hexpected hnext hsent =>
        rw [haway.transfer] at hnext
        cases hnext
    | initialised hiv hset hnext hsent =>
        rw [haway.transfer] at hset
        cases hset
  · have herrors := hreport.1
    rw [newSent_eq hes] at herrors
    have := List.length_filter_le (fun m => decide (Coded .error m)) es
    rw [errors] at herrors
    omega

end

/-! ### The confirmation -/

/-- The fields of a confirmation. -/
def confirmation (cid : Bytes) (code : ℕ) (fileName : Bytes) : Request :=
  { clientId := cid, version := [kVersion], code, payload := makeCstrPayload fileName }

/-- A confirmation as the client builds it. -/
structure Confirms (cid : Bytes) (code : ℕ) (fileName frame : Bytes) : Prop where
  formed : wellFormed frame = true
  fields : parseFrame frame = confirmation cid code fileName
  id : cid.length = 16

/-- One response, and the transfer is as in a new session. -/
structure Answered (cid : Bytes) (w w' : World) : Prop where
  transfer : w'.session.transfer = {}
  sent : ∃ m, w'.session.sent = w.session.sent ++ [m] ∧
    (m = doneMessage cid [kVersion] ∨ ErrorTo cid m)

theorem confirms_message (cid : ClientId) (code : ℕ) {fileName : Bytes} (hcode : code < 65536)
    (hshort : fileName.length ≤ 255) :
    Confirms cid.val code fileName (buildRequest cid code (makeCstrPayload fileName)) := by
  have hlen : (makeCstrPayload fileName).length < 2 ^ 32 := by
    rw [makeCstrPayload, List.length_append, List.length_singleton]
    omega
  obtain ⟨hform, hfields⟩ := parseFrame_request cid hcode hlen
  exact ⟨hform, hfields, cid.property⟩

section
variable {ctx : Ctx} {cid version fileName payload frame : Bytes} {code : ℕ} {name : String}
variable {w w' : World}

theorem dispatchAs_900 {r : Request} (hcode : r.code = 900) :
    dispatchAs handlers ctx r true = request900 ctx r.payload r.version r.clientId := by
  rw [dispatchAs, hcode]
  rfl

theorem dispatchAs_901 {r : Request} (hcode : r.code = 901) :
    dispatchAs handlers ctx r true = request901 ctx r.payload r.version r.clientId := by
  rw [dispatchAs, hcode]
  rfl

theorem dispatchAs_902 {r : Request} (hcode : r.code = 902) :
    dispatchAs handlers ctx r true = request902 ctx r.payload r.version r.clientId := by
  rw [dispatchAs, hcode]
  rfl

/-- A confirmation is handled in the session that knows its sender. -/
theorem confirm_returns {Q : World → Prop} (hv : w.session.handshake.verified = true)
    (hc : Confirms cid code fileName frame)
    (h : wp (dispatchAs handlers ctx (confirmation cid code fileName) true) (fun _ u => Q u)
      (fun _ _ => False) (noteIdentity (parseFrame frame) w)) : Q (handleFrame ctx frame w).2 := by
  have hlen := length_of_wellFormed hc.formed
  apply handleFrame_returns (by omega)
  apply routeFrame_wellFormed (w := noteIdentity (parseFrame frame) w) hc.formed hv
  rw [← hc.fields] at h
  exact h

theorem answering_confirm (hw : Attentive ctx w) (hc : Confirms cid code fileName frame) :
    Answering ctx (noteIdentity (parseFrame frame) w) cid [kVersion] := by
  have hlen := length_of_wellFormed hc.formed
  have hframe : 17 ≤ frame.length := by omega
  have ha := answering hw.ready hw.works hframe
  rwa [congrArg Request.clientId hc.fields, congrArg Request.version hc.fields] at ha

/-- Exactly one response, which is the one that is meant or an error. -/
theorem answered_of (hs : Spoke w w') (ht : w'.session.transfer = {}) {m : Bytes}
    (hsent : w'.session.sent = w.session.sent ++ [m])
    (hm : m = doneMessage cid [kVersion] ∨ ∃ text, m = errorMessage cid [kVersion] text) :
    Answered cid w w' := by
  refine ⟨ht, m, hsent, hm.imp_right ?_⟩
  rintro ⟨text, rfl⟩
  obtain ⟨ms, hms, hterse⟩ := hs
  rw [hsent, List.append_cancel_left_eq] at hms
  exact ⟨⟨text, rfl⟩, hterse _ (hms ▸ List.mem_singleton.mpr rfl) (coded_message _ _ rfl)⟩

theorem nameDecodes_cstr (hzero : 0 ∉ fileName) {t : Transfer} (h : Concluding fileName t) :
    ∃ name, t.uploadFilename = some name ∧ confirmedName (makeCstrPayload fileName) = .ok name := by
  obtain ⟨name, hname, rfl⟩ := h.named
  exact ⟨name, hname, confirmedName_cstr hzero⟩

theorem frame_900 (hw : Attentive ctx w) (hzero : 0 ∉ fileName)
    (hc : Confirms cid 900 fileName frame) (h : Concluding fileName w.session.transfer) :
    Answered cid w (handleFrame ctx frame w).2 := by
  obtain ⟨name, -, hdecodes⟩ := nameDecodes_cstr hzero h
  apply confirm_returns hw.verified hc
  rw [dispatchAs_900 rfl]
  apply wp_mono (wp_and (wp_request900 _) ((spoke_request900 hc.id _).wp _))
  · rintro _ u ⟨hdone | ⟨hdown, -, -⟩, hspoke⟩
    · obtain ⟨_, _, _, _, _, -, -, -, -, -, hsettled⟩ := hdone.completed
      exact answered_of (w := w) hspoke hsettled.transfer hdone.sent (.inl rfl)
    · obtain ⟨text, -, hsent⟩ := hdown.sent
      exact answered_of (w := w) hspoke hdown.transfer hsent (.inr ⟨text, rfl⟩)
  · rintro _ u ⟨⟨-, hno⟩, -⟩
    exact hno ⟨answering_confirm hw hc, name, hdecodes⟩

theorem frame_902 (hw : Attentive ctx w) (hzero : 0 ∉ fileName)
    (hc : Confirms cid 902 fileName frame) (h : Concluding fileName w.session.transfer) :
    Answered cid w (handleFrame ctx frame w).2 := by
  obtain ⟨name, -, hdecodes⟩ := nameDecodes_cstr hzero h
  apply confirm_returns hw.verified hc
  rw [dispatchAs_902 rfl]
  apply wp_mono (wp_and (wp_request902 _) ((spoke_request902 hc.id _).wp _))
  · rintro _ u ⟨hgives | hdown, hspoke⟩
    · obtain ⟨time, hsettled⟩ := hgives.settled
      exact answered_of (w := w) hspoke hsettled.transfer hgives.sent (.inl rfl)
    · obtain ⟨text, -, hsent⟩ := hdown.sent
      exact answered_of (w := w) hspoke hdown.transfer hsent (.inr ⟨text, rfl⟩)
  · rintro _ u ⟨⟨-, hno⟩, -⟩
    exact hno ⟨answering_confirm hw hc, name, hdecodes⟩

/-- Request 901 for the tracked upload says nothing. -/
theorem quiet_request901 (ha : Answering ctx w cid version)
    (hname : confirmedName payload = .ok name)
    (hfile : w.session.transfer.uploadFilename = some name) (hup : w.store.connected = true)
    (hrow : 0 < w.store.working.uploadRows w.session.transfer.uploadId) :
    wp (request901 ctx payload version cid)
      (fun _ w' => Mute w w' ∧ w'.session.transfer = {}) (fun _ _ => False) w := by
  rw [request901, hname, wp_bind, wp_ofExcept_ok]
  apply wp_seq (wp_touch _)
  · intro _ u hu
    have ht : u.session.transfer = w.session.transfer := congrArg Core.transfer hu.core_eq
    have hrows : u.store.working.uploads = w.store.working.uploads :=
      congrArg (fun c => c.store.uploads) hu.core_eq
    rw [wp_bind, wp_fetch, ht, hfile, if_neg (by simp)]
    apply wp_seq (wp_changeRow _ _)
    · rintro ok v (⟨-, hdown, -⟩ | ⟨hok, -, hv⟩)
      · have hdown' : w.store.connected = false :=
          (congrArg (fun c => c.store.connected) hu.core_eq).symm.trans hdown
        exact absurd (hdown'.symm.trans hup) (by decide)
      · have hyes : ok = true := by
          rw [hok, uploadRows_congr hrows]
          exact decide_eq_true hrow
        rw [hyes, if_neg (by decide), wp_bind, wp_abandon, wp_update]
        have hsent : v.session.sent = w.session.sent := (hu.trans hv).sent
        have hmute : Mute w (releaseWorld v) := releaseWorld_sent.trans hsent
        exact ⟨hmute, rfl⟩
    · exact fun _ _ h => h.2 ha.sql
  · exact fun _ _ h => h.2 ⟨ha.sql, ha.indexed⟩

theorem frame_901 (hw : Attentive ctx w) (hlive : (rowsOf w).Live) (hzero : 0 ∉ fileName)
    (hc : Confirms cid 901 fileName frame) (h : Concluding fileName w.session.transfer) :
    Mute w (handleFrame ctx frame w).2 ∧ (handleFrame ctx frame w).2.session.transfer = {} := by
  obtain ⟨name, hfile, hdecodes⟩ := nameDecodes_cstr hzero h
  obtain ⟨id, hid⟩ := Option.isSome_iff_exists.mp h.tracked
  obtain ⟨r, hr, hrid, -, -⟩ := hlive.row id hid
  have hrow : 0 < w.store.working.uploadRows w.session.transfer.uploadId := by
    rw [hid]
    exact List.length_pos_of_mem (List.mem_filter.mpr ⟨hr, by simp [hrid]⟩)
  refine confirm_returns (Q := fun v => Mute w v ∧ v.session.transfer = {}) hw.verified hc ?_
  rw [dispatchAs_901 rfl]
  exact quiet_request901 (w := noteIdentity (parseFrame frame) w) (answering_confirm hw hc) hdecodes
    hfile (hlive.connected h.tracked) hrow

end

end Seftp.UploadReplies
