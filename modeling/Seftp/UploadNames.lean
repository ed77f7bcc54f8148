import Seftp.UploadSoundness
import Seftp.UploadPaths

/-!
# The name of an upload

The file name is read from every packet. Packet 1 fixes it for the session, the final
path and the row; the response 1603 repeats the name of the last packet. The sizes and
the number of packets are compared with packet 0, the names with nothing. So the four
names agree when the last packet repeats the name of packet 1 and `normpath` leaves
that name at the end of the path.
-/
namespace Seftp.UploadNames
open LittleEndian ExceptState OutsideWorld BlockChaining Checksum Text Protocol ClientStore
open StoreFrames ServerSession Answers SessionFrames AccountHandlers UploadHandlers HandlerFrames
open UploadSteps ChunkSteps AccountSteps FrameSteps Router HandshakeGate UploadStages UploadTrail
open UploadSlot UploadPaths

/-! ### Names in a packet and in a response -/

section
variable {p : Packet} {payload clientId version : Bytes}

/-- What was decoded is encoded again. -/
theorem utf8Encode_of_decode {bs : Bytes} {s : String} (h : utf8Decode bs = some s) :
    utf8Encode s = bs := by
  unfold utf8Decode String.fromUTF8? at h
  split_ifs at h
  cases h
  change bs.toByteArray.data.toList = bs
  simp

theorem utf8Encode_basename (s : String) : utf8Encode (basename s) <:+ utf8Encode s := by
  refine ⟨(s.toList.rdropWhile (· ≠ '/')).utf8Encode.data.toList, ?_⟩
  have hs : s.toByteArray = s.toList.utf8Encode := by
    rw [← String.toByteArray_ofList, String.ofList_toList]
  rw [utf8Encode, utf8Encode, basename, String.toByteArray_ofList, hs]
  have hcut : s.toList.rdropWhile (· ≠ '/') ++ s.toList.rtakeWhile (· ≠ '/') = s.toList :=
    List.rdropWhile_append_rtakeWhile
  conv_rhs => rw [← hcut, List.utf8Encode_append]
  simp

/-- The name ends at the first NUL of the payload, so it has none. -/
theorem fileName_nulFree (h : parse828 payload = .ok p) : 0 ∉ utf8Encode p.fileName := by
  unfold parse828 at h
  split at h
  · cases h
  · rename_i sep hsep
    split at h
    · cases h
    · rename_i name hname
      cases h
      intro hmem
      have hin : 0 ∈ (payload.drop 12).take sep := by
        rw [← utf8Encode_of_decode hname]
        exact (utf8Encode_basename name).subset hmem
      obtain ⟨i, hi, hzero⟩ := List.mem_take_iff_getElem.mp hin
      obtain ⟨hlen, -, hbefore⟩ := List.findIdx?_eq_some_iff_getElem.mp hsep
      simpa [hzero] using hbefore i (by omega)

/-- The file name of a 1603 message: header, client id and content size come before it,
a NUL after it. -/
def reportedName (m : Bytes) : Option String := utf8Decode ((m.drop 27).takeWhile (· ≠ 0))

theorem reportedName_crcMessage (hid : clientId.length = 16) (hv : version.length = 1)
    (hname : 0 ∉ utf8Encode p.fileName) (crc : UInt32) :
    reportedName (crcMessage clientId version p crc) = some p.fileName := by
  have hdrop : (crcMessage clientId version p crc).drop 27 =
      utf8Encode p.fileName ++ (0 :: leBytes 4 crc.toNat) := by
    have hsplit : crcMessage clientId version p crc =
        (version ++ leBytes 2 ResCode.crcResult.value ++ leBytes 4
          (clientId ++ leBytes 4 p.contentSize ++
          (utf8Encode p.fileName ++ [0]) ++ leBytes 4 crc.toNat).length ++ clientId ++
          leBytes 4 p.contentSize) ++ (utf8Encode p.fileName ++ (0 :: leBytes 4 crc.toNat)) := by
      simp [crcMessage, message]
    rw [hsplit, List.drop_left']
    simp only [List.length_append, length_leBytes, hid, hv]
  have hall : ∀ b ∈ utf8Encode p.fileName, decide (b ≠ 0) = true := by
    intro b hb
    have hne : b ≠ 0 := fun h => hname (h ▸ hb)
    simpa using hne
  rw [reportedName, hdrop, List.takeWhile_append_of_pos hall, List.takeWhile_cons_of_neg (by simp),
    List.append_nil, utf8Decode_utf8Encode]

end

/-! ### The last component of the path -/

theorem basename_append (dir s : String) : basename (dir ++ "/" ++ s) = basename s := by
  have hlist : (dir ++ "/" ++ s).toList = dir.toList ++ '/' :: s.toList := by
    simp [String.toList_append]
  rw [basename, hlist, basename, List.rtakeWhile, List.reverse_append, List.reverse_cons,
    List.append_assoc, List.takeWhile_append, List.rtakeWhile]
  split_ifs with hall
  · rw [List.singleton_append, List.takeWhile_cons_of_neg (by simp), List.append_nil,
      (List.takeWhile_prefix _).eq_of_length hall]
  · rfl

theorem basename_of_plain {name : String} (h : '/' ∉ name.toList) : basename name = name := by
  apply String.toList_injective
  rw [basename, String.toList_ofList]
  apply List.rtakeWhile_eq_self_iff.mpr
  intro c hc
  have hne : c ≠ '/' := fun he => h (he ▸ hc)
  simpa using hne

theorem basename_after (dir name : String) (hn : '/' ∉ name.toList) :
    basename (dir ++ "/" ++ name) = name := (basename_append dir name).trans (basename_of_plain hn)

/-- `normpath` keeps the name as the last component unless it is a special one. -/
theorem basename_outPath_iff {clientId : Bytes} {name : String} (hid : clientId ≠ [])
    (hn : '/' ∉ name.toList) : basename (outPath (hex clientId) name) = name ↔ name ∉ special := by
  have hh := component_hex hid
  rw [outPath_eq hh hn]
  by_cases hblank : name = "" ∨ name = "."
  · rw [if_pos hblank]
    have hlast : basename ("data/uploads/" ++ hex clientId) = hex clientId :=
      basename_after "data/uploads" _ hh.plain
    rw [hlast]
    refine iff_of_false ?_ (not_not.mpr ?_)
    · rintro he
      rcases hblank with rfl | rfl
      · exact hh.nonempty (by rw [he]; rfl)
      · exact hh.not_dot (by rw [he]; rfl)
    · rcases hblank with rfl | rfl
      · decide
      · decide
  rw [if_neg hblank]
  by_cases hup : name = ".."
  · subst hup
    rw [if_pos rfl]
    exact iff_of_false (by decide) (by decide)
  · rw [if_neg hup, basename_after _ _ hn]
    rw [not_or] at hblank
    exact iff_of_true rfl (by simp [special, hblank.1, hblank.2, hup])

/-! ### One frame -/

/-- The number of the packet that the session takes next; 0 is an announcement. -/
def nextPacket (w : World) : ℕ := w.session.transfer.expectedPacketNum.getD 0

/-- The three names that an upload has on the server, and the rows. -/
structure SameNames (w w' : World) : Prop where
  filename : w'.session.transfer.uploadFilename = w.session.transfer.uploadFilename
  path : w'.session.transfer.uploadPath = w.session.transfer.uploadPath
  id : w'.session.transfer.uploadId = w.session.transfer.uploadId
  rows : w'.store.working.uploads = w.store.working.uploads

/-- What a frame does to the names of an upload. -/
inductive NameStep (ctx : Ctx) (frame : Bytes) (w w' : World) : Prop
  | reset (h : w'.session.transfer = {})
  | still (hnext : nextPacket w' = nextPacket w)
      (hsame : w.session.transfer.uploadActive = true → SameNames w w')
  | announced (p : Packet) (hcarries : Carries frame (parseFrame frame).clientId p)
      (hnum : p.packetNum = 0) (hnext : nextPacket w' = 1)
  | began (p : Packet) (x y : World) (hcarries : Carries frame (parseFrame frame).clientId p)
      (hnum : p.packetNum = 1) (hsent : x.session.sent = w.session.sent)
      (hnext : nextPacket x = nextPacket w) (hstart : Started (parseFrame frame).clientId p x y)
      (haccept : Accepts ctx.env (parseFrame frame).clientId (parseFrame frame).version p y w')
  | taken (p : Packet) (x : World) (hcarries : Carries frame (parseFrame frame).clientId p)
      (hnum : 1 < p.packetNum) (hsent : x.session.sent = w.session.sent)
      (hnext : nextPacket x = nextPacket w) (hsame : SameNames w x)
      (haccept : Accepts ctx.env (parseFrame frame).clientId (parseFrame frame).version p x w')

section
variable {ctx : Ctx} {frame clientId version : Bytes} {p : Packet} {w u v w' : World} {env : Env}

theorem SameNames.trans (h : SameNames w u) (h' : SameNames u v) : SameNames w v :=
  ⟨h'.filename.trans h.filename, h'.path.trans h.path, h'.id.trans h.id, h'.rows.trans h.rows⟩

theorem sameNames_core (h : SessionFrames.core u = SessionFrames.core w) : SameNames w u :=
  ⟨congrArg (fun c => c.transfer.uploadFilename) h, congrArg (fun c => c.transfer.uploadPath) h,
    congrArg (fun c => c.transfer.uploadId) h, congrArg (fun c => c.store.uploads) h⟩

theorem sameNames_account (h : AccountOnly env w u) : SameNames w u := by
  refine ⟨?_, ?_, ?_, h.uploads⟩
  · rw [h.transfer]
  · rw [h.transfer]
  · rw [h.transfer]

theorem nextPacket_of_transfer (h : u.session.transfer = w.session.transfer) :
    nextPacket u = nextPacket w := by
  rw [nextPacket, h]
  rfl

/-- An accepted packet moves on and leaves the names. -/
theorem accepts_names (h : Accepts env clientId version p w w') :
    nextPacket w = p.packetNum ∧ nextPacket w' = p.packetNum + 1 ∧ SameNames w w' := by
  have hexpected := accepts_expected h
  have htakes {x : World} (ht : Takes env p w x) :
      x.session.transfer.expectedPacketNum = some (p.packetNum + 1) ∧ SameNames w x := by
    obtain ⟨ts, cipher, out, tail, -, hd⟩ := ht
    refine ⟨?_, ?_, ?_, ?_, ?_⟩
    · have hmoved : x.session.transfer.expectedPacketNum =
          w.session.transfer.expectedPacketNum.map (· + 1) :=
        congrArg (fun c => c.transfer.expectedPacketNum) hd.core_eq
      rw [hmoved, hexpected]
      rfl
    · exact congrArg (fun c => c.transfer.uploadFilename) hd.core_eq
    · exact congrArg (fun c => c.transfer.uploadPath) hd.core_eq
    · exact congrArg (fun c => c.transfer.uploadId) hd.core_eq
    · exact congrArg (fun c => c.store.uploads) hd.core_eq
  refine ⟨by rw [nextPacket, hexpected]; rfl, ?_⟩
  rcases h with ⟨-, ht⟩ | ⟨-, x, ht, tmp, path, -, hsaid⟩
  · obtain ⟨hmoved, hsame⟩ := htakes ht
    exact ⟨by rw [nextPacket, hmoved]; rfl, hsame⟩
  · obtain ⟨hmoved, hsame⟩ := htakes ht
    have hkept : w'.session.transfer.expectedPacketNum = x.session.transfer.expectedPacketNum :=
      congrArg (fun c => c.transfer.expectedPacketNum) hsaid.core_eq
    refine ⟨by rw [nextPacket, hkept, hmoved]; rfl, hsame.trans ⟨?_, ?_, ?_, ?_⟩⟩
    · exact congrArg (fun c => c.transfer.uploadFilename) hsaid.core_eq
    · exact congrArg (fun c => c.transfer.uploadPath) hsaid.core_eq
    · exact congrArg (fun c => c.transfer.uploadId) hsaid.core_eq
    · exact congrArg (fun c => c.store.uploads) hsaid.core_eq

/-- The last packet is answered with its own name. -/
theorem accepts_last (h : Accepts env clientId version p w w')
    (hlast : p.packetNum = p.totalPackets) :
    ∃ crc, w'.session.sent = w.session.sent ++ [crcMessage clientId version p crc] := by
  rcases h with ⟨hmore, -⟩ | ⟨-, x, ⟨ts, cipher, out, tail, -, hd⟩, tmp, path, -, hsaid⟩
  · exact (hmore hlast).elim
  · exact ⟨_, by rw [hsaid.sent, hd.sent]⟩

/-- Binding the client leaves the names. -/
theorem sameNames_bind {store : Store} {idHex : String} {t : Transfer}
    (hb : bindUpload store idHex w.session.transfer = .ok t)
    (hd : Does (withTransfer fun _ => t) w u) : SameNames w u ∧ nextPacket u = nextPacket w := by
  have ht : u.session.transfer = t := congrArg Core.transfer hd.core_eq
  have hrows : u.store.working.uploads = w.store.working.uploads :=
    congrArg (fun c => c.store.uploads) hd.core_eq
  rcases bindUpload_ok hb with ⟨-, rfl⟩ | ⟨-, record, b64, key, -, -, -, rfl⟩
  · refine ⟨⟨?_, ?_, ?_, hrows⟩, nextPacket_of_transfer ht⟩
    · rw [ht]
    · rw [ht]
    · rw [ht]
  · refine ⟨⟨?_, ?_, ?_, hrows⟩, ?_⟩
    · rw [ht]
    · rw [ht]
    · rw [ht]
    · rw [nextPacket, ht]
      rfl

theorem nameStep_uploads (hform : wellFormed frame = true) (hcode : (parseFrame frame).code = 828)
    (h : Uploads ctx (parseFrame frame).clientId (parseFrame frame).version
      (parseFrame frame).payload w w') : NameStep ctx frame w w' := by
  cases h with
  | unparsed r hparse hplain href => exact .reset href.transfer
  | unbound p r hparse hbind hplain href => exact .reset href.transfer
  | foreign p hparse hid hother href => exact .reset href.transfer
  | header p t text hparse hbind hheader habandon => exact .reset habandon.transfer
  | admitted p t u hparse hbind hown hheader hd hadmits =>
      have hcarries : Carries frame (parseFrame frame).clientId p := ⟨hform, hcode, rfl, hparse⟩
      obtain ⟨hsame, hnext⟩ := sameNames_bind hbind hd
      cases hadmits with
      | announced t hnum hiv hdoes =>
          unfold acceptIv at hiv
          split_ifs at hiv
          cases hiv
          refine .announced p hcarries hnum ?_
          have ht : w'.session.transfer.expectedPacketNum = some 1 :=
            congrArg (fun c => c.transfer.expectedPacketNum) hdoes.core_eq
          rw [nextPacket, ht]
          rfl
      | declined r hnum hiv hplain href => exact .reset href.transfer
      | failed r hnum hfail href => exact .reset href.transfer
      | busy hnum hcheck hbusy => exact .reset hbusy.transfer
      | unrecorded hnum hcheck hdown => exact .reset hdown.transfer
      | restarted x r hnum hcheck hstart hfail href => exact .reset href.transfer
      | began x hnum hcheck hstart haccept =>
          exact .began p u x hcarries hnum hd.sent hnext hstart haccept
      | taken hnum hcheck haccept => exact .taken p u hcarries hnum hd.sent hnext hsame haccept

theorem nameStep_routed (h : Routed ctx frame w w') : NameStep ctx frame w w' := by
  rcases routed_cases h with hstep | hreset | ⟨hform, hcode, hstep⟩
  · exact .still (nextPacket_of_transfer hstep.transfer) fun _ => sameNames_account hstep
  · exact .reset hreset
  · exact nameStep_uploads hform hcode hstep

/-- A raise that leaves no active upload found none and has accepted nothing. -/
theorem broke_idle (hs : Stage (SessionFrames.core w)) (hb : Broke ctx frame w u)
    (hu : u.session.transfer.uploadActive = false) :
    w.session.transfer.uploadActive = false ∧ nextPacket u = nextPacket w := by
  obtain ⟨hw, key, name, idHex, ht⟩ := broke_fields hs.later hb hu
  refine ⟨hw, ?_⟩
  rw [nextPacket, ht]
  rfl

theorem nameStep_steps (hs : Stage (SessionFrames.core w)) (h : Steps ctx frame w w') :
    NameStep ctx frame w w' := by
  cases h with
  | locked hv ht hstep =>
      have htransfer : w'.session.transfer = w.session.transfer :=
        congrArg Core.transfer hstep.core_eq
      exact .reset (htransfer.trans ht)
  | handled hv hstep =>
      cases hstep with
      | short hlen hstep =>
          exact .still (nextPacket_of_transfer (congrArg Core.transfer hstep.core_eq))
            fun _ => sameNames_core hstep.core_eq
      | routed hlen hstep =>
          have hnote : NameStep ctx frame (noteIdentity (parseFrame frame) w) w' :=
            nameStep_routed hstep
          cases hnote with
          | reset h => exact .reset h
          | still hnext hsame =>
              exact .still hnext fun h => ⟨(hsame h).filename, (hsame h).path, (hsame h).id,
                (hsame h).rows⟩
          | announced p hcarries hnum hnext => exact .announced p hcarries hnum hnext
          | began p x y hcarries hnum hsent hnext hstart haccept =>
              exact .began p x y hcarries hnum hsent hnext hstart haccept
          | taken p x hcarries hnum hsent hnext hsame haccept =>
              exact .taken p x hcarries hnum hsent hnext
                ⟨hsame.filename, hsame.path, hsame.id, hsame.rows⟩ haccept
      | raised hlen u hb hcause hend =>
          cases hend with
          | dropped hactive hdrop => exact .reset hdrop.transfer
          | kept hidle hkept =>
              obtain ⟨hbefore, hnext⟩ :=
                broke_idle (w := noteIdentity (parseFrame frame) w) hs hb hidle
              refine .still ((nextPacket_of_transfer (congrArg Core.transfer hkept)).trans hnext) ?_
              exact fun h => absurd (hbefore.symm.trans h) (by decide)

end

/-! ### Runs -/

/-- The frame is a packet that the session has waited for, and the session goes on to
the next one. -/
structure Accepted (frame : Bytes) (p : Packet) (w w' : World) : Prop where
  carries : Carries frame (parseFrame frame).clientId p
  awaited : nextPacket w = p.packetNum
  goesOn : nextPacket w' = p.packetNum + 1

/-- The packets that the session has accepted in a run since an announcement. Between
them there may be frames after which it waits for the same packet. -/
inductive Received (env : Env) (w₀ : World) : List Event → List Packet → Prop
  | announced (es : List Event) (e : Event) (p : Packet) (hnum : p.packetNum = 0)
      (h : Accepted e.2 p (runFrames env es w₀) (runFrames env (es ++ [e]) w₀)) :
      Received env w₀ (es ++ [e]) [p]
  | accepted (es : List Event) (e : Event) (ps : List Packet) (p : Packet)
      (hps : Received env w₀ es ps)
      (h : Accepted e.2 p (runFrames env es w₀) (runFrames env (es ++ [e]) w₀)) :
      Received env w₀ (es ++ [e]) (ps ++ [p])
  | between (es : List Event) (e : Event) (ps : List Packet) (hps : Received env w₀ es ps)
      (hnext : nextPacket (runFrames env (es ++ [e]) w₀) = nextPacket (runFrames env es w₀)) :
      Received env w₀ (es ++ [e]) ps

/-- The session, the path and the row of an upload have this name. -/
structure Named (name : String) (w : World) : Prop where
  plain : '/' ∉ name.toList
  filename : w.session.transfer.uploadFilename = some name
  path : ∃ clientId : Bytes, clientId ≠ [] ∧
    w.session.transfer.uploadPath = some (outPath (hex clientId) name)
  row : ∃ r ∈ w.store.working.uploads, w.session.transfer.uploadId = some r.id ∧ r.fileName = name

/-- The frame that led from `w` to `w'` was answered with a 1603, and the name in it is
that of the session, the last component of the path and that of the row. -/
def OneName (w w' : World) : Prop :=
  ∃ m name, w'.session.sent = w.session.sent ++ [m] ∧
    (m.drop 1).take 2 = leBytes 2 ResCode.crcResult.value ∧ reportedName m = some name ∧
    w'.session.transfer.uploadFilename = some name ∧
    w'.session.transfer.uploadPath.map basename = some name ∧
    ∃ r ∈ w'.store.working.uploads, w'.session.transfer.uploadId = some r.id ∧ r.fileName = name

section
variable {ctx : Ctx} {frame clientId : Bytes} {name : String} {p : Packet} {w u w' : World}

theorem Named.same (h : Named name w) (hs : SameNames w u) : Named name u := by
  refine ⟨h.plain, hs.filename.trans h.filename, ?_, ?_⟩
  · rw [hs.path]
    exact h.path
  · rw [hs.rows, hs.id]
    exact h.row

theorem clientId_ne_nil (h : Carries frame clientId p) : clientId ≠ [] := by
  rw [← h.client]
  intro hnil
  have hlen := clientId_length h.formed
  rw [hnil] at hlen
  cases hlen

/-- Packet 1 names the upload. -/
theorem named_started (h : Started clientId p w u) (hc : Carries frame clientId p) :
    Named p.fileName u := by
  obtain ⟨ts, time, limiter, hd⟩ := h.does
  refine ⟨fileName_plain hc.parses, congrArg (fun c => c.transfer.uploadFilename) hd.core_eq,
    ⟨clientId, clientId_ne_nil hc, congrArg (fun c => c.transfer.uploadPath) hd.core_eq⟩, ?_⟩
  have hrows : u.store.working.uploads = w.store.working.uploads ++
      [newRow (hex clientId) p.fileName p.origFileSize
        (w.session.transfer.expectedContentSize.getD 0) time (nextId w.store.working.uploads)] :=
    congrArg (fun c => c.store.uploads) hd.core_eq
  have hupload : u.session.transfer.uploadId = some (nextId w.store.working.uploads) :=
    congrArg (fun c => c.transfer.uploadId) hd.core_eq
  rw [hrows, hupload]
  exact ⟨_, List.mem_append_right _ (List.mem_singleton_self _), rfl, rfl⟩

theorem carries_unique {q : Packet} (h : Carries frame clientId p) (h' : Carries frame clientId q) :
    p = q := Except.ok.inj (h.parses.symm.trans h'.parses)

/-- What an accepted packet after the announcement does: packet 1 names the upload, a
later one leaves the names, and the last one is answered with its own name. -/
theorem accepted_names (hs : Stage (SessionFrames.core w)) (hstep : Steps ctx frame w w')
    (h : Accepted frame p w w') (hnum : p.packetNum ≠ 0) :
    ((p.packetNum = 1 ∧ Named p.fileName w') ∨ (1 < p.packetNum ∧ SameNames w w')) ∧
      (p.packetNum = p.totalPackets → ∃ crc, w'.session.sent = w.session.sent ++
        [crcMessage (parseFrame frame).clientId (parseFrame frame).version p crc]) := by
  have hgoes := h.goesOn
  have hwaits := h.awaited
  cases nameStep_steps hs hstep with
  | reset ht =>
      rw [nextPacket, ht] at hgoes
      cases hgoes
  | still hnext hsame => omega
  | announced q hcarries hzero hnext => omega
  | began q x y hcarries hone hsent hnext hstart haccept =>
      obtain rfl := carries_unique hcarries h.carries
      obtain ⟨-, -, hsame⟩ := accepts_names haccept
      obtain ⟨ts, time, limiter, hd⟩ := hstart.does
      refine ⟨.inl ⟨hone, (named_started hstart hcarries).same hsame⟩, fun hlast => ?_⟩
      obtain ⟨crc, hcrc⟩ := accepts_last haccept hlast
      exact ⟨crc, by rw [hcrc, hd.sent, hsent]⟩
  | taken q x hcarries hmore hsent hnext hkept haccept =>
      obtain rfl := carries_unique hcarries h.carries
      obtain ⟨-, -, hsame⟩ := accepts_names haccept
      refine ⟨.inr ⟨hmore, hkept.trans hsame⟩, fun hlast => ?_⟩
      obtain ⟨crc, hcrc⟩ := accepts_last haccept hlast
      exact ⟨crc, by rw [hcrc, hsent]⟩

/-- A frame after which the session waits for the same packet leaves the names of a
named upload. -/
theorem between_names (hs : Stage (SessionFrames.core w)) (hstep : Steps ctx frame w w')
    (hnext : nextPacket w' = nextPacket w) (hnamed : 1 < nextPacket w) : SameNames w w' := by
  have hactive : w.session.transfer.uploadActive = true := by
    cases hs with
    | idle _ hexpected _ =>
        rcases he : w.session.transfer.expectedPacketNum with _ | k
        · rw [nextPacket, he] at hnamed
          simp at hnamed
        · rw [nextPacket, he, hexpected k he] at hnamed
          simp at hnamed
    | waiting k n h => exact h.active
    | complete k n h => exact h
  cases nameStep_steps hs hstep with
  | reset ht =>
      have hzero : nextPacket w' = 0 := by
        rw [nextPacket, ht]
        rfl
      omega
  | still _ hsame => exact hsame hactive
  | announced q hcarries hzero hone => omega
  | began q x y hcarries hone hsent hkept hstart haccept =>
      obtain ⟨hwaits, hgoes, -⟩ := accepts_names haccept
      obtain ⟨ts, time, limiter, hd⟩ := hstart.does
      have hexpected : y.session.transfer.expectedPacketNum =
          x.session.transfer.expectedPacketNum :=
        congrArg (fun c => c.transfer.expectedPacketNum) hd.core_eq
      have hyx : nextPacket y = nextPacket x := congrArg (Option.getD · 0) hexpected
      omega
  | taken q x hcarries hmore hsent hkept hsame haccept =>
      obtain ⟨hwaits, hgoes, -⟩ := accepts_names haccept
      omega

end

section
variable {env : Env} {w₀ : World} {es : List Event} {e : Event} {ps : List Packet} {p : Packet}

/-- Along a run: the packets are numbered from 0, and once packet 1 is there its name is
that of the upload. -/
theorem received_names (hsound : Sound w₀) (ht : w₀.session.transfer = {})
    (h : Received env w₀ es ps) : ps ≠ [] ∧ nextPacket (runFrames env es w₀) = ps.length ∧
      ∀ q ∈ ps[1]?, Named q.fileName (runFrames env es w₀) := by
  induction h with
  | announced es e p hnum h =>
      refine ⟨by simp, ?_, by simp⟩
      rw [h.goesOn, hnum]
      rfl
  | accepted es e ps p hps h ih =>
      obtain ⟨hne, hlen, hfirst⟩ := ih
      have hnum : p.packetNum = ps.length := h.awaited.symm.trans hlen
      have hpos : 0 < ps.length := List.length_pos_iff.mpr hne
      obtain ⟨hnames, -⟩ :=
        accepted_names (stage_run hsound ht es) (run_steps hsound es e) h (by omega)
      refine ⟨by simp, by rw [h.goesOn, hnum, List.length_append, List.length_singleton], ?_⟩
      intro q hq
      rcases hnames with ⟨hone, hnamed⟩ | ⟨hmore, hsame⟩
      · rw [List.getElem?_append_right (by omega), show 1 - ps.length = 0 by omega] at hq
        cases hq
        exact hnamed
      · rw [List.getElem?_append_left (by omega)] at hq
        exact (hfirst q hq).same hsame
  | between es e ps hps hnext ih =>
      obtain ⟨hne, hlen, hfirst⟩ := ih
      refine ⟨hne, hnext.trans hlen, fun q hq => (hfirst q hq).same ?_⟩
      have hlong : 1 < ps.length := by
        obtain ⟨hlt, -⟩ := List.getElem?_eq_some_iff.mp hq
        exact hlt
      exact between_names (stage_run hsound ht es) (run_steps hsound es e) hnext (by omega)

theorem version_length {frame : Bytes} (h : wellFormed frame = true) :
    (parseFrame frame).version.length = 1 := by
  simp only [wellFormed, Bool.and_eq_true, decide_eq_true_eq] at h
  rw [parseFrame, List.length_take, List.length_drop]
  omega

theorem code_crcMessage {clientId version : Bytes} (hv : version.length = 1) (crc : UInt32) :
    ((crcMessage clientId version p crc).drop 1).take 2 = leBytes 2 ResCode.crcResult.value := by
  have hlen : (leBytes 2 ResCode.crcResult.value).length = 2 := length_leBytes _ _
  rw [crcMessage, message, List.append_assoc, List.append_assoc, List.drop_left' hv,
    List.take_left' hlen]

end

/-- For every run of a session and every sequence of packets that it accepts, from the
announcement to the last packet: the name in the response is that of the session, the
path and the row if and only if the last packet repeats the name of packet 1 and that
name is not one of the three special ones. -/
theorem one_name_iff (env : Env) (connectionId : String) (now : ℚ) (store : Store)
    (files : FileSystem) (limiter : UploadLimiter) (es : List Event) (e : Event)
    (ps : List Packet) (p first : Packet)
    (hps : Received env (freshWorld connectionId now store files limiter) es ps)
    (h : Accepted e.2 p (runFrames env es (freshWorld connectionId now store files limiter))
      (runFrames env (es ++ [e]) (freshWorld connectionId now store files limiter)))
    (hlast : p.packetNum = p.totalPackets) (hfirst : (ps ++ [p])[1]? = some first) :
    OneName (runFrames env es (freshWorld connectionId now store files limiter))
        (runFrames env (es ++ [e]) (freshWorld connectionId now store files limiter)) ↔
      p.fileName = first.fileName ∧ first.fileName ∉ special := by
  have hsound := sound_freshWorld connectionId now store files limiter
  have hall := received_names hsound rfl (.accepted es e ps p hps h)
  have hnamed : Named first.fileName _ := hall.2.2 first hfirst
  obtain ⟨hne, hlen, -⟩ := received_names hsound rfl hps
  have hpos : 0 < ps.length := List.length_pos_iff.mpr hne
  have hnum : p.packetNum = ps.length := h.awaited.symm.trans hlen
  obtain ⟨crc, hsent⟩ := (accepted_names (stage_run hsound rfl es) (run_steps hsound es e) h
    (by omega)).2 hlast
  have hv := version_length h.carries.formed
  have hreported := reportedName_crcMessage (clientId_length h.carries.formed) hv
    (fileName_nulFree h.carries.parses) crc
  obtain ⟨clientId, hid, hpath⟩ := hnamed.path
  obtain ⟨r, hr, hrow, hrname⟩ := hnamed.row
  have hcomponent := basename_outPath_iff hid hnamed.plain
  constructor
  · rintro ⟨m, name, hm, -, hname, hfile, hbase, -⟩
    obtain rfl : m = _ := by
      have := hm.symm.trans hsent
      simpa using this
    have hfirstname : first.fileName = name := Option.some.inj (hnamed.filename.symm.trans hfile)
    have hlastname : p.fileName = name := Option.some.inj (hreported.symm.trans hname)
    refine ⟨hlastname.trans hfirstname.symm, hcomponent.mp ?_⟩
    rw [hpath] at hbase
    exact (Option.some.inj hbase).trans hfirstname.symm
  · rintro ⟨hsame, hspecial⟩
    refine ⟨_, first.fileName, hsent, code_crcMessage hv crc, hsame ▸ hreported,
      hnamed.filename, ?_, r, hr, hrow, hrname⟩
    rw [hpath]
    exact congrArg some (hcomponent.mpr hspecial)

/-! ### A last packet for another file -/

/-- Packet `num` of two for a file of 17 bytes, as the server reads it. -/
def packetOf (name : String) (num : ℕ) (chunk : Bytes) : Packet :=
  { contentSize := 32, origFileSize := 17, packetNum := num, totalPackets := 2, fileName := name,
    cipherChunk := chunk }

/-- The last packet of the upload of `f`, with the name `g`. -/
def renamedPacket : Event :=
  aliceRequest 828 (leBytes 4 32 ++ leBytes 4 17 ++ leBytes 2 2 ++ leBytes 2 2 ++
    utf8Encode "g" ++ [0] ++ lastChunk)

/-- Packets 0 and 1 for `f`. -/
def untilLast : List Event := aliceUpload.take 2 ++ [alicePacket 0 (List.replicate 16 9)] ++
  [alicePacket 1 firstChunk]

theorem untilLast_received : Received plainEnv aliceWorld untilLast
    [packetOf "f" 0 (List.replicate 16 9), packetOf "f" 1 firstChunk] := by
  have hzero :
      Received plainEnv aliceWorld (aliceUpload.take 2 ++ [alicePacket 0 (List.replicate 16 9)])
      [packetOf "f" 0 (List.replicate 16 9)] := by
    refine .announced _ _ _ rfl ⟨⟨?_, ?_, rfl, ?_⟩, ?_, ?_⟩
    · decide +kernel
    · decide +kernel
    · decide +kernel
    · decide +kernel
    · decide +kernel
  refine .accepted _ _ _ _ hzero ⟨⟨?_, ?_, rfl, ?_⟩, ?_, ?_⟩
  · decide +kernel
  · decide +kernel
  · decide +kernel
  · decide +kernel
  · decide +kernel

theorem one_name_alice :
    OneName (runFrames plainEnv untilLast aliceWorld)
      (runFrames plainEnv (untilLast ++ [alicePacket 2 lastChunk]) aliceWorld) := by
  have haccepted : Accepted (alicePacket 2 lastChunk).2
      (packetOf "f" 2 lastChunk) (runFrames plainEnv untilLast aliceWorld)
      (runFrames plainEnv (untilLast ++ [alicePacket 2 lastChunk]) aliceWorld) := by
    refine ⟨⟨?_, ?_, rfl, ?_⟩, ?_, ?_⟩
    · decide +kernel
    · decide +kernel
    · decide +kernel
    · decide +kernel
    · decide +kernel
  exact (one_name_iff plainEnv "c1" 0 _ _ _ untilLast _ _ _ _ untilLast_received haccepted rfl
    rfl).mpr ⟨rfl, by decide⟩

/-- The session accepts all three packets and answers with the name `g`, while its own
name, the path and the row say `f`. -/
theorem last_packet_renamed :
    Received plainEnv aliceWorld untilLast
        [packetOf "f" 0 (List.replicate 16 9), packetOf "f" 1 firstChunk] ∧
      Accepted renamedPacket.2 (packetOf "g" 2 lastChunk)
        (runFrames plainEnv untilLast aliceWorld)
        (runFrames plainEnv (untilLast ++ [renamedPacket]) aliceWorld) ∧
      ¬ OneName (runFrames plainEnv untilLast aliceWorld)
        (runFrames plainEnv (untilLast ++ [renamedPacket]) aliceWorld) := by
  refine ⟨untilLast_received, ⟨⟨?_, ?_, rfl, ?_⟩, ?_, ?_⟩, ?_⟩
  · decide +kernel
  · decide +kernel
  · decide +kernel
  · decide +kernel
  · decide +kernel
  · rintro ⟨m, name, hm, -, hname, hfile, -⟩
    have hlast :
        ((runFrames plainEnv (untilLast ++ [renamedPacket]) aliceWorld).session.sent.getLast?).bind
        reportedName = some "g" := by decide +kernel
    have hsession : (runFrames plainEnv (untilLast ++ [renamedPacket])
        aliceWorld).session.transfer.uploadFilename = some "f" := by decide +kernel
    rw [hm, List.getLast?_append, List.getLast?_singleton] at hlast
    have hg : name = "g" := Option.some.inj (hname.symm.trans hlast)
    have hf : name = "f" := Option.some.inj (hfile.symm.trans hsession)
    exact absurd (hg.symm.trans hf) (by decide)

end Seftp.UploadNames
