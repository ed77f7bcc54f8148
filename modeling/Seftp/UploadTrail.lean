import Seftp.UploadStages

/-!
# An upload as its packets tell it

A `Trail` is the announcement of an upload with the packets accepted since. The
transfer and the files of a session follow a trail: what has been written to the
temporary file, with the tail held back, is the decryption of the ciphertext so
far, and after the last packet the file under its final name is the unpadded
plaintext.
-/
namespace Seftp.UploadTrail
open LittleEndian ExceptState OutsideWorld BlockChaining Checksum Text Protocol ClientStore
open StoreFrames ServerSession Answers SessionFrames AccountHandlers UploadHandlers HandlerFrames
open UploadSteps ChunkSteps AccountSteps FrameSteps Router HandshakeGate UploadStages

/-! ### Trails -/

structure Trail where
  clientId : Bytes
  key : Bytes
  announced : Packet
  taken : List Packet

namespace Trail

def iv (g : Trail) : Bytes := g.announced.cipherChunk.take 16

def cipher (g : Trail) : Bytes := (g.taken.map Packet.cipherChunk).flatten

/-- The decryption of the ciphertext, with its padding. -/
def padded (env : Env) (g : Trail) : Bytes :=
  cbcDecrypt (env.aesDecrypt g.key) 16 g.iv g.cipher

/-- The file name of packet 1. -/
def name (g : Trail) : Option String := g.taken.head?.map Packet.fileName

def push (g : Trail) (p : Packet) : Trail := { g with taken := g.taken ++ [p] }

/-- What the packets of a trail have in common. -/
structure Consistent (g : Trail) : Prop where
  first : g.announced.packetNum = 0
  vector : 16 ≤ g.announced.cipherChunk.length
  numbers : g.taken.map Packet.packetNum = List.range' 1 g.taken.length
  total : ∀ q ∈ g.taken, q.totalPackets = g.announced.totalPackets
  content : ∀ q ∈ g.taken, q.contentSize = g.announced.contentSize
  orig : ∀ q ∈ g.taken, q.origFileSize = g.announced.origFileSize

variable {g : Trail} {p : Packet}

theorem cipher_push : (g.push p).cipher = g.cipher ++ p.cipherChunk := by
  simp [cipher, push]

theorem name_push (h : g.taken ≠ []) : (g.push p).name = g.name := by
  obtain ⟨q, qs, hq⟩ := List.exists_cons_of_ne_nil h
  simp [name, push, hq]

theorem Consistent.length_iv (h : g.Consistent) : g.iv.length = 16 := by
  have := h.vector
  rw [iv, List.length_take]
  omega

theorem Consistent.push (h : g.Consistent) (hnum : p.packetNum = g.taken.length + 1)
    (htotal : p.totalPackets = g.announced.totalPackets)
    (hcontent : p.contentSize = g.announced.contentSize)
    (horig : p.origFileSize = g.announced.origFileSize) : (g.push p).Consistent := by
  have hall {P : Packet → Prop} (hold : ∀ q ∈ g.taken, P q) (hp : P p) :
      ∀ q ∈ g.taken ++ [p], P q := by
    intro q hq
    rcases List.mem_append.mp hq with hq | hq
    · exact hold q hq
    · rw [List.mem_singleton.mp hq]
      exact hp
  refine ⟨h.first, h.vector, ?_, hall h.total htotal, hall h.content hcontent, hall h.orig horig⟩
  change (g.taken ++ [p]).map Packet.packetNum = List.range' 1 (g.taken ++ [p]).length
  rw [List.map_append, h.numbers, List.map_singleton, hnum, List.length_append,
    List.length_singleton, List.range'_1_concat]
  simp [Nat.add_comm]

end Trail

/-- The block cipher of the library maps blocks to blocks. -/
def AesBlocks (env : Env) : Prop :=
  ∀ key block : Bytes, block.length = 16 → (env.aesDecrypt key block).length = 16

/-! ### Decryption -/

/-- The temporary file holds what has been written. -/
structure Wrote (g : Trail) (name : String) (c : SessionFrames.Core) (written : Bytes) : Prop where
  count : c.transfer.uploadPlainBytesWritten = written.length
  crc : c.transfer.uploadCrc32State = crc32 written 0
  tmp : c.transfer.uploadTmpPath = some (tmpPath (hex g.clientId) name c.connectionId)
  path : c.transfer.uploadPath = some (outPath (hex g.clientId) name)
  file : ∃ inode, c.transfer.uploadTmpFile = some inode ∧
    c.files.entry (tmpPath (hex g.clientId) name c.connectionId) = some inode ∧
    c.files.content inode = written

/-- What has been written and the tail held back are the plaintext so far. -/
structure Decrypting (env : Env) (g : Trail) (name : String) (c : SessionFrames.Core)
    (written : Bytes) : Prop extends Wrote g name c written where
  cipher : c.transfer.uploadDecryptCipher =
    some { key := g.key, chain := chainValue 16 g.iv g.cipher }
  split : written ++ c.transfer.uploadPlainTail = g.padded env
  aligned : 16 ∣ g.cipher.length
  blocks : 16 ∣ written.length

section
variable {env : Env} {g : Trail} {name : String} {p : Packet} {w u : World} {written : Bytes}

theorem length_padded (haes : AesBlocks env) (hiv : g.iv.length = 16) (h : 16 ∣ g.cipher.length) :
    (g.padded env).length = g.cipher.length := length_cbcDecrypt (haes g.key) hiv h

/-- The next chunk continues the decryption. -/
theorem padded_push (h : 16 ∣ g.cipher.length) :
    (g.push p).padded env = g.padded env ++ cbcDecrypt (env.aesDecrypt g.key) 16
      (chainValue 16 g.iv g.cipher) p.cipherChunk := by
  rw [Trail.padded, Trail.cipher_push]
  exact cbcDecrypt_append (by decide) _ _ h

theorem wrote_takes {cipher : DecryptCipher} {out tail : Bytes} {ts : ℚ}
    (h : Decrypting env g name (SessionFrames.core w) written)
    (hd : Does (advanced p ts cipher out tail) w u) :
    Wrote g name (SessionFrames.core u) (written ++ out) := by
  rw [hd.core_eq]
  obtain ⟨inode, hfile, hentry, hcontent⟩ := h.file
  refine ⟨?_, ?_, h.tmp, h.path, inode, hfile, ?_, ?_⟩
  · rw [List.length_append, ← h.count]
    rfl
  · rw [crc32_append, ← h.crc]
    rfl
  · exact (congrFun (appended_entry _ _ _) _).trans hentry
  · change (appended (SessionFrames.core w).transfer.uploadTmpFile out
      (SessionFrames.core w).files).content inode = _
    rw [hfile, appended, ← hcontent]
    exact Function.update_self ..

/-- The cipher object after a chunk. -/
theorem chain_takes {cipher : DecryptCipher} {out tail : Bytes} {ts : ℚ}
    (h : Decrypting env g name (SessionFrames.core w) written)
    (hcipher : w.session.transfer.uploadDecryptCipher = some cipher)
    (hd : Does (advanced p ts cipher out tail) w u) :
    (SessionFrames.core u).transfer.uploadDecryptCipher =
      some { key := g.key, chain := chainValue 16 g.iv (g.push p).cipher } := by
  obtain rfl : cipher = { key := g.key, chain := chainValue 16 g.iv g.cipher } :=
    Option.some.inj (hcipher.symm.trans h.cipher)
  rw [hd.core_eq, Trail.cipher_push, chainValue_append (by decide) _ _ h.aligned]
  rfl

/-- The blocks a chunk adds, after the tail held back before it. -/
def fresh (env : Env) (g : Trail) (tail : Bytes) (p : Packet) : Bytes :=
  tail ++ cbcDecrypt (env.aesDecrypt g.key) 16 (chainValue 16 g.iv g.cipher) p.cipherChunk

theorem written_fresh (h : Decrypting env g name (SessionFrames.core w) written) :
    written ++ fresh env g w.session.transfer.uploadPlainTail p = (g.push p).padded env := by
  rw [padded_push h.aligned, ← h.split, fresh, List.append_assoc]
  rfl

theorem dvd_fresh (haes : AesBlocks env) (hg : g.Consistent)
    (h : Decrypting env g name (SessionFrames.core w) written) (hp : 16 ∣ p.cipherChunk.length) :
    16 ∣ (g.push p).cipher.length ∧
      16 ∣ (fresh env g w.session.transfer.uploadPlainTail p).length := by
  have hcipher : 16 ∣ (g.push p).cipher.length := by
    rw [Trail.cipher_push, List.length_append]
    exact Nat.dvd_add h.aligned hp
  refine ⟨hcipher, ?_⟩
  have hiv : (g.push p).iv.length = 16 := hg.length_iv
  have hlen : written.length + (fresh env g w.session.transfer.uploadPlainTail p).length =
      (g.push p).cipher.length := by
    rw [← List.length_append, written_fresh h, length_padded haes hiv hcipher]
  exact (Nat.dvd_add_right h.blocks).mp (hlen ▸ hcipher)

/-- A chunk before the last one. -/
theorem decrypting_takes (haes : AesBlocks env) (hg : g.Consistent)
    (h : Decrypting env g name (SessionFrames.core w) written)
    (hmore : p.packetNum ≠ p.totalPackets)
    (ht : Takes env p w u) :
    ∃ written', Decrypting env (g.push p) name (SessionFrames.core u) written' := by
  obtain ⟨ts, cipher, out, tail, htaken, hd⟩ := ht
  have hw := wrote_takes h hd
  have hchain := chain_takes h htaken.decrypts.cipher_eq hd
  obtain ⟨hcipher, -, hp, hsplit, -⟩ := htaken.decrypts
  obtain rfl : cipher = { key := g.key, chain := chainValue 16 g.iv g.cipher } :=
    Option.some.inj (hcipher.symm.trans h.cipher)
  -- all but the last sixteen bytes are written
  have hcut : holdBack (fresh env g w.session.transfer.uploadPlainTail p) = (out, tail) := by
    simpa [splitPlain, hmore, fresh] using hsplit
  obtain ⟨hout, htail⟩ := Prod.mk.inj hcut
  have happ : out ++ tail = fresh env g w.session.transfer.uploadPlainTail p := by
    rw [← hout, ← htail, List.take_append_drop]
  obtain ⟨hdc, hdf⟩ := dvd_fresh haes hg h hp
  refine ⟨written ++ out, ⟨hw.count, hw.crc, hw.tmp, hw.path, hw.file⟩, hchain, ?_, hdc, ?_⟩
  · have hkept : (SessionFrames.core u).transfer.uploadPlainTail = tail := by
      rw [hd.core_eq]
      rfl
    rw [hkept, List.append_assoc, happ, written_fresh h]
  · have hlen : out.length = (fresh env g w.session.transfer.uploadPlainTail p).length - 16 := by
      rw [← hout, List.length_take]
      omega
    rw [List.length_append, hlen]
    exact Nat.dvd_add h.blocks (Nat.dvd_sub hdf (by decide))

/-- The last chunk: all that is left is written, without the padding. -/
theorem decrypting_last (haes : AesBlocks env) (hg : g.Consistent)
    (h : Decrypting env g name (SessionFrames.core w) written)
    (hlast : p.packetNum = p.totalPackets)
    (ht : Takes env p w u) :
    ∃ x, unpad 16 ((g.push p).padded env) = some x ∧ Wrote g name (SessionFrames.core u) x := by
  obtain ⟨ts, cipher, out, tail, htaken, hd⟩ := ht
  have hw := wrote_takes h hd
  obtain ⟨hcipher, -, hp, hsplit, -⟩ := htaken.decrypts
  obtain rfl : cipher = { key := g.key, chain := chainValue 16 g.iv g.cipher } :=
    Option.some.inj (hcipher.symm.trans h.cipher)
  have hun : unpad 16 (fresh env g w.session.transfer.uploadPlainTail p) = some out := by
    have hmap : (unpad 16 (fresh env g w.session.transfer.uploadPlainTail p)).map (·, []) =
        some (out, tail) := by simpa [splitPlain, hlast, fresh] using hsplit
    obtain ⟨out', hout, hpair⟩ := Option.map_eq_some_iff.mp hmap
    rw [hout, (Prod.mk.inj hpair).1]
  have hlong : 16 ≤ (fresh env g w.session.transfer.uploadPlainTail p).length := by
    have hpos := (length_unpad hun).1
    have hdf := (dvd_fresh haes hg h hp).2
    exact Nat.le_of_dvd (by omega) hdf
  refine ⟨written ++ out, ?_, hw⟩
  rw [← written_fresh h, unpad_append (by decide) h.blocks hlong, hun]
  rfl

/-! ### The transfer along a trail -/

/-- The fields that a packet is checked against. -/
structure Tracking (g : Trail) (t : Transfer) : Prop where
  iv : t.transferIv.map Subtype.val = some g.iv
  key : t.uploadAesKey = some g.key
  client : t.uploadClientIdHex = some (hex g.clientId)
  expected : t.expectedPacketNum = some (g.taken.length + 1)
  total : t.expectedTotalPackets = some g.announced.totalPackets
  content : t.expectedContentSize = some g.announced.contentSize
  orig : t.expectedOrigFileSize = some g.announced.origFileSize
  received : t.receivedCipherBytes = g.cipher.length

/-- The plaintext of a complete trail, under its final name. -/
structure Complete (env : Env) (g : Trail) (path : String) (x : Bytes) (files : FileSystem) :
    Prop where
  plain : unpad 16 (g.padded env) = some x
  size : x.length = g.announced.origFileSize
  content : g.cipher.length = g.announced.contentSize
  all : g.taken.length = g.announced.totalPackets
  file : files.read path = some x

/-- The state of a session that follows a trail. -/
inductive Follows (env : Env) (g : Trail) (c : SessionFrames.Core) : Prop
  | announced (htrack : Tracking g c.transfer) (htaken : g.taken = [])
      (hactive : c.transfer.uploadActive = false) (hcrc : c.transfer.uploadCrc = none)
  | going (name : String) (written : Bytes) (htrack : Tracking g c.transfer)
      (hname : g.name = some name) (hactive : c.transfer.uploadActive = true)
      (hcrc : c.transfer.uploadCrc = none) (hdec : Decrypting env g name c written)
  | done (name : String) (x : Bytes) (htrack : Tracking g c.transfer) (hname : g.name = some name)
      (hactive : c.transfer.uploadActive = true) (hcrc : c.transfer.uploadCrc = some (crc32 x 0))
      (hpath : c.transfer.uploadPath = some (outPath (hex g.clientId) name))
      (hcomplete : Complete env g (outPath (hex g.clientId) name) x c.files)

theorem tracking_takes (h : Tracking g w.session.transfer) (ht : Takes env p w u) :
    p.packetNum = g.taken.length + 1 ∧ Tracking (g.push p) u.session.transfer := by
  obtain ⟨ts, cipher, out, tail, htaken, hd⟩ := ht
  have hnum := (checkOrder_ok htaken.order).1
  rw [h.expected] at hnum
  refine ⟨(Option.some.inj hnum).symm, ?_⟩
  have hc : u.session.transfer = (advanced p ts cipher out tail (SessionFrames.core w)).transfer :=
    congrArg Core.transfer hd.core_eq
  rw [hc]
  refine ⟨h.iv, h.key, h.client, ?_, h.total, h.content, h.orig, ?_⟩
  · change w.session.transfer.expectedPacketNum.map (· + 1) = _
    rw [h.expected]
    simp [Trail.push]
  · change w.session.transfer.receivedCipherBytes + p.cipherChunk.length = _
    rw [h.received, Trail.cipher_push, List.length_append]

theorem tmpPath_ne (idHex name connectionId : String) :
    tmpPath idHex name connectionId ≠ outPath idHex name := by
  intro h
  have hlen := congrArg (fun s : String => s.toList.length) h
  simp [tmpPath] at hlen

theorem rename_target {fs : FileSystem} {source target : String} (h : source ≠ target) :
    (fs.rename source target).entry target = fs.entry source := by
  change Function.update (Function.update fs.entry target (fs.entry source)) source none target = _
  rw [Function.update_of_ne h.symm, Function.update_self]

theorem read_rename {fs : FileSystem} {source target : String} (h : source ≠ target) :
    (fs.rename source target).read target = fs.read source := by
  rw [FileSystem.read, FileSystem.read, rename_target h]
  rfl

/-- An accepted packet extends the trail. -/
theorem follows_accepts {clientId version : Bytes} {w' : World} (haes : AesBlocks env)
    (hg : g.Consistent) (htrack : Tracking g w.session.transfer)
    (hactive : w.session.transfer.uploadActive = true) (hcrc : w.session.transfer.uploadCrc = none)
    (hdec : Decrypting env g name (SessionFrames.core w) written)
    (hname : (g.push p).name = some name)
    (htotal : p.totalPackets = g.announced.totalPackets)
    (horig : p.origFileSize = g.announced.origFileSize)
    (h : Accepts env clientId version p w w') : Follows env (g.push p) (SessionFrames.core w') := by
  rcases h with ⟨hmore, ht⟩ | ⟨hlast, x, ht, tmp, path, hs, hsaid⟩
  · obtain ⟨-, htrack'⟩ := tracking_takes htrack ht
    obtain ⟨written', hdec'⟩ := decrypting_takes haes hg hdec hmore ht
    obtain ⟨ts, cipher, out, tail, -, hd⟩ := ht
    refine .going name written' htrack' hname ?_ ?_ hdec'
    · rw [hd.core_eq]
      exact hactive
    · rw [hd.core_eq]
      exact hcrc
  · obtain ⟨hnum, htrack'⟩ := tracking_takes htrack ht
    obtain ⟨plain, hplain, hw⟩ := decrypting_last haes hg hdec hlast ht
    have hxa : x.session.transfer.uploadActive = true := by
      obtain ⟨ts, cipher, out, tail, -, hd⟩ := ht
      exact (congrArg (fun c => c.transfer.uploadActive) hd.core_eq).trans hactive
    have htmp : tmp = tmpPath (hex g.clientId) name x.session.connectionId :=
      Option.some.inj (hs.tmp.symm.trans hw.tmp)
    have hpath : path = outPath (hex g.clientId) name :=
      Option.some.inj (hs.path.symm.trans hw.path)
    subst htmp hpath
    obtain ⟨inode, -, hentry, hcontent⟩ := hw.file
    rw [hsaid.core_eq]
    refine .done name plain ⟨htrack'.iv, htrack'.key, htrack'.client, htrack'.expected,
      htrack'.total,
      htrack'.content, htrack'.orig, htrack'.received⟩ hname hxa ?_ hw.path ⟨hplain, ?_, ?_, ?_, ?_⟩
    · exact congrArg some hw.crc
    · have hsize : (SessionFrames.core x).transfer.uploadPlainBytesWritten = p.origFileSize :=
        hs.written
      rw [← hw.count, hsize, horig]
      rfl
    · have hreceived := hs.received
      rw [htrack'.received, htrack'.content] at hreceived
      exact Option.some.inj hreceived
    · have hlen : (g.push p).taken.length = g.taken.length + 1 := by simp [Trail.push]
      rw [hlen, ← hnum, hlast, htotal]
      rfl
    · have hread : (SessionFrames.core x).files.read
          (tmpPath (hex g.clientId) name x.session.connectionId) = some plain := by
        have he : (SessionFrames.core x).files.entry
            (tmpPath (hex g.clientId) name x.session.connectionId) = some inode := hentry
        rw [FileSystem.read, he, Option.map_some, hcontent]
      exact (read_rename (tmpPath_ne _ _ _)).trans hread

/-! ### One frame -/

/-- A frame leaves the transfer and the files. -/
structure Still (w w' : World) : Prop where
  transfer : w'.session.transfer = w.session.transfer
  files : (SessionFrames.core w').files = (SessionFrames.core w).files
  connectionId : w'.session.connectionId = w.session.connectionId

/-- A well-formed request 828 from a client. -/
structure Carries (frame : Bytes) (clientId : Bytes) (p : Packet) : Prop where
  formed : wellFormed frame = true
  code : (parseFrame frame).code = 828
  client : (parseFrame frame).clientId = clientId
  parses : parse828 (parseFrame frame).payload = .ok p

/-- What a frame does to a session that follows a trail. -/
inductive Follow (env : Env) (g : Trail) (frame : Bytes) (w w' : World) : Prop
  | reset (h : w'.session.transfer = {})
  | still (h : Still w w')
  | pushed (p : Packet) (hcarries : Carries frame g.clientId p)
      (hnum : p.packetNum = g.taken.length + 1) (hcons : (g.push p).Consistent)
      (hfollows : Follows env (g.push p) (SessionFrames.core w'))

/-- What a frame does to a session without a transfer. -/
inductive Begin (env : Env) (frame : Bytes) (w w' : World) : Prop
  | blank (h : w'.session.transfer = {})
  | announced (clientId key : Bytes) (p : Packet) (record : ClientRecord) (b64 : String)
      (hcarries : Carries frame clientId p)
      (hrecord : w.store.getClientById (hex clientId) = some record)
      (hb64 : record.aesKeyB64 = some b64) (hkey : b64decode false b64 = some key)
      (hcons : Trail.Consistent ⟨clientId, key, p, []⟩)
      (hfollows : Follows env ⟨clientId, key, p, []⟩ (SessionFrames.core w'))

variable {ctx : Ctx} {frame : Bytes} {w' : World}

theorem follows_still (h : Follows env g (SessionFrames.core w)) (hs : Still w w') :
    Follows env g (SessionFrames.core w') := by
  have ht : (SessionFrames.core w').transfer = (SessionFrames.core w).transfer := hs.transfer
  have hc : (SessionFrames.core w').connectionId = (SessionFrames.core w).connectionId :=
    hs.connectionId
  cases h with
  | announced htrack htaken hactive hcrc =>
      exact .announced (ht ▸ htrack) htaken (ht ▸ hactive) (ht ▸ hcrc)
  | going name written htrack hname hactive hcrc hdec =>
      refine .going name written (ht ▸ htrack) hname (ht ▸ hactive) (ht ▸ hcrc) ?_
      refine ⟨⟨ht ▸ hdec.count, ht ▸ hdec.crc, ?_, ht ▸ hdec.path, ?_⟩, ht ▸ hdec.cipher,
        ht ▸ hdec.split, hdec.aligned, hdec.blocks⟩
      · rw [ht, hc]
        exact hdec.tmp
      · rw [ht, hc, hs.files]
        exact hdec.file
  | done name x htrack hname hactive hcrc hpath hcomplete =>
      refine .done name x (ht ▸ htrack) hname (ht ▸ hactive) (ht ▸ hcrc) (ht ▸ hpath) ?_
      rw [hs.files]
      exact hcomplete

theorem Still.after {v : World} (h : Still u w')
    (hv : SessionFrames.core u = SessionFrames.core v) :
    Still v w' :=
  ⟨h.transfer.trans (congrArg Core.transfer hv), h.files.trans (congrArg Core.files hv),
    h.connectionId.trans (congrArg Core.connectionId hv)⟩

theorem Follow.after {v : World} (h : Follow env g frame u w')
    (hv : SessionFrames.core u = SessionFrames.core v) : Follow env g frame v w' := by
  cases h with
  | reset h => exact .reset h
  | still h => exact .still (h.after hv)
  | pushed p hcarries hnum hcons hfollows => exact .pushed p hcarries hnum hcons hfollows

theorem Begin.after {v : World} (h : Begin env frame u w') (hv : u.store = v.store) :
    Begin env frame v w' := by
  cases h with
  | blank h => exact .blank h
  | announced clientId key p record b64 hcarries hrecord hb64 hkey hcons hfollows =>
      exact .announced clientId key p record b64 hcarries (hv ▸ hrecord) hb64 hkey hcons hfollows

theorem still_core (h : SessionFrames.core w' = SessionFrames.core w) : Still w w' :=
  ⟨congrArg Core.transfer h, congrArg Core.files h, congrArg Core.connectionId h⟩

theorem still_account {env : Env} (h : AccountOnly env w w') : Still w w' :=
  ⟨h.transfer, h.files, h.connectionId⟩

theorem Follows.tracking {c : SessionFrames.Core} (h : Follows env g c) :
    Tracking g c.transfer := by
  cases h with
  | announced htrack => exact htrack
  | going name written htrack => exact htrack
  | done name x htrack => exact htrack

/-- Once a packet has been taken the upload is active. -/
theorem Follows.active {c : SessionFrames.Core} (h : Follows env g c) (hg : g.taken ≠ []) :
    c.transfer.uploadActive = true := by
  cases h with
  | announced htrack htaken => exact (hg htaken).elim
  | going name written htrack hname hactive => exact hactive
  | done name x htrack hname hactive => exact hactive

/-- The upload that packet 1 has just started. -/
theorem decrypting_started (env : Env) (h : Started g.clientId p w u)
    (htrack : Tracking g w.session.transfer)
    (htaken : g.taken = []) :
    Tracking g u.session.transfer ∧ u.session.transfer.uploadActive = true ∧
      u.session.transfer.uploadCrc = w.session.transfer.uploadCrc ∧
      Decrypting env g p.fileName (SessionFrames.core u) [] := by
  obtain ⟨ts, time, limiter, hd⟩ := h.does
  have hcipher : g.cipher = [] := by simp [Trail.cipher, htaken]
  have ht : u.session.transfer =
      (started g.clientId p ts time limiter (SessionFrames.core w)).transfer :=
    congrArg Core.transfer hd.core_eq
  refine ⟨?_, ?_, ?_, ?_⟩
  · rw [ht]
    exact ⟨htrack.iv, htrack.key, htrack.client, htrack.expected, htrack.total, htrack.content,
      htrack.orig, htrack.received⟩
  · rw [ht]
    rfl
  · rw [ht]
    rfl
  · rw [hd.core_eq]
    refine ⟨⟨rfl, rfl, rfl, rfl, _, rfl, ?_, ?_⟩, ?_, ?_, by simp [hcipher], by simp⟩
    · exact create_entry _ _
    · exact create_content _ _
    · have hkey : (SessionFrames.core w).transfer.uploadAesKey.getD [] = g.key := by
        rw [show (SessionFrames.core w).transfer.uploadAesKey = some g.key from htrack.key]
        rfl
      have hiv : ((SessionFrames.core w).transfer.transferIv.map Subtype.val).getD [] = g.iv := by
        have h : (SessionFrames.core w).transfer.transferIv.map Subtype.val = some g.iv := htrack.iv
        rw [h]
        rfl
      change some (DecryptCipher.mk ((SessionFrames.core w).transfer.uploadAesKey.getD [])
        (((SessionFrames.core w).transfer.transferIv.map Subtype.val).getD [])) = _
      rw [hkey, hiv, hcipher]
      rfl
    · rw [Trail.padded, hcipher]
      rfl

/-- A packet of an upload, from the state in which it is admitted. -/
theorem follow_admits {version : Bytes} (haes : AesBlocks ctx.env) (hg : g.Consistent)
    (h : Follows ctx.env g (SessionFrames.core w)) (hcarries : Carries frame g.clientId p)
    (hheader : validateHeader ctx.env.config p = none)
    (ha : Admits ctx g.clientId version p w w') : Follow ctx.env g frame w w' := by
  have htrack : Tracking g w.session.transfer := h.tracking
  obtain ⟨hzero, hle, -⟩ := validateHeader_none hheader
  -- an accepted packet has the sizes of the announcement
  have hpush {x : World} {name : String} {written : Bytes}
      (hcheck : checkChunk ctx.env.config w.session.transfer p = .ok ())
      (hx : Tracking g x.session.transfer) (hactive : x.session.transfer.uploadActive = true)
      (hcrc : x.session.transfer.uploadCrc = none)
      (hdec : Decrypting ctx.env g name (SessionFrames.core x) written)
      (hname : (g.push p).name = some name) (haccept : Accepts ctx.env g.clientId version p x w') :
      Follow ctx.env g frame w w' := by
    obtain ⟨-, htot, hcon, hor, -, -⟩ := checkChunk_ok hcheck
    have htotal : p.totalPackets = g.announced.totalPackets :=
      Option.some.inj (htot.symm.trans htrack.total)
    have hcontent : p.contentSize = g.announced.contentSize :=
      Option.some.inj (hcon.symm.trans htrack.content)
    have horig : p.origFileSize = g.announced.origFileSize :=
      Option.some.inj (hor.symm.trans htrack.orig)
    have hnum : p.packetNum = g.taken.length + 1 :=
      Option.some.inj ((accepts_expected haccept).symm.trans hx.expected)
    exact .pushed p hcarries hnum (hg.push hnum htotal hcontent horig)
      (follows_accepts haes hg hx hactive hcrc hdec hname htotal horig haccept)
  cases ha with
  | announced t hnum hiv hd =>
      -- a second vector is refused
      unfold acceptIv at hiv
      split_ifs at hiv with hbusy
      have hsome : w.session.transfer.transferIv.isSome := by
        have := htrack.iv
        rcases hv : w.session.transfer.transferIv with _ | v
        · rw [hv] at this
          cases this
        · rfl
      exact (hbusy (.inr hsome)).elim
  | declined r hnum hiv hplain href => exact .reset href.transfer
  | failed r hnum hfail href => exact .reset href.transfer
  | busy hnum hcheck hbusy => exact .reset hbusy.transfer
  | unrecorded hnum hcheck hdown => exact .reset hdown.transfer
  | restarted x r hnum hcheck hstart hfail href => exact .reset href.transfer
  | began x hnum hcheck hstart haccept =>
      obtain ⟨ts, time, limiter, hd⟩ := hstart.does
      have hexp : x.session.transfer.expectedPacketNum = w.session.transfer.expectedPacketNum :=
        congrArg (fun c => c.transfer.expectedPacketNum) hd.core_eq
      have htaken : g.taken = [] := by
        have := accepts_expected haccept
        rw [hexp, htrack.expected, hnum] at this
        exact List.eq_nil_of_length_eq_zero (by simpa using this)
      obtain ⟨hx, hactive, hcrc, hdec⟩ := decrypting_started ctx.env hstart htrack htaken
      have hnone : w.session.transfer.uploadCrc = none := by
        cases h with
        | announced _ _ _ hcrc => exact hcrc
        | going name written _ _ _ hcrc _ => exact hcrc
        | done name y _ hname _ _ _ _ =>
            rw [Trail.name, htaken] at hname
            cases hname
      exact hpush hcheck hx hactive (hcrc.trans hnone) hdec
        (by simp [Trail.name, Trail.push, htaken])
        haccept
  | taken hnum hcheck haccept =>
      have hexp := (accepts_expected haccept).symm.trans htrack.expected
      have hlen : p.packetNum = g.taken.length + 1 := Option.some.inj hexp
      have htaken : g.taken ≠ [] := by
        intro he
        rw [he] at hlen
        simp only [List.length_nil] at hlen
        omega
      cases h with
      | announced _ hnil _ _ => exact (htaken hnil).elim
      | going name written _ hname hactive hcrc hdec =>
          exact hpush hcheck htrack hactive hcrc hdec ((Trail.name_push htaken).trans hname) haccept
      | done name y _ hname hactive _ _ hcomplete =>
          -- the last packet has been taken
          have htot : p.totalPackets = g.announced.totalPackets :=
            Option.some.inj ((checkChunk_ok hcheck).2.1.symm.trans htrack.total)
          have hall := hcomplete.all
          omega

/-- The first packet of a transfer, from the state in which it is admitted. -/
theorem begin_admits {clientId key version : Bytes} {record : ClientRecord} {b64 : String}
    (ht : w.session.transfer =
      { uploadAesKey := some key, uploadUsername := some record.username,
        uploadClientIdHex := some (hex clientId) })
    (hcarries : Carries frame clientId p) {store : Store}
    (hrecord : store.getClientById (hex clientId) = some record)
    (hb64 : record.aesKeyB64 = some b64) (hkey : b64decode false b64 = some key)
    (ha : Admits ctx clientId version p w w') {w₀ : World} (hstore : w₀.store = store) :
    Begin ctx.env frame w₀ w' := by
  have hno (hcheck : checkChunk ctx.env.config w.session.transfer p = .ok ()) : False := by
    have := (checkChunk_ok hcheck).1
    rw [ht] at this
    cases this
  cases ha with
  | announced t hnum hiv hd =>
      unfold acceptIv at hiv
      split_ifs at hiv with hbusy hshort
      cases hiv
      refine .announced clientId key p record b64 hcarries (hstore ▸ hrecord) hb64 hkey
        ⟨hnum, Nat.le_of_not_lt hshort, rfl, by simp, by simp, by simp⟩ ?_
      rw [hd.core_eq]
      refine .announced ⟨rfl, ?_, ?_, rfl, rfl, rfl, rfl, rfl⟩ rfl ?_ ?_
      · exact congrArg Transfer.uploadAesKey ht
      · exact congrArg Transfer.uploadClientIdHex ht
      · exact congrArg Transfer.uploadActive ht
      · exact congrArg Transfer.uploadCrc ht
  | declined r hnum hiv hplain href => exact .blank href.transfer
  | failed r hnum hfail href => exact .blank href.transfer
  | busy hnum hcheck hbusy => exact (hno hcheck).elim
  | unrecorded hnum hcheck hdown => exact (hno hcheck).elim
  | began x hnum hcheck hstart haccept => exact (hno hcheck).elim
  | restarted x r hnum hcheck hstart hfail href => exact (hno hcheck).elim
  | taken hnum hcheck haccept => exact (hno hcheck).elim

end

end Seftp.UploadTrail
