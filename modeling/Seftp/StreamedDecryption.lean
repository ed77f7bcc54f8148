import Seftp.UploadSoundness

/-!
# Decryption in pieces

`_process_streaming_cipher_chunk` called on the chunks of a ciphertext one after the
other. The file and the tail are always the decryption of what has arrived, and the
tail is its last block; so the padding found with the last chunk is that of the whole
plaintext, wherever the ciphertext was cut.
-/
namespace Seftp.StreamedDecryption
open LittleEndian ExceptState OutsideWorld BlockChaining Checksum Text ServerSession SessionFrames
open UploadHandlers HandlerFrames UploadSteps ChunkSteps UploadTrail UploadSlot StoredFiles
open UploadSoundness

/-- The chunks before the last one. -/
def processEarlier (ctx : Ctx) : List Bytes → Server Unit
  | [] => pure ()
  | c :: cs => do
      processStreamingCipherChunk ctx c false
      processEarlier ctx cs

/-- All chunks, `is_last` with the last one only. -/
def processChunks (ctx : Ctx) (earlier : List Bytes) (last : Bytes) : Server Unit := do
  processEarlier ctx earlier
  processStreamingCipherChunk ctx last true

/-- The chunk is one or more whole blocks. -/
def WholeBlocks (c : Bytes) : Prop := c ≠ [] ∧ 16 ∣ c.length

/-- The file has been opened and nothing has been decrypted. -/
structure Opened (key iv : Bytes) (inode : ℕ) (w : World) : Prop where
  cipher : w.session.transfer.uploadDecryptCipher = some { key, chain := iv }
  tail : w.session.transfer.uploadPlainTail = []
  count : w.session.transfer.uploadPlainBytesWritten = 0
  crc : w.session.transfer.uploadCrc32State = 0
  file : w.session.transfer.uploadTmpFile = some inode
  empty : w.files.content inode = []

/-- What has been written to the file, with its length and checksum. -/
structure Holding (inode : ℕ) (written : Bytes) (w : World) : Prop where
  file : w.session.transfer.uploadTmpFile = some inode
  content : w.files.content inode = written
  count : w.session.transfer.uploadPlainBytesWritten = written.length
  crc : w.session.transfer.uploadCrc32State = crc32 written 0

/-- The last block of a plaintext, or all of it when it is shorter. -/
def lastBlock (plain : Bytes) : Bytes := plain.drop (plain.length - 16)

/-- The ciphertext `done` has been decrypted: all but the last block is in the file. -/
structure Resumable (env : Env) (key iv : Bytes) (inode : ℕ) (done written : Bytes) (w : World) :
    Prop extends Holding inode written w where
  cipher : w.session.transfer.uploadDecryptCipher = some { key, chain := chainValue 16 iv done }
  split : written ++ w.session.transfer.uploadPlainTail = cbcDecrypt (env.aesDecrypt key) 16 iv done
  tail : w.session.transfer.uploadPlainTail = lastBlock (cbcDecrypt (env.aesDecrypt key) 16 iv done)
  aligned : 16 ∣ done.length
  blocks : 16 ∣ written.length

section
variable {ctx : Ctx} {env : Env} {key iv done written c : Bytes} {inode : ℕ} {w u : World}

theorem resumable_opened (h : Opened key iv inode w) : Resumable env key iv inode [] [] w := by
  refine ⟨⟨h.file, h.empty, h.count, h.crc⟩, h.cipher, ?_, ?_, Nat.dvd_zero _, Nat.dvd_zero _⟩
  · rw [h.tail]
    rfl
  · rw [h.tail]
    rfl

theorem holding_streamed {cipher : DecryptCipher} {out tail : Bytes} (h : Holding inode written w)
    (hd : Does (streamed cipher c out tail) w u) : Holding inode (written ++ out) u := by
  have hfile : (SessionFrames.core w).transfer.uploadTmpFile = some inode := h.file
  refine ⟨?_, ?_, ?_, ?_⟩
  · exact (congrArg (fun k => k.transfer.uploadTmpFile) hd.core_eq).trans h.file
  · have hcontent : (SessionFrames.core u).files.content inode = written ++ out := by
      rw [hd.core_eq, streamed, hfile, ← h.content]
      exact Function.update_self ..
    exact hcontent
  · refine (congrArg (fun k => k.transfer.uploadPlainBytesWritten) hd.core_eq).trans ?_
    rw [List.length_append, ← h.count]
    rfl
  · refine (congrArg (fun k => k.transfer.uploadCrc32State) hd.core_eq).trans ?_
    rw [crc32_append, ← h.crc]
    rfl

/-- The plaintext that a chunk adds, after the tail. -/
def combined (env : Env) (key iv done : Bytes) (w : World) (c : Bytes) : Bytes :=
  w.session.transfer.uploadPlainTail ++
    cbcDecrypt (env.aesDecrypt key) 16 (chainValue 16 iv done) c

theorem written_combined (h : Resumable env key iv inode done written w) :
    written ++ combined env key iv done w c = cbcDecrypt (env.aesDecrypt key) 16 iv
      (done ++ c) := by
  rw [cbcDecrypt_append (by decide) _ _ h.aligned, ← h.split, combined, List.append_assoc]

theorem combined_blocks (haes : AesBlocks env) (hiv : iv.length = 16)
    (h : Resumable env key iv inode done written w) (hc : WholeBlocks c) :
    16 ∣ (combined env key iv done w c).length ∧ 16 ≤ (combined env key iv done w c).length := by
  have hpos := List.length_pos_iff.mpr hc.1
  have hlen : (cbcDecrypt (env.aesDecrypt key) 16 (chainValue 16 iv done) c).length = c.length :=
    length_cbcDecrypt (haes key) (length_chainValue _ hiv) hc.2
  have hdvd : 16 ∣ (combined env key iv done w c).length := by
    have hwhole : 16 ∣ (done ++ c).length := by
      rw [List.length_append]
      exact Nat.dvd_add h.aligned hc.2
    have hsum : written.length + (combined env key iv done w c).length = (done ++ c).length := by
      rw [← List.length_append, written_combined h, length_cbcDecrypt (haes key) hiv hwhole]
    exact (Nat.dvd_add_right h.blocks).mp (hsum ▸ hwhole)
  refine ⟨hdvd, Nat.le_of_dvd ?_ hdvd⟩
  rw [combined, List.length_append, hlen]
  omega

theorem lastBlock_append (a : Bytes) {b : Bytes} (hb : 16 ≤ b.length) :
    lastBlock (a ++ b) = lastBlock b := by
  rw [lastBlock, List.length_append, Nat.add_sub_assoc hb, ← List.drop_drop, List.drop_left]
  rfl

/-- A chunk before the last one. -/
theorem wp_resume (haes : AesBlocks ctx.env) (hfiles : ctx.out.FilesWork) (hiv : iv.length = 16)
    (h : Resumable ctx.env key iv inode done written w) (hc : WholeBlocks c) :
    wp (processStreamingCipherChunk ctx c false)
      (fun _ u => ∃ written', Resumable ctx.env key iv inode (done ++ c) written' u)
      (fun _ _ => False) w := by
  obtain ⟨hdvd, hlong⟩ := combined_blocks haes hiv h hc
  have hopen : OpenFile w.session.transfer :=
    ⟨Option.isSome_of_eq_some h.cipher, Option.isSome_of_eq_some h.file⟩
  apply wp_mono (wp_processStreamingCipherChunk c false)
  · rintro _ u ⟨cipher, out, tail, hdec, hd⟩
    obtain rfl : cipher = { key, chain := chainValue 16 iv done } :=
      Option.some.inj (hdec.cipher_eq.symm.trans h.cipher)
    have hcut : holdBack (combined ctx.env key iv done w c) = (out, tail) :=
      Option.some.inj hdec.split
    obtain ⟨hout, htail⟩ := Prod.mk.inj hcut
    have hkept : u.session.transfer.uploadPlainTail = tail :=
      congrArg (fun k => k.transfer.uploadPlainTail) hd.core_eq
    have hlen : out.length = (combined ctx.env key iv done w c).length - 16 := by
      rw [← hout, List.length_take]
      omega
    refine ⟨written ++ out, holding_streamed h.toHolding hd, ?_, ?_, ?_, ?_, ?_⟩
    · refine (congrArg (fun k => k.transfer.uploadDecryptCipher) hd.core_eq).trans ?_
      rw [chainValue_append (by decide) _ _ h.aligned]
      rfl
    · rw [hkept, ← written_combined h, List.append_assoc, ← hout, ← htail, List.take_append_drop]
    · rw [hkept, ← written_combined h, lastBlock_append _ hlong, ← htail]
      rfl
    · rw [List.length_append]
      exact Nat.dvd_add h.aligned hc.2
    · rw [List.length_append, hlen]
      exact Nat.dvd_add h.blocks (Nat.dvd_sub hdvd (by decide))
  · rintro e u ⟨-, ⟨-, hno⟩ | ⟨-, hno⟩⟩
    · exact hno ⟨_, _, _, h.cipher, hc.1, hc.2, rfl, fun _ => hopen.file⟩
    · exact hno ⟨hfiles, hopen⟩

/-- The last chunk raises for bad padding of the whole plaintext and for nothing else. -/
theorem wp_last (haes : AesBlocks ctx.env) (hfiles : ctx.out.FilesWork) (hiv : iv.length = 16)
    (h : Resumable ctx.env key iv inode done written w) (hc : WholeBlocks c) :
    wp (processStreamingCipherChunk ctx c true)
      (fun _ u => ∃ plain, unpad 16 (cbcDecrypt (ctx.env.aesDecrypt key) 16 iv (done ++ c)) =
        some plain ∧ Holding inode plain u ∧ u.session.transfer.uploadPlainTail = [])
      (fun e _ => (∃ text, e = .value text) ∧
        unpad 16 (cbcDecrypt (ctx.env.aesDecrypt key) 16 iv (done ++ c)) = none) w := by
  obtain ⟨-, hlong⟩ := combined_blocks haes hiv h hc
  have hopen : OpenFile w.session.transfer :=
    ⟨Option.isSome_of_eq_some h.cipher, Option.isSome_of_eq_some h.file⟩
  -- the padding of the whole is that of the part not yet written
  have hunpad : unpad 16 (cbcDecrypt (ctx.env.aesDecrypt key) 16 iv (done ++ c)) =
      (unpad 16 (combined ctx.env key iv done w c)).map (written ++ ·) := by
    rw [← written_combined h]
    exact unpad_append (by decide) h.blocks hlong
  apply wp_mono (wp_processStreamingCipherChunk c true)
  · rintro _ u ⟨cipher, out, tail, hdec, hd⟩
    obtain rfl : cipher = { key, chain := chainValue 16 iv done } :=
      Option.some.inj (hdec.cipher_eq.symm.trans h.cipher)
    have hmap : (unpad 16 (combined ctx.env key iv done w c)).map (·, []) = some (out, tail) :=
      hdec.split
    obtain ⟨plain, hplain, hpair⟩ := Option.map_eq_some_iff.mp hmap
    obtain ⟨rfl, rfl⟩ := Prod.mk.inj hpair
    refine ⟨written ++ plain, ?_, holding_streamed h.toHolding hd, ?_⟩
    · rw [hunpad, hplain]
      rfl
    · exact congrArg (fun k => k.transfer.uploadPlainTail) hd.core_eq
  · rintro e u ⟨-, ⟨hvalue, hno⟩ | ⟨-, hno⟩⟩
    · refine ⟨hvalue, ?_⟩
      rw [hunpad]
      rcases hplain : unpad 16 (combined ctx.env key iv done w c) with _ | plain
      · rfl
      · refine (hno ⟨_, plain, [], h.cipher, hc.1, hc.2, ?_, fun _ => hopen.file⟩).elim
        exact congrArg (Option.map (·, [])) hplain
    · exact (hno ⟨hfiles, hopen⟩).elim

/-- All chunks before the last one. -/
theorem wp_processEarlier (haes : AesBlocks ctx.env) (hfiles : ctx.out.FilesWork)
    (hiv : iv.length = 16) (cs : List Bytes) (hcs : ∀ c ∈ cs, WholeBlocks c)
    (h : Resumable ctx.env key iv inode done written w) :
    wp (processEarlier ctx cs)
      (fun _ u => ∃ written', Resumable ctx.env key iv inode (done ++ cs.flatten) written' u)
      (fun _ _ => False) w := by
  induction cs generalizing done written w with
  | nil =>
      rw [processEarlier, wp_pure]
      exact ⟨written, by rwa [List.flatten_nil, List.append_nil]⟩
  | cons c cs ih =>
      rw [processEarlier]
      apply wp_then (wp_resume haes hfiles hiv h (hcs c (by simp)))
      rintro _ u ⟨written', hu⟩
      have hrest := ih (fun d hd => hcs d (List.mem_cons_of_mem _ hd)) hu
      rwa [List.append_assoc, ← List.flatten_cons] at hrest

theorem wp_processChunks (haes : AesBlocks ctx.env) (hfiles : ctx.out.FilesWork)
    (hiv : iv.length = 16) {earlier : List Bytes} {last : Bytes}
    (hcs : ∀ c ∈ earlier, WholeBlocks c) (hlast : WholeBlocks last) (h : Opened key iv inode w) :
    wp (processChunks ctx earlier last)
      (fun _ u => ∃ plain, unpad 16 (cbcDecrypt (ctx.env.aesDecrypt key) 16 iv
        (earlier.flatten ++ last)) = some plain ∧ Holding inode plain u ∧
        u.session.transfer.uploadPlainTail = [])
      (fun e _ => (∃ text, e = .value text) ∧ unpad 16 (cbcDecrypt (ctx.env.aesDecrypt key) 16 iv
        (earlier.flatten ++ last)) = none) w := by
  rw [processChunks]
  apply wp_then (wp_processEarlier haes hfiles hiv earlier hcs (resumable_opened h))
  rintro _ u ⟨written, hu⟩
  exact wp_last haes hfiles hiv hu hlast

end

/-- Streaming decryption is one-shot decryption: with bad padding it raises, otherwise
the file is the plaintext; in between, the file and the tail are what has been
decrypted. -/
theorem streamed_eq_one_shot (ctx : Ctx) (hfiles : ctx.out.FilesWork) (haes : AesBlocks ctx.env)
    (key iv : Bytes) (hiv : iv.length = 16) (earlier : List Bytes) (last : Bytes)
    (hcs : ∀ c ∈ earlier, WholeBlocks c) (hlast : WholeBlocks last) (inode : ℕ) (w : World)
    (hopen : Opened key iv inode w) :
    ((∃ text u, processChunks ctx earlier last w = (.error (.value text), u)) ↔
      unpad 16 (cbcDecrypt (ctx.env.aesDecrypt key) 16 iv (earlier.flatten ++ last)) = none) ∧
    (∀ plain, unpad 16 (cbcDecrypt (ctx.env.aesDecrypt key) 16 iv (earlier.flatten ++ last)) =
        some plain →
      ∃ u, processChunks ctx earlier last w = (.ok (), u) ∧ u.files.content inode = plain ∧
        u.session.transfer.uploadPlainBytesWritten = plain.length ∧
        u.session.transfer.uploadCrc32State = crc32 plain 0 ∧
        u.session.transfer.uploadPlainTail = []) ∧
    ∀ cs rest, earlier = cs ++ rest →
      ∃ u, processEarlier ctx cs w = (.ok (), u) ∧
        u.files.content inode ++ u.session.transfer.uploadPlainTail =
          cbcDecrypt (ctx.env.aesDecrypt key) 16 iv cs.flatten ∧
        u.session.transfer.uploadPlainTail =
          lastBlock (cbcDecrypt (ctx.env.aesDecrypt key) 16 iv cs.flatten) := by
  have hrun := wp_processChunks haes hfiles hiv hcs hlast hopen
  refine ⟨?_, ?_, ?_⟩
  · rcases hx : processChunks ctx earlier last w with ⟨e | a, u⟩
    · rw [wp_of_eq_error hx] at hrun
      obtain ⟨⟨text, rfl⟩, hbad⟩ := hrun
      exact iff_of_true ⟨text, u, rfl⟩ hbad
    · rw [wp_of_eq_ok hx] at hrun
      obtain ⟨plain, hplain, -, -⟩ := hrun
      refine iff_of_false ?_ (by simp [hplain])
      rintro ⟨text, v, hv⟩
      cases hv
  · intro plain hplain
    rcases hx : processChunks ctx earlier last w with ⟨e | a, u⟩
    · rw [wp_of_eq_error hx] at hrun
      cases hrun.2.symm.trans hplain
    · rw [wp_of_eq_ok hx] at hrun
      obtain ⟨plain', hplain', hholds, htail⟩ := hrun
      obtain rfl : plain' = plain := Option.some.inj (hplain'.symm.trans hplain)
      exact ⟨u, rfl, hholds.content, hholds.count, hholds.crc, htail⟩
  · rintro cs rest rfl
    have hsome := wp_processEarlier haes hfiles hiv cs
      (fun c hc => hcs c (List.mem_append_left _ hc)) (resumable_opened hopen)
    rcases hx : processEarlier ctx cs w with ⟨e | a, u⟩
    · rw [wp_of_eq_error hx] at hsome
      exact hsome.elim
    · rw [wp_of_eq_ok hx] at hsome
      obtain ⟨written, hu⟩ := hsome
      refine ⟨u, rfl, ?_, hu.tail⟩
      rw [hu.content]
      exact hu.split

/-- A session whose temporary file has just been opened. -/
def openedWorld : World :=
  { aliceWorld with
    session := { aliceWorld.session with
      transfer := {
        uploadDecryptCipher := some { key := List.replicate 32 0, chain := List.replicate 16 9 }
        uploadTmpFile := some 0 } } }

theorem streamed_eq_one_shot_alice : ∃ u,
    processChunks ⟨plainEnv, calm⟩ [firstChunk] lastChunk openedWorld = (.ok (), u) ∧
      u.files.content 0 = utf8Encode "a file of 17 byte" ∧
      u.session.transfer.uploadPlainTail = [] := by
  have hblocks : WholeBlocks firstChunk ∧ WholeBlocks lastChunk :=
    ⟨⟨by decide, by decide⟩, ⟨by decide, by decide⟩⟩
  have hcs : ∀ c ∈ [firstChunk], WholeBlocks c := by
    intro c hc
    rw [List.mem_singleton.mp hc]
    exact hblocks.1
  have h := streamed_eq_one_shot ⟨plainEnv, calm⟩ (fun _ => rfl) plainEnv_blocks
    (List.replicate 32 0) (List.replicate 16 9) rfl
    [firstChunk] lastChunk hcs hblocks.2 0 openedWorld
    ⟨rfl, rfl, rfl, rfl, rfl, rfl⟩
  obtain ⟨u, hrun, hcontent, -, -, htail⟩ :=
    h.2.1 (utf8Encode "a file of 17 byte") (by decide +kernel)
  exact ⟨u, hrun, hcontent, htail⟩

end Seftp.StreamedDecryption
