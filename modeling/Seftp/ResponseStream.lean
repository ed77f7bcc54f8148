import Seftp.PartialReads
import Seftp.PayloadCodecs
import Seftp.ClientProgram

/-!
# Response frames over a socket

`net.hpp`. A frame is read in two loops over `read_some`, first the header of seven
bytes and then the payload it announces. `read_some` may return any part of what it
was asked for. What the reader returns depends on the stream only, not on the pieces
in which it arrives, and the client program's reader is that function of the bytes
that have come in.
-/
namespace Seftp.ResponseStream
open LittleEndian ExceptState OutsideWorld Protocol Answers PartialReads PayloadCodecs
open ClientProgram (kMaxPayload awaited ClientEnv ClientWorld)

section
variable {τ : Type}

def readExact (readSome : Source UInt8 τ) (n : ℕ) : Prog τ String Bytes :=
  collect readSome "EOF while reading frame" n

/-- An empty payload is not read. -/
def readPayload (readSome : Source UInt8 τ) (payloadSize : ℕ) : Prog τ String Bytes :=
  if 0 < payloadSize then readExact readSome payloadSize else pure []

def readResponseFrameFrom (readSome : Source UInt8 τ) : Prog τ String ResponseFrame := do
  let hdr ← readExact readSome 7
  if kMaxPayload < readLe 4 3 hdr then raise "payload_size exceeds max"
  else do
    let payload ← readPayload readSome (readLe 4 3 hdr)
    pure { version := hdr.headD 0, code := readLe 2 1 hdr, payload }

/-- That many calls, one after another. -/
def readFrames (readSome : Source UInt8 τ) : ℕ → Prog τ String (List ResponseFrame)
  | 0 => pure []
  | n + 1 => do
      let frame ← readResponseFrameFrom readSome
      let later ← readFrames readSome n
      pure (frame :: later)
end

/-! ### The stream decides -/

/-- The first frame of a stream and what follows it. -/
def cutResponse (stream : Bytes) : Except String ResponseFrame × Bytes :=
  if stream.length < 7 then (.error "EOF while reading frame", [])
  else if kMaxPayload < readLe 4 3 (stream.take 7) then
    (.error "payload_size exceeds max", stream.drop 7)
  else if (stream.drop 7).length < readLe 4 3 (stream.take 7) then
    (.error "EOF while reading frame", [])
  else
    (.ok
      { version := (stream.take 7).headD 0
        code := readLe 2 1 (stream.take 7)
        payload := (stream.drop 7).take (readLe 4 3 (stream.take 7)) },
      (stream.drop 7).drop (readLe 4 3 (stream.take 7)))

section
variable {τ : Type} {readSome : Source UInt8 τ} {t : τ}

theorem readExact_ok {n : ℕ} (h : n ≤ (readSome.rest t).length) :
    ∃ u, readExact readSome n t = (.ok ((readSome.rest t).take n), u) ∧
      readSome.rest u = (readSome.rest t).drop n := collect_ok h

theorem readExact_short {n : ℕ} (h : (readSome.rest t).length < n) :
    ∃ u, readExact readSome n t = (.error "EOF while reading frame", u) ∧
      readSome.rest u = [] := collect_short h

theorem readPayload_ok {n : ℕ} (h : n ≤ (readSome.rest t).length) :
    ∃ u, readPayload readSome n t = (.ok ((readSome.rest t).take n), u) ∧
      readSome.rest u = (readSome.rest t).drop n := by
  unfold readPayload
  by_cases hn : 0 < n
  · rw [if_pos hn]
    exact readExact_ok h
  · rw [if_neg hn, Nat.eq_zero_of_not_pos hn]
    exact ⟨t, rfl, rfl⟩

theorem readPayload_short {n : ℕ} (h : (readSome.rest t).length < n) :
    ∃ u, readPayload readSome n t = (.error "EOF while reading frame", u) ∧
      readSome.rest u = [] := by
  rw [readPayload, if_pos (by omega)]
  exact readExact_short h

theorem readResponseFrameFrom_eq (readSome : Source UInt8 τ) (t : τ) :
    ∃ u, readResponseFrameFrom readSome t = ((cutResponse (readSome.rest t)).1, u) ∧
      readSome.rest u = (cutResponse (readSome.rest t)).2 := by
  unfold cutResponse
  by_cases hlen : (readSome.rest t).length < 7
  · obtain ⟨u, hu, hrest⟩ := readExact_short hlen
    rw [if_pos hlen]
    exact ⟨u, bind_error hu, hrest⟩
  obtain ⟨u, hu, hrest⟩ := readExact_ok (Nat.not_lt.mp hlen)
  rw [if_neg hlen, readResponseFrameFrom, bind_ok hu, ← hrest]
  by_cases hmax : kMaxPayload < readLe 4 3 ((readSome.rest t).take 7)
  · rw [if_pos hmax, if_pos hmax]
    exact ⟨u, rfl, rfl⟩
  rw [if_neg hmax, if_neg hmax]
  by_cases hsize : (readSome.rest u).length < readLe 4 3 ((readSome.rest t).take 7)
  · obtain ⟨v, hv, hend⟩ := readPayload_short hsize
    rw [if_pos hsize]
    exact ⟨v, bind_error hv, hend⟩
  · obtain ⟨v, hv, hend⟩ := readPayload_ok (Nat.not_lt.mp hsize)
    rw [if_neg hsize]
    exact ⟨v, bind_ok hv, hend⟩

theorem client_readExact {σ : Type} (n : ℕ) (w : ClientWorld σ) :
    ClientProgram.readExact n w =
      (if w.incoming.length < n then .error "EOF while reading frame" else .ok (w.incoming.take n),
        { w with incoming := w.incoming.drop n }) := by
  by_cases h : w.incoming.length < n
  · simp [ClientProgram.readExact, bind_apply, fetch, update, h, raise]
  · simp [ClientProgram.readExact, bind_apply, fetch, update, h, pure_apply]

/-- The client program's reader gives what the socket's loop gives on the bytes that
have come in, however they are cut. -/
theorem readResponseFrame_from {σ : Type} (env : ClientEnv σ) (w : ClientWorld σ)
    (h : readSome.rest t = (awaited env w).incoming) :
    (ClientProgram.readResponseFrame env w).1 = (readResponseFrameFrom readSome t).1 ∧
      (ClientProgram.readResponseFrame env w).2.incoming =
        readSome.rest (readResponseFrameFrom readSome t).2 := by
  obtain ⟨u, hu, hrest⟩ := readResponseFrameFrom_eq readSome t
  rw [hu, hrest, h]
  generalize hw : awaited env w = x
  have hstart : ClientProgram.readResponseFrame env w = (ClientProgram.readExact 7 >>= fun hdr =>
      if kMaxPayload < readLe 4 3 hdr then raise "payload_size exceeds max"
      else ClientProgram.readExact (readLe 4 3 hdr) >>= fun payload =>
        ClientProgram.note (.read { version := hdr.headD 0, code := readLe 2 1 hdr, payload }) >>=
          fun _ => pure { version := hdr.headD 0, code := readLe 2 1 hdr, payload }) x := by
    rw [← hw]
    rfl
  rw [hstart]
  unfold cutResponse
  by_cases hlen : x.incoming.length < 7
  · have hhdr := client_readExact 7 x
    rw [if_pos hlen] at hhdr
    rw [if_pos hlen, bind_error hhdr]
    exact ⟨rfl, List.drop_of_length_le (by omega)⟩
  have hhdr := client_readExact 7 x
  rw [if_neg hlen] at hhdr
  rw [if_neg hlen, bind_ok hhdr]
  by_cases hmax : kMaxPayload < readLe 4 3 (x.incoming.take 7)
  · rw [if_pos hmax, if_pos hmax]
    exact ⟨rfl, rfl⟩
  rw [if_neg hmax, if_neg hmax]
  have hbody := client_readExact (readLe 4 3 (x.incoming.take 7))
    { x with incoming := x.incoming.drop 7 }
  by_cases hsize : (x.incoming.drop 7).length < readLe 4 3 (x.incoming.take 7)
  · rw [if_pos hsize] at hbody
    rw [if_pos hsize, bind_error hbody]
    exact ⟨rfl, List.drop_of_length_le hsize.le⟩
  · rw [if_neg hsize] at hbody
    rw [if_neg hsize, bind_ok hbody]
    exact ⟨rfl, rfl⟩
end

/-! ### What the server sends -/

/-- `message_answer` for any code; the handlers call it with the nine of the
enumeration. -/
def messageAnswerOf (version : Bytes) (codeNum payloadSize : ℕ) (payload : Bytes) :
    Except PyError Bytes :=
  if version.length ≠ 1 then .error (.value "version must be exactly 1 byte")
  else if payloadSize ≠ payload.length then .error (.value "payload_size mismatch")
  else do
    let code ← toBytes 2 codeNum
    let size ← toBytes 4 payloadSize
    .ok (version ++ code ++ size ++ payload)

/-- A response whose code fits two bytes and whose payload the client accepts. -/
structure Response where
  frame : ResponseFrame
  code_lt : frame.code < 2 ^ 16
  payload_le : frame.payload.length ≤ 128 * 1024

namespace Response

def encoded (r : Response) : Bytes :=
  [r.frame.version] ++ leBytes 2 r.frame.code ++ leBytes 4 r.frame.payload.length ++ r.frame.payload

theorem messageAnswerOf_encoded (r : Response) :
    messageAnswerOf [r.frame.version] r.frame.code r.frame.payload.length r.frame.payload =
      .ok r.encoded := by
  have hcode : r.frame.code < 256 ^ 2 := r.code_lt
  have hsize : r.frame.payload.length < 256 ^ 4 := by
    have := r.payload_le
    omega
  rw [messageAnswerOf, if_neg (by simp), if_neg (by simp), toBytes, if_pos hcode, toBytes,
    if_pos hsize]
  rfl

theorem length_encoded (r : Response) : r.encoded.length = 7 + r.frame.payload.length := by
  simp only [encoded, List.length_append, List.length_singleton, length_leBytes]

/-- The header stands in the first seven bytes of every stream that begins with the
frame, also of one that ends inside its payload. -/
theorem header_encoded (r : Response) {stream : Bytes} (h : stream.take 7 = r.encoded.take 7) :
    (stream.take 7).headD 0 = r.frame.version ∧ readLe 2 1 (stream.take 7) = r.frame.code ∧
      readLe 4 3 (stream.take 7) = r.frame.payload.length := by
  have hhdr : r.encoded.take 7 =
      [r.frame.version] ++ leBytes 2 r.frame.code ++ leBytes 4 r.frame.payload.length :=
    List.take_left' (by simp only [List.length_append, List.length_singleton, length_leBytes])
  have hcode : r.frame.code < 256 ^ 2 := r.code_lt
  have hsize : r.frame.payload.length < 256 ^ 4 := by
    have := r.payload_le
    omega
  rw [h, hhdr]
  refine ⟨rfl, ?_, ?_⟩
  · have hf : (([r.frame.version] ++ leBytes 2 r.frame.code ++
        leBytes 4 r.frame.payload.length).drop 1).take 2 = leBytes 2 r.frame.code :=
      field_append rfl (length_leBytes 2 _)
    rw [readLe, hf, leNat_leBytes_of_lt hcode]
  · have hf : (([r.frame.version] ++ leBytes 2 r.frame.code ++
        leBytes 4 r.frame.payload.length).drop 3).take 4 = leBytes 4 r.frame.payload.length := by
      rw [List.drop_left' (by rw [List.length_append, length_leBytes, List.length_singleton]),
        List.take_of_length_le (by rw [length_leBytes])]
    rw [readLe, hf, leNat_leBytes_of_lt hsize]

theorem cut_encoded (r : Response) (later : Bytes) :
    cutResponse (r.encoded ++ later) = (.ok r.frame, later) := by
  have hlen := r.length_encoded
  have htake : (r.encoded ++ later).take 7 = r.encoded.take 7 :=
    List.take_append_of_le_length (by omega)
  obtain ⟨hversion, hcode, hsize⟩ := r.header_encoded htake
  have hdrop : (r.encoded ++ later).drop 7 = r.frame.payload ++ later := by
    rw [encoded, List.append_assoc]
    exact List.drop_left' (by simp only [List.length_append, List.length_singleton, length_leBytes])
  have hmax := r.payload_le
  rw [cutResponse, hversion, hcode, hsize, hdrop, if_neg (by rw [List.length_append]; omega),
    if_neg (by rw [kMaxPayload]; omega), if_neg (by rw [List.length_append]; omega),
    List.take_left' rfl, List.drop_left' rfl]

theorem cut_inside (r : Response) {n : ℕ} (hn : n < r.encoded.length) :
    cutResponse (r.encoded.take n) = (.error "EOF while reading frame", []) := by
  have hlen := r.length_encoded
  have hcut : (r.encoded.take n).length = n := by
    rw [List.length_take]
    omega
  unfold cutResponse
  by_cases hshort : n < 7
  · rw [if_pos (by omega)]
  have htake : (r.encoded.take n).take 7 = r.encoded.take 7 := by
    rw [List.take_take, Nat.min_eq_left (by omega)]
  obtain ⟨-, -, hsize⟩ := r.header_encoded htake
  have hmax := r.payload_le
  rw [if_neg (by omega), hsize, if_neg (by rw [kMaxPayload]; omega),
    if_pos (by rw [List.length_drop]; omega)]

end Response

section
variable {τ : Type} {readSome : Source UInt8 τ} {t : τ}

/-- Whole frames are read one by one, and what follows them is left. -/
theorem readFrames_encoded (rs : List Response) {later : Bytes}
    (h : readSome.rest t = (rs.map Response.encoded).flatten ++ later) :
    ∃ u, readFrames readSome rs.length t = (.ok (rs.map Response.frame), u) ∧
      readSome.rest u = later := by
  induction rs generalizing t with
  | nil => exact ⟨t, rfl, h⟩
  | cons r rs ih =>
      rw [List.map_cons, List.flatten_cons, List.append_assoc] at h
      obtain ⟨u, hu, hrest⟩ := readResponseFrameFrom_eq readSome t
      rw [h, r.cut_encoded] at hu hrest
      obtain ⟨v, hv, hlater⟩ := ih hrest
      refine ⟨v, ?_, hlater⟩
      rw [List.length_cons, readFrames, bind_ok hu, bind_ok hv]
      rfl

/-- Every list of responses comes back whatever the pieces, and then the end of the
stream; a stream that ends inside a frame gives the frames before it. -/
theorem response_stream_round_trip (readSome : Source UInt8 τ) (t : τ) (rs : List Response) :
    (∀ r ∈ rs, messageAnswerOf [r.frame.version] r.frame.code r.frame.payload.length
      r.frame.payload = .ok r.encoded) ∧
    (readSome.rest t = (rs.map Response.encoded).flatten →
      ∃ u, readFrames readSome rs.length t = (.ok (rs.map Response.frame), u) ∧
        (readResponseFrameFrom readSome u).1 = .error "EOF while reading frame") ∧
    ∀ (earlier later : List Response) (r : Response) (n : ℕ), rs = earlier ++ r :: later →
      n < r.encoded.length →
      readSome.rest t = (earlier.map Response.encoded).flatten ++ r.encoded.take n →
      ∃ u, readFrames readSome earlier.length t = (.ok (earlier.map Response.frame), u) ∧
        (readResponseFrameFrom readSome u).1 = .error "EOF while reading frame" := by
  refine ⟨fun r _ => r.messageAnswerOf_encoded, ?_, ?_⟩
  · intro h
    obtain ⟨u, hu, hrest⟩ := readFrames_encoded rs (by rw [h, List.append_nil])
    obtain ⟨v, hv, -⟩ := readResponseFrameFrom_eq readSome u
    refine ⟨u, hu, ?_⟩
    rw [hv, hrest]
    rfl
  · intro earlier later r n _ hn h
    obtain ⟨u, hu, hrest⟩ := readFrames_encoded earlier h
    obtain ⟨v, hv, -⟩ := readResponseFrameFrom_eq readSome u
    refine ⟨u, hu, ?_⟩
    rw [hv, hrest, r.cut_inside hn]
end

/-! ### Two frames, byte by byte -/

def transferDone : Response := ⟨{ version := 3, code := 1604, payload := List.replicate 16 0 },
  by decide, by decide⟩

def registerFail : Response := ⟨{ version := 3, code := 1601, payload := [] }, by decide, by decide⟩

/-- A socket that yields one byte a call. -/
theorem bytewise_round_trip :
    ∃ u, readFrames (sized fun _ => 1) 2
        { rest := ([transferDone, registerFail].map Response.encoded).flatten, calls := 0 } =
          (.ok [transferDone.frame, registerFail.frame], u) ∧
      (readResponseFrameFrom (sized fun _ => 1) u).1 = .error "EOF while reading frame" :=
  (response_stream_round_trip (sized fun _ => 1)
    { rest := ([transferDone, registerFail].map Response.encoded).flatten, calls := 0 }
    [transferDone, registerFail]).2.1 rfl

end Seftp.ResponseStream
