import Seftp.MalformedStreams
import Seftp.PartialReads
import Seftp.RequestRoundTrip

/-!
# Requests as the C++ server reads them

`request_frame.hpp` and the reading half of `frame_io.hpp`. A request is read in two
parts, the header and the payload it announces, and then parsed as a whole; more than
64 KiB and unknown codes are refused. The Python server cuts the same stream by its
framer: up to its first error the C++ reader finds the same frames.
-/
namespace Seftp.NativeFrames
open LittleEndian ExceptState StreamCutting Protocol Framing MalformedStreams PartialReads Router

def kRequestHeaderSize : ℕ := 23
def kPayloadSizeOffset : ℕ := 19
def kDefaultMaxPayloadSize : ℕ := 64 * 1024

inductive RequestCode where
  | register | sendPublicKey | reconnect | upload | clientHello | clientHandshakeAck
  deriving DecidableEq, Repr

def RequestCode.value : RequestCode → ℕ
  | .register => 825
  | .sendPublicKey => 826
  | .reconnect => 827
  | .upload => 828
  | .clientHello => 829
  | .clientHandshakeAck => 830

structure RequestFrame where
  clientId : ClientId
  version : UInt8
  code : RequestCode
  payload : Bytes
  deriving DecidableEq, Repr

inductive ParseError where
  | incompleteHeader | payloadSizeMismatch | unknownRequestCode | payloadTooLarge
  deriving DecidableEq, Repr

def requestCodeFromRaw (raw : ℕ) : Option RequestCode :=
  if raw = 825 then some .register
  else if raw = 826 then some .sendPublicKey
  else if raw = 827 then some .reconnect
  else if raw = 828 then some .upload
  else if raw = 829 then some .clientHello
  else if raw = 830 then some .clientHandshakeAck
  else none

/-- `parse_request_frame`: a frame or the error, never both. -/
def parseRequestFrame (bytes : Bytes) : Except ParseError RequestFrame :=
  if h : bytes.length < kRequestHeaderSize then .error .incompleteHeader
  else
    match requestCodeFromRaw (leNat ((bytes.drop 17).take 2)) with
    | none => .error .unknownRequestCode
    | some code =>
        if bytes.length ≠ kRequestHeaderSize + leNat ((bytes.drop kPayloadSizeOffset).take 4) then
          .error .payloadSizeMismatch
        else .ok
          { clientId := ⟨bytes.take 16, by
              rw [List.length_take]
              unfold kRequestHeaderSize at h
              omega⟩
            version := bytes.getD 16 0
            code
            payload := bytes.drop kRequestHeaderSize }

inductive FrameIoError where
  | connectionClosed | readFailed | writeFailed
  deriving DecidableEq, Repr

/-- The two kinds of failure of `ReadFrameResult`. -/
inductive ReadError where
  | io (error : FrameIoError)
  | parse (error : ParseError)
  deriving DecidableEq, Repr

section
variable {τ : Type}

/-- `boost::asio::read` of a whole buffer from a stream that ends with EOF. -/
def readBuffer (socket : Source UInt8 τ) (n : ℕ) : Prog τ ReadError Bytes :=
  collect socket (.io .connectionClosed) n

/-- An empty payload is not read. -/
def readPayload (socket : Source UInt8 τ) (n : ℕ) : Prog τ ReadError Bytes :=
  if 0 < n then readBuffer socket n else pure []

def readRequestFrame (socket : Source UInt8 τ) : Prog τ ReadError RequestFrame := do
  let header ← readBuffer socket kRequestHeaderSize
  if kDefaultMaxPayloadSize < leNat ((header.drop kPayloadSizeOffset).take 4) then
    raise (.parse .payloadTooLarge)
  else do
    let payload ← readPayload socket (leNat ((header.drop kPayloadSizeOffset).take 4))
    match parseRequestFrame (header ++ payload) with
    | .ok frame => pure frame
    | .error e => raise (.parse e)

/-- The frames of at most that many calls, up to the first error. -/
def readRequests (socket : Source UInt8 τ) : ℕ → τ → List RequestFrame × Option ReadError
  | 0, _ => ([], none)
  | n + 1, t =>
      match readRequestFrame socket t with
      | (.ok frame, u) => (frame :: (readRequests socket n u).1, (readRequests socket n u).2)
      | (.error e, _) => ([], some e)

end

/-! ### Parsing is the inverse of building -/

theorem requestCodeFromRaw_eq_some {raw : ℕ} {code : RequestCode} :
    requestCodeFromRaw raw = some code ↔ raw = code.value := by
  unfold requestCodeFromRaw
  constructor
  · intro h
    split_ifs at h with h₁ h₂ h₃ h₄ h₅ h₆ <;> cases h <;> assumption
  · rintro rfl
    cases code <;> rfl

theorem requestCodeFromRaw_isSome {raw : ℕ} :
    (requestCodeFromRaw raw).isSome ↔ 825 ≤ raw ∧ raw ≤ 830 := by
  unfold requestCodeFromRaw
  split_ifs <;> simp only [Option.isSome_some, Option.isSome_none] <;> grind

/-- What the C++ server reads as the Python server's router reads it. -/
def RequestFrame.fields (f : RequestFrame) : Request :=
  { clientId := f.clientId.val, version := [f.version], code := f.code.value, payload := f.payload }

def RequestFrame.build (f : RequestFrame) : Bytes :=
  buildRequest f.clientId f.code.value f.payload f.version

section
variable {bytes : Bytes} {frame : RequestFrame}

theorem parseRequestFrame_ok_iff : parseRequestFrame bytes = .ok frame ↔
    bytes.length = kRequestHeaderSize + payloadSize bytes ∧ frame.clientId.val = bytes.take 16 ∧
      frame.version = bytes.getD 16 0 ∧ frame.code.value = leNat ((bytes.drop 17).take 2) ∧
      frame.payload = bytes.drop kRequestHeaderSize := by
  unfold parseRequestFrame
  by_cases hlen : bytes.length < kRequestHeaderSize
  · rw [dif_pos hlen]
    refine iff_of_false (by simp) ?_
    rintro ⟨h, -⟩
    omega
  rw [dif_neg hlen]
  rcases hcode : requestCodeFromRaw (leNat ((bytes.drop 17).take 2)) with _ | code
  · refine iff_of_false (by simp) ?_
    rintro ⟨-, -, -, h, -⟩
    rw [← h, requestCodeFromRaw_eq_some.mpr rfl] at hcode
    cases hcode
  have hraw := requestCodeFromRaw_eq_some.mp hcode
  dsimp only
  split_ifs with hsize
  · refine iff_of_false (by simp) ?_
    rintro ⟨h, -⟩
    exact hsize h
  · rw [Except.ok.injEq]
    constructor
    · rintro rfl
      exact ⟨not_not.mp hsize, rfl, rfl, hraw.symm, rfl⟩
    · rintro ⟨-, hid, hversion, hvalue, hpayload⟩
      obtain ⟨cid, version, code', payload⟩ := frame
      obtain rfl : code' = code := by
        have := requestCodeFromRaw_eq_some.mpr hvalue.symm
        exact Option.some.inj (this.symm.trans hcode)
      congr 1
      · exact Subtype.ext hid.symm
      · exact hversion.symm
      · exact hpayload.symm

theorem getD_of_lt {n : ℕ} (h : n < bytes.length) : bytes.getD n 0 = bytes[n] := by
  simp [h]

/-- A header is its fields. -/
theorem split_header (h : kRequestHeaderSize ≤ bytes.length) :
    bytes = bytes.take 16 ++ [bytes.getD 16 0] ++ (bytes.drop 17).take 2 ++
      (bytes.drop kPayloadSizeOffset).take 4 ++ bytes.drop kRequestHeaderSize := by
  unfold kRequestHeaderSize at h
  have hone : (bytes.drop 16).take 1 = [bytes.getD 16 0] := by
    rw [List.drop_eq_getElem_cons (by omega), getD_of_lt (by omega)]
    rfl
  have h₁ := List.take_append_drop 16 bytes
  have h₂ := List.take_append_drop 1 (bytes.drop 16)
  have h₃ := List.take_append_drop 2 (bytes.drop 17)
  have h₄ := List.take_append_drop 4 (bytes.drop 19)
  rw [List.drop_drop] at h₂ h₃ h₄
  rw [kPayloadSizeOffset, kRequestHeaderSize, ← hone, List.append_assoc, List.append_assoc,
    List.append_assoc, h₄, h₃, h₂, h₁]

/-- The parser accepts exactly the encodings of the frames it returns. -/
theorem parseRequestFrame_iff_build :
    parseRequestFrame bytes = .ok frame ↔ bytes = frame.build ∧ frame.payload.length < 2 ^ 32 := by
  rw [parseRequestFrame_ok_iff]
  constructor
  · rintro ⟨hlen, hid, hversion, hcode, hpayload⟩
    have hheader : kRequestHeaderSize ≤ bytes.length := by omega
    have hsize : frame.payload.length = payloadSize bytes := by
      rw [hpayload, List.length_drop]
      omega
    have hlen2 : ((bytes.drop 17).take 2).length = 2 := by
      rw [List.length_take, List.length_drop]
      unfold kRequestHeaderSize at hheader
      omega
    have hlen4 : ((bytes.drop kPayloadSizeOffset).take 4).length = 4 := by
      rw [List.length_take, List.length_drop]
      unfold kRequestHeaderSize at hheader
      unfold kPayloadSizeOffset
      omega
    constructor
    · have hback2 := leBytes_leNat ((bytes.drop 17).take 2)
      have hback4 := leBytes_leNat ((bytes.drop kPayloadSizeOffset).take 4)
      rw [hlen2] at hback2
      rw [hlen4] at hback4
      have hdeclared : leNat ((bytes.drop kPayloadSizeOffset).take 4) = frame.payload.length :=
        hsize.symm
      rw [RequestFrame.build, buildRequest, hid, hversion, hcode, hback2, ← hdeclared, hback4,
        hpayload]
      exact split_header hheader
    · have hlt := leNat_lt ((bytes.drop kPayloadSizeOffset).take 4)
      rw [hlen4] at hlt
      rw [hsize]
      exact hlt
  · rintro ⟨rfl, hsmall⟩
    have hcode : frame.code.value < 65536 := by
      cases frame.code <;> decide
    let r : RequestRoundTrip.ClientRequest :=
      ⟨frame.clientId, frame.version, UInt16.ofNat frame.code.value, frame.payload⟩
    have hr : r.encode = frame.build := by
      rw [RequestRoundTrip.ClientRequest.encode, UInt16.toNat_ofNat_of_lt' hcode]
      rfl
    have hdeclared : payloadSize frame.build = frame.payload.length := by
      rw [← hr, RequestRoundTrip.payloadSize_encode]
      exact Nat.mod_eq_of_lt hsmall
    have hfields : parseFrame frame.build = frame.fields := by
      rw [← hr, RequestRoundTrip.parseFrame_encode hsmall, RequestRoundTrip.ClientRequest.fields,
        UInt16.toNat_ofNat_of_lt' hcode]
      rfl
    have hlength : frame.build.length = kRequestHeaderSize + frame.payload.length := by
      rw [← hr, RequestRoundTrip.length_encode]
      rfl
    refine ⟨by rw [hdeclared, hlength], ?_, ?_, ?_, ?_⟩
    · exact (congrArg Request.clientId hfields).symm
    · have hone : (frame.build.drop 16).take 1 = [frame.version] := congrArg Request.version hfields
      have hlong : 16 < frame.build.length := by
        rw [hlength]
        unfold kRequestHeaderSize
        omega
      rw [List.drop_eq_getElem_cons hlong] at hone
      rw [getD_of_lt hlong]
      exact (List.cons.inj hone).1.symm
    · exact (congrArg Request.code hfields).symm
    · have hpay : (frame.build.drop 23).take (payloadSize frame.build) = frame.payload :=
        congrArg Request.payload hfields
      rw [List.take_of_length_le] at hpay
      · exact hpay.symm
      · rw [List.length_drop, hlength, hdeclared]
        unfold kRequestHeaderSize
        omega

end

/-! ### The stream decides -/

/-- The first request of a stream and what follows it. -/
def cutRequest (stream : Bytes) : Except ReadError RequestFrame × Bytes :=
  if stream.length < kRequestHeaderSize then (.error (.io .connectionClosed), [])
  else if kDefaultMaxPayloadSize < payloadSize stream then
    (.error (.parse .payloadTooLarge), stream.drop kRequestHeaderSize)
  else if stream.length < kRequestHeaderSize + payloadSize stream then
    (.error (.io .connectionClosed), [])
  else
    ((parseRequestFrame (stream.take (kRequestHeaderSize + payloadSize stream))).mapError .parse,
      stream.drop (kRequestHeaderSize + payloadSize stream))

section
variable {τ : Type} {socket : Source UInt8 τ} {t : τ}

theorem readBuffer_ok {n : ℕ} (h : n ≤ (socket.rest t).length) :
    ∃ u, readBuffer socket n t = (.ok ((socket.rest t).take n), u) ∧
      socket.rest u = (socket.rest t).drop n := collect_ok h

theorem readBuffer_short {n : ℕ} (h : (socket.rest t).length < n) :
    ∃ u, readBuffer socket n t = (.error (.io .connectionClosed), u) ∧ socket.rest u = [] :=
  collect_short h

theorem readPayload_ok {n : ℕ} (h : n ≤ (socket.rest t).length) :
    ∃ u, readPayload socket n t = (.ok ((socket.rest t).take n), u) ∧
      socket.rest u = (socket.rest t).drop n := by
  unfold readPayload
  by_cases hn : 0 < n
  · rw [if_pos hn]
    exact readBuffer_ok h
  · rw [if_neg hn, Nat.eq_zero_of_not_pos hn]
    exact ⟨t, rfl, rfl⟩

theorem readPayload_short {n : ℕ} (h : (socket.rest t).length < n) :
    ∃ u, readPayload socket n t = (.error (.io .connectionClosed), u) ∧ socket.rest u = [] := by
  rw [readPayload, if_pos (by omega)]
  exact readBuffer_short h

/-- The size in the header that has been read. -/
theorem payloadSize_header {stream : Bytes} (h : kRequestHeaderSize ≤ stream.length) :
    leNat (((stream.take kRequestHeaderSize).drop kPayloadSizeOffset).take 4) =
      payloadSize stream := by
  have hlen : headerLen ≤ (stream.take kRequestHeaderSize).length := by
    rw [List.length_take, Nat.min_eq_left h]
    exact Nat.le_refl _
  have hsame := payloadSize_append (stream.drop kRequestHeaderSize) hlen
  rw [List.take_append_drop] at hsame
  exact hsame.symm

/-- The pieces in which the stream arrives do not matter. -/
theorem readRequestFrame_eq (socket : Source UInt8 τ) (t : τ) :
    ∃ u, readRequestFrame socket t = ((cutRequest (socket.rest t)).1, u) ∧
      socket.rest u = (cutRequest (socket.rest t)).2 := by
  unfold cutRequest
  by_cases hlen : (socket.rest t).length < kRequestHeaderSize
  · obtain ⟨u, hu, hrest⟩ := readBuffer_short hlen
    rw [if_pos hlen]
    exact ⟨u, bind_error hu, hrest⟩
  obtain ⟨u, hu, hrest⟩ := readBuffer_ok (Nat.not_lt.mp hlen)
  have hsize := payloadSize_header (Nat.not_lt.mp hlen)
  rw [if_neg hlen, readRequestFrame, bind_ok hu, hsize]
  by_cases hmax : kDefaultMaxPayloadSize < payloadSize (socket.rest t)
  · rw [if_pos hmax, if_pos hmax]
    exact ⟨u, rfl, hrest⟩
  rw [if_neg hmax, if_neg hmax]
  have hleft : (socket.rest u).length = (socket.rest t).length - kRequestHeaderSize := by
    rw [hrest, List.length_drop]
  by_cases hshort : (socket.rest t).length < kRequestHeaderSize + payloadSize (socket.rest t)
  · have hless : (socket.rest u).length < payloadSize (socket.rest t) := by
      rw [hleft]
      omega
    obtain ⟨v, hv, hend⟩ := readPayload_short hless
    rw [if_pos hshort]
    exact ⟨v, bind_error hv, hend⟩
  · have henough : payloadSize (socket.rest t) ≤ (socket.rest u).length := by
      rw [hleft]
      omega
    obtain ⟨v, hv, hend⟩ := readPayload_ok henough
    rw [if_neg hshort, bind_ok hv, hrest, ← List.take_add]
    rw [hrest, List.drop_drop] at hend
    refine ⟨v, ?_, hend⟩
    rcases parseRequestFrame _ with e | frame
    · rfl
    · rfl

end

/-! ### Headers of a stream -/

/-- A header that stands where a frame of the stream begins. -/
inductive HeaderIn : Bytes → Bytes → Prop
  | here {stream : Bytes} (h : headerLen ≤ stream.length) : HeaderIn stream (stream.take headerLen)
  | later {stream header : Bytes} (hlen : headerLen + payloadSize stream ≤ stream.length)
      (h : HeaderIn (stream.drop (headerLen + payloadSize stream)) header) : HeaderIn stream header

/-- The request code in a header. -/
def headerCode (header : Bytes) : ℕ := leNat ((header.drop 17).take 2)

section
variable {stream : Bytes} {m : ℕ}

theorem payloadSize_take (h : headerLen ≤ stream.length) :
    payloadSize (stream.take headerLen) = payloadSize stream := payloadSize_header h

theorem headerCode_take {n : ℕ} (h : headerLen ≤ n) :
    headerCode (stream.take n) = headerCode stream := by
  unfold headerLen at h
  rw [headerCode, List.drop_take, List.take_take, Nat.min_eq_left (by omega)]
  rfl

/-- The framer refuses no header of such a stream. -/
theorem drainAll_good (h : ∀ header, HeaderIn stream header → payloadSize header ≤ m) :
    (drainAll (frameVerdict m) stream).bad = false := by
  have hp := frameVerdict_prompt m
  induction stream using cut_induction hp with
  | more buf hv => rw [drainAll_more hv]
  | bad buf hv =>
      obtain ⟨hlen, hsize⟩ := frameVerdict_bad.mp hv
      have hle := h _ (.here hlen)
      rw [payloadSize_take hlen] at hle
      omega
  | unit buf n hv ih =>
      obtain ⟨hlen, -, rfl, hle⟩ := frameVerdict_unit.mp hv
      rw [drainAll_unit hp hv]
      exact ih fun header hh => h header (.later hle hh)

/-- A request that is read is a frame of the framer. -/
theorem cutRequest_ok {frame : RequestFrame} {rest : Bytes} (hm : kDefaultMaxPayloadSize ≤ m)
    (h : cutRequest stream = (.ok frame, rest)) :
    frameVerdict m stream = .unit (headerLen + payloadSize stream) ∧
      rest = stream.drop (headerLen + payloadSize stream) ∧
      frame.fields = parseFrame (stream.take (headerLen + payloadSize stream)) := by
  unfold cutRequest at h
  split_ifs at h with hlen hmax hshort
  · cases h
  · cases h
  · cases h
  obtain ⟨hparse, rfl⟩ := Prod.mk.inj h
  have hlen' : headerLen ≤ stream.length := Nat.not_lt.mp hlen
  have hall : headerLen + payloadSize stream ≤ stream.length := Nat.not_lt.mp hshort
  refine ⟨frameVerdict_unit.mpr ⟨hlen', by omega, rfl, hall⟩, rfl, ?_⟩
  rcases hp : parseRequestFrame (stream.take (kRequestHeaderSize + payloadSize stream)) with e | f
  · rw [hp] at hparse
    cases hparse
  rw [hp] at hparse
  cases hparse
  obtain ⟨hbuild, hsmall⟩ := parseRequestFrame_iff_build.mp hp
  obtain ⟨hsize, hid, hversion, hcode, hpayload⟩ := parseRequestFrame_ok_iff.mp hp
  change frame.fields = parseFrame (stream.take (kRequestHeaderSize + payloadSize stream))
  rw [RequestFrame.fields, parseFrame, hid, hcode, hpayload]
  congr 1
  · have hlong : 16 < (stream.take (kRequestHeaderSize + payloadSize stream)).length := by
      rw [hsize]
      unfold kRequestHeaderSize
      omega
    rw [hversion, List.drop_eq_getElem_cons hlong, getD_of_lt hlong]
    rfl
  · refine (List.take_of_length_le ?_).symm
    rw [List.length_drop, hsize]
    exact Nat.le_of_eq (Nat.add_sub_cancel_left ..)

/-- Where the reader fails on a stream of good headers, no frame is complete. -/
theorem cutRequest_error {e : ReadError} {rest : Bytes}
    (hgood : ∀ header, HeaderIn stream header → payloadSize header ≤ kDefaultMaxPayloadSize ∧
      825 ≤ headerCode header ∧ headerCode header ≤ 830)
    (h : cutRequest stream = (.error e, rest)) : frameVerdict m stream = .more ∨
      frameVerdict m stream = .bad := by
  unfold cutRequest at h
  split_ifs at h with hlen hmax hshort
  · refine .inl ?_
    rw [frameVerdict]
    exact if_pos hlen
  · have hlen' : headerLen ≤ stream.length := Nat.not_lt.mp hlen
    have hle := (hgood _ (.here hlen')).1
    rw [payloadSize_take hlen'] at hle
    omega
  · have hlen' : ¬ stream.length < headerLen := hlen
    rw [frameVerdict, if_neg hlen']
    split_ifs with hbad hmore
    · exact .inr rfl
    · exact .inl rfl
    · exact (hmore hshort).elim
  · have hlen' : headerLen ≤ stream.length := Nat.not_lt.mp hlen
    have hall : headerLen + payloadSize stream ≤ stream.length := Nat.not_lt.mp hshort
    obtain ⟨-, hcode⟩ := hgood _ (.here hlen')
    have hsize : payloadSize (stream.take (kRequestHeaderSize + payloadSize stream)) =
        payloadSize stream := by
      have hfull : headerLen ≤ (stream.take (headerLen + payloadSize stream)).length := by
        rw [List.length_take]
        omega
      have hsame := payloadSize_append (stream.drop (headerLen + payloadSize stream)) hfull
      rw [List.take_append_drop] at hsame
      exact hsame.symm
    rw [headerCode_take (Nat.le_refl _), ← headerCode_take (Nat.le_add_right headerLen _),
      ← requestCodeFromRaw_isSome] at hcode
    obtain ⟨code, hsome⟩ := Option.isSome_iff_exists.mp hcode
    -- the code is known and the size agrees, so the parser cannot have failed
    exfalso
    have hlength : (stream.take (kRequestHeaderSize + payloadSize stream)).length =
        kRequestHeaderSize + payloadSize stream := by
      rw [List.length_take]
      exact Nat.min_eq_left hall
    have hsome' : requestCodeFromRaw (leNat (((stream.take (kRequestHeaderSize +
        payloadSize stream)).drop 17).take 2)) = some code := hsome
    have hdeclared : leNat (((stream.take (kRequestHeaderSize + payloadSize stream)).drop
        kPayloadSizeOffset).take 4) = payloadSize stream := hsize
    rw [parseRequestFrame, dif_neg (by omega), hsome'] at h
    dsimp only at h
    rw [if_neg (by rw [hlength, hdeclared]; simp)] at h
    cases h

end

/-! ### Both servers -/

section
variable {τ : Type} {socket : Source UInt8 τ} {t : τ} {m : ℕ}

theorem readRequests_prefix (hm : kDefaultMaxPayloadSize ≤ m) (n : ℕ) :
    (readRequests socket n t).1.map RequestFrame.fields <+:
      (drainAll (frameVerdict m) (socket.rest t)).units.map parseFrame := by
  have hp := frameVerdict_prompt m
  induction n generalizing t with
  | zero => exact List.nil_prefix
  | succ n ih =>
      obtain ⟨u, hu, hrest⟩ := readRequestFrame_eq socket t
      rw [readRequests, hu]
      rcases hcut : cutRequest (socket.rest t) with ⟨e | frame, rest⟩
      · exact List.nil_prefix
      · obtain ⟨hunit, rfl, hfields⟩ := cutRequest_ok hm hcut
        rw [hcut] at hrest
        dsimp only at hrest
        rw [drainAll_unit hp hunit, List.map_cons, List.map_cons, hfields, ← hrest]
        exact (List.prefix_append_right_inj [_]).mpr ih

theorem readRequests_ends {n : ℕ} (h : (socket.rest t).length < n) :
    (readRequests socket n t).2.isSome := by
  induction n generalizing t with
  | zero => omega
  | succ n ih =>
      obtain ⟨u, hu, hrest⟩ := readRequestFrame_eq socket t
      rw [readRequests, hu]
      rcases hcut : cutRequest (socket.rest t) with ⟨e | frame, rest⟩
      · rfl
      · obtain ⟨hunit, rfl, -⟩ := cutRequest_ok (Nat.le_refl _) hcut
        obtain ⟨hlen, -⟩ := frameVerdict_unit.mp hunit
        rw [hcut] at hrest
        apply ih
        rw [hrest, List.length_drop]
        unfold headerLen at hlen ⊢
        omega

theorem readRequests_all (hm : kDefaultMaxPayloadSize ≤ m) {n : ℕ} (h : (socket.rest t).length < n)
    (hgood : ∀ header, HeaderIn (socket.rest t) header →
      payloadSize header ≤ kDefaultMaxPayloadSize ∧ 825 ≤ headerCode header ∧
        headerCode header ≤ 830) :
    (readRequests socket n t).1.map RequestFrame.fields =
      (drainAll (frameVerdict m) (socket.rest t)).units.map parseFrame := by
  have hp := frameVerdict_prompt m
  induction n generalizing t with
  | zero => omega
  | succ n ih =>
      obtain ⟨u, hu, hrest⟩ := readRequestFrame_eq socket t
      rw [readRequests, hu]
      rcases hcut : cutRequest (socket.rest t) with ⟨e | frame, rest⟩
      · rcases cutRequest_error (m := m) hgood hcut with hv | hv
        · rw [drainAll_more hv]
          rfl
        · rw [drainAll_bad hv]
          rfl
      · obtain ⟨hunit, rfl, hfields⟩ := cutRequest_ok hm hcut
        obtain ⟨hlen, -, -, hall⟩ := frameVerdict_unit.mp hunit
        rw [hcut] at hrest
        dsimp only at hrest
        rw [drainAll_unit hp hunit, List.map_cons, List.map_cons, hfields, ← hrest]
        refine congrArg _ (ih ?_ ?_)
        · rw [hrest, List.length_drop]
          unfold headerLen at hlen ⊢
          omega
        · rw [hrest]
          exact fun header hh => hgood header (.later hall hh)

end

/-- Up to its first error the C++ server reads the frames of the Python server; it
reads all of them when every header is within its limit and has a known code. What it
accepts as a frame is the encoding of that frame. -/
theorem servers_frame_alike {τ : Type} (f : Framer) (hbuf : f.buf = [])
    (hmax : 65536 ≤ f.maxPayloadSize) (chunks : List Bytes)
    (hheaders : ∀ header, HeaderIn chunks.flatten header → payloadSize header ≤ f.maxPayloadSize)
    (socket : Source UInt8 τ) (t : τ) (hstream : socket.rest t = chunks.flatten) :
    (∀ n, (readRequests socket n t).1.map RequestFrame.fields <+:
      (delivered f chunks).map parseFrame) ∧
    (∀ n, chunks.flatten.length < n → (readRequests socket n t).2.isSome ∧
      ((∀ header, HeaderIn chunks.flatten header →
          payloadSize header ≤ 65536 ∧ 825 ≤ headerCode header ∧ headerCode header ≤ 830) →
        (readRequests socket n t).1.map RequestFrame.fields =
          (delivered f chunks).map parseFrame)) ∧
    ∀ bytes frame, parseRequestFrame bytes = .ok frame ↔
      bytes = buildRequest frame.clientId frame.code.value frame.payload frame.version ∧
        frame.payload.length < 2 ^ 32 := by
  have hdelivered : delivered f chunks =
      (drainAll (frameVerdict f.maxPayloadSize) (socket.rest t)).units := by
    have hgood := drainAll_good hheaders
    have hall := delivered_good (f := f) chunks (by rw [hbuf]; rfl)
      (by rwa [hbuf, List.nil_append])
    rwa [hbuf, List.nil_append, ← hstream] at hall
  rw [hdelivered, ← hstream]
  refine ⟨fun n => readRequests_prefix hmax n, fun n hn => ⟨readRequests_ends hn, fun hgood => ?_⟩,
    fun bytes frame => parseRequestFrame_iff_build⟩
  exact readRequests_all hmax hn hgood

/-- The headers of a frame and of what follows it. -/
theorem headerIn_append {frame rest header : Bytes}
    (hframe : headerLen + payloadSize frame = frame.length) (h : HeaderIn (frame ++ rest) header) :
    header = frame.take headerLen ∨ HeaderIn rest header := by
  have hlen : headerLen ≤ frame.length := by omega
  generalize hstream : frame ++ rest = stream at h
  cases h with
  | here _ =>
      rw [← hstream]
      exact .inl (List.take_append_of_le_length hlen)
  | later _ h =>
      rw [← hstream, payloadSize_append rest hlen, hframe, List.drop_left] at h
      exact .inr h

theorem not_headerIn_nil {header : Bytes} : ¬ HeaderIn [] header := by
  intro h
  cases h with
  | here hlen => simp [headerLen] at hlen
  | later hlen _ => simp [headerLen] at hlen

/-- A hello with its 34 bytes, its acknowledgement and a registration. -/
def threeRequests : List Bytes :=
  [buildRequest zeroClientId 829 ([1] ++ List.replicate 32 5 ++ [0]), emptyFrame,
    buildRequest zeroClientId 825 [97, 108, 105, 99, 101]]

theorem threeRequests_headers (header : Bytes) (h : HeaderIn threeRequests.flatten header) :
    payloadSize header ≤ 65536 ∧ 825 ≤ headerCode header ∧ headerCode header ≤ 830 := by
  rcases headerIn_append (by decide) h with rfl | h
  · decide
  rcases headerIn_append (by decide) h with rfl | h
  · decide
  rcases headerIn_append (by decide) h with rfl | h
  · decide
  · exact (not_headerIn_nil h).elim

/-- Three requests, cut in the payload of the first and in the header of the last for
one server and in pieces of five bytes for the other. -/
theorem servers_frame_alike_split :
    (readRequests (sized fun _ => 5) 109 ⟨threeRequests.flatten, 0⟩).1.map RequestFrame.fields =
        threeRequests.map parseFrame ∧
      delivered ⟨65536, by decide, []⟩
        [threeRequests.flatten.take 30, (threeRequests.flatten.drop 30).take 60,
          threeRequests.flatten.drop 90] = threeRequests := by
  have hstream : [threeRequests.flatten.take 30, (threeRequests.flatten.drop 30).take 60,
      threeRequests.flatten.drop 90].flatten = threeRequests.flatten := by decide
  have hdelivered : delivered ⟨65536, by decide, []⟩ [threeRequests.flatten.take 30,
      (threeRequests.flatten.drop 30).take 60, threeRequests.flatten.drop 90] = threeRequests := by
    decide +kernel
  have h := servers_frame_alike ⟨65536, by decide, []⟩ rfl (Nat.le_refl _)
    [threeRequests.flatten.take 30, (threeRequests.flatten.drop 30).take 60,
      threeRequests.flatten.drop 90]
    (fun header hh => (threeRequests_headers header (hstream ▸ hh)).1)
    (sized fun _ => 5) ⟨threeRequests.flatten, 0⟩ hstream.symm
  refine ⟨?_, hdelivered⟩
  rw [← hdelivered]
  exact (h.2.1 109 (by rw [hstream]; decide)).2 fun header hh =>
    threeRequests_headers header (hstream ▸ hh)

end Seftp.NativeFrames
