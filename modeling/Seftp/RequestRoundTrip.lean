import Seftp.Framing
import Seftp.Protocol
import Seftp.Router

/-!
# Requests across any segmentation

The client's encoder against the server's framer and router. Whatever pieces the
stream arrives in, the framer hands on the encodings the client wrote, and the
router reads back the fields they were made of. The size field has four bytes, so
a payload has to be shorter than `2 ^ 32`.
-/
namespace Seftp.RequestRoundTrip
open LittleEndian ExceptState StreamCutting Protocol Framing ServerSession Router

/-- The arguments of `build_request`. -/
structure ClientRequest where
  clientId : ClientId
  version : UInt8
  code : UInt16
  payload : Bytes

def ClientRequest.encode (r : ClientRequest) : Bytes :=
  buildRequest r.clientId r.code.toNat r.payload r.version

/-- What the router should find in the encoding. -/
def ClientRequest.fields (r : ClientRequest) : Request :=
  { clientId := r.clientId.val, version := [r.version], code := r.code.toNat, payload := r.payload }

/-- The frames of each call. A call that raises ends the feeding. -/
def feedAll (f : Framer) : List Bytes → Option (List (List Bytes)) × Framer
  | [] => (some [], f)
  | c :: cs =>
      match f.feed c with
      | (none, g) => (none, g)
      | (some frames, g) =>
          match feedAll g cs with
          | (none, g') => (none, g')
          | (some later, g') => (some (frames :: later), g')

/-- After some calls: nothing raised, nothing lost, and what is kept is the start
of one more frame. -/
def Kept (f : Framer) (chunks : List Bytes) : Prop :=
  ∃ frames, (feedAll f chunks).1 = some frames ∧
    frames.flatten.flatten ++ (feedAll f chunks).2.buf = chunks.flatten ∧
    (feedAll f chunks).2.buf.length < headerLen + f.maxPayloadSize ∧
    frameVerdict f.maxPayloadSize (feedAll f chunks).2.buf = .more

/-- The router runs the dispatch on `r`, with neither of its length checks
failing. -/
def RoutedAs (frame : Bytes) (r : Request) : Prop :=
  ∀ (h : AppHandlers) (ctx : Ctx), handleFrameWith h ctx frame = do
    update (noteIdentity r)
    attempt (dispatch h ctx r) (recover ctx r)

/-- The round trip of one list of requests along one segmentation. -/
structure RoundTrip (f : Framer) (requests : List ClientRequest) (chunks : List Bytes) : Prop where
  all_frames : ∃ frames, (feedAll f chunks).1 = some frames ∧
    frames.flatten = requests.map ClientRequest.encode
  empty_buffer : (feedAll f chunks).2.buf = []
  kept : ∀ k, Kept f (chunks.take k)
  routed : ∀ r ∈ requests, RoutedAs r.encode r.fields

section
variable {r : ClientRequest}

theorem length_encode (r : ClientRequest) : r.encode.length = headerLen + r.payload.length := by
  simp [ClientRequest.encode, buildRequest, headerLen, r.clientId.property]
  omega

theorem encode_eq (r : ClientRequest) :
    r.encode = r.clientId.val ++ ([r.version] ++ (leBytes 2 r.code.toNat ++
      (leBytes 4 r.payload.length ++ r.payload))) := by
  simp [ClientRequest.encode, buildRequest]

/-- The size field holds the payload's length modulo `2 ^ 32`. -/
theorem payloadSize_encode (r : ClientRequest) :
    payloadSize r.encode = r.payload.length % 256 ^ 4 := by
  have h16 : r.clientId.val.length = 16 := r.clientId.property
  rw [← leNat_leBytes 4, payloadSize, payloadSizeOffset, encode_eq]
  congr 1
  rw [show 19 = r.clientId.val.length + 3 by omega, ← List.drop_drop, List.drop_left]
  simp [leBytes]

theorem frameVerdict_encode {m : ℕ} (hm : r.payload.length ≤ m) (h : r.payload.length < 2 ^ 32) :
    frameVerdict m r.encode = .unit r.encode.length := by
  rw [frameVerdict_unit, payloadSize_encode, length_encode,
    Nat.mod_eq_of_lt (by omega : r.payload.length < 256 ^ 4)]
  omega

theorem parseFrame_encode (h : r.payload.length < 2 ^ 32) : parseFrame r.encode = r.fields := by
  have h16 : r.clientId.val.length = 16 := r.clientId.property
  have hsize : leNat ((r.encode.drop 19).take 4) = r.payload.length := by
    have := payloadSize_encode r
    rwa [Nat.mod_eq_of_lt (by omega : r.payload.length < 256 ^ 4)] at this
  have hcode : leNat (leBytes 2 r.code.toNat) = r.code.toNat :=
    leNat_leBytes_of_lt (by simpa using r.code.toNat_lt)
  rw [parseFrame, hsize, encode_eq, ClientRequest.fields]
  congr 1
  · exact List.take_left' h16
  · rw [List.drop_left' h16]
    rfl
  · rw [show 17 = r.clientId.val.length + 1 by omega, ← List.drop_drop, List.drop_left]
    exact hcode
  · rw [show 23 = r.clientId.val.length + 7 by omega, ← List.drop_drop, List.drop_left]
    simp [leBytes]

theorem routedAs_encode (h : r.payload.length < 2 ^ 32) : RoutedAs r.encode r.fields := by
  intro handlers ctx
  have hlen := length_encode r
  have hsize : leNat ((r.encode.drop 19).take 4) = r.payload.length := by
    have := payloadSize_encode r
    rwa [Nat.mod_eq_of_lt (by omega : r.payload.length < 256 ^ 4)] at this
  have hwf : wellFormed r.encode = true := by
    simp only [wellFormed, hsize, hlen, headerLen, Bool.and_eq_true, decide_eq_true_eq]
    omega
  simp only [headerLen] at hlen
  rw [handleFrameWith, if_neg (by omega), parseFrame_encode h]
  simp only [routeFrame, parseFrame_encode h, hwf, Bool.not_true, Bool.false_eq_true, if_false]
  rw [if_neg (by omega)]

end

section
variable {f : Framer}

/-- Feeding the pieces is one pass over their concatenation. -/
theorem feedAll_eq (chunks : List Bytes) (hmore : frameVerdict f.maxPayloadSize f.buf = .more)
    (hgood : (drainAll (frameVerdict f.maxPayloadSize) (f.buf ++ chunks.flatten)).bad = false) :
    ∃ frames, feedAll f chunks = (some frames, { f with
        buf := (drainAll (frameVerdict f.maxPayloadSize) (f.buf ++ chunks.flatten)).rest }) ∧
      frames.flatten =
        (drainAll (frameVerdict f.maxPayloadSize) (f.buf ++ chunks.flatten)).units := by
  have hp := frameVerdict_prompt f.maxPayloadSize
  induction chunks generalizing f with
  | nil =>
      rw [List.flatten_nil, List.append_nil, drainAll_more hmore]
      exact ⟨[], rfl, rfl⟩
  | cons c cs ih =>
      by_cases hc : c = []
      · subst hc
        obtain ⟨frames, he, hf⟩ := ih hmore hgood hp
        exact ⟨[] :: frames, by simp [feedAll, Framer.feed, he], by simpa using hf⟩
      rw [List.flatten_cons, ← List.append_assoc] at hgood ⊢
      have hfirst : (drainAll (frameVerdict f.maxPayloadSize) (f.buf ++ c)).bad = false := by
        by_contra hb
        rw [drainAll_bad_append hp _ _ (by simpa using hb)] at hgood
        exact Bool.noConfusion hgood
      have happ := drainAll_append hp (f.buf ++ c) cs.flatten hfirst
      rw [happ] at hgood ⊢
      obtain ⟨frames, he, hf⟩ :=
        ih (f := { f with buf := (drainAll (frameVerdict f.maxPayloadSize) (f.buf ++ c)).rest })
          (drainAll_rest hp _ hfirst) hgood hp
      refine ⟨(drainAll (frameVerdict f.maxPayloadSize) (f.buf ++ c)).units :: frames, ?_, ?_⟩
      · simp [feedAll, Framer.feed, hc, hfirst, he]
      · simp [hf]

/-- A buffer that asks for more is shorter than the longest frame. -/
theorem length_lt_of_more {m : ℕ} {buf : Bytes} (h : frameVerdict m buf = .more) :
    buf.length < headerLen + m := by
  unfold frameVerdict at h
  split_ifs at h
  · omega
  · omega

theorem kept_of_good {chunks : List Bytes} (hbuf : f.buf = [])
    (hgood : (drainAll (frameVerdict f.maxPayloadSize) chunks.flatten).bad = false) :
    Kept f chunks := by
  have hp := frameVerdict_prompt f.maxPayloadSize
  have hmore : frameVerdict f.maxPayloadSize f.buf = .more := by rw [hbuf]; rfl
  obtain ⟨frames, he, hf⟩ := feedAll_eq chunks hmore (by simpa [hbuf] using hgood)
  simp only [hbuf, List.nil_append] at he hf
  have hrest := drainAll_rest hp _ hgood
  refine ⟨frames, ?_, ?_, ?_, ?_⟩
  · rw [he]
  · rw [he, hf]
    exact drainAll_flatten hp _ hgood
  · rw [he]
    exact length_lt_of_more hrest
  · rw [he]
    exact hrest

end

/-- Every list of requests whose payloads fit the size field and the framer's
limit comes through every segmentation of its encoding. -/
theorem requests_round_trip (f : Framer) (hbuf : f.buf = []) (requests : List ClientRequest)
    (hsize : ∀ r ∈ requests, r.payload.length ≤ f.maxPayloadSize ∧ r.payload.length < 2 ^ 32)
    (chunks : List Bytes)
    (hcut : chunks.flatten = (requests.map ClientRequest.encode).flatten) :
    RoundTrip f requests chunks := by
  have hp := frameVerdict_prompt f.maxPayloadSize
  have hall : drainAll (frameVerdict f.maxPayloadSize) chunks.flatten =
      ⟨requests.map ClientRequest.encode, [], false⟩ := by
    rw [hcut]
    refine drainAll_units hp _ rfl fun u hu => ?_
    obtain ⟨r, hr, rfl⟩ := List.mem_map.mp hu
    exact frameVerdict_encode (hsize r hr).1 (hsize r hr).2
  have hgood : (drainAll (frameVerdict f.maxPayloadSize) chunks.flatten).bad = false := by rw [hall]
  obtain ⟨frames, he, hf⟩ := feedAll_eq chunks (by rw [hbuf]; rfl)
    (by simpa [hbuf] using hgood)
  simp only [hbuf, List.nil_append, hall] at he hf
  refine ⟨⟨frames, by rw [he], hf⟩, by rw [he], fun k => kept_of_good hbuf ?_, fun r hr => ?_⟩
  · by_contra hb
    have hsplit : (chunks.take k).flatten ++ (chunks.drop k).flatten = chunks.flatten := by
      rw [← List.flatten_append, List.take_append_drop]
    have := drainAll_bad_append hp _ (chunks.drop k).flatten (by simpa using hb)
    rw [hsplit, hgood] at this
    exact Bool.noConfusion this
  · exact routedAs_encode (hsize r hr).2

/-- Two requests cut inside the first header and inside the second payload. -/
theorem requests_round_trip_cut : RoundTrip ⟨10, by decide, []⟩
    [⟨zeroClientId, 3, 830, []⟩, ⟨zeroClientId, 3, 900, [97, 0]⟩]
    [List.replicate 16 0 ++ [3, 62], [3, 0, 0, 0, 0] ++ List.replicate 16 0 ++
      [3, 132, 3, 2, 0, 0, 0, 97], [0]] :=
  requests_round_trip _ rfl _ (by decide) _ (by decide)

/-- A payload that outgrows the size field announces less than it holds: the
framer cuts its frame short or refuses it. -/
theorem not_roundTrip_of_wrapped {f : Framer} {r : ClientRequest} (hbuf : f.buf = [])
    (hlen : 256 ^ 4 ≤ r.payload.length) : ¬ RoundTrip f [r] [r.encode] := by
  intro h
  obtain ⟨frames, he, hf⟩ := h.all_frames
  have hp := frameVerdict_prompt f.maxPayloadSize
  have hlong := length_encode r
  have hsmall : payloadSize r.encode < 256 ^ 4 := by
    rw [payloadSize_encode]
    exact Nat.mod_lt _ (by positivity)
  have hne : r.encode ≠ [] := by
    intro hnil
    rw [hnil, headerLen, List.length_nil] at hlong
    omega
  simp only [feedAll, Framer.feed, hne, if_false, hbuf, List.nil_append] at he
  by_cases hm : payloadSize r.encode ≤ f.maxPayloadSize
  · -- the first frame ends inside the payload
    have hv : frameVerdict f.maxPayloadSize r.encode =
        .unit (headerLen + payloadSize r.encode) := by
      rw [frameVerdict_unit, hlong]
      omega
    rw [drainAll_unit hp hv] at he
    split_ifs at he with hb
    have hu := (Option.some.inj he).symm
    rw [hu] at hf
    simp only [List.flatten_cons, List.flatten_nil, List.append_nil, List.map_cons, List.map_nil,
      List.cons.injEq] at hf
    have hcut := congrArg List.length hf.1
    rw [List.length_take, hlong] at hcut
    omega
  · have hv : frameVerdict f.maxPayloadSize r.encode = .bad := by
      rw [frameVerdict_bad, hlong]
      omega
    simp [drainAll_bad hv] at he

/-- A payload of `2 ^ 32` bytes is within the limit of a framer that allows so
much, and does not come through. -/
theorem requests_round_trip_fails_at_four_gib :
    (List.replicate (2 ^ 32) (0 : UInt8)).length ≤ 2 ^ 32 ∧
      ¬ RoundTrip ⟨2 ^ 32, by decide, []⟩ [⟨zeroClientId, 3, 828, List.replicate (2 ^ 32) 0⟩]
        [(ClientRequest.mk zeroClientId 3 828 (List.replicate (2 ^ 32) 0)).encode] :=
  ⟨by rw [List.length_replicate],
    not_roundTrip_of_wrapped rfl (by rw [List.length_replicate]; omega)⟩

end Seftp.RequestRoundTrip
