import Seftp.Framing

/-!
# Streams with an oversized header

What the connection loop is handed before the framer first raises. The header
that announces too much is met inside the pass over the buffer, and the frames
which that same pass has already taken go with the exception. So the frames
handed over depend on where the stream was cut: none is lost exactly when the
stream was cut somewhere between the last good frame and the end of the offending
header.
-/
namespace Seftp.MalformedStreams
open LittleEndian StreamCutting Framing

/-- The frames of the calls before the first that raises. -/
def delivered (f : Framer) : List Bytes → List Bytes
  | [] => []
  | c :: cs =>
      match f.feed c with
      | (none, _) => []
      | (some frames, g) => frames ++ delivered g cs

/-- One frame, from its header to the end of the payload it announces. -/
def Complete (m : ℕ) (u : Bytes) : Prop :=
  headerLen ≤ u.length ∧ payloadSize u ≤ m ∧ u.length = headerLen + payloadSize u

/-- A complete header that announces more than the limit. -/
def Offending (m : ℕ) (rest : Bytes) : Prop := headerLen ≤ rest.length ∧ m < payloadSize rest

/-- The complete frames at the front of a stream, and what follows the last. -/
structure Leading (m : ℕ) (stream : Bytes) (frames : List Bytes) (rest : Bytes) : Prop where
  split : stream = frames.flatten ++ rest
  complete : ∀ u ∈ frames, Complete m u
  maximal : ∀ u, Complete m u → ¬ u <+: rest

/-- A call ended after the last of the frames and before the end of the header
that follows them. -/
def CutBetween (frames cuts : List Bytes) : Prop :=
  ∃ k, frames.flatten.length ≤ (cuts.take k).flatten.length ∧
    (cuts.take k).flatten.length < frames.flatten.length + headerLen

section
variable {m : ℕ} {stream rest : Bytes} {frames : List Bytes}

theorem frameVerdict_complete {u : Bytes} (h : Complete m u) :
    frameVerdict m u = .unit u.length := by
  obtain ⟨hheader, hsize, hlen⟩ := h
  rw [frameVerdict_unit]
  omega

theorem complete_take {buf : Bytes} {n : ℕ} (h : frameVerdict m buf = .unit n) :
    Complete m (buf.take n) := by
  obtain ⟨hheader, hsize, hn, hle⟩ := frameVerdict_unit.mp h
  have hlen : (buf.take n).length = n := by
    rw [List.length_take]
    omega
  have hsame : payloadSize (buf.take n) = payloadSize buf := by
    rw [← payloadSize_append (buf.drop n) (by omega), List.take_append_drop]
  refine ⟨?_, ?_, ?_⟩
  · omega
  · omega
  · omega

/-- One pass over the stream finds the frames and raises at an offending header. -/
theorem drainAll_leading (h : Leading m stream frames rest) :
    (drainAll (frameVerdict m) stream).units = frames ∧
      ((drainAll (frameVerdict m) stream).bad = true ↔ Offending m rest) := by
  have hp := frameVerdict_prompt m
  obtain ⟨rfl, hcomplete, hmaximal⟩ := h
  induction frames with
  | nil =>
      rw [List.flatten_nil, List.nil_append]
      cases hv : frameVerdict m rest with
      | more =>
          have hno : ¬ Offending m rest := by
            intro hoff
            rw [frameVerdict_bad.mpr hoff] at hv
            cases hv
          simp [drainAll_more hv, hno]
      | bad => simp [drainAll_bad hv, Offending, frameVerdict_bad.mp hv]
      | unit n => exact (hmaximal _ (complete_take hv) (List.take_prefix n rest)).elim
  | cons u us ih =>
      have hu := frameVerdict_complete (hcomplete u (by simp))
      obtain ⟨hunits, hbad⟩ := ih fun v hv => hcomplete v (by simp [hv])
      have hv := hp.unit_append (us.flatten ++ rest) hu
      rw [List.flatten_cons, List.append_assoc, drainAll_unit hp hv, List.take_left, List.drop_left]
      exact ⟨by rw [hunits], hbad⟩

theorem exists_leading (m : ℕ) (stream : Bytes) : ∃ frames rest, Leading m stream frames rest := by
  have hp := frameVerdict_prompt m
  have hstuck {buf : Bytes} (hv : ∀ n, frameVerdict m buf ≠ .unit n) : Leading m buf [] buf := by
    refine ⟨by simp, by simp, fun u hu hpre => ?_⟩
    obtain ⟨later, rfl⟩ := hpre
    exact hv _ (hp.unit_append later (frameVerdict_complete hu))
  induction stream using cut_induction hp with
  | more buf hv => exact ⟨[], buf, hstuck (by simp [hv])⟩
  | bad buf hv => exact ⟨[], buf, hstuck (by simp [hv])⟩
  | unit buf n hv ih =>
      obtain ⟨frames, rest, hsplit, hcomplete, hmaximal⟩ := ih
      refine ⟨buf.take n :: frames, rest, ?_, ?_, hmaximal⟩
      · rw [List.flatten_cons, List.append_assoc, ← hsplit, List.take_append_drop]
      · intro u hu
        rcases List.mem_cons.mp hu with rfl | hu
        · exact complete_take hv
        · exact hcomplete u hu

end

section
variable {m : ℕ} {rest : Bytes} {frames : List Bytes}

/-- No frame starts where a header offends. -/
theorem leading_offending (hcomplete : ∀ u ∈ frames, Complete m u) (hoff : Offending m rest) :
    Leading m (frames.flatten ++ rest) frames rest := by
  refine ⟨rfl, hcomplete, fun u hu hpre => ?_⟩
  obtain ⟨later, rfl⟩ := hpre
  have hv := (frameVerdict_prompt m).unit_append later (frameVerdict_complete hu)
  rw [frameVerdict_bad.mpr hoff] at hv
  cases hv

theorem offending_append {later : Bytes} (h : headerLen ≤ rest.length) :
    Offending m (rest ++ later) ↔ Offending m rest := by
  simp only [Offending, payloadSize_append later h, List.length_append]
  omega

/-- A part of the stream makes the framer raise when it reaches to the end of
the offending header. -/
theorem drainAll_bad_iff {q later : Bytes} (h : Leading m (q ++ later) frames rest)
    (hoff : Offending m rest) :
    (drainAll (frameVerdict m) q).bad = true ↔ frames.flatten.length + headerLen ≤ q.length := by
  constructor
  · intro hbad
    obtain ⟨fs, r, hq⟩ := exists_leading m q
    have hr : Offending m r := (drainAll_leading hq).2.mp hbad
    have hlong : Leading m (q ++ later) fs (r ++ later) := by
      rw [hq.split, List.append_assoc]
      exact leading_offending hq.complete ((offending_append hr.1).mpr hr)
    have hsame : fs = frames := (drainAll_leading hlong).1.symm.trans (drainAll_leading h).1
    rw [hq.split, hsame, List.length_append]
    exact Nat.add_le_add_left hr.1 _
  · intro hlen
    obtain ⟨r, hr⟩ : frames.flatten <+: q :=
      List.prefix_of_prefix_length_le ⟨rest, h.split.symm⟩ ⟨later, rfl⟩ (by omega)
    have hrest : rest = r ++ later := by
      have := h.split
      rw [← hr, List.append_assoc] at this
      exact (List.append_cancel_left this).symm
    have hheader : headerLen ≤ r.length := by
      rw [← hr, List.length_append] at hlen
      omega
    have hoff' : Offending m r := (offending_append hheader).mp (hrest ▸ hoff)
    have hq : Leading m q frames r := hr ▸ leading_offending h.complete hoff'
    exact (drainAll_leading hq).2.mpr hoff'

end

section
variable {f : Framer}

/-- What is left in the buffer by a call. -/
def fedWith (f : Framer) (c : Bytes) : Framer :=
  { f with buf := (drainAll (frameVerdict f.maxPayloadSize) (f.buf ++ c)).rest }

/-- A call is one pass over the buffer with the chunk, also for an empty chunk. -/
theorem delivered_cons (c : Bytes) (cs : List Bytes)
    (hmore : frameVerdict f.maxPayloadSize f.buf = .more) :
    delivered f (c :: cs) =
      if (drainAll (frameVerdict f.maxPayloadSize) (f.buf ++ c)).bad then []
      else (drainAll (frameVerdict f.maxPayloadSize) (f.buf ++ c)).units ++
        delivered (fedWith f c) cs := by
  by_cases hc : c = []
  · subst hc
    simp [delivered, Framer.feed, fedWith, drainAll_more hmore]
  · cases hd : (drainAll (frameVerdict f.maxPayloadSize) (f.buf ++ c)).bad with
    | true => simp [delivered, Framer.feed, hc, hd]
    | false => simp [delivered, Framer.feed, fedWith, hc, hd]

/-- Without an offending header everything is handed over. -/
theorem delivered_good (cuts : List Bytes) (hmore : frameVerdict f.maxPayloadSize f.buf = .more)
    (hgood : (drainAll (frameVerdict f.maxPayloadSize) (f.buf ++ cuts.flatten)).bad = false) :
    delivered f cuts =
      (drainAll (frameVerdict f.maxPayloadSize) (f.buf ++ cuts.flatten)).units := by
  have hp := frameVerdict_prompt f.maxPayloadSize
  induction cuts generalizing f with
  | nil => simp [delivered, drainAll_more hmore]
  | cons c cs ih =>
      rw [List.flatten_cons, ← List.append_assoc] at hgood ⊢
      have hd : (drainAll (frameVerdict f.maxPayloadSize) (f.buf ++ c)).bad = false := by
        by_contra hb
        rw [drainAll_bad_append hp _ _ (by simpa using hb)] at hgood
        cases hgood
      rw [drainAll_append hp _ _ hd] at hgood ⊢
      rw [delivered_cons c cs hmore, hd, ih (f := fedWith f c) (drainAll_rest hp _ hd) hgood hp]
      rfl

section
variable {frames : List Bytes} {rest later : Bytes}

/-- A buffer that asks for more ends before the offending header does. -/
theorem buf_short (hmore : frameVerdict f.maxPayloadSize f.buf = .more)
    (h : Leading f.maxPayloadSize (f.buf ++ later) frames rest)
    (hoff : Offending f.maxPayloadSize rest) :
    f.buf.length < frames.flatten.length + headerLen := by
  by_contra hlen
  have := (drainAll_bad_iff h hoff).mpr (by omega)
  rw [drainAll_more hmore] at this
  cases this

/-- It holds no frame. -/
theorem frames_nil (hmore : frameVerdict f.maxPayloadSize f.buf = .more)
    (h : Leading f.maxPayloadSize (f.buf ++ later) frames rest)
    (hlen : frames.flatten.length ≤ f.buf.length) : frames = [] := by
  have hp := frameVerdict_prompt f.maxPayloadSize
  cases frames with
  | nil => rfl
  | cons u us =>
      have hpre : u <+: f.buf := by
        apply List.prefix_of_prefix_length_le ⟨us.flatten ++ rest, ?_⟩ ⟨later, rfl⟩
        · simp only [List.flatten_cons, List.length_append] at hlen
          omega
        · rw [h.split, List.flatten_cons, List.append_assoc]
      obtain ⟨r, hr⟩ := hpre
      have hv := hp.unit_append r (frameVerdict_complete (h.complete u (by simp)))
      rw [hr, hmore] at hv
      cases hv

end

/-- Before an offending header everything is handed over when a call ended
between the last frame and the end of that header. The induction is on the calls;
`buf` is what the earlier ones left. -/
theorem delivered_bad {frames : List Bytes} {rest : Bytes} (cuts : List Bytes)
    (hmore : frameVerdict f.maxPayloadSize f.buf = .more)
    (h : Leading f.maxPayloadSize (f.buf ++ cuts.flatten) frames rest)
    (hoff : Offending f.maxPayloadSize rest) :
    delivered f cuts = frames ↔
      ∃ k, frames.flatten.length ≤ f.buf.length + (cuts.take k).flatten.length ∧
        f.buf.length + (cuts.take k).flatten.length < frames.flatten.length + headerLen := by
  have hp := frameVerdict_prompt f.maxPayloadSize
  induction cuts generalizing f frames rest with
  | nil =>
      have hshort := buf_short hmore h hoff
      have hbuf : f.buf = frames.flatten ++ rest := by simpa using h.split
      rw [hbuf, List.length_append] at hshort
      have := hoff.1
      omega
  | cons c cs ih =>
      have hshort := buf_short hmore h hoff
      have hsplit : f.buf ++ (c :: cs).flatten = (f.buf ++ c) ++ cs.flatten := by simp
      cases hd : (drainAll (frameVerdict f.maxPayloadSize) (f.buf ++ c)).bad with
      | true =>
          -- this call raises, and its own frames are lost
          have hreach := (drainAll_bad_iff (hsplit ▸ h) hoff).mp hd
          rw [delivered_cons c cs hmore, hd, if_pos rfl]
          constructor
          · intro hnil
            exact ⟨0, by simp [← hnil], by simpa using hshort⟩
          · rintro ⟨k, hle, hlt⟩
            cases k with
            | zero => exact (frames_nil hmore h (by simpa using hle)).symm
            | succ k =>
                simp only [List.take_succ_cons, List.flatten_cons, List.length_append] at hlt hreach
                omega
      | false =>
          obtain ⟨later, r, hlater⟩ := exists_leading f.maxPayloadSize
            ((fedWith f c).buf ++ cs.flatten)
          have hall := drainAll_append hp (f.buf ++ c) cs.flatten hd
          have hbytes := congrArg List.length (drainAll_flatten hp _ hd)
          have hframes : frames =
              (drainAll (frameVerdict f.maxPayloadSize) (f.buf ++ c)).units ++ later := by
            rw [← (drainAll_leading h).1, hsplit, hall, ← (drainAll_leading hlater).1]
            rfl
          have hoff' : Offending f.maxPayloadSize r := by
            apply (drainAll_leading hlater).2.mp
            have := (drainAll_leading h).2.mpr hoff
            rw [hsplit, hall] at this
            exact this
          have hnext := ih (f := fedWith f c) (drainAll_rest hp _ hd) hlater hoff' hp
          rw [delivered_cons c cs hmore, hd]
          simp only [Bool.false_eq_true, if_false]
          rw [hframes, List.append_right_inj]
          apply hnext.trans
          simp only [fedWith, List.flatten_append, List.length_append] at hbytes ⊢
          constructor
          · rintro ⟨k, hle, hlt⟩
            refine ⟨k + 1, ?_, ?_⟩ <;>
              simp only [List.take_succ_cons, List.flatten_cons, List.length_append] <;> omega
          · rintro ⟨k, hle, hlt⟩
            cases k with
            | succ k =>
                simp only [List.take_succ_cons, List.flatten_cons, List.length_append] at hle hlt
                exact ⟨k, by omega, by omega⟩
            | zero =>
                have hnil := frames_nil hmore h (by
                  rw [hframes, List.flatten_append, List.length_append]
                  simpa using hle)
                have hlater_nil : later = [] := (List.append_eq_nil_iff.mp (hframes ▸ hnil)).2
                have hbuf := buf_short (f := fedWith f c) (drainAll_rest hp _ hd) hlater hoff'
                exact ⟨0, by simp [hlater_nil], by simpa [fedWith] using hbuf⟩

/-- What the connection loop is handed of a fresh framer's stream. -/
theorem delivered_iff {frames : List Bytes} {rest : Bytes} (cuts : List Bytes) (hbuf : f.buf = [])
    (h : Leading f.maxPayloadSize cuts.flatten frames rest) :
    delivered f cuts = frames ↔ (Offending f.maxPayloadSize rest → CutBetween frames cuts) := by
  have hmore : frameVerdict f.maxPayloadSize f.buf = .more := by
    rw [hbuf]
    rfl
  have hstream : f.buf ++ cuts.flatten = cuts.flatten := by rw [hbuf, List.nil_append]
  by_cases hoff : Offending f.maxPayloadSize rest
  · have hiff := delivered_bad cuts hmore (hstream ▸ h) hoff
    simp only [hbuf, List.length_nil, Nat.zero_add] at hiff
    exact hiff.trans ⟨fun hcut _ => hcut, fun hcut => hcut hoff⟩
  · have hgood : (drainAll (frameVerdict f.maxPayloadSize) cuts.flatten).bad = false := by
      by_contra hb
      exact hoff ((drainAll_leading h).2.mp (by simpa using hb))
    rw [← hstream] at hgood
    have hall := delivered_good cuts hmore hgood
    rw [hstream, (drainAll_leading h).1] at hall
    exact ⟨fun _ hno => (hoff hno).elim, fun _ => hall⟩

end

/-- Two segmentations of one stream hand over the same frames, and all that come
before the offending header, exactly when each was cut between those frames and
the end of that header. -/
theorem same_frames_iff (f : Framer) (hbuf : f.buf = []) (cuts₁ cuts₂ : List Bytes)
    (hsame : cuts₁.flatten = cuts₂.flatten) :
    ∃ frames rest, Leading f.maxPayloadSize cuts₁.flatten frames rest ∧
      (delivered f cuts₁ = delivered f cuts₂ ∧ delivered f cuts₁ = frames ↔
        (Offending f.maxPayloadSize rest → CutBetween frames cuts₁ ∧ CutBetween frames cuts₂)) := by
  obtain ⟨frames, rest, h⟩ := exists_leading f.maxPayloadSize cuts₁.flatten
  have h₁ := delivered_iff cuts₁ hbuf h
  have h₂ := delivered_iff cuts₂ hbuf (hsame ▸ h)
  refine ⟨frames, rest, h, ?_⟩
  constructor
  · rintro ⟨heq, hall⟩ hoff
    exact ⟨h₁.mp hall hoff, h₂.mp (heq.symm.trans hall) hoff⟩
  · intro hcut
    have hall := h₁.mpr fun hoff => (hcut hoff).1
    exact ⟨hall.trans (h₂.mpr fun hoff => (hcut hoff).2).symm, hall⟩

/-- A frame without payload for request 830. -/
def emptyFrame : Bytes := List.replicate 16 0 ++ [3, 62, 3, 0, 0, 0, 0]

/-- A header that announces six bytes. -/
def sixByteHeader : Bytes := List.replicate 16 0 ++ [3, 60, 3, 6, 0, 0, 0]

theorem same_frames_iff_six_bytes :
    [emptyFrame, sixByteHeader].flatten = [emptyFrame ++ [0], sixByteHeader.tail].flatten ∧
      ∃ frames rest, Leading 5 [emptyFrame, sixByteHeader].flatten frames rest ∧
        (delivered ⟨5, by decide, []⟩ [emptyFrame, sixByteHeader] =
            delivered ⟨5, by decide, []⟩ [emptyFrame ++ [0], sixByteHeader.tail] ∧
          delivered ⟨5, by decide, []⟩ [emptyFrame, sixByteHeader] = frames ↔
          (Offending 5 rest → CutBetween frames [emptyFrame, sixByteHeader] ∧
            CutBetween frames [emptyFrame ++ [0], sixByteHeader.tail])) :=
  ⟨by decide, same_frames_iff ⟨5, by decide, []⟩ rfl _ _ (by decide)⟩

/-- In one piece the good frame is lost with the header behind it. -/
theorem frame_lost_in_one_piece :
    [emptyFrame, sixByteHeader].flatten = [emptyFrame ++ sixByteHeader].flatten ∧
      delivered ⟨5, by decide, []⟩ [emptyFrame, sixByteHeader] = [emptyFrame] ∧
      delivered ⟨5, by decide, []⟩ [emptyFrame ++ sixByteHeader] = [] := by
  decide

end Seftp.MalformedStreams
