import Seftp.LittleEndian
import Seftp.StreamCutting

/-!
# The server's framer

`Framer` keeps the bytes of an unfinished frame between reads. The decision made
at the top of its loop is `frameVerdict`; the loop itself is the general pass of
`StreamCutting`. When a header announces too much, the buffer is dropped and the
frames already found in the same call are lost with the exception.
-/
namespace Seftp.Framing
open LittleEndian StreamCutting

def headerLen : ℕ := 23
def payloadSizeOffset : ℕ := 19

/-- The constructor raises unless the limit is positive. -/
structure Framer where
  maxPayloadSize : ℕ
  positive : 0 < maxPayloadSize
  buf : Bytes := []

/-- `payload_size` as the header at the front of the buffer gives it. -/
def payloadSize (buf : Bytes) : ℕ := leNat ((buf.drop payloadSizeOffset).take 4)

def frameVerdict (maxPayloadSize : ℕ) (buf : Bytes) : Verdict :=
  if buf.length < headerLen then .more
  else if maxPayloadSize < payloadSize buf then .bad
  else if buf.length < headerLen + payloadSize buf then .more
  else .unit (headerLen + payloadSize buf)

/-- The frames of one call, or `none` for the `ValueError` of an oversized
header. -/
def Framer.feed (f : Framer) (chunk : Bytes) : Option (List Bytes) × Framer :=
  if chunk = [] then (some [], f)
  else
    let d := drainAll (frameVerdict f.maxPayloadSize) (f.buf ++ chunk)
    (if d.bad then none else some d.units, { f with buf := d.rest })

theorem payloadSize_append {buf : Bytes} (later : Bytes) (h : headerLen ≤ buf.length) :
    payloadSize (buf ++ later) = payloadSize buf := by
  simp only [headerLen] at h
  rw [payloadSize, payloadSize, payloadSizeOffset, List.drop_append_of_le_length (by omega),
    List.take_append_of_le_length (by rw [List.length_drop]; omega)]

theorem frameVerdict_unit {m n : ℕ} {buf : Bytes} :
    frameVerdict m buf = .unit n ↔
      headerLen ≤ buf.length ∧ payloadSize buf ≤ m ∧ n = headerLen + payloadSize buf ∧
        n ≤ buf.length := by
  unfold frameVerdict
  split_ifs with h₁ h₂ h₃
  · simp only [false_iff]
    omega
  · simp only [false_iff]
    omega
  · simp only [false_iff]
    omega
  · simp only [Verdict.unit.injEq]
    omega

theorem frameVerdict_bad {m : ℕ} {buf : Bytes} :
    frameVerdict m buf = .bad ↔ headerLen ≤ buf.length ∧ m < payloadSize buf := by
  unfold frameVerdict
  split_ifs with h₁ h₂ h₃ <;> simp only [false_iff, true_iff] <;> omega

/-- A complete header settles the verdict for good, and a frame has at least its
header. -/
theorem frameVerdict_prompt (m : ℕ) : Prompt (frameVerdict m) where
  unit_pos h := by
    have h' := frameVerdict_unit.mp h
    simp only [headerLen] at h'
    omega
  unit_le h := (frameVerdict_unit.mp h).2.2.2
  unit_append later h := by
    have h' := frameVerdict_unit.mp h
    rw [frameVerdict_unit, payloadSize_append later h'.1, List.length_append]
    omega
  bad_append later h := by
    have h' := frameVerdict_bad.mp h
    rw [frameVerdict_bad, payloadSize_append later h'.1, List.length_append]
    omega

end Seftp.Framing
