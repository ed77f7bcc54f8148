import Seftp.LittleEndian
import Mathlib.Tactic.IntervalCases

/-!
# Base64

The encoder of RFC 4648 without line breaks, and a decoder that reads one
character at a time and keeps the bits of an unfinished group of four. The
lenient decoder skips what is not in the alphabet and stops at the padding that
completes a group; the strict one refuses anything that is not an encoding.
-/
namespace Seftp.Base64
open LittleEndian

/-- The digit of value `v`. -/
def digit (v : ℕ) : Char :=
  if v < 26 then Char.ofNat (65 + v)
  else if v < 52 then Char.ofNat (71 + v)
  else if v < 62 then Char.ofNat (v - 4)
  else if v = 62 then '+'
  else '/'

/-- The value of a digit. -/
def value (c : Char) : Option ℕ :=
  if 'A' ≤ c ∧ c ≤ 'Z' then some (c.toNat - 65)
  else if 'a' ≤ c ∧ c ≤ 'z' then some (c.toNat - 71)
  else if '0' ≤ c ∧ c ≤ '9' then some (c.toNat + 4)
  else if c = '+' then some 62
  else if c = '/' then some 63
  else none

theorem value_digit {v : ℕ} (h : v < 64) : value (digit v) = some v := by
  interval_cases v <;> rfl

theorem digit_ne_pad {v : ℕ} (h : v < 64) : digit v ≠ '=' := by
  interval_cases v <;> decide

/-- Groups of three bytes become four digits; a shorter last group is padded. -/
def encode : Bytes → List Char
  | [] => []
  | [a] => [digit (a.toNat / 4), digit (a.toNat % 4 * 16), '=', '=']
  | [a, b] =>
      [digit (a.toNat / 4), digit (a.toNat % 4 * 16 + b.toNat / 16), digit (b.toNat % 16 * 4), '=']
  | a :: b :: c :: rest =>
      digit (a.toNat / 4) :: digit (a.toNat % 4 * 16 + b.toNat / 16) ::
        digit (b.toNat % 16 * 4 + c.toNat / 64) :: digit (c.toNat % 64) :: encode rest

/-- The digits are visible ASCII characters. -/
theorem digit_range (v : ℕ) : 32 < (digit v).toNat ∧ (digit v).toNat < 128 := by
  rcases Nat.lt_or_ge v 62 with h | h
  · interval_cases v <;> decide
  · unfold digit
    rw [if_neg (by omega), if_neg (by omega), if_neg (by omega)]
    split <;> decide

/-- So is every character of an encoding. -/
theorem encode_range (bs : Bytes) : ∀ c ∈ encode bs, 32 < c.toNat ∧ c.toNat < 128 := by
  have hpad : 32 < '='.toNat ∧ '='.toNat < 128 := by decide
  induction bs using encode.induct with
  | case1 => simp [encode]
  | case2 a =>
      simp only [encode, List.forall_mem_cons]
      exact ⟨digit_range _, digit_range _, hpad, hpad, by simp⟩
  | case3 a b =>
      simp only [encode, List.forall_mem_cons]
      exact ⟨digit_range _, digit_range _, digit_range _, hpad, by simp⟩
  | case4 a b c rest ih =>
      simp only [encode, List.forall_mem_cons]
      exact ⟨digit_range _, digit_range _, digit_range _, digit_range _, ih⟩

theorem encode_ascii (bs : Bytes) : ∀ c ∈ encode bs, c.toNat < 128 :=
  fun c hc => (encode_range bs c hc).2

/-- `group` digits of the current group have been read, `left` holds their bits
that are not yet in a byte, `pads` counts padding since the last digit, and
`padded` says that padding has begun. Strict decoding follows the documented behaviour
and refuses padding after whole groups, which CPython 3.11 still accepts. -/
def decodeFrom (strict : Bool) : (group left pads : ℕ) → (padded : Bool) → List Char →
    Option Bytes
  | group, _, _, _, [] => if group = 0 then some [] else none
  | group, left, pads, padded, c :: cs =>
      if c = '=' then
        if strict ∧ group = 0 then none
        else if 2 ≤ group ∧ 4 ≤ group + (pads + 1) then
          if strict ∧ cs ≠ [] then none else some []
        else decodeFrom strict group left (if 2 ≤ group then pads + 1 else pads) true cs
      else
        match value c with
        | none => if strict then none else decodeFrom strict group left pads padded cs
        | some v =>
            if strict ∧ padded then none
            else
              match group with
              | 0 => decodeFrom strict 1 v 0 padded cs
              | 1 => (decodeFrom strict 2 (v % 16) 0 padded cs).map
                  (UInt8.ofNat (left * 4 + v / 16) :: ·)
              | 2 => (decodeFrom strict 3 (v % 4) 0 padded cs).map
                  (UInt8.ofNat (left * 16 + v / 4) :: ·)
              | _ => (decodeFrom strict 0 0 0 padded cs).map (UInt8.ofNat (left * 64 + v) :: ·)

def decode (strict : Bool) (cs : List Char) : Option Bytes := decodeFrom strict 0 0 0 false cs

/-- What the digit of value `v` does at each place of a group. -/
theorem decodeFrom_digit (strict : Bool) (left pads v : ℕ) (cs : List Char) (h : v < 64) :
    decodeFrom strict 0 left pads false (digit v :: cs) = decodeFrom strict 1 v 0 false cs ∧
    decodeFrom strict 1 left pads false (digit v :: cs) =
      (decodeFrom strict 2 (v % 16) 0 false cs).map (UInt8.ofNat (left * 4 + v / 16) :: ·) ∧
    decodeFrom strict 2 left pads false (digit v :: cs) =
      (decodeFrom strict 3 (v % 4) 0 false cs).map (UInt8.ofNat (left * 16 + v / 4) :: ·) ∧
    decodeFrom strict 3 left pads false (digit v :: cs) =
      (decodeFrom strict 0 0 0 false cs).map (UInt8.ofNat (left * 64 + v) :: ·) := by
  refine ⟨?_, ?_, ?_, ?_⟩ <;> rw [decodeFrom.eq_def] <;> simp [digit_ne_pad h, value_digit h]

theorem ofNat_eq_of {n : ℕ} {a : UInt8} (h : n = a.toNat) : UInt8.ofNat n = a := by
  rw [h, UInt8.ofNat_toNat]

/-- Both decoders undo the encoder. -/
theorem decode_encode (strict : Bool) (bs : Bytes) : decode strict (encode bs) = some bs := by
  induction bs using encode.induct with
  | case1 => rfl
  | case2 a =>
      have ha := a.toNat_lt
      have h₁ := ofNat_eq_of (show a.toNat / 4 * 4 + a.toNat % 4 * 16 / 16 = a.toNat by omega)
      rw [decode, encode, (decodeFrom_digit _ _ _ _ _ (by omega)).1,
        (decodeFrom_digit _ _ _ _ _ (by omega)).2.1, h₁]
      simp [decodeFrom]
  | case3 a b =>
      have ha := a.toNat_lt
      have hb := b.toNat_lt
      have h₁ := ofNat_eq_of (show a.toNat / 4 * 4 + (a.toNat % 4 * 16 + b.toNat / 16) / 16 =
        a.toNat by omega)
      have h₂ := ofNat_eq_of (show (a.toNat % 4 * 16 + b.toNat / 16) % 16 * 16 +
        b.toNat % 16 * 4 / 4 = b.toNat by omega)
      rw [decode, encode, (decodeFrom_digit _ _ _ _ _ (by omega)).1,
        (decodeFrom_digit _ _ _ _ _ (by omega)).2.1,
        (decodeFrom_digit _ _ _ _ _ (by omega)).2.2.1, h₁, h₂]
      simp [decodeFrom]
  | case4 a b c rest ih =>
      have ha := a.toNat_lt
      have hb := b.toNat_lt
      have hc := c.toNat_lt
      have h₁ := ofNat_eq_of (show a.toNat / 4 * 4 + (a.toNat % 4 * 16 + b.toNat / 16) / 16 =
        a.toNat by omega)
      have h₂ := ofNat_eq_of (show (a.toNat % 4 * 16 + b.toNat / 16) % 16 * 16 +
        (b.toNat % 16 * 4 + c.toNat / 64) / 4 = b.toNat by omega)
      have h₃ := ofNat_eq_of (show (b.toNat % 16 * 4 + c.toNat / 64) % 4 * 64 + c.toNat % 64 =
        c.toNat by omega)
      rw [decode] at ih ⊢
      rw [encode, (decodeFrom_digit _ _ _ _ _ (by omega)).1,
        (decodeFrom_digit _ _ _ _ _ (by omega)).2.1,
        (decodeFrom_digit _ _ _ _ _ (by omega)).2.2.1,
        (decodeFrom_digit _ _ _ _ _ (by omega)).2.2.2, ih, h₁, h₂, h₃]
      rfl

end Seftp.Base64
