import Seftp.LittleEndian
import Mathlib.Tactic.Linarith

/-!
# Cipher block chaining and PKCS#7 padding

The block cipher is a pair of functions on byte strings of one block. Chaining
is stated on lists of blocks, where it is a plain recursion, and lifted to byte
strings whose length is a multiple of the block size. A decryption that stops
between two blocks is resumed from the last ciphertext block alone, so a stream
may be decrypted piece by piece.
-/
namespace Seftp.BlockChaining
open LittleEndian

/-- Bytewise exclusive or of two strings of one length. -/
def xorBytes (a b : Bytes) : Bytes := List.zipWith (· ^^^ ·) a b

@[simp] theorem length_xorBytes (a b : Bytes) :
    (xorBytes a b).length = min a.length b.length := List.length_zipWith

theorem xorBytes_cancel {a b : Bytes} (h : a.length = b.length) :
    xorBytes (xorBytes a b) b = a := by
  induction a generalizing b with
  | nil => rfl
  | cons x a ih =>
      obtain _ | ⟨y, b⟩ := b
      · simp at h
      · simp only [List.length_cons, Nat.add_right_cancel_iff] at h
        simp only [xorBytes, List.zipWith_cons_cons] at ih ⊢
        rw [ih h, UInt8.xor_assoc, UInt8.xor_self, UInt8.xor_zero]

theorem getLastD_append {α : Type} (a b : List α) (d : α) :
    (a ++ b).getLastD d = b.getLastD (a.getLastD d) := by
  induction a generalizing d with
  | nil => rfl
  | cons x a ih => rw [List.cons_append, List.getLastD_cons, List.getLastD_cons, ih]

/-! ### Chaining on blocks -/

section
variable (enc dec : Bytes → Bytes)

def chainEncrypt : Bytes → List Bytes → List Bytes
  | _, [] => []
  | prev, b :: bs => enc (xorBytes b prev) :: chainEncrypt (enc (xorBytes b prev)) bs

def chainDecrypt : Bytes → List Bytes → List Bytes
  | _, [] => []
  | prev, c :: cs => xorBytes (dec c) prev :: chainDecrypt c cs

theorem chainDecrypt_append (prev : Bytes) (cs ds : List Bytes) :
    chainDecrypt dec prev (cs ++ ds) =
      chainDecrypt dec prev cs ++ chainDecrypt dec (cs.getLastD prev) ds := by
  induction cs generalizing prev with
  | nil => rfl
  | cons c cs ih =>
      rw [List.cons_append, chainDecrypt, ih, chainDecrypt, List.getLastD_cons, List.cons_append]

theorem chainEncrypt_append (prev : Bytes) (bs ds : List Bytes) :
    chainEncrypt enc prev (bs ++ ds) =
      chainEncrypt enc prev bs ++
        chainEncrypt enc ((chainEncrypt enc prev bs).getLastD prev) ds := by
  induction bs generalizing prev with
  | nil => rfl
  | cons b bs ih =>
      rw [List.cons_append, chainEncrypt, ih, chainEncrypt, List.getLastD_cons, List.cons_append]

@[simp] theorem length_chainEncrypt (prev : Bytes) (bs : List Bytes) :
    (chainEncrypt enc prev bs).length = bs.length := by
  induction bs generalizing prev with
  | nil => rfl
  | cons b bs ih => simp [chainEncrypt, ih]

@[simp] theorem length_chainDecrypt (prev : Bytes) (cs : List Bytes) :
    (chainDecrypt dec prev cs).length = cs.length := by
  induction cs generalizing prev with
  | nil => rfl
  | cons c cs ih => simp [chainDecrypt, ih]

/-- A block cipher on blocks of one size whose second function inverts its
first. -/
structure Inverts (size : ℕ) : Prop where
  length_enc : ∀ b : Bytes, b.length = size → (enc b).length = size
  dec_enc : ∀ b : Bytes, b.length = size → dec (enc b) = b

variable {enc dec}

theorem chainEncrypt_blocks {size : ℕ} (h : Inverts enc dec size) {prev : Bytes}
    (hp : prev.length = size) (bs : List Bytes) (hb : ∀ b ∈ bs, b.length = size) :
    ∀ c ∈ chainEncrypt enc prev bs, c.length = size := by
  induction bs generalizing prev with
  | nil => simp [chainEncrypt]
  | cons b bs ih =>
      have hx : (xorBytes b prev).length = size := by simp [hb b (by simp), hp]
      have hc := h.length_enc _ hx
      intro c hmem
      rcases List.mem_cons.mp hmem with rfl | hmem
      · exact hc
      · exact ih hc (fun d hd => hb d (by simp [hd])) c hmem

theorem chainDecrypt_chainEncrypt {size : ℕ} (h : Inverts enc dec size) {prev : Bytes}
    (hp : prev.length = size) (bs : List Bytes) (hb : ∀ b ∈ bs, b.length = size) :
    chainDecrypt dec prev (chainEncrypt enc prev bs) = bs := by
  induction bs generalizing prev with
  | nil => rfl
  | cons b bs ih =>
      have hlen : b.length = size := hb b (by simp)
      have hx : (xorBytes b prev).length = size := by simp [hlen, hp]
      rw [chainEncrypt, chainDecrypt, h.dec_enc _ hx, xorBytes_cancel (hlen.trans hp.symm),
        ih (h.length_enc _ hx) (fun d hd => hb d (by simp [hd]))]

end

/-! ### Byte strings as blocks -/

/-- The first `k` pieces of `size` bytes. -/
def pieces (size : ℕ) : ℕ → Bytes → List Bytes
  | 0, _ => []
  | k + 1, bs => bs.take size :: pieces size k (bs.drop size)

/-- The whole blocks of a byte string. -/
def blocks (size : ℕ) (bs : Bytes) : List Bytes := pieces size (bs.length / size) bs

@[simp] theorem length_pieces (size k : ℕ) (bs : Bytes) : (pieces size k bs).length = k := by
  induction k generalizing bs with
  | zero => rfl
  | succ k ih => simp [pieces, ih]

theorem pieces_append (size k l : ℕ) (bs : Bytes) :
    pieces size (k + l) bs = pieces size k bs ++ pieces size l (bs.drop (size * k)) := by
  induction k generalizing bs with
  | zero => simp [pieces]
  | succ k ih =>
      rw [Nat.add_right_comm, pieces, ih, pieces, List.cons_append, List.drop_drop,
        Nat.mul_succ, Nat.add_comm (size * k)]

theorem pieces_take (size k : ℕ) (a b : Bytes) (h : size * k ≤ a.length) :
    pieces size k (a ++ b) = pieces size k a := by
  induction k generalizing a with
  | zero => rfl
  | succ k ih =>
      rw [Nat.mul_succ] at h
      rw [pieces, pieces, List.take_append_of_le_length (by omega),
        List.drop_append_of_le_length (by omega), ih _ (by rw [List.length_drop]; omega)]

theorem length_of_mem_pieces {size k : ℕ} {bs b : Bytes} (h : size * k ≤ bs.length)
    (hb : b ∈ pieces size k bs) : b.length = size := by
  induction k generalizing bs with
  | zero => simp [pieces] at hb
  | succ k ih =>
      rw [Nat.mul_succ] at h
      rcases List.mem_cons.mp hb with rfl | hb
      · rw [List.length_take]; omega
      · exact ih (by rw [List.length_drop]; omega) hb

theorem flatten_pieces (size k : ℕ) (bs : Bytes) :
    (pieces size k bs).flatten = bs.take (size * k) := by
  induction k generalizing bs with
  | zero => simp [pieces]
  | succ k ih =>
      rw [pieces, List.flatten_cons, ih, Nat.mul_succ, Nat.add_comm, List.take_add]

section
variable {size : ℕ}

theorem length_of_mem_blocks {bs b : Bytes} (hb : b ∈ blocks size bs) : b.length = size :=
  length_of_mem_pieces (Nat.mul_div_le _ _) hb

theorem flatten_blocks {bs : Bytes} (h : size ∣ bs.length) : (blocks size bs).flatten = bs := by
  rw [blocks, flatten_pieces, Nat.mul_div_cancel' h, List.take_length]

theorem blocks_append (hs : 0 < size) {a : Bytes} (b : Bytes) (h : size ∣ a.length) :
    blocks size (a ++ b) = blocks size a ++ blocks size b := by
  obtain ⟨k, hk⟩ := h
  have hl : (a ++ b).length / size = k + b.length / size := by
    rw [List.length_append, hk, Nat.mul_add_div hs]
  have ha : a.length / size = k := by rw [hk, Nat.mul_div_cancel_left _ hs]
  rw [blocks, hl, pieces_append, pieces_take _ _ _ _ (by omega), ← hk, List.drop_left, blocks,
    blocks, ha]

theorem blocks_flatten (hs : 0 < size) (bs : List Bytes) (h : ∀ b ∈ bs, b.length = size) :
    blocks size bs.flatten = bs := by
  induction bs with
  | nil => simp [blocks, pieces]
  | cons b bs ih =>
      have hb := h b (by simp)
      rw [List.flatten_cons, blocks_append hs _ (by rw [hb]), ih (fun c hc => h c (by simp [hc])),
        blocks, hb, Nat.div_self hs]
      simp [pieces, ← hb]

end

/-! ### Chaining on byte strings -/

section
variable (enc dec : Bytes → Bytes) (size : ℕ)

/-- Encrypt the whole blocks of `p` after the ciphertext block `prev`. -/
def cbcEncrypt (prev p : Bytes) : Bytes := (chainEncrypt enc prev (blocks size p)).flatten

/-- Decrypt the whole blocks of `c` after the ciphertext block `prev`. -/
def cbcDecrypt (prev c : Bytes) : Bytes := (chainDecrypt dec prev (blocks size c)).flatten

/-- The chaining value after the ciphertext `c`. -/
def chainValue (prev c : Bytes) : Bytes := (blocks size c).getLastD prev

variable {enc dec size}

theorem chainValue_append (hs : 0 < size) (prev : Bytes) {a : Bytes} (b : Bytes)
    (h : size ∣ a.length) :
    chainValue size prev (a ++ b) = chainValue size (chainValue size prev a) b := by
  rw [chainValue, blocks_append hs _ h, getLastD_append]
  rfl

theorem cbcDecrypt_append (hs : 0 < size) (prev : Bytes) {a : Bytes} (b : Bytes)
    (h : size ∣ a.length) :
    cbcDecrypt dec size prev (a ++ b) =
      cbcDecrypt dec size prev a ++ cbcDecrypt dec size (chainValue size prev a) b := by
  rw [cbcDecrypt, blocks_append hs _ h, chainDecrypt_append, List.flatten_append]
  rfl

theorem length_chainValue {prev : Bytes} (c : Bytes) (hp : prev.length = size) :
    (chainValue size prev c).length = size := by
  rw [chainValue, List.getLastD_eq_getLast?]
  cases hb : (blocks size c).getLast? with
  | none => exact hp
  | some d => exact length_of_mem_blocks (List.mem_of_getLast? hb)

theorem length_flatten_of {bs : List Bytes} (h : ∀ b ∈ bs, b.length = size) :
    bs.flatten.length = size * bs.length := by
  induction bs with
  | nil => simp
  | cons b bs ih =>
      rw [List.flatten_cons, List.length_append, h b (by simp),
        ih (fun c hc => h c (by simp [hc])), List.length_cons, Nat.mul_succ, Nat.add_comm]

theorem chainDecrypt_blocks (hd : ∀ b : Bytes, b.length = size → (dec b).length = size)
    {prev : Bytes} (hp : prev.length = size) (cs : List Bytes) (hc : ∀ c ∈ cs, c.length = size) :
    ∀ b ∈ chainDecrypt dec prev cs, b.length = size := by
  induction cs generalizing prev with
  | nil => simp [chainDecrypt]
  | cons c cs ih =>
      have hlen := hc c (by simp)
      intro b hb
      rcases List.mem_cons.mp hb with rfl | hb
      · simp [hd c hlen, hp]
      · exact ih hlen (fun d hd => hc d (by simp [hd])) b hb

theorem length_cbcDecrypt (hd : ∀ b : Bytes, b.length = size → (dec b).length = size)
    {prev c : Bytes} (hp : prev.length = size) (h : size ∣ c.length) :
    (cbcDecrypt dec size prev c).length = c.length := by
  have hb : ∀ b ∈ blocks size c, b.length = size := fun b hb => length_of_mem_blocks hb
  rw [cbcDecrypt, length_flatten_of (chainDecrypt_blocks hd hp _ hb), length_chainDecrypt, blocks,
    length_pieces, Nat.mul_div_cancel' h]

theorem length_cbcEncrypt (hi : Inverts enc dec size) {prev p : Bytes} (hp : prev.length = size)
    (h : size ∣ p.length) : (cbcEncrypt enc size prev p).length = p.length := by
  have hb : ∀ b ∈ blocks size p, b.length = size := fun b hb => length_of_mem_blocks hb
  rw [cbcEncrypt, length_flatten_of (chainEncrypt_blocks hi hp _ hb), length_chainEncrypt, blocks,
    length_pieces, Nat.mul_div_cancel' h]

theorem blocks_cbcEncrypt (hs : 0 < size) (hi : Inverts enc dec size) {prev : Bytes} (p : Bytes)
    (hp : prev.length = size) :
    blocks size (cbcEncrypt enc size prev p) = chainEncrypt enc prev (blocks size p) :=
  blocks_flatten hs _ (chainEncrypt_blocks hi hp _ fun _ hb => length_of_mem_blocks hb)

/-- Encryption too may be resumed from the last ciphertext block. -/
theorem cbcEncrypt_append (hs : 0 < size) (hi : Inverts enc dec size) {prev a : Bytes} (b : Bytes)
    (hp : prev.length = size) (h : size ∣ a.length) :
    cbcEncrypt enc size prev (a ++ b) =
      cbcEncrypt enc size prev a ++
        cbcEncrypt enc size (chainValue size prev (cbcEncrypt enc size prev a)) b := by
  rw [cbcEncrypt, blocks_append hs _ h, chainEncrypt_append, List.flatten_append, chainValue,
    blocks_cbcEncrypt hs hi _ hp]
  rfl

theorem cbcDecrypt_cbcEncrypt (hs : 0 < size) (hi : Inverts enc dec size) {prev p : Bytes}
    (hp : prev.length = size) (h : size ∣ p.length) :
    cbcDecrypt dec size prev (cbcEncrypt enc size prev p) = p := by
  rw [cbcDecrypt, blocks_cbcEncrypt hs hi _ hp,
    chainDecrypt_chainEncrypt hi hp _ fun _ hb => length_of_mem_blocks hb, flatten_blocks h]

end

/-! ### Padding -/

/-- PKCS#7: fill up to the next multiple of the block size, always by at least
one byte, each byte holding the number of bytes added. -/
def pad (size : ℕ) (p : Bytes) : Bytes :=
  p ++ List.replicate (size - p.length % size) (UInt8.ofNat (size - p.length % size))

/-- Undo `pad`, or refuse what is not the result of padding. -/
def unpad (size : ℕ) (d : Bytes) : Option Bytes :=
  if d.length = 0 then none
  else if d.length % size ≠ 0 then none
  else
    let k := (d.getLastD 0).toNat
    if k < 1 ∨ min size d.length < k then none
    else if d.drop (d.length - k) ≠ List.replicate k (UInt8.ofNat k) then none
    else some (d.take (d.length - k))

section
variable {size : ℕ}

theorem length_pad (size : ℕ) (p : Bytes) :
    (pad size p).length = p.length + (size - p.length % size) := by
  simp [pad]

/-- Padding is added to the last block only. -/
theorem pad_append {a : Bytes} (b : Bytes) (ha : size ∣ a.length) :
    pad size (a ++ b) = a ++ pad size b := by
  have hmod : (a ++ b).length % size = b.length % size := by
    obtain ⟨k, hk⟩ := ha
    rw [List.length_append, hk, Nat.mul_add_mod]
  rw [pad, hmod, pad, List.append_assoc]

theorem dvd_length_pad (hs : 0 < size) (p : Bytes) : size ∣ (pad size p).length := by
  have hm := Nat.mod_lt p.length hs
  have hd := Nat.div_add_mod p.length size
  refine ⟨p.length / size + 1, ?_⟩
  rw [length_pad, Nat.mul_succ]
  omega

theorem unpad_pad (hs : 0 < size) (hb : size < 256) (p : Bytes) :
    unpad size (pad size p) = some p := by
  have hm := Nat.mod_lt p.length hs
  obtain ⟨k, hk⟩ : ∃ k, size - p.length % size = k + 1 := ⟨size - p.length % size - 1, by omega⟩
  have hlen := length_pad size p
  have hdvd := Nat.mod_eq_zero_of_dvd (dvd_length_pad hs p)
  have hlast : (pad size p).getLastD 0 = UInt8.ofNat (k + 1) := by
    rw [pad, hk, List.replicate_succ', ← List.append_assoc]
    simp
  have hval : (UInt8.ofNat (k + 1)).toNat = k + 1 :=
    UInt8.toNat_ofNat_of_lt' (by change k + 1 < 256; omega)
  have hdrop : (pad size p).length - (k + 1) = p.length := by omega
  have h₁ : (pad size p).drop p.length = List.replicate (k + 1) (UInt8.ofNat (k + 1)) := by
    rw [pad, List.drop_left, hk]
  have h₂ : (pad size p).take p.length = p := by rw [pad, List.take_left]
  simp only [unpad, hlast, hval, hdrop, h₁, h₂, hdvd]
  rw [if_neg (by omega), if_neg (by simp), if_neg (by omega), if_neg (by simp)]

/-- Padding is looked for in the last block only. -/
theorem unpad_append (hs : 0 < size) {a b : Bytes} (ha : size ∣ a.length) (hb : size ≤ b.length) :
    unpad size (a ++ b) = (unpad size b).map (a ++ ·) := by
  have hne : b.getLastD (a.getLastD 0) = b.getLastD 0 := by
    obtain _ | ⟨x, b⟩ := b
    · simp only [List.length_nil] at hb
      omega
    · simp only [List.getLastD_cons]
  have hmod : (a.length + b.length) % size = b.length % size := by
    obtain ⟨k, hk⟩ := ha
    rw [hk, Nat.mul_add_mod]
  have h₁ : ¬ a.length + b.length = 0 := by omega
  have h₂ : ¬ b.length = 0 := by omega
  have h₃ : min size (a.length + b.length) = size := Nat.min_eq_left (by omega)
  simp only [unpad, getLastD_append, hne, List.length_append, hmod, h₁, h₂, h₃,
    Nat.min_eq_left hb, if_false]
  by_cases hz : b.length % size ≠ 0
  · simp only [if_pos hz, Option.map_none]
  by_cases hk : (b.getLastD 0).toNat < 1 ∨ size < (b.getLastD 0).toNat
  · simp only [if_neg hz, if_pos hk, Option.map_none]
  simp only [if_neg hz, if_neg hk]
  have hsub : a.length + b.length - (b.getLastD 0).toNat =
      a.length + (b.length - (b.getLastD 0).toNat) := by omega
  have hd : a.drop (a.length + (b.length - (b.getLastD 0).toNat)) = [] :=
    List.drop_eq_nil_of_le (by omega)
  have ht : a.take (a.length + (b.length - (b.getLastD 0).toNat)) = a :=
    List.take_of_length_le (by omega)
  rw [hsub, List.drop_append, List.take_append, hd, ht, Nat.add_sub_cancel_left, List.nil_append]
  split <;> rfl

theorem length_unpad {d x : Bytes} (h : unpad size d = some x) :
    x.length < d.length ∧ d.length ≤ x.length + size := by
  simp only [unpad] at h
  split_ifs at h with h₁ h₂ h₃ h₄
  cases h
  rw [List.length_take]
  omega

end

end Seftp.BlockChaining
