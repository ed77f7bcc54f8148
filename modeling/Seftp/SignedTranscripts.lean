import Seftp.Answers
import Seftp.ClientDialogue

/-!
# What the signatures say

Both signed messages are plain concatenations. Every field but the last has a fixed
length, so the message determines its fields, and the two contexts differ before
either ends. The server's concatenation and the client's are written separately.
-/
namespace Seftp.SignedTranscripts
open LittleEndian Text Protocol OutsideWorld ServerSession Answers ClientProgram ClientDialogue

/-- The fields of a signed hello. -/
structure ServerHello where
  securityVersion : UInt8
  clientNonce : Nonce
  serverNonce : Nonce
  serverPublicKeyDer : Bytes

/-- The fields of a signed key. -/
structure AesKeyBinding where
  securityVersion : UInt8
  clientNonce : Nonce
  serverNonce : Nonce
  clientId : ClientId
  responseCode : UInt16
  encryptedKey : Bytes

def ServerHello.transcript (f : ServerHello) : Bytes :=
  serverHelloTranscript f.securityVersion f.clientNonce.val f.serverNonce.val f.serverPublicKeyDer

def AesKeyBinding.transcript (g : AesKeyBinding) : Bytes :=
  aesKeyBindingTranscript g.securityVersion g.clientNonce.val g.serverNonce.val g.clientId.val
    g.responseCode.toNat g.encryptedKey

def signServerHello (env : Env) (f : ServerHello) : Except PyError Bytes := sign env f.transcript

def signAesKeyBinding (env : Env) (g : AesKeyBinding) : Except PyError Bytes :=
  sign env g.transcript

section
variable {σ : Type}

/-- The client's check of a hello with these fields. -/
def ServerHello.verified (client : ClientEnv σ) (f : ServerHello) (signature : Bytes) : Bool :=
  verifyServerHelloSignature client f.securityVersion f.clientNonce.val f.serverNonce.val
    f.serverPublicKeyDer signature

/-- The client's check of a key with these fields. -/
def AesKeyBinding.verified (client : ClientEnv σ) (g : AesKeyBinding) (der signature : Bytes) :
    Bool :=
  verifyAesKeyBindingSignature client g.securityVersion g.clientNonce.val g.serverNonce.val
    g.clientId.val g.responseCode.toNat g.encryptedKey der signature

/-- An ideal scheme under the key `der`: a signature verifies for no message but the
one it was made for. -/
def SignsIdeally (env : Env) (client : ClientEnv σ) (der : Bytes) : Prop :=
  ∀ message signature, env.signTranscript message = some signature →
    ∀ other, client.verifyMessage der other signature = true → other = message

theorem hello_verified (client : ClientEnv σ) (f : ServerHello) (signature : Bytes) :
    f.verified client signature =
      client.verifyMessage f.serverPublicKeyDer f.transcript signature := rfl

theorem binding_verified (client : ClientEnv σ) (g : AesKeyBinding) (der signature : Bytes) :
    g.verified client der signature = client.verifyMessage der g.transcript signature := rfl
end

/-! ### The fields are determined -/

theorem leBytes_two_injective {m n : UInt16} (h : leBytes 2 m.toNat = leBytes 2 n.toNat) :
    m = n := by
  have hm := leNat_leBytes_of_lt (k := 2) m.toNat_lt
  have hn := leNat_leBytes_of_lt (k := 2) n.toNat_lt
  rw [h, hn] at hm
  exact UInt16.toNat_inj.mp hm.symm

/-- Behind a common context stand the version and the two nonces. -/
theorem opening_injective {context : Bytes} {v v' : UInt8} {c c' s s' : Nonce} {rest rest' : Bytes}
    (h : context ++ [v] ++ c.val ++ s.val ++ rest = context ++ [v'] ++ c'.val ++ s'.val ++ rest') :
    v = v' ∧ c = c' ∧ s = s' ∧ rest = rest' := by
  obtain ⟨h, hrest⟩ := List.append_inj h (by simp [c.2, c'.2, s.2, s'.2])
  obtain ⟨h, hs⟩ := List.append_inj h (by simp [c.2, c'.2])
  obtain ⟨h, hc⟩ := List.append_inj h (by simp)
  have hv := List.append_cancel_left h
  exact ⟨List.head_eq_of_cons_eq hv, Subtype.ext hc, Subtype.ext hs, hrest⟩

theorem hello_injective : Function.Injective ServerHello.transcript := by
  intro f f' h
  obtain ⟨hv, hc, hs, hk⟩ := opening_injective h
  cases f
  cases f'
  cases hv
  cases hc
  cases hs
  cases hk
  rfl

theorem binding_injective : Function.Injective AesKeyBinding.transcript := by
  intro g g' h
  simp only [AesKeyBinding.transcript, aesKeyBindingTranscript] at h
  obtain ⟨h, hk⟩ := List.append_inj h
    (by simp [g.clientNonce.2, g.serverNonce.2, g.clientId.2, g'.clientNonce.2, g'.serverNonce.2,
      g'.clientId.2])
  obtain ⟨h, hcode⟩ := List.append_inj' h (by simp)
  obtain ⟨hv, hc, hs, hid⟩ := opening_injective h
  have hcode := leBytes_two_injective hcode
  have hid := Subtype.ext hid
  cases g
  cases g'
  cases hv
  cases hc
  cases hs
  cases hid
  cases hcode
  cases hk
  rfl

/-! ### The contexts are apart -/

theorem contexts_differ :
    serverHelloContext.take 14 ≠ aesKeyBindingContext.take 14 ∧
      14 ≤ serverHelloContext.length ∧ 14 ≤ aesKeyBindingContext.length := by
  decide +kernel

theorem hello_ne_binding (f : ServerHello) (g : AesKeyBinding) : f.transcript ≠ g.transcript := by
  obtain ⟨hne, hf, hg⟩ := contexts_differ
  intro h
  apply hne
  have h := congrArg (List.take 14) h
  simp only [ServerHello.transcript, AesKeyBinding.transcript, serverHelloTranscript,
    aesKeyBindingTranscript, List.append_assoc] at h
  rw [List.take_append_of_le_length hf, List.take_append_of_le_length hg] at h
  exact h

/-! ### Under an ideal scheme -/

theorem sign_ok {env : Env} {message signature : Bytes} (h : sign env message = .ok signature) :
    env.signTranscript message = some signature := by
  unfold sign at h
  split at h
  · rename_i s hs
    rw [hs, ← Except.ok.inj h]
  · cases h

section
variable {σ : Type}

theorem ideal_hello {env : Env} {client : ClientEnv σ} {der signature message : Bytes}
    (ideal : SignsIdeally env client der) (hs : sign env message = .ok signature)
    {f : ServerHello} (hkey : f.serverPublicKeyDer = der)
    (hv : f.verified client signature = true) : f.transcript = message := by
  rw [hello_verified, hkey] at hv
  exact ideal _ _ (sign_ok hs) _ hv

theorem ideal_binding {env : Env} {client : ClientEnv σ} {der signature message : Bytes}
    (ideal : SignsIdeally env client der) (hs : sign env message = .ok signature)
    {g : AesKeyBinding} (hv : g.verified client der signature = true) : g.transcript = message := by
  rw [binding_verified] at hv
  exact ideal _ _ (sign_ok hs) _ hv

/-- The two ends agree on what is signed, it determines every field and its context,
and under an ideal scheme a signature verifies only where it was made. -/
theorem signed_transcripts_unambiguous (env : Env) (client : ClientEnv σ) :
    (∀ (f : ServerHello) (signature : Bytes),
      f.verified client signature =
        client.verifyMessage f.serverPublicKeyDer f.transcript signature) ∧
    (∀ (g : AesKeyBinding) (der signature : Bytes),
      g.verified client der signature = client.verifyMessage der g.transcript signature) ∧
    Function.Injective ServerHello.transcript ∧
    Function.Injective AesKeyBinding.transcript ∧
    (∀ (f : ServerHello) (g : AesKeyBinding), f.transcript ≠ g.transcript) ∧
    ∀ der, SignsIdeally env client der →
      (∀ (f f' : ServerHello) (signature : Bytes), signServerHello env f = .ok signature →
        f'.serverPublicKeyDer = der → f'.verified client signature = true → f' = f) ∧
      (∀ (f : ServerHello) (g' : AesKeyBinding) (signature : Bytes),
        signServerHello env f = .ok signature → g'.verified client der signature = false) ∧
      (∀ (g g' : AesKeyBinding) (signature : Bytes), signAesKeyBinding env g = .ok signature →
        g'.verified client der signature = true → g' = g) ∧
      (∀ (g : AesKeyBinding) (f' : ServerHello) (signature : Bytes),
        signAesKeyBinding env g = .ok signature → f'.serverPublicKeyDer = der →
          f'.verified client signature = false) := by
  refine ⟨hello_verified client, binding_verified client, hello_injective, binding_injective,
    hello_ne_binding, fun der ideal => ⟨?_, ?_, ?_, ?_⟩⟩
  · intro f f' signature hs hkey hv
    exact hello_injective (ideal_hello ideal hs hkey hv)
  · intro f g' signature hs
    rw [Bool.eq_false_iff]
    intro hv
    exact hello_ne_binding f g' (ideal_binding ideal hs hv).symm
  · intro g g' signature hs hv
    exact binding_injective (ideal_binding ideal hs hv)
  · intro g f' signature hs hkey
    rw [Bool.eq_false_iff]
    intro hv
    exact hello_ne_binding f' g (ideal_hello ideal hs hkey hv)
end

/-! ### A scheme whose signatures are the messages -/

def echoServer : Env where
  config := {}
  rsaImport _ := none
  oaepEncrypt _ _ := none
  signTranscript message := some message
  serverPublicKeyDer := [1, 2, 3]
  aesDecrypt _ block := block
  isAlnum _ := false
  repr name := name

def echoClient : ClientEnv Unit where
  sha256Hex _ := []
  verifyMessage _ message signature := message = signature
  oaepDecrypt _ _ := none
  publicOf _ := none
  aesEncrypt _ block := block
  newKeypair _ := none
  nonce _ := ⟨List.replicate 32 5, rfl⟩
  makeIv _ := ⟨List.replicate 16 9, rfl⟩
  writeRaises _ := false
  fileFails _ := false
  hears _ s := (s, [])
  speaks s := (s, [])

theorem echo_ideal : SignsIdeally echoServer echoClient [1, 2, 3] := by
  intro message signature hs other hv
  rw [← Option.some.inj hs] at hv
  exact of_decide_eq_true hv

/-- The hypothesis on the scheme can be met: signatures of hellos then verify for no
other hello and no key. -/
theorem echo_signatures_unambiguous :
    SignsIdeally echoServer echoClient [1, 2, 3] ∧
      (∀ (f f' : ServerHello) (signature : Bytes), signServerHello echoServer f = .ok signature →
        f'.serverPublicKeyDer = [1, 2, 3] → f'.verified echoClient signature = true → f' = f) ∧
      ∀ (f : ServerHello) (g' : AesKeyBinding) (signature : Bytes),
        signServerHello echoServer f = .ok signature →
          g'.verified echoClient [1, 2, 3] signature = false :=
  have h := (signed_transcripts_unambiguous echoServer echoClient).2.2.2.2.2 _ echo_ideal
  ⟨echo_ideal, h.1, h.2.1⟩

end Seftp.SignedTranscripts
