import Seftp.LittleEndian
import Mathlib.Data.List.DropRight
import Mathlib.Data.String.Basic

/-!
# Text and paths of the two standard libraries

What the programs use of their languages' string libraries: UTF-8, hexadecimal,
stripping, and the POSIX path functions. A Python `str` that comes out of a
decoder holds no surrogate, so it is a `String`.
-/
namespace Seftp.Text
open LittleEndian

/-! ### UTF-8 and ASCII -/

/-- `bytes.decode('utf-8')`; `none` is `UnicodeDecodeError`. -/
def utf8Decode (bs : Bytes) : Option String := String.fromUTF8? bs.toByteArray

/-- `str.encode('utf-8')`. -/
def utf8Encode (s : String) : Bytes := s.toByteArray.data.toList

theorem toByteArray_utf8Encode (s : String) : (utf8Encode s).toByteArray = s.toByteArray := by
  apply ByteArray.ext
  simp [utf8Encode]

@[simp] theorem utf8Decode_utf8Encode (s : String) : utf8Decode (utf8Encode s) = some s := by
  simp only [utf8Decode, toByteArray_utf8Encode, String.fromUTF8?]
  rw [dif_pos s.isValidUTF8]
  rfl

/-- `bytes.decode('ascii')`. -/
def asciiDecode (bs : Bytes) : Option String :=
  if bs.all (· < 128) then some (String.ofList (bs.map fun b => Char.ofNat b.toNat)) else none

/-! ### Hexadecimal -/

def hexDigit (v : ℕ) : Char := if v < 10 then Char.ofNat (48 + v) else Char.ofNat (87 + v)

def hexValue (c : Char) : Option ℕ :=
  if '0' ≤ c ∧ c ≤ '9' then some (c.toNat - 48)
  else if 'a' ≤ c ∧ c ≤ 'f' then some (c.toNat - 87)
  else if 'A' ≤ c ∧ c ≤ 'F' then some (c.toNat - 55)
  else none

def hexChars : Bytes → List Char
  | [] => []
  | b :: bs => hexDigit (b.toNat / 16) :: hexDigit (b.toNat % 16) :: hexChars bs

def unhexChars : List Char → Option Bytes
  | [] => some []
  | [_] => none
  | hi :: lo :: cs =>
      match hexValue hi, hexValue lo with
      | some h, some l => (unhexChars cs).map (UInt8.ofNat (h * 16 + l) :: ·)
      | _, _ => none

/-- `bytes.hex()`, and `client_id_to_hex` of the client. -/
def hex (bs : Bytes) : String := String.ofList (hexChars bs)

/-- `bytes.fromhex`. -/
def fromHex (s : String) : Option Bytes := unhexChars s.toList

theorem hexValue_hexDigit {v : ℕ} (h : v < 16) : hexValue (hexDigit v) = some v := by
  have : ∀ w : Fin 16, hexValue (hexDigit w) = some w.val := by decide
  exact this ⟨v, h⟩

@[simp] theorem fromHex_hex (bs : Bytes) : fromHex (hex bs) = some bs := by
  simp only [fromHex, hex, String.toList_ofList]
  induction bs with
  | nil => rfl
  | cons b bs ih =>
      have hb := b.toNat_lt
      have hs : b.toNat / 16 * 16 + b.toNat % 16 = b.toNat := by omega
      simp only [hexChars, unhexChars, hexValue_hexDigit (show b.toNat / 16 < 16 by omega),
        hexValue_hexDigit (show b.toNat % 16 < 16 by omega), ih, Option.map_some, hs,
        UInt8.ofNat_toNat]

theorem hex_injective {a b : Bytes} (h : hex a = hex b) : a = b := by
  have ha := fromHex_hex a
  rw [h, fromHex_hex] at ha
  exact (Option.some.inj ha).symm

/-! ### Stripping -/

/-- `bytes.rstrip(b'\x00')`. -/
def rstripNul (bs : Bytes) : Bytes := bs.rdropWhile (· = 0)

/-- `str.rstrip('\x00')`. -/
def rstripNulStr (s : String) : String := String.ofList (s.toList.rdropWhile (· = Char.ofNat 0))

/-- The code points for which `str.isspace` holds. -/
def isSpace (c : Char) : Bool :=
  (9 ≤ c.toNat && c.toNat ≤ 13) || (28 ≤ c.toNat && c.toNat ≤ 32) || c.toNat = 0x85 ||
    c.toNat = 0xA0 || c.toNat = 0x1680 || (0x2000 ≤ c.toNat && c.toNat ≤ 0x200A) ||
    c.toNat = 0x2028 || c.toNat = 0x2029 || c.toNat = 0x202F || c.toNat = 0x205F ||
    c.toNat = 0x3000

/-- `str.strip()`. -/
def strip (s : String) : String :=
  String.ofList ((s.toList.dropWhile isSpace).rdropWhile isSpace)

def isSpaceByte (b : UInt8) : Bool := b = 32 || (9 ≤ b.toNat && b.toNat ≤ 13)

/-- `bytes.strip()`, and `trim_copy` of the client under the C locale. -/
def stripBytes (bs : Bytes) : Bytes := (bs.dropWhile isSpaceByte).rdropWhile isSpaceByte

/-! ### POSIX paths -/

/-- `os.path.basename`: what follows the last slash. -/
def basename (p : String) : String := String.ofList (p.toList.rtakeWhile (· ≠ '/'))

/-- `os.path.join` of two components. -/
def joinPath (a b : String) : String :=
  if b.toList.head? = some '/' then b
  else if a = "" ∨ a.toList.getLast? = some '/' then a ++ b
  else a ++ "/" ++ b

/-- The leading slashes that `os.path.normpath` keeps: two stay two, more
become one. -/
def leadingSlashes (cs : List Char) : ℕ :=
  match cs.takeWhile (· = '/') with
  | [] => 0
  | [_, _] => 2
  | _ => 1

/-- One component of the path onto the components kept so far, last first. -/
def pushComponent (slashes : ℕ) (kept : List (List Char)) (c : List Char) : List (List Char) :=
  if c = [] ∨ c = ['.'] then kept
  else if c ≠ ['.', '.'] ∨ (slashes = 0 ∧ kept = []) ∨ kept.head? = some ['.', '.'] then c :: kept
  else kept.tail

/-- `os.path.normpath`. -/
def normPath (p : String) : String :=
  if p = "" then "."
  else
    let slashes := leadingSlashes p.toList
    let kept := (p.toList.splitOn '/').foldl (pushComponent slashes) []
    let path := List.replicate slashes '/' ++ ['/'].intercalate kept.reverse
    if path = [] then "." else String.ofList path

example : normPath (joinPath "data/uploads/ab" "f.txt") = "data/uploads/ab/f.txt" := by
  decide +kernel

end Seftp.Text
