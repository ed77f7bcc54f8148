import Seftp.LittleEndian

/-!
# CRC-32

The reflected CRC-32 of polynomial `0xEDB88320`. The register is inverted before
and after the bytes, so the checksum of a prefix may be handed back as the start
value for the rest: the two inversions in the middle cancel.
-/
namespace Seftp.Checksum
open LittleEndian

/-- One bit of the division. -/
def crcBit (r : UInt32) : UInt32 :=
  if r &&& 1 = 1 then (r >>> 1) ^^^ 0xEDB88320 else r >>> 1

/-- One byte into the register. -/
def crcByte (r : UInt32) (b : UInt8) : UInt32 :=
  crcBit (crcBit (crcBit (crcBit (crcBit (crcBit (crcBit (crcBit (r ^^^ b.toUInt32))))))))

/-- All bytes into the register. -/
def crcRegister (r : UInt32) (bs : Bytes) : UInt32 := bs.foldl crcByte r

/-- The checksum of `bs`, continued from the checksum `start` of what went
before. -/
def crc32 (bs : Bytes) (start : UInt32) : UInt32 :=
  crcRegister (start ^^^ 0xFFFFFFFF) bs ^^^ 0xFFFFFFFF

/-- The mask of the register undoes itself. -/
theorem xor_mask (x : UInt32) : x ^^^ 0xFFFFFFFF ^^^ 0xFFFFFFFF = x := by
  rw [UInt32.xor_assoc, UInt32.xor_self, UInt32.xor_zero]

@[simp] theorem crc32_nil (start : UInt32) : crc32 [] start = start := xor_mask start

theorem crcRegister_append (r : UInt32) (a b : Bytes) :
    crcRegister r (a ++ b) = crcRegister (crcRegister r a) b := List.foldl_append

theorem crc32_append (a b : Bytes) (start : UInt32) :
    crc32 (a ++ b) start = crc32 b (crc32 a start) := by
  simp only [crc32, crcRegister_append, xor_mask]

/-- The check value of the standard, over the digits one to nine. -/
example : crc32 [49, 50, 51, 52, 53, 54, 55, 56, 57] 0 = 0xCBF43926 := by decide +kernel

end Seftp.Checksum
