import Seftp.LittleEndian
import Mathlib.Data.Rat.Defs

/-!
# What the outside world decides

The server's run depends on things it does not compute: whether a write to the
socket, a database call or a file operation raises, what the clock shows and what
the random generator draws. One `Outside` answers all of these for the handling
of one event; every call counts, and the answer may depend on the count. Nothing
is assumed of the answers beyond the lengths of the random strings.
-/
namespace Seftp.OutsideWorld
open LittleEndian

/-- The exceptions that reach a handler's caller. -/
inductive PyError where
  | connectionReset
  | brokenPipe
  | os
  | sqlite
  | unicodeDecode
  | attribute
  | overflow
  | crypto
  | value (text : String)
  | runtime (text : String)
  deriving DecidableEq, Repr

structure Outside where
  /-- `writer.drain()` after the given number of earlier drains. -/
  sendRaises : ℕ → Option PyError
  /-- A statement or a commit on the SQLite connection. -/
  sqlRaises : ℕ → Bool
  /-- An operation on a file or directory. -/
  fileRaises : ℕ → Bool
  /-- `str(datetime.datetime.now())`. -/
  now : ℕ → String
  /-- `time.monotonic()`, in seconds. -/
  monotonic : ℕ → ℚ
  /-- `uuid.uuid4()`. -/
  uuid4 : ℕ → { b : Bytes // b.length = 16 }
  /-- `get_random_bytes(n)`. -/
  randomBytes : ℕ → (n : ℕ) → { b : Bytes // b.length = n }

/-- No response send raises. -/
def Outside.SendsWork (o : Outside) : Prop := ∀ n, o.sendRaises n = none

/-- No database call raises. -/
def Outside.SqlWorks (o : Outside) : Prop := ∀ n, o.sqlRaises n = false

/-- No file operation raises. -/
def Outside.FilesWork (o : Outside) : Prop := ∀ n, o.fileRaises n = false

/-- An outside world in which everything succeeds. -/
def calm : Outside where
  sendRaises _ := none
  sqlRaises _ := false
  fileRaises _ := false
  now _ := "2026-01-01 00:00:00"
  monotonic _ := 0
  uuid4 n := ⟨List.replicate 15 0xA5 ++ [UInt8.ofNat n], rfl⟩
  randomBytes k n := ⟨List.replicate n (UInt8.ofNat (k + 1)), List.length_replicate⟩

end Seftp.OutsideWorld
