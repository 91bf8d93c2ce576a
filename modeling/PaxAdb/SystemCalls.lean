import Mathlib.Tactic

/-!
# Results of the descriptor system calls

The server and the client see a descriptor only through `adb_read` and `adb_write`. A run of
either fixes the sequence of results the kernel returns; a sequence that is used up stands for a
descriptor on which nothing more happens.
-/

namespace PaxAdb

abbrev Byte := UInt8

/-- One `adb_read`: the bytes it stored (none of them means end of file) or its `errno`. -/
inductive ReadResult where
  | data (bytes : List Byte)
  | eagain
  | eintr
  | error
  deriving DecidableEq, Repr

/-- One `adb_write`: `count n` accepts `n + 1` bytes, or all of them when fewer were offered. -/
inductive WriteResult where
  | count (n : ℕ)
  | zero
  | eagain
  | eintr
  | error
  deriving DecidableEq, Repr

end PaxAdb
