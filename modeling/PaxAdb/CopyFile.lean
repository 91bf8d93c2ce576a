import PaxAdb.ClientStatus
import PaxAdb.ToolCommand

/-!
# Copying a descriptor

`copy_to_file` passes what it reads on with one `adb_write` for each `adb_read`. It does not look at
what the write returns, and takes a read error for the end of the file. `backup`, `restore` and
`exec-in` return 0 whenever it has come back.
-/

namespace PaxAdb.Copy

open Sockets (text)
open Client (Connection)
open Tool (appended)
open List

section Model

def BUFSIZE : ℕ := 32 * 1024

def taken (buf : List Byte) : WriteResult → List Byte
  | .count n => buf.take (n + 1)
  | _ => []

structure Copied where
  read : List Byte
  accepted : List Byte
  /-- The loop ended because a read returned 0. -/
  eof : Bool
  deriving DecidableEq, Repr

/-- `copy_to_file` to a descriptor other than the standard output; it does not come back when
one of the descriptors waits for ever. -/
def copyToFile : List ReadResult → List WriteResult → Option Copied
  | [], _ => none
  | .data chunk :: reads, writes =>
      let buf := chunk.take BUFSIZE
      if buf = [] then some ⟨[], [], true⟩
      else
        match writes with
        | [] => none
        | x :: writes => (copyToFile reads writes).map fun c =>
            { c with read := buf ++ c.read, accepted := taken buf x ++ c.accepted }
  | .eintr :: reads, writes => copyToFile reads writes
  | .eagain :: _, _ => some ⟨[], [], false⟩
  | .error :: _, _ => some ⟨[], [], false⟩

structure Transfer where
  input : List ReadResult
  output : List WriteResult
  copied : Copied
  deriving DecidableEq, Repr

def transfer (input : List ReadResult) (output : List WriteResult) : Option Transfer :=
  (copyToFile input output).map fun c => ⟨input, output, c⟩

structure Env where
  adbConnect : List Byte → Option Connection
  adbCreat : List Byte → Option (List WriteResult)
  adbOpen : List Byte → Option (List ReadResult)
  stdin : List ReadResult

def takeFile : List (List Byte) → Option (Option (List Byte) × List (List Byte))
  | [] => some (none, [])
  | arg :: args =>
      if arg = text "-f" then
        match args with
        | [] => none
        | filename :: args => some (some filename, args)
      else (takeFile args).map fun x => (x.1, arg :: x.2)

def backupBuf (args : List (List Byte)) : StringBuffer :=
  args.foldl (fun buf arg =>
    let buf := buf.strncat [0x3a] (4096 - buf.string.length - 1)
    buf.strncat arg (4096 - buf.string.length - 1)) (.snprintf 4096 (text "backup"))

def execBuf (command : List Byte) (args : List (List Byte)) : StringBuffer :=
  (StringBuffer.snprintf 4096 (text "exec:" ++ command)).strncats 4095 (appended args)

abbrev Returned := ℤ × Option Transfer

/-- `usage` returns 1. -/
def backup (env : Env) (args : List (List Byte)) : Option Returned :=
  match takeFile args with
  | none => some (1, none)
  | some (filename, args) =>
      if args = [] then some (1, none)
      else
        match env.adbCreat (filename.getD (text "./backup.ab")) with
        | none => some (-1, none)
        | some output =>
            match env.adbConnect (backupBuf args).string with
            | none => some (-1, none)
            | some c => (transfer c.reads output).map fun x => (0, some x)

def restore (env : Env) : List (List Byte) → Option Returned
  | [filename] =>
      match env.adbOpen filename with
      | none => some (-1, none)
      | some input =>
          match env.adbConnect (text "restore:") with
          | none => some (-1, none)
          | some c => (transfer input c.writes).map fun x => (0, some x)
  | _ => some (1, none)

/-- Without a command, or with arguments that overrun the buffer, there is no telling. -/
def execIn (env : Env) : List (List Byte) → Option Returned
  | [] => none
  | command :: args =>
      if (execBuf command args).InBounds 4096 then
        match env.adbConnect (execBuf command args).string with
        | none => some (-1, none)
        | some c => (transfer env.stdin c.writes).map fun x => (0, some x)
      else none

inductive Command where
  | backup
  | restore
  | execIn
  deriving DecidableEq, Repr

def Command.run : Command → Env → List (List Byte) → Option Returned
  | backup => Copy.backup
  | restore => Copy.restore
  | execIn => Copy.execIn

end Model

section Loop

variable {reads : List ReadResult} {writes : List WriteResult} {c : Copied}

def chunks : List ReadResult → List (List Byte)
  | .data (b :: bytes) :: reads => (b :: bytes).take BUFSIZE :: chunks reads
  | .eintr :: reads => chunks reads
  | _ => []

def reachesEof : List ReadResult → Bool
  | .data [] :: _ => true
  | .data (_ :: _) :: reads => reachesEof reads
  | .eintr :: reads => reachesEof reads
  | _ => false

def takesAll (buf : List Byte) (x : WriteResult) : Prop := ∃ n, x = .count n ∧ buf.length ≤ n + 1

def Copied.Complete (c : Copied) : Prop := c.eof = true ∧ c.accepted = c.read

theorem length_taken_le (buf : List Byte) (x : WriteResult) :
    (taken buf x).length ≤ buf.length := by
  cases x <;> simp [taken]

theorem taken_eq_iff {buf : List Byte} (hne : buf ≠ []) (x : WriteResult) :
    taken buf x = buf ↔ takesAll buf x := by
  cases x with
  | count n => simp [taken, takesAll, take_eq_self_iff]
  | _ => simpa [taken, takesAll] using hne.symm

theorem copyToFile_data {b : Byte} {bytes : List Byte}
    (h : copyToFile (.data (b :: bytes) :: reads) writes = some c) :
    ∃ x rest c', writes = x :: rest ∧ copyToFile reads rest = some c' ∧
      c = { c' with
        read := (b :: bytes).take BUFSIZE ++ c'.read
        accepted := taken ((b :: bytes).take BUFSIZE) x ++ c'.accepted } := by
  have hne : (b :: bytes).take BUFSIZE ≠ [] := by simp [BUFSIZE]
  rw [copyToFile.eq_def] at h
  simp only [hne, if_false] at h
  cases writes with
  | nil => cases h
  | cons x rest =>
    obtain ⟨c', hc', rfl⟩ := Option.map_eq_some_iff.mp h
    exact ⟨x, rest, c', rfl, hc', rfl⟩

theorem copyToFile_length_le (h : copyToFile reads writes = some c) :
    c.accepted.length ≤ c.read.length := by
  induction reads generalizing writes c with
  | nil => cases h
  | cons r reads ih =>
    cases r with
    | data chunk =>
      cases chunk with
      | nil =>
        cases h
        exact le_rfl
      | cons b bytes =>
        obtain ⟨x, rest, c', -, hc', rfl⟩ := copyToFile_data h
        have hlen := length_taken_le ((b :: bytes).take BUFSIZE) x
        have hrest := ih hc'
        simp only [length_append]
        omega
    | eintr => exact ih h
    | eagain | error =>
      cases h
      exact le_rfl

/-- A copy is complete exactly when the input ends without an error and every write accepts the
whole piece it is offered. -/
theorem copyToFile_complete_iff (h : copyToFile reads writes = some c) :
    c.Complete ↔ reachesEof reads = true ∧ ∀ y ∈ (chunks reads).zip writes, takesAll y.1 y.2 := by
  induction reads generalizing writes c with
  | nil => cases h
  | cons r reads ih =>
    cases r with
    | data chunk =>
      cases chunk with
      | nil =>
        cases h
        exact iff_of_true ⟨rfl, rfl⟩ ⟨rfl, nofun⟩
      | cons b bytes =>
        obtain ⟨x, rest, c', rfl, hc', rfl⟩ := copyToFile_data h
        have hne : (b :: bytes).take BUFSIZE ≠ [] := by simp [BUFSIZE]
        have hsplit : taken ((b :: bytes).take BUFSIZE) x ++ c'.accepted =
            (b :: bytes).take BUFSIZE ++ c'.read ↔
            taken ((b :: bytes).take BUFSIZE) x = (b :: bytes).take BUFSIZE ∧
              c'.accepted = c'.read := by
          refine ⟨fun heq => ?_, fun heq => by rw [heq.1, heq.2]⟩
          -- neither part can be longer than what was offered, so neither is shorter
          have hlen := congrArg length heq
          simp only [length_append] at hlen
          have htaken := length_taken_le ((b :: bytes).take BUFSIZE) x
          have hrest := copyToFile_length_le hc'
          exact append_inj heq (by omega)
        have hcomplete := ih hc'
        simp only [Copied.Complete] at hcomplete ⊢
        rw [hsplit, taken_eq_iff hne, chunks, reachesEof, zip_cons_cons, forall_mem_cons]
        tauto
    | eintr => exact ih h
    | eagain | error =>
      cases h
      exact iff_of_false (by simp [Copied.Complete]) (by simp [reachesEof])

end Loop

section Commands

variable {env : Env} {args : List (List Byte)} {y : Option Transfer}

theorem transfer_zero {input : List ReadResult} {output : List WriteResult}
    (h : (transfer input output).map (fun x => ((0, some x) : Returned)) = some (0, y)) :
    ∃ x, y = some x ∧ copyToFile x.input x.output = some x.copied := by
  obtain ⟨x, hx, heq⟩ := Option.map_eq_some_iff.mp h
  obtain ⟨c, hc, rfl⟩ := Option.map_eq_some_iff.mp hx
  exact ⟨_, (Prod.mk.inj heq).2.symm, hc⟩

theorem Command.run_zero (cmd : Command) (h : cmd.run env args = some (0, y)) :
    ∃ x, y = some x ∧ copyToFile x.input x.output = some x.copied := by
  cases cmd with
  | backup =>
    simp only [run, Copy.backup] at h
    repeat' split at h
    all_goals first | exact transfer_zero h | simp at h
  | restore =>
    simp only [run, Copy.restore] at h
    repeat' split at h
    all_goals first | exact transfer_zero h | simp at h
  | execIn =>
    simp only [run, Copy.execIn] at h
    repeat' split at h
    all_goals first | exact transfer_zero h | simp at h

/-- When `backup`, `restore` or `exec-in` returns 0, the copy is complete exactly if the input ended
without an error and no write was short. -/
theorem copy_complete_iff (cmd : Command) (h : cmd.run env args = some (0, y)) :
    ∃ x, y = some x ∧ (x.copied.Complete ↔ reachesEof x.input = true ∧
      ∀ z ∈ (chunks x.input).zip x.output, takesAll z.1 z.2) := by
  obtain ⟨x, hy, hx⟩ := cmd.run_zero h
  exact ⟨x, hy, copyToFile_complete_iff hx⟩

/-- A file of four bytes, and a connection that accepts `n + 1` bytes of the first write. -/
def fourBytes (n : ℕ) : Env where
  adbConnect _ := some ⟨[], [.count n]⟩
  adbCreat _ := none
  adbOpen _ := some [.eintr, .data (text "data"), .data []]
  stdin := []

theorem restore_complete : ∃ y, Command.restore.run (fourBytes 3) [text "x.ab"] = some (0, y) ∧
    ∃ x, y = some x ∧ x.copied.Complete := by
  obtain ⟨x, hy, hx⟩ := copy_complete_iff .restore
    (show Command.restore.run (fourBytes 3) [text "x.ab"] = some (0, _) from rfl)
  refine ⟨_, rfl, x, hy, hx.mpr ?_⟩
  cases hy
  exact ⟨rfl, by simp [chunks, BUFSIZE, takesAll, text]⟩

/-- The connection accepts one byte of four, and `restore` returns 0. -/
theorem restore_short : ∃ x, Command.restore.run (fourBytes 0) [text "x.ab"] = some (0, some x) ∧
    x.copied.read = text "data" ∧ x.copied.accepted = text "d" ∧ ¬ x.copied.Complete := by
  refine ⟨_, rfl, by decide, by decide, ?_⟩
  rintro ⟨_, heq⟩
  exact absurd heq (by decide)

end Commands

end PaxAdb.Copy
