import Mathlib.Data.Finset.Basic
import PaxAdb.FdTable
import PaxAdb.Ring

/-!
# The event loop

`fdevent.c` keeps, for every descriptor that is registered, the events it is waited for and those
that are reported and not yet handed to its callback. The first are also bits of the three sets
`select` is called with, and the `fdevent` objects with the second are linked in `list_pending`.
-/

namespace PaxAdb.FdEvents

open Cells Ring Runs

variable {p : Platform}

def FDE_READ : BitVec 8 := 0x01

def FDE_WRITE : BitVec 8 := 0x02

def FDE_ERROR : BitVec 8 := 0x04

def FDE_DONT_CLOSE : BitVec 8 := 0x80

def FD_SETSIZE : ℤ := 1024

/-- An `fdevent`. Its `state` is split in the byte of `FDE_EVENTMASK` and the bits of
`FDE_STATEMASK`. -/
structure Fde where
  fd : ℤ
  forceEof : Bool
  interest : BitVec 8
  active : Bool
  pending : Bool
  created : Bool
  events : BitVec 8
  deriving DecidableEq, Repr

inductive Node (p : Platform) where
  | null
  | head
  | fde (a : Pointer p)
  deriving DecidableEq

structure Call (p : Platform) where
  fde : Pointer p
  fd : ℤ
  events : BitVec 8
  deriving DecidableEq

structure Loop (p : Platform) where
  heap : Pointer p → Fde
  links : Links (Node p)
  table : FdTable p
  readFds : Finset ℕ
  writeFds : Finset ℕ
  errorFds : Finset ℕ
  selectN : ℕ
  /-- the descriptors that were closed -/
  closed : List ℤ
  calls : List (Call p)

def Loop.init : Loop p where
  heap _ := ⟨0, false, 0, false, false, false, 0⟩
  links :=
    ⟨fun x => if x = .head then .head else .null, fun x => if x = .head then .head else .null⟩
  table := ⟨fun _ => 0, 0⟩
  readFds := ∅
  writeFds := ∅
  errorFds := ∅
  selectN := 0
  closed := []
  calls := []

section List

def plistEnqueue (m : Links (Node p)) (a : Pointer p) : Except Fault (Links (Node p)) :=
  let m := m.setNext (.fde a) .head
  let m := m.setPrev (.fde a) (m.prev .head)
  if m.prev (.fde a) = .null then .error .nullPointer
  else
    let m := m.setNext (m.prev (.fde a)) (.fde a)
    .ok (m.setPrev .head (.fde a))

def clearLinks (m : Links (Node p)) (a : Pointer p) : Links (Node p) :=
  (m.setNext (.fde a) .null).setPrev (.fde a) .null

def plistRemove (m : Links (Node p)) (a : Pointer p) : Except Fault (Links (Node p)) :=
  if m.prev (.fde a) = .null then .error .nullPointer
  else
    let m := m.setNext (m.prev (.fde a)) (m.next (.fde a))
    if m.next (.fde a) = .null then .error .nullPointer
    else .ok (clearLinks (m.setPrev (m.next (.fde a)) (m.prev (.fde a))) a)

def plistDequeue (m : Links (Node p)) : Except Fault (Option (Pointer p × Links (Node p))) :=
  match m.next .head with
  | .head => .ok none
  | .null => .error .nullPointer
  | .fde a =>
      let m := m.setNext .head (m.next (.fde a))
      if m.next .head = .null then .error .nullPointer
      else .ok (some (a, clearLinks (m.setPrev (m.next .head) .head) a))

end List

namespace Loop

variable (w : Loop p)

def setFde (a : Pointer p) (x : Fde) : Loop p := { w with heap := Function.update w.heap a x }

def inFdSet (fd : ℤ) : Except Fault Unit :=
  if 0 ≤ fd ∧ fd < FD_SETSIZE then .ok () else .error (.beyondFdSet fd)

def fdeventConnect (a : Pointer p) : Loop p :=
  if (w.selectN : ℤ) ≤ (w.heap a).fd then { w with selectN := (w.heap a).fd.toNat + 1 } else w

def lastUsed : ℕ :=
  (List.range w.selectN).foldl (fun n i => if (w.table.slot i).isSome then i else n) 0

def fdeventDisconnect (a : Pointer p) : Except Fault (Loop p) := do
  inFdSet (w.heap a).fd
  let fd := (w.heap a).fd.toNat
  return { w with
    readFds := w.readFds.erase fd
    writeFds := w.writeFds.erase fd
    errorFds := w.errorFds.erase fd
    selectN := w.lastUsed + 1 }

/-- `FD_SET` or `FD_CLR`, as the bit is among the events. -/
def setFd (fds : Finset ℕ) (fd : ℕ) (events bit : BitVec 8) : Finset ℕ :=
  if events &&& bit ≠ 0 then insert fd fds else fds.erase fd

def fdeventUpdate (a : Pointer p) (events : BitVec 8) : Except Fault (Loop p) := do
  inFdSet (w.heap a).fd
  let fd := (w.heap a).fd.toNat
  return { w.setFde a { w.heap a with interest := events } with
    readFds := setFd w.readFds fd events FDE_READ
    writeFds := setFd w.writeFds fd events FDE_WRITE
    errorFds := setFd w.errorFds fd events FDE_ERROR }

def fdeventRegister (a : Pointer p) (fresh : Option Memory) : Except Fault (Loop p) := do
  let table ← w.table.register a (w.heap a).fd fresh
  return if w.table.max = 0 then
      { w with table := table, readFds := ∅, writeFds := ∅, errorFds := ∅ }
    else { w with table := table }

def fdeventUnregister (a : Pointer p) : Except Fault (Loop p) := do
  let x := w.heap a
  let table ← w.table.unregister a x.fd
  return { w with
    table := table
    closed := if x.interest &&& FDE_DONT_CLOSE = 0 then w.closed ++ [x.fd] else w.closed }

def prepared (a : Pointer p) (fd : ℤ) : Loop p :=
  { w with
    heap := Function.update w.heap a ⟨fd, false, 0, true, false, false, 0⟩
    links := clearLinks w.links a }

def fdeventInstall (a : Pointer p) (fd : ℤ) (fresh : Option Memory) : Except Fault (Loop p) := do
  let w ← (w.prepared a fd).fdeventRegister a fresh
  return w.fdeventConnect a

def fdeventCreate (a : Pointer p) (fd : ℤ) (fresh : Option Memory) : Except Fault (Loop p) := do
  let w ← w.fdeventInstall a fd fresh
  return w.setFde a { w.heap a with created := true }

def unlinkFde (a : Pointer p) : Except Fault (Loop p) := do
  let links ← plistRemove w.links a
  return { w with links := links }

def unlinkPending (a : Pointer p) : Except Fault (Loop p) :=
  if (w.heap a).pending then w.unlinkFde a else .ok w

def disconnectActive (a : Pointer p) : Except Fault (Loop p) :=
  if (w.heap a).active then do
    let w ← w.fdeventDisconnect a
    w.fdeventUnregister a
  else .ok w

def fdeventRemove (a : Pointer p) : Except Fault (Loop p) := do
  let w ← w.unlinkPending a
  let w ← w.disconnectActive a
  return w.setFde a { w.heap a with
    interest := 0, active := false, pending := false, created := false, events := 0 }

def fdeventDestroy (a : Pointer p) : Except Fault (Loop p) :=
  if (w.heap a).created then w.fdeventRemove a else .error .notCreated

def dropEvents (a : Pointer p) (events : BitVec 8) : Except Fault (Loop p) :=
  let x := w.heap a
  let left := x.events &&& ~~~events
  if x.pending then
    if left = 0 then do
      let w ← w.unlinkFde a
      return w.setFde a { x with events := left, pending := false }
    else .ok (w.setFde a { x with events := left })
  else .ok w

def updateActive (a : Pointer p) (events : BitVec 8) : Except Fault (Loop p) :=
  if (w.heap a).active then w.fdeventUpdate a events else .ok w

def fdeventSet (a : Pointer p) (events : BitVec 32) : Except Fault (Loop p) :=
  let events := events.setWidth 8
  if (w.heap a).interest = events then .ok w
  else do
    let w ← w.updateActive a events
    let w := w.setFde a { w.heap a with interest := events }
    w.dropEvents a events

def fdeventAdd (a : Pointer p) (events : BitVec 32) : Except Fault (Loop p) :=
  w.fdeventSet a (((w.heap a).interest ||| events.setWidth 8).setWidth 32)

def fdeventDel (a : Pointer p) (events : BitVec 32) : Except Fault (Loop p) :=
  w.fdeventSet a (((w.heap a).interest &&& ~~~ events.setWidth 8).setWidth 32)

def report (a : Pointer p) (events : BitVec 8) : Except Fault (Loop p) :=
  let x := { w.heap a with events := (w.heap a).events ||| events }
  if x.pending then .ok (w.setFde a x)
  else do
    let links ← plistEnqueue w.links a
    return { w.setFde a { x with pending := true } with links := links }

def badFds (bad : ℕ → Bool) : List ℕ :=
  (List.range w.selectN).filter (fun i => (w.table.slot i).isSome && bad i)

end Loop

inductive Errno where
  | eintr
  | ebadf
  | other
  deriving DecidableEq, Repr

/-- What the kernel says when `fdevent_process` asks: the result of `select`, the bits it leaves of
the sets it is given, and the descriptors `fcntl` fails on. -/
structure Selected where
  n : ℤ
  errno : Errno
  read : Finset ℕ
  write : Finset ℕ
  error : Finset ℕ
  bad : ℕ → Bool

structure FdSets where
  r : Finset ℕ
  w : Finset ℕ
  e : Finset ℕ

namespace FdSets

variable (s : FdSets) (i : ℕ)

def events : BitVec 8 :=
  (if i ∈ s.r then FDE_READ else 0) ||| (if i ∈ s.w then FDE_WRITE else 0) |||
    (if i ∈ s.e then FDE_ERROR else 0)

def count : ℤ :=
  (if i ∈ s.r then 1 else 0) + (if i ∈ s.w then 1 else 0) + (if i ∈ s.e then 1 else 0)

end FdSets

namespace Loop

def processLoop (s : FdSets) : List ℕ → ℤ → Loop p → Except Fault (Loop p)
  | [], _, w => .ok w
  | i :: is, n, w =>
      if n ≤ 0 then .ok w
      else if s.events i = 0 then processLoop s is (n - s.count i) w
      else
        match w.table.slot i with
        | none => .error (.missingFde i)
        | some a => do
            let w ← w.report a (s.events i)
            processLoop s is (n - s.count i) w

variable (w : Loop p)

def selectedSets (x : Selected) : FdSets :=
  let zero := x.n < 0
  let r := if zero then ∅ else w.readFds ∩ x.read
  { r := if x.n ≤ 0 then r ∪ (w.badFds x.bad).toFinset else r
    w := if zero then ∅ else w.writeFds ∩ x.write
    e := if zero then ∅ else w.errorFds ∩ x.error }

def fdeventProcess (x : Selected) : Except Fault (Loop p) :=
  if x.n < 0 ∧ x.errno ≠ .ebadf then .ok w
  else
    processLoop (w.selectedSets x) (List.range w.selectN)
      (if x.n ≤ 0 then (w.badFds x.bad).length else x.n) w

def fdeventCallFdfunc (a : Pointer p) : Loop p :=
  let x := w.heap a
  if x.pending then
    { w.setFde a { x with events := 0, pending := false } with
      calls := w.calls ++ [⟨a, x.fd, x.events⟩] }
  else w.setFde a { x with events := 0 }

def dispatch : Except Fault (Loop p) :=
  match plistDequeue w.links with
  | .error e => .error e
  | .ok none => .ok w
  | .ok (some (a, links)) => .ok ({ w with links := links }.fdeventCallFdfunc a)

/-- The rest of `fdevent_subproc_event_func` once it has read the descriptor of a shell: `rcount` is
what `FIONREAD` says. -/
def subprocExited (subprocFd : ℤ) (rcount : ℤ) : Loop p :=
  if subprocFd < 0 ∨ (w.table.max : ℤ) ≤ subprocFd then w
  else
    match w.table.slot subprocFd.toNat with
    | none => w
    | some b =>
        if (w.heap b).fd ≠ subprocFd then w
        else
          let w := w.setFde b { w.heap b with forceEof := true }
          if rcount ≠ 0 then w
          else
            let x := { w.heap b with events := (w.heap b).events ||| FDE_READ }
            if x.pending then w.setFde b x
            else (w.setFde b { x with pending := true }).fdeventCallFdfunc b

def subprocRead (fd : ℤ) (ev : BitVec 8) (input : Option ℤ) (rcount : ℤ) : Except Fault (Loop p) :=
  if ev &&& FDE_READ = 0 then .ok w
  else
    match input with
    | none => .error (.subprocUnread fd)
    | some subprocFd => .ok (w.subprocExited subprocFd rcount)

def fdeventSubprocEventFunc (fd : ℤ) (ev : BitVec 8) (input : Option ℤ) (rcount : ℤ) :
    Except Fault (Loop p) :=
  if fd < 0 ∨ (w.table.max : ℤ) ≤ fd then .error (.outOfRange fd)
  else
    match w.table.slot fd.toNat with
    | none => .error .nullPointer
    | some a => do
        let w ← w.fdeventAdd a (FDE_READ.setWidth 32)
        w.subprocRead fd ev input rcount

end Loop

inductive Action (p : Platform) where
  | install (a : Pointer p) (fd : ℤ) (fresh : Option Memory)
  | create (a : Pointer p) (fd : ℤ) (fresh : Option Memory)
  | remove (a : Pointer p)
  | destroy (a : Pointer p)
  | set (a : Pointer p) (events : BitVec 32)
  | add (a : Pointer p) (events : BitVec 32)
  | del (a : Pointer p) (events : BitVec 32)
  | process (x : Selected)
  | dispatch
  | subproc (fd : ℤ) (ev : BitVec 8) (input : Option ℤ) (rcount : ℤ)

def Loop.run (w : Loop p) : Action p → Except Fault (Loop p)
  | .install a fd fresh => w.fdeventInstall a fd fresh
  | .create a fd fresh => w.fdeventCreate a fd fresh
  | .remove a => w.fdeventRemove a
  | .destroy a => w.fdeventDestroy a
  | .set a events => w.fdeventSet a events
  | .add a events => w.fdeventAdd a events
  | .del a events => w.fdeventDel a events
  | .process x => w.fdeventProcess x
  | .dispatch => w.dispatch
  | .subproc fd ev input rcount => w.fdeventSubprocEventFunc fd ev input rcount

def Loop.step (w : Loop p) (x : Action p) : Option (Loop p) := (w.run x).toOption

end PaxAdb.FdEvents
