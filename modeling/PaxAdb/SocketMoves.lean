import Mathlib.Logic.Relation
import PaxAdb.GraphOpen

/-!
# The moves handlers are made of

A handler changes the server in a few moves, each of which leaves the socket graph in order.
Everything that is proved about all handlers is proved for each kind of move. Packets of the device
that concern a connection are not moves: what they do is described by `Receive` in one piece.
-/

namespace PaxAdb.Sockets

open ASocket Server

inductive Closes (a : Addr) (w : Server) : Server → Prop where
  | alone {s : ASocket} {w' : Server} (ha : w.socket a = some s) (hloc : s.IsLocal)
      (hp : s.peer = none) (hs : StatusOnly a (w.store a s.plain) w') :
      Closes a w (w'.finished a s.plain)
  | other {s q : ASocket} {p : Addr} (ha : w.socket a = some s) (hloc : s.IsLocal)
      (hp : s.peer = some p) (hq : w.socket p = some q) (hother : ¬ q.IsLocal) :
      Closes a w ((w.shutdownFor s q).closedWith a s p q)
  | both {s q : ASocket} {p : Addr} (ha : w.socket a = some s) (hloc : s.IsLocal)
      (hp : s.peer = some p) (hq : w.socket p = some q) (hqloc : q.IsLocal) :
      Closes a w (w.closedBoth a s p q)

/-- Under which conditions a move may lose something: `loss` of data queued on a closing socket,
and `drop` of a socket that waits for its connection. -/
structure Licence where
  loss : Prop
  drop : Prop

namespace Server

variable (w : Server)

def wroteData (a : Addr) (bytes : List Byte) (writes : List WriteResult) : Server :=
  { w.wrote a .data bytes with writes := writes }

def markFailed (a : Addr) : Server := w.setTrace a { w.trace a with failed := true }

def queued (a : Addr) (s : ASocket) (bytes : List Byte) : Server :=
  (w.store a { s with queue := s.queue ++ [bytes] }).fdeventSet a
    { s with queue := s.queue ++ [bytes] } (s.fde.state.union .fdeWrite)

def emptied (a : Addr) (s : ASocket) : Server :=
  (w.store a { s with queue := [] }).fdeventSet a { s with queue := [] }
    (s.fde.state.without .fdeWrite)

def resumed (a : Addr) (s : ASocket) : Server := w.fdeventSet a s (s.fde.state.union .fdeRead)

def paused (a : Addr) (s : ASocket) : Server := w.fdeventSet a s (s.fde.state.without .fdeRead)

def fed (a : Addr) (s q : ASocket) (t : TransportId) (bytes : List Byte) : Server :=
  ((w.setTrace a { w.trace a with got := (w.trace a).got ++ bytes }).sendPacket
    ⟨.aWrte, s.id, q.id, bytes⟩ t).paused a s

end Server

def Server.Aside (w : Server) (s : ASocket) : Prop :=
  ∃ p q, s.peer = some p ∧ w.socket p = some q ∧ ¬ q.IsRemote

inductive Move (X : Licence) (w : Server) : Server → Prop where
  | status {a : Addr} {w' : Server} (h : StatusOnly a w w') : Move X w w'
  | results (reads : List ReadResult) (writes : List WriteResult) :
      Move X w { w with reads := reads, writes := writes }
  | report {a : Addr} {s : ASocket} {ev : Events} {bad : Bool} (ha : w.socket a = some s)
      (hloc : s.IsLocal) (hne : ev ≠ .none) (hw : ev.write = true → s.fde.state.write = true)
      (hr : ev.read = true → s.fde.state.read = true ∨ bad = true) :
      Move X w (reportEvents w a ev bad)
  | dequeue {a : Addr} {rest : List Addr} {s : ASocket} (hl : w.listPending = a :: rest)
      (ha : w.socket a = some s) :
      Move X w { w.store a { s with fde := { s.fde with events := .none } } with
        listPending := rest }
  | resume {a : Addr} {s : ASocket} (ha : w.socket a = some s) (hloc : s.IsLocal)
      (hp : w.Aside s) : Move X w (w.resumed a s)
  | pause {a : Addr} {s : ASocket} (ha : w.socket a = some s) (hloc : s.IsLocal)
      (hp : s.peer = none ∨ w.Aside s) (hr : s.fde.events.read = false ∨ s.closing = true) :
      Move X w (w.paused a s)
  | feed {a p : Addr} {s q : ASocket} {t : TransportId} {bytes : List Byte}
      (ha : w.socket a = some s) (hloc : s.IsLocal) (hp : s.peer = some p)
      (hq : w.socket p = some q) (hrem : q.IsRemote) (ht : q.transport = some t) (hb : bytes ≠ [])
      (hread : s.fde.state.read = true) (hev : s.fde.events.read = false) :
      Move X w (w.fed a s q t bytes)
  | wrote {a p : Addr} {s q : ASocket} (ha : w.socket a = some s) (hloc : s.IsLocal)
      (hp : s.peer = some p) (hq : w.socket p = some q) (hrem : ¬ q.IsRemote) (hsm : ¬ q.IsSmart)
      (hempty : s.queue = []) (bytes : List Byte) (writes : List WriteResult) :
      Move X w (w.wroteData a bytes writes)
  | queue {a p : Addr} {s q : ASocket} (ha : w.socket a = some s) (hloc : s.IsLocal)
      (hp : s.peer = some p) (hq : w.socket p = some q) (hrem : ¬ q.IsRemote) (hsm : ¬ q.IsSmart)
      (bytes : List Byte) : Move X w (w.queued a s bytes)
  | failed (a : Addr) : Move X w (w.markFailed a)
  | drain {a : Addr} {s : ASocket} {queue : List (List Byte)} {bytes : List Byte}
      (ha : w.socket a = some s) (hloc : s.IsLocal) (hne : queue ≠ [])
      (hlen : queue.length ≤ s.queue.length) (hflat : s.queue.flatten = bytes ++ queue.flatten)
      (writes : List WriteResult) :
      Move X w ((w.wroteData a bytes writes).store a { s with queue := queue })
  | drained {a : Addr} {s : ASocket} (ha : w.socket a = some s) (hloc : s.IsLocal)
      (hp : w.Aside s) (hev : s.fde.events.write = false) (writes : List WriteResult) :
      Move X w ((w.wroteData a s.queue.flatten writes).emptied a s)
  | answer {a p : Addr} {s q : ASocket} {t : TransportId} (ha : w.socket a = some s)
      (hloc : s.IsLocal) (hp : s.peer = some p) (hq : w.socket p = some q) (hrem : q.IsRemote)
      (ht : q.transport = some t) (hne : s.queue ≠ []) (hev : s.fde.events.write = false)
      (writes : List WriteResult) :
      Move X w ((((w.wroteData a s.queue.flatten writes).emptied a s).acknowledge a).sendPacket
        ⟨.aOkay, s.id, q.id, []⟩ t)
  | flush {a : Addr} {s : ASocket} (ha : w.socket a = some s) (hloc : s.IsLocal)
      (hc : s.closing = true) (writes : List WriteResult) :
      Move X w (((w.wroteData a s.queue.flatten writes).store a { s with queue := [] }).finished a
        { s with queue := [] })
  | close {a : Addr} {s : ASocket} {w' : Server} (ha : w.socket a = some s) (hloc : s.IsLocal)
      (hl : s.closing = true → (w.trace a).failed = true ∨ X.loss)
      (hd : s.closing = false → s.peer = none → X.drop) (h : Closes a w w') : Move X w w'
  | smart {a : Addr} {s : ASocket} (ha : w.socket a = some s) (hsm : s.IsSmart)
      (queue : List (List Byte)) (t : Option TransportId) :
      Move X w (w.store a { s with queue := queue, transport := t })
  | born : Move X w w.born
  | attachSmart {a : Addr} {s : ASocket} (ha : w.socket a = some s) (hloc : s.IsLocal)
      (hp : s.peer = none) (hc : s.closing = false) (ht : s.transport = none) :
      Move X w (w.attachSmart a s)
  | attachTracker {a : Addr} {s : ASocket} (ha : w.socket a = some s) (hloc : s.IsLocal)
      (hp : s.peer = none) (hc : s.closing = false) (ht : s.transport = none) :
      Move X w (w.attachTracker a s)
  | join {a b : Addr} {s q : ASocket} (ha : w.socket a = some s) (hb : w.socket b = some q)
      (hloc : s.IsLocal) (hqloc : q.IsLocal) (hne : a ≠ b) (hp : s.peer = none)
      (hqp : q.peer = none) (hc : s.closing = false) (hqc : q.closing = false)
      (hcb : s.close = .localSocketClose) (hqcb : q.close = .localSocketClose)
      (ht : s.transport = none) (hqt : q.transport = none) : Move X w (w.joined a s b q)
  | detach {a b : Addr} {s q : ASocket} (ha : w.socket a = some s) (hsm : s.IsSmart)
      (hp : s.peer = some b) (hq : w.socket b = some q) : Move X w (w.detached a b q)
  | notify {a : Addr} {s : ASocket} (ha : w.socket a = some s) (hloc : s.IsLocal)
      (hp : s.peer = none) (hc : s.closing = false) : Move X w (w.store a s.notifying)
  | ask {a : Addr} {s : ASocket} (ha : w.socket a = some s) (hloc : s.IsLocal)
      (hp : s.peer = none) (hc : s.closing = false) (ht : s.transport = none) (t : TransportId)
      (destination : List Byte) : Move X w (w.asked a s t destination)

abbrev Moves (X : Licence) : Server → Server → Prop := Relation.ReflTransGen (Move X)

end PaxAdb.Sockets
