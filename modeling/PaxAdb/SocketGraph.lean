import Mathlib.Data.List.Nodup
import PaxAdb.EventLoop

/-!
# The socket graph

`Graph` is the invariant the server keeps between two handlers: the peer relation is symmetric and
links only live sockets, one of two peers is always local, the lists hold exactly the sockets they
are for, and the callbacks of a socket fit what it is. An operation touches few sockets, and
`Graph.of_touched` reduces its effect on the invariant to those.
-/

namespace PaxAdb.Sockets

namespace ASocket

variable (s : ASocket)

abbrev IsLocal : Prop := s.enqueue = .localSocketEnqueue

abbrev IsRemote : Prop := s.enqueue = .remoteSocketEnqueue

abbrev IsSmart : Prop := s.enqueue = .smartSocketEnqueue

abbrev IsTracker : Prop := s.enqueue = .deviceTrackerEnqueue

structure LocalSane : Prop where
  shutdown : s.shutdown = none
  callbacks : s.ready = .localSocketReady ∧ s.close = .localSocketClose ∨
    s.ready = .localSocketReadyNotify ∧ s.close = .localSocketCloseNotify
  notify : s.close = .localSocketCloseNotify → s.peer = none ∧ s.closing = false
  closing : s.closing = true → s.peer = none ∧ s.queue ≠ []
  backlog : s.closing = false → s.queue ≠ [] → s.peer ≠ none
  writing : s.fde.state.write = true → s.queue ≠ []
  events : s.fde.events.write = true → s.fde.state.write = true
  reading : s.fde.events.read = true →
    s.fde.state.read = true ∨ s.closing = true ∨ s.fde.bad = true
  id : s.closing = false → s.id ≠ 0
  eof : s.fde.forceEof = false

structure OtherSane : Prop where
  peer : s.peer ≠ none
  closing : s.closing = false
  events : s.fde.events = .none
  remote : s.IsRemote → s.ready = .remoteSocketReady ∧ s.shutdown = some .remoteSocketShutdown ∧
    s.close = .remoteSocketClose ∧ s.transport ≠ none ∧ s.id ≠ 0
  smart : s.IsSmart → s.ready = .smartSocketReady ∧ s.shutdown = none ∧
    s.close = .smartSocketClose ∧ s.id = 0
  tracker : s.IsTracker → s.ready = .deviceTrackerReady ∧ s.shutdown = none ∧
    s.close = .deviceTrackerClose ∧ s.id = 0 ∧ s.updateNeeded = false ∧ s.transport = none

structure Sane : Prop where
  ofLocal : s.IsLocal → s.LocalSane
  ofOther : ¬ s.IsLocal → s.OtherSane

structure Linked (b : Addr) (s q : ASocket) : Prop where
  peer : q.peer = some b
  oneLocal : s.IsLocal ∨ q.IsLocal
  smart : s.IsSmart → q.queue = [] ∧ q.transport = none
  smart' : q.IsSmart → s.queue = [] ∧ s.transport = none

end ASocket

open ASocket

structure Marks where
  listed : Prop
  closing : Prop
  tracker : Prop
  pending : Prop
  disconnect : TransportId → Prop

def Server.marks (w : Server) (b : Addr) : Marks where
  listed := b ∈ w.localSocketList
  closing := b ∈ w.localSocketClosingList
  tracker := b ∈ w.deviceTrackerList
  pending := b ∈ w.listPending
  disconnect t := b ∈ w.disconnects t

structure Marks.Blank (m : Marks) : Prop where
  listed : ¬ m.listed
  closing : ¬ m.closing
  tracker : ¬ m.tracker
  pending : ¬ m.pending
  disconnect : ∀ t, ¬ m.disconnect t

structure Marks.Fit (m : Marks) (s : ASocket) : Prop where
  listed : m.listed ↔ s.IsLocal ∧ s.closing = false
  closing : m.closing ↔ s.IsLocal ∧ s.closing = true
  tracker : m.tracker ↔ s.IsTracker
  pending : m.pending ↔ s.fde.events ≠ .none
  disconnect : ∀ t, m.disconnect t ↔ s.IsRemote ∧ s.transport = some t

structure Server.At (w : Server) (b : Addr) (s : ASocket) : Prop where
  sane : s.Sane
  fit : (w.marks b).Fit s
  link : ∀ p, s.peer = some p → p ≠ b ∧ ∃ q, w.socket p = some q ∧ Linked b s q

structure Server.Good (w : Server) (b : Addr) : Prop where
  live : ∀ s, w.socket b = some s → w.At b s
  gone : w.socket b = none → (w.marks b).Blank

structure Server.Lists (w : Server) : Prop where
  listed : w.localSocketList.Nodup
  closing : w.localSocketClosingList.Nodup
  tracker : w.deviceTrackerList.Nodup
  pending : w.listPending.Nodup
  disconnect : ∀ t, (w.disconnects t).Nodup

structure Graph (w : Server) : Prop where
  good : ∀ b, w.Good b
  lists : w.Lists
  fresh : ∀ b, w.nextAddr ≤ b → w.socket b = none
  nextId : w.localSocketNextId ≠ 0

namespace Graph

variable {w w' : Server} {a b p : Addr} {s q : ASocket}

section Members

variable (h : Graph w) (hb : w.socket b = some s)

include h hb

theorem at_ : w.At b s := (h.good b).live s hb

theorem lt_nextAddr : b < w.nextAddr := by
  by_contra hlt
  rw [h.fresh b (not_lt.mp hlt)] at hb
  cases hb

theorem localSane (hl : s.IsLocal) : s.LocalSane :=
  (h.at_ hb).sane.ofLocal hl

theorem otherSane (hl : ¬ s.IsLocal) : s.OtherSane :=
  (h.at_ hb).sane.ofOther hl

theorem peer_spec (hp : s.peer = some p) : p ≠ b ∧ ∃ q, w.socket p = some q ∧ Linked b s q :=
  (h.at_ hb).link p hp

theorem linked (hp : s.peer = some p) (hq : w.socket p = some q) : Linked b s q := by
  obtain ⟨_, q', hq', hl⟩ := h.peer_spec hb hp
  rw [hq] at hq'
  cases hq'
  exact hl

theorem isLocal_of_peer (hp : s.peer = some p)
    (hq : w.socket p = some q) (hs : ¬ s.IsLocal) : q.IsLocal :=
  (h.linked hb hp hq).oneLocal.resolve_left hs

omit hb in
/-- The rule for all operations: the sockets in `T` are in order afterwards, the others have not
been touched, and those of them with a peer in `T` are still linked to it. -/
theorem of_touched (T : List Addr)
    (hout : ∀ b, b ∉ T → w'.socket b = w.socket b ∧ w'.marks b = w.marks b)
    (hlink : ∀ b s, b ∉ T → w.socket b = some s → ∀ p ∈ T, s.peer = some p →
      ∃ q, w'.socket p = some q ∧ Linked b s q) (hin : ∀ b ∈ T, w'.Good b) (hlists : w'.Lists)
    (hfresh : ∀ b, w'.nextAddr ≤ b → w'.socket b = none) (hid : w'.localSocketNextId ≠ 0) :
    Graph w' := by
  refine ⟨fun b => ?_, hlists, hfresh, hid⟩
  by_cases hb : b ∈ T
  · exact hin b hb
  · obtain ⟨hsock, hmarks⟩ := hout b hb
    constructor
    · intro s hs
      rw [hsock] at hs
      have hat := h.at_ hs
      refine ⟨hat.sane, hmarks ▸ hat.fit, fun p hp => ?_⟩
      obtain ⟨hne, q, hq, hl⟩ := hat.link p hp
      refine ⟨hne, ?_⟩
      by_cases hpT : p ∈ T
      · exact hlink b s hb hs p hpT hp
      · exact ⟨q, by rw [(hout p hpT).1, hq], hl⟩
    · intro hs
      rw [hsock] at hs
      exact hmarks ▸ (h.good b).gone hs

end Members

/-- When `T` contains the peers of its members, no socket outside has a peer in it. -/
theorem no_link_into (h : Graph w) {T : List Addr}
    (hT : ∀ a ∈ T, ∀ s, w.socket a = some s → ∀ p, s.peer = some p → p ∈ T)
    (hb : b ∉ T) (hs : w.socket b = some s) (hp : p ∈ T) (hpeer : s.peer = some p) : False := by
  obtain ⟨_, q, hq, hl⟩ := h.peer_spec hs hpeer
  exact hb (hT p hp q hq b hl.peer)

end Graph

end PaxAdb.Sockets
