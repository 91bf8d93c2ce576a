import PaxAdb.SocketGraph

/-!
# What the socket operations compute

Each operation applied to live sockets is given as an explicit update of the state: the status
messages only change traces, closing a socket comes down to `finished` once its peer has been
dealt with, and the close callbacks of two peers do the same whichever of them is called.
-/

namespace PaxAdb.Sockets

open ASocket Function

section Except

theorem ok_bind {ε α β : Type} (x : α) (f : α → Except ε β) :
    ((Except.ok x : Except ε α) >>= f) = f x := rfl

theorem pure_eq_ok {ε α : Type} (x : α) : (pure x : Except ε α) = .ok x := rfl

theorem error_bind {ε α β : Type} (e : ε) (f : α → Except ε β) :
    ((Except.error e : Except ε α) >>= f) = .error e := rfl

theorem of_bind_ok {ε α β : Type} {x : Except ε α} {f : α → Except ε β} {b : β}
    (h : (x >>= f) = .ok b) : ∃ a, x = .ok a ∧ f a = .ok b := by
  cases x with
  | error e => cases h
  | ok a => exact ⟨a, rfl, h⟩

theorem of_toOption {ε α : Type} {x : Except ε α} {a : α} (h : x.toOption = some a) :
    x = .ok a := by
  cases x with
  | error e => cases h
  | ok b => exact congrArg Except.ok (Option.some.inj h)

end Except

namespace Server

variable {w : Server} {a b p : Addr} {s q : ASocket}

theorem get_eq (h : w.socket a = some s) : w.get a = .ok s := by
  simp only [get, h]

theorem store_store (w : Server) (a : Addr) (s s' : ASocket) :
    (w.store a s).store a s' = w.store a s' := by
  simp [store]

theorem store_self (h : w.socket a = some s) : w.store a s = w := by
  simp [store, ← h]

theorem socket_store (w : Server) (a : Addr) (s : ASocket) : (w.store a s).socket a = some s := by
  simp [store]

theorem socket_store_ne (w : Server) (s : ASocket) (h : b ≠ a) :
    (w.store a s).socket b = w.socket b := by
  simp [store, h]

structure StatusOnly (a : Addr) (w w' : Server) : Prop where
  eq : ∃ l writes, (∀ x ∈ l, x.1 = Source.status) ∧
    w' = { w with
      trace := update w.trace a
        { w.trace a with output := (w.trace a).output ++ l }
      writes := writes }

theorem StatusOnly.refl (a : Addr) (w : Server) : StatusOnly a w w :=
  ⟨[], w.writes, by simp, by simp⟩

theorem StatusOnly.trans {w₁ w₂ w₃ : Server} (h : StatusOnly a w₁ w₂) (h' : StatusOnly a w₂ w₃) :
    StatusOnly a w₁ w₃ := by
  obtain ⟨l, ws, hl, rfl⟩ := h
  obtain ⟨l', ws', hl', rfl⟩ := h'
  refine ⟨l ++ l', ws', ?_, by simp⟩
  intro x hx
  rcases List.mem_append.mp hx with hx | hx
  · exact hl x hx
  · exact hl' x hx

theorem statusOnly_wrote (w : Server) (a : Addr) (bytes : List Byte) (ws : List WriteResult) :
    StatusOnly a w { w.wrote a .status bytes with writes := ws } :=
  ⟨[(.status, bytes)], ws, by simp, by simp [wrote, setTrace]⟩

theorem statusOnly_writeStatus (w : Server) (a : Addr) (bytes : List Byte) :
    StatusOnly a w (w.writeStatus a bytes) := by
  unfold writeStatus
  split
  · exact statusOnly_wrote w a _ _
  next rest _ _ => exact ⟨[], rest, by simp, by simp⟩
  · exact StatusOnly.refl a w

theorem statusOnly_writex (w : Server) (a : Addr) (bytes : List Byte) :
    StatusOnly a w (w.writex a bytes) :=
  statusOnly_wrote w a _ _

theorem statusOnly_sendfailmsg (w : Server) (a : Addr) (reason : List Byte) :
    StatusOnly a w (w.sendfailmsg a reason) := by
  unfold sendfailmsg
  dsimp only
  split
  · exact (statusOnly_writex w a _).trans (statusOnly_writex _ a _)
  · exact statusOnly_writex w a _

def fdeAfter (w : Server) (a : Addr) (s : ASocket) (events : Events) : Fdevent :=
  if s.fde.state = events then s.fde
  else { s.fde with
    state := events
    events := if a ∈ w.listPending then s.fde.events.without events else s.fde.events }

def pendingAfter (w : Server) (a : Addr) (s : ASocket) (events : Events) : List Addr :=
  if s.fde.state ≠ events ∧ a ∈ w.listPending ∧ s.fde.events.without events = .none then
    w.listPending.erase a
  else w.listPending

theorem fdeventSet_eq (w : Server) (a : Addr) (s : ASocket) (events : Events) :
    w.fdeventSet a s events =
      { w.store a { s with fde := w.fdeAfter a s events } with
        listPending := w.pendingAfter a s events } := by
  unfold fdeventSet fdeAfter pendingAfter
  by_cases hst : s.fde.state = events
  · simp [hst, store]
  · by_cases hp : a ∈ w.listPending
    · by_cases hl : s.fde.events.without events = .none
      · simp [hst, hp, hl, store]
      · simp [hst, hp, hl, store]
    · simp [hst, hp, store]

theorem fdeventAdd_eq (h : w.socket a = some s) (events : Events) :
    w.fdeventAdd a events = .ok (w.fdeventSet a s (s.fde.state.union events)) := by
  simp only [fdeventAdd, get_eq h, ok_bind, pure_eq_ok]

theorem fdeventDel_eq (h : w.socket a = some s) (events : Events) :
    w.fdeventDel a events = .ok (w.fdeventSet a s (s.fde.state.without events)) := by
  simp only [fdeventDel, get_eq h, ok_bind, pure_eq_ok]

def closingSocket (w : Server) (a : Addr) (s : ASocket) : ASocket :=
  { s with closing := true, id := 0, fde := w.fdeAfter a s (s.fde.state.without .fdeRead) }

def finished (w : Server) (a : Addr) (s : ASocket) : Server :=
  if s.closing ∨ s.queue = [] then w.localSocketDestroy a
  else
    { w.store a (w.closingSocket a s) with
      listPending := w.pendingAfter a s (s.fde.state.without .fdeRead)
      localSocketList := w.localSocketList.erase a
      localSocketClosingList := w.localSocketClosingList ++ [a] }

theorem localSocketFinish_eq (h : w.socket a = some s) :
    w.localSocketFinish a = .ok (w.finished a s) := by
  unfold localSocketFinish finished
  by_cases hc : s.closing ∨ s.queue = []
  · simp only [get_eq h, ok_bind, hc, if_true, pure_eq_ok]
  · have hw : (w.store a { s with closing := true }).socket a = some { s with closing := true } :=
      socket_store w a _
    have hw' : ((w.store a { s with closing := true }).fdeventSet a { s with closing := true }
        (s.fde.state.without .fdeRead)).socket a =
        some { s with closing := true, fde := w.fdeAfter a s (s.fde.state.without .fdeRead) } := by
      rw [fdeventSet_eq]
      simp only [store, update_self]
      rfl
    simp only [get_eq h, ok_bind, hc, if_false, pure_eq_ok, fdeventDel_eq hw, get_eq hw']
    rw [fdeventSet_eq]
    simp only [moveToClosing, store, update_idem]
    rfl

def dispose (w : Server) (p : Addr) (q : ASocket) : Server :=
  match q.close, q.transport with
  | .remoteSocketClose, some t =>
      { w.free p with
        disconnects := update w.disconnects t ((w.disconnects t).erase p) }
  | .deviceTrackerClose, _ => { w.free p with deviceTrackerList := w.deviceTrackerList.erase p }
  | _, _ => w.free p

def shutdownFor (w : Server) (s q : ASocket) : Server :=
  match q.shutdown, q.transport with
  | some .remoteSocketShutdown, some t => w.sendPacket ⟨.aClse, s.id, q.id, []⟩ t
  | _, _ => w

def closedWith (w : Server) (a : Addr) (s : ASocket) (p : Addr) (q : ASocket) : Server :=
  ((w.dispose p q).store a { s with peer := none }).finished a { s with peer := none }

def closedBoth (w : Server) (a : Addr) (s : ASocket) (p : Addr) (q : ASocket) : Server :=
  (((w.store p { q with peer := none }).finished p { q with peer := none }).store a
    { s with peer := none }).finished a { s with peer := none }

theorem socket_finished_ne (w : Server) (s : ASocket) (h : b ≠ a) :
    (w.finished a s).socket b = w.socket b := by
  unfold finished
  split <;> simp [localSocketDestroy, free, store, h]

theorem socket_dispose_ne (w : Server) (q : ASocket) (h : b ≠ p) :
    (w.dispose p q).socket b = w.socket b := by
  unfold dispose
  split <;> simp [free, h]

theorem dispose_store (w : Server) (p : Addr) (q q' : ASocket) :
    (w.store p q').dispose p q = w.dispose p q := by
  unfold dispose
  split <;> simp [free, store]

theorem dispose_store_comm (w : Server) (q : ASocket) (s : ASocket) (h : a ≠ p) :
    (w.store a s).dispose p q = (w.dispose p q).store a s := by
  unfold dispose
  split <;> simp [free, store, update_comm h]

theorem dispose_finished_comm (w : Server) (q s : ASocket) (h : a ≠ p) :
    (w.finished a s).dispose p q = (w.dispose p q).finished a s := by
  by_cases hc : s.closing ∨ s.queue = []
  · simp only [finished, hc, if_true]
    unfold dispose
    split <;> simp [localSocketDestroy, free, update_comm h]
  · simp only [finished, hc, if_false]
    unfold dispose
    split <;> simp only [store, free, update_comm h] <;> rfl

theorem dispose_peer (w : Server) (p : Addr) (q : ASocket) (x : Option Addr) :
    w.dispose p { q with peer := x } = w.dispose p q := rfl

end Server

open Server

section Close

variable {w : Server} {a p : Addr} {s q : ASocket} {d : ℕ} {held : Bool}

theorem closeSocket_locked_none (h : w.socket a = some s) (hp : s.peer = none) :
    closeSocket (d + 1) held .locked a w = .ok (w.finished a s) := by
  simp only [closeSocket, get_eq h, ok_bind, hp, pure_eq_ok, localSocketFinish_eq h]

theorem closeSocket_plain (h : w.socket a = some s) (hp : s.peer = none)
    (hc : s.close = .localSocketClose) :
    closeSocket (d + 2) false .callback a w = .ok (w.finished a s) := by
  rw [closeSocket]
  simp only [get_eq h, ok_bind, hc, Bool.false_eq_true, if_false]
  exact closeSocket_locked_none h hp

def ASocket.ClosesOther (q : ASocket) : Prop :=
  (q.close = .remoteSocketClose ∧ q.transport ≠ none) ∨ q.close = .smartSocketClose ∨
    q.close = .deviceTrackerClose

theorem closeSocket_other_none (h : w.socket p = some q) (hp : q.peer = none)
    (hc : q.ClosesOther) : closeSocket (d + 1) held .callback p w = .ok (w.dispose p q) := by
  rw [closeSocket]
  rcases hc with ⟨hc, ht⟩ | hc | hc
  · obtain ⟨t, ht⟩ := Option.ne_none_iff_exists'.mp ht
    simp only [get_eq h, ok_bind, hc, hp, pure_eq_ok, ht, dispose]
  · simp only [get_eq h, ok_bind, hc, hp, pure_eq_ok, dispose]
  · simp only [get_eq h, ok_bind, hc, hp, pure_eq_ok, dispose]

theorem ASocket.ClosesOther.ne_local (hc : q.ClosesOther) : q.close ≠ .localSocketClose := by
  rcases hc with ⟨hc, _⟩ | hc | hc <;> simp [hc]

/-- Closing a local socket whose peer is not local: the peer is told, then it is gone. -/
theorem closeSocket_locked_other (h : w.socket a = some s) (hp : s.peer = some p)
    (hq : w.socket p = some q) (hpeer : q.peer = some a) (hne : p ≠ a) (hc : q.ClosesOther)
    (hs : q.shutdown = some .remoteSocketShutdown → q.transport ≠ none) :
    closeSocket (d + 2) held .locked a w = .ok ((w.shutdownFor s q).closedWith a s p q) := by
  have hshut : w.callShutdown q = .ok (w.shutdownFor s q) := by
    unfold callShutdown
    cases hsd : q.shutdown with
    | none => simp only [shutdownFor, hsd]
    | some x =>
      cases x
      obtain ⟨t, ht⟩ := Option.ne_none_iff_exists'.mp (hs hsd)
      simp only [remoteSocketShutdown, hpeer, get_eq h, ok_bind, pure_eq_ok, ht, shutdownFor, hsd]
  have hsock : (w.shutdownFor s q).socket = w.socket := by
    unfold shutdownFor
    split <;> rfl
  have hp' : ((w.shutdownFor s q).store p { q with peer := none }).socket p =
      some { q with peer := none } := socket_store _ p _
  have ha' : (((w.shutdownFor s q).store p { q with peer := none }).dispose p
      { q with peer := none }).socket a = some s := by
    rw [socket_dispose_ne _ _ (Ne.symm hne), socket_store_ne _ _ (Ne.symm hne), hsock, h]
  rw [closeSocket]
  simp only [get_eq h, ok_bind, hp, get_eq hq, hshut, if_neg hc.ne_local,
    closeSocket_other_none hp' rfl hc, get_eq ha', pure_eq_ok]
  rw [localSocketFinish_eq (socket_store _ a _), dispose_store, dispose_peer]
  rfl

theorem closeSocket_locked_local (h : w.socket a = some s) (hp : s.peer = some p)
    (hq : w.socket p = some q) (hne : p ≠ a) (hc : q.close = .localSocketClose)
    (hs : q.shutdown = none) :
    closeSocket (d + 2) held .locked a w = .ok (w.closedBoth a s p q) := by
  have hshut : w.callShutdown q = .ok w := by simp only [callShutdown, hs]
  have hp' : (w.store p { q with peer := none }).socket p = some { q with peer := none } :=
    socket_store _ p _
  have ha' : ((w.store p { q with peer := none }).finished p { q with peer := none }).socket a =
      some s := by
    rw [socket_finished_ne _ _ (Ne.symm hne), socket_store_ne _ _ (Ne.symm hne), h]
  rw [closeSocket]
  simp only [get_eq h, ok_bind, hp, get_eq hq, hshut, pure_eq_ok, if_pos hc,
    closeSocket_locked_none hp' rfl, get_eq ha']
  rw [localSocketFinish_eq (socket_store _ a _)]
  rfl

theorem closeSocket_callback_local (h : w.socket a = some s) (hc : s.close = .localSocketClose) :
    closeSocket (d + 1) false .callback a w = closeSocket d true .locked a w := by
  rw [closeSocket]
  simp only [get_eq h, ok_bind, hc, Bool.false_eq_true, if_false]

/-- Closing a socket that is not local closes its local peer in the same way. -/
theorem closeSocket_callback_other (h : w.socket p = some q) (hp : q.peer = some a)
    (ha : w.socket a = some s) (hne : a ≠ p) (hc : q.ClosesOther)
    (hs : s.close = .localSocketClose) :
    closeSocket (d + 3) false .callback p w = .ok (w.closedWith a s p q) := by
  have ha' : (w.store a { s with peer := none }).socket a = some { s with peer := none } :=
    socket_store _ a _
  have hclosed : closeSocket (d + 2) false .callback a (w.store a { s with peer := none }) =
      .ok ((w.store a { s with peer := none }).finished a { s with peer := none }) :=
    closeSocket_plain ha' rfl hs
  have hcomm :
      ((w.store a { s with peer := none }).finished a { s with peer := none }).dispose p q =
      w.closedWith a s p q := by
    rw [dispose_finished_comm _ _ _ hne, dispose_store_comm _ _ _ hne]
    rfl
  rw [← hcomm, closeSocket]
  rcases hc with ⟨hc, ht⟩ | hc | hc
  · obtain ⟨t, ht⟩ := Option.ne_none_iff_exists'.mp ht
    simp only [get_eq h, ok_bind, hc, hp, get_eq ha, hclosed, pure_eq_ok, ht, dispose]
  · simp only [get_eq h, ok_bind, hc, hp, get_eq ha, hclosed, pure_eq_ok, dispose]
  · simp only [get_eq h, ok_bind, hc, hp, get_eq ha, hclosed, pure_eq_ok, dispose]

theorem closeSocket_notify (h : w.socket a = some s) (hp : s.peer = none)
    (hc : s.close = .localSocketCloseNotify) :
    closeSocket (d + 3) false .callback a w =
      .ok (((w.store a s.plain).sendfailmsg a (text "closed")).finished a s.plain) := by
  have ha' : ((w.store a s.plain).sendfailmsg a (text "closed")).socket a = some s.plain := by
    obtain ⟨l, ws, _, heq⟩ := statusOnly_sendfailmsg (w.store a s.plain) a (text "closed")
    rw [heq]
    exact socket_store w a _
  rw [closeSocket]
  simp only [get_eq h, ok_bind, hc]
  exact closeSocket_plain ha' hp rfl

end Close

end PaxAdb.Sockets
