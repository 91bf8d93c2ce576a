import PaxAdb.CallbackMoves

/-!
# What the operations leave alone

The records of the sockets an operation does not deal with, and the sockets themselves.
-/

namespace PaxAdb.Sockets

open ASocket Server

variable {w w' : Server} {a b p : Addr} {s q : ASocket}

theorem trace_finished (w : Server) (a : Addr) (s : ASocket) :
    (w.finished a s).trace = w.trace := by
  unfold Server.finished
  split <;> rfl

theorem trace_dispose (w : Server) (p : Addr) (q : ASocket) : (w.dispose p q).trace = w.trace := by
  unfold dispose
  split <;> rfl

theorem trace_shutdownFor (w : Server) (s q : ASocket) : (w.shutdownFor s q).trace = w.trace := by
  unfold shutdownFor
  split <;> rfl

theorem trace_fdeventSet (w : Server) (a : Addr) (s : ASocket) (ev : Events) :
    (w.fdeventSet a s ev).trace = w.trace := by
  rw [fdeventSet_eq]
  rfl

theorem trace_statusOnly_ne (h : StatusOnly a w w') (hb : b ≠ a) : w'.trace b = w.trace b := by
  obtain ⟨l, ws, _, rfl⟩ := h
  exact Function.update_of_ne hb _ _

theorem socket_statusOnly (h : StatusOnly a w w') : w'.socket = w.socket := by
  obtain ⟨l, ws, _, rfl⟩ := h
  rfl

theorem trace_closedWith (w : Server) (a p : Addr) (s q : ASocket) :
    (w.closedWith a s p q).trace = w.trace := by
  rw [Server.closedWith, trace_finished]
  exact trace_dispose w p q

theorem trace_closedBoth (w : Server) (a p : Addr) (s q : ASocket) :
    (w.closedBoth a s p q).trace = w.trace := by
  rw [Server.closedBoth, trace_finished]
  exact trace_finished _ _ _

theorem Closes.trace_frame (h : Closes a w w') (hb : b ≠ a) : w'.trace b = w.trace b := by
  cases h with
  | alone _ _ _ hs =>
    rw [trace_finished, trace_statusOnly_ne hs hb]
    rfl
  | other => rw [trace_closedWith, trace_shutdownFor]
  | both => rw [trace_closedBoth]

theorem trace_wroteData_ne (w : Server) (bytes : List Byte) (ws : List WriteResult) (hb : b ≠ a) :
    (w.wroteData a bytes ws).trace b = w.trace b := Function.update_of_ne hb _ _

theorem trace_queued (w : Server) (a : Addr) (s : ASocket) (bytes : List Byte) :
    (w.queued a s bytes).trace = w.trace := trace_fdeventSet _ _ _ _

theorem Enqueued.trace_frame {bytes : List Byte} {r : ℤ} (he : Enqueued a s bytes w w' r)
    (hb : b ≠ a) : w'.trace b = w.trace b := by
  cases he with
  | queued => rw [trace_queued]
  | done => exact trace_wroteData_ne w _ _ hb
  | blocked =>
    rw [trace_queued]
    exact trace_wroteData_ne w _ _ hb
  | failed _ _ hcl =>
    rw [hcl.trace_frame hb]
    exact (Function.update_of_ne hb _ _).trans (trace_wroteData_ne w _ _ hb)

theorem attachRemote_socket_ne (w : Server) (s : ASocket) (id : ℕ) (t : TransportId) (hb : b ≠ a)
    (hlt : b < w.nextAddr) : (w.attachRemote a s id t).socket b = w.socket b :=
  (socket_store_ne _ _ hb).trans (socket_store_ne _ _ hlt.ne)

theorem resumed_socket_ne (w : Server) (s : ASocket) (h : b ≠ a) :
    (w.resumed a s).socket b = w.socket b := fdeventSet_socket_ne _ _ _ h

theorem trace_resumed (w : Server) (a : Addr) (s : ASocket) : (w.resumed a s).trace = w.trace :=
  trace_fdeventSet _ _ _ _

end PaxAdb.Sockets
