import PaxAdb.MoveGraph

/-!
# The callbacks as moves

What the close, enqueue and ready callbacks do when the socket graph is in order. They do not fail,
except that the server may be told to exit, and that a handler goes on with a socket which a
callback has destroyed meanwhile.
-/

namespace PaxAdb.Sockets

open ASocket Server

/-- The computation ends with a result that satisfies `P`, or with a fault in `F`. -/
def EndsIn {α : Type} (F : Fault → Prop) (P : α → Prop) : Except Fault α → Prop
  | .ok x => P x
  | .error f => F f

namespace EndsIn

variable {α β : Type} {F F' : Fault → Prop} {P P' : α → Prop} {Q : β → Prop} {x : Except Fault α}

theorem bind {f : α → Except Fault β} (h : EndsIn F P x) (hf : ∀ a, P a → EndsIn F Q (f a)) :
    EndsIn F Q (x >>= f) := by
  cases x with
  | ok a => exact hf a h
  | error e => exact h

theorem mono (h : EndsIn F P x) (hP : ∀ a, P a → P' a) : EndsIn F P' x := by
  cases x with
  | ok a => exact hP a h
  | error e => exact h

theorem faults (h : EndsIn F P x) (hF : ∀ f, F f → F' f) : EndsIn F' P x := by
  cases x with
  | ok a => exact h
  | error e => exact hF e h

theorem of_eq {a : α} (hx : x = .ok a) (h : P a) : EndsIn F P x := by
  rw [hx]
  exact h

end EndsIn

/-- A handler ends, with one of the two faults that are possible or a result. -/
abbrev Ends {α : Type} (P : α → Prop) : Except Fault α → Prop :=
  EndsIn (fun f => f = .exit ∨ f = .useAfterFree) P

abbrev Succeeds {α : Type} (P : α → Prop) : Except Fault α → Prop := EndsIn (fun _ => False) P

theorem Succeeds.ends {α : Type} {P : α → Prop} {x : Except Fault α} (h : Succeeds P x) :
    Ends P x :=
  h.faults fun _ => False.elim

variable {X : Licence} {env : Env} {w w' : Server} {a p : Addr} {s q : ASocket}

section Close

theorem ASocket.plain_eq (hr : s.ready = .localSocketReady ∧ s.close = .localSocketClose)
    (hs : s.shutdown = none) : s.plain = s := by
  simp only [ASocket.plain, ← hr.1, ← hr.2, ← hs]

theorem shutdown_ok (h : Graph w) (hq : w.socket p = some q) (hk : ¬ q.IsLocal)
    (hs : q.shutdown = some .remoteSocketShutdown) : q.transport ≠ none := by
  have hsane := h.otherSane hq hk
  cases hkind : q.enqueue with
  | localSocketEnqueue => exact absurd hkind hk
  | remoteSocketEnqueue => exact (hsane.remote hkind).2.2.2.1
  | smartSocketEnqueue => exact absurd (hs.symm.trans (hsane.smart hkind).2.1) (by simp)
  | deviceTrackerEnqueue => exact absurd (hs.symm.trans (hsane.tracker hkind).2.1) (by simp)

theorem closeSocket_locked (h : Graph w) (ha : w.socket a = some s) (hloc : s.IsLocal)
    (hp : s.peer = some p) (d : ℕ) (held : Bool) :
    ∃ w', closeSocket (d + 2) held .locked a w = .ok w' ∧ Closes a w w' := by
  obtain ⟨hne, q, hq, hlink⟩ := h.peer_spec ha hp
  by_cases hk : q.IsLocal
  · have hqsane := h.localSane hq hk
    have hqp : q.peer ≠ none := by simp [hlink.peer]
    exact ⟨_, closeSocket_locked_local ha hp hq hne (hqsane.plain_of_peer hqp).2 hqsane.shutdown,
      .both ha hloc hp hq hk⟩
  · exact ⟨_, closeSocket_locked_other ha hp hq hlink.peer hne ((h.otherSane hq hk).closesOther hk)
      (shutdown_ok h hq hk), .other ha hloc hp hq hk⟩

theorem close_eq (h : Graph w) (ha : w.socket a = some s) (hloc : s.IsLocal) :
    ∃ w', w.close a = .ok w' ∧ Closes a w w' := by
  have hsane := h.localSane ha hloc
  cases hp : s.peer with
  | none =>
    rcases hsane.callbacks with hcb | hcb
    · refine ⟨_, closeSocket_plain ha hp hcb.2, ?_⟩
      have hplain := ASocket.plain_eq hcb hsane.shutdown
      have := Closes.alone ha hloc hp (StatusOnly.refl a (w.store a s.plain))
      rwa [hplain, store_self ha] at this
    · exact ⟨_, closeSocket_notify ha hp hcb.2, .alone ha hloc hp (statusOnly_sendfailmsg _ a _)⟩
  | some p =>
    obtain ⟨w', hw', hcl⟩ := closeSocket_locked h ha hloc hp 1 true
    have hclose := (hsane.plain_of_peer (by simp [hp])).2
    exact ⟨w', (closeSocket_callback_local ha hclose).trans hw', hcl⟩

theorem close_other_eq (h : Graph w) (hq : w.socket p = some q) (hk : ¬ q.IsLocal)
    (hp : q.peer = some a) (ha : w.socket a = some s) :
    w.close p = .ok (w.closedWith a s p q) := by
  have hlink := h.linked hq hp ha
  have hloc := h.isLocal_of_peer hq hp ha hk
  exact closeSocket_callback_other hq hp ha (h.peer_spec hq hp).1
    ((h.otherSane hq hk).closesOther hk)
    ((h.localSane ha hloc).plain_of_peer (by simp [hlink.peer])).2

theorem shutdownFor_eq (hs : q.shutdown = none) : w.shutdownFor s q = w := by
  simp only [shutdownFor, hs]

theorem close_client (h : Graph w) (hq : w.socket p = some q) (hk : ¬ q.IsLocal)
    (hrem : ¬ q.IsRemote) (hp : q.peer = some a) (ha : w.socket a = some s) :
    ∃ w', w.close p = .ok w' ∧ Closes a w w' := by
  have hlink := h.linked hq hp ha
  have hsane := h.otherSane hq hk
  have hshut : q.shutdown = none := by
    cases hkind : q.enqueue with
    | localSocketEnqueue => exact absurd hkind hk
    | remoteSocketEnqueue => exact absurd hkind hrem
    | smartSocketEnqueue => exact (hsane.smart hkind).2.1
    | deviceTrackerEnqueue => exact (hsane.tracker hkind).2.1
  have := Closes.other ha (h.isLocal_of_peer hq hp ha hk) hlink.peer hq hk
  rw [shutdownFor_eq hshut] at this
  exact ⟨_, close_other_eq h hq hk hp ha, this⟩

theorem Move.close_of_peer (h : Graph w) (ha : w.socket a = some s) (hloc : s.IsLocal)
    (hp : s.peer ≠ none) (hcl : Closes a w w') : Move X w w' :=
  .close ha hloc
    (fun hc => absurd (((h.localSane ha hloc).closing_of_peer hp).symm.trans hc) (by simp))
    (fun _ hn => absurd hn hp) hcl

end Close

section Writes

theorem writeLoop_suffix (retry : Bool) (ws : List WriteResult) (bytes : List Byte) :
    (writeLoop retry ws bytes).1 <:+ bytes := by
  induction ws generalizing bytes with
  | nil => cases bytes <;> simp [writeLoop]
  | cons x ws ih =>
    cases bytes with
    | nil => simp [writeLoop]
    | cons b bytes =>
      cases x with
      | count n => exact (ih _).trans (List.drop_suffix _ _)
      | zero | eagain | error => exact List.suffix_rfl
      | eintr =>
        cases retry with
        | false => exact List.suffix_rfl
        | true => exact ih _

theorem writeLoop_done_iff (retry : Bool) (ws : List WriteResult) (bytes : List Byte) :
    (writeLoop retry ws bytes).2.2 = .done ↔ (writeLoop retry ws bytes).1 = [] := by
  induction ws generalizing bytes with
  | nil => cases bytes <;> simp [writeLoop]
  | cons x ws ih =>
    cases bytes with
    | nil => simp [writeLoop]
    | cons b bytes =>
      cases x with
      | count n => exact ih _
      | zero | eagain | error => simp [writeLoop]
      | eintr =>
        cases retry with
        | false => simp [writeLoop]
        | true => exact ih _

theorem take_append_of_suffix {rest bytes : List Byte} (h : rest <:+ bytes) :
    bytes.take (bytes.length - rest.length) ++ rest = bytes := by
  obtain ⟨pre, rfl⟩ := h
  simp

def Server.written (w : Server) (bytes : List Byte) : List Byte :=
  bytes.take (bytes.length - (writeLoop false w.writes bytes).1.length)

def Server.unwritten (w : Server) (bytes : List Byte) : List Byte :=
  (writeLoop false w.writes bytes).1

def Server.attempt (w : Server) (bytes : List Byte) : Outcome :=
  (writeLoop false w.writes bytes).2.2

def Server.attempted (w : Server) (a : Addr) (bytes : List Byte) : Server :=
  w.wroteData a (w.written bytes) (writeLoop false w.writes bytes).2.1

theorem socket_setTrace (w : Server) (a : Addr) (x : Trace) : (w.setTrace a x).socket = w.socket :=
  rfl

theorem socket_attempted (w : Server) (a : Addr) (bytes : List Byte) :
    (w.attempted a bytes).socket = w.socket := rfl

theorem Graph.writeFailed (h : Graph w) (a : Addr) (bytes : List Byte) :
    Graph ((w.attempted a bytes).markFailed a) :=
  (h.wroteData a _ _).setTrace a _

theorem written_append (w : Server) (bytes : List Byte) :
    w.written bytes ++ w.unwritten bytes = bytes :=
  take_append_of_suffix (writeLoop_suffix _ _ _)

theorem written_of_done {bytes : List Byte} (h : w.attempt bytes = .done) :
    w.written bytes = bytes := by
  have := written_append w bytes
  rwa [unwritten, (writeLoop_done_iff _ _ _).mp h, List.append_nil] at this

theorem localSocketEnqueue_queued (ha : w.socket a = some s) (hq : s.queue ≠ [])
    (bytes : List Byte) : localSocketEnqueue a bytes w = .ok (w.queued a s bytes, 1) := by
  have hs := socket_store w a { s with queue := s.queue ++ [bytes] }
  simp only [localSocketEnqueue, get_eq ha, ok_bind, ne_eq, hq, not_false_eq_true, if_true,
    fdeventAdd_eq hs, pure_eq_ok, queued]

theorem localSocketEnqueue_done (ha : w.socket a = some s) (hq : s.queue = [])
    {bytes : List Byte} (h : w.attempt bytes = .done) :
    localSocketEnqueue a bytes w = .ok (w.attempted a bytes, 0) := by
  simp only [attempt] at h
  simp only [localSocketEnqueue, get_eq ha, ok_bind, ne_eq, hq, not_true_eq_false, if_false, h,
    pure_eq_ok]
  rfl

theorem localSocketEnqueue_blocked (ha : w.socket a = some s) (hq : s.queue = [])
    {bytes : List Byte} (h : w.attempt bytes = .blocked) :
    localSocketEnqueue a bytes w =
      .ok ((w.attempted a bytes).queued a s (w.unwritten bytes), 1) := by
  have hs : ((w.attempted a bytes).store a { s with queue := [w.unwritten bytes] }).socket a =
      some { s with queue := [w.unwritten bytes] } := socket_store _ _ _
  simp only [attempt] at h
  simp only [localSocketEnqueue, get_eq ha, ok_bind, ne_eq, hq, not_true_eq_false, if_false, h]
  change (((w.attempted a bytes).store a { s with queue := [w.unwritten bytes] }).fdeventAdd a
    .fdeWrite >>= fun w => pure (w, 1)) = _
  rw [fdeventAdd_eq hs, ok_bind, pure_eq_ok, queued, hq]
  rfl

theorem localSocketEnqueue_failed (ha : w.socket a = some s) (hq : s.queue = [])
    {bytes : List Byte} (h : w.attempt bytes = .failed)
    (hcl : ((w.attempted a bytes).markFailed a).close a = .ok w') :
    localSocketEnqueue a bytes w = .ok (w', 1) := by
  simp only [attempt] at h
  simp only [localSocketEnqueue, get_eq ha, ok_bind, ne_eq, hq, not_true_eq_false, if_false, h]
  change (((w.attempted a bytes).markFailed a).close a >>= fun w => pure (w, 1)) = _
  rw [hcl, ok_bind, pure_eq_ok]

inductive Enqueued (a : Addr) (s : ASocket) (bytes : List Byte) (w : Server) :
    Server → ℤ → Prop where
  | queued (hq : s.queue ≠ []) : Enqueued a s bytes w (w.queued a s bytes) 1
  | done (hq : s.queue = []) (h : w.attempt bytes = .done) :
      Enqueued a s bytes w (w.attempted a bytes) 0
  | blocked (hq : s.queue = []) (h : w.attempt bytes = .blocked) :
      Enqueued a s bytes w ((w.attempted a bytes).queued a s (w.unwritten bytes)) 1
  | failed {w' : Server} (hq : s.queue = []) (h : w.attempt bytes = .failed)
      (hcl : Closes a ((w.attempted a bytes).markFailed a) w') : Enqueued a s bytes w w' 1

theorem localSocketEnqueue_spec (h : Graph w) (ha : w.socket a = some s) (hloc : s.IsLocal)
    (bytes : List Byte) :
    ∃ w' r, localSocketEnqueue a bytes w = .ok (w', r) ∧ Enqueued a s bytes w w' r := by
  by_cases hq : s.queue = []
  · cases hout : w.attempt bytes with
    | done => exact ⟨_, _, localSocketEnqueue_done ha hq hout, .done hq hout⟩
    | blocked => exact ⟨_, _, localSocketEnqueue_blocked ha hq hout, .blocked hq hout⟩
    | failed =>
      obtain ⟨w', hw', hcl⟩ := close_eq (h.writeFailed a bytes) ha hloc
      exact ⟨w', 1, localSocketEnqueue_failed ha hq hout hw', .failed hq hout hcl⟩
  · exact ⟨_, _, localSocketEnqueue_queued ha hq bytes, .queued hq⟩

end Writes

section Frames

variable {b : Addr} {x : ASocket}

theorem finished_self (w : Server) (a : Addr) (s : ASocket) :
    (w.finished a s).socket a =
      if s.closing ∨ s.queue = [] then none else some (w.closingSocket a s) := by
  unfold finished
  split
  · simp [localSocketDestroy, free]
  · exact socket_store _ _ _

theorem shutdownFor_socket (w : Server) (s q : ASocket) :
    (w.shutdownFor s q).socket = w.socket := by
  unfold shutdownFor
  split <;> rfl

theorem Closes.frame (h : Closes a w w') (ha : w.socket a = some s) (hb : b ≠ a)
    (hp : s.peer ≠ some b) : w'.socket b = w.socket b := by
  cases h with
  | alone ha' _ _ hs =>
    obtain ⟨l, ws, _, rfl⟩ := hs
    rw [socket_finished_ne _ _ hb]
    exact socket_store_ne _ _ hb
  | other ha' _ hp' _ _ =>
    cases ha.symm.trans ha'
    have hbp : b ≠ _ := fun he => hp (he ▸ hp')
    rw [closedWith, socket_finished_ne _ _ hb, socket_store_ne _ _ hb,
      socket_dispose_ne _ _ hbp, shutdownFor_socket]
  | both ha' _ hp' _ _ =>
    cases ha.symm.trans ha'
    have hbp : b ≠ _ := fun he => hp (he ▸ hp')
    rw [closedBoth, socket_finished_ne _ _ hb, socket_store_ne _ _ hb,
      socket_finished_ne _ _ hbp, socket_store_ne _ _ hbp]

/-- What is left of the local socket `y` when it has been closed: it waits until its data is
written. -/
structure ASocket.Remnant (y x : ASocket) : Prop where
  closing : x.closing = true
  peer : x.peer = none
  enqueue : x.enqueue = y.enqueue
  isLocal : y.IsLocal
  queue : x.queue = y.queue
  nonempty : y.queue ≠ []

theorem closing_of_finished {y : ASocket} (hx : (w.finished a s).socket a = some x)
    (hp : s.peer = none) (hloc : y.IsLocal) (he : s.enqueue = y.enqueue) (hq : s.queue = y.queue) :
    y.Remnant x := by
  rw [finished_self] at hx
  split at hx
  · cases hx
  next hc =>
    cases hx
    exact ⟨rfl, hp, he, hloc, hq, fun hn => hc (.inr (hq.trans hn))⟩

theorem Closes.left (h : Closes a w w') (hw : Graph w) (ha : w.socket a = some s)
    (hb : b = a ∨ s.peer = some b) (hx : w'.socket b = some x) :
    ∃ y, w.socket b = some y ∧ y.Remnant x := by
  cases h with
  | alone ha' hloc hp hs =>
    cases ha.symm.trans ha'
    have hba : b = a := hb.resolve_right (by simp [hp])
    subst hba
    exact ⟨s, ha, closing_of_finished hx hp hloc rfl rfl⟩
  | @other s' q p ha' hloc hp hq _ =>
    cases ha.symm.trans ha'
    have hne : p ≠ a := (hw.peer_spec ha hp).1
    rcases hb with rfl | hb
    · exact ⟨s, ha, closing_of_finished hx rfl hloc rfl rfl⟩
    · cases hp.symm.trans hb
      rw [closedWith, socket_finished_ne _ _ hne, socket_store_ne _ _ hne, socket_dispose] at hx
      cases hx
  | @both s' q p ha' hloc hp hq hqloc =>
    cases ha.symm.trans ha'
    have hne : p ≠ a := (hw.peer_spec ha hp).1
    rcases hb with rfl | hb
    · exact ⟨s, ha, closing_of_finished hx rfl hloc rfl rfl⟩
    · cases hp.symm.trans hb
      rw [closedBoth, socket_finished_ne _ _ hne, socket_store_ne _ _ hne] at hx
      exact ⟨q, hq, closing_of_finished hx rfl hqloc rfl rfl⟩

theorem fdeventSet_socket (w : Server) (a : Addr) (s : ASocket) (ev : Events) :
    (w.fdeventSet a s ev).socket a = some { s with fde := w.fdeAfter a s ev } := by
  rw [fdeventSet_eq]
  exact socket_store _ _ _

theorem fdeventSet_socket_ne (w : Server) (s : ASocket) (ev : Events) (h : b ≠ a) :
    (w.fdeventSet a s ev).socket b = w.socket b := by
  rw [fdeventSet_eq]
  exact socket_store_ne _ _ h

theorem queued_socket_ne (w : Server) (s : ASocket) (bytes : List Byte) (h : b ≠ a) :
    (w.queued a s bytes).socket b = w.socket b := by
  rw [queued, fdeventSet_socket_ne _ _ _ h]
  exact socket_store_ne _ _ h

end Frames

namespace Enqueued

variable {bytes : List Byte} {r : ℤ}

section Effects

variable (he : Enqueued a s bytes w w' r) (h : Graph w) (ha : w.socket a = some s)

include he h ha

theorem moves (hloc : s.IsLocal) (hp : s.peer = some p) (hq : w.socket p = some q)
    (hrem : ¬ q.IsRemote) (hsm : ¬ q.IsSmart) : Moves X w w' := by
  have hwrote : s.queue = [] → Move X w (w.attempted a bytes) := fun hempty =>
    .wrote ha hloc hp hq hrem hsm hempty _ _
  cases he with
  | queued => exact .single (.queue ha hloc hp hq hrem hsm bytes)
  | done hempty => exact .single (hwrote hempty)
  | blocked hempty =>
    have ha' : (w.attempted a bytes).socket a = some s := ha
    have hq' : (w.attempted a bytes).socket p = some q := hq
    exact .tail (.single (hwrote hempty)) (.queue ha' hloc hp hq' hrem hsm _)
  | failed hempty _ hcl =>
    have hwrote := hwrote hempty
    exact .tail (.tail (.single hwrote) (.failed a))
      (Move.close_of_peer (h.writeFailed a bytes) ha hloc (by simp [hp]) hcl)

theorem peer (hp : s.peer = some p) (hq : w.socket p = some q) :
    w'.socket p = some q ∨ s.queue = [] ∧ w.attempt bytes = .failed ∧
      ∀ x, w'.socket p = some x → x.closing = true ∧ x.IsLocal ∧ x.peer = none ∧ q.queue ≠ [] := by
  have hne : p ≠ a := (h.peer_spec ha hp).1
  cases he with
  | queued | blocked => exact .inl ((queued_socket_ne _ _ _ hne).trans hq)
  | done => exact .inl hq
  | failed hqueue hout hcl =>
    refine .inr ⟨hqueue, hout, fun x hx => ?_⟩
    obtain ⟨y, hy, hrem⟩ := hcl.left (h.writeFailed a bytes) ha (.inr hp) hx
    cases hq.symm.trans hy
    exact ⟨hrem.closing, hrem.enqueue.trans hrem.isLocal, hrem.peer, hrem.nonempty⟩

omit h in
theorem frame {b : Addr} (hb : b ≠ a) (hp : s.peer ≠ some b) : w'.socket b = w.socket b := by
  cases he with
  | queued | blocked => exact queued_socket_ne _ _ _ hb
  | done => rfl
  | failed _ _ hcl =>
    have ha' : ((w.attempted a bytes).markFailed a).socket a = some s := ha
    exact hcl.frame ha' hb hp

theorem gone_iff (hempty : s.queue = []) : w'.socket a = none ↔ w.attempt bytes = .failed := by
  cases he with
  | queued hq => exact absurd hempty hq
  | done _ hout => exact iff_of_false (by simp [socket_attempted, ha]) (by simp [hout])
  | blocked _ hout =>
    exact iff_of_false (by simp [Server.queued, fdeventSet_socket]) (by simp [hout])
  | failed _ hout hcl =>
    refine iff_of_true (Option.eq_none_iff_forall_not_mem.mpr fun x hx => ?_) hout
    obtain ⟨y, hy, hrem⟩ := hcl.left (h.writeFailed a bytes) ha (.inl rfl) hx
    cases ha.symm.trans hy
    exact hrem.nonempty hempty

theorem self : (∃ x, w'.socket a = some x ∧ x.closing = s.closing ∧ x.peer = s.peer ∧
      x.enqueue = s.enqueue ∧ (x.fde.events.read = true → s.fde.events.read = true)) ∨
      w'.socket a = none := by
  cases he with
  | queued | blocked =>
    exact .inl ⟨_, fdeventSet_socket _ _ _ _, rfl, rfl, rfl, fun hr => fdeAfter_events_le.2 hr⟩
  | done => exact .inl ⟨s, ha, rfl, rfl, rfl, id⟩
  | failed hqueue _ hcl =>
    refine .inr (Option.eq_none_iff_forall_ne_some.mpr fun x hx => ?_)
    obtain ⟨y, hy, hrem⟩ := hcl.left (h.writeFailed a bytes) ha (.inl rfl) hx
    cases ha.symm.trans hy
    exact hrem.nonempty hqueue

end Effects

end Enqueued

section Ready

variable {enqueue : Enqueue}

theorem callReady_local (ha : w.socket a = some s) (hr : s.ready = .localSocketReady) :
    callReady env enqueue a w = .ok (w.resumed a s) := by
  simp only [callReady, get_eq ha, ok_bind, hr, fdeventAdd_eq ha, resumed]

theorem callReady_tracker (ha : w.socket a = some s) (hr : s.ready = .deviceTrackerReady)
    (hu : s.updateNeeded = false) : callReady env enqueue a w = .ok w := by
  simp only [callReady, get_eq ha, ok_bind, hr, deviceTrackerReady, hu, Bool.false_eq_true,
    if_false, pure_eq_ok]

theorem callReady_remote (hq : w.socket p = some q) (hr : q.ready = .remoteSocketReady)
    (hp : q.peer = some a) (ha : w.socket a = some s) {t : TransportId}
    (ht : q.transport = some t) : callReady env enqueue p w =
      .ok ((w.acknowledge a).sendPacket ⟨.aOkay, s.id, q.id, []⟩ t) := by
  simp only [callReady, get_eq hq, ok_bind, hr, remoteSocketReady, hp, ht, get_eq ha, pure_eq_ok]

end Ready

end PaxAdb.Sockets
