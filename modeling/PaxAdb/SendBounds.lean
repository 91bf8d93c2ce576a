import PaxAdb.Pump

/-!
# How many packets a handler sends

The callbacks of the sockets call each other, but each of them calls `send_packet` once at most, and
a socket that is closed has no peer when its peer is closed. A handler therefore sends a few packets
on a transport, and `close_all_sockets` one for each local socket.
-/

namespace PaxAdb.Sockets

open Server EndsIn

section Sends

variable {t : TransportId} {n : ℕ} {env : Env} {w w' : Server} {a b : Addr} {α β : Type}

def Server.Sent (t : TransportId) (n : ℕ) (w : Server) : Prop := (w.outbox t).length ≤ n

/-- What has been sent when the computation ends, if it does. -/
abbrev IfEnds (P : α → Prop) : Except Fault α → Prop := EndsIn (fun _ => True) P

theorem sent_get {f : ASocket → Except Fault α} {P : α → Prop}
    (h : ∀ s, w.socket a = some s → IfEnds P (f s)) : IfEnds P (w.get a >>= f) := by
  unfold Server.get
  cases hs : w.socket a with
  | none => trivial
  | some s => exact h s hs

theorem Server.Sent.succ (h : w.Sent t n) : w.Sent t (n + 1) := Nat.le_succ_of_le h

theorem Server.Sent.fdeventSet (h : w.Sent t n) (a : Addr) (s : ASocket) (ev : Events) :
    (w.fdeventSet a s ev).Sent t n := by
  rw [fdeventSet_eq]
  exact h

theorem Server.Sent.sendPacket (h : w.Sent t n) (x : Packet) (t' : TransportId) :
    (w.sendPacket x t').Sent t (n + 1) := by
  by_cases ht : t = t'
  · subst ht
    have hbox : (w.sendPacket x t).outbox t = w.outbox t ++ [x] := Function.update_self ..
    rw [Server.Sent, hbox, List.length_append]
    exact Nat.succ_le_succ h
  · have hbox : (w.sendPacket x t').outbox t = w.outbox t := Function.update_of_ne ht _ _
    rw [Server.Sent, hbox]
    exact h.succ

theorem Server.Sent.status (h : w.Sent t n) (hs : StatusOnly a w w') : w'.Sent t n := by
  obtain ⟨l, ws, _, rfl⟩ := hs
  exact h

theorem sent_fdeventAdd (h : w.Sent t n) (a : Addr) (ev : Events) :
    IfEnds (Sent t n) (w.fdeventAdd a ev) :=
  sent_get fun s _ => h.fdeventSet a s _

theorem sent_fdeventDel (h : w.Sent t n) (a : Addr) (ev : Events) :
    IfEnds (Sent t n) (w.fdeventDel a ev) :=
  sent_get fun s _ => h.fdeventSet a s _

theorem sent_localSocketFinish (h : w.Sent t n) (a : Addr) :
    IfEnds (Sent t n) (w.localSocketFinish a) := by
  refine sent_get fun s _ => ?_
  dsimp only
  split
  · exact h
  · refine bind (sent_fdeventDel (w := w.store a _) h a _) fun w' h' => ?_
    exact sent_get fun _ _ => h'

theorem sent_callShutdown (h : w.Sent t n) (q : ASocket) :
    IfEnds (Sent t (n + 1)) (w.callShutdown q) := by
  unfold Server.callShutdown
  split
  · unfold Server.remoteSocketShutdown
    cases q.transport with
    | none =>
      cases q.peer with
      | none => trivial
      | some p => exact sent_get fun _ _ => trivial
    | some t' =>
      cases q.peer with
      | none => exact h.sendPacket _ t'
      | some p => exact sent_get fun s _ => h.sendPacket _ t'
  · exact h.succ

/-- Closing a socket without a peer sends nothing. -/
theorem sent_closeSocket_alone (depth : ℕ) (held : Bool) (entry : Entry) (h : w.Sent t n)
    (ha : ∀ s, w.socket a = some s → s.peer = none) :
    IfEnds (Sent t n) (closeSocket depth held entry a w) := by
  induction depth generalizing held entry w with
  | zero => trivial
  | succ depth ih =>
    cases entry with
    | locked =>
      refine sent_get fun s hs => ?_
      rw [ha s hs]
      exact sent_localSocketFinish h a
    | callback =>
      refine sent_get fun s hs => ?_
      have hp := ha s hs
      cases s.close with
      | localSocketClose =>
        cases held with
        | true => trivial
        | false => exact ih true .locked h ha
      | localSocketCloseNotify =>
        have hst := statusOnly_sendfailmsg (w.store a s.plain) a (text "closed")
        refine ih held .callback ((show (w.store a s.plain).Sent t n from h).status hst) ?_
        intro s' hs'
        rw [socket_statusOnly hst, socket_store] at hs'
        cases hs'
        exact hp
      | remoteSocketClose =>
        simp only [hp]
        cases s.transport with
        | none => trivial
        | some t' => exact h
      | smartSocketClose | deviceTrackerClose =>
        simp only [hp]
        exact h

theorem sent_closeSocket (depth : ℕ) (held : Bool) (entry : Entry) (h : w.Sent t n) (a : Addr) :
    IfEnds (Sent t (n + 1)) (closeSocket depth held entry a w) := by
  have halone : ∀ (w : Server) depth held entry p (q : ASocket), w.Sent t (n + 1) →
      IfEnds (Sent t (n + 1))
        (closeSocket depth held entry p (w.store p { q with peer := none })) := by
    intro w depth held entry p q h
    refine sent_closeSocket_alone depth held entry h fun s hs => ?_
    rw [socket_store] at hs
    cases hs
    rfl
  induction depth generalizing held entry w with
  | zero => trivial
  | succ depth ih =>
    cases entry with
    | locked =>
      refine sent_get fun s _ => ?_
      cases s.peer with
      | none => exact sent_localSocketFinish h.succ a
      | some p =>
        refine sent_get fun q _ => bind (sent_callShutdown h q) fun w₁ h₁ => ?_
        refine bind (halone w₁ depth held _ p q h₁) fun w₂ h₂ => sent_get fun s' _ => ?_
        exact sent_localSocketFinish (w := w₂.store a { s' with peer := none }) h₂ a
    | callback =>
      refine sent_get fun s _ => ?_
      cases s.close with
      | localSocketClose =>
        cases held with
        | true => trivial
        | false => exact ih true .locked h
      | localSocketCloseNotify =>
        exact ih held .callback
          ((show (w.store a s.plain).Sent t n from h).status (statusOnly_sendfailmsg _ a _))
      | remoteSocketClose =>
        cases s.peer with
        | none =>
          cases s.transport with
          | none => trivial
          | some t' => exact h.succ
        | some p =>
          refine sent_get fun q _ =>
            bind (halone w depth held .callback p q h.succ) fun w' h' => ?_
          cases s.transport with
          | none => trivial
          | some t' => exact h'
      | smartSocketClose | deviceTrackerClose =>
        cases s.peer with
        | none => exact h.succ
        | some p =>
          exact sent_get fun q _ => bind (halone w depth held .callback p q h.succ)
            fun _ h' => h'

theorem sent_close (h : w.Sent t n) (a : Addr) : IfEnds (Sent t (n + 1)) (w.close a) :=
  sent_closeSocket closeDepth false .callback h a

/-- The result of `enqueue` is passed on with the server. -/
abbrev IfEndsFst (P : Server → Prop) : Except Fault (Server × β) → Prop := IfEnds fun x => P x.1

theorem sent_localSocketEnqueue (h : w.Sent t n) (a : Addr) (bytes : List Byte) :
    IfEndsFst (Sent t (n + 1)) (localSocketEnqueue a bytes w) := by
  unfold localSocketEnqueue
  refine sent_get fun s _ => ?_
  split
  · refine bind (P := Sent t n) ?_ fun w' h' => h'.succ
    refine sent_fdeventAdd ?_ a .fdeWrite
    exact h
  · rcases writeLoop false w.writes bytes with ⟨rest, writes, outcome⟩
    cases outcome with
    | failed =>
      refine bind (P := Sent t (n + 1)) ?_ fun w' h' => h'
      refine sent_close ?_ a
      exact h
    | done => exact h.succ
    | blocked =>
      refine bind (P := Sent t n) ?_ fun w' h' => h'.succ
      refine sent_fdeventAdd ?_ a .fdeWrite
      exact h

theorem sent_callReady {enqueue : Enqueue} (h : w.Sent t n) (a : Addr)
    (henq : ∀ p bytes (w : Server), w.Sent t n →
      IfEndsFst (Sent t (n + 1)) (enqueue p bytes w)) :
    IfEnds (Sent t (n + 1)) (callReady env enqueue a w) := by
  refine sent_get fun s _ => ?_
  cases s.ready with
  | localSocketReady => exact (sent_fdeventAdd h a _).mono fun _ => Server.Sent.succ
  | localSocketReadyNotify =>
    have hst := statusOnly_writeStatus (w.store a s.plain) a (text "OKAY")
    exact (sent_fdeventAdd ((show (w.store a s.plain).Sent t n from h).status hst) a _).mono
      fun _ => Server.Sent.succ
  | remoteSocketReady =>
    refine sent_get fun s _ => ?_
    cases s.peer with
    | none => trivial
    | some b =>
      cases s.transport with
      | none => trivial
      | some t' => exact sent_get fun q _ => Server.Sent.sendPacket (w := w.acknowledge b) h _ t'
  | smartSocketReady => exact h.succ
  | deviceTrackerReady =>
    refine sent_get fun s _ => ?_
    split
    · refine bind (P := fun x => x.1.Sent t (n + 1)) ?_ fun _ h' => h'
      refine sent_get fun s _ => ?_
      cases s.peer with
      | none => trivial
      | some p => exact henq p _ _ h
    · exact h.succ

theorem sent_smartSocketFail (h : w.Sent t n) (a : Addr) :
    IfEndsFst (Sent t (n + 1)) (smartSocketFail a w) :=
  bind (sent_close h a) fun _ h' => h'

/-- A smart socket is closed without its peer when it has done its work. -/
theorem sent_close_detached (h : w.Sent t n) (a : Addr) (s : ASocket) :
    IfEnds (Sent t n) ((w.store a { s with peer := none }).close a) := by
  refine sent_closeSocket_alone closeDepth false .callback h fun s' hs' => ?_
  rw [socket_store] at hs'
  cases hs'
  rfl

theorem sent_smartSocketBind {ready : Addr → Server → Except Fault Server} {s2 : Addr}
    (h : w.Sent t n) (a b : Addr)
    (hready : ∀ p (w : Server), w.Sent t n → IfEnds (Sent t (n + 1)) (ready p w)) :
    IfEndsFst (Sent t (n + 1)) (smartSocketBind ready a b s2 w) := by
  unfold smartSocketBind
  have hst := h.status (statusOnly_writeStatus w b (text "OKAY"))
  refine sent_get fun q _ => sent_get fun r _ => sent_get fun s _ => ?_
  refine bind (sent_close_detached (t := t) (n := n) ?_ a s) fun w₁ h₁ => ?_
  · exact hst
  · exact bind (hready s2 w₁ h₁) fun _ h₂ => h₂

theorem sent_smartSocketHost {ready : Addr → Server → Except Fault Server} (h : w.Sent t n)
    (request : HostRequest) (a b : Addr)
    (hready : ∀ p (w : Server), w.Sent t n → IfEnds (Sent t (n + 1)) (ready p w)) :
    IfEndsFst (Sent t (n + 1)) (smartSocketHost env ready request a b w) := by
  unfold smartSocketHost
  refine sent_get fun s _ => ?_
  split_ifs
  · trivial
  · cases env.acquireOneTransport request with
    | none => exact (Server.Sent.status (w := w.store a _) h (statusOnly_sendfailmsg _ b _)).succ
    | some t' => exact (Server.Sent.status (w := w.store a _) h (statusOnly_writeStatus _ b _)).succ
  · exact sent_smartSocketFail (h.status (statusOnly_writex w b _)) a
  · cases hostServiceKind request.service with
    | tracker => exact sent_smartSocketBind (w := (createDeviceTracker w).1) h a b hready
    | localSocket => exact sent_smartSocketBind (w := w.createLocalSocket.1) h a b hready
    | unknown => exact sent_smartSocketFail (h.status (statusOnly_sendfailmsg w b _)) a

theorem sent_smartSocketRemote (h : w.Sent t n) (destination : List Byte) (a b : Addr) :
    IfEndsFst (Sent t (n + 1)) (smartSocketRemote destination a b w) := by
  unfold smartSocketRemote
  refine sent_get fun s _ => ?_
  have hfail := sent_smartSocketFail
    (h.status (statusOnly_sendfailmsg w b (text "device offline (x)"))) a
  cases s.transport with
  | none => exact hfail
  | some t' =>
    dsimp only
    split_ifs
    · exact hfail
    · refine sent_get fun q _ => bind (P := Sent t (n + 1)) ?_ fun _ h' => h'
      refine sent_close_detached ?_ a { s with transport := some t' }
      refine Server.Sent.sendPacket ?_ _ t'
      exact h

theorem sent_callEnqueue (depth : ℕ) (h : w.Sent t n) (p : Addr) (bytes : List Byte) :
    IfEndsFst (Sent t (n + 1)) (callEnqueue env depth p bytes w) := by
  induction depth generalizing p bytes w with
  | zero => trivial
  | succ depth ih =>
    refine sent_get fun s _ => ?_
    cases s.enqueue with
    | localSocketEnqueue => exact sent_localSocketEnqueue h p bytes
    | remoteSocketEnqueue =>
      refine sent_get fun s _ => ?_
      cases s.peer with
      | none => trivial
      | some b =>
        cases s.transport with
        | none => trivial
        | some t' => exact sent_get fun q _ => h.sendPacket _ t'
    | deviceTrackerEnqueue => exact sent_smartSocketFail h p
    | smartSocketEnqueue =>
      have hready : ∀ p (w : Server), w.Sent t n →
          IfEnds (Sent t (n + 1)) (callReady env (callEnqueue env depth) p w) :=
        fun p w hw => sent_callReady hw p fun p bytes w hw => ih hw p bytes
      dsimp only [smartSocketEnqueue]
      refine sent_get fun s _ => ?_
      cases smartSocketCollect s bytes with
      | none => exact sent_smartSocketFail h p
      | some bytes =>
        dsimp only
        split_ifs
        · exact h.succ
        · exact sent_smartSocketFail (w := w.store p _) h p
        · exact h.succ
        · cases s.peer with
          | none => trivial
          | some b =>
            dsimp only
            split
            · exact sent_smartSocketHost (w := w.store p _) h _ p b hready
            · exact sent_smartSocketRemote (w := w.store p _) h _ p b

theorem sent_localSocketWritable (h : w.Sent t n) (a : Addr) :
    IfEndsFst (Sent t (n + 1)) (localSocketWritable env a w) := by
  unfold localSocketWritable
  refine sent_get fun s _ => ?_
  rcases drainLoop w.writes s.queue with ⟨queue, writes, outcome⟩
  cases outcome with
  | blocked => exact h.succ
  | failed =>
    refine bind (P := Sent t (n + 1)) ?_ fun _ h' => h'
    refine sent_close ?_ a
    exact h
  | done =>
    dsimp only
    split_ifs
    · refine bind (P := Sent t (n + 1)) ?_ fun _ h' => h'
      refine sent_close ?_ a
      exact h
    · refine bind (P := Sent t n) ?_ fun w₁ h₁ => ?_
      · refine sent_fdeventDel ?_ a .fdeWrite
        exact h
      · cases s.peer with
        | none => trivial
        | some p =>
          refine bind (sent_callReady h₁ p fun p bytes w hw => ?_) fun _ h' => h'
          exact sent_callEnqueue enqueueDepth hw p bytes

theorem sent_localSocketPass (h : w.Sent t n) (a : Addr) (bytes : List Byte) (r : LastResult) :
    IfEndsFst (Sent t (n + 1)) (localSocketPass env a bytes r w) := by
  unfold localSocketPass
  refine sent_get fun s _ => ?_
  split
  · exact h.succ
  · exact h.succ
  · refine sent_get fun q _ => ?_
    refine bind (P := fun x => x.1.Sent t (n + 1)) ?_ fun x hx => ?_
    · refine sent_callEnqueue enqueueDepth ?_ _ _
      split_ifs <;> exact h
    · dsimp only
      split_ifs
      · exact hx
      · exact bind (sent_fdeventDel hx a .fdeRead) fun _ h' => h'
      · exact hx

theorem sent_localSocketReadable (h : w.Sent t n) (a : Addr) :
    IfEnds (Sent t (n + 2)) (localSocketReadable env a w) := by
  unfold localSocketReadable
  refine sent_get fun s _ => ?_
  refine bind (sent_localSocketPass h a _ _) fun x hx => ?_
  obtain ⟨w₁, r⟩ := x
  cases r with
  | none => exact hx.succ
  | some r =>
    exact sent_get fun s _ => iteInduction (motive := IfEnds (Sent t (n + 2)))
      (fun _ => sent_close hx a) (fun _ => hx.succ)

/-- One event of a local socket sends an `A_OKAY`, an `A_WRTE` and an `A_CLSE` at most. -/
theorem sent_dispatch (h : w.Sent t n) : IfEnds (Sent t (n + 3)) (dispatch env w) := by
  unfold dispatch
  cases w.listPending with
  | nil => exact h.succ.succ.succ
  | cons a rest =>
    refine sent_get fun s _ => ?_
    have hread : ∀ (w : Server) (goesOn : Bool), w.Sent t (n + 1) → IfEnds (Sent t (n + 3))
        (if goesOn ∧ s.fde.events.read then localSocketReadable env a w else return w) := by
      intro w goesOn hw
      split
      · exact sent_localSocketReadable hw a
      · exact hw.succ.succ
    unfold localSocketEventFunc
    split
    · refine bind (P := fun x => x.1.Sent t (n + 1)) ?_ fun x hx => hread x.1 x.2 hx
      refine sent_localSocketWritable ?_ a
      exact h
    · exact hread _ true h.succ

theorem sent_closeAllLoop (t' : TransportId) (fuel : ℕ) (h : w.Sent t n) :
    IfEnds (Sent t (n + fuel)) (closeAllLoop t' fuel w) := by
  induction fuel generalizing n w with
  | zero => exact h
  | succ fuel ih =>
    unfold closeAllLoop
    dsimp only
    split
    · exact Nat.le_trans h (Nat.le_add_right _ _)
    · refine bind (sent_closeSocket closeDepth true .locked h _) fun w' h' => ?_
      rw [Nat.add_comm fuel 1, ← Nat.add_assoc]
      exact ih h'

/-- The packets a handler sends on a transport at most. -/
def Action.sends (w : Server) : Action → ℕ
  | .dispatch => 3
  | .packet _ _ => 2
  | .acceptForward _ _ => 1
  | .closeAllSockets _ => w.localSocketList.length
  | .poll _ | .pollBad _ | .acceptSmart | .transportDisconnects _ | .updateTransports => 0

theorem Links.receive_outbox_other (authEnabled : Bool) (l : Links) (x : Packet) {t' : TransportId}
    (ht : t ≠ t') : (l.receive true authEnabled env x t').outbox t = l.outbox t := by
  have hsend : ∀ (l : Links) y, (l.send y t').outbox t = l.outbox t := fun _ _ =>
    Function.update_of_ne ht _ _
  have hdata : ∀ (l : Links) n data, (l.authData n data t').outbox t = l.outbox t := by
    intro l n data
    cases data with
    | none => rfl
    | some data => exact hsend l _
  unfold receive
  split
  · unfold sync
    split_ifs <;> simp [hsend, goOffline, setState, setOnline]
  · unfold cnxn
    simp only [Bool.true_or, if_true]
    split_ifs <;> rfl
  · unfold auth authRequest
    split_ifs
    · exact hdata _ _ _
    · exact hdata _ _ _
    · exact hsend _ _
    · cases env.authToken with
      | none => rfl
      | some token => exact hsend l _
    · rfl
  · unfold hdsk
    split_ifs
    · exact hsend l _
    · rfl
  · rfl

theorem run_sends {authEnabled : Bool} (hg : Graph w) (action : Action) (h : w.Sent t n) :
    IfEnds (Sent t (n + action.sends w)) (action.run true authEnabled env w) := by
  have hlinks : ∀ w' : Server, w'.links = w.links → w'.Sent t n := fun w' hw' => by
    rw [Server.Sent, show w'.outbox = w.outbox from congrArg Links.outbox hw']
    exact h
  cases action with
  | poll ready =>
    exact hlinks _ (List.foldlRecOn (motive := fun v => v.links = w.links) ready _ rfl
      fun v hv x _ => (links_reportEvents v x.1 x.2 false).trans hv)
  | pollBad bad =>
    exact hlinks _ (List.foldlRecOn (motive := fun v => v.links = w.links) bad _ rfl
      fun v hv a _ => (links_reportEvents v a .fdeRead true).trans hv)
  | dispatch => exact sent_dispatch h
  | acceptSmart => exact of_eq (acceptSmart_eq env w) (hlinks _ (links_resumed _ _ _))
  | acceptForward t' connectTo =>
    refine sent_get (w := w.createLocalSocket.1) fun s _ => ?_
    dsimp only
    split
    · trivial
    · exact Server.Sent.sendPacket (w := w.createLocalSocket.1.store _ _) h _ t'
  | packet x t' =>
    have hspec := handlePacket_links true authEnabled env hg x t'
    change IfEnds (Sent t (n + 2)) (handlePacket true authEnabled env x t' w)
    cases hrun : handlePacket true authEnabled env x t' w with
    | error f => trivial
    | ok w' =>
      rw [hrun] at hspec
      change (w'.links.outbox t).length ≤ n + 2
      by_cases ht : t = t'
      · subst ht
        obtain ⟨-, ps, hps, hans⟩ := handlePacket_answers hg hrun
        rw [show w'.links.outbox t = w.outbox t ++ ps from hps, List.length_append]
        exact Nat.add_le_add h hans.length
      · obtain ⟨-, hlinks⟩ := hspec
        split at hlinks
        · obtain ⟨ps, hps, hlen, -⟩ := hlinks.outbox t
          rw [hps, List.length_append]
          exact Nat.add_le_add h (hlen.trans (Nat.le_succ 1))
        · rw [hlinks, Links.receive_outbox_other authEnabled _ x ht]
          exact h.succ.succ
  | closeAllSockets t' => exact sent_closeAllLoop t' _ h
  | transportDisconnects t' =>
    have hspec := runTransportDisconnects_rule (links_disconnectRule t' w.links) hg rfl
    exact (hspec.mono fun w' hw' => hlinks w' hw'.2).faults fun _ => False.elim
  | updateTransports =>
    have hspec : Succeeds _ (Sockets.updateTransports env w) :=
      updateTransports_rule (links_trackerRule w.links) hg rfl
    exact (hspec.mono fun w' hw' => hlinks w' hw'.2).faults fun _ => False.elim

theorem step_sends {authEnabled : Bool} {i : Input} (hg : Graph w)
    (hs : step true authEnabled w i = some w') (t : TransportId) :
    (w'.outbox t).length ≤ (w.outbox t).length + i.action.sends w := by
  obtain ⟨-, w₁, hrun, rfl⟩ := run_of_step hs
  have hspec : IfEnds _ (i.action.run true authEnabled i.env (i.before w)) :=
    run_sends (i.graph_before hg) i.action (le_refl (w.outbox t).length)
  rw [hrun] at hspec
  exact hspec

end Sends

end PaxAdb.Sockets
