import PaxAdb.StepMoves

/-!
# Packets as steps of the socket graph

`Receive x t` lists everything that can happen when `handle_packet` gets a packet of a connection:
which local socket is found, under which condition it is used, and what becomes of it. The other
packets set up the transport.
-/

namespace PaxAdb.Sockets

open ASocket Server

variable {X : Licence} {env : Env} {w w' : Server} {a p : Addr} {s q : ASocket} {x : Packet}
  {t : TransportId}

def Server.accept (w : Server) (a : Addr) : Server :=
  w.setTrace a { w.trace a with accepted := (w.trace a).accepted + 1 }

def Ignored (x : Packet) (t : TransportId) (w : Server) : Prop :=
  match x.command with
  | .aOpen => ¬ (w.online t = true ∧ x.arg0 ≠ 0 ∧ x.arg1 = 0)
  | .aOkay => ¬ (w.online t = true ∧ x.arg0 ≠ 0 ∧ x.arg1 ≠ 0) ∨
      w.findLocalSocket x.arg1 0 = .ok none ∨
      ∃ a s p q, w.findLocalSocket x.arg1 0 = .ok (some a) ∧ w.socket a = some s ∧
        s.peer = some p ∧ w.socket p = some q ∧ q.id ≠ x.arg0
  | .aClse => ¬ (w.online t = true ∧ x.arg1 ≠ 0) ∨ w.findLocalSocket x.arg1 x.arg0 = .ok none ∨
      ∃ a s p q, w.findLocalSocket x.arg1 x.arg0 = .ok (some a) ∧ w.socket a = some s ∧
        s.peer = some p ∧ w.socket p = some q ∧ x.arg0 = 0 ∧ q.transport ≠ some t
  | .aWrte => ¬ (w.online t = true ∧ x.arg0 ≠ 0 ∧ x.arg1 ≠ 0) ∨
      w.findLocalSocket x.arg1 x.arg0 = .ok none
  | _ => False

inductive Receive (x : Packet) (t : TransportId) (w : Server) : Server → Prop where
  | ignored (h : Ignored x t w) : Receive x t w w
  | accept (hx : x.command = .aOpen) (hon : w.online t = true) (h0 : x.arg0 ≠ 0) (h1 : x.arg1 = 0) :
      Receive x t w (((w.born.attachRemote w.nextAddr w.freshLocal x.arg0 t).sendPacket
        ⟨.aOkay, w.localSocketNextId, x.arg0, []⟩ t).resumed w.nextAddr
          { w.freshLocal.plain with peer := some (w.nextAddr + 1) })
  | refuse (hx : x.command = .aOpen) (hon : w.online t = true) (h0 : x.arg0 ≠ 0) (h1 : x.arg1 = 0) :
      Receive x t w (w.sendPacket ⟨.aClse, 0, x.arg0, []⟩ t)
  | connect {a : Addr} {s : ASocket} {w' : Server} (hx : x.command = .aOkay)
      (hon : w.online t = true) (h0 : x.arg0 ≠ 0) (h1 : x.arg1 ≠ 0)
      (hf : w.findLocalSocket x.arg1 0 = .ok (some a)) (ha : w.socket a = some s)
      (hp : s.peer = none)
      (hst : StatusOnly a ((w.attachRemote a s x.arg0 t).resumed a
        { s.plain with peer := some w.nextAddr }) w') : Receive x t w w'
  | resume {a p : Addr} {s q : ASocket} (hx : x.command = .aOkay) (hon : w.online t = true)
      (h0 : x.arg0 ≠ 0) (h1 : x.arg1 ≠ 0) (hf : w.findLocalSocket x.arg1 0 = .ok (some a))
      (ha : w.socket a = some s) (hp : s.peer = some p) (hq : w.socket p = some q)
      (hid : q.id = x.arg0) : Receive x t w (w.resumed a s)
  | close {a : Addr} {s : ASocket} {w' : Server} (hx : x.command = .aClse) (hon : w.online t = true)
      (h1 : x.arg1 ≠ 0) (hf : w.findLocalSocket x.arg1 x.arg0 = .ok (some a))
      (ha : w.socket a = some s)
      (hguard : ∀ p q, s.peer = some p → w.socket p = some q → x.arg0 = 0 → q.transport = some t)
      (hcl : Closes a w w') : Receive x t w w'
  | write {a : Addr} {s : ASocket} {w' : Server} {r : ℤ} (hx : x.command = .aWrte)
      (hon : w.online t = true) (h0 : x.arg0 ≠ 0) (h1 : x.arg1 ≠ 0)
      (hf : w.findLocalSocket x.arg1 x.arg0 = .ok (some a)) (ha : w.socket a = some s)
      (henq : Enqueued a s x.data (w.accept a) w' r) (hr : r ≠ 0) : Receive x t w w'
  | writeAll {a : Addr} {s : ASocket} (hx : x.command = .aWrte)
      (hon : w.online t = true) (h0 : x.arg0 ≠ 0) (h1 : x.arg1 ≠ 0)
      (hf : w.findLocalSocket x.arg1 x.arg0 = .ok (some a)) (ha : w.socket a = some s)
      (hqueue : s.queue = []) (hall : w.attempt x.data = .done) :
      Receive x t w ((((w.accept a).attempted a x.data).acknowledge a).sendPacket
        ⟨.aOkay, s.id, x.arg0, []⟩ t)

section Find

structure Found (w : Server) (localId peerId : ℕ) (a : Addr) (s : ASocket) : Prop where
  socket : w.socket a = some s
  isLocal : s.IsLocal
  closing : s.closing = false
  id : s.id = localId
  peer : peerId = 0 ∨ ∃ p q, s.peer = some p ∧ w.socket p = some q ∧ q.id = peerId

theorem findLocalSocket_ok (h : Graph w) (i j : ℕ) : ∃ r, w.findLocalSocket i j = .ok r := by
  unfold findLocalSocket
  split
  · exact ⟨_, rfl⟩
  next a hf =>
    have hany := List.find?_some hf
    obtain ⟨s, hs, _⟩ := (Option.any_eq_true _ _).mp hany
    simp only [get_eq hs, ok_bind]
    split
    · exact ⟨_, rfl⟩
    · cases hp : s.peer with
      | none => exact ⟨_, rfl⟩
      | some p =>
        obtain ⟨_, q, hq, _⟩ := h.peer_spec hs hp
        simp only [get_eq hq, ok_bind]
        exact ⟨_, rfl⟩

theorem found (h : Graph w) {i j : ℕ} (hf : w.findLocalSocket i j = .ok (some a)) :
    ∃ s, Found w i j a s := by
  unfold findLocalSocket at hf
  split at hf
  · cases hf
  next b hb =>
    have hany := List.find?_some hb
    obtain ⟨s, hs, hid⟩ := (Option.any_eq_true _ _).mp hany
    obtain ⟨hloc, hc⟩ := (h.at_ hs).fit.listed.mp (List.mem_of_find?_eq_some hb)
    have hid : s.id = i := by simpa using hid
    simp only [get_eq hs, ok_bind] at hf
    split at hf
    next hj =>
      cases hf
      exact ⟨s, hs, hloc, hc, hid, .inl hj⟩
    · cases hp : s.peer with
      | none =>
        rw [hp] at hf
        cases hf
      | some p =>
        obtain ⟨_, q, hq, _⟩ := h.peer_spec hs hp
        simp only [hp, get_eq hq, ok_bind, pure_eq_ok, Except.ok.injEq] at hf
        split at hf
        next hqid =>
          cases hf
          exact ⟨s, hs, hloc, hc, hid, .inr ⟨p, q, hp, hq, hqid⟩⟩
        · cases hf

end Find

section Handlers

def Server.connectedTo (w : Server) (a : Addr) (s : ASocket) (id : ℕ) (t : TransportId) : Server :=
  { (w.store w.nextAddr (remoteFor a id t)).store a { s with peer := some w.nextAddr } with
    nextAddr := w.nextAddr + 1
    disconnects := Function.update w.disconnects t (w.disconnects t ++ [w.nextAddr])
    trace := Function.update w.trace a { w.trace a with remoteId := some id } }

theorem connectRemote_eq {id : ℕ} (hid : id ≠ 0) (a : Addr) (s : ASocket) (t : TransportId) :
    w.connectRemote a s id t = .ok (w.connectedTo a s id t) := by
  simp only [connectRemote, hid, if_false]
  rfl

theorem connectedTo_socket (w : Server) (a : Addr) (s : ASocket) (id : ℕ) (t : TransportId) :
    (w.connectedTo a s id t).socket a = some { s with peer := some w.nextAddr } :=
  socket_store _ _ _

theorem connectedTo_plain (w : Server) (a : Addr) (s : ASocket) (id : ℕ) (t : TransportId) :
    (w.connectedTo a s id t).store a { s.plain with peer := some w.nextAddr } =
      w.attachRemote a s id t := by
  simp only [connectedTo, store, Function.update_idem]
  rfl

theorem handleOpen_spec (w : Server) (t : TransportId) (hx : x.command = .aOpen) :
    Succeeds (Receive x t w) (handleOpen env x t w) := by
  unfold handleOpen
  split
  next hc =>
    obtain ⟨hon, h0, h1⟩ := hc
    split
    · refine EndsIn.of_eq ?_ (.accept hx hon h0 h1)
      have hborn : w.born.socket w.nextAddr = some w.freshLocal := socket_store w _ _
      have hattach : w.born.connectRemote w.nextAddr w.freshLocal x.arg0 t =
          .ok (w.born.attachRemote w.nextAddr w.freshLocal x.arg0 t) := connectRemote_eq h0 _ _ _
      have ha : ((w.born.attachRemote w.nextAddr w.freshLocal x.arg0 t).sendPacket
          ⟨.aOkay, w.localSocketNextId, x.arg0, []⟩ t).socket w.nextAddr =
          some { w.freshLocal.plain with peer := some (w.nextAddr + 1) } := socket_store _ _ _
      change (w.born.get w.nextAddr >>= fun s => w.born.connectRemote w.nextAddr s x.arg0 t >>=
        fun w' => callReady env (callEnqueue env enqueueDepth) w.nextAddr
          (w'.sendPacket ⟨.aOkay, s.id, x.arg0, []⟩ t)) = _
      rw [get_eq hborn, ok_bind, hattach, ok_bind]
      exact callReady_local ha rfl
    · exact .refuse hx hon h0 h1
  next hc =>
    refine Receive.ignored ?_
    rw [Ignored, hx]
    exact hc

theorem Server.StatusOnly.fdeventSet {b : Addr} (h : StatusOnly b w w') (a : Addr) (s : ASocket)
    (ev : Events) : StatusOnly b (w.fdeventSet a s ev) (w'.fdeventSet a s ev) := by
  obtain ⟨l, ws, hl, rfl⟩ := h
  refine ⟨l, ws, hl, ?_⟩
  rw [fdeventSet_eq, fdeventSet_eq]
  rfl

theorem connect_spec (env : Env) (h : Graph w) (ha : w.socket a = some s) (hloc : s.IsLocal)
    {id : ℕ}
    (hid : id ≠ 0) (t : TransportId) :
    ∃ w', (w.connectRemote a s id t >>= callReady env (callEnqueue env enqueueDepth) a) = .ok w' ∧
      StatusOnly a ((w.attachRemote a s id t).resumed a { s.plain with peer := some w.nextAddr })
        w' := by
  have hsane := h.localSane ha hloc
  have hattach := connectedTo_plain w a s id t
  have hsock := connectedTo_socket w a s id t
  rw [connectRemote_eq hid, ok_bind]
  rcases hsane.callbacks with hcb | hcb
  · rw [ASocket.plain_eq hcb hsane.shutdown] at hattach ⊢
    rw [store_self hsock] at hattach
    rw [← hattach]
    exact ⟨_, callReady_local hsock hcb.1, StatusOnly.refl _ _⟩
  · have hst := statusOnly_writeStatus (w.attachRemote a s id t) a (text "OKAY")
    have hsock' : ((w.attachRemote a s id t).writeStatus a (text "OKAY")).socket a =
        some { s.plain with peer := some w.nextAddr } := by
      obtain ⟨l, ws, _, heq⟩ := hst
      rw [heq]
      exact socket_store _ _ _
    refine ⟨_, ?_, hst.fdeventSet a { s.plain with peer := some w.nextAddr } _⟩
    simp only [callReady, get_eq hsock, ok_bind, hcb.1]
    change (((w.connectedTo a s id t).store a
      { s.plain with peer := some w.nextAddr }).writeStatus a _).fdeventAdd a _ = _
    rw [hattach]
    exact fdeventAdd_eq hsock' _

theorem handleOkay_spec (h : Graph w) (t : TransportId) (hx : x.command = .aOkay) :
    Succeeds (Receive x t w) (handleOkay env x t w) := by
  unfold handleOkay
  split
  next hc =>
    obtain ⟨hon, h0, h1⟩ := hc
    obtain ⟨r, hr⟩ := findLocalSocket_ok h x.arg1 0
    rw [hr, ok_bind]
    cases r with
    | none =>
      refine Receive.ignored ?_
      rw [Ignored, hx]
      exact .inr (.inl hr)
    | some a =>
      obtain ⟨s, hf⟩ := found h hr
      have ha := hf.socket
      simp only [get_eq ha, ok_bind]
      cases hp : s.peer with
      | none =>
        obtain ⟨w', hw', hst⟩ := connect_spec env h ha hf.isLocal h0 t
        exact EndsIn.of_eq hw' (.connect hx hon h0 h1 hr ha hp hst)
      | some p =>
        obtain ⟨_, q, hq, _⟩ := h.peer_spec ha hp
        simp only [get_eq hq, ok_bind]
        split
        next hid =>
          have hready := ((h.localSane ha hf.isLocal).plain_of_peer (by simp [hp])).1
          exact EndsIn.of_eq (callReady_local ha hready)
            (.resume hx hon h0 h1 hr ha hp hq hid)
        next hid =>
          refine Receive.ignored ?_
          rw [Ignored, hx]
          exact .inr (.inr ⟨a, s, p, q, hr, ha, hp, hq, hid⟩)
  next hc =>
    refine Receive.ignored ?_
    rw [Ignored, hx]
    exact .inl hc

theorem handleClse_spec (h : Graph w) (t : TransportId) (hx : x.command = .aClse) :
    Succeeds (Receive x t w) (handleClse x t w) := by
  unfold handleClse
  split
  next hc =>
    obtain ⟨hon, h1⟩ := hc
    obtain ⟨r, hr⟩ := findLocalSocket_ok h x.arg1 x.arg0
    rw [hr, ok_bind]
    cases r with
    | none =>
      refine Receive.ignored ?_
      rw [Ignored, hx]
      exact .inr (.inl hr)
    | some a =>
      obtain ⟨s, hf⟩ := found h hr
      have ha := hf.socket
      obtain ⟨w', hw', hcl⟩ := close_eq h ha hf.isLocal
      simp only [get_eq ha, ok_bind]
      cases hp : s.peer with
      | none =>
        refine EndsIn.of_eq hw' (.close hx hon h1 hr ha (fun p q hp' => ?_) hcl)
        exact absurd (hp.symm.trans hp') (by simp)
      | some p =>
        obtain ⟨_, q, hq, _⟩ := h.peer_spec ha hp
        simp only [get_eq hq, ok_bind]
        split
        next hid =>
          refine Receive.ignored ?_
          rw [Ignored, hx]
          exact .inr (.inr ⟨a, s, p, q, hr, ha, hp, hq, hid.1, hid.2⟩)
        next hid =>
          refine EndsIn.of_eq hw' (.close hx hon h1 hr ha (fun p' q' hp' hq' h0 => ?_) hcl)
          cases hp.symm.trans hp'
          cases hq.symm.trans hq'
          by_contra hne
          exact hid ⟨h0, hne⟩
  next hc =>
    refine Receive.ignored ?_
    rw [Ignored, hx]
    exact .inl hc

theorem handleWrte_spec (h : Graph w) (t : TransportId) (hx : x.command = .aWrte) :
    Succeeds (Receive x t w) (handleWrte env x t w) := by
  unfold handleWrte
  split
  next hc =>
    obtain ⟨hon, h0, h1⟩ := hc
    obtain ⟨r, hr⟩ := findLocalSocket_ok h x.arg1 x.arg0
    rw [hr, ok_bind]
    cases r with
    | none =>
      refine Receive.ignored ?_
      rw [Ignored, hx]
      exact .inr hr
    | some a =>
      obtain ⟨s, hf⟩ := found h hr
      have ha : (w.accept a).socket a = some s := hf.socket
      have hacc : Graph (w.accept a) := h.setTrace a _
      obtain ⟨w', r', hw', henq⟩ := localSocketEnqueue_spec hacc ha hf.isLocal x.data
      have hcall : callEnqueue env enqueueDepth a x.data (w.accept a) = .ok (w', r') := by
        have hloc := hf.isLocal
        simp only [enqueueDepth, callEnqueue, get_eq ha, ok_bind, hloc]
        exact hw'
      change Succeeds (Receive x t w)
        (callEnqueue env enqueueDepth a x.data (w.accept a) >>= fun y =>
        if y.2 = 0 then y.1.get a >>= fun s => pure ((y.1.acknowledge a).sendPacket
          ⟨.aOkay, s.id, x.arg0, []⟩ t) else pure y.1)
      rw [hcall, ok_bind]
      cases henq with
      | done hqueue hall =>
        have ha' : ((w.accept a).attempted a x.data).socket a = some s := hf.socket
        simp only [if_true, get_eq ha', ok_bind, pure_eq_ok]
        exact Receive.writeAll hx hon h0 h1 hr hf.socket hqueue hall
      | queued hq =>
        simp only [one_ne_zero, if_false, pure_eq_ok]
        exact .write hx hon h0 h1 hr hf.socket (.queued hq) one_ne_zero
      | blocked hq hout =>
        simp only [one_ne_zero, if_false, pure_eq_ok]
        exact .write hx hon h0 h1 hr hf.socket (.blocked hq hout) one_ne_zero
      | failed hq hout hcl =>
        simp only [one_ne_zero, if_false, pure_eq_ok]
        exact .write hx hon h0 h1 hr hf.socket (.failed hq hout hcl) one_ne_zero
  next hc =>
    refine Receive.ignored ?_
    rw [Ignored, hx]
    exact .inl hc

end Handlers

section Graph

theorem not_smart_of_id (h : Graph w) (hq : w.socket p = some q) (hid : q.id ≠ 0) :
    ¬ q.IsSmart := by
  intro hsm
  exact hid ((h.otherSane hq hsm.not_local).smart hsm).2.2.2

theorem Receive.graph (hr : Receive x t w w') (h : Graph w) : Graph w' := by
  cases hr with
  | ignored => exact h
  | accept _ _ h0 _ =>
    have hborn : w.born.socket w.nextAddr = some w.freshLocal := socket_store w _ _
    have hg := (h.born.attachRemote hborn rfl rfl rfl h0 t).sendPacket
      ⟨.aOkay, w.localSocketNextId, x.arg0, []⟩ t
    exact hg.resumed (socket_store _ _ _) rfl
  | refuse => exact h.sendPacket _ t
  | connect _ _ h0 _ hf ha hp hst =>
    obtain ⟨s', hf'⟩ := found h hf
    cases ha.symm.trans hf'.socket
    have hg := h.attachRemote ha hf'.isLocal hp hf'.closing h0 t
    exact (hg.resumed (socket_store _ _ _) hf'.isLocal).statusOnly hst
  | resume _ _ _ _ hf ha =>
    obtain ⟨s', hf'⟩ := found h hf
    cases ha.symm.trans hf'.socket
    exact h.resumed ha hf'.isLocal
  | close _ _ _ _ _ _ hcl => exact h.closes hcl
  | write _ _ h0 _ hf ha henq =>
    obtain ⟨s', hf'⟩ := found h hf
    cases ha.symm.trans hf'.socket
    obtain ⟨p, q, hp, hq, hid⟩ := hf'.peer.resolve_left h0
    exact henq.graph (h.setTrace _ _) ha hf'.isLocal hp hq (not_smart_of_id h hq (hid ▸ h0))
  | writeAll =>
    exact (((h.setTrace _ _).wroteData _ _ _).setTrace _ _).sendPacket _ t

end Graph

section Transports

variable {host authEnabled : Bool}

variable {R : Server → Prop}

abbrev Keeps (R : Server → Prop) (w' : Server) : Prop := Graph w' ∧ R w'

section Setup

variable (hR : SetupRule t R) (h : Keeps R w)

include hR h

theorem Keeps.transport (online : TransportId → Bool)
    (connectionState : TransportId → ConnectionState) :
    Keeps R { w with online := online, connectionState := connectionState } :=
  ⟨h.1.congr rfl rfl rfl rfl rfl rfl rfl rfl, hR.transport h.2 _ _⟩

theorem Keeps.send (x : Packet) (t' : TransportId) :
    Keeps R (w.sendPacket x t') := ⟨h.1.sendPacket x t', hR.send h.2 x t'⟩

theorem setConnectionState_rule (c : ConnectionState) :
    Keeps R (setConnectionState t c w) := h.transport hR w.online _

theorem handleOnline_rule : Keeps R (handleOnline t w) :=
  h.transport hR _ w.connectionState

theorem goOffline_rule :
    Succeeds (Keeps R) (handleOffline t (setConnectionState t .offline w)) := by
  have h₁ := (setConnectionState_rule hR h .offline).transport hR
    (Function.update w.online t false) (setConnectionState t .offline w).connectionState
  exact runTransportDisconnects_rule hR.disconnect h₁.1 h₁.2

theorem sendAuthData_rule (n : ℕ)
    (data : Option (List Byte)) : Keeps R (sendAuthData n data t w) := by
  cases data with
  | none => exact h
  | some data => exact h.send hR _ t

theorem sendAuthRequest_rule : Keeps R (sendAuthRequest env t w) := by
  unfold sendAuthRequest
  split
  · exact h.send hR _ t
  · exact h

theorem sendConnect_rule : Keeps R (sendConnect host env t w) := h.send hR _ t

theorem handleSync_rule : Succeeds (Keeps R) (handleSync host env x t w) := by
  unfold handleSync
  split
  · have hm := h.send hR x t
    cases host with
    | false => exact hm
    | true => exact sendConnect_rule hR hm
  · exact EndsIn.bind (goOffline_rule hR h) fun w' hw' => hw'.send hR x t

theorem parseBanner_rule (banner : List Byte) :
    Succeeds (Keeps R) (parseBanner env banner t w) := by
  have hm := setConnectionState_rule hR h (bannerState banner)
  unfold parseBanner
  dsimp only
  split
  · exact hm
  · exact updateTransports_rule hR.tracker hm.1 hm.2

theorem handleCnxn_rule : Succeeds (Keeps R) (handleCnxn host authEnabled env x t w) := by
  have hrest : ∀ w₁, Keeps R w₁ → Succeeds (Keeps R) (parseBanner env x.data t w₁ >>= fun w₂ =>
      if (host || !authEnabled) = true then
        pure (if host = true then handleOnline t w₂ else sendConnect host env t (handleOnline t w₂))
      else pure (sendAuthRequest env t w₂)) := by
    intro w₁ h₁
    refine EndsIn.bind (parseBanner_rule hR h₁ x.data) fun w₂ h₂ => ?_
    split
    · have hon := handleOnline_rule hR h₂
      cases host with
      | true => exact hon
      | false => exact sendConnect_rule hR hon
    · exact sendAuthRequest_rule hR h₂
  unfold handleCnxn
  dsimp only
  split
  · exact EndsIn.bind (goOffline_rule hR h) hrest
  · exact hrest w h

theorem handleAuth_rule : Keeps R (handleAuth host env x t w) := by
  unfold handleAuth
  split
  · have hm := setConnectionState_rule hR h .unauthorized
    dsimp only
    split
    · exact sendAuthData_rule hR hm _ _
    · exact sendAuthData_rule hR hm _ _
  split
  · split
    · exact sendConnect_rule hR (handleOnline_rule hR h)
    · exact sendAuthRequest_rule hR h
  · exact h

theorem handleHdsk_rule : Keeps R (handleHdsk host x t w) := by
  unfold handleHdsk
  split
  · exact h.send hR _ t
  · exact h

end Setup

def Command.ofConnection : Command → Bool
  | .aOpen | .aOkay | .aClse | .aWrte => true
  | _ => false

/-- A packet is received for a connection, or it keeps what the set-up of its transport keeps. -/
theorem handlePacket_rule (host authEnabled : Bool) (env : Env) (hR : SetupRule t R)
    (h : Keeps R w) (x : Packet) :
    Succeeds (fun w' => Receive x t w w' ∨ x.command.ofConnection = false ∧ R w')
      (handlePacket host authEnabled env x t w) := by
  unfold handlePacket
  split
  next hx => exact (handleSync_rule hR h).mono fun _ hw => .inr ⟨by rw [hx]; rfl, hw.2⟩
  next hx => exact (handleCnxn_rule hR h).mono fun _ hw => .inr ⟨by rw [hx]; rfl, hw.2⟩
  next hx => exact .inr ⟨by rw [hx]; rfl, (handleAuth_rule hR h).2⟩
  next hx => exact (handleOpen_spec w t hx).mono fun _ => .inl
  next hx => exact (handleOkay_spec h.1 t hx).mono fun _ => .inl
  next hx => exact (handleClse_spec h.1 t hx).mono fun _ => .inl
  next hx => exact (handleWrte_spec h.1 t hx).mono fun _ => .inl
  next hx => exact .inr ⟨by rw [hx]; rfl, (handleHdsk_rule hR h).2⟩
  next hx => exact .inr ⟨by rw [hx]; rfl, h.2⟩

end Transports

end PaxAdb.Sockets
