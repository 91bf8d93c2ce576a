import PaxAdb.CallbackMoves

/-!
# Smart sockets as moves

A smart socket that has not seen a whole request only collects. A request ends it: the client is
closed, bound to a host service, or left waiting for the device.
-/

namespace PaxAdb.Sockets

open Function (update update_idem update_comm)
open ASocket Server

variable {X : Licence} {env : Env} {w w' : Server} {a b p : Addr} {s q r : ASocket}

def smartRequest (s : ASocket) (p : List Byte) : Option (List Byte) :=
  match smartSocketCollect s p with
  | none => none
  | some bytes =>
      let len := unhex (bytes.take 4)
      if bytes.length < 4 ∨ (len < 1 ∨ len > 1024) ∨ len + 4 > bytes.length then none
      else some (cString ((bytes.drop 4).take len))

def Server.asksDevice (w : Server) (s : ASocket) (p : List Byte) : Prop :=
  ∃ service t, smartRequest s p = some service ∧ parseHostRequest service = none ∧
    s.transport = some t ∧ w.connectionState t ≠ .offline

section Ends

theorem ASocket.IsSmart.not_local (hsm : s.IsSmart) : ¬ s.IsLocal :=
  fun hl => absurd (hsm.symm.trans hl) (by simp)

theorem ASocket.IsSmart.not_remote (hsm : s.IsSmart) : ¬ s.IsRemote :=
  fun hl => absurd (hsm.symm.trans hl) (by simp)

theorem smartSocketFail_eq (h : Graph w) (ha : w.socket a = some s) (hsm : s.IsSmart)
    (hp : s.peer = some b) (hq : w.socket b = some q) :
    ∃ w', smartSocketFail a w = .ok (w', -1) ∧ Closes b w w' := by
  obtain ⟨w', hw', hcl⟩ := close_client h ha hsm.not_local hsm.not_remote hp hq
  exact ⟨w', by simp only [smartSocketFail, hw', ok_bind, pure_eq_ok], hcl⟩

theorem close_smart_none (hp : s.peer = none) (hsm : s.close = .smartSocketClose) :
    (w.store a s).close a = .ok (w.free a) := by
  rw [Server.close, closeDepth, closeSocket_other_none (socket_store w a s) hp
    (.inr (.inl hsm)), dispose_store]
  simp only [dispose, hsm]

theorem smartSocketRemote_eq (h : Graph w) (ha : w.socket a = some s) (hsm : s.IsSmart)
    (hp : s.peer = some b) (hq : w.socket b = some q) {t : TransportId}
    (ht : s.transport = some t) (hon : w.connectionState t ≠ .offline) (service : List Byte) :
    smartSocketRemote service a b w =
      .ok (((w.detached a b q).store b { q with peer := none }.notifying).asked b
        { q with peer := none }.notifying t service, 1) := by
  have hne : b ≠ a := (h.peer_spec ha hp).1
  have hclose : s.close = .smartSocketClose := ((h.otherSane ha hsm.not_local).smart hsm).2.2.1
  simp only [smartSocketRemote, get_eq ha, ok_bind, ht, hon, if_false, get_eq hq]
  rw [close_smart_none (s := { s with peer := none, transport := some t }) rfl hclose, ok_bind,
    pure_eq_ok]
  simp only [asked, detached, sendPacket, store, free, notifying, update_comm hne.symm, update_idem]

theorem smartSocketBind_eq {c : Addr} (ready : Addr → Server → Except Fault Server)
    (ha : w.socket a = some s) (hclose : s.close = .smartSocketClose) (hq : w.socket b = some q)
    (hr : w.socket c = some r) (hab : a ≠ b) (hac : a ≠ c) (hbc : b ≠ c) :
    smartSocketBind ready a b c w =
      (ready c ((((w.writeStatus b (text "OKAY")).store b { q.plain with peer := some c }).store c
        { r with peer := some b }).free a) >>= fun w => .ok (w, 0)) := by
  obtain ⟨l, ws, _, heq⟩ := statusOnly_writeStatus w b (text "OKAY")
  have hr' : ((w.writeStatus b (text "OKAY")).store b { q.plain with peer := some c }).socket c =
      some r := by
    rw [heq, socket_store_ne _ _ hbc.symm]
    exact hr
  have ha' : (((w.writeStatus b (text "OKAY")).store b { q.plain with peer := some c }).store c
      { r with peer := some b }).socket a = some s := by
    rw [heq, socket_store_ne _ _ hac, socket_store_ne _ _ hab]
    exact ha
  simp only [smartSocketBind, get_eq hq, ok_bind, get_eq hr', get_eq ha',
    close_smart_none (s := { s with peer := none }) rfl hclose, pure_eq_ok]

theorem writes_writeStatus (w : Server) (a : Addr) (bytes : List Byte) :
    (w.writeStatus a bytes).writes = w.writes.tail := by
  rw [writeStatus]
  split
  next heq => rw [heq]; rfl
  next heq => rw [heq]; rfl
  next heq => rw [heq]; rfl

end Ends

section Client

structure Client (w : Server) (a : Addr) (s : ASocket) (b : Addr) (q : ASocket) : Prop where
  smart : w.socket a = some s
  isSmart : s.IsSmart
  peer : s.peer = some b
  client : w.socket b = some q

namespace Client

section Members

variable (c : Client w a s b q) (h : Graph w)

include c h

theorem isLocal : q.IsLocal :=
  h.isLocal_of_peer c.smart c.peer c.client c.isSmart.not_local

theorem back : q.peer = some a :=
  (h.linked c.smart c.peer c.client).peer

theorem ne : b ≠ a := (h.peer_spec c.smart c.peer).1

theorem unused : q.queue = [] ∧ q.transport = none :=
  (h.linked c.smart c.peer c.client).smart c.isSmart

theorem closing : q.closing = false :=
  (h.localSane c.client (c.isLocal h)).closing_of_peer (by simp [c.back h])

theorem callbacks : q.ready = .localSocketReady ∧ q.close = .localSocketClose :=
  (h.localSane c.client (c.isLocal h)).plain_of_peer (by simp [c.back h])

theorem plain_eq : q.plain = q :=
  ASocket.plain_eq (c.callbacks h) (h.localSane c.client (c.isLocal h)).shutdown

theorem close_smart : s.close = .smartSocketClose :=
  ((h.otherSane c.smart c.isSmart.not_local).smart c.isSmart).2.2.1

omit h in
theorem status (hs : StatusOnly b w w') : Client w' a s b q := by
  obtain ⟨l, ws, _, rfl⟩ := hs
  exact ⟨c.smart, c.isSmart, c.peer, c.client⟩

end Members

end Client

structure Served (q : ASocket) (b : Addr) (asks : Prop) (w' : Server) (r : ℤ) : Prop where
  isLocal : ∀ x, w'.socket b = some x → x.IsLocal
  closing : ∀ x, w'.socket b = some x → x.closing = false
  events : ∀ x, w'.socket b = some x → x.fde.events.read = true → q.fde.events.read = true
  peer : ∀ x, w'.socket b = some x → x.peer = none → r = 1 ∧ asks
  result : r = 0 ∨ r = 1 ∧ ∀ x, w'.socket b = some x → x.peer = none

theorem bindTracker (env : Env) (h : Graph w) (c : Client w a s b q) (depth : ℕ) :
    ∃ w', smartSocketBind (callReady env (callEnqueue env (depth + 1))) a b w.nextAddr
        (createDeviceTracker w).1 = .ok (w', 0) ∧ Moves X w w' ∧ Served q b False w' 0 ∧
      (∀ x, w'.socket b = some x → x.peer = some w.nextAddr) ∧ w'.socket a = none ∧
      (w'.socket b = none ↔
        (writeLoop false w.writes.tail (listTransportsMsg env)).2.2 = .failed) := by
  have hlt := h.lt_nextAddr c.smart
  have hlt' := h.lt_nextAddr c.client
  let w₀ := (createDeviceTracker w).1
  have ha₀ : w₀.socket a = some s := (socket_store_ne w _ hlt.ne).trans c.smart
  have hb₀ : w₀.socket b = some q := (socket_store_ne w _ hlt'.ne).trans c.client
  have hnew : w₀.socket w.nextAddr =
      some { trackerFor b with peer := none, updateNeeded := true } :=
    socket_store w _ _
  have heq := smartSocketBind_eq (callReady env (callEnqueue env (depth + 1))) ha₀
    (c.close_smart h) hb₀ hnew (c.ne h).symm hlt.ne hlt'.ne
  -- the same status message on the server before the tracker was created
  have hwrites := writes_writeStatus w₀ b (text "OKAY")
  obtain ⟨l, ws, hl, hst⟩ := statusOnly_writeStatus w₀ b (text "OKAY")
  rw [hst] at heq hwrites
  let w₂ : Server := { w with
    trace := update w.trace b { w.trace b with output := (w.trace b).output ++ l }
    writes := ws }
  have hst₂ : StatusOnly b w w₂ := ⟨l, ws, hl, rfl⟩
  have hc₂ := c.status hst₂
  let W := (w₂.detached a b q).attachTracker b { q with peer := none }
  have hb₂ : (w₂.detached a b q).socket b = some { q with peer := none } := by
    simp [detached, free, store, c.ne h]
  have hmoves : Moves X w W := by
    refine .tail (.tail (.single (.status hst₂)) (.detach hc₂.smart c.isSmart c.peer hc₂.client))
      (.attachTracker hb₂ (c.isLocal h) rfl (c.closing h) (c.unused h).2)
  have hWb : W.socket b = some { q.plain with peer := some w.nextAddr } := socket_store _ _ _
  have hWn : W.socket w.nextAddr = some (trackerFor b) :=
    (socket_store_ne _ _ hlt'.ne').trans (socket_store _ _ _)
  obtain ⟨w', r, hw', henq⟩ := localSocketEnqueue_spec (hmoves.graph h) hWb (c.isLocal h)
    (listTransportsMsg env)
  have hready : ∀ W₀ : Server,
      W₀.socket w.nextAddr = some { trackerFor b with updateNeeded := true } →
      W₀.store w.nextAddr (trackerFor b) = W →
      callReady env (callEnqueue env (depth + 1)) w.nextAddr W₀ = .ok w' := by
    intro W₀ hN hstore
    simp only [callReady, get_eq hN, ok_bind, trackerFor, deviceTrackerReady, if_true]
    change (deviceTrackerSend (callEnqueue env (depth + 1)) w.nextAddr (listTransportsMsg env)
      (W₀.store w.nextAddr (trackerFor b)) >>= fun x => pure x.1) = _
    rw [hstore]
    simp only [deviceTrackerSend, get_eq hWn, ok_bind, trackerFor, callEnqueue, get_eq hWb]
    have hk : q.plain.enqueue = .localSocketEnqueue := c.isLocal h
    simp only [hk, hw', ok_bind, pure_eq_ok]
  refine ⟨w', ?_, hmoves.trans (henq.moves (hmoves.graph h) hWb (c.isLocal h) rfl hWn
    (by simp [trackerFor]) (by simp [trackerFor])), ?_⟩
  · change smartSocketBind _ a b w.nextAddr w₀ = _
    rw [heq, hready _ ?_ ?_, ok_bind]
    · simp [free, store, hlt.ne', trackerFor]
    · simp only [W, w₂, w₀, createDeviceTracker, attachTracker, attached, detached, store, free]
      simp only [update_comm (c.ne h).symm, update_comm hlt.ne, update_comm hlt'.ne', update_idem]
      rfl
  · have hfree : (w₂.detached a b q).socket a = none := by simp [detached, free]
    have hWa : W.socket a = none :=
      (socket_store_ne _ _ (c.ne h).symm).trans ((socket_store_ne _ _ hlt.ne).trans hfree)
    have hgone : w'.socket a = none := by
      refine (henq.frame hWb (c.ne h).symm ?_).trans hWa
      exact fun hp => hlt.ne' (Option.some.inj hp)
    have hlost : w'.socket b = none ↔
        (writeLoop false w.writes.tail (listTransportsMsg env)).2.2 = .failed := by
      have hWw : W.writes = w.writes.tail := hwrites
      rw [henq.gone_iff (hmoves.graph h) hWb (c.unused h).1, attempt, hWw]
    rcases henq.self (hmoves.graph h) hWb with ⟨y, hy, hyc, hyp, hyk, hye⟩ | hnone
    · refine ⟨⟨fun x hx => ?_, fun x hx => ?_, fun x hx => ?_, fun x hx => ?_, .inl rfl⟩,
        fun x hx => ?_, hgone, hlost⟩
      all_goals cases hy.symm.trans hx
      · exact hyk.trans (c.isLocal h)
      · exact hyc.trans (c.closing h)
      · exact hye
      · intro hn
        exact absurd (hyp.symm.trans hn) (by simp)
      · exact hyp
    · refine ⟨⟨fun x hx => ?_, fun x hx => ?_, fun x hx => ?_, fun x hx => ?_, .inl rfl⟩,
        fun x hx => ?_, hgone, hlost⟩
      all_goals exact absurd (hnone.symm.trans hx) (by simp)

theorem bindLocal (env : Env) (h : Graph w) (c : Client w a s b q) (enqueue : Enqueue) :
    ∃ w', smartSocketBind (callReady env enqueue) a b w.nextAddr w.createLocalSocket.1 =
        .ok (w', 0) ∧ Moves X w w' ∧ Served q b False w' 0 ∧
      (∀ x, w'.socket b = some x → x.peer = some w.nextAddr) ∧ w'.socket a = none ∧
      w'.socket b ≠ none := by
  have hlt := h.lt_nextAddr c.smart
  have hlt' := h.lt_nextAddr c.client
  have hc : Client w.born a s b q := ⟨(socket_store_ne w _ hlt.ne).trans c.smart, c.isSmart, c.peer,
    (socket_store_ne w _ hlt'.ne).trans c.client⟩
  have hborn : w.born.socket w.nextAddr = some w.freshLocal := socket_store w _ _
  have heq := smartSocketBind_eq (callReady env enqueue) hc.smart
    (c.close_smart h) hc.client hborn (c.ne h).symm hlt.ne hlt'.ne
  have hst := statusOnly_writeStatus w.born b (text "OKAY")
  generalize w.born.writeStatus b (text "OKAY") = w₁ at heq hst
  have h₁ : Graph w₁ := h.born.statusOnly hst
  have hc₁ := hc.status hst
  have hnew : w₁.socket w.nextAddr = some w.freshLocal := by
    obtain ⟨l, ws, _, rfl⟩ := hst
    exact hborn
  let W := (w₁.detached a b q).joined b { q with peer := none } w.nextAddr w.freshLocal
  have hW : ((w₁.store b { q.plain with peer := some w.nextAddr }).store w.nextAddr
      { w.freshLocal with peer := some b }).free a = W := by
    rw [c.plain_eq h]
    simp only [W, joined, detached, store, free, update_comm (c.ne h).symm,
      update_comm hlt.ne, update_idem]
  have hb₂ : (w₁.detached a b q).socket b = some { q with peer := none } := by
    simp [detached, free, store, c.ne h]
  have hn₂ : (w₁.detached a b q).socket w.nextAddr = some w.freshLocal := by
    simp [detached, free, store, hlt.ne', hlt'.ne', hnew]
  have hWb : W.socket b = some { q with peer := some w.nextAddr } :=
    (socket_store_ne _ _ hlt'.ne).trans (socket_store _ _ _)
  have hWn : W.socket w.nextAddr = some { w.freshLocal with peer := some b } := socket_store _ _ _
  have hmoves : Moves X w W := by
    refine .tail (.tail (.tail (.single .born) (.status hst)) (.detach hc₁.smart c.isSmart c.peer
      hc₁.client)) (.join hb₂ hn₂ (c.isLocal h) rfl hlt'.ne rfl rfl (c.closing h) rfl
      (c.callbacks h).2 rfl (c.unused h).2 rfl)
  have hside : W.Aside { w.freshLocal with peer := some b } :=
    ⟨b, _, rfl, hWb, fun hr => absurd ((c.isLocal h).symm.trans hr) (by simp)⟩
  refine ⟨W.resumed w.nextAddr { w.freshLocal with peer := some b }, ?_,
    hmoves.tail (.resume hWn rfl hside), ?_⟩
  · change smartSocketBind (callReady env enqueue) a b w.nextAddr w.born = _
    rw [heq, hW, callReady_local hWn rfl, ok_bind]
  · have hb' : (W.resumed w.nextAddr { w.freshLocal with peer := some b }).socket b =
        some { q with peer := some w.nextAddr } := (fdeventSet_socket_ne _ _ _ hlt'.ne).trans hWb
    have hWa : W.socket a = none := by
      simp [W, joined, detached, store, free, (c.ne h).symm, hlt.ne]
    refine ⟨⟨fun x hx => ?_, fun x hx => ?_, fun x hx => ?_, fun x hx => ?_, .inl rfl⟩,
      fun x hx => ?_, (fdeventSet_socket_ne _ _ _ hlt.ne).trans hWa, by simp [hb']⟩
    all_goals cases hb'.symm.trans hx
    · exact c.isLocal h
    · exact c.closing h
    · exact id
    · exact fun hn => absurd hn (by simp)
    · rfl

theorem Served.mono {asks asks' : Prop} {r : ℤ} (h : Served q b asks w' r) (ha : asks → asks') :
    Served q b asks' w' r :=
  ⟨h.isLocal, h.closing, h.events, fun x hx hp => (h.peer x hx hp).imp_right ha, h.result⟩

theorem Client.served (c : Client w a s b q) (h : Graph w) (asks : Prop)
    (hb : w'.socket b = some q) : Served q b asks w' 0 := by
  refine ⟨fun x hx => ?_, fun x hx => ?_, fun x hx => ?_, fun x hx => ?_, .inl rfl⟩
  all_goals cases hb.symm.trans hx
  · exact c.isLocal h
  · exact c.closing h
  · exact id
  · intro hn
    exact absurd (hn.symm.trans (c.back h)) (by simp)

def SmartResult (X : Licence) (w : Server) (b : Addr) (q : ASocket) (asks : Prop)
    (x : Server × ℤ) : Prop :=
  Moves X w x.1 ∧ (x.2 = -1 ∨ Served q b asks x.1 x.2)

/-- What such a call leaves of the smart socket at `a` and its client at `b`. The client is closed
when the call reports it, and else it is gone only if a list of devices was sent to it `vain`ly. -/
structure SmartLeft (a b : Addr) (vain : Prop) (x : Server × ℤ) : Prop where
  smart : ∀ y, x.1.socket a = some y → y.queue.length = 1
  client : x.2 = -1 ∧ ¬ vain ∨ x.2 ≠ -1 ∧ (x.1.socket b = none ↔ vain)

/-- A client asks for the devices, and the list cannot be written to it. -/
def Server.tracksVainly (w : Server) (env : Env) (request : HostRequest) : Prop :=
  env.handleHostRequest request = false ∧ hostServiceKind request.service = .tracker ∧
    (writeLoop false w.writes.tail (listTransportsMsg env)).2.2 = .failed

variable {asks vain : Prop}

theorem Client.left (c : Client w a s b q) (h : Graph w) (hcl : Closes b w w') :
    w'.socket a = none := by
  refine Option.eq_none_iff_forall_not_mem.mpr fun y hy => ?_
  obtain ⟨z, hz, hrem⟩ := hcl.left h c.client (.inr (c.back h)) hy
  cases c.smart.symm.trans hz
  exact c.isSmart.not_local hrem.isLocal

theorem SmartLeft.kept (ha : w'.socket a = some s) (hlen : s.queue.length = 1)
    (hb : w'.socket b = some q) (hv : ¬ vain) : SmartLeft a b vain (w', 0) := by
  refine ⟨fun y hy => ?_, .inr ⟨by simp, iff_of_false (by simp [hb]) hv⟩⟩
  cases ha.symm.trans hy
  exact hlen

theorem SmartLeft.gone {r : ℤ} (ha : w'.socket a = none) (hr : r ≠ -1)
    (hb : w'.socket b = none ↔ vain) : SmartLeft a b vain (w', r) :=
  ⟨fun _ hy => absurd (ha.symm.trans hy) (by simp), .inr ⟨hr, hb⟩⟩

theorem SmartLeft.congr {vain' : Prop} {x : Server × ℤ} (h : SmartLeft a b vain x)
    (hv : vain ↔ vain') : SmartLeft a b vain' x := by
  rwa [← propext hv]

theorem hostServiceKind_tracker {name : List Byte} :
    hostServiceKind name = .tracker ↔ name = text "track-devices" := by
  rw [hostServiceKind]
  split
  next heq => exact iff_of_true rfl heq
  next hne =>
    refine iff_of_false ?_ hne
    split
    · dsimp only
      split <;> simp
    · split <;> simp

abbrev SmartEnds (X : Licence) (w : Server) (a b : Addr) (q : ASocket) (asks vain : Prop)
    (x : Except Fault (Server × ℤ)) : Prop :=
  Ends (fun x => SmartResult X w b q asks x ∧ SmartLeft a b vain x) x

theorem smartSocketFail_spec (h : Graph w) (c : Client w a s b q) (hv : ¬ vain) :
    SmartEnds X w a b q asks vain (smartSocketFail a w) := by
  obtain ⟨w', hw', hcl⟩ := smartSocketFail_eq h c.smart c.isSmart c.peer c.client
  refine EndsIn.of_eq hw' ⟨⟨.single ?_, .inl rfl⟩, fun y hy => ?_, .inl ⟨rfl, hv⟩⟩
  · exact Move.close_of_peer h c.client (c.isLocal h) (by simp [c.back h]) hcl
  · exact absurd ((c.left h hcl).symm.trans hy) (by simp)

theorem smartSocketFail_status (h : Graph w) (c : Client w a s b q) (hs : StatusOnly b w w')
    (hv : ¬ vain) : SmartEnds X w a b q asks vain (smartSocketFail a w') :=
  (smartSocketFail_spec (h.statusOnly hs) (c.status hs) hv).mono fun _ hx =>
    ⟨⟨.head (.status hs) hx.1.1, hx.1.2⟩, hx.2⟩

theorem Client.retained (c : Client w a s b q) (h : Graph w) (t : Option TransportId)
    (hs : StatusOnly b (w.store a { s with transport := t, queue := [[]] }) w') (hv : ¬ vain) :
    SmartResult X w b q asks (w', 0) ∧ SmartLeft a b vain (w', 0) := by
  have hb : (w.store a { s with transport := t, queue := [[]] }).socket b = some q :=
    (socket_store_ne _ _ (c.ne h)).trans c.client
  have hmoves : Moves X w w' :=
    .tail (.single (.smart c.smart c.isSmart [[]] t)) (.status hs)
  have ha := socket_store w a { s with transport := t, queue := [[]] }
  obtain ⟨l, ws, _, rfl⟩ := hs
  exact ⟨⟨hmoves, .inr (c.served h _ hb)⟩, .kept ha rfl hb hv⟩

theorem smartSocketHost_spec (h : Graph w) (c : Client w a s b q) (request : HostRequest)
    (depth : ℕ) : SmartEnds X w a b q False (w.tracksVainly env request)
      (smartSocketHost env (callReady env (callEnqueue env (depth + 1))) request a b w) := by
  simp only [smartSocketHost, get_eq c.smart, ok_bind]
  split
  · exact .inl rfl
  split
  next htr =>
    -- a transport for the next request
    have hv : ¬ w.tracksVainly env request := by
      rintro ⟨_, hkind, _⟩
      rw [hostServiceKind_tracker.mp hkind] at htr
      exact absurd htr (by decide)
    cases env.acquireOneTransport request with
    | none => exact c.retained h s.transport (statusOnly_sendfailmsg _ b _) hv
    | some t => exact c.retained h (some t) (statusOnly_writeStatus _ b _) hv
  split
  next hdone =>
    refine smartSocketFail_status h c (statusOnly_writex w b _) fun hv => ?_
    exact absurd (hdone.symm.trans hv.1) (by simp)
  next hdone =>
    cases hkind : hostServiceKind request.service with
    | tracker =>
      obtain ⟨w', hw', hm, hserved, -, hgone, hlost⟩ := bindTracker (X := X) env h c depth
      refine EndsIn.of_eq hw' ⟨⟨hm, .inr hserved⟩, .gone hgone (by decide) (hlost.trans ?_)⟩
      exact ⟨fun hf => ⟨by simpa using hdone, hkind, hf⟩, fun hv => hv.2.2⟩
    | localSocket =>
      obtain ⟨w', hw', hm, hserved, -, hgone, hkept⟩ :=
        bindLocal (X := X) env h c (callEnqueue env (depth + 1))
      refine EndsIn.of_eq hw' ⟨⟨hm, .inr hserved⟩,
        .gone hgone (by decide) (iff_of_false hkept fun hv => ?_)⟩
      exact absurd (hkind.symm.trans hv.2.1) (by simp)
    | unknown =>
      refine smartSocketFail_status h c (statusOnly_sendfailmsg w b _) fun hv => ?_
      exact absurd (hkind.symm.trans hv.2.1) (by simp)

/-- A request for a device that is not there is refused, and any other one is passed on. -/
theorem smartSocketRemote_cases (h : Graph w) (c : Client w a s b q) (service : List Byte) :
    smartSocketRemote service a b w =
        smartSocketFail a (w.sendfailmsg b (text "device offline (x)")) ∨
      ∃ t, s.transport = some t ∧ w.connectionState t ≠ .offline ∧
        smartSocketRemote service a b w =
          .ok (((w.detached a b q).store b { q with peer := none }.notifying).asked b
            { q with peer := none }.notifying t service, 1) := by
  cases ht : s.transport with
  | none => exact .inl (by simp only [smartSocketRemote, get_eq c.smart, ok_bind, ht])
  | some t =>
    by_cases hon : w.connectionState t = .offline
    · exact .inl (by simp only [smartSocketRemote, get_eq c.smart, ok_bind, ht, hon, if_true])
    · exact .inr ⟨t, rfl, hon,
        smartSocketRemote_eq h c.smart c.isSmart c.peer c.client ht hon service⟩

theorem smartSocketRemote_spec (h : Graph w) (c : Client w a s b q) (service : List Byte)
    (hasks : ∀ t, s.transport = some t → w.connectionState t ≠ .offline → asks) (hv : ¬ vain) :
    SmartEnds X w a b q asks vain (smartSocketRemote service a b w) := by
  rcases smartSocketRemote_cases h c service with hoff | ⟨t, ht, hon, heq⟩
  · rw [hoff]
    exact smartSocketFail_status h c (statusOnly_sendfailmsg w b _) hv
  have hb : (w.detached a b q).socket b = some { q with peer := none } := by
    simp [detached, free, store, c.ne h]
  have hfree : (w.detached a b q).socket a = none := by simp [detached, free]
  have hb' := socket_store (w.detached a b q) b { q with peer := none }.notifying
  have hx' := socket_store ((w.detached a b q).store b { q with peer := none }.notifying) b
    { ({ q with peer := none } : ASocket).notifying with transport := some t }
  have hgone := (socket_store_ne ((w.detached a b q).store b { q with peer := none }.notifying)
    { ({ q with peer := none } : ASocket).notifying with transport := some t }
    (c.ne h).symm).trans ((socket_store_ne _ _ (c.ne h).symm).trans hfree)
  refine EndsIn.of_eq heq
    ⟨⟨.tail (.tail (.single (.detach c.smart c.isSmart c.peer c.client))
      (.notify hb (c.isLocal h) rfl (c.closing h)))
      (.ask hb' (c.isLocal h) rfl (c.closing h) (c.unused h).2 t service), .inr ?_⟩,
      .gone hgone (by decide) (iff_of_false (fun hn => ?_) hv)⟩
  · refine ⟨fun x hx => ?_, fun x hx => ?_, fun x hx => ?_, fun x hx => ?_, .inr ⟨rfl,
      fun x hx => ?_⟩⟩
    all_goals cases hx'.symm.trans hx
    · exact c.isLocal h
    · exact c.closing h
    · exact id
    · exact fun _ => ⟨rfl, hasks t ht hon⟩
    · rfl
  · exact absurd (hx'.symm.trans hn) (by simp)

theorem smartRequest_eq {bytes p : List Byte} (hcol : smartSocketCollect s p = some bytes)
    (h4 : ¬ bytes.length < 4) (hlen : ¬ (unhex (bytes.take 4) < 1 ∨ unhex (bytes.take 4) > 1024))
    (hall : ¬ unhex (bytes.take 4) + 4 > bytes.length) :
    smartRequest s p = some (cString ((bytes.drop 4).take (unhex (bytes.take 4)))) := by
  simp only [smartRequest, hcol, h4, hlen, hall, or_self, if_false]

/-- Together with `p`, the smart socket `s` has a request for the devices, and the list cannot be
written. -/
def Server.asksVainly (w : Server) (env : Env) (s : ASocket) (p : List Byte) : Prop :=
  ∃ service request, smartRequest s p = some service ∧ parseHostRequest service = some request ∧
    w.tracksVainly env request

theorem smartSocketEnqueue_ends (h : Graph w) (c : Client w a s b q) (p : List Byte) (depth : ℕ) :
    SmartEnds X w a b q (w.asksDevice s p) (w.asksVainly env s p)
      (smartSocketEnqueue env (callReady env (callEnqueue env (depth + 1))) a p w) := by
  simp only [smartSocketEnqueue, get_eq c.smart, ok_bind]
  cases hcol : smartSocketCollect s p with
  | none =>
    refine smartSocketFail_spec h c ?_
    rintro ⟨service, _, hreq, _⟩
    simp only [smartRequest, hcol] at hreq
    cases hreq
  | some bytes =>
    let w₁ := w.store a { s with queue := [bytes] }
    have hm : Move X w w₁ := .smart c.smart c.isSmart [bytes] s.transport
    have h₁ : Graph w₁ := hm.graph h
    have ha₁ : w₁.socket a = some { s with queue := [bytes] } := socket_store _ _ _
    have hc₁ : Client w₁ a { s with queue := [bytes] } b q :=
      ⟨ha₁, c.isSmart, c.peer, (socket_store_ne _ _ (c.ne h)).trans c.client⟩
    have hcons : ∀ {x : Server × ℤ} {vain : Prop},
        SmartResult X w₁ b q (w.asksDevice s p) x ∧ SmartLeft a b vain x →
        SmartResult X w b q (w.asksDevice s p) x ∧ SmartLeft a b vain x :=
      fun hx => ⟨⟨.head hm hx.1.1, hx.1.2⟩, hx.2⟩
    have hkept : ∀ {vain : Prop}, ¬ vain →
        SmartResult X w b q (w.asksDevice s p) (w₁, 0) ∧ SmartLeft a b vain (w₁, 0) :=
      fun hv => ⟨⟨.single hm, .inr (c.served h _ hc₁.client)⟩, .kept ha₁ rfl hc₁.client hv⟩
    have hnone : smartRequest s p = none → ¬ w.asksVainly env s p := by
      rintro hn ⟨service, _, hreq, _⟩
      exact absurd (hn.symm.trans hreq) (by simp)
    simp only
    split
    next h4 => exact hkept (hnone (by simp only [smartRequest, hcol, h4, true_or, if_true]))
    next h4 =>
      split
      next hlen =>
        refine (smartSocketFail_spec h₁ hc₁ (hnone ?_)).mono fun _ => hcons
        simp only [smartRequest, hcol, hlen, true_or, or_true, if_true]
      next hlen =>
        split
        next hall =>
          exact hkept (hnone (by simp only [smartRequest, hcol, hall, or_true, if_true]))
        next hall =>
          have hreq := smartRequest_eq hcol h4 hlen hall
          split
          next hn => exact absurd (hn.symm.trans c.peer) (by simp)
          next b' hb' =>
            cases hb'.symm.trans c.peer
            split
            next request hparse =>
              have hvain : w₁.tracksVainly env request ↔ w.asksVainly env s p := by
                refine ⟨fun hv => ⟨_, request, hreq, hparse, hv⟩, ?_⟩
                rintro ⟨service, request', hreq', hparse', hv⟩
                cases hreq.symm.trans hreq'
                cases hparse.symm.trans hparse'
                exact hv
              refine (smartSocketHost_spec (X := X) h₁ hc₁ _ depth).mono fun _ hx => hcons ?_
              exact ⟨⟨hx.1.1, hx.1.2.imp_right (Served.mono · False.elim)⟩, hx.2.congr hvain⟩
            next hnone' =>
              refine (smartSocketRemote_spec h₁ hc₁ _ (fun t ht hon => ?_) ?_).mono
                fun _ => hcons
              · exact ⟨_, t, hreq, hnone', ht, hon⟩
              · rintro ⟨service, request, hreq', hparse, _⟩
                cases hreq.symm.trans hreq'
                exact absurd (hnone'.symm.trans hparse) (by simp)

theorem smartSocketEnqueue_spec (h : Graph w) (c : Client w a s b q) (p : List Byte) (depth : ℕ) :
    Ends (SmartResult X w b q (w.asksDevice s p))
      (smartSocketEnqueue env (callReady env (callEnqueue env (depth + 1))) a p w) :=
  (smartSocketEnqueue_ends h c p depth).mono fun _ hx => hx.1

end Client

end PaxAdb.Sockets
