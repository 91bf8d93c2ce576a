import PaxAdb.DispatchMoves

/-!
# The steps of the server as moves

New clients, reported events and messages to the trackers are moves. A transport that changes its
state, and the calls of other threads, may in addition disconnect remote sockets and close local
ones (`Setup`).
-/

namespace PaxAdb.Sockets

open ASocket Server List Events

variable {X : Licence} {env : Env} {w w' : Server} {a p : Addr} {s q : ASocket}

section Clients

theorem acceptSmart_eq (env : Env) (w : Server) : acceptSmart env w =
    .ok ((w.born.attachSmart w.nextAddr w.freshLocal).resumed w.nextAddr
      { w.freshLocal.plain with peer := some (w.nextAddr + 1) }) := by
  have hborn : w.born.socket w.nextAddr = some w.freshLocal := socket_store w _ _
  have heq : acceptSmart env w = callReady env (callEnqueue env enqueueDepth) w.nextAddr
      (w.born.attachSmart w.nextAddr w.freshLocal) := by
    change (w.born.get w.nextAddr >>= fun s => callReady env (callEnqueue env enqueueDepth)
      w.nextAddr { (w.born.store (w.nextAddr + 1) (smartFor w.nextAddr)).store w.nextAddr
        { s with peer := some (w.nextAddr + 1) } with nextAddr := w.nextAddr + 1 + 1 }) = _
    rw [get_eq hborn, ok_bind]
    rfl
  rw [heq]
  exact callReady_local (socket_store _ _ _) rfl

theorem acceptSmart_spec : Ends (Moves X w) (acceptSmart env w) := by
  have hlt : w.nextAddr ≠ w.nextAddr + 1 := (Nat.lt_succ_self _).ne
  have hborn : w.born.socket w.nextAddr = some w.freshLocal := socket_store w _ _
  let w₁ := w.born.attachSmart w.nextAddr w.freshLocal
  have ha₁ : w₁.socket w.nextAddr =
      some { w.freshLocal.plain with peer := some (w.nextAddr + 1) } := socket_store _ _ _
  have hs₁ : w₁.socket (w.nextAddr + 1) = some (smartFor w.nextAddr) :=
    (socket_store_ne _ _ hlt.symm).trans (socket_store _ _ _)
  have hm : Moves X w w₁ := .tail (.single .born) (.attachSmart hborn rfl rfl rfl rfl)
  have hside : w₁.Aside { w.freshLocal.plain with peer := some (w.nextAddr + 1) } :=
    ⟨_, _, rfl, hs₁, nofun⟩
  exact EndsIn.of_eq (acceptSmart_eq env w) (hm.tail (.resume ha₁ rfl hside))

theorem acceptForward_spec (t : TransportId) (connectTo : List Byte) :
    Ends (Moves X w) (acceptForward t connectTo w) := by
  have hborn : w.born.socket w.nextAddr = some w.freshLocal := socket_store w _ _
  have heq : acceptForward t connectTo w =
      if connectTo.length + 1 > MAX_PAYLOAD - 1 then .error .exit
      else .ok (w.born.asked w.nextAddr w.freshLocal t connectTo) := by
    change (w.born.get w.nextAddr >>= fun s => if connectTo.length + 1 > MAX_PAYLOAD - 1 then
      .error .exit else pure ((w.born.store w.nextAddr { s with transport := some t }).sendPacket
        ⟨.aOpen, s.id, 0, connectTo ++ [0]⟩ t)) = _
    rw [get_eq hborn, ok_bind]
    rfl
  rw [heq]
  split
  · exact Or.inl rfl
  · exact .tail (.single .born) (.ask hborn rfl rfl rfl rfl t connectTo)

end Clients

section Poll

theorem reportEvents_isLocal (w : Server) (a b : Addr) (ev : Events) (bad : Bool) :
    (reportEvents w a ev bad).isLocal b = w.isLocal b := by
  unfold reportEvents
  split
  · rfl
  next s hs =>
    by_cases hb : b = a
    · subst hb
      simp [isLocal, store, hs]
    · simp [isLocal, store, hb]

theorem reportEvents_waitsFor (w : Server) (a b : Addr) (ev ev' : Events) (bad : Bool) :
    (reportEvents w a ev bad).waitsFor b ev' = w.waitsFor b ev' := by
  unfold reportEvents
  split
  · rfl
  next s hs =>
    by_cases hb : b = a
    · subst hb
      simp [waitsFor, store, hs]
    · simp [waitsFor, store, hb]

theorem Events.without_eq_none {x y : Events} (h : x.without y = .none) :
    (x.write = true → y.write = true) ∧ (x.read = true → y.read = true) := by
  simp only [without, none, mk.injEq, Bool.and_eq_false_iff, Bool.not_eq_false'] at h
  rcases h with ⟨hr, hw⟩
  exact ⟨fun hx => hw.resolve_left (by simp [hx]), fun hx => hr.resolve_left (by simp [hx])⟩

theorem poll_spec (ready : List (Addr × Events)) (w : Server)
    (h : ∀ x ∈ ready, w.waitsFor x.1 x.2 = true) :
    Moves X w (ready.foldl (fun w x => reportEvents w x.1 x.2 false) w) := by
  induction ready generalizing w with
  | nil => exact .refl
  | cons x ready ih =>
    obtain ⟨a, ev⟩ := x
    have hx := h (a, ev) mem_cons_self
    have hm : Move X w (reportEvents w a ev false) := by
      obtain ⟨s, hs, hcond⟩ := Option.any_eq_true _ _ |>.mp hx
      simp only [decide_eq_true_eq] at hcond
      obtain ⟨hloc, hne, hev⟩ := hcond
      have hle := without_eq_none hev
      exact .report hs hloc hne hle.1 fun hr => Or.inl (hle.2 hr)
    refine .head hm (ih _ fun y hy => ?_)
    rw [reportEvents_waitsFor]
    exact h y (mem_cons_of_mem _ hy)

theorem pollBad_spec (bad : List Addr) (w : Server) (h : ∀ a ∈ bad, w.isLocal a = true) :
    Moves X w (bad.foldl (fun w a => reportEvents w a .fdeRead true) w) := by
  induction bad generalizing w with
  | nil => exact .refl
  | cons a bad ih =>
    have hx := h a mem_cons_self
    have hm : Move X w (reportEvents w a .fdeRead true) := by
      obtain ⟨s, hs, hcond⟩ := Option.any_eq_true _ _ |>.mp hx
      have hloc : s.IsLocal := by simpa using hcond
      exact .report hs hloc (by simp [Events.fdeRead, Events.none]) nofun fun _ => Or.inr rfl
    refine .head hm (ih _ fun y hy => ?_)
    rw [reportEvents_isLocal]
    exact h y (mem_cons_of_mem _ hy)

end Poll

section Trackers

theorem Enqueued.graph {bytes : List Byte} {r : ℤ} (he : Enqueued a s bytes w w' r) (h : Graph w)
    (ha : w.socket a = some s) (hloc : s.IsLocal) (hp : s.peer = some p) (hq : w.socket p = some q)
    (hsm : ¬ q.IsSmart) : Graph w' := by
  have hatt : Graph (w.attempted a bytes) := h.wroteData a _ _
  cases he with
  | queued => exact h.queued ha hloc hp hq hsm bytes
  | done => exact hatt
  | blocked => exact hatt.queued ha hloc hp hq hsm _
  | failed _ _ hcl => exact (hatt.setTrace a _).closes hcl

theorem deviceTrackerSend_spec (env : Env) (h : Graph w) (ha : w.socket a = some s)
    (htr : s.IsTracker)
    (buffer : List Byte) :
    ∃ p q w' r, s.peer = some p ∧ w.socket p = some q ∧ q.IsLocal ∧ q.peer = some a ∧
      deviceTrackerSend (callEnqueue env enqueueDepth) a buffer w = .ok (w', r) ∧
      Enqueued p q buffer w w' r := by
  have hnl : ¬ s.IsLocal := fun hl => absurd (htr.symm.trans hl) (by simp)
  obtain ⟨p, hp⟩ := Option.ne_none_iff_exists'.mp (h.otherSane ha hnl).peer
  obtain ⟨_, q, hq, hlink⟩ := h.peer_spec ha hp
  have hloc := h.isLocal_of_peer ha hp hq hnl
  obtain ⟨w', r, hw', henq⟩ := localSocketEnqueue_spec h hq hloc buffer
  refine ⟨p, q, w', r, hp, hq, hloc, hlink.peer, ?_, henq⟩
  simp only [deviceTrackerSend, get_eq ha, ok_bind, hp, enqueueDepth, callEnqueue, get_eq hq, hloc,
    hw']

end Trackers

inductive Setup (X : Licence) (w : Server) : Server → Prop where
  | move {w' : Server} (h : Move X w w') : Setup X w w'
  | transport (online : TransportId → Bool) (connectionState : TransportId → ConnectionState) :
      Setup X w { w with online := online, connectionState := connectionState }
  | send (x : Packet) (t : TransportId) : Setup X w (w.sendPacket x t)
  | disconnect {a p : Addr} {s q : ASocket} (hq : w.socket p = some q) (hrem : q.IsRemote)
      (hp : q.peer = some a) (ha : w.socket a = some s) : Setup X w (w.closedWith a s p q)
  | close {a : Addr} {s : ASocket} {w' : Server} (ha : w.socket a = some s)
      (hc : s.closing = false) (h : Closes a w w') : Setup X w w'

abbrev Setups (X : Licence) : Server → Server → Prop := Relation.ReflTransGen (Setup X)

section Setups

theorem ASocket.IsRemote.not_local (hr : s.IsRemote) : ¬ s.IsLocal :=
  fun hl => absurd (hr.symm.trans hl) (by simp)

theorem Setup.graph (hm : Setup X w w') (h : Graph w) : Graph w' := by
  cases hm with
  | move hm => exact hm.graph h
  | transport => exact h.congr rfl rfl rfl rfl rfl rfl rfl rfl
  | send x t => exact h.sendPacket x t
  | disconnect hq hrem hp ha =>
    exact h.closedWith ha (h.isLocal_of_peer hq hp ha hrem.not_local) (h.linked hq hp ha).peer hq
      hrem.not_local
  | close _ _ hcl => exact h.closes hcl

theorem Setups.graph (hm : Setups X w w') (h : Graph w) : Graph w' := by
  induction hm with
  | refl => exact h
  | tail _ hm ih => exact hm.graph ih

theorem Moves.setups (hm : Moves X w w') : Setups X w w' := by
  induction hm with
  | refl => exact .refl
  | tail _ hm ih => exact ih.tail (.move hm)

theorem remoteSocketDisconnect_eq (h : Graph w) (hq : w.socket p = some q) (hrem : q.IsRemote)
    (hp : q.peer = some a) (ha : w.socket a = some s) :
    w.remoteSocketDisconnect p = .ok (w.closedWith a s p q) := by
  have hloc := h.isLocal_of_peer hq hp ha hrem.not_local
  have hne : a ≠ p := (h.peer_spec hq hp).1
  have hlink := h.linked hq hp ha
  obtain ⟨_, _, hclose, htr, _⟩ := (h.otherSane hq hrem.not_local).remote hrem
  obtain ⟨t, ht⟩ := Option.ne_none_iff_exists'.mp htr
  have hplain := ((h.localSane ha hloc).plain_of_peer (by simp [hlink.peer])).2
  have hcl : (w.store a { s with peer := none }).close a =
      .ok ((w.store a { s with peer := none }).finished a { s with peer := none }) :=
    closeSocket_plain (s := { s with peer := none }) (socket_store _ _ _) rfl hplain
  have hcomm : w.closedWith a s p q =
      ((w.store a { s with peer := none }).finished a { s with peer := none }).dispose p q := by
    rw [dispose_finished_comm _ _ _ hne, dispose_store_comm _ _ _ hne]
    rfl
  rw [hcomm]
  simp only [remoteSocketDisconnect, get_eq hq, ok_bind, hp, get_eq ha, hcl, ht, pure_eq_ok,
    dispose, hclose]

theorem closedWith_socket_ne {b : Addr} (w : Server) (s q : ASocket) (ha : b ≠ a) (hp : b ≠ p) :
    (w.closedWith a s p q).socket b = w.socket b := by
  rw [closedWith, socket_finished_ne _ _ ha, socket_store_ne _ _ ha, socket_dispose_ne _ _ hp]

abbrev DisconnectRule (t : TransportId) (R : Server → Prop) : Prop :=
  ∀ {w : Server} {a p : Addr} {s q : ASocket}, Graph w → R w → w.socket p = some q →
    q.IsRemote → q.transport = some t → q.peer = some a → w.socket a = some s →
    R (w.closedWith a s p q)

abbrev TrackerRule (R : Server → Prop) : Prop :=
  ∀ {w w' : Server} {a p : Addr} {s q : ASocket} {bytes : List Byte} {r : ℤ}, Graph w →
    R w → w.socket a = some s → s.IsTracker → w.socket p = some q → q.IsLocal →
    q.peer = some a → Enqueued p q bytes w w' r → R w'

/-- What has to be shown to see that a property survives the set-up of the transport `t`. -/
structure SetupRule (t : TransportId) (R : Server → Prop) : Prop where
  transport : ∀ {w : Server}, R w → ∀ online connectionState,
    R { w with online := online, connectionState := connectionState }
  send : ∀ {w : Server}, R w → ∀ x t, R (w.sendPacket x t)
  disconnect : DisconnectRule t R
  tracker : TrackerRule R

variable {R : Server → Prop} {t : TransportId}

theorem Enqueued.moves_of_tracker {bytes : List Byte} {r : ℤ} (henq : Enqueued p q bytes w w' r)
    (h : Graph w) (ha : w.socket a = some s) (htr : s.IsTracker) (hq : w.socket p = some q)
    (hloc : q.IsLocal) (hp : q.peer = some a) : Moves X w w' :=
  henq.moves h hq hloc hp ha (fun hr => absurd (htr.symm.trans hr) (by simp))
    fun hr => absurd (htr.symm.trans hr) (by simp)

theorem trackerRule_moves (w : Server) : TrackerRule (Moves X w) :=
  fun h hr ha htr hq hloc hp henq => hr.trans (henq.moves_of_tracker h ha htr hq hloc hp)

theorem setupRule_setups (w : Server) (t : TransportId) : SetupRule t (Setups X w) where
  transport hr _ _ := hr.tail (.transport _ _)
  send hr x t := hr.tail (.send x t)
  disconnect _ hr hq hrem _ hp ha := hr.tail (.disconnect hq hrem hp ha)
  tracker h hr ha htr hq hloc hp henq :=
    hr.trans (henq.moves_of_tracker h ha htr hq hloc hp).setups

theorem updateTrackers_rule (hR : TrackerRule R) (l : List Addr) (h : Graph w) (hw : R w)
    (hn : l.Nodup) (hl : ∀ a ∈ l, ∃ s, w.socket a = some s ∧ s.IsTracker) :
    Succeeds (fun w' => Graph w' ∧ R w') (updateTrackers env l w) := by
  induction l generalizing w with
  | nil => exact ⟨h, hw⟩
  | cons a l ih =>
    obtain ⟨hna, hn⟩ := nodup_cons.mp hn
    obtain ⟨s, ha, htr⟩ := hl a mem_cons_self
    obtain ⟨p, q, w', r, hp, hq, hloc, hqp, heq, henq⟩ :=
      deviceTrackerSend_spec env h ha htr (listTransportsMsg env)
    have hsm : ¬ s.IsSmart := fun hr => absurd (htr.symm.trans hr) (by simp)
    simp only [updateTrackers, heq, ok_bind]
    refine ih (henq.graph h hq hloc hqp ha hsm) (hR h hw ha htr hq hloc hqp henq) hn
      fun b hb => ?_
    obtain ⟨y, hy, hyt⟩ := hl b (mem_cons_of_mem _ hb)
    have hbp : b ≠ p := by
      rintro rfl
      cases hy.symm.trans hq
      exact absurd (hyt.symm.trans hloc) (by simp)
    have hba : q.peer ≠ some b := by
      rw [hqp]
      intro he
      cases he
      exact hna hb
    exact ⟨y, (henq.frame hq hbp hba).trans hy, hyt⟩

theorem updateTransports_rule (hR : TrackerRule R) (h : Graph w) (hw : R w) :
    Succeeds (fun w' => Graph w' ∧ R w') (updateTransports env w) := by
  refine updateTrackers_rule hR _ h hw h.lists.tracker fun a ha => ?_
  cases hs : w.socket a with
  | none => exact absurd ha ((h.good a).gone hs).tracker
  | some s => exact ⟨s, rfl, (h.at_ hs).fit.tracker.mp ha⟩

theorem runDisconnects_rule (hR : DisconnectRule t R) (l : List Addr) (h : Graph w) (hw : R w)
    (hn : l.Nodup) (hl : ∀ p ∈ l, ∃ q, w.socket p = some q ∧ q.IsRemote ∧ q.transport = some t) :
    Succeeds (fun w' => Graph w' ∧ R w') (runDisconnects l w) := by
  induction l generalizing w with
  | nil => exact ⟨h, hw⟩
  | cons p l ih =>
    obtain ⟨hnp, hn⟩ := nodup_cons.mp hn
    obtain ⟨q, hq, hrem, ht⟩ := hl p mem_cons_self
    obtain ⟨a, hp⟩ := Option.ne_none_iff_exists'.mp (h.otherSane hq hrem.not_local).peer
    obtain ⟨_, s, ha, _⟩ := h.peer_spec hq hp
    have hloc := h.isLocal_of_peer hq hp ha hrem.not_local
    have hg := h.closedWith ha hloc (h.linked hq hp ha).peer hq hrem.not_local
    simp only [runDisconnects, remoteSocketDisconnect_eq h hq hrem hp ha, ok_bind]
    refine ih hg (hR h hw hq hrem ht hp ha) hn fun b hb => ?_
    obtain ⟨y, hy, hyr, hyt⟩ := hl b (mem_cons_of_mem _ hb)
    have hba : b ≠ a := by
      rintro rfl
      cases hy.symm.trans ha
      exact hyr.not_local hloc
    have hbp : b ≠ p := by
      rintro rfl
      exact hnp hb
    exact ⟨y, (closedWith_socket_ne w s q hba hbp).trans hy, hyr, hyt⟩

theorem runTransportDisconnects_rule (hR : DisconnectRule t R) (h : Graph w) (hw : R w) :
    Succeeds (fun w' => Graph w' ∧ R w') (runTransportDisconnects t w) := by
  refine runDisconnects_rule hR _ h hw (h.lists.disconnect t) fun p hp => ?_
  cases hs : w.socket p with
  | none => exact absurd hp (((h.good p).gone hs).disconnect t)
  | some q => exact ⟨q, rfl, ((h.at_ hs).fit.disconnect t).mp hp⟩

theorem closeLocked_spec (h : Graph w) (hm : a ∈ w.localSocketList) :
    ∃ s w', w.socket a = some s ∧ s.IsLocal ∧ s.closing = false ∧
      closeSocket closeDepth true .locked a w = .ok w' ∧ Closes a w w' := by
  cases hs : w.socket a with
  | none => exact absurd hm ((h.good a).gone hs).listed
  | some s =>
    obtain ⟨hloc, hc⟩ := (h.at_ hs).fit.listed.mp hm
    cases hp : s.peer with
    | none =>
      have hqueue := h.queue_of_peer_none hs hloc hp hc
      refine ⟨s, _, rfl, hloc, hc, closeSocket_locked_none hs hp, ?_⟩
      have heq : w.finished a s = (w.store a s.plain).finished a s.plain := by
        have hq' : s.plain.queue = [] := hqueue
        simp only [finished, hqueue, hq', or_true, if_true, localSocketDestroy, store,
          free, Function.update_idem]
      rw [heq]
      exact .alone hs hloc hp (StatusOnly.refl _ _)
    | some p =>
      obtain ⟨w', hw', hcl⟩ := closeSocket_locked h hs hloc hp 2 true
      exact ⟨s, w', rfl, hloc, hc, hw', hcl⟩

theorem closeAllLoop_rule
    (hR : ∀ {w w' : Server} {a : Addr} {s : ASocket}, Graph w → R w → w.socket a = some s →
      s.closing = false → Closes a w w' → R w') (t : TransportId) (fuel : ℕ) (h : Graph w)
    (hw : R w) : Ends R (closeAllLoop t fuel w) := by
  induction fuel generalizing w with
  | zero => exact hw
  | succ fuel ih =>
    simp only [closeAllLoop]
    split
    · exact hw
    next a hf =>
      obtain ⟨s, w', hs, _, hc, heq, hcl⟩ := closeLocked_spec h (mem_of_find?_eq_some hf)
      simp only [heq, ok_bind]
      exact ih (h.closes hcl) (hR h hw hs hc hcl)

theorem closeAllLoop_spec (t : TransportId) (fuel : ℕ) (h : Graph w) :
    Ends (Setups X w) (closeAllLoop t fuel w) :=
  closeAllLoop_rule (fun _ hr hs hc hcl => hr.tail (.close hs hc hcl)) t fuel h .refl

end Setups

end PaxAdb.Sockets
