import PaxAdb.SocketSpecs

/-!
# Operations that keep the socket graph

For every update that the handlers are composed of: which sockets and list entries it touches, and
that the graph is in order afterwards.
-/

namespace PaxAdb.Sockets

open ASocket Server List

section Events

theorem Events.without_le {x y : Events} : ((x.without y).write = true → x.write = true) ∧
    ((x.without y).read = true → x.read = true) := by
  simp only [Events.without, Bool.and_eq_true]
  exact ⟨fun h => h.1, fun h => h.1⟩

theorem Events.ne_none_iff {x : Events} : x ≠ .none ↔ x.read = true ∨ x.write = true := by
  rcases x with ⟨r, w⟩
  cases r <;> cases w <;> simp [Events.none]

end Events

section Fdevent

variable {w : Server} {a b : Addr} {s : ASocket} {ev : Events}

theorem fdeAfter_state : (w.fdeAfter a s ev).state = ev := by
  unfold fdeAfter
  split
  · assumption
  · rfl

theorem fdeAfter_bad : (w.fdeAfter a s ev).bad = s.fde.bad := by
  unfold fdeAfter
  split <;> rfl

theorem fdeAfter_forceEof : (w.fdeAfter a s ev).forceEof = s.fde.forceEof := by
  unfold fdeAfter
  split <;> rfl

theorem fdeAfter_events_le : ((w.fdeAfter a s ev).events.write = true → s.fde.events.write = true) ∧
    ((w.fdeAfter a s ev).events.read = true → s.fde.events.read = true) := by
  unfold fdeAfter
  split
  · exact ⟨id, id⟩
  · dsimp only
    split
    · exact Events.without_le
    · exact ⟨id, id⟩

theorem mem_pendingAfter_ne (h : b ≠ a) : b ∈ w.pendingAfter a s ev ↔ b ∈ w.listPending := by
  unfold pendingAfter
  split
  · exact mem_erase_of_ne h
  · exact Iff.rfl

theorem nodup_pendingAfter (h : w.listPending.Nodup) : (w.pendingAfter a s ev).Nodup := by
  unfold pendingAfter
  split
  · exact h.erase a
  · exact h

theorem mem_pendingAfter (hn : w.listPending.Nodup)
    (h : a ∈ w.listPending ↔ s.fde.events ≠ .none) :
    a ∈ w.pendingAfter a s ev ↔ (w.fdeAfter a s ev).events ≠ .none := by
  unfold pendingAfter fdeAfter
  by_cases hst : s.fde.state = ev
  · simp only [hst, ne_eq, not_true_eq_false, false_and, if_false, if_true]
    exact h
  · by_cases hp : a ∈ w.listPending
    · by_cases hl : s.fde.events.without ev = .none
      · simp only [hst, hp, hl, ne_eq, not_false_eq_true, and_self, if_true, if_false,
          not_true_eq_false, iff_false]
        exact hn.not_mem_erase
      · simp [hst, hp, hl]
    · simp only [hst, hp, ne_eq, not_false_eq_true, false_and, and_false, if_false]
      simpa [hp] using h

end Fdevent

section Marks

variable {w : Server} {a b p : Addr} {s q : ASocket}

theorem marks_store (w : Server) (a b : Addr) (s : ASocket) : (w.store a s).marks b = w.marks b :=
  rfl

theorem marks_finished_ne (w : Server) (s : ASocket) (h : b ≠ a) :
    (w.finished a s).marks b = w.marks b := by
  unfold finished
  split
  · simp [marks, localSocketDestroy, free, mem_erase_of_ne h]
  · simp [marks, store, mem_erase_of_ne h, h, mem_pendingAfter_ne h]

theorem marks_dispose_ne (w : Server) (q : ASocket) (h : b ≠ p) :
    (w.dispose p q).marks b = w.marks b := by
  unfold dispose
  split
  next t _ _ =>
    simp only [marks, free, Marks.mk.injEq, true_and]
    funext u
    by_cases hu : u = t
    · subst u
      simp [mem_erase_of_ne h]
    · simp [hu]
  · simp [marks, free, mem_erase_of_ne h]
  · rfl

theorem socket_dispose (w : Server) (p : Addr) (q : ASocket) : (w.dispose p q).socket p = none := by
  unfold dispose
  split <;> simp [free]

theorem lists_dispose (h : w.Lists) : (w.dispose p q).Lists := by
  unfold dispose
  split
  next t _ _ =>
    refine ⟨h.listed, h.closing, h.tracker, h.pending, fun u => ?_⟩
    by_cases hu : u = t
    · subst u
      simpa using (h.disconnect t).erase p
    · simpa [hu] using h.disconnect u
  · exact ⟨h.listed, h.closing, h.tracker.erase p, h.pending, h.disconnect⟩
  · exact ⟨h.listed, h.closing, h.tracker, h.pending, h.disconnect⟩

theorem lists_finished (h : w.Lists) (ha : a ∉ w.localSocketClosingList ∨ s.closing = true) :
    (w.finished a s).Lists := by
  unfold finished
  split
  · exact ⟨h.listed.erase a, h.closing.erase a, h.tracker, h.pending.erase a, h.disconnect⟩
  next hc =>
    have hnot : a ∉ w.localSocketClosingList := ha.resolve_right fun hcl => hc (.inl hcl)
    refine ⟨h.listed.erase a, ?_, h.tracker, nodup_pendingAfter h.pending, h.disconnect⟩
    exact h.closing.append (nodup_singleton a) (by simpa using hnot)

theorem ASocket.OtherSane.closesOther (h : q.OtherSane) (hq : ¬ q.IsLocal) : q.ClosesOther := by
  cases hk : q.enqueue with
  | localSocketEnqueue => exact absurd hk hq
  | remoteSocketEnqueue => exact .inl ⟨(h.remote hk).2.2.1, (h.remote hk).2.2.2.1⟩
  | smartSocketEnqueue => exact .inr (.inl (h.smart hk).2.2.1)
  | deviceTrackerEnqueue => exact .inr (.inr (h.tracker hk).2.2.1)

theorem blank_dispose (hl : w.Lists) (hq : ¬ q.IsLocal) (hs : q.OtherSane)
    (hf : (w.marks p).Fit q) : ((w.dispose p q).marks p).Blank := by
  have hlisted : p ∉ w.localSocketList := fun hm => hq (hf.listed.mp hm).1
  have hclosing : p ∉ w.localSocketClosingList := fun hm => hq (hf.closing.mp hm).1
  have hpending : p ∉ w.listPending := fun hm => hf.pending.mp hm hs.events
  cases hk : q.enqueue with
  | localSocketEnqueue => exact absurd hk hq
  | remoteSocketEnqueue =>
    obtain ⟨_, _, hclose, htrans, _⟩ := hs.remote hk
    obtain ⟨t, ht⟩ := Option.ne_none_iff_exists'.mp htrans
    have htracker : p ∉ w.deviceTrackerList := fun hm =>
      absurd (hk.symm.trans (hf.tracker.mp hm)) (by simp)
    simp only [dispose, hclose, ht]
    refine ⟨hlisted, hclosing, htracker, hpending, fun u hm => ?_⟩
    simp only [marks, free] at hm
    by_cases hu : u = t
    · subst u
      rw [Function.update_self] at hm
      exact (hl.disconnect t).not_mem_erase hm
    · rw [Function.update_of_ne hu] at hm
      have := ((hf.disconnect u).mp hm).2
      rw [ht] at this
      exact hu (Option.some.inj this).symm
  | smartSocketEnqueue =>
    have hclose := (hs.smart hk).2.2.1
    have htracker : p ∉ w.deviceTrackerList := fun hm =>
      absurd (hk.symm.trans (hf.tracker.mp hm)) (by simp)
    have hdisc : ∀ t, p ∉ w.disconnects t := fun t hm =>
      absurd (hk.symm.trans ((hf.disconnect t).mp hm).1) (by simp)
    simp only [dispose, hclose]
    exact ⟨hlisted, hclosing, htracker, hpending, hdisc⟩
  | deviceTrackerEnqueue =>
    have hclose := (hs.tracker hk).2.2.1
    have hdisc : ∀ t, p ∉ w.disconnects t := fun t hm =>
      absurd (hk.symm.trans ((hf.disconnect t).mp hm).1) (by simp)
    simp only [dispose, hclose]
    exact ⟨hlisted, hclosing, hl.tracker.not_mem_erase, hpending, hdisc⟩

theorem good_finished (hl : w.Lists) (hloc : s.IsLocal) (hp : s.peer = none)
    (hf : (w.marks a).Fit s) (hshut : s.shutdown = none)
    (hcb : s.ready = .localSocketReady ∧ s.close = .localSocketClose)
    (hev : s.fde.events.write = true → s.fde.state.write = true)
    (heof : s.fde.forceEof = false) : (w.finished a s).Good a := by
  have hne : s.enqueue ≠ .deviceTrackerEnqueue := by
    rw [hloc]
    simp
  have hnr : s.enqueue ≠ .remoteSocketEnqueue := by
    rw [hloc]
    simp
  have htracker : a ∉ w.deviceTrackerList := fun hm => hne (hf.tracker.mp hm)
  have hdisc : ∀ t, a ∉ w.disconnects t := fun t hm => hnr ((hf.disconnect t).mp hm).1
  by_cases hc : s.closing ∨ s.queue = []
  · simp only [finished, hc, if_true]
    constructor
    · intro s' hs'
      simp [localSocketDestroy, free] at hs'
    · intro _
      exact ⟨hl.listed.not_mem_erase, hl.closing.not_mem_erase, htracker,
        hl.pending.not_mem_erase, hdisc⟩
  · simp only [finished, hc, if_false]
    obtain ⟨hclosing, hqueue⟩ := not_or.mp hc
    constructor
    · intro s' hs'
      simp only [store, Function.update_self, Option.some.injEq] at hs'
      subst s'
      refine ⟨⟨fun _ => ?_, fun hn => absurd hloc hn⟩, ?_, fun x hx => ?_⟩
      · refine ⟨hshut, .inl hcb, ?_, fun _ => ⟨hp, hqueue⟩, ?_, fun _ => hqueue, ?_, ?_, ?_,
          fdeAfter_forceEof.trans heof⟩
        · intro hn
          simp only [closingSocket, hcb.2] at hn
          cases hn
        · intro hcl
          simp [closingSocket] at hcl
        · intro hw
          simp only [closingSocket, fdeAfter_state] at hw ⊢
          have := hev (fdeAfter_events_le.1 hw)
          simpa [Events.without, Events.fdeRead] using this
        · intro _
          exact .inr (.inl rfl)
        · intro hcl
          simp [closingSocket] at hcl
      · refine ⟨?_, ?_, ?_, ?_, ?_⟩
        · have hnot : a ∉ w.localSocketList.erase a := hl.listed.not_mem_erase
          simp only [marks, closingSocket]
          simp [hnot]
        · simp [marks, closingSocket, hloc]
        · simp [marks, store, closingSocket, htracker, hloc]
        · exact mem_pendingAfter hl.pending hf.pending
        · intro t
          simp [marks, store, closingSocket, hdisc t, hloc]
      · rw [show (w.closingSocket a s).peer = s.peer from rfl, hp] at hx
        cases hx
    · intro hs'
      simp [store] at hs'

end Marks

namespace Graph

variable {w w' : Server} {a b p : Addr} {s s' q : ASocket}

theorem congr (h : Graph w) (hsock : w'.socket = w.socket) (hnext : w'.nextAddr = w.nextAddr)
    (hid : w'.localSocketNextId = w.localSocketNextId)
    (hlist : w'.localSocketList = w.localSocketList)
    (hclosing : w'.localSocketClosingList = w.localSocketClosingList)
    (htracker : w'.deviceTrackerList = w.deviceTrackerList)
    (hdisc : w'.disconnects = w.disconnects) (hpending : w'.listPending = w.listPending) :
    Graph w' := by
  have hmarks : ∀ b, w'.marks b = w.marks b := by
    intro b
    simp only [marks, hlist, hclosing, htracker, hdisc, hpending]
  refine h.of_touched [] (fun b _ => ⟨by rw [hsock], hmarks b⟩)
    (fun b s _ _ p hp => absurd hp not_mem_nil) (fun b hb => absurd hb not_mem_nil)
    ?_ (fun b hb => by rw [hsock]; exact h.fresh b (hnext ▸ hb)) (hid ▸ h.nextId)
  exact ⟨hlist ▸ h.lists.listed, hclosing ▸ h.lists.closing, htracker ▸ h.lists.tracker,
    hpending ▸ h.lists.pending, hdisc ▸ h.lists.disconnect⟩

theorem sendPacket (h : Graph w) (x : Packet) (t : TransportId) : Graph (w.sendPacket x t) :=
  h.congr rfl rfl rfl rfl rfl rfl rfl rfl

theorem setTrace (h : Graph w) (a : Addr) (x : Trace) : Graph (w.setTrace a x) :=
  h.congr rfl rfl rfl rfl rfl rfl rfl rfl

theorem statusOnly (h : Graph w) (hs : StatusOnly a w w') : Graph w' := by
  obtain ⟨l, ws, _, rfl⟩ := hs
  exact h.congr rfl rfl rfl rfl rfl rfl rfl rfl

theorem update (h : Graph w) (ha : w.socket a = some s) {l : List Addr} (hs : s'.Sane)
    (hpeer : s'.peer = s.peer) (hk : s'.enqueue = s.enqueue) (hc : s'.closing = s.closing)
    (ht : s.IsRemote → s'.transport = s.transport)
    (hq : ∀ p q, s.peer = some p → w.socket p = some q → q.IsSmart →
      s'.queue = [] ∧ s'.transport = none)
    (hl : l.Nodup) (hlb : ∀ b, b ≠ a → (b ∈ l ↔ b ∈ w.listPending))
    (hla : a ∈ l ↔ s'.fde.events ≠ .none) :
    Graph { w.store a s' with listPending := l } := by
  have hat := h.at_ ha
  refine h.of_touched [a] (fun b hb => ?_) (fun b x hb hx p hp hxp => ?_) (fun b hb => ?_) ?_
    (fun b hb => ?_) h.nextId
  · have hne : b ≠ a := by simpa using hb
    refine ⟨socket_store_ne w s' hne, ?_⟩
    simp [marks, store, hlb b hne]
  · cases mem_singleton.mp hp
    have hlink := h.linked hx hxp ha
    refine ⟨s', socket_store w a s', hpeer.trans hlink.peer, ?_, ?_, ?_⟩
    · exact hlink.oneLocal.imp_right hk.trans
    · exact fun hsm => hq b x hlink.peer hx hsm
    · exact fun hsm => hlink.smart' (hk.symm.trans hsm)
  · cases mem_singleton.mp hb
    refine ⟨fun x hx => ?_, fun hx => ?_⟩
    · have hxs : s' = x := Option.some.inj ((socket_store w a s').symm.trans hx)
      subst x
      refine ⟨hs, ⟨?_, ?_, ?_, hla, fun t => ?_⟩, fun p hp => ?_⟩
      · rw [IsLocal, hk, hc]
        exact hat.fit.listed
      · rw [IsLocal, hk, hc]
        exact hat.fit.closing
      · rw [IsTracker, hk]
        exact hat.fit.tracker
      · refine (hat.fit.disconnect t).trans ?_
        rw [IsRemote, IsRemote, hk]
        refine and_congr_right fun hr => ?_
        rw [ht hr]
      · rw [hpeer] at hp
        obtain ⟨hne, y, hy, hlink⟩ := hat.link p hp
        refine ⟨hne, y, (socket_store_ne w s' hne).trans hy, hlink.peer, ?_, ?_, ?_⟩
        · exact hlink.oneLocal.imp_left hk.trans
        · exact fun hsm => hlink.smart (hk.symm.trans hsm)
        · exact fun hsm => hq p y hp hy hsm
    · exact absurd ((socket_store w a s').symm.trans hx) (by simp)
  · exact ⟨h.lists.listed, h.lists.closing, h.lists.tracker, hl, h.lists.disconnect⟩
  · have hne : b ≠ a := by
      rintro rfl
      exact absurd (h.lt_nextAddr ha) (not_lt.mpr hb)
    exact (socket_store_ne w s' hne).trans (h.fresh b hb)

theorem store (h : Graph w) (ha : w.socket a = some s) (hs : s'.Sane) (hpeer : s'.peer = s.peer)
    (hk : s'.enqueue = s.enqueue) (hc : s'.closing = s.closing)
    (ht : s.IsRemote → s'.transport = s.transport)
    (hq : ∀ p q, s.peer = some p → w.socket p = some q → q.IsSmart →
      s'.queue = [] ∧ s'.transport = none)
    (hev : s'.fde.events = s.fde.events) : Graph (w.store a s') :=
  h.update ha hs hpeer hk hc ht hq h.lists.pending (fun _ _ => Iff.rfl)
    (hev ▸ (h.at_ ha).fit.pending)

theorem fdeventSet (h : Graph w) (ha : w.socket a = some s) (hloc : s.IsLocal)
    {queue : List (List Byte)} {ev : Events}
    (hback : s.closing = false → queue ≠ [] → s.peer ≠ none)
    (hcl : s.closing = true → queue ≠ []) (hwr : ev.write = true → queue ≠ [])
    (hw : ev.write = true ∨ s.fde.events.write = false)
    (hr : ev.read = true ∨ s.fde.events.read = false ∨ s.closing = true ∨ s.fde.bad = true)
    (hq : ∀ p q, s.peer = some p → w.socket p = some q → q.IsSmart → queue = []) :
    Graph ((w.store a { s with queue := queue }).fdeventSet a { s with queue := queue } ev) := by
  have hsane := h.localSane ha hloc
  rw [fdeventSet_eq, store_store]
  refine h.update ha ⟨fun _ => ?_, fun hn => absurd hloc hn⟩ rfl rfl rfl (fun _ => rfl)
    (fun p q hp hx hs => ⟨hq p q hp hx hs, ((h.linked ha hp hx).smart' hs).2⟩)
      (nodup_pendingAfter h.lists.pending) (fun b hb => mem_pendingAfter_ne hb)
    (mem_pendingAfter h.lists.pending (h.at_ ha).fit.pending)
  refine ⟨hsane.shutdown, hsane.callbacks, hsane.notify, fun hc => ⟨(hsane.closing hc).1, hcl hc⟩,
    hback, ?_, ?_, ?_, hsane.id, fdeAfter_forceEof.trans hsane.eof⟩
  · simp only [fdeAfter_state]
    exact hwr
  · intro hev
    simp only [fdeAfter_state]
    exact hw.resolve_right fun hf => by
      rw [fdeAfter_events_le.1 hev] at hf
      cases hf
  · intro hev
    simp only [fdeAfter_state, fdeAfter_bad]
    rcases hr with hr | hr | hr | hr
    · exact .inl hr
    · rw [fdeAfter_events_le.2 hev] at hr
      cases hr
    · exact .inr (.inl hr)
    · exact .inr (.inr hr)

end Graph

end PaxAdb.Sockets
