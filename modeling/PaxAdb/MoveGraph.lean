import PaxAdb.SocketMoves

/-!
# Moves keep the socket graph in order

`Move.graph` goes through the moves one by one; `Moves.graph` is the same for a sequence of them.
-/

namespace PaxAdb.Sockets

open ASocket Server

variable {X : Licence} {w w' : Server} {a p : Addr} {s q : ASocket}

namespace Graph

theorem wroteData (h : Graph w) (a : Addr) (bytes : List Byte) (writes : List WriteResult) :
    Graph (w.wroteData a bytes writes) :=
  h.congr rfl rfl rfl rfl rfl rfl rfl rfl

section Local

variable (h : Graph w) (ha : w.socket a = some s) (hloc : s.IsLocal)

include h ha hloc

theorem interest {ev : Events} (hwr : ev.write = true → s.queue ≠ [])
    (hw : ev.write = true ∨ s.fde.events.write = false)
    (hr : ev.read = true ∨ s.fde.events.read = false ∨ s.closing = true ∨ s.fde.bad = true) :
    Graph (w.fdeventSet a s ev) := by
  have hsane := h.localSane ha hloc
  have := h.fdeventSet ha hloc hsane.backlog (fun hc => (hsane.closing hc).2) hwr hw hr
    fun p q hp hq hs => ((h.linked ha hp hq).smart' hs).1
  rwa [store_self ha] at this

theorem events_write : s.fde.state.write = true ∨ s.fde.events.write = false := by
  cases hev : s.fde.events.write with
  | false => exact .inr rfl
  | true => exact .inl ((h.localSane ha hloc).events hev)

theorem events_read :
    s.fde.state.read = true ∨ s.fde.events.read = false ∨ s.closing = true ∨ s.fde.bad = true := by
  cases hev : s.fde.events.read with
  | false => exact .inr (.inl rfl)
  | true =>
    rcases (h.localSane ha hloc).reading hev with hr | hc | hb
    · exact .inl hr
    · exact .inr (.inr (.inl hc))
    · exact .inr (.inr (.inr hb))

theorem resumed : Graph (w.resumed a s) := by
  refine h.interest ha hloc (fun hw => (h.localSane ha hloc).writing ?_) ?_ (.inl ?_)
  · simpa [Events.union, Events.fdeRead] using hw
  · simpa [Events.union, Events.fdeRead] using h.events_write ha hloc
  · simp [Events.union, Events.fdeRead]

theorem paused (hr : s.fde.events.read = false ∨ s.closing = true) : Graph (w.paused a s) := by
  refine h.interest ha hloc (fun hw => (h.localSane ha hloc).writing ?_) ?_
    (.inr (hr.imp_right .inl))
  · simpa [Events.without, Events.fdeRead] using hw
  · simpa [Events.without, Events.fdeRead] using h.events_write ha hloc

theorem queued (hp : s.peer = some p)
    (hq : w.socket p = some q) (hsm : ¬ q.IsSmart) (bytes : List Byte) :
    Graph (w.queued a s bytes) := by
  refine h.fdeventSet ha hloc (fun _ _ => by simp [hp]) (fun _ => by simp) (fun _ => by simp)
    (.inl ?_) ?_ fun x y hx hy hs => ?_
  · simp [Events.union, Events.fdeWrite]
  · simpa [Events.union, Events.fdeWrite] using h.events_read ha hloc
  · cases hp.symm.trans hx
    cases hq.symm.trans hy
    exact absurd hs hsm

theorem emptied
    (hc : s.closing = false) (hev : s.fde.events.write = false) : Graph (w.emptied a s) := by
  refine h.fdeventSet ha hloc (fun _ hn => absurd rfl hn)
    (fun hc' => absurd (hc.symm.trans hc') (by simp)) (fun hw => ?_) (.inr hev) ?_
    fun _ _ _ _ _ => rfl
  · simp [Events.without, Events.fdeWrite] at hw
  · simpa [Events.without, Events.fdeWrite] using h.events_read ha hloc

theorem fed (hr : s.fde.events.read = false) (q : ASocket) (t : TransportId) (bytes : List Byte) :
    Graph (w.fed a s q t bytes) :=
  ((h.setTrace a _).sendPacket _ t).paused ha hloc (.inl hr)

theorem report {ev : Events}
    {bad : Bool} (hne : ev ≠ .none) (hw : ev.write = true → s.fde.state.write = true)
    (hr : ev.read = true → s.fde.state.read = true ∨ bad = true) :
    Graph (reportEvents w a ev bad) := by
  have hsane := h.localSane ha hloc
  have hl : ∀ b, b ∈ (if a ∈ w.listPending then w.listPending else w.listPending ++ [a]) ↔
      b ∈ w.listPending ∨ b = a := by
    intro b
    split
    next hm => exact ⟨.inl, fun hb => hb.elim id fun he => he ▸ hm⟩
    · simp
  unfold reportEvents
  simp only [ha]
  refine h.update ha ⟨fun _ => ?_, fun hn => absurd hloc hn⟩ rfl rfl rfl (fun _ => rfl)
    (fun p q hp hq hs => (h.linked ha hp hq).smart' hs) ?_ (fun b hb => ?_) ?_
  · refine ⟨hsane.shutdown, hsane.callbacks, hsane.notify, hsane.closing, hsane.backlog,
      hsane.writing, fun he => ?_, fun he => ?_, hsane.id, hsane.eof⟩
    · rcases Bool.or_eq_true_iff.mp he with he | he
      · exact hsane.events he
      · exact hw he
    · rcases Bool.or_eq_true_iff.mp he with he | he
      · rcases hsane.reading he with hx | hx | hx
        · exact .inl hx
        · exact .inr (.inl hx)
        · exact .inr (.inr (by simp [hx]))
      · rcases hr he with hx | hx
        · exact .inl hx
        · exact .inr (.inr (by simp [hx]))
  · split
    · exact h.lists.pending
    next hm => exact h.lists.pending.append (List.nodup_singleton a) (by simpa using hm)
  · rw [hl]
    simp [hb]
  · rw [hl]
    refine iff_of_true (.inr rfl) ?_
    rw [Events.ne_none_iff] at hne ⊢
    rcases hne with he | he
    · exact .inl (by simp [Events.union, he])
    · exact .inr (by simp [Events.union, he])

theorem drain {queue : List (List Byte)} (hne : queue ≠ []) (hlen : queue.length ≤ s.queue.length) :
    Graph (w.store a { s with queue := queue }) := by
  have hsane := h.localSane ha hloc
  have hq : s.queue ≠ [] := by
    intro he
    rw [he] at hlen
    exact hne (List.length_eq_zero_iff.mp (Nat.le_zero.mp hlen))
  refine h.store ha ⟨fun _ => ?_, fun hn => absurd hloc hn⟩ rfl rfl rfl (fun _ => rfl)
    (fun p q hp hx hs => absurd ((h.linked ha hp hx).smart' hs).1 hq) rfl
  exact ⟨hsane.shutdown, hsane.callbacks, hsane.notify, fun hc => ⟨(hsane.closing hc).1, hne⟩,
    fun hc _ => hsane.backlog hc hq, fun _ => hne, hsane.events, hsane.reading, hsane.id, hsane.eof⟩

theorem plain_of_closing
    (hc : s.closing = true) : s.ready = .localSocketReady ∧ s.close = .localSocketClose := by
  have hsane := h.localSane ha hloc
  refine hsane.callbacks.resolve_right fun hn => ?_
  exact absurd (hc.symm.trans (hsane.notify hn.2).2) (by simp)

theorem flush (hc : s.closing = true) (writes : List WriteResult) :
    Graph (((w.wroteData a s.queue.flatten writes).store a { s with queue := [] }).finished a
      { s with queue := [] }) := by
  have hsane := h.localSane ha hloc
  have hgone := h.finished ha hloc (hsane.closing hc).1 (h.plain_of_closing ha hloc hc)
  simp only [Server.finished, hc, true_or, if_true] at hgone ⊢
  refine hgone.congr ?_ rfl rfl rfl rfl rfl rfl rfl
  exact Function.update_idem _ _ _

end Local

theorem isLocal_of_pending (h : Graph w) (ha : w.socket a = some s) (hm : a ∈ w.listPending) :
    s.IsLocal := by
  by_contra hn
  exact (h.at_ ha).fit.pending.mp hm (h.otherSane ha hn).events

theorem dequeue (h : Graph w) {rest : List Addr} (hl : w.listPending = a :: rest)
    (ha : w.socket a = some s) :
    Graph { w.store a { s with fde := { s.fde with events := .none } } with
      listPending := rest } := by
  have hloc := h.isLocal_of_pending ha (by simp [hl])
  have hsane := h.localSane ha hloc
  have hn := h.lists.pending
  rw [hl, List.nodup_cons] at hn
  refine h.update ha ⟨fun _ => ?_, fun hn => absurd hloc hn⟩ rfl rfl rfl (fun _ => rfl)
    (fun p q hp hq hs => (h.linked ha hp hq).smart' hs) hn.2 (fun b hb => ?_) ?_
  · exact ⟨hsane.shutdown, hsane.callbacks, hsane.notify, hsane.closing, hsane.backlog,
      hsane.writing, nofun, nofun, hsane.id, hsane.eof⟩
  · simp [hl, hb]
  · exact iff_of_false hn.1 fun he => he rfl

theorem smart (h : Graph w) (ha : w.socket a = some s) (hsm : s.IsSmart)
    (queue : List (List Byte)) (t : Option TransportId) :
    Graph (w.store a { s with queue := queue, transport := t }) := by
  have hnot : ¬ s.IsLocal := fun hl => absurd (hsm.symm.trans hl) (by simp)
  have hsane := h.otherSane ha hnot
  refine h.store ha ⟨fun hl => absurd hl hnot, fun _ => ?_⟩ rfl rfl rfl
    (fun hr => absurd (hsm.symm.trans hr) (by simp)) (fun p q hp hq hs => ?_) rfl
  · exact ⟨hsane.peer, hsane.closing, hsane.events, fun hr => absurd (hsm.symm.trans hr) (by simp),
      hsane.smart, fun hr => absurd (hsm.symm.trans hr) (by simp)⟩
  · exact absurd (hs.symm.trans (h.isLocal_of_peer ha hp hq hnot)) (by simp)

theorem closes (h : Graph w) (hcl : Closes a w w') : Graph w' := by
  cases hcl with
  | alone ha hloc hp hs =>
    have hplain := (h.plain ha hloc).statusOnly hs
    obtain ⟨l, ws, _, rfl⟩ := hs
    exact hplain.finished (socket_store _ _ _) hloc hp ⟨rfl, rfl⟩
  | @other s q p ha hloc hp hq hother =>
    have hshut : Graph (w.shutdownFor s q) ∧ (w.shutdownFor s q).socket = w.socket := by
      unfold shutdownFor
      split
      · exact ⟨h.sendPacket _ _, rfl⟩
      · exact ⟨h, rfl⟩
    exact hshut.1.closedWith (hshut.2 ▸ ha) hloc hp (hshut.2 ▸ hq) hother
  | both ha hloc hp hq hqloc => exact h.closedBoth ha hloc hp hq hqloc

end Graph

theorem Server.Aside.peer_ne (h : w.Aside s) : s.peer ≠ none := by
  obtain ⟨p, q, hp, _⟩ := h
  simp [hp]

theorem Move.graph (hm : Move X w w') (h : Graph w) : Graph w' := by
  cases hm with
  | status hs => exact h.statusOnly hs
  | results => exact h.congr rfl rfl rfl rfl rfl rfl rfl rfl
  | report ha hloc hne hw hr => exact h.report ha hloc hne hw hr
  | dequeue hl ha => exact h.dequeue hl ha
  | resume ha hloc _ => exact h.resumed ha hloc
  | pause ha hloc _ hr => exact h.paused ha hloc hr
  | feed ha hloc _ _ _ _ _ _ hev => exact h.fed ha hloc hev _ _ _
  | wrote _ _ _ _ _ _ _ bytes writes => exact h.wroteData _ bytes writes
  | queue ha hloc hp hq _ hsm bytes => exact h.queued ha hloc hp hq hsm bytes
  | failed a => exact h.setTrace a _
  | drain ha hloc hne hlen _ writes => exact (h.wroteData _ _ writes).drain ha hloc hne hlen
  | drained ha hloc hp hev writes =>
    exact (h.wroteData _ _ writes).emptied ha hloc
      ((h.localSane ha hloc).closing_of_peer hp.peer_ne) hev
  | answer ha hloc hp _ _ _ _ hev writes =>
    have hc := (h.localSane ha hloc).closing_of_peer (by simp [hp])
    exact (((h.wroteData _ _ writes).emptied ha hloc hc hev).setTrace _ _).sendPacket _ _
  | flush ha hloc hc writes => exact h.flush ha hloc hc writes
  | close _ _ _ _ hcl => exact h.closes hcl
  | smart ha hsm queue t => exact h.smart ha hsm queue t
  | born => exact h.born
  | attachSmart ha hloc hp hc ht => exact h.attachSmart ha hloc hp hc ht
  | attachTracker ha hloc hp hc _ => exact h.attachTracker ha hloc hp hc
  | join ha hb hloc hqloc hne hp hqp hc hqc hcb hqcb _ _ =>
    exact h.joined ha hb hloc hqloc hne hp hqp hc hqc hcb hqcb
  | detach ha hsm hp hq => exact h.detached ha hsm hp hq
  | notify ha hloc hp hc => exact h.notifying ha hloc hp hc
  | ask ha hloc hp _ _ t destination => exact h.asked ha hloc hp t destination

theorem Moves.graph (hm : Moves X w w') (h : Graph w) : Graph w' := by
  induction hm with
  | refl => exact h
  | tail _ hm ih => exact hm.graph ih

end PaxAdb.Sockets
