import PaxAdb.GraphOps

/-!
# Closing keeps the socket graph

A socket without a peer can be finished, and two peers can be taken apart and closed together,
whether one of them is not local (`closedWith`) or both are local (`closedBoth`).
-/

namespace PaxAdb.Sockets

open ASocket Server

variable {w w₁ : Server} {a b p : Addr} {s q : ASocket}

theorem nextAddr_dispose : (w.dispose p q).nextAddr = w.nextAddr := by
  unfold dispose
  split <;> rfl

theorem localSocketNextId_dispose : (w.dispose p q).localSocketNextId = w.localSocketNextId := by
  unfold dispose
  split <;> rfl

theorem nextAddr_finished : (w.finished a s).nextAddr = w.nextAddr := by
  unfold finished
  split <;> rfl

theorem localSocketNextId_finished : (w.finished a s).localSocketNextId = w.localSocketNextId := by
  unfold finished
  split <;> rfl

theorem fresh_finished (hf : w.nextAddr ≤ b → w.socket b = none) (ha : a < w.nextAddr)
    (hb : (w.finished a s).nextAddr ≤ b) : (w.finished a s).socket b = none := by
  rw [nextAddr_finished] at hb
  rw [socket_finished_ne w s (lt_of_lt_of_le ha hb).ne']
  exact hf hb

theorem lists_store (h : w.Lists) : (w.store a s).Lists :=
  ⟨h.listed, h.closing, h.tracker, h.pending, h.disconnect⟩

theorem peer_finished (hp : s.peer = none) (hx : (w.finished a s).socket a = some q) :
    q.peer = none := by
  unfold Server.finished at hx
  split at hx
  · simp [localSocketDestroy, free] at hx
  · simp only [store, Function.update_self, Option.some.injEq] at hx
    subst q
    exact hp

theorem Server.Good.congr {w' : Server} (h : w.Good b) (hs : w'.socket b = w.socket b)
    (hm : w'.marks b = w.marks b) (hp : ∀ x, w.socket b = some x → x.peer = none) : w'.Good b := by
  refine ⟨fun x hx => ?_, fun hx => ?_⟩
  · rw [hs] at hx
    have hat := h.live x hx
    refine ⟨hat.sane, hm ▸ hat.fit, fun r hr => ?_⟩
    rw [hp x hx] at hr
    cases hr
  · rw [hs] at hx
    exact hm ▸ h.gone hx

theorem Marks.Fit.unlink {m : Marks} (h : m.Fit s) : m.Fit { s with peer := none } :=
  ⟨h.listed, h.closing, h.tracker, h.pending, h.disconnect⟩

theorem ASocket.LocalSane.plain_of_peer (h : s.LocalSane) (hp : s.peer ≠ none) :
    s.ready = .localSocketReady ∧ s.close = .localSocketClose :=
  h.callbacks.resolve_right fun hn => hp (h.notify hn.2).1

theorem ASocket.LocalSane.closing_of_peer (h : s.LocalSane) (hp : s.peer ≠ none) :
    s.closing = false := by
  by_contra hc
  exact hp (h.closing (by simpa using hc)).1

namespace Graph

section Closing

variable (h : Graph w) (ha : w.socket a = some s) (hloc : s.IsLocal)

include h ha hloc

omit hloc in
theorem not_mem_closing (hc : s.closing = false) : a ∉ w.localSocketClosingList := by
  intro hm
  have := ((h.at_ ha).fit.closing.mp hm).2
  rw [hc] at this
  cases this

omit hloc in
theorem mem_closing_or : a ∉ w.localSocketClosingList ∨ s.closing = true := by
  cases hc : s.closing with
  | false => exact Or.inl (h.not_mem_closing ha hc)
  | true => exact Or.inr rfl

theorem finished (hp : s.peer = none)
    (hcb : s.ready = .localSocketReady ∧ s.close = .localSocketClose) : Graph (w.finished a s) := by
  have hsane := h.localSane ha hloc
  refine h.of_touched [a] (fun b hb => ?_) (fun b x hb hx p hp' hxp => ?_) (fun b hb => ?_)
    (lists_finished h.lists (h.mem_closing_or ha)) (fun b hb => ?_) ?_
  · have hne : b ≠ a := by simpa using hb
    exact ⟨socket_finished_ne w s hne, marks_finished_ne w s hne⟩
  · refine absurd hxp fun hxp => h.no_link_into ?_ hb hx hp' hxp
    intro c hc y hy r hr
    rw [List.mem_singleton.mp hc, ha] at hy
    cases hy
    rw [hp] at hr
    cases hr
  · rw [List.mem_singleton.mp hb]
    exact good_finished h.lists hloc hp (h.at_ ha).fit hsane.shutdown hcb hsane.events hsane.eof
  · exact fresh_finished (h.fresh b) (h.lt_nextAddr ha) hb
  · rw [localSocketNextId_finished]
    exact h.nextId

section Peers

variable (hp : s.peer = some p) (hq : w.socket p = some q)

include hp hq

omit hloc in
theorem pair_closed :
    ∀ c ∈ [a, p], ∀ y, w.socket c = some y → ∀ r, y.peer = some r → r ∈ [a, p] := by
  have hlink := h.linked ha hp hq
  intro c hc y hy r hr
  rcases List.mem_pair.mp hc with rfl | rfl
  · rw [ha] at hy
    cases hy
    rw [hp] at hr
    cases hr
    simp
  · rw [hq] at hy
    cases hy
    rw [hlink.peer] at hr
    cases hr
    simp

/-- A local socket is closed after its peer: `w₁` is what closing the peer has made of `w`. -/
theorem closed_after (hlists : w₁.Lists)
    (hoff : ∀ b, b ≠ p → w₁.socket b = w.socket b ∧ w₁.marks b = w.marks b)
    (hnext : w₁.nextAddr = w.nextAddr) (hid : w₁.localSocketNextId = w.localSocketNextId)
    (hgood : w₁.Good p) (hpeer : ∀ x, w₁.socket p = some x → x.peer = none) :
    Graph ((w₁.store a { s with peer := none }).finished a { s with peer := none }) := by
  have hsane := h.localSane ha hloc
  have hsome : s.peer ≠ none := by simp [hp]
  have hne : p ≠ a := (h.peer_spec ha hp).1
  have hfit : (w₁.marks a).Fit { s with peer := none } := by
    rw [(hoff a (Ne.symm hne)).2]
    exact (h.at_ ha).fit.unlink
  have hnot : a ∉ w₁.localSocketClosingList := by
    intro hm
    have := (hfit.closing.mp hm).2
    rw [hsane.closing_of_peer hsome] at this
    cases this
  refine h.of_touched [a, p] (fun b hb => ?_)
    (fun b x hb hx r hr hxr => (h.no_link_into (h.pair_closed ha hp hq) hb hx hr hxr).elim)
    (fun b hb => ?_) (lists_finished (lists_store hlists) (Or.inl hnot)) (fun b hb => ?_) ?_
  · obtain ⟨hba, hbp⟩ : b ≠ a ∧ b ≠ p := by simpa using hb
    rw [socket_finished_ne _ _ hba, socket_store_ne _ _ hba, marks_finished_ne _ _ hba, marks_store]
    exact hoff b hbp
  · rcases List.mem_pair.mp hb with rfl | rfl
    · exact good_finished (lists_store hlists) hloc rfl hfit hsane.shutdown
        (hsane.plain_of_peer hsome) hsane.events hsane.eof
    · refine hgood.congr ?_ ?_ hpeer
      · rw [socket_finished_ne _ _ hne, socket_store_ne _ _ hne]
      · rw [marks_finished_ne _ _ hne, marks_store]
  · rw [nextAddr_finished] at hb
    have hb' : w.nextAddr ≤ b := hnext ▸ hb
    have hba : b ≠ a := (lt_of_lt_of_le (h.lt_nextAddr ha) hb').ne'
    have hbp : b ≠ p := (lt_of_lt_of_le (h.lt_nextAddr hq) hb').ne'
    rw [socket_finished_ne _ _ hba, socket_store_ne _ _ hba, (hoff b hbp).1]
    exact h.fresh b hb'
  · rw [localSocketNextId_finished]
    exact hid.trans_ne h.nextId

theorem closedWith (hother : ¬ q.IsLocal) : Graph (w.closedWith a s p q) := by
  have hgone : ∀ x, (w.dispose p q).socket p ≠ some x := by
    intro x hx
    rw [socket_dispose] at hx
    cases hx
  refine h.closed_after ha hloc hp hq (lists_dispose h.lists)
    (fun b hb => ⟨socket_dispose_ne _ _ hb, marks_dispose_ne _ _ hb⟩) nextAddr_dispose
    localSocketNextId_dispose ⟨fun x hx => absurd hx (hgone x), fun _ => ?_⟩
    fun x hx => absurd hx (hgone x)
  exact blank_dispose h.lists hother (h.otherSane hq hother) (h.at_ hq).fit

theorem closedBoth (hqloc : q.IsLocal) : Graph (w.closedBoth a s p q) := by
  have hqsane := h.localSane hq hqloc
  have hqpeer : q.peer ≠ none := by simp [(h.linked ha hp hq).peer]
  have hpn : p ∉ w.localSocketClosingList := h.not_mem_closing hq (hqsane.closing_of_peer hqpeer)
  refine h.closed_after ha hloc hp hq (lists_finished (lists_store h.lists) (Or.inl hpn))
    (fun b hb => ⟨?_, ?_⟩) nextAddr_finished localSocketNextId_finished ?_
    fun x hx => peer_finished rfl hx
  · rw [socket_finished_ne _ _ hb, socket_store_ne _ _ hb]
  · rw [marks_finished_ne _ _ hb, marks_store]
  · exact good_finished (lists_store h.lists) hqloc rfl (h.at_ hq).fit.unlink hqsane.shutdown
      (hqsane.plain_of_peer hqpeer) hqsane.events hqsane.eof

end Peers

end Closing

end Graph

end PaxAdb.Sockets
