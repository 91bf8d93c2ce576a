import PaxAdb.SendBounds

/-!
# Closing the sockets of a transport

`close_all_sockets` looks for a socket on `local_socket_list` that uses the transport or whose peer
does, closes it and starts over, because closing a socket may take others off the list. Every round
makes the list shorter, and touches only sockets that have to do with the transport.
-/

namespace PaxAdb.Sockets

open ASocket Server Runs

variable {w w₁ w₂ : Server} {t : TransportId} {a b p : Addr} {s q x : ASocket}

/-- The socket at `a` uses the transport `t`, or its peer does. -/
def Server.Concerns (w : Server) (t : TransportId) (a : Addr) : Prop :=
  ∃ s, w.socket a = some s ∧
    (s.transport = some t ∨ ∃ p q, s.peer = some p ∧ w.socket p = some q ∧ q.transport = some t)

theorem concerns_iff (w : Server) (t : TransportId) (a : Addr) :
    (w.socket a).any (fun s => s.transport = some t ||
      (s.peer.bind w.socket).any (fun q => q.transport = some t)) = true ↔ w.Concerns t a := by
  unfold Server.Concerns
  cases ha : w.socket a with
  | none => simp
  | some s =>
    cases hp : s.peer with
    | none => simp [hp]
    | some p => cases hq : w.socket p <;> simp [hp, hq]

theorem Server.Concerns.peer (hcon : w.Concerns t a) (h : Graph w) (ha : w.socket a = some s)
    (hp : s.peer = some p) : w.Concerns t p := by
  obtain ⟨_, q, hq, hlink⟩ := h.peer_spec ha hp
  obtain ⟨s', ha', ht⟩ := hcon
  cases ha.symm.trans ha'
  refine ⟨q, hq, ?_⟩
  rcases ht with ht | ⟨p', q', hp', hq', ht⟩
  · exact .inr ⟨a, s, hlink.peer, ha, ht⟩
  · cases hp.symm.trans hp'
    cases hq.symm.trans hq'
    exact .inl ht

theorem Graph.mem_localSocketList (h : Graph w) (ha : w.socket a = some s) (hloc : s.IsLocal)
    (hc : s.closing = false) : a ∈ w.localSocketList :=
  (h.at_ ha).fit.listed.mpr ⟨hloc, hc⟩

theorem Graph.marks_of_socket_eq (h : Graph w) (h₁ : Graph w₁) (hs : w₁.socket b = w.socket b) :
    w₁.marks b = w.marks b := by
  cases hb : w.socket b with
  | none =>
    have hblank := (h.good b).gone hb
    have hblank₁ := (h₁.good b).gone (hs.trans hb)
    exact marks_eq (iff_of_false hblank₁.listed hblank.listed)
      (iff_of_false hblank₁.closing hblank.closing) (iff_of_false hblank₁.tracker hblank.tracker)
      (iff_of_false hblank₁.pending hblank.pending)
      fun t => iff_of_false (hblank₁.disconnect t) (hblank.disconnect t)
  | some s =>
    have hfit := (h.at_ hb).fit
    have hfit₁ := (h₁.at_ (hs.trans hb)).fit
    exact marks_eq (hfit₁.listed.trans hfit.listed.symm) (hfit₁.closing.trans hfit.closing.symm)
      (hfit₁.tracker.trans hfit.tracker.symm) (hfit₁.pending.trans hfit.pending.symm)
      fun t => (hfit₁.disconnect t).trans (hfit.disconnect t).symm

structure Swept (t : TransportId) (w w₁ : Server) : Prop where
  graph : Graph w₁
  socket : ∀ b, w₁.socket b = w.socket b ∨ w.Concerns t b ∧ ∀ x, w₁.socket b = some x →
    x.closing = true ∧ x.IsLocal ∧ x.peer = none

namespace Swept

theorem refl (h : Graph w) : Swept t w w := ⟨h, fun _ => .inl rfl⟩

theorem of_peer (h : Swept t w w₁) (hb : w₁.socket b = some x) (hp : x.peer ≠ none) :
    w.socket b = some x := by
  rcases h.socket b with heq | ⟨_, hrem⟩
  · exact heq ▸ hb
  · exact absurd (hrem x hb).2.2 hp

theorem of_open (h : Swept t w w₁) (hb : w₁.socket b = some x) (hc : x.closing = false) :
    w.socket b = some x := by
  rcases h.socket b with heq | ⟨_, hrem⟩
  · exact heq ▸ hb
  · exact absurd ((hrem x hb).1.symm.trans hc) (by simp)

theorem concerns (h : Swept t w w₁) (hcon : w₁.Concerns t a) (ha : w₁.socket a = some s)
    (ha' : w.socket a = some s) : w.Concerns t a := by
  obtain ⟨s', hs', ht⟩ := hcon
  cases ha.symm.trans hs'
  refine ⟨s, ha', ht.imp_right ?_⟩
  rintro ⟨p, q, hp, hq, ht⟩
  have hpeer := (h.graph.linked ha hp hq).peer
  exact ⟨p, q, hp, h.of_peer hq (by simp [hpeer]), ht⟩

theorem closes (h : Swept t w w₁) (hcon : w₁.Concerns t a) (ha : w₁.socket a = some s)
    (hc : s.closing = false) (hcl : Closes a w₁ w₂) : Swept t w w₂ := by
  refine ⟨h.graph.closes hcl, fun b => ?_⟩
  by_cases hb : b = a ∨ s.peer = some b
  · refine .inr ⟨?_, fun x hx => ?_⟩
    · rcases hb with rfl | hp
      · exact h.concerns hcon ha (h.of_open ha hc)
      · obtain ⟨_, q, hq, hlink⟩ := h.graph.peer_spec ha hp
        exact h.concerns (hcon.peer h.graph ha hp) hq (h.of_peer hq (by simp [hlink.peer]))
    · obtain ⟨y, _, hrem⟩ := hcl.left h.graph ha hb hx
      exact ⟨hrem.closing, hrem.enqueue.trans hrem.isLocal, hrem.peer⟩
  · have heq := hcl.frame ha (fun hba => hb (.inl hba)) (fun hp => hb (.inr hp))
    rw [heq]
    exact h.socket b

theorem still_concerns (h : Swept t w w₁) (hcon : w.Concerns t b)
    (hb : w₁.socket b = w.socket b) : w₁.Concerns t b := by
  obtain ⟨s, hs, ht⟩ := hcon
  refine ⟨s, hb.trans hs, ht.imp_right ?_⟩
  rintro ⟨p, q, hp, hq, ht⟩
  obtain ⟨_, q₁, hq₁, hlink⟩ := h.graph.peer_spec (hb.trans hs) hp
  have hsame := h.of_peer hq₁ (by simp [hlink.peer])
  cases hq.symm.trans hsame
  exact ⟨p, q, hp, hq₁, ht⟩

theorem closed (h : Swept t w w₁) (hend : ∀ a ∈ w₁.localSocketList, ¬ w₁.Concerns t a)
    (hcon : w.Concerns t b) : w₁.socket b = none ∨
      b ∈ w₁.localSocketClosingList ∧ ∃ x, w₁.socket b = some x ∧ x.peer = none := by
  cases hb : w₁.socket b with
  | none => exact .inl rfl
  | some x =>
    refine .inr ?_
    have hclosing : x.IsLocal ∧ x.closing = true ∧ x.peer = none := by
      rcases h.socket b with heq | ⟨_, hrem⟩
      · have hcon₁ := h.still_concerns hcon heq
        have hloc : x.IsLocal := by
          by_contra hother
          -- the peer of any other socket is in use, and has to do with the transport as well
          obtain ⟨p, hp⟩ := Option.ne_none_iff_exists'.mp (h.graph.otherSane hb hother).peer
          obtain ⟨_, q, hq, hlink⟩ := h.graph.peer_spec hb hp
          have hqloc := h.graph.isLocal_of_peer hb hp hq hother
          have hqc := (h.graph.localSane hq hqloc).closing_of_peer (by simp [hlink.peer])
          exact hend p (h.graph.mem_localSocketList hq hqloc hqc) (hcon₁.peer h.graph hb hp)
        have hc : x.closing = true := by
          by_contra hopen
          exact hend b (h.graph.mem_localSocketList hb hloc (by simpa using hopen)) hcon₁
        exact ⟨hloc, hc, ((h.graph.localSane hb hloc).closing hc).1⟩
      · obtain ⟨hc, hloc, hp⟩ := hrem x hb
        exact ⟨hloc, hc, hp⟩
    exact ⟨(h.graph.at_ hb).fit.closing.mpr ⟨hclosing.1, hclosing.2.1⟩, x, rfl, hclosing.2.2⟩

end Swept

theorem Closes.length_lt (hcl : Closes a w w₁) (h : Graph w) (hm : a ∈ w.localSocketList)
    (ha : w.socket a = some s) : w₁.localSocketList.length < w.localSocketList.length := by
  have h₁ := h.closes hcl
  have hgone : ∀ b ∈ w₁.localSocketList, ¬(b = a ∨ s.peer = some b) := by
    intro b hb hor
    cases hx : w₁.socket b with
    | none => exact ((h₁.good b).gone hx).listed hb
    | some x =>
      obtain ⟨y, _, hrem⟩ := hcl.left h ha hor hx
      exact absurd (((h₁.at_ hx).fit.listed.mp hb).2.symm.trans hrem.closing) (by simp)
  have hsub : a :: w₁.localSocketList ⊆ w.localSocketList := by
    refine List.cons_subset.mpr ⟨hm, fun b hb => ?_⟩
    have hne := hgone b hb
    have heq := hcl.frame ha (fun hba => hne (.inl hba)) fun hp => hne (.inr hp)
    have hmarks := congrArg Marks.listed (h.marks_of_socket_eq h₁ heq)
    exact hmarks.mp hb
  have hnodup : (a :: w₁.localSocketList).Nodup :=
    List.nodup_cons.mpr ⟨fun hb => hgone a hb (.inl rfl), h₁.lists.listed⟩
  exact (hnodup.subperm hsub).length_le

theorem closeAllLoop_ends (h : Swept t w w₁) :
    ∃ w₂, (∀ fuel, w₁.localSocketList.length ≤ fuel → closeAllLoop t fuel w₁ = .ok w₂) ∧
      Swept t w w₂ ∧ ∀ a ∈ w₂.localSocketList, ¬ w₂.Concerns t a := by
  induction hn : w₁.localSocketList.length using Nat.strong_induction_on generalizing w₁ with
  | h n ih =>
    cases hfind : w₁.localSocketList.find? (fun a => (w₁.socket a).any (fun s =>
        s.transport = some t || (s.peer.bind w₁.socket).any (fun q => q.transport = some t))) with
    | none =>
      refine ⟨w₁, fun fuel _ => ?_, h, fun a hm hcon => ?_⟩
      · cases fuel with
        | zero => rfl
        | succ fuel => simp only [closeAllLoop, hfind]
      · exact List.find?_eq_none.mp hfind a hm ((concerns_iff w₁ t a).mpr hcon)
    | some a =>
      have hm := List.mem_of_find?_eq_some hfind
      have hfound := List.find?_some hfind
      have hcon := (concerns_iff w₁ t a).mp hfound
      obtain ⟨s, w₂, hs, _, hc, heq, hcl⟩ := closeLocked_spec h.graph hm
      have hlt := hcl.length_lt h.graph hm hs
      obtain ⟨w₃, hloop, hswept, hend⟩ :=
        ih _ (hn ▸ hlt) (h.closes hcon hs hc hcl) rfl
      refine ⟨w₃, fun fuel hfuel => ?_, hswept, hend⟩
      cases fuel with
      | zero => omega
      | succ fuel =>
        simp only [closeAllLoop, hfind, heq, ok_bind]
        exact hloop fuel (by omega)

/-- `close_all_sockets` ends after finitely many rounds. Then no socket on the list uses the
transport or has a peer that does, those that did are gone or wait on the closing list without a
peer, and every other socket is as it was. -/
theorem closeAllSockets_complete (h : Graph w) (t : TransportId) :
    ∃ w', closeAllSockets t w = .ok w' ∧
      (∀ fuel, w.localSocketList.length ≤ fuel → closeAllLoop t fuel w = .ok w') ∧
      (∀ a ∈ w'.localSocketList, ¬ w'.Concerns t a) ∧
      (∀ b, w.Concerns t b → w'.socket b = none ∨
        b ∈ w'.localSocketClosingList ∧ ∃ x, w'.socket b = some x ∧ x.peer = none) ∧
      ∀ b, ¬ w.Concerns t b → w'.socket b = w.socket b ∧ w'.marks b = w.marks b := by
  obtain ⟨w', hloop, hswept, hend⟩ := closeAllLoop_ends (Swept.refl (t := t) h)
  refine ⟨w', hloop _ le_rfl, hloop, hend, fun b => hswept.closed hend, fun b hb => ?_⟩
  have heq := (hswept.socket b).resolve_right fun hn => hb hn.1
  exact ⟨heq, h.marks_of_socket_eq hswept.graph heq⟩

/-- A socket that is connected to the device of transport 7. -/
theorem closeAllSockets_remote :
    let w := init.born.attachRemote 0 init.freshLocal 5 7
    w.Concerns 7 0 ∧ ∃ w', closeAllSockets 7 w = .ok w' ∧
      (w'.socket 0 = none ∨ 0 ∈ w'.localSocketClosingList) := by
  intro w
  have hgraph : Graph w :=
    graph_init.born.attachRemote (s := init.freshLocal) rfl rfl rfl rfl (by decide) 7
  have hcon : w.Concerns 7 0 :=
    ⟨_, rfl, .inr ⟨1, remoteFor 0 5 7, rfl, rfl, rfl⟩⟩
  obtain ⟨w', heq, _, _, hclosed, _⟩ := closeAllSockets_complete hgraph 7
  exact ⟨hcon, w', heq, (hclosed 0 hcon).imp_right And.left⟩

/-- What reaches the server from the device or from a transport. -/
def Action.OfTransport (t : TransportId) (act : Action) : Prop :=
  (∃ x, act = .packet x t) ∨ act = .closeAllSockets t ∨ act = .transportDisconnects t ∨
    act = .updateTransports

theorem Succeeds.exists_ok {P : Server → Prop} {e : Except Fault Server} (h : Succeeds P e) :
    ∃ w', e = .ok w' := by
  cases e with
  | ok w' => exact ⟨w', rfl⟩
  | error f => exact h.elim

theorem Action.run_ofTransport (host authEnabled : Bool) (env : Env) (h : Graph w) {act : Action}
    (hact : act.OfTransport t) : ∃ w', act.run host authEnabled env w = .ok w' := by
  have hrule : SetupRule t (Setups ⟨True, True⟩ w) := setupRule_setups w t
  rcases hact with ⟨x, rfl⟩ | rfl | rfl | rfl
  · exact (handlePacket_rule host authEnabled env hrule ⟨h, .refl⟩ x).exists_ok
  · obtain ⟨w', hloop, _⟩ := closeAllLoop_ends (Swept.refl (t := t) h)
    exact ⟨w', hloop _ le_rfl⟩
  · exact (runTransportDisconnects_rule hrule.disconnect h .refl).exists_ok
  · exact (updateTransports_rule hrule.tracker h .refl).exists_ok

end PaxAdb.Sockets
