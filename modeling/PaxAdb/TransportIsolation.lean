import PaxAdb.MoveFrames
import PaxAdb.SocketInvariant

/-!
# Isolation of the transports

A packet from one transport should not touch the sockets that belong to another one. Packets find
their local socket by its number alone, so this fails exactly when the number given in an `A_OKAY`,
`A_CLSE` or `A_WRTE` is the one of a foreign socket and the checks made for that kind of packet
pass.
-/

namespace PaxAdb.Sockets

open ASocket Server Runs Function Option

variable {env : Env} {w w' : Server} {a b p : Addr} {s q : ASocket} {x : Packet} {t : TransportId}

/-- The local socket `s` does not belong to `t`: it is connected to a remote socket of another
transport, waits for its connection on another transport, or is connected to a local socket. -/
def Foreign (t : TransportId) (w : Server) (s : ASocket) : Prop :=
  s.IsLocal ∧
    ((∃ p q, s.peer = some p ∧ w.socket p = some q ∧ q.IsRemote ∧ q.transport ≠ some t) ∨
      (s.peer = none ∧ ∃ t', s.transport = some t' ∧ t' ≠ t) ∨
      (∃ p q, s.peer = some p ∧ w.socket p = some q ∧ q.IsLocal))

/-- The socket `s` at `a` is alive, with the same peer, queue and interest set, and nothing was
written to its descriptor. -/
def Untouched (a : Addr) (s : ASocket) (w w' : Server) : Prop :=
  ∃ s', w'.socket a = some s' ∧ s'.peer = s.peer ∧ s'.queue = s.queue ∧
    s'.fde.state = s.fde.state ∧ (w'.trace a).written = (w.trace a).written

def Isolated (t : TransportId) (w w' : Server) : Prop :=
  ∀ a s, w.socket a = some s → Foreign t w s → Untouched a s w w'

def ReachesForeign (x : Packet) (t : TransportId) (w : Server) : Prop :=
  w.online t = true ∧ x.arg1 ≠ 0 ∧
    match x.command with
    | .aOkay => x.arg0 ≠ 0 ∧ ∃ a s, w.findLocalSocket x.arg1 0 = .ok (some a) ∧
        w.socket a = some s ∧ Foreign t w s ∧
        (s.peer = none ∨ s.fde.state.read = false ∧
          ∃ p q, s.peer = some p ∧ w.socket p = some q ∧ q.id = x.arg0)
    | .aClse => ∃ a s, w.findLocalSocket x.arg1 x.arg0 = .ok (some a) ∧ w.socket a = some s ∧
        Foreign t w s ∧
        ∀ p q, s.peer = some p → w.socket p = some q → x.arg0 = 0 → q.transport = some t
    | .aWrte => x.arg0 ≠ 0 ∧ ∃ a s, w.findLocalSocket x.arg1 x.arg0 = .ok (some a) ∧
        w.socket a = some s ∧ Foreign t w s ∧ ¬ (x.data = [] ∧ s.queue = [])
    | _ => False

def Spares (t : TransportId) (w w' : Server) : Prop :=
  ∀ a s, w.socket a = some s → Foreign t w s → w'.socket a = some s ∧ w'.trace a = w.trace a ∧
    ∀ p, s.peer = some p → w'.socket p = w.socket p

namespace Spares

theorem isolated (h : Spares t w w') : Isolated t w w' := by
  intro a s ha hf
  obtain ⟨hs, htr, _⟩ := h a s ha hf
  exact ⟨s, hs, rfl, rfl, rfl, by rw [htr]⟩

theorem of_eq (hs : w'.socket = w.socket) (htr : w'.trace = w.trace) : Spares t w w' :=
  fun a s ha _ => ⟨by rw [hs, ha], by rw [htr], fun p _ => by rw [hs]⟩

theorem foreign (h : Spares t w w') (ha : w.socket a = some s) (hf : Foreign t w s) :
    Foreign t w' s := by
  obtain ⟨_, _, hpeer⟩ := h a s ha hf
  obtain ⟨hloc, hf⟩ := hf
  refine ⟨hloc, ?_⟩
  rcases hf with ⟨p, q, hp, hq, hrest⟩ | hpend | ⟨p, q, hp, hq, hrest⟩
  · exact Or.inl ⟨p, q, hp, (hpeer p hp).trans hq, hrest⟩
  · exact Or.inr (Or.inl hpend)
  · exact Or.inr (Or.inr ⟨p, q, hp, (hpeer p hp).trans hq, hrest⟩)

theorem trans {w'' : Server} (h : Spares t w w') (h' : Spares t w' w'') : Spares t w w'' := by
  intro a s ha hf
  obtain ⟨hs, htr, hpeer⟩ := h a s ha hf
  obtain ⟨hs', htr', hpeer'⟩ := h' a s hs (h.foreign ha hf)
  exact ⟨hs', htr'.trans htr, fun p hp => (hpeer' p hp).trans (hpeer p hp)⟩

end Spares

theorem spares_of_frame (h : Graph w) (ha : w.socket a = some s) (hnot : ¬ Foreign t w s)
    (hsock : ∀ b, b < w.nextAddr → b ≠ a → s.peer ≠ some b → w'.socket b = w.socket b)
    (htr : ∀ b, b ≠ a → s.peer ≠ some b → w'.trace b = w.trace b) (hloc : s.IsLocal) :
    Spares t w w' := by
  intro b y hb hf
  have hba : b ≠ a := by
    rintro rfl
    cases ha.symm.trans hb
    exact hnot hf
  -- a foreign peer of the socket would make the socket foreign
  have hpb : s.peer ≠ some b := fun hp => hnot ⟨hloc, Or.inr (Or.inr ⟨b, y, hp, hb, hf.1⟩)⟩
  refine ⟨(hsock b (h.lt_nextAddr hb) hba hpb).trans hb, htr b hba hpb, fun c hc => ?_⟩
  obtain ⟨_, z, hz, hlink⟩ := h.peer_spec hb hc
  refine hsock c (h.lt_nextAddr hz) ?_ ?_
  · rintro rfl
    cases ha.symm.trans hz
    exact hpb hlink.peer
  · intro hpc
    exact hba (some.inj (hlink.peer.symm.trans (h.linked ha hpc hz).peer))

section Setup

theorem not_foreign_of_peer (hp : s.peer = some p) (hq : w.socket p = some q) (hloc : ¬ q.IsLocal)
    (ht : q.IsRemote → q.transport = some t) : ¬ Foreign t w s := by
  rintro ⟨_, ⟨p', q', hp', hq', hr, hne⟩ | ⟨hn, _⟩ | ⟨p', q', hp', hq', hl⟩⟩
  · cases hp.symm.trans hp'
    cases hq.symm.trans hq'
    exact hne (ht hr)
  · exact absurd (hp.symm.trans hn) (by simp)
  · cases hp.symm.trans hp'
    cases hq.symm.trans hq'
    exact hloc hl

theorem setupRule_spares (w : Server) (t : TransportId) : SetupRule t (Spares t w) where
  transport h _ _ := h.trans (Spares.of_eq rfl rfl)
  send h _ _ := h.trans (Spares.of_eq rfl rfl)
  disconnect := by
    intro w' a p s q hg h hq hrem ht hp ha
    have hsp := (hg.linked hq hp ha).peer
    have hnot := not_foreign_of_peer hsp hq hrem.not_local fun _ => ht
    refine h.trans (spares_of_frame hg ha hnot (fun b _ hb hbp => ?_)
      (fun b _ _ => by rw [trace_closedWith]) (hg.isLocal_of_peer hq hp ha hrem.not_local))
    exact closedWith_socket_ne w' s q hb fun he => hbp (he ▸ hsp)
  tracker := by
    intro w' w'' a p s q bytes r hg h ha htr hq hloc hp henq
    have hnot : ¬ Foreign t w' q := not_foreign_of_peer hp ha
      (fun hl => absurd (htr.symm.trans hl) (by simp))
      fun hr => absurd (htr.symm.trans hr) (by simp)
    exact h.trans (spares_of_frame hg hq hnot
      (fun b _ hb hbp => henq.frame hq hb hbp) (fun b hb _ => henq.trace_frame hb) hloc)

end Setup

section Receive

theorem attempt_nil (w : Server) : w.attempt [] = .done := by
  unfold attempt
  cases w.writes <;> rfl

theorem written_nil (w : Server) : w.written [] = [] := by
  simp [written]

theorem spares_accept (h : Graph w) (s : ASocket) (id : ℕ) (y : Packet) (t' : TransportId) :
    Spares t w (((w.born.attachRemote w.nextAddr w.freshLocal id t).sendPacket y t').resumed
      w.nextAddr s) := by
  intro b z hb _
  have hold : ∀ c, c < w.nextAddr → (((w.born.attachRemote w.nextAddr w.freshLocal id t).sendPacket
      y t').resumed w.nextAddr s).socket c = w.socket c := by
    intro c hc
    rw [resumed_socket_ne _ _ hc.ne]
    change (w.born.attachRemote w.nextAddr w.freshLocal id t).socket c = _
    rw [attachRemote_socket_ne _ _ _ _ hc.ne (Nat.lt_succ_of_lt hc)]
    exact socket_store_ne _ _ hc.ne
  have hlt := h.lt_nextAddr hb
  refine ⟨(hold b hlt).trans hb, ?_, fun p hp => ?_⟩
  · rw [trace_resumed]
    exact (update_of_ne hlt.ne _ _).trans (update_of_ne hlt.ne _ _)
  · obtain ⟨_, q, hq, _⟩ := h.peer_spec hb hp
    exact hold p (h.lt_nextAddr hq)

theorem spares_connect (h : Graph w) (ha : w.socket a = some s) (hloc : s.IsLocal)
    (hnot : ¬ Foreign t w s) {id : ℕ} {y : ASocket}
    (hst : StatusOnly a ((w.attachRemote a s id t).resumed a y) w') : Spares t w w' := by
  refine spares_of_frame h ha hnot (fun b hlt hb _ => ?_) (fun b hb _ => ?_) hloc
  · rw [socket_statusOnly hst, resumed_socket_ne _ _ hb]
    exact attachRemote_socket_ne w s id t hb hlt
  · rw [trace_statusOnly_ne hst hb, trace_resumed]
    exact update_of_ne hb _ _

theorem resumed_of_read (ha : w.socket a = some s) (hread : s.fde.state.read = true) :
    w.resumed a s = w := by
  have hst : s.fde.state = s.fde.state.union .fdeRead := by
    cases hs : s.fde.state with
    | mk r wr =>
      rw [hs] at hread
      cases hread
      simp [Events.union, Events.fdeRead]
  rw [resumed, fdeventSet, if_pos hst]
  exact store_self ha

theorem Receive.isolated (hr : Receive x t w w') (h : Graph w) (hno : ¬ ReachesForeign x t w) :
    Isolated t w w' := by
  unfold ReachesForeign at hno
  cases hr with
  | ignored | refuse => exact (Spares.of_eq rfl rfl).isolated
  | accept => exact (spares_accept h _ _ _ _).isolated
  | @connect a s w' hx hon h0 h1 hf ha hp hst =>
    simp only [hx] at hno
    obtain ⟨s', hs'⟩ := found h hf
    cases ha.symm.trans hs'.socket
    refine (spares_connect h ha hs'.isLocal (fun hfor => hno ?_) hst).isolated
    exact ⟨hon, h1, h0, a, s, hf, ha, hfor, Or.inl hp⟩
  | @resume a p s q hx hon h0 h1 hf ha hp hq hid =>
    simp only [hx] at hno
    obtain ⟨s', hs'⟩ := found h hf
    cases ha.symm.trans hs'.socket
    by_cases hfor : Foreign t w s
    · have hread : s.fde.state.read = true := by
        by_contra hread
        refine hno ⟨hon, h1, h0, a, s, hf, ha, hfor, Or.inr ⟨?_, p, q, hp, hq, hid⟩⟩
        exact Bool.eq_false_iff.mpr hread
      rw [resumed_of_read ha hread]
      exact (Spares.of_eq rfl rfl).isolated
    · refine (spares_of_frame h ha hfor (fun b _ hb _ => resumed_socket_ne _ _ hb)
        (fun b _ _ => ?_) hs'.isLocal).isolated
      rw [trace_resumed]
  | @close a s w' hx hon h1 hf ha hguard hcl =>
    simp only [hx] at hno
    obtain ⟨s', hs'⟩ := found h hf
    cases ha.symm.trans hs'.socket
    have hnot : ¬ Foreign t w s := fun hfor => hno ⟨hon, h1, a, s, hf, ha, hfor, hguard⟩
    exact (spares_of_frame h ha hnot (fun b _ hb hp => hcl.frame ha hb hp)
      (fun b hb _ => hcl.trace_frame hb) hs'.isLocal).isolated
  | @write a s w' r hx hon h0 h1 hf ha henq hne =>
    simp only [hx] at hno
    obtain ⟨s', hs'⟩ := found h hf
    cases ha.symm.trans hs'.socket
    have ha' : (w.accept a).socket a = some s := ha
    by_cases hfor : Foreign t w s
    · -- an empty packet for a socket with an empty queue is written at once
      have hnil : x.data = [] ∧ s.queue = [] := by
        by_contra hnil
        exact hno ⟨hon, h1, h0, a, s, hf, ha, hfor, hnil⟩
      rw [hnil.1] at henq
      have hdone := attempt_nil (w.accept a)
      cases henq with
      | queued hq => exact absurd hnil.2 hq
      | done => exact absurd rfl hne
      | blocked _ hb | failed _ hb => exact absurd (hdone.symm.trans hb) (by simp)
    · refine (spares_of_frame h ha hfor (fun b _ hb hp => henq.frame ha' hb hp)
        (fun b hb _ => ?_) hs'.isLocal).isolated
      exact (henq.trace_frame hb).trans (update_of_ne hb _ _)
  | @writeAll a s hx hon h0 h1 hf ha hqueue hall =>
    simp only [hx] at hno
    obtain ⟨s', hs'⟩ := found h hf
    cases ha.symm.trans hs'.socket
    have htr : ∀ b, b ≠ a → ((((w.accept a).attempted a x.data).acknowledge a).sendPacket
        ⟨.aOkay, s.id, x.arg0, []⟩ t).trace b = w.trace b := fun b hb =>
      (update_of_ne hb _ _).trans
        ((update_of_ne hb _ _).trans (update_of_ne hb _ _))
    by_cases hfor : Foreign t w s
    · have hnil : x.data = [] := by
        by_contra hnil
        exact hno ⟨hon, h1, h0, a, s, hf, ha, hfor, fun hc => hnil hc.1⟩
      intro b z hb _
      refine ⟨z, hb, rfl, rfl, rfl, ?_⟩
      by_cases hba : b = a
      · subst hba
        rw [hnil]
        simp [sendPacket, acknowledge, attempted, wroteData, wrote, setTrace, Server.accept,
          Trace.written, written_nil]
      · rw [htr b hba]
    · refine Spares.isolated ?_
      exact spares_of_frame h ha hfor (fun b _ _ _ => rfl) (fun b hb _ => htr b hb) hs'.isLocal

theorem Closes.not_untouched (hcl : Closes a w w') (h : Graph w) (ha : w.socket a = some s)
    (hloc : s.IsLocal) (hc : s.closing = false) {w₀ : Server} : ¬ Untouched a s w₀ w' := by
  rintro ⟨s', hs', hpeer, _⟩
  obtain ⟨y, hy, hrem⟩ := hcl.left h ha (Or.inl rfl) hs'
  cases ha.symm.trans hy
  exact (h.localSane ha hloc).backlog hc hrem.nonempty (hpeer.symm.trans hrem.peer)

theorem Enqueued.not_untouched {bytes : List Byte} {r : ℤ} (he : Enqueued a s bytes w w' r)
    (hr : r ≠ 0) (h : Graph w) (ha : w.socket a = some s) (hloc : s.IsLocal)
    (hc : s.closing = false) {w₀ : Server} : ¬ Untouched a s w₀ w' := by
  have hqueued : ∀ (w₁ : Server) (l : List Byte), ¬ Untouched a s w₀ (w₁.queued a s l) := by
    rintro w₁ l ⟨s', hs', _, hqueue, _⟩
    rw [Server.queued, fdeventSet_socket] at hs'
    cases hs'
    simp at hqueue
  cases he with
  | queued | blocked => exact hqueued _ _
  | done => exact absurd rfl hr
  | failed _ _ hcl =>
    exact hcl.not_untouched (h.writeFailed a bytes) ha hloc hc

theorem resumed_not_untouched (hread : s.fde.state.read = false) {w₀ : Server} :
    ¬ Untouched a s w₀ (w.resumed a s) := by
  rintro ⟨s', hs', _, _, hstate, _⟩
  rw [resumed, fdeventSet_socket] at hs'
  cases hs'
  have hne : s.fde.state ≠ s.fde.state.union .fdeRead := by
    intro heq
    have := congrArg Events.read heq
    simp [Events.union, Events.fdeRead, hread] at this
  simp only [fdeAfter, hne, if_false] at hstate
  exact hne hstate.symm

theorem Ignored.not_reachesForeign (hig : Ignored x t w) : ¬ ReachesForeign x t w := by
  rintro ⟨hon, h1, hre⟩
  unfold Ignored at hig
  split at hig
  next hx => simp only [hx] at hre
  next hx =>
    simp only [hx] at hre
    obtain ⟨h0, a, s, hf, ha, _, hrest⟩ := hre
    rcases hig with hig | hig | ⟨a', s', p, q, hf', ha', hp, hq, hne⟩
    · exact hig ⟨hon, h0, h1⟩
    · cases hf.symm.trans hig
    · cases hf.symm.trans hf'
      cases ha.symm.trans ha'
      obtain ⟨_, p', q', hp', hq', hid⟩ := hrest.resolve_left (by simp [hp])
      cases hp.symm.trans hp'
      cases hq.symm.trans hq'
      exact hne hid
  next hx =>
    simp only [hx] at hre
    obtain ⟨a, s, hf, ha, _, hguard⟩ := hre
    rcases hig with hig | hig | ⟨a', s', p, q, hf', ha', hp, hq, h0, hne⟩
    · exact hig ⟨hon, h1⟩
    · cases hf.symm.trans hig
    · cases hf.symm.trans hf'
      cases ha.symm.trans ha'
      exact hne (hguard p q hp hq h0)
  next hx =>
    simp only [hx] at hre
    obtain ⟨h0, a, s, hf, _⟩ := hre
    rcases hig with hig | hig
    · exact hig ⟨hon, h0, h1⟩
    · cases hf.symm.trans hig
  · exact hig

theorem Receive.not_isolated (hr : Receive x t w w') (h : Graph w) (hre : ReachesForeign x t w) :
    ¬ Isolated t w w' := by
  intro hiso
  cases hr with
  | ignored hig => exact hig.not_reachesForeign hre
  | accept hx | refuse hx => simp only [ReachesForeign, hx, and_false] at hre
  | @connect a s w' hx _ h0 _ hf ha hp hst =>
    simp only [ReachesForeign, hx] at hre
    obtain ⟨_, _, _, a', s', hf', ha', hfor, _⟩ := hre
    cases hf.symm.trans hf'
    cases ha.symm.trans ha'
    obtain ⟨y, hy, hpeer, _⟩ := hiso a s ha hfor
    rw [socket_statusOnly hst, resumed, fdeventSet_socket] at hy
    cases hy
    exact absurd (hpeer.trans hp) (by simp)
  | @resume a p s q hx _ _ _ hf ha hp =>
    simp only [ReachesForeign, hx] at hre
    obtain ⟨_, _, _, a', s', hf', ha', hfor, hrest⟩ := hre
    cases hf.symm.trans hf'
    cases ha.symm.trans ha'
    have hread := hrest.resolve_left (by simp [hp])
    exact resumed_not_untouched hread.1 (hiso a s ha hfor)
  | @close a s w' hx _ _ hf ha _ hcl =>
    simp only [ReachesForeign, hx] at hre
    obtain ⟨_, _, a', s', hf', ha', hfor, _⟩ := hre
    cases hf.symm.trans hf'
    cases ha.symm.trans ha'
    obtain ⟨y, hy⟩ := found h hf
    cases ha.symm.trans hy.socket
    exact hcl.not_untouched h ha hfor.1 hy.closing (hiso a s ha hfor)
  | @write a s w' r hx _ _ _ hf ha henq hne =>
    simp only [ReachesForeign, hx] at hre
    obtain ⟨_, _, _, a', s', hf', ha', hfor, _⟩ := hre
    cases hf.symm.trans hf'
    cases ha.symm.trans ha'
    obtain ⟨y, hy⟩ := found h hf
    cases ha.symm.trans hy.socket
    exact henq.not_untouched hne (h.setTrace a _) ha hfor.1 hy.closing (hiso a s ha hfor)
  | @writeAll a s hx _ _ _ hf ha hqueue hall =>
    simp only [ReachesForeign, hx] at hre
    obtain ⟨_, _, _, a', s', hf', ha', hfor, hdata⟩ := hre
    cases hf.symm.trans hf'
    cases ha.symm.trans ha'
    obtain ⟨y, hy, _, _, _, hwritten⟩ := hiso a s ha hfor
    have hall' : (w.accept a).written x.data = x.data := written_of_done hall
    have hout : ((w.accept a).trace a).output = (w.trace a).output := by
      simp [Server.accept, setTrace]
    have hnil : x.data = [] := by
      simpa [sendPacket, acknowledge, attempted, wroteData, wrote, setTrace, Trace.written, hout,
        hall'] using hwritten
    exact hdata ⟨hnil, hqueue⟩

end Receive

theorem ReachesForeign.ofConnection (h : ReachesForeign x t w) :
    x.command.ofConnection = true := by
  obtain ⟨_, _, h⟩ := h
  cases hx : x.command <;> simp only [hx] at h <;> rfl

/-- A packet leaves all foreign sockets as they are exactly when it does not reach one. -/
theorem packet_isolated_iff (host authEnabled : Bool) {w : Server}
    (hrun : Run (step host authEnabled) (fun _ _ => True) init w) (x : Packet)
    (t : TransportId) (reads : List ReadResult) (writes : List WriteResult) (env : Env) :
    ∃ w', step host authEnabled w ⟨.packet x t, reads, writes, env⟩ = some w' ∧
      (Isolated t w w' ↔ ¬ ReachesForeign x t w) := by
  let i : Input := ⟨.packet x t, reads, writes, env⟩
  have h := i.graph_before (Graph.run hrun)
  have hspec := handlePacket_rule host authEnabled env (setupRule_spares (i.before w) t)
    ⟨h, Spares.of_eq rfl rfl⟩ x
  cases hw : handlePacket host authEnabled env x t (i.before w) with
  | error f =>
    rw [hw] at hspec
    exact hspec.elim
  | ok w₁ =>
    rw [hw] at hspec
    refine ⟨{ w₁ with reads := [], writes := [] }, ?_, ?_⟩
    · exact step_of_run rfl hw
    · change Isolated t (i.before w) w₁ ↔ ¬ ReachesForeign x t (i.before w)
      rcases hspec with hr | ⟨hx, hsp⟩
      · exact ⟨fun hiso hre => hr.not_isolated h hre hiso, hr.isolated h⟩
      · refine ⟨fun _ hre => ?_, fun _ => Spares.isolated hsp⟩
        exact absurd (hx.symm.trans hre.ofConnection) (by simp)

/-- Two devices are online, and a client waits for its connection on the first one. -/
def waitingRun : List Input :=
  [input (.packet ⟨.aCnxn, 0x01000000, 4096, text "device::"⟩ 0) [] [],
    input (.packet ⟨.aCnxn, 0x01000000, 4096, text "device::"⟩ 1) [] [],
    input (.acceptForward 0 (text "tcp:7")) [] []]

def answer (t : TransportId) : Input := input (.packet ⟨.aOkay, 7, 1, []⟩ t) [] []

/-- The second device takes over the connection that was asked for on the first one. -/
theorem packet_takes_connection : ∃ w w', Run (step true false) (fun _ _ => True) init w ∧
    step true false w (answer 1) = some w' ∧ ¬ Isolated 1 w w' := by
  have hexec : (exec (step true false) init waitingRun).bind (fun w =>
      (step true false w (answer 1)).map fun w' =>
        ((w.socket 0).map fun s => (s.enqueue, s.peer, s.transport),
          (w'.socket 0).map fun s => s.peer)) =
      some (some (.localSocketEnqueue, none, some 0), some (some 1)) := by decide +kernel
  obtain ⟨w, hw, hstep⟩ := bind_eq_some_iff.mp hexec
  obtain ⟨w', hw', heq⟩ := map_eq_some_iff.mp hstep
  simp only [Prod.mk.injEq] at heq
  obtain ⟨s, hs, hfields⟩ := map_eq_some_iff.mp heq.1
  obtain ⟨s', hs', hpeer'⟩ := map_eq_some_iff.mp heq.2
  simp only [Prod.mk.injEq] at hfields
  obtain ⟨hloc, hpeer, ht⟩ := hfields
  refine ⟨w, w', run_of_exec (fun _ _ _ => trivial) hw, hw', fun hiso => ?_⟩
  obtain ⟨y, hy, hyp, _⟩ := hiso 0 s hs ⟨hloc, Or.inr (Or.inl ⟨hpeer, 0, ht, by simp⟩)⟩
  cases hs'.symm.trans hy
  rw [hpeer, hpeer'] at hyp
  cases hyp

/-- The answer of the first device touches no socket of another one. -/
theorem packet_isolated_answer : ∃ w w', Run (step true false) (fun _ _ => True) init w ∧
    step true false w (answer 0) = some w' ∧ Isolated 0 w w' := by
  have hexec : (exec (step true false) init waitingRun).map (fun w =>
      ((w.socket 0).map fun s => (s.peer, s.transport), w.localSocketList)) =
      some (some (none, some 0), [0]) := by decide +kernel
  obtain ⟨w, hw, heq⟩ := map_eq_some_iff.mp hexec
  have hrun : Run (step true false) (fun _ _ => True) init w :=
    run_of_exec (fun _ _ _ => trivial) hw
  simp only [Prod.mk.injEq] at heq
  obtain ⟨s, hs, hfields⟩ := map_eq_some_iff.mp heq.1
  simp only [Prod.mk.injEq] at hfields
  obtain ⟨w', hw', hiff⟩ := packet_isolated_iff true false hrun ⟨.aOkay, 7, 1, []⟩ 0 [] [] plainEnv
  refine ⟨w, w', hrun, hw', hiff.mpr ?_⟩
  rintro ⟨_, _, _, a, s', hf, ha, ⟨hloc, hfor⟩, _⟩
  obtain ⟨y, hy⟩ := found (Graph.run hrun) hf
  have hmem := ((Graph.run hrun).at_ hy.socket).fit.listed.mpr ⟨hy.isLocal, hy.closing⟩
  have ha0 : a = 0 := by
    change a ∈ w.localSocketList at hmem
    simpa [heq.2] using hmem
  subst ha0
  cases hs.symm.trans ha
  rcases hfor with ⟨p, q, hp, _⟩ | ⟨_, t', ht', hne⟩ | ⟨p, q, hp, _⟩
  · exact absurd (hp.symm.trans hfields.1) (by simp)
  · exact hne (some.inj (ht'.symm.trans hfields.2))
  · exact absurd (hp.symm.trans hfields.1) (by simp)

end PaxAdb.Sockets
