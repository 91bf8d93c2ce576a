import PaxAdb.Endpoints

/-!
# Streams between two endpoints

What holds in every run of a host and a device: when no packet is on its way they agree on the
streams that are open; what is written at one end of a stream is the beginning of what was read at
the other; and each direction of a stream has at most one packet of data that is not acknowledged.
-/

namespace PaxAdb.Sockets

open ASocket Server Duplex Runs Option List

variable {link : TransportId} {w : Pair} {b : Bool}

variable {u : Server}

variable {l r : ℕ}

section Agreement

def Server.ConnectedTo (link : TransportId) (w : Server) (l r : ℕ) : Prop :=
  ∃ a s p q, w.socket a = some s ∧ s.IsLocal ∧ s.id = l ∧ s.peer = some p ∧
    w.socket p = some q ∧ q.IsRemote ∧ q.id = r ∧ q.transport = some link

theorem connectedTo_iff (h : Graph u) (ht : u.Tied link) (out : List (Frame ℕ Byte))
    (l r : ℕ) : u.ConnectedTo link l r ↔ (u.node link out).Connected l r := by
  constructor
  · rintro ⟨a, s, p, q, ha, hloc, rfl, hp, hq, hrem, rfl, _⟩
    have hc : s.closing = false := (h.localSane ha hloc).closing_of_peer (by simp [hp])
    have hremote := ((ht.at_ a s ha hloc).remote p q hp hq hrem).1
    have ho := owner_id ht ha hloc hc
    refine ⟨(partnerOf_owner ho).trans hremote, ?_⟩
    change (u.endOf link s.id).phase = .connected
    rw [endOf_owner ho, endAt_connected hremote ha hc]
    rfl
  · rintro ⟨hpartner, hphase⟩
    change u.partnerOf l = some r at hpartner
    change (u.endOf link l).phase = .connected at hphase
    obtain ⟨a, ho, hremote⟩ := bind_eq_some_iff.mp hpartner
    have howns := ht.owns l a ho
    rw [endOf_owner ho] at hphase
    cases ha : u.socket a with
    | none =>
      rw [endAt_closed hremote ha] at hphase
      cases hphase
    | some s =>
      have hc : s.closing = false := by
        by_contra hc
        rw [endAt_closing hremote ha (by simpa using hc)] at hphase
        cases hphase
      have hloc := howns.isLocal s ha
      have hat := ht.at_ a s ha hloc
      cases hp : s.peer with
      | none =>
        exact absurd ((hat.virgin hc (Or.inl hp)).remoteId.symm.trans hremote) (by simp)
      | some p =>
        obtain ⟨_, q, hq, _⟩ := h.peer_spec ha hp
        by_cases hrem : q.IsRemote
        · obtain ⟨hid, htr⟩ := hat.remote p q hp hq hrem
          exact ⟨a, s, p, q, ha, hloc, (hat.id hc).trans howns.bornId, hp, hq, hrem,
            some.inj (hid.symm.trans hremote), htr⟩
        · exact absurd ((hat.aside p q hp hq hrem).symm.trans hremote) (by simp)

/-- The next callback reads the end of the file from a socket that waits for its connection, or
that asks for one in the callback. -/
def Server.DropsRequest (u : Server) : Prop :=
  ∃ a rest s, u.listPending = a :: rest ∧ u.socket a = some s ∧ s.fde.events.read = true ∧
    s.fde.events.write = false ∧ (u.readResult s).2.1 = true ∧ s.closing = false ∧
    (s.peer = none ∨ u.makesRequest s (u.readResult s).1)

def KeepsRequests (w : Pair) : Event → Prop
  | .act b i => i.action = .dispatch → ¬ (i.before (w b)).DropsRequest
  | .deliver .. => True

theorem KeepsRequests.allowed {e : Event} (h : KeepsRequests w e) : e.Allowed False w := by
  cases e with
  | act b i =>
    intro hact a rest s hl ha hr hw
    exact ⟨fun _ _ => trivial,
      fun heof hc hor => h hact ⟨a, rest, s, hl, ha, hr, hw, heof, hc, hor⟩⟩
  | deliver => trivial

/-- When no packet is on its way, the host and the device agree on the streams that are open,
unless a callback has dropped a request or an id has been given twice. -/
theorem streams_agree (authEnabled : Bool) (link : TransportId) {w : Pair}
    (hrun : Run (Pair.step authEnabled link) KeepsRequests (Pair.init link) w)
    (hids : ∀ b, (w b).created < 2 ^ 32) (hflight : ∀ b, (w b).outbox link = []) (l r : ℕ) :
    (w true).ConnectedTo link l r ↔ (w false).ConnectedTo link r l := by
  obtain ⟨hg, hsound⟩ := Pair.run_sound (hrun.mono fun _ _ => KeepsRequests.allowed)
  obtain ⟨htied, _, out, hframed, role, htable⟩ := hsound hids
  have hnil : ∀ b, out b = [] := fun b => by
    have hb := hframed b
    rw [Server.Framed, hflight b, map_nil] at hb
    exact map_eq_nil_iff.mp hb.symm
  rw [connectedTo_iff (hg true) (htied true) (out true) l r,
    connectedTo_iff (hg false) (htied false) (out false) r l]
  exact htable.agree (b := true) (c := false) (by simp) (hnil true) (hnil false) l r

def Server.connectedAt (link : TransportId) (u : Server) (a : Addr) (l r : ℕ) : Bool :=
  (u.socket a).any fun s => s.enqueue = .localSocketEnqueue ∧ s.id = l ∧
    (s.peer.bind u.socket).any fun q =>
      q.enqueue = .remoteSocketEnqueue ∧ q.id = r ∧ q.transport = some link

theorem connectedTo_of_connectedAt {a : Addr}
    (h : u.connectedAt link a l r = true) : u.ConnectedTo link l r := by
  obtain ⟨s, ha, hs⟩ := (any_eq_true _ _).mp h
  obtain ⟨hloc, hid, hpeer⟩ := of_decide_eq_true hs
  obtain ⟨q, hbind, hq⟩ := (any_eq_true _ _).mp hpeer
  obtain ⟨p, hp, hsock⟩ := bind_eq_some_iff.mp hbind
  obtain ⟨hrem, hqid, hqt⟩ := of_decide_eq_true hq
  exact ⟨a, s, p, q, ha, hloc, hid, hp, hsock, hrem, hqid, hqt⟩

theorem not_connectedTo (h : Graph u) (hl : u.localSocketList = []) (l r : ℕ) :
    ¬ u.ConnectedTo link l r := by
  rintro ⟨a, s, p, q, ha, hloc, _, hp, _⟩
  have hc : s.closing = false := (h.localSane ha hloc).closing_of_peer (by simp [hp])
  have hmem : a ∈ u.localSocketList := (h.at_ ha).fit.listed.mpr ⟨hloc, hc⟩
  rw [hl] at hmem
  cases hmem

def forwardRun : List Event :=
  [.act true (input (.acceptForward 0 (text "tcp:7")) [] []), .deliver false [] [] plainEnv,
    .deliver true [] [] plainEnv]

/-- Both ends know the stream. -/
theorem streams_agree_forward : ∃ w, Run (Pair.step false 0) KeepsRequests (Pair.init 0) w ∧
    (∀ b, (w b).created < 2 ^ 32) ∧ (∀ b, (w b).outbox 0 = []) ∧ (w true).ConnectedTo 0 1 1 ∧
    ((w true).ConnectedTo 0 1 1 ↔ (w false).ConnectedTo 0 1 1) := by
  have hexec : (exec (Pair.step false 0) (Pair.init 0) forwardRun).map (fun w =>
      decide ((∀ b, (w b).created < 2 ^ 32) ∧ (∀ b, (w b).outbox 0 = []) ∧
        (w true).connectedAt 0 0 1 1 = true)) = some true := by decide +kernel
  obtain ⟨w, hw, heq⟩ := map_eq_some_iff.mp hexec
  obtain ⟨hids, hflight, hcon⟩ := of_decide_eq_true heq
  have hrun : Run (Pair.step false 0) KeepsRequests (Pair.init 0) w := by
    refine run_of_exec (fun e he v => ?_) hw
    simp only [forwardRun, mem_cons, not_mem_nil, or_false] at he
    rcases he with rfl | rfl | rfl
    · exact nofun
    · trivial
    · trivial
  exact ⟨w, hrun, hids, hflight, connectedTo_of_connectedAt hcon,
    streams_agree false 0 hrun hids hflight 1 1⟩

def clientRun (request : List ReadResult) : List Event :=
  [.act true (input .acceptSmart [] []), .act true (input (.poll [(0, .fdeRead)]) [] []),
    .act true (input .dispatch [.data (text "0012host:transport-any")] [.count 3]),
    .act true (input (.poll [(0, .fdeRead)]) [] []),
    .act true (input .dispatch request []),
    .deliver false [] [] plainEnv,
    .deliver true [] [.count 3] plainEnv]

/-- The client asks for a service and is gone: the socket of the device stays connected to an id
that the host does not know any more. -/
theorem streams_disagree : ∃ w, Run (Pair.step false 0) (fun _ _ => True) (Pair.init 0) w ∧
    (∀ b, (w b).created < 2 ^ 32) ∧ (∀ b, (w b).outbox 0 = []) ∧ (w false).ConnectedTo 0 1 1 ∧
    ¬ (w true).ConnectedTo 0 1 1 := by
  have hexec : (exec (Pair.step false 0) (Pair.init 0)
      (clientRun [.data (text "0005tcp:7"), .data []])).map (fun w =>
        decide ((∀ b, (w b).created < 2 ^ 32) ∧ (∀ b, (w b).outbox 0 = []) ∧
          (w false).connectedAt 0 0 1 1 = true ∧ (w true).localSocketList = [])) =
      some true := by decide +kernel
  obtain ⟨w, hw, heq⟩ := map_eq_some_iff.mp hexec
  obtain ⟨hids, hflight, hcon, hnone⟩ := of_decide_eq_true heq
  have hrun : Run (Pair.step false 0) (fun _ _ => True) (Pair.init 0) w :=
    run_of_exec (fun _ _ _ => trivial) hw
  have hg := (Pair.run_sound (hrun.mono fun w e _ => e.allowed w)).1 true
  exact ⟨w, hrun, hids, hflight, connectedTo_of_connectedAt hcon, not_connectedTo hg hnone 1 1⟩

end Agreement

section Ends

theorem endAt_put {a : Addr} (hr : (u.trace a).remoteId = some r) :
    (u.endAt link a).put = (u.trace a).put ∧ (u.endAt link a).got = (u.trace a).got := by
  rw [endAt, hr]
  cases u.socket a <;> exact ⟨rfl, rfl⟩

theorem endAt_used {a : Addr} (hr : (u.trace a).remoteId = some r) :
    (u.endAt link a).phase ≠ .idle := by
  rw [endAt, hr]
  cases u.socket a with
  | none => simp [Trace.endIn]
  | some s => cases hc : s.closing <;> simp [Trace.endIn, hc]

/-- The socket that was given the id of the other end of the stream. -/
theorem Pair.Sound.other {drop : Prop} (h : w.Sound drop link) {a : Addr}
    (ha : (w b).owner l = some a) (hr : ((w b).trace a).remoteId = some r) :
    ∃ a', (w !b).owner r = some a' ∧ ((w !b).endAt link a').phase ≠ .idle ∧
      (((w !b).trace a').remoteId = some l ∨ ((w !b).trace a').remoteId = none) := by
  obtain ⟨out, _, role, htable⟩ := h.table
  have hp : (w b).partnerOf l = some r := (partnerOf_owner ha).trans hr
  rcases htable.partner_back (c := !b) (by simp) hp with hback | ⟨hback, hphase⟩
  · obtain ⟨a', ho, hremote⟩ := bind_eq_some_iff.mp hback
    exact ⟨a', ho, endAt_used hremote, Or.inl hremote⟩
  · obtain ⟨a', ho⟩ := owner_of_phase hphase
    refine ⟨a', ho, fun hidle => ?_, Or.inr ((partnerOf_owner ho).symm.trans hback)⟩
    change ((w !b).endOf link r).phase = _ ∨ ((w !b).endOf link r).phase = _ at hphase
    rw [endOf_owner ho, hidle] at hphase
    rcases hphase with hphase | hphase <;> cases hphase

def Server.inFlight (link : TransportId) (u : Server) (command : Command) (l r : ℕ) : ℕ :=
  (u.outbox link).countP fun x => x.command = command ∧ x.arg0 = l ∧ x.arg1 = r

def Server.backlog (u : Server) (a : Addr) : ℕ :=
  match u.socket a with
  | some s => if s.closing then 0 else s.queue.length
  | none => 0

def Server.reading (u : Server) (a : Addr) : Bool :=
  (u.socket a).any fun s => !s.closing && s.fde.state.read

/-- Packets on their way are the messages between the two ends. -/
theorem inFlight_eq {out : List (Frame ℕ Byte)} (h : u.Framed link out)
    {command : Command} (q : Msg Byte → Bool)
    (hq : ∀ x f, frameOf x = some f → (x.command = command ∧ x.arg0 = l ∧ x.arg1 = r ↔
      ∃ m, f.between l r = some m ∧ q m = true)) :
    u.inFlight link command l r = ((u.node link out).between l r).countP q := by
  let g : Option (Frame ℕ Byte) → Bool := fun o => ((o.bind (Frame.between l r)).map q).getD false
  calc u.inFlight link command l r
      = (u.outbox link).countP (g ∘ frameOf) := by
        refine countP_congr fun x hx => ?_
        have hmem : frameOf x ∈ out.map some := h ▸ mem_map_of_mem hx
        obtain ⟨f, _, hf⟩ := mem_map.mp hmem
        rw [decide_eq_true_iff, hq x f hf.symm]
        cases hb : f.between l r <;> simp [g, ← hf, hb]
    _ = ((u.outbox link).map frameOf).countP g := countP_map.symm
    _ = (out.map some).countP g := by rw [h]
    _ = out.countP (g ∘ some) := countP_map
    _ = ((u.node link out).between l r).countP q := countP_filterMap.symm

theorem inFlight_data_eq {out : List (Frame ℕ Byte)} (h : u.Framed link out) (l r : ℕ) :
    u.inFlight link .aWrte l r = ((u.node link out).between l r).countP Msg.isData ∧
      u.inFlight link .aOkay l r = ((u.node link out).between l r).countP Msg.isOkay := by
  constructor
  all_goals
    refine inFlight_eq h _ fun x f hf => ?_
    unfold frameOf at hf
    split at hf
    case h_5 => cases hf
    all_goals
      split_ifs at hf
      all_goals
        cases hf
        simp_all [Frame.between, Msg.isData, Msg.isOkay]

theorem credit_endAt {a : Addr} (hr : (u.trace a).remoteId = some r) :
    (u.endAt link a).credit = (u.reading a).toNat := by
  rw [endAt, hr, reading]
  cases u.socket a with
  | none => rfl
  | some s => cases hc : s.closing <;> simp [Trace.endIn, End.credit, hc]

theorem debt_endAt {a : Addr} (h : Graph u)
    (hloc : ∀ s, u.socket a = some s → s.IsLocal) (hused : (u.endAt link a).phase ≠ .idle) :
    (u.endAt link a).debt = u.backlog a := by
  rw [backlog]
  cases hr : (u.trace a).remoteId with
  | some r =>
    rw [endAt, hr]
    cases u.socket a with
    | none => rfl
    | some s => cases hc : s.closing <;> simp [Trace.endIn, End.debt, hc]
  | none =>
    rw [endAt_blank hr] at hused ⊢
    cases ha : u.socket a with
    | none => rfl
    | some s =>
      rw [ha] at hused
      cases hc : s.closing with
      | true =>
        rw [phaseAlone_closing hc]
        simp [End.blank, End.debt, hc]
      | false =>
        by_cases hp : s.peer = none ∧ s.transport = some link
        · rw [phaseAlone_pending hc hp.1 hp.2]
          simp [End.blank, End.debt, hc, h.queue_of_peer_none ha (hloc s ha) hp.1 hc]
        · exact absurd (phaseAlone_idle hc (not_and_or.mp hp)) hused

/-- The other end of a stream, and the data in both directions. -/
theorem Pair.Sound.flow {drop : Prop} (h : w.Sound drop link) {a : Addr}
    (ha : (w b).owner l = some a) (hr : ((w b).trace a).remoteId = some r) :
    ∃ a' fwd bwd, (w !b).owner r = some a' ∧ ((w !b).endAt link a').phase ≠ .idle ∧
      (((w !b).trace a').remoteId = some l ∨ ((w !b).trace a').remoteId = none) ∧
      Flow ((w b).endAt link a) ((w !b).endAt link a') fwd bwd ∧
      Flow ((w !b).endAt link a') ((w b).endAt link a) bwd fwd ∧
      (w b).inFlight link .aWrte l r = fwd.countP Msg.isData ∧
      (w !b).inFlight link .aOkay r l = bwd.countP Msg.isOkay := by
  obtain ⟨a', ho, hused, hback⟩ := h.other ha hr
  obtain ⟨out, hframed, role, htable⟩ := h.table
  have hp : (w b).partnerOf l = some r := (partnerOf_owner ha).trans hr
  obtain ⟨hto, hfrom⟩ := htable.flow (c := !b) (by simp) hp
  have hends : ((w b).node link (out b)).ends l = (w b).endAt link a := endOf_owner ha
  have hends' : ((w !b).node link (out !b)).ends r = (w !b).endAt link a' := endOf_owner ho
  rw [hends, hends'] at hto hfrom
  exact ⟨a', _, _, ho, hused, hback, hto, hfrom, (inFlight_data_eq (hframed b) l r).1,
    (inFlight_data_eq (hframed !b) r l).2⟩

end Ends

section Integrity

/-- The data written at each end of a stream is the beginning of what was read at the other end,
whether the stream is still open or not. Before the other end knows of the stream, nothing has been
written. -/
theorem stream_data_in_order (authEnabled : Bool) (link : TransportId) {w : Pair}
    (hrun : Run (Pair.step authEnabled link) (fun _ _ => True) (Pair.init link) w)
    (hids : ∀ b, (w b).created < 2 ^ 32) {b : Bool} {l r : ℕ} {a : Addr}
    (ha : (w b).owner l = some a) (hr : ((w b).trace a).remoteId = some r) :
    ∃ a', (w !b).owner r = some a' ∧
      (((w !b).trace a').remoteId = some l ∧
        ((w b).trace a).put <+: ((w !b).trace a').got ∧
        ((w !b).trace a').put <+: ((w b).trace a).got ∨
      ((w !b).trace a').remoteId = none ∧ ((w b).trace a).put = []) := by
  have hsound := (Pair.run_sound (hrun.mono fun w e _ => e.allowed w)).2 hids
  obtain ⟨a', fwd, bwd, ho, _, hback, hto, hfrom, _⟩ := hsound.flow ha hr
  have horder : ((w b).trace a).put <+: ((w !b).endAt link a').got := by
    have horder := hfrom.order
    rw [End.taken, (endAt_put hr).1] at horder
    exact (prefix_append _ _).trans horder
  refine ⟨a', ho, ?_⟩
  rcases hback with hback | hback
  · refine Or.inl ⟨hback, (endAt_put hback).2 ▸ horder, ?_⟩
    have horder' := hto.order
    rw [End.taken, (endAt_put hr).2, (endAt_put hback).1] at horder'
    exact (prefix_append _ _).trans horder'
  · rw [endAt_blank hback] at horder
    exact Or.inr ⟨hback, prefix_nil.mp horder⟩

def dataRun : List Event :=
  forwardRun ++
    [.act true (input (.poll [(0, .fdeRead)]) [] []),
      .act true (input .dispatch [.data (text "abc")] []),
      .deliver false [] [.count 1, .eagain] plainEnv]

/-- The first two bytes have been written. -/
theorem stream_data_partial : ∃ w, Run (Pair.step false 0) (fun _ _ => True) (Pair.init 0) w ∧
    (∀ b, (w b).created < 2 ^ 32) ∧ (w true).owner 1 = some 0 ∧
    ((w true).trace 0).remoteId = some 1 ∧ ((w false).trace 0).put = text "ab" ∧
    ∃ a', (w false).owner 1 = some a' ∧
      (((w false).trace a').remoteId = some 1 ∧
        ((w true).trace 0).put <+: ((w false).trace a').got ∧
        ((w false).trace a').put <+: ((w true).trace 0).got ∨
      ((w false).trace a').remoteId = none ∧ ((w true).trace 0).put = []) := by
  have hexec : (exec (Pair.step false 0) (Pair.init 0) dataRun).map (fun w =>
      decide ((∀ b, (w b).created < 2 ^ 32) ∧ (w true).owner 1 = some 0 ∧
        ((w true).trace 0).remoteId = some 1 ∧ ((w false).trace 0).put = text "ab")) =
      some true := by decide +kernel
  obtain ⟨w, hw, heq⟩ := map_eq_some_iff.mp hexec
  obtain ⟨hids, ho, hr, hput⟩ := of_decide_eq_true heq
  have hrun : Run (Pair.step false 0) (fun _ _ => True) (Pair.init 0) w :=
    run_of_exec (fun _ _ _ => trivial) hw
  exact ⟨w, hrun, hids, ho, hr, hput, stream_data_in_order false 0 hrun hids ho hr⟩

/-- A client of the smart socket is told by the host itself that the stream is open. -/
theorem stream_status_written : ∃ w,
    Run (Pair.step false 0) (fun _ _ => True) (Pair.init 0) w ∧ (∀ b, (w b).created < 2 ^ 32) ∧
    (w true).ConnectedTo 0 1 1 ∧ (w false).ConnectedTo 0 1 1 ∧
    (w true).owner 1 = some 0 ∧ (w false).owner 1 = some 0 ∧
    ¬ ((w true).trace 0).written <+: ((w false).trace 0).got := by
  have hexec : (exec (Pair.step false 0) (Pair.init 0)
      (clientRun [.data (text "0005tcp:7")])).map (fun w =>
        decide ((∀ b, (w b).created < 2 ^ 32) ∧ (w true).connectedAt 0 0 1 1 = true ∧
          (w false).connectedAt 0 0 1 1 = true ∧ (w true).owner 1 = some 0 ∧
          (w false).owner 1 = some 0 ∧
          ¬ ((w true).trace 0).written <+: ((w false).trace 0).got)) = some true := by
    decide +kernel
  obtain ⟨w, hw, heq⟩ := map_eq_some_iff.mp hexec
  obtain ⟨hids, hhost, hdevice, ho, ho', hnot⟩ := of_decide_eq_true heq
  exact ⟨w, run_of_exec (fun _ _ _ => trivial) hw, hids, connectedTo_of_connectedAt hhost,
    connectedTo_of_connectedAt hdevice, ho, ho', hnot⟩

end Integrity

section FlowControl

/-- A socket that has sent data does not wait for more until it is acknowledged: the data is on its
way, or queued at the other end, or the acknowledgement is on its way. Every packet of data it has
taken is acknowledged once it is no longer queued. -/
theorem flow_control (authEnabled : Bool) (link : TransportId) {w : Pair}
    (hrun : Run (Pair.step authEnabled link) (fun _ _ => True) (Pair.init link) w)
    (hids : ∀ b, (w b).created < 2 ^ 32) {b : Bool} {l r : ℕ} {a : Addr}
    (ha : (w b).owner l = some a) (hr : ((w b).trace a).remoteId = some r) :
    (∃ a', (w !b).owner r = some a' ∧
      ((w b).reading a).toNat + (w b).inFlight link .aWrte l r + (w !b).backlog a' +
        (w !b).inFlight link .aOkay r l ≤ 1) ∧
    ∀ s, (w b).socket a = some s → s.queue.length ≤ 1 ∧ (s.closing = false →
      ((w b).trace a).accepted = ((w b).trace a).acknowledged + s.queue.length) := by
  obtain ⟨hg, hsound⟩ := Pair.run_sound (hrun.mono fun w e _ => e.allowed w)
  have hsound := hsound hids
  obtain ⟨a', fwd, bwd, ho, hused, _, hto, hfrom, hdata, hokay⟩ := hsound.flow ha hr
  refine ⟨⟨a', ho, ?_⟩, fun s hs => ?_⟩
  · have hsingle := hto.single
    have hloc := ((hsound.tied !b).owns r a' ho).isLocal
    rw [credit_endAt hr, debt_endAt (hg !b) hloc hused] at hsingle
    omega
  · have hshort := hfrom.short
    have hacked := hfrom.acked
    cases hc : s.closing with
    | true =>
      rw [endAt_closing hr hs hc] at hshort
      exact ⟨hshort, nofun⟩
    | false =>
      rw [endAt_connected hr hs hc] at hshort hacked
      exact ⟨hshort, fun _ => hacked rfl⟩

/-- The service has a byte left to take, and the client is not read from. -/
theorem flow_control_queued : ∃ w, Run (Pair.step false 0) (fun _ _ => True) (Pair.init 0) w ∧
    (∀ b, (w b).created < 2 ^ 32) ∧ (w true).owner 1 = some 0 ∧
    ((w true).trace 0).remoteId = some 1 ∧ (w false).backlog 0 = 1 ∧
    (∃ a', (w false).owner 1 = some a' ∧
      ((w true).reading 0).toNat + (w true).inFlight 0 .aWrte 1 1 + (w false).backlog a' +
        (w false).inFlight 0 .aOkay 1 1 ≤ 1) ∧
    ∀ s, (w true).socket 0 = some s → s.queue.length ≤ 1 ∧ (s.closing = false →
      ((w true).trace 0).accepted = ((w true).trace 0).acknowledged + s.queue.length) := by
  have hexec : (exec (Pair.step false 0) (Pair.init 0) dataRun).map (fun w =>
      decide ((∀ b, (w b).created < 2 ^ 32) ∧ (w true).owner 1 = some 0 ∧
        ((w true).trace 0).remoteId = some 1 ∧ (w false).backlog 0 = 1)) = some true := by
    decide +kernel
  obtain ⟨w, hw, heq⟩ := map_eq_some_iff.mp hexec
  obtain ⟨hids, ho, hr, hback⟩ := of_decide_eq_true heq
  have hrun : Run (Pair.step false 0) (fun _ _ => True) (Pair.init 0) w :=
    run_of_exec (fun _ _ _ => trivial) hw
  exact ⟨w, hrun, hids, ho, hr, hback, flow_control false 0 hrun hids ho hr⟩

theorem live_endAt (h : Graph u) (ht : u.Tied link) {a : Addr}
    (ha : u.owner l = some a) (hcon : u.ConnectedTo link l r) :
    (u.trace a).remoteId = some r ∧ (u.endAt link a).Live := by
  obtain ⟨hpartner, hphase⟩ := (connectedTo_iff h ht [] l r).mp hcon
  have hends : (u.node link []).ends l = u.endAt link a := endOf_owner ha
  rw [hends] at hphase
  exact ⟨(partnerOf_owner ha).symm.trans hpartner, by simp [End.Live, hphase]⟩

/-- A stream that is open at both ends never stalls. In each direction exactly one of these holds:
the socket waits for input, a packet of data is on its way, it is queued at the other end, or its
acknowledgement is on its way. -/
theorem stream_never_stalls (authEnabled : Bool) (link : TransportId) {w : Pair}
    (hrun : Run (Pair.step authEnabled link) (fun _ _ => True) (Pair.init link) w)
    (hids : ∀ b, (w b).created < 2 ^ 32) {b : Bool} {a a' : Addr}
    (ha : (w b).owner l = some a) (ha' : (w !b).owner r = some a')
    (hcon : (w b).ConnectedTo link l r) (hcon' : (w !b).ConnectedTo link r l) :
    ((w b).reading a).toNat + (w b).inFlight link .aWrte l r + (w !b).backlog a' +
      (w !b).inFlight link .aOkay r l = 1 := by
  obtain ⟨hg, hsound⟩ := Pair.run_sound (hrun.mono fun w e _ => e.allowed w)
  have hsound := hsound hids
  obtain ⟨hr, hlive⟩ := live_endAt (hg b) (hsound.tied b) ha hcon
  obtain ⟨_, hlive'⟩ := live_endAt (hg !b) (hsound.tied !b) ha' hcon'
  obtain ⟨a'', fwd, bwd, ho, hused, _, hto, _, hdata, hokay⟩ := hsound.flow ha hr
  obtain rfl : a' = a'' := some.inj (ha'.symm.trans ho)
  have hsingle := hto.single
  have hawake := hto.awake hlive hlive'
  have hloc := ((hsound.tied !b).owns r a' ho).isLocal
  rw [credit_endAt hr, debt_endAt (hg !b) hloc hused] at hsingle hawake
  omega

/-- The service has a byte left to take, and nothing is on its way. -/
theorem stream_never_stalls_queued : ∃ w,
    Run (Pair.step false 0) (fun _ _ => True) (Pair.init 0) w ∧ (∀ b, (w b).created < 2 ^ 32) ∧
    (w true).owner 1 = some 0 ∧ (w false).owner 1 = some 0 ∧ (w true).ConnectedTo 0 1 1 ∧
    (w false).ConnectedTo 0 1 1 ∧ (w false).backlog 0 = 1 ∧
    ((w true).reading 0).toNat + (w true).inFlight 0 .aWrte 1 1 + (w false).backlog 0 +
      (w false).inFlight 0 .aOkay 1 1 = 1 := by
  have hexec : (exec (Pair.step false 0) (Pair.init 0) dataRun).map (fun w =>
      decide ((∀ b, (w b).created < 2 ^ 32) ∧ (w true).owner 1 = some 0 ∧
        (w false).owner 1 = some 0 ∧ (w true).connectedAt 0 0 1 1 = true ∧
        (w false).connectedAt 0 0 1 1 = true ∧ (w false).backlog 0 = 1)) = some true := by
    decide +kernel
  obtain ⟨w, hw, heq⟩ := map_eq_some_iff.mp hexec
  obtain ⟨hids, ho, ho', hhost, hdevice, hback⟩ := of_decide_eq_true heq
  have hrun : Run (Pair.step false 0) (fun _ _ => True) (Pair.init 0) w :=
    run_of_exec (fun _ _ _ => trivial) hw
  have hhost := connectedTo_of_connectedAt hhost
  have hdevice := connectedTo_of_connectedAt hdevice
  exact ⟨w, hrun, hids, ho, ho', hhost, hdevice, hback,
    stream_never_stalls false 0 hrun hids ho ho' hhost hdevice⟩

end FlowControl

end PaxAdb.Sockets
