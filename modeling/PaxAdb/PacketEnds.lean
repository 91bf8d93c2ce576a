import PaxAdb.SocketEnds

/-!
# Packets as messages of streams

What `handle_packet` does with a packet of a connection is what a node does with a message, provided
the packet is one the node has an end for.
-/

namespace PaxAdb.Sockets

open ASocket Server Duplex Function Option

variable {w w' : Server} {a b p : Addr} {s s' q : ASocket} {x : Packet} {link : TransportId}
  {out : List (Frame ℕ Byte)}

def Handled (link : TransportId) (w w' : Server) (f : Frame ℕ Byte) : Prop :=
  ∀ out, w.Framed link out → ∃ out', w'.Framed link out' ∧
    Takes (w.node link out) (w'.node link out') f

variable {j src i : ℕ}

section Rules

variable {i src : ℕ} {m : Msg Byte} {o : Option (Msg Byte)} {xs : List Packet}

section Handled

variable (ht : w.Tied link) (hk : w.Kept w') (hi : w.owner i = some a)

include ht hk hi

theorem node_others (hends : ∀ j b, w.owner j = some b → b ≠ a → w'.endAt link b = w.endAt link b ∧
      (w'.trace b).remoteId = (w.trace b).remoteId) (hj : j ≠ i) :
    w'.endOf link j = w.endOf link j ∧ w'.partnerOf j = w.partnerOf j := by
  refine ⟨endOf_other ht hk hi (fun j b ho hb => (hends j b ho hb).1) hj, ?_⟩
  cases ho : w.owner j with
  | none =>
    rw [partnerOf, partnerOf, hk.owner, ho]
    rfl
  | some b =>
    rw [partnerOf_owner ho, partnerOf_owner (by rw [hk.owner, ho])]
    refine (hends j b ho ?_).2
    rintro rfl
    exact hj ((ht.owns j b ho).bornId.symm.trans (ht.owns i b hi).bornId)

theorem handled_talk (hact : Act (w.endAt link a) (some m) o (w'.endAt link a))
    (hends : ∀ j b, w.owner j = some b → b ≠ a → w'.endAt link b = w.endAt link b ∧
      (w'.trace b).remoteId = (w.trace b).remoteId)
    (hp : (w'.trace a).remoteId = some src ∨ (w'.trace a).remoteId = (w.trace a).remoteId ∧
      ((w'.endAt link a).phase = .pending ∨ (w'.endAt link a).phase = .gone))
    (hout : w'.outbox link = w.outbox link ++ xs)
    (hxs : xs.map frameOf = (o.toList.map (Frame.talk i src)).map some) :
    Handled link w w' (.talk src i m) := by
  intro out hf
  have hi' : w'.owner i = some a := by rw [hk.owner, hi]
  refine ⟨_, hf.append hout hxs, .talk (o := o) (act_owner hk hi hact)
    (fun j hj => (node_others ht hk hi hends hj).1) ?_
    (fun j hj => (node_others ht hk hi hends hj).2) rfl⟩
  change w'.partnerOf i = some src ∨ w'.partnerOf i = w.partnerOf i ∧
    ((w'.endOf link i).phase = .pending ∨ (w'.endOf link i).phase = .gone)
  rw [endOf_owner hi', partnerOf_owner hi, partnerOf_owner hi']
  exact hp

theorem handled_refused (hact : Act (w.endAt link a) (some .refuse) none (w'.endAt link a))
    (hends : ∀ j b, w.owner j = some b → b ≠ a → w'.endAt link b = w.endAt link b ∧
      (w'.trace b).remoteId = (w.trace b).remoteId)
    (hrem : (w'.trace a).remoteId = (w.trace a).remoteId)
    (hout : w'.outbox link = w.outbox link) : Handled link w w' (.refuse i) := by
  intro out hf
  have hi' : w'.owner i = some a := by rw [hk.owner, hi]
  refine ⟨out, ?_, .refused (act_owner hk hi hact) (fun j hj => (node_others ht hk hi hends hj).1)
    (funext fun j => ?_) rfl⟩
  · rw [Server.Framed, hout]
    exact hf
  · by_cases hj : j = i
    · subst hj
      change w'.partnerOf j = w.partnerOf j
      rw [partnerOf_owner hi, partnerOf_owner hi', hrem]
    · exact (node_others ht hk hi hends hj).2

end Handled

end Rules

section Expected

variable {i src : ℕ} {m : Msg Byte}

inductive Addressee (link : TransportId) (w : Server) (src : Option ℕ) (a : Addr) : Prop where
  | known {r : ℕ} (hsrc : src = some r) (h : (w.trace a).remoteId = some r) :
      Addressee link w src a
  | waiting (h : (w.trace a).remoteId = none)
      (hp : phaseAlone link (w.socket a) = .pending ∨ phaseAlone link (w.socket a) = .gone) :
      Addressee link w src a

theorem owner_of_phase (h : (w.endOf link i).phase = .pending ∨ (w.endOf link i).phase = .gone) :
    ∃ a, w.owner i = some a := by
  cases ho : w.owner i with
  | none =>
    rw [endOf_none ho] at h
    rcases h with h | h <;> cases h
  | some a => exact ⟨a, rfl⟩

theorem waiting_of_node {src : Option ℕ} (hp : w.partnerOf i = none)
    (h : (w.endOf link i).phase = .pending ∨ (w.endOf link i).phase = .gone) :
    ∃ a, w.owner i = some a ∧ Addressee link w src a := by
  obtain ⟨a, ho⟩ := owner_of_phase h
  have hr := (partnerOf_owner ho).symm.trans hp
  rw [endOf_owner ho, endAt_blank hr] at h
  exact ⟨a, ho, .waiting hr h⟩

theorem addressee_talk (he : (w.node link out).Expects (.talk src i m)) :
    ∃ a, w.owner i = some a ∧ Addressee link w (some src) a := by
  rcases he with hp | ⟨hp, hphase⟩
  · cases ho : w.owner i with
    | none =>
      change w.partnerOf i = some src at hp
      rw [partnerOf, ho] at hp
      cases hp
    | some a => exact ⟨a, rfl, .known rfl ((partnerOf_owner ho).symm.trans hp)⟩
  · exact waiting_of_node hp hphase

theorem addressee_refuse (he : (w.node link out).Expects (.refuse i)) :
    ∃ a, w.owner i = some a ∧ Addressee link w none a :=
  waiting_of_node he.1 he.2

theorem Addressee.connected {r : ℕ} (hd : Addressee link w (some r) a) (h : Graph w)
    (ht : w.Tied link) (ha : w.socket a = some s) (hloc : s.IsLocal) (hc : s.closing = false)
    (hp : s.peer = some p) : (w.trace a).remoteId = some r ∧
      ∃ q, w.socket p = some q ∧ q.IsRemote ∧ q.id = r ∧ q.transport = some link := by
  cases hd with
  | @known r' hsrc hr =>
    cases some.inj hsrc
    obtain ⟨_, q, hq, _⟩ := h.peer_spec ha hp
    have hrem : q.IsRemote := by
      by_contra hrem
      cases hr.symm.trans ((ht.at_ a s ha hloc).aside p q hp hq hrem)
    obtain ⟨hid, hqt⟩ := (ht.at_ a s ha hloc).remote p q hp hq hrem
    exact ⟨hr, q, hq, hrem, some.inj (hid.symm.trans hr), hqt⟩
  | waiting _ hphase =>
    rw [ha, phaseAlone_idle hc (.inl (by simp [hp]))] at hphase
    rcases hphase with hphase | hphase <;> cases hphase

theorem Addressee.pending {src : Option ℕ} (hd : Addressee link w src a) (ht : w.Tied link)
    (ha : w.socket a = some s) (hloc : s.IsLocal) (hc : s.closing = false) (hp : s.peer = none) :
    w.endAt link a = .blank .pending := by
  have hr := (ht.virgin_alone ha hloc hp hc).remoteId
  cases hd with
  | known _ hr' => cases hr.symm.trans hr'
  | waiting _ hphase =>
    rw [ha] at hphase
    rw [endAt_blank hr, ha]
    by_cases hl : s.transport = some link
    · rw [phaseAlone_pending hc hp hl]
    · rw [phaseAlone_idle hc (.inr hl)] at hphase
      rcases hphase with hphase | hphase <;> cases hphase

end Expected

section Handlers

theorem resumed_socket (w : Server) (a : Addr) (s : ASocket) : ∃ e, e.state.read = true ∧
    (w.resumed a s).socket a = some { s with fde := e } := by
  refine ⟨_, ?_, fdeventSet_socket w a s _⟩
  rw [fdeAfter_state]
  simp [Events.union, Events.fdeRead]

def Server.welcomed (w : Server) (src : ℕ) (t : TransportId) : Server :=
  ((w.born.attachRemote w.nextAddr w.freshLocal src t).sendPacket
    ⟨.aOkay, w.localSocketNextId, src, []⟩ t).resumed w.nextAddr
      { w.freshLocal.plain with peer := some (w.nextAddr + 1) }

section Welcomed

variable (w) (src : ℕ) (t : TransportId)

theorem kept_welcomed : w.born.Kept (w.welcomed src t) := by
  have hk : w.born.Kept ((w.born.attachRemote w.nextAddr w.freshLocal src t).sendPacket
      ⟨.aOkay, w.localSocketNextId, src, []⟩ t) :=
    kept_of_trace rfl rfl rfl rfl (Nat.le_succ _) rfl rfl
  exact hk.trans (OnlyAt.resumed _ _ _ : Server.OnlyAt t _ _ _ _).toKept

theorem trace_welcomed : (w.welcomed src t).trace w.nextAddr =
      { Trace.empty with bornId := w.localSocketNextId, remoteId := some src } := by
  rw [welcomed, trace_resumed]
  simp [sendPacket, attachRemote, born, createLocalSocket]

theorem welcomed_frame (hb : b < w.nextAddr) : (w.welcomed src t).socket b = w.born.socket b ∧
      (w.welcomed src t).trace b = w.born.trace b := by
  rw [welcomed, resumed_socket_ne _ _ hb.ne, trace_resumed]
  exact ⟨(socket_store_ne _ _ hb.ne).trans (socket_store_ne _ _ (hb.trans (Nat.lt_succ_self _)).ne),
    update_of_ne hb.ne _ _⟩

theorem outbox_welcomed : (w.welcomed src t).outbox t =
      w.outbox t ++ [⟨.aOkay, w.localSocketNextId, src, []⟩] := by
  have hres := (OnlyAt.resumed ((w.born.attachRemote w.nextAddr w.freshLocal src t).sendPacket
    ⟨.aOkay, w.localSocketNextId, src, []⟩ t) w.nextAddr
      { w.freshLocal.plain with peer := some (w.nextAddr + 1) } : Server.OnlyAt t _ _ _ _).outbox
  rw [List.append_nil] at hres
  exact hres.trans (update_self _ _ _)

theorem endAt_welcomed : (w.welcomed src link).endAt link w.nextAddr = .joined := by
  have htr := trace_welcomed w src link
  have hsock : (w.welcomed src link).socket w.nextAddr = _ := fdeventSet_socket _ _ _ _
  rw [endAt_connected (by rw [htr]) hsock rfl, htr, fdeAfter_state]
  rfl

end Welcomed

theorem handled_accept (h : Graph w) (ht : w.Tied link) (hlt : w.created + 1 < 2 ^ 32)
    (h0 : src ≠ 0) : Handled link w (w.welcomed src link) (.opening src) := by
  have hk := kept_welcomed w src link
  have hsome : (w.welcomed src link).owner w.localSocketNextId = some w.nextAddr := by
    rw [hk.owner]
    exact update_self _ _ _
  have hothers : ∀ j, j ≠ w.localSocketNextId →
      (w.welcomed src link).endOf link j = w.endOf link j ∧
        (w.welcomed src link).partnerOf j = w.partnerOf j := by
    intro j hj
    have hold := node_born ht hj
    rw [← hold.1, ← hold.2]
    refine node_others (ht.born h hlt) hk (update_self _ _ _) (fun j b ho hb => ?_) hj
    have hlt' : b < w.nextAddr :=
      lt_of_le_of_ne (Nat.lt_succ_iff.mp ((ht.born h hlt).owns j b ho).old) hb
    obtain ⟨hs, htr⟩ := welcomed_frame w src link hlt'
    exact ⟨endAt_congr hs htr, by rw [htr]⟩
  intro out hf
  refine ⟨out ++ [.talk w.localSocketNextId src .okay], hf.append (outbox_welcomed w src link) ?_,
    .accept (i := w.localSocketNextId) ?_ ?_ (fun j hj => (hothers j hj).1) ?_
      (fun j hj => (hothers j hj).2) rfl⟩
  · simp [frameOf, h.nextId, h0]
  · exact endOf_none (owner_nextId ht hlt)
  · exact (endOf_owner hsome).trans (endAt_welcomed w src)
  · refine (partnerOf_owner hsome).trans ?_
    rw [trace_welcomed]

theorem handled_refuse (h0 : src ≠ 0) :
    Handled link w (w.sendPacket ⟨.aClse, 0, src, []⟩ link) (.opening src) := by
  intro out hf
  refine ⟨out ++ [.refuse src], hf.append (update_self _ _ _) ?_, .refuse rfl rfl rfl⟩
  simp [frameOf, h0]

theorem handled_connect (h : Graph w) (ht : w.Tied link)
    (hf : Found w i 0 a s) (hp : s.peer = none) (hd : Addressee link w (some src) a)
    (hst : StatusOnly a ((w.attachRemote a s src link).resumed a
      { s.plain with peer := some w.nextAddr }) w') : Handled link w w' (.talk src i .okay) := by
  have ha := hf.socket
  have hv := ht.virgin_alone ha hf.isLocal hp hf.closing
  have hat : (w.attachRemote a s src link).OnlyAt link a [] w' :=
    (OnlyAt.resumed _ _ _).trans (.statusOnly hst)
  have hk₀ : w.Kept (w.attachRemote a s src link) :=
    kept_of_trace rfl rfl rfl rfl (Nat.le_succ _) rfl rfl
  have hk := hk₀.trans hat.toKept
  have htr : ((w.attachRemote a s src link).resumed a
      { s.plain with peer := some w.nextAddr }).trace a =
        { w.trace a with remoteId := some src } := by
    rw [trace_resumed]
    exact update_self _ _ _
  have hsame := Trace.Same.statusOnly hst a
  have hr : (w'.trace a).remoteId = some src := by
    rw [hsame.remoteId, htr]
  obtain ⟨e, he, hsock⟩ := resumed_socket (w.attachRemote a s src link) a
    { s.plain with peer := some w.nextAddr }
  rw [← socket_statusOnly hst] at hsock
  have hqueue : s.queue = [] := h.queue_of_peer_none ha hf.isLocal hp hf.closing
  have hend : w'.endAt link a = .joined := by
    rw [endAt_connected hr hsock hf.closing, endIn_congr hsame, htr]
    change Trace.endIn _ .connected e.state.read s.queue = _
    rw [he, hqueue]
    change End.mk _ _ _ (w.trace a).got (w.trace a).put (w.trace a).accepted
      (w.trace a).acknowledged = _
    rw [hv.got, hv.put, hv.accepted, hv.acknowledged]
    rfl
  refine handled_talk (o := none) ht hk (hf.owner ht) ?_ (fun j b ho hb => ?_) (.inl hr)
    hat.outbox rfl
  · rw [hd.pending ht ha hf.isLocal hf.closing hp, hend]
    exact .connect
  · have hlt := (ht.owns j b ho).old
    have hs : w'.socket b = w.socket b :=
      (hat.socket b hb).trans (attachRemote_socket_ne w s src link hb hlt)
    have htr' : w'.trace b = w.trace b := (hat.trace b hb).trans (update_of_ne hb _ _)
    exact ⟨endAt_congr hs htr', by rw [htr']⟩

theorem handled_at {m : Msg Byte} {o : Option (Msg Byte)} {xs : List Packet}
    (ht : w.Tied link) (ho : w.OnlyAt link a xs w') (hf : Found w i j a s)
    (hr : (w.trace a).remoteId = some src) (hr' : (w'.trace a).remoteId = some src)
    (ha' : w'.socket a = some s') (hc' : s'.closing = false)
    (hact : Act ((w.trace a).endIn .connected s.fde.state.read s.queue) (some m) o
      ((w'.trace a).endIn .connected s'.fde.state.read s'.queue))
    (hxs : xs.map frameOf = (o.toList.map (Frame.talk i src)).map some) :
    Handled link w w' (.talk src i m) := by
  refine handled_talk ht ho.toKept (hf.owner ht) ?_ (fun j b _ hb => ?_) (.inl hr') ho.outbox hxs
  · rw [endAt_connected hr hf.socket hf.closing, endAt_connected hr' ha' hc']
    exact hact
  · exact ⟨endAt_congr (ho.socket b hb) (ho.trace b hb), by rw [ho.trace b hb]⟩

theorem handled_resume (ht : w.Tied link) (hf : Found w i j a s)
    (hr : (w.trace a).remoteId = some src) :
    Handled link w (w.resumed a s) (.talk src i .okay) := by
  obtain ⟨e, he, hsock⟩ := resumed_socket w a s
  refine handled_at (o := none) ht (.resumed w a s) hf hr (by rw [trace_resumed, hr]) hsock
    hf.closing
    ?_ rfl
  rw [trace_resumed]
  change Act _ _ _ ((w.trace a).endIn .connected e.state.read s.queue)
  rw [he]
  exact Act.resume (e := (w.trace a).endIn .connected s.fde.state.read s.queue) rfl

theorem Closes.apart (hcl : Closes a w w') (h : Graph w) (ha : w.socket a = some s)
    (hp : ∀ p q, s.peer = some p → w.socket p = some q → ¬ q.IsLocal)
    (hloc : ∀ y, w.socket b = some y → y.IsLocal) (hb : b ≠ a) :
    w'.endAt link b = w.endAt link b ∧ (w'.trace b).remoteId = (w.trace b).remoteId := by
  refine ⟨hcl.others ha hb fun hpb => ?_, (hcl.same b).remoteId⟩
  obtain ⟨_, y, hy, _⟩ := h.peer_spec ha hpb
  exact hp b y hpb hy (hloc y hy)

theorem handled_closed {v : Server} {m : Msg Byte} (hg : Graph v) (ht : w.Tied link)
    (hf : Found w i j a s) (hr : (w.trace a).remoteId = some src) (hp : s.peer = some p)
    (hq : w.socket p = some q) (hrem : q.IsRemote) (hid : q.id = src)
    (hqt : q.transport = some link) (ho : w.OnlyAt link a [] v) (hsocket : v.socket = w.socket)
    (hrv : (v.trace a).remoteId = some src) (hcl : Closes a v w')
    (hact : Act ((w.trace a).endIn .connected s.fde.state.read s.queue) (some m) (some .close)
      ((v.trace a).endIn .closed false s.queue)) : Handled link w w' (.talk src i m) := by
  have hva : v.socket a = some s := by rw [hsocket, hf.socket]
  have hvp : v.socket p = some q := by rw [hsocket, hq]
  have hqid := ((hg.otherSane hvp hrem.not_local).remote hrem).2.2.2.2
  have hsid := (hg.localSane hva hf.isLocal).id hf.closing
  have hother : ∀ p' q', s.peer = some p' → v.socket p' = some q' → ¬ q'.IsLocal := by
    intro p' q' hp' hq'
    cases hp.symm.trans hp'
    cases hvp.symm.trans hq'
    exact hrem.not_local
  have hout := hcl.outbox_remote hg hva hp hvp hrem hqt
  rw [ho.outbox, List.append_nil] at hout
  refine handled_talk (o := some .close) ht (ho.toKept.trans hcl.kept) (hf.owner ht) ?_
    (fun j b hj hb => ?_) (.inl ((hcl.same a).remoteId.trans hrv)) hout ?_
  · rw [endAt_connected hr hf.socket hf.closing, hcl.closed hva hrv hf.closing]
    exact hact
  · obtain ⟨hend, hrem'⟩ := hcl.apart hg hva hother
      (fun y hy => (ht.owns j b hj).isLocal y (hsocket ▸ hy)) hb
    refine ⟨hend.trans (endAt_congr (ho.socket b hb) (ho.trace b hb)), ?_⟩
    rw [hrem', ho.trace b hb]
  · rw [hf.id] at hsid
    simp [frameOf, hsid, hqid, hf.id, ← hid]

theorem handled_close (h : Graph w) (ht : w.Tied link) (hf : Found w i j a s)
    (hp : s.peer = some p) (hq : w.socket p = some q) (hrem : q.IsRemote) (hid : q.id = src)
    (hqt : q.transport = some link) (hr : (w.trace a).remoteId = some src) (hcl : Closes a w w') :
    Handled link w w' (.talk src i .close) :=
  handled_closed h ht hf hr hp hq hrem hid hqt (.refl _ _ w) rfl hr hcl
    (Act.close (e := (w.trace a).endIn .connected s.fde.state.read s.queue) rfl
      (.inr (.inl rfl)))

theorem handled_closeRefused (h : Graph w) (ht : w.Tied link) (hf : Found w i j a s)
    (hp : s.peer = none) (hd : Addressee link w none a) (hcl : Closes a w w') :
    Handled link w w' (.refuse i) := by
  have hno : ∀ p, s.peer ≠ some p := fun p hp' => by cases hp.symm.trans hp'
  have hr := (ht.virgin_alone hf.socket hf.isLocal hp hf.closing).remoteId
  refine handled_refused ht hcl.kept (hf.owner ht) ?_
    (fun j b ho hb => hcl.apart h hf.socket (fun p q hp' => absurd hp' (hno p))
      (ht.owns j b ho).isLocal hb)
    (hcl.same a).remoteId (by rw [hcl.outbox h hf.socket fun p q hp' => absurd hp' (hno p)])
  rw [hd.pending ht hf.socket hf.isLocal hf.closing hp, hcl.gone h hf.socket (.inl rfl) hr]
  exact .refused

end Handlers

section Data

variable {src i : ℕ} {bytes : List Byte}

theorem trace_accept (w : Server) (a : Addr) :
    (w.accept a).trace a = { w.trace a with accepted := (w.trace a).accepted + 1 } :=
  update_self _ _ _

theorem trace_attempted (w : Server) (a : Addr) (bytes : List Byte) :
    ((w.accept a).attempted a bytes).trace a = { w.trace a with
      accepted := (w.trace a).accepted + 1
      output := (w.trace a).output ++ [(.data, (w.accept a).written bytes)] } := by
  rw [attempted, trace_wroteData, trace_accept]

theorem queued_socket (w : Server) (a : Addr) (s : ASocket) (bytes : List Byte) :
    ∃ e, e.state.read = s.fde.state.read ∧
      (w.queued a s bytes).socket a = some { s with queue := s.queue ++ [bytes], fde := e } := by
  refine ⟨_, ?_, fdeventSet_socket _ _ _ _⟩
  rw [fdeAfter_state]
  simp [Events.union, Events.fdeWrite]

theorem handled_write {r : ℤ} (h : Graph w) (ht : w.Tied link)
    (hf : Found w i src a s) (hr : (w.trace a).remoteId = some src) (hp : s.peer = some p)
    (hq : w.socket p = some q) (hrem : q.IsRemote) (hid : q.id = src)
    (hqt : q.transport = some link) (henq : Enqueued a s bytes (w.accept a) w' r) (hr0 : r ≠ 0) :
    Handled link w w' (.talk src i (.data bytes)) := by
  have hsplit : bytes = (w.accept a).written bytes ++ (w.accept a).unwritten bytes :=
    (written_append (w.accept a) bytes).symm
  cases henq with
  | queued =>
    obtain ⟨e, he, hsock⟩ := queued_socket (w.accept a) a s bytes
    have htr : ((w.accept a).queued a s bytes).trace a = _ :=
      (congrFun (trace_queued _ _ _ _) a).trans (trace_accept w a)
    refine handled_at (o := none) ht ((OnlyAt.accept w a).trans (.queued _ a s bytes)) hf hr
      (by rw [htr, hr]) hsock hf.closing ?_ rfl
    rw [htr]
    change Act _ _ _ (Trace.endIn _ .connected e.state.read (s.queue ++ [bytes]))
    rw [he]
    convert Act.store (e := (w.trace a).endIn .connected s.fde.state.read s.queue) rfl
      (List.nil_append bytes).symm (.inl rfl) using 1
    simp [Trace.endIn, Trace.put]
  | done => exact absurd rfl hr0
  | blocked hqueue =>
    obtain ⟨e, he, hsock⟩ := queued_socket ((w.accept a).attempted a bytes) a s
      ((w.accept a).unwritten bytes)
    have htr : (((w.accept a).attempted a bytes).queued a s
        ((w.accept a).unwritten bytes)).trace a = _ :=
      (congrFun (trace_queued _ _ _ _) a).trans (trace_attempted w a bytes)
    have ho : w.OnlyAt link a [] (((w.accept a).attempted a bytes).queued a s
        ((w.accept a).unwritten bytes)) :=
      ((OnlyAt.accept w a).trans (.wroteData _ a _ _)).trans (.queued _ a s _)
    refine handled_at (o := none) ht ho hf hr (by rw [htr, hr]) hsock hf.closing ?_ rfl
    rw [htr]
    change Act _ _ _ (Trace.endIn _ .connected e.state.read (s.queue ++ [_]))
    rw [he]
    convert Act.store (e := (w.trace a).endIn .connected s.fde.state.read s.queue) rfl
      hsplit (.inr hqueue) using 1
    simp [Trace.endIn, Trace.put]
  | failed hqueue _ hcl =>
    -- the socket is closed after what could be written
    have hg : Graph (((w.accept a).attempted a bytes).markFailed a) :=
      (h.setTrace _ _).writeFailed a bytes
    have ho : w.OnlyAt link a [] (((w.accept a).attempted a bytes).markFailed a) :=
      ((OnlyAt.accept w a).trans (.wroteData _ a _ _)).trans (.markFailed _ a)
    have hsame := Trace.Same.markFailed ((w.accept a).attempted a bytes) a a
    rw [trace_attempted] at hsame
    have hsocket : (((w.accept a).attempted a bytes).markFailed a).socket = w.socket := by
      rw [markFailed, socket_setTrace, socket_attempted, accept, socket_setTrace]
    generalize ((w.accept a).attempted a bytes).markFailed a = v at hcl hg ho hsame hsocket
    refine handled_closed hg ht hf hr hp hq hrem hid hqt ho hsocket (by rw [hsame.remoteId, hr])
      hcl ?_
    rw [endIn_congr hsame]
    convert Act.fail (e := (w.trace a).endIn .connected s.fde.state.read s.queue) rfl hqueue
      ⟨_, written_append (w.accept a) bytes⟩ using 1
    simp [Trace.endIn, Trace.put]

theorem handled_writeAll (h : Graph w) (ht : w.Tied link) (h0 : src ≠ 0)
    (hf : Found w i src a s) (hr : (w.trace a).remoteId = some src) (hqueue : s.queue = [])
    (hall : w.attempt bytes = .done) :
    Handled link w ((((w.accept a).attempted a bytes).acknowledge a).sendPacket
      ⟨.aOkay, s.id, src, []⟩ link) (.talk src i (.data bytes)) := by
  have hsid := (h.localSane hf.socket hf.isLocal).id hf.closing
  have hwritten : (w.accept a).written bytes = bytes := written_of_done hall
  have htr : ((((w.accept a).attempted a bytes).acknowledge a).sendPacket
      ⟨.aOkay, s.id, src, []⟩ link).trace a = { w.trace a with
        accepted := (w.trace a).accepted + 1
        output := (w.trace a).output ++ [(.data, bytes)]
        acknowledged := (w.trace a).acknowledged + 1 } := by
    simp [sendPacket, acknowledge, setTrace, trace_attempted, hwritten]
  refine handled_at (o := some .okay) ht ((((OnlyAt.accept w a).trans (.wroteData _ a _ _)).trans
    (.acknowledge _ a)).trans (.sendPacket _ a _)) hf hr (by rw [htr, hr]) hf.socket
    hf.closing ?_ ?_
  · rw [htr]
    convert Act.deliver (e := (w.trace a).endIn .connected s.fde.state.read s.queue) rfl hqueue
      using 1
    simp [Trace.endIn, Trace.put]
  · rw [hf.id] at hsid
    simp [frameOf, hsid, h0, hf.id]

end Data

section Ignored

variable {src i : ℕ} {m : Msg Byte}

theorem late_of_ended (ho : w.socket a = none ∨ ∃ s, w.socket a = some s ∧ s.closing = true) :
    (w.endAt link a).phase = .closed ∨ (w.endAt link a).phase = .gone := by
  cases hr : (w.trace a).remoteId with
  | none =>
    rw [endAt_blank hr]
    rcases ho with hs | ⟨s, hs, hc⟩
    · rw [hs]
      exact .inr rfl
    · rw [hs, phaseAlone_closing hc]
      exact .inr rfl
  | some r =>
    rcases ho with hs | ⟨s, hs, hc⟩
    · rw [endAt_closed hr hs]
      exact .inl rfl
    · rw [endAt_closing hr hs hc]
      exact .inl rfl

section Handled

variable (h : Graph w) (ht : w.Tied link) (hi : w.owner i = some a)
  (hd : Addressee link w (some src) a)

include h ht hi hd

omit h in
theorem handled_same (hact : Act (w.endAt link a) (some m) none (w.endAt link a)) :
    Handled link w w (.talk src i m) := by
  refine handled_talk (o := none) ht (.refl w) hi hact (fun _ _ _ _ => ⟨rfl, rfl⟩) ?_
    (List.append_nil _).symm rfl
  cases hd with
  | known hsrc hr =>
    cases some.inj hsrc
    exact .inl hr
  | waiting hr hphase =>
    refine .inr ⟨rfl, ?_⟩
    rw [endAt_blank hr]
    exact hphase

omit h ht hi hd in
theorem alive_or_ended (w : Server) (a : Addr) :
    (w.socket a = none ∨ ∃ s, w.socket a = some s ∧ s.closing = true) ∨
      ∃ s, w.socket a = some s ∧ s.closing = false := by
  cases hs : w.socket a with
  | none => exact .inl (.inl rfl)
  | some s =>
    cases hc : s.closing with
    | true => exact .inl (.inr ⟨s, rfl, hc⟩)
    | false => exact .inr ⟨s, rfl, hc⟩

theorem handled_unfound (hok : m ≠ .okay) (hre : m ≠ .refuse)
    (hnone : w.findLocalSocket i src = .ok none) : Handled link w w (.talk src i m) := by
  refine handled_same ht hi hd ?_
  rcases alive_or_ended w a with hend | ⟨s, hs, hc⟩
  · exact .late (late_of_ended hend) m
  · have hloc := (ht.owns i a hi).isLocal s hs
    cases hp : s.peer with
    | none =>
      rw [hd.pending ht hs hloc hc hp]
      exact .early hok hre
    | some p =>
      obtain ⟨_, q, hq, _, hid, _⟩ := hd.connected h ht hs hloc hc hp
      cases (findLocalSocket_alive h ht hi hs hc (.inr ⟨p, q, hp, hq, hid⟩)).symm.trans hnone

theorem handled_ignoredOkay
    (hno : w.findLocalSocket i 0 = .ok none ∨ ∃ b s p q, w.findLocalSocket i 0 = .ok (some b) ∧
      w.socket b = some s ∧ s.peer = some p ∧ w.socket p = some q ∧ q.id ≠ src) :
    Handled link w w (.talk src i .okay) := by
  refine handled_same ht hi hd ?_
  rcases alive_or_ended w a with hend | ⟨s, hs, hc⟩
  · exact .late (late_of_ended hend) _
  · have hfind := findLocalSocket_alive h ht hi hs hc (.inl rfl)
    rcases hno with hnone | ⟨b, s', p, q, hb, hs', hp, hq, hne⟩
    · cases hfind.symm.trans hnone
    · cases Except.ok.inj (hfind.symm.trans hb)
      cases hs.symm.trans hs'
      have hloc := (ht.owns i a hi).isLocal s hs
      obtain ⟨_, q', hq', _, hid, _⟩ := hd.connected h ht hs hloc hc hp
      cases hq.symm.trans hq'
      exact absurd hid hne

end Handled

theorem handled_ignoredRefusal (h : Graph w) (ht : w.Tied link) (hi : w.owner i = some a)
    (hd : Addressee link w none a)
    (hno : w.findLocalSocket i 0 = .ok none ∨ ∃ b s p q, w.findLocalSocket i 0 = .ok (some b) ∧
      w.socket b = some s ∧ s.peer = some p ∧ w.socket p = some q) :
    Handled link w w (.refuse i) := by
  refine handled_refused ht (.refl w) hi ?_ (fun _ _ _ _ => ⟨rfl, rfl⟩) rfl rfl
  rcases alive_or_ended w a with hend | ⟨s, hs, hc⟩
  · exact .late (late_of_ended hend) _
  · have hfind := findLocalSocket_alive h ht hi hs hc (.inl rfl)
    rcases hno with hnone | ⟨b, s', p, q, hb, hs', hp, hq⟩
    · cases hfind.symm.trans hnone
    · cases Except.ok.inj (hfind.symm.trans hb)
      cases hs.symm.trans hs'
      cases hd with
      | known hsrc => cases hsrc
      | waiting _ hphase =>
        rw [hs, phaseAlone_idle hc (.inl (by simp [hp]))] at hphase
        rcases hphase with hphase | hphase <;> cases hphase

end Ignored

section Receive

variable {f : Frame ℕ Byte}

theorem Ignored.handled (hi : Ignored x link w) (h : Graph w) (ht : w.Tied link)
    (hon : w.online link = true) (hx : frameOf x = some f) (he : (w.node link out).Expects f) :
    Handled link w w f := by
  rw [frameOf] at hx
  rw [Ignored] at hi
  cases hcmd : x.command <;> simp only [hcmd] at hx hi
  case aOpen =>
    obtain ⟨hargs, _⟩ := ite_some_none_eq_some.mp hx
    exact absurd ⟨hon, hargs⟩ hi
  case aOkay =>
    obtain ⟨hargs, rfl⟩ := ite_some_none_eq_some.mp hx
    obtain ⟨a, ho, hd⟩ := addressee_talk he
    exact handled_ignoredOkay h ht ho hd (hi.resolve_left fun hn => hn ⟨hon, hargs⟩)
  case aWrte =>
    obtain ⟨hargs, rfl⟩ := ite_some_none_eq_some.mp hx
    obtain ⟨a, ho, hd⟩ := addressee_talk he
    exact handled_unfound h ht ho hd (by simp) (by simp) (hi.resolve_left fun hn => hn ⟨hon, hargs⟩)
  case aClse =>
    split at hx
    · cases hx
    next h1 =>
      have hi := hi.resolve_left fun hn => hn ⟨hon, h1⟩
      split at hx
      next h0 =>
        cases hx
        obtain ⟨a, ho, hd⟩ := addressee_refuse he
        rw [h0] at hi
        refine handled_ignoredRefusal h ht ho hd (hi.imp_right ?_)
        rintro ⟨b, s, p, q, hb, hs, hp, hq, _⟩
        exact ⟨b, s, p, q, hb, hs, hp, hq⟩
      next h0 =>
        cases hx
        obtain ⟨a, ho, hd⟩ := addressee_talk he
        refine handled_unfound h ht ho hd (by simp) (by simp) (hi.resolve_right ?_)
        rintro ⟨_, _, _, _, _, _, _, _, harg, _⟩
        exact h0 harg

theorem found_addressee {m : Msg Byte} (h : Graph w) (ht : w.Tied link)
    (hfind : w.findLocalSocket i j = .ok (some a)) (ha : w.socket a = some s)
    (he : (w.node link out).Expects (.talk src i m)) :
    Found w i j a s ∧ Addressee link w (some src) a := by
  obtain ⟨s', hf⟩ := found h hfind
  cases ha.symm.trans hf.socket
  obtain ⟨a', ho, hd⟩ := addressee_talk he
  cases (hf.owner ht).symm.trans ho
  exact ⟨hf, hd⟩

/-- A packet that stands for a message the node expects is handled as that message. -/
theorem Receive.handled (hr : Receive x link w w') (h : Graph w) (ht : w.Tied link)
    (hon : w.online link = true) (hlt : w'.created < 2 ^ 32) (hx : frameOf x = some f)
    (he : (w.node link out).Expects f) : Handled link w w' f := by
  cases hr with
  | ignored hi => exact hi.handled h ht hon hx he
  | accept hcmd _ h0 h1 =>
    simp only [frameOf, hcmd, h0, h1, ne_eq, not_false_eq_true, and_self, if_true] at hx
    cases hx
    refine handled_accept h ht ?_ h0
    rw [created_resumed] at hlt
    exact hlt
  | refuse hcmd _ h0 h1 =>
    simp only [frameOf, hcmd, h0, h1, ne_eq, not_false_eq_true, and_self, if_true] at hx
    cases hx
    exact handled_refuse h0
  | connect hcmd _ h0 h1 hfind ha hp hst =>
    simp only [frameOf, hcmd, h0, h1, ne_eq, not_false_eq_true, and_self, if_true] at hx
    cases hx
    obtain ⟨hf, hd⟩ := found_addressee h ht hfind ha he
    exact handled_connect h ht hf hp hd hst
  | resume hcmd _ h0 h1 hfind ha hp =>
    simp only [frameOf, hcmd, h0, h1, ne_eq, not_false_eq_true, and_self, if_true] at hx
    cases hx
    obtain ⟨hf, hd⟩ := found_addressee h ht hfind ha he
    exact handled_resume ht hf (hd.connected h ht ha hf.isLocal hf.closing hp).1
  | @close a s _ hcmd _ h1 hfind ha _ hcl =>
    simp only [frameOf, hcmd, h1, if_false] at hx
    split at hx
    next h0 =>
      cases hx
      obtain ⟨s', hf⟩ := found h hfind
      cases ha.symm.trans hf.socket
      obtain ⟨a', ho, hd⟩ := addressee_refuse he
      cases (hf.owner ht).symm.trans ho
      have hp : s.peer = none := by
        cases hd with
        | known hsrc => cases hsrc
        | waiting _ hphase =>
          by_contra hp
          rw [ha, phaseAlone_idle hf.closing (.inl hp)] at hphase
          rcases hphase with hphase | hphase <;> cases hphase
      exact handled_closeRefused h ht hf hp hd hcl
    next h0 =>
      cases hx
      obtain ⟨hf, hd⟩ := found_addressee h ht hfind ha he
      obtain ⟨p, _, hp, _⟩ := hf.peer.resolve_left h0
      obtain ⟨hrem, q, hq, hqr, hid, hqt⟩ := hd.connected h ht ha hf.isLocal hf.closing hp
      exact handled_close h ht hf hp hq hqr hid hqt hrem hcl
  | write hcmd _ h0 h1 hfind ha henq hne =>
    simp only [frameOf, hcmd, h0, h1, ne_eq, not_false_eq_true, and_self, if_true] at hx
    cases hx
    obtain ⟨hf, hd⟩ := found_addressee h ht hfind ha he
    obtain ⟨p, _, hp, _⟩ := hf.peer.resolve_left h0
    obtain ⟨hrem, q, hq, hqr, hid, hqt⟩ := hd.connected h ht ha hf.isLocal hf.closing hp
    exact handled_write h ht hf hrem hp hq hqr hid hqt henq hne
  | writeAll hcmd _ h0 h1 hfind ha hqueue hall =>
    simp only [frameOf, hcmd, h0, h1, ne_eq, not_false_eq_true, and_self, if_true] at hx
    cases hx
    obtain ⟨hf, hd⟩ := found_addressee h ht hfind ha he
    obtain ⟨p, _, hp, _⟩ := hf.peer.resolve_left h0
    exact handled_writeAll h ht h0 hf (hd.connected h ht ha hf.isLocal hf.closing hp).1
      hqueue hall

end Receive

end PaxAdb.Sockets
