import PaxAdb.Multiplex
import PaxAdb.SocketIds

/-!
# Local sockets as ends of streams

Seen from the other end of the transport `link`, a local socket is the end of a stream, and the
server is a node that has an end for every id. Every move of a handler is something the node does by
itself.
-/

namespace PaxAdb.Sockets

open Function (update_self update_of_ne)
open ASocket Server Duplex

variable {X : Licence} {w w' : Server} {a b p : Addr} {s s' q : ASocket} {link t : TransportId}

def phaseAlone (link : TransportId) : Option ASocket → Phase
  | none => .gone
  | some s =>
      if s.closing then .gone
      else if s.peer = none ∧ s.transport = some link then .pending else .idle

def Trace.endIn (y : Trace) (phase : Phase) (reading : Bool) (queue : List (List Byte)) :
    End Byte := ⟨phase, reading, queue, y.got, y.put, y.accepted, y.acknowledged⟩

namespace Server

def endAt (link : TransportId) (w : Server) (a : Addr) : End Byte :=
  match (w.trace a).remoteId, w.socket a with
  | none, s => .blank (phaseAlone link s)
  | some _, none => (w.trace a).endIn .closed false []
  | some _, some s => (w.trace a).endIn (if s.closing then .closed else .connected)
      (!s.closing && s.fde.state.read) s.queue

def endOf (link : TransportId) (w : Server) (i : ℕ) : End Byte :=
  match w.owner i with
  | none => .blank .idle
  | some a => w.endAt link a

def partnerOf (w : Server) (i : ℕ) : Option ℕ := (w.owner i).bind fun a => (w.trace a).remoteId

def node (link : TransportId) (w : Server) (out : List (Frame ℕ Byte)) : Node ℕ Byte :=
  ⟨w.endOf link, w.partnerOf, out⟩

end Server

def frameOf (x : Packet) : Option (Frame ℕ Byte) :=
  match x.command with
  | .aOpen => if x.arg0 ≠ 0 ∧ x.arg1 = 0 then some (.opening x.arg0) else none
  | .aOkay => if x.arg0 ≠ 0 ∧ x.arg1 ≠ 0 then some (.talk x.arg0 x.arg1 .okay) else none
  | .aWrte => if x.arg0 ≠ 0 ∧ x.arg1 ≠ 0 then some (.talk x.arg0 x.arg1 (.data x.data)) else none
  | .aClse =>
      if x.arg1 = 0 then none
      else if x.arg0 = 0 then some (.refuse x.arg1) else some (.talk x.arg0 x.arg1 .close)
  | _ => none

def Server.Framed (link : TransportId) (w : Server) (out : List (Frame ℕ Byte)) : Prop :=
  (w.outbox link).map frameOf = out.map some

def Simulated (drop : Prop) (link : TransportId) (w w' : Server) : Prop :=
  ∀ out, w.Framed link out → ∃ out', w'.Framed link out' ∧
    Local drop (w.node link out) (w'.node link out')

variable {r i : ℕ}

section Ends

theorem Server.Framed.append {out fs : List (Frame ℕ Byte)} {xs : List Packet}
    (h : w.Framed link out) (ho : w'.outbox link = w.outbox link ++ xs)
    (hxs : xs.map frameOf = fs.map some) : w'.Framed link (out ++ fs) := by
  rw [Server.Framed, ho, List.map_append, List.map_append, hxs]
  exact congrArg (· ++ fs.map some) h

theorem endAt_congr (hs : w'.socket a = w.socket a) (ht : w'.trace a = w.trace a) :
    w'.endAt link a = w.endAt link a := by
  rw [endAt, endAt, hs, ht]

theorem endAt_blank (hr : (w.trace a).remoteId = none) :
    w.endAt link a = .blank (phaseAlone link (w.socket a)) := by
  rw [endAt, hr]

theorem endAt_connected (hr : (w.trace a).remoteId = some r) (ha : w.socket a = some s)
    (hc : s.closing = false) :
    w.endAt link a = (w.trace a).endIn .connected s.fde.state.read s.queue := by
  simp only [endAt, hr, ha, hc]
  rfl

theorem endAt_closing (hr : (w.trace a).remoteId = some r) (ha : w.socket a = some s)
    (hc : s.closing = true) : w.endAt link a = (w.trace a).endIn .closed false s.queue := by
  simp only [endAt, hr, ha, hc]
  rfl

theorem endAt_closed (hr : (w.trace a).remoteId = some r) (ha : w.socket a = none) :
    w.endAt link a = (w.trace a).endIn .closed false [] := by
  simp only [endAt, hr, ha]

theorem phaseAlone_closing (hc : s.closing = true) : phaseAlone link (some s) = .gone := if_pos hc

theorem phaseAlone_pending (hc : s.closing = false) (hp : s.peer = none)
    (ht : s.transport = some link) : phaseAlone link (some s) = .pending := by
  simp [phaseAlone, hc, hp, ht]

theorem phaseAlone_idle (hc : s.closing = false) (h : s.peer ≠ none ∨ s.transport ≠ some link) :
    phaseAlone link (some s) = .idle := by
  have hnot : ¬ (s.peer = none ∧ s.transport = some link) := fun hn =>
    h.elim (fun hp => hp hn.1) fun ht => ht hn.2
  simp [phaseAlone, hc, hnot]

theorem phaseAlone_congr (hc : s'.closing = s.closing) (hp : s'.peer = s.peer)
    (ht : s'.transport = s.transport) : phaseAlone link (some s') = phaseAlone link (some s) := by
  simp only [phaseAlone, hc, hp, ht]

structure Trace.Same (y y' : Trace) : Prop where
  remoteId : y'.remoteId = y.remoteId
  got : y'.got = y.got
  put : y'.put = y.put
  accepted : y'.accepted = y.accepted
  acknowledged : y'.acknowledged = y.acknowledged

structure ASocket.Same (s s' : ASocket) : Prop where
  closing : s'.closing = s.closing
  peer : s'.peer = s.peer
  transport : s'.transport = s.transport
  queue : s'.queue = s.queue
  read : s'.fde.state.read = s.fde.state.read

theorem endIn_congr {y y' : Trace} (h : y.Same y') : y'.endIn = y.endIn := by
  funext phase reading queue
  rw [Trace.endIn, h.got, h.put, h.accepted, h.acknowledged]
  rfl

theorem endAt_same (ha : w.socket a = some s) (ha' : w'.socket a = some s') (hs : s.Same s')
    (ht : (w.trace a).Same (w'.trace a)) : w'.endAt link a = w.endAt link a := by
  rw [endAt, endAt, ha, ha', ht.remoteId, endIn_congr ht]
  cases (w.trace a).remoteId with
  | none =>
    change End.blank _ = End.blank _
    rw [phaseAlone_congr hs.closing hs.peer hs.transport]
  | some r => simp only [hs.closing, hs.queue, hs.read]

theorem endAt_trace (hs : w'.socket a = w.socket a) (ht : (w.trace a).Same (w'.trace a)) :
    w'.endAt link a = w.endAt link a := by
  simp only [endAt, hs, ht.remoteId, endIn_congr ht]

theorem Trace.Same.refl (y : Trace) : y.Same y := ⟨rfl, rfl, rfl, rfl, rfl⟩

theorem endOf_owner (ho : w.owner i = some a) : w.endOf link i = w.endAt link a := by
  rw [endOf, ho]

theorem partnerOf_owner (ho : w.owner i = some a) : w.partnerOf i = (w.trace a).remoteId := by
  rw [partnerOf, ho]
  rfl

theorem endOf_none (ho : w.owner i = none) : w.endOf link i = .blank .idle := by
  rw [endOf, ho]

end Ends

variable {o : Option (Msg Byte)}

section Rules

variable {drop : Prop} {xs : List Packet}

theorem partnerOf_eq (ho : w'.owner = w.owner)
    (hr : ∀ b, (w'.trace b).remoteId = (w.trace b).remoteId) : w'.partnerOf = w.partnerOf := by
  funext i
  rw [partnerOf, partnerOf, ho]
  cases w.owner i with
  | none => rfl
  | some b => exact hr b

theorem act_owner {inp o : Option (Msg Byte)} (hk : w.Kept w') (hi : w.owner i = some a)
    (hact : Act (w.endAt link a) inp o (w'.endAt link a)) :
    Act (w.endOf link i) inp o (w'.endOf link i) := by
  rw [endOf_owner hi, endOf_owner (by rw [hk.owner, hi])]
  exact hact

theorem endOf_other {i j : ℕ} (ht : w.Tied link) (hk : w.Kept w') (hi : w.owner i = some a)
    (hends : ∀ j b, w.owner j = some b → b ≠ a → w'.endAt link b = w.endAt link b) (hj : j ≠ i) :
    w'.endOf link j = w.endOf link j := by
  cases ho : w.owner j with
  | none => rw [endOf_none ho, endOf_none (by rw [hk.owner, ho])]
  | some b =>
    rw [endOf_owner ho, endOf_owner (by rw [hk.owner, ho])]
    refine hends j b ho ?_
    rintro rfl
    exact hj ((ht.owns j b ho).bornId.symm.trans (ht.owns i b hi).bornId)

/-- Nothing happens to the streams, except that sockets without one may end. -/
theorem simulated_quiet (hk : w.Kept w')
    (hends : ∀ i b, w.owner i = some b → w'.endAt link b = w.endAt link b ∨
      w.endAt link b = .blank .idle ∧ w'.endAt link b = .blank .gone)
    (hr : ∀ b, (w'.trace b).remoteId = (w.trace b).remoteId)
    (hout : w'.outbox link = w.outbox link) : Simulated drop link w w' := by
  intro out hf
  refine ⟨out, ?_, .quiet (fun i => ?_) (partnerOf_eq hk.owner hr) rfl⟩
  · rw [Server.Framed, hout]
    exact hf
  · cases ho : w.owner i with
    | none =>
      refine .inl ?_
      change w'.endOf link i = w.endOf link i
      rw [endOf_none ho, endOf_none (by rw [hk.owner, ho])]
    | some b =>
      change w'.endOf link i = w.endOf link i ∨ w.endOf link i = _ ∧ w'.endOf link i = _
      have ho' : w'.owner i = some b := by rw [hk.owner, ho]
      rw [endOf_owner ho, endOf_owner ho']
      exact hends i b ho

theorem simulated_quiet_at (ho : w.OnlyAt link a [] w')
    (hend : w'.endAt link a = w.endAt link a ∨
      w.endAt link a = .blank .idle ∧ w'.endAt link a = .blank .gone)
    (hr : (w'.trace a).remoteId = (w.trace a).remoteId) : Simulated drop link w w' := by
  refine simulated_quiet ho.toKept (fun i b _ => ?_) (fun b => ?_) ?_
  · by_cases hb : b = a
    · subst hb
      exact hend
    · exact .inl (endAt_congr (ho.socket b hb) (ho.trace b hb))
  · by_cases hb : b = a
    · subst hb
      exact hr
    · rw [ho.trace b hb]
  · rw [ho.outbox, List.append_nil]

theorem simulated_act (ht : w.Tied link) (hk : w.Kept w')
    (hi : w.owner i = some a) (hact : Act (w.endAt link a) none o (w'.endAt link a))
    (hd : (w.endAt link a).phase = .pending → drop)
    (hends : ∀ j b, w.owner j = some b → b ≠ a → w'.endAt link b = w.endAt link b)
    (hrem : ∀ b, (w'.trace b).remoteId = (w.trace b).remoteId)
    (hr : o ≠ none → (w.trace a).remoteId = some r) (hout : w'.outbox link = w.outbox link ++ xs)
    (hxs : xs.map frameOf = (o.toList.map (Frame.talk i r)).map some) :
    Simulated drop link w w' := by
  intro out hf
  refine ⟨_, hf.append hout hxs, .act (i := i) (r := r) (o := o) (act_owner hk hi hact) ?_
    (fun j hj => endOf_other ht hk hi hends hj) (partnerOf_eq hk.owner hrem)
    (fun ho => (partnerOf_owner hi).trans (hr ho)) rfl⟩
  change (w.endOf link i).phase = .pending → drop
  rw [endOf_owner hi]
  exact hd

theorem simulated_act_at (ht : w.Tied link) (ho : w.OnlyAt link a xs w') (hi : w.owner i = some a)
    (hact : Act (w.endAt link a) none o (w'.endAt link a))
    (hd : (w.endAt link a).phase = .pending → drop)
    (hrem : (w'.trace a).remoteId = (w.trace a).remoteId)
    (hr : o ≠ none → (w.trace a).remoteId = some r)
    (hxs : xs.map frameOf = (o.toList.map (Frame.talk i r)).map some) :
    Simulated drop link w w' := by
  refine simulated_act ht ho.toKept hi hact hd
    (fun j b _ hb => endAt_congr (ho.socket b hb) (ho.trace b hb)) (fun b => ?_) hr ho.outbox hxs
  by_cases hb : b = a
  · subst hb
    exact hrem
  · rw [ho.trace b hb]

end Rules

section Moves

theorem remoteId_aside (ht : w.Tied link) (ha : w.socket a = some s) (hloc : s.IsLocal)
    (hp : w.Aside s) : (w.trace a).remoteId = none := by
  obtain ⟨p, q, hp, hq, hrem⟩ := hp
  exact (ht.at_ a s ha hloc).aside p q hp hq hrem

theorem owner_id (ht : w.Tied link) (ha : w.socket a = some s) (hloc : s.IsLocal)
    (hc : s.closing = false) : w.owner s.id = some a := by
  have htied := ht.at_ a s ha hloc
  rw [htied.id hc]
  exact htied.owner

theorem endAt_blank_same (hr : (w.trace a).remoteId = none)
    (hr' : (w'.trace a).remoteId = none)
    (hp : phaseAlone link (w'.socket a) = phaseAlone link (w.socket a)) :
    w'.endAt link a = w.endAt link a := by
  rw [endAt_blank hr, endAt_blank hr', hp]

theorem Trace.Same.statusOnly (h : StatusOnly a w w') (b : Addr) :
    (w.trace b).Same (w'.trace b) := by
  have hput := put_statusOnly h b
  by_cases hb : b = a
  · subst hb
    obtain ⟨l, ws, _, rfl⟩ := h
    exact ⟨by simp, by simp, hput, by simp, by simp⟩
  · rw [trace_statusOnly_ne h hb]
    exact .refl _

theorem Trace.Same.markFailed (w : Server) (a b : Addr) :
    (w.trace b).Same ((w.markFailed a).trace b) := by
  by_cases hb : b = a
  · subst hb
    have htr : (w.markFailed b).trace b = { w.trace b with failed := true } :=
      update_self _ _ _
    rw [htr]
    exact ⟨rfl, rfl, rfl, rfl, rfl⟩
  · have htr : (w.markFailed a).trace b = w.trace b := update_of_ne hb _ _
    rw [htr]
    exact .refl _

/-- The socket at `a` is in no stream, and is changed without getting into one. -/
theorem simulated_aside {drop : Prop} (ho : w.OnlyAt link a [] w')
    (ha : w.socket a = some s) (hr : (w.trace a).remoteId = none)
    (hr' : (w'.trace a).remoteId = (w.trace a).remoteId)
    (ha' : w'.socket a = some s') (hc : s'.closing = s.closing) (hp : s'.peer = s.peer)
    (htr : s'.transport = s.transport) : Simulated drop link w w' := by
  refine simulated_quiet_at ho (.inl (endAt_blank_same hr (hr'.trans hr) ?_)) hr'
  rw [ha, ha']
  exact phaseAlone_congr hc hp htr

theorem remoteId_wroteData (w : Server) (a : Addr) (bytes : List Byte)
    (writes : List WriteResult) :
    ((w.wroteData a bytes writes).trace a).remoteId = (w.trace a).remoteId := by
  rw [trace_wroteData]

theorem Events.without_fdeRead (x : Events) : (x.without .fdeRead).read = false := by
  simp [Events.without, Events.fdeRead]

theorem Events.without_fdeWrite (x : Events) : (x.without .fdeWrite).read = x.read := by
  simp [Events.without, Events.fdeWrite]

theorem simulated_talk {drop : Prop} {xs : List Packet}
    (ht : w.Tied link) (ho : w.OnlyAt link a xs w') (ha : w.socket a = some s) (hloc : s.IsLocal)
    (hr : (w.trace a).remoteId = some r) (hr' : (w'.trace a).remoteId = some r)
    (hc : s.closing = false) (ha' : w'.socket a = some s') (hc' : s'.closing = false)
    (hact : Act ((w.trace a).endIn .connected s.fde.state.read s.queue) none o
      ((w'.trace a).endIn .connected s'.fde.state.read s'.queue))
    (hxs : xs.map frameOf = (o.toList.map (Frame.talk s.id r)).map some) :
    Simulated drop link w w' := by
  refine simulated_act_at ht ho (owner_id ht ha hloc hc) ?_ ?_ (hr'.trans hr.symm) (fun _ => hr) hxs
  · rw [endAt_connected hr ha hc, endAt_connected hr' ha' hc']
    exact hact
  · rw [endAt_connected hr ha hc]
    intro hp
    cases hp

theorem simulated_rest {drop : Prop} {queue : List (List Byte)} (ht : w.Tied link)
    (ho : w.OnlyAt link a [] w') (ha : w.socket a = some s) (hloc : s.IsLocal)
    (hr : (w.trace a).remoteId = some r) (hr' : (w'.trace a).remoteId = some r)
    (hc : s.closing = true) (ha' : w'.endAt link a = (w'.trace a).endIn .closed false queue)
    (hact : Act ((w.trace a).endIn .closed false s.queue) none none
      ((w'.trace a).endIn .closed false queue)) : Simulated drop link w w' := by
  have hi := (ht.at_ a s ha hloc).owner
  refine simulated_act_at (o := none) ht ho hi ?_ ?_ (hr'.trans hr.symm) (fun _ => hr) rfl
  · rw [endAt_closing hr ha hc, ha']
    exact hact
  · rw [endAt_closing hr ha hc]
    intro hp
    cases hp

section Acts

variable (ht : w.Tied link) (h : Graph w) (ha : w.socket a = some s) (hloc : s.IsLocal)

include ht h ha hloc

theorem simulated_feed {drop : Prop} {bytes : List Byte} (hp : s.peer = some p)
    (hq : w.socket p = some q) (hrem : q.IsRemote) (hread : s.fde.state.read = true) :
    Simulated drop link w (w.fed a s q link bytes) := by
  have hc := (h.localSane ha hloc).closing_of_peer (by simp [hp])
  have hr := ((ht.at_ a s ha hloc).remote p q hp hq hrem).1
  have hqid := ((h.otherSane hq hrem.not_local).remote hrem).2.2.2.2
  have hsid := (h.localSane ha hloc).id hc
  have htr : (w.fed a s q link bytes).trace a =
      { w.trace a with got := (w.trace a).got ++ bytes } := by
    rw [fed, paused, trace_fdeventSet]
    exact update_self _ _ _
  refine simulated_talk (o := some (.data bytes)) ht (.fed w a s q bytes) ha hloc hr
    (by rw [htr, hr])
    hc (fdeventSet_socket _ _ _ _) hc ?_ ?_
  · rw [htr, fdeAfter_state, Events.without_fdeRead]
    exact Act.feed (e := (w.trace a).endIn .connected s.fde.state.read s.queue) rfl hread bytes
  · simp [frameOf, hsid, hqid]

omit ht h ha hloc in
theorem endIn_wrote {y : Trace} {bytes : List Byte} (phase : Phase) (reading : Bool)
    (queue : List (List Byte)) :
    ({ y with output := y.output ++ [(.data, bytes)] } : Trace).endIn phase reading queue =
      { y.endIn phase reading queue with put := y.put ++ bytes } := by
  simp [Trace.endIn, Trace.put]

omit h in
theorem simulated_drain {drop : Prop} {queue : List (List Byte)} {bytes : List Byte}
    (hne : queue ≠ []) (hlen : queue.length ≤ s.queue.length)
    (hflat : s.queue.flatten = bytes ++ queue.flatten) (writes : List WriteResult) :
    Simulated drop link w ((w.wroteData a bytes writes).store a { s with queue := queue }) := by
  have hsock := socket_store (w.wroteData a bytes writes) a { s with queue := queue }
  have ho : w.OnlyAt link a [] ((w.wroteData a bytes writes).store a { s with queue := queue }) :=
    (OnlyAt.wroteData w a bytes writes).trans (.store _ _ _)
  have htr : ((w.wroteData a bytes writes).store a { s with queue := queue }).trace a =
      { w.trace a with output := (w.trace a).output ++ [(.data, bytes)] } :=
    trace_wroteData w a bytes writes
  generalize (w.wroteData a bytes writes).store a { s with queue := queue } = w' at hsock ho htr ⊢
  cases hr : (w.trace a).remoteId with
  | none => exact simulated_aside ho ha hr (by rw [htr]) hsock rfl rfl rfl
  | some r =>
    have hr' : (w'.trace a).remoteId = some r := by rw [htr, hr]
    by_cases hc : s.closing = true
    · refine simulated_rest ht ho ha hloc hr hr' hc (endAt_closing hr' hsock hc) ?_
      rw [htr, endIn_wrote]
      exact Act.flush (e := (w.trace a).endIn .closed false s.queue) rfl hlen hflat
    · have hc' : s.closing = false := Bool.eq_false_iff.mpr hc
      refine simulated_talk (o := none) ht ho ha hloc hr hr' hc' hsock hc' ?_ rfl
      rw [htr, endIn_wrote]
      exact Act.drain (e := (w.trace a).endIn .connected s.fde.state.read s.queue) rfl hne hlen
        hflat

theorem simulated_answer {drop : Prop} (hp : s.peer = some p) (hq : w.socket p = some q)
    (hrem : q.IsRemote) (hne : s.queue ≠ []) (writes : List WriteResult) :
    Simulated drop link w ((((w.wroteData a s.queue.flatten writes).emptied a s).acknowledge
      a).sendPacket ⟨.aOkay, s.id, q.id, []⟩ link) := by
  have hc := (h.localSane ha hloc).closing_of_peer (by simp [hp])
  have hr := ((ht.at_ a s ha hloc).remote p q hp hq hrem).1
  have hqid := ((h.otherSane hq hrem.not_local).remote hrem).2.2.2.2
  have hsid := (h.localSane ha hloc).id hc
  have htr : (((((w.wroteData a s.queue.flatten writes).emptied a s).acknowledge a).sendPacket
      ⟨.aOkay, s.id, q.id, []⟩ link).trace a) =
      { w.trace a with
        output := (w.trace a).output ++ [(.data, s.queue.flatten)]
        acknowledged := (w.trace a).acknowledged + 1 } := by
    simp [sendPacket, acknowledge, setTrace, trace_emptied, trace_wroteData]
  refine simulated_talk (o := some .okay) ht ((((OnlyAt.wroteData w a _ writes).trans
    (.emptied _ a s)).trans (.acknowledge _ a)).trans (.sendPacket _ a _)) ha hloc hr
    (by rw [htr, hr]) hc (emptied_socket _ a s) hc ?_ ?_
  · rw [htr, fdeAfter_state, Events.without_fdeWrite]
    convert Act.answer (e := (w.trace a).endIn .connected s.fde.state.read s.queue) rfl hne using 1
    simp [Trace.endIn, Trace.put]
  · simp [frameOf, hsid, hqid]

omit h in
theorem simulated_flush {drop : Prop} (hc : s.closing = true) (writes : List WriteResult) :
    Simulated drop link w (((w.wroteData a s.queue.flatten writes).store a
      { s with queue := [] }).finished a { s with queue := [] }) := by
  have ho : w.OnlyAt link a [] (((w.wroteData a s.queue.flatten writes).store a
      { s with queue := [] }).finished a { s with queue := [] }) :=
    ((OnlyAt.wroteData w a _ writes).trans (.store _ _ _)).trans (.finished _ _ _)
  have hsock := flushed_socket ((w.wroteData a s.queue.flatten writes).store a
    { s with queue := [] }) a s
  have htr : (((w.wroteData a s.queue.flatten writes).store a
      { s with queue := [] }).finished a { s with queue := [] }).trace a =
      { w.trace a with output := (w.trace a).output ++ [(.data, s.queue.flatten)] } := by
    rw [trace_finished]
    exact trace_wroteData w a _ writes
  generalize ((w.wroteData a s.queue.flatten writes).store a { s with queue := [] }).finished a
    { s with queue := [] } = w' at ho hsock htr ⊢
  cases hr : (w.trace a).remoteId with
  | none =>
    refine simulated_quiet_at ho (.inl (endAt_blank_same hr (by rw [htr, hr]) ?_)) (by rw [htr])
    rw [ha, hsock, phaseAlone_closing hc]
    rfl
  | some r =>
    have hr' : (w'.trace a).remoteId = some r := by rw [htr, hr]
    refine simulated_rest ht ho ha hloc hr hr' hc (endAt_closed hr' hsock) ?_
    rw [htr, endIn_wrote]
    exact Act.flush (e := (w.trace a).endIn .closed false s.queue) rfl (Nat.zero_le _)
      (by simp [Trace.endIn])

omit h in
theorem simulated_pause {drop : Prop} (hp : s.peer = none ∨ w.Aside s) :
    Simulated drop link w (w.paused a s) := by
  have htr : (w.paused a s).trace = w.trace := trace_fdeventSet _ _ _ _
  have hsock : (w.paused a s).socket a = _ := fdeventSet_socket w a s _
  have ho : w.OnlyAt link a [] (w.paused a s) := .fdeventSet w a s _
  cases hr : (w.trace a).remoteId with
  | none => exact simulated_aside ho ha hr (by rw [htr]) hsock rfl rfl rfl
  | some r =>
    have hc : s.closing = true := by
      by_contra hc
      rcases hp with hp | hp
      · cases hr.symm.trans (ht.virgin_alone ha hloc hp (Bool.eq_false_iff.mpr hc)).remoteId
      · cases hr.symm.trans (remoteId_aside ht ha hloc hp)
    refine simulated_quiet_at ho (.inl ?_) (by rw [htr])
    rw [endAt_closing hr ha hc, endAt_closing (by rw [htr, hr]) hsock hc, htr]

end Acts

end Moves

section Close

section Closed

variable (hcl : Closes a w w') (h : Graph w) (ha : w.socket a = some s)

include hcl h ha

omit h ha in
theorem Closes.same (b : Addr) : (w.trace b).Same (w'.trace b) := by
  cases hcl with
  | alone _ _ _ hs =>
    rw [trace_finished]
    exact .statusOnly hs b
  | other =>
    rw [trace_closedWith, trace_shutdownFor]
    exact .refl _
  | both =>
    rw [trace_closedBoth]
    exact .refl _

omit h in
theorem Closes.self : w'.socket a = none ∧ (s.closing = true ∨ s.queue = []) ∨
      ∃ x, w'.socket a = some x ∧ x.closing = true ∧ x.queue = s.queue ∧ s.closing = false := by
  have hfinished : ∀ (v : Server) (y : ASocket), y.closing = s.closing → y.queue = s.queue →
      w' = v.finished a y → w'.socket a = none ∧ (s.closing = true ∨ s.queue = []) ∨
        ∃ x, w'.socket a = some x ∧ x.closing = true ∧ x.queue = s.queue ∧ s.closing = false := by
    rintro v y hc hq rfl
    rw [finished_self, hc, hq]
    split
    next hgone => exact .inl ⟨rfl, hgone⟩
    next hgone =>
      exact .inr ⟨_, rfl, rfl, hq, Bool.eq_false_iff.mpr fun hc' => hgone (.inl hc')⟩
  cases hcl with
  | alone ha' =>
    cases ha.symm.trans ha'
    exact hfinished _ s.plain rfl rfl rfl
  | other ha' | both ha' =>
    cases ha.symm.trans ha'
    exact hfinished _ { s with peer := none } rfl rfl rfl

theorem Closes.gone (hb : b = a ∨ s.peer = some b) (hr : (w.trace b).remoteId = none) :
    w'.endAt link b = .blank .gone := by
  rw [endAt_blank ((hcl.same b).remoteId.trans hr)]
  cases hs : w'.socket b with
  | none => rfl
  | some x =>
    obtain ⟨y, _, hrem⟩ := hcl.left h ha hb hs
    rw [phaseAlone_closing hrem.closing]

omit h in
theorem Closes.closed (hr : (w.trace a).remoteId = some r) (hc : s.closing = false) :
    w'.endAt link a = (w.trace a).endIn .closed false s.queue := by
  have hr' := (hcl.same a).remoteId.trans hr
  rw [← endIn_congr (hcl.same a)]
  rcases hcl.self ha with ⟨hnone, hq⟩ | ⟨x, hx, hxc, hxq, _⟩
  · rw [endAt_closed hr' hnone, hq.resolve_left (by simp [hc])]
  · rw [endAt_closing hr' hx hxc, hxq]

omit hcl h ha in
theorem outbox_finished (w : Server) (a : Addr) (s : ASocket) :
    (w.finished a s).outbox = w.outbox := by
  unfold finished
  split <;> rfl

omit hcl h ha in
theorem outbox_closedWith (w : Server) (a p : Addr) (s q : ASocket) :
    (w.closedWith a s p q).outbox = w.outbox := by
  rw [closedWith, outbox_finished]
  change (w.dispose p q).outbox = w.outbox
  unfold dispose
  split <;> rfl

theorem Closes.outbox (hp : ∀ p q, s.peer = some p → w.socket p = some q → ¬ q.IsRemote) :
    w'.outbox = w.outbox := by
  cases hcl with
  | alone _ _ _ hs =>
    rw [outbox_finished]
    obtain ⟨l, ws, _, rfl⟩ := hs
    rfl
  | other ha' _ hp' hq hother =>
    cases ha.symm.trans ha'
    rw [outbox_closedWith, shutdownFor_eq]
    have hsane := h.otherSane hq hother
    have hrem := hp _ _ hp' hq
    cases he : ASocket.enqueue _ with
    | localSocketEnqueue => exact absurd he hother
    | remoteSocketEnqueue => exact absurd he hrem
    | smartSocketEnqueue => exact (hsane.smart he).2.1
    | deviceTrackerEnqueue => exact (hsane.tracker he).2.1
  | both =>
    rw [closedBoth, outbox_finished]
    exact outbox_finished _ _ _

theorem Closes.outbox_remote (hp : s.peer = some p) (hq : w.socket p = some q) (hrem : q.IsRemote)
    (hqt : q.transport = some t) : w'.outbox t = w.outbox t ++ [⟨.aClse, s.id, q.id, []⟩] := by
  cases hcl with
  | alone ha' _ hp' =>
    cases ha.symm.trans ha'
    cases hp.symm.trans hp'
  | other ha' _ hp' hq' =>
    cases ha.symm.trans ha'
    cases hp.symm.trans hp'
    cases hq.symm.trans hq'
    have hshut := ((h.otherSane hq hrem.not_local).remote hrem).2.1
    rw [outbox_closedWith, shutdownFor, hshut, hqt]
    exact update_self _ _ _
  | both ha' _ hp' hq' hloc =>
    cases ha.symm.trans ha'
    cases hp.symm.trans hp'
    cases hq.symm.trans hq'
    exact absurd hloc hrem.not_local

omit h in
theorem Closes.others (hb : b ≠ a) (hp : s.peer ≠ some b) : w'.endAt link b = w.endAt link b :=
  endAt_trace (hcl.frame ha hb hp) (hcl.same b)

end Closed

variable {drop : Prop}

section ClosedActs

variable (hcl : Closes a w w') (h : Graph w) (ht : w.Tied link) (ha : w.socket a = some s)

include hcl h ht ha

theorem Closes.simulated_idle (hloc : s.IsLocal) (hr : (w.trace a).remoteId = none)
    (hphase : phaseAlone link (some s) = .idle ∨ phaseAlone link (some s) = .gone)
    (hp : ∀ p q, s.peer = some p → w.socket p = some q → ¬ q.IsRemote) :
    Simulated drop link w w' := by
  refine simulated_quiet hcl.kept (fun i b ho => ?_) (fun b => (hcl.same b).remoteId)
    (by rw [hcl.outbox h ha hp])
  by_cases hb : b = a
  · subst hb
    rw [hcl.gone h ha (.inl rfl) hr, endAt_blank hr, ha]
    rcases hphase with he | he <;> rw [he]
    · exact .inr ⟨rfl, rfl⟩
    · exact .inl rfl
  by_cases hpb : s.peer = some b
  · -- the peer of a socket that is in no stream is in none itself
    obtain ⟨_, y, hy, hlink⟩ := h.peer_spec ha hpb
    have hyloc := (ht.owns i b ho).isLocal y hy
    have hyc := (h.localSane hy hyloc).closing_of_peer (by simp [hlink.peer])
    have hyr : (w.trace b).remoteId = none := by
      refine (ht.at_ b y hy hyloc).aside a s hlink.peer ha fun hrem => ?_
      exact absurd (hloc.symm.trans hrem) (by simp)
    refine .inr ⟨?_, hcl.gone h ha (.inr hpb) hyr⟩
    rw [endAt_blank hyr, hy, phaseAlone_idle hyc (.inl (by simp [hlink.peer]))]
  · exact .inl (hcl.others ha hb hpb)

theorem Closes.simulated_act (hloc : s.IsLocal) {xs : List Packet}
    (hp : ∀ p q, s.peer = some p → w.socket p = some q → ¬ q.IsLocal)
    (hact : Act (w.endAt link a) none o (w'.endAt link a))
    (hd : (w.endAt link a).phase = .pending → drop) (hr : o ≠ none → (w.trace a).remoteId = some r)
    (hout : w'.outbox link = w.outbox link ++ xs)
    (hxs : xs.map frameOf = (o.toList.map (Frame.talk (w.trace a).bornId r)).map some) :
    Simulated drop link w w' := by
  refine Sockets.simulated_act ht hcl.kept (ht.at_ a s ha hloc).owner hact hd
    (fun j b ho hb => hcl.others ha hb fun hpb => ?_) (fun b => (hcl.same b).remoteId) hr hout hxs
  obtain ⟨_, y, hy, _⟩ := h.peer_spec ha hpb
  exact hp b y hpb hy ((ht.owns j b ho).isLocal y hy)

theorem Closes.simulated (hloc : s.IsLocal)
    (hd : s.closing = false → s.peer = none → drop) : Simulated drop link w w' := by
  cases hp : s.peer with
  | none =>
    have hno : ∀ p, s.peer ≠ some p := fun p hp' => by cases hp.symm.trans hp'
    have hout : w'.outbox link = w.outbox link ++ [] := by
      rw [hcl.outbox h ha fun p q hp' => absurd hp' (hno p), List.append_nil]
    by_cases hc : s.closing = true
    · cases hr : (w.trace a).remoteId with
      | none =>
        exact hcl.simulated_idle h ht ha hloc hr (.inr (phaseAlone_closing hc))
          fun p q hp' => absurd hp' (hno p)
      | some r =>
        refine hcl.simulated_act (o := none) (r := r) h ht ha hloc
          (fun p q hp' => absurd hp' (hno p)) ?_ ?_ (fun _ => hr) hout rfl
        · have hnone : w'.socket a = none := by
            rcases hcl.self ha with hself | ⟨x, _, _, _, hc'⟩
            · exact hself.1
            · exact absurd (hc.symm.trans hc') (by simp)
          rw [endAt_closing hr ha hc, endAt_closed ((hcl.same a).remoteId.trans hr) hnone,
            endIn_congr (hcl.same a)]
          exact Act.discard (e := (w.trace a).endIn .closed false s.queue) rfl
        · rw [endAt_closing hr ha hc]
          intro hpend
          cases hpend
    · have hc' : s.closing = false := Bool.eq_false_iff.mpr hc
      have hr := (ht.virgin_alone ha hloc hp hc').remoteId
      by_cases hlink : s.transport = some link
      · have hend : w.endAt link a = .blank .pending := by
          rw [endAt_blank hr, ha, phaseAlone_pending hc' hp hlink]
        refine hcl.simulated_act (o := none) (r := 0) h ht ha hloc
          (fun p q hp' => absurd hp' (hno p)) ?_ (fun _ => hd hc' hp)
            (fun ho => absurd rfl ho) hout
          rfl
        rw [hend, hcl.gone h ha (.inl rfl) hr]
        exact .drop
      · exact hcl.simulated_idle h ht ha hloc hr (.inl (phaseAlone_idle hc' (.inr hlink)))
          fun p q hp' => absurd hp' (hno p)
  | some p =>
    obtain ⟨_, q, hq, _⟩ := h.peer_spec ha hp
    have hc := (h.localSane ha hloc).closing_of_peer (by simp [hp])
    have honly : ∀ p' q', s.peer = some p' → w.socket p' = some q' → q' = q := by
      intro p' q' hp' hq'
      cases hp.symm.trans hp'
      exact (Option.some.inj (hq.symm.trans hq')).symm
    by_cases hrem : q.IsRemote
    · obtain ⟨hr, hqt⟩ := (ht.at_ a s ha hloc).remote p q hp hq hrem
      have hqid := ((h.otherSane hq hrem.not_local).remote hrem).2.2.2.2
      have hsid := (h.localSane ha hloc).id hc
      have hborn := (ht.at_ a s ha hloc).id hc
      refine hcl.simulated_act (o := some .close) (r := q.id) h ht ha hloc
        (fun p' q' hp' hq' => ?_) ?_ ?_ (fun _ => hr) (hcl.outbox_remote h ha hp hq hrem hqt) ?_
      · rw [honly p' q' hp' hq']
        exact hrem.not_local
      · rw [endAt_connected hr ha hc, hcl.closed ha hr hc]
        exact Act.close (e := (w.trace a).endIn .connected s.fde.state.read s.queue) rfl
          (.inl rfl)
      · rw [endAt_connected hr ha hc]
        intro hpend
        cases hpend
      · simp [frameOf, hsid, hqid, ← hborn]
    · have hr := (ht.at_ a s ha hloc).aside p q hp hq hrem
      refine hcl.simulated_idle h ht ha hloc hr
        (.inl (phaseAlone_idle hc (.inl (by simp [hp])))) fun p' q' hp' hq' => ?_
      rw [honly p' q' hp' hq']
      exact hrem

end ClosedActs

end Close

section Open

variable {drop : Prop}

theorem endAt_born (w : Server) : w.born.endAt link w.nextAddr = .blank .idle := by
  have htr : (w.born.trace w.nextAddr).remoteId = none := by
    rw [show w.born.trace w.nextAddr = { Trace.empty with bornId := w.localSocketNextId } from
      update_self _ _ _]
    rfl
  have hsock : w.born.socket w.nextAddr = some w.freshLocal := socket_store w _ _
  rw [endAt_blank htr, hsock]
  rfl

theorem owner_nextId (ht : w.Tied link) (hlt : w.created + 1 < 2 ^ 32) :
    w.owner w.localSocketNextId = none := by
  cases ho : w.owner w.localSocketNextId with
  | none => rfl
  | some b =>
    have hle := (ht.owns _ b ho).le
    rw [ht.nextId hlt] at hle
    omega

theorem node_born (ht : w.Tied link) (hi : i ≠ w.localSocketNextId) :
    w.born.endOf link i = w.endOf link i ∧ w.born.partnerOf i = w.partnerOf i := by
  have hown : w.born.owner i = w.owner i := update_of_ne hi _ _
  cases ho : w.owner i with
  | none =>
    have ho' := hown.trans ho
    rw [endOf_none ho, endOf_none ho', partnerOf, partnerOf, ho, ho']
    exact ⟨rfl, rfl⟩
  | some b =>
    have ho' := hown.trans ho
    have hb := (ht.owns i b ho).old.ne
    have htr : w.born.trace b = w.trace b := update_of_ne hb _ _
    rw [endOf_owner ho, endOf_owner ho', partnerOf_owner ho, partnerOf_owner ho', htr]
    exact ⟨endAt_congr (socket_store_ne w _ hb) htr, rfl⟩

theorem simulated_born (ht : w.Tied link) (hlt : w.created + 1 < 2 ^ 32) :
    Simulated drop link w w.born := by
  have hnone := owner_nextId ht hlt
  have hsome : w.born.owner w.localSocketNextId = some w.nextAddr := update_self _ _ _
  have htr : w.born.trace w.nextAddr = { Trace.empty with bornId := w.localSocketNextId } :=
    update_self _ _ _
  refine fun out hf => ⟨out, hf, .quiet (fun i => .inl ?_) (funext fun i => ?_) rfl⟩
  · change w.born.endOf link i = w.endOf link i
    by_cases hi : i = w.localSocketNextId
    · rw [hi, endOf_none hnone, endOf_owner hsome, endAt_born]
    · exact (node_born ht hi).1
  · change w.born.partnerOf i = w.partnerOf i
    by_cases hi : i = w.localSocketNextId
    · rw [hi, partnerOf_owner hsome, htr, partnerOf, hnone]
      rfl
    · exact (node_born ht hi).2

/-- Sockets that are in no stream are connected with others that are not local. -/
theorem simulated_attach (ht : w.Tied link) (ha : w.socket a = some s)
    (hloc : s.IsLocal) (hp : s.peer = none) (hc : s.closing = false) (hst : s.transport = none)
    (hk : w.Kept w') (hsock : w'.socket = (w.attached a s q).socket) (htr : w'.trace = w.trace)
    (hout : w'.outbox = w.outbox) : Simulated drop link w w' := by
  have hr := (ht.virgin_alone ha hloc hp hc).remoteId
  refine simulated_quiet hk (fun i b ho => .inl ?_) (fun b => by rw [htr]) (by rw [hout])
  by_cases hb : b = a
  · subst hb
    refine endAt_blank_same hr (by rw [htr]; exact hr) ?_
    have hsa : w'.socket b = some { s.plain with peer := some w.nextAddr } := by
      rw [hsock]
      exact socket_store _ _ _
    rw [ha, hsa, phaseAlone_idle hc (.inr (by simp [hst])),
      phaseAlone_idle (s := { s.plain with peer := some w.nextAddr }) hc (.inl (by simp))]
  · refine endAt_congr ?_ (by rw [htr])
    rw [hsock]
    exact (socket_store_ne _ _ hb).trans (socket_store_ne _ _ (ht.owns i b ho).old.ne)

theorem simulated_join (ht : w.Tied link) (ha : w.socket a = some s) (hb : w.socket b = some q)
    (hloc : s.IsLocal) (hqloc : q.IsLocal) (hne : a ≠ b) (hp : s.peer = none) (hqp : q.peer = none)
    (hc : s.closing = false) (hqc : q.closing = false) (hst : s.transport = none)
    (hqt : q.transport = none) : Simulated drop link w (w.joined a s b q) := by
  have hr := (ht.virgin_alone ha hloc hp hc).remoteId
  have hqr := (ht.virgin_alone hb hqloc hqp hqc).remoteId
  have hsa : (w.joined a s b q).socket a = some { s with peer := some b } :=
    (socket_store_ne _ _ hne).trans (socket_store _ _ _)
  have hsb : (w.joined a s b q).socket b = some { q with peer := some a } := socket_store _ _ _
  refine simulated_quiet ⟨rfl, rfl, rfl, rfl, le_rfl, fun _ => rfl⟩ (fun i c _ => .inl ?_)
    (fun _ => rfl) rfl
  by_cases hca : c = a
  · subst hca
    refine endAt_blank_same hr hr ?_
    rw [ha, hsa, phaseAlone_idle hc (.inr (by simp [hst])),
      phaseAlone_idle (s := { s with peer := some b }) hc (.inl (by simp))]
  by_cases hcb : c = b
  · subst hcb
    refine endAt_blank_same hqr hqr ?_
    rw [hb, hsb, phaseAlone_idle hqc (.inr (by simp [hqt])),
      phaseAlone_idle (s := { q with peer := some a }) hqc (.inl (by simp))]
  · exact endAt_congr ((socket_store_ne _ _ hcb).trans (socket_store_ne _ _ hca)) rfl

theorem simulated_detach (ht : w.Tied link) (h : Graph w) (ha : w.socket a = some s)
    (hsm : s.IsSmart) (hp : s.peer = some b) (hq : w.socket b = some q) :
    Simulated drop link w (w.detached a b q) := by
  have hab := h.linked ha hp hq
  have hqloc : q.IsLocal := h.isLocal_of_peer ha hp hq hsm.not_local
  have hqc := (h.localSane hq hqloc).closing_of_peer (by simp [hab.peer])
  have hqt := (hab.smart hsm).2
  have hqr := ((ht.at_ b q hq hqloc).virgin hqc (.inr ⟨a, s, hab.peer, ha, hsm⟩)).remoteId
  have hne : b ≠ a := (h.peer_spec ha hp).1
  have hsb : (w.detached a b q).socket b = some { q with peer := none } :=
    (update_of_ne hne _ _).trans (socket_store _ _ _)
  refine simulated_quiet ⟨rfl, rfl, rfl, rfl, le_rfl, fun _ => rfl⟩ (fun i c ho => .inl ?_)
    (fun _ => rfl) rfl
  by_cases hcb : c = b
  · subst hcb
    refine endAt_blank_same hqr hqr ?_
    rw [hq, hsb, phaseAlone_idle hqc (.inr (by simp [hqt])),
      phaseAlone_idle (s := { q with peer := none }) hqc (.inr (by simp [hqt]))]
  · have hca : c ≠ a := by
      rintro rfl
      exact hsm.not_local ((ht.owns i c ho).isLocal s ha)
    exact endAt_congr ((update_of_ne hca _ _).trans (socket_store_ne _ _ hcb)) rfl

theorem simulated_ask (ht : w.Tied link) (h : Graph w) (ha : w.socket a = some s)
    (hloc : s.IsLocal) (hp : s.peer = none) (hc : s.closing = false) (hst : s.transport = none)
    (t : TransportId) (destination : List Byte) :
    Simulated drop link w (w.asked a s t destination) := by
  have hr := (ht.virgin_alone ha hloc hp hc).remoteId
  have hr' : ((w.asked a s t destination).trace a).remoteId = none := hr
  have hsock : (w.asked a s t destination).socket a = some { s with transport := some t } :=
    socket_store _ _ _
  have hidle : w.endAt link a = .blank .idle := by
    rw [endAt_blank hr, ha, phaseAlone_idle hc (.inr (by simp [hst]))]
  by_cases htl : t = link
  · subst htl
    have hsid := (h.localSane ha hloc).id hc
    have hi := owner_id ht ha hloc hc
    have ho : w.OnlyAt t a [⟨.aOpen, s.id, 0, destination ++ [0]⟩] (w.asked a s t destination) :=
      (OnlyAt.store w a _).trans (.sendPacket _ a _)
    have hi' : (w.asked a s t destination).owner s.id = some a := hi
    refine fun out hf => ⟨out ++ [.opening s.id], hf.append ho.outbox ?_,
      .ask (i := s.id) ?_ ?_ (fun j hj => ?_) rfl rfl⟩
    · simp [frameOf, hsid]
    · exact (endOf_owner hi).trans hidle
    · refine (endOf_owner hi').trans ?_
      rw [endAt_blank hr', hsock,
        phaseAlone_pending (s := { s with transport := some t }) hc hp rfl]
    · change (w.asked a s t destination).endOf t j = w.endOf t j
      cases hj' : w.owner j with
      | none =>
        have hj'' : (w.asked a s t destination).owner j = none := hj'
        rw [endOf_none hj', endOf_none hj'']
      | some b =>
        have hj'' : (w.asked a s t destination).owner j = some b := hj'
        have hb : b ≠ a := by
          rintro rfl
          exact hj ((ht.owns j b hj').bornId.symm.trans (ht.owns s.id b hi).bornId)
        rw [endOf_owner hj', endOf_owner hj'']
        exact endAt_congr (ho.socket b hb) (ho.trace b hb)
  · refine simulated_quiet_at ((OnlyAt.store w a _).trans (.sendPacket_ne _ a _ htl))
      (.inl ?_) rfl
    rw [hidle, endAt_blank hr', hsock,
      phaseAlone_idle (s := { s with transport := some t }) hc (.inr (by simp [htl]))]

end Open

/-- Every move is something a node can do by itself. -/
theorem Move.simulated (hm : Move X w w') (h : Graph w) (ht : w.Tied link)
    (hlt : w'.created < 2 ^ 32) : Simulated X.drop link w w' := by
  cases hm with
  | status hs =>
    refine simulated_quiet (OnlyAt.statusOnly hs : w.OnlyAt link _ _ _).toKept
      (fun i b _ => .inl (endAt_trace (by rw [socket_statusOnly hs]) (.statusOnly hs b)))
      (fun b => (Trace.Same.statusOnly hs b).remoteId) ?_
    obtain ⟨l, ws, _, rfl⟩ := hs
    rfl
  | results =>
    exact simulated_quiet ⟨rfl, rfl, rfl, rfl, le_rfl, fun _ => rfl⟩ (fun _ _ _ => .inl rfl)
      (fun _ => rfl) rfl
  | report ha =>
    have htr := trace_reportEvents w
    refine simulated_quiet_at (.report w _ _ _) (.inl (endAt_same ha
      (reportEvents_socket ha _ _) ⟨rfl, rfl, rfl, rfl, rfl⟩ ?_)) (by rw [htr])
    rw [htr]
    exact .refl _
  | dequeue _ ha =>
    exact simulated_quiet_at ((OnlyAt.store w _ _).trans
      (.quiet (fun _ _ => rfl) rfl rfl rfl rfl rfl rfl rfl)) (.inl (endAt_same ha
        (socket_store w _ _) ⟨rfl, rfl, rfl, rfl, rfl⟩ (.refl _))) rfl
  | resume ha hloc hp =>
    exact simulated_aside (.fdeventSet w _ _ _) ha (remoteId_aside ht ha hloc hp)
      (by rw [resumed, trace_fdeventSet]) (fdeventSet_socket w _ _ _) rfl rfl rfl
  | @pause a s ha hloc hp => exact simulated_pause ht ha hloc hp
  | feed ha hloc hp hq hrem hqt _ hread =>
    cases ht.link_eq ha hloc hp hq hrem hqt
    exact simulated_feed ht h ha hloc hp hq hrem hread
  | wrote ha hloc hp hq hrem _ _ bytes writes =>
    exact simulated_aside (.wroteData w _ bytes writes) ha
      (remoteId_aside ht ha hloc ⟨_, _, hp, hq, hrem⟩) (remoteId_wroteData w _ _ _) ha rfl rfl rfl
  | queue ha hloc hp hq hrem _ bytes =>
    exact simulated_aside (.queued w _ _ bytes) ha
      (remoteId_aside ht ha hloc ⟨_, _, hp, hq, hrem⟩) (by rw [trace_queued])
      (fdeventSet_socket _ _ _ _) rfl rfl rfl
  | failed a =>
    exact simulated_quiet (OnlyAt.markFailed w a : w.OnlyAt link _ _ _).toKept
      (fun i b _ => .inl (endAt_trace rfl (.markFailed w a b)))
      (fun b => (Trace.Same.markFailed w a b).remoteId) rfl
  | drain ha hloc hne hlen hflat writes => exact simulated_drain ht ha hloc hne hlen hflat writes
  | drained ha hloc hp _ writes =>
    refine simulated_aside ((OnlyAt.wroteData w _ _ writes).trans (.emptied _ _ _)) ha
      (remoteId_aside ht ha hloc hp) ?_ (emptied_socket _ _ _) rfl rfl rfl
    rw [trace_emptied]
    exact remoteId_wroteData w _ _ _
  | answer ha hloc hp hq hrem hqt hne _ writes =>
    cases ht.link_eq ha hloc hp hq hrem hqt
    exact simulated_answer ht h ha hloc hp hq hrem hne writes
  | flush ha hloc hc writes => exact simulated_flush ht ha hloc hc writes
  | close ha hloc _ hd hcl => exact hcl.simulated h ht ha hloc hd
  | @smart a s ha hsm =>
    refine simulated_quiet ⟨rfl, rfl, rfl, rfl, le_rfl, fun _ => rfl⟩ (fun i b ho => .inl ?_)
      (fun _ => rfl) rfl
    have hb : b ≠ a := by
      rintro rfl
      exact hsm.not_local ((ht.owns i b ho).isLocal s ha)
    exact endAt_congr (socket_store_ne w _ hb) rfl
  | born => exact simulated_born ht hlt
  | attachSmart ha hloc hp hc hst =>
    exact simulated_attach ht ha hloc hp hc hst (kept_attached w _ _ _) rfl rfl rfl
  | attachTracker ha hloc hp hc hst =>
    exact simulated_attach (q := trackerFor _) ht ha hloc hp hc hst
      ⟨rfl, rfl, rfl, rfl, Nat.le_succ _, fun _ => rfl⟩ rfl rfl rfl
  | join ha hb hloc hqloc hne hp hqp hc hqc _ _ hst hqt =>
    exact simulated_join ht ha hb hloc hqloc hne hp hqp hc hqc hst hqt
  | detach ha hsm hp hq => exact simulated_detach ht h ha hsm hp hq
  | notify ha =>
    exact simulated_quiet_at (.store w _ _) (.inl (endAt_same ha (socket_store w _ _)
      ⟨rfl, rfl, rfl, rfl, rfl⟩ (.refl _))) rfl
  | ask ha hloc hp hc hst t destination => exact simulated_ask ht h ha hloc hp hc hst t destination

end PaxAdb.Sockets
