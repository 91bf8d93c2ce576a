import PaxAdb.MoveFrames
import PaxAdb.SocketInvariant

/-!
# Identifiers of the local sockets

As long as fewer than `2 ^ 32` local sockets have been created, an id belongs to one socket only,
the one recorded in `owner`. `Tied` relates the record of a socket to what the socket is connected
to: a socket has a `remoteId` exactly when it has been connected to a remote socket, and nothing has
been passed on or written before that.
-/

namespace PaxAdb.Sockets

open Function (update update_self update_of_ne)
open ASocket Server List Option

variable {X : Licence} {w w' w'' : Server} {a b p : Addr} {s s' q : ASocket} {x : Packet}
  {t link : TransportId}

structure Trace.Virgin (x : Trace) : Prop where
  remoteId : x.remoteId = none
  got : x.got = []
  put : x.put = []
  accepted : x.accepted = 0
  acknowledged : x.acknowledged = 0

def Server.Fresh (w : Server) (s : ASocket) : Prop :=
  s.peer = none ∨ ∃ p q, s.peer = some p ∧ w.socket p = some q ∧ q.IsSmart

structure Server.TiedAt (link : TransportId) (w : Server) (a : Addr) (s : ASocket) : Prop where
  owner : w.owner (w.trace a).bornId = some a
  id : s.closing = false → s.id = (w.trace a).bornId
  remote : ∀ p q, s.peer = some p → w.socket p = some q → q.IsRemote →
    (w.trace a).remoteId = some q.id ∧ q.transport = some link
  aside : ∀ p q, s.peer = some p → w.socket p = some q → ¬ q.IsRemote →
    (w.trace a).remoteId = none
  virgin : s.closing = false → w.Fresh s → (w.trace a).Virgin

structure Server.Owns (w : Server) (i : ℕ) (a : Addr) : Prop where
  bornId : (w.trace a).bornId = i
  old : a < w.nextAddr
  pos : i ≠ 0
  le : i ≤ w.created
  isLocal : ∀ s, w.socket a = some s → s.IsLocal

structure Server.Tied (link : TransportId) (w : Server) : Prop where
  at_ : ∀ a s, w.socket a = some s → s.IsLocal → w.TiedAt link a s
  owns : ∀ i a, w.owner i = some a → w.Owns i a
  nextId : w.created + 1 < 2 ^ 32 → w.localSocketNextId = w.created + 1

structure ASocket.Alike (s s' : ASocket) : Prop where
  enqueue : s'.enqueue = s.enqueue
  same : (s'.closing = s.closing ∧ s'.peer = s.peer ∧ s'.id = s.id ∧
      (s.IsRemote → s'.transport = s.transport)) ∨ s'.closing = true ∧ s'.peer = none

theorem ASocket.Alike.refit (s : ASocket) (fde : Fdevent) (queue : List (List Byte)) :
    Alike s { s with fde := fde, queue := queue } := ⟨rfl, .inl ⟨rfl, rfl, rfl, fun _ => rfl⟩⟩

theorem ASocket.Alike.refl (s : ASocket) : Alike s s := .refit s s.fde s.queue

structure Trace.Alike (untouched : Prop) (y y' : Trace) : Prop where
  bornId : y'.bornId = y.bornId
  remoteId : y'.remoteId = y.remoteId
  virgin : untouched → y.Virgin → y'.Virgin

theorem Trace.Alike.refl (P : Prop) (y : Trace) : Trace.Alike P y y := ⟨rfl, rfl, fun _ => id⟩

theorem Trace.Alike.of_eq {P : Prop} (h : w'.trace = w.trace) :
    Trace.Alike P (w.trace a) (w'.trace a) := by
  rw [h]
  exact .refl P _

structure Server.Kept (w w' : Server) : Prop where
  owner : w'.owner = w.owner
  created : w'.created = w.created
  nextId : w'.localSocketNextId = w.localSocketNextId
  online : w'.online = w.online
  addr : w.nextAddr ≤ w'.nextAddr
  bornId : ∀ b, (w'.trace b).bornId = (w.trace b).bornId

/-- Nothing but the socket at `a` and its record changes, and `out` is sent on `link`. -/
structure Server.OnlyAt (link : TransportId) (a : Addr) (out : List Packet) (w w' : Server) : Prop
    extends w.Kept w' where
  socket : ∀ b, b ≠ a → w'.socket b = w.socket b
  trace : ∀ b, b ≠ a → w'.trace b = w.trace b
  outbox : w'.outbox link = w.outbox link ++ out

namespace Server.Tied

section Rule

variable {T : List Addr}

theorem old_peer (hg : Graph w')
    (hout : ∀ b, b ∉ T → ∀ s', w'.socket b = some s' → ∃ s, w.socket b = some s ∧ s.Alike s')
    (hT : ∀ p ∈ T, ∀ q, w'.socket p = some q → ∀ c, q.peer = some c → c ∈ T) (hb : b ∉ T)
    (hs' : w'.socket b = some s') (hp : s'.peer = some p) (hq : w'.socket p = some q) :
    ∃ q₀, w.socket p = some q₀ ∧ q.enqueue = q₀.enqueue ∧ q.id = q₀.id ∧
      (q₀.IsRemote → q.transport = q₀.transport) := by
  have hlink := hg.linked hs' hp hq
  have hpT : p ∉ T := fun hpT => hb (hT p hpT q hq b hlink.peer)
  obtain ⟨q₀, hq₀, halike⟩ := hout p hpT q hq
  rcases halike.same with ⟨_, _, hid, ht⟩ | ⟨_, hnone⟩
  · exact ⟨q₀, hq₀, halike.enqueue, hid, ht⟩
  · exact absurd (hlink.peer.symm.trans hnone) (by simp)

/-- The rule for everything that creates no local socket: the sockets in `T` may have got a new peer
among themselves, the others have not. -/
theorem rule (h : w.Tied link) (hg : Graph w') (hk : w.Kept w')
    (hout : ∀ b, b ∉ T → ∀ s', w'.socket b = some s' → ∃ s, w.socket b = some s ∧ s.Alike s')
    (htrace : ∀ b, b ∉ T → ∀ s, w.socket b = some s →
      (w.trace b).Alike (s.closing = false ∧ w.Fresh s) (w'.trace b))
    (hT : ∀ p ∈ T, ∀ q, w'.socket p = some q → ∀ c, q.peer = some c → c ∈ T)
    (hin : ∀ b ∈ T, ∀ s', w'.socket b = some s' → s'.IsLocal → w'.TiedAt link b s')
    (hkind : ∀ b ∈ T, ∀ s', w'.socket b = some s' → b < w.nextAddr →
      ∃ s, w.socket b = some s ∧ s'.enqueue = s.enqueue) : w'.Tied link where
  at_ b s' hs' hloc := by
    by_cases hb : b ∈ T
    · exact hin b hb s' hs' hloc
    obtain ⟨s, hs, halike⟩ := hout b hb s' hs'
    have htied := h.at_ b s hs (halike.enqueue.symm.trans hloc)
    have htr := htrace b hb s hs
    have hpeer : ∀ p, s'.peer = some p → s.peer = some p := by
      intro p hp
      rcases halike.same with ⟨_, hpeer, _⟩ | ⟨_, hnone⟩
      · exact hpeer.symm.trans hp
      · exact absurd (hp.symm.trans hnone) (by simp)
    refine ⟨?_, fun hc => ?_, fun p q hp hq hrem => ?_, fun p q hp hq hrem => ?_, fun hc hf => ?_⟩
    · rw [hk.owner, htr.bornId]
      exact htied.owner
    · rcases halike.same with ⟨hc', _, hid, _⟩ | ⟨hc', _⟩
      · rw [hid, htr.bornId]
        exact htied.id (hc'.symm.trans hc)
      · exact absurd (hc.symm.trans hc') (by simp)
    · obtain ⟨q₀, hq₀, henq, hid, ht⟩ := old_peer hg hout hT hb hs' hp hq
      have hrem₀ : q₀.IsRemote := henq.symm.trans hrem
      obtain ⟨hr, hlink⟩ := htied.remote p q₀ (hpeer p hp) hq₀ hrem₀
      exact ⟨by rw [htr.remoteId, hr, hid], by rw [ht hrem₀, hlink]⟩
    · obtain ⟨q₀, hq₀, henq, _⟩ := old_peer hg hout hT hb hs' hp hq
      rw [htr.remoteId]
      exact htied.aside p q₀ (hpeer p hp) hq₀ fun hrem₀ => hrem (henq.trans hrem₀)
    · have hsame : s'.closing = s.closing ∧ s'.peer = s.peer := by
        rcases halike.same with ⟨hc', hp', _⟩ | ⟨hc', _⟩
        · exact ⟨hc', hp'⟩
        · exact absurd (hc.symm.trans hc') (by simp)
      have hf₀ : w.Fresh s := by
        rcases hf with hnone | ⟨p, q, hp, hq, hsm⟩
        · exact .inl (hsame.2.symm.trans hnone)
        · obtain ⟨q₀, hq₀, henq, _⟩ := old_peer hg hout hT hb hs' hp hq
          exact .inr ⟨p, q₀, hpeer p hp, hq₀, henq.symm.trans hsm⟩
      have hc₀ : s.closing = false := hsame.1.symm.trans hc
      exact htr.virgin ⟨hc₀, hf₀⟩ (htied.virgin hc₀ hf₀)
  owns i b hi := by
    rw [hk.owner] at hi
    have ho := h.owns i b hi
    refine ⟨(hk.bornId b).trans ho.bornId, ho.old.trans_le hk.addr, ho.pos, ?_, fun s' hs' => ?_⟩
    · rw [hk.created]
      exact ho.le
    · by_cases hb : b ∈ T
      · obtain ⟨s, hs, henq⟩ := hkind b hb s' hs' ho.old
        exact henq.trans (ho.isLocal s hs)
      · obtain ⟨s, hs, halike⟩ := hout b hb s' hs'
        exact halike.enqueue.trans (ho.isLocal s hs)
  nextId hlt := by
    rw [hk.created] at hlt ⊢
    rw [hk.nextId]
    exact h.nextId hlt

theorem alike (h : w.Tied link) (hg : Graph w') (hk : w.Kept w')
    (hout : ∀ b s', w'.socket b = some s' → ∃ s, w.socket b = some s ∧ s.Alike s')
    (htrace : ∀ b s, w.socket b = some s →
      (w.trace b).Alike (s.closing = false ∧ w.Fresh s) (w'.trace b)) : w'.Tied link :=
  h.rule (T := []) hg hk (fun b _ => hout b) (fun b _ => htrace b) (by simp) (by simp) (by simp)

theorem at_one (h : w.Tied link) (hg : Graph w') {out : List Packet} (ho : w.OnlyAt link a out w')
    (ha : w.socket a = some s) (ha' : ∀ s', w'.socket a = some s' → s.Alike s')
    (htr : (w.trace a).Alike (s.closing = false ∧ w.Fresh s) (w'.trace a)) : w'.Tied link := by
  refine h.alike hg ho.toKept (fun b s' hs' => ?_) fun b y hy => ?_
  · by_cases hb : b = a
    · subst hb
      exact ⟨s, ha, ha' s' hs'⟩
    · exact ⟨s', ho.socket b hb ▸ hs', .refl s'⟩
  · by_cases hb : b = a
    · subst hb
      cases ha.symm.trans hy
      exact htr
    · rw [ho.trace b hb]
      exact .refl _ _

end Rule

end Server.Tied

section Frames

theorem Server.Kept.refl (w : Server) : w.Kept w := ⟨rfl, rfl, rfl, rfl, le_rfl, fun _ => rfl⟩

theorem Server.Kept.trans (h : w.Kept w') (h' : w'.Kept w'') : w.Kept w'' :=
  ⟨h'.owner.trans h.owner, h'.created.trans h.created, h'.nextId.trans h.nextId,
    h'.online.trans h.online, h.addr.trans h'.addr, fun b => (h'.bornId b).trans (h.bornId b)⟩

theorem kept_of_trace (ho : w'.owner = w.owner) (hc : w'.created = w.created)
    (hn : w'.localSocketNextId = w.localSocketNextId) (hon : w'.online = w.online)
    (ha : w.nextAddr ≤ w'.nextAddr) {y : Trace} (ht : w'.trace = update w.trace a y)
    (hy : y.bornId = (w.trace a).bornId) :
    w.Kept w' := by
  refine ⟨ho, hc, hn, hon, ha, fun b => ?_⟩
  rw [ht]
  by_cases hb : b = a
  · subst hb
    rw [update_self, hy]
  · rw [update_of_ne hb]

theorem kept_attached (w : Server) (a : Addr) (s q : ASocket) : w.Kept (w.attached a s q) :=
  ⟨rfl, rfl, rfl, rfl, Nat.le_succ _, fun _ => rfl⟩

namespace Server.OnlyAt

variable {out out' : List Packet} {ev : Events} {bytes : List Byte}

theorem trans (h : w.OnlyAt link a out w') (h' : w'.OnlyAt link a out' w'') :
    w.OnlyAt link a (out ++ out') w'' where
  toKept := h.toKept.trans h'.toKept
  socket b hb := (h'.socket b hb).trans (h.socket b hb)
  trace b hb := (h'.trace b hb).trans (h.trace b hb)
  outbox := by rw [h'.outbox, h.outbox, append_assoc]

theorem quiet (hs : ∀ b, b ≠ a → w'.socket b = w.socket b) (ht : w'.trace = w.trace)
    (hb : w'.outbox = w.outbox) (ho : w'.owner = w.owner) (hc : w'.created = w.created)
    (hi : w'.localSocketNextId = w.localSocketNextId) (hon : w'.online = w.online)
    (hn : w'.nextAddr = w.nextAddr) : w.OnlyAt link a [] w' :=
  ⟨⟨ho, hc, hi, hon, hn.ge, fun b => by rw [ht]⟩, hs, fun b _ => by rw [ht], by rw [hb, append_nil]⟩

theorem refl (link : TransportId) (a : Addr) (w : Server) : w.OnlyAt link a [] w :=
  quiet (fun _ _ => rfl) rfl rfl rfl rfl rfl rfl rfl

section OneSocket

variable (w) (a)

theorem store (s : ASocket) : w.OnlyAt link a [] (w.store a s) :=
  quiet (fun _ => socket_store_ne w s) rfl rfl rfl rfl rfl rfl rfl

theorem setTrace {y : Trace} (hy : y.bornId = (w.trace a).bornId) :
    w.OnlyAt link a [] (w.setTrace a y) :=
  ⟨kept_of_trace rfl rfl rfl rfl le_rfl rfl hy, fun _ _ => rfl, fun _ hb => update_of_ne hb _ _,
    (append_nil _).symm⟩

theorem wroteData (bytes : List Byte) (writes : List WriteResult) :
    w.OnlyAt link a [] (w.wroteData a bytes writes) :=
  setTrace (y := { w.trace a with output := (w.trace a).output ++ [(.data, bytes)] })
    w a rfl |>.trans
    (quiet (fun _ _ => rfl) rfl rfl rfl rfl rfl rfl rfl)

theorem markFailed : w.OnlyAt link a [] (w.markFailed a) := setTrace w a rfl

theorem accept : w.OnlyAt link a [] (w.accept a) := setTrace w a rfl

theorem acknowledge : w.OnlyAt link a [] (w.acknowledge a) :=
  setTrace w a rfl

theorem sendPacket (y : Packet) : w.OnlyAt link a [y] (w.sendPacket y link) :=
  ⟨⟨rfl, rfl, rfl, rfl, le_rfl, fun _ => rfl⟩, fun _ _ => rfl, fun _ _ => rfl, update_self _ _ _⟩

theorem sendPacket_ne (y : Packet) (ht : t ≠ link) : w.OnlyAt link a [] (w.sendPacket y t) :=
  ⟨⟨rfl, rfl, rfl, rfl, le_rfl, fun _ => rfl⟩, fun _ _ => rfl, fun _ _ => rfl,
    (update_of_ne ht.symm _ _).trans (append_nil _).symm⟩

theorem fdeventSet (s : ASocket) (ev : Events) : w.OnlyAt link a [] (w.fdeventSet a s ev) := by
  rw [fdeventSet_eq]
  exact (store w a _).trans (quiet (fun _ _ => rfl) rfl rfl rfl rfl rfl rfl rfl)

theorem resumed (s : ASocket) : w.OnlyAt link a [] (w.resumed a s) :=
  fdeventSet w a s _

theorem queued (s : ASocket) (bytes : List Byte) :
    w.OnlyAt link a [] (w.queued a s bytes) := (store w a _).trans (fdeventSet _ a _ _)

theorem emptied (s : ASocket) : w.OnlyAt link a [] (w.emptied a s) :=
  (store w a _).trans (fdeventSet _ a _ _)

theorem fed (s q : ASocket) (bytes : List Byte) :
    w.OnlyAt link a [⟨.aWrte, s.id, q.id, bytes⟩] (w.fed a s q link bytes) :=
  (setTrace (y := { w.trace a with got := (w.trace a).got ++ bytes }) w a rfl |>.trans
    (sendPacket _ a _)).trans (fdeventSet _ a _ _)

end OneSocket

theorem statusOnly (h : StatusOnly a w w') : w.OnlyAt link a [] w' := by
  obtain ⟨l, ws, _, rfl⟩ := h
  exact setTrace (y := { w.trace a with output := (w.trace a).output ++ l }) w a rfl |>.trans
    (quiet (fun _ _ => rfl) rfl rfl rfl rfl rfl rfl rfl)

theorem report (w : Server) (a : Addr) (ev : Events) (bad : Bool) :
    w.OnlyAt link a [] (reportEvents w a ev bad) := by
  unfold reportEvents
  split
  · exact refl link a w
  · exact (store w a _).trans (quiet (fun _ _ => rfl) rfl rfl rfl rfl rfl rfl rfl)

theorem finished (w : Server) (a : Addr) (s : ASocket) : w.OnlyAt link a [] (w.finished a s) := by
  unfold Server.finished
  split
  · exact quiet (fun b hb => update_of_ne hb _ _) rfl rfl rfl rfl rfl rfl rfl
  · exact quiet (fun b hb => socket_store_ne w _ hb) rfl rfl rfl rfl rfl rfl rfl

end Server.OnlyAt

theorem kept_finished (w : Server) (a : Addr) (s : ASocket) :
    w.Kept ((w.store a s).finished a s) :=
  ((OnlyAt.store w a s).trans (.finished _ a s) : w.OnlyAt 0 _ _ _).toKept

theorem kept_closedWith (w : Server) (a p : Addr) (s q : ASocket) :
    w.Kept (w.closedWith a s p q) := by
  have hdispose : w.Kept (w.dispose p q) := by
    unfold dispose
    split <;> exact ⟨rfl, rfl, rfl, rfl, le_rfl, fun _ => rfl⟩
  exact hdispose.trans (kept_finished _ a _)

theorem Closes.kept (h : Closes a w w') : w.Kept w' := by
  cases h with
  | alone _ _ _ hs =>
    exact (((OnlyAt.store w a _).trans (.statusOnly hs)).trans (.finished _ a _) :
      w.OnlyAt 0 _ _ _).toKept
  | @other s q p =>
    have hshut : w.Kept (w.shutdownFor s q) := by
      unfold shutdownFor
      split <;> exact ⟨rfl, rfl, rfl, rfl, le_rfl, fun _ => rfl⟩
    exact hshut.trans (kept_closedWith _ a p s q)
  | @both s q p => exact (kept_finished w p { q with peer := none }).trans (kept_finished _ a _)

end Frames

section Moves

theorem not_fresh (hp : s.peer = some p) (hq : w.socket p = some q) (hsm : ¬ q.IsSmart) :
    ¬ w.Fresh s := by
  rintro (hnone | ⟨p', q', hp', hq', hsm'⟩)
  · exact absurd (hp.symm.trans hnone) (by simp)
  · cases hp.symm.trans hp'
    cases hq.symm.trans hq'
    exact hsm hsm'

theorem put_statusOnly (h : StatusOnly a w w') (b : Addr) : (w'.trace b).put = (w.trace b).put := by
  obtain ⟨l, ws, hl, rfl⟩ := h
  have hput : (l.filter (·.1 = Source.data)) = [] := by
    rw [filter_eq_nil_iff]
    intro y hy
    simp [hl y hy]
  by_cases hb : b = a
  · subst hb
    simp [Trace.put, hput]
  · simp [hb]

theorem Trace.Alike.statusOnly (h : StatusOnly a w w') (P : Prop) (b : Addr) :
    Trace.Alike P (w.trace b) (w'.trace b) := by
  have hput := put_statusOnly h b
  by_cases hb : b = a
  · subst hb
    obtain ⟨l, ws, hl, rfl⟩ := h
    refine ⟨by simp, by simp, fun _ hv => ⟨?_, ?_, hput.trans hv.put, ?_, ?_⟩⟩
    · simpa using hv.remoteId
    · simpa using hv.got
    · simpa using hv.accepted
    · simpa using hv.acknowledged
  · rw [trace_statusOnly_ne h hb]
    exact .refl P _

theorem Trace.Alike.of_not {P : Prop} (hP : ¬ P) {y y' : Trace} (hb : y'.bornId = y.bornId)
    (hr : y'.remoteId = y.remoteId) : Trace.Alike P y y' := ⟨hb, hr, fun h => absurd h hP⟩

theorem alike_of_some (hs : w'.socket a = some s') (h : s.Alike s') (y : ASocket)
    (hy : w'.socket a = some y) : s.Alike y := by
  cases hs.symm.trans hy
  exact h

theorem alike_of_none (hs : w'.socket a = none) (y : ASocket) (hy : w'.socket a = some y) :
    s.Alike y := by
  cases hs.symm.trans hy

theorem Closes.alike (hcl : Closes a w w') (h : Graph w) (hs' : w'.socket b = some s') :
    ∃ s, w.socket b = some s ∧ s.Alike s' := by
  have hself : ∃ s, w.socket a = some s := by
    cases hcl with
    | alone ha | other ha | both ha => exact ⟨_, ha⟩
  obtain ⟨s, ha⟩ := hself
  by_cases hb : b = a ∨ s.peer = some b
  · obtain ⟨y, hy, hrem⟩ := hcl.left h ha hb hs'
    exact ⟨y, hy, hrem.enqueue, .inr ⟨hrem.closing, hrem.peer⟩⟩
  · rw [hcl.frame ha (fun he => hb (.inl he)) fun hp => hb (.inr hp)] at hs'
    exact ⟨s', hs', .refl s'⟩

namespace Server.Tied

section Operations

variable (ht : w.Tied link) (h : Graph w)

include ht h

omit h in
theorem refitted (hg : Graph w') {out : List Packet} (ho : w.OnlyAt link a out w')
    (ha : w.socket a = some s) {fde : Fdevent} {queue : List (List Byte)}
    (ha' : w'.socket a = some { s with fde := fde, queue := queue })
    (htr : (w.trace a).Alike (s.closing = false ∧ w.Fresh s) (w'.trace a)) : w'.Tied link :=
  ht.at_one hg ho ha (alike_of_some ha' (.refit _ _ _)) htr

omit h in
theorem congr (hg : Graph w') (hk : w.Kept w') (hsock : w'.socket = w.socket)
    (htr : w'.trace = w.trace) : w'.Tied link :=
  ht.alike hg hk (fun b s' hs' => ⟨s', hsock ▸ hs', .refl s'⟩) fun b s _ => by
    rw [htr]
    exact .refl _ _

omit h in
theorem statusOnly (hg : Graph w') (hs : StatusOnly a w w') : w'.Tied link := by
  refine ht.alike hg (OnlyAt.statusOnly hs : w.OnlyAt link _ _ _).toKept (fun b s' hs' => ?_)
    fun b s _ => .statusOnly hs _ b
  rw [socket_statusOnly hs] at hs'
  exact ⟨s', hs', .refl s'⟩

omit h in
theorem resumed (hg : Graph (w.resumed a s)) (ha : w.socket a = some s) :
    (w.resumed a s).Tied link :=
  ht.refitted hg (.fdeventSet w a s _) ha (fdeventSet_socket w a s _)
    (.of_eq (trace_fdeventSet _ _ _ _))

omit h in
theorem markFailed (hg : Graph (w.markFailed a)) : (w.markFailed a).Tied link := by
  have ho : w.OnlyAt link a [] (w.markFailed a) := .markFailed w a
  refine ht.alike hg ho.toKept (fun b s' hs' => ⟨s', hs', .refl s'⟩) fun b s _ => ?_
  by_cases hb : b = a
  · subst hb
    have htr : (w.markFailed b).trace b = { w.trace b with failed := true } :=
      update_self _ _ _
    rw [htr]
    exact ⟨rfl, rfl, fun _ hv => ⟨hv.remoteId, hv.got, hv.put, hv.accepted, hv.acknowledged⟩⟩
  · rw [ho.trace b hb]
    exact .refl _ _

theorem accept (ha : w.socket a = some s)
    (hf : ¬ (s.closing = false ∧ w.Fresh s)) : (w.accept a).Tied link := by
  refine ht.at_one (h.setTrace _ _) (.accept w a) ha (alike_of_some ha (.refl _)) ?_
  have htr : (w.accept a).trace a = { w.trace a with accepted := (w.trace a).accepted + 1 } :=
    update_self _ _ _
  rw [htr]
  exact .of_not hf rfl rfl

theorem closes (hcl : Closes a w w') : w'.Tied link := by
  refine ht.alike (h.closes hcl) hcl.kept (fun b s' hs' => hcl.alike h hs') fun b s _ => ?_
  by_cases hb : b = a
  · subst hb
    cases hcl with
    | alone _ _ _ hs =>
      rw [trace_finished]
      exact .statusOnly hs _ b
    | other =>
      rw [trace_closedWith, trace_shutdownFor]
      exact .refl _ _
    | both =>
      rw [trace_closedBoth]
      exact .refl _ _
  · rw [hcl.trace_frame hb]
    exact .refl _ _

omit h in
theorem virgin_alone (ha : w.socket a = some s) (hloc : s.IsLocal)
    (hp : s.peer = none) (hc : s.closing = false) : (w.trace a).Virgin :=
  (ht.at_ a s ha hloc).virgin hc (.inl hp)

theorem born (hlt : w.created + 1 < 2 ^ 32) : w.born.Tied link := by
  have hid := ht.nextId hlt
  have hnew : w.born.socket w.nextAddr = some w.freshLocal := socket_store w _ _
  have hold : ∀ b, b ≠ w.nextAddr → w.born.socket b = w.socket b := fun b => socket_store_ne w _
  have htr : w.born.trace w.nextAddr = { Trace.empty with bornId := w.localSocketNextId } :=
    update_self _ _ _
  have htr' : ∀ b, b ≠ w.nextAddr → w.born.trace b = w.trace b := fun b hb =>
    update_of_ne hb _ _
  have hown : ∀ i, i ≤ w.created → w.born.owner i = w.owner i := fun i hi =>
    update_of_ne (by omega) _ _
  refine ⟨fun b s hs hloc => ?_, fun i b hi => ?_, fun hlt' => ?_⟩
  · by_cases hb : b = w.nextAddr
    · subst hb
      cases hnew.symm.trans hs
      refine ⟨?_, fun _ => by rw [htr]; rfl, fun p q hp => ?_, fun p q hp => ?_, fun _ _ => ?_⟩
      · rw [htr]
        exact update_self _ _ _
      · cases hp
      · cases hp
      · rw [htr]
        exact ⟨rfl, rfl, rfl, rfl, rfl⟩
    · rw [hold b hb] at hs
      have htied := ht.at_ b s hs hloc
      have hpeer : ∀ p, s.peer = some p → w.born.socket p = w.socket p := fun p hp =>
        hold p (h.peer_lt hs hp).ne
      refine ⟨?_, ?_, fun p q hp hq => ?_, fun p q hp hq => ?_, fun hc hf => ?_⟩
      · rw [htr' b hb, hown _ (ht.owns _ _ htied.owner).le]
        exact htied.owner
      · rw [htr' b hb]
        exact htied.id
      · rw [htr' b hb]
        exact htied.remote p q hp (hpeer p hp ▸ hq)
      · rw [htr' b hb]
        exact htied.aside p q hp (hpeer p hp ▸ hq)
      · rw [htr' b hb]
        refine htied.virgin hc (hf.imp_right ?_)
        rintro ⟨p, q, hp, hq, hsm⟩
        exact ⟨p, q, hp, hpeer p hp ▸ hq, hsm⟩
  · by_cases hi' : i = w.localSocketNextId
    · subst hi'
      cases (update_self w.localSocketNextId _ w.owner).symm.trans hi
      refine ⟨by rw [htr], Nat.lt_succ_self _, h.nextId, hid.le, fun s hs => ?_⟩
      cases hnew.symm.trans hs
      rfl
    · have ho := ht.owns i b ((update_of_ne hi' _ w.owner).symm.trans hi)
      have hb := ho.old.ne
      refine ⟨by rw [htr' b hb]; exact ho.bornId, ho.old.trans (Nat.lt_succ_self _), ho.pos,
        ho.le.trans (Nat.le_succ _), fun s hs => ?_⟩
      rw [hold b hb] at hs
      exact ho.isLocal s hs
  · change (if (w.localSocketNextId + 1) % 2 ^ 32 = 0 then 1
      else (w.localSocketNextId + 1) % 2 ^ 32) = w.created + 1 + 1
    have hlt₂ : w.created + 1 + 1 < 2 ^ 32 := hlt'
    rw [hid, Nat.mod_eq_of_lt hlt₂, if_neg (Nat.succ_ne_zero _)]

theorem attach {w' : Server} (hg : Graph w') (hk : w.Kept w')
    (ha : w.socket a = some s) (hqk : ¬ q.IsLocal) (hqp : q.peer = some a)
    (hsock : w'.socket = (w.attached a s q).socket) (hne : ∀ b, b ≠ a → w'.trace b = w.trace b)
    (hat : w'.TiedAt link a { s.plain with peer := some w.nextAddr }) : w'.Tied link := by
  have haddr : a ≠ w.nextAddr := (h.lt_nextAddr ha).ne
  have hsa : w'.socket a = some { s.plain with peer := some w.nextAddr } := by
    rw [hsock]
    exact socket_store _ _ _
  have hsn : w'.socket w.nextAddr = some q := by
    rw [hsock]
    exact (socket_store_ne _ _ haddr.symm).trans (socket_store _ _ _)
  have hso : ∀ b, b ∉ [a, w.nextAddr] → w'.socket b = w.socket b := by
    intro b hb
    simp only [mem_cons, not_mem_nil, or_false, not_or] at hb
    rw [hsock]
    exact (socket_store_ne _ _ hb.1).trans (socket_store_ne _ _ hb.2)
  refine ht.rule (T := [a, w.nextAddr]) hg hk (fun b hb s' hs' => ⟨s', hso b hb ▸ hs', .refl s'⟩)
    (fun b hb y _ => ?_) (fun b hb y hy c hc => ?_) (fun b hb y hy hloc => ?_)
    fun b hb y hy hlt => ?_
  · rw [hne b fun he => hb (by simp [he])]
    exact .refl _ _
  all_goals
    simp only [mem_cons, not_mem_nil, or_false] at hb
    rcases hb with rfl | rfl
  · cases hsa.symm.trans hy
    cases some.inj hc
    simp
  · cases hsn.symm.trans hy
    cases hqp.symm.trans hc
    simp
  · cases hsa.symm.trans hy
    exact hat
  · cases hsn.symm.trans hy
    exact absurd hloc hqk
  · cases hsa.symm.trans hy
    exact ⟨s, ha, rfl⟩
  · exact absurd hlt (lt_irrefl _)

theorem attachAside {w' : Server} (hg : Graph w')
    (hk : w.Kept w') (ha : w.socket a = some s) (hloc : s.IsLocal) (hp : s.peer = none)
    (hc : s.closing = false) (hqk : ¬ q.IsLocal) (hqr : ¬ q.IsRemote) (hqp : q.peer = some a)
    (hsock : w'.socket = (w.attached a s q).socket) (htr : w'.trace = w.trace) : w'.Tied link := by
  have htied := ht.at_ a s ha hloc
  have hv := ht.virgin_alone ha hloc hp hc
  have hsn : w'.socket w.nextAddr = some q := by
    rw [hsock]
    exact (socket_store_ne _ _ (h.lt_nextAddr ha).ne').trans (socket_store _ _ _)
  refine ht.attach h hg hk ha hqk hqp hsock (fun b _ => by rw [htr]) ?_
  refine ⟨?_, fun _ => ?_, fun p y hp' hy hrem => ?_, fun p y hp' hy _ => ?_, fun _ _ => ?_⟩
  · rw [htr, hk.owner]
    exact htied.owner
  · rw [htr]
    exact htied.id hc
  · cases some.inj hp'
    cases hsn.symm.trans hy
    exact absurd hrem hqr
  · rw [htr]
    exact hv.remoteId
  · rw [htr]
    exact hv

theorem attachRemote (ha : w.socket a = some s) (hloc : s.IsLocal)
    (hp : s.peer = none) (hc : s.closing = false) {id : ℕ} (hid : id ≠ 0) :
    (w.attachRemote a s id link).Tied link := by
  have htied := ht.at_ a s ha hloc
  have htr : (w.attachRemote a s id link).trace a = { w.trace a with remoteId := some id } :=
    update_self _ _ _
  have hsn : (w.attachRemote a s id link).socket w.nextAddr = some (remoteFor a id link) :=
    (socket_store_ne _ _ (h.lt_nextAddr ha).ne').trans (socket_store _ _ _)
  have hrem : ∀ q, (w.attachRemote a s id link).socket w.nextAddr = some q → q.IsRemote := by
    intro q hq
    cases hsn.symm.trans hq
    rfl
  have hk : w.Kept (w.attachRemote a s id link) :=
    kept_of_trace rfl rfl rfl rfl (Nat.le_succ _) rfl rfl
  refine ht.attach (q := remoteFor a id link) h (h.attachRemote ha hloc hp hc hid link) hk ha
    (by simp [remoteFor]) rfl rfl (fun b hb => update_of_ne hb _ _) ?_
  refine ⟨?_, fun _ => ?_, fun p y hp' hy _ => ?_, fun p y hp' hy hr => ?_, fun _ hf => ?_⟩
  · rw [htr]
    exact htied.owner
  · rw [htr]
    exact htied.id hc
  · cases some.inj hp'
    cases hsn.symm.trans hy
    rw [htr]
    exact ⟨rfl, rfl⟩
  · cases some.inj hp'
    exact absurd (hrem y hy) hr
  · exact absurd hf (not_fresh rfl hsn (by simp [remoteFor]))

omit h in
theorem joined (hg : Graph (w.joined a s b q)) (ha : w.socket a = some s)
    (hb : w.socket b = some q) (hloc : s.IsLocal) (hqloc : q.IsLocal) (hne : a ≠ b)
    (hp : s.peer = none) (hqp : q.peer = none) (hc : s.closing = false) (hqc : q.closing = false) :
    (w.joined a s b q).Tied link := by
  have hsa : (w.joined a s b q).socket a = some { s with peer := some b } :=
    (socket_store_ne _ _ hne).trans (socket_store _ _ _)
  have hsb : (w.joined a s b q).socket b = some { q with peer := some a } := socket_store _ _ _
  -- both sockets were alone before, and neither has a remote or smart peer now
  have hat : ∀ c d y z, w.socket c = some y → y.IsLocal → y.peer = none → y.closing = false →
      (w.joined a s b q).socket d = some z → z.IsLocal →
      (w.joined a s b q).TiedAt link c { y with peer := some d } := by
    intro c d y z hcy hyloc hyp hyc hdz hzloc
    have htied := ht.at_ c y hcy hyloc
    have hv := ht.virgin_alone hcy hyloc hyp hyc
    refine ⟨htied.owner, fun _ => htied.id hyc, fun p x hp' hx hr => ?_,
      fun _ _ _ _ _ => hv.remoteId, fun _ _ => hv⟩
    cases some.inj hp'
    cases hdz.symm.trans hx
    exact absurd (hzloc.symm.trans hr) (by simp)
  refine ht.rule (T := [a, b]) hg ⟨rfl, rfl, rfl, rfl, le_rfl, fun _ => rfl⟩ (fun c hc' y hy => ?_)
    (fun c _ y _ => .refl _ _) (fun c hc' y hy d hd => ?_) (fun c hc' y hy _ => ?_)
    fun c hc' y hy _ => ?_
  all_goals simp only [mem_cons, not_mem_nil, or_false, not_or] at hc'
  · refine ⟨y, ?_, .refl y⟩
    rw [← hy]
    exact ((socket_store_ne _ _ hc'.2).trans (socket_store_ne _ _ hc'.1)).symm
  all_goals rcases hc' with rfl | rfl
  · cases hsa.symm.trans hy
    cases some.inj hd
    simp
  · cases hsb.symm.trans hy
    cases some.inj hd
    simp
  · cases hsa.symm.trans hy
    exact hat c b s _ ha hloc hp hc hsb hqloc
  · cases hsb.symm.trans hy
    exact hat c a q _ hb hqloc hqp hqc hsa hloc
  · cases hsa.symm.trans hy
    exact ⟨s, ha, rfl⟩
  · cases hsb.symm.trans hy
    exact ⟨q, hb, rfl⟩

theorem detached (ha : w.socket a = some s) (hsm : s.IsSmart)
    (hp : s.peer = some b) (hq : w.socket b = some q) : (w.detached a b q).Tied link := by
  have hab := h.linked ha hp hq
  have hqloc : q.IsLocal := h.isLocal_of_peer ha hp hq hsm.not_local
  have hqc := (h.localSane hq hqloc).closing_of_peer (by simp [hab.peer])
  have htied := ht.at_ b q hq hqloc
  have hv := htied.virgin hqc (.inr ⟨a, s, hab.peer, ha, hsm⟩)
  have hne : b ≠ a := (h.peer_spec ha hp).1
  have hsa : (w.detached a b q).socket a = none := update_self _ _ _
  have hsb : (w.detached a b q).socket b = some { q with peer := none } :=
    (update_of_ne hne _ _).trans (socket_store _ _ _)
  refine ht.rule (T := [a, b]) (h.detached ha hsm hp hq) ⟨rfl, rfl, rfl, rfl, le_rfl, fun _ => rfl⟩
    (fun c hc' y hy => ?_) (fun c _ y _ => .refl _ _) (fun c hc' y hy d hd => ?_)
    (fun c hc' y hy _ => ?_) fun c hc' y hy _ => ?_
  all_goals simp only [mem_cons, not_mem_nil, or_false, not_or] at hc'
  · refine ⟨y, ?_, .refl y⟩
    rw [← hy]
    exact ((update_of_ne hc'.1 _ _).trans (socket_store_ne _ _ hc'.2)).symm
  all_goals
    rcases hc' with rfl | rfl
    · cases hsa.symm.trans hy
  all_goals cases hsb.symm.trans hy
  · cases hd
  · refine ⟨htied.owner, htied.id, fun p y hp' => ?_, fun p y hp' => ?_, fun _ _ => hv⟩
    · cases hp'
    · cases hp'
  · exact ⟨q, hq, rfl⟩

omit ht in
theorem not_fresh_of_queue (ha : w.socket a = some s) (hloc : s.IsLocal)
    (hq : s.queue ≠ []) : ¬ (s.closing = false ∧ w.Fresh s) := by
  rintro ⟨hc, hnone | ⟨p, q, hp, hq', hsm⟩⟩
  · exact (h.localSane ha hloc).backlog hc hq hnone
  · exact hq ((h.linked ha hp hq').smart' hsm).1

end Operations

end Server.Tied

open Server.Tied

theorem Trace.Alike.wrote {P : Prop} {y : Trace} {bytes : List Byte} (h : bytes = [] ∨ ¬ P) :
    Trace.Alike P y { y with output := y.output ++ [(.data, bytes)] } := by
  refine ⟨rfl, rfl, fun hP hv => ?_⟩
  rcases h with rfl | h
  · refine ⟨hv.remoteId, hv.got, ?_, hv.accepted, hv.acknowledged⟩
    simpa [Trace.put] using hv.put
  · exact absurd hP h

theorem trace_wroteData (w : Server) (a : Addr) (bytes : List Byte) (writes : List WriteResult) :
    (w.wroteData a bytes writes).trace a =
      { w.trace a with output := (w.trace a).output ++ [(.data, bytes)] } :=
  update_self _ _ _

theorem trace_reportEvents (w : Server) (a : Addr) (ev : Events) (bad : Bool) :
    (reportEvents w a ev bad).trace = w.trace := by
  unfold reportEvents
  split <;> rfl

theorem reportEvents_socket (ha : w.socket a = some s) (ev : Events) (bad : Bool) :
    (reportEvents w a ev bad).socket a = some { s with fde :=
      { s.fde with events := s.fde.events.union ev, bad := s.fde.bad || bad } } := by
  simp only [reportEvents, ha]
  exact socket_store _ _ _

theorem trace_emptied (w : Server) (a : Addr) (s : ASocket) : (w.emptied a s).trace = w.trace :=
  trace_fdeventSet _ _ _ _

theorem flushed_socket (w : Server) (a : Addr) (s : ASocket) :
    (w.finished a { s with queue := [] }).socket a = none := by
  rw [finished_self]
  exact if_pos (.inr rfl)

theorem Server.Tied.link_eq (ht : w.Tied link) (ha : w.socket a = some s) (hloc : s.IsLocal)
    (hp : s.peer = some p) (hq : w.socket p = some q) (hrem : q.IsRemote)
    (hqt : q.transport = some t) : t = link :=
  some.inj (hqt.symm.trans ((ht.at_ a s ha hloc).remote p q hp hq hrem).2)

structure Server.Grows (w w' : Server) : Prop where
  created : w.created ≤ w'.created
  online : w'.online = w.online

theorem Server.Kept.grows (h : w.Kept w') : w.Grows w' := ⟨h.created.ge, h.online⟩

theorem Server.OnlyAt.grows {out : List Packet} (h : w.OnlyAt link a out w') : w.Grows w' :=
  h.toKept.grows

theorem Server.Grows.trans (h : w.Grows w') (h' : w'.Grows w'') : w.Grows w'' :=
  ⟨h.created.trans h'.created, h'.online.trans h.online⟩

theorem Move.grows (hm : Move X w w') : w.Grows w' := by
  cases hm with
  | status hs => exact (OnlyAt.statusOnly hs : w.OnlyAt 0 _ _ _).grows
  | report => exact (OnlyAt.report w _ _ _ : w.OnlyAt 0 _ _ _).grows
  | resume => exact (OnlyAt.resumed w _ _ : w.OnlyAt 0 _ _ _).grows
  | pause => exact (OnlyAt.fdeventSet w _ _ _ : w.OnlyAt 0 _ _ _).grows
  | feed => exact (OnlyAt.fed w _ _ _ _).grows
  | queue => exact (OnlyAt.queued w _ _ _ : w.OnlyAt 0 _ _ _).grows
  | drained =>
    exact ((OnlyAt.wroteData w _ _ _).trans (.emptied _ _ _) : w.OnlyAt 0 _ _ _).grows
  | answer =>
    exact ((((OnlyAt.wroteData w _ _ _).trans (.emptied _ _ _)).trans (.acknowledge _ _)).trans
      (.sendPacket _ _ _)).grows
  | flush =>
    exact (((OnlyAt.wroteData w _ _ _).trans (.store _ _ _)).trans (.finished _ _ _) :
      w.OnlyAt 0 _ _ _).grows
  | close _ _ _ _ hcl => exact hcl.kept.grows
  | born => exact ⟨Nat.le_succ _, rfl⟩
  | _ => exact ⟨le_rfl, rfl⟩

theorem Move.tied (hm : Move X w w') (h : Graph w) (ht : w.Tied link)
    (hlt : w'.created < 2 ^ 32) : w'.Tied link := by
  have hg := hm.graph h
  cases hm with
  | status hs => exact ht.statusOnly hg hs
  | results => exact ht.congr hg ⟨rfl, rfl, rfl, rfl, le_rfl, fun _ => rfl⟩ rfl rfl
  | report ha =>
    exact ht.refitted hg (.report w _ _ _) ha (reportEvents_socket ha _ _)
      (.of_eq (trace_reportEvents w _ _ _))
  | dequeue _ ha =>
    exact ht.refitted hg ((OnlyAt.store w _ _).trans
      (.quiet (fun _ _ => rfl) rfl rfl rfl rfl rfl rfl rfl)) ha (socket_store w _ _) (.refl _ _)
  | resume ha => exact ht.resumed hg ha
  | pause ha =>
    exact ht.refitted hg (.fdeventSet w _ _ _) ha (fdeventSet_socket w _ _ _)
      (.of_eq (trace_fdeventSet _ _ _ _))
  | feed ha hloc hp hq hrem hqt =>
    cases ht.link_eq ha hloc hp hq hrem hqt
    refine ht.refitted hg (.fed w _ _ _ _) ha (fdeventSet_socket _ _ _ _) ?_
    rw [fed, paused, trace_fdeventSet]
    refine .of_not (fun hf => not_fresh hp hq ?_ hf.2) ?_ ?_
    · exact fun hsm => absurd (hrem.symm.trans hsm) (by simp)
    · simp [sendPacket, setTrace]
    · simp [sendPacket, setTrace]
  | wrote ha _ hp hq _ hsm _ bytes writes =>
    refine ht.at_one hg (.wroteData w _ bytes writes) ha (alike_of_some ha (.refl _)) ?_
    rw [trace_wroteData]
    exact .wrote (.inr fun hf => not_fresh hp hq hsm hf.2)
  | queue ha _ _ _ _ _ bytes =>
    exact ht.refitted hg (.queued w _ _ bytes) ha (fdeventSet_socket _ _ _ _)
      (.of_eq (trace_queued w _ _ bytes))
  | failed a => exact ht.markFailed hg
  | drain ha hloc hne hlen hflat writes =>
    refine ht.refitted hg ((OnlyAt.wroteData w _ _ writes).trans (.store _ _ _)) ha
      (socket_store _ _ _) ((trace_wroteData w _ _ writes).symm ▸ .wrote (.inr ?_))
    refine not_fresh_of_queue h ha hloc fun hq => hne (length_eq_zero_iff.mp ?_)
    rw [hq] at hlen
    exact Nat.le_zero.mp hlen
  | @drained _ s ha hloc hp hev writes =>
    refine ht.refitted hg ((OnlyAt.wroteData w _ _ writes).trans (.emptied _ _ _)) ha
      (emptied_socket _ _ _) ?_
    rw [trace_emptied, trace_wroteData]
    refine .wrote ?_
    by_cases hq : s.queue = []
    · exact .inl (by rw [hq]; rfl)
    · exact .inr (not_fresh_of_queue h ha hloc hq)
  | answer ha hloc hp hq hrem hqt hne hev writes =>
    cases ht.link_eq ha hloc hp hq hrem hqt
    refine ht.refitted hg ((((OnlyAt.wroteData w _ _ writes).trans (.emptied _ _ _)).trans
      (.acknowledge _ _)).trans (.sendPacket _ _ _)) ha (emptied_socket _ _ _)
      (.of_not (not_fresh_of_queue h ha hloc hne) ?_ ?_)
    all_goals
      simp [sendPacket, acknowledge, setTrace, trace_emptied, trace_wroteData]
  | flush ha hloc hc writes =>
    refine ht.at_one hg (((OnlyAt.wroteData w _ _ writes).trans (.store _ _ _)).trans
      (.finished _ _ _)) ha (alike_of_none (flushed_socket _ _ _)) ?_
    rw [trace_finished]
    refine (trace_wroteData w _ _ writes).symm ▸ .wrote (.inr ?_)
    rintro ⟨hc', _⟩
    exact absurd (hc.symm.trans hc') (by simp)
  | close _ _ _ _ hcl => exact ht.closes h hcl
  | smart ha hsm =>
    refine ht.at_one hg (.store w _ _) ha (alike_of_some (socket_store w _ _) ?_) (.refl _ _)
    refine ⟨rfl, .inl ⟨rfl, rfl, rfl, fun hr => ?_⟩⟩
    exact absurd (hsm.symm.trans hr) (by simp)
  | born => exact ht.born h hlt
  | attachSmart ha hloc hp hc =>
    exact ht.attachAside h hg (kept_attached w _ _ _) ha hloc hp hc (by simp [smartFor])
      (by simp [smartFor]) rfl rfl rfl
  | attachTracker ha hloc hp hc =>
    exact ht.attachAside (q := trackerFor _) h hg
      ⟨rfl, rfl, rfl, rfl, Nat.le_succ _, fun _ => rfl⟩ ha
      hloc hp hc (by simp [trackerFor]) (by simp [trackerFor]) rfl rfl rfl
  | join ha hb hloc hqloc hne hp hqp hc hqc =>
    exact ht.joined hg ha hb hloc hqloc hne hp hqp hc hqc
  | detach ha hsm hp hq => exact ht.detached h ha hsm hp hq
  | notify ha =>
    refine ht.at_one hg (.store w _ _) ha (alike_of_some (socket_store w _ _) ?_) (.refl _ _)
    exact ⟨rfl, .inl ⟨rfl, rfl, rfl, fun _ => rfl⟩⟩
  | @ask a s ha hloc =>
    refine ht.alike hg ⟨rfl, rfl, rfl, rfl, le_rfl, fun _ => rfl⟩ (fun b s' hs' => ?_)
      fun b s _ => .refl _ _
    by_cases hb : b = a
    · subst hb
      refine ⟨_, ha, alike_of_some (socket_store w _ _) ?_ s' hs'⟩
      refine ⟨rfl, .inl ⟨rfl, rfl, rfl, fun hr => ?_⟩⟩
      exact absurd (hloc.symm.trans hr) (by simp)
    · exact ⟨s', (socket_store_ne w _ hb) ▸ hs', .refl s'⟩

theorem Found.not_fresh {i j : ℕ} (hf : Found w i j a s) (h : Graph w) (hj : j ≠ 0) :
    ¬ (s.closing = false ∧ w.Fresh s) := by
  obtain ⟨p, q, hp, hq, hid⟩ := hf.peer.resolve_left hj
  exact fun hfr => Sockets.not_fresh hp hq (not_smart_of_id h hq (hid ▸ hj)) hfr.2

theorem Enqueued.tied {bytes : List Byte} {r : ℤ} (he : Enqueued a s bytes w w' r) (h : Graph w)
    (hg : Graph w') (ht : w.Tied link) (ha : w.socket a = some s)
    (hf : ¬ (s.closing = false ∧ w.Fresh s)) : w'.Tied link := by
  have hwrote : (w.attempted a bytes).Tied link := by
    refine ht.at_one (h.wroteData _ _ _) (.wroteData w _ _ _) ha (alike_of_some ha (.refl _)) ?_
    rw [attempted, trace_wroteData]
    exact .wrote (.inr hf)
  cases he with
  | queued =>
    exact ht.refitted hg (.queued w _ _ _) ha (fdeventSet_socket _ _ _ _)
      (.of_eq (trace_queued w _ _ _))
  | done => exact hwrote
  | blocked =>
    have ha' : (w.attempted a bytes).socket a = some s := ha
    exact hwrote.refitted hg (.queued _ _ _ _) ha' (fdeventSet_socket _ _ _ _)
      (.of_eq (trace_queued _ _ _ _))
  | failed _ _ hcl =>
    have hgw : Graph (w.attempted a bytes) := h.wroteData _ _ _
    exact (hwrote.markFailed (hgw.setTrace _ _)).closes (hgw.setTrace _ _) hcl

theorem Enqueued.grows {bytes : List Byte} {r : ℤ} (he : Enqueued a s bytes w w' r) :
    w.Grows w' := by
  cases he with
  | queued => exact (OnlyAt.queued w _ _ _ : w.OnlyAt 0 _ _ _).grows
  | done => exact ⟨le_rfl, rfl⟩
  | blocked =>
    exact ((OnlyAt.wroteData w _ _ _).trans (.queued _ _ _ _) : w.OnlyAt 0 _ _ _).grows
  | failed _ _ hcl =>
    exact ((OnlyAt.wroteData w _ _ _).trans (.markFailed _ _) : w.OnlyAt 0 _ _ _).grows.trans
      hcl.kept.grows

theorem Receive.grows (hr : Receive x t w w') : w.Grows w' := by
  cases hr with
  | accept =>
    have hborn : w.Grows ((w.born.attachRemote w.nextAddr w.freshLocal x.arg0 t).sendPacket
        ⟨.aOkay, w.localSocketNextId, x.arg0, []⟩ t) := ⟨Nat.le_succ _, rfl⟩
    exact hborn.trans (OnlyAt.resumed _ _ _ : Server.OnlyAt 0 _ _ _ _).grows
  | @connect a s _ _ _ _ _ _ _ _ hst =>
    have hattach : w.Grows (w.attachRemote a s x.arg0 t) := ⟨le_rfl, rfl⟩
    exact hattach.trans ((OnlyAt.resumed _ _ _).trans (.statusOnly hst) :
      Server.OnlyAt 0 _ _ _ _).grows
  | resume => exact (OnlyAt.resumed w _ _ : w.OnlyAt 0 _ _ _).grows
  | close _ _ _ _ _ _ hcl => exact hcl.kept.grows
  | @write a _ _ _ _ _ _ _ _ _ henq =>
    exact (OnlyAt.accept w a : w.OnlyAt 0 _ _ _).grows.trans henq.grows
  | @writeAll a =>
    exact ((((OnlyAt.accept w a).trans (.wroteData _ _ _ _)).trans (.acknowledge _ _)).trans
      (.sendPacket _ _ _)).grows
  | _ => exact ⟨le_rfl, rfl⟩

theorem Setups.created_le (hm : Setups X w w') : w.created ≤ w'.created := by
  induction hm with
  | refl => exact le_rfl
  | tail _ hm ih =>
    refine ih.trans ?_
    cases hm with
    | move hm => exact hm.grows.created
    | disconnect => exact (kept_closedWith _ _ _ _ _).grows.created
    | close _ _ hcl => exact hcl.kept.grows.created
    | _ => exact le_rfl

theorem created_resumed (w : Server) (a : Addr) (s : ASocket) :
    (w.resumed a s).created = w.created := (OnlyAt.resumed w a s : w.OnlyAt 0 _ _ _).created

theorem Receive.tied (hr : Receive x link w w') (h : Graph w) (ht : w.Tied link)
    (hlt : w'.created < 2 ^ 32) : w'.Tied link := by
  have hg := hr.graph h
  cases hr with
  | ignored => exact ht
  | accept _ _ h0 _ =>
    rw [created_resumed] at hlt
    have hlt' : w.created + 1 < 2 ^ 32 := hlt
    have hborn : w.born.socket w.nextAddr = some w.freshLocal := socket_store w _ _
    have hg₁ := h.born.attachRemote hborn rfl rfl rfl h0 link
    have ht₁ := (ht.born h hlt').attachRemote h.born hborn rfl rfl rfl h0
    have ht₂ : ((w.born.attachRemote w.nextAddr w.freshLocal x.arg0 link).sendPacket
        ⟨.aOkay, w.localSocketNextId, x.arg0, []⟩ link).Tied link :=
      ht₁.congr (hg₁.sendPacket _ _) ⟨rfl, rfl, rfl, rfl, le_rfl, fun _ => rfl⟩ rfl rfl
    exact ht₂.resumed hg (socket_store _ _ _)
  | refuse => exact ht.congr hg ⟨rfl, rfl, rfl, rfl, le_rfl, fun _ => rfl⟩ rfl rfl
  | @connect a s _ _ _ h0 _ hf ha hp hst =>
    obtain ⟨s', hf'⟩ := found h hf
    cases ha.symm.trans hf'.socket
    have hg₁ := h.attachRemote ha hf'.isLocal hp hf'.closing h0 link
    have ht₁ := ht.attachRemote h ha hf'.isLocal hp hf'.closing h0
    have hsock : (w.attachRemote a s x.arg0 link).socket a =
        some { s.plain with peer := some w.nextAddr } := socket_store _ _ _
    exact (ht₁.resumed (hg₁.resumed hsock hf'.isLocal) hsock).statusOnly hg hst
  | resume _ _ _ _ _ ha => exact ht.resumed hg ha
  | close _ _ _ _ _ _ hcl => exact ht.closes h hcl
  | @write a s _ _ _ _ h0 _ hf ha henq =>
    obtain ⟨s', hf'⟩ := found h hf
    cases ha.symm.trans hf'.socket
    have hfr := hf'.not_fresh h h0
    exact henq.tied (h.setTrace _ _) hg (ht.accept h ha hfr) ha hfr
  | @writeAll a s _ _ h0 _ hf ha =>
    obtain ⟨s', hf'⟩ := found h hf
    cases ha.symm.trans hf'.socket
    refine ht.at_one hg ((((OnlyAt.accept w a).trans (.wroteData _ _ _ _)).trans
      (.acknowledge _ _)).trans (.sendPacket _ _ _)) ha (alike_of_some ha (.refl _)) ?_
    refine .of_not (hf'.not_fresh h h0) ?_ ?_
    all_goals simp [Server.sendPacket, Server.acknowledge, Server.setTrace, Server.attempted,
      trace_wroteData, Server.accept]

end Moves

section Find

variable {i j : ℕ}

theorem Found.owner (hf : Found w i j a s) (ht : w.Tied link) : w.owner i = some a := by
  have htied := ht.at_ a s hf.socket hf.isLocal
  rw [← hf.id, htied.id hf.closing]
  exact htied.owner

theorem find_alive (h : Graph w) (ht : w.Tied link) (ho : w.owner i = some a)
    (ha : w.socket a = some s) (hc : s.closing = false) :
    w.localSocketList.find? (fun b => (w.socket b).any (·.id = i)) = some a := by
  have hown := ht.owns i a ho
  have hloc := hown.isLocal s ha
  have hid : s.id = i := ((ht.at_ a s ha hloc).id hc).trans hown.bornId
  have hmem : a ∈ w.localSocketList := (h.at_ ha).fit.listed.mpr ⟨hloc, hc⟩
  cases hfind : w.localSocketList.find? (fun b => (w.socket b).any (·.id = i)) with
  | none =>
    have hno := find?_eq_none.mp hfind a hmem
    simp [ha, hid] at hno
  | some b =>
    have hany := find?_some hfind
    obtain ⟨y, hy, hyid⟩ := (any_eq_true _ _).mp hany
    obtain ⟨hyloc, hyc⟩ := (h.at_ hy).fit.listed.mp (mem_of_find?_eq_some hfind)
    have htied := ht.at_ b y hy hyloc
    have hyid : y.id = i := by simpa using hyid
    rw [htied.id hyc] at hyid
    rw [← ho, ← hyid, htied.owner]

theorem findLocalSocket_alive (h : Graph w) (ht : w.Tied link) (ho : w.owner i = some a)
    (ha : w.socket a = some s) (hc : s.closing = false)
    (hj : j = 0 ∨ ∃ p q, s.peer = some p ∧ w.socket p = some q ∧ q.id = j) :
    w.findLocalSocket i j = .ok (some a) := by
  unfold findLocalSocket
  rw [find_alive h ht ho ha hc]
  simp only [get_eq ha, ok_bind]
  rcases hj with rfl | ⟨p, q, hp, hq, hid⟩
  · rfl
  · split
    · rfl
    · simp only [hp, get_eq hq, ok_bind, hid, if_true]
      rfl

end Find

end PaxAdb.Sockets
