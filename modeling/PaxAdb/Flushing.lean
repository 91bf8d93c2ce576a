import PaxAdb.SocketInvariant

/-!
# Closing sockets are flushed

Data queued on a local socket is written to its descriptor before the socket is destroyed, unless a
write fails. The exception is a read event that is still pending when the socket is put on the
closing list: the handler then meets the end of the file and destroys the socket at once.
-/

namespace PaxAdb.Sockets

open Function (update_self update_of_ne)
open ASocket Server Runs List Option

variable {X : Licence} {w w' w'' : Server} {a b p : Addr} {s q : ASocket} {x : Packet}
  {t : TransportId} {host authEnabled : Bool}

def Server.queueOf (w : Server) (a : Addr) : List (List Byte) :=
  match w.socket a with
  | some s => s.queue
  | none => []

structure Persists (a : Addr) (w w' : Server) : Prop where
  addr : w.nextAddr ≤ w'.nextAddr
  kind : ∀ s', w'.socket a = some s' → ∃ s, w.socket a = some s ∧ s'.enqueue = s.enqueue

theorem Persists.trans (h : Persists a w w') (h' : Persists a w' w'') : Persists a w w'' where
  addr := h.addr.trans h'.addr
  kind s'' hs'' := by
    obtain ⟨s', hs', he'⟩ := h'.kind s'' hs''
    obtain ⟨s, hs, he⟩ := h.kind s' hs'
    exact ⟨s, hs, he'.trans he⟩

theorem Persists.of_eq (hn : w.nextAddr ≤ w'.nextAddr) (hs : w'.socket a = w.socket a) :
    Persists a w w' := ⟨hn, fun s' hs' => ⟨s', hs ▸ hs', rfl⟩⟩

theorem Persists.store (hn : w.nextAddr ≤ w'.nextAddr) (ha : w.socket a = some s) {s' : ASocket}
    (ha' : w'.socket a = some s') (he : s'.enqueue = s.enqueue) : Persists a w w' := by
  refine ⟨hn, fun y hy => ⟨s, ha, ?_⟩⟩
  cases ha'.symm.trans hy
  exact he

structure Quiet (a : Addr) (w w' : Server) : Prop extends Persists a w w' where
  queue : w'.queueOf a = w.queueOf a
  put : (w'.trace a).put = (w.trace a).put
  failed : (w'.trace a).failed = (w.trace a).failed

theorem queueOf_eq (ha : w.socket a = some s) : w.queueOf a = s.queue := by
  rw [queueOf, ha]

namespace Quiet

theorem of_persists (hp : Persists a w w') (hq : w'.queueOf a = w.queueOf a)
    (ht : w'.trace a = w.trace a) : Quiet a w w' :=
  ⟨hp, hq, by rw [ht], by rw [ht]⟩

theorem of_eq (hn : w.nextAddr ≤ w'.nextAddr) (hs : w'.socket a = w.socket a)
    (ht : w'.trace a = w.trace a) : Quiet a w w' :=
  of_persists (.of_eq hn hs) (by rw [queueOf, queueOf, hs]) ht

theorem refl (a : Addr) (w : Server) : Quiet a w w := of_eq le_rfl rfl rfl

theorem trans (h : Quiet a w w') (h' : Quiet a w' w'') : Quiet a w w'' where
  toPersists := h.toPersists.trans h'.toPersists
  queue := h'.queue.trans h.queue
  put := h'.put.trans h.put
  failed := h'.failed.trans h.failed

theorem of_store (hn : w.nextAddr ≤ w'.nextAddr) (ha : w.socket a = some s) {s' : ASocket}
    (ha' : w'.socket a = some s') (hne : ∀ b, b ≠ a → w'.socket b = w.socket b)
    (ht : w'.trace = w.trace) (hq : s'.queue = s.queue) (he : s'.enqueue = s.enqueue) (b : Addr) :
    Quiet b w w' := by
  by_cases hb : b = a
  · subst hb
    refine of_persists (.store hn ha ha' he) ?_ (by rw [ht])
    rw [queueOf_eq ha', queueOf_eq ha, hq]
  · exact of_eq hn (hne b hb) (by rw [ht])

theorem store (ha : w.socket a = some s) {s' : ASocket} (hq : s'.queue = s.queue)
    (he : s'.enqueue = s.enqueue) (b : Addr) : Quiet b w (w.store a s') := by
  have hn : w.nextAddr ≤ (w.store a s').nextAddr := le_rfl
  exact of_store hn ha (socket_store w a s') (fun _ => socket_store_ne w s') rfl hq he b

theorem fdeventSet (ha : w.socket a = some s) {s' : ASocket} (hq : s'.queue = s.queue)
    (he : s'.enqueue = s.enqueue) (ev : Events) (b : Addr) :
    Quiet b w (w.fdeventSet a s' ev) := by
  have hset := fdeventSet_eq w a s' ev
  refine of_store ?_ ha (fdeventSet_socket w a s' ev)
    (fun _ => fdeventSet_socket_ne w s' ev) ?_ hq he b
  · rw [hset]
    exact le_rfl
  · rw [hset]
    rfl

theorem setTrace (w : Server) (a : Addr) {y : Trace} (hp : y.put = (w.trace a).put)
    (hf : y.failed = (w.trace a).failed) (b : Addr) : Quiet b w (w.setTrace a y) := by
  by_cases hb : b = a
  · subst hb
    have heq : (w.setTrace b y).trace b = y := update_self _ _ _
    exact ⟨.of_eq le_rfl rfl, rfl, by rw [heq, hp], by rw [heq, hf]⟩
  · exact of_eq le_rfl rfl (update_of_ne hb _ _)

theorem statusOnly (h : StatusOnly a w w') (b : Addr) : Quiet b w w' := by
  obtain ⟨l, ws, hl, rfl⟩ := h
  have hput : (l.filter (·.1 = Source.data)) = [] := by
    rw [filter_eq_nil_iff]
    intro y hy
    simp [hl y hy]
  refine (setTrace w a (y := { w.trace a with output := (w.trace a).output ++ l }) ?_ rfl b).trans
    (of_eq le_rfl rfl rfl)
  simp [Trace.put, hput]

theorem finished (ha : w.socket a = some s) (hc : s.closing = false) (b : Addr) :
    Quiet b w (w.finished a s) := by
  unfold Server.finished
  split
  next hgone =>
    have hempty : s.queue = [] := hgone.resolve_left (by simp [hc])
    by_cases hb : b = a
    · subst hb
      have hnone : (w.localSocketDestroy b).socket b = none := update_self _ _ _
      refine of_persists ⟨le_rfl, fun s' hs' => ?_⟩ ?_ rfl
      · cases hnone.symm.trans hs'
      · rw [queueOf, hnone, queueOf_eq ha, hempty]
    · exact of_eq le_rfl (update_of_ne hb _ _) rfl
  · have hsame : (w.closingSocket a s).queue = s.queue := rfl
    have hkind : (w.closingSocket a s).enqueue = s.enqueue := rfl
    exact (store ha hsame hkind b).trans (of_eq le_rfl rfl rfl)

theorem finished_alone (ha : w.socket a = some s) (hc : s.closing = false) (b : Addr) :
    Quiet b w ((w.store a { s with peer := none }).finished a { s with peer := none }) := by
  have hsame : ({ s with peer := none } : ASocket).queue = s.queue := rfl
  have hkind : ({ s with peer := none } : ASocket).enqueue = s.enqueue := rfl
  have hc' : ({ s with peer := none } : ASocket).closing = false := hc
  exact (store ha hsame hkind b).trans (finished (socket_store w a _) hc' b)

theorem free (w : Server) (hb : b ≠ a) : Quiet b w (w.free a) :=
  of_eq le_rfl (update_of_ne hb _ _) rfl

theorem dispose (w : Server) (q : ASocket) (hb : b ≠ p) : Quiet b w (w.dispose p q) := by
  unfold Server.dispose
  split <;> exact (free w hb).trans (of_eq le_rfl rfl rfl)

theorem shutdownFor (w : Server) (s q : ASocket) (b : Addr) : Quiet b w (w.shutdownFor s q) := by
  unfold Server.shutdownFor
  split
  · exact of_eq le_rfl rfl rfl
  · exact refl b w

theorem closedWith (ha : w.socket a = some s) (hc : s.closing = false) (hap : a ≠ p)
    (hb : b ≠ p) : Quiet b w (w.closedWith a s p q) := by
  have ha' : (w.dispose p q).socket a = some s := (socket_dispose_ne w q hap).trans ha
  exact (dispose w q hb).trans (finished_alone ha' hc b)

end Quiet

structure Server.Tracked (w : Server) (a : Addr) : Prop where
  old : a < w.nextAddr
  isLocal : ∀ s, w.socket a = some s → s.IsLocal

theorem Server.Tracked.ne (h : w.Tracked a) (hp : w.socket p = some q) (hq : ¬ q.IsLocal) :
    a ≠ p := by
  rintro rfl
  exact hq (h.isLocal q hp)

theorem Closes.quiet (hcl : Closes a w w') (h : Graph w) (ha : w.socket a = some s)
    (hc : s.closing = false) (hb : w.Tracked b) : Quiet b w w' := by
  cases hcl with
  | alone ha' hloc hp hs =>
    cases ha.symm.trans ha'
    have hsame : s.plain.queue = s.queue := rfl
    have hkind : s.plain.enqueue = s.enqueue := rfl
    have hc' : s.plain.closing = false := hc
    have hst := Quiet.statusOnly hs b
    obtain ⟨l, ws, _, rfl⟩ := hs
    refine (Quiet.store ha hsame hkind b).trans (hst.trans (Quiet.finished ?_ hc' b))
    exact socket_store w a _
  | other ha' hloc hp hq hother =>
    cases ha.symm.trans ha'
    refine (Quiet.shutdownFor w _ _ b).trans (Quiet.closedWith ?_ hc ?_ (hb.ne hq hother))
    · rw [shutdownFor_socket]
      exact ha
    · exact (h.peer_spec ha hp).1.symm
  | @both _ q p ha' hloc hp hq hqloc =>
    cases ha.symm.trans ha'
    have hne : a ≠ p := (h.peer_spec ha hp).1.symm
    have hqc : q.closing = false :=
      (h.localSane hq hqloc).closing_of_peer (by simp [(h.linked ha hp hq).peer])
    have ha₁ : ((w.store p { q with peer := none }).finished p { q with peer := none }).socket a =
        some s := by
      rw [socket_finished_ne _ _ hne, socket_store_ne _ _ hne]
      exact ha
    exact (Quiet.finished_alone hq hqc b).trans (Quiet.finished_alone ha₁ hc b)

structure Progress (a : Addr) (w w' : Server) : Prop extends Persists a w w' where
  failed : (w.trace a).failed = true → (w'.trace a).failed = true
  kept : (w'.trace a).failed = true ∨ ∃ bytes new, (w'.trace a).put = (w.trace a).put ++ bytes ∧
    (w.queueOf a).flatten ++ new = bytes ++ (w'.queueOf a).flatten

theorem Quiet.progress (h : Quiet a w w') : Progress a w w' where
  toPersists := h.toPersists
  failed hf := h.failed.trans hf
  kept := .inr ⟨[], [], by rw [h.put, append_nil], by rw [h.queue, append_nil]; rfl⟩

theorem Progress.trans (h : Progress a w w') (h' : Progress a w' w'') : Progress a w w'' where
  toPersists := h.toPersists.trans h'.toPersists
  failed hf := h'.failed (h.failed hf)
  kept := by
    rcases h'.kept with hf | ⟨bytes', new', hput', hq'⟩
    · exact .inl hf
    rcases h.kept with hf | ⟨bytes, new, hput, hq⟩
    · exact .inl (h'.failed hf)
    · refine .inr ⟨bytes ++ bytes', new ++ new', ?_, ?_⟩
      · rw [hput', hput, append_assoc]
      · rw [← append_assoc, hq, append_assoc, hq', append_assoc]

theorem Persists.tracked (h : Persists a w w') (ht : w.Tracked a) : w'.Tracked a where
  old := ht.old.trans_le h.addr
  isLocal s' hs' := by
    obtain ⟨s, hs, he⟩ := h.kind s' hs'
    exact he.trans (ht.isLocal s hs)

section Data

theorem progress_wroteData (ha : w.socket a = some s) (hempty : s.queue = []) (bytes : List Byte)
    (writes : List WriteResult) (b : Addr) : Progress b w (w.wroteData a bytes writes) := by
  by_cases hb : b = a
  · subst hb
    have htr : (w.wroteData b bytes writes).trace b =
        { w.trace b with output := (w.trace b).output ++ [(.data, bytes)] } :=
      update_self _ _ _
    refine ⟨.of_eq le_rfl rfl, fun hf => by rw [htr]; exact hf, .inr ⟨bytes, bytes, ?_, ?_⟩⟩
    · rw [htr]
      simp [Trace.put]
    · have hq : (w.wroteData b bytes writes).queueOf b = w.queueOf b := rfl
      rw [hq, queueOf_eq ha, hempty]
      simp
  · refine Quiet.progress ?_
    exact .of_eq le_rfl rfl (update_of_ne hb _ _)

theorem progress_queued (ha : w.socket a = some s) (bytes : List Byte) (b : Addr) :
    Progress b w (w.queued a s bytes) := by
  by_cases hb : b = a
  · subst hb
    have hs' := fdeventSet_socket (w.store b { s with queue := s.queue ++ [bytes] }) b
      { s with queue := s.queue ++ [bytes] } (s.fde.state.union .fdeWrite)
    have htr : (w.queued b s bytes).trace = w.trace := by
      rw [queued, fdeventSet_eq]
      rfl
    have hn : (w.queued b s bytes).nextAddr = w.nextAddr := by
      rw [queued, fdeventSet_eq]
      rfl
    refine ⟨.store hn.ge ha hs' rfl, fun hf => by rw [htr]; exact hf, .inr ⟨[], bytes, ?_, ?_⟩⟩
    · rw [htr, append_nil]
    · rw [queueOf_eq ha, queued, queueOf_eq hs']
      simp
  · refine (Quiet.of_eq ?_ (queued_socket_ne w s bytes hb) ?_).progress
    · rw [queued, fdeventSet_eq]
      exact le_rfl
    · rw [queued, fdeventSet_eq]
      rfl

theorem progress_drained (ha : w.socket a = some s) {queue : List (List Byte)} {bytes : List Byte}
    (hflat : s.queue.flatten = bytes ++ queue.flatten) (writes : List WriteResult) (b : Addr) :
    Progress b w ((w.wroteData a bytes writes).store a { s with queue := queue }) := by
  have hsock : ((w.wroteData a bytes writes).store a { s with queue := queue }).socket a =
      some { s with queue := queue } := socket_store _ a _
  by_cases hb : b = a
  · subst hb
    have htr : ((w.wroteData b bytes writes).store b { s with queue := queue }).trace b =
        { w.trace b with output := (w.trace b).output ++ [(.data, bytes)] } :=
      update_self _ _ _
    refine ⟨.store le_rfl ha hsock rfl, fun hf => by rw [htr]; exact hf, .inr ⟨bytes, [], ?_, ?_⟩⟩
    · rw [htr]
      simp [Trace.put]
    · rw [queueOf_eq ha, queueOf_eq hsock, append_nil]
      exact hflat
  · refine Quiet.progress ?_
    exact .of_eq le_rfl (socket_store_ne _ _ hb) (update_of_ne hb _ _)

theorem progress_markFailed (w : Server) (a b : Addr) : Progress b w (w.markFailed a) := by
  by_cases hb : b = a
  · subst hb
    have hf : ((w.markFailed b).trace b).failed = true := by simp [markFailed, setTrace]
    exact ⟨.of_eq le_rfl rfl, fun _ => hf, .inl hf⟩
  · refine Quiet.progress ?_
    exact .of_eq le_rfl rfl (update_of_ne hb _ _)

end Data

section Moves

theorem progress_destroy (ha : w.socket a = some s)
    (hl : (w.trace a).failed = true ∨ s.queue.flatten = []) (b : Addr) :
    Progress b w (w.localSocketDestroy a) := by
  by_cases hb : b = a
  · subst hb
    have hnone : (w.localSocketDestroy b).socket b = none := update_self _ _ _
    have hpers : Persists b w (w.localSocketDestroy b) := by
      refine ⟨le_rfl, fun s' hs' => ?_⟩
      cases hnone.symm.trans hs'
    refine ⟨hpers, id, hl.imp_right fun hq => ⟨[], [], (append_nil _).symm, ?_⟩⟩
    have hempty : (w.localSocketDestroy b).queueOf b = [] := by rw [queueOf, hnone]
    rw [hempty, queueOf_eq ha, hq]
    rfl
  · refine Quiet.progress ?_
    exact .of_eq le_rfl (update_of_ne hb _ _) rfl

theorem Closes.progress (hcl : Closes a w w') (h : Graph w) (ha : w.socket a = some s)
    (hl : s.closing = true → (w.trace a).failed = true) (hb : w.Tracked b) : Progress b w w' := by
  by_cases hc : s.closing = true
  · cases hcl with
    | alone ha' hloc hp hs =>
      cases ha.symm.trans ha'
      have hsame : s.plain.queue = s.queue := rfl
      have hkind : s.plain.enqueue = s.enqueue := rfl
      have hst := (Quiet.store ha hsame hkind b).trans (Quiet.statusOnly hs b)
      have hsta := (Quiet.store ha hsame hkind a).trans (Quiet.statusOnly hs a)
      have hgone : s.plain.closing = true ∨ s.plain.queue = [] := .inl hc
      rw [finished, if_pos hgone]
      refine hst.progress.trans
        (progress_destroy (s := s.plain) ?_ (.inl (hsta.failed.trans (hl hc))) b)
      obtain ⟨l, ws, _, rfl⟩ := hs
      exact socket_store w a _
    | other ha' hloc hp | both ha' hloc hp =>
      cases ha.symm.trans ha'
      exact absurd (hp.symm.trans ((h.localSane ha hloc).closing hc).1) (by simp)
  · exact (hcl.quiet h ha (Bool.eq_false_iff.mpr hc) hb).progress

theorem Quiet.attached (ha : w.socket a = some s) (hb : w.Tracked b) (haddr : a < w.nextAddr)
    (q : ASocket) : Quiet b w (w.attached a s q) := by
  have hnew : ∀ c, c < w.nextAddr → (w.store w.nextAddr q).socket c = w.socket c :=
    fun c hc => socket_store_ne _ _ hc.ne
  have ha' : (w.store w.nextAddr q).socket a = some s := (hnew a haddr).trans ha
  have hstep : Quiet b w (w.store w.nextAddr q) := .of_eq le_rfl (hnew b hb.old) rfl
  have hsame : ({ s.plain with peer := some w.nextAddr } : ASocket).queue = s.queue := rfl
  have hkind : ({ s.plain with peer := some w.nextAddr } : ASocket).enqueue = s.enqueue := rfl
  exact hstep.trans ((Quiet.store ha' hsame hkind b).trans (.of_eq (Nat.le_succ _) rfl rfl))

theorem Quiet.born (hb : w.Tracked b) : Quiet b w w.born :=
  .of_eq (Nat.le_succ _) (socket_store_ne w _ hb.old.ne) (update_of_ne hb.old.ne _ _)

theorem Quiet.sendPacket (w : Server) (y : Packet) (t : TransportId) (b : Addr) :
    Quiet b w (w.sendPacket y t) := .of_eq le_rfl rfl rfl

theorem Quiet.acknowledge (w : Server) (a b : Addr) : Quiet b w (w.acknowledge a) :=
  .setTrace w a (y := { w.trace a with acknowledged := (w.trace a).acknowledged + 1 }) rfl rfl b

theorem Quiet.accept (w : Server) (a b : Addr) : Quiet b w (w.accept a) :=
  .setTrace w a (y := { w.trace a with accepted := (w.trace a).accepted + 1 }) rfl rfl b

theorem progress_emptied (ha : w.socket a = some s) (writes : List WriteResult) (b : Addr) :
    Progress b w ((w.wroteData a s.queue.flatten writes).emptied a s) := by
  have hflat : s.queue.flatten = s.queue.flatten ++ ([] : List (List Byte)).flatten := by simp
  refine (progress_drained ha hflat writes b).trans (Quiet.progress ?_)
  exact Quiet.fdeventSet (socket_store _ a _) rfl rfl _ b

theorem Quiet.report (ha : w.socket a = some s) (ev : Events) (bad : Bool) (b : Addr) :
    Quiet b w (reportEvents w a ev bad) := by
  simp only [reportEvents, ha]
  refine Quiet.trans (Quiet.store ha ?_ ?_ b) (.of_eq le_rfl rfl rfl)
  all_goals rfl

/-- Every move keeps what is queued on a local socket until it is written. -/
theorem Move.progress (hm : Move X w w') (h : Graph w) (hX : ¬ X.loss) (hb : w.Tracked b) :
    Progress b w w' := by
  cases hm with
  | status hs => exact (Quiet.statusOnly hs b).progress
  | results =>
    refine Quiet.progress ?_
    exact .of_eq le_rfl rfl rfl
  | report ha => exact (Quiet.report ha _ _ b).progress
  | @dequeue a rest s hl ha =>
    have hsame :
        ({ s with fde := { s.fde with events := .none } } : ASocket).queue = s.queue := rfl
    refine ((Quiet.store ha hsame rfl b).trans ?_).progress
    exact .of_eq le_rfl rfl rfl
  | resume ha | pause ha => exact (Quiet.fdeventSet ha rfl rfl _ b).progress
  | @feed a p s q t bytes ha =>
    have htr := Quiet.setTrace w a (y := { w.trace a with got := (w.trace a).got ++ bytes }) rfl
      rfl b
    refine ((htr.trans (.sendPacket _ ⟨.aWrte, s.id, q.id, bytes⟩ t b)).trans ?_).progress
    have ha' : ((w.setTrace a { w.trace a with got := (w.trace a).got ++ bytes }).sendPacket
        ⟨.aWrte, s.id, q.id, bytes⟩ t).socket a = some s := ha
    exact .fdeventSet ha' rfl rfl _ b
  | wrote ha _ _ _ _ _ hempty => exact progress_wroteData ha hempty _ _ b
  | queue ha => exact progress_queued ha _ b
  | failed a => exact progress_markFailed w a b
  | drain ha _ _ _ hflat => exact progress_drained ha hflat _ b
  | drained ha => exact progress_emptied ha _ b
  | @answer a p s q t ha _ _ _ _ _ _ _ writes =>
    refine (progress_emptied ha writes b).trans (Quiet.progress ?_)
    exact (Quiet.acknowledge _ a b).trans (.sendPacket _ _ t b)
  | @flush a s ha _ hc writes =>
    have hflat : s.queue.flatten = s.queue.flatten ++ ([] : List (List Byte)).flatten := by simp
    have hgone : ({ s with queue := [] } : ASocket).closing = true ∨
        ({ s with queue := [] } : ASocket).queue = [] := .inr rfl
    rw [finished, if_pos hgone]
    exact (progress_drained ha hflat writes b).trans
      (progress_destroy (socket_store _ a _) (.inr rfl) b)
  | close ha _ hl _ hcl => exact hcl.progress h ha (fun hc => (hl hc).resolve_right hX) hb
  | smart ha hsm =>
    refine Quiet.progress ?_
    exact .of_eq le_rfl (socket_store_ne _ _ (hb.ne ha hsm.not_local)) rfl
  | born => exact (Quiet.born hb).progress
  | attachSmart ha => exact (Quiet.attached ha hb (h.lt_nextAddr ha) _).progress
  | @attachTracker a s ha =>
    refine Quiet.progress ((Quiet.attached ha hb (h.lt_nextAddr ha) (trackerFor a)).trans ?_)
    exact .of_eq le_rfl rfl rfl
  | @join a c s q ha hq hloc hqloc hne =>
    have hsame : ({ s with peer := some c } : ASocket).queue = s.queue := rfl
    have hsame' : ({ q with peer := some a } : ASocket).queue = q.queue := rfl
    have hq' : (w.store a { s with peer := some c }).socket c = some q :=
      (socket_store_ne _ _ hne.symm).trans hq
    exact ((Quiet.store ha hsame rfl b).trans (Quiet.store hq' hsame' rfl b)).progress
  | @detach a c s q ha hsm hp hq =>
    have hsame : ({ q with peer := none } : ASocket).queue = q.queue := rfl
    exact ((Quiet.store hq hsame rfl b).trans (Quiet.free _ (hb.ne ha hsm.not_local))).progress
  | @notify a s ha =>
    have hsame : s.notifying.queue = s.queue := rfl
    exact (Quiet.store ha hsame rfl b).progress
  | @ask a s ha _ _ _ _ t destination =>
    have hsame : ({ s with transport := some t } : ASocket).queue = s.queue := rfl
    exact ((Quiet.store ha hsame rfl b).trans (.sendPacket _ _ _ b)).progress

theorem Setup.progress (hm : Setup X w w') (h : Graph w) (hX : ¬ X.loss) (hb : w.Tracked b) :
    Progress b w w' := by
  cases hm with
  | move hm => exact hm.progress h hX hb
  | transport =>
    refine Quiet.progress ?_
    exact .of_eq le_rfl rfl rfl
  | send x t => exact (Quiet.sendPacket w x t b).progress
  | disconnect hq hrem hp ha =>
    have hloc := h.isLocal_of_peer hq hp ha hrem.not_local
    have hpeer := (h.linked hq hp ha).peer
    have hc := (h.localSane ha hloc).closing_of_peer (by simp [hpeer])
    exact (Quiet.closedWith ha hc (h.peer_spec ha hpeer).1.symm
      (hb.ne hq hrem.not_local)).progress
  | close ha hc hcl => exact (hcl.quiet h ha hc hb).progress

theorem Setups.progress (hm : Setups X w w') (h : Graph w) (hX : ¬ X.loss) (hb : w.Tracked b) :
    Progress b w w' := by
  induction hm with
  | refl => exact (Quiet.refl b w).progress
  | tail hms hm ih => exact ih.trans (hm.progress (Setups.graph hms h) hX (ih.tracked hb))

theorem Enqueued.progress {bytes : List Byte} {r : ℤ} (he : Enqueued a s bytes w w' r)
    (h : Graph w) (ha : w.socket a = some s) (hc : s.closing = false) (hb : w.Tracked b) :
    Progress b w w' := by
  cases he with
  | queued => exact progress_queued ha bytes b
  | done hq => exact progress_wroteData ha hq _ _ b
  | blocked hq =>
    have ha' : (w.attempted a bytes).socket a = some s := ha
    exact (progress_wroteData ha hq _ _ b).trans (progress_queued ha' _ b)
  | failed hq _ hcl =>
    have ha' : ((w.attempted a bytes).markFailed a).socket a = some s := ha
    have hstep := (progress_wroteData ha hq _ _ b).trans
      (progress_markFailed (w.attempted a bytes) a b)
    exact hstep.trans (hcl.quiet (h.writeFailed a bytes) ha' hc (hstep.tracked hb)).progress

theorem Quiet.attachRemote (ha : w.socket a = some s) (hb : w.Tracked b) (haddr : a < w.nextAddr)
    (id : ℕ) (t : TransportId) : Quiet b w (w.attachRemote a s id t) := by
  have hset := Quiet.setTrace (w.attached a s (remoteFor a id t)) a
    (y := { w.trace a with remoteId := some id }) rfl rfl b
  exact (Quiet.attached ha hb haddr _).trans (hset.trans (.of_eq le_rfl rfl rfl))

theorem Receive.progress (hr : Receive x t w w') (h : Graph w) (hb : w.Tracked b) :
    Progress b w w' := by
  cases hr with
  | ignored => exact (Quiet.refl b w).progress
  | accept =>
    have hborn : w.born.socket w.nextAddr = some w.freshLocal := socket_store w _ _
    have hstep := Quiet.born hb
    refine (hstep.trans ((Quiet.attachRemote hborn (hstep.tracked hb) (Nat.lt_succ_self _)
      x.arg0 t).trans ((Quiet.sendPacket _ ⟨.aOkay, w.localSocketNextId, x.arg0, []⟩ t b).trans
        ?_))).progress
    have hsock : ((w.born.attachRemote w.nextAddr w.freshLocal x.arg0 t).sendPacket
        ⟨.aOkay, w.localSocketNextId, x.arg0, []⟩ t).socket w.nextAddr =
        some { w.freshLocal.plain with peer := some (w.nextAddr + 1) } := socket_store _ _ _
    exact .fdeventSet hsock rfl rfl _ b
  | refuse => exact (Quiet.sendPacket w _ t b).progress
  | @connect a s _ _ _ _ _ hf ha hp hst =>
    have hstep := Quiet.attachRemote ha hb (h.lt_nextAddr ha) x.arg0 t
    have hsock : (w.attachRemote a s x.arg0 t).socket a =
        some { s.plain with peer := some w.nextAddr } := socket_store _ _ _
    exact ((hstep.trans (.fdeventSet hsock rfl rfl _ b)).trans (.statusOnly hst b)).progress
  | resume _ _ _ _ _ ha => exact (Quiet.fdeventSet ha rfl rfl _ b).progress
  | close _ _ _ hf ha _ hcl =>
    obtain ⟨s', hs'⟩ := found h hf
    cases ha.symm.trans hs'.socket
    exact (hcl.quiet h ha hs'.closing hb).progress
  | @write a s _ _ _ _ _ _ hf ha henq =>
    obtain ⟨s', hs'⟩ := found h hf
    cases ha.symm.trans hs'.socket
    have hacc := Quiet.accept w a b
    have ha' : (w.accept a).socket a = some s := ha
    exact hacc.progress.trans (henq.progress (h.setTrace a _) ha' hs'.closing (hacc.tracked hb))
  | @writeAll a s _ _ _ _ _ ha hqueue =>
    have hacc := Quiet.accept w a b
    have ha' : (w.accept a).socket a = some s := ha
    have hwrote : Progress b (w.accept a) ((w.accept a).attempted a x.data) :=
      progress_wroteData ha' hqueue _ _ b
    refine hacc.progress.trans (hwrote.trans (Quiet.progress ?_))
    exact (Quiet.acknowledge _ a b).trans (.sendPacket _ _ t b)

end Moves

/-- The next callback reads the end of the file from a socket that is closing, or that is put on
the closing list in the callback because its local peer cannot be written to. -/
def Server.LosesData (w : Server) : Prop :=
  ∃ a rest s, w.listPending = a :: rest ∧ w.socket a = some s ∧ s.fde.events.read = true ∧
    s.fde.events.write = false ∧ (w.readResult s).2.1 = true ∧
    (s.closing = true ∨ w.breaksPeer s (w.readResult s).1)

def KeepsData (w : Server) (i : Input) : Prop := i.action = .dispatch → ¬ (i.before w).LosesData

/-- If the socket `s` of `w` at `a` is gone, what was queued on it has been written to its
descriptor, or a write to the descriptor has failed. -/
def Flushed (a : Addr) (s : ASocket) (w w' : Server) : Prop :=
  w'.socket a = none → (w'.trace a).failed = true ∨
    ∃ bytes, (w'.trace a).put = (w.trace a).put ++ bytes ∧ s.queue.flatten <+: bytes

theorem step_progress {i : Input} (h : Graph w) (hk : KeepsData w i)
    (hs : step host authEnabled w i = some w') (hb : w.Tracked b) : Progress b w w' := by
  have hlic : i.action = .dispatch → DispatchLicence ⟨False, True⟩ (i.before w) := by
    intro hact a rest s hl ha hr hw
    exact ⟨fun heof hloss => hk hact ⟨a, rest, s, hl, ha, hr, hw, heof, hloss⟩,
      fun _ _ _ => trivial⟩
  obtain ⟨w₁, hst, rfl⟩ := step_spec h hs hlic
  have h' := i.graph_before h
  have hb' : (i.before w).Tracked b := ⟨hb.old, hb.isLocal⟩
  have hp : Progress b (i.before w) w₁ := by
    cases hst with
    | setup hm => exact Setups.progress hm h' id hb'
    | receive _ hr => exact hr.progress h' hb'
  exact ⟨⟨hp.addr, hp.kind⟩, hp.failed, hp.kept⟩

theorem run_progress (h : Graph w) (hr : Run (step host authEnabled) KeepsData w w')
    (hb : w.Tracked b) : Progress b w w' := by
  have hinv : Graph w' ∧ Progress b w w' := by
    refine hr.invariant (I := fun w' => Graph w' ∧ Progress b w w')
      ⟨h, (Quiet.refl b w).progress⟩ ?_
    rintro w₁ i w₂ ⟨hg, hp⟩ hk hs
    exact ⟨hg.step hs, hp.trans (step_progress hg hk hs (hp.tracked hb))⟩
  exact hinv.2

/-- Data that is queued on a local socket, closing or not, is not lost in a run without the
callbacks described by `LosesData`. -/
theorem queued_data_flushed (host authEnabled : Bool) {w w' : Server}
    (hrun : Run (step host authEnabled) KeepsData init w)
    (hrun' : Run (step host authEnabled) KeepsData w w') {a : Addr} {s : ASocket}
    (ha : w.socket a = some s) (hloc : s.IsLocal) : Flushed a s w w' := by
  have h := Graph.run hrun
  have htracked : w.Tracked a := by
    refine ⟨h.lt_nextAddr ha, fun s' hs' => ?_⟩
    cases ha.symm.trans hs'
    exact hloc
  intro hgone
  refine (run_progress h hrun' htracked).kept.imp_right ?_
  rintro ⟨bytes, new, hput, hq⟩
  refine ⟨bytes, hput, new, ?_⟩
  have hempty : w'.queueOf a = [] := by rw [queueOf, hgone]
  rwa [queueOf_eq ha, hempty, flatten_nil, append_nil] at hq

theorem Graph.isLocal_of_closing {w : Server} {a : Addr} {s : ASocket} (h : Graph w)
    (ha : w.socket a = some s) (hc : s.closing = true) : s.IsLocal := by
  by_contra hother
  exact absurd (hc.symm.trans (h.otherSane ha hother).closing) (by simp)

/-- A client is connected to a device and has data queued; the device closes the connection. -/
def closingRun : List Input :=
  [input (.packet ⟨.aCnxn, 0x01000000, 4096, text "device::"⟩ 0) [] [],
    input (.acceptForward 0 (text "tcp:7")) [] [],
    input (.packet ⟨.aOkay, 7, 1, []⟩ 0) [] [],
    input (.packet ⟨.aWrte, 7, 1, text "abc"⟩ 0) [] [.eagain],
    input (.packet ⟨.aClse, 7, 1, []⟩ 0) [] []]

/-- The closing socket is destroyed once its data has been written. -/
theorem queued_data_flushed_closing : ∃ w w' s,
    Run (step true false) KeepsData init w ∧ Run (step true false) KeepsData w w' ∧
    w.socket 0 = some s ∧ s.closing = true ∧ s.queue = [text "abc"] ∧ w'.socket 0 = none ∧
    Flushed 0 s w w' := by
  have hexec : (exec (step true false) init closingRun).bind (fun w =>
      (step true false w (input (.poll [(0, .fdeWrite)]) [] [])).bind fun w₁ =>
        (step true false w₁ (input .dispatch [] [.count 2])).map fun w' =>
          ((w.socket 0).map fun s => (s.closing, s.queue),
            decide (w₁.listPending = [0] ∧ (w₁.socket 0).any (fun s => s.fde.events.write) = true ∧
              w'.socket 0 = none))) =
      some (some (true, [text "abc"]), true) := by decide +kernel
  obtain ⟨w, hw, hrest⟩ := bind_eq_some_iff.mp hexec
  obtain ⟨w₁, hw₁, hrest⟩ := bind_eq_some_iff.mp hrest
  obtain ⟨w', hw', heq⟩ := map_eq_some_iff.mp hrest
  simp only [Prod.mk.injEq, decide_eq_true_eq] at heq
  obtain ⟨hsock, hpending, hevents, hgone⟩ := heq
  obtain ⟨s, hs, hfields⟩ := map_eq_some_iff.mp hsock
  simp only [Prod.mk.injEq] at hfields
  obtain ⟨hclosing, hqueue⟩ := hfields
  have hrun : Run (step true false) KeepsData init w := by
    refine run_of_exec (fun i hi v hd => ?_) hw
    simp only [closingRun, mem_cons, not_mem_nil, or_false] at hi
    rcases hi with rfl | rfl | rfl | rfl | rfl <;> cases hd
  -- the event that is dispatched is not a read event
  have hkeeps : KeepsData w₁ (input .dispatch [] [.count 2]) := by
    rintro - ⟨a, rest, s', hl, hs', _, hwrite, _⟩
    cases hpending.symm.trans hl
    obtain ⟨s'', hs'', hw''⟩ := (any_eq_true _ _).mp hevents
    cases hs'.symm.trans hs''
    exact absurd (hwrite.symm.trans hw'') (by simp)
  have hrun₁ : Run (step true false) KeepsData w w₁ := by
    refine Run.snoc .refl (fun hd => ?_) hw₁
    cases hd
  have hrun' : Run (step true false) KeepsData w w' := hrun₁.snoc hkeeps hw'
  have hloc := (Graph.run hrun).isLocal_of_closing hs hclosing
  exact ⟨w, w', s, hrun, hrun', hs, hclosing, hqueue, hgone,
    queued_data_flushed true false hrun hrun' hs hloc⟩

/-- A client is connected to a device, has data queued and closes its end; the device closes the
connection before the handler of the client runs. -/
def pendingReadRun : List Input :=
  [input (.packet ⟨.aCnxn, 0x01000000, 4096, text "device::"⟩ 0) [] [],
    input (.acceptForward 0 (text "tcp:7")) [] [],
    input (.packet ⟨.aOkay, 7, 1, []⟩ 0) [] [],
    input (.packet ⟨.aWrte, 7, 1, text "abc"⟩ 0) [] [.eagain],
    input (.poll [(0, .fdeRead)]) [] [],
    input (.packet ⟨.aClse, 7, 1, []⟩ 0) [] []]

/-- The handler of the client then meets the end of the file. -/
def endOfFile : Input := input .dispatch [.data []] []

/-- The closing socket is destroyed without any attempt to write what is queued on it. -/
theorem queued_data_lost : ∃ w w' s, Run (step true false) (fun _ _ => True) init w ∧
    step true false w endOfFile = some w' ∧ w.socket 0 = some s ∧ s.IsLocal ∧ s.closing = true ∧
    ¬ Flushed 0 s w w' := by
  have hexec : (exec (step true false) init pendingReadRun).bind (fun w =>
      (step true false w endOfFile).map fun w' =>
        ((w.socket 0).map fun s => (s.closing, s.queue),
          decide (w'.socket 0 = none ∧ (w'.trace 0).failed = false ∧
            (w'.trace 0).put = (w.trace 0).put))) =
      some (some (true, [text "abc"]), true) := by decide +kernel
  obtain ⟨w, hw, hstep⟩ := bind_eq_some_iff.mp hexec
  obtain ⟨w', hw', heq⟩ := map_eq_some_iff.mp hstep
  simp only [Prod.mk.injEq, decide_eq_true_eq] at heq
  obtain ⟨hsock, hgone, hfailed, hput⟩ := heq
  obtain ⟨s, hs, hfields⟩ := map_eq_some_iff.mp hsock
  simp only [Prod.mk.injEq] at hfields
  obtain ⟨hclosing, hqueue⟩ := hfields
  have hrun : Run (step true false) (fun _ _ => True) init w :=
    run_of_exec (fun _ _ _ => trivial) hw
  have hloc := (Graph.run hrun).isLocal_of_closing hs hclosing
  refine ⟨w, w', s, hrun, hw', hs, hloc, hclosing, fun hfl => ?_⟩
  rcases hfl hgone with hf | ⟨bytes, hb, hpre⟩
  · exact absurd (hfailed.symm.trans hf) (by simp)
  · rw [hput] at hb
    rw [self_eq_append_right.mp hb, hqueue] at hpre
    exact absurd hpre (by decide)

end PaxAdb.Sockets
