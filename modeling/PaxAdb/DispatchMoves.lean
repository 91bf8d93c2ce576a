import PaxAdb.SmartMoves

/-!
# The event loop as moves

The handler of a ready descriptor drains the queue of its socket, reads and passes the data on, and
closes the socket at the end of the file. It needs a licence in four cases only: the file ends on
a socket that is closing, on a socket that waits for its connection, in the event in which the
socket sends its request, or in the event in which its local peer turns out to be broken.
-/

namespace PaxAdb.Sockets

open ASocket Server EndsIn

variable {X : Licence} {env : Env} {w w' : Server} {a p : Addr} {s q : ASocket}

/-- Passing `bytes` on breaks the local peer of `s`, while data is queued on `s` itself. -/
def Server.breaksPeer (w : Server) (s : ASocket) (bytes : List Byte) : Prop :=
  s.queue ≠ [] ∧ ∃ p q, s.peer = some p ∧ w.socket p = some q ∧ q.IsLocal ∧ q.queue = [] ∧
    w.attempt bytes = .failed

def Server.makesRequest (w : Server) (s : ASocket) (bytes : List Byte) : Prop :=
  ∃ p q, s.peer = some p ∧ w.socket p = some q ∧ q.IsSmart ∧ w.asksDevice q bytes

structure Passed (w : Server) (a : Addr) (s : ASocket) (bytes : List Byte) (w' : Server) :
    Prop where
  isLocal : ∀ x, w'.socket a = some x → x.IsLocal
  closing : ∀ x, w'.socket a = some x → x.closing = true →
    s.closing = true ∨ w.breaksPeer s bytes
  pending : ∀ x, w'.socket a = some x → x.closing = false → x.peer = none →
    s.closing = false ∧ (s.peer = none ∨ w.makesRequest s bytes)

section Pass

theorem Passed.refl (ha : w.socket a = some s) (hloc : s.IsLocal) (bytes : List Byte) :
    Passed w a s bytes w := by
  refine ⟨fun x hx => ?_, fun x hx => ?_, fun x hx => ?_⟩
  all_goals cases ha.symm.trans hx
  · exact hloc
  · exact .inl
  · exact fun hc hp => ⟨hc, .inl hp⟩

theorem Passed.congr {w'' : Server} {bytes : List Byte} (h : Passed w a s bytes w')
    (hx : ∀ y, w''.socket a = some y → ∃ x, w'.socket a = some x ∧ y.closing = x.closing ∧
      y.peer = x.peer ∧ y.enqueue = x.enqueue) : Passed w a s bytes w'' := by
  refine ⟨fun y hy => ?_, fun y hy => ?_, fun y hy => ?_⟩
  all_goals obtain ⟨x, hx', hc, hp, hk⟩ := hx y hy
  · exact hk.trans (h.isLocal x hx')
  · exact fun hcl => h.closing x hx' (hc.symm.trans hcl)
  · exact fun hcl hpn => h.pending x hx' (hc.symm.trans hcl) (hp.symm.trans hpn)

theorem pause_spec (hx : ∀ x, w.socket a = some x → x.IsLocal ∧ (x.peer = none ∨ w.Aside x) ∧
      (x.fde.events.read = false ∨ x.closing = true)) :
    Ends (fun w' => Moves X w w' ∧ ∀ y, w'.socket a = some y → ∃ x, w.socket a = some x ∧
      y.closing = x.closing ∧ y.peer = x.peer ∧ y.enqueue = x.enqueue)
      (w.fdeventDel a .fdeRead) := by
  cases ha : w.socket a with
  | none => simp only [fdeventDel, Server.get, ha, error_bind, EndsIn, or_true]
  | some x =>
    obtain ⟨hloc, hp, hr⟩ := hx x ha
    refine of_eq (fdeventDel_eq ha .fdeRead)
      ⟨.single (.pause ha hloc hp hr), fun y hy => ?_⟩
    rw [fdeventSet_socket] at hy
    cases hy
    exact ⟨x, rfl, rfl, rfl, rfl⟩

def passOn (a : Addr) (x : Server × ℤ) : Except Fault (Server × Option LastResult) := do
  if x.2 < 0 then return (x.1, none)
  else if x.2 > 0 then do
    let w ← x.1.fdeventDel a .fdeRead
    return (w, some .nonzero)
  else return (x.1, some .zero)

theorem localSocketPass_eq {bytes : List Byte} (hb : bytes ≠ []) (r : LastResult)
    (ha : w.socket a = some s) (hp : s.peer = some p) (hq : w.socket p = some q) :
    localSocketPass env a bytes r w = (callEnqueue env enqueueDepth p bytes
      (if q.enqueue = .remoteSocketEnqueue then
        w.setTrace a { w.trace a with got := (w.trace a).got ++ bytes } else w) >>= passOn a) := by
  cases bytes with
  | nil => exact absurd rfl hb
  | cons b bytes =>
    simp only [localSocketPass, get_eq ha, ok_bind, hp, get_eq hq]
    rfl

def PassResult (X : Licence) (w : Server) (a : Addr) (s : ASocket) (bytes : List Byte)
    (x : Server × Option LastResult) : Prop :=
  Moves X w x.1 ∧ ∀ r, x.2 = some r → Passed w a s bytes x.1

variable {bytes : List Byte}

section Peers

variable (h : Graph w) (ha : w.socket a = some s) (hloc : s.IsLocal) (hp : s.peer = some p)

include h ha hloc hp

theorem pass_remote (hq : w.socket p = some q) (hrem : q.IsRemote) (hb : bytes ≠ [])
    (hread : s.fde.state.read = true) (hev : s.fde.events.read = false) (r : LastResult) :
    Ends (PassResult X w a s bytes) (localSocketPass env a bytes r w) := by
  have hlink := h.linked ha hp hq
  have hne : p ≠ a := (h.peer_spec ha hp).1
  have hnot : ¬ q.IsLocal := fun hl => absurd (hrem.symm.trans hl) (by simp)
  obtain ⟨t, ht⟩ := Option.ne_none_iff_exists'.mp ((h.otherSane hq hnot).remote hrem).2.2.2.1
  let w₁ := w.setTrace a { w.trace a with got := (w.trace a).got ++ bytes }
  have ha₁ : (w₁.sendPacket ⟨.aWrte, s.id, q.id, bytes⟩ t).socket a = some s := ha
  have henq : callEnqueue env enqueueDepth p bytes w₁ =
      .ok (w₁.sendPacket ⟨.aWrte, s.id, q.id, bytes⟩ t, 1) := by
    have hq₁ : w₁.socket p = some q := hq
    have ha₁ : w₁.socket a = some s := ha
    simp only [enqueueDepth, callEnqueue, get_eq hq₁, ok_bind, hrem, remoteSocketEnqueue,
      hlink.peer, ht, get_eq ha₁, pure_eq_ok]
  rw [localSocketPass_eq hb r ha hp hq, if_pos hrem, henq, ok_bind]
  simp only [passOn, fdeventDel_eq ha₁, ok_bind, pure_eq_ok]
  refine ⟨.single (.feed ha hloc hp hq hrem ht hb hread hev), fun _ _ => ?_⟩
  refine (Passed.refl ha hloc bytes).congr fun y hy => ⟨s, ha, ?_⟩
  have hy' := (fdeventSet_socket (w₁.sendPacket ⟨.aWrte, s.id, q.id, bytes⟩ t) a s
    (s.fde.state.without .fdeRead)).symm.trans hy
  cases hy'
  exact ⟨rfl, rfl, rfl⟩

theorem pass_local (hq : w.socket p = some q) (hqloc : q.IsLocal) (hb : bytes ≠ [])
    (hev : s.fde.events.read = false) (r : LastResult) :
    Ends (PassResult X w a s bytes) (localSocketPass env a bytes r w) := by
  have hlink := h.linked ha hp hq
  obtain ⟨w', r', hw', henq⟩ := localSocketEnqueue_spec h hq hqloc bytes
  have hm : Moves X w w' := henq.moves h hq hqloc hlink.peer ha
    (fun hr => absurd (hloc.symm.trans hr) (by simp))
    (fun hr => absurd (hloc.symm.trans hr) (by simp))
  have h' := hm.graph h
  have hcall : callEnqueue env enqueueDepth p bytes w = .ok (w', r') := by
    simp only [enqueueDepth, callEnqueue, get_eq hq, ok_bind, hqloc, hw']
  have hnot : ¬ q.enqueue = .remoteSocketEnqueue := by simp [hqloc]
  -- the reading socket is as before, or it is on the closing list as well
  have hself := henq.peer h hq hlink.peer ha
  have hpassed : Passed w a s bytes w' := by
    rcases hself with hsame | ⟨hqueue, hfail, hleft⟩
    · exact (Passed.refl ha hloc bytes).congr fun y hy => by
        cases hsame.symm.trans hy
        exact ⟨s, ha, rfl, rfl, rfl⟩
    · refine ⟨fun x hx => (hleft x hx).2.1, fun x hx _ => .inr ⟨(hleft x hx).2.2.2, ?_⟩,
        fun x hx hc => ?_⟩
      · exact ⟨p, q, hp, hq, hqloc, hqueue, hfail⟩
      · exact absurd ((hleft x hx).1.symm.trans hc) (by simp)
  have hcalm : ∀ x, w'.socket a = some x → x.IsLocal ∧ (x.peer = none ∨ w'.Aside x) ∧
      (x.fde.events.read = false ∨ x.closing = true) := by
    intro x hx
    rcases hself with hsame | ⟨_, _, hleft⟩
    · cases hsame.symm.trans hx
      refine ⟨hloc, .inr ?_, .inl hev⟩
      obtain ⟨_, y, hy, _⟩ := h'.peer_spec hx hp
      refine ⟨p, y, hp, hy, fun hr => ?_⟩
      rcases henq.self h hq with ⟨y', hy', _, _, hk, _⟩ | hnone
      · cases hy.symm.trans hy'
        exact absurd (hr.symm.trans (hk.trans hqloc)) (by simp)
      · exact absurd (hnone.symm.trans hy) (by simp)
    · exact ⟨(hleft x hx).2.1, .inl (hleft x hx).2.2.1, .inr (hleft x hx).1⟩
  rw [localSocketPass_eq hb r ha hp hq, if_neg hnot, hcall, ok_bind]
  simp only [passOn]
  split
  · exact ⟨hm, fun _ hr => absurd hr (by simp)⟩
  split
  · refine bind (pause_spec (X := X) hcalm) fun w'' hw'' => ?_
    exact ⟨hm.trans hw''.1, fun _ _ => hpassed.congr hw''.2⟩
  · exact ⟨hm, fun _ _ => hpassed⟩

omit hloc in
theorem pass_smart (hq : w.socket p = some q) (hsm : q.IsSmart) (hb : bytes ≠ [])
    (hev : s.fde.events.read = false) (r : LastResult) :
    Ends (PassResult X w a s bytes) (localSocketPass env a bytes r w) := by
  have hlink := h.linked ha hp hq
  have hc : Client w p q a s := ⟨hq, hsm, hlink.peer, ha⟩
  have hcall : callEnqueue env enqueueDepth p bytes w =
      smartSocketEnqueue env (callReady env (callEnqueue env 1)) p bytes w := by
    simp only [enqueueDepth]
    rw [callEnqueue]
    simp only [get_eq hq, ok_bind, hsm]
  have hnot : ¬ q.enqueue = .remoteSocketEnqueue := by simp [hsm]
  rw [localSocketPass_eq hb r ha hp hq, if_neg hnot, hcall]
  refine bind (smartSocketEnqueue_spec (X := X) h hc bytes 0) fun x hx => ?_
  obtain ⟨hm, hres⟩ := hx
  simp only [passOn]
  split
  · exact ⟨hm, fun _ hr => absurd hr (by simp)⟩
  next hneg =>
    have hserved := hres.resolve_left fun he => hneg (by simp [he])
    have hpassed : Passed w a s bytes x.1 := by
      refine ⟨hserved.isLocal, fun y hy hcl => ?_, fun y hy _ hpn =>
        ⟨hc.closing h, .inr ⟨p, q, hp, hq, hsm, (hserved.peer y hy hpn).2⟩⟩⟩
      exact absurd ((hserved.closing y hy).symm.trans hcl) (by simp)
    split
    next hpos =>
      have hnone := (hserved.result.resolve_left fun he => by simp [he] at hpos).2
      refine bind (pause_spec (X := X) (a := a) fun y hy => ⟨hserved.isLocal y hy,
        .inl (hnone y hy), .inl ?_⟩) fun w'' hw'' => ⟨hm.trans hw''.1, fun _ _ =>
          hpassed.congr hw''.2⟩
      by_contra hne
      exact absurd (hserved.events y hy (by simpa using hne)) (by simp [hev])
    · exact ⟨hm, fun _ _ => hpassed⟩

theorem pass_tracker (hq : w.socket p = some q) (htr : q.IsTracker) (hb : bytes ≠ [])
    (r : LastResult) : Ends (PassResult X w a s bytes) (localSocketPass env a bytes r w) := by
  have hlink := h.linked ha hp hq
  have hnl : ¬ q.IsLocal := fun hl => absurd (htr.symm.trans hl) (by simp)
  have hnr : ¬ q.IsRemote := fun hl => absurd (htr.symm.trans hl) (by simp)
  obtain ⟨w', hw', hcl⟩ := close_client h hq hnl hnr hlink.peer ha
  have hcall : callEnqueue env enqueueDepth p bytes w = .ok (w', -1) := by
    simp only [enqueueDepth, callEnqueue, get_eq hq, ok_bind, htr, deviceTrackerEnqueue, hw',
      pure_eq_ok]
  rw [localSocketPass_eq hb r ha hp hq, if_neg hnr, hcall, ok_bind]
  refine ⟨.single (Move.close_of_peer h ha hloc (by simp [hp]) hcl), fun _ hr => ?_⟩
  exact absurd hr (by simp)

omit hp in
theorem localSocketPass_spec (hev : s.fde.events.read = false)
    (hread : bytes ≠ [] → s.peer ≠ none → s.fde.state.read = true) (r : LastResult) :
    Ends (PassResult X w a s bytes) (localSocketPass env a bytes r w) := by
  have hstay : PassResult X w a s bytes (w, some r) :=
    ⟨.refl, fun _ _ => Passed.refl ha hloc bytes⟩
  by_cases hb : bytes = []
  · subst hb
    refine of_eq ?_ hstay
    simp only [localSocketPass, get_eq ha, ok_bind, pure_eq_ok]
  cases hp : s.peer with
  | none =>
    have heq : localSocketPass env a bytes r w = .ok (w, some r) := by
      cases bytes with
      | nil => exact absurd rfl hb
      | cons b bytes => simp only [localSocketPass, get_eq ha, ok_bind, hp, pure_eq_ok]
    exact of_eq heq hstay
  | some p =>
    obtain ⟨_, q, hq, _⟩ := h.peer_spec ha hp
    cases hk : q.enqueue with
    | localSocketEnqueue => exact pass_local h ha hloc hp hq hk hb hev r
    | remoteSocketEnqueue =>
      exact pass_remote h ha hloc hp hq hk hb (hread hb (by simp [hp])) hev r
    | smartSocketEnqueue => exact pass_smart h ha hp hq hk hb hev r
    | deviceTrackerEnqueue => exact pass_tracker h ha hloc hp hq hk hb r

end Peers

end Pass

section Readable

def Server.readResult (w : Server) (s : ASocket) : List Byte × Bool × LastResult :=
  readLoop (if s.fde.bad then [ReadResult.error] else w.reads) MAX_PAYLOAD [] .nonzero

structure ReadLicence (X : Licence) (w : Server) (s : ASocket) : Prop where
  loss : (w.readResult s).2.1 = true →
    s.closing = true ∨ w.breaksPeer s (w.readResult s).1 → X.loss
  drop : (w.readResult s).2.1 = true → s.closing = false →
    s.peer = none ∨ w.makesRequest s (w.readResult s).1 → X.drop

theorem readResult_bad (hb : s.fde.bad = true) : (w.readResult s).1 = [] := by
  simp [readResult, hb, MAX_PAYLOAD, readLoop]

def afterPass (a : Addr) (isEof : Bool) : Server × Option LastResult → Except Fault Server
  | (w, none) => .ok w
  | (w, some r) => do
      let s ← w.get a
      if (s.fde.forceEof ∧ r = .zero) ∨ isEof then w.close a else return w

theorem localSocketReadable_spec (h : Graph w) (ha : w.socket a = some s) (hloc : s.IsLocal)
    (hev : s.fde.events.read = false)
    (hread : s.fde.state.read = true ∨ s.closing = true ∨ s.fde.bad = true)
    (hX : ReadLicence X w s) : Ends (Moves X w) (localSocketReadable env a w) := by
  have hsane := h.localSane ha hloc
  have hfeed : (w.readResult s).1 ≠ [] → s.peer ≠ none → s.fde.state.read = true := by
    intro hb hp
    rcases hread with hr | hc | hbad
    · exact hr
    · exact absurd (hsane.closing hc).1 hp
    · exact absurd (readResult_bad hbad) hb
  have heq : localSocketReadable env a w =
      (localSocketPass env a (w.readResult s).1 (w.readResult s).2.2 w >>=
        afterPass a (w.readResult s).2.1) := by
    simp only [localSocketReadable, get_eq ha, ok_bind]
    rfl
  rw [heq]
  refine bind (localSocketPass_spec (X := X) h ha hloc hev hfeed _) fun x hx => ?_
  obtain ⟨hm, hpassed⟩ := hx
  rcases x with ⟨w', _ | r⟩
  · exact hm
  have hpassed := hpassed r rfl
  have h' := hm.graph h
  cases ha' : w'.socket a with
  | none => simp only [afterPass, Server.get, ha', error_bind, EndsIn, or_true]
  | some s' =>
    have hloc' := hpassed.isLocal s' ha'
    have heof := (h'.localSane ha' hloc').eof
    simp only [afterPass, get_eq ha', ok_bind, heof, Bool.false_eq_true, false_and, false_or]
    split
    next he =>
      obtain ⟨w'', hw'', hcl⟩ := close_eq h' ha' hloc'
      refine of_eq hw'' (hm.tail (.close ha' hloc' (fun hc => .inr (hX.loss he ?_))
        (fun hc hp => ?_) hcl))
      · exact hpassed.closing s' ha' hc
      · obtain ⟨hsc, hwait⟩ := hpassed.pending s' ha' hc hp
        exact hX.drop he hsc hwait
    · exact hm

end Readable

section Writable

theorem drainLoop_done_iff (ws : List WriteResult) (queue : List (List Byte)) :
    (drainLoop ws queue).2.2 = .done ↔ (drainLoop ws queue).1 = [] := by
  induction queue generalizing ws with
  | nil => simp [drainLoop]
  | cons p queue ih =>
    rcases hw : writeLoop true ws p with ⟨rest, ws', outcome⟩
    cases outcome with
    | done => simpa only [drainLoop, hw] using ih ws'
    | blocked | failed => simp [drainLoop, hw]

theorem drainLoop_length (ws : List WriteResult) (queue : List (List Byte)) :
    (drainLoop ws queue).1.length ≤ queue.length := by
  induction queue generalizing ws with
  | nil => simp [drainLoop]
  | cons p queue ih =>
    unfold drainLoop
    split
    · exact (ih _).trans (Nat.le_succ _)
    · simp

theorem drainLoop_suffix (ws : List WriteResult) (queue : List (List Byte)) :
    (drainLoop ws queue).1.flatten <:+ queue.flatten := by
  induction queue generalizing ws with
  | nil => simp [drainLoop]
  | cons p queue ih =>
    have hsuf := writeLoop_suffix true ws p
    unfold drainLoop
    split
    · rw [List.flatten_cons]
      exact (ih _).trans (List.suffix_append _ _)
    next heq =>
      rw [heq] at hsuf
      obtain ⟨pre, hpre⟩ := hsuf
      exact ⟨pre, by simp [← hpre]⟩

def GoesOn (X : Licence) (s : ASocket) (a : Addr) (w' : Server) : Prop :=
  ∃ s', w'.socket a = some s' ∧ s'.IsLocal ∧ s'.fde.events.read = false ∧
    (s'.fde.state.read = true ∨ s'.fde.bad = true ↔ s.fde.state.read = true ∨ s.fde.bad = true) ∧
    ReadLicence X w' s'

theorem emptied_socket (w : Server) (a : Addr) (s : ASocket) :
    (w.emptied a s).socket a = some { s with
      queue := []
      fde := (w.store a { s with queue := [] }).fdeAfter a { s with queue := [] }
        (s.fde.state.without .fdeWrite) } :=
  fdeventSet_socket _ _ _ _

theorem emptied_socket_ne {b : Addr} (w : Server) (s : ASocket) (h : b ≠ a) :
    (w.emptied a s).socket b = w.socket b :=
  (fdeventSet_socket_ne _ _ _ h).trans (socket_store_ne _ _ h)

theorem drained_spec (h : Graph w) (ha : w.socket a = some s) (hloc : s.IsLocal)
    (hne : s.queue ≠ []) (hc : s.closing = false) (hev : s.fde.events = .none)
    (hp : s.peer = some p) (hq : w.socket p = some q) (writes : List WriteResult) :
    ∃ w', callReady env (callEnqueue env enqueueDepth) p
        ((w.wroteData a s.queue.flatten writes).emptied a s) = .ok w' ∧
      Moves X w w' ∧ GoesOn X s a w' := by
  have hlink := h.linked ha hp hq
  have hpa : p ≠ a := (h.peer_spec ha hp).1
  let w₁ := w.wroteData a s.queue.flatten writes
  let w₂ := w₁.emptied a s
  have hqw : w₂.socket p = some q := (emptied_socket_ne w₁ s hpa).trans hq
  have haw := emptied_socket w₁ a s
  have hsm : ¬ q.IsSmart := fun hs => hne (hlink.smart' hs).1
  have hevw : s.fde.events.write = false := by
    rw [hev]
    rfl
  -- what is left of `s`, whatever the peer does
  have hgoes : ∀ w' : Server, w'.socket a = w₂.socket a →
      (∀ y, w'.socket p = some y → ¬ y.IsSmart) → GoesOn X s a w' := by
    intro w' hsock hpeer
    refine ⟨_, hsock.trans haw, hloc, ?_, ?_, ?_, ?_⟩
    · by_contra hr
      have := (fdeAfter_events_le (w := w₁.store a { s with queue := [] }) (a := a)
        (s := { s with queue := [] })).2 (by simpa using hr)
      rw [hev] at this
      cases this
    · rw [fdeAfter_state, fdeAfter_bad]
      simp [Events.without, Events.fdeWrite]
    · rintro _ (hcl | ⟨hqueue, _⟩)
      · exact absurd (hc.symm.trans hcl) (by simp)
      · exact absurd rfl hqueue
    · rintro _ _ (hn | ⟨x, y, hx, hy, hs, _⟩)
      · exact absurd (hp.symm.trans hn) (by simp)
      · cases hp.symm.trans hx
        exact absurd hs (hpeer y hy)
  cases hk : q.enqueue with
  | remoteSocketEnqueue =>
    have hnl : ¬ q.IsLocal := fun hl => absurd (hk.symm.trans hl) (by simp)
    obtain ⟨hr, _, _, htr, _⟩ := (h.otherSane hq hnl).remote hk
    obtain ⟨t, ht⟩ := Option.ne_none_iff_exists'.mp htr
    refine ⟨_, callReady_remote hqw hr hlink.peer haw ht,
      .single (.answer ha hloc hp hq hk ht hne hevw writes), hgoes _ rfl fun y hy => ?_⟩
    cases hqw.symm.trans hy
    exact hsm
  | localSocketEnqueue =>
    have hr := ((h.localSane hq hk).plain_of_peer (by simp [hlink.peer])).1
    have hside : w.Aside s := ⟨p, q, hp, hq, fun hr => absurd (hk.symm.trans hr) (by simp)⟩
    have hside' : w₂.Aside q := ⟨a, _, hlink.peer, haw, fun hr =>
      absurd (hloc.symm.trans hr) (by simp)⟩
    refine ⟨_, callReady_local hqw hr, .tail (.single (.drained ha hloc hside hevw writes))
      (.resume hqw hk hside'), hgoes _ (fdeventSet_socket_ne _ _ _ hpa.symm) fun y hy => ?_⟩
    rw [resumed, fdeventSet_socket] at hy
    cases hy
    exact hsm
  | smartSocketEnqueue => exact absurd hk hsm
  | deviceTrackerEnqueue =>
    have hnl : ¬ q.IsLocal := fun hl => absurd (hk.symm.trans hl) (by simp)
    have htr := (h.otherSane hq hnl).tracker hk
    have hside : w.Aside s := ⟨p, q, hp, hq, fun hr => absurd (hk.symm.trans hr) (by simp)⟩
    refine ⟨_, callReady_tracker hqw htr.1 htr.2.2.2.2.1, .single (.drained ha hloc hside hevw
      writes), hgoes _ rfl fun y hy => ?_⟩
    cases hqw.symm.trans hy
    exact hsm

def Server.drainedBytes (w : Server) (s : ASocket) : List Byte :=
  s.queue.flatten.take (s.queue.flatten.length - (drainLoop w.writes s.queue).1.flatten.length)

theorem drainedBytes_append (w : Server) (s : ASocket) :
    s.queue.flatten = w.drainedBytes s ++ (drainLoop w.writes s.queue).1.flatten :=
  (take_append_of_suffix (drainLoop_suffix _ _)).symm

theorem localSocketWritable_spec (h : Graph w) (ha : w.socket a = some s) (hloc : s.IsLocal)
    (hne : s.queue ≠ []) (hev : s.fde.events = .none) :
    Ends (fun x => Moves X w x.1 ∧ (x.2 = true → s.closing = false ∧ GoesOn X s a x.1))
      (localSocketWritable env a w) := by
  have hsane := h.localSane ha hloc
  rcases hd : drainLoop w.writes s.queue with ⟨queue, writes, outcome⟩
  have hflat := drainedBytes_append w s
  have hlen := drainLoop_length w.writes s.queue
  have hdone := drainLoop_done_iff w.writes s.queue
  have hbytes : w.drainedBytes s =
      s.queue.flatten.take (s.queue.flatten.length - queue.flatten.length) := by
    rw [drainedBytes, hd]
  rw [hd] at hflat hlen hdone
  simp only at hflat hlen hdone
  simp only [localSocketWritable, get_eq ha, ok_bind, hd, ← hbytes]
  cases outcome with
  | blocked =>
    have hq : queue ≠ [] := fun hq => by simp [hq] at hdone
    exact ⟨.single (.drain ha hloc hq hlen hflat writes), fun hx => absurd hx (by simp)⟩
  | failed =>
    have hq : queue ≠ [] := fun hq => by simp [hq] at hdone
    have hdrain : Move X w ((w.wroteData a (w.drainedBytes s) writes).store a
        { s with queue := queue }) := .drain ha hloc hq hlen hflat writes
    let w₂ := ((w.wroteData a (w.drainedBytes s) writes).store a
      { s with queue := queue }).markFailed a
    have h₂ : Graph w₂ := (hdrain.graph h).setTrace a _
    have ha₂ : w₂.socket a = some { s with queue := queue } := socket_store _ _ _
    obtain ⟨w', hw', hcl⟩ := close_eq h₂ ha₂ hloc
    refine bind (P := fun x => x = w') (of_eq hw' rfl) fun x hx => ?_
    subst hx
    refine ⟨.tail (.tail (.single hdrain) (.failed a)) (.close ha₂ hloc (fun _ => .inl ?_)
      (fun hc hp => absurd hp (hsane.backlog hc hne)) hcl), fun hx => absurd hx (by simp)⟩
    simp [markFailed, setTrace]
  | done =>
    have hq : queue = [] := hdone.mp rfl
    subst hq
    rw [List.flatten_nil, List.append_nil] at hflat
    rw [← hflat]
    by_cases hc : s.closing = true
    · rw [if_pos hc]
      refine bind (P := fun x => x = ((w.wroteData a s.queue.flatten writes).store a
        { s with queue := [] }).finished a { s with queue := [] }) (of_eq ?_ rfl)
        fun x hx => ?_
      · exact closeSocket_plain (s := { s with queue := [] }) (socket_store _ _ _)
          (hsane.closing hc).1 (h.plain_of_closing ha hloc hc).2
      · subst hx
        exact ⟨.single (.flush ha hloc hc writes), fun hx => absurd hx (by simp)⟩
    · rw [if_neg hc]
      have hc : s.closing = false := by simpa using hc
      obtain ⟨p, hp⟩ := Option.ne_none_iff_exists'.mp (hsane.backlog hc hne)
      obtain ⟨_, q, hq, _⟩ := h.peer_spec ha hp
      obtain ⟨w', hw', hm, hgoes⟩ := drained_spec (X := X) h ha hloc hne hc hev hp hq writes
      have hdel : ((w.wroteData a s.queue.flatten writes).store a
        { s with queue := [] }).fdeventDel
          a .fdeWrite = .ok ((w.wroteData a s.queue.flatten writes).emptied a s) :=
        fdeventDel_eq (socket_store _ _ _) _
      refine of_eq (a := (w', true)) ?_ ⟨hm, fun _ => ⟨hc, hgoes⟩⟩
      change (((w.wroteData a s.queue.flatten writes).store a { s with queue := [] }).fdeventDel
          a .fdeWrite >>= _) = _
      rw [hdel, ok_bind]
      split
      next hn => exact absurd (hn.symm.trans hp) (by simp)
      next p' hp' =>
        cases hp'.symm.trans hp
        rw [hw', ok_bind, pure_eq_ok]

end Writable

section Loop

def DispatchLicence (X : Licence) (w : Server) : Prop :=
  ∀ a rest s, w.listPending = a :: rest → w.socket a = some s → s.fde.events.read = true →
    s.fde.events.write = false → ReadLicence X w s

theorem Graph.live_of_pending (h : Graph w) (hm : a ∈ w.listPending) :
    ∃ s, w.socket a = some s := by
  cases ha : w.socket a with
  | none => exact absurd hm ((h.good a).gone ha).pending
  | some s => exact ⟨s, rfl⟩

theorem ReadLicence.dequeue (hX : ReadLicence X w s) (h : Graph w) (ha : w.socket a = some s)
    (rest : List Addr) :
    ReadLicence X { w.store a { s with fde := { s.fde with events := .none } } with
      listPending := rest } { s with fde := { s.fde with events := .none } } := by
  have hsock : ∀ p q, s.peer = some p → (w.store a
      { s with fde := { s.fde with events := .none } }).socket p = some q →
        w.socket p = some q := by
    intro p q hp hq
    rwa [socket_store_ne _ _ (h.peer_spec ha hp).1] at hq
  refine ⟨fun he hl => hX.loss he (hl.imp_right ?_),
    fun he hc hl => hX.drop he hc (hl.imp_right ?_)⟩
  · rintro ⟨hne, p, q, hp, hq, hrest⟩
    exact ⟨hne, p, q, hp, hsock p q hp hq, hrest⟩
  · rintro ⟨p, q, hp, hq, hrest⟩
    exact ⟨p, q, hp, hsock p q hp hq, hrest⟩

theorem dispatch_spec (h : Graph w) (hX : DispatchLicence X w) :
    Ends (Moves X w) (dispatch env w) := by
  cases hl : w.listPending with
  | nil =>
    refine of_eq (a := w) ?_ .refl
    simp only [dispatch, hl]
  | cons a rest =>
    obtain ⟨s, ha⟩ := h.live_of_pending (a := a) (by simp [hl])
    have hloc := h.isLocal_of_pending ha (by simp [hl])
    have hsane := h.localSane ha hloc
    let s₁ : ASocket := { s with fde := { s.fde with events := .none } }
    let w₁ : Server := { w.store a s₁ with listPending := rest }
    have hm : Move X w w₁ := .dequeue hl ha
    have h₁ := hm.graph h
    have ha₁ : w₁.socket a = some s₁ := socket_store _ _ _
    simp only [dispatch, hl, get_eq ha, ok_bind]
    refine mono (P := Moves X w₁) ?_ fun _ hx => .head hm hx
    change Ends (Moves X w₁) (localSocketEventFunc env a s.fde.events w₁)
    by_cases hw : s.fde.events.write = true
    · have hne : s₁.queue ≠ [] := hsane.writing (hsane.events hw)
      simp only [localSocketEventFunc, hw, if_true]
      refine bind (localSocketWritable_spec (X := X) h₁ ha₁ hloc hne rfl) fun x hx => ?_
      obtain ⟨hmx, hgo⟩ := hx
      split
      next hcond =>
        obtain ⟨hc, s', ha', hloc', hev', hiff, hlic⟩ := hgo hcond.1
        refine (localSocketReadable_spec (hmx.graph h₁) ha' hloc' hev' ?_ hlic).mono
          fun _ hy => hmx.trans hy
        rcases hsane.reading hcond.2 with hr | hcl | hb
        · exact (hiff.mpr (.inl hr)).imp_right .inr
        · exact absurd (hc.symm.trans hcl) (by simp)
        · exact (hiff.mpr (.inr hb)).imp_right .inr
      · exact hmx
    · simp only [localSocketEventFunc, hw, Bool.false_eq_true, if_false, ok_bind]
      split
      next hcond =>
        have hX₁ := (hX a rest s hl ha hcond.2 (by simpa using hw)).dequeue h ha rest
        exact localSocketReadable_spec h₁ ha₁ hloc rfl (hsane.reading hcond.2) hX₁
      · exact .refl

end Loop

end PaxAdb.Sockets
