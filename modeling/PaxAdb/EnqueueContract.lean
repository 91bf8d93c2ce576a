import PaxAdb.SocketInvariant

/-!
# What an enqueue callback owes to its caller

A socket that passes a packet on to its peer gives the packet away, and goes on with itself unless
the callback returns a negative value. So the callback has to account for the packet, and to say
when it has closed the caller. `local_socket_enqueue` does neither when writing fails, and
`smart_socket_enqueue` does not say that a new tracker has closed the client.
-/

namespace PaxAdb.Sockets

open ASocket Server Runs Option

variable {env : Env} {w w' : Server} {a b p : Addr} {s q : ASocket} {bytes : List Byte} {r : ℤ}

theorem callEnqueue_eq (env : Env) (depth : ℕ) (hq : w.socket p = some q) (bytes : List Byte) :
    callEnqueue env (depth + 1) p bytes w =
      match q.enqueue with
      | .localSocketEnqueue => localSocketEnqueue p bytes w
      | .remoteSocketEnqueue => remoteSocketEnqueue p bytes w
      | .deviceTrackerEnqueue => deviceTrackerEnqueue p w
      | .smartSocketEnqueue =>
          smartSocketEnqueue env (callReady env (callEnqueue env depth)) p bytes w := by
  rw [callEnqueue, get_eq hq]
  rfl

section Reports

/-- The socket at `a` has been closed or destroyed. -/
def Server.Closed (w : Server) (a : Addr) : Prop := ∀ x, w.socket a = some x → x.closing = true

theorem not_closed (ha : w.socket a = some s) (hc : s.closing = false) : ¬ w.Closed a :=
  fun h => absurd ((h s ha).symm.trans hc) (by simp)

theorem Enqueued.closed_iff (he : Enqueued p q bytes w w' r) (h : Graph w)
    (hq : w.socket p = some q) (hp : q.peer = some a) (ha : w.socket a = some s)
    (hc : s.closing = false) : w'.Closed a ↔ q.queue = [] ∧ w.attempt bytes = .failed := by
  rcases he.peer h hq hp ha with hsame | ⟨hempty, hfail, hleft⟩
  · refine iff_of_false (not_closed hsame hc) fun hf => ?_
    -- a failed attempt would have closed both
    cases he with
    | queued hne => exact hne hf.1
    | done _ hout | blocked _ hout => exact absurd (hout.symm.trans hf.2) (by simp)
    | failed _ _ hcl =>
      obtain ⟨y, hy, hrem⟩ := hcl.left (h.writeFailed p bytes) hq (Or.inr hp) hsame
      exact absurd (hrem.closing.symm.trans hc) (by simp)
  · exact iff_of_true (fun x hx => (hleft x hx).1) ⟨hempty, hfail⟩

theorem Enqueued.result (he : Enqueued p q bytes w w' r) : ¬ r < 0 := by
  cases he <;> decide

/-- What a local socket learns from the enqueue callback of its peer: a negative value when the
callback has closed it, except in two cases. -/
theorem enqueue_reports_iff (h : Graph w) (ha : w.socket a = some s) (hloc : s.IsLocal)
    (hp : s.peer = some p) (hq : w.socket p = some q)
    (hcall : callEnqueue env enqueueDepth p bytes w = .ok (w', r)) :
    (w'.Closed a → r < 0) ↔
      ¬ (q.IsLocal ∧ q.queue = [] ∧ w.attempt bytes = .failed) ∧
      ¬ (q.IsSmart ∧ w.asksVainly env q bytes) := by
  have hback := (h.linked ha hp hq).peer
  have hc : s.closing = false := (h.localSane ha hloc).closing_of_peer (by simp [hp])
  rw [enqueueDepth, callEnqueue_eq env 1 hq] at hcall
  cases hkind : q.enqueue with
  | localSocketEnqueue =>
    obtain ⟨w₁, r₁, hw₁, henq⟩ := localSocketEnqueue_spec h hq hkind bytes
    simp only [hkind] at hcall
    cases hcall.symm.trans hw₁
    rw [henq.closed_iff h hq hback ha hc]
    constructor
    · exact fun hrep => ⟨fun hbad => henq.result (hrep hbad.2), by simp [hkind]⟩
    · exact fun hok hcl => absurd ⟨hkind, hcl⟩ hok.1
  | remoteSocketEnqueue =>
    simp only [hkind] at hcall
    simp only [remoteSocketEnqueue, get_eq hq, ok_bind, hback] at hcall
    refine iff_of_true (fun hcl => absurd hcl ?_) (by simp [hkind])
    split at hcall
    next hn => cases hn
    next => cases hcall
    next b t hb _ =>
      cases hb
      rw [get_eq ha] at hcall
      cases hcall
      exact not_closed ha hc
  | deviceTrackerEnqueue =>
    simp only [hkind] at hcall
    have hother : ¬ q.IsLocal := by simp [hkind]
    simp only [deviceTrackerEnqueue, close_other_eq h hq hother hback ha, ok_bind,
      pure_eq_ok] at hcall
    cases hcall
    exact iff_of_true (fun _ => by decide) (by simp [hkind])
  | smartSocketEnqueue =>
    simp only [hkind] at hcall
    have hends : SmartEnds ⟨False, False⟩ w p a s (w.asksDevice q bytes)
        (w.asksVainly env q bytes) _ :=
      smartSocketEnqueue_ends h ⟨hq, hkind, hback, ha⟩ bytes 0
    rw [hcall] at hends
    obtain ⟨⟨_, hserved⟩, hleft⟩ := hends
    rcases hleft.client with ⟨hr, hv⟩ | ⟨hr, hv⟩
    · obtain rfl : r = -1 := hr
      exact iff_of_true (fun _ => by decide) (by simp [hkind, hv])
    · have hserved := hserved.resolve_left hr
      have hclosed : w'.Closed a ↔ w.asksVainly env q bytes := by
        rw [← hv]
        refine ⟨fun hcl => ?_, fun hn x hx => absurd (hn.symm.trans hx) (by simp)⟩
        refine eq_none_iff_forall_not_mem.mpr fun x hx => ?_
        exact absurd ((hcl x hx).symm.trans (hserved.closing x hx)) (by simp)
      have hr' : ¬ r < 0 := by
        rcases hserved.result with h0 | ⟨h1, _⟩ <;> omega
      rw [hclosed]
      constructor
      · exact fun hrep => ⟨by simp [hkind], fun hbad => hr' (hrep hbad.2)⟩
      · exact fun hok hcl => absurd ⟨hkind, hcl⟩ hok.2

/-- A client that follows the list of devices sends something. It is closed, and told so. -/
theorem enqueue_reports_tracker :
    let w := init.born.attachTracker 0 init.freshLocal
    ∃ w', callEnqueue plainEnv enqueueDepth 1 (text "data") w = .ok (w', -1) ∧ w'.Closed 0 ∧
      (w'.Closed 0 → (-1 : ℤ) < 0) := by
  intro w
  have hgraph : Graph w := graph_init.born.attachTracker (s := init.freshLocal) rfl rfl rfl rfl
  have hq : w.socket 1 = some (trackerFor 0) := rfl
  have ha : w.socket 0 = some { init.freshLocal with peer := some 1 } := rfl
  have hcall : callEnqueue plainEnv enqueueDepth 1 (text "data") w =
      .ok (w.closedWith 0 { init.freshLocal with peer := some 1 } 1 (trackerFor 0), -1) := by
    rw [enqueueDepth, callEnqueue_eq plainEnv 1 hq]
    simp only [trackerFor, deviceTrackerEnqueue, ok_bind, pure_eq_ok,
      close_other_eq hgraph hq (by simp [trackerFor]) rfl ha]
  refine ⟨_, hcall, ?_, (enqueue_reports_iff (q := trackerFor 0) hgraph ha rfl rfl hq hcall).mpr
    ⟨?_, ?_⟩⟩
  · intro x hx
    cases hx
  · rintro ⟨hbad, -⟩
    cases hbad
  · rintro ⟨hbad, -⟩
    cases hbad

def faultOf : Except Fault Server → Option Fault
  | .ok _ => none
  | .error f => some f

theorem of_faultOf {x : Except Fault Server} {f : Fault} (h : faultOf x = some f) :
    x = .error f := by
  cases x with
  | ok y => cases h
  | error g => exact congrArg Except.error (some.inj h)

def readyRun : List Input := [input .acceptSmart [] [], input (.poll [(0, .fdeRead)]) [] []]

def leavingClient : Input :=
  input .dispatch [.data (text "0012host:track-devices")] [.count 3, .error]

/-- The list of devices cannot be written, so the client is destroyed. Its handler learns nothing of
that, and goes on with it. -/
theorem enqueue_hides_close : ∃ w w', Run (step true false) (fun _ _ => True) init w ∧
    callEnqueue plainEnv enqueueDepth 1 (text "0012host:track-devices")
      (leavingClient.before w) = .ok (w', 0) ∧ w'.Closed 0 ∧
    leavingClient.action.run true false plainEnv (leavingClient.before w) =
      .error .useAfterFree := by
  have hexec : (exec (step true false) init readyRun).map (fun w =>
      ((callEnqueue plainEnv enqueueDepth 1 (text "0012host:track-devices")
        (leavingClient.before w)).toOption.map fun x => (x.2, (x.1.socket 0).isNone),
      faultOf (leavingClient.action.run true false plainEnv (leavingClient.before w)))) =
      some (some (0, true), some .useAfterFree) := by
    decide +kernel
  obtain ⟨w, hw, heq⟩ := map_eq_some_iff.mp hexec
  obtain ⟨hcall, hfault⟩ := Prod.mk.inj heq
  obtain ⟨⟨w', r⟩, hx, hr⟩ := map_eq_some_iff.mp hcall
  obtain ⟨rfl, hnone⟩ := Prod.mk.inj hr
  refine ⟨w, w', run_of_exec (fun _ _ _ => trivial) hw, of_toOption hx, fun x hx => ?_,
    of_faultOf hfault⟩
  rw [isNone_iff_eq_none.mp hnone] at hx
  cases hx

end Reports

section Model

inductive Use where
  | putApacket
  | sendPacket (t : TransportId)
  /-- The packet is linked into the queue of the socket at `a`. -/
  | link (a : Addr)
  deriving DecidableEq, Repr

def localSocketEnqueueUse (a : Addr) (p : List Byte) (w : Server) :
    Except Fault (Server × ℤ × List Use) := do
  let s ← w.get a
  if s.queue ≠ [] then
    let w ← (w.store a { s with queue := s.queue ++ [p] }).fdeventAdd a .fdeWrite
    return (w, 1, [.link a])
  let (rest, writes, outcome) := writeLoop false w.writes p
  let w := { w.wrote a .data (p.take (p.length - rest.length)) with writes := writes }
  match outcome with
  | .failed => do
      let w ← (w.setTrace a { w.trace a with failed := true }).close a
      return (w, 1, [])
  | .done => return (w, 0, [.putApacket])
  | .blocked => do
      let w ← (w.store a { s with queue := [rest] }).fdeventAdd a .fdeWrite
      return (w, 1, [.link a])

def remoteSocketEnqueueUse (a : Addr) (p : List Byte) (w : Server) :
    Except Fault (Server × ℤ × List Use) := do
  let s ← w.get a
  match s.peer, s.transport with
  | none, _ => .error .nullPointer
  | _, none => .error .exit
  | some b, some t => do
      let q ← w.get b
      return (w.sendPacket ⟨.aWrte, q.id, s.id, p⟩ t, 1, [.sendPacket t])

def deviceTrackerEnqueueUse (a : Addr) (w : Server) : Except Fault (Server × ℤ × List Use) := do
  let w ← w.close a
  return (w, -1, [.putApacket])

def smartSocketServe (env : Env) (ready : Addr → Server → Except Fault Server) (a : Addr)
    (s : ASocket) (bytes : List Byte) (w : Server) : Except Fault (Server × ℤ) :=
  let w := w.store a { s with queue := [bytes] }
  let len := unhex (bytes.take 4)
  if bytes.length < 4 then .ok (w, 0)
  else if len < 1 ∨ len > 1024 then smartSocketFail a w
  else if len + 4 > bytes.length then .ok (w, 0)
  else
    let service := cString ((bytes.drop 4).take len)
    match s.peer with
    | none => .error .nullPointer
    | some b =>
        match parseHostRequest service with
        | some request => smartSocketHost env ready request a b w
        | none => smartSocketRemote service a b w

def smartSocketEnqueueUse (env : Env) (ready : Addr → Server → Except Fault Server) (a : Addr)
    (p : List Byte) (w : Server) : Except Fault (Server × ℤ × List Use) := do
  let s ← w.get a
  match s.queue with
  | [] => do
      let (w, r) ← smartSocketServe env ready a s p w
      return (w, r, [.link a])
  | first :: _ =>
      if first.length + p.length > MAX_PAYLOAD then do
        let (w, r) ← smartSocketFail a w
        return (w, r, [.putApacket])
      else do
        let (w, r) ← smartSocketServe env ready a s (first ++ p) w
        return (w, r, [.putApacket])

def callEnqueueUse (env : Env) (a : Addr) (p : List Byte) (w : Server) :
    Except Fault (Server × ℤ × List Use) := do
  let s ← w.get a
  match s.enqueue with
  | .localSocketEnqueue => localSocketEnqueueUse a p w
  | .remoteSocketEnqueue => remoteSocketEnqueueUse a p w
  | .deviceTrackerEnqueue => deviceTrackerEnqueueUse a w
  | .smartSocketEnqueue =>
      smartSocketEnqueueUse env (callReady env (callEnqueue env 1)) a p w

/-- `handle_packet` with what it does with `p`: `A_SYNC` sends it back, `A_WRTE` passes it on to the
socket it is for, and whatever comes to the end of the function is freed there. -/
def handlePacketUse (host authEnabled : Bool) (env : Env) (p : Packet) (t : TransportId)
    (w : Server) : Except Fault (Server × List Use) :=
  match p.command with
  | .aSync => do
      let w ← handleSync host env p t w
      return (w, [.sendPacket t])
  | .aWrte =>
      if w.online t ∧ p.arg0 ≠ 0 ∧ p.arg1 ≠ 0 then do
        match ← w.findLocalSocket p.arg1 p.arg0 with
        | none => return (w, [.putApacket])
        | some a => do
            let w := w.setTrace a { w.trace a with accepted := (w.trace a).accepted + 1 }
            let (w, r, uses) ← callEnqueueUse env a p.data w
            if r = 0 then
              let s ← w.get a
              return ((w.acknowledge a).sendPacket ⟨.aOkay, s.id, p.arg0, []⟩ t, uses)
            return (w, uses)
      else .ok (w, [.putApacket])
  | _ => do
      let w ← handlePacket host authEnabled env p t w
      return (w, [.putApacket])

end Model

section Erasure

variable {p : List Byte}

def Server.usesOf (w : Server) (a : Addr) (s : ASocket) (p : List Byte) : List Use :=
  match s.enqueue with
  | .localSocketEnqueue =>
      if s.queue ≠ [] then [.link a]
      else match w.attempt p with
        | .failed => []
        | .done => [.putApacket]
        | .blocked => [.link a]
  | .remoteSocketEnqueue => s.transport.toList.map .sendPacket
  | .deviceTrackerEnqueue => [.putApacket]
  | .smartSocketEnqueue => if s.queue = [] then [.link a] else [.putApacket]

theorem localSocketEnqueueUse_eq (ha : w.socket a = some s) (hloc : s.IsLocal) (p : List Byte) :
    localSocketEnqueueUse a p w =
      (localSocketEnqueue a p w).map fun x => (x.1, x.2, w.usesOf a s p) := by
  simp only [localSocketEnqueueUse, localSocketEnqueue, get_eq ha, ok_bind, usesOf, hloc, attempt]
  by_cases hq : s.queue = []
  · simp only [hq, ne_eq, not_true_eq_false, if_false]
    split
    next hout =>
      simp only [hout]
      cases close _ a <;> rfl
    next hout => simp only [hout]; rfl
    next hout =>
      simp only [hout]
      cases fdeventAdd _ a .fdeWrite <;> rfl
  · simp only [hq, ne_eq, not_false_eq_true, if_true]
    cases fdeventAdd _ a .fdeWrite <;> rfl

theorem smartSocketEnqueue_serve (ready : Addr → Server → Except Fault Server)
    (ha : w.socket a = some s) (p : List Byte) :
    smartSocketEnqueue env ready a p w =
      match smartSocketCollect s p with
      | none => smartSocketFail a w
      | some bytes => smartSocketServe env ready a s bytes w := by
  rw [smartSocketEnqueue, get_eq ha]
  rfl

theorem smartSocketEnqueueUse_eq (ready : Addr → Server → Except Fault Server)
    (ha : w.socket a = some s) (hsm : s.IsSmart) (p : List Byte) :
    smartSocketEnqueueUse env ready a p w =
      (smartSocketEnqueue env ready a p w).map fun x => (x.1, x.2, w.usesOf a s p) := by
  have huses : w.usesOf a s p = if s.queue = [] then [.link a] else [.putApacket] := by
    simp only [usesOf, hsm]
  rw [huses, smartSocketEnqueue_serve ready ha, smartSocketEnqueueUse, get_eq ha, ok_bind,
    smartSocketCollect]
  cases s.queue with
  | nil => cases hserve : smartSocketServe env ready a s p w <;> simp only [hserve] <;> rfl
  | cons first rest =>
    simp only [reduceCtorEq, if_false]
    split
    · cases smartSocketFail a w <;> rfl
    · cases hserve : smartSocketServe env ready a s (first ++ p) w <;> simp only [hserve] <;> rfl

/-- The functions that note what they do with the packet are the functions of the server. -/
theorem callEnqueueUse_eq (ha : w.socket a = some s) (p : List Byte) :
    callEnqueueUse env a p w =
      (callEnqueue env enqueueDepth a p w).map fun x => (x.1, x.2, w.usesOf a s p) := by
  rw [callEnqueueUse, enqueueDepth, callEnqueue_eq env 1 ha, get_eq ha, ok_bind]
  cases hkind : s.enqueue with
  | localSocketEnqueue => exact localSocketEnqueueUse_eq ha hkind p
  | remoteSocketEnqueue =>
    simp only [remoteSocketEnqueueUse, remoteSocketEnqueue, get_eq ha, ok_bind, usesOf, hkind]
    cases hp : s.peer with
    | none => rfl
    | some b =>
      cases ht : s.transport with
      | none => rfl
      | some t =>
        dsimp only
        cases w.get b <;> rfl
  | deviceTrackerEnqueue =>
    simp only [deviceTrackerEnqueueUse, deviceTrackerEnqueue, usesOf, hkind]
    cases w.close a <;> rfl
  | smartSocketEnqueue => exact smartSocketEnqueueUse_eq _ ha hkind p

theorem callEnqueueUse_fst (env : Env) (a : Addr) (p : List Byte) (w : Server) :
    (callEnqueueUse env a p w).map (fun x => (x.1, x.2.1)) =
      callEnqueue env enqueueDepth a p w := by
  cases ha : w.socket a with
  | none => simp only [callEnqueueUse, enqueueDepth, callEnqueue, Server.get, ha]; rfl
  | some s =>
    rw [callEnqueueUse_eq ha]
    cases callEnqueue env enqueueDepth a p w <;> rfl

theorem handlePacketUse_fst (host authEnabled : Bool) (env : Env) (x : Packet) (t : TransportId)
    (w : Server) : (handlePacketUse host authEnabled env x t w).map Prod.fst =
      handlePacket host authEnabled env x t w := by
  rw [handlePacketUse]
  split
  next hx =>
    rw [handlePacket, hx]
    dsimp only
    cases handleSync host env x t w <;> rfl
  next hx =>
    rw [handlePacket, hx]
    dsimp only [handleWrte]
    split
    · cases w.findLocalSocket x.arg1 x.arg0 with
      | error f => rfl
      | ok found =>
        cases found with
        | none => rfl
        | some a =>
          simp only [ok_bind]
          rw [← callEnqueueUse_fst]
          cases callEnqueueUse env a x.data _ with
          | error f => rfl
          | ok y =>
            obtain ⟨w₁, r, uses⟩ := y
            change Except.map Prod.fst (if r = 0 then _ else _) = if r = 0 then _ else _
            split
            · change Except.map Prod.fst (w₁.get a >>= _) = (w₁.get a >>= _)
              cases w₁.get a <;> rfl
            · rfl
    · rfl
  next => cases handlePacket host authEnabled env x t w <;> rfl

end Erasure

section Custody

/-- The packet has been freed once, sent once, or linked once into the queue of a socket. What is
still queued on a socket is freed with it, by `local_socket_destroy` and `smart_socket_close`. -/
inductive Accounted (w w' : Server) : List Use → Prop where
  | freed : Accounted w w' [.putApacket]
  | sent (t : TransportId) : Accounted w w' [.sendPacket t]
  | destroyed {a : Addr} (h : w'.socket a = none) : Accounted w w' [.link a]
  | linked {a : Addr} {s x : ASocket} (hs : w.socket a = some s) (hx : w'.socket a = some x)
      (hlen : x.queue.length = s.queue.length + 1) : Accounted w w' [.link a]

/-- The packet `p` is for a local socket on which nothing is queued, and writing fails. -/
def Server.leaks (w : Server) (a : Addr) (p : List Byte) : Prop :=
  ∃ s, w.socket a = some s ∧ s.IsLocal ∧ s.queue = [] ∧ w.attempt p = .failed

variable {p : List Byte} {uses : List Use}

theorem queued_socket_length (w : Server) (a : Addr) (s : ASocket) (bytes : List Byte) :
    ∃ x, (w.queued a s bytes).socket a = some x ∧ x.queue.length = s.queue.length + 1 := by
  refine ⟨_, fdeventSet_socket _ _ _ _, ?_⟩
  simp

theorem Enqueued.accounted_iff (he : Enqueued a s p w w' r) (ha : w.socket a = some s)
    (hloc : s.IsLocal) : Accounted w w' (w.usesOf a s p) ↔ ¬ w.leaks a p := by
  have hleak : w.leaks a p ↔ s.queue = [] ∧ w.attempt p = .failed := by
    refine ⟨?_, fun hl => ⟨s, ha, hloc, hl⟩⟩
    rintro ⟨s', ha', _, hl⟩
    cases ha.symm.trans ha'
    exact hl
  rw [hleak]
  simp only [usesOf, hloc]
  cases he with
  | queued hq =>
    rw [if_pos hq]
    obtain ⟨x, hx, hlen⟩ := queued_socket_length w a s p
    exact iff_of_true (.linked ha hx hlen) fun hl => hq hl.1
  | done hq hout =>
    simp only [hq, hout]
    exact iff_of_true .freed (by simp)
  | blocked hq hout =>
    obtain ⟨x, hx, hlen⟩ := queued_socket_length (w.attempted a p) a s (w.unwritten p)
    simp only [hq, hout]
    exact iff_of_true (.linked ha hx hlen) (by simp)
  | failed hq hout _ =>
    simp only [hq, hout]
    exact iff_of_false (by rintro ⟨⟩) (by simp)

theorem callEnqueueUse_accounted_iff (h : Graph w)
    (hcall : callEnqueueUse env a p w = .ok (w', r, uses)) :
    Accounted w w' uses ↔ ¬ w.leaks a p := by
  cases ha : w.socket a with
  | none =>
    rw [callEnqueueUse, Server.get, ha] at hcall
    cases hcall
  | some s =>
    rw [callEnqueueUse_eq ha] at hcall
    cases hplain : callEnqueue env enqueueDepth a p w with
    | error f => simp only [hplain, Except.map, reduceCtorEq] at hcall
    | ok y =>
      rw [hplain] at hcall
      cases hcall
      have hnot : ¬ s.IsLocal → ¬ w.leaks a p := by
        rintro hother ⟨s', ha', hloc, _⟩
        cases ha.symm.trans ha'
        exact hother hloc
      rw [enqueueDepth, callEnqueue_eq env 1 ha] at hplain
      cases hkind : s.enqueue with
      | localSocketEnqueue =>
        simp only [hkind] at hplain
        obtain ⟨w₁, r₁, hw₁, henq⟩ := localSocketEnqueue_spec h ha hkind p
        cases hplain.symm.trans hw₁
        exact henq.accounted_iff ha hkind
      | remoteSocketEnqueue =>
        refine iff_of_true ?_ (hnot (by simp [hkind]))
        obtain ⟨t, ht⟩ := ne_none_iff_exists'.mp
          ((h.otherSane ha (by simp [hkind])).remote hkind).2.2.2.1
        simp only [usesOf, hkind, ht]
        exact .sent t
      | deviceTrackerEnqueue =>
        simp only [usesOf, hkind]
        exact iff_of_true .freed (hnot (by simp [hkind]))
      | smartSocketEnqueue =>
        refine iff_of_true ?_ (hnot (by simp [hkind]))
        simp only [usesOf, hkind]
        split
        next hq =>
          obtain ⟨b, hb⟩ := ne_none_iff_exists'.mp
            (h.otherSane ha (by simp [hkind])).peer
          obtain ⟨_, q, hq', _⟩ := h.peer_spec ha hb
          have hends : SmartEnds ⟨False, False⟩ w a b q (w.asksDevice s p)
              (w.asksVainly env s p) _ :=
            smartSocketEnqueue_ends h ⟨ha, hkind, hb, hq'⟩ p 0
          simp only [hkind] at hplain
          rw [hplain] at hends
          cases hx : y.1.socket a with
          | none => exact .destroyed hx
          | some x => exact .linked ha hx (by simp [hq, hends.2.smart x hx])
        next => exact .freed

theorem Accounted.congr {v v' : Server} (h : Accounted w w' uses) (hs : v.socket = w.socket)
    (hs' : v'.socket = w'.socket) : Accounted v v' uses := by
  cases h with
  | freed => exact .freed
  | sent t => exact .sent t
  | destroyed hn => exact .destroyed ((congrFun hs' _).trans hn)
  | linked hold hnew hlen =>
    exact .linked ((congrFun hs _).trans hold) ((congrFun hs' _).trans hnew) hlen

/-- The packet is data for a local socket on which nothing is queued, and writing fails. -/
def Server.leaksPacket (w : Server) (x : Packet) (t : TransportId) : Prop :=
  x.command = .aWrte ∧ (w.online t = true ∧ x.arg0 ≠ 0 ∧ x.arg1 ≠ 0) ∧
    ∃ a, w.findLocalSocket x.arg1 x.arg0 = .ok (some a) ∧ w.leaks a x.data

variable {x : Packet} {t : TransportId}

theorem handleWrteUse_accounted_iff (h : Graph w) (host authEnabled : Bool)
    (hx : x.command = .aWrte)
    (hcall : handlePacketUse host authEnabled env x t w = .ok (w', uses)) :
    Accounted w w' uses ↔ ¬ w.leaksPacket x t := by
  rw [handlePacketUse, hx] at hcall
  dsimp only at hcall
  split at hcall
  next hon =>
    obtain ⟨found, hfind, hcall⟩ := of_bind_ok hcall
    cases found with
    | none =>
      cases hcall
      refine iff_of_true .freed ?_
      rintro ⟨_, _, a, ha, _⟩
      cases hfind.symm.trans ha
    | some a =>
      have hleak : w.leaksPacket x t ↔ (w.accept a).leaks a x.data := by
        refine ⟨?_, fun hl => ⟨hx, hon, a, hfind, hl⟩⟩
        rintro ⟨_, _, a', ha', hl⟩
        cases hfind.symm.trans ha'
        exact hl
      obtain ⟨⟨w₁, r, uses₁⟩, henq, hcall⟩ := of_bind_ok hcall
      have hacc : Graph (w.accept a) := h.setTrace a _
      have hsame : w'.socket = w₁.socket ∧ uses = uses₁ := by
        dsimp only at hcall
        split at hcall
        · obtain ⟨s, _, hcall⟩ := of_bind_ok hcall
          cases hcall
          exact ⟨rfl, rfl⟩
        · cases hcall
          exact ⟨rfl, rfl⟩
      obtain ⟨hsock, rfl⟩ := hsame
      rw [hleak, ← callEnqueueUse_accounted_iff hacc henq]
      exact ⟨fun hs => hs.congr rfl hsock.symm, fun hs => hs.congr rfl hsock⟩
  next hoff =>
    cases hcall
    exact iff_of_true .freed fun hl => hoff hl.2.1

/-- A packet that is handed to an enqueue callback or to `handle_packet` is freed, sent or linked
exactly once, unless `local_socket_enqueue` fails to write it. -/
theorem packets_accounted_iff (h : Graph w) :
    (∀ env a p w' r uses, callEnqueueUse env a p w = .ok (w', r, uses) →
      (Accounted w w' uses ↔ ¬ w.leaks a p)) ∧
    ∀ host authEnabled env x t w' uses,
      handlePacketUse host authEnabled env x t w = .ok (w', uses) →
        (Accounted w w' uses ↔ ¬ w.leaksPacket x t) := by
  refine ⟨fun env a p w' r uses hcall => callEnqueueUse_accounted_iff h hcall, ?_⟩
  intro host authEnabled env x t w' uses hcall
  by_cases hx : x.command = .aWrte
  · exact handleWrteUse_accounted_iff h host authEnabled hx hcall
  · refine iff_of_true ?_ fun hl => hx hl.1
    rw [handlePacketUse] at hcall
    split at hcall
    · obtain ⟨w₁, _, hcall⟩ := of_bind_ok hcall
      cases hcall
      exact .sent t
    next hw => exact absurd hw hx
    · obtain ⟨w₁, _, hcall⟩ := of_bind_ok hcall
      cases hcall
      exact .freed

/-- Data for a device is sent. -/
theorem packets_accounted_remote :
    let w := init.born.attachRemote 0 init.freshLocal 5 7
    ∃ w' uses, callEnqueueUse plainEnv 1 (text "data") w = .ok (w', 1, uses) ∧
      Accounted w w' uses := by
  intro w
  have hgraph : Graph w :=
    graph_init.born.attachRemote (s := init.freshLocal) rfl rfl rfl rfl (by decide) 7
  have hcall : callEnqueueUse plainEnv 1 (text "data") w =
      .ok (w.sendPacket ⟨.aWrte, 1, 5, text "data"⟩ 7, 1, [.sendPacket 7]) := rfl
  refine ⟨_, _, hcall, ((packets_accounted_iff hgraph).1 _ _ _ _ _ _ hcall).mpr ?_⟩
  rintro ⟨s, hs, hloc, _⟩
  cases hs
  cases hloc

def openedRun : List Input :=
  [input (.packet ⟨.aCnxn, A_VERSION, MAX_PAYLOAD, text "device::"⟩ 7) [] [],
    input (.packet ⟨.aOpen, 5, 0, text "echo" ++ [0]⟩ 7) [] []]

/-- The service has gone away when data for it comes in. -/
theorem packet_leaks : ∃ w w', Run (step true false) (fun _ _ => True) init w ∧
    handlePacketUse true false plainEnv ⟨.aWrte, 5, 1, text "data"⟩ 7
      { w with writes := [.error] } = .ok (w', []) ∧
    ¬ Accounted { w with writes := [.error] } w' [] := by
  have hexec : (exec (step true false) init openedRun).map (fun w =>
      (handlePacketUse true false plainEnv ⟨.aWrte, 5, 1, text "data"⟩ 7
        { w with writes := [.error] }).toOption.map Prod.snd) = some (some []) := by
    decide +kernel
  obtain ⟨w, hw, heq⟩ := map_eq_some_iff.mp hexec
  obtain ⟨⟨w', uses⟩, hx, hu⟩ := map_eq_some_iff.mp heq
  obtain rfl : uses = [] := hu
  exact ⟨w, w', run_of_exec (fun _ _ _ => trivial) hw, of_toOption hx, nofun⟩

end Custody

end PaxAdb.Sockets
