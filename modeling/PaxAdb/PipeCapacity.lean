import PaxAdb.SendBounds

/-!
# The socket pair of a transport is finite

`send_packet` writes the address of a packet to a descriptor that does not block, and ends the
server when the pipe is full. Nothing else `handle_packet` does can end it. Room for as many packets
as a handler can send is enough, and a device that sends and does not read fills a pipe of any size.
-/

namespace PaxAdb.Sockets

open Server Runs Pump

def addressSize : ℕ := 8

section Bounded

variable (capacity : ℕ) (authEnabled : Bool) (t : TransportId)

def Pump.fatal (s : Pump) : Bool := capacity < addressSize * (s.server.outbox t).length

def Pump.hasRoom (s : Pump) : Bool := addressSize * (s.fromDevice.length + 1) ≤ capacity

def Action.elsewhere : Action → Bool
  | .packet _ t' => t' ≠ t
  | _ => true

/-- A step of the threads and the server over a socket pair of the given capacity; nothing happens
after a fatal error. -/
def Pump.boundedStep (s : Pump) (a : PumpAction) : Option Pump :=
  if s.fatal capacity t then none
  else
    match a with
    | .start | .read _ | .readFailed =>
        if s.hasRoom capacity then s.step authEnabled t a else none
    | .other i => if i.action.elsewhere t then s.step authEnabled t a else none
    | .handle _ _ _ | .write => s.step authEnabled t a

/-- The pipe has room for as many packets as the main loop may send in this step. -/
def Pump.Ample (s : Pump) : PumpAction → Prop
  | .handle _ _ _ => addressSize * ((s.server.outbox t).length + 2) ≤ capacity
  | .other i => addressSize * ((s.server.outbox t).length + i.action.sends s.server) ≤ capacity
  | _ => True

end Bounded

section Safe

variable {capacity : ℕ} {authEnabled : Bool} {t : TransportId} {s s' : Pump} {a : PumpAction}

theorem Pump.boundedStep_some (hs : s.boundedStep capacity authEnabled t a = some s') :
    s.step authEnabled t a = some s' := by
  unfold boundedStep at hs
  split at hs
  · cases hs
  · split at hs
    · split_ifs at hs
      exact hs
    · split_ifs at hs
      exact hs
    · split_ifs at hs
      exact hs
    · split_ifs at hs
      exact hs
    · exact hs
    · exact hs

theorem Pump.step_safe (hg : Graph s.server) (hf : s.fatal capacity t = false)
    (ha : s.Ample capacity t a) (hs : s.step authEnabled t a = some s') :
    Graph s'.server ∧ s'.fatal capacity t = false := by
  have hsame : s'.server = s.server → Graph s'.server ∧ s'.fatal capacity t = false := by
    intro he
    rw [fatal, he]
    exact ⟨hg, hf⟩
  cases a with
  | start | read | readFailed =>
    simp only [step] at hs
    split_ifs at hs
    cases hs
    exact hsame rfl
  | handle env reads writes =>
    simp only [step, handle] at hs
    split at hs
    · cases hs
    · split at hs
      next w hrun =>
        cases hs
        have hg' : Graph { s.server with reads := reads, writes := writes } :=
          hg.congr rfl rfl rfl rfl rfl rfl rfl rfl
        obtain ⟨hg'', ps, hps, hans⟩ := handlePacket_answers hg' hrun
        refine ⟨hg''.congr rfl rfl rfl rfl rfl rfl rfl rfl, decide_eq_false ?_⟩
        have hlen : (w.outbox t).length = (s.server.outbox t).length + ps.length := by
          rw [hps, List.length_append]
        have hroom : addressSize * ((s.server.outbox t).length + 2) ≤ capacity := ha
        have hans := hans.length
        change ¬ capacity < addressSize * (w.outbox t).length
        simp only [addressSize, hlen] at hroom ⊢
        omega
      · cases hs
  | write =>
    simp only [step, write] at hs
    split at hs
    · cases hs
    · split at hs
      · cases hs
      next x rest hbox =>
        cases hs
        have hbox' : (s.take t x rest).server.outbox t = rest := Function.update_self ..
        refine ⟨hg.congr rfl rfl rfl rfl rfl rfl rfl rfl, ?_⟩
        simp only [fatal, hbox, List.length_cons, addressSize, decide_eq_false_iff_not,
          not_lt] at hf
        simp only [fatal, hbox', addressSize, decide_eq_false_iff_not, not_lt]
        omega
  | other i =>
    obtain ⟨w, hw, rfl⟩ := Option.map_eq_some_iff.mp hs
    refine ⟨hg.step hw, decide_eq_false (not_lt.mpr ?_)⟩
    exact (Nat.mul_le_mul_left _ (step_sends hg hw t)).trans ha

end Safe

/-- In a run that always finds room in the pipe no packet is sent in vain, and neither a packet of
the device nor a new connection to it ends the server in another way. The destination of a
connection is part of a request of at most 1024 bytes. -/
theorem device_cannot_abort (capacity : ℕ) (authEnabled : Bool) (t : TransportId) {w : Server}
    {s : Pump} (hw : Run (step true authEnabled) (fun _ _ => True) Server.init w)
    (hbox : w.outbox t = [])
    (hrun : Run (boundedStep capacity authEnabled t) (Pump.Ample capacity t)
      (start w) s) :
    s.fatal capacity t = false ∧
      (∀ (env : Env) (reads : List ReadResult) (writes : List WriteResult) (x : Packet),
        ∃ w', handlePacket true authEnabled env x t
          { s.server with reads := reads, writes := writes } = .ok w') ∧
      ∀ connectTo : List Byte, connectTo.length ≤ 1024 →
        ∃ w', acceptForward t connectTo s.server = .ok w' := by
  have hstart : (start w).fatal capacity t = false := by
    simp [fatal, start, hbox]
  have hsafe : Graph s.server ∧ s.fatal capacity t = false :=
    hrun.invariant ⟨Graph.run hw, hstart⟩ fun _ _ _ hi ha hs =>
      step_safe hi.1 hi.2 ha (boundedStep_some hs)
  refine ⟨hsafe.2, fun env reads writes x => ?_, fun connectTo hlen => ?_⟩
  · have hg : Graph { s.server with reads := reads, writes := writes } :=
      hsafe.1.congr rfl rfl rfl rfl rfl rfl rfl rfl
    have hspec := handlePacket_links true authEnabled env hg x t
    cases hp : handlePacket true authEnabled env x t
        { s.server with reads := reads, writes := writes } with
    | ok w' => exact ⟨w', rfl⟩
    | error f =>
      rw [hp] at hspec
      cases hspec
  · have hborn : s.server.born.socket s.server.nextAddr = some s.server.freshLocal :=
      socket_store s.server _ _
    refine ⟨s.server.born.asked s.server.nextAddr s.server.freshLocal t connectTo, ?_⟩
    change (s.server.born.get s.server.nextAddr >>= fun q =>
      if connectTo.length + 1 > MAX_PAYLOAD - 1
      then .error .exit else pure ((s.server.born.store s.server.nextAddr
        { q with transport := some t }).sendPacket ⟨.aOpen, q.id, 0, connectTo ++ [0]⟩ t)) = _
    have hfits : ¬ connectTo.length + 1 > MAX_PAYLOAD - 1 := by
      simp only [MAX_PAYLOAD]
      omega
    rw [get_eq hborn, ok_bind, if_neg hfits]
    rfl

section Flood

variable {capacity : ℕ}

def handshakeRequest : Packet := ⟨.aHdsk, PAX_HANDSHAKE_REQ, 0, []⟩

/-- The host has sent `n` packets, and the device has read none of them. -/
structure Pump.Flooded (n : ℕ) (s : Pump) : Prop where
  output : s.output = .pumping
  fromDevice : s.fromDevice = []
  outbox : (s.server.outbox 0).length = n
  written : s.written = []

theorem Pump.flood_start (h : addressSize ≤ capacity) :
    ∃ s, Run (boundedStep capacity false 0) (fun _ _ => True) (start .init) s ∧
      s.Flooded 2 := by
  have hroom : (start .init).hasRoom capacity = true := by
    simpa [hasRoom, start] using h
  have hexec : exec (boundedStep capacity false 0) (start .init)
      [.start, .handle plainEnv [] []] =
      exec (step false 0) (start .init) [.start, .handle plainEnv [] []] := by
    simp only [exec, boundedStep, hroom, if_true]
    rfl
  have hflood : (exec (step false 0) (start .init) [.start, .handle plainEnv [] []]).map
      (fun s => (s.output, s.fromDevice, (s.server.outbox 0).length, s.written)) =
      some (.pumping, [], 2, []) := by decide +kernel
  obtain ⟨s, hs, heq⟩ := Option.map_eq_some_iff.mp hflood
  simp only [Prod.mk.injEq] at heq
  obtain ⟨h1, h2, h3, h4⟩ := heq
  exact ⟨s, run_of_exec (fun _ _ _ => trivial) (hexec.trans hs), h1, h2, h3, h4⟩

theorem Pump.Flooded.more {n : ℕ} {s : Pump} (h : s.Flooded n) (hn : addressSize * n ≤ capacity)
    (hc : addressSize ≤ capacity) :
    ∃ s', Run (boundedStep capacity false 0) (fun _ _ => True) s s' ∧ s'.Flooded (n + 1) := by
  have hfatal : s.fatal capacity 0 = false :=
    decide_eq_false (not_lt.mpr (by rw [h.outbox]; exact hn))
  have hroom : s.hasRoom capacity = true := by
    simpa [hasRoom, h.fromDevice] using hc
  let s₁ : Pump := { s with received := s.received ++ [handshakeRequest] }.post handshakeRequest
  have hstep : s.step false 0 (.read handshakeRequest) = some s₁ := if_pos h.output
  have hread : s.boundedStep capacity false 0 (.read handshakeRequest) = some s₁ := by
    simp only [boundedStep, hfatal, hroom, Bool.false_eq_true, if_false, if_true]
    exact hstep
  have hpipe : s₁.fromDevice = [handshakeRequest] := by
    change s.fromDevice ++ _ = _
    rw [h.fromDevice]
    rfl
  have hfatal₁ : s₁.fatal capacity 0 = false := hfatal
  let w : Server := handleHdsk true handshakeRequest 0 { s.server with reads := [], writes := [] }
  let s₂ : Pump := { s₁ with fromDevice := [], server := { w with reads := [], writes := [] } }
  have hhandle : s₁.boundedStep capacity false 0 (.handle plainEnv [] []) = some s₂ := by
    simp only [boundedStep, hfatal₁, Bool.false_eq_true, if_false, step, handle, hpipe]
    rfl
  have hbox : s₂.server.outbox 0 = s.server.outbox 0 ++
      [⟨.aHdsk, PAX_HANDSHAKE_RES, 0, text "paxadb"⟩] := by
    have hsent : w = sendPacket { s.server with reads := [], writes := [] }
        ⟨.aHdsk, PAX_HANDSHAKE_RES, 0, text "paxadb"⟩ 0 := if_pos ⟨rfl, rfl⟩
    change w.outbox 0 = _
    rw [hsent]
    exact Links.outbox_send s.server.links _ 0
  refine ⟨s₂, .tail (.single ⟨_, trivial, hread⟩) ⟨_, trivial, hhandle⟩, h.output, rfl, ?_,
    h.written⟩
  rw [hbox, List.length_append, h.outbox]
  rfl

theorem Pump.flood (n : ℕ) (hn : addressSize * (n + 1) ≤ capacity) :
    ∃ s, Run (boundedStep capacity false 0) (fun _ _ => True) (start .init) s ∧
      s.Flooded (n + 2) := by
  have hc : addressSize ≤ capacity := le_trans (Nat.le_mul_of_pos_right _ (Nat.succ_pos n)) hn
  induction n with
  | zero => exact flood_start hc
  | succ n ih =>
    obtain ⟨s, hrun, hs⟩ := ih (le_trans (Nat.mul_le_mul_left _ (Nat.le_succ _)) hn)
    obtain ⟨s', hrun', hs'⟩ := hs.more hn hc
    exact ⟨s', hrun.trans hrun', hs'⟩

/-- A device that sends handshake requests and reads nothing fills a pipe of any capacity. -/
theorem Pump.flood_fatal (h : addressSize ≤ capacity) :
    ∃ s, Run (boundedStep capacity false 0) (fun _ _ => True) (start .init) s ∧
      s.written = [] ∧ s.fatal capacity 0 = true := by
  have hpos : 1 ≤ capacity / addressSize := (Nat.one_le_div_iff (by decide)).mpr h
  have hmul : addressSize * (capacity / addressSize) ≤ capacity := Nat.mul_div_le _ _
  have hlt : capacity < addressSize * (capacity / addressSize + 1) :=
    Nat.lt_mul_div_succ capacity (by decide)
  obtain ⟨n, hn⟩ := Nat.exists_eq_add_of_le' hpos
  rw [hn] at hmul hlt
  obtain ⟨s, hrun, hs⟩ := flood n hmul
  refine ⟨s, hrun, hs.written, decide_eq_true ?_⟩
  rw [hs.outbox]
  exact hlt

end Flood

/-- A short run over a pipe for four packets. -/
theorem device_cannot_abort_handshake : ∃ s,
    Run (boundedStep 32 false 0) (Pump.Ample 32 0) (start .init) s ∧
      (s.server.outbox 0).length = 2 ∧ s.fatal 32 0 = false := by
  let s₁ : Pump := { start .init with syncToken := 2, output := .pumping }.post
    ⟨.aSync, 1, 2, []⟩
  have hstart : (start .init).boundedStep 32 false 0 .start = some s₁ := rfl
  have hecho : (s₁.boundedStep 32 false 0 (.handle plainEnv [] [])).map
      (fun s => (s.server.outbox 0).length) = some 2 := by decide +kernel
  obtain ⟨s, hs, hlen⟩ := Option.map_eq_some_iff.mp hecho
  have hample : s₁.Ample 32 0 (.handle plainEnv [] []) := by
    change addressSize * (0 + 2) ≤ 32
    decide
  have hrun : Run (boundedStep 32 false 0) (Pump.Ample 32 0) (start .init) s :=
    .tail (.single ⟨.start, trivial, hstart⟩) ⟨_, hample, hs⟩
  exact ⟨s, hrun, hlen, (device_cannot_abort 32 false 0 Relation.ReflTransGen.refl rfl hrun).1⟩

/-- A device that sends handshake requests and reads nothing ends a server whose socket pair has the
capacity Linux gives it. -/
theorem device_aborts_server : ∃ s,
    Run (boundedStep 212992 false 0) (fun _ _ => True) (start .init) s ∧
      s.written = [] ∧ s.fatal 212992 0 = true :=
  flood_fatal (by decide)

end PaxAdb.Sockets
