import PaxAdb.PacketMoves

/-!
# The socket graph in every state of the server

Between two handlers the peer relation, the lists and the callbacks fit together
(`SocketGraph`), whatever the clients, the kernel and the devices do. No handler takes
`socket_list_lock` twice, calls through a null pointer or recurses without end.
-/

namespace PaxAdb.Sockets

open ASocket Server Runs

variable {X : Licence} {w w' : Server} {host authEnabled : Bool}

/-- How the sockets of a server hang together between two handlers. -/
structure SocketGraph (w : Server) : Prop where
  symmetric : ∀ a s p, w.socket a = some s → s.peer = some p →
    ∃ q, w.socket p = some q ∧ q.peer = some a
  oneLocal : ∀ a s p, w.socket a = some s → ¬ s.IsLocal → s.peer = some p →
    ∃ q, w.socket p = some q ∧ q.IsLocal
  oneList : ∀ a s, w.socket a = some s → s.IsLocal →
    Xor (a ∈ w.localSocketList) (a ∈ w.localSocketClosingList)
  once : w.localSocketList.Nodup ∧ w.localSocketClosingList.Nodup
  listed : ∀ a, a ∈ w.localSocketList ∨ a ∈ w.localSocketClosingList →
    ∃ s, w.socket a = some s ∧ s.IsLocal
  closing : ∀ a ∈ w.localSocketClosingList, ∃ s, w.socket a = some s ∧ s.peer = none ∧
    s.closing = true ∧ s.queue ≠ []
  backlog : ∀ a s, w.socket a = some s → s.IsLocal → s.closing = false → s.queue ≠ [] →
    s.peer ≠ none
  notify : ∀ a s, w.socket a = some s → s.IsLocal → s.close = .localSocketCloseNotify →
    s.peer = none

theorem Graph.socketGraph (h : Graph w) : SocketGraph w where
  symmetric a s p ha hp := by
    obtain ⟨_, q, hq, hlink⟩ := h.peer_spec ha hp
    exact ⟨q, hq, hlink.peer⟩
  oneLocal a s p ha hs hp := by
    obtain ⟨_, q, hq, _⟩ := h.peer_spec ha hp
    exact ⟨q, hq, h.isLocal_of_peer ha hp hq hs⟩
  oneList a s ha hloc := by
    have hfit := (h.at_ ha).fit
    cases hc : s.closing with
    | false => exact Or.inl ⟨hfit.listed.mpr ⟨hloc, hc⟩, h.not_mem_closing ha hc⟩
    | true =>
      refine Or.inr ⟨hfit.closing.mpr ⟨hloc, hc⟩, fun hm => ?_⟩
      exact absurd (hc.symm.trans (hfit.listed.mp hm).2) (by simp)
  once := ⟨h.lists.listed, h.lists.closing⟩
  listed a hm := by
    cases ha : w.socket a with
    | none =>
      have hblank := (h.good a).gone ha
      exact absurd hm (not_or.mpr ⟨hblank.listed, hblank.closing⟩)
    | some s =>
      have hfit := (h.at_ ha).fit
      exact ⟨s, rfl, hm.elim (fun hl => (hfit.listed.mp hl).1) fun hc => (hfit.closing.mp hc).1⟩
  closing a hm := by
    cases ha : w.socket a with
    | none => exact absurd hm ((h.good a).gone ha).closing
    | some s =>
      obtain ⟨hloc, hc⟩ := (h.at_ ha).fit.closing.mp hm
      have hsane := (h.localSane ha hloc).closing hc
      exact ⟨s, rfl, hsane.1, hc, hsane.2⟩
  backlog a s ha hloc := (h.localSane ha hloc).backlog
  notify a s ha hloc hn := ((h.localSane ha hloc).notify hn).1

theorem graph_init : Graph init := by
  refine ⟨fun b => ⟨fun s hs => ?_, fun _ => ?_⟩, ?_, fun b _ => rfl, ?_⟩
  · simp [init] at hs
  · constructor <;> simp [marks, init]
  · constructor <;> simp [init]
  · simp [init]

inductive Stepped (X : Licence) (action : Action) (w : Server) : Server → Prop where
  | setup {w' : Server} (h : Setups X w w') : Stepped X action w w'
  | receive {w' : Server} {x : Packet} {t : TransportId} (ha : action = .packet x t)
      (h : Receive x t w w') : Stepped X action w w'

theorem Stepped.graph {action : Action} (hs : Stepped X action w w') (h : Graph w) : Graph w' := by
  cases hs with
  | setup hm => exact Setups.graph hm h
  | receive _ hr => exact hr.graph h

/-- The step needs no packet, and no transport is lost in it. -/
def Action.atHome : Action → Bool
  | .poll _ | .pollBad _ | .dispatch | .acceptSmart | .acceptForward _ _ | .updateTransports => true
  | _ => false

theorem Action.home_spec (host authEnabled : Bool) (h : Graph w) (action : Action) (env : Env)
    (hen : action.enabled w = true) (hX : action = .dispatch → DispatchLicence X w)
    (hhome : action.atHome = true) :
    Ends (Moves X w) (action.run host authEnabled env w) := by
  cases action with
  | poll ready =>
    simp only [Action.enabled, Bool.and_eq_true, List.all_eq_true] at hen
    exact poll_spec ready w hen.2
  | pollBad bad =>
    simp only [Action.enabled, Bool.and_eq_true, List.all_eq_true] at hen
    exact pollBad_spec bad w hen.2
  | dispatch => exact dispatch_spec h (hX rfl)
  | acceptSmart => exact acceptSmart_spec
  | acceptForward t connectTo => exact acceptForward_spec t connectTo
  | updateTransports =>
    exact (updateTransports_rule (trackerRule_moves w) h .refl).ends.mono fun _ hx => hx.2
  | _ => cases hhome

/-- Every handler is made of the moves, or ends with a fault that is possible. -/
theorem Action.run_spec (host authEnabled : Bool) (h : Graph w) (action : Action) (env : Env)
    (hen : action.enabled w = true) (hX : action = .dispatch → DispatchLicence X w) :
    Ends (Stepped X action w) (action.run host authEnabled env w) := by
  cases hhome : action.atHome with
  | true =>
    exact (action.home_spec host authEnabled h env hen hX hhome).mono fun _ hx => .setup hx.setups
  | false =>
    cases action with
    | packet x t =>
      have hrule : SetupRule t (Setups X w) := setupRule_setups w t
      have hspec := handlePacket_rule host authEnabled env hrule ⟨h, .refl⟩ x
      exact hspec.ends.mono fun _ hx => hx.elim (.receive rfl) fun hx => .setup hx.2
    | closeAllSockets t => exact (closeAllLoop_spec t _ h).mono fun _ => .setup
    | transportDisconnects t =>
      have hrule : DisconnectRule t (Setups X w) := (setupRule_setups w t).disconnect
      exact (runTransportDisconnects_rule hrule h .refl).ends.mono fun _ hx => .setup hx.2
    | _ => cases hhome

def Input.before (i : Input) (w : Server) : Server :=
  { w with reads := i.reads, writes := i.writes }

theorem Input.graph_before (i : Input) (h : Graph w) : Graph (i.before w) :=
  h.congr rfl rfl rfl rfl rfl rfl rfl rfl

theorem Action.enabled_before (i : Input) (w : Server) :
    i.action.enabled (i.before w) = i.action.enabled w := by
  cases hact : i.action <;> rfl

theorem run_of_step {i : Input} (hs : step host authEnabled w i = some w') :
    i.action.enabled (i.before w) = true ∧ ∃ w₁,
      i.action.run host authEnabled i.env (i.before w) = .ok w₁ ∧
      w' = { w₁ with reads := [], writes := [] } := by
  unfold step at hs
  split at hs
  next hen =>
    refine ⟨(Action.enabled_before i w).trans hen, ?_⟩
    split at hs
    next w₁ hrun => exact ⟨w₁, hrun, (Option.some.inj hs).symm⟩
    · cases hs
  · cases hs

theorem step_of_run {i : Input} (hen : i.action.enabled w = true)
    (hrun : i.action.run host authEnabled i.env (i.before w) = .ok w') :
    step host authEnabled w i = some { w' with reads := [], writes := [] } := by
  change i.action.run host authEnabled i.env
    { w with reads := i.reads, writes := i.writes } = _ at hrun
  rw [step, if_pos hen, hrun]

/-- What one step of the server does to the sockets. -/
theorem step_spec {i : Input} (h : Graph w) (hs : step host authEnabled w i = some w')
    (hX : i.action = .dispatch → DispatchLicence X (i.before w)) :
    ∃ w₁, Stepped X i.action (i.before w) w₁ ∧ w' = { w₁ with reads := [], writes := [] } := by
  obtain ⟨hen, w₁, hrun, heq⟩ := run_of_step hs
  have hspec := Action.run_spec host authEnabled (i.graph_before h) i.action i.env hen hX
  rw [hrun] at hspec
  exact ⟨w₁, hspec, heq⟩

theorem Graph.step {i : Input} (h : Graph w) (hs : step host authEnabled w i = some w') :
    Graph w' := by
  obtain ⟨w₁, hst, rfl⟩ := step_spec (X := ⟨True, True⟩) h hs fun _ _ _ _ _ _ _ _ =>
    ⟨fun _ _ => trivial, fun _ _ _ => trivial⟩
  exact (hst.graph (i.graph_before h)).congr rfl rfl rfl rfl rfl rfl rfl rfl

theorem Graph.run {K : Server → Input → Prop} (hr : Run (Sockets.step host authEnabled) K .init w) :
    Graph w :=
  hr.invariant graph_init fun _ _ _ hg _ hs => hg.step hs

/-- In every state between two handlers the sockets hang together, and the next handler neither
takes `socket_list_lock` twice nor calls through a null pointer or recurses without end. -/
theorem socketGraph_between_handlers (host authEnabled : Bool) {w : Server}
    (hrun : Run (step host authEnabled) (fun _ _ => True) init w) :
    SocketGraph w ∧ ∀ i : Input, i.action.enabled w = true → ∀ f,
      i.action.run host authEnabled i.env (i.before w) = .error f →
        f ≠ .deadlock ∧ f ≠ .nullPointer ∧ f ≠ .stackOverflow := by
  have h := Graph.run hrun
  refine ⟨h.socketGraph, fun i hen f hf => ?_⟩
  rw [← Action.enabled_before] at hen
  have hspec := Action.run_spec (X := ⟨True, True⟩) host authEnabled (i.graph_before h) i.action
    i.env
    hen fun _ _ _ _ _ _ _ _ => ⟨fun _ _ => trivial, fun _ _ _ => trivial⟩
  rw [hf] at hspec
  rcases hspec with rfl | rfl <;> simp

/-- The rest of the server as far as it matters in examples: there is one transport, no request is
handled apart from the host services, and every service of a device exists. -/
def plainEnv : Env where
  acquireOneTransport _ := some 0
  handleHostRequest _ := false
  hostReply _ := []
  serviceToFd _ := true
  transports := []
  banner := text "device::"
  authResponse := none
  authPublicKey := none
  authToken := none
  authVerify := false
  authNextKey := false

def input (action : Action) (reads : List ReadResult) (writes : List WriteResult) : Input :=
  ⟨action, reads, writes, plainEnv⟩

/-- A client connects and asks for the list of devices to be tracked. -/
def trackerRun : List Input :=
  [input .acceptSmart [] [], input (.poll [(0, .fdeRead)]) [] [],
    input .dispatch [.data (text "0012host:track-devices")] [.count 3, .eagain]]

/-- The client is connected to its tracker and has the list of devices queued. -/
theorem socketGraph_tracker : ∃ w, Run (step true false) (fun _ _ => True) init w ∧
    ((w.socket 0).map fun s => (s.peer, s.queue)) = some (some 2, [text "0000"]) ∧
    SocketGraph w := by
  have hexec : (exec (step true false) init trackerRun).map
      (fun w => (w.socket 0).map fun s => (s.peer, s.queue)) =
      some (some (some 2, [text "0000"])) := by decide +kernel
  obtain ⟨w, hw, hq⟩ := Option.map_eq_some_iff.mp hexec
  have hrun := run_of_exec (fun _ _ _ => trivial) hw
  exact ⟨w, hrun, hq, (socketGraph_between_handlers true false hrun).1⟩

end PaxAdb.Sockets
