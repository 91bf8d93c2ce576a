import PaxAdb.TransportLinks

/-!
# Online and connected

On the host a transport is online exactly while its connection state says that a device is
connected, until a device that is online asks for authentication: `A_AUTH` then changes the
connection state and leaves the transport online.
-/

namespace PaxAdb.Sockets

open Runs Server List Command

def ConnectionState.connected : ConnectionState → Bool
  | .bootloader | .device | .host | .recovery | .sideload => true
  | .offline | .noperm | .unauthorized => false

/-- The transport is online while it is connected, and otherwise no packet of a connection is acted
on. -/
structure OnlineMeansConnected (authEnabled : Bool) (t : TransportId) (w : Server) : Prop where
  online : w.online t = true ↔ (w.connectionState t).connected = true
  ignored : (w.connectionState t).connected = false → ∀ (env : Env) (x : Packet),
    x.command.ofConnection = true → handlePacket true authEnabled env x t w = .ok w

def Input.AsksAuth (t : TransportId) (i : Input) : Prop :=
  ∃ x, i.action = .packet x t ∧ x.command = .aAuth ∧ x.arg0 = ADB_AUTH_TOKEN

section Packets

variable {authEnabled : Bool} {env : Env} {l : Links} {x : Packet} {t t' : TransportId}

def Links.Agree (l : Links) (t : TransportId) : Prop :=
  l.online t = true ↔ (l.connectionState t).connected = true

theorem bannerState_connected (banner : List Byte) : (bannerState banner).connected = true := by
  unfold bannerState
  dsimp only
  split_ifs <;> rfl

theorem Links.authData_states (n : ℕ) (data : Option (List Byte)) (t : TransportId) (l : Links) :
    (l.authData n data t).online = l.online ∧
      (l.authData n data t).connectionState = l.connectionState := by
  cases data <;> exact ⟨rfl, rfl⟩

theorem Links.authRequest_states (env : Env) (t : TransportId) (l : Links) :
    (l.authRequest env t).online = l.online ∧
      (l.authRequest env t).connectionState = l.connectionState := by
  unfold authRequest
  cases env.authToken <;> exact ⟨rfl, rfl⟩

theorem Links.Agree.congr {l' : Links} (h : l.Agree t) (hon : l'.online t = l.online t)
    (hst : l'.connectionState t = l.connectionState t) : l'.Agree t := by
  rw [Agree, hon, hst]
  exact h

theorem Links.receive_other (authEnabled : Bool) (env : Env) (l : Links) (x : Packet)
    (hne : t' ≠ t) :
    (l.receive true authEnabled env x t).online t' = l.online t' ∧
      (l.receive true authEnabled env x t).connectionState t' = l.connectionState t' := by
  have hdata : ∀ n data (l' : Links), (l'.authData n data t).online t' = l'.online t' ∧
      (l'.authData n data t).connectionState t' = l'.connectionState t' := fun n data l' => by
    rw [(authData_states n data t l').1, (authData_states n data t l').2]
    exact ⟨rfl, rfl⟩
  unfold receive
  split
  · unfold sync
    split_ifs <;> simp [goOffline, send, setState, setOnline, hne]
  · unfold cnxn
    simp only [Bool.true_or, if_true]
    split_ifs <;> simp [goOffline, setState, setOnline, hne]
  · unfold auth
    split_ifs
    · simp [hdata, setState, hne]
    · simp [hdata, setState, hne]
    · simp [send, setOnline, hne]
    · rw [(authRequest_states env t l).1, (authRequest_states env t l).2]
      exact ⟨rfl, rfl⟩
    · exact ⟨rfl, rfl⟩
  · unfold hdsk
    split_ifs <;> exact ⟨rfl, rfl⟩
  · exact ⟨rfl, rfl⟩

/-- While the states agree, only a request for authentication that finds the transport online can
part them. -/
theorem Links.receive_agree_iff (hverify : env.authVerify = false) (h : l.Agree t) :
    (l.receive true authEnabled env x t).Agree t ↔
      ¬ ((x.command = .aAuth ∧ x.arg0 = ADB_AUTH_TOKEN) ∧ l.online t = true) := by
  have hkeeps : ∀ l' : Links, l'.online t = l.online t →
      l'.connectionState t = l.connectionState t → (l'.Agree t ↔ True) :=
    fun l' hon hst => iff_true_intro (h.congr hon hst)
  unfold receive
  split
  next hx =>
    simp only [hx, reduceCtorEq, false_and, not_false_eq_true, iff_true, sync, if_true]
    split_ifs
    · exact h.congr rfl rfl
    · simp [Agree, goOffline, send, setState, setOnline, ConnectionState.connected]
  next hx =>
    simp only [hx, reduceCtorEq, false_and, not_false_eq_true, iff_true]
    simp [cnxn, Agree, setState, setOnline, bannerState_connected]
  next hx =>
    simp only [hx, true_and]
    unfold auth
    by_cases htok : x.arg0 = ADB_AUTH_TOKEN
    · have hstate : ∀ n data, ((l.setState t .unauthorized).authData n data t).Agree t ↔
          ¬ l.online t = true := by
        intro n data
        rw [Agree, (authData_states n data t _).1, (authData_states n data t _).2]
        simp [setState, ConnectionState.connected]
      rw [if_pos htok]
      simp only [htok, true_and]
      split_ifs
      · exact hstate _ _
      · exact hstate _ _
    · rw [if_neg htok]
      simp only [htok, false_and, not_false_eq_true]
      split_ifs with hsig hver
      · exact absurd hver (by simp [hverify])
      · have hreq := authRequest_states env t l
        exact hkeeps _ (congrFun hreq.1 t) (congrFun hreq.2 t)
      · exact hkeeps _ rfl rfl
  next hx =>
    simp only [hx, reduceCtorEq, false_and, not_false_eq_true]
    unfold hdsk
    split_ifs
    · exact hkeeps _ rfl rfl
    · exact hkeeps _ rfl rfl
  next _ _ hx _ =>
    have hne : ¬ ((x.command = .aAuth ∧ x.arg0 = ADB_AUTH_TOKEN) ∧ l.online t = true) :=
      fun hc => hx hc.1.1
    simp only [hne, not_false_eq_true]
    exact hkeeps _ rfl rfl

end Packets

section Runs

variable {authEnabled : Bool} {w w' : Server} {t : TransportId} {i : Input}

theorem handlePacket_offline (h : w.online t = false) (env : Env) (x : Packet)
    (hx : x.command.ofConnection = true) : handlePacket true authEnabled env x t w = .ok w := by
  unfold handlePacket
  split
  next hc => simp [hc, ofConnection] at hx
  next hc => simp [hc, ofConnection] at hx
  next hc => simp [hc, ofConnection] at hx
  · simp [handleOpen, h]
  · simp [handleOkay, h]
  · simp [handleClse, h]
  · simp [handleWrte, h]
  next hc => simp [hc, ofConnection] at hx
  next hc => simp [hc, ofConnection] at hx

theorem onlineMeansConnected_iff : OnlineMeansConnected authEnabled t w ↔ w.links.Agree t := by
  refine ⟨OnlineMeansConnected.online, fun h => ⟨h, fun hst env x hx => ?_⟩⟩
  have hoff : w.online t = false := by
    by_contra hon
    have hc := h.mp (Bool.eq_true_of_not_eq_false hon)
    exact absurd (hc.symm.trans hst) (by simp)
  exact handlePacket_offline hoff env x hx

theorem step_agree_iff (hg : Graph w) (h : w.links.Agree t) (hverify : i.env.authVerify = false)
    (hs : step true authEnabled w i = some w') :
    w'.links.Agree t ↔ ¬ (i.AsksAuth t ∧ w.online t = true) := by
  rcases step_links hg hs with ⟨x, t', w₁, hact, hrun, hlinks⟩ | ⟨hne, n, hem⟩
  · have hspec := handlePacket_links true authEnabled i.env (i.graph_before hg) x t'
    rw [hrun] at hspec
    obtain ⟨_, hspec⟩ := hspec
    have hasks : i.AsksAuth t ↔ t' = t ∧ x.command = .aAuth ∧ x.arg0 = ADB_AUTH_TOKEN := by
      constructor
      · rintro ⟨y, hy, hcmd, htok⟩
        cases hact.symm.trans hy
        exact ⟨rfl, hcmd, htok⟩
      · rintro ⟨rfl, hcmd, htok⟩
        exact ⟨x, hact, hcmd, htok⟩
    rw [hlinks, hasks]
    by_cases hconn : x.command.ofConnection = true
    · rw [if_pos hconn] at hspec
      have hno : ¬ ((t' = t ∧ x.command = .aAuth ∧ x.arg0 = ADB_AUTH_TOKEN) ∧
          w.online t = true) := by
        rintro ⟨⟨_, hcmd, _⟩, _⟩
        simp [hcmd, ofConnection] at hconn
      refine iff_of_true (h.congr ?_ ?_) hno
      · exact congrFun hspec.online t
      · exact congrFun hspec.connectionState t
    · rw [if_neg hconn] at hspec
      rw [hspec]
      by_cases ht : t' = t
      · subst ht
        simp only [true_and]
        exact Links.receive_agree_iff hverify h
      · have hother := Links.receive_other authEnabled i.env (i.before w).links x (Ne.symm ht)
        exact iff_of_true (h.congr hother.1 hother.2) fun hc => ht hc.1.1
  · refine iff_of_true (h.congr (congrFun hem.online t) (congrFun hem.connectionState t)) ?_
    rintro ⟨⟨x, hact, _⟩, _⟩
    exact hne x t hact

end Runs

/-- Whatever the devices send and the rest of the server does, online means connected after every
step of the host exactly if no device asks for authentication while it is online. In the host build
`adb_auth_verify` is the constant 0. -/
theorem online_means_connected_iff (authEnabled : Bool) (t : TransportId) (inputs : List Input)
    (hhost : ∀ i ∈ inputs, i.env.authVerify = false) :
    (∀ pre, pre <+: inputs → ∀ w, exec (step true authEnabled) init pre = some w →
        OnlineMeansConnected authEnabled t w) ↔
      ∀ pre i, pre ++ [i] <+: inputs → ∀ w,
        exec (step true authEnabled) init pre = some w →
          ¬ (i.AsksAuth t ∧ w.online t = true) := by
  have hgraph : ∀ pre w, exec (step true authEnabled) init pre = some w → Graph w :=
    fun pre w hw => Graph.run (K := fun _ _ => True) (run_of_exec (fun _ _ _ => trivial) hw)
  have hverify : ∀ pre i, pre ++ [i] <+: inputs → i.env.authVerify = false :=
    fun pre i hpre => hhost i (hpre.subset (by simp))
  constructor
  · intro h pre i hpre w hw hbad
    obtain ⟨x, hact, hcmd, htok⟩ := hbad.1
    -- a request for authentication is always handled, and its result is the next state
    have hen : i.action.enabled w = true := by rw [hact]; rfl
    have hrun : i.action.run true authEnabled i.env (i.before w) =
        .ok (handleAuth true i.env x t (i.before w)) := by
      simp only [hact, Action.run, handlePacket, hcmd]
    obtain ⟨w', hs⟩ : ∃ w', step true authEnabled w i = some w' := ⟨_, step_of_run hen hrun⟩
    have hexec : exec (step true authEnabled) init (pre ++ [i]) = some w' := by
      rw [exec_snoc, hw, Option.bind_some, hs]
    have hpre' : pre <+: inputs := (prefix_append pre [i]).trans hpre
    have hagree := onlineMeansConnected_iff.mp (h pre hpre' w hw)
    have hagree' := onlineMeansConnected_iff.mp (h _ hpre w' hexec)
    exact (step_agree_iff (hgraph pre w hw) hagree (hverify pre i hpre) hs).mp hagree' hbad
  · intro h pre
    induction pre using reverseRecOn with
    | nil =>
      intro _ w hw
      cases hw
      rw [onlineMeansConnected_iff]
      simp [Links.Agree, links, init, ConnectionState.connected]
    | append_singleton pre i ih =>
      intro hpre w' hw'
      rw [exec_snoc] at hw'
      obtain ⟨w, hw, hs⟩ := Option.bind_eq_some_iff.mp hw'
      have hpre' : pre <+: inputs := (prefix_append pre [i]).trans hpre
      have hagree := onlineMeansConnected_iff.mp (ih hpre' w hw)
      rw [onlineMeansConnected_iff]
      exact (step_agree_iff (hgraph pre w hw) hagree (hverify pre i hpre) hs).mpr
        (h pre i hpre w hw)

def connectRun : List Input :=
  [input (.packet ⟨.aSync, 1, 2, []⟩ 0) [] [],
    input (.packet ⟨.aCnxn, 1, 4096, text "device::"⟩ 0) [] [],
    input (.packet ⟨.aSync, 0, 0, []⟩ 0) [] []]

theorem online_means_connected_device :
    (∀ i ∈ connectRun, i.env.authVerify = false) ∧
    ∀ pre, pre <+: connectRun → ∀ w, exec (step true false) init pre = some w →
      OnlineMeansConnected false 0 w := by
  have hhost : ∀ i ∈ connectRun, i.env.authVerify = false := by
    intro i hi
    simp only [connectRun, mem_cons, not_mem_nil, or_false] at hi
    rcases hi with rfl | rfl | rfl <;> rfl
  refine ⟨hhost, (online_means_connected_iff false 0 connectRun hhost).mpr ?_⟩
  rintro pre i hpre w - ⟨⟨x, hact, hcmd, _⟩, _⟩
  have hi : i ∈ connectRun := hpre.subset (by simp)
  simp only [connectRun, mem_cons, not_mem_nil, or_false] at hi
  rcases hi with rfl | rfl | rfl <;> cases hact <;> cases hcmd

/-- A device that is online asks for authentication: it is listed as unauthorized, and a stream it
opens is accepted all the same. -/
theorem online_unauthorized : ∃ w, exec (step true false) init
      [input (.packet ⟨.aCnxn, 1, 4096, text "device::"⟩ 0) [] [],
        input (.packet ⟨.aAuth, ADB_AUTH_TOKEN, 0, []⟩ 0) [] []] = some w ∧
    w.connectionState 0 = .unauthorized ∧ w.online 0 = true ∧
    ¬ OnlineMeansConnected false 0 w ∧
    ∃ w', handlePacket true false plainEnv ⟨.aOpen, 5, 0, text "tcp:5037"⟩ 0 w = .ok w' ∧
      w'.localSocketList = [0] := by
  have hexec : (exec (step true false) init
      [input (.packet ⟨.aCnxn, 1, 4096, text "device::"⟩ 0) [] [],
        input (.packet ⟨.aAuth, ADB_AUTH_TOKEN, 0, []⟩ 0) [] []]).map
      (fun w => (w.connectionState 0, w.online 0,
        (handlePacket true false plainEnv ⟨.aOpen, 5, 0, text "tcp:5037"⟩ 0 w).toOption.map
          (·.localSocketList))) = some (.unauthorized, true, some [0]) := by decide +kernel
  obtain ⟨w, hw, heq⟩ := Option.map_eq_some_iff.mp hexec
  simp only [Prod.mk.injEq] at heq
  obtain ⟨hst, hon, hopen⟩ := heq
  refine ⟨w, hw, hst, hon, fun h => ?_, ?_⟩
  · have hc := h.online.mp hon
    rw [hst] at hc
    cases hc
  · obtain ⟨w', hw', hlist⟩ := Option.map_eq_some_iff.mp hopen
    exact ⟨w', of_toOption hw', hlist⟩

end PaxAdb.Sockets
