import PaxAdb.Streams

/-!
# Ids that are given twice

`install_local_socket` starts again at 1 after the largest id. Clients that come and go use up the
ids of both ends, until a new socket has the id of one that the other end still knows.
-/

namespace PaxAdb.Sockets

open Function (update update_self update_of_ne update_idem update_comm update_eq_self)
open ASocket Server Runs

variable {u : Server} (host authEnabled : Bool) (link : TransportId) {w : Pair}

def Server.client (u : Server) (events : Events) : ASocket :=
  { u.freshLocal with peer := some (u.nextAddr + 1), fde := ⟨.fdeRead, events, false, false⟩ }

def Server.withClient (u : Server) (events : Events) (pending : List Addr) : Server :=
  { (u.born.store (u.nextAddr + 1) (smartFor u.nextAddr)).store u.nextAddr (u.client events) with
    nextAddr := u.nextAddr + 2
    listPending := pending
    reads := []
    writes := [] }

def Server.visited (u : Server) : Server :=
  { u with
    nextAddr := u.nextAddr + 2
    localSocketNextId := u.born.localSocketNextId
    created := u.created + 1
    owner := u.born.owner
    trace := u.born.trace
    reads := []
    writes := [] }

theorem fdeventSet_calm {a : Addr} {s : ASocket} {ev : Events} (hne : s.fde.state ≠ ev)
    (hm : a ∉ u.listPending) :
    u.fdeventSet a s ev = u.store a { s with fde := { s.fde with state := ev } } := by
  rw [fdeventSet, if_neg hne, if_neg hm]

theorem step_come (hp : u.listPending = []) :
    step host authEnabled u (input .acceptSmart [] []) = some (u.withClient .none []) := by
  let i := input .acceptSmart [] []
  have hne : Events.none ≠ Events.none.union .fdeRead := by decide
  have hm : (i.before u).nextAddr ∉ ((i.before u).born.attachSmart (i.before u).nextAddr
      (i.before u).freshLocal).listPending := by
    change u.nextAddr ∉ u.listPending
    simp [hp]
  have hrun := acceptSmart_eq plainEnv (i.before u)
  rw [resumed, fdeventSet_calm hne hm] at hrun
  rw [step_of_run (i := i) rfl hrun, withClient, ← hp]
  simp only [attachSmart, attached, store, update_idem]
  rfl

theorem client_socket (u : Server) (events : Events) (pending : List Addr) :
    (u.withClient events pending).socket u.nextAddr = some (u.client events) := socket_store _ _ _

theorem step_report :
    step host authEnabled (u.withClient .none []) (input (.poll [(u.nextAddr, .fdeRead)]) [] []) =
      some (u.withClient .fdeRead [u.nextAddr]) := by
  let i := input (.poll [(u.nextAddr, .fdeRead)]) [] []
  have ha := client_socket u .none []
  have hen : i.action.enabled (u.withClient .none []) = true := by
    simp only [i, input, Action.enabled, waitsFor, List.all_cons, List.all_nil, ha]
    simp [withClient, client, freshLocal, Events.fdeRead, Events.none, Events.without]
  have hrun : i.action.run host authEnabled i.env (i.before (u.withClient .none [])) =
      .ok (reportEvents (i.before (u.withClient .none [])) u.nextAddr .fdeRead false) := rfl
  rw [step_of_run hen hrun]
  have ha' : (i.before (u.withClient .none [])).socket u.nextAddr = some (u.client .none) := ha
  simp only [reportEvents, ha']
  simp only [Input.before, withClient, store, update_idem]
  rfl

theorem closedWith_smart {a p : Addr} {s : ASocket} (hq : s.queue = []) :
    u.closedWith a s p (smartFor a) = { u with
      socket := update (update u.socket p none) a none
      listPending := u.listPending.erase a
      localSocketList := u.localSocketList.erase a
      localSocketClosingList := u.localSocketClosingList.erase a } := by
  simp [closedWith, dispose, smartFor, finished, hq, localSocketDestroy, free, store]

theorem dispatch_hangUp (env : Env) {v : Server} {a p : Addr} {s : ASocket} (h : Graph v)
    (hl : v.listPending = [a]) (ha : v.socket a = some s) (hev : s.fde.events = .fdeRead)
    (hbad : s.fde.bad = false) (hr : v.reads = [.data []]) (hloc : s.IsLocal)
    (hp : s.peer = some p) (hq : v.socket p = some (smartFor a)) (hqueue : s.queue = []) :
    dispatch env v = .ok { v with
      socket := update (update v.socket p none) a none
      listPending := []
      localSocketList := v.localSocketList.erase a
      localSocketClosingList := v.localSocketClosingList.erase a } := by
  let s₁ : ASocket := { s with fde := { s.fde with events := .none } }
  let v₁ : Server := { v.store a s₁ with listPending := [] }
  have hne : p ≠ a := (h.peer_spec ha hp).1
  have hm : Move ⟨True, True⟩ v v₁ := .dequeue hl ha
  have h₁ : Graph v₁ := hm.graph h
  have ha₁ : v₁.socket a = some s₁ := socket_store _ _ _
  have hq₁ : v₁.socket p = some (smartFor a) := (socket_store_ne _ _ hne).trans hq
  have hread : readLoop [.data []] MAX_PAYLOAD [] .nonzero = ([], true, .zero) := rfl
  have hdisp : dispatch env v = v₁.close a := by
    have hfunc : dispatch env v = localSocketReadable env a v₁ := by
      simp only [dispatch, hl, get_eq ha, ok_bind]
      rw [localSocketEventFunc, hev]
      rfl
    have hb₁ : s₁.fde.bad = false := hbad
    have hr₁ : v₁.reads = [.data []] := hr
    rw [hfunc]
    simp [localSocketReadable, localSocketPass, get_eq ha₁, ok_bind, hb₁, hr₁, hread]
  obtain ⟨w', hclose, hcl⟩ := close_eq h₁ ha₁ hloc
  rw [hdisp, hclose]
  cases hcl with
  | alone ha' _ hp' =>
    cases ha₁.symm.trans ha'
    exact absurd (hp.symm.trans hp') (by simp)
  | other ha' _ hp' hq' _ =>
    cases ha₁.symm.trans ha'
    cases hp.symm.trans hp'
    cases hq₁.symm.trans hq'
    have hshut : v₁.shutdownFor s₁ (smartFor a) = v₁ := rfl
    have hqueue₁ : s₁.queue = [] := hqueue
    rw [hshut, closedWith_smart hqueue₁]
    simp only [v₁, store, List.erase_nil]
    rw [update_comm hne.symm, update_idem]
  | both ha' _ hp' hq' hqloc =>
    cases ha₁.symm.trans ha'
    cases hp.symm.trans hp'
    cases hq₁.symm.trans hq'
    cases hqloc

theorem socket_gone (h : Graph u) (events : Events) (pending : List Addr) :
    update (update (u.withClient events pending).socket (u.nextAddr + 1) none)
      u.nextAddr none = u.socket := by
  funext b
  by_cases hb : b = u.nextAddr
  · rw [hb, update_self, h.fresh _ le_rfl]
  · rw [update_of_ne hb]
    by_cases hb' : b = u.nextAddr + 1
    · rw [hb', update_self, h.fresh _ (Nat.le_succ _)]
    · rw [update_of_ne hb']
      refine (socket_store_ne _ _ hb).trans ((socket_store_ne _ _ hb').trans ?_)
      exact socket_store_ne _ _ hb

theorem exec_visit (h : Graph u) (hp : u.listPending = []) :
    exec (step host authEnabled) u [input .acceptSmart [] [],
      input (.poll [(u.nextAddr, .fdeRead)]) [] [], input .dispatch [.data []] []] =
      some u.visited := by
  have h₁ : Graph (u.withClient .none []) := h.step (step_come host authEnabled hp)
  have h₂ : Graph (u.withClient .fdeRead [u.nextAddr]) :=
    h₁.step (step_report host authEnabled)
  let i := input .dispatch [.data []] []
  let v := u.withClient .fdeRead [u.nextAddr]
  have hne : u.nextAddr + 1 ≠ u.nextAddr := (Nat.lt_succ_self _).ne'
  have hblank := h.blank_of_le (le_refl u.nextAddr)
  have hlist : (u.localSocketList ++ [u.nextAddr]).erase u.nextAddr = u.localSocketList := by
    rw [List.erase_append_right _ hblank.listed]
    simp
  have hclosing : u.localSocketClosingList.erase u.nextAddr = u.localSocketClosingList :=
    List.erase_of_not_mem hblank.closing
  have hsmart : v.socket (u.nextAddr + 1) = some (smartFor u.nextAddr) :=
    (socket_store_ne _ _ hne).trans (socket_store _ _ _)
  have hrun := dispatch_hangUp plainEnv (v := i.before v) (i.graph_before h₂) rfl
    (client_socket u .fdeRead [u.nextAddr]) rfl rfl rfl rfl rfl hsmart rfl
  have hstep : step host authEnabled v i = some u.visited := by
    rw [step_of_run (i := i) (w := v) rfl hrun]
    have hsock := socket_gone h .fdeRead [u.nextAddr]
    change some { u with
      socket := update (update v.socket (u.nextAddr + 1) none) u.nextAddr none
      nextAddr := u.nextAddr + 2
      localSocketNextId := u.born.localSocketNextId
      localSocketList := (u.localSocketList ++ [u.nextAddr]).erase u.nextAddr
      localSocketClosingList := u.localSocketClosingList.erase u.nextAddr
      listPending := []
      created := u.created + 1
      owner := u.born.owner
      trace := u.born.trace
      reads := []
      writes := [] } = _
    rw [hlist, hclosing, hsock, ← hp]
    rfl
  simp only [exec, step_come host authEnabled hp, step_report, Option.bind_some]
  rw [hstep]
  rfl

section Visits

theorem run_visited (hg : Graph u) (hp : u.listPending = []) (k : ℕ) :
    Run (step host authEnabled) (fun _ i => i.action.atHome = true) u (visited^[k] u) := by
  induction k generalizing u with
  | zero => exact .refl
  | succ k ih =>
    let visit := [input .acceptSmart [] [], input (.poll [(u.nextAddr, .fdeRead)]) [] [],
      input .dispatch [.data []] []]
    have hhome : ∀ i ∈ visit, i.action.atHome = true := by simp [visit, input, Action.atHome]
    have hvisit : Run (step host authEnabled) (fun _ i => i.action.atHome = true) u u.visited :=
      run_of_exec (fun i hi _ => hhome i hi) (exec_visit host authEnabled hg hp)
    have hgv : Graph u.visited := hvisit.invariant hg fun _ _ _ hg _ hs => hg.step hs
    exact hvisit.trans (ih hgv hp)

theorem run_home {b : Bool} {v : Server}
    (hrun : Run (step b authEnabled) (fun _ i => i.action.atHome = true) (w b) v) :
    Run (Pair.step authEnabled link) (fun _ _ => True) w (update w b v) := by
  have hstep : ∀ u i u', i.action.atHome = true → step b authEnabled u i = some u' →
      Pair.step authEnabled link (update w b u) (.act b i) =
        some (update w b u') := by
    intro u i u' hhome hs
    have hself : update w b u b = u := update_self ..
    simp only [Pair.step, hhome, if_true, hself, hs, Option.map_some, update_idem]
  have hlift : Run (Pair.step authEnabled link) (fun _ _ => True)
      (update w b (w b)) (update w b v) :=
    hrun.lift (update w b) (.act b) fun u i u' hok hs => ⟨trivial, hstep u i u' hok hs⟩
  rwa [update_eq_self] at hlift

theorem run_visits {b : Bool} (hg : Graph (w b)) (hp : (w b).listPending = []) (k : ℕ) :
    Run (Pair.step authEnabled link) (fun _ _ => True) w
      (update w b (visited^[k] (w b))) :=
  run_home authEnabled link (run_visited b authEnabled hg hp k)

theorem visited_iterate (u : Server) (hr : u.reads = []) (hw : u.writes = []) (k : ℕ) :
    visited^[k] u = { u with
      nextAddr := u.nextAddr + 2 * k
      localSocketNextId := (visited^[k] u).localSocketNextId
      created := u.created + k
      owner := (visited^[k] u).owner
      trace := (visited^[k] u).trace } := by
  induction k with
  | zero => rfl
  | succ k ih =>
    rw [Function.iterate_succ_apply']
    generalize visited^[k] u = v at ih
    rw [ih]
    simp only [visited, Nat.mul_succ, Nat.add_assoc, ← hr, ← hw]

theorem nextId_visited (u : Server) {i k : ℕ} (hi : u.localSocketNextId = i)
    (hlt : i + k < 2 ^ 32) :
    (visited^[k] u).localSocketNextId = i + k := by
  induction k with
  | zero => exact hi
  | succ k ih =>
    rw [Function.iterate_succ_apply']
    have := ih (by omega)
    generalize visited^[k] u = v at this
    have hmod : (v.localSocketNextId + 1) % 2 ^ 32 = i + (k + 1) := by
      rw [this, Nat.mod_eq_of_lt (by omega)]
      omega
    simp only [visited, born, createLocalSocket, hmod]
    rw [if_neg (by omega)]

theorem nextId_wraps (u : Server) (hi : u.localSocketNextId = 2) :
    (visited^[2 ^ 32 - 2] u).localSocketNextId = 1 := by
  have hk : 2 ^ 32 - 2 = (2 ^ 32 - 3) + 1 := by norm_num
  have := nextId_visited u hi (k := 2 ^ 32 - 3) (by norm_num)
  rw [hk, Function.iterate_succ_apply']
  generalize visited^[2 ^ 32 - 3] u = v at this
  simp only [visited, born, createLocalSocket, this]
  norm_num

end Visits

section Reuse

/-- The device has accepted a stream that the host has given up, and its answer is on its way. -/
def orphaned : Pair :=
  (exec (Pair.step false 0) (Pair.init 0)
    (clientRun [.data (text "0005tcp:7"), .data []]).dropLast).getD (Pair.init 0)

/-- So many clients have come and gone at both ends that the next id is 1 again. -/
def worn (b : Bool) : Server :=
  { orphaned b with
    nextAddr := (orphaned b).nextAddr + 2 * (2 ^ 32 - 2)
    localSocketNextId := 1
    created := (orphaned b).created + (2 ^ 32 - 2)
    owner := (visited^[2 ^ 32 - 2] (orphaned b)).owner
    trace := (visited^[2 ^ 32 - 2] (orphaned b)).trace }

/-- A new client gets the id of the old one. It takes the answer to the old request for the answer
to its own, and the answer to its own for an acknowledgement. -/
def reuseRun : List Event :=
  [.act true (input (.acceptForward 0 (text "tcp:7")) [] []), .deliver false [] [] plainEnv,
    .deliver true [] [] plainEnv,
    .act true (input (.poll [(8589934590, .fdeRead)]) [] []),
    .act true (input .dispatch [.data (text "a")] []),
    .deliver true [] [] plainEnv,
    .act true (input (.poll [(8589934590, .fdeRead)]) [] []),
    .act true (input .dispatch [.data (text "b")] []),
    .deliver false [] [.eagain] plainEnv,
    .deliver false [] [] plainEnv]

theorem run_orphaned :
    Run (Pair.step false 0) (fun _ _ => True) (Pair.init 0) orphaned ∧
      ∀ b, (orphaned b).listPending = [] ∧ (orphaned b).reads = [] ∧ (orphaned b).writes = [] ∧
        (orphaned b).localSocketNextId = 2 := by
  have hexec : (exec (Pair.step false 0) (Pair.init 0)
      (clientRun [.data (text "0005tcp:7"), .data []]).dropLast).isSome = true := by decide +kernel
  obtain ⟨w, hw⟩ := Option.isSome_iff_exists.mp hexec
  have hwo : orphaned = w := by rw [orphaned, hw, Option.getD_some]
  refine ⟨?_, by decide +kernel⟩
  rw [hwo]
  exact run_of_exec (fun _ _ _ => trivial) hw

theorem run_worn : Run (Pair.step false 0) (fun _ _ => True) (Pair.init 0) worn := by
  obtain ⟨hrun, hcalm⟩ := run_orphaned
  have hg := (Pair.run_sound (hrun.mono fun w e _ => e.allowed w)).1
  have hworn : ∀ b, visited^[2 ^ 32 - 2] (orphaned b) = worn b := fun b => by
    obtain ⟨_, hr, hw, hid⟩ := hcalm b
    rw [visited_iterate _ hr hw, nextId_wraps _ hid]
    rfl
  have hhost := run_visits false 0 (hg true) (hcalm true).1 (2 ^ 32 - 2)
  have hdevice := run_visits false 0 (b := false)
    (w := update orphaned true (worn true)) (hg false) (hcalm false).1 (2 ^ 32 - 2)
  have hboth : update (update orphaned true (worn true)) false (worn false) =
      worn := by
    funext b
    cases b <;> rfl
  rw [hworn] at hhost
  rw [update_of_ne (by simp), hworn, hboth] at hdevice
  exact (hrun.trans hhost).trans hdevice

/-- The socket of the device has two packets of one stream queued. -/
theorem flow_control_lost : ∃ w, Run (Pair.step false 0) (fun _ _ => True) (Pair.init 0) w ∧
    (w true).ConnectedTo 0 1 1 ∧ (w false).ConnectedTo 0 1 1 ∧
    (w false).connectedAt 0 0 1 1 = true ∧ (w false).backlog 0 = 2 := by
  have hexec : (exec (Pair.step false 0) worn reuseRun).map (fun w =>
      decide ((w true).connectedAt 0 8589934590 1 1 = true ∧ (w false).connectedAt 0 0 1 1 = true ∧
        (w false).backlog 0 = 2)) = some true := by decide +kernel
  obtain ⟨w, hw, heq⟩ := Option.map_eq_some_iff.mp hexec
  obtain ⟨hhost, hdevice, hback⟩ := of_decide_eq_true heq
  exact ⟨w, run_worn.trans (run_of_exec (fun _ _ _ => trivial) hw),
    connectedTo_of_connectedAt hhost, connectedTo_of_connectedAt hdevice, hdevice, hback⟩

end Reuse

end PaxAdb.Sockets
