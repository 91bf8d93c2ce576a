import PaxAdb.ListenerRuns
import PaxAdb.TransportIsolation

/-!
# The start of a session

The remote sockets of a transport and the listeners that forward to it have their nodes on one list
of callbacks. When the device connects anew the callbacks are called, each of which takes its own
node off the list. A local socket that waits for the answer to its `A_OPEN` has no node: it goes on
waiting in the new session.
-/

namespace PaxAdb.Sessions

open Function (update update_self update_of_ne)
open Listeners (Node Registry)
open Walk (walkAll)
open Runs (Run exec)
open Sockets List Option

structure Hub where
  server : Server
  registry : Registry

def socketAddr : Node → Option Addr
  | .listener _ => none
  | .socket a => some a

def Hub.Synced (H : Hub) : Prop :=
  ∀ t, (H.registry.disconnects t).filterMap socketAddr = H.server.disconnects t

/-- A state a server for clients can get to: its sockets have a history and so have its listeners,
and both agree on the nodes of the remote sockets. -/
structure Hub.Reachable (authEnabled : Bool) (H : Hub) : Prop where
  server : Run (step true authEnabled) (fun _ _ => True) Server.init H.server
  registry : ∃ device name, Run Listeners.step (fun _ _ => True) (Registry.init device name)
    H.registry
  synced : H.Synced

section Handlers

variable (env : Sockets.Env)

def disconnectCall (t : TransportId) (n : Node) (H : Hub) : Option Hub := do
  let R ← Registry.disconnectCall t n H.registry
  match n with
  | .listener _ => return ⟨H.server, R⟩
  | .socket p => (H.server.remoteSocketDisconnect p).toOption.map fun w => ⟨w, R⟩

def runTransportDisconnects (t : TransportId) (H : Hub) : Option (Hub × List Node) :=
  walkAll (fun H => H.registry.disconnects t) (disconnectCall t) H

def handleOffline (t : TransportId) (H : Hub) : Option (Hub × List Node) :=
  runTransportDisconnects t
    { H with server := { H.server with online := update H.server.online t false } }

def goOffline (t : TransportId) (H : Hub) : Option (Hub × List Node) :=
  handleOffline t { H with server := setConnectionState t .offline H.server }

def handleSync (p : Packet) (t : TransportId) (H : Hub) : Option (Hub × List Node) :=
  if p.arg0 ≠ 0 then
    some ({ H with server := sendConnect true env t (H.server.sendPacket p t) }, [])
  else do
    let (H, calls) ← goOffline t H
    return ({ H with server := H.server.sendPacket p t }, calls)

def handleCnxn (p : Packet) (t : TransportId) (H : Hub) : Option (Hub × List Node) := do
  let (H, calls) ← if H.server.connectionState t ≠ .offline then goOffline t H else some (H, [])
  let w ← (parseBanner env p.data t H.server).toOption
  return ({ H with server := handleOnline t w }, calls)

/-- The packets of `handle_packet` that may take a transport offline. -/
def handlePacket (p : Packet) (t : TransportId) (H : Hub) : Option (Hub × List Node) :=
  match p.command with
  | .aSync => handleSync env p t H
  | .aCnxn => handleCnxn env p t H
  | _ => none

end Handlers

def Waiting (t : TransportId) (s : ASocket) : Prop :=
  s.IsLocal ∧ s.peer = none ∧ s.closing = false ∧ s.transport = some t

/-- Nothing that has a node on the list of `t` is left, and nothing else has changed. -/
structure Swept (t : TransportId) (H H' : Hub) (calls : List Node) : Prop where
  lists : H'.registry.disconnects t = [] ∧ H'.server.disconnects t = []
  remote : ∀ p q, H'.server.socket p = some q → q.IsRemote → q.transport ≠ some t
  listeners : ∀ a l, H'.registry.listener a = some l → l.transport ≠ some t
  connected : ∀ a s p q, H'.server.socket a = some s → s.IsLocal → s.peer = some p →
    H'.server.socket p = some q → q.IsRemote → q.transport ≠ some t
  once : calls = H.registry.disconnects t ∧ calls.Nodup
  otherSockets : Spares t H.server H'.server
  otherRemotes : ∀ p q, H.server.socket p = some q → q.IsRemote → q.transport ≠ some t →
    H'.server.socket p = some q
  otherListeners : ∀ a l, l.transport ≠ some t →
    (H'.registry.listener a = some l ↔ H.registry.listener a = some l)
  otherLists : ∀ u, u ≠ t → H'.registry.disconnects u = H.registry.disconnects u

/-- Nothing of the old session on `t` is left. -/
structure Clean (t : TransportId) (H H' : Hub) (calls : List Node) : Prop
    extends Swept t H H' calls where
  waiting : ∀ a s, H'.server.socket a = some s → ¬Waiting t s

variable {env : Sockets.Env} {authEnabled : Bool} {H H' : Hub} {w w' : Server} {a p : Addr}
  {s q : ASocket} {t : TransportId} {x : Packet} {n : Node} {calls : List Node}

section Synced

@[simp]
theorem filterMap_listener_cons (l : List Node) (a : Addr) :
    (Node.listener a :: l).filterMap socketAddr = l.filterMap socketAddr :=
  filterMap_cons_none rfl

@[simp]
theorem filterMap_socket_cons (l : List Node) (p : Addr) :
    (Node.socket p :: l).filterMap socketAddr = p :: l.filterMap socketAddr :=
  filterMap_cons_some rfl

theorem filterMap_erase_listener (l : List Node) (a : Addr) :
    (l.erase (.listener a)).filterMap socketAddr = l.filterMap socketAddr := by
  induction l with
  | nil => rfl
  | cons n l ih =>
    by_cases hn : n = .listener a
    · subst hn
      simp
    · rw [erase_cons_tail (by simpa using hn), filterMap_cons, filterMap_cons, ih]

theorem filterMap_erase_socket (l : List Node) (p : Addr) :
    (l.erase (.socket p)).filterMap socketAddr = (l.filterMap socketAddr).erase p := by
  induction l with
  | nil => rfl
  | cons n l ih =>
    cases n with
    | listener a =>
      rw [erase_cons_tail (by simp)]
      simpa using ih
    | socket b =>
      by_cases hb : b = p
      · subst hb
        simp
      · rw [erase_cons_tail (by simpa using hb), filterMap_socket_cons,
          filterMap_socket_cons, erase_cons_tail (by simpa using hb), ih]

theorem disconnects_closedWith (w : Server) (a p : Addr) (s : ASocket)
    (hclose : q.close = .remoteSocketClose) (ht : q.transport = some t) :
    (w.closedWith a s p q).disconnects =
      update w.disconnects t ((w.disconnects t).erase p) := by
  have hfinished : ∀ (v : Server) (y : ASocket), (v.finished a y).disconnects = v.disconnects := by
    intro v y
    unfold Server.finished
    split <;> rfl
  rw [Server.closedWith, hfinished]
  simp [Server.store, Server.dispose, hclose, ht]

theorem mem_disconnects (h : Graph w) :
    p ∈ w.disconnects t ↔ ∃ q, w.socket p = some q ∧ q.IsRemote ∧ q.transport = some t := by
  cases hs : w.socket p with
  | none =>
    have hnot : p ∉ w.disconnects t := ((h.good p).gone hs).disconnect t
    simp [hnot]
  | some q =>
    have hfit : p ∈ w.disconnects t ↔ q.IsRemote ∧ q.transport = some t :=
      (h.at_ hs).fit.disconnect t
    simp [hfit]

end Synced

section Callbacks

structure Hub.Sound (H : Hub) : Prop where
  graph : Graph H.server
  ok : H.registry.Ok
  synced : H.Synced

theorem Hub.Reachable.sound (h : H.Reachable authEnabled) : H.Sound := by
  obtain ⟨device, name, hrun⟩ := h.registry
  exact ⟨Graph.run h.server, Registry.run_ok hrun, h.synced⟩

theorem remoteSocketDisconnect_spec (h : Graph w) (hp : p ∈ w.disconnects t) :
    ∃ w', w.remoteSocketDisconnect p = .ok w' ∧ Graph w' ∧
      w'.disconnects = update w.disconnects t ((w.disconnects t).erase p) := by
  obtain ⟨q, hq, hrem, ht⟩ := (mem_disconnects h).mp hp
  obtain ⟨a, ha⟩ := ne_none_iff_exists'.mp (h.otherSane hq hrem.not_local).peer
  obtain ⟨-, s, hs, -⟩ := h.peer_spec hq ha
  have hloc := h.isLocal_of_peer hq ha hs hrem.not_local
  have hclose := ((h.otherSane hq hrem.not_local).remote hrem).2.2.1
  exact ⟨_, remoteSocketDisconnect_eq h hq hrem ha hs,
    h.closedWith hs hloc (h.linked hq ha hs).peer hq hrem.not_local,
    disconnects_closedWith w a p s hclose ht⟩

theorem leaves_disconnects (R : Registry) (t : TransportId) :
    Walk.Leaves (fun H : Hub => H.registry.disconnects t) (disconnectCall t)
      (fun H => H.Sound ∧ R.Kept t H.registry) := by
  rintro H n ⟨h, hkept⟩ hn
  obtain ⟨R', hcall, ⟨hok, hkept'⟩, hlist⟩ :=
    Registry.leaves_disconnects R t H.registry n ⟨h.ok, hkept⟩ hn
  -- only the list of `t` changes, in both halves
  have hother : ∀ u, u ≠ t → R'.disconnects u = H.registry.disconnects u := fun u hu =>
    (hkept'.lists u hu).trans (hkept.lists u hu).symm
  cases n with
  | listener a =>
    refine ⟨⟨H.server, R'⟩, by rw [disconnectCall, hcall]; rfl, ⟨⟨h.graph, hok, ?_⟩, hkept'⟩, hlist⟩
    intro u
    by_cases hu : u = t
    · subst hu
      exact (congrArg _ hlist).trans ((filterMap_erase_listener _ a).trans (h.synced u))
    · exact (congrArg _ (hother u hu)).trans (h.synced u)
  | socket p =>
    have hmem : p ∈ H.server.disconnects t := by
      rw [← h.synced t]
      exact mem_filterMap.mpr ⟨_, hn, rfl⟩
    obtain ⟨w', hw', hg, hdis⟩ := remoteSocketDisconnect_spec h.graph hmem
    have hboth : disconnectCall t (.socket p) H = some ⟨w', R'⟩ := by
      simp only [disconnectCall, hcall, bind_eq_bind, bind_some, hw']
      rfl
    refine ⟨⟨w', R'⟩, hboth, ⟨⟨hg, hok, ?_⟩, hkept'⟩, hlist⟩
    intro u
    by_cases hu : u = t
    · subst hu
      have hnodes := (congrArg _ hlist).trans (filterMap_erase_socket _ p)
      rw [h.synced u] at hnodes
      simpa [hdis] using hnodes
    · have hnodes := (congrArg (filterMap socketAddr) (hother u hu)).trans (h.synced u)
      simpa [hdis, hu] using hnodes

theorem runDisconnects_of_foldlM {nodes : List Node}
    (h : nodes.foldlM (fun H n => disconnectCall t n H) H = some H') :
    runDisconnects (nodes.filterMap socketAddr) H.server = .ok H'.server := by
  induction nodes generalizing H with
  | nil =>
    cases h
    rfl
  | cons n nodes ih =>
    rw [foldlM_cons] at h
    obtain ⟨H₁, hcall, hrest⟩ := bind_eq_some_iff.mp h
    obtain ⟨R, -, hcall⟩ := bind_eq_some_iff.mp hcall
    cases n with
    | listener a =>
      cases hcall
      rw [filterMap_listener_cons]
      exact ih (H := ⟨H.server, R⟩) hrest
    | socket p =>
      obtain ⟨w, hw, rfl⟩ := map_eq_some_iff.mp hcall
      cases hdis : H.server.remoteSocketDisconnect p with
      | error f =>
        rw [hdis] at hw
        cases hw
      | ok w₁ =>
        rw [hdis] at hw
        cases hw
        rw [filterMap_socket_cons, runDisconnects, hdis]
        exact ih hrest

/-- A transport that goes offline: every callback is called once, and none is left. -/
theorem goOffline_spec (h : H.Sound) (t : TransportId) :
    ∃ H', goOffline t H = some (H', H.registry.disconnects t) ∧ H'.Sound ∧
      H.registry.Kept t H'.registry ∧ H'.registry.disconnects t = [] ∧
      Sockets.handleOffline t (Sockets.setConnectionState t .offline H.server) = .ok H'.server := by
  let w := { Sockets.setConnectionState t .offline H.server with
    online := update H.server.online t false }
  have hsound : (⟨w, H.registry⟩ : Hub).Sound :=
    ⟨h.graph.congr rfl rfl rfl rfl rfl rfl rfl rfl, h.ok, h.synced⟩
  obtain ⟨H', hwalk, ⟨hs, hkept⟩, hempty, hfold⟩ :=
    Walk.walkAll_leaves (leaves_disconnects H.registry t) ⟨hsound, Registry.Kept.refl t _⟩
      (h.ok.single t)
  refine ⟨H', hwalk, hs, hkept, hempty, ?_⟩
  have hrun := runDisconnects_of_foldlM hfold
  rw [h.synced t] at hrun
  exact hrun

end Callbacks

section Survivors

def NoRemote (t : TransportId) (w : Server) : Prop :=
  ∀ p q, w.socket p = some q → q.IsRemote → q.transport ≠ some t

def SameWaiting (t : TransportId) (w w' : Server) : Prop :=
  ∀ a s, Waiting t s → (w'.socket a = some s ↔ w.socket a = some s)

theorem noRemote_iff (h : Graph w) : NoRemote t w ↔ w.disconnects t = [] := by
  rw [eq_nil_iff_forall_not_mem]
  constructor
  · intro hno p hp
    obtain ⟨q, hq, hrem, ht⟩ := (mem_disconnects h).mp hp
    exact hno p q hq hrem ht
  · intro hempty p q hq hrem ht
    exact hempty p ((mem_disconnects h).mpr ⟨q, hq, hrem, ht⟩)

theorem Hub.Sound.noRemote (h : H.Sound) (hempty : H.registry.disconnects t = []) :
    NoRemote t H.server := by
  rw [noRemote_iff h.graph, ← h.synced t, hempty]
  rfl

theorem closedWith_left {b : Addr} {y : ASocket} (hne : p ≠ a) (hloc : s.IsLocal)
    (hy : (w.closedWith a s p q).socket b = some y) :
    b ≠ a ∧ b ≠ p ∧ w.socket b = some y ∨ b = a ∧ s.Remnant y := by
  by_cases hba : b = a
  · subst hba
    exact .inr ⟨rfl, closing_of_finished hy rfl hloc rfl rfl⟩
  by_cases hbp : b = p
  · subst hbp
    rw [Server.closedWith, Server.socket_finished_ne _ _ hne, Server.socket_store_ne _ _ hne,
      socket_dispose] at hy
    cases hy
  · rw [closedWith_socket_ne w s q hba hbp] at hy
    exact .inl ⟨hba, hbp, hy⟩

theorem enqueued_left {b : Addr} {y : ASocket} {bytes : List Byte} {r : ℤ} (h : Graph w)
    (ha : w.socket a = some s) (hq : w.socket p = some q) (hp : q.peer = some a)
    (he : Sockets.Enqueued p q bytes w w' r) (hy : w'.socket b = some y) :
    b ≠ p ∧ b ≠ a ∧ w.socket b = some y ∨ b = p ∧ y.peer = some a ∧ y.enqueue = q.enqueue ∨
      b = a ∧ (y = s ∨ y.closing = true ∧ y.IsLocal) := by
  by_cases hbp : b = p
  · subst hbp
    rcases he.self h hq with ⟨z, hz, -, hpeer, henq, -⟩ | hnone
    · cases hy.symm.trans hz
      exact .inr (.inl ⟨rfl, hpeer.trans hp, henq⟩)
    · exact absurd (hy.symm.trans hnone) nofun
  by_cases hba : b = a
  · subst hba
    refine .inr (.inr ⟨rfl, ?_⟩)
    rcases he.peer h hq hp ha with hsame | ⟨-, -, hclosed⟩
    · exact .inl (some.inj (hy.symm.trans hsame))
    · exact .inr ⟨(hclosed y hy).1, (hclosed y hy).2.1⟩
  · have hframe := he.frame hq hbp fun hpb => hba (some.inj (hpb.symm.trans hp))
    exact .inl ⟨hbp, hba, hframe.symm.trans hy⟩

theorem setupRule_noRemote (t : TransportId) : SetupRule t (NoRemote t) where
  transport h _ _ := h
  send h _ _ := h
  disconnect := by
    intro w a p s q hg h hq hrem _ hp ha b y hy hyr
    have hloc := hg.isLocal_of_peer hq hp ha hrem.not_local
    have hne : p ≠ a := (hg.peer_spec hq hp).1.symm
    rcases closedWith_left hne hloc hy with ⟨-, -, hold⟩ | ⟨-, hleft⟩
    · exact h b y hold hyr
    · exact absurd (hleft.enqueue.trans hleft.isLocal) hyr.not_local
  tracker := by
    intro w w' a p s q bytes r hg h ha htr hq hloc hp he b y hy hyr
    rcases enqueued_left hg ha hq hp he hy with ⟨-, -, hold⟩ | ⟨-, -, henq⟩ | ⟨-, rfl | ⟨-, hl⟩⟩
    · exact h b y hold hyr
    · exact absurd (henq.trans hloc) hyr.not_local
    · exact absurd (htr.symm.trans hyr) nofun
    · exact absurd hl hyr.not_local

theorem setupRule_sameWaiting (w : Server) (t : TransportId) : SetupRule t (SameWaiting t w) where
  transport h _ _ := h
  send h _ _ := h
  disconnect := by
    -- the local socket had a peer before, and is closing or gone afterwards
    intro w₁ a p s q hg h hq hrem _ hp ha b y hwait
    rw [← h b y hwait]
    have hloc := hg.isLocal_of_peer hq hp ha hrem.not_local
    have hne : p ≠ a := (hg.peer_spec hq hp).1.symm
    constructor
    · intro hy
      rcases closedWith_left hne hloc hy with ⟨-, -, hold⟩ | ⟨-, hleft⟩
      · exact hold
      · exact absurd (hleft.closing.symm.trans hwait.2.2.1) nofun
    · intro hy
      have hba : b ≠ a := by
        rintro rfl
        cases ha.symm.trans hy
        exact absurd ((hg.linked hq hp ha).peer.symm.trans hwait.2.1) nofun
      have hbp : b ≠ p := by
        rintro rfl
        cases hq.symm.trans hy
        exact hrem.not_local hwait.1
      exact (closedWith_socket_ne w₁ s q hba hbp).trans hy
  tracker := by
    intro w₁ w' a p s q bytes r hg h ha htr hq hloc hp he b y hwait
    rw [← h b y hwait]
    constructor
    · intro hy
      rcases enqueued_left hg ha hq hp he hy with ⟨-, -, hold⟩ | ⟨-, hpeer, -⟩ | ⟨-, rfl | ⟨hc, -⟩⟩
      · exact hold
      · exact absurd (hpeer.symm.trans hwait.2.1) nofun
      · exact absurd (htr.symm.trans hwait.1) nofun
      · exact absurd (hc.symm.trans hwait.2.2.1) nofun
    · intro hy
      have hbp : b ≠ p := by
        rintro rfl
        cases hq.symm.trans hy
        exact absurd (hp.symm.trans hwait.2.1) nofun
      have hba : q.peer ≠ some b := by
        rw [hp]
        rintro ⟨⟩
        cases ha.symm.trans hy
        exact absurd (htr.symm.trans hwait.1) nofun
      exact (he.frame hq hbp hba).trans hy

end Survivors

section Sessions

def StartsSession (H : Hub) (x : Packet) (t : TransportId) : Prop :=
  x.command = .aCnxn ∧ H.server.connectionState t ≠ .offline ∨ x.command = .aSync ∧ x.arg0 = 0

theorem keeps_of_handlePacket {R : Server → Prop} (hR : SetupRule t R) (h : Keeps R w)
    (hx : x.command = .aCnxn ∨ x.command = .aSync)
    (heq : Sockets.handlePacket true authEnabled env x t w = .ok w') : Keeps R w' := by
  have hspec : Succeeds (Keeps R) (Sockets.handlePacket true authEnabled env x t w) := by
    unfold Sockets.handlePacket
    rcases hx with hx | hx
    · simp only [hx]
      exact Sockets.handleCnxn_rule hR h
    · simp only [hx]
      exact Sockets.handleSync_rule hR h
  rw [heq] at hspec
  exact hspec

structure Ended (t : TransportId) (H H' : Hub) : Prop where
  graph : Graph H'.server
  noRemote : NoRemote t H'.server
  ok : H'.registry.Ok
  kept : H.registry.Kept t H'.registry
  empty : H'.registry.disconnects t = []

theorem handleSync_spec (h : H.Sound) (hx : x.command = .aSync) (h0 : x.arg0 = 0) :
    ∃ H', handlePacket env x t H = some (H', H.registry.disconnects t) ∧
      Sockets.handlePacket true authEnabled env x t H.server = .ok H'.server ∧ Ended t H H' := by
  obtain ⟨H₁, hoff, hs, hkept, hempty, hserver⟩ := goOffline_spec h t
  have hno := hs.noRemote hempty
  refine ⟨⟨H₁.server.sendPacket x t, H₁.registry⟩, ?_, ?_, hs.graph.sendPacket x t, hno, hs.ok,
    hkept, hempty⟩
  · simp [handlePacket, hx, handleSync, h0, hoff]
  · simp only [Sockets.handlePacket, hx, Sockets.handleSync, h0, ne_eq, not_true_eq_false,
      if_false, hserver]
    rfl

theorem handleCnxn_spec (h : H.Sound) (hx : x.command = .aCnxn)
    (hstate : H.server.connectionState t ≠ .offline) :
    ∃ H', handlePacket env x t H = some (H', H.registry.disconnects t) ∧
      Sockets.handlePacket true authEnabled env x t H.server = .ok H'.server ∧ Ended t H H' := by
  obtain ⟨H₁, hoff, hs, hkept, hempty, hserver⟩ := goOffline_spec h t
  have hno := hs.noRemote hempty
  have hbanner : Succeeds (Keeps (NoRemote t)) (Sockets.parseBanner env x.data t H₁.server) :=
    Sockets.parseBanner_rule (setupRule_noRemote t) ⟨hs.graph, hno⟩ x.data
  cases hw : Sockets.parseBanner env x.data t H₁.server with
  | error f =>
    rw [hw] at hbanner
    exact hbanner.elim
  | ok w =>
    rw [hw] at hbanner
    have hon := Sockets.handleOnline_rule (setupRule_noRemote t) hbanner
    refine ⟨⟨Sockets.handleOnline t w, H₁.registry⟩, ?_, ?_, hon.1, hon.2, hs.ok, hkept, hempty⟩
    · simp [handlePacket, hx, handleCnxn, hstate, hoff, hw, Except.toOption]
    · simp only [Sockets.handlePacket, hx, Sockets.handleCnxn, hstate, ne_eq, not_false_eq_true,
        if_true, hserver]
      change (Sockets.parseBanner env x.data t H₁.server >>= _) = _
      rw [hw]
      rfl

theorem startsSession_spec (env : Sockets.Env) (authEnabled : Bool) (h : H.Sound)
    (hx : StartsSession H x t) :
    ∃ H', handlePacket env x t H = some (H', H.registry.disconnects t) ∧
      Sockets.handlePacket true authEnabled env x t H.server = .ok H'.server ∧ Ended t H H' := by
  rcases hx with ⟨hx, hstate⟩ | ⟨hx, h0⟩
  · exact handleCnxn_spec h hx hstate
  · exact handleSync_spec h hx h0

theorem remote_of_spares (h : Graph w) (hsp : Spares t w w') (hq : w.socket p = some q)
    (hrem : q.IsRemote) (ht : q.transport ≠ some t) : w'.socket p = some q := by
  obtain ⟨a, ha⟩ := ne_none_iff_exists'.mp (h.otherSane hq hrem.not_local).peer
  obtain ⟨-, s, hs, -⟩ := h.peer_spec hq ha
  have hloc := h.isLocal_of_peer hq ha hs hrem.not_local
  have hpeer := (h.linked hq ha hs).peer
  exact ((hsp a s hs ⟨hloc, .inl ⟨p, q, hpeer, hq, hrem, ht⟩⟩).2.2 p hpeer).trans hq

/-- A new session finds nothing of the old one exactly when no local socket was waiting for an
answer on the transport: the callbacks do not know about such a socket. -/
theorem new_session_iff (authEnabled : Bool) (H : Hub) (hH : H.Reachable authEnabled) (x : Packet)
    (t : TransportId) (hx : StartsSession H x t) (reads : List ReadResult)
    (writes : List WriteResult) (env : Sockets.Env) :
    ∃ H' calls,
      handlePacket env x t ⟨{ H.server with reads := reads, writes := writes }, H.registry⟩ =
        some (H', calls) ∧
      Sockets.step true authEnabled H.server ⟨.packet x t, reads, writes, env⟩ =
        some { H'.server with reads := [], writes := [] } ∧
      Swept t H H' calls ∧
      (Clean t H H' calls ↔ ∀ a s, H.server.socket a = some s → ¬Waiting t s) := by
  have h := hH.sound
  let w : Server := { H.server with reads := reads, writes := writes }
  have hsound : (⟨w, H.registry⟩ : Hub).Sound :=
    ⟨h.graph.congr rfl rfl rfl rfl rfl rfl rfl rfl, h.ok, h.synced⟩
  obtain ⟨H', hhub, hserver, hend⟩ :=
    startsSession_spec env authEnabled hsound hx
  have hcmd : x.command = .aCnxn ∨ x.command = .aSync := hx.imp And.left And.left
  have hspares : Spares t w H'.server :=
    (keeps_of_handlePacket (Sockets.setupRule_spares w t) ⟨hsound.graph, .of_eq rfl rfl⟩ hcmd
      hserver).2
  have hsame : SameWaiting t w H'.server :=
    (keeps_of_handlePacket (setupRule_sameWaiting w t) ⟨hsound.graph, fun _ _ _ => Iff.rfl⟩ hcmd
      hserver).2
  have hswept : Swept t H H' (H.registry.disconnects t) := {
    lists := ⟨hend.empty, (noRemote_iff hend.graph).mp hend.noRemote⟩
    remote := hend.noRemote
    listeners := fun a l ha => hend.ok.not_on hend.empty ha
    connected := fun a s p q _ _ _ hq hrem => hend.noRemote p q hq hrem
    once := ⟨rfl, h.ok.single t⟩
    otherSockets := hspares
    otherRemotes := fun p q hq hrem ht => remote_of_spares hsound.graph hspares hq hrem ht
    otherListeners := hend.kept.others
    otherLists := hend.kept.lists }
  refine ⟨H', _, hhub, ?_, hswept, ?_, ?_⟩
  · exact Sockets.step_of_run rfl hserver
  · intro hclean a s ha hwait
    exact hclean.waiting a s ((hsame a s hwait).mpr ha) hwait
  · intro hnone
    exact ⟨hswept, fun a s ha hwait => hnone a s ((hsame a s hwait).mp ha) hwait⟩

end Sessions

section Clients

/-- A device connects; a client of the smart socket chooses it and asks for a service. -/
def clientRun : List Sockets.Input :=
  [input (.packet ⟨.aCnxn, 0x01000000, 4096, text "device::"⟩ 0) [] [], input .acceptSmart [] [],
    input (.poll [(0, .fdeRead)]) [] [],
    input .dispatch [.data (text "0012host:transport-any")] [.count 3],
    input (.poll [(0, .fdeRead)]) [] [],
    input .dispatch [.data (text "0005tcp:7")] []]

def reconnect : Packet := ⟨.aCnxn, 0x01000000, 4096, text "device::"⟩

theorem registry_with (nodes : List Node) (hnodup : nodes.Nodup)
    (hsockets : nodes.filter Node.isListener = []) :
    ∃ R, Run Listeners.step (fun _ _ => True)
        (Registry.init (fun _ => Registry.phone) (text "tcp:5037")) R ∧
      R.disconnects 0 = nodes ∧ ∀ t, t ≠ 0 → R.disconnects t = [] := by
  let R₀ := Registry.init (fun _ => Registry.phone) (text "tcp:5037")
  let R₁ : Registry := { R₀ with
    transportList := [0]
    disconnects := update R₀.disconnects 0 []
    device := update R₀.device 0 Registry.phone
    live := update R₀.live 0 true }
  have hregister : Listeners.step R₀ (.register 0 Registry.phone) = some R₁ := rfl
  have hnodes : Listeners.step R₁ (.sockets 0 nodes) =
      some { R₁ with disconnects := update R₁.disconnects 0 nodes } := by
    refine if_pos ⟨rfl, hnodup, ?_⟩
    rw [hsockets]
    rfl
  refine ⟨_, (Run.snoc .refl trivial hregister).snoc trivial hnodes,
    update_self 0 nodes R₁.disconnects, ?_⟩
  intro t ht
  exact (update_of_ne ht _ _).trans (update_of_ne ht _ _)

theorem synced_of_zero {R : Registry} (h : Graph w)
    (hall : ∀ p < w.nextAddr, ∀ q ∈ w.socket p, q.IsRemote → q.transport = some 0)
    (h0 : (R.disconnects 0).filterMap socketAddr = w.disconnects 0)
    (hother : ∀ t, t ≠ 0 → R.disconnects t = []) : (⟨w, R⟩ : Hub).Synced := by
  intro t
  by_cases ht : t = 0
  · subst ht
    exact h0
  · have hnil : w.disconnects t = [] := by
      refine (noRemote_iff h).mp fun p q hq hrem hqt => ?_
      have hzero := hall p (h.lt_nextAddr hq) q hq hrem
      exact ht (some.inj (hqt.symm.trans hzero))
    change (R.disconnects t).filterMap socketAddr = w.disconnects t
    rw [hother t ht, hnil]
    rfl

theorem reachable_of_run {is : List Sockets.Input} (nodes : List Node)
    (hw : exec (step true false) Server.init is = some w)
    (hall : ∀ p < w.nextAddr, ∀ q ∈ w.socket p, q.IsRemote → q.transport = some 0)
    (hnodup : nodes.Nodup) (hsockets : nodes.filter Node.isListener = [])
    (h0 : nodes.filterMap socketAddr = w.disconnects 0) :
    ∃ R : Registry, (⟨w, R⟩ : Hub).Reachable false ∧ R.disconnects 0 = nodes := by
  have hrun : Run (step true false) (fun _ _ => True) Server.init w :=
    Runs.run_of_exec (fun _ _ _ => trivial) hw
  obtain ⟨R, hR, hnodes, hother⟩ := registry_with nodes hnodup hsockets
  exact ⟨R, ⟨hrun, ⟨_, _, hR⟩, synced_of_zero (Graph.run hrun) hall (hnodes ▸ h0) hother⟩, hnodes⟩

/-- The client has no answer when the device connects again, and goes on waiting for one. -/
theorem new_session_waiting : ∃ H H' calls,
    exec (Sockets.step true false) Server.init clientRun = some H.server ∧ H.Reachable false ∧
      StartsSession H reconnect 0 ∧
      handlePacket Sockets.plainEnv reconnect 0 H = some (H', calls) ∧
      (∃ s, H'.server.socket 0 = some s ∧ Waiting 0 s) ∧ ¬Clean 0 H H' calls := by
  have hexec : (exec (Sockets.step true false) Server.init clientRun).map (fun w =>
      decide ((∀ p < w.nextAddr, ∀ q ∈ w.socket p, q.IsRemote → q.transport = some 0) ∧
        w.connectionState 0 ≠ .offline ∧ w.disconnects 0 = [] ∧
        ∃ s ∈ w.socket 0, s.IsLocal ∧ s.peer = none ∧ s.closing = false ∧
          s.transport = some 0)) = some true := by
    decide +kernel
  obtain ⟨w, hw, heq⟩ := map_eq_some_iff.mp hexec
  obtain ⟨hall, hstate, hnil, s, hs, hwait⟩ := of_decide_eq_true heq
  obtain ⟨R, hR, -⟩ := reachable_of_run [] hw hall nodup_nil rfl hnil.symm
  have hx : StartsSession ⟨w, R⟩ reconnect 0 := .inl ⟨rfl, hstate⟩
  obtain ⟨H', hhub, hserver, -⟩ := startsSession_spec Sockets.plainEnv false hR.sound hx
  have hsame : SameWaiting 0 w H'.server :=
    (keeps_of_handlePacket (setupRule_sameWaiting w 0)
      ⟨hR.sound.graph, fun _ _ _ => Iff.rfl⟩ (.inl rfl) hserver).2
  have hs' : H'.server.socket 0 = some s := (hsame 0 s hwait).mpr hs
  exact ⟨_, H', _, hw, hR, hx, hhub, ⟨s, hs', hwait⟩, fun hclean => hclean.waiting 0 s hs' hwait⟩

/-- The client is connected when the device connects again, and is closed. -/
theorem new_session_connected : ∃ H H' calls,
    exec (step true false) Server.init
        (clientRun ++ [input (.packet ⟨.aOkay, 7, 1, []⟩ 0) [] [.count 3]]) =
      some H.server ∧
      H.registry.disconnects 0 = [.socket 2] ∧
      handlePacket plainEnv reconnect 0 H = some (H', calls) ∧ Clean 0 H H' calls := by
  have hexec : (exec (step true false) Server.init
      (clientRun ++ [input (.packet ⟨.aOkay, 7, 1, []⟩ 0) [] [.count 3]])).map (fun w =>
      decide ((∀ p < w.nextAddr, ∀ q ∈ w.socket p, q.IsRemote → q.transport = some 0) ∧
        w.connectionState 0 ≠ .offline ∧ w.disconnects 0 = [2] ∧ w.reads = [] ∧ w.writes = [] ∧
        ∀ p < w.nextAddr, ∀ s ∈ w.socket p, s.IsLocal → s.peer ≠ none)) = some true := by
    decide +kernel
  obtain ⟨w, hw, heq⟩ := map_eq_some_iff.mp hexec
  obtain ⟨hall, hstate, hnil, hreads, hwrites, hpeers⟩ := of_decide_eq_true heq
  obtain ⟨R, hR, hnodes⟩ :=
    reachable_of_run [.socket 2] hw hall (nodup_singleton _) rfl hnil.symm
  obtain ⟨H', calls, hhub, -, -, hiff⟩ :=
    new_session_iff false ⟨w, R⟩ hR reconnect 0 (.inl ⟨rfl, hstate⟩) [] [] plainEnv
  have hsame : ({ w with reads := [], writes := [] } : Server) = w := by
    rw [← hreads, ← hwrites]
  simp only [hsame] at hhub
  refine ⟨⟨w, R⟩, H', calls, hw, hnodes, hhub, hiff.mpr ?_⟩
  intro a s ha hwait
  exact hpeers a (hR.sound.graph.lt_nextAddr ha) s ha hwait.1 hwait.2.1

end Clients

end PaxAdb.Sessions
