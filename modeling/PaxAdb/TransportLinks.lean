import PaxAdb.MoveFrames
import PaxAdb.SocketInvariant

/-!
# The transports as the packets see them

Of the state of the server `Links` keeps what belongs to the transports: whether they are online,
their connection state and the packets handed to them. On it the packets of the connection set-up
act as a state machine of their own (`Links.receive`), and everything else the server does adds
packets of connections.
-/

namespace PaxAdb.Sockets

open ASocket Server

@[ext] structure Links where
  online : TransportId → Bool
  connectionState : TransportId → ConnectionState
  outbox : TransportId → List Packet

def Server.links (w : Server) : Links := ⟨w.online, w.connectionState, w.outbox⟩

namespace Links

def send (x : Packet) (t : TransportId) (l : Links) : Links :=
  { l with outbox := Function.update l.outbox t (l.outbox t ++ [x]) }

def setOnline (t : TransportId) (b : Bool) (l : Links) : Links :=
  { l with online := Function.update l.online t b }

def setState (t : TransportId) (c : ConnectionState) (l : Links) : Links :=
  { l with connectionState := Function.update l.connectionState t c }

def goOffline (t : TransportId) (l : Links) : Links := (l.setState t .offline).setOnline t false

section Receive

variable (host authEnabled : Bool) (env : Env)

def connectPacket : Packet :=
  ⟨.aCnxn, A_VERSION, MAX_PAYLOAD, if host then text "host::" ++ [0] else env.banner⟩

def authRequest (t : TransportId) (l : Links) : Links :=
  match env.authToken with
  | some token => l.send ⟨.aAuth, ADB_AUTH_TOKEN, 0, token⟩ t
  | none => l

def authData (arg0 : ℕ) (data : Option (List Byte)) (t : TransportId) (l : Links) : Links :=
  match data with
  | some data => l.send ⟨.aAuth, arg0, 0, data⟩ t
  | none => l

def sync (x : Packet) (t : TransportId) (l : Links) : Links :=
  if x.arg0 ≠ 0 then
    if host then (l.send x t).send (connectPacket host env) t else l.send x t
  else (l.goOffline t).send x t

def cnxn (x : Packet) (t : TransportId) (l : Links) : Links :=
  let l := if l.connectionState t ≠ .offline then l.goOffline t else l
  let l := l.setState t (bannerState x.data)
  if host || !authEnabled then
    let l := l.setOnline t true
    if host then l else l.send (connectPacket host env) t
  else l.authRequest env t

def auth (x : Packet) (t : TransportId) (l : Links) : Links :=
  if x.arg0 = ADB_AUTH_TOKEN then
    let l := l.setState t .unauthorized
    if env.authNextKey then l.authData ADB_AUTH_SIGNATURE env.authResponse t
    else l.authData ADB_AUTH_RSAPUBLICKEY env.authPublicKey t
  else if x.arg0 = ADB_AUTH_SIGNATURE then
    if env.authVerify then (l.setOnline t true).send (connectPacket host env) t
    else l.authRequest env t
  else l

def hdsk (x : Packet) (t : TransportId) (l : Links) : Links :=
  if x.arg0 = PAX_HANDSHAKE_REQ ∧ host then
    l.send ⟨.aHdsk, PAX_HANDSHAKE_RES, 0, text "paxadb"⟩ t
  else l

def receive (x : Packet) (t : TransportId) (l : Links) : Links :=
  match x.command with
  | .aSync => l.sync host env x t
  | .aCnxn => l.cnxn host authEnabled env x t
  | .aAuth => l.auth host env x t
  | .aHdsk => l.hdsk host x t
  | _ => l

end Receive

structure Emits (n : ℕ) (l l' : Links) : Prop where
  online : l'.online = l.online
  connectionState : l'.connectionState = l.connectionState
  outbox : ∀ t, ∃ ps, l'.outbox t = l.outbox t ++ ps ∧ ps.length ≤ n ∧
    ∀ x ∈ ps, x.command.ofConnection = true

theorem Emits.refl (n : ℕ) (l : Links) : Emits n l l :=
  ⟨rfl, rfl, fun _ => ⟨[], (List.append_nil _).symm, Nat.zero_le n, nofun⟩⟩

theorem Emits.trans {m n : ℕ} {l₁ l₂ l₃ : Links} (h : Emits m l₁ l₂) (h' : Emits n l₂ l₃) :
    Emits (m + n) l₁ l₃ := by
  refine ⟨h'.online.trans h.online, h'.connectionState.trans h.connectionState, fun t => ?_⟩
  obtain ⟨ps, hps, hm, hc⟩ := h.outbox t
  obtain ⟨ps', hps', hn, hc'⟩ := h'.outbox t
  refine ⟨ps ++ ps', by rw [hps', hps, List.append_assoc], ?_, fun x hx => ?_⟩
  · rw [List.length_append]
    omega
  · exact (List.mem_append.mp hx).elim (hc x) (hc' x)

theorem emits_send (l : Links) {x : Packet} (hx : x.command.ofConnection = true)
    (t : TransportId) : Emits 1 l (l.send x t) := by
  refine ⟨rfl, rfl, fun t' => ?_⟩
  by_cases ht : t' = t
  · subst ht
    exact ⟨[x], Function.update_self .., le_rfl, by simpa using hx⟩
  · exact ⟨[], by simp [send, ht], Nat.zero_le 1, nofun⟩

end Links

section Frames

variable {w w' : Server} {a b p : Addr} {s q : ASocket}

section Unlinked

variable (w) (a p) (s q)

@[simp] theorem links_store : (w.store a s).links = w.links :=
  rfl

@[simp] theorem links_setTrace (x : Trace) : (w.setTrace a x).links = w.links := rfl

@[simp] theorem links_sendPacket (x : Packet) (t : TransportId) :
    (w.sendPacket x t).links = w.links.send x t := rfl

@[simp] theorem links_finished : (w.finished a s).links = w.links := by
  unfold finished
  split <;> rfl

@[simp] theorem links_dispose : (w.dispose p q).links = w.links := by
  unfold dispose
  split <;> rfl

@[simp] theorem links_fdeventSet (ev : Events) : (w.fdeventSet a s ev).links = w.links := by
  rw [fdeventSet_eq]
  rfl

@[simp] theorem links_closedWith : (w.closedWith a s p q).links = w.links := by
  rw [closedWith, links_finished, links_store, links_dispose]

@[simp] theorem links_closedBoth : (w.closedBoth a s p q).links = w.links := by
  rw [closedBoth, links_finished, links_store, links_finished, links_store]

@[simp] theorem links_resumed : (w.resumed a s).links = w.links := links_fdeventSet _ _ _ _

@[simp] theorem links_queued (bytes : List Byte) :
    (w.queued a s bytes).links = w.links := links_fdeventSet _ _ _ _

@[simp] theorem links_attempted (bytes : List Byte) : (w.attempted a bytes).links = w.links := rfl

end Unlinked

theorem links_statusOnly (h : StatusOnly a w w') : w'.links = w.links := by
  obtain ⟨l, ws, _, rfl⟩ := h
  rfl

theorem emits_shutdownFor (w : Server) (s q : ASocket) :
    Links.Emits 1 w.links (w.shutdownFor s q).links := by
  unfold shutdownFor
  split
  · exact w.links.emits_send rfl _
  · exact .refl 1 _

theorem Closes.emits (h : Closes a w w') : Links.Emits 1 w.links w'.links := by
  cases h with
  | alone _ _ _ hs =>
    rw [links_finished, links_statusOnly hs]
    exact .refl 1 _
  | other =>
    rw [links_closedWith]
    exact emits_shutdownFor w _ _
  | both =>
    rw [links_closedBoth]
    exact .refl 1 _

@[simp] theorem links_reportEvents (w : Server) (a : Addr) (ev : Events) (bad : Bool) :
    (reportEvents w a ev bad).links = w.links := by
  unfold reportEvents
  split <;> rfl

theorem Move.emits {X : Licence} (hm : Move X w w') : Links.Emits 1 w.links w'.links := by
  cases hm with
  | status h =>
    rw [links_statusOnly h]
    exact .refl 1 _
  | results | dequeue | wrote | failed | drain | smart | born | attachSmart | attachTracker
  | join | detach | notify => exact .refl 1 _
  | report =>
    rw [links_reportEvents]
    exact .refl 1 _
  | resume =>
    rw [links_resumed]
    exact .refl 1 _
  | pause =>
    rw [paused, links_fdeventSet]
    exact .refl 1 _
  | feed =>
    rw [fed, paused, links_fdeventSet]
    exact w.links.emits_send rfl _
  | queue =>
    rw [links_queued]
    exact .refl 1 _
  | drained =>
    rw [emptied, links_fdeventSet]
    exact .refl 1 _
  | @answer a p s q t _ _ _ _ _ _ _ _ writes =>
    have hlinks : (((w.wroteData a s.queue.flatten writes).emptied a s).acknowledge a).links =
        w.links := by
      rw [acknowledge, links_setTrace, emptied, links_fdeventSet]
      rfl
    rw [links_sendPacket, hlinks]
    exact w.links.emits_send rfl _
  | flush =>
    rw [links_finished]
    exact .refl 1 _
  | close _ _ _ _ h => exact h.emits
  | ask => exact w.links.emits_send rfl _

theorem Moves.emits {X : Licence} (hm : Moves X w w') : ∃ n, Links.Emits n w.links w'.links := by
  induction hm with
  | refl => exact ⟨0, .refl 0 _⟩
  | tail _ hm ih =>
    obtain ⟨n, hn⟩ := ih
    exact ⟨n + 1, hn.trans hm.emits⟩

theorem Enqueued.emits {bytes : List Byte} {r : ℤ} (he : Enqueued a s bytes w w' r) :
    Links.Emits 1 w.links w'.links := by
  cases he with
  | queued =>
    rw [links_queued]
    exact .refl 1 _
  | done =>
    rw [links_attempted]
    exact .refl 1 _
  | blocked =>
    rw [links_queued, links_attempted]
    exact .refl 1 _
  | failed _ _ hcl =>
    have hemits := hcl.emits
    rwa [markFailed, links_setTrace, links_attempted] at hemits

theorem Receive.emits {x : Packet} {t : TransportId} (hr : Receive x t w w') :
    Links.Emits 1 w.links w'.links := by
  cases hr with
  | ignored => exact .refl 1 _
  | accept =>
    rw [links_resumed]
    exact w.links.emits_send rfl _
  | refuse => exact w.links.emits_send rfl _
  | connect _ _ _ _ _ _ _ hst =>
    rw [links_statusOnly hst, links_resumed]
    exact .refl 1 _
  | resume =>
    rw [links_resumed]
    exact .refl 1 _
  | close _ _ _ _ _ _ hcl => exact hcl.emits
  | write _ _ _ _ _ _ henq =>
    have hemits := henq.emits
    rwa [Server.accept, links_setTrace] at hemits
  | writeAll =>
    rw [links_sendPacket, acknowledge, links_setTrace, links_attempted, Server.accept,
      links_setTrace]
    exact w.links.emits_send rfl _

theorem Closes.links_tracker (h : Graph w) (hcl : Closes p w w') (hq : w.socket p = some q)
    (hp : q.peer = some a) (ha : w.socket a = some s) (htr : s.IsTracker) :
    w'.links = w.links := by
  have hnl : ¬ s.IsLocal := fun hl => absurd (htr.symm.trans hl) (by simp)
  cases hcl with
  | alone hq' _ hp' _ =>
    cases hq.symm.trans hq'
    exact absurd (hp.symm.trans hp') (by simp)
  | other hq' _ hp' ha' _ =>
    cases hq.symm.trans hq'
    cases hp.symm.trans hp'
    cases ha.symm.trans ha'
    rw [links_closedWith, shutdownFor_eq ((h.otherSane ha hnl).tracker htr).2.1]
  | both hq' _ hp' ha' hloc =>
    cases hq.symm.trans hq'
    cases hp.symm.trans hp'
    cases ha.symm.trans ha'
    exact absurd hloc hnl

theorem links_trackerRule (l : Links) : TrackerRule (fun w' => w'.links = l) := by
  intro w w' a p s q bytes r h hw ha htr hq hloc hp henq
  rw [← hw]
  cases henq with
  | queued => rw [links_queued]
  | done => rw [links_attempted]
  | blocked => rw [links_queued, links_attempted]
  | failed _ _ hcl =>
    rw [Closes.links_tracker (h.writeFailed p bytes) hcl hq hp ha htr, markFailed,
      links_setTrace, links_attempted]

theorem links_disconnectRule (t : TransportId) (l : Links) :
    DisconnectRule t (fun w' => w'.links = l) := by
  intro w a p s q _ hw _ _ _ _ _
  rw [links_closedWith, hw]

end Frames

section Handlers

variable {host authEnabled : Bool} {env : Env} {w : Server} {l : Links} {x : Packet}
  {t : TransportId}

abbrev At (l : Links) (w' : Server) : Prop := Graph w' ∧ w'.links = l

section Setting

variable (h : At l w)

include h

theorem goOffline_links :
    Succeeds (At (l.goOffline t)) (handleOffline t (setConnectionState t .offline w)) := by
  obtain ⟨h, rfl⟩ := h
  exact runTransportDisconnects_rule (links_disconnectRule t _)
    (h.congr rfl rfl rfl rfl rfl rfl rfl rfl) rfl

theorem parseBanner_links (banner : List Byte) :
    Succeeds (At (l.setState t (bannerState banner))) (parseBanner env banner t w) := by
  obtain ⟨h, rfl⟩ := h
  have hg : Graph (setConnectionState t (bannerState banner) w) :=
    h.congr rfl rfl rfl rfl rfl rfl rfl rfl
  unfold parseBanner
  dsimp only
  split
  · exact ⟨hg, rfl⟩
  · exact updateTransports_rule (links_trackerRule _) hg rfl

theorem At.send (x : Packet) (t : TransportId) : At (l.send x t) (w.sendPacket x t) := by
  obtain ⟨h, rfl⟩ := h
  exact ⟨h.sendPacket x t, rfl⟩

theorem At.setState (c : ConnectionState) : At (l.setState t c) (setConnectionState t c w) := by
  obtain ⟨h, rfl⟩ := h
  exact ⟨h.congr rfl rfl rfl rfl rfl rfl rfl rfl, rfl⟩

theorem At.setOnline : At (l.setOnline t true) (handleOnline t w) := by
  obtain ⟨h, rfl⟩ := h
  exact ⟨h.congr rfl rfl rfl rfl rfl rfl rfl rfl, rfl⟩

theorem At.authRequest : At (l.authRequest env t) (sendAuthRequest env t w) := by
  unfold sendAuthRequest Links.authRequest
  cases env.authToken with
  | none => exact h
  | some token => exact h.send _ t

theorem At.authData (n : ℕ) (data : Option (List Byte)) :
    At (l.authData n data t) (sendAuthData n data t w) := by
  cases data with
  | none => exact h
  | some data => exact h.send _ t

theorem handleSync_links : Succeeds (At (l.sync host env x t)) (handleSync host env x t w) := by
  unfold handleSync Links.sync
  split
  · cases host with
    | false => exact h.send x t
    | true => exact (h.send x t).send _ t
  · exact EndsIn.bind (goOffline_links h) fun w' h' => h'.send x t

theorem handleCnxn_links :
    Succeeds (At (l.cnxn host authEnabled env x t)) (handleCnxn host authEnabled env x t w) := by
  have hrest : ∀ l₁ w₁, At l₁ w₁ → Succeeds (At (
      if (host || !authEnabled) = true then
        if host = true then (l₁.setState t (bannerState x.data)).setOnline t true
        else ((l₁.setState t (bannerState x.data)).setOnline t true).send
          (Links.connectPacket host env) t
      else (l₁.setState t (bannerState x.data)).authRequest env t))
      (parseBanner env x.data t w₁ >>= fun w₂ =>
        if (host || !authEnabled) = true then
          pure (if host = true then handleOnline t w₂
            else sendConnect host env t (handleOnline t w₂))
        else pure (sendAuthRequest env t w₂)) := by
    intro l₁ w₁ h₁
    refine EndsIn.bind (parseBanner_links h₁ x.data) fun w₂ h₂ => ?_
    split
    · cases host with
      | true => exact h₂.setOnline
      | false => exact h₂.setOnline.send _ t
    · exact h₂.authRequest
  have hstate : w.connectionState t = l.connectionState t := by
    rw [← h.2]
    rfl
  unfold handleCnxn Links.cnxn
  dsimp only
  rw [hstate]
  by_cases hoff : l.connectionState t ≠ .offline
  · rw [if_pos hoff, if_pos hoff]
    exact EndsIn.bind (goOffline_links h) (hrest _)
  · rw [if_neg hoff, if_neg hoff]
    exact hrest _ _ h

theorem handleAuth_links : At (l.auth host env x t) (handleAuth host env x t w) := by
  unfold handleAuth Links.auth
  dsimp only
  split
  · split
    · exact (h.setState .unauthorized).authData _ _
    · exact (h.setState .unauthorized).authData _ _
  split
  · split
    · exact h.setOnline.send _ t
    · exact h.authRequest
  · exact h

theorem handleHdsk_links : At (l.hdsk host x t) (handleHdsk host x t w) := by
  unfold handleHdsk Links.hdsk
  split
  · exact h.send _ t
  · exact h

end Setting

/-- `handle_packet` always returns. A packet of a connection has at most one packet in answer; any
other packet acts on the transports as `Links.receive`. -/
theorem handlePacket_links (host authEnabled : Bool) (env : Env) (h : Graph w) (x : Packet)
    (t : TransportId) :
    Succeeds (fun w' => Graph w' ∧
      if x.command.ofConnection then w.links.Emits 1 w'.links
      else w'.links = w.links.receive host authEnabled env x t)
      (handlePacket host authEnabled env x t w) := by
  have hat : At w.links w := ⟨h, rfl⟩
  have hconn : ∀ w', Receive x t w w' → Graph w' ∧ w.links.Emits 1 w'.links :=
    fun w' hr => ⟨hr.graph h, hr.emits⟩
  cases hx : x.command with
  | aSync =>
    simp only [handlePacket, hx, Command.ofConnection, Links.receive, Bool.false_eq_true, if_false]
    exact handleSync_links hat
  | aCnxn =>
    simp only [handlePacket, hx, Command.ofConnection, Links.receive, Bool.false_eq_true, if_false]
    exact handleCnxn_links hat
  | aAuth =>
    simp only [handlePacket, hx, Command.ofConnection, Links.receive, Bool.false_eq_true, if_false]
    exact handleAuth_links hat
  | aHdsk =>
    simp only [handlePacket, hx, Command.ofConnection, Links.receive, Bool.false_eq_true, if_false]
    exact handleHdsk_links hat
  | unknown n =>
    simp only [handlePacket, hx, Command.ofConnection, Links.receive, Bool.false_eq_true, if_false]
    exact hat
  | aOpen =>
    simp only [handlePacket, hx, Command.ofConnection, if_true]
    exact (handleOpen_spec w t hx).mono hconn
  | aOkay =>
    simp only [handlePacket, hx, Command.ofConnection, if_true]
    exact (handleOkay_spec h t hx).mono hconn
  | aClse =>
    simp only [handlePacket, hx, Command.ofConnection, if_true]
    exact (handleClse_spec h t hx).mono hconn
  | aWrte =>
    simp only [handlePacket, hx, Command.ofConnection, if_true]
    exact (handleWrte_spec h t hx).mono hconn

end Handlers

section Steps

variable {host authEnabled : Bool} {w w' : Server} {i : Input}

theorem closeAllLoop_emits (t : TransportId) (fuel : ℕ) (h : Graph w) :
    Ends (fun w' => ∃ n, w.links.Emits n w'.links) (closeAllLoop t fuel w) := by
  refine closeAllLoop_rule (fun _ hr _ _ hcl => ?_) t fuel h ⟨0, .refl 0 _⟩
  obtain ⟨n, hn⟩ := hr
  exact ⟨n + 1, hn.trans hcl.emits⟩

theorem run_emits (host authEnabled : Bool) (h : Graph w) (action : Action) (env : Env)
    (hen : action.enabled w = true)
    (hne : ∀ x t, action ≠ .packet x t) :
    Ends (fun w' => ∃ n, w.links.Emits n w'.links) (action.run host authEnabled env w) := by
  have heq : ∀ w' : Server, Graph w' ∧ w'.links = w.links → ∃ n, w.links.Emits n w'.links :=
    fun w' hw => ⟨0, hw.2 ▸ .refl 0 _⟩
  cases hhome : action.atHome with
  | true =>
    have hX : action = .dispatch → DispatchLicence ⟨True, True⟩ w :=
      fun _ _ _ _ _ _ _ _ => ⟨fun _ _ => trivial, fun _ _ _ => trivial⟩
    exact (action.home_spec host authEnabled h env hen hX hhome).mono fun _ hx => Moves.emits hx
  | false =>
    cases action with
    | packet x t => exact absurd rfl (hne x t)
    | closeAllSockets t => exact closeAllLoop_emits t _ h
    | transportDisconnects t =>
      have hspec := runTransportDisconnects_rule (links_disconnectRule t w.links) h rfl
      exact hspec.ends.mono heq
    | _ => cases hhome

/-- A step either handles a packet, or leaves the states of the transports alone. -/
theorem step_links (h : Graph w) (hs : step host authEnabled w i = some w') :
    (∃ x t w₁, i.action = .packet x t ∧
      handlePacket host authEnabled i.env x t (i.before w) = .ok w₁ ∧ w'.links = w₁.links) ∨
    (∀ x t, i.action ≠ .packet x t) ∧ ∃ n, w.links.Emits n w'.links := by
  obtain ⟨hen, w₁, hrun, rfl⟩ := run_of_step hs
  by_cases hp : ∃ x t, i.action = .packet x t
  · obtain ⟨x, t, hact⟩ := hp
    rw [hact] at hrun
    exact Or.inl ⟨x, t, w₁, hact, hrun, rfl⟩
  · have hne : ∀ x t, i.action ≠ .packet x t := fun x t hx => hp ⟨x, t, hx⟩
    have hspec := run_emits host authEnabled (i.graph_before h) i.action i.env hen hne
    rw [hrun] at hspec
    exact Or.inr ⟨hne, hspec⟩

end Steps

end PaxAdb.Sockets
