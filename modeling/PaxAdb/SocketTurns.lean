import PaxAdb.SocketIds
import PaxAdb.TransportLinks

/-!
# Local sockets come into use and go out of use

A local socket is in use until it is closed, and has the id it was given as long as it is in use.
Every step of the server is a sequence of turns: in a turn either one local socket is created, or no
socket comes into use and what is said on a transport names a socket that is in use. A socket that
is named in an `A_CLSE` goes out of use in the same turn.
-/

namespace PaxAdb.Sockets

open ASocket Server Runs Function

variable {X : Licence} {w w' w'' : Server} {a b p : Addr} {s s' q : ASocket} {x : Packet}
  {t link : TransportId} {i : ℕ}

def Server.InUse (w : Server) (a : Addr) (i : ℕ) : Prop :=
  ∃ s, w.socket a = some s ∧ s.IsLocal ∧ s.closing = false ∧ s.id = i

structure Server.Heirs (w w' : Server) : Prop where
  created : w'.created = w.created
  nextId : w'.localSocketNextId = w.localSocketNextId
  addr : w.nextAddr ≤ w'.nextAddr
  bornId : ∀ b, (w'.trace b).bornId = (w.trace b).bornId
  inUse : ∀ a i, w'.InUse a i → w.InUse a i

inductive Speech (w w' : Server) : List Packet → Prop where
  | silent : Speech w w' []
  | speaks {x : Packet} {a : Addr} (hx : x.command ≠ .aClse) (hu : w'.InUse a x.arg0) :
      Speech w w' [x]
  | closes {x : Packet} {a : Addr} (hu : w.InUse a x.arg0) (hgone : ∀ i, ¬ w'.InUse a i) :
      Speech w w' [x]
  | refuses {x : Packet} (hx : x.arg0 = 0) : Speech w w' [x]
  | setup {ps : List Packet} (hps : ∀ x ∈ ps, x.command.ofConnection = false) : Speech w w' ps

inductive Turn (link : TransportId) (w : Server) : Server → Prop where
  | born : Turn link w w.born
  | heirs {w' : Server} {ps : List Packet} (h : w.Heirs w')
      (hout : w'.outbox link = w.outbox link ++ ps) (hsp : Speech w w' ps) : Turn link w w'

abbrev Turns (link : TransportId) : Server → Server → Prop := Relation.ReflTransGen (Turn link)

theorem ASocket.Alike.inUse (h : s.Alike s') (hloc : s'.IsLocal) (hc : s'.closing = false) :
    s.IsLocal ∧ s.closing = false ∧ s.id = s'.id := by
  refine ⟨h.enqueue.symm.trans hloc, ?_⟩
  rcases h.same with ⟨hc', _, hid, _⟩ | ⟨hc', _⟩
  · exact ⟨hc'.symm.trans hc, hid.symm⟩
  · exact absurd (hc.symm.trans hc') (by simp)

theorem inUse_of_peer (h : Graph w) (ha : w.socket a = some s) (hloc : s.IsLocal)
    (hp : s.peer = some p) : w.InUse a s.id :=
  ⟨s, ha, hloc, (h.localSane ha hloc).closing_of_peer (by simp [hp]), rfl⟩

namespace Server.Heirs

theorem refl (w : Server) : w.Heirs w := ⟨rfl, rfl, le_rfl, fun _ => rfl, fun _ _ => id⟩

theorem trans (h : w.Heirs w') (h' : w'.Heirs w'') : w.Heirs w'' :=
  ⟨h'.created.trans h.created, h'.nextId.trans h.nextId, h.addr.trans h'.addr,
    fun b => (h'.bornId b).trans (h.bornId b), fun a i hu => h.inUse a i (h'.inUse a i hu)⟩

theorem of_kept (hk : w.Kept w')
    (hin : ∀ b s', w'.socket b = some s' → s'.IsLocal → s'.closing = false → w.InUse b s'.id) :
    w.Heirs w' := by
  refine ⟨hk.created, hk.nextId, hk.addr, hk.bornId, ?_⟩
  rintro b i ⟨s', hs', hloc, hc, rfl⟩
  exact hin b s' hs' hloc hc

theorem congr (hk : w.Kept w') (hs : w'.socket = w.socket) : w.Heirs w' :=
  of_kept hk fun _ s' hs' hloc hc => ⟨s', hs ▸ hs', hloc, hc, rfl⟩

theorem alike (hk : w.Kept w')
    (hout : ∀ b s', w'.socket b = some s' → ∃ s, w.socket b = some s ∧ s.Alike s') :
    w.Heirs w' := by
  refine of_kept hk fun b s' hs' hloc hc => ?_
  obtain ⟨s, hs, halike⟩ := hout b s' hs'
  exact ⟨s, hs, halike.inUse hloc hc⟩

theorem at_one {out : List Packet} (ho : w.OnlyAt link a out w') (ha : w.socket a = some s)
    (ha' : ∀ s', w'.socket a = some s' → s.Alike s') : w.Heirs w' := by
  refine alike ho.toKept fun b s' hs' => ?_
  by_cases hb : b = a
  · subst hb
    exact ⟨s, ha, ha' s' hs'⟩
  · exact ⟨s', ho.socket b hb ▸ hs', .refl s'⟩

theorem statusOnly (hs : StatusOnly a w w') : w.Heirs w' :=
  congr (OnlyAt.statusOnly hs : w.OnlyAt 0 _ _ _).toKept (socket_statusOnly hs)

theorem fdeventSet (ha : w.socket a = some s) (ev : Events) : w.Heirs (w.fdeventSet a s ev) :=
  at_one (.fdeventSet w a s ev : w.OnlyAt 0 _ _ _) ha
    (alike_of_some (fdeventSet_socket w a s ev) (.refit _ _ _))

theorem queued (ha : w.socket a = some s) (bytes : List Byte) : w.Heirs (w.queued a s bytes) :=
  at_one (.queued w a s bytes : w.OnlyAt 0 _ _ _) ha
    (alike_of_some (fdeventSet_socket _ _ _ _) (.refit _ _ _))

theorem attached (hk : w.Kept w') (ha : w.socket a = some s) (hq : ¬ q.IsLocal)
    (hsock : w'.socket = (w.attached a s q).socket) : w.Heirs w' := by
  refine of_kept hk fun b s' hs' hloc hc => ?_
  rw [hsock] at hs'
  by_cases hb : b = a
  · subst hb
    cases (socket_store _ _ _).symm.trans hs'
    exact ⟨s, ha, hloc, hc, rfl⟩
  have hs' : (w.store w.nextAddr q).socket b = some s' := (socket_store_ne _ _ hb).symm.trans hs'
  by_cases hn : b = w.nextAddr
  · subst hn
    cases (socket_store _ _ _).symm.trans hs'
    exact absurd hloc hq
  · exact ⟨s', (socket_store_ne _ _ hn).symm.trans hs', hloc, hc, rfl⟩

theorem closes (h : Graph w) (hcl : Closes a w w') : w.Heirs w' :=
  alike hcl.kept fun _ _ => hcl.alike h

theorem closedWith (w : Server) (a p : Addr) (s q : ASocket) (hloc : s.IsLocal) :
    w.Heirs (w.closedWith a s p q) := by
  refine of_kept (kept_closedWith w a p s q) fun b s' hs' hloc' hc => ?_
  by_cases hb : b = a
  · subst hb
    have hleft : s.Remnant s' := closing_of_finished hs' rfl hloc rfl rfl
    exact absurd (hc.symm.trans hleft.closing) (by simp)
  by_cases hp : b = p
  · subst hp
    rw [Server.closedWith, socket_finished_ne _ _ hb, socket_store_ne _ _ hb, socket_dispose] at hs'
    cases hs'
  · rw [closedWith_socket_ne w s q hb hp] at hs'
    exact ⟨s', hs', hloc', hc, rfl⟩

theorem joined (ha : w.socket a = some s) (hb : w.socket b = some q) :
    w.Heirs (w.joined a s b q) := by
  refine of_kept ⟨rfl, rfl, rfl, rfl, le_rfl, fun _ => rfl⟩ fun c s' hs' hloc hc => ?_
  by_cases hcb : c = b
  · subst hcb
    cases (socket_store _ _ _).symm.trans hs'
    exact ⟨q, hb, hloc, hc, rfl⟩
  have hs' : (w.store a { s with peer := some b }).socket c = some s' :=
    (socket_store_ne _ _ hcb).symm.trans hs'
  by_cases hca : c = a
  · subst hca
    cases (socket_store _ _ _).symm.trans hs'
    exact ⟨s, ha, hloc, hc, rfl⟩
  · exact ⟨s', (socket_store_ne _ _ hca).symm.trans hs', hloc, hc, rfl⟩

theorem detached (hb : w.socket b = some q) : w.Heirs (w.detached a b q) := by
  refine of_kept ⟨rfl, rfl, rfl, rfl, le_rfl, fun _ => rfl⟩ fun c s' hs' hloc hc => ?_
  by_cases hca : c = a
  · subst hca
    cases (update_self _ _ _).symm.trans hs'
  have hs' : (w.store b { q with peer := none }).socket c = some s' :=
    (update_of_ne hca _ _).symm.trans hs'
  by_cases hcb : c = b
  · subst hcb
    cases (socket_store _ _ _).symm.trans hs'
    exact ⟨q, hb, hloc, hc, rfl⟩
  · exact ⟨s', (socket_store_ne _ _ hcb).symm.trans hs', hloc, hc, rfl⟩

end Server.Heirs

namespace Turn

theorem quiet (h : w.Heirs w') (hl : w'.links = w.links) : Turn link w w' := by
  have hout : w'.outbox link = w.outbox link := congrArg (fun l => l.outbox link) hl
  exact .heirs h (hout.trans (List.append_nil _).symm) .silent

theorem send (h : w.Heirs w') (hl : w'.links = w.links.send x t) (hsp : Speech w w' [x]) :
    Turn link w w' := by
  have hout : w'.outbox link = (w.links.send x t).outbox link :=
    congrArg (fun l => l.outbox link) hl
  by_cases ht : link = t
  · subst ht
    exact .heirs h (hout.trans (update_self ..)) hsp
  · have hsame : (w.links.send x t).outbox link = w.outbox link := update_of_ne ht _ _
    exact .heirs h ((hout.trans hsame).trans (List.append_nil _).symm) .silent

theorem closes (h : Graph w) (hcl : Closes a w w') : Turn link w w' := by
  have hh := Heirs.closes h hcl
  cases hcl with
  | alone _ _ _ hs => exact .quiet hh (by rw [links_finished, links_statusOnly hs, links_store])
  | both => exact .quiet hh (links_closedBoth ..)
  | @other s q p ha hloc hp hq hother =>
    have hgone : ∀ i, ¬ ((w.shutdownFor s q).closedWith a s p q).InUse a i := by
      rintro i ⟨s', hs', _, hc, _⟩
      have hleft : s.Remnant s' := closing_of_finished hs' rfl hloc rfl rfl
      exact absurd (hc.symm.trans hleft.closing) (by simp)
    have hlinks := links_closedWith (w.shutdownFor s q) a p s q
    generalize (w.shutdownFor s q).closedWith a s p q = v at hh hgone hlinks ⊢
    unfold shutdownFor at hlinks
    split at hlinks
    · exact .send hh hlinks (.closes (inUse_of_peer h ha hloc hp) hgone)
    · exact .quiet hh hlinks

end Turn

theorem Move.turn (hm : Move X w w') (h : Graph w) : Turn link w w' := by
  cases hm with
  | status hs => exact .quiet (.statusOnly hs) (links_statusOnly hs)
  | results => exact .quiet (.congr ⟨rfl, rfl, rfl, rfl, le_rfl, fun _ => rfl⟩ rfl) rfl
  | report ha =>
    refine .quiet (.at_one (.report w _ _ _ : w.OnlyAt 0 _ _ _) ha ?_) (links_reportEvents ..)
    exact alike_of_some (reportEvents_socket ha _ _) (.refit _ _ _)
  | @dequeue a rest s _ ha =>
    have ho : w.OnlyAt 0 a [] { w.store a { s with fde := { s.fde with events := .none } } with
        listPending := rest } :=
      .quiet (fun _ => socket_store_ne w _) rfl rfl rfl rfl rfl rfl rfl
    refine .quiet (.at_one ho ha ?_) rfl
    exact alike_of_some (socket_store w _ _) (.refit _ _ _)
  | resume ha => exact .quiet (.fdeventSet ha _) (links_resumed ..)
  | pause ha => exact .quiet (.fdeventSet ha _) (links_fdeventSet ..)
  | @feed a p s q t bytes ha hloc hp =>
    have hc := (h.localSane ha hloc).closing_of_peer (by simp [hp])
    have hlinks : (w.fed a s q t bytes).links = w.links.send ⟨.aWrte, s.id, q.id, bytes⟩ t := by
      rw [fed, paused, links_fdeventSet]
      rfl
    have hu : (w.fed a s q t bytes).InUse a s.id :=
      ⟨_, fdeventSet_socket _ _ _ _, hloc, hc, rfl⟩
    refine .send (.at_one (.fed w a s q bytes) ha ?_) hlinks (.speaks (by simp) hu)
    exact alike_of_some (fdeventSet_socket _ _ _ _) (.refit _ _ _)
  | wrote ha => exact .quiet (.congr (OnlyAt.wroteData w _ _ _ : w.OnlyAt 0 _ _ _).toKept rfl) rfl
  | queue ha => exact .quiet (.queued ha _) (links_queued ..)
  | failed a => exact .quiet (.congr (OnlyAt.markFailed w a : w.OnlyAt 0 _ _ _).toKept rfl) rfl
  | drain ha =>
    refine .quiet (.at_one ((OnlyAt.wroteData w _ _ _).trans (.store _ _ _) :
      w.OnlyAt 0 _ _ _) ha ?_) rfl
    exact alike_of_some (socket_store _ _ _) (.refit _ _ _)
  | drained ha =>
    refine .quiet (.at_one ((OnlyAt.wroteData w _ _ _).trans (.emptied _ _ _) :
      w.OnlyAt 0 _ _ _) ha ?_) (links_fdeventSet ..)
    exact alike_of_some (emptied_socket _ _ _) (.refit _ _ _)
  | @answer a p s q t ha hloc hp _ _ _ _ _ writes =>
    have hc := (h.localSane ha hloc).closing_of_peer (by simp [hp])
    have hlinks : (((w.wroteData a s.queue.flatten writes).emptied a s).acknowledge a).links =
        w.links := by
      rw [acknowledge, links_setTrace, emptied, links_fdeventSet]
      rfl
    have hsend : ((((w.wroteData a s.queue.flatten writes).emptied a s).acknowledge a).sendPacket
        ⟨.aOkay, s.id, q.id, []⟩ t).links = w.links.send ⟨.aOkay, s.id, q.id, []⟩ t := by
      rw [links_sendPacket, hlinks]
    have hu : ((((w.wroteData a s.queue.flatten writes).emptied a s).acknowledge a).sendPacket
        ⟨.aOkay, s.id, q.id, []⟩ t).InUse a s.id := ⟨_, emptied_socket _ _ _, hloc, hc, rfl⟩
    refine .send (.at_one ((((OnlyAt.wroteData w _ _ _).trans (.emptied _ _ _)).trans
      (.acknowledge _ _)).trans (.sendPacket _ _ _)) ha ?_) hsend (.speaks (by simp) hu)
    exact alike_of_some (emptied_socket _ _ _) (.refit _ _ _)
  | flush ha =>
    refine .quiet (.at_one (((OnlyAt.wroteData w _ _ _).trans (.store _ _ _)).trans
      (.finished _ _ _) : w.OnlyAt 0 _ _ _) ha ?_) (links_finished ..)
    exact alike_of_none (flushed_socket _ _ _)
  | close _ _ _ _ hcl => exact .closes h hcl
  | smart ha hsm =>
    refine .quiet (.at_one (.store w _ _ : w.OnlyAt 0 _ _ _) ha ?_) rfl
    refine alike_of_some (socket_store w _ _) ⟨rfl, Or.inl ⟨rfl, rfl, rfl, fun hr => ?_⟩⟩
    exact absurd (hsm.symm.trans hr) (by simp)
  | born => exact .born
  | attachSmart ha =>
    exact .quiet (.attached (kept_attached w _ _ _) ha (by simp [smartFor]) rfl) rfl
  | attachTracker ha =>
    exact .quiet (.attached (q := trackerFor _)
      ⟨rfl, rfl, rfl, rfl, Nat.le_succ _, fun _ => rfl⟩ ha (by simp [trackerFor]) rfl) rfl
  | join ha hb => exact .quiet (.joined ha hb) rfl
  | detach _ _ _ hq => exact .quiet (.detached hq) rfl
  | notify ha =>
    refine .quiet (.at_one (.store w _ _ : w.OnlyAt 0 _ _ _) ha ?_) rfl
    exact alike_of_some (socket_store w _ _) ⟨rfl, Or.inl ⟨rfl, rfl, rfl, fun _ => rfl⟩⟩
  | ask ha hloc _ hc =>
    refine .send (.at_one ((OnlyAt.store w _ _).trans (.sendPacket _ _ _)) ha ?_) rfl
      (.speaks (by simp) ⟨_, socket_store w _ _, hloc, hc, rfl⟩)
    refine alike_of_some (socket_store w _ _) ⟨rfl, Or.inl ⟨rfl, rfl, rfl, fun hr => ?_⟩⟩
    exact absurd (hloc.symm.trans hr) (by simp)

theorem Moves.turns (hm : Moves X w w') (h : Graph w) : Turns link w w' := by
  induction hm with
  | refl => exact .refl
  | tail hms hm ih => exact ih.tail (hm.turn (Moves.graph hms h))

section Receive

theorem Enqueued.heirs_or_closes {bytes : List Byte} {r : ℤ} (he : Enqueued a s bytes w w' r)
    (ha : w.socket a = some s) :
    w.Heirs w' ∧ w'.links = w.links ∨ Closes a ((w.attempted a bytes).markFailed a) w' := by
  have hwrote : w.Heirs (w.attempted a bytes) :=
    .congr (OnlyAt.wroteData w _ _ _ : w.OnlyAt 0 _ _ _).toKept rfl
  cases he with
  | queued => exact Or.inl ⟨.queued ha _, links_queued ..⟩
  | done => exact Or.inl ⟨hwrote, rfl⟩
  | blocked =>
    have ha' : (w.attempted a bytes).socket a = some s := ha
    exact Or.inl ⟨hwrote.trans (.queued ha' _), by rw [links_queued, links_attempted]⟩
  | failed _ _ hcl => exact Or.inr hcl

theorem heirs_writeFailed (w : Server) (a : Addr) (bytes : List Byte) :
    w.Heirs ((w.attempted a bytes).markFailed a) :=
  .congr ((OnlyAt.wroteData w _ _ _).trans (.markFailed _ a) : w.OnlyAt 0 _ _ _).toKept rfl

theorem Receive.turns (hr : Receive x t w w') (h : Graph w) : Turns link w w' := by
  cases hr with
  | ignored => exact .refl
  | accept hx hon h0 h1 =>
    let v := w.born.attachRemote w.nextAddr w.freshLocal x.arg0 t
    have hnew : w.born.socket w.nextAddr = some w.freshLocal := socket_store w _ _
    have hattach : w.born.Heirs v :=
      .attached (kept_of_trace rfl rfl rfl rfl (Nat.le_succ _) rfl rfl) hnew
        (by simp [remoteFor]) rfl
    have hsent : v.Heirs (v.sendPacket ⟨.aOkay, w.localSocketNextId, x.arg0, []⟩ t) :=
      .congr ⟨rfl, rfl, rfl, rfl, le_rfl, fun _ => rfl⟩ rfl
    have hsock : (v.sendPacket ⟨.aOkay, w.localSocketNextId, x.arg0, []⟩ t).socket w.nextAddr =
        some { w.freshLocal.plain with peer := some (w.nextAddr + 1) } := socket_store _ _ _
    have hu : ((v.sendPacket ⟨.aOkay, w.localSocketNextId, x.arg0, []⟩ t).resumed w.nextAddr
        { w.freshLocal.plain with peer := some (w.nextAddr + 1) }).InUse w.nextAddr
          w.localSocketNextId := ⟨_, fdeventSet_socket _ _ _ _, rfl, rfl, rfl⟩
    exact .tail (.single .born) (.send (x := ⟨.aOkay, w.localSocketNextId, x.arg0, []⟩) (t := t)
      ((hattach.trans hsent).trans (.fdeventSet hsock _)) (links_resumed ..)
      (.speaks (by simp) hu))
  | refuse =>
    exact .single (.send (.congr ⟨rfl, rfl, rfl, rfl, le_rfl, fun _ => rfl⟩ rfl) rfl
      (.refuses rfl))
  | @connect a s _ _ _ _ _ _ ha _ hst =>
    have hattach : w.Heirs (w.attachRemote a s x.arg0 t) :=
      .attached (kept_of_trace rfl rfl rfl rfl (Nat.le_succ _) rfl rfl) ha
        (by simp [remoteFor]) rfl
    have hsock : (w.attachRemote a s x.arg0 t).socket a =
        some { s.plain with peer := some w.nextAddr } := socket_store _ _ _
    refine .single (.quiet ((hattach.trans (.fdeventSet hsock _)).trans (.statusOnly hst)) ?_)
    rw [links_statusOnly hst, links_resumed]
    rfl
  | resume _ _ _ _ _ ha => exact .single (.quiet (.fdeventSet ha _) (links_resumed ..))
  | close _ _ _ _ _ _ hcl => exact .single (.closes h hcl)
  | @write a s _ _ _ _ _ _ _ ha henq =>
    have haccept : w.Heirs (w.accept a) :=
      .congr (OnlyAt.accept w a : w.OnlyAt 0 _ _ _).toKept rfl
    have ha' : (w.accept a).socket a = some s := ha
    have hg : Graph (w.accept a) := h.setTrace _ _
    rcases henq.heirs_or_closes ha' with ⟨hh, hl⟩ | hcl
    · exact .single (.quiet (haccept.trans hh) (hl.trans (links_setTrace ..)))
    · have hlinks : (((w.accept a).attempted a x.data).markFailed a).links = w.links := by
        rw [Server.markFailed, links_setTrace, links_attempted, Server.accept, links_setTrace]
      exact .tail (.single (.quiet (haccept.trans (heirs_writeFailed _ a _)) hlinks))
        (.closes (hg.writeFailed a _) hcl)
  | @writeAll a s _ _ _ _ hf ha =>
    obtain ⟨s', hf'⟩ := found h hf
    cases ha.symm.trans hf'.socket
    have hu : ((((w.accept a).attempted a x.data).acknowledge a).sendPacket
        ⟨.aOkay, s.id, x.arg0, []⟩ t).InUse a s.id := ⟨s, ha, hf'.isLocal, hf'.closing, rfl⟩
    have hlinks : ((((w.accept a).attempted a x.data).acknowledge a).sendPacket
        ⟨.aOkay, s.id, x.arg0, []⟩ t).links = w.links.send ⟨.aOkay, s.id, x.arg0, []⟩ t := by
      rw [links_sendPacket, acknowledge, links_setTrace, links_attempted, Server.accept,
        links_setTrace]
    have hheirs : w.Heirs ((((w.accept a).attempted a x.data).acknowledge a).sendPacket
        ⟨.aOkay, s.id, x.arg0, []⟩ t) :=
      .at_one ((((OnlyAt.accept w a).trans (.wroteData _ _ _ _)).trans
        (.acknowledge _ _)).trans (.sendPacket _ _ _)) ha (alike_of_some ha (.refl _))
    exact .single (.send hheirs hlinks (.speaks (by simp) hu))

end Receive

section Setup

def Links.Sets (l l' : Links) : Prop :=
  ∀ t, ∃ ps, l'.outbox t = l.outbox t ++ ps ∧ ∀ x ∈ ps, x.command.ofConnection = false

variable {l l' : Links} {host authEnabled : Bool} {env : Env}

theorem Links.Sets.of_outbox (h : l'.outbox = l.outbox) : l.Sets l' :=
  fun t => ⟨[], by rw [h, List.append_nil], nofun⟩

theorem Links.Sets.send (h : l.Sets l') (hx : x.command.ofConnection = false) (t : TransportId) :
    l.Sets (l'.send x t) := by
  intro t'
  obtain ⟨ps, hps, hall⟩ := h t'
  by_cases ht : t' = t
  · subst ht
    have hself : (l'.send x t').outbox t' = l'.outbox t' ++ [x] := update_self ..
    refine ⟨ps ++ [x], ?_, fun y hy => ?_⟩
    · rw [hself, hps, List.append_assoc]
    · rcases List.mem_append.mp hy with hy | hy
      · exact hall y hy
      · rwa [List.mem_singleton.mp hy]
  · exact ⟨ps, (update_of_ne ht _ _).trans hps, hall⟩

theorem Links.Sets.authRequest (h : l.Sets l') : l.Sets (l'.authRequest env t) := by
  unfold Links.authRequest
  split
  · exact h.send rfl t
  · exact h

theorem Links.Sets.authData (h : l.Sets l') (n : ℕ) (data : Option (List Byte)) :
    l.Sets (l'.authData n data t) := by
  unfold Links.authData
  split
  · exact h.send rfl t
  · exact h

theorem Links.sets_receive (host authEnabled : Bool) (env : Env) (l : Links)
    (hx : x.command.ofConnection = false) (t : TransportId) :
    l.Sets (l.receive host authEnabled env x t) := by
  have hself : l.Sets l := .of_outbox rfl
  have honline : l.Sets (l.setOnline t true) := .of_outbox rfl
  have hdenied : l.Sets (l.setState t .unauthorized) := .of_outbox rfl
  unfold Links.receive
  split
  · unfold Links.sync
    split
    · split
      · exact (hself.send hx t).send rfl t
      · exact hself.send hx t
    · exact Links.Sets.send (.of_outbox rfl) hx t
  · unfold Links.cnxn
    dsimp only
    have hoff : l.Sets (if l.connectionState t ≠ .offline then l.goOffline t else l) := by
      split
      · exact .of_outbox rfl
      · exact hself
    generalize (if l.connectionState t ≠ .offline then l.goOffline t else l) = l₁ at hoff
    have hstate : l.Sets (l₁.setState t (bannerState x.data)) := hoff
    have hup : l.Sets ((l₁.setState t (bannerState x.data)).setOnline t true) := hoff
    split
    · split
      · exact hup
      · exact hup.send rfl t
    · exact hstate.authRequest
  · unfold Links.auth
    split
    · split
      · exact hdenied.authData _ _
      · exact hdenied.authData _ _
    · split
      · split
        · exact honline.send rfl t
        · exact hself.authRequest
      · exact hself
  · unfold Links.hdsk
    split
    · exact hself.send rfl t
    · exact hself
  · exact hself

theorem setupRule_heirs (w : Server) (t : TransportId) : SetupRule t w.Heirs where
  transport hr _ _ := hr.trans ⟨rfl, rfl, le_rfl, fun _ => rfl, fun _ _ => id⟩
  send hr _ _ := hr.trans ⟨rfl, rfl, le_rfl, fun _ => rfl, fun _ _ => id⟩
  disconnect h hr hq hrem _ hp ha :=
    hr.trans (.closedWith _ _ _ _ _ (h.isLocal_of_peer hq hp ha hrem.not_local))
  tracker {v v' a p s q bytes r} h hr _ _ hq _ _ henq := by
    rcases henq.heirs_or_closes hq with ⟨hh, _⟩ | hcl
    · exact hr.trans hh
    · exact (hr.trans (heirs_writeFailed _ p _)).trans (.closes (h.writeFailed p _) hcl)

theorem handlePacket_turns (host authEnabled : Bool) (env : Env) (h : Graph w) (x : Packet)
    (t : TransportId) :
    Succeeds (Turns link w) (handlePacket host authEnabled env x t w) := by
  have hspec := handlePacket_rule host authEnabled env (setupRule_heirs w t) ⟨h, .refl w⟩ x
  have hlinks := handlePacket_links host authEnabled env h x t
  cases hrun : handlePacket host authEnabled env x t w with
  | error f =>
    rw [hrun] at hspec
    exact hspec
  | ok w' =>
    rw [hrun] at hspec hlinks
    rcases hspec with hr | ⟨hx, hh⟩
    · exact hr.turns h
    · have hl : w'.links = w.links.receive host authEnabled env x t := by
        have := hlinks.2
        rwa [hx] at this
      obtain ⟨ps, hps, hall⟩ := Links.sets_receive host authEnabled env w.links hx t link
      rw [← hl] at hps
      exact .single (.heirs hh hps (.setup hall))

theorem Action.run_turns (host authEnabled : Bool) (h : Graph w) (action : Action) (env : Env)
    (hen : action.enabled w = true) :
    Ends (Turns link w) (action.run host authEnabled env w) := by
  cases hhome : action.atHome with
  | true =>
    have hX : action = .dispatch → DispatchLicence ⟨True, True⟩ w :=
      fun _ _ _ _ _ _ _ _ => ⟨fun _ _ => trivial, fun _ _ _ => trivial⟩
    exact (action.home_spec host authEnabled h env hen hX hhome).mono fun _ hm => Moves.turns hm h
  | false =>
    cases action with
    | packet x t => exact (handlePacket_turns host authEnabled env h x t).ends
    | closeAllSockets t =>
      exact closeAllLoop_rule (fun hg hr _ _ hcl => hr.tail (.closes hg hcl)) t _ h .refl
    | transportDisconnects t =>
      have hrule : DisconnectRule t (fun w' => w.Heirs w' ∧ w'.links = w.links) := by
        intro v a p s q hg hv hq hrem ht hp ha
        exact ⟨(setupRule_heirs w t).disconnect hg hv.1 hq hrem ht hp ha,
          (links_closedWith ..).trans hv.2⟩
      have hspec := runTransportDisconnects_rule hrule h ⟨.refl w, rfl⟩
      exact hspec.ends.mono fun _ hv => .single (.quiet hv.2.1 hv.2.2)
    | _ => cases hhome

theorem step_turns {i : Input} (h : Graph w) (hs : step host authEnabled w i = some w') :
    Turns link w w' := by
  obtain ⟨hen, w₁, hrun, rfl⟩ := run_of_step hs
  have hspec : Ends (Turns link (i.before w))
      (i.action.run host authEnabled i.env (i.before w)) :=
    i.action.run_turns host authEnabled (i.graph_before h) i.env hen
  rw [hrun] at hspec
  have hbefore : Turn link w (i.before w) :=
    .quiet (.congr ⟨rfl, rfl, rfl, rfl, le_rfl, fun _ => rfl⟩ rfl) rfl
  have hafter : Turn link w₁ { w₁ with reads := [], writes := [] } :=
    .quiet (.congr ⟨rfl, rfl, rfl, rfl, le_rfl, fun _ => rfl⟩ rfl) rfl
  exact (hspec.head hbefore).tail hafter

end Setup

end PaxAdb.Sockets
