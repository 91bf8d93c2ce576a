import PaxAdb.GraphClose

/-!
# Opening connections keeps the socket graph

The composite updates by which sockets come into being and are connected: a client gets a smart
socket, a forwarded client asks the device, a request replaces the smart socket by a host service
or by a pending connection, and a remote socket is created for a packet of the device.
-/

namespace PaxAdb.Sockets

open ASocket Server List Function

def ASocket.notifying (s : ASocket) : ASocket :=
  { s with ready := .localSocketReadyNotify, shutdown := none, close := .localSocketCloseNotify }

namespace Server

variable (w : Server)

def freshLocal : ASocket where
  id := w.localSocketNextId
  closing := false
  peer := none
  fde := ⟨.none, .none, false, false⟩
  queue := []
  enqueue := .localSocketEnqueue
  ready := .localSocketReady
  shutdown := none
  close := .localSocketClose
  transport := none
  updateNeeded := false

def born : Server := w.createLocalSocket.1

def attached (a : Addr) (s q : ASocket) : Server :=
  { (w.store w.nextAddr q).store a { s.plain with peer := some w.nextAddr } with
    nextAddr := w.nextAddr + 1 }

def smartFor (a : Addr) : ASocket where
  id := 0
  closing := false
  peer := some a
  fde := ⟨.none, .none, false, false⟩
  queue := []
  enqueue := .smartSocketEnqueue
  ready := .smartSocketReady
  shutdown := none
  close := .smartSocketClose
  transport := none
  updateNeeded := false

def attachSmart (a : Addr) (s : ASocket) : Server := w.attached a s (smartFor a)

def trackerFor (a : Addr) : ASocket where
  id := 0
  closing := false
  peer := some a
  fde := ⟨.none, .none, false, false⟩
  queue := []
  enqueue := .deviceTrackerEnqueue
  ready := .deviceTrackerReady
  shutdown := none
  close := .deviceTrackerClose
  transport := none
  updateNeeded := false

def attachTracker (a : Addr) (s : ASocket) : Server :=
  { w.attached a s (trackerFor a) with deviceTrackerList := w.nextAddr :: w.deviceTrackerList }

def remoteFor (a : Addr) (id : ℕ) (t : TransportId) : ASocket where
  id := id
  closing := false
  peer := some a
  fde := ⟨.none, .none, false, false⟩
  queue := []
  enqueue := .remoteSocketEnqueue
  ready := .remoteSocketReady
  shutdown := some .remoteSocketShutdown
  close := .remoteSocketClose
  transport := some t
  updateNeeded := false

def attachRemote (a : Addr) (s : ASocket) (id : ℕ) (t : TransportId) : Server :=
  { w.attached a s (remoteFor a id t) with
    disconnects := update w.disconnects t (w.disconnects t ++ [w.nextAddr])
    trace := update w.trace a { w.trace a with remoteId := some id } }

def joined (a : Addr) (s : ASocket) (b : Addr) (q : ASocket) : Server :=
  (w.store a { s with peer := some b }).store b { q with peer := some a }

def detached (a b : Addr) (q : ASocket) : Server := (w.store b { q with peer := none }).free a

def asked (a : Addr) (s : ASocket) (t : TransportId) (destination : List Byte) : Server :=
  (w.store a { s with transport := some t }).sendPacket ⟨.aOpen, s.id, 0, destination ++ [0]⟩ t

end Server

variable {w : Server} {a b p : Addr} {s q : ASocket}

section Fresh

theorem ASocket.localSane_freshLocal (h : w.localSocketNextId ≠ 0) (p : Option Addr)
    (t : Option TransportId) :
    ({ w.freshLocal with peer := p, transport := t } : ASocket).LocalSane where
  shutdown := rfl
  callbacks := Or.inl ⟨rfl, rfl⟩
  notify hn := by cases hn
  closing hc := by cases hc
  backlog _ hq := absurd rfl hq
  writing hw := by cases hw
  events hw := by cases hw
  reading hr := by cases hr
  id _ := h
  eof := rfl

theorem Marks.fit_local {m : Marks} (hk : s.IsLocal) (hc : s.closing = false)
    (he : s.fde.events = .none) (hl : m.listed) (hcl : ¬ m.closing) (ht : ¬ m.tracker)
    (hp : ¬ m.pending) (hd : ∀ t, ¬ m.disconnect t) : m.Fit s where
  listed := iff_of_true hl ⟨hk, hc⟩
  closing := iff_of_false hcl fun h => absurd (hc.symm.trans h.2) (by simp)
  tracker := iff_of_false ht fun h => absurd (hk.symm.trans h) (by simp)
  pending := iff_of_false hp fun h => h he
  disconnect t := iff_of_false (hd t) fun h => absurd (hk.symm.trans h.1) (by simp)

theorem Server.good_of_at (hs : w.socket b = some s) (h : w.At b s) : w.Good b := by
  refine ⟨fun x hx => ?_, fun hx => ?_⟩
  · rw [hs] at hx
    cases hx
    exact h
  · rw [hs] at hx
    cases hx

theorem Graph.blank_of_le (h : Graph w) (hb : w.nextAddr ≤ b) : (w.marks b).Blank :=
  (h.good b).gone (h.fresh b hb)

theorem Graph.peer_lt (h : Graph w) (hs : w.socket b = some s) (hp : s.peer = some p) :
    p < w.nextAddr := by
  obtain ⟨_, q, hq, _⟩ := h.peer_spec hs hp
  exact h.lt_nextAddr hq

theorem Server.marks_eq {w' : Server} (hl : b ∈ w'.localSocketList ↔ b ∈ w.localSocketList)
    (hc : b ∈ w'.localSocketClosingList ↔ b ∈ w.localSocketClosingList)
    (ht : b ∈ w'.deviceTrackerList ↔ b ∈ w.deviceTrackerList)
    (hp : b ∈ w'.listPending ↔ b ∈ w.listPending)
    (hd : ∀ t, b ∈ w'.disconnects t ↔ b ∈ w.disconnects t) : w'.marks b = w.marks b := by
  simp only [marks, hl, hc, ht, hp, hd]

theorem Graph.lists_born (h : Graph w) : (w.localSocketList ++ [w.nextAddr]).Nodup := by
  have hnot : w.nextAddr ∉ w.localSocketList := (h.blank_of_le le_rfl).listed
  exact h.lists.listed.append (nodup_singleton _) (by simpa using hnot)

theorem mem_append_of_ne {l : List Addr} (h : b ≠ a) : b ∈ l ++ [a] ↔ b ∈ l := by
  simp [h]

theorem nextId_born (w : Server) : w.born.localSocketNextId ≠ 0 := by
  simp only [born, createLocalSocket]
  split
  · exact one_ne_zero
  · assumption

theorem ASocket.LocalSane.linked (h : s.LocalSane) (hc : s.closing = false)
    (p : Addr) : ({ s.plain with peer := some p } : ASocket).LocalSane where
  shutdown := rfl
  callbacks := Or.inl ⟨rfl, rfl⟩
  notify hn := by cases hn
  closing hcl := absurd (hc.symm.trans hcl) (by simp)
  backlog _ _ := by simp
  writing := h.writing
  events := h.events
  reading := h.reading
  id := h.id
  eof := h.eof

end Fresh

namespace Graph

theorem born (h : Graph w) : Graph w.born := by
  have hblank := h.blank_of_le (le_refl w.nextAddr)
  refine h.of_touched [w.nextAddr] (fun b hb => ?_) (fun b x hb hx r hr hxr => ?_)
    (fun b hb => ?_) ?_ (fun b hb => ?_) (nextId_born w)
  · have hba : b ≠ w.nextAddr := by simpa using hb
    exact ⟨socket_store_ne w _ hba,
      marks_eq (mem_append_of_ne hba) Iff.rfl Iff.rfl Iff.rfl fun _ => Iff.rfl⟩
  · cases mem_singleton.mp hr
    exact absurd (h.peer_lt hx hxr) (lt_irrefl _)
  · cases mem_singleton.mp hb
    refine good_of_at (socket_store w _ _) ⟨⟨fun _ => localSane_freshLocal h.nextId none none,
      fun hn => absurd rfl hn⟩, Marks.fit_local rfl rfl rfl ?_ hblank.closing hblank.tracker
        hblank.pending hblank.disconnect, nofun⟩
    exact mem_append_right _ (mem_singleton_self _)
  · exact ⟨h.lists_born, h.lists.closing, h.lists.tracker, h.lists.pending, h.lists.disconnect⟩
  · have hle : w.nextAddr + 1 ≤ b := hb
    exact (socket_store_ne w _ (Nat.lt_of_succ_le hle).ne').trans
      (h.fresh b (Nat.le_of_succ_le hle))

section Alone

variable (h : Graph w) (ha : w.socket a = some s) (hloc : s.IsLocal) (hp : s.peer = none)
  (hc : s.closing = false)

include h ha hloc hp hc

theorem queue_of_peer_none : s.queue = [] := by
  by_contra hq
  exact (h.localSane ha hloc).backlog hc hq hp

/-- The rule for the three kinds of sockets that are created as the peer of a local one. -/
theorem attach {w' : Server} (hk : ¬ q.IsLocal) (hq : q.OtherSane)
    (hqp : q.peer = some a) (hqt : q.IsSmart → s.transport = none)
    (hsock : w'.socket = (w.attached a s q).socket)
    (hnext : w'.nextAddr = w.nextAddr + 1) (hid : w'.localSocketNextId = w.localSocketNextId)
    (hlist : w'.localSocketList = w.localSocketList)
    (hclosing : w'.localSocketClosingList = w.localSocketClosingList)
    (hpending : w'.listPending = w.listPending) (htracker : ∀ b, b ∈ w'.deviceTrackerList ↔
      b ∈ w.deviceTrackerList ∨ b = w.nextAddr ∧ q.IsTracker) (hdisc : ∀ t b, b ∈ w'.disconnects t ↔
      b ∈ w.disconnects t ∨ b = w.nextAddr ∧ q.IsRemote ∧ q.transport = some t)
    (htn : w'.deviceTrackerList.Nodup) (hdn : ∀ t, (w'.disconnects t).Nodup) : Graph w' := by
  have hat := h.at_ ha
  have hblank := h.blank_of_le (le_refl w.nextAddr)
  have hlt := h.lt_nextAddr ha
  have hne : w.nextAddr ≠ a := hlt.ne'
  have hqueue := h.queue_of_peer_none ha hloc hp hc
  have hself : w'.socket a = some { s.plain with peer := some w.nextAddr } := by
    rw [hsock]
    exact socket_store _ _ _
  have hnew : w'.socket w.nextAddr = some q := by
    rw [hsock]
    exact (socket_store_ne _ _ hne).trans (socket_store _ _ _)
  have hother : ∀ b, b ≠ a → b ≠ w.nextAddr → w'.socket b = w.socket b := by
    intro b hba hbn
    rw [hsock]
    exact (socket_store_ne _ _ hba).trans (socket_store_ne _ _ hbn)
  have hmarks : ∀ b, b ≠ w.nextAddr → w'.marks b = w.marks b := by
    intro b hb
    refine marks_eq (by rw [hlist]) (by rw [hclosing]) ?_ (by rw [hpending]) fun t => ?_
    · simp [htracker, hb]
    · simp [hdisc, hb]
  refine h.of_touched [a, w.nextAddr] (fun b hb => ?_) (fun b x hb hx r hr hxr => ?_)
    (fun b hb => ?_) ?_ (fun b hb => ?_) (hid ▸ h.nextId)
  · obtain ⟨hba, hbn⟩ : b ≠ a ∧ b ≠ w.nextAddr := by simpa using hb
    exact ⟨hother b hba hbn, hmarks b hbn⟩
  · rcases mem_pair.mp hr with rfl | rfl
    · exact absurd (hp.symm.trans (h.linked hx hxr ha).peer) (by simp)
    · exact absurd (h.peer_lt hx hxr) (lt_irrefl _)
  · rcases mem_pair.mp hb with rfl | rfl
    · refine good_of_at hself ⟨⟨fun _ => (h.localSane ha hloc).linked hc _, fun hn =>
        absurd hloc hn⟩, ?_, fun r hr => ?_⟩
      · rw [hmarks b hne.symm]
        exact ⟨hat.fit.listed, hat.fit.closing, hat.fit.tracker, hat.fit.pending,
          hat.fit.disconnect⟩
      · cases hr
        exact ⟨hne, q, hnew, hqp, Or.inl hloc, fun hs => absurd (hloc.symm.trans hs) (by simp),
          fun hs => ⟨hqueue, hqt hs⟩⟩
    · refine good_of_at hnew ⟨⟨fun hl => absurd hl hk, fun _ => hq⟩, ?_, fun r hr => ?_⟩
      · refine ⟨iff_of_false ?_ fun hl => hk hl.1, iff_of_false ?_ fun hl => hk hl.1, ?_,
          iff_of_false ?_ fun he => he hq.events, fun t => ?_⟩
        · simpa only [marks, hlist] using hblank.listed
        · simpa only [marks, hclosing] using hblank.closing
        · have := hblank.tracker
          simp only [marks] at this ⊢
          simp [htracker, this]
        · simpa only [marks, hpending] using hblank.pending
        · have := hblank.disconnect t
          simp only [marks] at this ⊢
          simp [hdisc, this]
      · rw [hqp] at hr
        cases hr
        exact ⟨hne.symm, _, hself, rfl, Or.inr hloc, fun hs => ⟨hqueue, hqt hs⟩,
          fun hs => absurd (hloc.symm.trans hs) (by simp)⟩
  · exact ⟨hlist ▸ h.lists.listed, hclosing ▸ h.lists.closing, htn, hpending ▸ h.lists.pending, hdn⟩
  · rw [hnext] at hb
    have hbn : b ≠ w.nextAddr := (Nat.lt_of_succ_le hb).ne'
    have hba : b ≠ a := (hlt.trans (Nat.lt_of_succ_le hb)).ne'
    exact (hother b hba hbn).trans (h.fresh b (Nat.le_of_succ_le hb))

theorem attachSmart (ht : s.transport = none) : Graph (w.attachSmart a s) := by
  refine h.attach ha hloc hp hc (q := smartFor a) nofun ?_ rfl (fun _ => ht) rfl rfl rfl rfl rfl rfl
    (fun b => ?_) (fun t b => ?_) h.lists.tracker h.lists.disconnect
  · exact ⟨by simp [smartFor], rfl, rfl, nofun, fun _ => ⟨rfl, rfl, rfl, rfl⟩, nofun⟩
  · exact (or_iff_left fun hn => nomatch hn.2).symm
  · exact (or_iff_left fun hn => nomatch hn.2.1).symm

theorem attachTracker : Graph (w.attachTracker a s) := by
  have hnot : w.nextAddr ∉ w.deviceTrackerList := (h.blank_of_le le_rfl).tracker
  refine h.attach ha hloc hp hc (q := trackerFor a) nofun ?_ rfl nofun rfl rfl rfl rfl rfl rfl
    (fun b => ?_) (fun t b => ?_) (h.lists.tracker.cons hnot) h.lists.disconnect
  · exact ⟨by simp [trackerFor], rfl, rfl, nofun, nofun, fun _ => ⟨rfl, rfl, rfl, rfl, rfl, rfl⟩⟩
  · exact mem_cons.trans (or_comm.trans (or_congr_right (and_iff_left rfl).symm))
  · exact (or_iff_left fun hn => nomatch hn.2.1).symm

theorem attachRemote {id : ℕ} (hid : id ≠ 0) (t : TransportId) :
    Graph (w.attachRemote a s id t) := by
  have hnot : w.nextAddr ∉ w.disconnects t := (h.blank_of_le le_rfl).disconnect t
  refine h.attach ha hloc hp hc (q := remoteFor a id t) nofun ?_ rfl nofun rfl rfl rfl rfl rfl rfl
    (fun b => ?_) (fun u b => ?_) h.lists.tracker fun u => ?_
  · exact ⟨by simp [remoteFor], rfl, rfl, fun _ => ⟨rfl, rfl, rfl, by simp [remoteFor], hid⟩, nofun,
      nofun⟩
  · exact (or_iff_left fun hn => nomatch hn.2).symm
  · change b ∈ Function.update w.disconnects t (w.disconnects t ++ [w.nextAddr]) u ↔ _
    by_cases hu : u = t
    · subst u
      simp [remoteFor]
    · simp [remoteFor, hu, Ne.symm hu]
  · change (Function.update w.disconnects t (w.disconnects t ++ [w.nextAddr]) u).Nodup
    by_cases hu : u = t
    · subst u
      simpa using (h.lists.disconnect t).append (List.nodup_singleton _) (by simpa using hnot)
    · simpa [hu] using h.lists.disconnect u

theorem notifying : Graph (w.store a s.notifying) := by
  have hsane := h.localSane ha hloc
  refine h.store ha ⟨fun _ => ?_, fun hn => absurd hloc hn⟩ rfl rfl rfl (fun _ => rfl)
    (fun p q hp' _ _ => absurd (hp.symm.trans hp') (by simp)) rfl
  exact ⟨rfl, Or.inr ⟨rfl, rfl⟩, fun _ => ⟨hp, hc⟩, hsane.closing, hsane.backlog, hsane.writing,
    hsane.events, hsane.reading, hsane.id, hsane.eof⟩

end Alone

section Opening

variable (h : Graph w) (ha : w.socket a = some s)

include h ha

theorem asked (hloc : s.IsLocal) (hp : s.peer = none)
    (t : TransportId) (destination : List Byte) : Graph (w.asked a s t destination) := by
  have hsane := h.localSane ha hloc
  have hs' : ({ s with transport := some t } : ASocket).Sane :=
    ⟨fun _ => ⟨hsane.shutdown, hsane.callbacks, hsane.notify, hsane.closing, hsane.backlog,
      hsane.writing, hsane.events, hsane.reading, hsane.id, hsane.eof⟩, fun hn => absurd hloc hn⟩
  exact (h.store ha hs' rfl rfl rfl (fun hr => absurd (hloc.symm.trans hr) (by simp))
    (fun p q hp' _ _ => absurd (hp.symm.trans hp') (by simp)) rfl).sendPacket _ t

theorem plain (hloc : s.IsLocal) : Graph (w.store a s.plain) := by
  have hsane := h.localSane ha hloc
  refine h.store ha ⟨fun _ => ?_, fun hn => absurd hloc hn⟩ rfl rfl rfl (fun _ => rfl)
    (fun p q hp hq hs => ?_) rfl
  · exact ⟨rfl, Or.inl ⟨rfl, rfl⟩, nofun, hsane.closing, hsane.backlog, hsane.writing, hsane.events,
      hsane.reading, hsane.id, hsane.eof⟩
  · exact (h.linked ha hp hq).smart' hs

theorem joined (hq : w.socket b = some q)
    (hloc : s.IsLocal) (hqloc : q.IsLocal) (hne : a ≠ b) (hp : s.peer = none) (hqp : q.peer = none)
    (hc : s.closing = false) (hqc : q.closing = false)
    (hcb : s.close = .localSocketClose) (hqcb : q.close = .localSocketClose) :
    Graph (w.joined a s b q) := by
  have hsock : ∀ c, c ≠ a → c ≠ b → (w.joined a s b q).socket c = w.socket c := fun c hca hcb =>
    (socket_store_ne _ _ hcb).trans (socket_store_ne _ _ hca)
  have hself : (w.joined a s b q).socket a = some { s with peer := some b } :=
    (socket_store_ne _ _ hne).trans (socket_store _ _ _)
  have hself' : (w.joined a s b q).socket b = some { q with peer := some a } := socket_store _ _ _
  have hsane : ∀ {x : ASocket}, x.LocalSane → x.closing = false → x.close = .localSocketClose →
      ∀ p : Addr, ({ x with peer := some p } : ASocket).LocalSane := by
    intro x hx hxc hxcb p
    exact ⟨hx.shutdown, hx.callbacks, fun hn => absurd (hxcb.symm.trans hn) (by simp),
      fun hn => absurd (hxc.symm.trans hn) (by simp), fun _ _ => by simp, hx.writing, hx.events,
      hx.reading, hx.id, hx.eof⟩
  refine h.of_touched [a, b] (fun c hc' => ?_) (fun c x _ hx r hr hxr => ?_) (fun c hc' => ?_)
    (lists_store (lists_store h.lists)) (fun c hc' => ?_) h.nextId
  · obtain ⟨hca, hcb⟩ : c ≠ a ∧ c ≠ b := by simpa using hc'
    exact ⟨hsock c hca hcb, rfl⟩
  · rcases mem_pair.mp hr with rfl | rfl
    · exact absurd (hp.symm.trans (h.linked hx hxr ha).peer) (by simp)
    · exact absurd (hqp.symm.trans (h.linked hx hxr hq).peer) (by simp)
  · rcases mem_pair.mp hc' with rfl | rfl
    · have hf := (h.at_ ha).fit
      refine good_of_at hself ⟨⟨fun _ => hsane (h.localSane ha hloc) hc hcb b, fun hn =>
        absurd hloc hn⟩, ⟨hf.listed, hf.closing, hf.tracker, hf.pending, hf.disconnect⟩,
        fun r hr => ?_⟩
      cases hr
      exact ⟨hne.symm, _, hself', rfl, Or.inl hloc, fun hs => absurd (hloc.symm.trans hs) (by simp),
        fun hs => absurd (hqloc.symm.trans hs) (by simp)⟩
    · have hf := (h.at_ hq).fit
      refine good_of_at hself' ⟨⟨fun _ => hsane (h.localSane hq hqloc) hqc hqcb a, fun hn =>
        absurd hqloc hn⟩, ⟨hf.listed, hf.closing, hf.tracker, hf.pending, hf.disconnect⟩,
        fun r hr => ?_⟩
      cases hr
      exact ⟨hne, _, hself, rfl, Or.inl hqloc, fun hs => absurd (hqloc.symm.trans hs) (by simp),
        fun hs => absurd (hloc.symm.trans hs) (by simp)⟩
  · have hca : c ≠ a := (lt_of_lt_of_le (h.lt_nextAddr ha) hc').ne'
    have hcb : c ≠ b := (lt_of_lt_of_le (h.lt_nextAddr hq) hc').ne'
    exact (hsock c hca hcb).trans (h.fresh c hc')

/-- A smart socket that has done its work goes away, and its client goes on without a peer. -/
theorem detached (hsm : s.IsSmart) (hp : s.peer = some b)
    (hq : w.socket b = some q) : Graph (w.detached a b q) := by
  have hnot : ¬ s.IsLocal := fun hl => absurd (hsm.symm.trans hl) (by simp)
  have hlink := h.linked ha hp hq
  have hqloc : q.IsLocal := h.isLocal_of_peer ha hp hq hnot
  have hne : b ≠ a := (h.peer_spec ha hp).1
  have hqsane := h.localSane hq hqloc
  have hqp : q.peer ≠ none := by simp [hlink.peer]
  have hqueue : q.queue = [] := (hlink.smart hsm).1
  have hgone : (w.detached a b q).socket a = none := by simp [Server.detached, free]
  have hsock : ∀ c, c ≠ a → (w.detached a b q).socket c =
      (w.store b { q with peer := none }).socket c := fun c hca => by
    simp [Server.detached, free, hca]
  refine h.of_touched [a, b] (fun c hc => ?_)
    (fun c x hc hx r hr hxr => (h.no_link_into (h.pair_closed ha hp hq) hc hx hr hxr).elim)
    (fun c hc => ?_) ⟨h.lists.listed, h.lists.closing, h.lists.tracker, h.lists.pending,
      h.lists.disconnect⟩ (fun c hc => ?_) h.nextId
  · obtain ⟨hca, hcb⟩ : c ≠ a ∧ c ≠ b := by simpa using hc
    exact ⟨(hsock c hca).trans (socket_store_ne _ _ hcb), rfl⟩
  · rcases mem_pair.mp hc with rfl | rfl
    · refine ⟨fun x hx => ?_, fun _ => ?_⟩
      · rw [hgone] at hx
        cases hx
      · have hf := (h.at_ ha).fit
        exact ⟨fun hm => hnot (hf.listed.mp hm).1, fun hm => hnot (hf.closing.mp hm).1,
          fun hm => absurd (hsm.symm.trans (hf.tracker.mp hm)) (by simp),
          fun hm => hf.pending.mp hm (h.otherSane ha hnot).events,
          fun t hm => absurd (hsm.symm.trans ((hf.disconnect t).mp hm).1) (by simp)⟩
    · refine good_of_at ((hsock c hne).trans (socket_store _ _ _)) ⟨⟨fun _ => ?_, fun hn =>
        absurd hqloc hn⟩, (h.at_ hq).fit.unlink, fun r hr => absurd hr (by simp)⟩
      exact ⟨hqsane.shutdown, hqsane.callbacks, fun hn => ⟨rfl, (hqsane.notify hn).2⟩,
        fun hc => ⟨rfl, (hqsane.closing hc).2⟩, fun _ hn => absurd hqueue hn, hqsane.writing,
        hqsane.events, hqsane.reading, hqsane.id, hqsane.eof⟩
  · have hca : c ≠ a := (lt_of_lt_of_le (h.lt_nextAddr ha) hc).ne'
    have hcb : c ≠ b := (lt_of_lt_of_le (h.lt_nextAddr hq) hc).ne'
    exact (hsock c hca).trans ((socket_store_ne _ _ hcb).trans (h.fresh c hc))

end Opening

end Graph

end PaxAdb.Sockets
