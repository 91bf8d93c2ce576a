import PaxAdb.SocketNumbers

/-!
# One close for each stream

The two endpoints again, joined by a transport that delivers packets in order, but now whatever else
happens at the ends: other transports, transports that are lost and set up again, and sockets closed
by the administration. Everything an endpoint has ever handed to the transport is kept in a log. In
it no packet of a connection names a local id after the `A_CLSE` for it, as long as no id has been
given twice.
-/

namespace PaxAdb.Sockets

open Function (update update_self update_of_ne update_idem update_eq_self)
open ASocket Server Runs List Option

variable {w w' : Server} {a b : Addr} {i : ℕ} {host authEnabled : Bool} {x : Packet}
  {t link : TransportId}

/-- The packet belongs to a connection and has the local id `i` of the sender. -/
def Packet.Names (x : Packet) (i : ℕ) : Prop := x.command.ofConnection = true ∧ x.arg0 = i

/-- No packet names a local id after the `A_CLSE` for it. An `A_CLSE` with 0 refuses an `A_OPEN`,
and is for no stream of the sender. -/
def OneClose (log : List Packet) : Prop :=
  log.Pairwise fun x y => x.command = .aClse → x.arg0 ≠ 0 → ¬ y.Names x.arg0

section Ledger

structure Ledger (w : Server) (log : List Packet) : Prop where
  once : OneClose log
  old : ∀ x ∈ log, x.command = .aClse → x.arg0 ≠ 0 → x.arg0 ≤ w.created
  gone : ∀ x ∈ log, x.command = .aClse → x.arg0 ≠ 0 → ∀ a, ¬ w.InUse a x.arg0

namespace Server.Numbered

theorem id_le (h : w.Numbered) (hu : w.InUse a i) : w.birth a < w.created ∧ i ≤ w.created := by
  obtain ⟨hai, hi⟩ := h.inUse a i hu
  have hborn : (w.trace a).bornId ≠ 0 := hai ▸ hi
  have hlt : a < w.nextAddr := Nat.lt_of_not_le fun hle => hborn (h.fresh a hle)
  have hbirth : w.birth a < w.created :=
    h.created ▸ Nat.count_strict_mono (p := fun b => (w.trace b).bornId ≠ 0) hborn hlt
  have hid := h.bornId a hborn
  have hmod := Nat.mod_le (w.birth a) (2 ^ 32 - 1)
  exact ⟨hbirth, by omega⟩

theorem unique (h : w.Numbered) (hlt : w.created < 2 ^ 32) (ha : w.InUse a i) (hb : w.InUse b i) :
    a = b := by
  have hmod := (h.same_id_iff ha hb).mp rfl
  have hba := (h.id_le ha).1
  have hbb := (h.id_le hb).1
  rw [Nat.mod_eq_of_lt (by omega), Nat.mod_eq_of_lt (by omega)] at hmod
  obtain ⟨hai, hi⟩ := h.inUse a i ha
  obtain ⟨hbi, _⟩ := h.inUse b i hb
  have hborna : (w.trace a).bornId ≠ 0 := hai ▸ hi
  have hbornb : (w.trace b).bornId ≠ 0 := hbi ▸ hi
  exact Nat.count_injective (p := fun b => (w.trace b).bornId ≠ 0) hborna hbornb hmod

end Server.Numbered

theorem Turn.created_le (ht : Turn link w w') : w.created ≤ w'.created := by
  cases ht with
  | born => exact Nat.le_succ _
  | heirs hh => exact hh.created.ge

theorem Turns.created_le (ht : Turns link w w') : w.created ≤ w'.created := by
  induction ht with
  | refl => exact le_rfl
  | tail _ ht ih => exact ih.trans ht.created_le

namespace Ledger

variable {log ps : List Packet}

theorem heirs (h : Ledger w log) (hh : w.Heirs w') : Ledger w' log :=
  ⟨h.once, fun y hy hc h0 => hh.created ▸ h.old y hy hc h0,
    fun y hy hc h0 a hu => h.gone y hy hc h0 a (hh.inUse a _ hu)⟩

theorem born (h : Ledger w log) (hn : w.Numbered) (hlt : w.created + 1 < 2 ^ 32) :
    Ledger w.born log := by
  have hid : w.localSocketNextId = w.created + 1 := by
    have := hn.nextId
    rwa [Nat.mod_eq_of_lt (by omega)] at this
  refine ⟨h.once, fun y hy hc h0 => (h.old y hy hc h0).trans (Nat.le_succ _), ?_⟩
  rintro y hy hc h0 a ⟨s, hs, hloc, hcl, hys⟩
  by_cases ha : a = w.nextAddr
  · -- the new socket has an id that is larger than any that has been closed
    subst ha
    cases (socket_store w _ w.freshLocal).symm.trans hs
    have hle := h.old y hy hc h0
    have hnew : w.localSocketNextId = y.arg0 := hys
    omega
  · exact h.gone y hy hc h0 a ⟨s, (socket_store_ne w _ ha).symm.trans hs, hloc, hcl, hys⟩

/-- One more packet, which names no closed id. If it closes one, the id is out of use. -/
theorem snoc (h : Ledger w log) (hx : ∀ y ∈ log, y.command = .aClse → y.arg0 ≠ 0 → ¬ x.Names y.arg0)
    (hc : x.command = .aClse → x.arg0 ≠ 0 → x.arg0 ≤ w.created ∧ ∀ a, ¬ w.InUse a x.arg0) :
    Ledger w (log ++ [x]) := by
  refine ⟨pairwise_append.mpr ⟨h.once, pairwise_singleton _ _, ?_⟩, ?_, ?_⟩
  · intro y hy z hz
    rw [mem_singleton.mp hz]
    exact hx y hy
  · intro y hy hyc h0
    rcases mem_append.mp hy with hy | hy
    · exact h.old y hy hyc h0
    · rw [mem_singleton.mp hy] at hyc h0 ⊢
      exact (hc hyc h0).1
  · intro y hy hyc h0
    rcases mem_append.mp hy with hy | hy
    · exact h.gone y hy hyc h0
    · rw [mem_singleton.mp hy] at hyc h0 ⊢
      exact (hc hyc h0).2

theorem setup (h : Ledger w log) (hps : ∀ x ∈ ps, x.command.ofConnection = false) :
    Ledger w (log ++ ps) := by
  have hno : ∀ y ∈ ps, y.command ≠ .aClse := by
    intro y hy hc
    have := hps y hy
    rw [hc] at this
    cases this
  refine ⟨pairwise_append.mpr ⟨h.once, ?_, ?_⟩, ?_, ?_⟩
  · exact pairwise_of_forall_mem_list fun y hy _ _ hc => absurd hc (hno y hy)
  · intro y _ z hz _ _ hn
    exact absurd (hn.1.symm.trans (hps z hz)) (by simp)
  · intro y hy hc
    exact h.old y ((mem_append.mp hy).resolve_right fun hy => hno y hy hc) hc
  · intro y hy hc
    exact h.gone y ((mem_append.mp hy).resolve_right fun hy => hno y hy hc) hc

theorem speech (h : Ledger w log) (hn : w.Numbered) (hlt : w.created < 2 ^ 32)
    (hh : w.Heirs w') (hsp : Speech w w' ps) : Ledger w' (log ++ ps) := by
  -- a packet that names a socket in use names no closed id
  have hfree : ∀ {x : Packet} {a : Addr}, w.InUse a x.arg0 → ∀ y ∈ log, y.command = .aClse →
      y.arg0 ≠ 0 → ¬ x.Names y.arg0 := by
    intro x a hu y hy hc h0 hx
    exact h.gone y hy hc h0 a (hx.2 ▸ hu)
  cases hsp with
  | silent =>
    rw [append_nil]
    exact h.heirs hh
  | speaks hx hu => exact (h.heirs hh).snoc (hfree (hh.inUse _ _ hu)) fun hc => absurd hc hx
  | closes hu hgone =>
    refine (h.heirs hh).snoc (hfree hu) fun _ _ => ⟨?_, fun b hb => ?_⟩
    · rw [hh.created]
      exact (hn.id_le hu).2
    · have heq := hn.unique hlt (hh.inUse _ _ hb) hu
      exact hgone _ (heq ▸ hb)
  | refuses hx =>
    refine (h.heirs hh).snoc (fun y _ _ h0 hy => h0 (hy.2.symm.trans hx)) fun _ h0 => ?_
    exact absurd hx h0
  | setup hps => exact (h.heirs hh).setup hps

theorem turn {before : List Packet} (h : Ledger w (before ++ w.outbox link)) (hn : w.Numbered)
    (ht : Turn link w w') (hlt : w'.created < 2 ^ 32) : Ledger w' (before ++ w'.outbox link) := by
  cases ht with
  | born => exact h.born hn hlt
  | heirs hh hout hsp =>
    rw [hout, ← append_assoc]
    exact h.speech hn (hh.created ▸ hlt) hh hsp

theorem turns {before : List Packet} (h : Ledger w (before ++ w.outbox link)) (hn : w.Numbered)
    (ht : Turns link w w') (hlt : w'.created < 2 ^ 32) : Ledger w' (before ++ w'.outbox link) := by
  induction ht with
  | refl => exact h
  | tail hts ht ih => exact (ih (ht.created_le.trans_lt hlt)).turn (hn.turns hts) ht hlt

end Ledger

end Ledger

section Peers

/-- Two endpoints, and what each of them has sent and the other has received. -/
structure Peers where
  ends : Pair
  received : Bool → List Packet

def Action.carried (link : TransportId) : Action → Bool
  | .packet x t => t == link && x.command.ofConnection
  | _ => false

/-- Packets of connections come from the other end only, in the order in which they were sent. -/
def Peers.step (authEnabled : Bool) (link : TransportId) (u : Peers) : Event → Option Peers
  | .act b i =>
      if i.action.carried link then none
      else (Sockets.step b authEnabled (u.ends b) i).map fun v =>
        { u with ends := update u.ends b v }
  | .deliver b reads writes env =>
      match (u.ends !b).outbox link with
      | [] => none
      | x :: rest =>
          (Sockets.step b authEnabled (u.ends b) ⟨.packet x link, reads, writes, env⟩).map fun v =>
            { ends := update (update u.ends b v) (!b)
                ((u.ends !b).delivered link rest)
              received := update u.received (!b) (u.received (!b) ++ [x]) }

def Peers.init : Peers := ⟨fun _ => Server.init, fun _ => []⟩

def Peers.log (link : TransportId) (u : Peers) (b : Bool) : List Packet :=
  u.received b ++ (u.ends b).outbox link

variable {u u' : Peers}

/-- What one step of the two does: one endpoint takes a step, and the other one is as it was or has
its first packet delivered. -/
theorem Peers.step_cases {e : Event} (hs : Peers.step authEnabled link u e = some u') :
    ∃ b i, Sockets.step b authEnabled (u.ends b) i = some (u'.ends b) ∧
      u'.received b = u.received b ∧ u'.log link (!b) = u.log link (!b) ∧
      (u'.ends (!b) = u.ends (!b) ∨ ∃ rest, u'.ends (!b) = (u.ends !b).delivered link rest) := by
  cases e with
  | act b i =>
    simp only [Peers.step] at hs
    split at hs
    · cases hs
    · obtain ⟨v, hv, rfl⟩ := map_eq_some_iff.mp hs
      have hother : update u.ends b v (!b) = u.ends !b :=
        update_of_ne (by simp) _ _
      have hself : update u.ends b v b = v := update_self ..
      refine ⟨b, i, hv.trans (congrArg some hself.symm), rfl, ?_, Or.inl hother⟩
      simp only [Peers.log, hother]
  | deliver b reads writes env =>
    simp only [Peers.step] at hs
    split at hs
    · cases hs
    next x rest hbox =>
      obtain ⟨v, hv, rfl⟩ := map_eq_some_iff.mp hs
      have hne : b ≠ !b := by simp
      have hself : update (update u.ends b v) (!b)
          ((u.ends !b).delivered link rest) b = v :=
        (update_of_ne hne _ _).trans (update_self ..)
      have hdelivered : ((u.ends !b).delivered link rest).outbox link = rest :=
        update_self ..
      refine ⟨b, ⟨.packet x link, reads, writes, env⟩, hv.trans (congrArg some hself.symm),
        update_of_ne hne _ _, ?_, Or.inr ⟨rest, update_self ..⟩⟩
      simp only [Peers.log, update_self, hdelivered, hbox, append_assoc, singleton_append]

structure Peers.SoundAt (link : TransportId) (u : Peers) (b : Bool) : Prop where
  graph : Graph (u.ends b)
  numbered : (u.ends b).Numbered
  ledger : (u.ends b).created < 2 ^ 32 → Ledger (u.ends b) (u.log link b)

theorem Peers.SoundAt.step {e : Event} (h : ∀ b, u.SoundAt link b)
    (hs : Peers.step authEnabled link u e = some u') : ∀ b, u'.SoundAt link b := by
  obtain ⟨b, i, hb, hrec, hlog, hother⟩ := Peers.step_cases hs
  have hturns : Turns link (u.ends b) (u'.ends b) := step_turns (h b).graph hb
  refine (Bool.forall_bool' b).mpr ⟨⟨(h b).graph.step hb, (h b).numbered.turns hturns, ?_⟩, ?_⟩
  · intro hlt
    have hledger := (h b).ledger (hturns.created_le.trans_lt hlt)
    rw [Peers.log] at hledger ⊢
    rw [hrec]
    exact hledger.turns (h b).numbered hturns hlt
  · have hheirs : (u.ends !b).Heirs (u'.ends !b) := by
      rcases hother with hsame | ⟨rest, hsame⟩
      · rw [hsame]
        exact .refl _
      · rw [hsame]
        exact .congr ⟨rfl, rfl, rfl, rfl, le_rfl, fun _ => rfl⟩ rfl
    refine ⟨?_, (h !b).numbered.heirs hheirs, fun hlt => ?_⟩
    · rcases hother with hsame | ⟨rest, hsame⟩
      · rw [hsame]
        exact (h !b).graph
      · rw [hsame]
        exact (h !b).graph.congr rfl rfl rfl rfl rfl rfl rfl rfl
    · rw [hlog]
      exact ((h !b).ledger (hheirs.created ▸ hlt)).heirs hheirs

theorem Peers.SoundAt.run {K : Peers → Event → Prop}
    (hrun : Run (Peers.step authEnabled link) K .init u) : ∀ b, u.SoundAt link b := by
  refine hrun.invariant (I := fun u => ∀ b, u.SoundAt link b) (fun b => ?_)
    fun _ _ _ h _ hs => Peers.SoundAt.step h hs
  exact ⟨graph_init, .init, fun _ => ⟨List.Pairwise.nil, nofun, nofun⟩⟩

end Peers

section Unanswered

/-- The packet is for a stream that exists already. -/
def Command.ofStream : Command → Bool
  | .aOkay | .aClse | .aWrte => true
  | _ => false

theorem step_notOpen {j : Input} (h : Graph w) (hj : j.action = .packet x t)
    (hx : x.command.ofStream = true) (hno : ∀ a, ¬ w.InUse a x.arg1)
    (hs : step host authEnabled w j = some w') : w' = { w with reads := [], writes := [] } := by
  have hconn : x.command.ofConnection = true := by
    cases hc : x.command <;> rw [hc] at hx <;> first | rfl | cases hx
  have hfound : ∀ {k a}, (j.before w).findLocalSocket x.arg1 k ≠ .ok (some a) := by
    intro k a hf
    obtain ⟨s, hf'⟩ := found (j.graph_before h) hf
    exact hno a ⟨s, hf'.socket, hf'.isLocal, hf'.closing, hf'.id⟩
  have hopen : x.command ≠ .aOpen := fun hc => by
    rw [hc] at hx
    cases hx
  obtain ⟨w₁, hr, rfl⟩ := step_packet h hs hj hconn
  cases hr with
  | ignored => rfl
  | accept hc | refuse hc => exact absurd hc hopen
  | connect _ _ _ _ hf | resume _ _ _ _ hf | close _ _ _ hf | write _ _ _ _ hf
  | writeAll _ _ _ _ hf => exact absurd hf hfound

end Unanswered

/-- Each end closes each of its ids at most once and does not name it again, as long as fewer than
`2 ^ 32` sockets have been created there. A packet for a stream that is not open is never
answered. -/
theorem one_close_per_stream
    (hrun : Run (Peers.step authEnabled link) (fun _ _ => True) .init u) (b : Bool) :
    ((u.ends b).created < 2 ^ 32 → OneClose (u.log link b)) ∧
    ∀ (x : Packet) (t : TransportId) (j : Input) (v : Server), j.action = .packet x t →
      x.command.ofStream = true → (∀ a, ¬ (u.ends b).InUse a x.arg1) →
      step b authEnabled (u.ends b) j = some v → v.outbox = (u.ends b).outbox := by
  have h := Peers.SoundAt.run hrun b
  refine ⟨fun hlt => (h.ledger hlt).once, fun x t j v hj hx hno hs => ?_⟩
  rw [step_notOpen h.graph hj hx hno hs]

/-- The transport 0 is set up, a client of a forward is connected to the device and hangs up. -/
def partingRun : List Event :=
  [.act false (input (.packet ⟨.aCnxn, A_VERSION, MAX_PAYLOAD, text "host::"⟩ 0) [] []),
    .deliver true [] [] plainEnv,
    .act true (input (.acceptForward 0 (text "tcp:7")) [] []),
    .deliver false [] [] plainEnv,
    .deliver true [] [] plainEnv,
    .act true (input (.poll [(0, .fdeRead)]) [] []),
    .act true (input .dispatch [.data []] [])]

/-- The device closes its end of the stream too, and its `A_CLSE` arrives at a closed stream. -/
theorem one_close_parting : ∃ u, Run (Peers.step false 0) (fun _ _ => True) .init u ∧
    u.log 0 true = [⟨.aOpen, 1, 0, text "tcp:7" ++ [0]⟩, ⟨.aClse, 1, 1, []⟩] ∧
    (u.log 0 false).tail = [⟨.aOkay, 1, 1, []⟩, ⟨.aClse, 1, 1, []⟩] ∧
    ∀ b, OneClose (u.log 0 b) := by
  have hexec : (exec (Peers.step false 0) .init (partingRun ++
      [.deliver false [] [] plainEnv, .deliver true [] [] plainEnv])).map (fun u =>
        decide (u.log 0 true = [⟨.aOpen, 1, 0, text "tcp:7" ++ [0]⟩, ⟨.aClse, 1, 1, []⟩] ∧
          (u.log 0 false).tail = [⟨.aOkay, 1, 1, []⟩, ⟨.aClse, 1, 1, []⟩] ∧
          ∀ b, (u.ends b).created < 2 ^ 32)) = some true := by decide +kernel
  obtain ⟨u, hu, heq⟩ := map_eq_some_iff.mp hexec
  obtain ⟨hhost, hdevice, hlt⟩ := of_decide_eq_true heq
  have hrun : Run (Peers.step false 0) (fun _ _ => True) .init u :=
    run_of_exec (fun _ _ _ => trivial) hu
  exact ⟨u, hrun, hhost, hdevice, fun b => (one_close_per_stream hrun b).1 (hlt b)⟩

section Reuse

theorem Peers.run_home {b : Bool} {v : Server} (link : TransportId) (u : Peers)
    (hrun : Run (Sockets.step b authEnabled) (fun _ i => i.action.atHome = true) (u.ends b) v) :
    Run (Peers.step authEnabled link) (fun _ _ => True) u
      { u with ends := update u.ends b v } := by
  have hhome : ∀ s i s', i.action.atHome = true → Sockets.step b authEnabled s i = some s' →
      Peers.step authEnabled link { u with ends := update u.ends b s } (.act b i) =
        some { u with ends := update u.ends b s' } := by
    intro s i s' hhome hs
    have hcarried : i.action.carried link = false := by
      cases hi : i.action <;> rw [hi] at hhome <;> first | rfl | cases hhome
    have hself : update u.ends b s b = s := update_self ..
    simp only [Peers.step, hcarried, Bool.false_eq_true, if_false, hself, hs, map_some, update_idem]
  have hlift : Run (Peers.step authEnabled link) (fun _ _ => True)
      { u with ends := update u.ends b (u.ends b) }
      { u with ends := update u.ends b v } :=
    hrun.lift (fun s => { u with ends := update u.ends b s }) (.act b)
      fun s i s' hok hs => ⟨trivial, hhome s i s' hok hs⟩
  rwa [update_eq_self] at hlift

def parted : Peers := (exec (Peers.step false 0) .init partingRun).getD .init

def exhausted : Server :=
  { parted.ends true with
    nextAddr := (parted.ends true).nextAddr + 2 * (2 ^ 32 - 2)
    localSocketNextId := 1
    created := (parted.ends true).created + (2 ^ 32 - 2)
    owner := (visited^[2 ^ 32 - 2] (parted.ends true)).owner
    trace := (visited^[2 ^ 32 - 2] (parted.ends true)).trace }

theorem run_parted : Run (Peers.step false 0) (fun _ _ => True) .init parted ∧
    (parted.ends true).listPending = [] ∧ (parted.ends true).reads = [] ∧
    (parted.ends true).writes = [] ∧ (parted.ends true).localSocketNextId = 2 := by
  have hexec : (exec (Peers.step false 0) .init partingRun).isSome = true := by decide +kernel
  obtain ⟨u, hu⟩ := isSome_iff_exists.mp hexec
  have huo : parted = u := by rw [parted, hu, getD_some]
  refine ⟨?_, by decide +kernel⟩
  rw [huo]
  exact run_of_exec (fun _ _ _ => trivial) hu

theorem run_exhausted : Run (Peers.step false 0) (fun _ _ => True) .init
    { parted with ends := update parted.ends true exhausted } := by
  obtain ⟨hrun, hpend, hr, hw, hid⟩ := run_parted
  have hg := (Peers.SoundAt.run hrun true).graph
  have heq : visited^[2 ^ 32 - 2] (parted.ends true) = exhausted := by
    rw [visited_iterate _ hr hw, nextId_wraps _ hid]
    rfl
  have hvisits := Peers.run_home 0 parted (run_visited true false hg hpend (2 ^ 32 - 2))
  rw [heq] at hvisits
  exact hrun.trans hvisits

/-- The next client of the forward is given the id 1, and its `A_OPEN` names the id after the
`A_CLSE` for it. -/
theorem id_named_after_close : ∃ u, Run (Peers.step false 0) (fun _ _ => True) .init u ∧
    u.log 0 true = [⟨.aOpen, 1, 0, text "tcp:7" ++ [0]⟩, ⟨.aClse, 1, 1, []⟩,
      ⟨.aOpen, 1, 0, text "tcp:7" ++ [0]⟩] ∧ ¬ OneClose (u.log 0 true) := by
  have hexec : (exec (Peers.step false 0)
      { parted with ends := update parted.ends true exhausted }
      [.act true (input (.acceptForward 0 (text "tcp:7")) [] [])]).map (fun u =>
        decide (u.log 0 true = [⟨.aOpen, 1, 0, text "tcp:7" ++ [0]⟩, ⟨.aClse, 1, 1, []⟩,
          ⟨.aOpen, 1, 0, text "tcp:7" ++ [0]⟩])) = some true := by decide +kernel
  obtain ⟨u, hu, heq⟩ := map_eq_some_iff.mp hexec
  have hlog := of_decide_eq_true heq
  refine ⟨u, run_exhausted.trans (run_of_exec (fun _ _ _ => trivial) hu), hlog, fun hone => ?_⟩
  rw [hlog] at hone
  have hlast := (pairwise_cons.mp (pairwise_cons.mp hone).2).1
  exact hlast _ mem_cons_self rfl (by simp) ⟨rfl, rfl⟩

end Reuse

end PaxAdb.Sockets
