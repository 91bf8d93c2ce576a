import Mathlib.Data.Nat.Count
import PaxAdb.IdReuse
import PaxAdb.SocketTurns

/-!
# The numbers local sockets are given

`install_local_socket` numbers the sockets from 1 to `2 ^ 32 - 1` and begins again, whether the
sockets that have the numbers are still there or not. So the id of a socket is the number of sockets
created before it, taken modulo `2 ^ 32 - 1`, plus one.
-/

namespace PaxAdb.Sockets

open ASocket Server Runs

variable {w w' : Server} {a b : Addr} {i : ℕ} {host authEnabled : Bool} {link : TransportId}

def Server.birth (w : Server) (a : Addr) : ℕ := Nat.count (fun b => (w.trace b).bornId ≠ 0) a

structure Server.Numbered (w : Server) : Prop where
  created : w.birth w.nextAddr = w.created
  nextId : w.localSocketNextId = w.created % (2 ^ 32 - 1) + 1
  fresh : ∀ b, w.nextAddr ≤ b → (w.trace b).bornId = 0
  bornId : ∀ b, (w.trace b).bornId ≠ 0 → (w.trace b).bornId = w.birth b % (2 ^ 32 - 1) + 1
  inUse : ∀ a i, w.InUse a i → (w.trace a).bornId = i ∧ i ≠ 0

section Births

theorem birth_congr (h : ∀ b, b < a → (w'.trace b).bornId = (w.trace b).bornId) :
    w'.birth a = w.birth a := by
  induction a with
  | zero => rfl
  | succ a ih =>
    have hlast := h a (Nat.lt_succ_self a)
    have hrest := ih fun b hb => h b (hb.trans (Nat.lt_succ_self a))
    unfold birth at hrest ⊢
    rw [Nat.count_succ, Nat.count_succ, hrest, hlast]

theorem birth_past (h : ∀ b, w.nextAddr ≤ b → (w.trace b).bornId = 0) (ha : w.nextAddr ≤ a) :
    w.birth a = w.birth w.nextAddr := by
  obtain ⟨k, rfl⟩ := Nat.exists_eq_add_of_le ha
  induction k with
  | zero => rfl
  | succ k ih =>
    rw [← ih (Nat.le_add_right _ k), ← Nat.add_assoc]
    refine Nat.count_succ_eq_count_iff.mpr fun hne => hne ?_
    exact h _ (Nat.le_add_right _ k)

end Births

namespace Server.Numbered

theorem init : init.Numbered where
  created := rfl
  nextId := rfl
  fresh _ _ := rfl
  bornId _ hne := absurd rfl hne
  inUse a i hu := by
    obtain ⟨s, hs, _⟩ := hu
    cases hs

theorem heirs (h : w.Numbered) (hh : w.Heirs w') : w'.Numbered := by
  have hbirth : ∀ b, w'.birth b = w.birth b := fun b => birth_congr fun c _ => hh.bornId c
  refine ⟨?_, ?_, fun b hb => ?_, fun b hb => ?_, fun a i hu => ?_⟩
  · rw [hbirth, hh.created, birth_past h.fresh hh.addr, h.created]
  · rw [hh.nextId, hh.created]
    exact h.nextId
  · rw [hh.bornId]
    exact h.fresh b (hh.addr.trans hb)
  · rw [hh.bornId] at hb ⊢
    rw [hbirth]
    exact h.bornId b hb
  · rw [hh.bornId]
    exact h.inUse a i (hh.inUse a i hu)

theorem born (h : w.Numbered) : w.born.Numbered := by
  have hnew : w.born.trace w.nextAddr = { Trace.empty with bornId := w.localSocketNextId } :=
    Function.update_self _ _ _
  have hold : ∀ b, b ≠ w.nextAddr → w.born.trace b = w.trace b := fun b hb =>
    Function.update_of_ne hb _ _
  have hbirth : ∀ b, b ≤ w.nextAddr → w.born.birth b = w.birth b := fun b hb =>
    birth_congr fun c hc => by rw [hold c (hc.trans_le hb).ne]
  have hpos : (w.born.trace w.nextAddr).bornId ≠ 0 := by
    rw [hnew, h.nextId]
    exact Nat.succ_ne_zero _
  refine ⟨?_, ?_, fun b hb => ?_, fun b hb => ?_, ?_⟩
  · have hsucc : w.born.birth (w.nextAddr + 1) = w.born.birth w.nextAddr + 1 :=
      Nat.count_succ_eq_succ_count_iff.mpr hpos
    exact hsucc.trans (congrArg (· + 1) ((hbirth _ le_rfl).trans h.created))
  · change (if (w.localSocketNextId + 1) % 2 ^ 32 = 0 then 1
      else (w.localSocketNextId + 1) % 2 ^ 32) = (w.created + 1) % (2 ^ 32 - 1) + 1
    have hid := h.nextId
    split <;> omega
  · have hb : w.nextAddr + 1 ≤ b := hb
    rw [hold b (Nat.lt_of_succ_le hb).ne']
    exact h.fresh b (Nat.le_of_succ_le hb)
  · by_cases hbn : b = w.nextAddr
    · subst hbn
      rw [hnew, hbirth _ le_rfl, h.created]
      exact h.nextId
    · rw [hold b hbn] at hb ⊢
      have hlt : b < w.nextAddr := Nat.lt_of_not_le fun hle => hb (h.fresh b hle)
      rw [hbirth b hlt.le]
      exact h.bornId b hb
  · rintro a i ⟨s, hs, hloc, hc, rfl⟩
    by_cases han : a = w.nextAddr
    · subst han
      cases (socket_store w _ w.freshLocal).symm.trans hs
      rw [hnew] at hpos ⊢
      exact ⟨rfl, hpos⟩
    · rw [hold a han]
      exact h.inUse a s.id ⟨s, (socket_store_ne w _ han).symm.trans hs, hloc, hc, rfl⟩

theorem turn (h : w.Numbered) (ht : Turn link w w') : w'.Numbered := by
  cases ht with
  | born => exact h.born
  | heirs hh => exact h.heirs hh

theorem turns (h : w.Numbered) (ht : Turns link w w') : w'.Numbered := by
  induction ht with
  | refl => exact h
  | tail _ ht ih => exact ih.turn ht

theorem run {K : Server → Input → Prop} (hrun : Run (step host authEnabled) K .init w) :
    Graph w ∧ w.Numbered := by
  refine hrun.invariant (I := fun w => Graph w ∧ w.Numbered) ⟨graph_init, .init⟩ ?_
  rintro w i w' ⟨hg, hn⟩ _ hs
  have hturns : Turns 0 w w' := step_turns hg hs
  exact ⟨hg.step hs, hn.turns hturns⟩

/-- Two sockets in use have the same id if as many sockets were created before them, up to a
multiple of the number of ids. -/
theorem same_id_iff (h : w.Numbered) {j : ℕ} (ha : w.InUse a i) (hb : w.InUse b j) :
    i = j ↔ w.birth a % (2 ^ 32 - 1) = w.birth b % (2 ^ 32 - 1) := by
  obtain ⟨hai, hi⟩ := h.inUse a i ha
  obtain ⟨hbj, hj⟩ := h.inUse b j hb
  have hida := h.bornId a (hai ▸ hi)
  have hidb := h.bornId b (hbj ▸ hj)
  rw [← hai, ← hbj, hida, hidb]
  omega

end Server.Numbered

theorem mem_localSocketList (h : Graph w) :
    a ∈ w.localSocketList ↔ ∃ i, w.InUse a i := by
  constructor
  · intro hm
    cases ha : w.socket a with
    | none => exact absurd hm ((h.good a).gone ha).listed
    | some s =>
      obtain ⟨hloc, hc⟩ := (h.at_ ha).fit.listed.mp hm
      exact ⟨s.id, s, ha, hloc, hc, rfl⟩
  · rintro ⟨i, s, ha, hloc, hc, _⟩
    exact (h.at_ ha).fit.listed.mpr ⟨hloc, hc⟩

/-- The ids of the sockets on `local_socket_list` tell them apart. -/
structure Server.IdsUnique (w : Server) : Prop where
  nonzero : ∀ a ∈ w.localSocketList, ∀ s, w.socket a = some s → s.id ≠ 0
  unique : ∀ a ∈ w.localSocketList, ∀ b ∈ w.localSocketList, ∀ s q, w.socket a = some s →
    w.socket b = some q → s.id = q.id → a = b
  found : ∀ i j a, w.findLocalSocket i j = .ok (some a) → a ∈ w.localSocketList ∧
    (w.trace a).bornId = i ∧ ∀ b ∈ w.localSocketList, (w.trace b).bornId = i → b = a

/-- The ids are unique exactly as long as no two sockets on the list have been created a multiple of
`2 ^ 32 - 1` sockets apart. -/
theorem ids_unique_iff {w : Server}
    (hrun : Run (step host authEnabled) (fun _ _ => True) init w) :
    w.IdsUnique ↔ ∀ a ∈ w.localSocketList, ∀ b ∈ w.localSocketList,
      w.birth a % (2 ^ 32 - 1) = w.birth b % (2 ^ 32 - 1) → a = b := by
  obtain ⟨hg, hn⟩ := Server.Numbered.run hrun
  constructor
  · intro h a ha b hb heq
    obtain ⟨i, hai⟩ := (mem_localSocketList hg).mp ha
    obtain ⟨j, hbj⟩ := (mem_localSocketList hg).mp hb
    have hij := (hn.same_id_iff hai hbj).mpr heq
    obtain ⟨s, hs, _, _, rfl⟩ := hai
    obtain ⟨q, hq, _, _, rfl⟩ := hbj
    exact h.unique a ha b hb s q hs hq hij
  · intro h
    have hinUse : ∀ a ∈ w.localSocketList, ∀ s, w.socket a = some s → w.InUse a s.id := by
      intro a ha s hs
      obtain ⟨i, s', hs', hloc, hc, _⟩ := (mem_localSocketList hg).mp ha
      cases hs.symm.trans hs'
      exact ⟨s, hs, hloc, hc, rfl⟩
    have hunique : ∀ a b i, w.InUse a i → w.InUse b i → a = b := by
      intro a b i hai hbi
      exact h a ((mem_localSocketList hg).mpr ⟨i, hai⟩) b ((mem_localSocketList hg).mpr ⟨i, hbi⟩)
        ((hn.same_id_iff hai hbi).mp rfl)
    refine ⟨fun a ha s hs => (hn.inUse a _ (hinUse a ha s hs)).2, ?_, ?_⟩
    · intro a ha b hb s q hs hq hid
      have hbq := hinUse b hb q hq
      exact hunique a b s.id (hinUse a ha s hs) (hid ▸ hbq)
    · intro i j a hf
      obtain ⟨s, hfound⟩ := found hg hf
      have hai : w.InUse a i := ⟨s, hfound.socket, hfound.isLocal, hfound.closing, hfound.id⟩
      refine ⟨(mem_localSocketList hg).mpr ⟨i, hai⟩, (hn.inUse a i hai).1, fun b hb hbi => ?_⟩
      obtain ⟨k, hbk⟩ := (mem_localSocketList hg).mp hb
      have hk : k = i := (hn.inUse b k hbk).1.symm.trans hbi
      exact hunique b a i (hk ▸ hbk) hai

/-- A client of the server stays, and another one comes. -/
theorem ids_unique_two : ∃ w, Run (step true false) (fun _ _ => True) init w ∧
    w.localSocketList = [0, 2] ∧ w.IdsUnique := by
  have hexec : (exec (step true false) init
      [input .acceptSmart [] [], input .acceptSmart [] []]).map (fun w =>
        decide (w.localSocketList = [0, 2] ∧ w.birth 0 = 0 ∧ w.birth 2 = 1)) = some true := by
    decide +kernel
  obtain ⟨w, hw, heq⟩ := Option.map_eq_some_iff.mp hexec
  obtain ⟨hlist, h0, h2⟩ := of_decide_eq_true heq
  have hrun : Run (step true false) (fun _ _ => True) init w :=
    run_of_exec (fun _ _ _ => trivial) hw
  refine ⟨w, hrun, hlist, (ids_unique_iff hrun).mpr ?_⟩
  rw [hlist]
  simp [h0, h2]

section Reuse

def patient : Server := init.withClient .none []

theorem step_patient : step true false init (input .acceptSmart [] []) = some patient :=
  step_come true false rfl

theorem run_patient (k : ℕ) :
    Run (step true false) (fun _ _ => True) init (visited^[k] patient) := by
  have hcome : Run (step true false) (fun _ _ => True) init patient :=
    Relation.ReflTransGen.single ⟨_, trivial, step_patient⟩
  have hvisits := run_visited true false (graph_init.step step_patient) rfl k
  exact hcome.trans (hvisits.mono fun _ _ _ => trivial)

theorem patient_visited (k : ℕ) :
    (visited^[k] patient).nextAddr = 2 + 2 * k ∧
    (visited^[k] patient).localSocketList = [0] ∧
    (visited^[k] patient).listPending = [] ∧
    (visited^[k] patient).socket 0 = some (init.client .none) := by
  have heq := visited_iterate patient rfl rfl k
  exact ⟨congrArg nextAddr heq, congrArg localSocketList heq,
    congrArg listPending heq, congrFun (congrArg socket heq) 0⟩

/-- When the ids have been used up, the client that comes next has the id of the first one, and is
not found by it. -/
theorem id_given_twice : ∃ w a b s q, Run (step true false) (fun _ _ => True) init w ∧
    a ≠ b ∧ a ∈ w.localSocketList ∧ b ∈ w.localSocketList ∧ w.socket a = some s ∧
    w.socket b = some q ∧ s.id = 1 ∧ q.id = 1 ∧ w.findLocalSocket 1 0 = .ok (some a) := by
  obtain ⟨k, hid⟩ : ∃ k, (visited^[k] patient).localSocketNextId = 1 :=
    ⟨_, nextId_wraps patient rfl⟩
  obtain ⟨haddr, hlist, hpend, hsock⟩ := patient_visited k
  have hrun := (run_patient k).snoc trivial (step_come true false hpend)
  generalize visited^[k] patient = u at hid haddr hlist hsock hrun
  have hpos : 0 < 2 + 2 * k := by omega
  have hne : 0 ≠ u.nextAddr := haddr ▸ hpos.ne
  have hold : (u.withClient .none []).socket 0 = some (init.client .none) := by
    refine (socket_store_ne _ _ hne).trans ((socket_store_ne _ _ ?_).trans
      ((socket_store_ne u _ hne).trans hsock))
    exact (Nat.succ_ne_zero u.nextAddr).symm
  have hlisted : (u.withClient .none []).localSocketList = [0, u.nextAddr] :=
    congrArg (· ++ [u.nextAddr]) hlist
  refine ⟨_, 0, u.nextAddr, _, _, hrun, hne, ?_, ?_, hold, client_socket u .none [], rfl, hid, ?_⟩
  · rw [hlisted]
    exact List.mem_cons_self
  · rw [hlisted]
    exact List.mem_cons_of_mem _ List.mem_cons_self
  · unfold findLocalSocket
    rw [hlisted, List.find?_cons_of_pos (by rw [hold]; rfl)]
    simp only [get_eq hold, ok_bind, if_true, pure_eq_ok]

end Reuse

end PaxAdb.Sockets
