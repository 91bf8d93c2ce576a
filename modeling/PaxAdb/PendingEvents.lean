import PaxAdb.FdEvents

/-!
# Pending events

`list_pending` is a ring of the objects that have events for their callbacks. An object is marked as
pending exactly when it has events, whatever the kernel reports and whatever the callbacks do. What
`fdevent_set` leaves of them are the events that are not wanted any more.
-/

namespace PaxAdb.FdEvents

open Function (update update_self update_of_ne)
open Cells Ring Runs Links Loop List

variable {p : Platform} {m m' : Links (Node p)} {a b : Pointer p} {l : List (Pointer p)}

section PendingList

abbrev Holds (m : Links (Node p)) (l : List (Pointer p)) : Prop := IsRing m .head (l.map .fde)

theorem fde_injective : Function.Injective (Node.fde : Pointer p → Node p) :=
  fun _ _ => Node.fde.inj

theorem fde_mem_map : Node.fde a ∈ l.map Node.fde ↔ a ∈ l := by
  rw [mem_map_of_injective fde_injective]

theorem ne_null_of_mem {x : Node p} (hx : x ∈ Node.head :: l.map Node.fde) : x ≠ .null := by
  rintro rfl
  rcases mem_cons.mp hx with hx | hx
  · cases hx
  · obtain ⟨a, _, ha⟩ := mem_map.mp hx
    cases ha

theorem Holds.clearLinks (h : Holds m l) (ha : a ∉ l) : Holds (clearLinks m a) l := by
  have hne : ∀ x ∈ Node.head :: l.map Node.fde, x ≠ .fde a := by
    rintro x hx rfl
    rcases mem_cons.mp hx with hx | hx
    · cases hx
    · exact ha (fde_mem_map.mp hx)
  apply h.frame
  · intro x hx
    exact update_of_ne (hne x hx) _ _
  · intro x hx
    exact update_of_ne (hne x hx) _ _

theorem plistEnqueue_ok (h : Holds m l) (ha : a ∉ l) :
    ∃ m', plistEnqueue m a = .ok m' ∧ Holds m' (l ++ [a]) := by
  have hne : Node.fde a ≠ .head := nofun
  have hx : Node.fde a ∉ Node.head :: l.map Node.fde := by
    rw [mem_cons, not_or, fde_mem_map]
    exact ⟨hne, ha⟩
  obtain ⟨pre, hpre, _⟩ := h.prev_head
  have hlast : m.prev .head ≠ .null := ne_null_of_mem (l := l) (by rw [hpre]; simp)
  refine ⟨m.insertTail .head (.fde a), ?_, ?_⟩
  · rw [insertTail_eq m hne]
    simp only [plistEnqueue, setNext, setPrev, update_self, if_neg hlast]
  · rw [Holds, map_append]
    exact h.insertTail hx

theorem Holds.taken (h : Holds m l) (ha : a ∈ l) :
    Holds (FdEvents.clearLinks (m.unlink (.fde a)) a) (l.erase a) := by
  have hnodup : l.Nodup := (nodup_map_iff fde_injective).mp (nodup_cons.mp h.2).2
  have hring : Holds (m.unlink (.fde a)) (l.erase a) := by
    have := h.unlink (fde_mem_map.mpr ha)
    rwa [← map_erase fde_injective] at this
  exact hring.clearLinks hnodup.not_mem_erase

theorem plistRemove_ok (h : Holds m l) (ha : a ∈ l) :
    ∃ m', plistRemove m a = .ok m' ∧ Holds m' (l.erase a) := by
  have hmem := fde_mem_map.mpr ha
  have hprev : m.prev (.fde a) ≠ .null := ne_null_of_mem (h.prev_mem hmem)
  have hnext : m.next (.fde a) ≠ .null := ne_null_of_mem (h.next_mem hmem)
  have hsame : update m.next (m.prev (.fde a)) (m.next (.fde a)) (.fde a) =
      m.next (.fde a) := by
    by_cases hx : Node.fde a = m.prev (.fde a)
    · rw [← hx, update_self]
    · rw [update_of_ne hx]
  refine ⟨_, ?_, h.taken ha⟩
  rw [unlink_eq]
  simp only [plistRemove, setNext, setPrev, if_neg hprev, hsame, if_neg hnext]

theorem plistDequeue_nil (h : Holds m []) : plistDequeue m = .ok none := by
  have hnext : m.next .head = .head := (isChain_pair.mp h.1).1
  simp only [plistDequeue, hnext]

theorem plistDequeue_cons (h : Holds m (a :: l)) :
    ∃ m', plistDequeue m = .ok (some (a, m')) ∧ Holds m' l := by
  have hjoined : m.Joined .head (.fde a) := (isChain_cons_cons.mp h.1).1
  have hnext : m.next (.fde a) ≠ .null :=
    ne_null_of_mem (h.next_mem (fde_mem_map.mpr mem_cons_self))
  have htaken := h.taken mem_cons_self
  rw [erase_cons_head] at htaken
  refine ⟨_, ?_, htaken⟩
  rw [unlink_eq, hjoined.2]
  simp only [plistDequeue, hjoined.1, setNext, setPrev, update_self, if_neg hnext]

end PendingList

variable {w w' : Loop p} {x : Fde} {events : BitVec 8} {i : ℕ}

def Yields (P : Loop p → Prop) : Except Fault (Loop p) → Prop
  | .ok w => P w
  | .error _ => True

section Yields

variable {P Q : Loop p → Prop} {y : Except Fault (Loop p)}

theorem Yields.bind {f : Loop p → Except Fault (Loop p)} (h : Yields P y)
    (hf : ∀ w, P w → Yields Q (f w)) : Yields Q (y >>= f) := by
  cases y with
  | error e => trivial
  | ok w => exact hf w h

theorem Yields.of_step {x : Action p} (h : Yields P (w.run x)) (hs : w.step x = some w') :
    P w' := by
  unfold step at hs
  cases hrun : w.run x with
  | error e =>
    rw [hrun] at hs
    cases hs
  | ok w₁ =>
    rw [hrun] at hs h
    cases hs
    exact h

theorem Yields.ite {c : Prop} [Decidable c] {y z : Except Fault (Loop p)} (h : c → Yields P y)
    (h' : ¬ c → Yields P z) : Yields P (if c then y else z) := by
  split
  next hc => exact h hc
  next hc => exact h' hc

end Yields

@[simp] theorem heap_setFde (w : Loop p) (a : Pointer p) (x : Fde) : (w.setFde a x).heap a = x := by
  simp only [setFde, update_self]

theorem heap_setFde_ne (w : Loop p) (x : Fde) (h : b ≠ a) : (w.setFde a x).heap b = w.heap b := by
  simp only [setFde, update_of_ne h]

section Paired

def Fde.Paired (x : Fde) : Prop := x.pending = true ↔ x.events ≠ 0

def Loop.Paired (w : Loop p) : Prop := ∀ a, (w.heap a).Paired

theorem Loop.Paired.setFde (h : w.Paired) (hx : x.Paired) : (w.setFde a x).Paired := by
  intro b
  by_cases hb : b = a
  · rw [hb, heap_setFde]
    exact hx
  · rw [heap_setFde_ne _ _ hb]
    exact h b

theorem or_ne_zero {u v : BitVec 8} (h : v ≠ 0) : u ||| v ≠ 0 :=
  fun hz => h (BitVec.or_eq_zero_iff.mp hz).2

namespace Loop.Paired

section Paired

variable (h : w.Paired)

include h

theorem unlinkFde : Yields Loop.Paired (w.unlinkFde a) := by
  unfold Loop.unlinkFde
  cases plistRemove w.links a with
  | error e => trivial
  | ok m => exact h

theorem fdeventUpdate : Yields Loop.Paired (w.fdeventUpdate a events) := by
  unfold Loop.fdeventUpdate
  cases inFdSet (w.heap a).fd with
  | error e => trivial
  | ok _ => exact h.setFde (h a)

theorem dropEvents : Yields Loop.Paired (w.dropEvents a events) := by
  unfold Loop.dropEvents
  apply Yields.ite
  · intro hp
    apply Yields.ite
    · intro hleft
      refine h.unlinkFde.bind fun w' h' => h'.setFde ?_
      simp [Fde.Paired, hleft]
    · intro hleft
      exact h.setFde (by simpa [Fde.Paired, hp] using hleft)
  · exact fun _ => h

theorem fdeventSet (ev : BitVec 32) : Yields Loop.Paired (w.fdeventSet a ev) := by
  unfold Loop.fdeventSet
  apply Yields.ite
  · exact fun _ => h
  · intro _
    have hupd : Yields Loop.Paired (w.updateActive a (ev.setWidth 8)) :=
      Yields.ite (fun _ => h.fdeventUpdate) fun _ => h
    refine hupd.bind fun w' h' => dropEvents (h'.setFde ?_)
    exact h' a

theorem fdeventRegister (fresh : Option Memory) :
    Yields Loop.Paired (w.fdeventRegister a fresh) := by
  unfold Loop.fdeventRegister
  cases w.table.register a (w.heap a).fd fresh with
  | error e => trivial
  | ok t =>
    change Loop.Paired (if _ then _ else _)
    split
    · exact h
    · exact h

theorem fdeventConnect : (w.fdeventConnect a).Paired := by
  unfold Loop.fdeventConnect
  split
  · exact h
  · exact h

theorem fdeventInstall (fd : ℤ) (fresh : Option Memory) :
    Yields Loop.Paired (w.fdeventInstall a fd fresh) := by
  have hnew : (w.prepared a fd).Paired := setFde h (by simp [Fde.Paired])
  refine Yields.bind (hnew.fdeventRegister fresh) fun w' h' => ?_
  exact h'.fdeventConnect

theorem fdeventRemove : Yields Loop.Paired (w.fdeventRemove a) := by
  have hunlink : Yields Loop.Paired (w.unlinkPending a) :=
    Yields.ite (fun _ => h.unlinkFde) fun _ => h
  refine hunlink.bind fun w₁ h₁ => ?_
  have hdisc : Yields Loop.Paired (w₁.disconnectActive a) := by
    refine Yields.ite (fun _ => ?_) fun _ => h₁
    have hclr : Yields Loop.Paired (w₁.fdeventDisconnect a) := by
      unfold fdeventDisconnect
      cases inFdSet (w₁.heap a).fd with
      | error e => trivial
      | ok _ => exact h₁
    refine hclr.bind fun w₂ h₂ => ?_
    unfold fdeventUnregister
    dsimp only
    cases w₂.table.unregister a (w₂.heap a).fd with
    | error e => trivial
    | ok t => exact h₂
  exact hdisc.bind fun w₂ h₂ => h₂.setFde (by simp [Fde.Paired])

theorem report (hne : events ≠ 0) : Yields Loop.Paired (w.report a events) := by
  have hor := or_ne_zero (u := (w.heap a).events) hne
  refine Yields.ite (fun hp => ?_) fun _ => ?_
  · have hp : (w.heap a).pending = true := hp
    exact h.setFde (by simp only [Fde.Paired, hp, ne_eq, hor, not_false_eq_true])
  · cases plistEnqueue w.links a with
    | error e => trivial
    | ok m => exact h.setFde (by simp only [Fde.Paired, ne_eq, hor, not_false_eq_true])

end Paired

theorem processLoop (s : FdSets) (is : List ℕ) (n : ℤ) (h : w.Paired) :
    Yields Loop.Paired (w.processLoop s is n) := by
  induction is generalizing n w with
  | nil => exact h
  | cons i is ih =>
    refine Yields.ite (fun _ => h) fun _ => ?_
    refine Yields.ite (fun _ => ih _ h) fun hne => ?_
    cases w.table.slot i with
    | none => trivial
    | some a => exact (h.report hne).bind fun w' h' => ih _ h'

theorem fdeventCallFdfunc (h : w.Paired) (a : Pointer p) : (w.fdeventCallFdfunc a).Paired := by
  unfold Loop.fdeventCallFdfunc
  dsimp only
  split
  · exact h.setFde (by simp [Fde.Paired])
  next hp => exact h.setFde (by simp [Fde.Paired, hp])

theorem subprocExited (h : w.Paired) (fd rcount : ℤ) : (w.subprocExited fd rcount).Paired := by
  unfold Loop.subprocExited
  split
  · exact h
  · split
    · exact h
    next b _ =>
      have hread : ∀ u : BitVec 8, u ||| FDE_READ ≠ 0 := fun u => or_ne_zero (by decide)
      have h₁ : (w.setFde b { w.heap b with forceEof := true }).Paired := h.setFde (h b)
      split
      · exact h
      · dsimp only
        split
        · exact h₁
        · split
          next hp =>
            have hread := hread ((w.setFde b { w.heap b with forceEof := true }).heap b).events
            exact h₁.setFde (by simp only [Fde.Paired, hp, ne_eq, hread, not_false_eq_true])
          · have hread := hread ((w.setFde b { w.heap b with forceEof := true }).heap b).events
            refine fdeventCallFdfunc (h₁.setFde ?_) b
            simp only [Fde.Paired, ne_eq, hread, not_false_eq_true]

theorem run (h : w.Paired) (x : Action p) : Yields Loop.Paired (w.run x) := by
  cases x with
  | install a fd fresh => exact h.fdeventInstall fd fresh
  | create a fd fresh => exact (h.fdeventInstall fd fresh).bind fun w' h' => h'.setFde (h' a)
  | remove a => exact h.fdeventRemove
  | destroy a => exact Yields.ite (fun _ => h.fdeventRemove) fun _ => trivial
  | set a ev => exact h.fdeventSet ev
  | add | del => exact h.fdeventSet _
  | process x => exact Yields.ite (fun _ => h) fun _ => h.processLoop _ _ _
  | dispatch =>
    change Yields Loop.Paired w.dispatch
    unfold dispatch
    split
    · trivial
    · exact h
    next a links _ =>
      have hl : Loop.Paired { w with links := links } := h
      exact hl.fdeventCallFdfunc a
  | subproc fd ev input rcount =>
    refine Yields.ite (fun _ => trivial) fun _ => ?_
    split
    · trivial
    · refine (h.fdeventSet _).bind fun w' h' => ?_
      refine Yields.ite (fun _ => h') fun _ => ?_
      cases input with
      | none => trivial
      | some fd' => exact h'.subprocExited fd' rcount

end Loop.Paired

end Paired

section Interest

def Loop.OnList (w : Loop p) (a : Pointer p) : Prop :=
  ∃ n, Node.fde a ∈ w.links.walk .head n (w.links.next .head)

/-- The events kept for the callback are those that are still wanted, and the object stays on the
list if there are any. -/
def FollowsInterest (w : Loop p) (a : Pointer p) (ev : BitVec 32) : Prop :=
  (w.heap a).pending = true → (w.heap a).interest ≠ ev.setWidth 8 →
    ∃ w', w.fdeventSet a ev = .ok w' ∧
      (w'.heap a).events = (w.heap a).events &&& ev.setWidth 8 ∧
      (w'.OnList a ↔ (w.heap a).events &&& ev.setWidth 8 ≠ 0)

theorem updateActive_heap (h : w.updateActive a events = .ok w') :
    (w'.heap a).events = (w.heap a).events ∧ (w'.heap a).pending = (w.heap a).pending := by
  unfold updateActive at h
  split at h
  · unfold fdeventUpdate at h
    cases hset : inFdSet (w.heap a).fd with
    | error e =>
      rw [hset] at h
      cases h
    | ok _ =>
      rw [hset] at h
      cases h
      simp
  · cases h
    exact ⟨rfl, rfl⟩

theorem dropEvents_events (hp : (w.heap a).pending = true) (h : w.dropEvents a events = .ok w') :
    (w'.heap a).events = (w.heap a).events &&& ~~~events := by
  unfold dropEvents at h
  simp only [hp, if_true] at h
  split at h
  · cases hun : w.unlinkFde a with
    | error e =>
      rw [hun] at h
      cases h
    | ok w₁ =>
      rw [hun] at h
      cases h
      simp
  · cases h
    simp

/-- What `fdevent_set` leaves of the events of a pending object are those not asked for. -/
theorem fdeventSet_events {ev : BitVec 32} (hp : (w.heap a).pending = true)
    (hne : (w.heap a).interest ≠ ev.setWidth 8) (h : w.fdeventSet a ev = .ok w') :
    (w'.heap a).events = (w.heap a).events &&& ~~~ (ev.setWidth 8) := by
  unfold fdeventSet at h
  simp only [hne, if_false] at h
  cases hupd : w.updateActive a (ev.setWidth 8) with
  | error e =>
    rw [hupd] at h
    cases h
  | ok w₁ =>
    rw [hupd] at h
    obtain ⟨hev, hpend⟩ := updateActive_heap hupd
    have hdrop := dropEvents_events (by simp [hpend, hp]) h
    rw [hdrop, heap_setFde]
    change (w₁.heap a).events &&& _ = _
    rw [hev]

theorem eq_zero_of_and_eq {u v : BitVec 8} (h : u &&& v = u &&& ~~~v) : u = 0 := by
  have hzero : u &&& v = 0 := by
    calc u &&& v = (u &&& v) &&& v := by rw [BitVec.and_assoc, BitVec.and_self]
      _ = (u &&& ~~~v) &&& v := by rw [h]
      _ = 0 := by rw [BitVec.and_assoc, BitVec.and_comm (~~~v) v]; simp
  have hall : v ||| ~~~v = BitVec.allOnes 8 := by
    ext i hi
    simp
  calc u = u &&& (v ||| ~~~v) := by rw [hall, BitVec.and_allOnes]
    _ = (u &&& v) ||| (u &&& ~~~v) := by rw [BitVec.and_or_distrib_left]
    _ = 0 := by rw [← h, hzero, BitVec.or_self]

/-- For a pending object the events never follow a change of the interest. -/
theorem follows_interest_iff {w : Loop p} (hrun : Run step (fun _ _ => True) init w)
    (a : Pointer p) (ev : BitVec 32) : FollowsInterest w a ev ↔
      ¬ ((w.heap a).pending = true ∧ (w.heap a).interest ≠ ev.setWidth 8) := by
  have hpaired : w.Paired :=
    hrun.invariant (fun a => by simp [init, Fde.Paired])
      fun w x w' h _ hs => (h.run x).of_step hs
  constructor
  · rintro hfollows ⟨hp, hne⟩
    obtain ⟨w', hset, hevents, _⟩ := hfollows hp hne
    rw [fdeventSet_events hp hne hset] at hevents
    exact (hpaired a).mp hp (eq_zero_of_and_eq hevents.symm)
  · intro hno hp hne
    exact absurd ⟨hp, hne⟩ hno

def readableRun : List (Action linux64) :=
  [.install somewhere 3 (some fun _ => 0), .set somewhere 1,
    .process ⟨1, .other, {3}, ∅, ∅, fun _ => false⟩]

theorem follows_interest_readable : ∃ w, exec step init readableRun = some w ∧
    (w.heap somewhere).pending = true ∧ (w.heap somewhere).events = FDE_READ ∧
    ¬ FollowsInterest w somewhere 3 := by
  have hexec : (exec step init readableRun).map (fun w =>
      decide ((w.heap somewhere).pending = true ∧
        (w.heap somewhere).events = FDE_READ ∧
        (w.heap somewhere).interest ≠ BitVec.setWidth 8 (3 : BitVec 32))) = some true := by
    decide +kernel
  obtain ⟨w, hw, heq⟩ := Option.map_eq_some_iff.mp hexec
  obtain ⟨hp, hev, hne⟩ := of_decide_eq_true heq
  have hrun : Run step (fun _ _ => True) init w := run_of_exec (fun _ _ _ => trivial) hw
  refine ⟨w, hw, hp, hev, fun hfollows => ?_⟩
  exact (follows_interest_iff hrun somewhere 3).mp hfollows ⟨hp, hne⟩

/-- The object is waited for as writable too, and the event that is still wanted is gone. -/
theorem wanted_event_dropped : ∃ w w', exec step init readableRun = some w ∧
    (w.heap somewhere).pending = true ∧ (w.heap somewhere).interest ≠ 3 ∧
    (w.heap somewhere).events &&& 3 = FDE_READ ∧
    w.fdeventSet somewhere 3 = .ok w' ∧ (w'.heap somewhere).events = 0 ∧
    w'.links.next .head = .head := by
  have hexec : (exec step init readableRun).map (fun w =>
      decide ((w.heap somewhere).pending = true ∧ (w.heap somewhere).interest ≠ 3 ∧
        (w.heap somewhere).events &&& 3 = FDE_READ) &&
      ((w.fdeventSet somewhere 3).toOption.any fun w' =>
        decide ((w'.heap somewhere).events = 0 ∧ w'.links.next .head = .head))) =
      some true := by decide +kernel
  obtain ⟨w, hw, heq⟩ := Option.map_eq_some_iff.mp hexec
  obtain ⟨hbefore, hafter⟩ := (Bool.and_eq_true _ _).mp heq
  obtain ⟨hp, hne, hev⟩ := of_decide_eq_true hbefore
  obtain ⟨w', hw', hgone⟩ := (Option.any_eq_true _ _).mp hafter
  have hset : w.fdeventSet somewhere 3 = .ok w' := by
    cases hs : w.fdeventSet somewhere 3 with
    | error e =>
      rw [hs] at hw'
      cases hw'
    | ok w₁ =>
      rw [hs] at hw'
      cases hw'
      rfl
  exact ⟨w, w', hw, hp, hne, hev, hset, of_decide_eq_true hgone⟩

end Interest

end PaxAdb.FdEvents
