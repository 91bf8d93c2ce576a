import PaxAdb.PendingEvents

/-!
# Bookkeeping of the event loop

The table, the three sets of `select`, `select_n` and `list_pending` say the same about the
registered objects. This holds in every run in which no object is installed again before it was
removed, whatever the kernel reports and whatever the callbacks do.
-/

namespace PaxAdb.FdEvents

open Function (update update_self update_of_ne update_idem)
open Cells Ring Runs Loop List Option

variable {p : Platform} {w w' : Loop p} {a b : Pointer p} {x : Fde} {events bit : BitVec 8}
  {fds : Finset ℕ} {i : ℕ} {l : List (Pointer p)}

def Watches (w : Loop p) (fds : Finset ℕ) (bit : BitVec 8) : Prop :=
  ∀ i : ℕ, i ∈ fds ↔
    ∃ a, (w.heap a).active = true ∧ (w.heap a).fd = i ∧ (w.heap a).interest &&& bit ≠ 0

structure Tables (w : Loop p) : Prop where
  slot : ∀ i < w.table.max, ∀ a, w.table.slot i = some a ↔
    (w.heap a).active = true ∧ (w.heap a).fd = i
  range : ∀ a, (w.heap a).active = true →
    0 ≤ (w.heap a).fd ∧ (w.heap a).fd < w.selectN ∧ (w.heap a).fd < FD_SETSIZE
  bound : w.selectN ≤ w.table.max
  read : Watches w w.readFds FDE_READ
  write : Watches w w.writeFds FDE_WRITE
  error : Watches w w.errorFds FDE_ERROR

structure Queue (w : Loop p) (l : List (Pointer p)) : Prop where
  ring : Holds w.links l
  mem : ∀ a, a ∈ l ↔ (w.heap a).pending = true
  active : ∀ a, (w.heap a).pending = true → (w.heap a).active = true

structure InOrder (w : Loop p) : Prop where
  tables : Tables w
  queue : ∃ l, Queue w l

section Tables

def Fde.SameUse (x y : Fde) : Prop := x.fd = y.fd ∧ x.active = y.active ∧ x.interest = y.interest

theorem Fde.SameUse.refl (x : Fde) : x.SameUse x := ⟨rfl, rfl, rfl⟩

theorem Watches.congr (h : Watches w fds bit) (hheap : ∀ b, (w'.heap b).SameUse (w.heap b)) :
    Watches w' fds bit := by
  intro i
  rw [h i]
  apply exists_congr
  intro b
  obtain ⟨hfd, hact, hint⟩ := hheap b
  rw [hfd, hact, hint]

theorem Tables.congr (h : Tables w) (hheap : ∀ b, (w'.heap b).SameUse (w.heap b))
    (ht : w'.table = w.table) (hn : w'.selectN = w.selectN) (hr : w'.readFds = w.readFds)
    (hw : w'.writeFds = w.writeFds) (he : w'.errorFds = w.errorFds) : Tables w' where
  slot i hi b := by
    rw [ht] at hi ⊢
    obtain ⟨hfd, hact, _⟩ := hheap b
    rw [hfd, hact]
    exact h.slot i hi b
  range b hb := by
    obtain ⟨hfd, hact, _⟩ := hheap b
    rw [hact] at hb
    rw [hfd, hn]
    exact h.range b hb
  bound := by
    rw [ht, hn]
    exact h.bound
  read := by
    rw [hr]
    exact h.read.congr hheap
  write := by
    rw [hw]
    exact h.write.congr hheap
  error := by
    rw [he]
    exact h.error.congr hheap

theorem sameUse_setFde (hx : x.SameUse (w.heap a)) (b : Pointer p) :
    ((w.setFde a x).heap b).SameUse (w.heap b) := by
  by_cases hb : b = a
  · rw [hb, heap_setFde]
    exact hx
  · rw [heap_setFde_ne _ _ hb]
    exact .refl _

theorem Tables.setFde (h : Tables w) (hx : x.SameUse (w.heap a)) : Tables (w.setFde a x) :=
  h.congr (sameUse_setFde hx) rfl rfl rfl rfl rfl

theorem Tables.at_ (h : Tables w) (ha : (w.heap a).active = true) :
    (((w.heap a).fd.toNat : ℕ) : ℤ) = (w.heap a).fd ∧ (w.heap a).fd.toNat < w.selectN ∧
      (w.heap a).fd.toNat < w.table.max ∧ w.table.slot (w.heap a).fd.toNat = some a := by
  obtain ⟨hpos, hlt, _⟩ := h.range a ha
  have hfd : (((w.heap a).fd.toNat : ℕ) : ℤ) = (w.heap a).fd := Int.toNat_of_nonneg hpos
  have hn : (w.heap a).fd.toNat < w.selectN := by omega
  have hmax := hn.trans_le h.bound
  exact ⟨hfd, hn, hmax, (h.slot _ hmax a).mpr ⟨ha, hfd.symm⟩⟩

theorem Tables.inj (h : Tables w) (ha : (w.heap a).active = true) (hb : (w.heap b).active = true)
    (hfd : (w.heap a).fd = (w.heap b).fd) : a = b := by
  have hsa := (h.at_ ha).2.2.2
  have hsb := (h.at_ hb).2.2.2
  rw [hfd, hsb] at hsa
  exact (some.inj hsa).symm

theorem Tables.inFdSet (h : Tables w) (ha : (w.heap a).active = true) :
    inFdSet (w.heap a).fd = .ok () := by
  obtain ⟨hpos, _, hlt⟩ := h.range a ha
  exact if_pos ⟨hpos, hlt⟩

theorem mem_setFd {fd : ℕ} : i ∈ setFd fds fd events bit ↔
    (i = fd ∧ events &&& bit ≠ 0) ∨ (i ≠ fd ∧ i ∈ fds) := by
  unfold setFd
  by_cases hi : i = fd
  · split
    next hbit => simpa [hi] using hbit
    next hbit => simpa [hi] using hbit
  · split
    · simp [hi]
    · simp [hi]

/-- The use of a registered object changes, but not its descriptor. -/
theorem Watches.replace {fds' : Finset ℕ} (h : Watches w fds bit) (ht : Tables w)
    (ha : (w.heap a).active = true) (hheap : w'.heap = update w.heap a x)
    (hfd : x.active = true → x.fd = (w.heap a).fd)
    (hmem : ∀ i, i ∈ fds' ↔ i = (w.heap a).fd.toNat ∧ x.active = true ∧ x.interest &&& bit ≠ 0 ∨
      i ≠ (w.heap a).fd.toNat ∧ i ∈ fds) : Watches w' fds' bit := by
  have hnat := (ht.at_ ha).1
  intro i
  rw [hmem, h i, hheap]
  constructor
  · rintro (⟨rfl, hact, hbit⟩ | ⟨hne, b, hb, hbi, hbit⟩)
    · refine ⟨a, ?_⟩
      rw [update_self]
      exact ⟨hact, (hfd hact).trans hnat.symm, hbit⟩
    · have hba : b ≠ a := by
        rintro rfl
        omega
      refine ⟨b, ?_⟩
      rw [update_of_ne hba]
      exact ⟨hb, hbi, hbit⟩
  · rintro ⟨b, hb, hbi, hbit⟩
    by_cases hba : b = a
    · rw [hba, update_self] at hb hbi hbit
      have := hfd hb
      exact .inl ⟨by omega, hb, hbit⟩
    · rw [update_of_ne hba] at hb hbi hbit
      refine .inr ⟨fun hi => hba ?_, b, hb, hbi, hbit⟩
      exact ht.inj hb ha (by omega)

theorem Watches.unwatched (h : Watches w fds bit) (ha : (w.heap a).active = false)
    (hheap : w'.heap = update w.heap a x) (hx : x.active = true → x.interest = 0) :
    Watches w' fds bit := by
  intro i
  rw [h i, hheap]
  refine exists_congr fun b => ?_
  by_cases hb : b = a
  · rw [hb, update_self]
    refine iff_of_false (by simp [ha]) ?_
    rintro ⟨hact, -, hbit⟩
    exact hbit (by simp [hx hact])
  · rw [update_of_ne hb]

end Tables

section Set

theorem fdeventUpdate_ok (h : Tables w) (ha : (w.heap a).active = true) (events : BitVec 8) :
    ∃ w', w.fdeventUpdate a events = .ok w' ∧ Tables w' ∧ w'.links = w.links ∧
      w'.heap = update w.heap a { w.heap a with interest := events } := by
  refine ⟨{ w.setFde a { w.heap a with interest := events } with
    readFds := setFd w.readFds (w.heap a).fd.toNat events FDE_READ
    writeFds := setFd w.writeFds (w.heap a).fd.toNat events FDE_WRITE
    errorFds := setFd w.errorFds (w.heap a).fd.toNat events FDE_ERROR }, ?_, ?_, rfl, rfl⟩
  · unfold fdeventUpdate
    rw [h.inFdSet ha]
    rfl
  · have hkey : ∀ b, ((w.setFde a { w.heap a with interest := events }).heap b).fd = (w.heap b).fd ∧
        ((w.setFde a { w.heap a with interest := events }).heap b).active = (w.heap b).active := by
      intro b
      by_cases hb : b = a
      · rw [hb, heap_setFde]
        exact ⟨rfl, rfl⟩
      · rw [heap_setFde_ne _ _ hb]
        exact ⟨rfl, rfl⟩
    constructor
    · intro i hi b
      have := h.slot i hi b
      rwa [← (hkey b).1, ← (hkey b).2] at this
    · intro b hb
      have hb' : (w.heap b).active = true := (hkey b).2.symm.trans hb
      have := h.range b hb'
      rwa [← (hkey b).1] at this
    · exact h.bound
    · exact h.read.replace h ha rfl (fun _ => rfl) fun i => by simp [mem_setFd, ha]
    · exact h.write.replace h ha rfl (fun _ => rfl) fun i => by simp [mem_setFd, ha]
    · exact h.error.replace h ha rfl (fun _ => rfl) fun i => by simp [mem_setFd, ha]

theorem Tables.inactive (h : Tables w) (ha : (w.heap a).active = false) (hx : x.active = false) :
    Tables (w.setFde a x) where
  slot i hi b := by
    by_cases hb : b = a
    · rw [hb, heap_setFde, hx]
      exact (h.slot i hi a).trans (by simp [ha])
    · rw [heap_setFde_ne _ _ hb]
      exact h.slot i hi b
  range b hb := by
    have hba : b ≠ a := by
      rintro rfl
      rw [heap_setFde, hx] at hb
      cases hb
    rw [heap_setFde_ne _ _ hba] at hb ⊢
    exact h.range b hb
  bound := h.bound
  read := h.read.unwatched ha rfl (by simp [hx])
  write := h.write.unwatched ha rfl (by simp [hx])
  error := h.error.unwatched ha rfl (by simp [hx])

theorem Queue.nodup (h : Queue w l) : l.Nodup :=
  (nodup_map_iff fde_injective).mp (nodup_cons.mp h.ring.2).2

theorem Queue.congr (h : Queue w l) (hl : w'.links = w.links)
    (hheap : ∀ b, (w'.heap b).pending = (w.heap b).pending ∧
      (w'.heap b).active = (w.heap b).active) : Queue w' l where
  ring := by
    rw [hl]
    exact h.ring
  mem b := by
    rw [(hheap b).1]
    exact h.mem b
  active b hb := by
    rw [(hheap b).1] at hb
    rw [(hheap b).2]
    exact h.active b hb

theorem Queue.setFde (h : Queue w l) (hp : x.pending = (w.heap a).pending)
    (hact : x.active = (w.heap a).active) : Queue (w.setFde a x) l := by
  refine h.congr rfl fun b => ?_
  by_cases hb : b = a
  · rw [hb, heap_setFde]
    exact ⟨hp, hact⟩
  · rw [heap_setFde_ne _ _ hb]
    exact ⟨rfl, rfl⟩

theorem Queue.leave (h : Queue w l) {m : Links (Node p)} (hm : Holds m (l.erase a))
    (hw : w'.links = m) (hheap : w'.heap = update w.heap a x) (hx : x.pending = false) :
    Queue w' (l.erase a) := by
  have hne : ∀ b, b ≠ a → w'.heap b = w.heap b := by
    intro b hb
    rw [hheap, update_of_ne hb]
  have hself : w'.heap a = x := by rw [hheap, update_self]
  constructor
  · rw [hw]
    exact hm
  · intro b
    by_cases hb : b = a
    · rw [hb, hself, hx]
      simp [h.nodup.not_mem_erase]
    · rw [hne b hb, mem_erase_of_ne hb, h.mem b]
  · intro b hb
    by_cases hba : b = a
    · rw [hba, hself, hx] at hb
      cases hb
    · rw [hne b hba] at hb ⊢
      exact h.active b hb

theorem unlinkFde_ok (h : Queue w l) (ha : a ∈ l) :
    ∃ m, w.unlinkFde a = .ok { w with links := m } ∧ Holds m (l.erase a) := by
  obtain ⟨m, hm, hholds⟩ := plistRemove_ok h.ring ha
  refine ⟨m, ?_, hholds⟩
  unfold unlinkFde
  rw [hm]
  rfl

theorem dropEvents_ok (h : InOrder w) (events : BitVec 8) :
    ∃ w', w.dropEvents a events = .ok w' ∧ InOrder w' := by
  obtain ⟨l, hq⟩ := h.queue
  unfold dropEvents
  dsimp only
  split
  next hp =>
    split
    · obtain ⟨m, hm, hholds⟩ := unlinkFde_ok hq ((hq.mem a).mpr hp)
      rw [hm]
      refine ⟨_, rfl, ?_, _, hq.leave hholds rfl rfl rfl⟩
      exact h.tables.congr (sameUse_setFde ⟨rfl, rfl, rfl⟩) rfl rfl rfl rfl rfl
    · exact ⟨_, rfl, h.tables.setFde ⟨rfl, rfl, rfl⟩, l, hq.setFde rfl rfl⟩
  · exact ⟨w, rfl, h⟩

theorem updateActive_ok (h : InOrder w) (events : BitVec 8) :
    ∃ w', w.updateActive a events = .ok w' ∧
      InOrder (w'.setFde a { w'.heap a with interest := events }) := by
  obtain ⟨l, hq⟩ := h.queue
  unfold updateActive
  split
  next ha =>
    obtain ⟨w', hw', ht, hlinks, hheap⟩ := fdeventUpdate_ok h.tables ha events
    have hself : w'.heap a = { w.heap a with interest := events } := by
      rw [hheap, update_self]
    have hq' : Queue w' l := by
      apply hq.congr hlinks
      intro b
      by_cases hb : b = a
      · rw [hb, hself]
        exact ⟨rfl, rfl⟩
      · rw [hheap, update_of_ne hb]
        exact ⟨rfl, rfl⟩
    refine ⟨w', hw', ht.setFde ⟨rfl, rfl, ?_⟩, l, hq'.setFde rfl rfl⟩
    rw [hself]
  next ha =>
    have ha : (w.heap a).active = false := by simpa using ha
    exact ⟨w, rfl, h.tables.inactive ha ha, l, hq.setFde rfl rfl⟩

theorem fdeventSet_ok (h : InOrder w) (ev : BitVec 32) :
    ∃ w', w.fdeventSet a ev = .ok w' ∧ InOrder w' := by
  unfold fdeventSet
  dsimp only
  split
  · exact ⟨w, rfl, h⟩
  · obtain ⟨w₁, hw₁, h₁⟩ := updateActive_ok (a := a) h (ev.setWidth 8)
    obtain ⟨w₂, hw₂, h₂⟩ := dropEvents_ok (a := a) h₁ (ev.setWidth 8)
    rw [hw₁]
    exact ⟨w₂, hw₂, h₂⟩

end Set

section Remove

theorem lastUsed_spec (w : Loop p) : (∀ i < w.selectN, (w.table.slot i).isSome → i ≤ w.lastUsed) ∧
    (0 < w.selectN → w.lastUsed < w.selectN) := by
  unfold lastUsed
  induction w.selectN with
  | zero => simp
  | succ n ih =>
    obtain ⟨hle, hlt⟩ := ih
    rw [range_succ, foldl_append, foldl_cons, foldl_nil]
    split
    · exact ⟨fun i hi _ => Nat.lt_succ_iff.mp hi, fun _ => Nat.lt_succ_self n⟩
    next hn =>
      constructor
      · intro i hi hs
        rcases Nat.lt_succ_iff_lt_or_eq.mp hi with hi | rfl
        · exact hle i hi hs
        · exact absurd hs hn
      · intro _
        cases n with
        | zero => simp
        | succ n => exact (hlt (Nat.succ_pos n)).trans (Nat.lt_succ_self _)

theorem Tables.leave (h : Tables w) (ha : (w.heap a).active = true) (hx : x.active = false)
    (hheap : w'.heap = update w.heap a x)
    (ht : w'.table = w.table.setSlot (w.heap a).fd.toNat none)
    (hn : w'.selectN = w.lastUsed + 1)
    (hr : w'.readFds = w.readFds.erase (w.heap a).fd.toNat)
    (hw : w'.writeFds = w.writeFds.erase (w.heap a).fd.toNat)
    (he : w'.errorFds = w.errorFds.erase (w.heap a).fd.toNat) : Tables w' := by
  obtain ⟨hnat, hselect, hmax, hslot⟩ := h.at_ ha
  obtain ⟨hle, hlt⟩ := lastUsed_spec w
  have hself : w'.heap a = x := by rw [hheap, update_self]
  have hother : ∀ b, b ≠ a → w'.heap b = w.heap b := by
    intro b hb
    rw [hheap, update_of_ne hb]
  constructor
  · intro i hi b
    rw [ht, max_setSlot] at hi
    rw [ht, slot_setSlot]
    by_cases hb : b = a
    · rw [hb, hself, hx]
      split
      · simp
      next hne =>
        have : w.table.slot i ≠ some a := by
          intro hs
          have := ((h.slot i hi a).mp hs).2
          omega
        simp [this]
    · rw [hother b hb]
      split
      next hi =>
        have : ¬ ((w.heap b).active = true ∧ (w.heap b).fd = i) := by
          rintro ⟨hact, hfd⟩
          exact hb (h.inj hact ha (by omega))
        simp [this]
      · exact h.slot i hi b
  · intro b hb
    by_cases hba : b = a
    · rw [hba, hself, hx] at hb
      cases hb
    · rw [hother b hba] at hb ⊢
      obtain ⟨hpos, _, hsize⟩ := h.range b hb
      obtain ⟨hbnat, hbn, _, hbs⟩ := h.at_ hb
      have := hle _ hbn (by rw [hbs]; rfl)
      rw [hn]
      exact ⟨hpos, by omega, hsize⟩
  · rw [ht, hn, max_setSlot]
    have := hlt (Nat.zero_lt_of_lt hselect)
    have := h.bound
    omega
  · exact h.read.replace h ha hheap (by simp [hx]) fun i => by simp [hr, hx]
  · exact h.write.replace h ha hheap (by simp [hx]) fun i => by simp [hw, hx]
  · exact h.error.replace h ha hheap (by simp [hx]) fun i => by simp [he, hx]

theorem unlinkPending_ok (h : Queue w l) :
    ∃ m, w.unlinkPending a = .ok { w with links := m } ∧ Holds m (l.erase a) := by
  unfold unlinkPending
  split
  next hp => exact unlinkFde_ok h ((h.mem a).mpr hp)
  next hp =>
    refine ⟨w.links, rfl, ?_⟩
    rw [erase_of_not_mem (fun ha => hp ((h.mem a).mp ha))]
    exact h.ring

theorem disconnectActive_ok (h : Tables w) (ha : (w.heap a).active = true) :
    w.disconnectActive a = .ok { w with
      readFds := w.readFds.erase (w.heap a).fd.toNat
      writeFds := w.writeFds.erase (w.heap a).fd.toNat
      errorFds := w.errorFds.erase (w.heap a).fd.toNat
      selectN := w.lastUsed + 1
      table := w.table.setSlot (w.heap a).fd.toNat none
      closed := if (w.heap a).interest &&& FDE_DONT_CLOSE = 0
        then w.closed ++ [(w.heap a).fd] else w.closed } := by
  obtain ⟨_, _, hmax, hslot⟩ := h.at_ ha
  have hpos := (h.range a ha).1
  have hunreg : w.table.unregister a (w.heap a).fd =
      .ok (w.table.setSlot (w.heap a).fd.toNat none) := by
    unfold FdTable.unregister
    rw [if_neg (by omega), if_neg (by simp [hslot])]
  unfold disconnectActive fdeventDisconnect
  rw [if_pos ha, h.inFdSet ha]
  change fdeventUnregister _ a = _
  unfold fdeventUnregister
  dsimp only
  rw [hunreg]
  rfl

theorem fdeventRemove_ok (h : InOrder w) : ∃ w', w.fdeventRemove a = .ok w' ∧ InOrder w' := by
  obtain ⟨l, hq⟩ := h.queue
  obtain ⟨m, hm, hholds⟩ := unlinkPending_ok (a := a) hq
  have ht : Tables { w with links := m } := h.tables.congr (fun b => .refl _) rfl rfl rfl rfl rfl
  have hrest : w.fdeventRemove a = (do
      let w ← disconnectActive { w with links := m } a
      return w.setFde a { w.heap a with
        interest := 0, active := false, pending := false, created := false, events := 0 }) := by
    unfold fdeventRemove
    rw [hm]
    rfl
  rw [hrest]
  cases ha : (w.heap a).active with
  | false =>
    have hdisc : disconnectActive { w with links := m } a = .ok { w with links := m } :=
      if_neg (by simp [ha])
    rw [hdisc]
    exact ⟨_, rfl, ht.inactive ha rfl, l.erase a, hq.leave hholds rfl rfl rfl⟩
  | true =>
    rw [disconnectActive_ok ht ha]
    exact ⟨_, rfl, ht.leave ha rfl rfl rfl rfl rfl rfl rfl, l.erase a, hq.leave hholds rfl rfl rfl⟩

end Remove

section Install

variable {t t' : FdTable p} {fd : ℤ} {fresh : Option Memory}

/-- The memory `realloc` returns reads as `NULL`. -/
def NullFilled (p : Platform) (fresh : Option Memory) : Prop :=
  ∀ f, fresh = some f → ∀ i, load p.sizeofPtr f i = 0

theorem register_slots (hreg : t.register a fd fresh = .ok t') (hnull : NullFilled p fresh) :
    t.max ≤ t'.max ∧ fd.toNat < t'.max ∧ t'.slot fd.toNat = some a ∧
      (∀ i < t.max, i ≠ fd.toNat → t'.slot i = t.slot i) ∧
      ∀ i, t.max ≤ i → i ≠ fd.toNat → i < t'.max → t'.slot i = none := by
  obtain ⟨_, ⟨hlt, rfl⟩ | ⟨hge, f, rfl, rfl⟩⟩ := register_ok hreg
  · refine ⟨le_rfl, hlt, slot_setSlot_self, fun i _ hne => slot_setSlot_ne hne, ?_⟩
    intro i hle _ hi
    exact absurd hi (not_lt.mpr hle)
  · refine ⟨le_newMax _ _, lt_newMax _ _, slot_setSlot_self, fun i hi hne => ?_, ?_⟩
    · rw [slot_setSlot_ne hne, slot_grow_old hi]
    · intro i hle hne _
      rw [slot_setSlot_ne hne]
      exact slot_grow_clear hle (hnull f rfl i)

theorem Tables.prepared (h : Tables w) (ha : (w.heap a).active = false)
    (hfd : ∀ b, (w.heap b).active = true → (w.heap b).fd ≠ fd) (hsize : fd < FD_SETSIZE)
    (hnull : NullFilled p fresh) (hreg : w.table.register a fd fresh = .ok t')
    (hheap : w'.heap = update w.heap a ⟨fd, false, 0, true, false, false, 0⟩)
    (ht : w'.table = t')
    (hn : w'.selectN = if (w.selectN : ℤ) ≤ fd then fd.toNat + 1 else w.selectN)
    (hr : Watches w w'.readFds FDE_READ) (hw : Watches w w'.writeFds FDE_WRITE)
    (he : Watches w w'.errorFds FDE_ERROR) : Tables w' := by
  have hpos := (register_ok hreg).1
  have hnat : ((fd.toNat : ℕ) : ℤ) = fd := Int.toNat_of_nonneg hpos
  obtain ⟨hmax, hlt, hself, hold, hnew⟩ := register_slots hreg hnull
  have hheapa : w'.heap a = ⟨fd, false, 0, true, false, false, 0⟩ := by
    rw [hheap, update_self]
  have hother : ∀ b, b ≠ a → w'.heap b = w.heap b := by
    intro b hb
    rw [hheap, update_of_ne hb]
  constructor
  · intro i hi b
    rw [ht] at hi ⊢
    by_cases hb : b = a
    · rw [hb, hheapa]
      by_cases hfdi : i = fd.toNat
      · rw [hfdi, hself]
        simp [hnat]
      · have hfdne : fd ≠ i := by omega
        by_cases hio : i < w.table.max
        · rw [hold i hio hfdi, h.slot i hio a]
          simp [ha, hfdne]
        · rw [hnew i (not_lt.mp hio) hfdi hi]
          simp [hfdne]
    · rw [hother b hb]
      by_cases hfdi : i = fd.toNat
      · have : ¬ ((w.heap b).active = true ∧ (w.heap b).fd = i) := by
          rintro ⟨hact, hbi⟩
          exact hfd b hact (by omega)
        rw [hfdi] at this ⊢
        rw [hself, some.injEq]
        exact iff_of_false (Ne.symm hb) this
      · by_cases hio : i < w.table.max
        · rw [hold i hio hfdi, h.slot i hio b]
        · have : ¬ ((w.heap b).active = true ∧ (w.heap b).fd = i) := by
            rintro ⟨hact, hbi⟩
            have := (h.at_ hact).2.2.1
            omega
          rw [hnew i (not_lt.mp hio) hfdi hi]
          simp [this]
  · intro b hb
    by_cases hba : b = a
    · rw [hba, hheapa, hn]
      refine ⟨hpos, ?_, hsize⟩
      dsimp only
      split <;> omega
    · rw [hother b hba] at hb ⊢
      obtain ⟨hbpos, hbn, hbsize⟩ := h.range b hb
      rw [hn]
      refine ⟨hbpos, ?_, hbsize⟩
      split <;> omega
  · have := h.bound
    rw [ht, hn]
    split <;> omega
  · exact hr.unwatched ha hheap fun _ => rfl
  · exact hw.unwatched ha hheap fun _ => rfl
  · exact he.unwatched ha hheap fun _ => rfl

theorem Queue.prepared (h : Queue w l) (fd : ℤ) (ha : (w.heap a).active = false)
    (hlinks : w'.links = clearLinks w.links a)
    (hheap : w'.heap = update w.heap a ⟨fd, false, 0, true, false, false, 0⟩) :
    Queue w' l := by
  have hp : (w.heap a).pending = false := by
    by_contra hp
    have := h.active a (by simpa using hp)
    simp [ha] at this
  have hal : a ∉ l := by
    rw [h.mem a, hp]
    simp
  constructor
  · rw [hlinks]
    exact h.ring.clearLinks hal
  · intro b
    by_cases hb : b = a
    · rw [hb, hheap, update_self]
      simp [hal]
    · rw [hheap, update_of_ne hb]
      exact h.mem b
  · intro b hb
    by_cases hba : b = a
    · rw [hba, hheap, update_self]
    · rw [hheap, update_of_ne hba] at hb ⊢
      exact h.active b hb

theorem Watches.empty (h : Tables w) (hmax : w.table.max = 0) (bit : BitVec 8) :
    Watches w ∅ bit := by
  intro i
  simp only [Finset.notMem_empty, false_iff, not_exists]
  rintro b ⟨hb, _⟩
  have := (h.at_ hb).2.2.1
  omega

theorem fdeventRegister_eq (hreg : w.table.register a (w.heap a).fd fresh = .ok t') :
    w.fdeventRegister a fresh = .ok { w with
      table := t'
      readFds := if w.table.max = 0 then ∅ else w.readFds
      writeFds := if w.table.max = 0 then ∅ else w.writeFds
      errorFds := if w.table.max = 0 then ∅ else w.errorFds } := by
  unfold fdeventRegister
  rw [hreg]
  change Except.ok _ = _
  split <;> rfl

theorem fdeventConnect_eq (w : Loop p) (a : Pointer p) : w.fdeventConnect a = { w with
    selectN :=
      if (w.selectN : ℤ) ≤ (w.heap a).fd then (w.heap a).fd.toNat + 1 else w.selectN } := by
  unfold fdeventConnect
  split <;> rfl

theorem fdeventInstall_ok (h : InOrder w) (ha : (w.heap a).active = false)
    (hfd : ∀ b, (w.heap b).active = true → (w.heap b).fd ≠ fd) (hsize : fd < FD_SETSIZE)
    (hnull : NullFilled p fresh) : Yields InOrder (w.fdeventInstall a fd fresh) := by
  obtain ⟨l, hq⟩ := h.queue
  have hobj : ((w.prepared a fd).heap a).fd = fd := by
    simp only [prepared, update_self]
  have hsets : ∀ fds bit, Watches w fds bit →
      Watches w (if w.table.max = 0 then ∅ else fds) bit := by
    intro fds bit hw
    split
    next hmax => exact .empty h.tables hmax bit
    · exact hw
  cases hreg : w.table.register a fd fresh with
  | error e =>
    unfold fdeventInstall fdeventRegister
    rw [hobj, show (w.prepared a fd).table = w.table from rfl, hreg]
    trivial
  | ok t' =>
    unfold fdeventInstall
    have hreg' : (w.prepared a fd).table.register a ((w.prepared a fd).heap a).fd fresh =
        .ok t' := by
      rw [hobj]
      exact hreg
    rw [fdeventRegister_eq hreg']
    change InOrder (fdeventConnect _ a)
    rw [fdeventConnect_eq]
    dsimp only
    rw [hobj]
    refine ⟨?_, l, hq.prepared fd ha rfl rfl⟩
    exact h.tables.prepared ha hfd hsize hnull hreg rfl rfl rfl (hsets _ _ h.tables.read)
      (hsets _ _ h.tables.write) (hsets _ _ h.tables.error)

end Install

section Process

theorem report_ok (h : InOrder w) (ha : (w.heap a).active = true) (events : BitVec 8) :
    ∃ w', w.report a events = .ok w' ∧ InOrder w' ∧ w'.table = w.table := by
  obtain ⟨l, hq⟩ := h.queue
  unfold report
  dsimp only
  split
  · exact ⟨_, rfl, ⟨h.tables.setFde ⟨rfl, rfl, rfl⟩, l, hq.setFde rfl rfl⟩, rfl⟩
  next hp =>
    have hal : a ∉ l := fun hm => hp ((hq.mem a).mp hm)
    obtain ⟨m, hm, hholds⟩ := plistEnqueue_ok hq.ring hal
    rw [hm]
    refine ⟨_, rfl, ⟨?_, l ++ [a], hholds, fun b => ?_, fun b hb => ?_⟩, rfl⟩
    · exact h.tables.congr (sameUse_setFde ⟨rfl, rfl, rfl⟩) rfl rfl rfl rfl rfl
    · by_cases hb : b = a
      · simp [hb, setFde]
      · simp [hb, setFde, hq.mem b]
    · by_cases hba : b = a
      · simpa [hba, setFde] using ha
      · simp only [setFde, update_of_ne hba] at hb ⊢
        exact hq.active b hb

def Known (t : FdTable p) (s : FdSets) (i : ℕ) : Prop :=
  s.events i ≠ 0 → i < t.max ∧ ∃ a, t.slot i = some a

theorem processLoop_ok (s : FdSets) (is : List ℕ) (n : ℤ) (h : InOrder w)
    (hknown : ∀ i ∈ is, Known w.table s i) :
    ∃ w', w.processLoop s is n = .ok w' ∧ InOrder w' := by
  induction is generalizing n w with
  | nil => exact ⟨w, rfl, h⟩
  | cons i is ih =>
    have hrest : ∀ j ∈ is, Known w.table s j := fun j hj => hknown j (mem_cons_of_mem i hj)
    unfold processLoop
    split
    · exact ⟨w, rfl, h⟩
    · split
      · exact ih _ h hrest
      next hne =>
        obtain ⟨hi, a, hslot⟩ := hknown i mem_cons_self hne
        have ha := ((h.tables.slot i hi a).mp hslot).1
        obtain ⟨w₁, hw₁, h₁, htable⟩ := report_ok h ha (s.events i)
        rw [hslot]
        dsimp only
        rw [hw₁]
        exact ih _ h₁ (htable ▸ hrest)

theorem Watches.known (h : Watches w fds bit) (ht : Tables w) (hi : i ∈ fds) :
    i < w.table.max ∧ ∃ a, w.table.slot i = some a := by
  obtain ⟨a, ha, hfd, _⟩ := (h i).mp hi
  obtain ⟨_, _, hmax, hslot⟩ := ht.at_ ha
  rw [hfd, Int.toNat_natCast] at hmax hslot
  exact ⟨hmax, a, hslot⟩

theorem mem_of_events {s : FdSets} (h : s.events i ≠ 0) : i ∈ s.r ∨ i ∈ s.w ∨ i ∈ s.e := by
  by_contra hno
  simp only [not_or] at hno
  exact h (by simp [FdSets.events, hno.1, hno.2.1, hno.2.2])

theorem selectedSets_known (h : Tables w) (x : Selected) (i : ℕ) :
    Known w.table (w.selectedSets x) i := by
  have hkept : ∀ fds bit (kept : Finset ℕ), Watches w fds bit →
      i ∈ (if x.n < 0 then ∅ else fds ∩ kept) → i < w.table.max ∧ ∃ a, w.table.slot i = some a := by
    intro fds bit kept hw hi
    split at hi
    · simp at hi
    · exact hw.known h (Finset.mem_inter.mp hi).1
  have hbad : i ∈ w.badFds x.bad → i < w.table.max ∧ ∃ a, w.table.slot i = some a := by
    intro hi
    simp only [badFds, mem_filter, mem_range, Bool.and_eq_true] at hi
    exact ⟨hi.1.trans_le h.bound, isSome_iff_exists.mp hi.2.1⟩
  intro hne
  rcases mem_of_events hne with hr | hw | he
  · unfold selectedSets at hr
    dsimp only at hr
    split at hr
    · rcases Finset.mem_union.mp hr with hr | hr
      · exact hkept _ _ _ h.read hr
      · exact hbad (mem_toFinset.mp hr)
    · exact hkept _ _ _ h.read hr
  · exact hkept _ _ _ h.write hw
  · exact hkept _ _ _ h.error he

theorem fdeventProcess_ok (h : InOrder w) (x : Selected) :
    ∃ w', w.fdeventProcess x = .ok w' ∧ InOrder w' := by
  unfold fdeventProcess
  split
  · exact ⟨w, rfl, h⟩
  · exact processLoop_ok _ _ _ h fun i _ => selectedSets_known h.tables x i

theorem fdeventCallFdfunc_ok (ht : Tables w) {m : Links (Node p)} (hq : Queue w l)
    (hholds : Holds m (l.erase a)) : InOrder (fdeventCallFdfunc { w with links := m } a) := by
  unfold fdeventCallFdfunc
  dsimp only
  split
  · refine ⟨?_, l.erase a, hq.leave hholds rfl rfl rfl⟩
    exact ht.congr (sameUse_setFde ⟨rfl, rfl, rfl⟩) rfl rfl rfl rfl rfl
  next hp =>
    refine ⟨?_, l.erase a, hq.leave hholds rfl rfl (by simpa using hp)⟩
    exact ht.congr (sameUse_setFde ⟨rfl, rfl, rfl⟩) rfl rfl rfl rfl rfl

theorem dispatch_ok (h : InOrder w) : ∃ w', w.dispatch = .ok w' ∧ InOrder w' := by
  obtain ⟨l, hq⟩ := h.queue
  unfold dispatch
  cases l with
  | nil =>
    rw [plistDequeue_nil hq.ring]
    exact ⟨w, rfl, h⟩
  | cons a l =>
    obtain ⟨m, hm, hholds⟩ := plistDequeue_cons hq.ring
    rw [hm]
    refine ⟨_, rfl, fdeventCallFdfunc_ok h.tables hq ?_⟩
    rwa [erase_cons_head]

end Process

section Subproc

theorem callNow_ok (h : InOrder w) (hp : (w.heap a).pending = false) (hx : x.SameUse (w.heap a)) :
    InOrder ((w.setFde a { x with pending := true }).fdeventCallFdfunc a) := by
  obtain ⟨l, hq⟩ := h.queue
  have hcall : (w.setFde a { x with pending := true }).fdeventCallFdfunc a =
      { w.setFde a { x with events := 0, pending := false } with
        calls := w.calls ++ [⟨a, x.fd, x.events⟩] } := by
    unfold fdeventCallFdfunc
    simp only [heap_setFde, if_true]
    simp only [setFde, update_idem]
  rw [hcall]
  have ht : Tables (w.setFde a { x with events := 0, pending := false }) := h.tables.setFde hx
  have hq : Queue (w.setFde a { x with events := 0, pending := false }) l :=
    hq.setFde hp.symm hx.2.1
  exact ⟨ht.congr (fun b => .refl _) rfl rfl rfl rfl rfl, l, hq.congr rfl fun b => ⟨rfl, rfl⟩⟩

theorem subprocExited_ok (h : InOrder w) (fd rcount : ℤ) : InOrder (w.subprocExited fd rcount) := by
  obtain ⟨l, hq⟩ := h.queue
  unfold subprocExited
  split
  · exact h
  · split
    · exact h
    next b _ =>
      split
      · exact h
      · have ht₁ : Tables (w.setFde b { w.heap b with forceEof := true }) :=
          h.tables.setFde ⟨rfl, rfl, rfl⟩
        have hq₁ : Queue (w.setFde b { w.heap b with forceEof := true }) l := hq.setFde rfl rfl
        dsimp only
        split
        · exact ⟨ht₁, l, hq₁⟩
        · split
          · exact ⟨ht₁.setFde ⟨rfl, rfl, rfl⟩, l, hq₁.setFde rfl rfl⟩
          next hp =>
            set w₁ := w.setFde b { w.heap b with forceEof := true }
            have hcall := callNow_ok
              (x := { w₁.heap b with events := (w₁.heap b).events ||| FDE_READ })
              ⟨ht₁, l, hq₁⟩ (by simpa using hp) ⟨rfl, rfl, rfl⟩
            exact hcall

theorem fdeventSubprocEventFunc_ok (h : InOrder w) (fd : ℤ) (ev : BitVec 8) (input : Option ℤ)
    (rcount : ℤ) : Yields InOrder (w.fdeventSubprocEventFunc fd ev input rcount) := by
  refine Yields.ite (fun _ => trivial) fun _ => ?_
  split
  · trivial
  next a _ =>
    obtain ⟨w₁, hw₁, h₁⟩ := fdeventSet_ok (a := a) h
      (((w.heap a).interest ||| (FDE_READ.setWidth 32).setWidth 8).setWidth 32)
    have hadd : w.fdeventAdd a (FDE_READ.setWidth 32) = .ok w₁ := hw₁
    rw [hadd]
    refine Yields.ite (fun _ => h₁) fun _ => ?_
    cases input with
    | none => trivial
    | some fd' => exact subprocExited_ok h₁ fd' rcount

end Subproc

section Runs

/-- Fresh memory is clear, and descriptors are distinct and fit into the sets. -/
def Distinct (w : Loop p) : Action p → Prop
  | .install _ fd fresh | .create _ fd fresh =>
      NullFilled p fresh ∧ (∀ b, (w.heap b).active = true → (w.heap b).fd ≠ fd) ∧ fd < FD_SETSIZE
  | _ => True

def Uninstalled (w : Loop p) : Action p → Prop
  | .install a _ _ | .create a _ _ => (w.heap a).active = false
  | _ => True

def Allowed (w : Loop p) (x : Action p) : Prop :=
  Distinct w x ∧ Uninstalled w x

theorem Yields.of_ok {P : Loop p → Prop} {y : Except Fault (Loop p)}
    (h : ∃ w', y = .ok w' ∧ P w') : Yields P y := by
  obtain ⟨w', rfl, hw'⟩ := h
  exact hw'

theorem inOrder_run (h : InOrder w) {x : Action p} (hx : Allowed w x) :
    Yields InOrder (w.run x) := by
  cases x with
  | install a fd fresh =>
    obtain ⟨⟨hnull, hfd, hsize⟩, ha⟩ := hx
    exact fdeventInstall_ok h ha hfd hsize hnull
  | create a fd fresh =>
    obtain ⟨⟨hnull, hfd, hsize⟩, ha⟩ := hx
    refine Yields.bind (fdeventInstall_ok h ha hfd hsize hnull) fun w₁ h₁ => ?_
    obtain ⟨l, hq⟩ := h₁.queue
    exact ⟨h₁.tables.setFde ⟨rfl, rfl, rfl⟩, l, hq.setFde rfl rfl⟩
  | remove a => exact .of_ok (fdeventRemove_ok h)
  | destroy a => exact Yields.ite (fun _ => .of_ok (fdeventRemove_ok h)) fun _ => trivial
  | set a ev => exact .of_ok (fdeventSet_ok h ev)
  | add | del => exact .of_ok (fdeventSet_ok h _)
  | process x => exact .of_ok (fdeventProcess_ok h x)
  | dispatch => exact .of_ok (dispatch_ok h)
  | subproc fd ev input rcount => exact fdeventSubprocEventFunc_ok h fd ev input rcount

theorem inOrder_init : InOrder (init : Loop p) where
  tables := by
    constructor <;> simp [init, Watches]
  queue := by
    refine ⟨[], isRing_nil rfl rfl, fun a => ?_, fun a ha => ?_⟩
    · simp [init]
    · simp [init] at ha

def Registered (w : Loop p) (a : Pointer p) (fd : ℕ) : Prop :=
  fd < w.table.max ∧ w.table.slot fd = some a

/-- What the structures of the event loop say about each other. -/
structure Bookkeeping (w : Loop p) : Prop where
  read : ∀ fd, fd ∈ w.readFds ↔ ∃ a, Registered w a fd ∧ (w.heap a).interest &&& FDE_READ ≠ 0
  write : ∀ fd, fd ∈ w.writeFds ↔ ∃ a, Registered w a fd ∧ (w.heap a).interest &&& FDE_WRITE ≠ 0
  error : ∀ fd, fd ∈ w.errorFds ↔ ∃ a, Registered w a fd ∧ (w.heap a).interest &&& FDE_ERROR ≠ 0
  below : ∀ a fd, Registered w a fd → fd < w.selectN
  selectN : w.selectN ≤ w.table.max
  listed : ∃ l, Holds w.links l ∧ ∀ a, l.count a =
    if (w.heap a).pending = true ∧ (w.heap a).events ≠ 0 then 1 else 0

theorem Tables.registered_iff (h : Tables w) :
    Registered w a i ↔ (w.heap a).active = true ∧ (w.heap a).fd = i := by
  constructor
  · rintro ⟨hi, hslot⟩
    exact (h.slot i hi a).mp hslot
  · rintro ⟨ha, hfd⟩
    obtain ⟨_, _, hmax, hslot⟩ := h.at_ ha
    rw [hfd, Int.toNat_natCast] at hmax hslot
    exact ⟨hmax, hslot⟩

theorem Watches.registered (h : Watches w fds bit) (ht : Tables w) (fd : ℕ) :
    fd ∈ fds ↔ ∃ a, Registered w a fd ∧ (w.heap a).interest &&& bit ≠ 0 := by
  rw [h fd]
  apply exists_congr
  intro a
  rw [ht.registered_iff, and_assoc]

theorem InOrder.bookkeeping (h : InOrder w) (hp : w.Paired) : Bookkeeping w where
  read := h.tables.read.registered h.tables
  write := h.tables.write.registered h.tables
  error := h.tables.error.registered h.tables
  below a fd hreg := by
    obtain ⟨ha, hfd⟩ := h.tables.registered_iff.mp hreg
    have := (h.tables.range a ha).2.1
    omega
  selectN := h.tables.bound
  listed := by
    obtain ⟨l, hq⟩ := h.queue
    refine ⟨l, hq.ring, fun a => ?_⟩
    by_cases ha : (w.heap a).pending = true
    · rw [if_pos ⟨ha, (hp a).mp ha⟩]
      exact count_eq_one_of_mem hq.nodup ((hq.mem a).mpr ha)
    · rw [if_neg fun hand => ha hand.1]
      exact count_eq_zero_of_not_mem fun hm => ha ((hq.mem a).mp hm)

theorem inOrder_of_run (hrun : Run step Allowed init w) : InOrder w ∧ w.Paired := by
  refine hrun.invariant (I := fun w => InOrder w ∧ w.Paired)
    ⟨inOrder_init, fun a => by simp [init, Fde.Paired]⟩ ?_
  rintro w x w' ⟨h, hp⟩ hx hs
  exact ⟨(inOrder_run h hx).of_step hs, (hp.run x).of_step hs⟩

/-- In every run in which no object is installed twice the books are in order, and `fdevent_process`
does not meet a descriptor without an object, whatever `select` returns. -/
theorem event_loop_bookkeeping {w : Loop p} (hrun : Run step Allowed init w) :
    Bookkeeping w ∧ ∀ x fd, w.fdeventProcess x ≠ .error (.missingFde fd) := by
  obtain ⟨h, hp⟩ := inOrder_of_run hrun
  refine ⟨h.bookkeeping hp, fun x fd herr => ?_⟩
  obtain ⟨w', hw', _⟩ := fdeventProcess_ok h x
  rw [hw'] at herr
  cases herr

theorem allowed_first : Allowed init (.install somewhere 3 (some fun _ => 0)) := by
  refine ⟨⟨?_, ?_, by decide⟩, rfl⟩
  · intro f hf i
    cases hf
    simp [load, word_eq_zero_iff]
  · intro b hb
    cases hb

/-- Descriptor 3 is reported as readable: its object is the only one that is registered, and waits
on the list. -/
theorem event_loop_bookkeeping_readable : ∃ w, exec step init readableRun = some w ∧
    Registered w somewhere 3 ∧ (w.heap somewhere).pending = true ∧ Bookkeeping w := by
  have hexec : (exec step init readableRun).map (fun w =>
      decide ((3 < w.table.max ∧ w.table.slot 3 = some somewhere) ∧
        (w.heap somewhere).pending = true)) = some true := by decide +kernel
  obtain ⟨w, hw, heq⟩ := map_eq_some_iff.mp hexec
  obtain ⟨hreg, hp⟩ := of_decide_eq_true heq
  obtain ⟨w₁, hw₁, hrest⟩ := bind_eq_some_iff.mp hw
  have hrun : Run step Allowed init w := by
    refine Relation.ReflTransGen.head ⟨_, allowed_first, hw₁⟩ (run_of_exec ?_ hrest)
    intro x hx s
    fin_cases hx <;> exact ⟨trivial, trivial⟩
  exact ⟨w, hw, hreg, hp, (event_loop_bookkeeping hrun).1⟩

/-- The object registered for descriptor 3 is installed for descriptor 4 as well: nobody waits for
descriptor 3 any more, but it stays in `read_fds`. -/
theorem installed_twice : ∃ w : Loop linux64, Run step Distinct init w ∧
    ¬ Bookkeeping w := by
  have hexec : (exec step init
      [.install somewhere 3 (some fun _ => 0), .set somewhere 1]).map (fun w =>
        decide (w.table.slot 4 = none ∧ 4 < w.table.max) &&
        (step w (.install somewhere 4 none)).any fun w' =>
          decide (3 ∈ w'.readFds ∧ w'.table.slot 3 = some somewhere ∧
            (w'.heap somewhere).interest = 0)) = some true := by decide +kernel
  obtain ⟨w, hw, heq⟩ := map_eq_some_iff.mp hexec
  obtain ⟨hfree, hagain⟩ := (Bool.and_eq_true _ _).mp heq
  obtain ⟨w', hw', hleft⟩ := (any_eq_true _ _).mp hagain
  obtain ⟨hread, hslot, hnone⟩ := of_decide_eq_true hleft
  obtain ⟨w₁, hw₁, hrest⟩ := bind_eq_some_iff.mp hw
  have hrun : Run step Allowed init w := by
    refine Relation.ReflTransGen.head ⟨_, allowed_first, hw₁⟩ (run_of_exec ?_ hrest)
    intro x hx s
    fin_cases hx
    exact ⟨trivial, trivial⟩
  have hsecond : Distinct w (.install somewhere 4 none) := by
    refine ⟨by simp [NullFilled], fun b hb hfd => ?_, by decide⟩
    have hreg : Registered w b 4 := (inOrder_of_run hrun).1.tables.registered_iff.mpr ⟨hb, hfd⟩
    have hnone : none = some b := (of_decide_eq_true hfree).1.symm.trans hreg.2
    cases hnone
  refine ⟨w', (hrun.mono fun _ _ hx => hx.1).snoc hsecond hw', fun hbook => ?_⟩
  obtain ⟨a, ⟨_, ha⟩, hbit⟩ := (hbook.read 3).mp hread
  obtain rfl : a = somewhere := some.inj (ha.symm.trans hslot)
  rw [hnone] at hbit
  exact hbit (by decide)

end Runs

end PaxAdb.FdEvents
