import PaxAdb.Cells
import PaxAdb.Runs

/-!
# The table of descriptors

`fd_table` is an array of pointers that `fdevent_register` extends by doubling. What `realloc` adds
holds arbitrary bytes, and of these `memset` clears `sizeof(int)` bytes for every new slot. Where a
pointer takes more bytes than an `int`, the last of the new slots keep what the memory held before.
-/

namespace PaxAdb.FdEvents

open Cells Runs Function List

/-- The sizes of a platform where pointers are wider than `int`. -/
structure Platform where
  sizeofInt : ℕ
  sizeofPtr : ℕ
  int_pos : 0 < sizeofInt
  wider : sizeofInt < sizeofPtr

def linux64 : Platform := ⟨4, 8, by decide, by decide⟩

variable {p : Platform}

structure Pointer (p : Platform) where
  addr : ℕ
  pos : 0 < addr
  lt : addr < 256 ^ p.sizeofPtr
  deriving DecidableEq

def somewhere : Pointer linux64 := ⟨0x5000, by decide, by decide⟩

inductive Fault where
  | negativeFd (fd : ℤ)
  | hugeFd (fd : ℤ)
  | notExpanded (max : ℕ)
  | outOfRange (fd : ℤ)
  | outOfSync (fd : ℤ)
  | missingFde (fd : ℕ)
  | notCreated
  | subprocUnread (fd : ℤ)
  | nullPointer
  | beyondFdSet (fd : ℤ)
  deriving DecidableEq, Repr

structure FdTable (p : Platform) where
  bytes : Memory
  max : ℕ

namespace FdTable

variable (t : FdTable p)

def slot (i : ℕ) : Option (Pointer p) :=
  if h : 0 < load p.sizeofPtr t.bytes i then
    some ⟨load p.sizeofPtr t.bytes i, h, load_lt _ _ _⟩
  else none

def setSlot (i : ℕ) (fde : Option (Pointer p)) : FdTable p :=
  { t with bytes := store p.sizeofPtr t.bytes i ((fde.map Pointer.addr).getD 0) }

def growLoop : ℕ → ℕ → ℕ → ℕ
  | 0, max, _ => max
  | fuel + 1, max, fd => if max ≤ fd then growLoop fuel (max * 2) fd else max

def newMax (max fd : ℕ) : ℕ := growLoop fd (if max = 0 then 256 else max) fd

def grow (max : ℕ) (fresh : Memory) : FdTable p where
  bytes := memset (realloc t.bytes (p.sizeofPtr * t.max) fresh) (p.sizeofPtr * t.max) 0
    (p.sizeofInt * (max - t.max))
  max := max

/-- `fdevent_register`; `fresh` is what `realloc` finds behind the old table, `none` when it has no
memory. -/
def register (fde : Pointer p) (fd : ℤ) (fresh : Option Memory) : Except Fault (FdTable p) :=
  if fd < 0 then .error (.negativeFd fd)
  else if t.max ≤ fd.toNat then
    if 32000 < fd then .error (.hugeFd fd)
    else
      match fresh with
      | none => .error (.notExpanded (newMax t.max fd.toNat))
      | some fresh =>
          .ok ((t.grow (newMax t.max fd.toNat) fresh).setSlot fd.toNat (some fde))
  else .ok (t.setSlot fd.toNat (some fde))

def unregister (fde : Pointer p) (fd : ℤ) : Except Fault (FdTable p) :=
  if fd < 0 ∨ t.max ≤ fd.toNat then .error (.outOfRange fd)
  else if t.slot fd.toNat ≠ some fde then .error (.outOfSync fd)
  else .ok (t.setSlot fd.toNat none)

end FdTable

open FdTable

section Slots

variable {t : FdTable p} {i j fd max : ℕ} {fresh : Memory} {fde : Option (Pointer p)}

theorem slot_congr {t' : FdTable p}
    (h : load p.sizeofPtr t'.bytes i = load p.sizeofPtr t.bytes i) : t'.slot i = t.slot i := by
  unfold slot
  simp only [h]

theorem slot_eq_none_iff : t.slot i = none ↔ load p.sizeofPtr t.bytes i = 0 := by
  unfold slot
  split
  next h => simp [Nat.ne_of_gt h]
  next h => simp [Nat.eq_zero_of_not_pos h]

@[simp] theorem max_setSlot : (t.setSlot i fde).max = t.max := rfl

theorem slot_setSlot_self : (t.setSlot i fde).slot i = fde := by
  have hload : load p.sizeofPtr (t.setSlot i fde).bytes i = (fde.map Pointer.addr).getD 0 := by
    apply load_store_self
    cases fde with
    | none => exact Nat.pow_pos (by norm_num)
    | some a => exact a.lt
  cases fde with
  | none => exact slot_eq_none_iff.mpr hload
  | some a =>
    have ha : load p.sizeofPtr (t.setSlot i (some a)).bytes i = a.addr := hload
    unfold slot
    simp only [ha, a.pos, dif_pos]

theorem slot_setSlot_ne (h : j ≠ i) : (t.setSlot i fde).slot j = t.slot j :=
  slot_congr (load_store_ne h)

theorem slot_setSlot (i j : ℕ) (fde : Option (Pointer p)) :
    (t.setSlot i fde).slot j = if j = i then fde else t.slot j := by
  split
  next h =>
    rw [h]
    exact slot_setSlot_self
  next h => exact slot_setSlot_ne h

theorem lt_growLoop {fuel : ℕ} (hpos : 0 < max) (h : fd < max + fuel) :
    fd < growLoop fuel max fd := by
  induction fuel generalizing max with
  | zero => exact h
  | succ fuel ih =>
    rw [growLoop]
    split
    · apply ih <;> omega
    · omega

theorem le_growLoop (fuel max fd : ℕ) : max ≤ growLoop fuel max fd := by
  induction fuel generalizing max with
  | zero => exact le_rfl
  | succ fuel ih =>
    rw [growLoop]
    split
    · exact le_trans (by omega) (ih (max * 2))
    · exact le_rfl

theorem lt_newMax (max fd : ℕ) : fd < newMax max fd := by
  apply lt_growLoop <;> split <;> omega

theorem le_newMax (max fd : ℕ) : max ≤ newMax max fd := by
  refine le_trans ?_ (le_growLoop fd _ fd)
  split <;> omega

theorem byte_grow_old {k : ℕ} (hi : i < t.max) (hk : k < p.sizeofPtr) :
    (t.grow max fresh).bytes (p.sizeofPtr * i + k) = t.bytes (p.sizeofPtr * i + k) := by
  have hlt := cell_lt hi hk
  change memset _ _ _ _ _ = _
  rw [memset, if_neg (by omega), realloc_lt hi hk]

theorem slot_grow_old (hi : i < t.max) : (t.grow max fresh).slot i = t.slot i :=
  slot_congr (word_congr fun _ hk => byte_grow_old hi hk)

theorem byte_grow_new (k : ℕ) (hi : t.max ≤ i) :
    (t.grow max fresh).bytes (p.sizeofPtr * i + k) =
      if p.sizeofPtr * i + k < p.sizeofPtr * t.max + p.sizeofInt * (max - t.max) then 0
      else fresh (p.sizeofPtr * i + k) := by
  have hle := Nat.mul_le_mul_left p.sizeofPtr hi
  change memset _ _ _ _ _ = _
  rw [memset, realloc_ge hi]
  simp only [show p.sizeofPtr * t.max ≤ p.sizeofPtr * i + k by omega, true_and]

theorem slot_grow_clear (hi : t.max ≤ i) (hclear : load p.sizeofPtr fresh i = 0) :
    (t.grow max fresh).slot i = none := by
  apply slot_eq_none_iff.mpr
  apply load_eq_zero_iff.mpr
  intro k hk
  rw [byte_grow_new k hi, load_eq_zero_iff.mp hclear k hk]
  exact ite_self 0

end Slots

section Calls

variable {t t' : FdTable p} {fde : Pointer p} {fd : ℤ} {fresh : Option Memory}

theorem register_ok (h : t.register fde fd fresh = .ok t') : 0 ≤ fd ∧
    ((fd.toNat < t.max ∧ t' = t.setSlot fd.toNat (some fde)) ∨
      (t.max ≤ fd.toNat ∧ ∃ f, fresh = some f ∧
        t' = (t.grow (newMax t.max fd.toNat) f).setSlot fd.toNat (some fde))) := by
  unfold register at h
  split at h
  · cases h
  next hneg =>
    refine ⟨not_lt.mp hneg, ?_⟩
    split at h
    next hbig =>
      split at h
      · cases h
      · cases fresh with
        | none => cases h
        | some f => exact .inr ⟨hbig, f, rfl, (Except.ok.inj h).symm⟩
    next hsmall => exact .inl ⟨not_le.mp hsmall, (Except.ok.inj h).symm⟩

theorem unregister_ok (h : t.unregister fde fd = .ok t') :
    0 ≤ fd ∧ fd.toNat < t.max ∧ t.slot fd.toNat = some fde ∧ t' = t.setSlot fd.toNat none := by
  unfold unregister at h
  split at h
  · cases h
  next hrange =>
    obtain ⟨hneg, hmax⟩ := not_or.mp hrange
    split at h
    · cases h
    next hsync =>
      exact ⟨not_lt.mp hneg, not_le.mp hmax, not_not.mp hsync, (Except.ok.inj h).symm⟩

end Calls

structure Growth where
  old : ℕ
  new : ℕ
  fresh : Memory

def Growth.reach (p : Platform) (g : Growth) : ℕ :=
  p.sizeofPtr * g.old + p.sizeofInt * (g.new - g.old)

structure History (p : Platform) where
  table : FdTable p
  /-- the `fdevent` that is registered for a descriptor -/
  current : ℕ → Option (Pointer p)
  /-- the slots that a call has assigned to -/
  used : List ℕ
  growths : List Growth

inductive TableCall (p : Platform) where
  | register (fde : Pointer p) (fd : ℤ) (fresh : Option Memory)
  | unregister (fde : Pointer p) (fd : ℤ)

namespace History

def init : History p := ⟨⟨fun _ => 0, 0⟩, fun _ => none, [], []⟩

def growthsAfter (h : History p) (table : FdTable p) (fd : ℤ) : Option Memory → List Growth
  | some fresh =>
      if h.table.max ≤ fd.toNat then ⟨h.table.max, table.max, fresh⟩ :: h.growths else h.growths
  | none => h.growths

def step (h : History p) : TableCall p → Option (History p)
  | .register fde fd fresh =>
      match h.table.register fde fd fresh with
      | .ok table => some
          { table := table
            current := update h.current fd.toNat (some fde)
            used := fd.toNat :: h.used
            growths := growthsAfter h table fd fresh }
      | .error _ => none
  | .unregister fde fd =>
      match h.table.unregister fde fd with
      | .ok table => some
          { h with
            table := table
            current := update h.current fd.toNat none
            used := fd.toNat :: h.used }
      | .error _ => none

variable (h : History p)

/-- Every slot is `NULL` or the `fdevent` that is registered for its descriptor. -/
def SlotsOk : Prop := ∀ i < h.table.max, h.table.slot i = none ∨ h.table.slot i = h.current i

def Clear (g : Growth) (i : ℕ) : Prop :=
  ∀ k < p.sizeofPtr, g.reach p ≤ p.sizeofPtr * i + k → g.fresh (p.sizeofPtr * i + k) = 0

structure Sound : Prop where
  registered : ∀ i ∈ h.used, i < h.table.max ∧ h.table.slot i = h.current i
  unused : ∀ i, i ∉ h.used → h.current i = none
  covered : ∀ i < h.table.max, ∃ g ∈ h.growths, g.old ≤ i ∧ i < g.new
  within : ∀ g ∈ h.growths, g.new ≤ h.table.max
  left : ∀ g ∈ h.growths, ∀ i, g.old ≤ i → i < g.new → i ∉ h.used → ∀ k < p.sizeofPtr,
    h.table.bytes (p.sizeofPtr * i + k) =
      if p.sizeofPtr * i + k < g.reach p then 0 else g.fresh (p.sizeofPtr * i + k)

variable {h} {h' : History p} {fde : Pointer p} {fd : ℤ} {i : ℕ}

theorem sound_init : (init : History p).Sound := by
  constructor <;> simp [init]

theorem Sound.assign (hs : h.Sound) {n : ℕ} (hn : n < h.table.max) (v : Option (Pointer p)) :
    Sound { h with
      table := h.table.setSlot n v
      current := update h.current n v
      used := n :: h.used } where
  registered i hi := by
    dsimp only at hi ⊢
    by_cases hin : i = n
    · rw [hin, slot_setSlot_self, update_self]
      exact ⟨hn, rfl⟩
    · rw [slot_setSlot_ne hin, update_of_ne hin]
      exact hs.registered i ((mem_cons.mp hi).resolve_left hin)
  unused i hi := by
    obtain ⟨hin, hi⟩ := not_or.mp (mem_cons.not.mp hi)
    exact (update_of_ne hin _ _).trans (hs.unused i hi)
  covered := hs.covered
  within := hs.within
  left g hg i hold hnew hi k hk := by
    obtain ⟨hin, hi⟩ := not_or.mp (mem_cons.not.mp hi)
    exact (store_ne hin hk).trans (hs.left g hg i hold hnew hi k hk)

theorem Sound.grow (hs : h.Sound) {max : ℕ} (hle : h.table.max ≤ max) (fresh : Memory) :
    Sound { h with
      table := h.table.grow max fresh
      growths := ⟨h.table.max, max, fresh⟩ :: h.growths } where
  registered i hi := by
    obtain ⟨hlt, hslot⟩ := hs.registered i hi
    exact ⟨hlt.trans_le hle, (slot_grow_old hlt).trans hslot⟩
  unused := hs.unused
  covered i hi := by
    by_cases hlt : i < h.table.max
    · obtain ⟨g, hg, hgi⟩ := hs.covered i hlt
      exact ⟨g, mem_cons_of_mem _ hg, hgi⟩
    · exact ⟨_, mem_cons_self, not_lt.mp hlt, hi⟩
  within g hg := by
    rcases mem_cons.mp hg with rfl | hg
    · exact le_rfl
    · exact (hs.within g hg).trans hle
  left g hg i hold hnew hi k hk := by
    rcases mem_cons.mp hg with rfl | hg
    · exact byte_grow_new k hold
    · have hlt := hnew.trans_le (hs.within g hg)
      exact (byte_grow_old hlt hk).trans (hs.left g hg i hold hnew hi k hk)

theorem Sound.step (hs : h.Sound) {c : TableCall p} (hc : h.step c = some h') : h'.Sound := by
  cases c with
  | register fde fd fresh =>
    simp only [History.step] at hc
    split at hc <;> cases hc
    next table hreg =>
      obtain ⟨_, ⟨hlt, rfl⟩ | ⟨hge, f, rfl, rfl⟩⟩ := register_ok hreg
      · have hkept :
            growthsAfter h (h.table.setSlot fd.toNat (some fde)) fd fresh = h.growths := by
          cases fresh with
          | none => rfl
          | some f => exact if_neg (not_le.mpr hlt)
        rw [hkept]
        exact hs.assign hlt (some fde)
      · have hmore : growthsAfter h ((h.table.grow (newMax h.table.max fd.toNat) f).setSlot
            fd.toNat (some fde)) fd (some f) =
            ⟨h.table.max, newMax h.table.max fd.toNat, f⟩ :: h.growths := if_pos hge
        rw [hmore]
        have hgrow := hs.grow (le_newMax h.table.max fd.toNat) f
        exact hgrow.assign (lt_newMax h.table.max fd.toNat) (some fde)
  | unregister fde fd =>
    simp only [History.step] at hc
    split at hc <;> cases hc
    next table hunreg =>
      obtain ⟨_, hlt, _, rfl⟩ := unregister_ok hunreg
      exact hs.assign hlt none

/-- A slot that nothing was assigned to is `NULL` if its bytes are clear, which `memset` has seen to
or not. -/
theorem Sound.slot_eq_none_iff (hs : h.Sound) {g : Growth} (hg : g ∈ h.growths) (hold : g.old ≤ i)
    (hnew : i < g.new) (hi : i ∉ h.used) : h.table.slot i = none ↔ Clear (p := p) g i := by
  rw [FdEvents.slot_eq_none_iff, load_eq_zero_iff]
  have hbytes := hs.left g hg i hold hnew hi
  constructor
  · intro hzero k hk hreach
    have := hbytes k hk
    rwa [hzero k hk, if_neg (not_lt.mpr hreach), eq_comm] at this
  · intro hclear k hk
    rw [hbytes k hk]
    split
    · rfl
    next hreach => exact hclear k hk (not_lt.mp hreach)

/-- The slots are in order exactly if, of every extension of the table, the bytes `memset` did not
reach were clear before, apart from slots that were assigned to since. -/
theorem slots_ok_iff {h : History p} (hrun : Run History.step (fun _ _ => True) History.init h) :
    h.SlotsOk ↔ ∀ g ∈ h.growths, ∀ i, g.old ≤ i → i < g.new → i ∉ h.used → Clear (p := p) g i := by
  have hs : h.Sound := hrun.invariant sound_init fun _ _ _ hs _ hc => hs.step hc
  constructor
  · intro hok g hg i hold hnew hi
    rw [← hs.slot_eq_none_iff hg hold hnew hi]
    rcases hok i (hnew.trans_le (hs.within g hg)) with hnone | hcur
    · exact hnone
    · rw [hcur, hs.unused i hi]
  · intro hclear i hi
    by_cases hused : i ∈ h.used
    · exact .inr (hs.registered i hused).2
    · obtain ⟨g, hg, hold, hnew⟩ := hs.covered i hi
      exact .inl ((hs.slot_eq_none_iff hg hold hnew hused).mpr (hclear g hg i hold hnew hused))

/-- The memory behind the table is clear, so that all slots are in order. -/
theorem slots_ok_clear : ∃ h : History linux64,
    Run History.step (fun _ _ => True) History.init h ∧ h.table.max = 256 ∧ h.SlotsOk := by
  have hstep : exec History.step (init : History linux64)
      [.register somewhere 3 (some fun _ => 0)] =
      some ⟨((⟨fun _ => 0, 0⟩ : FdTable linux64).grow 256 fun _ => 0).setSlot 3 (some somewhere),
        update (fun _ => none) 3 (some somewhere), [3], [⟨0, 256, fun _ => 0⟩]⟩ := rfl
  have hrun : Run History.step (fun _ _ => True) History.init _ :=
    run_of_exec (fun _ _ _ => trivial) hstep
  refine ⟨_, hrun, rfl, (slots_ok_iff hrun).mpr ?_⟩
  rintro g hg i _ _ _ k _ _
  rw [mem_singleton.mp hg]

/-- One descriptor is registered, and the memory `realloc` had to give was not clear: the last slot
holds a pointer to nothing. -/
theorem slots_not_cleared : ∃ h : History linux64,
    exec History.step History.init [.register somewhere 3 (some fun _ => 0xee)] = some h ∧
      ¬ h.SlotsOk := by
  refine ⟨_, rfl, fun hok => ?_⟩
  have hslot := hok 255 (by decide +kernel)
  revert hslot
  decide +kernel

end History

end PaxAdb.FdEvents
