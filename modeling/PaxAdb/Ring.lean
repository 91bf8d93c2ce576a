import Mathlib.Data.List.Chain
import Mathlib.Data.List.Nodup
import Mathlib.Tactic

/-!
# Circular doubly linked lists

A ring is a head node and the nodes threaded behind it. The link fields of all nodes, on a ring or
not, form one memory: a node keeps its own fields when it is unlinked, and unlinking it once more
writes through them again.
-/

namespace Ring

open Function (update update_self update_of_ne)
open List

structure Links (α : Type*) where
  next : α → α
  prev : α → α

namespace Links

variable {α : Type*} [DecidableEq α]

def setNext (m : Links α) (x y : α) : Links α := { m with next := update m.next x y }

def setPrev (m : Links α) (x y : α) : Links α := { m with prev := update m.prev x y }

/-- `x->next->prev = x->prev; x->prev->next = x->next`. -/
def unlink (m : Links α) (x : α) : Links α :=
  let m := m.setPrev (m.next x) (m.prev x)
  m.setNext (m.prev x) (m.next x)

/-- `x->next = h; x->prev = h->prev; x->next->prev = x; x->prev->next = x`. -/
def insertTail (m : Links α) (h x : α) : Links α :=
  let m := m.setNext x h
  let m := m.setPrev x (m.prev h)
  let m := m.setPrev (m.next x) x
  m.setNext (m.prev x) x

/-- The nodes met by following `next` until `h` comes round again, at most `fuel` of them. -/
def walk (m : Links α) (h : α) : ℕ → α → List α
  | 0, _ => []
  | fuel + 1, x => if x = h then [] else x :: walk m h fuel (m.next x)

def Joined (m : Links α) (x y : α) : Prop := m.next x = y ∧ m.prev y = x

theorem unlink_eq (m : Links α) (x : α) :
    m.unlink x = { next := update m.next (m.prev x) (m.next x),
                   prev := update m.prev (m.next x) (m.prev x) } := by
  have hp : update m.prev (m.next x) (m.prev x) x = m.prev x := by
    by_cases hx : x = m.next x
    · rw [← hx, update_self]
    · rw [update_of_ne hx]
  simp only [unlink, setPrev, setNext, hp]

variable {h x : α}

theorem insertTail_eq (m : Links α) (hx : x ≠ h) : m.insertTail h x =
      { next := update (update m.next x h) (m.prev h) x,
        prev := update (update m.prev x (m.prev h)) h x } := by
  simp only [insertTail, setPrev, setNext, update_self, update_of_ne hx]

variable {m : Links α}

theorem forall_mem_walk {S : α → Prop} (hS : ∀ x, x ≠ h → S x → S (m.next x)) (fuel : ℕ) :
    ∀ x, S x → ∀ y ∈ m.walk h fuel x, S y := by
  induction fuel with
  | zero =>
    intro x _ y hy
    cases hy
  | succ fuel ih =>
    intro x hx y hy
    rw [walk] at hy
    split at hy
    · cases hy
    next hne =>
      rcases mem_cons.mp hy with rfl | hy
      · exact hx
      · exact ih _ (hS x hne hx) y hy

end Links

open Links

variable {α : Type*} {m : Links α} {h x : α} {l : List α}

/-- `h` is the head of a well-formed ring that holds exactly the nodes `l`, in that order. -/
def IsRing (m : Links α) (h : α) (l : List α) : Prop :=
  (h :: l ++ [h]).IsChain m.Joined ∧ (h :: l).Nodup

theorem isRing_nil (hn : m.next h = h) (hp : m.prev h = h) : IsRing m h [] :=
  ⟨isChain_pair.mpr ⟨hn, hp⟩, nodup_singleton h⟩

theorem mem_ring_of_mem_chain (hx : x ∈ h :: l ++ [h]) : x ∈ h :: l := by
  rcases mem_append.mp hx with hx | hx
  · exact hx
  · rw [mem_singleton.mp hx]
    exact mem_cons_self

theorem IsRing.frame {m m' : Links α} (hr : IsRing m h l)
    (hn : ∀ x ∈ h :: l, m'.next x = m.next x) (hp : ∀ x ∈ h :: l, m'.prev x = m.prev x) :
    IsRing m' h l := by
  refine ⟨hr.1.imp_of_mem_imp ?_, hr.2⟩
  intro a b ha hb hab
  exact ⟨(hn a (mem_ring_of_mem_chain ha)).trans hab.1,
    (hp b (mem_ring_of_mem_chain hb)).trans hab.2⟩

theorem IsRing.neighbours (hr : IsRing m h l) (hx : x ∈ l) :
    ∃ pre a b post, h :: l ++ [h] = pre ++ a :: x :: b :: post ∧ m.Joined a x ∧ m.Joined x b := by
  obtain ⟨l₁, l₂, rfl⟩ := append_of_mem hx
  obtain ⟨pre, a, hpre⟩ : ∃ pre a, h :: l₁ = pre ++ [a] :=
    ⟨_, _, (dropLast_append_getLast (cons_ne_nil h l₁)).symm⟩
  obtain ⟨b, post, hpost⟩ : ∃ b post, l₂ ++ [h] = b :: post :=
    exists_cons_of_ne_nil (by simp)
  have hsplit : h :: (l₁ ++ x :: l₂) ++ [h] = pre ++ a :: x :: b :: post := by
    rw [← cons_append, hpre, append_assoc, cons_append, hpost]
    simp
  have hchain := hr.1
  rw [hsplit] at hchain
  have hax := isChain_append_cons_cons.mp hchain
  exact ⟨pre, a, b, post, hsplit, hax.2.1, (isChain_cons_cons.mp hax.2.2).1⟩

theorem IsRing.next_mem (hr : IsRing m h l) (hx : x ∈ l) : m.next x ∈ h :: l := by
  obtain ⟨pre, a, b, post, hsplit, _, hxb⟩ := hr.neighbours hx
  rw [hxb.1]
  exact mem_ring_of_mem_chain (hsplit ▸ by simp)

theorem IsRing.prev_mem (hr : IsRing m h l) (hx : x ∈ l) : m.prev x ∈ h :: l := by
  obtain ⟨pre, a, b, post, hsplit, hax, _⟩ := hr.neighbours hx
  rw [hax.2]
  exact mem_ring_of_mem_chain (hsplit ▸ by simp)

theorem IsRing.next_ne [DecidableEq α] (hr : IsRing m h l) (hx : x ∈ l) : m.next x ≠ x := by
  obtain ⟨pre, a, b, post, hsplit, _, hxb⟩ := hr.neighbours hx
  rw [hxb.1]
  rintro rfl
  have hcount : (h :: l ++ [h]).count b = 1 := by
    have hbh : b ≠ h := fun he => (nodup_cons.mp hr.2).1 (he ▸ hx)
    rw [count_append, count_singleton, if_neg (by simpa using hbh.symm),
      count_eq_one_of_mem hr.2 (mem_cons_of_mem _ hx)]
  rw [hsplit] at hcount
  simp [count_cons] at hcount
  omega

theorem IsRing.next_head_mem (hr : IsRing m h l) : m.next h ∈ h :: l := by
  cases l with
  | nil =>
    rw [(isChain_pair.mp hr.1).1]
    exact mem_cons_self
  | cons y l =>
    rw [(isChain_cons_cons.mp hr.1).1.1]
    simp

/-- Behind a node, or the head, comes the next node of the list, or the head again. -/
theorem IsRing.getElem?_next [DecidableEq α] {k : ℕ}
    (hr : IsRing m h l) (hx : (h :: l)[k]? = some x) :
    l[k]? = if m.next x = h then none else some (m.next x) := by
  obtain ⟨hk, hget⟩ := List.getElem?_eq_some_iff.mp hx
  rw [List.length_cons] at hk
  have hlen : (h :: l ++ [h]).length = l.length + 2 := by simp
  have hjoined := List.isChain_iff_getElem.mp hr.1 k (by omega)
  have hcurrent : (h :: l ++ [h])[k] = x := by
    rw [List.getElem_append_left (by rw [List.length_cons]; omega), hget]
  have hbound : k < (l ++ [h]).length := by
    rw [List.length_append, List.length_singleton]
    exact hk
  have hnext : m.next x = (l ++ [h])[k] := by
    rw [← hcurrent]
    exact hjoined.1
  by_cases hlast : k < l.length
  · rw [List.getElem_append_left hlast] at hnext
    have hne : l[k] ≠ h := fun heq => (List.nodup_cons.mp hr.2).1 (heq ▸ List.getElem_mem hlast)
    rw [hnext, if_neg hne, List.getElem?_eq_getElem hlast]
  · rw [List.getElem_append_right (not_lt.mp hlast), List.getElem_singleton] at hnext
    rw [if_pos hnext, List.getElem?_eq_none (not_lt.mp hlast)]

theorem IsRing.prev_head (hr : IsRing m h l) :
    ∃ pre, h :: l = pre ++ [m.prev h] ∧ m.next (m.prev h) = h := by
  obtain ⟨pre, a, hpre⟩ : ∃ pre a, h :: l = pre ++ [a] :=
    ⟨_, _, (dropLast_append_getLast (cons_ne_nil h l)).symm⟩
  have hchain := hr.1
  rw [hpre, append_assoc, singleton_append] at hchain
  have hj := (isChain_append_cons_cons.mp hchain).2.1
  exact ⟨pre, by rw [hj.2, hpre], by rw [hj.2, hj.1]⟩

variable [DecidableEq α]

theorem IsRing.insertTail (hr : IsRing m h l)
    (hx : x ∉ h :: l) : IsRing (m.insertTail h x) h (l ++ [x]) := by
  obtain ⟨hxh, hxl⟩ := not_or.mp (mem_cons.not.mp hx)
  obtain ⟨pre, hpre, hlast⟩ := hr.prev_head
  have hph : m.prev h ∈ h :: l := by rw [hpre]; simp
  have hne : m.prev h ≠ x := fun he => hx (he ▸ hph)
  have hnodup : (h :: (l ++ [x])).Nodup := by
    rw [← cons_append]
    exact hr.2.append (nodup_singleton x) (by simpa [eq_comm] using hx)
  refine ⟨?_, hnodup⟩
  rw [insertTail_eq m hxh]
  have hold : (h :: l).IsChain (Links.Joined
      { next := update (update m.next x h) (m.prev h) x,
        prev := update (update m.prev x (m.prev h)) h x }) := by
    refine hr.1.left_of_append.imp_of_mem_tail_imp ?_
    intro c d hc hd hcd
    have hdh : d ≠ h := fun he => (nodup_cons.mp hr.2).1 (he ▸ hd)
    have hdx : d ≠ x := fun he => hxl (he ▸ hd)
    have hcx : c ≠ x := fun he => hx (he ▸ hc)
    have hca : c ≠ m.prev h := by
      rintro rfl
      exact hdh (hcd.1.symm.trans hlast)
    constructor
    · simp only [update_of_ne hca, update_of_ne hcx, hcd.1]
    · simp only [update_of_ne hdh, update_of_ne hdx, hcd.2]
  rw [← cons_append, hpre, append_assoc, append_assoc]
  rw [hpre] at hold
  refine isChain_append_cons_cons.mpr ⟨hold, ⟨?_, ?_⟩, isChain_pair.mpr ⟨?_, ?_⟩⟩
  · simp only [update_self]
  · simp only [update_of_ne hxh, update_self]
  · simp only [update_of_ne hne.symm, update_self]
  · simp only [update_self]

theorem IsRing.unlink (hr : IsRing m h l) (hx : x ∈ l) : IsRing (m.unlink x) h (l.erase x) := by
  obtain ⟨l₁, l₂, hl⟩ := append_of_mem hx
  have hnd : (h :: l₁ ++ x :: l₂).Nodup := by
    rw [cons_append, ← hl]
    exact hr.2
  have hx1 : x ∉ h :: l₁ := fun hm =>
    (nodup_append.mp hnd).2.2 x hm x mem_cons_self rfl
  have hx2 : x ∉ l₂ ++ [h] := by
    intro hm
    rcases mem_append.mp hm with hm | hm
    · exact (nodup_cons.mp (nodup_append.mp hnd).2.1).1 hm
    · exact hx1 (mem_singleton.mp hm ▸ mem_cons_self)
  have herase : l.erase x = l₁ ++ l₂ := by
    rw [hl, erase_append_right _ (fun hm => hx1 (mem_cons_of_mem _ hm)), erase_cons_head]
  obtain ⟨pre, a, hpre⟩ : ∃ pre a, h :: l₁ = pre ++ [a] :=
    ⟨_, _, (dropLast_append_getLast (cons_ne_nil h l₁)).symm⟩
  obtain ⟨b, post, hpost⟩ : ∃ b post, l₂ ++ [h] = b :: post :=
    exists_cons_of_ne_nil (by simp)
  have hchain := hr.1
  rw [hl, cons_append, append_assoc, cons_append, ← cons_append, hpost,
    hpre, append_assoc, singleton_append] at hchain
  obtain ⟨hfst, hax, hrest⟩ := isChain_append_cons_cons.mp hchain
  obtain ⟨hxb, hsnd⟩ := isChain_cons_cons.mp hrest
  rw [unlink_eq m x, hax.2, hxb.1]
  -- a link into or out of the unlinked node is the only one the two writes can touch
  have hkeep : ∀ s : List α, x ∉ s → s.IsChain m.Joined → s.IsChain (Links.Joined
      { next := update m.next a b, prev := update m.prev b a }) := by
    intro s hs hchain
    refine hchain.imp_of_mem_imp ?_
    intro c d hc hd hcd
    have hca : c ≠ a := by
      rintro rfl
      exact hs (hax.1 ▸ hcd.1.symm ▸ hd)
    have hdb : d ≠ b := by
      rintro rfl
      exact hs (hxb.2 ▸ hcd.2.symm ▸ hc)
    exact ⟨by simp only [update_of_ne hca, hcd.1], by simp only [update_of_ne hdb, hcd.2]⟩
  refine ⟨?_, hr.2.sublist (List.Sublist.cons_cons h erase_sublist)⟩
  rw [herase, cons_append, append_assoc, ← cons_append, hpost, hpre, append_assoc, singleton_append]
  refine isChain_append_cons_cons.mpr ⟨hkeep _ (hpre ▸ hx1) hfst, ?_, hkeep _ (hpost ▸ hx2) hsnd⟩
  exact ⟨by simp only [update_self], by simp only [update_self]⟩

theorem IsRing.walk_eq (hr : IsRing m h l) {fuel : ℕ}
    (hfuel : l.length < fuel) : m.walk h fuel (m.next h) = l := by
  suffices hsuf : ∀ (s : List α) (x : α) (fuel : ℕ), s.length < fuel →
      (x :: s ++ [h]).IsChain m.Joined → h ∉ s → m.walk h fuel (m.next x) = s from
    hsuf l h fuel hfuel hr.1 (nodup_cons.mp hr.2).1
  intro s
  induction s with
  | nil =>
    intro x fuel hf hchain _
    obtain ⟨fuel, rfl⟩ := Nat.exists_eq_succ_of_ne_zero (by omega : fuel ≠ 0)
    rw [(isChain_pair.mp hchain).1, walk, if_pos rfl]
  | cons y s ih =>
    intro x fuel hf hchain hns
    obtain ⟨fuel, rfl⟩ := Nat.exists_eq_succ_of_ne_zero (by omega : fuel ≠ 0)
    obtain ⟨hxy, hrest⟩ := isChain_cons_cons.mp hchain
    obtain ⟨hyh, hns⟩ := not_or.mp (mem_cons.not.mp hns)
    rw [hxy.1, walk, if_neg (Ne.symm hyh),
      ih y fuel (by simp only [length_cons] at hf; omega) hrest hns]

end Ring
