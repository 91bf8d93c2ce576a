import Mathlib.Data.List.Nodup
import Mathlib.Tactic

/-!
# Walks over lists whose entries may leave

A list is walked from its head and something is called for each entry. The entry after the current
one is looked up before the call, since the call may take the current one off the list. As long as
no call takes off another entry, every entry is called for once, in order.
-/

namespace PaxAdb.Walk

open List Option

variable {σ α : Type} [DecidableEq α]

def following (l : List α) (x : α) : Option α := (l.drop (l.idxOf x + 1)).head?

/-- The state after the calls from an entry on, and the entries in the order they were called for.
`none` when a call fails, or when so many calls are not enough. -/
def walk (list : σ → List α) (call : α → σ → Option σ) : ℕ → Option α → σ → Option (σ × List α)
  | _, none, s => some (s, [])
  | 0, some _, _ => none
  | fuel + 1, some x, s => do
      let next := following (list s) x
      let s ← call x s
      let (s, calls) ← walk list call fuel next s
      return (s, x :: calls)

def walkAll (list : σ → List α) (call : α → σ → Option σ) (s : σ) : Option (σ × List α) :=
  walk list call (list s).length (list s).head? s

/-- A call for an entry succeeds, and takes at most this entry off the list. -/
def Steps (list : σ → List α) (call : α → σ → Option σ) (Inv : σ → Prop) : Prop :=
  ∀ s x, Inv s → x ∈ list s → ∃ s', call x s = some s' ∧ Inv s' ∧
    (list s' = (list s).erase x ∨ list s' = list s)

/-- A call for an entry succeeds and takes this entry off the list. -/
def Leaves (list : σ → List α) (call : α → σ → Option σ) (Inv : σ → Prop) : Prop :=
  ∀ s x, Inv s → x ∈ list s → ∃ s', call x s = some s' ∧ Inv s' ∧ list s' = (list s).erase x

variable {list : σ → List α} {call : α → σ → Option σ} {Inv : σ → Prop} {s : σ}

theorem following_append_cons {pre : List α} {x : α} (h : x ∉ pre) (rest : List α) :
    following (pre ++ x :: rest) x = rest.head? := by
  have hidx : (pre ++ x :: rest).idxOf x = pre.length := by
    rw [idxOf_append_of_notMem h, idxOf_cons_self, Nat.add_zero]
  rw [following, hidx, ← drop_drop, drop_left]
  rfl

theorem Leaves.steps (h : Leaves list call Inv) : Steps list call Inv := by
  intro s x hs hx
  obtain ⟨s', hcall, hs', hlist⟩ := h s x hs hx
  exact ⟨s', hcall, hs', .inl hlist⟩

/-- A walk calls for all entries that were there, one after the other. -/
theorem walk_eq_foldlM (h : Steps list call Inv) (hs : Inv s) (pre rest : List α)
    (hlist : list s = pre ++ rest) (hnodup : (list s).Nodup) :
    ∃ s', walk list call rest.length rest.head? s = some (s', rest) ∧ Inv s' ∧
      rest.foldlM (fun s x => call x s) s = some s' := by
  induction rest generalizing s pre with
  | nil => exact ⟨s, rfl, hs, rfl⟩
  | cons x rest ih =>
    have hx : x ∈ list s := hlist ▸ mem_append_right pre mem_cons_self
    obtain ⟨s₁, hcall, hs₁, hleft⟩ := h s x hs hx
    rw [hlist] at hnodup
    have hpre : x ∉ pre := fun hmem =>
      (nodup_append.mp hnodup).2.2 x hmem x mem_cons_self rfl
    have hnext : following (list s) x = rest.head? := hlist ▸ following_append_cons hpre rest
    -- the entries before `rest`, with or without `x`
    obtain ⟨pre₁, hlist₁, hnodup₁⟩ : ∃ pre₁, list s₁ = pre₁ ++ rest ∧ (list s₁).Nodup := by
      rcases hleft with hleft | hleft
      · rw [hlist, erase_append_right _ hpre, erase_cons_head] at hleft
        refine ⟨pre, hleft, ?_⟩
        rw [hleft]
        exact hnodup.sublist (List.Sublist.append_left (sublist_cons_self x rest) pre)
      · refine ⟨pre ++ [x], ?_, ?_⟩
        · rw [hleft, hlist, append_assoc, singleton_append]
        · rw [hleft, hlist]
          exact hnodup
    obtain ⟨s', hwalk, hs', hfold⟩ := ih hs₁ pre₁ hlist₁ hnodup₁
    refine ⟨s', ?_, hs', ?_⟩
    · simp only [length_cons, head?_cons, walk, hnext, hcall, Option.bind_eq_bind,
        Option.bind_some, hwalk, Option.pure_def]
    · simp only [foldlM_cons, hcall, bind_eq_bind, bind_some]
      exact hfold

theorem walkAll_eq_foldlM (h : Steps list call Inv) (hs : Inv s) (hnodup : (list s).Nodup) :
    ∃ s', walkAll list call s = some (s', list s) ∧ Inv s' ∧
      (list s).foldlM (fun s x => call x s) s = some s' :=
  walk_eq_foldlM h hs [] (list s) rfl hnodup

theorem foldlM_leaves (h : Leaves list call Inv) (hs : Inv s) {s' : σ} {l : List α}
    (hlist : list s = l) (hfold : l.foldlM (fun s x => call x s) s = some s') : list s' = [] := by
  induction l generalizing s with
  | nil =>
    cases hfold
    exact hlist
  | cons x l ih =>
    obtain ⟨s₁, hcall, hs₁, hlist₁⟩ := h s x hs (hlist ▸ mem_cons_self)
    rw [hlist, erase_cons_head] at hlist₁
    simp only [foldlM_cons, hcall, bind_eq_bind, bind_some] at hfold
    exact ih hs₁ hlist₁ hfold

theorem walkAll_leaves (h : Leaves list call Inv) (hs : Inv s) (hnodup : (list s).Nodup) :
    ∃ s', walkAll list call s = some (s', list s) ∧ Inv s' ∧ list s' = [] ∧
      (list s).foldlM (fun s x => call x s) s = some s' := by
  obtain ⟨s', hwalk, hs', hfold⟩ := walkAll_eq_foldlM h.steps hs hnodup
  exact ⟨s', hwalk, hs', foldlM_leaves h hs rfl hfold, hfold⟩

end PaxAdb.Walk
