import Mathlib.Tactic

/-!
# Procedures with a state and early exits

A procedure runs on a state and either ends with a result or leaves early with an exit value. What
it does to the state is described by a relation between the state before and after; a relation that
is reflexive and transitive passes through every construct.
-/

def Proc (σ ε α : Type) : Type := σ → Except ε α × σ

namespace Proc

open IsPreorder

variable {σ ε α β : Type}

instance : Monad (Proc σ ε) where
  pure a := fun s => (.ok a, s)
  bind x f := fun s =>
    match x s with
    | (.ok a, s) => f a s
    | (.error e, s) => (.error e, s)

def exit (e : ε) : Proc σ ε α := fun s => (.error e, s)

def state : Proc σ ε σ := fun s => (.ok s, s)

def update (f : σ → σ) : Proc σ ε Unit := fun s => (.ok (), f s)

def exitAs (f : ε → ε) (x : Proc σ ε α) : Proc σ ε α := fun s =>
  match x s with
  | (.ok a, s) => (.ok a, s)
  | (.error e, s) => (.error (f e), s)

def attempt (x : Proc σ ε α) : Proc σ ε (Except ε α) := fun s => (.ok (x s).1, (x s).2)

@[simp] theorem pure_apply (a : α) (s : σ) : (pure a : Proc σ ε α) s = (.ok a, s) := rfl

@[simp] theorem exit_apply (e : ε) (s : σ) : (exit e : Proc σ ε α) s = (.error e, s) := rfl

@[simp] theorem state_apply (s : σ) : (state : Proc σ ε σ) s = (.ok s, s) := rfl

@[simp] theorem update_apply (f : σ → σ) (s : σ) : (update f : Proc σ ε Unit) s = (.ok (), f s) :=
  rfl

@[simp] theorem attempt_apply (x : Proc σ ε α) (s : σ) :
    attempt x s = (.ok (x s).1, (x s).2) := rfl

theorem bind_apply (x : Proc σ ε α) (f : α → Proc σ ε β) (s : σ) :
    (x >>= f) s =
      match x s with
      | (.ok a, s) => f a s
      | (.error e, s) => (.error e, s) := rfl

instance : LawfulMonad (Proc σ ε) := LawfulMonad.mk' _
  (fun x => by
    funext s
    change (x >>= fun a => pure (id a)) s = x s
    rw [bind_apply]
    rcases x s with ⟨_ | _, _⟩ <;> rfl)
  (fun _ _ => rfl)
  (fun x f g => by
    funext s
    rw [bind_apply, bind_apply, bind_apply]
    rcases x s with ⟨_ | _, _⟩ <;> rfl)

variable {x y : Proc σ ε α}

theorem bind_of_ok {s s' : σ} {a : α} (f : α → Proc σ ε β)
    (h : x s = (.ok a, s')) : (x >>= f) s = f a s' := by
  rw [bind_apply, h]

theorem bind_of_error {s s' : σ} {e : ε} (f : α → Proc σ ε β)
    (h : x s = (.error e, s')) : (x >>= f) s = (.error e, s') := by
  rw [bind_apply, h]

theorem exitAs_of_ok {s s' : σ} {a : α} (g : ε → ε) (h : x s = (.ok a, s')) :
    exitAs g x s = (.ok a, s') := by
  rw [exitAs, h]

theorem exitAs_of_error {s s' : σ} {e : ε} (g : ε → ε)
    (h : x s = (.error e, s')) : exitAs g x s = (.error (g e), s') := by
  rw [exitAs, h]

theorem bind_ok_iff (x : Proc σ ε α) (f : α → Proc σ ε β) (s s'' : σ) (b : β) :
    (x >>= f) s = (.ok b, s'') ↔ ∃ a s', x s = (.ok a, s') ∧ f a s' = (.ok b, s'') := by
  rw [bind_apply]
  rcases hx : x s with ⟨a | a, s'⟩
  · constructor
    · intro h
      cases h
    · rintro ⟨_, _, h, _⟩
      cases h
  · constructor
    · intro h
      exact ⟨a, s', rfl, h⟩
    · rintro ⟨_, _, h, hf⟩
      cases h
      exact hf

/-- Whatever `x` is run on, the state before and the state after are related by `R`. -/
def Within (R : σ → σ → Prop) (x : Proc σ ε α) : Prop := ∀ s, R s (x s).2

namespace Within

variable {R : σ → σ → Prop} {x : Proc σ ε α} {f : α → Proc σ ε β}

theorem mono {R' : σ → σ → Prop} (hx : Within R x) (h : ∀ s s', R s s' → R' s s') :
    Within R' x := fun s => h _ _ (hx s)

theorem ite {p : Prop} [Decidable p] (hx : p → Within R x)
    (hy : ¬p → Within R y) : Within R (if p then x else y) := by
  by_cases hp : p
  · rw [if_pos hp]
    exact hx hp
  · rw [if_neg hp]
    exact hy hp

theorem exitAs (g : ε → ε) (hx : Within R x) : Within R (exitAs g x) := by
  intro s
  have hs := hx s
  rw [Proc.exitAs]
  rcases hxs : x s with ⟨e | a, s'⟩ <;> rw [hxs] at hs <;> exact hs

variable [IsPreorder σ R]

theorem pure (a : α) : Within R (pure a : Proc σ ε α) := fun s => toRefl.refl s

theorem exit (e : ε) : Within R (exit e : Proc σ ε α) := fun s => toRefl.refl s

theorem state : Within R (state : Proc σ ε σ) := fun s => toRefl.refl s

/-- From some state on, which `x` goes through, only `R` happens. -/
theorem bind_after {s₁ s : σ} (hx : R s₁ (x s).2) (hf : ∀ a, Within R (f a)) :
    R s₁ ((x >>= f) s).2 := by
  rw [bind_apply]
  rcases hxs : x s with ⟨e | a, s'⟩ <;> rw [hxs] at hx
  · exact hx
  · exact toIsTrans.trans _ _ _ hx (hf a s')

theorem bind (hx : Within R x) (hf : ∀ a, Within R (f a)) : Within R (x >>= f) :=
  fun s => bind_after (hx s) hf

end Within

def Exits (E : ε → Prop) (x : Proc σ ε α) : Prop := ∀ s e s', x s = (.error e, s') → E e

namespace Exits

variable {E : ε → Prop} {x : Proc σ ε α} {f : α → Proc σ ε β}

theorem pure (a : α) : Exits E (pure a : Proc σ ε α) := fun _ _ _ h => nomatch h

theorem exit {e : ε} (he : E e) : Exits E (exit e : Proc σ ε α) := by
  intro s e' s' h
  cases h
  exact he

theorem bind (hx : Exits E x) (hf : ∀ a, Exits E (f a)) : Exits E (x >>= f) := by
  intro s e s'' h
  rw [bind_apply] at h
  rcases hxs : x s with ⟨e' | a, s'⟩ <;> rw [hxs] at h
  · cases h
    exact hx _ _ _ hxs
  · exact hf a _ _ _ h

theorem ite {p : Prop} [Decidable p] (hx : Exits E x) (hy : Exits E y) :
    Exits E (if p then x else y) := by
  by_cases hp : p
  · rw [if_pos hp]
    exact hx
  · rw [if_neg hp]
    exact hy

end Exits

def Total (x : Proc σ ε α) : Prop := ∀ s, ∃ a s', x s = (.ok a, s')

namespace Total

variable {x : Proc σ ε α} {f : α → Proc σ ε β}

theorem pure (a : α) : Total (pure a : Proc σ ε α) := fun s => ⟨a, s, rfl⟩

theorem update (f : σ → σ) : Total (update f : Proc σ ε Unit) := fun s => ⟨(), f s, rfl⟩

theorem bind (hx : Total x) (hf : ∀ a, Total (f a)) : Total (x >>= f) := by
  intro s
  obtain ⟨a, s', hxs⟩ := hx s
  rw [bind_of_ok f hxs]
  exact hf a s'

theorem ite {p : Prop} [Decidable p] (hx : Total x) (hy : Total y) :
    Total (if p then x else y) := by
  by_cases hp : p
  · rw [if_pos hp]
    exact hx
  · rw [if_neg hp]
    exact hy

theorem exits (hx : Total x) (E : ε → Prop) : Exits E x := by
  intro s e s' h
  obtain ⟨a, s'', hxs⟩ := hx s
  cases hxs.symm.trans h

theorem within {R : σ → σ → Prop} (hx : Total x) (hR : Within R x) (s : σ) :
    ∃ a s', x s = (.ok a, s') ∧ R s s' := by
  obtain ⟨a, s', hxs⟩ := hx s
  have hs := hR s
  rw [hxs] at hs
  exact ⟨a, s', hxs, hs⟩

end Total

end Proc
