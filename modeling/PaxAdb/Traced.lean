import Mathlib.Logic.Relation
import Mathlib.Tactic

/-!
# Computations that leave a trace

A traced computation ends with a result or leaves early with an exit value, and notes on its way
what it touches. A loop runs its body on a state again and again until the body leaves early.
-/

structure Traced (τ ε α : Type) where
  trace : List τ
  result : Except ε α

namespace Traced

variable {τ ε α β σ : Type}

instance : Monad (Traced τ ε) where
  pure a := ⟨[], .ok a⟩
  bind x f :=
    match x.result with
    | .ok a => ⟨x.trace ++ (f a).trace, (f a).result⟩
    | .error e => ⟨x.trace, .error e⟩

def exit (e : ε) : Traced τ ε α := ⟨[], .error e⟩

def note (t : τ) (a : α) : Traced τ ε α := ⟨[t], .ok a⟩

@[simp] theorem trace_pure (a : α) : (pure a : Traced τ ε α).trace = [] := rfl

@[simp] theorem result_pure (a : α) : (pure a : Traced τ ε α).result = .ok a := rfl

@[simp] theorem trace_exit (e : ε) : (exit e : Traced τ ε α).trace = [] := rfl

@[simp] theorem result_exit (e : ε) : (exit e : Traced τ ε α).result = .error e := rfl

@[simp] theorem trace_note_bind (t : τ) (a : α) (f : α → Traced τ ε β) :
    (note t a >>= f).trace = t :: (f a).trace := rfl

@[simp] theorem result_note_bind (t : τ) (a : α) (f : α → Traced τ ε β) :
    (note t a >>= f).result = (f a).result := rfl

theorem bind_of_ok {x : Traced τ ε α} {a : α} (f : α → Traced τ ε β) (h : x.result = .ok a) :
    x >>= f = ⟨x.trace ++ (f a).trace, (f a).result⟩ := by
  change (match x.result with
    | .ok a => (⟨x.trace ++ (f a).trace, (f a).result⟩ : Traced τ ε β)
    | .error e => ⟨x.trace, .error e⟩) = _
  rw [h]

theorem bind_of_error {x : Traced τ ε α} {e : ε} (f : α → Traced τ ε β)
    (h : x.result = .error e) : x >>= f = ⟨x.trace, .error e⟩ := by
  change (match x.result with
    | .ok a => (⟨x.trace ++ (f a).trace, (f a).result⟩ : Traced τ ε β)
    | .error e => ⟨x.trace, .error e⟩) = _
  rw [h]

theorem result_bind_ok_iff (x : Traced τ ε α) (f : α → Traced τ ε β) (b : β) :
    (x >>= f).result = .ok b ↔ ∃ a, x.result = .ok a ∧ (f a).result = .ok b := by
  cases hx : x.result with
  | error e =>
    rw [bind_of_error f hx]
    simp
  | ok a =>
    rw [bind_of_ok f hx]
    simp

/-- Whatever is touched is in `P`. -/
def Touches (P : τ → Prop) (x : Traced τ ε α) : Prop := ∀ t ∈ x.trace, P t

namespace Touches

variable {P : τ → Prop} {x y : Traced τ ε α} {f : α → Traced τ ε β}

theorem pure (a : α) : Touches P (pure a : Traced τ ε α) := fun _ ht => nomatch ht

theorem exit (e : ε) : Touches P (exit e : Traced τ ε α) := fun _ ht => nomatch ht

theorem note_bind_iff {t : τ} {a : α} :
    Touches P (note t a >>= f) ↔ P t ∧ Touches P (f a) := by
  simp [Touches]

theorem note_bind {t : τ} {a : α} (ht : P t) (hf : Touches P (f a)) :
    Touches P (note t a >>= f) := note_bind_iff.mpr ⟨ht, hf⟩

theorem bind_iff_of_ok {a : α} (hx : x.result = .ok a) :
    Touches P (x >>= f) ↔ Touches P x ∧ Touches P (f a) := by
  rw [bind_of_ok f hx, Touches, List.forall_mem_append]
  rfl

theorem bind (hx : Touches P x) (hf : ∀ a, Touches P (f a)) : Touches P (x >>= f) := by
  cases hres : x.result with
  | ok a => exact (bind_iff_of_ok hres).mpr ⟨hx, hf a⟩
  | error e =>
    rw [bind_of_error f hres]
    exact hx

theorem ite {p : Prop} [Decidable p] (hx : p → Touches P x) (hy : ¬p → Touches P y) :
    Touches P (if p then x else y) := by
  by_cases hp : p
  · rw [if_pos hp]
    exact hx hp
  · rw [if_neg hp]
    exact hy hp

end Touches

section Loop

variable {body : σ → Traced τ ε σ} {s s' : σ}

def loop (body : σ → Traced τ ε σ) : ℕ → σ → Traced τ ε σ
  | 0, s => pure s
  | k + 1, s => body s >>= loop body k

def Reaches (body : σ → Traced τ ε σ) : σ → σ → Prop :=
  Relation.ReflTransGen (fun s s' => (body s).result = .ok s')

def Ends (body : σ → Traced τ ε σ) (s : σ) : Prop := ∃ k e, (loop body k s).result = .error e

theorem loop_succ_of_ok {k : ℕ} (h : (loop body k s).result = .ok s') :
    loop body (k + 1) s =
      ⟨(loop body k s).trace ++ (body s').trace, (body s').result⟩ := by
  induction k generalizing s with
  | zero =>
    obtain rfl : s = s' := Except.ok.inj h
    cases hs : (body s).result with
    | ok s₁ => exact (bind_of_ok _ hs).trans (by simp [loop])
    | error e => exact (bind_of_error _ hs).trans (by simp [loop])
  | succ k ih =>
    obtain ⟨s₁, hs, hrest⟩ := (result_bind_ok_iff _ _ _).mp h
    have hfirst : loop body (k + 1) s =
        ⟨(body s).trace ++ (loop body k s₁).trace, (loop body k s₁).result⟩ := bind_of_ok _ hs
    calc loop body (k + 1 + 1) s
        = ⟨(body s).trace ++ (loop body (k + 1) s₁).trace, (loop body (k + 1) s₁).result⟩ :=
          bind_of_ok _ hs
      _ = _ := by rw [ih hrest, hfirst, List.append_assoc]

/-- A loop leaves early with `e` exactly when it comes to a state in which its body does. -/
theorem loop_error_iff {e : ε} :
    (∃ k, (loop body k s).result = .error e) ↔
      ∃ s', Reaches body s s' ∧ (body s').result = .error e := by
  constructor
  · rintro ⟨k, hk⟩
    induction k generalizing s with
    | zero => cases hk
    | succ k ih =>
      cases hs : (body s).result with
      | error e' =>
        rw [loop, bind_of_error _ hs] at hk
        exact ⟨s, .refl, hs.trans hk⟩
      | ok s₁ =>
        rw [loop, bind_of_ok _ hs] at hk
        obtain ⟨s', hreach, he⟩ := ih hk
        exact ⟨s', .head hs hreach, he⟩
  · rintro ⟨s', hreach, he⟩
    induction hreach using Relation.ReflTransGen.head_induction_on with
    | refl => exact ⟨1, by rw [loop, bind_of_error _ he]⟩
    | head hs _ ih =>
      obtain ⟨k, hk⟩ := ih
      exact ⟨k + 1, by rw [loop, bind_of_ok _ hs]; exact hk⟩

theorem ends_iff_reaches :
    Ends body s ↔ ∃ s' e, Reaches body s s' ∧ (body s').result = .error e := by
  constructor
  · rintro ⟨k, e, hk⟩
    obtain ⟨s', hs'⟩ := loop_error_iff.mp ⟨k, hk⟩
    exact ⟨s', e, hs'⟩
  · rintro ⟨s', e, hs'⟩
    obtain ⟨k, hk⟩ := loop_error_iff.mpr ⟨s', hs'⟩
    exact ⟨k, e, hk⟩

/-- A loop in which something gets smaller in each round ends. -/
theorem Ends.of_measure (μ : σ → ℕ)
    (h : ∀ s₁ s₂, Reaches body s s₁ → (body s₁).result = .ok s₂ → μ s₂ < μ s₁) : Ends body s := by
  suffices hall : ∀ n s₁, μ s₁ = n → Reaches body s s₁ →
      ∃ s' e, Reaches body s s' ∧ (body s').result = .error e from
    ends_iff_reaches.mpr (hall _ s rfl .refl)
  intro n
  induction n using Nat.strong_induction_on with
  | _ n ih =>
    intro s₁ hn hreach
    cases hs : (body s₁).result with
    | error e => exact ⟨s₁, e, hreach, hs⟩
    | ok s₂ => exact ih _ (hn ▸ h s₁ s₂ hreach hs) s₂ rfl (hreach.tail hs)

/-- A loop that comes to a state and stays there does not end. -/
theorem not_ends_of_stuck (hreach : Reaches body s s') (hstuck : (body s').result = .ok s') :
    ¬Ends body s := by
  intro hends
  obtain ⟨s₁, e, hreach₁, he⟩ := ends_iff_reaches.mp hends
  have hunique : Relator.RightUnique fun s s' => (body s).result = .ok s' := by
    intro a b c hb hc
    exact Except.ok.inj (hb.symm.trans hc)
  have hstay : ∀ s₂, Reaches body s' s₂ → s₂ = s' := by
    intro s₂ h
    induction h with
    | refl => rfl
    | tail _ hlast ih =>
      rw [ih] at hlast
      exact Except.ok.inj (hlast.symm.trans hstuck)
  rcases Relation.ReflTransGen.total_of_right_unique hunique hreach hreach₁ with h | h
  · rw [hstay s₁ h, hstuck] at he
    cases he
  · rcases Relation.ReflTransGen.cases_head h with rfl | ⟨s₂, hs₂, -⟩
    · rw [hstuck] at he
      cases he
    · cases hs₂.symm.trans he

/-- What a loop touches is what its body touches in the states it comes to. -/
theorem loop_touches_iff (P : τ → Prop) :
    (∀ k, Touches P (loop body k s)) ↔ ∀ s', Reaches body s s' → Touches P (body s') := by
  constructor
  · intro h s' hreach
    induction hreach using Relation.ReflTransGen.head_induction_on with
    | refl =>
      have hone := h 1
      cases hs : (body s').result with
      | ok s₁ => exact ((Touches.bind_iff_of_ok hs).mp hone).1
      | error e =>
        rw [loop, bind_of_error _ hs] at hone
        exact hone
    | head hs _ ih => exact ih fun k => ((Touches.bind_iff_of_ok hs).mp (h (k + 1))).2
  · intro h k
    induction k generalizing s with
    | zero => exact .pure s
    | succ k ih =>
      cases hs : (body s).result with
      | ok s₁ =>
        exact (Touches.bind_iff_of_ok hs).mpr
          ⟨h s .refl, ih fun s' hreach => h s' (.head hs hreach)⟩
      | error e =>
        rw [loop, bind_of_error _ hs]
        exact h s .refl

end Loop

end Traced
