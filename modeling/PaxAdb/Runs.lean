import Mathlib.Logic.Relation
import Mathlib.Tactic

/-!
# Runs of a labelled step function

A machine is a partial step function: `step s a = some s'` when action `a` is enabled in `s` and
leads to `s'`. `Run step ok` is the relation between the two ends of a run all of whose steps
satisfy `ok` in the state they start from.
-/

namespace Runs

variable {σ α : Type*} {step : σ → α → Option σ} {ok : σ → α → Prop}

def Run (step : σ → α → Option σ) (ok : σ → α → Prop) : σ → σ → Prop :=
  Relation.ReflTransGen (fun s s' => ∃ a, ok s a ∧ step s a = some s')

/-- The induction rule for properties of every state of a run. -/
theorem Run.invariant {I : σ → Prop} {s₀ s : σ} (h : Run step ok s₀ s) (h₀ : I s₀)
    (hstep : ∀ s a s', I s → ok s a → step s a = some s' → I s') : I s := by
  induction h with
  | refl => exact h₀
  | tail _ hlast ih =>
    obtain ⟨a, hok, hs⟩ := hlast
    exact hstep _ a _ ih hok hs

theorem Run.mono {ok' : σ → α → Prop} (himp : ∀ s a, ok s a → ok' s a) {s₀ s : σ}
    (h : Run step ok s₀ s) : Run step ok' s₀ s :=
  Relation.ReflTransGen.mono (fun _ _ ⟨a, hok, hs⟩ => ⟨a, himp _ a hok, hs⟩) _ _ h

def exec (step : σ → α → Option σ) : σ → List α → Option σ
  | s, [] => some s
  | s, a :: as => (step s a).bind (fun s' => exec step s' as)

theorem run_of_exec {s s' : σ} {as : List α} (hok : ∀ a ∈ as, ∀ s, ok s a)
    (h : exec step s as = some s') : Run step ok s s' := by
  induction as generalizing s with
  | nil =>
    cases h
    exact Relation.ReflTransGen.refl
  | cons a as ih =>
    obtain ⟨s₁, hs, hrest⟩ := Option.bind_eq_some_iff.mp h
    exact Relation.ReflTransGen.head ⟨a, hok a List.mem_cons_self s, hs⟩
      (ih (fun b hb => hok b (List.mem_cons_of_mem a hb)) hrest)

theorem exec_append (s : σ) (as bs : List α) :
    exec step s (as ++ bs) = (exec step s as).bind (fun s' => exec step s' bs) := by
  induction as generalizing s with
  | nil => rfl
  | cons a as ih =>
    cases hs : step s a with
    | none => simp only [List.cons_append, exec, hs, Option.bind_none]
    | some s' => simp only [List.cons_append, exec, hs, Option.bind_some, ih]

theorem exec_snoc (s : σ) (as : List α) (a : α) :
    exec step s (as ++ [a]) = (exec step s as).bind (fun s' => step s' a) := by
  rw [exec_append]
  congr 1
  funext s'
  exact Option.bind_fun_some _

theorem Run.snoc {s₀ s s' : σ} {a : α} (h : Run step ok s₀ s) (hok : ok s a)
    (hs : step s a = some s') : Run step ok s₀ s' :=
  Relation.ReflTransGen.tail h ⟨a, hok, hs⟩

/-- A run is one of a larger machine, too, when each of its steps is. -/
theorem Run.lift {τ β : Type*} {step' : τ → β → Option τ} {ok' : τ → β → Prop} {s₀ s : σ}
    (g : σ → τ) (f : α → β)
    (hstep : ∀ s a s', ok s a → step s a = some s' →
      ok' (g s) (f a) ∧ step' (g s) (f a) = some (g s'))
    (h : Run step ok s₀ s) : Run step' ok' (g s₀) (g s) := by
  refine Relation.ReflTransGen.lift g ?_ _ _ h
  rintro s s' ⟨a, hok, hs⟩
  exact ⟨f a, hstep s a s' hok hs⟩

end Runs
