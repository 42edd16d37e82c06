import Mathlib

/-!
# Runs of a machine

A machine answers calls one after the other: `step s c r s'` says that in the
state `s` the call `c` can get the answer `r` and leave the state `s'`.  A run
is a sequence of such steps, and its trace lists the calls with their answers.
-/

section Runs

variable {σ τ κ ρ : Type}

/-- A run, with its calls and the answers to them. -/
inductive Runs (step : σ → κ → ρ → σ → Prop) : σ → List (κ × ρ) → σ → Prop
  | nil (s : σ) : Runs step s [] s
  | cons {c : κ} {r : ρ} {s s' s'' : σ} {trace : List (κ × ρ)} (head : step s c r s')
      (tail : Runs step s' trace s'') : Runs step s ((c, r) :: trace) s''

namespace Runs

variable {step : σ → κ → ρ → σ → Prop} {s s' s'' : σ} {trace trace' : List (κ × ρ)}

theorem append (h : Runs step s trace s') (h' : Runs step s' trace' s'') :
    Runs step s (trace ++ trace') s'' := by
  induction h with
  | nil => exact h'
  | cons head _ ih => exact .cons head (ih h')

/-- A run splits where its trace does. -/
theorem split (h : Runs step s (trace ++ trace') s'') :
    ∃ s', Runs step s trace s' ∧ Runs step s' trace' s'' := by
  induction trace generalizing s with
  | nil => exact ⟨s, .nil s, h⟩
  | cons entry trace ih =>
    rw [List.cons_append] at h
    cases h with
    | cons head tail =>
      obtain ⟨s', hfirst, hsecond⟩ := ih tail
      exact ⟨s', .cons head hfirst, hsecond⟩

/-- What every step keeps, every run keeps. -/
theorem preserves (h : Runs step s trace s') {inv : σ → Prop}
    (hstep : ∀ c r s s', (c, r) ∈ trace → step s c r s' → inv s → inv s') (hs : inv s) :
    inv s' := by
  induction h with
  | nil => exact hs
  | cons head _ ih =>
    exact ih (fun c r s s' hmem => hstep c r s s' (List.mem_cons_of_mem _ hmem))
      (hstep _ _ _ _ (List.mem_cons_self ..) head hs)

/-- Forward simulation: when every step of one machine is a step of another, as
far as a relation between their states tells, so is every run. -/
theorem simulates {step' : τ → κ → ρ → τ → Prop} {t : τ} (h : Runs step s trace s')
    (rel : σ → τ → Prop)
    (hstep : ∀ c r s s' t, (c, r) ∈ trace → step s c r s' → rel s t →
      ∃ t', step' t c r t' ∧ rel s' t') (hs : rel s t) :
    ∃ t', Runs step' t trace t' ∧ rel s' t' := by
  induction h generalizing t with
  | nil => exact ⟨t, .nil t, hs⟩
  | cons head _ ih =>
    obtain ⟨t', hfirst, hrel⟩ := hstep _ _ _ _ t (List.mem_cons_self ..) head hs
    obtain ⟨t'', hrest, hrel'⟩ :=
      ih (fun c r s s' t hmem => hstep c r s s' t (List.mem_cons_of_mem _ hmem)) hrel
    exact ⟨t'', .cons hfirst hrest, hrel'⟩

end Runs

end Runs
