import DanDB.Lib.Program
import DanDB.Lib.Runs

/-!
# Runs of programs

The calls of a program are a run of the machine that answers them.  A run of a sequence is
a run of its first half, and if that ends with a value, one of the second half from there.
-/

namespace Program

variable {ε κ ρ σ α β : Type} {machine : σ → κ → Option (ρ × σ)} {x : Program ε κ ρ α}
  {s s' : σ} {trace : List (κ × ρ)}

/-- The calls that a program makes, one after the other. -/
theorem runs_of_run {r : Except ε α} (hrun : x.run machine s = some (trace, r, s')) :
    Runs (fun s c r s' => machine s c = some (r, s')) s trace s' := by
  induction x generalizing s trace with
  | done r =>
    cases hrun
    exact .nil _
  | diverge => cases hrun
  | call c next ih =>
    rw [run] at hrun
    obtain ⟨⟨reply, t⟩, hcall, hrun⟩ := Option.bind_eq_some_iff.mp hrun
    obtain ⟨⟨trace', result, t'⟩, hrest, heq⟩ := Option.bind_eq_some_iff.mp hrun
    cases heq
    exact .cons hcall (ih reply hrest)

theorem Only.mem_trace {allowed : κ → Prop} (h : x.Only allowed) {r : Except ε α}
    (hrun : x.run machine s = some (trace, r, s')) : ∀ entry ∈ trace, allowed entry.1 := by
  induction x generalizing s trace with
  | done r =>
    cases hrun
    rintro _ ⟨⟩
  | diverge => cases hrun
  | call c next ih =>
    obtain ⟨⟨reply, t⟩, hcall, hrun⟩ := Option.bind_eq_some_iff.mp hrun
    obtain ⟨⟨trace', result, t'⟩, hrest, heq⟩ := Option.bind_eq_some_iff.mp hrun
    cases heq
    exact List.forall_mem_cons.mpr ⟨h.1, ih reply (h.2 reply) hrest⟩

theorem run_bind_cases {f : α → Program ε κ ρ β} {r : Except ε β}
    (hrun : (x >>= f).run machine s = some (trace, r, s')) :
    ∃ trace₁ r₁ s₁, x.run machine s = some (trace₁, r₁, s₁) ∧
      ((∃ e, r₁ = .error e ∧ r = .error e ∧ s' = s₁ ∧ trace = trace₁) ∨
        ∃ a trace₂, r₁ = .ok a ∧ (f a).run machine s₁ = some (trace₂, r, s') ∧
          trace = trace₁ ++ trace₂) := by
  induction x generalizing s trace with
  | done r₁ =>
    refine ⟨[], r₁, s, rfl, ?_⟩
    cases r₁ with
    | error e =>
      cases hrun
      exact .inl ⟨e, rfl, rfl, rfl, rfl⟩
    | ok a => exact .inr ⟨a, trace, rfl, hrun, rfl⟩
  | diverge => cases hrun
  | call c next ih =>
    rw [call_bind, run] at hrun
    obtain ⟨⟨reply, t⟩, hcall, hrun⟩ := Option.bind_eq_some_iff.mp hrun
    obtain ⟨⟨trace', result, t'⟩, hrest, heq⟩ := Option.bind_eq_some_iff.mp hrun
    cases heq
    obtain ⟨trace₁, r₁, s₁, hfirst, hcases⟩ := ih reply hrest
    refine ⟨(c, reply) :: trace₁, r₁, s₁, ?_, hcases.imp ?_ ?_⟩
    · exact Option.bind_eq_some_iff.mpr
        ⟨(reply, t), hcall, Option.bind_eq_some_iff.mpr ⟨_, hfirst, rfl⟩⟩
    · rintro ⟨e, herror, hr, hs, rfl⟩
      exact ⟨e, herror, hr, hs, rfl⟩
    · rintro ⟨a, trace₂, hok, hsecond, rfl⟩
      exact ⟨a, trace₂, hok, hsecond, rfl⟩

end Program
