import DanDB.Lib.Proc

/-!
# Parts of a state that a procedure leaves alone

Whatever comes of the procedure, the part is afterwards what it was before.
-/

namespace Proc

variable {ε σ τ α β γ ι : Type}

/-- The procedure leaves a part of the state as it is. -/
def Leaves (part : σ → γ) (x : Proc ε σ α) : Prop := ∀ s, part (x.run s).2 = part s

variable {part : σ → γ} {x : Proc ε σ α}

theorem leaves_pure (a : α) : Leaves part (pure a : Proc ε σ α) := fun _ => rfl

theorem leaves_fail (e : ε) : Leaves part (fail e : Proc ε σ α) := fun _ => rfl

theorem leaves_get : Leaves part (get : Proc ε σ σ) := fun _ => rfl

theorem leaves_ofExcept (r : Except ε α) : Leaves part (ofExcept r : Proc ε σ α) := fun _ => rfl

/-- A change of another part. -/
theorem leaves_modify {f : σ → σ} (h : ∀ s, part (f s) = part s) :
    Leaves part (modify f : Proc ε σ Unit) := h

theorem leaves_failIf (condition : Prop) [Decidable condition] (e : ε) :
    Leaves part (failIf condition e : Proc ε σ Unit) := by
  unfold failIf
  split
  · exact leaves_fail e
  · exact leaves_pure ()

/-- A sequence leaves what its parts leave. -/
theorem Leaves.bind {f : α → Proc ε σ β} (h : Leaves part x) (hf : ∀ a, Leaves part (f a)) :
    Leaves part (x >>= f) := by
  intro s
  rw [bind_run]
  have hs := h s
  rcases hrun : x.run s with ⟨e | a, s'⟩
  · rw [hrun] at hs
    exact hs
  · rw [hrun] at hs
    exact (hf a s').trans hs

theorem Leaves.attempt (h : Leaves part x) : Leaves part (attempt x) := h

/-- So does a loop. -/
theorem leaves_forEach {f : ι → Proc ε σ Unit} (h : ∀ i, Leaves part (f i)) (is : List ι) :
    Leaves part (forEach f is) := by
  induction is with
  | nil => exact leaves_pure ()
  | cons i is ih => exact (h i).bind fun _ => ih

theorem leaves_collect {f : ι → Proc ε σ α} (h : ∀ i, Leaves part (f i)) (is : List ι) :
    Leaves part (collect f is) := by
  induction is with
  | nil => exact leaves_pure []
  | cons i is ih => exact (h i).bind fun a => ih.bind fun as => leaves_pure (a :: as)

/-- A procedure on another part of the state. -/
theorem leaves_zoom {get : τ → σ} {update : σ → τ → τ} {part : τ → γ} {x : Proc ε σ α}
    (h : ∀ s t, part (update s t) = part t) : Leaves part (zoom get update x) :=
  fun t => h (x.run (get t)).2 t

end Proc
