import Mathlib

/-!
# Walks along edges

A walk goes from a vertex to a next one for as long as there is one.  Among
finitely many vertices a walk that comes to no cycle ends: it comes closer to its
end with every edge, and it has fewer edges than there are vertices.
-/

namespace Walks

open Relation

variable {V : Type} {edge : V → V → Prop} {v w : V}

/-- No vertex behind the start is behind itself. -/
def AcyclicFrom (edge : V → V → Prop) (start : V) : Prop :=
  ∀ v, ReflTransGen edge start v → ¬TransGen edge v v

/-- The number of vertices that are still behind one. -/
noncomputable def remaining (edge : V → V → Prop) (v : V) : Nat := {w | TransGen edge v w}.ncard

/-- Edges that only go up make no cycle. -/
theorem acyclicFrom_of_rank (rank : V → Nat) (h : ∀ v w, edge v w → rank v < rank w) (start : V) :
    AcyclicFrom edge start := by
  intro v _ hcycle
  have hup : ∀ w, TransGen edge v w → rank v < rank w := by
    intro w hw
    induction hw with
    | single hstep => exact h _ _ hstep
    | tail _ hstep ih => exact ih.trans (h _ _ hstep)
  exact (hup v hcycle).false

theorem AcyclicFrom.trans (h : AcyclicFrom edge v) (hreach : ReflTransGen edge v w) :
    AcyclicFrom edge w := fun u hu => h u (hreach.trans hu)

theorem AcyclicFrom.step (h : AcyclicFrom edge v) (hstep : edge v w) : AcyclicFrom edge w :=
  h.trans (.single hstep)

variable [Finite V]

theorem AcyclicFrom.remaining_lt_card (h : AcyclicFrom edge v) : remaining edge v < Nat.card V := by
  have hself : v ∉ {w | TransGen edge v w} := h v .refl
  rw [remaining, ← Set.ncard_univ]
  exact Set.ncard_lt_ncard (Set.ssubset_univ_iff.mpr fun huniv => hself (huniv ▸ Set.mem_univ v))

/-- With every edge fewer vertices remain. -/
theorem AcyclicFrom.remaining_lt (h : AcyclicFrom edge v) (hstep : edge v w) :
    remaining edge w < remaining edge v := by
  refine Set.ncard_lt_ncard ⟨fun u hu => .head hstep hu, fun hsub => ?_⟩
  exact h w (.single hstep) (hsub (TransGen.single hstep))

theorem AcyclicFrom.remaining_lt_of_reach (h : AcyclicFrom edge v) (hreach : ReflTransGen edge v w)
    (hne : w ≠ v) : remaining edge w < remaining edge v := by
  obtain rfl | ⟨u, hstep, hrest⟩ := hreach.cases_head
  · exact absurd rfl hne
  · refine Nat.lt_of_le_of_lt ?_ (h.remaining_lt hstep)
    exact Set.ncard_le_ncard fun x hx => TransGen.trans_right hrest hx

/-- A loop with fuel that goes along an edge in every round has enough of it. -/
theorem AcyclicFrom.induction {P : Nat → V → Prop} (h : AcyclicFrom edge v)
    (hstep : ∀ fuel v, AcyclicFrom edge v → (∀ w, edge v w → P fuel w) → P (fuel + 1) v)
    {fuel : Nat} (hfuel : remaining edge v < fuel) : P fuel v := by
  induction fuel generalizing v with
  | zero => exact absurd hfuel (Nat.not_lt_zero _)
  | succ fuel ih =>
    refine hstep fuel v h fun w hw => ih (h.step hw) ?_
    exact Nat.lt_of_lt_of_le (h.remaining_lt hw) (Nat.le_of_lt_succ hfuel)

end Walks
