import Mathlib

/-!
# Procedures that can fail

A procedure runs on a state and ends with a value or an error.  The changes it
made before it failed stay made, as they do for a function that returns an
error code in the middle of its body.

`Yields x s post` says that running `x` from `s` ends in an outcome and a state
that satisfy `post`.  The rules below take it apart along the structure of the
procedure, so a proof about a procedure follows its text: one rule for a sequence
of two procedures, one for a loop over a list, and one for a procedure on a part of
the state.
-/

/-- A computation on a state `σ` that ends with an `α` or an error `ε`. -/
def Proc (ε σ α : Type) := σ → Except ε α × σ

namespace Proc

variable {ε σ τ α β ι : Type}

/-- Run a procedure from a state. -/
def run (x : Proc ε σ α) (s : σ) : Except ε α × σ := x s

instance : Monad (Proc ε σ) where
  pure a := fun s => (.ok a, s)
  bind x f := fun s =>
    match x s with
    | (.ok a, s') => f a s'
    | (.error e, s') => (.error e, s')

/-- The state. -/
def get : Proc ε σ σ := fun s => (.ok s, s)

/-- Change the state. -/
def modify (f : σ → σ) : Proc ε σ Unit := fun s => (.ok (), f s)

/-- End with an error. -/
def fail (e : ε) : Proc ε σ α := fun s => (.error e, s)

/-- An outcome that does not depend on the state. -/
def ofExcept (r : Except ε α) : Proc ε σ α := fun s => (r, s)

/-- `if(condition) return error;` -/
def failIf (condition : Prop) [Decidable condition] (e : ε) : Proc ε σ Unit :=
  if condition then fail e else pure ()

/-- Run a procedure and go on with its outcome, whether a value or an error. -/
def attempt (x : Proc ε σ α) : Proc ε σ (Except ε α) := fun s =>
  match x s with
  | (r, s') => (.ok r, s')

/-- Run a procedure on a part of the state. -/
def zoom (part : τ → σ) (update : σ → τ → τ) (x : Proc ε σ α) : Proc ε τ α := fun t =>
  match x (part t) with
  | (r, s) => (r, update s t)

/-- Run a procedure for each element of a list, up to the first failure. -/
def forEach (f : ι → Proc ε σ Unit) : List ι → Proc ε σ Unit
  | [] => pure ()
  | i :: is => do
    f i
    forEach f is

/-- Run a procedure for each element of a list and collect the values. -/
def collect (f : ι → Proc ε σ α) : List ι → Proc ε σ (List α)
  | [] => pure []
  | i :: is => do
    let a ← f i
    let as ← collect f is
    return a :: as

/-! ## Equations -/

section Equations

variable (s : σ)

@[simp] theorem pure_run (a : α) : (pure a : Proc ε σ α).run s = (.ok a, s) := rfl

theorem bind_run (x : Proc ε σ α) (f : α → Proc ε σ β) :
    (x >>= f).run s =
      match x.run s with
      | (.ok a, s') => (f a).run s'
      | (.error e, s') => (.error e, s') := rfl

/-- What follows a success starts where it ended. -/
theorem bind_run_ok {x : Proc ε σ α} {f : α → Proc ε σ β} {s s' : σ} {a : α}
    (h : x.run s = (.ok a, s')) : (x >>= f).run s = (f a).run s' := by
  rw [bind_run, h]

/-- Nothing follows an error. -/
theorem bind_run_error {x : Proc ε σ α} {f : α → Proc ε σ β} {s s' : σ} {e : ε}
    (h : x.run s = (.error e, s')) : (x >>= f).run s = (.error e, s') := by
  rw [bind_run, h]

@[simp] theorem modify_run (f : σ → σ) :
    (modify f : Proc ε σ Unit).run s = (.ok (), f s) := rfl

@[simp] theorem fail_run (e : ε) : (fail e : Proc ε σ α).run s = (.error e, s) := rfl

@[simp] theorem ofExcept_run (r : Except ε α) :
    (ofExcept r : Proc ε σ α).run s = (r, s) := rfl

@[simp] theorem get_bind_run (f : σ → Proc ε σ β) : (get >>= f).run s = (f s).run s := rfl

@[simp] theorem modify_bind_run (g : σ → σ) (f : Unit → Proc ε σ β) :
    (modify g >>= f).run s = (f ()).run (g s) := rfl

theorem bind_assoc_run (x : Proc ε σ α) (f : α → Proc ε σ β) {γ : Type}
    (g : β → Proc ε σ γ) :
    ((x >>= f) >>= g).run s = (x >>= fun a => f a >>= g).run s := by
  simp only [bind_run]
  rcases x.run s with ⟨_ | _, _⟩ <;> rfl

theorem failIf_run_of {condition : Prop} [Decidable condition] (h : condition) (e : ε) :
    (failIf condition e).run s = (.error e, s) := by
  rw [failIf, if_pos h, fail_run]

theorem failIf_run_of_not {condition : Prop} [Decidable condition] (h : ¬condition) (e : ε) :
    (failIf condition e).run s = (.ok (), s) := by
  rw [failIf, if_neg h, pure_run]

/-- A procedure on a part leaves the rest. -/
theorem zoom_run (part : τ → σ) (update : σ → τ → τ) (x : Proc ε σ α) (t : τ) :
    (zoom part update x).run t = ((x.run (part t)).1, update (x.run (part t)).2 t) := rfl

@[simp] theorem forEach_nil (f : ι → Proc ε σ Unit) : forEach f [] = pure () := rfl

theorem forEach_cons (f : ι → Proc ε σ Unit) (i : ι) (is : List ι) :
    forEach f (i :: is) = f i >>= fun _ => forEach f is := rfl

end Equations

/-! ## Outcomes -/

/-- Running the procedure from the state ends as the postcondition says. -/
def Yields (x : Proc ε σ α) (s : σ) (post : Except ε α → σ → Prop) : Prop :=
  post (x.run s).1 (x.run s).2

section Rules

variable {x : Proc ε σ α} {s : σ}

/-- To run the procedure shows what it yields. -/
theorem Yields.intro {post : Except ε α → σ → Prop} {r : Except ε α} {s' : σ}
    (h : x.run s = (r, s')) (hpost : post r s') : Yields x s post := by
  rw [Yields, h]
  exact hpost

/-- The postcondition may be weakened. -/
theorem Yields.mono {post post' : Except ε α → σ → Prop} (h : Yields x s post)
    (himp : ∀ r s', post r s' → post' r s') : Yields x s post' :=
  himp _ _ h

/-- A sequence: what holds after the first procedure is what the second starts
from, and an error of the first is the error of the whole. -/
theorem Yields.bind {f : α → Proc ε σ β} {mid : Except ε α → σ → Prop}
    {post : Except ε β → σ → Prop} (h : Yields x s mid)
    (hok : ∀ a s', mid (.ok a) s' → Yields (f a) s' post)
    (herror : ∀ e s', mid (.error e) s' → post (.error e) s') :
    Yields (x >>= f) s post := by
  unfold Yields at h ⊢
  rw [bind_run]
  rcases hrun : x.run s with ⟨_ | a, s'⟩
  · rw [hrun] at h
    exact herror _ _ h
  · rw [hrun] at h
    exact hok a s' h

theorem yields_pure {a : α} {post : Except ε α → σ → Prop} (h : post (.ok a) s) :
    Yields (pure a) s post := h

theorem yields_fail {e : ε} {post : Except ε α → σ → Prop} (h : post (.error e) s) :
    Yields (fail e) s post := h

theorem yields_get_bind {f : σ → Proc ε σ β} {post : Except ε β → σ → Prop}
    (h : Yields (f s) s post) : Yields (get >>= f) s post := h

theorem yields_modify_bind {g : σ → σ} {f : Unit → Proc ε σ β}
    {post : Except ε β → σ → Prop} (h : Yields (f ()) (g s) post) :
    Yields (modify g >>= f) s post := h

theorem yields_modify {g : σ → σ} {post : Except ε Unit → σ → Prop} (h : post (.ok ()) (g s)) :
    Yields (modify g) s post := h

/-- A check splits the proof. -/
theorem yields_failIf_bind {condition : Prop} [Decidable condition] {e : ε}
    {f : Unit → Proc ε σ β} {post : Except ε β → σ → Prop}
    (herror : condition → post (.error e) s) (hok : ¬condition → Yields (f ()) s post) :
    Yields (failIf condition e >>= f) s post := by
  unfold Yields
  rw [bind_run]
  by_cases h : condition
  · rw [failIf_run_of s h]
    exact herror h
  · rw [failIf_run_of_not s h]
    exact hok h

theorem yields_ofExcept_bind {r : Except ε α} {f : α → Proc ε σ β}
    {post : Except ε β → σ → Prop} (herror : ∀ e, r = .error e → post (.error e) s)
    (hok : ∀ a, r = .ok a → Yields (f a) s post) : Yields (ofExcept r >>= f) s post := by
  cases r with
  | error e => exact herror e rfl
  | ok a => exact hok a rfl

/-- An attempt goes on with both outcomes. -/
theorem Yields.attempt_bind {f : Except ε α → Proc ε σ β} {mid : Except ε α → σ → Prop}
    {post : Except ε β → σ → Prop} (h : Yields x s mid)
    (hnext : ∀ r s', mid r s' → Yields (f r) s' post) : Yields (attempt x >>= f) s post :=
  hnext _ _ h

theorem attempt_bind_run {f : Except ε α → Proc ε σ β} {r : Except ε α} {s' : σ}
    (h : x.run s = (r, s')) : (attempt x >>= f).run s = (f r).run s' := by
  have hattempt : (attempt x).run s = (.ok r, s') := by
    rw [run, attempt, show x s = (r, s') from h]
  exact bind_run_ok hattempt

/-- A part is followed on its own. -/
theorem yields_zoom {part : τ → σ} {update : σ → τ → τ} {x : Proc ε σ α} {t : τ}
    {post : Except ε α → τ → Prop}
    (h : Yields x (part t) fun r s => post r (update s t)) :
    Yields (zoom part update x) t post := h

/-- A loop that keeps an invariant, which may speak of the elements still to
come. -/
theorem yields_forEach {f : ι → Proc ε σ Unit} (inv : List ι → σ → Prop)
    {post : Except ε Unit → σ → Prop} {is : List ι} (h : inv is s)
    (hstep : ∀ i rest s, inv (i :: rest) s →
      Yields (f i) s fun r s' => match r with
        | .ok _ => inv rest s'
        | .error e => post (.error e) s')
    (hdone : ∀ s, inv [] s → post (.ok ()) s) : Yields (forEach f is) s post := by
  induction is generalizing s with
  | nil => exact hdone s h
  | cons i rest ih =>
    rw [forEach_cons]
    exact (hstep i rest s h).bind (fun _ s' hs' => ih hs') (fun e s' hs' => hs')

/-- A loop of checks with one message: it fails iff one of them does. -/
theorem forEach_checks {f : ι → Proc ε σ Unit} {c : ι → Prop} {e : ε} {is : List ι}
    (herror : ∀ i ∈ is, c i → (f i).run s = (.error e, s))
    (hok : ∀ i ∈ is, ¬c i → (f i).run s = (.ok (), s)) :
    (∃ i ∈ is, c i) ∧ (forEach f is).run s = (.error e, s) ∨
      (∀ i ∈ is, ¬c i) ∧ (forEach f is).run s = (.ok (), s) := by
  induction is with
  | nil => exact .inr ⟨fun i hi => absurd hi (List.not_mem_nil), rfl⟩
  | cons i rest ih =>
    rw [forEach_cons]
    by_cases hi : c i
    · exact .inl ⟨⟨i, List.mem_cons_self .., hi⟩,
        bind_run_error (herror i (List.mem_cons_self ..) hi)⟩
    rw [bind_run_ok (hok i (List.mem_cons_self ..) hi)]
    obtain ⟨⟨j, hj, hc⟩, hrun⟩ | ⟨hall, hrun⟩ :=
      ih (fun j hj => herror j (List.mem_cons_of_mem _ hj))
        (fun j hj => hok j (List.mem_cons_of_mem _ hj))
    · exact .inl ⟨⟨j, List.mem_cons_of_mem _ hj, hc⟩, hrun⟩
    · exact .inr ⟨fun j hj => (List.mem_cons.mp hj).elim (fun heq => heq ▸ hi) (hall j), hrun⟩

/-- A loop none of whose steps fails. -/
theorem yields_forEach_ok (f : ι → Proc ε σ Unit) (is : List ι) (inv : List ι → σ → Prop)
    (h : inv is s)
    (hstep : ∀ i rest s, inv (i :: rest) s →
      Yields (f i) s fun r s' => r = .ok () ∧ inv rest s') :
    Yields (forEach f is) s fun r s' => r = .ok () ∧ inv [] s' := by
  refine yields_forEach inv h (fun i rest s hs => ?_) (fun s hs => ⟨rfl, hs⟩)
  refine (hstep i rest s hs).mono ?_
  rintro r s' ⟨rfl, hinv⟩
  exact hinv

end Rules

end Proc
