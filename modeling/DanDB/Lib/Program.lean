import Mathlib

/-!
# Programs that call a service

A program ends with a value or an error, or makes a call and goes on with the
answer to it.  `run` runs a program on a machine, which has one answer to a call
or none.

A `Service` says what a machine may answer.  It may also refuse a call, which
leaves its state as it is.  `Ensures refused x s post` says that `x` ends from the
state `s`, and that the end satisfies `post`, or `refused` if a call on the way
was refused.  A program that ensures something of a service does it on every
machine that implements the service (`Ensures.run`): if a call was refused, then the machine
lacked something for it (`Meets`).
-/

inductive Program (ε κ ρ α : Type)
  | done (r : Except ε α)
  /-- A loop that never ends. -/
  | diverge
  | call (c : κ) (next : ρ → Program ε κ ρ α)

namespace Program

variable {ε κ ρ σ τ α β ι : Type}

def bind (x : Program ε κ ρ α) (f : α → Program ε κ ρ β) : Program ε κ ρ β :=
  match x with
  | done (.ok a) => f a
  | done (.error e) => done (.error e)
  | diverge => diverge
  | call c next => call c fun r => (next r).bind f

instance : Monad (Program ε κ ρ) where
  pure a := done (.ok a)
  bind := bind

/-- End with an error. -/
def fail (e : ε) : Program ε κ ρ α := done (.error e)

/-- `if(condition) return error;` -/
def failIf (condition : Prop) [Decidable condition] (e : ε) : Program ε κ ρ Unit :=
  if condition then fail e else pure ()

/-- Run a program and go on with its outcome, whether a value or an error. -/
def attempt : Program ε κ ρ α → Program ε κ ρ (Except ε α)
  | done r => done (.ok r)
  | diverge => diverge
  | call c next => call c fun r => (next r).attempt

/-- Go on with another error. -/
def mapError (f : ε → ε) (x : Program ε κ ρ α) : Program ε κ ρ α := do
  let r ← x.attempt
  done (r.mapError f)

/-- Run a program for each element of a list, up to the first failure. -/
def forEach (f : ι → Program ε κ ρ Unit) : List ι → Program ε κ ρ Unit
  | [] => pure ()
  | i :: is => do
    f i
    forEach f is

/-- Run a program for each element of a list and collect the values. -/
def collect (f : ι → Program ε κ ρ α) : List ι → Program ε κ ρ (List α)
  | [] => pure []
  | i :: is => do
    let a ← f i
    let as ← collect f is
    return a :: as

/-- Run a program on a machine: the calls it makes with the answers to them, its
outcome, and the state of the machine afterwards. -/
def run (machine : σ → κ → Option (ρ × σ)) :
    Program ε κ ρ α → σ → Option (List (κ × ρ) × Except ε α × σ)
  | done r, s => some ([], r, s)
  | diverge, _ => none
  | call c next, s => do
    let (r, s') ← machine s c
    let (trace, result, s'') ← (next r).run machine s'
    return ((c, r) :: trace, result, s'')

section Equations

@[simp] theorem pure_bind (a : α) (f : α → Program ε κ ρ β) :
    (pure a : Program ε κ ρ α) >>= f = f a := rfl

@[simp] theorem done_ok_bind (a : α) (f : α → Program ε κ ρ β) :
    (done (.ok a) : Program ε κ ρ α) >>= f = f a := rfl

theorem call_bind (c : κ) (next : ρ → Program ε κ ρ α) (f : α → Program ε κ ρ β) :
    call c next >>= f = call c fun r => next r >>= f := rfl

/-- Sequences may be bracketed either way. -/
theorem bind_assoc {γ : Type} (x : Program ε κ ρ α) (f : α → Program ε κ ρ β)
    (g : β → Program ε κ ρ γ) : (x >>= f) >>= g = x >>= fun a => f a >>= g := by
  induction x with
  | done r => cases r <;> rfl
  | diverge => rfl
  | call c next ih => exact congrArg (call c) (funext ih)

theorem attempt_bind_pure (x : Program ε κ ρ α) (f : α → β) :
    (x >>= fun a => pure (f a)).attempt = x.attempt >>= fun r => pure (r.map f) := by
  induction x with
  | done r => cases r <;> rfl
  | diverge => rfl
  | call c next ih => exact congrArg (call c) (funext ih)

/-- After the first half of a sequence the second half runs. -/
theorem run_bind_ok {machine : σ → κ → Option (ρ × σ)} {x : Program ε κ ρ α}
    {f : α → Program ε κ ρ β} {s s' : σ} {trace : List (κ × ρ)} {a : α}
    (h : x.run machine s = some (trace, .ok a, s')) :
    (x >>= f).run machine s =
      ((f a).run machine s').map fun rest => (trace ++ rest.1, rest.2) := by
  induction x generalizing s trace with
  | done r =>
    cases h
    show (f a).run machine s' = _
    cases (f a).run machine s' <;> rfl
  | diverge => cases h
  | call c next ih =>
    rw [run] at h
    obtain ⟨⟨r, s₁⟩, hcall, h⟩ := Option.bind_eq_some_iff.mp h
    obtain ⟨⟨trace', result, s₂⟩, hrun, h⟩ := Option.bind_eq_some_iff.mp h
    cases h
    rw [call_bind, run, hcall]
    show ((next r >>= f).run machine s₁).bind _ = _
    rw [ih r hrun]
    cases (f a).run machine s' <;> rfl

theorem run_bind_none {machine : σ → κ → Option (ρ × σ)} {x : Program ε κ ρ α}
    {f : α → Program ε κ ρ β} {s : σ} (h : x.run machine s = none) :
    (x >>= f).run machine s = none := by
  induction x generalizing s with
  | done r => cases h
  | diverge => rfl
  | call c next ih =>
    rw [call_bind, run]
    rw [run] at h
    cases hcall : machine s c with
    | none => rfl
    | some answer =>
      rw [hcall] at h
      cases hnext : (next answer.1).run machine answer.2 with
      | none =>
        show ((next answer.1 >>= f).run machine answer.2).bind _ = none
        rw [ih answer.1 hnext]
        rfl
      | some result =>
        have hsome : ((next answer.1).run machine answer.2).bind _ = none := h
        rw [hnext] at hsome
        cases hsome

@[simp] theorem forEach_nil (f : ι → Program ε κ ρ Unit) : forEach f [] = pure () := rfl

theorem forEach_cons (f : ι → Program ε κ ρ Unit) (i : ι) (is : List ι) :
    forEach f (i :: is) = f i >>= fun _ => forEach f is := rfl

@[simp] theorem collect_nil (f : ι → Program ε κ ρ α) : collect f [] = pure [] := rfl

theorem collect_cons (f : ι → Program ε κ ρ α) (i : ι) (is : List ι) :
    collect f (i :: is) = f i >>= fun a => collect f is >>= fun as => pure (a :: as) := rfl

end Equations

end Program

/-- What a machine may answer to a call and how the call changes its state. -/
structure Service (σ κ ρ : Type) where
  answers : σ → κ → ρ → σ → Prop
  /-- The answer turns the call down. -/
  refuses : σ → κ → ρ → Prop

namespace Service

variable {σ κ ρ : Type}

/-- There is an answer to the call. -/
def Enabled (service : Service σ κ ρ) (s : σ) (c : κ) : Prop :=
  (∃ r s', service.answers s c r s') ∨ ∃ r, service.refuses s c r

/-- A machine implements a service: as long as its state is related to one of the
service, its answers are the service's, and it refuses what it lacks something for. -/
def Implements {τ : Type} (service : Service σ κ ρ) (machine : τ → κ → Option (ρ × τ))
    (rel : τ → σ → Prop) (lacks : τ → κ → ρ → Prop) : Prop :=
  ∀ t s c, rel t s → service.Enabled s c → ∃ r t', machine t c = some (r, t') ∧
    ((∃ s', service.answers s c r s' ∧ rel t' s') ∨
      service.refuses s c r ∧ lacks t c r ∧ rel t' s)

end Service

namespace Program

variable {ε κ ρ σ τ α β ι : Type}

/-- On its way through the calls the machine comes to one that it lacks something for. -/
def Meets (machine : τ → κ → Option (ρ × τ)) (lacks : τ → κ → ρ → Prop) :
    τ → List (κ × ρ) → Prop
  | _, [] => False
  | t, (c, r) :: trace =>
    lacks t c r ∨ ∃ t', machine t c = some (r, t') ∧ Meets machine lacks t' trace

/-- The program ends, and as the postcondition says: as `refused` says if a call
was refused. -/
def Ensures (service : Service σ κ ρ) (refused : Except ε α → σ → Prop) :
    Program ε κ ρ α → σ → (Except ε α → σ → Prop) → Prop
  | done r, s, post => post r s
  | diverge, _, _ => False
  | call c next, s, post =>
    service.Enabled s c ∧
      (∀ r s', service.answers s c r s' → (next r).Ensures service refused s' post) ∧
      ∀ r, service.refuses s c r → (next r).Ensures service refused s refused

/-- The second half of a sequence ensures a postcondition; an error of the first
half is the error of the whole. -/
def Then (service : Service σ κ ρ) (refused : Except ε β → σ → Prop)
    (f : α → Program ε κ ρ β) (post : Except ε β → σ → Prop) : Except ε α → σ → Prop
  | .ok a, s => (f a).Ensures service refused s post
  | .error e, s => post (.error e) s

section Rules

variable {service : Service σ κ ρ} {x : Program ε κ ρ α} {s : σ}
  {refused refused' post post' : Except ε α → σ → Prop}

/-- The postcondition may be weakened. -/
theorem Ensures.mono (h : x.Ensures service refused s post)
    (hrefused : ∀ r s, refused r s → refused' r s) (hpost : ∀ r s, post r s → post' r s) :
    x.Ensures service refused' s post' := by
  induction x generalizing s post post' with
  | done r => exact hpost r s h
  | diverge => exact h
  | call c next ih =>
    obtain ⟨henabled, hanswer, hrefuse⟩ := h
    exact ⟨henabled, fun r s' hr => ih r (hanswer r s' hr) hpost,
      fun r hr => ih r (hrefuse r hr) hrefused⟩

theorem Ensures.bind {f : α → Program ε κ ρ β} {refused post : Except ε β → σ → Prop}
    (h : x.Ensures service (Then service refused f refused) s (Then service refused f post)) :
    (x >>= f).Ensures service refused s post := by
  induction x generalizing s post with
  | done r => cases r <;> exact h
  | diverge => exact h
  | call c next ih =>
    obtain ⟨henabled, hanswer, hrefuse⟩ := h
    exact ⟨henabled, fun r s' hr => ih r (hanswer r s' hr), fun r hr => ih r (hrefuse r hr)⟩

/-- An attempt ensures both outcomes as values. -/
theorem Ensures.attempt {refused post : Except ε (Except ε α) → σ → Prop}
    (h : x.Ensures service (fun r => refused (.ok r)) s fun r => post (.ok r)) :
    x.attempt.Ensures service refused s post := by
  induction x generalizing s post with
  | done r => exact h
  | diverge => exact h
  | call c next ih =>
    obtain ⟨henabled, hanswer, hrefuse⟩ := h
    exact ⟨henabled, fun r s' hr => ih r (hanswer r s' hr), fun r hr => ih r (hrefuse r hr)⟩

/-- On a machine that implements the service, the program ends in a state that
is related to one as ensured. -/
theorem Ensures.run {machine : τ → κ → Option (ρ × τ)} {rel : τ → σ → Prop}
    {lacks : τ → κ → ρ → Prop} (hmachine : service.Implements machine rel lacks)
    (h : x.Ensures service refused s post) {t : τ} (hrel : rel t s) :
    ∃ trace r t' s', x.run machine t = some (trace, r, t') ∧ rel t' s' ∧
      (post r s' ∨ Meets machine lacks t trace ∧ refused r s') := by
  induction x generalizing s t post with
  | done r => exact ⟨[], r, t, s, rfl, hrel, .inl h⟩
  | diverge => exact h.elim
  | call c next ih =>
    obtain ⟨henabled, hanswer, hrefuse⟩ := h
    obtain ⟨r, t', hcall, ⟨s', hr, hrel'⟩ | ⟨hr, hlacks, hrel'⟩⟩ := hmachine t s c hrel henabled
    · obtain ⟨trace, result, t'', s'', hrun, hrel'', hend⟩ := ih r (hanswer r s' hr) hrel'
      refine ⟨(c, r) :: trace, result, t'', s'', ?_, hrel'', hend.imp_right ?_⟩
      · simp [Program.run, hcall, hrun]
      · rintro ⟨hmeets, hend⟩
        exact ⟨.inr ⟨t', hcall, hmeets⟩, hend⟩
    · obtain ⟨trace, result, t'', s'', hrun, hrel'', hend⟩ := ih r (hrefuse r hr) hrel'
      refine ⟨(c, r) :: trace, result, t'', s'', ?_, hrel'', .inr ⟨.inl hlacks, hend.elim id And.right⟩⟩
      simp [Program.run, hcall, hrun]

end Rules

end Program

/-! ## The calls of a program -/

namespace Program

variable {ε κ ρ τ α β ι : Type}

/-- The program makes no other calls, whatever the answers are. -/
def Only (allowed : κ → Prop) : Program ε κ ρ α → Prop
  | done _ => True
  | diverge => True
  | call c next => allowed c ∧ ∀ r, (next r).Only allowed

section Only

variable {allowed : κ → Prop} {x : Program ε κ ρ α}

@[grind ←] theorem only_done (r : Except ε α) : (done r : Program ε κ ρ α).Only allowed := trivial

@[grind ←] theorem only_pure (a : α) : (pure a : Program ε κ ρ α).Only allowed := trivial

@[grind ←] theorem only_fail (e : ε) : (fail e : Program ε κ ρ α).Only allowed := trivial

@[grind ←] theorem only_failIf (condition : Prop) [Decidable condition] (e : ε) :
    (failIf condition e : Program ε κ ρ Unit).Only allowed := by
  unfold failIf
  split <;> trivial

/-- A sequence makes the calls of its parts. -/
@[grind ←] theorem Only.bind {f : α → Program ε κ ρ β} (h : x.Only allowed)
    (hf : ∀ a, (f a).Only allowed) : (x >>= f).Only allowed := by
  induction x with
  | done r =>
    cases r with
    | error e => trivial
    | ok a => exact hf a
  | diverge => trivial
  | call c next ih => exact ⟨h.1, fun r => ih r (h.2 r)⟩

@[grind ←] theorem Only.attempt (h : x.Only allowed) : x.attempt.Only allowed := by
  induction x with
  | done r => trivial
  | diverge => trivial
  | call c next ih => exact ⟨h.1, fun r => ih r (h.2 r)⟩

@[grind ←] theorem only_forEach {f : ι → Program ε κ ρ Unit} (h : ∀ i, (f i).Only allowed)
    (is : List ι) : (forEach f is).Only allowed := by
  induction is with
  | nil => trivial
  | cons i is ih => exact (h i).bind fun _ => ih

/-- More calls may be allowed. -/
theorem Only.mono {allowed' : κ → Prop} (h : x.Only allowed) (himp : ∀ c, allowed c → allowed' c) :
    x.Only allowed' := by
  induction x with
  | done r => trivial
  | diverge => trivial
  | call c next ih => exact ⟨himp c h.1, fun r => ih r (h.2 r)⟩

/-- What each of the calls keeps, the program keeps. -/
theorem Only.run {machine : τ → κ → Option (ρ × τ)} {inv : τ → Prop} (h : x.Only allowed)
    (hstep : ∀ t c r t', allowed c → machine t c = some (r, t') → inv t → inv t') {t t' : τ}
    {trace : List (κ × ρ)} {r : Except ε α} (hrun : x.run machine t = some (trace, r, t'))
    (ht : inv t) : inv t' := by
  induction x generalizing t trace with
  | done r =>
    cases hrun
    exact ht
  | diverge => cases hrun
  | call c next ih =>
    rw [Program.run] at hrun
    obtain ⟨⟨r, t₁⟩, hcall, hrun⟩ := Option.bind_eq_some_iff.mp hrun
    obtain ⟨⟨trace', result, t₂⟩, hrun', heq⟩ := Option.bind_eq_some_iff.mp hrun
    cases heq
    exact ih r (h.2 r) hrun' (hstep t c r t₁ h.1 hcall ht)

end Only

end Program
