import DanDB.Storage.PageProgram

/-!
# Errors on their way up

A program on pages stops at the first call that fails: it lets go of the handles it
holds and ends with the status of that call.  Its own errors are the ones it
starts itself.
-/

namespace DanDB.Core

/-- The outcome does not say that something was not found. -/
structure OtherThanNotFound {α : Type} (r : Result α) : Prop where
  code : ∀ status, r = .error status → status.code ≠ .notFound

section Other

variable {α β : Type}

theorem other_ok (a : α) : OtherThanNotFound (.ok a) := ⟨nofun⟩

/-- An error with another code. -/
theorem other_error {status : Status} (h : status.code ≠ .notFound) :
    OtherThanNotFound (.error status : Result α) := by
  constructor
  intro _ herror
  cases herror
  exact h

/-- Errors of a sequence are errors of its parts. -/
theorem OtherThanNotFound.bind {r : Result α} {f : α → Result β} (h : OtherThanNotFound r)
    (hf : ∀ a, OtherThanNotFound (f a)) : OtherThanNotFound (r >>= f) := by
  cases r with
  | error status => exact other_error (h.code status rfl)
  | ok a => exact hf a

theorem other_failIf {condition : Prop} [Decidable condition] {status : Status}
    (h : status.code ≠ .notFound) : OtherThanNotFound (failIf condition status) := by
  unfold failIf
  split
  · exact other_error h
  · exact other_ok ()

/-- Errors of a loop are errors of its body. -/
theorem other_mapM {f : α → Result β} (h : ∀ a, OtherThanNotFound (f a)) (as : List α) :
    OtherThanNotFound (as.mapM f) := by
  induction as with
  | nil => exact other_ok []
  | cons a as ih =>
    rw [List.mapM_cons]
    exact (h a).bind fun b => ih.bind fun bs => other_ok _

end Other

end DanDB.Core

namespace DanDB.Storage

open DanDB.Core

/-- The call is for the page of a handle that the program holds. -/
def Call.UsesHandle : Call → Prop
  | read _ => True
  | mutablePage _ => True
  | store _ _ => True
  | _ => False

namespace PageProgram

variable {α β ι : Type} {own : Status → Prop} {status : Status} {n : Nat}

/-- The program lets go of so many handles and ends with the error. -/
inductive Unwinds (status : Status) : Nat → PageProgram α → Prop
  | done : Unwinds status 0 (.done (.error status))
  | release {n : Nat} {next : Reply → PageProgram α} (h : Unwinds status n (next (.ok none))) :
    Unwinds status (n + 1) (.call ⟨.release 0, trivial⟩ next)

/-- Started with so many handles, the program ends without them, and with the
status of a call as soon as one fails. -/
inductive Propagates (own : Status → Prop) : Nat → PageProgram α → Prop
  | done {r : Except Status α} (h : ∀ status, r = .error status → own status) :
    Propagates own 0 (.done r)
  | diverge {n : Nat} : Propagates own n .diverge
  | getPage {n : Nat} {pageId : PageId} {next : Reply → PageProgram α}
    (hok : ∀ page, Propagates own (n + 1) (next (.ok (some page))))
    (herror : ∀ status, Unwinds status n (next (.error status))) :
    Propagates own n (.call ⟨.getPage pageId, trivial⟩ next)
  | use {n : Nat} {c : PageCall} {next : Reply → PageProgram α} (hc : c.1.UsesHandle)
    (hok : ∀ page, Propagates own n (next (.ok page)))
    (herror : ∀ status, Unwinds status n (next (.error status))) :
    Propagates own n (.call c next)
  | release {n : Nat} {next : Reply → PageProgram α} (h : Propagates own n (next (.ok none))) :
    Propagates own (n + 1) (.call ⟨.release 0, trivial⟩ next)

section Rules

variable {x : PageProgram α}

/-- What comes after an error is not reached. -/
theorem Unwinds.bind (h : Unwinds status n x) (f : α → PageProgram β) :
    Unwinds status n (x >>= f) := by
  induction h with
  | done => exact .done
  | release _ ih => exact .release ih

/-- A sequence: the second part starts with no handle, as the first ends with none. -/
theorem Propagates.bind {f : α → PageProgram β} (h : Propagates own n x)
    (hf : ∀ a, Propagates own 0 (f a)) : Propagates own n (x >>= f) := by
  induction h with
  | @done r h =>
    cases r with
    | error status => exact .done fun _ he => by cases he; exact h status rfl
    | ok a => exact hf a
  | diverge => exact .diverge
  | getPage _ herror ih => exact .getPage ih fun status => (herror status).bind f
  | use hc _ herror ih => exact .use hc ih fun status => (herror status).bind f
  | release _ ih => exact .release ih

/-- The own errors may be described more coarsely. -/
theorem Propagates.mono {own' : Status → Prop} (h : Propagates own n x)
    (himp : ∀ status, own status → own' status) : Propagates own' n x := by
  induction h with
  | done h => exact .done fun status he => himp status (h status he)
  | diverge => exact .diverge
  | getPage _ herror ih => exact .getPage ih herror
  | use hc _ herror ih => exact .use hc ih herror
  | release _ ih => exact .release ih

/-- The end of a scope. -/
theorem Unwinds.scope (h : Unwinds status n x) : Unwinds status (n + 1)
    (x.attempt >>= fun result => PageProgram.release 0 >>= fun _ => .done result) := by
  induction h with
  | done => exact .release .done
  | release _ ih => exact .release ih

/-- A scope holds one handle more than its body. -/
theorem Propagates.scope (h : Propagates own n x) : Propagates own (n + 1)
    (x.attempt >>= fun result => PageProgram.release 0 >>= fun _ => .done result) := by
  induction h with
  | done h => exact .release (.done h)
  | diverge => exact .diverge
  | getPage _ herror ih => exact .getPage ih fun status => (herror status).scope
  | use hc _ herror ih => exact .use hc ih fun status => (herror status).scope
  | release _ ih => exact .release ih

/-- An error that is raised is an own one. -/
theorem propagates_done {r : Except Status α} (h : ∀ status, r = .error status → own status) :
    Propagates own 0 (.done r) := .done h

theorem propagates_pure (a : α) : Propagates own 0 (pure a : PageProgram α) := .done nofun

theorem propagates_done_bind {r : Except Status β} {f : β → PageProgram α}
    (h : ∀ status, r = .error status → own status) (hf : ∀ b, Propagates own 0 (f b)) :
    Propagates own 0 (.done r >>= f) := (propagates_done h).bind hf

theorem propagates_failIf {condition : Prop} [Decidable condition] (h : own status) :
    Propagates own 0 (Program.failIf condition status : PageProgram Unit) := by
  unfold Program.failIf
  split
  · exact .done fun _ he => by cases he; exact h
  · exact .done nofun

/-- To read through a handle can fail with the status of the call only, -/
theorem propagates_read (handle : Nat) : Propagates own 0 (read handle) := by
  refine .use trivial (fun page => ?_) fun status => .done
  cases page with
  | none => exact .diverge
  | some page => exact .done nofun

theorem propagates_perform {c : PageCall} (hc : c.1.UsesHandle) :
    Propagates own 0 (perform c) := .use hc (fun _ => .done nofun) fun _ => .done

/-- and an edit also with an error of the change. -/
theorem propagates_edit {handle : Nat} {change : PageData → Result PageData}
    (h : ∀ data status, change data = .error status → own status) :
    Propagates own 0 (edit handle change) :=
  (propagates_read handle).bind fun page => propagates_done_bind (h page.data) fun data =>
    propagates_perform (c := ⟨.store handle data, trivial⟩) trivial

/-- A page that is read within a scope. -/
theorem propagates_withPage {pageId : PageId} {body : PageData → PageProgram α}
    (h : ∀ data, Propagates own 0 (body data)) : Propagates own 0 (withPage pageId body) :=
  .getPage (fun page => (h page.data).scope) fun _ => .done

/-- A page that is written within a scope. -/
theorem propagates_withMutablePage {pageId : PageId} {body : PageData → PageProgram α}
    (h : ∀ data, Propagates own 0 (body data)) :
    Propagates own 0 (withMutablePage pageId body) :=
  .getPage (fun page => ((propagates_perform (c := ⟨.mutablePage 0, trivial⟩) trivial).bind
    fun _ => h page.data).scope) fun _ => .done

/-- A loop. -/
theorem propagates_forEach {f : ι → PageProgram Unit} (h : ∀ i, Propagates own 0 (f i))
    (is : List ι) : Propagates own 0 (Program.forEach f is) := by
  induction is with
  | nil => exact propagates_pure ()
  | cons i is ih => exact (h i).bind fun _ => ih

end Rules

end PageProgram

end DanDB.Storage
