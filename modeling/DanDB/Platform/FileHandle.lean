import DanDB.Lib.Proc
import DanDB.Core.Endian

/-!
# Files

A file handle together with the contents of the file it is open on.  Every
call to the operating system can fail, and a write can stop half way.  The
handle carries a schedule of such faults, one entry for each call still to
come.  The fault injector of the source is one way to fill it, a failing disk
another.  An empty schedule is a disk that does not fail.
-/

namespace DanDB.Platform

open Buffer DanDB.Core

/-- How far a failing call gets. -/
inductive FaultPoint where
  /-- It changes nothing. -/
  | before
  /-- A write stops after that many bytes. -/
  | torn (written : Nat)
  /-- Its effect is complete. -/
  | after
deriving DecidableEq, Repr

/-- A failing call. -/
structure Fault where
  point : FaultPoint
  /-- The status it returns. -/
  status : Status
deriving DecidableEq, Repr

structure FileHandle where
  path : String
  /-- The contents of the file. -/
  bytes : List Byte
  /-- `handle_ != nullptr` -/
  isOpen : Bool
  /-- The outcomes of the next calls; no entry is a success. -/
  faults : List (Option Fault)
deriving DecidableEq

namespace FileHandle

/-- The largest `LONGLONG`, and so the largest size of a file. -/
def maxFileSize : Nat := 2 ^ 63 - 1

/-- `MAXDWORD` -/
def maxDword : Nat := 0xFFFFFFFF

/-- A new handle on a file with the given contents. -/
def openOn (path : String) (bytes : List Byte) : FileHandle := ⟨path, bytes, true, []⟩

/-- Take the next entry of the schedule. -/
def nextFault : Proc Status FileHandle (Option Fault) := fun file =>
  (.ok (file.faults.headD none), { file with faults := file.faults.tail })

/-- Replace the contents. -/
def setBytes (bytes : List Byte) : Proc Status FileHandle Unit :=
  Proc.modify fun file => { file with bytes := bytes }

def readAt (offset size : Nat) : Proc Status FileHandle (List Byte) := do
  let file ← Proc.get
  Proc.failIf (file.isOpen = false)
    (.InvalidArgument s!"Cannot read file '{file.path}': file handle is closed")
  if size = 0 then
    return []
  Proc.failIf (size > maxDword)
    (.InvalidArgument s!"Cannot read file '{file.path}': requested size is too big")
  match ← nextFault with
  | some fault => Proc.fail fault.status
  | none => do
    let read := slice file.bytes offset size
    Proc.failIf (read.length ≠ size)
      (.IoError s!"Cannot read file '{file.path}' at offset {offset}: short read, requested {size} bytes but read {read.length}")
    return read

def writeAt (offset : Nat) (data : List Byte) : Proc Status FileHandle Unit := do
  let file ← Proc.get
  Proc.failIf (file.isOpen = false)
    (.InvalidArgument s!"Cannot write file '{file.path}': file handle is closed")
  if data = [] then
    return ()
  match ← nextFault with
  | none => setBytes (extend 0 file.bytes offset data)
  | some ⟨.before, status⟩ => Proc.fail status
  | some ⟨.torn written, status⟩ => do
    setBytes (extend 0 file.bytes offset (data.take written))
    Proc.fail status
  | some ⟨.after, status⟩ => do
    setBytes (extend 0 file.bytes offset data)
    Proc.fail status

def sync : Proc Status FileHandle Unit := do
  let file ← Proc.get
  Proc.failIf (file.isOpen = false)
    (.InvalidArgument "Cannot sync file: file handle is closed")
  match ← nextFault with
  | none => return ()
  | some fault => Proc.fail fault.status

/-- The size of an open file; asking for it does not touch the disk. -/
def size : Proc Status FileHandle Nat := do
  let file ← Proc.get
  Proc.failIf (file.isOpen = false)
    (.InvalidArgument "Cannot get file size: file handle is closed")
  return file.bytes.length

def resize (newSize : Nat) : Proc Status FileHandle Unit := do
  let file ← Proc.get
  Proc.failIf (file.isOpen = false)
    (.InvalidArgument "Cannot resize file: file handle is closed")
  Proc.failIf (newSize > maxFileSize)
    (.InvalidArgument "Cannot resize file: new size is too big")
  match ← nextFault with
  | none => setBytes (Buffer.resize 0 file.bytes newSize)
  | some ⟨.after, status⟩ => do
    -- the injector's `after_resize_end_of_file`
    setBytes (Buffer.resize 0 file.bytes newSize)
    Proc.fail status
  | some ⟨_, status⟩ => Proc.fail status

def close : Proc Status FileHandle Unit := do
  let file ← Proc.get
  if file.isOpen = false then
    return ()
  Proc.modify fun file => { file with isOpen := false }
  match ← nextFault with
  | none => return ()
  | some fault => Proc.fail fault.status

/-! ## What a call can do

Each call leaves the path and, but for `close`, the handle as they are; an
error leaves a file that the call could have left behind had it stopped there. -/

/-- The file may have other contents and a shorter schedule, and nothing else
differs. -/
structure SameHandle (file file' : FileHandle) : Prop where
  path : file'.path = file.path
  isOpen : file'.isOpen = file.isOpen
  faults : file'.faults <:+ file.faults

theorem SameHandle.refl (file : FileHandle) : SameHandle file file :=
  ⟨rfl, rfl, List.suffix_refl _⟩

theorem SameHandle.trans {a b c : FileHandle} (h : SameHandle a b) (h' : SameHandle b c) :
    SameHandle a c :=
  ⟨h'.path.trans h.path, h'.isOpen.trans h.isOpen, h'.faults.trans h.faults⟩

theorem SameHandle.faults_nil {a b : FileHandle} (h : SameHandle a b) (hnil : a.faults = []) :
    b.faults = [] := by
  have hsuffix := h.faults
  rw [hnil] at hsuffix
  exact List.suffix_nil.mp hsuffix

/-- No write in the schedule stops half way. -/
def AtomicWrites (file : FileHandle) : Prop :=
  ∀ n status, some ⟨.torn n, status⟩ ∉ file.faults

theorem SameHandle.atomicWrites {a b : FileHandle} (h : SameHandle a b) (ha : a.AtomicWrites) :
    b.AtomicWrites := fun n status hmem => ha n status (h.faults.subset hmem)

variable {file : FileHandle}

theorem sameHandle_tail (bytes : List Byte) :
    SameHandle file { file with bytes := bytes, faults := file.faults.tail } :=
  ⟨rfl, rfl, List.tail_suffix _⟩

/-- The next outcome, on the handle with its entry removed. -/
theorem yields_nextFault_bind {α : Type} {f : Option Fault → Proc Status FileHandle α}
    {post : Except Status α → FileHandle → Prop}
    (hnone : (f none).Yields { file with faults := file.faults.tail } post)
    (hsome : ∀ fault, some fault ∈ file.faults →
      (f (some fault)).Yields { file with faults := file.faults.tail } post) :
    (nextFault >>= f).Yields file post := by
  rcases hfaults : file.faults with _ | ⟨_ | fault, rest⟩
  · simpa [Proc.Yields, Proc.run, bind, nextFault, hfaults] using hnone
  · simpa [Proc.Yields, Proc.run, bind, nextFault, hfaults] using hnone
  · have h := hsome fault (by simp [hfaults])
    simpa [Proc.Yields, Proc.run, bind, nextFault, hfaults] using h

/-- A read returns the bytes it asks for, and changes nothing. -/
theorem readAt_yields (hopen : file.isOpen = true) {offset n : Nat} (hn : n ≤ maxDword)
    (hbound : offset + n ≤ file.bytes.length) :
    (readAt offset n).Yields file fun r file' =>
      SameHandle file file' ∧ file'.bytes = file.bytes ∧
        (r = .ok (slice file.bytes offset n) ∨ file.faults ≠ [] ∧ ∃ e, r = .error e) := by
  refine Proc.yields_get_bind (Proc.yields_failIf_bind (by simp [hopen]) fun _ => ?_)
  split
  · rename_i hzero
    subst hzero
    exact Proc.yields_pure ⟨.refl file, rfl, .inl (by simp [slice])⟩
  refine Proc.yields_failIf_bind (fun h => absurd h (by omega)) fun _ => ?_
  refine yields_nextFault_bind ?_ fun fault hfault => ?_
  · have hlen := length_slice hbound
    refine Proc.yields_failIf_bind (fun h => absurd hlen h) fun _ => ?_
    exact Proc.yields_pure ⟨sameHandle_tail _, rfl, .inl rfl⟩
  · exact Proc.yields_fail ⟨sameHandle_tail _, rfl, .inr ⟨List.ne_nil_of_mem hfault, _, rfl⟩⟩

/-- A write leaves all of its data in the file, or some first bytes of it. -/
theorem writeAt_yields (hopen : file.isOpen = true) (offset : Nat) (data : List Byte)
    (hdata : data ≠ []) :
    (writeAt offset data).Yields file fun r file' =>
      SameHandle file file' ∧
        (r = .ok () ∧ file'.bytes = extend 0 file.bytes offset data ∨
          (∃ e, r = .error e) ∧ file.faults ≠ [] ∧
            (file'.bytes = file.bytes ∨ file'.bytes = extend 0 file.bytes offset data ∨
              ¬file.AtomicWrites ∧
                ∃ n, file'.bytes = extend 0 file.bytes offset (data.take n))) := by
  refine Proc.yields_get_bind (Proc.yields_failIf_bind (by simp [hopen]) fun _ => ?_)
  rw [if_neg hdata]
  refine yields_nextFault_bind ?_ fun fault hfault => ?_
  · exact Proc.yields_modify ⟨sameHandle_tail _, .inl ⟨rfl, rfl⟩⟩
  · have hfaults : file.faults ≠ [] := List.ne_nil_of_mem hfault
    rcases fault with ⟨_ | n | _, status⟩
    · exact Proc.yields_fail ⟨sameHandle_tail _, .inr ⟨⟨_, rfl⟩, hfaults, .inl rfl⟩⟩
    · refine Proc.yields_modify_bind (Proc.yields_fail ⟨sameHandle_tail _, .inr ?_⟩)
      exact ⟨⟨_, rfl⟩, hfaults, .inr (.inr ⟨fun h => h n status hfault, n, rfl⟩)⟩
    · refine Proc.yields_modify_bind (Proc.yields_fail ⟨sameHandle_tail _, .inr ?_⟩)
      exact ⟨⟨_, rfl⟩, hfaults, .inr (.inl rfl)⟩

theorem sync_yields (hopen : file.isOpen = true) :
    sync.Yields file fun r file' =>
      SameHandle file file' ∧ file'.bytes = file.bytes ∧
        (r = .ok () ∨ file.faults ≠ [] ∧ ∃ e, r = .error e) := by
  refine Proc.yields_get_bind (Proc.yields_failIf_bind (by simp [hopen]) fun _ => ?_)
  refine yields_nextFault_bind ?_ fun fault hfault => ?_
  · exact Proc.yields_pure ⟨sameHandle_tail _, rfl, .inl rfl⟩
  · exact Proc.yields_fail ⟨sameHandle_tail _, rfl, .inr ⟨List.ne_nil_of_mem hfault, _, rfl⟩⟩

theorem size_yields (hopen : file.isOpen = true) :
    size.Yields file fun r file' => r = .ok file.bytes.length ∧ file' = file :=
  Proc.yields_get_bind (Proc.yields_failIf_bind (by simp [hopen]) fun _ =>
    Proc.yields_pure ⟨rfl, rfl⟩)

/-- A resize is all or nothing, and it succeeds on a disk that does not fail
unless no file can be that large. -/
theorem resize_yields (hopen : file.isOpen = true) (newSize : Nat) :
    (resize newSize).Yields file fun r file' =>
      SameHandle file file' ∧
        (r = .ok () ∧ newSize ≤ maxFileSize ∧
            file'.bytes = Buffer.resize 0 file.bytes newSize ∨
          (∃ e, r = .error e) ∧ (file.faults ≠ [] ∨ newSize > maxFileSize) ∧
            (file'.bytes = file.bytes ∨
              newSize ≤ maxFileSize ∧ file'.bytes = Buffer.resize 0 file.bytes newSize)) := by
  refine Proc.yields_get_bind (Proc.yields_failIf_bind (by simp [hopen]) fun _ => ?_)
  refine Proc.yields_failIf_bind
    (fun h => ⟨.refl file, .inr ⟨⟨_, rfl⟩, .inr h, .inl rfl⟩⟩) fun hfit => ?_
  refine yields_nextFault_bind ?_ fun fault hfault => ?_
  · exact Proc.yields_modify ⟨sameHandle_tail _, .inl ⟨rfl, Nat.le_of_not_lt hfit, rfl⟩⟩
  · rcases fault with ⟨_ | n | _, status⟩
    · exact Proc.yields_fail ⟨sameHandle_tail _, .inr ⟨⟨_, rfl⟩, .inl (List.ne_nil_of_mem hfault), .inl rfl⟩⟩
    · exact Proc.yields_fail ⟨sameHandle_tail _, .inr ⟨⟨_, rfl⟩, .inl (List.ne_nil_of_mem hfault), .inl rfl⟩⟩
    · refine Proc.yields_modify_bind (Proc.yields_fail ⟨sameHandle_tail _, .inr ?_⟩)
      exact ⟨⟨_, rfl⟩, .inl (List.ne_nil_of_mem hfault), .inr ⟨Nat.le_of_not_lt hfit, rfl⟩⟩

/-- Closing a file leaves its contents, whether or not it succeeds. -/
theorem close_yields (file : FileHandle) :
    close.Yields file fun _ file' => file'.bytes = file.bytes := by
  refine Proc.yields_get_bind ?_
  split
  · exact Proc.yields_pure rfl
  · refine Proc.yields_modify_bind (yields_nextFault_bind ?_ fun _ _ => ?_)
    · exact Proc.yields_pure rfl
    · exact Proc.yields_fail rfl

end FileHandle

end DanDB.Platform
