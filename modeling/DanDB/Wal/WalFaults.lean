import DanDB.Wal.WalManager

/-!
# Commits that meet a fault

A commit makes one call to the file for each page, one for the commit record and
one to flush.  When one of these fails, so does the commit, with its status.
-/

namespace DanDB

open Buffer DanDB.Core Platform Storage

namespace Platform.FileHandle

variable {file : FileHandle} {fault : Fault} {rest : List (Option Fault)}

/-- The next entry of a schedule that begins with it. -/
theorem yields_nextFault_cons {α : Type} {f : Option Fault → Proc Status FileHandle α}
    {entry : Option Fault} {post : Except Status α → FileHandle → Prop}
    (hfaults : file.faults = entry :: rest)
    (h : (f entry).Yields { file with faults := rest } post) :
    (nextFault >>= f).Yields file post := by
  simpa [Proc.Yields, Proc.run, bind, nextFault, hfaults] using h

theorem writeAt_fault (hopen : file.isOpen = true) (hfaults : file.faults = some fault :: rest)
    (offset : Nat) {data : List Byte} (hdata : data ≠ []) :
    (writeAt offset data).Yields file fun r _ => r = .error fault.status := by
  refine Proc.yields_get_bind (Proc.yields_failIf_bind (by simp [hopen]) fun _ => ?_)
  rw [if_neg hdata]
  refine yields_nextFault_cons hfaults ?_
  rcases fault with ⟨_ | n | _, status⟩
  · exact Proc.yields_fail rfl
  · exact Proc.yields_modify_bind (Proc.yields_fail rfl)
  · exact Proc.yields_modify_bind (Proc.yields_fail rfl)

theorem writeAt_none (hopen : file.isOpen = true) (hfaults : file.faults = none :: rest)
    (offset : Nat) {data : List Byte} (hdata : data ≠ []) :
    (writeAt offset data).Yields file fun r file' =>
      r = .ok () ∧ file'.isOpen = true ∧ file'.faults = rest := by
  refine Proc.yields_get_bind (Proc.yields_failIf_bind (by simp [hopen]) fun _ => ?_)
  rw [if_neg hdata]
  exact yields_nextFault_cons hfaults (Proc.yields_modify ⟨rfl, hopen, rfl⟩)

theorem sync_fault (hopen : file.isOpen = true) (hfaults : file.faults = some fault :: rest) :
    sync.Yields file fun r _ => r = .error fault.status := by
  refine Proc.yields_get_bind (Proc.yields_failIf_bind (by simp [hopen]) fun _ => ?_)
  exact yields_nextFault_cons hfaults (Proc.yields_fail rfl)

end Platform.FileHandle

namespace Wal.WalManager

open WalPageFrame WalCommitRecord

variable {wal : WalManager} {fault : Fault} {rest : List (Option Fault)}

/-- The file is open, and the call after the next `k` ones fails. -/
structure FailsAfter (wal : WalManager) (k : Nat) (fault : Fault) (rest : List (Option Fault)) :
    Prop where
  isOpen : wal.fileHandle.isOpen = true
  faults : wal.fileHandle.faults = List.replicate k none ++ some fault :: rest

theorem bytes_ne_nil {size : Nat} (record : Bytes size) (hsize : 0 < size) :
    record.bytes ≠ [] := by
  rw [ne_eq, ← List.length_eq_zero_iff, record.size_eq]
  omega

theorem appendRecord_fails (h : wal.FailsAfter 0 fault rest) {size : Nat} (record : Bytes size)
    (hsize : 0 < size) :
    (appendRecord record.bytes size).Yields wal fun r _ => r = .error fault.status := by
  refine Proc.yields_get_bind ((yields_onFile (FileHandle.writeAt_fault h.isOpen h.faults
    wal.appendOffset (bytes_ne_nil record hsize))).bind (fun _ _ hmid => ?_) fun _ _ hmid => ?_)
  · cases hmid.1
  · exact hmid.1

theorem appendRecord_counts {k : Nat} (h : wal.FailsAfter (k + 1) fault rest) {size : Nat}
    (record : Bytes size) (hsize : 0 < size) :
    (appendRecord record.bytes size).Yields wal fun r wal' =>
      r = .ok () ∧ wal'.FailsAfter k fault rest := by
  refine Proc.yields_get_bind ((yields_onFile (FileHandle.writeAt_none h.isOpen h.faults
    wal.appendOffset (bytes_ne_nil record hsize))).bind (fun _ _ hmid => ?_) fun _ _ hmid => ?_)
  · exact Proc.yields_modify ⟨rfl, hmid.1.2.1, hmid.1.2.2⟩
  · cases hmid.1.1

theorem appendFrames_fails {k : Nat} (h : wal.FailsAfter k fault rest) (transactionId : UInt64)
    {pages : List Page} (hvalid : ∀ page ∈ pages, page.id.isValid = true) :
    (Proc.forEach (appendPageFrame transactionId) pages).Yields wal fun r wal' =>
      k < pages.length ∧ r = .error fault.status ∨
        pages.length ≤ k ∧ r = .ok () ∧ wal'.FailsAfter (k - pages.length) fault rest := by
  induction pages generalizing wal k with
  | nil => exact Proc.yields_pure (.inr ⟨Nat.zero_le k, rfl, h⟩)
  | cons page pages ih =>
    have hhead := hvalid page (List.mem_cons_self ..)
    rw [Proc.forEach_cons, List.length_cons]
    cases k with
    | zero =>
      have hframe : (appendPageFrame transactionId page).Yields wal _ :=
        Proc.yields_failIf_bind (fun hbad => by simp [hhead] at hbad) fun _ =>
          appendRecord_fails h (pageFrame transactionId page).encode (by decide)
      refine hframe.bind (fun _ _ hmid => ?_) fun _ _ hmid => ?_
      · cases hmid
      · exact .inl ⟨Nat.succ_pos _, hmid⟩
    | succ k =>
      have hframe : (appendPageFrame transactionId page).Yields wal _ :=
        Proc.yields_failIf_bind (fun hbad => by simp [hhead] at hbad) fun _ =>
          appendRecord_counts h (pageFrame transactionId page).encode (by decide)
      refine hframe.bind (fun _ _ hmid => ?_) fun _ _ hmid => ?_
      · refine (ih hmid.2 fun p hp => hvalid p (List.mem_cons_of_mem _ hp)).mono fun r wal' hr => ?_
        rw [Nat.succ_lt_succ_iff, Nat.succ_le_succ_iff, Nat.succ_sub_succ]
        exact hr
      · cases hmid.1

/-- A commit fails when one of its writes or its flush does. -/
theorem commitTransaction_fails {k : Nat} (h : wal.FailsAfter k fault rest)
    (transactionId : UInt64) {pages : List Page} (hvalid : ∀ page ∈ pages, page.id.isValid = true)
    (hk : k ≤ pages.length + 1) :
    (commitTransaction transactionId pages).Yields wal fun r _ => r = .error fault.status := by
  refine (appendFrames_fails h transactionId hvalid).bind (fun _ wal' hmid => ?_)
    fun e _ hmid => ?_
  · obtain ⟨-, hr⟩ | ⟨hle, -, hfails⟩ := hmid
    · cases hr
    obtain hrecord | hsync : k - pages.length = 0 ∨ k - pages.length = 0 + 1 := by omega
    · rw [hrecord] at hfails
      refine (appendRecord_fails hfails
        (WalCommitRecord.createNew transactionId (UInt64.ofNat pages.length)).encode
        (by decide)).bind (fun _ _ hmid => ?_) fun _ _ hmid => hmid
      cases hmid
    · rw [hsync] at hfails
      refine (appendRecord_counts hfails
        (WalCommitRecord.createNew transactionId (UInt64.ofNat pages.length)).encode
        (by decide)).bind (fun _ wal'' hmid => ?_) fun _ _ hmid => ?_
      · exact (yields_onFile (FileHandle.sync_fault hmid.2.isOpen hmid.2.faults)).mono
          fun _ _ h => h.1
      · cases hmid.1
  · obtain ⟨-, hr⟩ | ⟨-, hr, -⟩ := hmid
    · exact hr
    · cases hr

end Wal.WalManager

end DanDB
