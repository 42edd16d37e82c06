import DanDB.Lib.Proc
import DanDB.Core.Status

/-!
# The LRU replacer

The frames that may be evicted, the one used last in front.  `frame_positions_`
maps each of them to its node of the list, so asking whether it has a frame is
asking whether the list does.
-/

namespace DanDB.BufferPool

open DanDB.Core

abbrev FrameId := Nat

structure LRUReplacer where
  capacity : Nat
  /-- `lru_`, front to back. -/
  lru : List FrameId
deriving DecidableEq

namespace LRUReplacer

def victim : Proc Status LRUReplacer FrameId := do
  let replacer ← Proc.get
  match replacer.lru.getLast? with
  | none => Proc.fail (.NotFound "Cannot choose LRU victim: no evictable frames")
  | some victimFrameId =>
    Proc.modify fun replacer => { replacer with lru := replacer.lru.dropLast }
    return victimFrameId

def markEvictable (frameId : FrameId) : Proc Status LRUReplacer Unit := do
  let replacer ← Proc.get
  Proc.failIf (frameId ≥ replacer.capacity)
    (.InvalidArgument s!"Cannot mark frame {frameId} as evictable: frame does not exist")
  if frameId ∈ replacer.lru then
    return ()
  Proc.modify fun replacer => { replacer with lru := frameId :: replacer.lru }

def markNonEvictable (frameId : FrameId) : Proc Status LRUReplacer Unit := do
  let replacer ← Proc.get
  Proc.failIf (frameId ≥ replacer.capacity)
    (.InvalidArgument s!"Cannot mark frame {frameId} as non-evictable: frame does not exist")
  Proc.modify fun replacer => { replacer with lru := replacer.lru.erase frameId }

variable {replacer : LRUReplacer} {frameId : FrameId}

theorem victim_run_nil (h : replacer.lru = []) :
    victim.run replacer =
      (.error (.NotFound "Cannot choose LRU victim: no evictable frames"), replacer) := by
  rw [victim, Proc.get_bind_run, h]
  rfl

theorem victim_run_some {victimFrameId : FrameId} (h : replacer.lru.getLast? = some victimFrameId) :
    victim.run replacer =
      (.ok victimFrameId, { replacer with lru := replacer.lru.dropLast }) := by
  rw [victim, Proc.get_bind_run, h]
  rfl

theorem markEvictable_run (hlt : frameId < replacer.capacity) :
    (markEvictable frameId).run replacer =
      (.ok (), { replacer with
        lru := if frameId ∈ replacer.lru then replacer.lru else frameId :: replacer.lru }) := by
  rw [markEvictable, Proc.get_bind_run,
    Proc.bind_run_ok (Proc.failIf_run_of_not _ (Nat.not_le_of_lt hlt) _)]
  by_cases h : frameId ∈ replacer.lru
  · rw [if_pos h, if_pos h]
    rfl
  · rw [if_neg h, if_neg h]
    rfl

theorem markNonEvictable_run (hlt : frameId < replacer.capacity) :
    (markNonEvictable frameId).run replacer =
      (.ok (), { replacer with lru := replacer.lru.erase frameId }) := by
  rw [markNonEvictable, Proc.get_bind_run,
    Proc.bind_run_ok (Proc.failIf_run_of_not _ (Nat.not_le_of_lt hlt) _)]
  rfl

end LRUReplacer

end DanDB.BufferPool
