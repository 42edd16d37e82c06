import DanDB.BTree.StoreKept
import DanDB.Storage.VersionStore

/-!
# A store of trees

The trees of a database file, with the transactions, checkpoints and crashes that they
live through.  What a program that uses them can rely on is an abstract store: maps, as
the transaction sees them, and the versions of them that were committed.

A call may be turned down for lack of room: in the pool, among the page ids or in the
file.  After a change that was turned down nothing is known about the trees of the
transaction, so there are no calls on trees and no commit until a rollback or a crash.
-/

namespace DanDB.BTree

open DanDB.Core Storage PageProgram Platform Wal BufferPool

deriving instance DecidableEq for BTree

/-! ## Calls -/

/-- A call of a program that keeps trees in a database. -/
inductive StoreCall
  | transaction (call : TransactionCall)
  | createNew (keySize valueSize : Nat)
  | openExisting (rootPageId : PageId) (keySize valueSize : Nat)
  | onTree (tree : BTree) (call : TreeCall)
  | scan (tree : BTree) (lowerBound upperBound : Option (List Byte))

inductive StoreValue
  | done
  | tree (tree : BTree)
  | value (value : Option (List Byte))
  | entries (entries : List BTreeEntry)
deriving DecidableEq

def StoreCall.program : StoreCall → PageProgram StoreValue
  | transaction call => do
    call.program
    return .done
  | createNew keySize valueSize => do
    let tree ← BTree.createNew keySize valueSize
    return .tree tree
  | openExisting rootPageId keySize valueSize => do
    let tree ← BTree.openExisting rootPageId keySize valueSize
    return .tree tree
  | onTree tree call => do
    let value ← call.program tree
    return .value value
  | scan tree lowerBound upperBound => do
    let cursor ← tree.scanRange lowerBound upperBound
    let entries ← cursor.drain
    return .entries entries

/-- What happens to a session: a call, or a crash that leaves some first bytes of the
log, after which the files are opened again. -/
inductive StoreEvent
  | call (c : StoreCall)
  | crash (size : Nat) (order : IterationOrder PageId) (path : String) (capacity : Nat)

/-- What comes of an event: the answer, whether there was no room for one of its calls to
the pager, and how long the log is then. -/
structure Outcome where
  answer : Except Status StoreValue
  turnedDown : Prop
  walSize : Nat

/-- One step of a session. -/
inductive StoreStep : Session → StoreEvent → Outcome → Session → Prop
  | call {s s' : Session} {c : StoreCall} {calls : List (PageCall × Reply)}
    {answer : Except Status StoreValue}
    (hrun : c.program.run Session.machine s = some (calls, answer, s')) :
    StoreStep s (.call c) ⟨answer, TurnedDown s calls, s'.walSize⟩ s'
  | crash {s : Session} {size : Nat} {order : IterationOrder PageId} {path : String}
    {capacity : Nat} {pager : Pager} (hsize : WalHeader.walHeaderSize ≤ size)
    (hmax : (s.pager.walManager.fileHandle.bytes.take size).length ≤ FileHandle.maxFileSize)
    (hopen : Pager.open order path (s.crash size) capacity = .ok pager) :
    StoreStep s (.crash size order path capacity) ⟨.ok .done, False, (Session.start pager).walSize⟩
      (Session.start pager)

/-! ## The abstract store -/

/-- The maps that the trees stand for. -/
abbrev Database := BTree → Option ByteMap

/-- The trees of a database that is new. -/
def Database.empty : Database := fun _ => none

abbrev Store := VersionStore Database

/-- The calls that change a tree or make one. -/
def StoreCall.Changes : StoreCall → Prop
  | createNew _ _ => True
  | onTree _ (.find _) => False
  | onTree _ _ => True
  | _ => False

/-- The entries of a range, in the order of their keys. -/
structure RangeOf (map : ByteMap) (lowerBound upperBound : Option (List Byte))
    (entries : List BTreeEntry) : Prop where
  sorted : entries.Pairwise fun a b => memcmp a.key b.key = .lt
  mem_iff : ∀ entry, entry ∈ entries ↔ map entry.key = some entry.value ∧
    (∀ bound ∈ lowerBound, memcmp bound entry.key ≠ .gt) ∧
    ∀ bound ∈ upperBound, memcmp entry.key bound = .lt

/-- What `scan_range` says of bounds that are not keys. -/
def checkBounds (keySize : Nat) (lowerBound upperBound : Option (List Byte)) : Result Unit := do
  failIf (∃ bound ∈ lowerBound, bound.length ≠ keySize)
    (.InvalidArgument "Cannot range scan B+ tree: lower bound key size is invalid")
  failIf (∃ bound ∈ upperBound, bound.length ≠ keySize)
    (.InvalidArgument "Cannot range scan B+ tree: upper bound key size is invalid")

namespace Store

/-- The store of a new database. -/
def start : Store := ⟨[(WalHeader.walHeaderSize, .empty)], some .empty, .inactive⟩

/-- What a program may do: it changes trees in a transaction and works on trees that it has
made.  Behind a change that was turned down `working` is `none`, and what is left to do is to
mark the transaction as failed, a checkpoint, a rollback, or a crash. -/
def Allows (m : Store) : StoreEvent → Prop
  | .call (.transaction (.commitTransaction _)) => m.working ≠ none
  | .call (.createNew _ _) => m.status = .active ∧ m.working ≠ none
  | .call (.openExisting rootPageId _ _) =>
    ∃ d ∈ m.working, ∃ tree, d tree ≠ none ∧ tree.rootPageId = rootPageId
  | .call (.onTree tree call) => (∃ d ∈ m.working, d tree ≠ none) ∧
    ((StoreCall.onTree tree call).Changes → m.status = .active)
  | .call (.scan tree _ _) => ∃ d ∈ m.working, d tree ≠ none
  | _ => True

/-- The event is answered, and then the store is as follows. -/
inductive Answers (m : Store) : StoreEvent → Except Status StoreValue → Nat → Store → Prop
  | transaction {c : TransactionCall} {answer : Except Status Unit} {walSize : Nat} {m' : Store}
    (h : VersionStore.Answers m c answer walSize m') :
    Answers m (.call (.transaction c)) (answer.map fun _ => .done) walSize m'
  | creates {d : Database} {keySize valueSize walSize : Nat} {tree : BTree}
    (hworking : m.working = some d) (hvalid : validateLayout keySize valueSize = .ok ())
    (hkey : tree.keySize = keySize) (hvalue : tree.valueSize = valueSize)
    (hnew : ∀ other, d other ≠ none → other.rootPageId ≠ tree.rootPageId) :
    Answers m (.call (.createNew keySize valueSize)) (.ok (.tree tree)) walSize
      { m with working := some (Function.update d tree (some fun _ => none)) }
  | rejects {keySize valueSize walSize : Nat} {status : Status}
    (hvalid : validateLayout keySize valueSize = .error status) :
    Answers m (.call (.createNew keySize valueSize)) (.error status) walSize m
  | opens {d : Database} {keySize valueSize walSize : Nat} {tree : BTree}
    (hworking : m.working = some d) (htree : d tree ≠ none) :
    Answers m (.call (.openExisting tree.rootPageId keySize valueSize))
      ((openedAs tree keySize valueSize).map .tree) walSize m
  | onTree {d : Database} {map : ByteMap} {tree : BTree} {call : TreeCall} {walSize : Nat}
    (hworking : m.working = some d) (hmap : d tree = some map) :
    Answers m (.call (.onTree tree call))
      ((call.onMap tree.keySize tree.valueSize map).1.map .value) walSize
      ⟨m.versions, some (Function.update d tree
        (some (call.onMap tree.keySize tree.valueSize map).2)), m.status⟩
  | scans {d : Database} {map : ByteMap} {tree : BTree} {lowerBound upperBound : Option (List Byte)}
    {entries : List BTreeEntry} {walSize : Nat} (hworking : m.working = some d)
    (hmap : d tree = some map) (hbounds : checkBounds tree.keySize lowerBound upperBound = .ok ())
    (hrange : RangeOf map lowerBound upperBound entries) :
    Answers m (.call (.scan tree lowerBound upperBound)) (.ok (.entries entries)) walSize m
  | rejectsBounds {tree : BTree} {lowerBound upperBound : Option (List Byte)} {status : Status}
    {walSize : Nat} (hbounds : checkBounds tree.keySize lowerBound upperBound = .error status) :
    Answers m (.call (.scan tree lowerBound upperBound)) (.error status) walSize m
  | crashes {size : Nat} {order : IterationOrder PageId} {path : String} {capacity walSize : Nat}
    {m' : Store} (h : m.Crashes size m') :
    Answers m (.crash size order path capacity) (.ok .done) walSize m'

/-- One step of the abstract store: it answers, or turns the call down. -/
inductive Step (m : Store) : StoreEvent → Outcome → Store → Prop
  | answers {e : StoreEvent} {o : Outcome} {m' : Store} (h : m.Answers e o.answer o.walSize m') :
    Step m e o m'
  | turnsDown {c : StoreCall} {o : Outcome} {status : Status} (h : o.turnedDown)
    (herror : o.answer = .error status) (hchanges : c.Changes) :
    Step m (.call c) o { m with working := none }
  | turnsDownReading {c : StoreCall} {o : Outcome} {status : Status} (h : o.turnedDown)
    (herror : o.answer = .error status) (hchanges : ¬c.Changes) : Step m (.call c) o m

end Store

end DanDB.BTree
