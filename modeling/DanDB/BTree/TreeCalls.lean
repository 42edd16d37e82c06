import DanDB.BTree.Erasing

/-!
# Trees as maps

A tree stands for a map from keys to values.  What its operations answer is what the
map says, and afterwards the tree stands for the map with the key put in, changed or
taken away.
-/

namespace DanDB.BTree

open Buffer DanDB.Core Storage PageProgram Subtree Entries

variable {layout : Layout} {height : Nat} {array : PageArray} {spare : Nat} {ctx : PageContext (spare + 3)} {tree : BTree}
  {t : Subtree layout height}

/-! ## Maps -/

/-- Values by their keys. -/
abbrev ByteMap := List Byte → Option (List Byte)

/-- A call of an operation. -/
inductive TreeCall
  | find (key : List Byte)
  | insert (key value : List Byte)
  | updateValue (key value : List Byte)
  | erase (key : List Byte)

/-- What an operation gives back: `find` a value, the others nothing. -/
abbrev TreeAnswer := Except Status (Option (List Byte))

namespace TreeCall

/-- The call on a tree. -/
def program (tree : BTree) : TreeCall → PageProgram (Option (List Byte))
  | find key => do
    let value ← tree.find key
    return some value
  | insert key value => do
    tree.insert key value
    return none
  | updateValue key value => do
    tree.updateValue key value
    return none
  | erase key => do
    tree.erase key
    return none

/-- The call on a map: what it answers and the map afterwards. -/
def onMap (keySize valueSize : Nat) (map : ByteMap) : TreeCall → TreeAnswer × ByteMap
  | find key =>
    if key.length ≠ keySize then
      (.error (.InvalidArgument "Cannot find B+ tree key: key size is invalid"), map)
    else match map key with
      | none => (.error (.NotFound "Cannot find B+ tree key: key was not found"), map)
      | some value => (.ok (some value), map)
  | insert key value =>
    if key.length ≠ keySize then
      (.error (.InvalidArgument "Cannot insert key/value into B+ tree: key size is invalid"), map)
    else if value.length ≠ valueSize then
      (.error (.InvalidArgument "Cannot insert key/value into B+ tree: value size is invalid"), map)
    else match map key with
      | none => (.ok none, Function.update map key (some value))
      | some _ => (.error duplicateStatus, map)
  | updateValue key value =>
    if key.length ≠ keySize then
      (.error (.InvalidArgument "Cannot update B+ tree value: key size is invalid"), map)
    else if value.length ≠ valueSize then
      (.error (.InvalidArgument "Cannot update B+ tree value: value size is invalid"), map)
    else match map key with
      | none => (.error (.NotFound "Cannot update B+ tree leaf page value: key was not found"), map)
      | some _ => (.ok none, Function.update map key (some value))
  | erase key =>
    if key.length ≠ keySize then
      (.error (.InvalidArgument "Cannot erase key from B+ tree: key size is invalid"), map)
    else match map key with
      | none => (.error absentStatus, map)
      | some _ => (.ok none, Function.update map key none)

end TreeCall

/-! ## The map of a tree -/

/-- The map that entries stand for. -/
def contents (entries : List (layout.Entry .leaf)) : ByteMap := fun key =>
  if h : key.length = layout.keySize then (lookup ⟨key, h⟩ entries).map Bytes.bytes else none

section Contents

variable {entries : List (layout.Entry .leaf)} {key : layout.Key} {value : layout.Value}

theorem contents_nil : contents ([] : List (layout.Entry .leaf)) = fun _ => none := by
  funext key
  rw [contents]
  split <;> rfl

theorem contents_bytes (entries : List (layout.Entry .leaf)) (key : layout.Key) :
    contents entries key.bytes = (lookup key entries).map Bytes.bytes := dif_pos key.size_eq

/-- Maps that differ at one key only. -/
theorem contents_eq_update {entries' : List (layout.Entry .leaf)} (value : Option layout.Value)
    (hkey : lookup key entries' = value)
    (hother : ∀ key', key' ≠ key → lookup key' entries' = lookup key' entries) :
    contents entries' = Function.update (contents entries) key.bytes (value.map Bytes.bytes) := by
  funext bytes
  by_cases hsize : bytes.length = layout.keySize
  · obtain ⟨key', rfl⟩ : ∃ key' : layout.Key, key'.bytes = bytes := ⟨⟨bytes, hsize⟩, rfl⟩
    rw [contents_bytes]
    rcases eq_or_ne key' key with rfl | hne
    · rw [hkey, Function.update_self]
    · rw [hother key' hne, Function.update_of_ne fun heq => hne (Bytes.ext heq), contents_bytes]
  · have hne : bytes ≠ key.bytes := fun heq => hsize (heq ▸ key.size_eq)
    rw [Function.update_of_ne hne, contents, contents, dif_neg hsize, dif_neg hsize]

theorem contents_put (key : layout.Key) (value : layout.Value)
    (entries : List (layout.Entry .leaf)) : contents (put key value entries) =
      Function.update (contents entries) key.bytes (some value.bytes) := by
  refine contents_eq_update (some value) ?_ fun key' hne => ?_
  · rw [lookup_put, if_pos rfl]
  · rw [lookup_put, if_neg hne]

theorem contents_remove (key : layout.Key) (entries : List (layout.Entry .leaf)) :
    contents (remove key entries) = Function.update (contents entries) key.bytes none := by
  refine contents_eq_update none ?_ fun key' hne => ?_
  · rw [lookup_remove, if_pos rfl]
  · rw [lookup_remove, if_neg hne]

end Contents

/-! ## Calls on a tree -/

/-- What an operation has answered, and what it has made of the tree. -/
def CallEnds (array : PageArray) (tree : BTree) (t : Subtree layout height) (call : TreeCall)
    (answer : TreeAnswer) (array' : PageArray) : Prop :=
  answer = (call.onMap layout.keySize layout.valueSize (contents t.entries)).1 ∧
    ∃ entries, Becomes array tree t entries array' ∧
      contents entries = (call.onMap layout.keySize layout.valueSize (contents t.entries)).2

namespace WellFormed

variable (h : WellFormed array tree t)

include h

/-- An operation that answers an error and leaves the pages alone. -/
theorem callEnds_same {call : TreeCall} {answer : TreeAnswer}
    (hcall : call.onMap layout.keySize layout.valueSize (contents t.entries) =
      (answer, contents t.entries)) : CallEnds array tree t call answer array := by
  rw [CallEnds, hcall]
  exact ⟨rfl, t.entries, h.becomes_self, rfl⟩

/-- A size that is not the one of the tree is found out before a page is read. -/
theorem yields_wrongSize {α : Type} {call : TreeCall} {size size' treeSize : Nat} {status : Status}
    {f : Unit → PageProgram α} {g : α → PageProgram (Option (List Byte))} (hsize : size ≠ size')
    (htree : treeSize = size')
    (hcall : call.onMap layout.keySize layout.valueSize (contents t.entries) =
      (.error status, contents t.entries)) :
    Yields ctx ((Program.failIf (size ≠ treeSize) status >>= f) >>= g) array
      (CallEnds array tree t call) := by
  rw [Program.bind_assoc]
  exact yields_failIf_bind (fun _ => h.callEnds_same hcall) fun hsame =>
    absurd (htree ▸ hsize) hsame

theorem yields_findCall (key : List Byte) :
    Yields ctx ((TreeCall.find key).program tree) array (CallEnds array tree t (.find key)) := by
  by_cases hkey : key.length = layout.keySize
  · obtain ⟨key, rfl⟩ : ∃ key' : layout.Key, key'.bytes = key := ⟨⟨key, hkey⟩, rfl⟩
    have hmap := contents_bytes t.entries key
    refine (h.yields_find key).bind ?_ ?_
    · rintro value array' ⟨rfl, hfind⟩
      cases hlookup : lookup key t.entries with
      | none => rw [hlookup] at hfind; cases hfind
      | some found =>
        rw [hlookup] at hfind hmap
        cases hfind
        refine yields_pure (h.callEnds_same ?_)
        rw [TreeCall.onMap, if_neg (not_not.mpr hkey), hmap]
        rfl
    · rintro status array' ⟨rfl, hfind⟩
      cases hlookup : lookup key t.entries with
      | some found => rw [hlookup] at hfind; cases hfind
      | none =>
        rw [hlookup] at hfind hmap
        cases hfind
        refine h.callEnds_same ?_
        rw [TreeCall.onMap, if_neg (not_not.mpr hkey), hmap]
        rfl
  · exact h.yields_wrongSize hkey h.hasLayout.keySize (if_pos hkey)

theorem yields_eraseCall (hactive : ctx.status = .active) (key : List Byte) :
    Yields ctx ((TreeCall.erase key).program tree) array (CallEnds array tree t (.erase key)) := by
  by_cases hkey : key.length = layout.keySize
  · obtain ⟨key, rfl⟩ : ∃ key' : layout.Key, key'.bytes = key := ⟨⟨key, hkey⟩, rfl⟩
    have hmap := contents_bytes t.entries key
    refine (h.yields_erase hactive key).bind ?_ ?_
    · rintro value array' hend
      cases hlookup : lookup key t.entries with
      | none => rw [hlookup] at hend; cases hend.1
      | some found =>
        rw [hlookup] at hend hmap
        refine yields_pure ?_
        rw [CallEnds, TreeCall.onMap, if_neg (not_not.mpr hkey), hmap]
        exact ⟨rfl, _, hend.2, contents_remove key t.entries⟩
    · rintro status array' hend
      cases hlookup : lookup key t.entries with
      | some found => rw [hlookup] at hend; cases hend.1
      | none =>
        rw [hlookup] at hend hmap
        obtain ⟨herror, rfl⟩ := hend
        cases herror
        refine h.callEnds_same ?_
        rw [TreeCall.onMap, if_neg (not_not.mpr hkey), hmap]
        rfl
  · exact h.yields_wrongSize hkey h.hasLayout.keySize (if_pos hkey)

theorem yields_updateValueCall (hactive : ctx.status = .active) (key value : List Byte) :
    Yields ctx ((TreeCall.updateValue key value).program tree) array
      (CallEnds array tree t (.updateValue key value)) := by
  by_cases hkey : key.length = layout.keySize
  · obtain ⟨key, rfl⟩ : ∃ key' : layout.Key, key'.bytes = key := ⟨⟨key, hkey⟩, rfl⟩
    by_cases hvalue : value.length = layout.valueSize
    · obtain ⟨value, rfl⟩ : ∃ value' : layout.Value, value'.bytes = value := ⟨⟨value, hvalue⟩, rfl⟩
      have hmap := contents_bytes t.entries key
      refine (h.yields_updateValue hactive key value).bind ?_ ?_
      · rintro _ array' hend
        cases hlookup : lookup key t.entries with
        | none => rw [hlookup] at hend; cases hend.1
        | some found =>
          rw [hlookup] at hend hmap
          refine yields_pure ?_
          rw [CallEnds, TreeCall.onMap, if_neg (not_not.mpr hkey), if_neg (not_not.mpr hvalue), hmap]
          exact ⟨rfl, _, hend.2, contents_put key value t.entries⟩
      · rintro status array' hend
        cases hlookup : lookup key t.entries with
        | some found => rw [hlookup] at hend; cases hend.1
        | none =>
          rw [hlookup] at hend hmap
          obtain ⟨herror, rfl⟩ := hend
          cases herror
          refine h.callEnds_same ?_
          rw [TreeCall.onMap, if_neg (not_not.mpr hkey), if_neg (not_not.mpr hvalue), hmap]
          rfl
    · rw [TreeCall.program, updateValue, Program.bind_assoc]
      refine yields_failIf_bind (fun hne => absurd (hkey.trans h.hasLayout.keySize.symm) hne)
        fun _ => h.yields_wrongSize hvalue h.hasLayout.valueSize ?_
      rw [TreeCall.onMap, if_neg (not_not.mpr hkey), if_pos hvalue]
  · exact h.yields_wrongSize hkey h.hasLayout.keySize (if_pos hkey)

theorem yields_insertCall (hactive : ctx.status = .active) (hadmits : layout.Admits .internal)
    (key value : List Byte) : Yields ctx ((TreeCall.insert key value).program tree) array
      (CallEnds array tree t (.insert key value)) := by
  by_cases hkey : key.length = layout.keySize
  · obtain ⟨key, rfl⟩ : ∃ key' : layout.Key, key'.bytes = key := ⟨⟨key, hkey⟩, rfl⟩
    by_cases hvalue : value.length = layout.valueSize
    · obtain ⟨value, rfl⟩ : ∃ value' : layout.Value, value'.bytes = value := ⟨⟨value, hvalue⟩, rfl⟩
      have hmap := contents_bytes t.entries key
      refine (h.yields_insert hactive hadmits key value).bind ?_ ?_
      · rintro _ array' hend
        cases hlookup : lookup key t.entries with
        | some found => rw [hlookup] at hend; cases hend.1
        | none =>
          rw [hlookup] at hend hmap
          refine yields_pure ?_
          rw [CallEnds, TreeCall.onMap, if_neg (not_not.mpr hkey), if_neg (not_not.mpr hvalue), hmap]
          exact ⟨rfl, _, hend.2, contents_put key value t.entries⟩
      · rintro status array' hend
        cases hlookup : lookup key t.entries with
        | none => rw [hlookup] at hend; cases hend.1
        | some found =>
          rw [hlookup] at hend hmap
          obtain ⟨herror, rfl⟩ := hend
          cases herror
          refine h.callEnds_same ?_
          rw [TreeCall.onMap, if_neg (not_not.mpr hkey), if_neg (not_not.mpr hvalue), hmap]
          rfl
    · rw [TreeCall.program, BTree.insert, Program.bind_assoc]
      refine yields_failIf_bind (fun hne => absurd (hkey.trans h.hasLayout.keySize.symm) hne)
        fun _ => h.yields_wrongSize hvalue h.hasLayout.valueSize ?_
      rw [TreeCall.onMap, if_neg (not_not.mpr hkey), if_pos hvalue]
  · exact h.yields_wrongSize hkey h.hasLayout.keySize (if_pos hkey)

/-- Every operation does on the tree what it does on the map. -/
theorem yields_call (hactive : ctx.status = .active) (hadmits : layout.Admits .internal)
    (call : TreeCall) : Yields ctx (call.program tree) array (CallEnds array tree t call) := by
  cases call with
  | find key => exact h.yields_findCall key
  | insert key value => exact h.yields_insertCall hactive hadmits key value
  | updateValue key value => exact h.yields_updateValueCall hactive key value
  | erase key => exact h.yields_eraseCall hactive key

end WellFormed

end DanDB.BTree
