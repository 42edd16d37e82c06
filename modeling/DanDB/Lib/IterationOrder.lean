import Mathlib

/-!
# Iterating over unordered containers

A hash table yields its elements in an order the program does not control.  An
`IterationOrder` is one such order: it visits the elements of a list each once.
A result about all iteration orders holds whatever the hash function does.
-/

/-- An order in which the elements of a container are visited. -/
structure IterationOrder (α : Type) where
  /-- The elements in the order of the visit. -/
  visit : List α → List α
  perm : ∀ elements, (visit elements).Perm elements

namespace IterationOrder

variable {α : Type} (order : IterationOrder α)

@[simp] theorem mem_visit {elements : List α} {a : α} :
    a ∈ order.visit elements ↔ a ∈ elements :=
  (order.perm elements).mem_iff

theorem nodup_visit {elements : List α} (h : elements.Nodup) : (order.visit elements).Nodup :=
  (order.perm elements).nodup_iff.mpr h

/-- The entries of a map, in the order of the visit to its keys. -/
def visitEntries {β : Type} [DecidableEq α] (order : IterationOrder α)
    (map : AList fun _ : α => β) : List (α × β) :=
  (order.visit map.keys).filterMap fun key => (map.lookup key).map (key, ·)

theorem mem_visitEntries {β : Type} [DecidableEq α] {map : AList fun _ : α => β} {key : α}
    {value : β} : (key, value) ∈ order.visitEntries map ↔ map.lookup key = some value := by
  simp only [visitEntries, List.mem_filterMap, mem_visit, Option.map_eq_some_iff, Prod.mk.injEq]
  constructor
  · rintro ⟨key', -, value', hlookup, rfl, rfl⟩
    exact hlookup
  · intro hlookup
    have hmem : key ∈ map := AList.lookup_isSome.mp (by rw [hlookup]; rfl)
    exact ⟨key, AList.mem_keys.mp hmem, value, hlookup, rfl, rfl⟩

theorem map_fst_visitEntries {β : Type} [DecidableEq α] (map : AList fun _ : α => β) :
    (order.visitEntries map).map Prod.fst = order.visit map.keys := by
  have hkeys : ∀ key ∈ order.visit map.keys, key ∈ map := fun key hkey =>
    AList.mem_keys.mpr (order.mem_visit.mp hkey)
  unfold visitEntries
  generalize order.visit map.keys = keys at hkeys ⊢
  induction keys with
  | nil => rfl
  | cons key keys ih =>
    obtain ⟨value, hvalue⟩ := Option.isSome_iff_exists.mp
      (AList.lookup_isSome.mpr (hkeys key (List.mem_cons_self ..)))
    rw [List.filterMap_cons, hvalue, Option.map_some, List.map_cons,
      ih fun key' hkey' => hkeys key' (List.mem_cons_of_mem _ hkey')]

theorem nodup_map_fst_visitEntries {β : Type} [DecidableEq α] (map : AList fun _ : α => β) :
    ((order.visitEntries map).map Prod.fst).Nodup := by
  rw [map_fst_visitEntries]
  exact order.nodup_visit map.keys_nodup

/-- The order in which they were put in. -/
def insertion : IterationOrder α := ⟨id, fun _ => .refl _⟩

end IterationOrder
