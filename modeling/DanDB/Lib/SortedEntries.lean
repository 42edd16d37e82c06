import Mathlib

/-!
# Sorted entries

A finite map as the list of its entries in the order of their keys.  What an
operation does to the list is local: entries with smaller and with larger keys
around a stretch of the list stay as they are.
-/

namespace Entries

variable {κ ν : Type} [LinearOrder κ]

/-- The keys increase. -/
def Sorted (entries : List (κ × ν)) : Prop := entries.Pairwise fun a b => a.1 < b.1

/-- The value of a key. -/
def lookup (key : κ) (entries : List (κ × ν)) : Option ν :=
  (entries.find? fun entry => entry.1 = key).map Prod.snd

/-- Give a key a value. -/
def put (key : κ) (value : ν) (entries : List (κ × ν)) : List (κ × ν) :=
  entries.filter (·.1 < key) ++ (key, value) :: entries.filter (key < ·.1)

/-- Remove a key. -/
def remove (key : κ) (entries : List (κ × ν)) : List (κ × ν) := entries.filter (·.1 ≠ key)

variable {key key' : κ} {value value' : ν} {entries front back middle : List (κ × ν)}
  {entry : κ × ν}

/-! ## Sorted lists -/

theorem sorted_append : Sorted (front ++ back) ↔
    Sorted front ∧ Sorted back ∧ ∀ a ∈ front, ∀ b ∈ back, a.1 < b.1 := List.pairwise_append

theorem sorted_cons : Sorted (entry :: entries) ↔ (∀ b ∈ entries, entry.1 < b.1) ∧ Sorted entries :=
  List.pairwise_cons

/-- The place of a key. -/
theorem Sorted.exists_split (h : Sorted entries) (key : κ) : ∃ front back,
    entries = front ++ back ∧ (∀ a ∈ front, a.1 < key) ∧ ∀ b ∈ back, key ≤ b.1 := by
  induction entries with
  | nil => exact ⟨[], [], rfl, nofun, nofun⟩
  | cons entry entries ih =>
    obtain ⟨hfirst, hrest⟩ := sorted_cons.mp h
    rcases lt_or_ge entry.1 key with hlt | hge
    · obtain ⟨front, back, rfl, hfront, hback⟩ := ih hrest
      exact ⟨entry :: front, back, rfl, List.forall_mem_cons.mpr ⟨hlt, hfront⟩, hback⟩
    · exact ⟨[], entry :: entries, rfl, nofun,
        List.forall_mem_cons.mpr ⟨hge, fun b hb => hge.trans (hfirst b hb).le⟩⟩

/-- The place of a key, and the entry of the key if there is one. -/
theorem Sorted.cases_split (h : Sorted entries) (key : κ) : ∃ front back,
    (∀ a ∈ front, a.1 < key) ∧ (∀ b ∈ back, key < b.1) ∧
      (entries = front ++ back ∨ ∃ value, entries = front ++ (key, value) :: back) := by
  obtain ⟨front, back, rfl, hfront, hback⟩ := h.exists_split key
  obtain ⟨-, hsorted, -⟩ := sorted_append.mp h
  cases back with
  | nil => exact ⟨front, [], hfront, nofun, .inl rfl⟩
  | cons entry back =>
    obtain ⟨hfirst, -⟩ := sorted_cons.mp hsorted
    obtain ⟨key', value⟩ := entry
    rcases (hback _ (List.mem_cons_self ..)).eq_or_lt with heq | hlt
    · cases heq
      exact ⟨front, back, hfront, hfirst, .inr ⟨value, rfl⟩⟩
    · exact ⟨front, (key', value) :: back, hfront,
        List.forall_mem_cons.mpr ⟨hlt, fun b hb => hlt.trans (hfirst b hb)⟩, .inl rfl⟩

/-- The place behind a key. -/
theorem Sorted.exists_split_le (h : Sorted entries) (key : κ) : ∃ front back,
    entries = front ++ back ∧ (∀ a ∈ front, a.1 ≤ key) ∧ ∀ b ∈ back, key < b.1 := by
  obtain ⟨front, back, hfront, hback, rfl | ⟨value, rfl⟩⟩ := h.cases_split key
  · exact ⟨front, back, rfl, fun a ha => (hfront a ha).le, hback⟩
  · refine ⟨front ++ [(key, value)], back, by simp, fun a ha => ?_, hback⟩
    obtain ha | ha := List.mem_append.mp ha
    · exact (hfront a ha).le
    · rw [List.mem_singleton.mp ha]

/-- A new key whose neighbours are in order with it. -/
theorem Sorted.insert_between (h : Sorted (front ++ back)) (habsent : ∀ a ∈ front ++ back, a.1 ≠ key)
    (hlast : ∀ a ∈ front.getLast?, a.1 ≤ key) (hfirst : ∀ b ∈ back.head?, key ≤ b.1) :
    Sorted (front ++ (key, value) :: back) := by
  obtain ⟨hfront, hback, hbetween⟩ := sorted_append.mp h
  have hfrontKeys : ∀ a ∈ front, a.1 < key := by
    intro a ha
    refine lt_of_le_of_ne ?_ (habsent a (List.mem_append_left _ ha))
    obtain ⟨front', last, rfl⟩ := List.eq_nil_or_concat front |>.resolve_left (List.ne_nil_of_mem ha)
    rw [List.concat_eq_append] at ha hfront hlast
    have hle : last.1 ≤ key := hlast last (by simp)
    obtain ha | ha := List.mem_append.mp ha
    · obtain ⟨-, -, hlt⟩ := sorted_append.mp hfront
      exact (hlt a ha last (List.mem_singleton_self _)).le.trans hle
    · rwa [List.mem_singleton.mp ha]
  have hbackKeys : ∀ b ∈ back, key < b.1 := by
    intro b hb
    refine lt_of_le_of_ne ?_ (habsent b (List.mem_append_right _ hb)).symm
    obtain ⟨first, back', rfl⟩ := List.exists_cons_of_ne_nil (List.ne_nil_of_mem hb)
    have hle : key ≤ first.1 := hfirst first (by simp)
    obtain rfl | hb := List.mem_cons.mp hb
    · exact hle
    · exact hle.trans ((sorted_cons.mp hback).1 b hb).le
  refine sorted_append.mpr ⟨hfront, sorted_cons.mpr ⟨hbackKeys, hback⟩, fun a ha b hb => ?_⟩
  obtain rfl | hb := List.mem_cons.mp hb
  · exact hfrontKeys a ha
  · exact hbetween a ha b hb

/-! ## Looking up -/

theorem lookup_append : lookup key (front ++ back) = (lookup key front).or (lookup key back) := by
  rw [lookup, lookup, lookup, List.find?_append, Option.map_or]

theorem lookup_eq_none : lookup key entries = none ↔ ∀ entry ∈ entries, entry.1 ≠ key := by
  simp [lookup]

theorem lookup_cons_self : lookup key ((key, value) :: entries) = some value := by
  simp [lookup]

/-- The entry of a key that the entries in front of it do not have. -/
theorem lookup_split (h : ∀ a ∈ front, a.1 < key) :
    lookup key (front ++ (key, value) :: back) = some value := by
  rw [lookup_append, lookup_eq_none.mpr fun a ha => (h a ha).ne, Option.none_or, lookup_cons_self]

theorem lookup_split_none (hfront : ∀ a ∈ front, a.1 < key) (hback : ∀ b ∈ back, key < b.1) :
    lookup key (front ++ back) = none :=
  lookup_eq_none.mpr fun _ hmem => (List.mem_append.mp hmem).elim (fun h => (hfront _ h).ne)
    fun h => (hback _ h).ne'

theorem Sorted.lookup_eq_some (h : Sorted entries) :
    lookup key entries = some value ↔ (key, value) ∈ entries := by
  obtain ⟨front, back, hfront, hback, rfl | ⟨value', rfl⟩⟩ := h.cases_split key
  · rw [lookup_split_none hfront hback]
    refine ⟨nofun, fun hmem => ?_⟩
    obtain hmem | hmem := List.mem_append.mp hmem
    · exact absurd (hfront _ hmem) (lt_irrefl key)
    · exact absurd (hback _ hmem) (lt_irrefl key)
  · rw [lookup_split hfront]
    refine ⟨?_, fun hmem => ?_⟩
    · rintro ⟨⟩
      exact List.mem_append_right _ (List.mem_cons_self ..)
    · obtain hmem | hmem := List.mem_append.mp hmem
      · exact absurd (hfront _ hmem) (lt_irrefl key)
      · obtain hmem | hmem := List.mem_cons.mp hmem
        · cases hmem
          rfl
        · exact absurd (hback _ hmem) (lt_irrefl key)

/-! ## Putting -/

theorem put_append (hfront : ∀ a ∈ front, a.1 < key) (hback : ∀ b ∈ back, key < b.1) :
    put key value (front ++ middle ++ back) = front ++ put key value middle ++ back := by
  have hfront' : front.filter (key < ·.1) = [] :=
    List.filter_eq_nil_iff.mpr fun a ha => by simpa using (hfront a ha).le
  have hback' : back.filter (·.1 < key) = [] :=
    List.filter_eq_nil_iff.mpr fun b hb => by simpa using (hback b hb).le
  have hfront'' : front.filter (·.1 < key) = front :=
    List.filter_eq_self.mpr fun a ha => by simpa using hfront a ha
  have hback'' : back.filter (key < ·.1) = back :=
    List.filter_eq_self.mpr fun b hb => by simpa using hback b hb
  simp only [put, List.filter_append, hfront', hback', hfront'', hback'', List.nil_append,
    List.append_nil, List.append_assoc, List.cons_append]

theorem put_split (hfront : ∀ a ∈ front, a.1 < key) (hback : ∀ b ∈ back, key < b.1) :
    put key value (front ++ back) = front ++ (key, value) :: back := by
  have happend := @put_append _ _ _ key value _ _ [] hfront hback
  rwa [List.append_nil, show put key value [] = [(key, value)] from rfl, List.append_assoc,
    List.singleton_append] at happend

theorem put_split_same (hfront : ∀ a ∈ front, a.1 < key) (hback : ∀ b ∈ back, key < b.1) :
    put key value (front ++ (key, value') :: back) = front ++ (key, value) :: back := by
  have happend := @put_append _ _ _ key value _ _ [(key, value')] hfront hback
  have hput : put key value [(key, value')] = [(key, value)] := by simp [put]
  rwa [hput, List.append_assoc, List.append_assoc, List.singleton_append,
    List.singleton_append] at happend

theorem Sorted.put (h : Sorted entries) (key : κ) (value : ν) : Sorted (put key value entries) := by
  refine sorted_append.mpr ⟨h.filter _, sorted_cons.mpr ⟨fun b hb => ?_, h.filter _⟩, ?_⟩
  · simpa using (List.mem_filter.mp hb).2
  · intro a ha b hb
    have hlt : a.1 < key := by simpa using (List.mem_filter.mp ha).2
    obtain rfl | hb := List.mem_cons.mp hb
    · exact hlt
    · exact hlt.trans (by simpa using (List.mem_filter.mp hb).2)

/-- The first key stays the first one, unless the new key is smaller. -/
theorem put_cons_of_le (h : Sorted (entry :: entries)) (hle : entry.1 ≤ key) (value : ν) :
    ∃ value' entries', put key value (entry :: entries) = (entry.1, value') :: entries' := by
  obtain ⟨hfirst, -⟩ := sorted_cons.mp h
  rcases hle.lt_or_eq with hlt | heq
  · rw [put, List.filter_cons_of_pos (by simpa using hlt), List.cons_append]
    exact ⟨entry.2, _, rfl⟩
  · have hnone : (entry :: entries).filter (·.1 < key) = [] := by
      refine List.filter_eq_nil_iff.mpr fun e he => ?_
      obtain rfl | he := List.mem_cons.mp he
      · simpa using heq.ge
      · simpa using heq.ge.trans (hfirst e he).le
    rw [put, hnone, List.nil_append, heq]
    exact ⟨value, _, rfl⟩

theorem lookup_put : lookup key' (put key value entries) =
    if key' = key then some value else lookup key' entries := by
  have hfilter {p : κ × ν → Bool} (hp : ∀ entry : κ × ν, entry.1 = key' → p entry = true) :
      lookup key' (entries.filter p) = lookup key' entries := by
    rw [lookup, lookup, List.find?_filter]
    congr 1
    refine congrArg (List.find? · entries) (funext fun entry => ?_)
    by_cases hkey : entry.1 = key'
    · simp [hkey, hp entry hkey]
    · simp [hkey]
  have hnone {p : κ × ν → Bool} (hp : ∀ entry : κ × ν, entry.1 = key' → p entry = false) :
      lookup key' (entries.filter p) = none := by
    refine lookup_eq_none.mpr fun entry hmem heq => ?_
    have hkept := (List.mem_filter.mp hmem).2
    rw [hp entry heq] at hkept
    cases hkept
  have hcons : lookup key' ((key, value) :: entries.filter (key < ·.1)) =
      if key' = key then some value else lookup key' (entries.filter (key < ·.1)) := by
    by_cases hkey : key' = key
    · rw [if_pos hkey, hkey, lookup_cons_self]
    · rw [if_neg hkey, lookup, List.find?_cons_of_neg (by simpa using Ne.symm hkey)]
      rfl
  rw [put, lookup_append, hcons]
  rcases lt_trichotomy key' key with hlt | rfl | hgt
  · rw [hfilter (fun entry heq => by simpa [heq] using hlt), if_neg hlt.ne, if_neg hlt.ne,
      hnone (fun entry heq => by simpa [heq] using hlt.le), Option.or_none]
  · rw [hnone (fun entry heq => by simp [heq]), if_pos rfl, if_pos rfl, Option.none_or]
  · rw [hnone (fun entry heq => by simpa [heq] using hgt.le), if_neg hgt.ne', if_neg hgt.ne',
      hfilter (fun entry heq => by simpa [heq] using hgt), Option.none_or]

/-! ## Removing -/

theorem remove_append (hfront : ∀ a ∈ front, a.1 < key) (hback : ∀ b ∈ back, key < b.1) :
    remove key (front ++ middle ++ back) = front ++ remove key middle ++ back := by
  have hfront' : front.filter (·.1 ≠ key) = front :=
    List.filter_eq_self.mpr fun a ha => by simpa using (hfront a ha).ne
  have hback' : back.filter (·.1 ≠ key) = back :=
    List.filter_eq_self.mpr fun b hb => by simpa using (hback b hb).ne'
  rw [remove, remove, List.filter_append, List.filter_append, hfront', hback']

theorem remove_split (hfront : ∀ a ∈ front, a.1 < key) (hback : ∀ b ∈ back, key < b.1) :
    remove key (front ++ (key, value) :: back) = front ++ back := by
  have happend := @remove_append _ _ _ key _ _ [(key, value)] hfront hback
  have hremove : remove key [(key, value)] = [] := by simp [remove]
  rwa [hremove, List.append_assoc, List.singleton_append, List.append_nil] at happend

theorem Sorted.remove (h : Sorted entries) (key : κ) : Sorted (remove key entries) := h.filter _

theorem lookup_remove : lookup key' (remove key entries) =
    if key' = key then none else lookup key' entries := by
  by_cases hkey : key' = key
  · rw [if_pos hkey, lookup_eq_none]
    intro entry hmem heq
    exact absurd (heq.trans hkey) (by simpa using (List.mem_filter.mp hmem).2)
  · rw [if_neg hkey, remove, lookup, lookup, List.find?_filter]
    congr 1
    refine congrArg (List.find? · entries) (funext fun entry => ?_)
    by_cases heq : entry.1 = key'
    · simp [heq, hkey]
    · simp [heq]

end Entries
