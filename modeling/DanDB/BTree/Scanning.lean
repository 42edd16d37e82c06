import DanDB.BTree.Creating
import DanDB.BTree.Walks

/-!
# Scanning

A cursor stands in front of the entries that it has not come to yet.  It takes them
leaf by leaf, and gives up at the first key that is not below its upper bound.
-/

namespace DanDB.BTree

open Buffer DanDB.Core Storage PageProgram BTreePage Subtree Entries

variable {layout : Layout} {height : Nat} {array : PageArray} {spare : Nat} {ctx : PageContext (spare + 3)} {tree : BTree}
  {t : Subtree layout height} {lower upper : Option layout.Key} {cursor : BTreeCursor}
  {todo : List (layout.Entry .leaf)}

/-- An entry as `next` answers it. -/
def toEntry (entry : layout.Entry .leaf) : BTreeEntry := ⟨entry.1.bytes, entry.2.bytes⟩

/-- The entries before the first one that is not below the bound. -/
def upTo (upper : Option layout.Key) (entries : List (layout.Entry .leaf)) :
    List (layout.Entry .leaf) := entries.takeWhile fun entry => ∀ bound ∈ upper, entry.1 < bound

/-- The entries that a cursor has not come to yet. -/
inductive Ahead (t : Subtree layout height) (upper : Option layout.Key) :
    BTreeCursor → List (layout.Entry .leaf) → Prop
  | ended (entryIndex : Nat) : Ahead t upper ⟨invalidPageId, entryIndex, upper.map Bytes.bytes⟩ []
  | inLeaf {front back : List (PageId × List (layout.Entry .leaf))} {pageId : PageId}
    {before after : List (layout.Entry .leaf)}
    (hleaves : t.leaves = front ++ (pageId, before ++ after) :: back) :
    Ahead t upper ⟨pageId, before.length, upper.map Bytes.bytes⟩ (upTo upper (after ++ leafEntries back))

theorem Subtree.length_leaves_le (t : Subtree layout height) : t.leaves.length ≤ t.pageIds.length := by
  induction height with
  | zero => exact Nat.le_refl 1
  | succ height ih =>
    obtain ⟨pageId, children, hne, rfl⟩ := exists_internal t
    rw [leaves_internal, pageIds_internal, List.length_cons, List.length_flatMap, List.length_flatMap]
    refine Nat.le_succ_of_le (List.sum_le_sum fun child _ => ih child)

/-! ## One entry -/

theorem hasReachedUpperBound_iff {pageId : PageId} {entryIndex : Nat} (key : layout.Key) :
    BTreeCursor.HasReachedUpperBound ⟨pageId, entryIndex, upper.map Bytes.bytes⟩ key.bytes ↔
      ¬∀ bound ∈ upper, key < bound := by
  cases upper with
  | none => simp [BTreeCursor.HasReachedUpperBound]
  | some bound => simp [BTreeCursor.HasReachedUpperBound, Bytes.memcmp_eq_lt]

/-- What a cursor answers, and what it has not come to then. -/
def Advanced (t : Subtree layout height) (upper : Option layout.Key)
    (todo : List (layout.Entry .leaf)) (answer : Option BTreeEntry × BTreeCursor) : Prop :=
  answer.1 = todo.head?.map toEntry ∧ Ahead t upper answer.2 todo.tail

/-- In a leaf, at an entry. -/
theorem entryInLeaf_ok {front back : List (PageId × List (layout.Entry .leaf))} {pageId : PageId}
    {before after : List (layout.Entry .leaf)} {entry : layout.Entry .leaf}
    (hleaves : t.leaves = front ++ (pageId, before ++ entry :: after) :: back) {page : PageData}
    {isRoot : Bool} {parent previous next : PageId}
    (hshows : (Node.leaf isRoot parent previous next (before ++ entry :: after)).Shows page) :
    ∃ answer, BTreeCursor.entryInLeaf ⟨pageId, before.length, upper.map Bytes.bytes⟩ page =
      .ok answer ∧ Advanced t upper (upTo upper (entry :: after ++ leafEntries back)) answer := by
  have hkey : BTreeLeafPage.keyAt page before.length = .ok entry.1.bytes := hshows.keyAt_split rfl
  rw [BTreeCursor.entryInLeaf, hkey, ok_bind, List.cons_append, upTo, List.takeWhile_cons]
  by_cases hbound : ∀ bound ∈ upper, entry.1 < bound
  · rw [if_neg fun hreached => (hasReachedUpperBound_iff _).mp hreached hbound, hshows.valueAt_ok rfl,
      ok_bind, if_pos (decide_eq_true hbound)]
    refine ⟨_, rfl, rfl, ?_⟩
    have hleaves' : t.leaves = front ++ (pageId, (before ++ [entry]) ++ after) :: back := by
      rw [hleaves, List.append_assoc before, List.singleton_append]
    have hahead : Ahead t upper ⟨pageId, (before ++ [entry]).length, upper.map Bytes.bytes⟩
        (upTo upper (after ++ leafEntries back)) := .inLeaf hleaves'
    rwa [List.length_append, List.length_singleton] at hahead
  · rw [if_pos ((hasReachedUpperBound_iff _).mpr hbound), if_neg (by simpa using hbound)]
    exact ⟨_, rfl, rfl, .ended _⟩

theorem runs_nextFrom_ended (entryIndex : Nat) {fuel : Nat} (hfuel : 0 < fuel) :
    Runs ctx (BTreeCursor.nextFrom fuel ⟨invalidPageId, entryIndex, upper.map Bytes.bytes⟩) array
      fun answer array' => array' = array ∧ Advanced t upper [] answer := by
  obtain ⟨fuel, rfl⟩ := Nat.exists_eq_succ_of_ne_zero hfuel.ne'
  rw [BTreeCursor.nextFrom, if_pos rfl]
  exact runs_pure ⟨rfl, rfl, .ended _⟩

namespace WellFormed

variable (h : WellFormed array tree t)

include h

/-- One page of the loop of `next`. -/
theorem runs_page {front back : List (PageId × List (layout.Entry .leaf))} {pageId : PageId}
    {before after : List (layout.Entry .leaf)}
    (hleaves : t.leaves = front ++ (pageId, before ++ after) :: back) :
    Runs ctx (withPage pageId fun page => do
      let page ← .done (BTreeLeafPage.openPage page)
      if before.length < keyCount page then do
        let answer ← .done
          (BTreeCursor.entryInLeaf ⟨pageId, before.length, upper.map Bytes.bytes⟩ page)
        return Sum.inr answer
      else return Sum.inl (⟨nextLeafPageId page, 0, upper.map Bytes.bytes⟩ : BTreeCursor)) array
      fun step array' => array' = array ∧ match after with
          | [] => step = .inl ⟨firstLeaf back invalidPageId, 0, upper.map Bytes.bytes⟩
          | _ :: _ => ∃ answer, step = .inr answer ∧
            Advanced t upper (upTo upper (after ++ leafEntries back)) answer := by
  obtain ⟨isRoot, parent, hholds, -⟩ := h.stored.focus h.nodup hleaves
  refine yields_withPage_node hholds fun page hshows => yields_ok_bind hshows.openAs_ok ?_
  have hcount : keyCount page = (before ++ after).length := hshows.keyCount_eq
  cases after with
  | nil =>
    rw [List.append_nil] at hcount
    rw [if_neg (hcount ▸ Nat.lt_irrefl _), hshows.next_eq]
    exact runs_pure ⟨rfl, rfl⟩
  | cons entry after =>
    rw [List.length_append, List.length_cons] at hcount
    obtain ⟨answer, hentry, hadvanced⟩ : ∃ answer,
        BTreeCursor.entryInLeaf ⟨pageId, before.length, upper.map Bytes.bytes⟩ page = .ok answer ∧
          Advanced t upper (upTo upper (entry :: after ++ leafEntries back)) answer :=
      entryInLeaf_ok hleaves hshows
    rw [if_pos (by omega)]
    exact yields_ok_bind hentry (runs_pure ⟨rfl, answer, rfl, hadvanced⟩)

/-- A cursor in a leaf; the fuel allows for the leaves behind it. -/
theorem runs_nextFrom_inLeaf {front back : List (PageId × List (layout.Entry .leaf))}
    {pageId : PageId} {before after : List (layout.Entry .leaf)}
    (hleaves : t.leaves = front ++ (pageId, before ++ after) :: back) {fuel : Nat}
    (hfuel : back.length + 1 < fuel) :
    Runs ctx (BTreeCursor.nextFrom fuel ⟨pageId, before.length, upper.map Bytes.bytes⟩) array
      fun answer array' => array' = array ∧
        Advanced t upper (upTo upper (after ++ leafEntries back)) answer := by
  obtain ⟨fuel, rfl⟩ := Nat.exists_eq_succ_of_ne_zero (Nat.zero_lt_of_lt hfuel).ne'
  induction back generalizing front pageId before after fuel with
  | nil =>
    obtain ⟨_, _, hholds, -⟩ := h.stored.focus h.nodup hleaves
    rw [BTreeCursor.nextFrom, if_neg hholds.ne_invalid]
    refine (h.runs_page hleaves).bind ?_
    rintro step array' ⟨rfl, hstep⟩
    cases after with
    | cons entry after =>
      obtain ⟨answer, rfl, hadvanced⟩ := hstep
      exact runs_pure ⟨rfl, hadvanced⟩
    | nil =>
      subst hstep
      exact runs_nextFrom_ended 0 (by omega)
  | cons leaf back ih =>
    obtain ⟨_, _, hholds, -⟩ := h.stored.focus h.nodup hleaves
    rw [BTreeCursor.nextFrom, if_neg hholds.ne_invalid]
    refine (h.runs_page hleaves).bind ?_
    rintro step array' ⟨rfl, hstep⟩
    cases after with
    | cons entry after =>
      obtain ⟨answer, rfl, hadvanced⟩ := hstep
      exact runs_pure ⟨rfl, hadvanced⟩
    | nil =>
      subst hstep
      obtain ⟨nextPageId, entries⟩ := leaf
      obtain ⟨fuel, rfl⟩ : ∃ fuel', fuel = fuel' + 1 := ⟨fuel - 1, by rw [List.length_cons] at hfuel; omega⟩
      have hleaves' : t.leaves = (front ++ [(pageId, before ++ [])]) ++ (nextPageId, [] ++ entries) :: back := by
        rw [hleaves, List.append_assoc, List.singleton_append, List.nil_append]
      exact ih hleaves' fuel (by rw [List.length_cons] at hfuel; omega)

/-- There are fewer leaves than page ids. -/
theorem leaves_lt_walkLimit : t.leaves.length < walkLimit := by
  have hnodup : (invalidPageId :: t.pageIds).Nodup := List.nodup_cons.mpr
    ⟨fun hmem => ne_invalidPageId_of_lt (h.stored.lt hmem).1 rfl, h.nodup⟩
  have hle := length_le_walkLimit hnodup
  rw [List.length_cons] at hle
  exact Nat.lt_of_lt_of_le (Nat.lt_succ_of_le t.length_leaves_le) hle

/-- `next` takes the first of the entries ahead, and at the end it stays there. -/
theorem runs_next (hahead : Ahead t upper cursor todo) :
    Runs ctx cursor.next array fun answer array' => array' = array ∧ Advanced t upper todo answer := by
  cases hahead with
  | ended entryIndex => exact runs_nextFrom_ended entryIndex (Nat.two_pow_pos 64)
  | inLeaf hleaves =>
    have hlt := h.leaves_lt_walkLimit
    rw [hleaves, List.length_append, List.length_cons] at hlt
    exact h.runs_nextFrom_inLeaf hleaves (by omega)

end WellFormed

/-! ## Where a scan begins -/

/-- The entries of a range of keys. -/
def inRange (lower upper : Option layout.Key) (entries : List (layout.Entry .leaf)) :
    List (layout.Entry .leaf) :=
  entries.filter fun entry => (∀ bound ∈ lower, bound ≤ entry.1) ∧ ∀ bound ∈ upper, entry.1 < bound

/-- Behind the first key that is not below the bound no key is. -/
theorem upTo_eq_filter {entries : List (layout.Entry .leaf)} (h : Sorted entries) :
    upTo upper entries = entries.filter fun entry => ∀ bound ∈ upper, entry.1 < bound := by
  induction entries with
  | nil => rfl
  | cons entry entries ih =>
    obtain ⟨hlt, hsorted⟩ := sorted_cons.mp h
    rw [upTo, List.takeWhile_cons, List.filter_cons]
    split
    · rw [← ih hsorted]
      rfl
    · rename_i hbound
      refine (List.filter_eq_nil_iff.mpr fun entry' hmem hbelow => hbound ?_).symm
      exact decide_eq_true fun bound hupper =>
        (hlt entry' hmem).trans (of_decide_eq_true hbelow bound hupper)

theorem upTo_suffix {front back : List (layout.Entry .leaf)} (h : Sorted (front ++ back))
    (hfront : ∀ entry ∈ front, ¬∀ bound ∈ lower, bound ≤ entry.1)
    (hback : ∀ entry ∈ back, ∀ bound ∈ lower, bound ≤ entry.1) :
    upTo upper back = inRange lower upper (front ++ back) := by
  have hnone : front.filter (fun entry => (∀ bound ∈ lower, bound ≤ entry.1) ∧
      ∀ bound ∈ upper, entry.1 < bound) = [] :=
    List.filter_eq_nil_iff.mpr fun entry hmem hin => hfront entry hmem (of_decide_eq_true hin).1
  rw [inRange, List.filter_append, hnone, List.nil_append, upTo_eq_filter (sorted_append.mp h).2.1]
  refine List.filter_congr fun entry hmem => ?_
  rw [decide_eq_decide]
  exact (and_iff_right (hback entry hmem)).symm

theorem runs_firstLeafFrom {isRoot : Bool} {parent previous next : PageId}
    (h : Stored array isRoot parent previous next t) {fuel : Nat} (hfuel : height < fuel) :
    Runs ctx (firstLeafFrom fuel t.pageId) array fun leafPageId array' =>
      array' = array ∧ ∃ entries back, t.leaves = (leafPageId, entries) :: back := by
  obtain ⟨fuel, rfl⟩ := Nat.exists_eq_succ_of_ne_zero (Nat.zero_lt_of_lt hfuel).ne'
  induction height generalizing isRoot parent previous next fuel with
  | zero =>
    obtain ⟨pageId, entries, rfl⟩ := exists_leaf t
    have hpage : Holds array pageId (Node.leaf isRoot parent previous next entries) := h
    have hfirst : Runs ctx (firstChild pageId) array fun child array' =>
        child = none ∧ array' = array := by
      refine yields_withPage_node hpage fun data hshows => yields_ok_bind hshows.openPage_ok ?_
      rw [hshows.kind_eq]
      exact runs_pure ⟨rfl, rfl⟩
    refine hfirst.bind fun child array' ⟨hchild, harray⟩ => ?_
    subst hchild harray
    exact runs_pure ⟨rfl, entries, [], rfl⟩
  | succ height ih =>
    obtain ⟨pageId, children, hne, rfl⟩ := exists_internal t
    obtain ⟨first, rest, rfl⟩ := List.exists_cons_of_ne_nil hne
    obtain ⟨fuel, rfl⟩ := Nat.exists_eq_succ_of_ne_zero
      (Nat.zero_lt_of_lt (Nat.lt_of_succ_lt_succ hfuel)).ne'
    have hfirst : Runs ctx (firstChild pageId) array fun child array' =>
        child = some first.pageId ∧ array' = array := by
      refine yields_withPage_node h.1 fun data hshows => yields_ok_bind hshows.openPage_ok ?_
      rw [hshows.kind_eq]
      refine yields_ok_bind hshows.openAs_ok (runs_pure ⟨?_, rfl⟩)
      rw [hshows.firstChild_eq]
      rfl
    refine hfirst.bind fun child array' ⟨hchild, harray⟩ => ?_
    subst hchild harray
    refine (ih (linked_cons.mp (stored_internal.mp h).2).1 fuel (Nat.lt_of_succ_lt_succ hfuel)).mono ?_
    rintro leafPageId array' ⟨harray, entries, back, hleaves⟩
    refine ⟨harray, entries, back ++ rest.flatMap leaves, ?_⟩
    rw [leaves_internal, List.flatMap_cons, hleaves, List.cons_append]

namespace WellFormed

variable (h : WellFormed array tree t)

include h

theorem runs_scanRange (lower upper : Option layout.Key) :
    Runs ctx (tree.scanRange (lower.map Bytes.bytes) (upper.map Bytes.bytes)) array
      fun cursor array' => array' = array ∧ Ahead t upper cursor (inRange lower upper t.entries) := by
  have hsize {bound : Option layout.Key} :
      ¬∃ bytes ∈ bound.map Bytes.bytes, bytes.length ≠ tree.keySize := by
    rintro ⟨bytes, hmem, hne⟩
    obtain ⟨key, -, rfl⟩ := Option.map_eq_some_iff.mp hmem
    exact hne (key.size_eq.trans h.hasLayout.keySize.symm)
  refine yields_failIf_bind (fun hne => absurd hne hsize) fun _ =>
    yields_failIf_bind (fun hne => absurd hne hsize) fun _ => ?_
  cases lower with
  | none =>
    have hfirst : Runs ctx (firstLeafFrom walkLimit t.pageId) array fun leafPageId array' =>
        array' = array ∧ ∃ entries back, t.leaves = (leafPageId, entries) :: back :=
      runs_firstLeafFrom h.stored (Subtree.height_lt_walkLimit h.nodup)
    rw [← h.rootPageId] at hfirst
    refine hfirst.bind ?_
    rintro leafPageId array' ⟨rfl, entries, back, hleaves⟩
    refine runs_pure ⟨rfl, ?_⟩
    have hahead : Ahead t upper ⟨leafPageId, 0, upper.map Bytes.bytes⟩
        (upTo upper (entries ++ leafEntries back)) := @Ahead.inLeaf _ _ t upper [] back _ [] _ hleaves
    have hentries : t.entries = [] ++ (entries ++ leafEntries back) := by
      rw [Subtree.entries, hleaves, List.flatMap_cons, List.nil_append]
    have hinRange : upTo upper (entries ++ leafEntries back) =
        inRange none upper ([] ++ (entries ++ leafEntries back)) :=
      upTo_suffix (hentries ▸ h.sorted) (by rintro _ ⟨⟩) (by rintro _ _ _ ⟨⟩)
    rwa [hinRange, ← hentries] at hahead
  | some lower =>
    refine (h.runs_findLeafPageId lower).bind ?_
    rintro leafPageId array' ⟨rfl, leavesFront, entries, leavesBack, hleaves, hleaf⟩
    obtain ⟨isRoot, parent, hholds, -⟩ := h.stored.focus h.nodup hleaves
    obtain ⟨hsorted, -, -⟩ := h.leafFor hleaves hleaf
    obtain ⟨before, after, rfl, hbefore, hafter⟩ := hsorted.exists_split lower
    refine yields_withPage_node hholds fun page hshows => yields_ok_bind hshows.openAs_ok
      (yields_ok_bind (hshows.findInsertionPosition_ok rfl hbefore hafter) (runs_pure ⟨rfl, ?_⟩))
    have hentries : t.entries = (leafEntries leavesFront ++ before) ++ (after ++ leafEntries leavesBack) := by
      rw [entries_split hleaves, List.append_assoc, List.append_assoc, List.append_assoc]
    rw [hentries, ← upTo_suffix (hentries ▸ h.sorted) ?_ ?_]
    · exact .inLeaf hleaves
    · rintro entry hmem hle
      have hlt : entry.1 < lower := (List.mem_append.mp hmem).elim (hleaf.lt entry) (hbefore entry)
      exact absurd (hle lower rfl) hlt.not_ge
    · rintro entry hmem bound hbound
      cases hbound
      exact (List.mem_append.mp hmem).elim (hafter entry) fun hmem => (hleaf.gt entry hmem).le

end WellFormed

/-! ## Loops over entries -/

section Loops

variable {σ : Type} {step : σ → BTreeEntry → PageProgram σ} {state : σ}

/-- How a loop over entries ends. -/
def LoopEnds (finished : σ → PageArray → Prop) (failed : Status → PageArray → Prop) :
    Except Status σ → PageArray → Prop
  | .ok state, array => finished state array
  | .error status, array => failed status array

/-- What holds before the cursor goes on and what holds before its entry is worked on
carry each other through the loop. -/
theorem yields_foldEntries {before : List (layout.Entry .leaf) → BTreeCursor → σ → PageArray → Prop}
    {between : layout.Entry .leaf → List (layout.Entry .leaf) → BTreeCursor → σ → PageArray → Prop}
    {finished : σ → PageArray → Prop} {failed : Status → PageArray → Prop}
    (hend : ∀ cursor state array, before [] cursor state array →
      Runs ctx cursor.next array fun answer array' => answer.1 = none ∧ finished state array')
    (hnext : ∀ entry todo cursor state array, before (entry :: todo) cursor state array →
      Runs ctx cursor.next array fun answer array' =>
        answer.1 = some (toEntry entry) ∧ between entry todo answer.2 state array')
    (hstep : ∀ entry todo cursor state array, between entry todo cursor state array →
      Yields ctx (step state (toEntry entry)) array (LoopEnds (before todo cursor) failed))
    {fuel : Nat} (hfuel : todo.length < fuel) (h : before todo cursor state array) :
    Yields ctx (BTreeCursor.foldEntries BTreeCursor.next step fuel cursor state) array
      (LoopEnds finished failed) := by
  obtain ⟨fuel, rfl⟩ := Nat.exists_eq_succ_of_ne_zero (Nat.zero_lt_of_lt hfuel).ne'
  induction todo generalizing cursor state array fuel with
  | nil =>
    refine (hend cursor state array h).bind ?_
    rintro ⟨_, cursor'⟩ array' ⟨rfl, hfinished⟩
    exact yields_pure hfinished
  | cons entry todo ih =>
    obtain ⟨fuel, rfl⟩ : ∃ fuel', fuel = fuel' + 1 :=
      ⟨fuel - 1, by rw [List.length_cons] at hfuel; omega⟩
    refine (hnext entry todo cursor state array h).bind ?_
    rintro ⟨_, cursor'⟩ array' ⟨rfl, hbetween⟩
    refine (hstep entry todo cursor' state array' hbetween).bind ?_ ?_
    · intro state' array'' hbefore
      exact ih hbefore fuel (by rw [List.length_cons] at hfuel; omega)
    · intro status array'' hfailed
      exact hfailed

namespace WellFormed

/-- A loop that leaves the tree alone. -/
theorem yields_foldEntries {inv : List (layout.Entry .leaf) → σ → PageArray → Prop}
    {failed : Status → PageArray → Prop}
    (hinv : ∀ todo state array, inv todo state array → WellFormed array tree t)
    (hstep : ∀ entry todo state array, inv (entry :: todo) state array →
      Yields ctx (step state (toEntry entry)) array (LoopEnds (inv todo) failed))
    {fuel : Nat} (hfuel : todo.length < fuel) (hahead : Ahead t upper cursor todo)
    (h : inv todo state array) :
    Yields ctx (BTreeCursor.foldEntries BTreeCursor.next step fuel cursor state) array
      (LoopEnds (inv []) failed) := by
  refine @BTree.yields_foldEntries layout array _ ctx cursor todo σ step state
    (fun todo cursor state array => Ahead t upper cursor todo ∧ inv todo state array)
    (fun entry todo cursor state array => Ahead t upper cursor todo ∧ inv (entry :: todo) state array)
    (inv []) failed ?_ ?_ ?_ fuel hfuel ⟨hahead, h⟩
  · rintro cursor state array ⟨hahead, h⟩
    exact ((hinv _ _ _ h).runs_next hahead).mono fun _ _ ⟨harray, hnone, _⟩ => ⟨hnone, harray ▸ h⟩
  · rintro entry todo cursor state array ⟨hahead, h⟩
    exact ((hinv _ _ _ h).runs_next hahead).mono fun _ _ ⟨harray, hsome, hahead⟩ =>
      ⟨hsome, hahead, harray ▸ h⟩
  · rintro entry todo cursor state array ⟨hahead, h⟩
    refine (hstep entry todo state array h).mono ?_
    rintro (status | state') array' hend
    · exact hend
    · exact ⟨hahead, hend⟩

omit σ step state in
/-- There are fewer entries than a loop may take. -/
theorem length_lt_drainLimit (h : WellFormed array tree t) :
    (inRange lower upper t.entries).length < BTreeCursor.drainLimit := by
  have hleaf : ∀ leaf ∈ t.leaves, leaf.2.length ≤ 2 ^ 16 := by
    rintro ⟨leafPageId, entries⟩ hmem
    obtain ⟨front, back, hleaves⟩ := List.append_of_mem hmem
    obtain ⟨_, _, ⟨_, _, hshows⟩, -⟩ := h.stored.focus h.nodup hleaves
    exact (hshows.fits.trans_lt (layout.capacity_lt .leaf)).le
  have hsum : t.entries.length ≤ t.leaves.length * 2 ^ 16 := by
    rw [Subtree.entries, List.length_flatMap, ← smul_eq_mul, ← List.length_map]
    refine List.sum_le_card_nsmul _ _ fun n hn => ?_
    obtain ⟨leaf, hmem, rfl⟩ := List.mem_map.mp hn
    exact hleaf leaf hmem
  have hle : t.leaves.length * 2 ^ 16 ≤ walkLimit * 2 ^ 16 :=
    Nat.mul_le_mul_right _ h.leaves_lt_walkLimit.le
  exact Nat.lt_succ_of_le (((List.length_filter_le ..).trans hsum).trans hle)

end WellFormed

end Loops

/-- What has been collected and what is still to come are all. -/
def Collected (array : PageArray) (all todo : List (layout.Entry .leaf)) (entries : List BTreeEntry)
    (array' : PageArray) : Prop :=
  array' = array ∧ entries ++ todo.map toEntry = all.map toEntry

/-- All entries of the range, in their order. -/
theorem WellFormed.runs_drain (h : WellFormed array tree t)
    (hahead : Ahead t upper cursor (inRange lower upper t.entries)) :
    Runs ctx cursor.drain array fun entries array' =>
      array' = array ∧ entries = (inRange lower upper t.entries).map toEntry := by
  generalize hall : inRange lower upper t.entries = all at hahead
  have hloop : Yields ctx cursor.drain array
      (LoopEnds (Collected array all []) fun _ _ => False) := by
    refine WellFormed.yields_foldEntries (fun _ _ _ hcollected => hcollected.1.symm ▸ h) ?_ ?_ hahead
      ⟨rfl, rfl⟩
    · rintro entry todo entries array' ⟨rfl, hentries⟩
      refine yields_pure ⟨rfl, ?_⟩
      rw [List.append_assoc, List.singleton_append, ← List.map_cons, hentries]
    · rw [← hall]
      exact h.length_lt_drainLimit
  refine hloop.mono ?_
  rintro (status | entries) array' hend
  · exact hend.elim
  · exact ⟨entries, rfl, hend.1, by rw [← hend.2, List.map_nil, List.append_nil]⟩

end DanDB.BTree
