import DanDB.Buffer.PoolInvariant

/-!
# Runs of the buffer pool

The clients of a pool hold `PagePin` objects, which can be marked, moved and
destroyed, and pins they took with `pin_page`.  A run is any sequence of calls
from a pool just created; beside the state it keeps the call at which each
frame last became evictable.

A frame counts its pins in 32 bits.  Runs that stay within that keep the invariant;
`exists_overflow` is one that does not.
-/

namespace DanDB.BufferPool

open DanDB.Core Storage

/-! ## The order of the replacer -/

/-- What a call does to the list of the replacer: some frames leave it, and at
most one enters, in front. -/
def LruStep (lru lru' : List FrameId) : Prop :=
  lru'.Sublist lru ∨ ∃ f rest, f ∉ lru ∧ lru' = f :: rest ∧ rest.Sublist lru

/-- A frame that is in the replacer stays where it is, another becomes the last. -/
theorem LruStep.of_insert {lru : List FrameId} {f : FrameId} :
    LruStep lru (if f ∈ lru then lru else f :: lru) := by
  split
  · exact .inl (List.Sublist.refl _)
  · exact .inr ⟨f, lru, ‹_›, rfl, List.Sublist.refl _⟩

/-- A list ordered by times stays so when the frame that enters gets the latest. -/
theorem LruStep.pairwise {lru lru' : List FrameId} (h : LruStep lru lru')
    {since since' : FrameId → Nat} {now : Nat}
    (horder : lru.Pairwise fun f g => since g < since f) (hbound : ∀ f ∈ lru, since f < now)
    (hold : ∀ f ∈ lru, f ∈ lru' → since' f = since f)
    (hnew : ∀ f ∈ lru', f ∉ lru → since' f = now) :
    (lru'.Pairwise fun f g => since' g < since' f) ∧ ∀ f ∈ lru', since' f ≤ now := by
  have hbound' : ∀ f ∈ lru', since' f ≤ now := by
    intro f hf
    by_cases hmem : f ∈ lru
    · rw [hold f hmem hf]
      exact (hbound f hmem).le
    · exact (hnew f hf hmem).le
  refine ⟨?_, hbound'⟩
  have hsub {rest : List FrameId} (hrest : rest.Sublist lru) (hin : ∀ f ∈ rest, f ∈ lru') :
      rest.Pairwise fun f g => since' g < since' f := by
    refine (horder.sublist hrest).imp_of_mem fun {f g} hf hg hlt => ?_
    rw [hold f (hrest.subset hf) (hin f hf), hold g (hrest.subset hg) (hin g hg)]
    exact hlt
  obtain hkeep | ⟨f, rest, hf, rfl, hrest⟩ := h
  · exact hsub hkeep fun _ hf => hf
  · refine List.pairwise_cons.mpr ⟨fun g hg => ?_,
      hsub hrest fun g hg => List.mem_cons_of_mem _ hg⟩
    have hmem := hrest.subset hg
    rw [hnew f (List.mem_cons_self ..) hf, hold g hmem (List.mem_cons_of_mem _ hg)]
    exact hbound g hmem

/-! ## One operation -/

namespace BufferPoolManager

/-- What an operation that leaves the pins `pinned'` does to the pool. -/
structure Advances (bpm bpm' : BufferPoolManager) (pinned' : List FrameId) : Prop where
  inv : bpm'.Inv pinned'
  capacity : bpm'.capacity = bpm.capacity
  lru : LruStep bpm.lru.lru bpm'.lru.lru

/-- An operation that is rejected leaves the pool as it is. -/
def Answers {α : Type} (bpm : BufferPoolManager) (x : Proc Status BufferPoolManager α)
    (pinned' : α → List FrameId) : Prop :=
  Proc.Yields x bpm fun r bpm' => match r with
    | .error _ => bpm' = bpm
    | .ok a => Advances bpm bpm' (pinned' a)

section Operations

variable {bpm : BufferPoolManager} {pinned : List FrameId} {α : Type}
  {x : Proc Status BufferPoolManager α} {pinned' : α → List FrameId}

theorem Inv.advances_refl (h : bpm.Inv pinned) : Advances bpm bpm pinned :=
  ⟨h, rfl, .inl (List.Sublist.refl _)⟩

/-- A procedure that fails leaves the pool alone, -/
theorem Answers.of_error {e : Status} (hrun : x.run bpm = (.error e, bpm)) :
    bpm.Answers x pinned' :=
  Proc.Yields.intro hrun rfl

/-- or it succeeds and the pins are those of the result. -/
theorem Answers.of_ok {a : α} {bpm' : BufferPoolManager} (hrun : x.run bpm = (.ok a, bpm'))
    (h : Advances bpm bpm' (pinned' a)) : bpm.Answers x pinned' :=
  Proc.Yields.intro hrun h

/-- Every operation on a page that is not cached is rejected when it looks for
its frame. -/
theorem findFrame_run_uncached (verb : String) {pageId : PageId}
    (hf : bpm.pageFrames pageId = none) :
    ∃ e, (findFrame verb pageId).run bpm = (.error e, bpm) := by
  by_cases hvalid : pageId = invalidPageId
  · rw [findFrame]
    exact ⟨_, Proc.bind_run_error (Proc.failIf_run_of _ hvalid _)⟩
  · exact ⟨_, findFrame_run_none verb hvalid hf⟩

/-- What asks for a page that is not cached fails. -/
theorem Answers.of_uncached {verb : String} {pageId : PageId}
    {f : FrameId → Proc Status BufferPoolManager α} (hf : bpm.pageFrames pageId = none) :
    bpm.Answers (findFrame verb pageId >>= f) pinned' := by
  obtain ⟨e, hrun⟩ := findFrame_run_uncached verb hf
  exact .of_error (Proc.bind_run_error hrun)

/-- One more pin of the page can be counted. -/
def HasRoom (bpm : BufferPoolManager) (pinned : List FrameId) (pageId : PageId) : Prop :=
  ∀ f, bpm.pageFrames pageId = some f → pinned.count f < maxPins

theorem pinned_advances (h : bpm.Inv pinned) {pageId : PageId} {f : FrameId}
    (hf : bpm.pageFrames pageId = some f) (hroom : bpm.HasRoom pinned pageId) :
    Advances bpm (bpm.withFrame f (bpm.frames f).pin (bpm.lru.lru.erase f)) (f :: pinned) :=
  ⟨(getPage_effect h hf (hroom f hf)).inv, rfl, .inl (List.erase_sublist ..)⟩

/-- `get_page` adds a pin, -/
theorem answers_getPage (h : bpm.Inv pinned) {pageId : PageId}
    (hroom : bpm.HasRoom pinned pageId) :
    bpm.Answers (getPage pageId) fun pin => pin.frameId :: pinned := by
  rcases hf : bpm.pageFrames pageId with _ | f
  · exact .of_uncached hf
  · exact .of_ok (getPage_run_some h hf) (pinned_advances h hf hroom)

/-- and so does `pin_page`. -/
theorem answers_pinPage (h : bpm.Inv pinned) {pageId : PageId}
    (hroom : bpm.HasRoom pinned pageId) :
    bpm.Answers (pinPage pageId) fun _ => (bpm.pageFrames pageId).toList ++ pinned := by
  rcases hf : bpm.pageFrames pageId with _ | f
  · exact .of_uncached hf
  · exact .of_ok (pinPage_run h hf) (pinned_advances h hf hroom)

theorem lruAfterUnpin_step (f : FrameId) (isDirty : Bool) :
    LruStep bpm.lru.lru (bpm.lruAfterUnpin f isDirty) := by
  rw [lruAfterUnpin]
  split
  · exact .of_insert
  · exact .inl (List.Sublist.refl _)

/-- A pin that is destroyed is gone. -/
theorem release_advances (h : bpm.Inv pinned) {pin : PagePin} (hpin : pin.frameId ∈ pinned) :
    Advances bpm (release pin bpm) (pinned.erase pin.frameId) := by
  refine ⟨(release_effect h pin hpin).inv, ?_, ?_⟩
  · rw [release_eq h hpin]
    rfl
  · rw [release_eq h hpin]
    exact lruAfterUnpin_step ..

/-- `unpin_page` takes one back. -/
theorem answers_unpinPage (h : bpm.Inv pinned) {pageId : PageId} {f : FrameId}
    (hf : bpm.pageFrames pageId = some f) (hpin : f ∈ pinned) (isDirty : Bool) :
    bpm.Answers (unpinPage pageId isDirty) fun _ => pinned.erase f := by
  have hrun := unpinPage_run h hf hpin isDirty
  have hrelease : release ⟨f, isDirty⟩ bpm =
      bpm.withFrame f (unpinned (bpm.frames f) isDirty) (bpm.lruAfterUnpin f isDirty) :=
    release_eq h hpin
  refine .of_ok hrun ?_
  rw [← hrelease]
  exact release_advances h hpin

/-- A frame that nothing pins cannot be unpinned. -/
theorem unpinPage_run_unpinned (h : bpm.Inv pinned) {pageId : PageId} {f : FrameId}
    (hf : bpm.pageFrames pageId = some f) (hzero : (bpm.frames f).pinCount = 0)
    (isDirty : Bool) :
    (unpinPage pageId isDirty).run bpm =
      (.error (.InternalError "Cannot unpin buffer frame with pin count 0"), bpm) := by
  have hunpin : (bpm.frames f).unpin =
      .error (.InternalError "Cannot unpin buffer frame with pin count 0") :=
    if_neg (by rw [hzero]; decide)
  rw [unpinPage, Proc.bind_run_ok (findFrame_run_some h "unpin" hf), Proc.get_bind_run, hunpin]
  exact Proc.bind_run_error rfl

theorem lruAfterClear_step (f : FrameId) : LruStep bpm.lru.lru (bpm.lruAfterClear f) := by
  rw [lruAfterClear]
  split
  · exact .of_insert
  · exact .inl (List.Sublist.refl _)

/-- The pins of a page that becomes clean stay, -/
theorem answers_clearDirty (h : bpm.Inv pinned) (pageId : PageId) :
    bpm.Answers (clearDirty pageId) fun _ => pinned := by
  rcases hf : bpm.pageFrames pageId with _ | f
  · exact .of_uncached hf
  obtain ⟨bpm', hrun, -, heffect⟩ := clearDirty_effect h hf
  obtain rfl := (Prod.mk.inj ((clearDirty_run h hf).symm.trans hrun)).2
  exact .of_ok hrun ⟨heffect.inv, rfl, lruAfterClear_step f⟩

/-- those of a page that is restored too, -/
theorem answers_restorePage (h : bpm.Inv pinned) (page : Page) :
    bpm.Answers (restorePage page) fun _ => pinned := by
  rcases hf : bpm.pageFrames page.id with _ | f
  · obtain ⟨e, hrun⟩ := findFrame_run_uncached "restore" hf
    exact .of_error (Proc.bind_run_error (Proc.bind_run_error hrun))
  by_cases hpin : ∃ g ∈ pinned, bpm.pageId g = page.id
  · exact .of_error (Proc.bind_run_error ((canRestorePage_run h hf).trans
      (congrArg (·, bpm) (failIf_of hpin))))
  · obtain ⟨bpm', hrun, -, heffect⟩ := restorePage_effect h hf hpin
    obtain rfl := (Prod.mk.inj ((restorePage_run h hf hpin).symm.trans hrun)).2
    exact .of_ok hrun ⟨heffect.inv, rfl, lruAfterClear_step f⟩

/-- and a page that is discarded has none. -/
theorem answers_discardPage (h : bpm.Inv pinned) (pageId : PageId) :
    bpm.Answers (discardPage pageId) fun _ => pinned := by
  rcases hf : bpm.pageFrames pageId with _ | f
  · obtain ⟨e, hrun⟩ := findFrame_run_uncached "discard" hf
    exact .of_error (Proc.bind_run_error (Proc.bind_run_error hrun))
  by_cases hpin : ∃ g ∈ pinned, bpm.pageId g = pageId
  · exact .of_error (Proc.bind_run_error ((canDiscardPage_run h hf).trans
      (congrArg (·, bpm) (failIf_of hpin))))
  · exact .of_ok (discardPage_run h hf hpin)
      ⟨(withoutPage_effect h hf hpin).inv, rfl, .inl (List.erase_sublist ..)⟩

end Operations

/-! ## Caching a page -/

section Caching

variable {bpm : BufferPoolManager} {pinned : List FrameId}

/-- The page is in the frame `f`, which was free or else was the frame that had
been evictable for the longest time; only that frame's page is gone. -/
structure Cached (bpm bpm' : BufferPoolManager) (page : Page) (f : FrameId) : Prop where
  mapped : bpm'.pageFrames page.id = some f
  frame : bpm'.frames f = { BufferFrame.empty with page := page }.pin
  frames : ∀ g, g ≠ f → bpm'.frames g = bpm.frames g
  chosen : bpm.freeFrameIds.head? = some f ∨
    bpm.freeFrameIds = [] ∧ bpm.lru.lru.getLast? = some f
  others : ∀ pageId, pageId ≠ page.id → bpm'.pageFrames pageId =
    if bpm.pageFrames pageId = some f then none else bpm.pageFrames pageId

/-- A page that the pool does not have is rejected by an exhausted pool only. -/
theorem cachePage_cases (h : bpm.Inv pinned) {page : Page} (hvalid : page.id ≠ invalidPageId)
    (hpage : bpm.pageFrames page.id = none) :
    bpm.Exhausted ∧ (cachePage page).run bpm = (.error exhaustedStatus, bpm) ∨
      ¬bpm.Exhausted ∧ ∃ f bpm', (cachePage page).run bpm = (.ok ⟨f, false⟩, bpm') ∧
        Advances bpm bpm' (f :: pinned) ∧ Cached bpm bpm' page f := by
  rcases hfree : bpm.freeFrameIds with _ | ⟨f, rest⟩
  · rcases hlast : bpm.lru.lru.getLast? with _ | v
    · have hfull : bpm.Exhausted := ⟨hfree, List.getLast?_eq_none_iff.mp hlast⟩
      exact .inl ⟨hfull, cachePage_run_exhausted page hvalid hpage hfull⟩
    refine .inr ⟨fun hfull => ?_, v, _, cachePage_run_victim h page hvalid hpage hfree hlast,
      ?_, Function.update_self .., Function.update_self .., fun g hg => ?_,
      .inr ⟨hfree, hlast⟩, fun pageId hne => ?_⟩
    · rw [hfull.2] at hlast
      cases hlast
    · obtain ⟨hlt, hvfree, hzero, -⟩ := (h.evictable v).mp (List.mem_of_getLast? hlast)
      have hmap := h.covered v hlt hvfree
      have hpin : ¬∃ g ∈ pinned, bpm.pageId g = (bpm.frames v).page.id :=
        (isPinned_eq_false h hmap).mp (BufferFrame.isPinned_eq_false.mpr hzero)
      have hevict := (withoutPage_effect h hmap hpin).inv
      have hpage' : (bpm.withoutPage (bpm.frames v).page.id v).pageFrames page.id = none := by
        have hne : page.id ≠ (bpm.frames v).page.id := fun heq => by
          rw [heq, hmap] at hpage
          cases hpage
        exact (Function.update_of_ne hne ..).trans hpage
      have hfree' : (bpm.withoutPage (bpm.frames v).page.id v).freeFrameIds = v :: [] := by
        rw [← hfree]
        rfl
      exact ⟨(withPage_effect hevict hfree' hvalid hpage').inv, rfl,
        .inl (List.erase_sublist ..)⟩
    · exact (Function.update_of_ne hg ..).trans (Function.update_of_ne hg ..)
    · obtain ⟨hlt, hvfree, -⟩ := (h.evictable v).mp (List.mem_of_getLast? hlast)
      refine (Function.update_of_ne hne ..).trans ?_
      by_cases heq : pageId = (bpm.frames v).page.id
      · rw [heq, if_pos (h.covered v hlt hvfree)]
        exact Function.update_self ..
      · rw [if_neg fun hmap => heq (h.mapped pageId v hmap).2.2.1.symm]
        exact Function.update_of_ne heq ..
  · have hmem : f ∈ bpm.freeFrameIds := hfree ▸ List.mem_cons_self ..
    refine .inr ⟨fun hfull => ?_, f, _, cachePage_run_free h page hvalid hpage hfree,
      ⟨(withPage_effect h hfree hvalid hpage).inv, rfl, .inl (List.Sublist.refl _)⟩,
      Function.update_self .., Function.update_self .., fun g hg => Function.update_of_ne hg ..,
      .inl (by rw [hfree, List.head?_cons]), fun pageId hne => ?_⟩
    · rw [hfull.1] at hfree
      cases hfree
    · rw [if_neg fun hmap => (h.mapped pageId f hmap).2.1 hmem]
      exact Function.update_of_ne hne ..

/-- A page that is cached gets a pin; the frame is a free one or the victim. -/
theorem answers_cachePage (h : bpm.Inv pinned) (page : Page) :
    bpm.Answers (cachePage page) fun pin => pin.frameId :: pinned := by
  by_cases hvalid : page.id = invalidPageId
  · rw [cachePage]
    exact .of_error (Proc.bind_run_error (Proc.failIf_run_of _ hvalid _))
  rcases hpage : bpm.pageFrames page.id with _ | f
  · obtain ⟨-, hrun⟩ | ⟨-, f, bpm', hrun, hadvances, -⟩ := cachePage_cases h hvalid hpage
    · exact .of_error hrun
    · exact .of_ok hrun hadvances
  · refine .of_error (e := .AlreadyExists "Cannot cache page: page is already cached") ?_
    rw [cachePage, Proc.bind_run_ok (Proc.failIf_run_of_not _ hvalid _), Proc.get_bind_run]
    exact Proc.bind_run_error (Proc.failIf_run_of _ (by rw [hpage]; rfl) _)

end Caching

end BufferPoolManager

/-! ## The objects -/

open BufferPoolManager

/-- The frames pinned by objects; one that was moved from or destroyed pins
nothing. -/
def owned (objects : List (Option PagePin)) : List FrameId :=
  objects.filterMap fun object => object.map PagePin.frameId

theorem owned_append (objects objects' : List (Option PagePin)) :
    owned (objects ++ objects') = owned objects ++ owned objects' := List.filterMap_append ..

/-- Replacing an object exchanges its pin. -/
theorem count_owned_set {objects : List (Option PagePin)} {i : Nat} {object : Option PagePin}
    (h : objects[i]? = some object) (object' : Option PagePin) (f : FrameId) :
    (owned [object]).count f + (owned (objects.set i object')).count f =
      (owned [object']).count f + (owned objects).count f := by
  induction objects generalizing i with
  | nil => cases h
  | cons head rest ih =>
    have hcons (first : Option PagePin) (others : List (Option PagePin)) :
        (owned (first :: others)).count f = (owned [first]).count f + (owned others).count f := by
      rw [← List.count_append, ← owned_append, List.singleton_append]
    cases i with
    | zero =>
      cases h
      rw [List.set_cons_zero, hcons object rest, hcons object' rest]
      omega
    | succ i =>
      have := ih h
      rw [List.set_cons_succ, hcons head (rest.set i object'), hcons head rest]
      omega

/-- `PagePin::release` on the object. -/
def releaseObject (object : Option PagePin) (bpm : BufferPoolManager) : BufferPoolManager :=
  match object with
  | none => bpm
  | some pin => release pin bpm

/-- An object that is destroyed gives its pin back, if it has one. -/
theorem releaseObject_advances {bpm : BufferPoolManager} {pinned pinned' : List FrameId}
    (h : bpm.Inv pinned) (object : Option PagePin)
    (hcount : ∀ f, pinned.count f = (owned [object]).count f + pinned'.count f) :
    Advances bpm (releaseObject object bpm) pinned' := by
  cases object with
  | none =>
    have hperm : pinned.Perm pinned' := List.perm_iff_count.mpr fun f =>
      (hcount f).trans (Nat.zero_add _)
    exact (h.perm hperm).advances_refl
  | some pin =>
    have hone : owned [some pin] = [pin.frameId] := rfl
    have hpin : pin.frameId ∈ pinned := by
      refine List.count_pos_iff.mp ?_
      rw [hcount, hone, List.count_singleton_self]
      omega
    have hperm : (pinned.erase pin.frameId).Perm pinned' := by
      refine List.perm_iff_count.mpr fun f => ?_
      rw [List.count_erase, hcount, hone, List.count_singleton]
      by_cases heq : pin.frameId = f
      · simp [heq]
      · simp [heq]
    have hrelease := release_advances h hpin
    exact ⟨hrelease.inv.perm hperm, hrelease.capacity, hrelease.lru⟩

/-! ## Calls -/

structure PoolState where
  bpm : BufferPoolManager
  /-- The `PagePin` objects, `none` for one that owns no pin. -/
  objects : List (Option PagePin)
  /-- The pins taken with `pin_page`. -/
  bare : List FrameId

inductive PoolCall where
  | cachePage (page : Page)
  | getPage (pageId : PageId)
  | pinPage (pageId : PageId)
  | unpinPage (pageId : PageId) (isDirty : Bool)
  /-- `mark_dirty` on an object. -/
  | markDirty (object : Nat)
  /-- An assignment to the data of the page of an object. -/
  | store (object : Nat) (data : PageData)
  /-- A new object, moved from another. -/
  | move (source : Nat)
  | moveAssign (target source : Nat)
  | destroy (object : Nat)
  | clearDirty (pageId : PageId)
  | discardPage (pageId : PageId)
  | restorePage (page : Page)

namespace PoolState

def create (capacity : Nat) : PoolState := ⟨.create capacity, [], []⟩

/-- The frames of the pins alive. -/
def live (s : PoolState) : List FrameId := owned s.objects ++ s.bare

/-- No frame has more pins alive than it can count. -/
def Few (s : PoolState) : Prop := ∀ f, s.live.count f ≤ maxPins

/-- An operation on the pool; `keep` says what becomes of its value. -/
def onPool {α : Type} (s : PoolState) (x : Proc Status BufferPoolManager α)
    (keep : α → PoolState → PoolState) : Result Unit × PoolState :=
  match x.run s.bpm with
  | (.error e, bpm) => (.error e, { s with bpm := bpm })
  | (.ok a, bpm) => (.ok (), keep a { s with bpm := bpm })

/-- An object for the pin that an operation returns. -/
def addObject (pin : PagePin) (s : PoolState) : PoolState :=
  { s with objects := s.objects ++ [some pin] }

/-- Carry out a call.  A call on an object needs the object, and a client
unpins with `unpin_page` only what it has pinned with `pin_page`; an attempt to
unpin a page that nothing pins is made and rejected. -/
def call (s : PoolState) : PoolCall → Option (Result Unit × PoolState)
  | .cachePage page => some (s.onPool (BufferPoolManager.cachePage page) addObject)
  | .getPage pageId => some (s.onPool (BufferPoolManager.getPage pageId) addObject)
  | .pinPage pageId => some (s.onPool (BufferPoolManager.pinPage pageId) fun _ s' =>
      { s' with bare := (s.bpm.pageFrames pageId).toList ++ s.bare })
  | .unpinPage pageId isDirty =>
    let x := BufferPoolManager.unpinPage pageId isDirty
    match s.bpm.pageFrames pageId with
    | none => some (s.onPool x fun _ s' => s')
    | some f =>
      if f ∈ s.bare then some (s.onPool x fun _ s' => { s' with bare := s.bare.erase f })
      else if (s.bpm.frames f).pinCount = 0 then some (s.onPool x fun _ s' => s')
      else none
  | .markDirty i => s.objects[i]?.map fun object => (.ok (), { s with
      objects := s.objects.set i (object.map fun pin => { pin with isDirty := true }) })
  | .store i data => s.objects[i]?.map fun object => (.ok (), { s with
      bpm := match object with
        | none => s.bpm
        | some pin => BufferPoolManager.store pin data s.bpm })
  | .move source => s.objects[source]?.map fun object => (.ok (), { s with
      objects := s.objects.set source none ++ [object] })
  | .moveAssign target source =>
    match s.objects[target]?, s.objects[source]? with
    | some targetObject, some sourceObject =>
      if target = source then some (.ok (), s)
      else some (.ok (), { s with
        bpm := releaseObject targetObject s.bpm
        objects := (s.objects.set target sourceObject).set source none })
    | _, _ => none
  | .destroy i => s.objects[i]?.map fun object => (.ok (), { s with
      bpm := releaseObject object s.bpm
      objects := s.objects.set i none })
  | .clearDirty pageId => some (s.onPool (BufferPoolManager.clearDirty pageId) fun _ s' => s')
  | .discardPage pageId => some (s.onPool (BufferPoolManager.discardPage pageId) fun _ s' => s')
  | .restorePage page => some (s.onPool (BufferPoolManager.restorePage page) fun _ s' => s')

/-! ## One call -/

variable {s s' : PoolState} {r : Result Unit}

/-- What a call leaves: a rejected one the pool as it was, any call a pool that
satisfies the invariant with the pins now alive. -/
structure Advances (s s' : PoolState) (r : Result Unit) : Prop where
  pool : BufferPoolManager.Advances s.bpm s'.bpm s'.live
  rejected : ∀ e, r = .error e → s' = s

/-- A procedure of the pool is a step of the program. -/
theorem onPool_advances (h : s.bpm.Inv s.live) {α : Type}
    {x : Proc Status BufferPoolManager α} {pinned' : α → List FrameId}
    (hx : s.bpm.Answers x pinned') (keep : α → PoolState → PoolState)
    (hbpm : ∀ a s', (keep a s').bpm = s'.bpm)
    (hlive : ∀ a bpm, (pinned' a).Perm (keep a { s with bpm := bpm }).live) :
    Advances s (s.onPool x keep).2 (s.onPool x keep).1 := by
  unfold BufferPoolManager.Answers Proc.Yields at hx
  unfold onPool
  rcases hrun : x.run s.bpm with ⟨e | a, bpm⟩
  · rw [hrun] at hx
    obtain rfl : bpm = s.bpm := hx
    exact ⟨h.advances_refl, fun _ _ => rfl⟩
  · rw [hrun] at hx
    obtain ⟨hinv, hcapacity, hlru⟩ := hx
    refine ⟨⟨?_, ?_, ?_⟩, fun _ he => by cases he⟩
    · rw [hbpm]
      exact hinv.perm (hlive a bpm)
    · rw [hbpm]
      exact hcapacity
    · rw [hbpm]
      exact hlru

theorem addObject_live (pin : PagePin) (s : PoolState) :
    (pin.frameId :: s.live).Perm (addObject pin s).live := by
  rw [live, live, addObject, owned_append, List.append_assoc]
  exact List.perm_middle.symm

/-- The pins alive once the object `i` has been replaced. -/
theorem count_live_set {i : Nat} {object : Option PagePin} (h : s.objects[i]? = some object)
    (object' : Option PagePin) (f : FrameId) :
    (owned [object]).count f + (owned (s.objects.set i object') ++ s.bare).count f =
      (owned [object']).count f + s.live.count f := by
  have := count_owned_set h object' f
  rw [live, List.count_append, List.count_append]
  omega

/-- A call on an object that rewrites the pool to `bpm'`. -/
theorem advances_of_objects {bpm' : BufferPoolManager} {objects' : List (Option PagePin)}
    (h : BufferPoolManager.Advances s.bpm bpm' (owned objects' ++ s.bare)) :
    Advances s { s with bpm := bpm', objects := objects' } (.ok ()) :=
  ⟨h, fun _ he => by cases he⟩

/-- A page that was pinned once more had room for it. -/
theorem hasRoom_of_getPage (h : s.bpm.Inv s.live) {pageId : PageId}
    (hcall : s.call (.getPage pageId) = some (r, s')) (hend : s'.Few ∨ ∃ e, r = .error e) :
    s.bpm.HasRoom s.live pageId := by
  intro f hf
  rw [call, onPool, getPage_run_some h hf] at hcall
  cases hcall
  obtain hfew | ⟨_, ⟨⟩⟩ := hend
  have hlive := (addObject_live ⟨f, false⟩
    { s with bpm := s.bpm.withFrame f (s.bpm.frames f).pin (s.bpm.lru.lru.erase f) }).count_eq f
  rw [List.count_cons_self] at hlive
  exact hlive.trans_le (hfew f)

/-- The count of a page that is pinned had room for one more. -/
theorem hasRoom_of_pinPage (h : s.bpm.Inv s.live) {pageId : PageId}
    (hcall : s.call (.pinPage pageId) = some (r, s')) (hend : s'.Few ∨ ∃ e, r = .error e) :
    s.bpm.HasRoom s.live pageId := by
  intro f hf
  rw [call, onPool, pinPage_run h hf, hf] at hcall
  cases hcall
  obtain hfew | ⟨_, ⟨⟩⟩ := hend
  have hlive : (f :: s.live).Perm (owned s.objects ++ ([f] ++ s.bare)) := List.perm_middle.symm
  have hcount := hlive.count_eq f
  rw [List.count_cons_self] at hcount
  exact hcount.trans_le (hfew f)

theorem unpinPage_advances (h : s.bpm.Inv s.live) {pageId : PageId} {isDirty : Bool}
    (hcall : s.call (.unpinPage pageId isDirty) = some (r, s')) : Advances s s' r := by
  rw [call] at hcall
  rcases hf : s.bpm.pageFrames pageId with _ | f
  · rw [hf] at hcall
    have hanswers : s.bpm.Answers (BufferPoolManager.unpinPage pageId isDirty)
        fun _ => s.live := .of_uncached hf
    obtain ⟨rfl, rfl⟩ := Prod.mk.inj (Option.some.inj hcall)
    exact onPool_advances h hanswers _ (fun _ _ => rfl) fun _ _ => List.Perm.refl _
  rw [hf] at hcall
  dsimp only at hcall
  split at hcall
  · rename_i hbare
    have hpin : f ∈ s.live := List.mem_append_right _ hbare
    obtain ⟨rfl, rfl⟩ := Prod.mk.inj (Option.some.inj hcall)
    refine onPool_advances h (answers_unpinPage h hf hpin isDirty)
      (fun _ s' => { s' with bare := s.bare.erase f }) (fun _ _ => rfl)
      fun _ _ => ?_
    have herase : ((s.bare ++ owned s.objects).erase f) = s.bare.erase f ++ owned s.objects :=
      List.erase_append_left _ hbare
    have hperm : (owned s.objects ++ s.bare).Perm (s.bare ++ owned s.objects) :=
      List.perm_append_comm
    have hperm' := hperm.erase f
    rw [herase] at hperm'
    exact hperm'.trans List.perm_append_comm
  · split at hcall
    · rename_i hzero
      obtain ⟨rfl, rfl⟩ := Prod.mk.inj (Option.some.inj hcall)
      have hanswers : s.bpm.Answers (BufferPoolManager.unpinPage pageId isDirty)
          fun _ => s.live := .of_error (unpinPage_run_unpinned h hf hzero isDirty)
      exact onPool_advances h hanswers _ (fun _ _ => rfl) fun _ _ => List.Perm.refl _
    · cases hcall

/-- Every call keeps the invariant of the pool, with the pins that are alive. -/
theorem call_advances (h : s.bpm.Inv s.live) {c : PoolCall} (hcall : s.call c = some (r, s'))
    (hend : s'.Few ∨ ∃ e, r = .error e) : Advances s s' r := by
  cases c with
  | cachePage page =>
    obtain ⟨rfl, rfl⟩ := Prod.mk.inj (Option.some.inj hcall)
    exact onPool_advances h (answers_cachePage h page) addObject (fun _ _ => rfl)
      fun pin bpm => addObject_live pin { s with bpm := bpm }
  | getPage pageId =>
    have hroom := hasRoom_of_getPage h hcall hend
    obtain ⟨rfl, rfl⟩ := Prod.mk.inj (Option.some.inj hcall)
    exact onPool_advances h (answers_getPage h hroom) addObject (fun _ _ => rfl)
      fun pin bpm => addObject_live pin { s with bpm := bpm }
  | pinPage pageId =>
    have hroom := hasRoom_of_pinPage h hcall hend
    obtain ⟨rfl, rfl⟩ := Prod.mk.inj (Option.some.inj hcall)
    refine onPool_advances h (answers_pinPage h hroom)
      (fun _ s' => { s' with bare := (s.bpm.pageFrames pageId).toList ++ s.bare })
      (fun _ _ => rfl) fun _ _ => ?_
    rw [live, live]
    exact List.perm_append_comm_assoc ..
  | unpinPage pageId isDirty => exact unpinPage_advances h hcall
  | markDirty i =>
    obtain ⟨object, hobject, heq⟩ := Option.map_eq_some_iff.mp hcall
    obtain ⟨rfl, rfl⟩ := Prod.mk.inj heq
    refine advances_of_objects (h.perm (List.perm_iff_count.mpr fun f => ?_)).advances_refl
    have hsame : owned [object.map fun pin => { pin with isDirty := true }] = owned [object] := by
      cases object <;> rfl
    have := count_live_set hobject (object.map fun pin => { pin with isDirty := true }) f
    rw [hsame] at this
    omega
  | store i data =>
    obtain ⟨object, hobject, heq⟩ := Option.map_eq_some_iff.mp hcall
    obtain ⟨rfl, rfl⟩ := Prod.mk.inj heq
    cases object with
    | none => exact ⟨h.advances_refl, fun _ _ => rfl⟩
    | some pin =>
      have hpin : pin.frameId ∈ s.live := by
        refine List.mem_append_left _ (List.mem_filterMap.mpr ⟨some pin, ?_, rfl⟩)
        exact List.mem_of_getElem? hobject
      exact ⟨⟨(store_effect h pin hpin data).inv, rfl, .inl (List.Sublist.refl _)⟩,
        fun _ he => by cases he⟩
  | move source =>
    obtain ⟨object, hobject, heq⟩ := Option.map_eq_some_iff.mp hcall
    obtain ⟨rfl, rfl⟩ := Prod.mk.inj heq
    refine advances_of_objects (h.perm (List.perm_iff_count.mpr fun f => ?_)).advances_refl
    have := count_live_set hobject none f
    have hnone : (owned [none]).count f = 0 := rfl
    rw [owned_append, List.count_append, List.count_append]
    rw [List.count_append] at this
    omega
  | moveAssign target source =>
    rw [call] at hcall
    split at hcall
    · rename_i targetObject sourceObject htarget hsource
      split at hcall
      · obtain ⟨rfl, rfl⟩ := Prod.mk.inj (Option.some.inj hcall)
        exact ⟨h.advances_refl, fun _ _ => rfl⟩
      · rename_i hne
        obtain ⟨rfl, rfl⟩ := Prod.mk.inj (Option.some.inj hcall)
        refine advances_of_objects (releaseObject_advances h targetObject fun f => ?_)
        have hsource' : (s.objects.set target sourceObject)[source]? = some sourceObject := by
          rw [List.getElem?_set_ne hne, hsource]
        have hfirst := count_live_set htarget sourceObject f
        have hsecond := count_owned_set hsource' none f
        have hnone : (owned [none]).count f = 0 := rfl
        rw [List.count_append] at hfirst ⊢
        omega
    · cases hcall
  | destroy i =>
    obtain ⟨object, hobject, heq⟩ := Option.map_eq_some_iff.mp hcall
    obtain ⟨rfl, rfl⟩ := Prod.mk.inj heq
    refine advances_of_objects (releaseObject_advances h object fun f => ?_)
    have := count_live_set hobject none f
    have hnone : (owned [none]).count f = 0 := rfl
    omega
  | clearDirty pageId =>
    obtain ⟨rfl, rfl⟩ := Prod.mk.inj (Option.some.inj hcall)
    exact onPool_advances h (answers_clearDirty h pageId) _ (fun _ _ => rfl)
      fun _ _ => List.Perm.refl _
  | discardPage pageId =>
    obtain ⟨rfl, rfl⟩ := Prod.mk.inj (Option.some.inj hcall)
    exact onPool_advances h (answers_discardPage h pageId) _ (fun _ _ => rfl)
      fun _ _ => List.Perm.refl _
  | restorePage page =>
    obtain ⟨rfl, rfl⟩ := Prod.mk.inj (Option.some.inj hcall)
    exact onPool_advances h (answers_restorePage h page) _ (fun _ _ => rfl)
      fun _ _ => List.Perm.refl _

/-! ## Runs -/

/-- The frame holds a page, and nothing keeps that page in the pool. -/
def Evictable (s : PoolState) (f : FrameId) : Prop :=
  s.bpm.pageFrames (s.bpm.frames f).page.id = some f ∧ (s.bpm.frames f).pinCount = 0 ∧
    (s.bpm.frames f).isDirty = false

instance (s : PoolState) (f : FrameId) : Decidable (s.Evictable f) :=
  inferInstanceAs (Decidable (_ ∧ _ ∧ _))

/-- When each frame last became evictable: the call number `now` for a frame
that this call made so. -/
def stamp (s s' : PoolState) (now : Nat) (since : FrameId → Nat) (f : FrameId) : Nat :=
  if s'.Evictable f ∧ ¬s.Evictable f then now else since f

/-- The pools that `calls` calls lead to within a limit, with the call at which each
frame last became evictable. -/
inductive Reached (limit : PoolState → Prop) (capacity : Nat) :
    Nat → (FrameId → Nat) → PoolState → Prop
  | create : Reached limit capacity 0 (fun _ => 0) (create capacity)
  | call {calls : Nat} {since : FrameId → Nat} {s s' : PoolState} {c : PoolCall}
      {r : Result Unit} (before : Reached limit capacity calls since s)
      (h : s.call c = some (r, s')) (hlimit : limit s') :
      Reached limit capacity (calls + 1) (s.stamp s' (calls + 1) since) s'

/-- The replacer has the frames that can be evicted. -/
theorem mem_lru_iff (h : s.bpm.Inv s.live) {f : FrameId} :
    f ∈ s.bpm.lru.lru ↔ s.Evictable f := by
  rw [h.evictable]
  constructor
  · rintro ⟨hlt, hfree, hzero, hclean⟩
    exact ⟨h.covered f hlt hfree, hzero, hclean⟩
  · rintro ⟨hmap, hzero, hclean⟩
    obtain ⟨hlt, hfree, -⟩ := h.mapped _ f hmap
    exact ⟨hlt, hfree, hzero, hclean⟩

/-- The invariant of a run: that of the pool, and the order of the replacer. -/
structure Timed (capacity calls : Nat) (since : FrameId → Nat) (s : PoolState) : Prop where
  inv : s.bpm.Inv s.live
  capacity : s.bpm.capacity = capacity
  order : s.bpm.lru.lru.Pairwise fun f g => since g < since f
  bound : ∀ f ∈ s.bpm.lru.lru, since f ≤ calls

variable {capacity calls : Nat} {since : FrameId → Nat}

/-- It has them in the order in which they became so. -/
theorem Timed.call (h : Timed capacity calls since s) {c : PoolCall}
    (hcall : s.call c = some (r, s')) (hfew : s'.Few) :
    Timed capacity (calls + 1) (s.stamp s' (calls + 1) since) s' := by
  have hpool := (call_advances h.inv hcall (.inl hfew)).pool
  have hold : ∀ f ∈ s.bpm.lru.lru, f ∈ s'.bpm.lru.lru →
      s.stamp s' (calls + 1) since f = since f := fun f hf _ =>
    if_neg fun hnew => hnew.2 ((mem_lru_iff h.inv).mp hf)
  have hnew : ∀ f ∈ s'.bpm.lru.lru, f ∉ s.bpm.lru.lru →
      s.stamp s' (calls + 1) since f = calls + 1 := fun f hf hnot =>
    if_pos ⟨(mem_lru_iff hpool.inv).mp hf, fun hs => hnot ((mem_lru_iff h.inv).mpr hs)⟩
  obtain ⟨horder, hbound⟩ := hpool.lru.pairwise h.order
    (fun f hf => Nat.lt_succ_of_le (h.bound f hf)) hold hnew
  exact ⟨hpool.inv, hpool.capacity.trans h.capacity, horder, hbound⟩

theorem Reached.timed (h : Reached Few capacity calls since s) : Timed capacity calls since s := by
  induction h with
  | create => exact ⟨create_inv capacity, rfl, List.Pairwise.nil, fun f hf => by cases hf⟩
  | call _ hcall hfew ih => exact ih.call hcall hfew

/-! ## The representation -/

/-- The four structures of the pool agree, and what its calls do. -/
structure Represents (capacity : Nat) (since : FrameId → Nat) (s : PoolState) : Prop where
  frames : ∀ f < capacity,
    (s.bpm.freeFrameIds.count f = 1 ∧ ∀ pageId, s.bpm.pageFrames pageId ≠ some f) ∨
      (f ∉ s.bpm.freeFrameIds ∧ ∃! pageId, s.bpm.pageFrames pageId = some f)
  free : ∀ f ∈ s.bpm.freeFrameIds, f < capacity
  mapped : ∀ pageId f, s.bpm.pageFrames pageId = some f →
    f < capacity ∧ (s.bpm.frames f).page.id = pageId
  pins : ∀ f < capacity, (s.bpm.frames f).pinCount.toNat = s.live.count f
  replacer : ∀ f, f ∈ s.bpm.lru.lru ↔ s.Evictable f
  once : s.bpm.lru.lru.Nodup
  order : s.bpm.lru.lru.Pairwise fun f g => since g < since f
  caches : ∀ page : Page, page.id ≠ invalidPageId → s.bpm.pageFrames page.id = none →
    (s.bpm.freeFrameIds = [] ∧ s.bpm.lru.lru = [] ∧
        ∃ e, s.call (.cachePage page) = some (.error e, s)) ∨
      ((s.bpm.freeFrameIds ≠ [] ∨ s.bpm.lru.lru ≠ []) ∧
        ∃ f s', s.call (.cachePage page) = some (.ok (), s') ∧
          s'.objects = s.objects ++ [some ⟨f, false⟩] ∧ Cached s.bpm s'.bpm page f)
  rejected : ∀ c e s', s.call c = some (.error e, s') → s' = s

/-- A frame is free, or it is mapped once. -/
theorem Timed.frames (h : Timed capacity calls since s) {f : FrameId} (hlt : f < capacity) :
    (s.bpm.freeFrameIds.count f = 1 ∧ ∀ pageId, s.bpm.pageFrames pageId ≠ some f) ∨
      (f ∉ s.bpm.freeFrameIds ∧ ∃! pageId, s.bpm.pageFrames pageId = some f) := by
  by_cases hfree : f ∈ s.bpm.freeFrameIds
  · exact .inl ⟨List.count_eq_one_of_mem h.inv.freeNodup hfree,
      fun pageId hmap => (h.inv.mapped pageId f hmap).2.1 hfree⟩
  · have hmap := h.inv.covered f (h.capacity.symm ▸ hlt) hfree
    exact .inr ⟨hfree, _, hmap, fun pageId hp => h.inv.pageFrames_inj hp hmap⟩

/-- A page is cached if there is a frame for it, and only then. -/
theorem Timed.caches (h : Timed capacity calls since s) {page : Page}
    (hvalid : page.id ≠ invalidPageId) (hpage : s.bpm.pageFrames page.id = none) :
    (s.bpm.freeFrameIds = [] ∧ s.bpm.lru.lru = [] ∧
        ∃ e, s.call (.cachePage page) = some (.error e, s)) ∨
      ((s.bpm.freeFrameIds ≠ [] ∨ s.bpm.lru.lru ≠ []) ∧
        ∃ f s', s.call (.cachePage page) = some (.ok (), s') ∧
          s'.objects = s.objects ++ [some ⟨f, false⟩] ∧ Cached s.bpm s'.bpm page f) := by
  obtain ⟨⟨hfree, hlru⟩, hrun⟩ | ⟨hnot, f, bpm', hrun, -, hcached⟩ :=
    cachePage_cases h.inv hvalid hpage
  · refine .inl ⟨hfree, hlru, exhaustedStatus, ?_⟩
    rw [PoolState.call, onPool, hrun]
  · refine .inr ⟨not_and_or.mp hnot, f, addObject ⟨f, false⟩ { s with bpm := bpm' }, ?_, rfl,
      hcached⟩
    rw [PoolState.call, onPool, hrun]

/-- After any calls, successful or rejected, that leave no frame with 2^32 pins, the
pool represents a set of cached pages: each frame is free or mapped, the counts are
those of the pins alive, and the replacer has the evictable frames in the order in
which they became so. -/
theorem pool_represents (h : Reached Few capacity calls since s) :
    Represents capacity since s := by
  have ht := h.timed
  refine ⟨fun f hlt => ht.frames hlt, fun f hf => ?_, fun pageId f hmap => ?_, fun f hlt => ?_,
    fun f => mem_lru_iff ht.inv, ht.inv.lruNodup, ht.order,
    fun page hvalid hpage => ht.caches hvalid hpage,
    fun c e s' hcall => (call_advances ht.inv hcall (.inr ⟨e, rfl⟩)).rejected e rfl⟩
  · exact ht.capacity ▸ ht.inv.freeLt f hf
  · obtain ⟨hlt, -, hid, -⟩ := ht.inv.mapped pageId f hmap
    exact ⟨ht.capacity ▸ hlt, hid⟩
  · exact ht.inv.pins f (ht.capacity.symm ▸ hlt)

theorem few_of_length (h : s.live.length ≤ maxPins) : s.Few := fun _ =>
  List.count_le_length.trans h

/-- Two pages in a pool of two frames: the pin of the first is destroyed, and the
second is marked dirty and got again. -/
theorem pool_represents_small : ∃ since s, s.live = [0, 0] ∧ s.bpm.lru.lru = [1] ∧
    (s.bpm.frames 0).pinCount = 2 ∧ Represents 2 since s := by
  have hfirst : (create 2).call (.cachePage (Page.ofId 3)) =
      some ((create 2).onPool (BufferPoolManager.cachePage (Page.ofId 3)) addObject) := rfl
  have hreached : Reached Few 2 _ _ _ := .call .create hfirst (few_of_length (by decide))
  have hreached := Reached.call hreached (c := .cachePage (Page.ofId 4)) rfl
    (few_of_length (by decide))
  have hreached := Reached.call hreached (c := .destroy 0) rfl (few_of_length (by decide))
  have hreached := Reached.call hreached (c := .markDirty 1) rfl (few_of_length (by decide))
  have hreached := Reached.call hreached (c := .getPage 4) rfl (few_of_length (by decide))
  exact ⟨_, _, rfl, rfl, rfl, pool_represents hreached⟩

/-! ## Too many pins -/

/-- Page 3 is in frame 0, which has counted `n` pins up to overflows. -/
structure Counted (n : Nat) (s : PoolState) : Prop where
  capacity : s.bpm.lru.capacity = 1
  mapped : s.bpm.pageFrames 3 = some 0
  pinCount : (s.bpm.frames 0).pinCount = UInt32.ofNat n
  live : s.live.count 0 = n

/-- One more pin of a page. -/
theorem Counted.getPage {n : Nat} (h : Counted n s) :
    ∃ s', s.call (.getPage 3) = some (.ok (), s') ∧ Counted (n + 1) s' := by
  have hrun := getPage_run_cached (by decide) h.mapped (h.capacity ▸ Nat.one_pos)
  have hcall : s.call (.getPage 3) = some (.ok (), addObject ⟨0, false⟩ { s with
      bpm := s.bpm.withFrame 0 (s.bpm.frames 0).pin (s.bpm.lru.lru.erase 0) }) := by
    rw [call, onPool, hrun]
  refine ⟨_, hcall, h.capacity, h.mapped, ?_, ?_⟩
  · have hframe := Function.update_self 0 (s.bpm.frames 0).pin s.bpm.frames
    refine (congrArg BufferFrame.pinCount hframe).trans ?_
    rw [BufferFrame.pin, h.pinCount, UInt32.ofNat_add]
    rfl
  · rw [← (addObject_live ⟨0, false⟩ _).count_eq 0, List.count_cons_self]
    exact congrArg (· + 1) h.live

/-- A page that is cached and got `n` times. -/
theorem exists_counted (n : Nat) :
    ∃ calls since s, Reached (fun _ => True) 1 calls since s ∧ Counted (n + 1) s := by
  induction n with
  | zero =>
    have hcached : (create 1).call (.cachePage (Page.ofId 3)) =
        some ((create 1).onPool (BufferPoolManager.cachePage (Page.ofId 3)) addObject) := rfl
    exact ⟨_, _, _, .call .create hcached trivial, rfl, rfl, rfl, rfl⟩
  | succ n ih =>
    obtain ⟨calls, since, s, hreached, hcounted⟩ := ih
    obtain ⟨s', hcall, hcounted'⟩ := hcounted.getPage
    exact ⟨_, _, s', .call hreached hcall trivial, hcounted'⟩

/-- With 2^32 pins alive the count of their frame is zero, so the pool does not
represent its pages. -/
theorem exists_overflow : ∃ calls since s, Reached (fun _ => True) 1 calls since s ∧
    s.live.count 0 = 2 ^ 32 ∧ (s.bpm.frames 0).pinCount = 0 ∧ ¬Represents 1 since s := by
  obtain ⟨calls, since, s, hreached, hcounted⟩ := exists_counted (2 ^ 32 - 1)
  have hzero : (s.bpm.frames 0).pinCount = 0 := hcounted.pinCount
  refine ⟨calls, since, s, hreached, hcounted.live, hzero, fun hrepresents => ?_⟩
  have hpins := hrepresents.pins 0 Nat.one_pos
  rw [hzero, hcounted.live] at hpins
  cases hpins

end PoolState

end DanDB.BufferPool
