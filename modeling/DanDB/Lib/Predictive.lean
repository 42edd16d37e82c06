import DanDB.Lib.Proc

/-!
# Predictive parsers

A language relates words to the values that they stand for.  Its operations are
those of a grammar: one token, a sequence, a choice, a repetition.

A predictive parser reads a list of tokens that ends with an end token, and decides
by the token in front of it.  `Parses p L more` says that `p` is a parser for `L`:
it reads the words of `L`, and on any input it either

* accepts a word, whatever the tokens behind what it has read,
* rejects the input, whatever follows,
* comes to the end behind a word, which may go on, or
* comes to the end in the middle of a word, and says so.

`more` holds the tokens that a word may go on with after it could have ended, so that
a parser for it looks one token ahead.  There is a rule for each operation, and a
parser is proved correct along its text.
-/

/-- Words and the values that they stand for. -/
def Lang (τ α : Type) := List τ → α → Prop

namespace Lang

variable {τ α β σ : Type}

instance : Monad (Lang τ) where
  pure a := fun w b => w = [] ∧ b = a
  bind L M := fun w b => ∃ u v a, w = u ++ v ∧ L u a ∧ M a v b

/-- One token, which is its own value. -/
def token (p : τ → Prop) : Lang τ τ := fun w t => w = [t] ∧ p t

/-- One token, which stands for a value. -/
def terminal (stands : τ → α → Prop) : Lang τ α := fun w a => ∃ t, w = [t] ∧ stands t a

/-- Whether a token is there. -/
def optional (p : τ → Prop) : Lang τ Bool := fun w b =>
  w = [] ∧ b = false ∨ ∃ t, w = [t] ∧ p t ∧ b = true

def either (L M : Lang τ α) : Lang τ α := fun w a => L w a ∨ M w a

/-- Words one after the other. -/
inductive many (L : Lang τ α) : Lang τ (List α)
  | nil : many L [] []
  | cons {u v : List τ} {a : α} {as : List α} (hword : L u a) (hrest : many L v as) :
    many L (u ++ v) (a :: as)

theorem many_append {L : Lang τ α} {u v : List τ} {as bs : List α} (hu : many L u as)
    (hv : many L v bs) : many L (u ++ v) (as ++ bs) := by
  induction hu with
  | nil => exact hv
  | cons hword _ ih =>
    rw [List.append_assoc, List.cons_append]
    exact .cons hword ih

/-- A sequence of words begins as its words do. -/
theorem many_first {L : Lang τ α} {p : τ → Prop}
    (hbegins : ∀ u a, L u a → ∃ t u', u = t :: u' ∧ p t) {t : τ} {u : List τ} {as : List α}
    (h : many L (t :: u) as) : p t := by
  generalize hw : t :: u = w at h
  cases h with
  | nil => cases hw
  | cons hword _ =>
    obtain ⟨t', u', rfl, ht'⟩ := hbegins _ _ hword
    obtain ⟨rfl, -⟩ := List.cons.inj hw
    exact ht'

/-- The language that a loop over the words of another reads into its accumulator. -/
def fold (add : σ → α → σ) (s : σ) (L : Lang τ α) : Lang τ σ := do
  let as ← many L
  return as.foldl add s

theorem fold_iff {add : σ → α → σ} {s s' : σ} {L : Lang τ α} {w : List τ} :
    fold add s L w s' ↔ ∃ as, many L w as ∧ s' = as.foldl add s := by
  constructor
  · rintro ⟨u, v, as, rfl, hmany, rfl, rfl⟩
    exact ⟨as, by rwa [List.append_nil], rfl⟩
  · rintro ⟨as, hmany, rfl⟩
    exact ⟨w, [], as, (List.append_nil w).symm, hmany, rfl, rfl⟩

/-! ### Words of changed tokens -/

section Carries

variable {r : τ → τ} {f : α → α} {g : β → β} {L L' L₁ L₁' : Lang τ α} {M M' : α → Lang τ β}

/-- When the tokens of a word change, it becomes a word whose value changes with them. -/
def Carries (r : τ → τ) (f : α → α) (L L' : Lang τ α) : Prop :=
  ∀ w a, L w a → L' (w.map r) (f a)

theorem carries_pure {a b : α} (h : f a = b) : Carries r f (pure a) (pure b) := by
  rintro _ _ ⟨rfl, rfl⟩
  exact ⟨rfl, h⟩

theorem Carries.bind (h : Carries r f L L') (hM : ∀ a, Carries r g (M a) (M' (f a))) :
    Carries r g (L >>= M) (L' >>= M') := by
  rintro _ b ⟨u, v, a, rfl, hu, hv⟩
  exact ⟨u.map r, v.map r, f a, List.map_append, h u a hu, hM a v b hv⟩

theorem carries_token {p : τ → Prop} (h : ∀ t, p t → p (r t)) :
    Carries r r (token p) (token p) := by
  rintro _ t ⟨rfl, ht⟩
  exact ⟨rfl, h t ht⟩

theorem carries_terminal {stands : τ → α → Prop} (h : ∀ t a, stands t a → stands (r t) (f a)) :
    Carries r f (terminal stands) (terminal stands) := by
  rintro _ a ⟨t, rfl, ha⟩
  exact ⟨r t, rfl, h t a ha⟩

theorem carries_optional {p : τ → Prop} (h : ∀ t, p t → p (r t)) :
    Carries r id (optional p) (optional p) := by
  rintro _ b (⟨rfl, rfl⟩ | ⟨t, rfl, ht, rfl⟩)
  · exact .inl ⟨rfl, rfl⟩
  · exact .inr ⟨r t, rfl, h t ht, rfl⟩

theorem Carries.either (h : Carries r f L L') (h₁ : Carries r f L₁ L₁') :
    Carries r f (either L L₁) (either L' L₁') := by
  rintro w a (hword | hword)
  · exact .inl (h w a hword)
  · exact .inr (h₁ w a hword)

theorem Carries.many (h : Carries r f L L') :
    Carries r (List.map f) (many L) (many L') := by
  intro w as hmany
  induction hmany with
  | nil => exact .nil
  | cons hword _ ih =>
    rw [List.map_append, List.map_cons]
    exact .cons (h _ _ hword) ih

end Carries

end Lang

/-- What a parser is told by: the tokens of an input, the one at its end, the errors
that call the input wrong and those that ask for more of it. -/
structure Conventions (τ ε : Type) where
  inside : τ → Prop
  isEnd : τ → Prop
  wrong : ε → Prop
  starved : ε → Prop

namespace Conventions

variable {τ ε α β σ : Type} (C : Conventions τ ε)

/-- The tokens may stand before the end of the input. -/
def Inside (w : List τ) : Prop := ∀ t ∈ w, C.inside t

/-- The ways a parser may run on the tokens `w`. -/
inductive Verdict (p : Proc ε (List τ) α) (L : Lang τ α) (more : τ → Prop) (w : List τ) : Prop
  | accepted (u v : List τ) (a : α) (hw : w = u ++ v) (hword : L u a)
    (hrun : ∀ z, z ≠ [] → p.run (w ++ z) = (.ok a, v ++ z))
  | rejected (e : ε) (hwrong : C.wrong e)
    (hrun : ∀ z, z ≠ [] → ∃ rest, p.run (w ++ z) = (.error e, rest))
  | ended (a : α) (hword : L w a) (hmore : ∃ t, more t)
    (hrun : ∀ t, C.isEnd t → p.run (w ++ [t]) = (.ok a, [t]))
  | starved (hrun : ∀ t, C.isEnd t → ∃ e rest, C.starved e ∧ p.run (w ++ [t]) = (.error e, rest))

/-- The parser reads the language. -/
structure Parses (p : Proc ε (List τ) α) (L : Lang τ α) (more : τ → Prop) : Prop where
  verdict : ∀ w, C.Inside w → C.Verdict p L more w
  complete : ∀ u a t v, L u a → ¬more t → p.run (u ++ t :: v) = (.ok a, t :: v)

/-- A word ends where it ends. -/
def closed : τ → Prop := fun _ => False

/-- At the end of the input the parser neither rejects nor reads on. -/
def Waits (p : Proc ε (List τ) α) (L : Lang τ α) (more : τ → Prop) : Prop :=
  (∃ a, L [] a ∧ (∃ t, more t) ∧ ∀ t, C.isEnd t → p.run [t] = (.ok a, [t])) ∨
    ∀ t, C.isEnd t → ∃ e rest, C.starved e ∧ p.run [t] = (.error e, rest)

section Rules

variable {C} {p q : Proc ε (List τ) α} {f : α → Proc ε (List τ) β} {L : Lang τ α}
  {M : α → Lang τ β} {more more' : τ → Prop} {w : List τ}

theorem Inside.append_left {u v : List τ} (h : C.Inside (u ++ v)) : C.Inside u :=
  fun t hmem => h t (List.mem_append_left v hmem)

theorem Inside.append_right {u v : List τ} (h : C.Inside (u ++ v)) : C.Inside v :=
  fun t hmem => h t (List.mem_append_right u hmem)

/-- Only the runs matter, and the words that the input begins with. -/
theorem Verdict.congr {L' : Lang τ α} (h : C.Verdict q L more w)
    (hrun : ∀ z, z ≠ [] → p.run (w ++ z) = q.run (w ++ z))
    (hL : ∀ u v a, w = u ++ v → L u a → L' u a) : C.Verdict p L' more w := by
  cases h with
  | accepted u v a hsplit hword h =>
    exact .accepted u v a hsplit (hL u v a hsplit hword) fun z hz => (hrun z hz).trans (h z hz)
  | rejected e hwrong h =>
    refine .rejected e hwrong fun z hz => ?_
    rw [hrun z hz]
    exact h z hz
  | ended a hword hmore h =>
    exact .ended a (hL w [] a (List.append_nil w).symm hword) hmore fun t ht =>
      (hrun [t] (List.cons_ne_nil t [])).trans (h t ht)
  | starved h =>
    refine .starved fun t ht => ?_
    rw [hrun [t] (List.cons_ne_nil t [])]
    exact h t ht

theorem Verdict.mono (h : C.Verdict p L more w) (hmore : ∀ t, more t → more' t) :
    C.Verdict p L more' w := by
  cases h with
  | accepted u v a hw hword h => exact .accepted u v a hw hword h
  | rejected e hwrong h => exact .rejected e hwrong h
  | ended a hword hne h =>
    obtain ⟨t, ht⟩ := hne
    exact .ended a hword ⟨t, hmore t ht⟩ h
  | starved h => exact .starved h

/-- A parser that looks at more tokens reads the same language. -/
theorem Parses.mono (h : C.Parses p L more) (hmore : ∀ t, more t → more' t) :
    C.Parses p L more' :=
  ⟨fun w hw => (h.verdict w hw).mono hmore,
    fun u a t v hword ht => h.complete u a t v hword fun hmem => ht (hmore t hmem)⟩

theorem Parses.congr {L' : Lang τ α} (h : C.Parses p L more)
    (hL : ∀ u a, C.Inside u → L u a → L' u a) (hL' : ∀ u a, L' u a → L u a) :
    C.Parses p L' more :=
  ⟨fun w hw => (h.verdict w hw).congr (fun _ _ => rfl) fun u _ a hsplit =>
      hL u a (hsplit ▸ hw).append_left,
    fun u a t v hword ht => h.complete u a t v (hL' u a hword) ht⟩

/-! ### Sequences -/

/-- The second parser goes on where the first one stopped. -/
theorem Verdict.bind (h : C.Verdict p L more' w)
    (hf : ∀ u v a, w = u ++ v → L u a → C.Verdict (f a) (M a) more v)
    (hend : ∀ a, (∃ t, more' t) → L w a → C.Waits (f a) (M a) more) :
    C.Verdict (p >>= f) (L >>= M) more w := by
  cases h with
  | accepted u v a hw hword hrun =>
    have hstep (z : List τ) (hz : z ≠ []) : (p >>= f).run (w ++ z) = (f a).run (v ++ z) :=
      Proc.bind_run_ok (hrun z hz)
    cases hf u v a hw hword with
    | accepted u' v' b hv hword' hrun' =>
      exact .accepted (u ++ u') v' b (by rw [hw, hv, List.append_assoc])
        ⟨u, u', a, rfl, hword, hword'⟩ fun z hz => (hstep z hz).trans (hrun' z hz)
    | rejected e hwrong hrun' =>
      refine .rejected e hwrong fun z hz => ?_
      rw [hstep z hz]
      exact hrun' z hz
    | ended b hword' hmore hrun' =>
      exact .ended b ⟨u, v, a, hw, hword, hword'⟩ hmore fun t ht =>
        (hstep [t] (List.cons_ne_nil t [])).trans (hrun' t ht)
    | starved hrun' =>
      refine .starved fun t ht => ?_
      rw [hstep [t] (List.cons_ne_nil t [])]
      exact hrun' t ht
  | rejected e hwrong hrun =>
    refine .rejected e hwrong fun z hz => ?_
    obtain ⟨rest, h⟩ := hrun z hz
    exact ⟨rest, Proc.bind_run_error h⟩
  | ended a hword hmore hrun =>
    have hstep (t : τ) (ht : C.isEnd t) : (p >>= f).run (w ++ [t]) = (f a).run [t] :=
      Proc.bind_run_ok (hrun t ht)
    cases hend a hmore hword with
    | inl hended =>
      obtain ⟨b, hword', hmore', hrun'⟩ := hended
      exact .ended b ⟨w, [], a, (List.append_nil w).symm, hword, hword'⟩ hmore' fun t ht =>
        (hstep t ht).trans (hrun' t ht)
    | inr hstarved =>
      refine .starved fun t ht => ?_
      rw [hstep t ht]
      exact hstarved t ht
  | starved hrun =>
    refine .starved fun t ht => ?_
    obtain ⟨e, rest, he, h⟩ := hrun t ht
    exact ⟨e, rest, he, Proc.bind_run_error h⟩

/-- A sequence whose first part ends where it ends. -/
theorem Parses.bind (h : C.Parses p L closed) (hf : ∀ u a, L u a → C.Parses (f a) (M a) more) :
    C.Parses (p >>= f) (L >>= M) more := by
  refine ⟨fun w hw => (h.verdict w hw).bind ?_ ?_, ?_⟩
  · rintro u v a rfl hword
    exact (hf u a hword).verdict v hw.append_right
  · rintro a ⟨_, hfalse⟩ -
    exact hfalse.elim
  · rintro u b t v ⟨u, u', a, rfl, hword, hword'⟩ ht
    have hrest := (hf u a hword).complete u' b t v hword' ht
    obtain ⟨t', v', hnext⟩ : ∃ t' v', u' ++ t :: v = t' :: v' := by
      cases u' with
      | nil => exact ⟨t, v, rfl⟩
      | cons t' u' => exact ⟨t', u' ++ t :: v, rfl⟩
    rw [List.append_assoc]
    rw [hnext] at hrest ⊢
    rw [Proc.bind_run_ok (h.complete u a t' v' hword id)]
    exact hrest

/-- A sequence whose first part may go on: the second part must not begin with what
the first may go on with. -/
theorem Parses.bindOpen (h : C.Parses p L more') (hf : ∀ u a, L u a → C.Parses (f a) (M a) more)
    (hfirst : ∀ a t u b, M a (t :: u) b → ¬more' t)
    (hnull : ∀ a b, M a [] b → ∀ t, more' t → more t)
    (hend : ∀ u a, L u a → C.Waits (f a) (M a) more) : C.Parses (p >>= f) (L >>= M) more := by
  refine ⟨fun w hw => (h.verdict w hw).bind ?_ fun a _ hword => hend w a hword, ?_⟩
  · rintro u v a rfl hword
    exact (hf u a hword).verdict v hw.append_right
  · rintro u b t v ⟨u, u', a, rfl, hword, hword'⟩ ht
    have hrest := (hf u a hword).complete u' b t v hword' ht
    rw [List.append_assoc]
    cases u' with
    | nil =>
      rw [List.nil_append] at hrest ⊢
      rw [Proc.bind_run_ok (h.complete u a t v hword fun hmem => ht (hnull a b hword' t hmem))]
      exact hrest
    | cons t' u' =>
      rw [List.cons_append] at hrest ⊢
      rw [Proc.bind_run_ok (h.complete u a t' _ hword (hfirst a t' u' b hword'))]
      exact hrest

/-! ### Values and errors -/

theorem parses_pure (a : α) : C.Parses (pure a) (pure a : Lang τ α) more :=
  ⟨fun w _ => .accepted [] w a rfl ⟨rfl, rfl⟩ fun _ _ => rfl, by
    rintro _ _ t v ⟨rfl, rfl⟩ -
    rfl⟩

theorem parses_fail {e : ε} (he : C.wrong e) (hL : ∀ u a, ¬L u a) :
    C.Parses (Proc.fail e) L more :=
  ⟨fun _ _ => .rejected e he fun _ _ => ⟨_, rfl⟩, fun u a _ _ hword => (hL u a hword).elim⟩

theorem waits_pure {a : α} (h : ∃ t, more t) : C.Waits (pure a) (pure a : Lang τ α) more :=
  .inl ⟨a, ⟨rfl, rfl⟩, h, fun _ _ => rfl⟩

/-- A value made of what a parser read. -/
theorem Parses.map (h : C.Parses p L more) (g : α → β) :
    C.Parses (p >>= fun a => pure (g a)) (L >>= fun a => pure (g a)) more := by
  refine ⟨fun w hw => (h.verdict w hw).bind ?_ ?_, ?_⟩
  · exact fun u v a _ _ => .accepted [] v (g a) rfl ⟨rfl, rfl⟩ fun _ _ => rfl
  · exact fun a hmore _ => waits_pure hmore
  · rintro u _ t v ⟨u', _, a, rfl, hword, rfl, rfl⟩ ht
    rw [List.append_nil, Proc.bind_run_ok (h.complete u' a t v hword ht)]
    rfl

/-! ### Tokens -/

/-- A parser that takes one token, if it stands for a value. -/
theorem parses_terminal {stands : τ → α → Prop}
    (hstands : ∀ t a v, stands t a → p.run (t :: v) = (.ok a, v))
    (hother : ∀ t, C.inside t → (∃ a, stands t a) ∨
      ∃ e, C.wrong e ∧ ∀ v, ∃ rest, p.run (t :: v) = (.error e, rest))
    (hend : ∀ t, C.isEnd t → ∃ e rest, C.starved e ∧ p.run [t] = (.error e, rest)) :
    C.Parses p (Lang.terminal stands) closed := by
  refine ⟨fun w hw => ?_, ?_⟩
  · cases w with
    | nil => exact .starved hend
    | cons t w =>
      obtain ⟨a, ha⟩ | ⟨e, he, hrun⟩ := hother t (hw t (List.mem_cons_self ..))
      · exact .accepted [t] w a rfl ⟨t, rfl, ha⟩ fun z _ => hstands t a (w ++ z) ha
      · exact .rejected e he fun z _ => hrun (w ++ z)
  · rintro _ a t v ⟨t', rfl, ha⟩ -
    exact hstands t' a (t :: v) ha

/-- A parser that takes one token of some. -/
theorem parses_token {p : Proc ε (List τ) τ} {there : τ → Prop}
    (hthere : ∀ t v, there t → p.run (t :: v) = (.ok t, v))
    (hother : ∀ t, C.inside t → ¬there t →
      ∃ e, C.wrong e ∧ ∀ v, ∃ rest, p.run (t :: v) = (.error e, rest))
    (hend : ∀ t, C.isEnd t → ∃ e rest, C.starved e ∧ p.run [t] = (.error e, rest)) :
    C.Parses p (Lang.token there) closed := by
  refine (@parses_terminal _ _ _ C p (fun t t' => t' = t ∧ there t) ?_ ?_ hend).congr ?_ ?_
  · rintro t _ v ⟨rfl, ht⟩
    exact hthere _ v ht
  · intro t hinside
    by_cases ht : there t
    · exact .inl ⟨t, rfl, ht⟩
    · exact .inr (hother t hinside ht)
  · rintro _ _ - ⟨t, rfl, rfl, ht⟩
    exact ⟨rfl, ht⟩
  · rintro _ t ⟨rfl, ht⟩
    exact ⟨t, rfl, rfl, ht⟩

/-- A parser that takes a token if it is there. -/
theorem parses_optional {p : Proc ε (List τ) Bool} {there : τ → Prop}
    (hthere : ∀ t v, there t → p.run (t :: v) = (.ok true, v))
    (hother : ∀ t v, ¬there t → p.run (t :: v) = (.ok false, t :: v))
    (hend : ∀ t, C.isEnd t → ¬there t) (hsome : ∃ t, there t) :
    C.Parses p (Lang.optional there) there := by
  refine ⟨fun w hw => ?_, ?_⟩
  · cases w with
    | nil =>
      exact .ended false (.inl ⟨rfl, rfl⟩) hsome fun t ht => hother t [] (hend t ht)
    | cons t w =>
      by_cases ht : there t
      · exact .accepted [t] w true rfl (.inr ⟨t, rfl, ht, rfl⟩) fun z _ => hthere t (w ++ z) ht
      · exact .accepted [] (t :: w) false rfl (.inl ⟨rfl, rfl⟩) fun z _ => hother t (w ++ z) ht
  · rintro u b t v (⟨rfl, rfl⟩ | ⟨t', rfl, ht', rfl⟩) ht
    · exact hother t v ht
    · exact hthere t' (t :: v) ht'

/-- A parser that has taken the first token and goes on as another. -/
theorem Verdict.cons {L' : Lang τ α} {t : τ} (h : C.Verdict q L more w)
    (hrun : ∀ v, p.run (t :: v) = q.run v) (hL : ∀ u a, L u a → L' (t :: u) a) :
    C.Verdict p L' more (t :: w) := by
  cases h with
  | accepted u v a hsplit hword h =>
    exact .accepted (t :: u) v a (congrArg (t :: ·) hsplit) (hL u a hword) fun z hz =>
      (hrun (w ++ z)).trans (h z hz)
  | rejected e hwrong h =>
    refine .rejected e hwrong fun z hz => ?_
    rw [List.cons_append, hrun]
    exact h z hz
  | ended a hword hmore h =>
    exact .ended a (hL w a hword) hmore fun t' ht => (hrun (w ++ [t'])).trans (h t' ht)
  | starved h =>
    refine .starved fun t' ht => ?_
    rw [List.cons_append, hrun]
    exact h t' ht

/-- A parser that goes on in one way behind a token and in another without it. -/
theorem parses_ifThere {m : Proc ε (List τ) Bool} {there : τ → Prop} {L' : Lang τ α}
    (hthere : ∀ t v, there t → m.run (t :: v) = (.ok true, v))
    (hother : ∀ t v, ¬there t → m.run (t :: v) = (.ok false, t :: v))
    (hp : C.Parses p L more) (hq : C.Parses q L' more)
    (hfirst : ∀ t u a, L' (t :: u) a → ¬there t)
    (hnull : ∀ a, L' [] a → ∀ t, there t → more t)
    (hend : ∀ t, C.isEnd t → ¬there t) (hwaits : C.Waits q L' more) :
    C.Parses (m >>= fun b => if b then p else q)
      (Lang.either (Lang.token there >>= fun _ => L) L') more := by
  have hleft (t : τ) (v : List τ) (ht : there t) :
      (m >>= fun b => if b then p else q).run (t :: v) = p.run v :=
    Proc.bind_run_ok (hthere t v ht)
  have hright (t : τ) (v : List τ) (ht : ¬there t) :
      (m >>= fun b => if b then p else q).run (t :: v) = q.run (t :: v) :=
    Proc.bind_run_ok (hother t v ht)
  refine ⟨fun w hw => ?_, ?_⟩
  · cases w with
    | nil =>
      cases hwaits with
      | inl hended =>
        obtain ⟨a, hword, hmore, hrun⟩ := hended
        exact .ended a (.inr hword) hmore fun t ht => (hright t [] (hend t ht)).trans (hrun t ht)
      | inr hstarved =>
        refine .starved fun t ht => ?_
        rw [List.nil_append, hright t [] (hend t ht)]
        exact hstarved t ht
    | cons t w =>
      by_cases ht : there t
      · refine (hp.verdict w fun t' hmem => hw t' (List.mem_cons_of_mem _ hmem)).cons
          (fun v => hleft t v ht) fun u a hword => ?_
        exact .inl ⟨[t], u, t, rfl, ⟨rfl, ht⟩, hword⟩
      · exact (hq.verdict (t :: w) hw).congr (fun z _ => hright t (w ++ z) ht)
          fun _ _ _ _ hword => .inr hword
  · rintro u a t v (⟨_, u', t', rfl, ⟨rfl, ht'⟩, hword⟩ | hword) ht
    · exact (hleft t' _ ht').trans (hp.complete u' a t v hword ht)
    · cases u with
      | nil =>
        exact (hright t v fun hmem => ht (hnull a hword t hmem)).trans (hq.complete [] a t v hword ht)
      | cons t' u =>
        exact (hright t' _ (hfirst t' u a hword)).trans (hq.complete (t' :: u) a t v hword ht)

/-! ### Loops -/

section Loops

variable {s : σ} {add : σ → α → σ} {continues : τ → Prop} {item : Lang τ α}
  {step : σ → Proc ε (List τ) σ} {loop : Nat → σ → Proc ε (List τ) σ} {unfinished : ε}

/-- What a loop needs of its steps: each reads one word of the language into the
accumulator, on an input whose first token makes the loop go on. -/
structure LoopStep (C : Conventions τ ε) (step : σ → Proc ε (List τ) σ) (item : Lang τ α)
    (add : σ → α → σ) (continues more : τ → Prop) : Prop where
  verdict : ∀ s t w, continues t → C.Inside (t :: w) →
    C.Verdict (step s) (do return add s (← item)) more (t :: w)
  complete : ∀ s u a t v, item u a → ¬more t → (step s).run (u ++ t :: v) = (.ok (add s a), t :: v)
  begins : ∀ u a, item u a → ∃ t u', u = t :: u' ∧ continues t
  apart : ∀ t, continues t → ¬more t

/-- The equations of a loop with a bound on its rounds. -/
structure LoopRuns (step : σ → Proc ε (List τ) σ) (loop : Nat → σ → Proc ε (List τ) σ)
    (continues : τ → Prop) (unfinished : ε) : Prop where
  zero : ∀ s v, (loop 0 s).run v = (.error unfinished, v)
  empty : ∀ m n s, (loop (m + 1) s).run [] = (loop (n + 1) s).run []
  next : ∀ n s t v, continues t →
    (loop (n + 1) s).run (t :: v) = (step s >>= loop n).run (t :: v)
  stop : ∀ n s t v, ¬continues t → (loop (n + 1) s).run (t :: v) = (.ok s, t :: v)

theorem fold_nil : Lang.fold add s item [] s := Lang.fold_iff.mpr ⟨[], .nil, rfl⟩

theorem fold_cons {u v : List τ} {s₁ s₂ : σ}
    (hstep : (do return add s (← item) : Lang τ σ) u s₁) (hrest : Lang.fold add s₁ item v s₂) :
    Lang.fold add s item (u ++ v) s₂ := by
  obtain ⟨u', _, a, rfl, hword, rfl, rfl⟩ := hstep
  obtain ⟨as, hmany, rfl⟩ := Lang.fold_iff.mp hrest
  rw [List.append_nil]
  exact Lang.fold_iff.mpr ⟨a :: as, .cons hword hmany, rfl⟩

/-- A loop reads its words within as many rounds as there are tokens. -/
theorem verdict_loop (hstep : C.LoopStep step item add continues more)
    (hloop : LoopRuns step loop continues unfinished) (hend : ∀ t, C.isEnd t → ¬continues t)
    (hsome : ∃ t, continues t) {n : Nat} {w : List τ} (hn : w.length < n) (hw : C.Inside w) :
    C.Verdict (loop n s) (Lang.fold add s item) (fun t => continues t ∨ more t) w := by
  induction n generalizing s w with
  | zero => exact absurd hn (Nat.not_lt_zero _)
  | succ n ih =>
    obtain ⟨c, hc⟩ := hsome
    cases w with
    | nil =>
      exact .ended s fold_nil ⟨c, .inl hc⟩ fun t ht => hloop.stop n s t [] (hend t ht)
    | cons t w =>
      by_cases ht : continues t
      · refine Verdict.congr (q := step s >>= loop n)
          (L := (do return add s (← item)) >>= fun s => Lang.fold add s item) ?_
          (fun z _ => hloop.next n s t (w ++ z) ht) ?_
        · refine (hstep.verdict s t w ht hw).bind ?_ ?_
          · rintro u v s' hsplit ⟨u', _, a, rfl, hword, rfl, rfl⟩
            obtain ⟨t', u'', rfl, -⟩ := hstep.begins u' a hword
            rw [hsplit] at hw
            refine ih ?_ hw.append_right
            have hlength := congrArg List.length hsplit
            simp only [List.length_cons, List.length_append] at hlength hn ⊢
            omega
          · -- the step came to the end, and so does the loop
            rintro s' - -
            obtain ⟨m, rfl⟩ : ∃ m, n = m + 1 := ⟨n - 1, by rw [List.length_cons] at hn; omega⟩
            exact .inl ⟨s', fold_nil, ⟨c, .inl hc⟩, fun t ht => hloop.stop m s' t [] (hend t ht)⟩
        · rintro _ _ s₂ - ⟨u, v, s₁, rfl, hone, hrest⟩
          exact fold_cons hone hrest
      · exact .accepted [] (t :: w) s rfl fold_nil fun z _ => hloop.stop n s t (w ++ z) ht

/-- A loop that ends within its rounds ends the same way with more of them. -/
theorem LoopRuns.run_of_le (hloop : LoopRuns step loop continues unfinished) {n m : Nat}
    (hle : n ≤ m) {v rest : List τ} {r : Except ε σ} (hrun : (loop n s).run v = (r, rest))
    (hr : r ≠ .error unfinished) : (loop m s).run v = (r, rest) := by
  induction n generalizing m s v with
  | zero =>
    rw [hloop.zero] at hrun
    exact absurd (Prod.mk.inj hrun).1.symm hr
  | succ n ih =>
    obtain ⟨m, rfl⟩ : ∃ m', m = m' + 1 := ⟨m - 1, by omega⟩
    cases v with
    | nil => rwa [hloop.empty m n]
    | cons t v =>
      by_cases ht : continues t
      · rw [hloop.next n s t v ht] at hrun
        rw [hloop.next m s t v ht, Proc.bind_run]
        rw [Proc.bind_run] at hrun
        cases hstep : (step s).run (t :: v) with
        | mk result v' =>
          rw [hstep] at hrun
          cases result with
          | error e => exact hrun
          | ok s' => exact ih (Nat.le_of_succ_le_succ hle) hrun
      · rw [hloop.stop n s t v ht] at hrun
        rw [hloop.stop m s t v ht, hrun]

theorem complete_loop (hstep : C.LoopStep step item add continues more)
    (hloop : LoopRuns step loop continues unfinished) {as : List α} {w : List τ}
    (hmany : Lang.many item w as) {n : Nat} (hn : w.length < n) {t : τ} {v : List τ}
    (hstop : ¬continues t) (hmore : ¬more t) :
    (loop n s).run (w ++ t :: v) = (.ok (as.foldl add s), t :: v) := by
  induction hmany generalizing n s with
  | nil =>
    obtain ⟨m, rfl⟩ : ∃ m, n = m + 1 := ⟨n - 1, by omega⟩
    exact hloop.stop m s t v hstop
  | @cons u u' a as hword hrest ih =>
    obtain ⟨m, rfl⟩ : ∃ m, n = m + 1 := ⟨n - 1, by omega⟩
    obtain ⟨c, u'', rfl, hc⟩ := hstep.begins u a hword
    simp only [List.length_append, List.length_cons] at hn
    rw [List.append_assoc, List.cons_append, hloop.next m s c _ hc, ← List.cons_append]
    -- what follows the word is another one or the end of the loop
    obtain ⟨t', v', hnext, ht'⟩ : ∃ t' v', u' ++ t :: v = t' :: v' ∧ ¬more t' := by
      cases hrest with
      | nil => exact ⟨t, v, rfl, hmore⟩
      | cons hword' _ =>
        obtain ⟨c', u₁, rfl, hc'⟩ := hstep.begins _ _ hword'
        exact ⟨c', _, rfl, hstep.apart c' hc'⟩
    rw [hnext, Proc.bind_run_ok (hstep.complete s _ a t' v' hword ht'), ← hnext]
    exact ih (by omega)

/-- Only one word stands at the front of an input. -/
theorem LoopStep.unique (hstep : C.LoopStep step item add continues closed)
    (hadd : ∀ a b, add s a = add s b → a = b) {u u' x x' : List τ} {a a' : α} (hu : item u a)
    (hu' : item u' a') (heq : u ++ x = u' ++ x') : x = x' ∧ a = a' := by
  obtain ⟨t, -, -, -⟩ := hstep.begins u a hu
  have hrun (u x : List τ) (a : α) (h : item u a) :
      (step s).run (u ++ x ++ [t]) = (.ok (add s a), x ++ [t]) := by
    rw [List.append_assoc]
    cases x with
    | nil => exact hstep.complete s u a t [] h id
    | cons t' x => exact hstep.complete s u a t' (x ++ [t]) h id
  have h := hrun u x a hu
  rw [heq, hrun u' x' a' hu'] at h
  obtain ⟨hvalue, hrest⟩ := Prod.mk.inj h
  exact ⟨(List.append_cancel_right hrest).symm, (hadd a' a (Except.ok.inj hvalue)).symm⟩

/-- What is left of a sequence of words behind some of them is one as well. -/
theorem LoopStep.many_cancel (hstep : C.LoopStep step item add continues closed)
    (hadd : ∀ a b, add s a = add s b → a = b) {u v : List τ} {as cs : List α}
    (hu : Lang.many item u as) (huv : Lang.many item (u ++ v) cs) :
    ∃ bs, Lang.many item v bs ∧ cs = as ++ bs := by
  induction hu generalizing cs with
  | nil => exact ⟨cs, huv, rfl⟩
  | @cons u₁ u₂ a as hword hrest ih =>
    rw [List.append_assoc] at huv
    generalize hw : u₁ ++ (u₂ ++ v) = w at huv
    cases huv with
    | nil =>
      obtain ⟨t, u', rfl, -⟩ := hstep.begins u₁ a hword
      cases hw
    | cons hword' hrest' =>
      obtain ⟨rfl, rfl⟩ := hstep.unique hadd hword hword' hw
      obtain ⟨bs, hbs, rfl⟩ := ih hrest'
      exact ⟨bs, hbs, rfl⟩

/-- A loop with as many rounds as there are tokens, and one more. -/
theorem parses_loop {p : Proc ε (List τ) σ} (hstep : C.LoopStep step item add continues more)
    (hloop : LoopRuns step loop continues unfinished) (hend : ∀ t, C.isEnd t → ¬continues t)
    (hsome : ∃ t, continues t) (hwrong : ¬C.wrong unfinished) (hstarved : ¬C.starved unfinished)
    (hp : ∀ v, p.run v = (loop (v.length + 1) s).run v) :
    C.Parses p (Lang.fold add s item) fun t => continues t ∨ more t := by
  have hrounds {w z rest : List τ} {r : Except ε σ}
      (hrun : (loop (w.length + 1) s).run (w ++ z) = (r, rest)) (hr : r ≠ .error unfinished) :
      p.run (w ++ z) = (r, rest) := by
    rw [hp]
    refine hloop.run_of_le ?_ hrun hr
    rw [List.length_append]
    omega
  refine ⟨fun w hw => ?_, fun u s' t v hword ht => ?_⟩
  · cases verdict_loop (s := s) hstep hloop hend hsome (Nat.lt_succ_self _) hw with
    | accepted u v a hsplit hword hrun =>
      exact .accepted u v a hsplit hword fun z hz => hrounds (hrun z hz) nofun
    | rejected e he hrun =>
      refine .rejected e he fun z hz => ?_
      obtain ⟨rest, h⟩ := hrun z hz
      exact ⟨rest, hrounds h fun heq => hwrong (Except.error.inj heq ▸ he)⟩
    | ended a hword hmore hrun =>
      exact .ended a hword hmore fun t ht => hrounds (hrun t ht) nofun
    | starved hrun =>
      refine .starved fun t ht => ?_
      obtain ⟨e, rest, he, h⟩ := hrun t ht
      exact ⟨e, rest, he, hrounds h fun heq => hstarved (Except.error.inj heq ▸ he)⟩
  · obtain ⟨as, hmany, rfl⟩ := Lang.fold_iff.mp hword
    exact hrounds (complete_loop hstep hloop hmany (Nat.lt_succ_self _)
      (fun h => ht (.inl h)) fun h => ht (.inr h)) nofun

end Loops

end Rules

end Conventions
