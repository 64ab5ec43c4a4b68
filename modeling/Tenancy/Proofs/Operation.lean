import Tenancy.Cell

/-!
# Operations that may fail

What stores, tables and record systems do is an operation on a state that gives a result or an
error.  `runOn x s` is what the operation `x` does from the state `s`: its outcome and the state
afterwards, which is there after an error as well.

* `runOn_bind`: an operation in two steps; the second one is left out after an error.
* `runOn_cell`: an operation on a part of the state leaves the rest as it is.
* `bind_succeeds`: an operation in two steps succeeds only if both steps do.
* `Respects`: an operation that cannot tell some states apart.
* `Matches`: two operations that keep step with each other.
-/

namespace Tenancy

variable {ε ε' σ τ α α' β β' : Type}

/-! ## Results -/

@[simp]
theorem map_ok (f : α → β) (a : α) : (Except.ok a : Except ε α).map f = .ok (f a) := rfl

@[simp]
theorem map_error (f : α → β) (e : ε) : (Except.error e : Except ε α).map f = .error e := rfl

@[simp]
theorem mapError_ok (f : ε → ε') (a : α) : (Except.ok a : Except ε α).mapError f = .ok a := rfl

@[simp]
theorem mapError_error (f : ε → ε') (e : ε) :
    (Except.error e : Except ε α).mapError f = .error (f e) := rfl

@[simp]
theorem bind_ok (a : α) (f : α → Except ε β) : (Except.ok a >>= f) = f a := rfl

theorem bind_eq_ok_iff {x : Except ε α} {f : α → Except ε β} {b : β} :
    (x >>= f) = .ok b ↔ ∃ a, x = .ok a ∧ f a = .ok b := by
  cases x with
  | ok a => simp
  | error e =>
    change (Except.error e : Except ε β) = .ok b ↔ _
    simp

theorem map_eq_ok_iff {x : Except ε α} {f : α → β} {b : β} :
    x.map f = .ok b ↔ ∃ a, x = .ok a ∧ f a = b := by
  cases x <;> simp

def problem? : Except ε α → Option ε
  | .ok _ => none
  | .error e => some e

@[simp]
theorem problem?_ok (a : α) : problem? (.ok a : Except ε α) = none := rfl

@[simp]
theorem problem?_error (e : ε) : problem? (.error e : Except ε α) = some e := rfl

theorem problem?_eq_some_iff {x : Except ε α} {e : ε} : problem? x = some e ↔ x = .error e := by
  cases x <;> simp

/-! ## Operations -/

/-- An operation in two steps that cannot fail. -/
theorem run_bind (x : StateM σ α) (f : α → StateM σ β) (s : σ) :
    (x >>= f).run s = (f (x.run s).1).run (x.run s).2 := rfl

theorem run_pure (a : α) (s : σ) : (pure a : StateM σ α).run s = (a, s) := rfl

/-- The outcome of an operation that begins in the state `s`, and the state at its end. -/
def runOn (x : ExceptT ε (StateM σ) α) (s : σ) : Except ε α × σ := x.run.run s

@[simp]
theorem runOn_pure (a : α) (s : σ) : runOn (pure a : ExceptT ε (StateM σ) α) s = (.ok a, s) := rfl

@[simp]
theorem runOn_throw (e : ε) (s : σ) :
    runOn (throw e : ExceptT ε (StateM σ) α) s = (.error e, s) := rfl

theorem runOn_bind (x : ExceptT ε (StateM σ) α) (f : α → ExceptT ε (StateM σ) β) (s : σ) :
    runOn (x >>= f) s =
      match runOn x s with
      | (.ok a, t) => runOn (f a) t
      | (.error e, t) => (.error e, t) := by
  rcases hRun : runOn x s with ⟨_ | _, t⟩ <;>
    · simp only [runOn, ExceptT.run_bind, StateT.run_bind] at hRun ⊢
      rw [hRun]
      rfl

@[simp]
theorem runOn_map (f : α → β) (x : ExceptT ε (StateM σ) α) (s : σ) :
    runOn (f <$> x) s = ((runOn x s).1.map f, (runOn x s).2) := by
  rw [← bind_pure_comp, runOn_bind]
  rcases runOn x s with ⟨_ | _, t⟩ <;> rfl

@[simp]
theorem runOn_lift (x : StateM σ α) (s : σ) :
    runOn (ExceptT.lift x : ExceptT ε (StateM σ) α) s = (.ok (x.run s).1, (x.run s).2) := rfl

@[simp]
theorem runOn_ofExcept (x : Except ε α) (s : σ) :
    runOn (liftM x : ExceptT ε (StateM σ) α) s = (x, s) := rfl

@[simp]
theorem runOn_adapt (f : ε → ε') (x : ExceptT ε (StateM σ) α) (s : σ) :
    runOn (x.adapt f) s = ((runOn x s).1.mapError f, (runOn x s).2) := rfl

@[simp]
theorem runOn_get (s : σ) : runOn (get : ExceptT ε (StateM σ) σ) s = (.ok s, s) := rfl

@[simp]
theorem runOn_getThe (s : σ) : runOn (getThe σ : ExceptT ε (StateM σ) σ) s = (.ok s, s) := rfl

@[simp]
theorem runOn_set (s t : σ) : runOn (set t : ExceptT ε (StateM σ) PUnit) s = (.ok (), t) := rfl

@[simp]
theorem runOn_modify (f : σ → σ) (s : σ) :
    runOn (modify f : ExceptT ε (StateM σ) PUnit) s = (.ok (), f s) := rfl

@[simp]
theorem run_run_eq_runOn (x : ExceptT ε (StateM σ) α) (s : σ) :
    StateT.run (ExceptT.run x) s = runOn x s := rfl

@[simp]
theorem runOn_whole (x : ExceptT ε (StateM σ) α) (s : σ) :
    runOn (Cell.whole.access x) s = runOn x s := rfl

/-- An operation on a part of a state. -/
@[simp]
theorem runOn_cell (p : Part σ τ) (x : ExceptT ε (StateM τ) α) (s : σ) :
    runOn (p.cell.access x) s =
      ((runOn x (p.read s)).1, p.write (runOn x (p.read s)).2 s) := rfl

def Part.whole : Part σ σ where
  read s := s
  write t _ := t
  read_write _ _ := rfl
  write_read _ := rfl
  write_write _ _ _ := rfl

/-! ## Success -/

theorem bind_succeeds {x : ExceptT ε (StateM σ) α} {f : α → ExceptT ε (StateM σ) β}
    {st : σ} (h : problem? (runOn (x >>= f) st).1 = none) :
    ∃ a t, runOn x st = (.ok a, t) ∧ problem? (runOn (f a) t).1 = none := by
  rw [runOn_bind] at h
  rcases hRun : runOn x st with ⟨e | a, t⟩
  · rw [hRun] at h
    cases h
  · rw [hRun] at h
    exact ⟨a, t, rfl, h⟩

theorem map_succeeds {x : ExceptT ε (StateM σ) α} {f : α → β} {st : σ} :
    problem? (runOn (f <$> x) st).1 = none ↔ problem? (runOn x st).1 = none := by
  rw [runOn_map]
  cases (runOn x st).1 <;> simp

theorem runOn_map_eq_ok {f : α → β} {x : ExceptT ε (StateM σ) α} {st t : σ} {b : β}
    (hRun : runOn (f <$> x) st = (.ok b, t)) : ∃ a, runOn x st = (.ok a, t) ∧ f a = b := by
  rw [runOn_map] at hRun
  rcases hInner : runOn x st with ⟨e | a, u⟩
  · rw [hInner] at hRun
    cases hRun
  · rw [hInner] at hRun
    obtain ⟨hResult, rfl⟩ := Prod.mk.inj hRun
    exact ⟨a, rfl, Except.ok.inj hResult⟩

attribute [simp] Part.read_write Part.write_read Part.write_write

/-! ## What makes no difference -/

section

variable {same : σ → σ → Prop}

/-- From states that are the same the operation comes to one result, and to states that are the
same. -/
def Respects (same : σ → σ → Prop) (f : σ → α × σ) : Prop :=
  ∀ st st', same st st' → (f st).1 = (f st').1 ∧ same (f st).2 (f st').2

theorem respects_pure (a : α) : Respects same (pure a : StateM σ α).run :=
  fun _ _ hSame => ⟨rfl, hSame⟩

theorem respects_bind {x : StateM σ α} {f : α → StateM σ β} (hFirst : Respects same x.run)
    (hSecond : ∀ st, Respects same (f (x.run st).1).run) : Respects same (x >>= f).run := by
  intro st st' hSame
  obtain ⟨hResult, hNext⟩ := hFirst st st' hSame
  rw [run_bind, run_bind, ← hResult]
  exact hSecond st _ _ hNext

theorem respects_map (f : α → β) {x : StateM σ α} (h : Respects same x.run) :
    Respects same (f <$> x).run := by
  intro st st' hSame
  obtain ⟨hResult, hNext⟩ := h st st' hSame
  exact ⟨congrArg f hResult, hNext⟩

theorem respects_runOn_pure (a : α) : Respects same (runOn (pure a : ExceptT ε (StateM σ) α)) :=
  fun _ _ hSame => ⟨rfl, hSame⟩

theorem respects_runOn_throw (e : ε) :
    Respects same (runOn (throw e : ExceptT ε (StateM σ) α)) :=
  fun _ _ hSame => ⟨rfl, hSame⟩

theorem respects_runOn_ofExcept (x : Except ε α) :
    Respects same (runOn (liftM x : ExceptT ε (StateM σ) α)) := respects_pure x

theorem respects_runOn_bind {x : ExceptT ε (StateM σ) α} {f : α → ExceptT ε (StateM σ) β}
    (hFirst : Respects same (runOn x)) (hSecond : ∀ a, Respects same (runOn (f a))) :
    Respects same (runOn (x >>= f)) := by
  intro st st' hSame
  obtain ⟨hResult, hNext⟩ := hFirst st st' hSame
  rw [runOn_bind, runOn_bind]
  rcases hRun : runOn x st with ⟨result, t⟩
  rcases hRun' : runOn x st' with ⟨result', t'⟩
  rw [hRun, hRun'] at hResult hNext
  obtain rfl : result = result' := hResult
  cases result with
  | error e => exact ⟨rfl, hNext⟩
  | ok a => exact hSecond a t t' hNext

theorem respects_runOn_map (f : α → β) {x : ExceptT ε (StateM σ) α}
    (h : Respects same (runOn x)) : Respects same (runOn (f <$> x)) := by
  intro st st' hSame
  obtain ⟨hResult, hNext⟩ := h st st' hSame
  rw [runOn_map, runOn_map, hResult]
  exact ⟨rfl, hNext⟩

theorem respects_runOn_adapt (f : ε → ε') {x : ExceptT ε (StateM σ) α}
    (h : Respects same (runOn x)) : Respects same (runOn (x.adapt f)) := by
  intro st st' hSame
  obtain ⟨hResult, hNext⟩ := h st st' hSame
  rw [runOn_adapt, runOn_adapt, hResult]
  exact ⟨rfl, hNext⟩

theorem respects_runOn_lift {x : StateM σ α} (h : Respects same x.run) :
    Respects same (runOn (ExceptT.lift x : ExceptT ε (StateM σ) α)) := by
  intro st st' hSame
  obtain ⟨hResult, hNext⟩ := h st st' hSame
  rw [runOn_lift, runOn_lift, hResult]
  exact ⟨rfl, hNext⟩

/-- States that are the same have the same part, and remain the same if the part is written. -/
structure Part.Matters (p : Part σ τ) (same : σ → σ → Prop) : Prop where
  read : ∀ {st st'}, same st st' → p.read st = p.read st'
  write : ∀ {st st'} t, same st st' → same (p.write t st) (p.write t st')

theorem Part.Matters.respects_cell {p : Part σ τ} (h : p.Matters same) (x : StateM τ α) :
    Respects same (p.cell.access x).run := by
  intro st st' hSame
  have hRun : ∀ st, (p.cell.access x).run st =
      ((x.run (p.read st)).1, p.write (x.run (p.read st)).2 st) := fun _ => rfl
  rw [hRun, hRun, h.read hSame]
  exact ⟨rfl, h.write _ hSame⟩

end

/-! ## What two runs have in common -/

section

variable {same : σ → σ → Prop} {alike : α → α' → Prop} {alike' : β → β' → Prop}

/-- From states that are the same the two operations come to results that are alike, and to states
that are the same. -/
def Matches (same : σ → σ → Prop) (alike : α → α' → Prop) (f : σ → α × σ) (g : σ → α' × σ) :
    Prop :=
  ∀ st st', same st st' → alike (f st).1 (g st').1 ∧ same (f st).2 (g st').2

/-- Two results are one error, or values that are alike. -/
inductive Agree (alike : α → α' → Prop) : Except ε α → Except ε α' → Prop
  | error (e : ε) : Agree alike (.error e) (.error e)
  | ok {a : α} {a' : α'} (h : alike a a') : Agree alike (.ok a) (.ok a')

theorem Agree.problem?_eq {x : Except ε α} {x' : Except ε α'} (h : Agree alike x x') :
    problem? x = problem? x' := by
  cases h <;> rfl

theorem Agree.mapError (f : ε → ε') {x : Except ε α} {x' : Except ε α'} (h : Agree alike x x') :
    Agree alike (x.mapError f) (x'.mapError f) := by
  cases h with
  | error e => exact .error (f e)
  | ok hAlike => exact .ok hAlike

theorem Agree.map {f : α → β} {f' : α' → β'} (hMap : ∀ a a', alike a a' → alike' (f a) (f' a'))
    {x : Except ε α} {x' : Except ε α'} (h : Agree alike x x') :
    Agree alike' (x.map f) (x'.map f') := by
  cases h with
  | error e => exact .error e
  | ok hAlike => exact .ok (hMap _ _ hAlike)

theorem agree_self {alike : α → α → Prop} (hRefl : ∀ a, alike a a) (x : Except ε α) :
    Agree alike x x := by
  cases x with
  | error e => exact .error e
  | ok a => exact .ok (hRefl a)

theorem Agree.imp {weaker : α → α' → Prop} (hImp : ∀ a a', alike a a' → weaker a a')
    {x : Except ε α} {x' : Except ε α'} (h : Agree alike x x') : Agree weaker x x' := by
  cases h with
  | error e => exact .error e
  | ok hAlike => exact .ok (hImp _ _ hAlike)

theorem Matches.imp {weaker : α → α' → Prop} (hImp : ∀ a a', alike a a' → weaker a a')
    {f : σ → α × σ} {g : σ → α' × σ} (h : Matches same alike f g) : Matches same weaker f g :=
  fun st st' hSame => ⟨hImp _ _ (h st st' hSame).1, (h st st' hSame).2⟩

theorem matches_pure {a : α} {a' : α'} (h : alike a a') :
    Matches same alike (pure a : StateM σ α).run (pure a' : StateM σ α').run :=
  fun _ _ hSame => ⟨h, hSame⟩

theorem matches_bind {x : StateM σ α} {x' : StateM σ α'} {f : α → StateM σ β}
    {f' : α' → StateM σ β'} (hFirst : Matches same alike x.run x'.run)
    (hSecond : ∀ a a', alike a a' → Matches same alike' (f a).run (f' a').run) :
    Matches same alike' (x >>= f).run (x' >>= f').run := by
  intro st st' hSame
  obtain ⟨hAlike, hNext⟩ := hFirst st st' hSame
  exact hSecond _ _ hAlike _ _ hNext

theorem matches_runOn_bind {x : ExceptT ε (StateM σ) α} {x' : ExceptT ε (StateM σ) α'}
    {f : α → ExceptT ε (StateM σ) β} {f' : α' → ExceptT ε (StateM σ) β'}
    (hFirst : Matches same (Agree alike) (runOn x) (runOn x'))
    (hSecond : ∀ a a', alike a a' → Matches same (Agree alike') (runOn (f a)) (runOn (f' a'))) :
    Matches same (Agree alike') (runOn (x >>= f)) (runOn (x' >>= f')) := by
  intro st st' hSame
  obtain ⟨hResult, hNext⟩ := hFirst st st' hSame
  rw [runOn_bind, runOn_bind]
  rcases hRun : runOn x st with ⟨result, t⟩
  rcases hRun' : runOn x' st' with ⟨result', t'⟩
  rw [hRun, hRun'] at hResult hNext
  cases hResult with
  | error e => exact ⟨.error e, hNext⟩
  | ok hAlike => exact hSecond _ _ hAlike t t' hNext

theorem matches_runOn_ofExcept {x : Except ε α} {x' : Except ε α'} (h : Agree alike x x') :
    Matches same (Agree alike) (runOn (liftM x : ExceptT ε (StateM σ) α))
      (runOn (liftM x' : ExceptT ε (StateM σ) α')) := matches_pure h

theorem matches_runOn_lift {x : StateM σ α} {x' : StateM σ α'}
    (h : Matches same alike x.run x'.run) :
    Matches same (Agree alike) (runOn (ExceptT.lift x : ExceptT ε (StateM σ) α))
      (runOn (ExceptT.lift x' : ExceptT ε (StateM σ) α')) := by
  intro st st' hSame
  obtain ⟨hAlike, hNext⟩ := h st st' hSame
  exact ⟨.ok hAlike, hNext⟩

theorem matches_runOn_adapt (f : ε → ε') {x : ExceptT ε (StateM σ) α}
    {x' : ExceptT ε (StateM σ) α'} (h : Matches same (Agree alike) (runOn x) (runOn x')) :
    Matches same (Agree alike) (runOn (x.adapt f)) (runOn (x'.adapt f)) := by
  intro st st' hSame
  obtain ⟨hResult, hNext⟩ := h st st' hSame
  rw [runOn_adapt, runOn_adapt]
  exact ⟨hResult.mapError f, hNext⟩

/-- Operations that match on a part of the state match on the whole of it. -/
theorem matches_cell {p : Part σ τ} {samePart : τ → τ → Prop} {x : StateM τ α} {x' : StateM τ α'}
    (hRead : ∀ {st st'}, same st st' → samePart (p.read st) (p.read st'))
    (hWrite : ∀ {st st' t t'}, same st st' → samePart t t' → same (p.write t st) (p.write t' st'))
    (h : Matches samePart alike x.run x'.run) :
    Matches same alike (p.cell.access x).run (p.cell.access x').run := by
  intro st st' hSame
  obtain ⟨hAlike, hNext⟩ := h _ _ (hRead hSame)
  exact ⟨hAlike, hWrite hSame hNext⟩

end

end Tenancy
