import IdentityLint.Proofs.ScopeChain
import Mathlib.Data.List.Induction

/-!
# The two regimes of a scope chain

A scope chain goes through a history of steps, in each of which a function is entered or left.  The
functions that are open form a stack, of which `entries` also remembers in which step each was
entered.

As long as no open function has been entered again since, the chain is linked, and the walk outward
meets the open functions.  When one has, every function entered since then has a record that points
to a function entered since then, so the walk outward moves among them for ever.  This ends only
when that entry of the stack is left.
-/

namespace IdentityLint.ScopeChain

/-- A step in the history of a scope chain. -/
inductive Step where
  | enter (f : FunctionId)
  | exit
  deriving Repr, DecidableEq

/-- The chain behind a step. -/
def step (s : ScopeChain) : Step → ScopeChain
  | .enter f => s.enter f
  | .exit => s.exit

/-- The chain behind a history of steps. -/
def run (steps : List Step) : ScopeChain := steps.foldl step empty

/-- The walk outward from the innermost open function does not end. -/
def Endless (s : ScopeChain) : Prop := ∀ n, (s.ancestorsUpTo n).length = n

/-- An open function, with the number of steps in front of the one that opened it. -/
structure Entry where
  function : FunctionId
  time : Nat
  deriving Repr, DecidableEq

/-- The stack of open functions behind a step that has the number `time`. -/
def pushed (es : List Entry) (time : Nat) : Step → List Entry
  | .enter f => ⟨f, time⟩ :: es
  | .exit => es.tail

/-- The stack of open functions behind a history, innermost first. -/
def entries (steps : List Step) : List Entry :=
  steps.zipIdx.foldl (fun es x => pushed es x.2 x.1) []

/-- The function of an entry was entered again behind the step that opened it. -/
def Entry.Reentered (e : Entry) (steps : List Step) : Prop :=
  .enter e.function ∈ steps.drop (e.time + 1)

instance (e : Entry) (steps : List Step) : Decidable (e.Reentered steps) :=
  inferInstanceAs (Decidable (_ ∈ _))

/-! ### One step -/

@[simp] lemma run_concat (steps : List Step) (x : Step) :
    run (steps ++ [x]) = (run steps).step x := by
  rw [run, List.foldl_append, List.foldl_cons, List.foldl_nil, run]

@[simp] lemma entries_concat (steps : List Step) (x : Step) :
    entries (steps ++ [x]) = pushed (entries steps) steps.length x := by
  rw [entries, List.zipIdx_append, List.foldl_append, entries]
  simp

/-- The stack of a chain holds the functions of the entries. -/
lemma map_function_entries (steps : List Step) :
    (entries steps).map Entry.function = (run steps).opened := by
  induction steps using List.reverseRecOn with
  | nil => rfl
  | append_singleton steps x ih =>
    rw [entries_concat, run_concat]
    cases x with
    | enter f => rw [pushed, List.map_cons, ih, step, enter]
    | exit => rw [pushed, List.map_tail, ih, step, exit]

lemma length_opened_le (steps : List Step) :
    (run steps).opened.length ≤ (run steps).entered.length := by
  induction steps using List.reverseRecOn with
  | nil => exact Nat.le_refl 0
  | append_singleton steps x ih =>
    rw [run_concat]
    cases x with
    | enter f => exact Nat.succ_le_succ ih
    | exit =>
      have htail : (run steps).opened.tail.length ≤ (run steps).opened.length := by simp
      exact htail.trans ih

lemma time_lt_length {steps : List Step} {e : Entry} (he : e ∈ entries steps) :
    e.time < steps.length := by
  induction steps using List.reverseRecOn with
  | nil => cases he
  | append_singleton steps x ih =>
    rw [List.length_append, List.length_singleton]
    rw [entries_concat] at he
    cases x with
    | enter f =>
      rcases List.mem_cons.1 he with rfl | he
      · exact Nat.lt_succ_self _
      · exact Nat.lt_succ_of_lt (ih he)
    | exit => exact Nat.lt_succ_of_lt (ih (List.mem_of_mem_tail he))

lemma reentered_iff {before after : List Step} {f : FunctionId} :
    Entry.Reentered ⟨f, before.length⟩ (before ++ .enter f :: after) ↔ .enter f ∈ after := by
  rw [Entry.Reentered, List.drop_length_add_append, List.drop_succ_cons, List.drop_zero]

/-! ### Records -/

/-- What a function was entered in is remembered until it is entered again. -/
lemma enclosing?_run {before after : List Step} {f : FunctionId} (h : .enter f ∉ after) :
    (run (before ++ .enter f :: after)).enclosing? f = (run before).innermost? := by
  induction after using List.reverseRecOn with
  | nil =>
    rw [run_concat]
    exact enclosing?_enter_self _ _
  | append_singleton after x ih =>
    rw [List.mem_append, List.mem_singleton, not_or] at h
    rw [← List.cons_append, ← List.append_assoc, run_concat, ← ih h.1]
    cases x with
    | enter g =>
      have hne : f ≠ g := by
        rintro rfl
        exact h.2 rfl
      exact enclosing?_enter_of_ne hne
    | exit => rfl

/-- Of the steps that are equal to a given one, one is the last. -/
lemma exists_last_of_mem {x : Step} {steps : List Step} (h : x ∈ steps) :
    ∃ before after, steps = before ++ x :: after ∧ x ∉ after := by
  obtain ⟨after, before, hsplit, hlast⟩ := List.eq_append_cons_of_mem (List.mem_reverse.2 h)
  refine ⟨before.reverse, after.reverse, ?_, by rwa [List.mem_reverse]⟩
  rw [← List.reverse_reverse steps, hsplit]
  simp

/-! ### The stack over time -/

/-- What is below an entry of the stack was the stack when the entry was opened. -/
lemma exists_before_of_suffix {steps : List Step} {e : Entry} {es : List Entry}
    (h : e :: es <:+ entries steps) :
    ∃ before after, steps = before ++ .enter e.function :: after ∧ before.length = e.time ∧
      entries before = es := by
  induction steps using List.reverseRecOn with
  | nil => exact absurd (List.eq_nil_of_suffix_nil h) (by simp)
  | append_singleton steps x ih =>
    -- the split of a shorter history is one of the longer history
    have hearlier : e :: es <:+ entries steps →
        ∃ before after, steps ++ [x] = before ++ .enter e.function :: after ∧
          before.length = e.time ∧ entries before = es := by
      intro hsuffix
      obtain ⟨before, after, hsteps, htime, hes⟩ := ih hsuffix
      refine ⟨before, after ++ [x], ?_, htime, hes⟩
      rw [hsteps, List.append_assoc, List.cons_append]
    rw [entries_concat] at h
    cases x with
    | enter f =>
      rcases List.suffix_cons_iff.1 h with heq | hsuffix
      · obtain ⟨rfl, rfl⟩ := List.cons_eq_cons.1 heq
        exact ⟨steps, [], rfl, rfl, rfl⟩
      · exact hearlier hsuffix
    | exit => exact hearlier (h.trans (List.tail_suffix _))

/-- An entry that is open behind a history was open all the time since it was opened. -/
lemma mem_entries_of_append {before after : List Step} {e : Entry}
    (htime : e.time < before.length) (he : e ∈ entries (before ++ after)) : e ∈ entries before := by
  induction after using List.reverseRecOn with
  | nil => rwa [List.append_nil] at he
  | append_singleton after x ih =>
    rw [← List.append_assoc, entries_concat] at he
    cases x with
    | enter f =>
      rcases List.mem_cons.1 he with rfl | he
      · simp only [List.length_append] at htime
        omega
      · exact ih he
    | exit => exact ih (List.mem_of_mem_tail he)

/-- While an entry is open, the functions above it on the stack have been entered since. -/
lemma exists_above {before after : List Step} {f : FunctionId}
    (h : ⟨f, before.length⟩ ∈ entries (before ++ .enter f :: after)) :
    ∃ above, entries (before ++ .enter f :: after) = above ++ ⟨f, before.length⟩ :: entries before ∧
      ∀ e ∈ above, .enter e.function ∈ after := by
  induction after using List.reverseRecOn with
  | nil =>
    refine ⟨[], ?_, by simp⟩
    rw [entries_concat, pushed, List.nil_append]
  | append_singleton after x ih =>
    rw [← List.cons_append, ← List.append_assoc, entries_concat] at h ⊢
    cases x with
    | enter g =>
      have hopen : ⟨f, before.length⟩ ∈ entries (before ++ .enter f :: after) := by
        refine (List.mem_cons.1 h).resolve_left fun heq => ?_
        have htime := congrArg Entry.time heq
        simp at htime
      obtain ⟨above, heq, habove⟩ := ih hopen
      refine ⟨⟨g, _⟩ :: above, by rw [pushed, heq, List.cons_append], ?_⟩
      intro e he
      rcases List.mem_cons.1 he with rfl | he
      · simp
      · exact List.mem_append_left _ (habove e he)
    | exit =>
      obtain ⟨above, heq, habove⟩ := ih (List.mem_of_mem_tail h)
      cases above with
      | nil =>
        -- the entry itself is left, and entries below it are older
        rw [pushed, heq, List.nil_append, List.tail_cons] at h
        exact absurd (time_lt_length h) (Nat.lt_irrefl _)
      | cons e above =>
        refine ⟨above, by rw [pushed, heq, List.cons_append, List.tail_cons], fun d hd => ?_⟩
        exact List.mem_append_left _ (habove d (List.mem_cons_of_mem _ hd))

/-! ### The two regimes -/

/-- If no open function has been entered again, the records agree with the stack. -/
lemma linked_run {steps : List Step} (h : ∀ e ∈ entries steps, ¬e.Reentered steps) :
    (run steps).Linked := by
  refine ⟨fun f rest hsuffix => ?_, length_opened_le steps⟩
  rw [← map_function_entries] at hsuffix
  obtain ⟨below, hbelow, hmap⟩ := List.suffix_map_iff.1 hsuffix
  obtain ⟨e, es, rfl, rfl, rfl⟩ := List.map_eq_cons_iff.1 hmap.symm
  have he := h e (hbelow.subset List.mem_cons_self)
  obtain ⟨f, time⟩ := e
  obtain ⟨before, after, rfl, rfl, rfl⟩ := exists_before_of_suffix hbelow
  rw [reentered_iff] at he
  rw [enclosing?_run he, map_function_entries, innermost?]

/-- A walk outward inside a set of functions whose records stay in the set does not end. -/
lemma length_outward_of_closed {s : ScopeChain} {P : FunctionId → Prop}
    (hclosed : ∀ f, P f → ∃ g, s.enclosing? f = some g ∧ P g) {f : FunctionId} (hf : P f)
    (n : Nat) : (s.outward n (some f)).length = n := by
  induction n generalizing f with
  | zero => rfl
  | succ n ih =>
    obtain ⟨g, hg, hPg⟩ := hclosed f hf
    rw [outward, hg, List.length_cons, ih hPg]

/-- While an entry is open, the innermost function is its own or has been entered since. -/
lemma exists_innermost? {before after : List Step} {f : FunctionId}
    (h : ⟨f, before.length⟩ ∈ entries (before ++ .enter f :: after)) :
    ∃ g, (run (before ++ .enter f :: after)).innermost? = some g ∧
      (g = f ∨ .enter g ∈ after) := by
  obtain ⟨above, heq, habove⟩ := exists_above h
  rw [innermost?, ← map_function_entries, heq]
  cases above with
  | nil => exact ⟨f, rfl, .inl rfl⟩
  | cons e above => exact ⟨e.function, rfl, .inr (habove e List.mem_cons_self)⟩

/-- Once the function of an open entry has been entered again, the walk outward does not end. -/
lemma endless_run {steps : List Step} {e : Entry} (he : e ∈ entries steps)
    (hreentered : e.Reentered steps) : (run steps).Endless := by
  obtain ⟨above, below, habove⟩ := List.append_of_mem he
  obtain ⟨f, time⟩ := e
  obtain ⟨before, after, rfl, rfl, -⟩ := exists_before_of_suffix ⟨above, habove.symm⟩
  have hagain : .enter f ∈ after := reentered_iff.1 hreentered
  -- the functions entered since the entry was opened, of which `f` is one
  have hinside : ∀ {part rest : List Step}, after = part ++ rest →
      ∃ g, (run (before ++ .enter f :: part)).innermost? = some g ∧ .enter g ∈ after := by
    intro part rest hafter
    have hlater : ⟨f, before.length⟩ ∈ entries (before ++ .enter f :: part ++ rest) := by
      rw [List.append_assoc, List.cons_append, ← hafter]
      exact he
    have hopen := mem_entries_of_append (by simp) hlater
    obtain ⟨g, hg, rfl | hmem⟩ := exists_innermost? hopen
    · exact ⟨g, hg, hagain⟩
    · exact ⟨g, hg, by rw [hafter]; exact List.mem_append_left _ hmem⟩
  have hclosed : ∀ g, .enter g ∈ after →
      ∃ k, (run (before ++ .enter f :: after)).enclosing? g = some k ∧ .enter k ∈ after := by
    intro g hg
    obtain ⟨part, rest, hafter, hlast⟩ := exists_last_of_mem hg
    obtain ⟨k, hk, hmem⟩ := hinside hafter
    refine ⟨k, ?_, hmem⟩
    rw [hafter, ← List.cons_append, ← List.append_assoc, enclosing?_run hlast, hk]
  obtain ⟨g, hg, hmem⟩ := hinside (List.append_nil after).symm
  intro n
  rw [ancestorsUpTo, hg]
  exact length_outward_of_closed hclosed hmem n

/-- An entry whose function has been entered again stays so. -/
lemma Entry.Reentered.append {e : Entry} {steps : List Step} (h : e.Reentered steps)
    (more : List Step) : e.Reentered (steps ++ more) := by
  rw [Entry.Reentered, List.drop_append]
  exact List.mem_append_left _ h

/-- The walk outward behind any history of steps is in one of two regimes.  If no open function has
been entered again since it was opened, the walk meets the open functions, innermost first, and
ends.  Otherwise it has no end, whatever steps follow, until the entry in question is left.  In both
cases the record of a function names the function that was innermost in front of the last step that
entered it, and leaving a function changes no record. -/
theorem ancestors_two_regimes (steps : List Step) :
    (entries steps).map Entry.function = (run steps).opened ∧
      ((∀ e ∈ entries steps, ¬e.Reentered steps) →
        (run steps).ancestors = (run steps).opened ∧
          ∀ n, (run steps).ancestorsUpTo n = (run steps).opened.take n) ∧
      (∀ e ∈ entries steps, e.Reentered steps →
        ∀ more, e ∈ entries (steps ++ more) → (run (steps ++ more)).Endless) ∧
      (∀ f, .enter f ∈ steps → ∃ before after, steps = before ++ .enter f :: after ∧
        .enter f ∉ after ∧ (run steps).enclosing? f = (run before).innermost?) ∧
      ∀ f, (run (steps ++ [.exit])).enclosing? f = (run steps).enclosing? f := by
  refine ⟨map_function_entries steps, ?_, ?_, ?_, ?_⟩
  · intro h
    have hlinked := linked_run h
    exact ⟨hlinked.ancestors_eq, hlinked.ancestorsUpTo_eq⟩
  · intro e _ hreentered more hopen
    exact endless_run hopen (hreentered.append more)
  · intro f hf
    obtain ⟨before, after, hsteps, hlast⟩ := exists_last_of_mem hf
    refine ⟨before, after, hsteps, hlast, ?_⟩
    rw [hsteps, enclosing?_run hlast]
  · intro f
    rw [run_concat]
    rfl

/-- A function that is entered twice, but never inside itself, does no harm.  One that is entered
inside itself does, though it was left again, until it is left for good. -/
theorem ancestors_two_regimes_reentered :
    let beside : List Step := [.enter 1, .enter 2, .exit, .enter 2]
    let inside : List Step := [.enter 1, .enter 2, .enter 1, .exit, .exit]
    ((∀ e ∈ entries beside, ¬e.Reentered beside) ∧ (run beside).ancestors = [2, 1]) ∧
      (⟨1, 0⟩ ∈ entries inside ∧ Entry.Reentered ⟨1, 0⟩ inside ∧
        ⟨1, 0⟩ ∈ entries (inside ++ [.enter 3]) ∧ (run (inside ++ [.enter 3])).Endless) ∧
      (entries (inside ++ [.exit]) = [] ∧ (run (inside ++ [.exit])).ancestors = []) := by
  intro beside inside
  have hbeside : ∀ e ∈ entries beside, ¬e.Reentered beside := by decide
  have hinside : Entry.Reentered ⟨1, 0⟩ inside := by decide
  have hleft : entries (inside ++ [.exit]) = [] := by decide
  obtain ⟨-, hfinite, -⟩ := ancestors_two_regimes beside
  obtain ⟨-, -, hendless, -⟩ := ancestors_two_regimes inside
  obtain ⟨-, hfinite', -⟩ := ancestors_two_regimes (inside ++ [.exit])
  refine ⟨⟨hbeside, (hfinite hbeside).1⟩, ⟨by decide, hinside, by decide, ?_⟩, hleft, ?_⟩
  · exact hendless ⟨1, 0⟩ (by decide) hinside [.enter 3] (by decide)
  · exact (hfinite' (by rw [hleft]; simp)).1

end IdentityLint.ScopeChain
