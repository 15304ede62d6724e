import IdentityLint.Proofs.ImportBindings
import Mathlib.Algebra.Ring.Nat

/-!
# An alias table behind a whole history of imports

A table is shown imports one after the other.  Of all names that they bind, in the order of the
text, those count whose module is accepted and whose exported name is followed (`counted`).  The
table is determined by this list: a name stands for its last entry, nothing is bound exactly if the
list is empty, and the numbers of names recorded add up to its length
(`AliasTable.last_write_wins`).

Which modules are accepted is said by the steps in which the matcher was built
(`ModuleMatcher.Widening`).
-/

namespace IdentityLint

open Syntax

/-! ### Matchers -/

namespace ModuleMatcher

/-- A step that makes a matcher accept more modules. -/
inductive Widening where
  | exactly (paths : List String)
  | containing (fragments : List String)

/-- The matcher behind a step. -/
def widen (m : ModuleMatcher) : Widening → ModuleMatcher
  | .exactly paths => m.exactly paths
  | .containing fragments => m.containing fragments

/-- Does a step bring in a module? -/
def Widening.Admits (source : String) : Widening → Prop
  | .exactly paths => source ∈ paths
  | .containing fragments => ∃ f ∈ fragments, f ≠ "" ∧ Occurs f source

variable {m : ModuleMatcher} {source : String}

lemma accepts_widen (w : Widening) :
    (m.widen w).accepts source = true ↔ m.accepts source = true ∨ w.Admits source := by
  cases w with
  | exactly paths => exact accepts_exactly
  | containing fragments => exact accepts_containing

lemma accepts_foldl_widen (ws : List Widening) :
    (ws.foldl widen m).accepts source = true ↔
      m.accepts source = true ∨ ∃ w ∈ ws, w.Admits source := by
  induction ws generalizing m with
  | nil => simp
  | cons w ws ih =>
    rw [List.foldl_cons, ih, accepts_widen, or_assoc]
    simp

/-- A matcher that was built step by step accepts the paths it was given, and what contains one of
the fragments it was given, empty ones apart. -/
lemma accepts_built_iff (ws : List Widening) :
    (ws.foldl widen empty).accepts source = true ↔
      (∃ paths, .exactly paths ∈ ws ∧ source ∈ paths) ∨
        ∃ fragments, .containing fragments ∈ ws ∧ ∃ f ∈ fragments, f ≠ "" ∧ Occurs f source := by
  rw [accepts_foldl_widen, accepts_empty]
  constructor
  · rintro (h | ⟨w, hw, hadmits⟩)
    · cases h
    · cases w with
      | exactly paths => exact .inl ⟨paths, hw, hadmits⟩
      | containing fragments => exact .inr ⟨fragments, hw, hadmits⟩
  · rintro (⟨paths, hw, hadmits⟩ | ⟨fragments, hw, hadmits⟩)
    · exact .inr ⟨.exactly paths, hw, hadmits⟩
    · exact .inr ⟨.containing fragments, hw, hadmits⟩

end ModuleMatcher

/-! ### The names that count -/

/-- The names that imports bind, in the order of the text, as far as their modules are accepted and
the names they are exported under are among the symbols. -/
def counted (modules : ModuleMatcher) (symbols : List String) (ds : List ImportDecl) :
    List (String × Binding) :=
  (ds.flatMap namesOf).filter fun e =>
    modules.accepts e.2.source = true ∧ e.2.canonical ∈ symbols

section counted

variable {modules : ModuleMatcher} {symbols : List String}

lemma counted_cons (d : ImportDecl) (ds : List ImportDecl) :
    counted modules symbols (d :: ds) =
      counted modules symbols [d] ++ counted modules symbols ds := by
  rw [counted, List.flatMap_cons, List.filter_append, counted, counted, List.flatMap_singleton]

lemma follows_of_mem_counted {ds : List ImportDecl} {e : String × Binding}
    (h : e ∈ counted modules symbols ds) :
    modules.accepts e.2.source = true ∧ e.2.canonical ∈ symbols := by
  simpa using (List.mem_filter.1 h).2

end counted

/-! ### The table -/

namespace AliasTable

variable (t : AliasTable)

/-- The numbers of names that a table records of imports, one after the other. -/
def counts (t : AliasTable) : List ImportDecl → List Nat
  | [] => []
  | d :: ds => t.recorded d :: (t.register d).counts ds

lemma tracked_eq_counted (d : ImportDecl) :
    t.tracked d = counted t.modules t.symbols [d] := by
  rw [tracked_eq, counted, List.flatMap_singleton]
  refine List.filter_congr fun e _ => ?_
  rw [follows, Bool.eq_iff_iff]
  simp

/-- Imports add the names that count to the bindings of a table, and do nothing else. -/
lemma foldl_register_eq (ds : List ImportDecl) :
    ds.foldl register t =
      { t with bindings := (counted t.modules t.symbols ds).reverse ++ t.bindings } := by
  induction ds generalizing t with
  | nil => rfl
  | cons d ds ih =>
    rw [List.foldl_cons, ih, register, tracked_eq_counted, counted_cons d ds, List.reverse_append,
      List.append_assoc]

lemma foldl_register_new (modules : ModuleMatcher) (symbols : List String) (ds : List ImportDecl) :
    ds.foldl register (new modules symbols) =
      ⟨modules, symbols, (counted modules symbols ds).reverse⟩ := by
  rw [foldl_register_eq, new, List.append_nil]

lemma sum_counts (ds : List ImportDecl) :
    (t.counts ds).sum = (counted t.modules t.symbols ds).length := by
  induction ds generalizing t with
  | nil => rfl
  | cons d ds ih =>
    rw [counts, List.sum_cons, ih, recorded, tracked_eq_counted, counted_cons d ds,
      List.length_append]
    rfl

/-- A name is bound only to what is followed. -/
lemma follows_of_binding? {modules : ModuleMatcher} {symbols : List String}
    {ds : List ImportDecl} {name : String} {b : Binding}
    (h : (ds.foldl register (new modules symbols)).binding? name = some b) :
    modules.accepts b.source = true ∧ b.canonical ∈ symbols := by
  rw [foldl_register_new, binding?, lookup_reverse] at h
  obtain ⟨e, he, rfl⟩ := Option.map_eq_some_iff.1 h
  exact follows_of_mem_counted (List.mem_of_mem_filter (List.mem_of_getLast? he))

/-- A table that was shown imports one after the other knows of every name the last binding among
the names that count.  It is empty exactly if none counts, and it has recorded as many as count.
So a name never resolves to anything that is not followed; what does not count has no influence on
the table; and which modules are accepted is up to the steps that built the matcher. -/
theorem last_write_wins (modules : ModuleMatcher) (symbols : List String)
    (ds : List ImportDecl) :
    let t := ds.foldl register (new modules symbols)
    let all := counted modules symbols ds
    (∀ name,
        let last := (all.filter fun e => e.1 = name).getLast?
        t.binding? name = last.map (·.2) ∧ t.resolve? name = last.map (·.2.canonical)) ∧
      (t.isEmpty = true ↔ all = []) ∧
      ((new modules symbols).counts ds).sum = all.length ∧
      (∀ name canonical, t.resolve? name = some canonical → canonical ∈ symbols ∧
        ∃ source, t.binding? name = some ⟨canonical, source⟩ ∧ modules.accepts source = true) ∧
      (∀ ds', counted modules symbols ds' = all → ds'.foldl register (new modules symbols) = t) ∧
      ∀ (ws : List ModuleMatcher.Widening) source,
        (ws.foldl ModuleMatcher.widen .empty).accepts source = true ↔
          (∃ paths, .exactly paths ∈ ws ∧ source ∈ paths) ∨
            ∃ fragments, .containing fragments ∈ ws ∧
              ∃ f ∈ fragments, f ≠ "" ∧ Occurs f source := by
  intro t all
  have ht : t = ⟨modules, symbols, all.reverse⟩ := foldl_register_new modules symbols ds
  refine ⟨fun name => ?_, ?_, sum_counts _ ds, ?_, ?_,
    fun ws _ => ModuleMatcher.accepts_built_iff ws⟩
  · have hlast := lookup_reverse all name
    rw [ht, resolve?, binding?, hlast, Option.map_map]
    exact ⟨rfl, rfl⟩
  · rw [ht, isEmpty, List.isEmpty_reverse, List.isEmpty_iff]
  · intro name canonical h
    obtain ⟨⟨c, source⟩, hb, rfl⟩ := Option.map_eq_some_iff.1 h
    obtain ⟨haccepts, hsymbol⟩ := follows_of_binding? hb
    exact ⟨hsymbol, source, hb, haccepts⟩
  · intro ds' hds'
    rw [foldl_register_new, hds', ht]

/-- A name bound twice in one import, then again by two imports that do not count: the second
binding stays, and without the two imports the table is the same. -/
theorem last_write_wins_overwritten :
    let modules := [ModuleMatcher.Widening.containing ["", "server"], .exactly ["./auth"]].foldl
      ModuleMatcher.widen .empty
    let symbols := ["query", "mutation"]
    let twice : ImportDecl := ⟨"./_generated/server", [⟨"query", "q"⟩, ⟨"mutation", "q"⟩]⟩
    let ds : List ImportDecl := [twice, ⟨"lodash", [⟨"query", "q"⟩]⟩, ⟨"./auth", [⟨"other", "q"⟩]⟩]
    let t := ds.foldl register (new modules symbols)
    t.resolve? "q" = some "mutation" ∧ "mutation" ∈ symbols ∧
      ((new modules symbols).counts ds).sum = 2 ∧
      counted modules symbols [twice] = counted modules symbols ds ∧
      [twice].foldl register (new modules symbols) = t ∧
      modules.accepts "lodash" = false ∧ modules.accepts "./auth" = true := by
  intro modules symbols twice ds t
  obtain ⟨-, -, hcounts, hresolves, hsame, haccepts⟩ := last_write_wins modules symbols ds
  have hresolve : t.resolve? "q" = some "mutation" := by decide +kernel
  have hcounted : counted modules symbols [twice] = counted modules symbols ds := by decide +kernel
  have hauth : modules.accepts "./auth" = true :=
    (haccepts _ "./auth").2 (.inl ⟨["./auth"], by simp, by simp⟩)
  refine ⟨hresolve, (hresolves "q" "mutation" hresolve).1, ?_, hcounted, hsame _ hcounted, ?_,
    hauth⟩
  · rw [hcounts]
    decide +kernel
  · decide +kernel

end AliasTable

end IdentityLint
