import IdentityLint.Proofs.Findings
import IdentityLint.Proofs.Handlers

/-!
# Identity lookups in handlers

A check for identity lookups reports exactly the calls of the forbidden chain that lie inside the
handler of a wrapper call, each once and in pre-order.

What the check knows of the handlers is kept by `HandlerScopes.Knows`.  Besides, a call of the
forbidden chain has no handler of its own, since its callee is not a bare name; so the check may
leave calls that have a handler alone.
-/

namespace IdentityLint.IdentityLookup

open Syntax

variable (c : Conventions) (severity : Severity) (file : SourceFile) (tree : Node)

/-- The node at a place is a call whose callee is a member access that spells the forbidden
chain. -/
def IsLookup (p : Place) : Prop :=
  ∃ callee ∈ p.node.callee?, callee.kind = .memberExpression ∧
    callee.memberChain? = some c.forbiddenCall

/-- The node at a place is an identity lookup inside a handler. -/
def Misplaced (p : Place) : Prop := IsLookup c p ∧ InHandler c tree p

noncomputable instance : DecidablePred (Misplaced c tree) := Classical.decPred _

/-! ### One visit -/

/-- The state behind a place, told by the functions around it. -/
def visitAt (s : State) (p : Place) : State :=
  match p.node.kind with
  | .importDeclaration => { s with scopes := s.scopes.observeImport p.node }
  | .callExpression =>
    match s.scopes.handlerOf? p.node with
    | some f => { s with scopes := s.scopes.insert f }
    | none =>
      if isForbiddenCall c p.node = true ∧ ∃ f ∈ p.functions, f ∈ s.scopes.handlers then
        { s with found := s.found ++ [violation c severity file p.node] }
      else s
  | _ => s

/-- Nothing is lost by leaving early when no handler has been met. -/
lemma visit_eq_visitAt {v : Visit} {p : Place} (hnode : v.node = p.node)
    (hscopes : v.scopes.ancestors = p.functions) (s : State) :
    visit c severity file s v = visitAt c severity file s p := by
  rw [visit, visitAt, Visit.kind, hnode]
  cases p.node.kind with
  | callExpression =>
    rw [visitCall, HandlerScopes.observeCall, hnode]
    cases s.scopes.handlerOf? p.node with
    | some i => rfl
    | none =>
      have hin := s.scopes.isSome_enclosing?_iff v.scopes
      rw [hscopes] at hin
      cases henclosing : s.scopes.enclosing? v.scopes with
      | none =>
        have hout : ¬∃ i ∈ p.functions, i ∈ s.scopes.handlers := by
          rw [← hin, henclosing]
          simp
        simp [henclosing, if_neg (not_and_of_not_right _ hout)]
      | some j =>
        have hinside : ∃ i ∈ p.functions, i ∈ s.scopes.handlers :=
          hin.1 (by rw [henclosing]; rfl)
        have hnonempty : s.scopes.isEmpty = false := by
          obtain ⟨i, -, hi⟩ := hinside
          exact HandlerScopes.isEmpty_eq_false_of_mem hi
        cases isForbiddenCall c p.node <;> simp [henclosing, hinside, hnonempty]
  | _ => rfl

lemma isForbiddenCall_iff (p : Place) : isForbiddenCall c p.node = true ↔ IsLookup c p := by
  rw [isForbiddenCall, IsLookup]
  cases p.node.callee? with
  | none => simp
  | some callee => simp

lemma not_handlerOf_of_isLookup {p : Place} (h : IsLookup c p) (f : Node) :
    ¬HandlerOf c tree p f := by
  obtain ⟨callee, hcallee, hkind, -⟩ := h
  rintro ⟨callee', name, -, -, hcallee', hname, -⟩
  obtain rfl : callee = callee' := Option.some.inj (hcallee.symm.trans hcallee')
  rw [Node.kind, hname] at hkind
  exact absurd hkind (by simp [Form.kind])

lemma not_isLookup_of_kind_ne {p : Place} (hp : p.node.kind ≠ .callExpression) :
    ¬IsLookup c p := by
  rintro ⟨callee, hcallee, -⟩
  rw [Node.callee?_eq_none_of_kind_ne hp] at hcallee
  exact absurd hcallee (by simp)

/-! ### The walk -/

/-- What there is to say about a place. -/
noncomputable def finding? (p : Place) : Option Violation :=
  if Misplaced c tree p then some (violation c severity file p.node) else none

lemma finding?_of_not_isLookup {p : Place} (hp : ¬IsLookup c p) :
    finding? c severity file tree p = none :=
  if_neg fun h => hp h.1

/-- The step at a place: the handlers so far are known, and the findings grow by what there is to
say about the place. -/
lemma visitAt_step (htree : tree.DistinctFunctions) {p : Place} {done rest : List Place}
    (hcut : tree.places = done ++ p :: rest) {s : State}
    (hs : HandlerScopes.Knows c tree done s.scopes) :
    HandlerScopes.Knows c tree (done ++ [p]) (visitAt c severity file s p).scopes ∧
      (visitAt c severity file s p).found =
        s.found ++ (finding? c severity file tree p).toList := by
  by_cases hcall : p.node.kind = .callExpression
  · have himport : p.node.kind ≠ .importDeclaration := by simp [hcall]
    rw [visitAt, hcall]
    cases hhandler : s.scopes.handlerOf? p.node with
    | some i =>
      -- the call has a handler, so it is a bare name that is called and no chain
      obtain ⟨f, hf, -, -⟩ := (hs.handlerOf?_iff hcut).1 hhandler
      have hlookup : ¬IsLookup c p := fun h => not_handlerOf_of_isLookup c tree h f hf
      rw [finding?_of_not_isLookup c severity file tree hlookup]
      exact ⟨hs.insert hcut himport hhandler, (List.append_nil _).symm⟩
    | none =>
      have hmisplaced : (isForbiddenCall c p.node = true ∧
          ∃ i ∈ p.functions, i ∈ s.scopes.handlers) ↔ Misplaced c tree p :=
        and_congr (isForbiddenCall_iff c p) (hs.inHandler_iff hcut htree)
      have hknows := hs.skip hcut himport hhandler
      by_cases hp : Misplaced c tree p
      · rw [finding?, if_pos hp]
        simp only [if_pos (hmisplaced.2 hp)]
        exact ⟨hknows, rfl⟩
      · rw [finding?, if_neg hp]
        simp only [if_neg (mt hmisplaced.1 hp)]
        exact ⟨hknows, (List.append_nil _).symm⟩
  · rw [finding?_of_not_isLookup c severity file tree (not_isLookup_of_kind_ne c hcall)]
    by_cases himport : p.node.kind = .importDeclaration
    · rw [visitAt, himport]
      exact ⟨hs.observeImport hcut himport, (List.append_nil _).symm⟩
    · have hvisit : visitAt c severity file s p = s := by
        rw [visitAt]
        split
        · next h => exact absurd h himport
        · next h => exact absurd h hcall
        · rfl
      rw [hvisit]
      exact ⟨hs.skip hcut himport (HandlerScopes.handlerOf?_of_kind_ne hcall _),
        (List.append_nil _).symm⟩

lemma found_behind_eq (r : Rule) (hr : r.kind = .identityLookup) (htree : tree.DistinctFunctions) :
    ((Check.start r).behind file tree).found =
      tree.places.filterMap (finding? r.conventions r.severity file tree) := by
  rw [Check.found_behind_identityLookup r file hr,
    foldl_eq_of_map_eq (g := visitAt r.conventions r.severity file) htree.map_visitsFrom]
  · exact foldl_emits State.found
      (fun done s => HandlerScopes.Knows r.conventions tree done s.scopes)
      (fun _ _ _ hcut _ hs => visitAt_step r.conventions r.severity file tree htree hcut hs)
      HandlerScopes.knows_new
  · intro s v p hv
    obtain ⟨hnode, hscopes⟩ := Prod.mk.inj hv
    exact visit_eq_visitAt r.conventions r.severity file hnode hscopes s

/-- Outside the exempt file, the check reports the identity lookups inside handlers, in pre-order
and each once.  The functions of the tree have to be told apart by their numbers, as those of every
file are (`SourceFile.distinctFunctions_tree`). -/
theorem found_eq_misplaced_lookups
    (hfile : (Rule.mk .identityLookup c severity).exempts file = false)
    (htree : tree.DistinctFunctions) :
    ∃ check, Check.start? ⟨.identityLookup, c, severity⟩ file = some check ∧
      (check.behind file tree).found =
        (tree.places.filter (Misplaced c tree)).map (fun p => violation c severity file p.node) ∧
      (check.behind file tree).found.map Violation.location =
        (tree.places.filter (Misplaced c tree)).map fun p => file.location p.node := by
  have hfound : ((Check.start ⟨.identityLookup, c, severity⟩).behind file tree).found =
      (tree.places.filter (Misplaced c tree)).map fun p => violation c severity file p.node := by
    rw [found_behind_eq file tree _ rfl htree, ← List.filterMap_eq_map, List.filterMap_filter]
    refine List.filterMap_congr fun p _ => ?_
    rw [finding?]
    simp
  refine ⟨Check.start ⟨.identityLookup, c, severity⟩, Check.start?_of_not_exempt hfile, hfound, ?_⟩
  rw [hfound, List.map_map]
  rfl

/-- Of two lookups, one inside a function inside the handler of a wrapper with another name and one
outside, the first is reported. -/
theorem found_eq_misplaced_lookups_nested :
    let lookup := fun i => Node.mk i .call ⟨i, i + 4⟩
      [.mk (i + 1) (.member (some "getUserIdentity")) ⟨i, i + 3⟩
          [.mk (i + 2) (.member (some "auth")) ⟨i, i + 2⟩
            [.mk (i + 3) (.identifier "ctx") ⟨i, i + 1⟩ []]],
        .mk (i + 4) .arguments ⟨i + 3, i + 4⟩ []]
    let tree := Node.mk 0 .other ⟨0, 30⟩
      [.importing 1 ⟨0, 2⟩ "./auth" "authenticatedQuery" "aq",
        .mk 2 .call ⟨2, 20⟩
          [.mk 3 (.identifier "aq") ⟨2, 3⟩ [],
            .mk 4 .arguments ⟨3, 20⟩
              [.mk 5 .object ⟨3, 20⟩
                [.mk 6 (.pair (some "handler")) ⟨4, 20⟩
                  [.mk 7 .function ⟨5, 20⟩ [.mk 8 .function ⟨6, 20⟩ [lookup 9]]]]]],
        lookup 20]
    let file : SourceFile := ⟨⟨"/repo/convex/notes.ts"⟩, ⟨"convex/notes.ts"⟩, ""⟩
    (Rule.mk .identityLookup .standard .error).exempts file = false ∧ tree.DistinctFunctions ∧
      ((tree.places.filter (Misplaced .standard tree)).map fun p =>
        violation .standard .error file p.node) = [violation .standard .error file (lookup 9)] := by
  intro lookup tree file
  have hfile : (Rule.mk .identityLookup .standard .error).exempts file = false := by
    decide +kernel
  have htree : tree.DistinctFunctions := by decide +kernel
  refine ⟨hfile, htree, ?_⟩
  obtain ⟨check, hcheck, hfound, -⟩ :=
    found_eq_misplaced_lookups .standard .error file tree hfile htree
  obtain rfl : Check.start ⟨.identityLookup, .standard, .error⟩ = check :=
    Option.some.inj ((Check.start?_of_not_exempt hfile).symm.trans hcheck)
  rw [← hfound]
  decide +kernel

end IdentityLint.IdentityLookup
