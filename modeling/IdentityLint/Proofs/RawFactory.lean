import IdentityLint.Proofs.Findings
import IdentityLint.Proofs.View

/-!
# Calls of raw factories

A check for raw factories reports exactly the calls whose callee is a bare name that some import
in front of the call binds to a banned factory, each once and in pre-order.  What it reports about
a call is decided by the last such import and by the first entry for the factory.

The invariant of the walk is that the table of the check is the one behind the imports among the
nodes already visited.
-/

namespace IdentityLint.RawFactory

open Syntax

variable (c : Conventions) (severity : Severity) (file : SourceFile) (tree : Node)

/-- The node at a place is a call, its callee is a bare name, and some import in front of the
place binds the name to a banned factory. -/
def CallsFactory (p : Place) : Prop :=
  ∃ callee ∈ p.node.callee?, ∃ e ∈ imported (tree.before p),
    callee.form = .identifier e.1 ∧ IsFactory c e.2

instance : DecidablePred (CallsFactory c tree) := fun p =>
  inferInstanceAs (Decidable (∃ callee ∈ p.node.callee?, ∃ e ∈ imported (tree.before p),
    callee.form = .identifier e.1 ∧ IsFactory c e.2))

/-- The violation sits at the callee of the call at a place.  The last import that binds the
callee's name to a factory says which factory of which module it names, and the factory's first
entry says which wrapper and which message. -/
def Reports (p : Place) (v : Violation) : Prop :=
  ∃ callee name b banned, p.node.callee? = some callee ∧ callee.form = .identifier name ∧
    lastBinding? (IsFactory c) (tree.before p) name = some b ∧
    c.banned.find? (fun e => e.raw = b.canonical) = some banned ∧
    v = violation severity file callee banned b.source ∧
    v.location = file.location callee ∧ v.messageId = some banned.messageId ∧
    v.message = "Use `" ++ banned.wrapper ++ "` instead of `" ++ b.canonical ++ "` from `" ++
      b.source ++ "`"

/-! ### One call -/

/-- Nothing is lost by leaving early when the table is empty, the callee is there when its name is,
and a name that stands for something has a module to name. -/
lemma violation?_eq_some_iff {aliases : AliasTable} {call : Node} {v : Violation} :
    violation? c severity file aliases call = some v ↔
      ∃ callee name b banned, call.callee? = some callee ∧ callee.form = .identifier name ∧
        aliases.binding? name = some b ∧
        c.banned.find? (fun e => e.raw = b.canonical) = some banned ∧
        v = violation severity file callee banned b.source := by
  have hfind : ∀ canonical, c.banned.find? (·.raw == canonical) =
      c.banned.find? (fun e => e.raw = canonical) := fun _ => rfl
  rw [violation?]
  split
  · next hempty =>
    have hnone : ∀ name, aliases.binding? name = none := by
      intro name
      rw [AliasTable.binding?, List.isEmpty_iff.1 hempty]
      rfl
    simp [hnone]
  · simp only [Option.bind_eq_bind, Option.bind_eq_some_iff, Node.calleeName?_eq_some_iff,
      AliasTable.resolve?, Option.map_eq_some_iff, hfind]
    constructor
    · rintro ⟨name, ⟨callee, hcallee, hname⟩, _, ⟨b, hb, rfl⟩, banned, hbanned, again, hagain, hv⟩
      -- the callee is looked up a second time, and is the same
      obtain rfl : callee = again := Option.some.inj (hcallee.symm.trans hagain)
      rw [hb] at hv
      exact ⟨callee, name, b, banned, hcallee, hname, hb, hbanned, (Option.some.inj hv).symm⟩
    · rintro ⟨callee, name, b, banned, hcallee, hname, hb, hbanned, rfl⟩
      refine ⟨name, ⟨callee, hcallee, hname⟩, _, ⟨b, hb, rfl⟩, banned, hbanned, callee, hcallee, ?_⟩
      rw [hb]
      rfl

/-- The table behind the imports in front of a place. -/
def tableAt (p : Place) : AliasTable := (start c).aliases.after (tree.before p)

lemma binding?_tableAt (p : Place) (name : String) :
    (tableAt c tree p).binding? name = lastBinding? (IsFactory c) (tree.before p) name :=
  AliasTable.binding?_after _ _ _ _ (follows_factories_iff c)

lemma reports_of_violation? {p : Place} {v : Violation}
    (h : violation? c severity file (tableAt c tree p) p.node = some v) :
    Reports c severity file tree p v := by
  obtain ⟨callee, name, b, banned, hcallee, hname, hb, hbanned, rfl⟩ :=
    (violation?_eq_some_iff c severity file).1 h
  rw [binding?_tableAt] at hb
  have hraw : banned.raw = b.canonical := by simpa using List.find?_some hbanned
  refine ⟨callee, name, b, banned, hcallee, hname, hb, hbanned, rfl, rfl, rfl, ?_⟩
  rw [violation, hraw]

/-- Every binding that is followed has an entry, so every call of a factory is reported. -/
lemma callsFactory_iff (p : Place) :
    CallsFactory c tree p ↔
      ∃ v, violation? c severity file (tableAt c tree p) p.node = some v := by
  constructor
  · rintro ⟨callee, hcallee, ⟨name, b⟩, hmem, hname, hb⟩
    obtain ⟨b', hb'⟩ := exists_lastBinding?_iff.2 ⟨b, hmem, hb⟩
    -- the binding that counts need not be `b`, but it is one of a factory as well
    obtain ⟨-, -, e, he, hraw⟩ := mem_of_lastBinding? hb'
    obtain ⟨banned, hbanned⟩ : ∃ banned,
        c.banned.find? (fun e => e.raw = b'.canonical) = some banned := by
      rw [← Option.isSome_iff_exists, List.find?_isSome]
      exact ⟨e, he, decide_eq_true hraw⟩
    refine ⟨_, (violation?_eq_some_iff c severity file).2
      ⟨callee, name, b', banned, hcallee, hname, ?_, hbanned, rfl⟩⟩
    rw [binding?_tableAt, hb']
  · rintro ⟨v, hv⟩
    obtain ⟨callee, name, b, -, hcallee, hname, hb, -⟩ :=
      reports_of_violation? c severity file tree hv
    obtain ⟨hmem, hfactory⟩ := mem_of_lastBinding? hb
    exact ⟨callee, hcallee, (name, b), hmem, hname, hfactory⟩

/-! ### The walk -/

lemma violation?_of_kind_ne {aliases : AliasTable} {n : Node} (hn : n.kind ≠ .callExpression) :
    violation? c severity file aliases n = none := by
  refine Option.eq_none_iff_forall_ne_some.2 fun v hv => ?_
  obtain ⟨callee, -, -, -, hcallee, -⟩ := (violation?_eq_some_iff c severity file).1 hv
  rw [Node.callee?_eq_none_of_kind_ne hn] at hcallee
  exact absurd hcallee (by simp)

/-- The step at a place: the table is that behind the imports so far, and the findings grow by what
there is to say about the node. -/
lemma visit_step {p : Place} {done rest : List Place} (h : tree.places = done ++ p :: rest)
    {s : State} (hs : s.aliases = (start c).aliases.after (done.map Place.node)) :
    (visit c severity file s ⟨p.node, .empty⟩).aliases =
        (start c).aliases.after ((done ++ [p]).map Place.node) ∧
      (visit c severity file s ⟨p.node, .empty⟩).found =
        s.found ++ (violation? c severity file (tableAt c tree p) p.node).toList := by
  rw [tableAt, Node.before_eq h, ← hs, List.map_append, List.map_singleton]
  by_cases hcall : p.node.kind = .callExpression
  · rw [AliasTable.after_concat_of_kind_ne _ _ (by simp [hcall]), visit, Visit.kind, hcall]
    exact ⟨hs, rfl⟩
  · rw [violation?_of_kind_ne c severity file hcall, Option.toList_none, List.append_nil]
    by_cases himport : p.node.kind = .importDeclaration
    · rw [AliasTable.after_concat, visit, Visit.kind, himport, ← hs]
      cases p.node.importDecl? <;> exact ⟨rfl, rfl⟩
    · have hvisit : visit c severity file s ⟨p.node, .empty⟩ = s := by
        rw [visit, Visit.kind]
        split
        · next h => exact absurd h himport
        · next h => exact absurd h hcall
        · rfl
      rw [hvisit, AliasTable.after_concat_of_kind_ne _ _ himport]
      exact ⟨hs, rfl⟩

lemma found_behind_eq (r : Rule) (hr : r.kind = .rawFactory) :
    ((Check.start r).behind file tree).found =
      tree.places.filterMap fun p =>
        violation? r.conventions r.severity file (tableAt r.conventions tree p) p.node := by
  rw [Check.found_behind_rawFactory r file hr,
    foldl_eq_of_map_eq (g := fun s p => visit r.conventions r.severity file s ⟨p.node, .empty⟩)
      (Node.map_node_visitsFrom .empty tree)]
  · exact foldl_emits State.found
      (fun done s => s.aliases = (start r.conventions).aliases.after (done.map Place.node))
      (fun _ _ _ h _ hs => visit_step r.conventions r.severity file tree h hs) rfl
  · -- the rule does not look at the scopes of a visit
    rintro s ⟨n, scopes⟩ p rfl
    rfl

/-- Outside the exempt file, the check reports the calls of banned factories, in pre-order and each
once. -/
theorem found_forall₂_callsFactory (hfile : (Rule.mk .rawFactory c severity).exempts file = false) :
    ∃ check, Check.start? ⟨.rawFactory, c, severity⟩ file = some check ∧
      List.Forall₂ (Reports c severity file tree) (tree.places.filter (CallsFactory c tree))
        (check.behind file tree).found := by
  refine ⟨Check.start ⟨.rawFactory, c, severity⟩, Check.start?_of_not_exempt hfile, ?_⟩
  rw [found_behind_eq file tree _ rfl]
  exact forall₂_filterMap (callsFactory_iff c severity file tree)
    (fun _ _ => reports_of_violation? c severity file tree) tree.places

/-- A call inside the arguments of another is reported like that one; a call in front of the import
is not reported. -/
theorem found_forall₂_callsFactory_nested :
    let tree := Node.mk 0 .other ⟨0, 12⟩
      [.mk 1 .call ⟨0, 2⟩ [.mk 2 (.identifier "q") ⟨0, 1⟩ []],
        .importing 3 ⟨2, 6⟩ "./_generated/server" "query" "q",
        .mk 4 .call ⟨6, 12⟩
          [.mk 5 (.identifier "q") ⟨6, 7⟩ [],
            .mk 6 .arguments ⟨7, 12⟩ [.mk 7 .call ⟨8, 11⟩ [.mk 8 (.identifier "q") ⟨8, 9⟩ []]]]]
    let file : SourceFile := ⟨⟨"/repo/convex/notes.ts"⟩, ⟨"convex/notes.ts"⟩, ""⟩
    (Rule.mk .rawFactory .standard .error).exempts file = false ∧
      (tree.places.filter (CallsFactory .standard tree)).map Place.address = [[2], [2, 1, 0]] ∧
      ∃ check, Check.start? ⟨.rawFactory, .standard, .error⟩ file = some check ∧
        List.Forall₂ (Reports .standard .error file tree)
          (tree.places.filter (CallsFactory .standard tree)) (check.behind file tree).found := by
  intro tree file
  have hfile : (Rule.mk .rawFactory .standard .error).exempts file = false := by decide +kernel
  exact ⟨hfile, by decide +kernel, found_forall₂_callsFactory .standard .error file tree hfile⟩

end IdentityLint.RawFactory
