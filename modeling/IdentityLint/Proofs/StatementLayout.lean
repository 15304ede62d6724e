import IdentityLint.Proofs.ExpressionLayout
import IdentityLint.Syntax.Program

/-!
# The layout of programs

The readers of imports, exports and statements lay their nodes in order if the readers of the
grammar do.  So they do at every depth of nesting (`tidy_ofDepth`), and the spans of the tree of a
text are as they should be: whatever the text is, its tree is `WellSpanned`, and each node in it that
is no comment begins with a token.
-/

namespace IdentityLint.Syntax

open Parse Token

namespace Grammar

variable {text : List Char} {g : Grammar}

/-! ### Lists of names -/

instance : Moves semicolon := by
  unfold semicolon
  refine @Moves.orElse _ _ _ inferInstance (Moves.bind fun cs => ?_)
  split
  · infer_instance
  · infer_instance
  · refine Moves.bind fun newline => Moves.bind fun _ => Moves.bind fun _ => ?_
    split
    · infer_instance
    · split <;> infer_instance

instance : Moves endsEntry := by
  unfold endsEntry
  infer_instance

instance : Moves fromClause := by
  unfold fromClause
  infer_instance

lemma reads_listedName : Reads text Prod.snd listedName := by
  refine .orElse (fun _ => .skip fun _ => .result rfl) fun lo => ?_
  refine .here fun s hs hdone => ?_
  refine .bind .named fun x => ?_
  refine (Ensures.closeIdentifier hs).bind fun n => ?_
  exact .joined hdone (.result rfl)

lemma reads_listedPair : Reads text Prod.snd listedPair := by
  intro lo
  refine .read reads_listedName fun name => .orElse ?_ (.result rfl)
  refine .skip fun _ => ?_
  refine .read reads_listedName fun other => ?_
  exact .result rfl

lemma reads_listedEntry : Reads text Prod.snd listedEntry :=
  reads_listedPair.seqRight.seqLeft.orElse reads_listedPair.seqLeft

lemma reads_nameList {p : Parse Forest} (hp : Reads text id p) : Reads text id (nameList p) := by
  intro lo
  refine .skip fun _ => ?_
  refine .read hp.sepEndForests fun entries => ?_
  exact .skip fun _ => .result rfl

/-! ### Imports and exports -/

lemma readsNode_importSpecifier : ReadsNode text importSpecifier := by
  refine .here fun s hs => .opened ?_
  refine .read reads_listedEntry fun entry => ?_
  exact .closePlain hs rfl rfl

lemma readsNode_namedImports : ReadsNode text namedImports := by
  refine .here fun s hs => .opened ?_
  refine .read (reads_nameList readsNode_importSpecifier.single) fun entries => ?_
  exact .closePlain hs rfl rfl

lemma reads_namespaceImport : Reads text (fun n => [n]) namespaceImport := by
  refine fun lo => .skip fun _ => ?_
  exact .skip fun _ => .last ReadsNode.identifierOf.reads fun _ => rfl

lemma readsNode_importClause : ReadsNode text importClause := by
  refine .here fun s hs => .opened ?_
  refine .read (.orElse reads_namespaceImport.single <|
    .orElse readsNode_namedImports.single fun lo => ?_) fun parts => ?_
  · have hmore : Reads text (fun n => [n]) (namespaceImport <|> namedImports) :=
      reads_namespaceImport.orElse readsNode_namedImports.reads
    refine .read ReadsNode.identifierOf.reads fun default => ?_
    refine .read hmore.single.seqRight.optional fun more => ?_
    exact .result rfl
  · exact .closePlain hs rfl rfl

lemma reads_importAlias : Reads text id importAlias := by
  intro lo
  refine .skip fun _ => ?_
  refine .read ReadsNode.identifierOf.reads fun x => ?_
  refine .skip fun _ => ?_
  refine .here fun s hs hdone => ?_
  refine .first .identifierOf fun first => ?_
  refine ensures_path (nestedPath s first) hdone
    (fun hstart hpart => laid_nestedPath hs hstart hpart) fun names => ?_
  refine .skip fun _ => ?_
  exact .result rfl

namespace Tidy

variable (hg : g.Tidy text)

include hg

lemma moduleAttributes : Reads text id g.moduleAttributes :=
  .optional fun _ => .skip fun _ => .last hg.objectLiteral.single fun _ => rfl

lemma importBody : Reads text Prod.snd g.importBody := by
  refine .orElse (fun lo => ?_) (.orElse (fun lo => ?_) fun lo => ?_)
  · refine .read readsNode_importClause.reads fun clause => ?_
    refine .skip fun source => ?_
    refine .read hg.moduleAttributes fun attributes => ?_
    exact .result rfl
  · refine .read ReadsNode.identifierOf.reads fun x => ?_
    refine .skip fun _ => ?_
    refine .skip fun _ => ?_
    refine .skip fun _ => ?_
    refine .skip fun _ => ?_
    refine .skip fun _ => ?_
    exact .result rfl
  · refine .skip fun source => ?_
    refine .read hg.moduleAttributes fun attributes => ?_
    exact .result rfl

lemma importStatement : ReadsNode text g.importStatement := by
  refine .here fun s hs => .opened ?_
  refine .skip fun _ => ?_
  refine .read (hg.importBody.seqRight.seqLeft.orElse hg.importBody.seqLeft) fun body => ?_
  refine .skip fun _ => ?_
  exact .closePlain hs rfl rfl

lemma expressionStatement : Reads text id g.expressionStatement := by
  intro lo
  refine .read hg.expression.reads fun e => ?_
  refine .skip fun _ => ?_
  exact .result rfl

lemma exportStatement {declaration : Parse Forest} (hdeclaration : Reads text id declaration) :
    Reads text id (g.exportStatement declaration) := by
  refine fun lo => .skip fun _ => ?_
  refine .last (.orElse (fun lo => ?_) <| .orElse (fun lo => ?_) <| .orElse (fun lo => ?_) <|
    .orElse (fun lo => ?_) <| .orElse (fun lo => ?_) hdeclaration) fun _ => rfl
  · refine .skip fun _ => ?_
    refine .skip fun _ => ?_
    refine .read (.optional fun lo => ?_) fun name => ?_
    · exact .skip fun _ => .read reads_listedName fun name => .result rfl
    · refine .skip fun _ => ?_
      refine .read hg.moduleAttributes fun attributes => ?_
      refine .skip fun _ => ?_
      exact .result rfl
  · refine .skip fun _ => ?_
    refine .read (reads_nameList fun _ => .read reads_listedEntry fun _ => .result rfl)
      fun names => ?_
    refine .read hg.moduleAttributes.seqRight.optional fun attributes => ?_
    refine .skip fun _ => ?_
    exact .result rfl
  · exact .skip fun _ => .last (hdeclaration.orElse hg.expressionStatement) fun _ => rfl
  · exact .skip fun _ => .last hg.expressionStatement fun _ => rfl
  · refine .skip fun _ => ?_
    refine .skip fun _ => ?_
    refine .read ReadsNode.identifierOf.reads fun x => ?_
    refine .skip fun _ => ?_
    exact .result rfl

/-! ### Declarations -/

lemma declarator : Reads text id g.declarator := by
  intro lo
  refine .read hg.binding fun bound => ?_
  refine .skip fun _ => ?_
  refine .read hg.typed fun type => ?_
  refine .read hg.initializer fun value => ?_
  exact .result rfl

omit hg in
instance : Moves variableWord := by
  unfold variableWord
  refine @Moves.orElse _ _ _ inferInstance (@Moves.orElse _ _ _ inferInstance ?_)
  refine Moves.bind fun _ => Moves.bind fun cs => ?_
  split <;> infer_instance

lemma variableList : Reads text id g.variableList := by
  intro lo
  refine .skip fun _ => ?_
  refine .read hg.declarator.sepBy1Forests fun ds => ?_
  exact .result rfl

lemma functionDeclaration : Reads text id g.functionDeclaration :=
  hg.functionLiteral.single.orElse hg.functionHead.seqLeft

lemma enumMember : Reads text id g.enumMember := by
  intro lo
  refine .read hg.key fun k => ?_
  refine .read hg.initializer fun v => ?_
  exact .result rfl

lemma enumDeclaration : Reads text id g.enumDeclaration := by
  intro lo
  refine .skip fun _ => ?_
  refine .skip fun _ => ?_
  refine .read ReadsNode.identifierOf.reads fun name => ?_
  refine .skip fun _ => ?_
  refine .read hg.enumMember.sepEndForests fun ms => ?_
  refine .skip fun _ => ?_
  exact .result rfl

lemma typeAlias : Reads text id g.typeAlias := by
  intro lo
  refine .skip fun _ => ?_
  refine .skip fun _ => ?_
  refine .read hg.typeParameters.optional fun ts => ?_
  refine .skip fun _ => ?_
  refine .read hg.type fun t => ?_
  refine .skip fun _ => ?_
  exact .result rfl

lemma interfaceDeclaration : Reads text id g.interfaceDeclaration := by
  intro lo
  refine .skip fun _ => ?_
  refine .skip fun _ => ?_
  refine .read hg.typeParameters.optional fun ts => ?_
  refine .read (.optional fun lo => ?_) fun parents => ?_
  · exact .skip fun _ => .read hg.type.sepBy1Forests fun _ => .result rfl
  · refine .read hg.objectType fun body => ?_
    exact .result rfl

lemma namespaceDeclaration : Reads text id g.namespaceDeclaration := by
  intro lo
  refine .skip fun _ => .orElse ?_ ?_
  · exact .skip fun _ => .last (hg.block.orElse .nothing) fun _ => rfl
  · refine .skip fun _ => ?_
    refine .skip fun _ => ?_
    refine .here fun s hs hdone => ?_
    refine .first .identifierOf fun first => ?_
    refine ensures_path (nestedPath s first) hdone
      (fun hstart hpart => laid_nestedPath hs hstart hpart) fun names => ?_
    refine .read hg.block fun body => ?_
    exact .result rfl

lemma plainDeclaration : Reads text id g.plainDeclaration := by
  intro lo
  refine .skip fun w => ?_
  split
  · exact hg.variableList.seqLeft lo
  · exact hg.variableList.seqLeft lo
  · exact hg.enumDeclaration.orElse hg.variableList.seqLeft lo
  · exact hg.functionDeclaration lo
  · exact hg.functionDeclaration lo
  · exact hg.classTail lo
  · exact hg.classTail.seqRight lo
  · exact hg.enumDeclaration lo
  · exact hg.typeAlias lo
  · exact hg.interfaceDeclaration lo
  · exact hg.namespaceDeclaration lo
  · exact hg.namespaceDeclaration lo
  · exact reads_importAlias lo
  · exact .failure
  · refine .skip fun _ => ?_
    exact .skip fun _ => hg.decoratedClass lo

lemma declaration : Reads text id g.declaration := by
  refine .orElse hg.plainDeclaration fun lo => ?_
  exact .skip fun _ => .last (hg.plainDeclaration.orElse hg.block.seqRight) fun _ => rfl

/-! ### Statements -/

lemma condition : Reads text (fun n => [n]) g.condition := by
  intro lo
  refine .skip fun _ => ?_
  refine .read hg.expression.reads fun e => ?_
  refine .skip fun _ => ?_
  exact .result rfl

lemma eachHeader : Reads text id g.eachHeader := by
  intro lo
  refine .read (.orElse (fun lo => ?_) hg.target) fun bound => ?_
  · refine .skip fun _ => ?_
    refine .read hg.binding fun b => ?_
    refine .read hg.typed fun t => ?_
    refine .read hg.initializer fun d => ?_
    exact .result rfl
  · refine .skip fun _ => ?_
    refine .read hg.expression.reads fun e => ?_
    exact .result rfl

lemma countHeader : Reads text id g.countHeader := by
  have hpart := hg.expression.single.optional
  intro lo
  refine .read (hg.variableList.orElse hpart) fun first => ?_
  refine .skip fun _ => ?_
  refine .read hpart fun test => ?_
  refine .skip fun _ => ?_
  refine .read hpart fun step => ?_
  exact .result rfl

lemma forStatement : Reads text id g.forStatement := by
  intro lo
  refine .skip fun _ => ?_
  refine .skip fun _ => ?_
  refine .read (hg.eachHeader.seqRight.seqLeft.orElse hg.countHeader.seqRight.seqLeft)
    fun header => ?_
  refine .read hg.statement fun body => ?_
  exact .result rfl

lemma ifStatement : Reads text id g.ifStatement := by
  intro lo
  refine .skip fun _ => ?_
  refine .read hg.condition fun e => ?_
  refine .read hg.statement fun a => ?_
  refine .read hg.statement.seqRight.optional fun b => ?_
  exact .result rfl

lemma guardedStatement (first : String) : Reads text id (g.guardedStatement first) := by
  intro lo
  refine .skip fun _ => ?_
  refine .read hg.condition fun e => ?_
  refine .read hg.statement fun body => ?_
  exact .result rfl

lemma doStatement : Reads text id g.doStatement := by
  intro lo
  refine .skip fun _ => ?_
  refine .read hg.statement fun body => ?_
  refine .skip fun _ => ?_
  refine .read hg.condition fun e => ?_
  refine .skip fun _ => ?_
  exact .result rfl

lemma switchCase : Reads text id g.switchCase := by
  intro lo
  refine .read (.orElse .nothing fun lo => ?_) fun test => ?_
  · exact .skip fun _ => .last hg.expression.single fun _ => rfl
  · refine .skip fun _ => ?_
    refine .read hg.statement.manyForests fun body => ?_
    exact .result rfl

lemma switchStatement : Reads text id g.switchStatement := by
  intro lo
  refine .skip fun _ => ?_
  refine .read hg.condition fun e => ?_
  refine .skip fun _ => ?_
  refine .read hg.switchCase.manyForests fun cases => ?_
  refine .skip fun _ => ?_
  exact .result rfl

lemma tryStatement : Reads text id g.tryStatement := by
  intro lo
  refine .skip fun _ => ?_
  refine .read hg.block fun body => ?_
  refine .read (.optional fun lo => ?_) fun handler => ?_
  · refine .skip fun _ => ?_
    refine .read (.optional fun lo => ?_) fun bound => ?_
    · refine .skip fun _ => ?_
      refine .read hg.binding fun b => ?_
      refine .read hg.typed fun t => ?_
      refine .skip fun _ => ?_
      exact .result rfl
    · refine .read hg.block fun handled => ?_
      exact .result rfl
  · refine .read hg.block.seqRight.optional fun final => ?_
    exact .result rfl

lemma returnStatement : Reads text id g.returnStatement :=
  fun _ => .skip fun _ => .last (.orElse .nothing hg.expressionStatement) fun _ => rfl

lemma throwStatement : Reads text id g.throwStatement :=
  fun _ => .skip fun _ => .last hg.expressionStatement fun _ => rfl

omit hg in
lemma reads_jumpStatement (first : String) : Reads text id (jumpStatement first) :=
  fun _ => .skip fun _ => .skip fun _ => .skip fun _ => .result rfl

lemma labelledStatement : Reads text id g.labelledStatement :=
  fun _ => .skip fun _ => .skip fun _ => .last hg.statement fun _ => rfl

lemma openStatement : Reads text id g.openStatement :=
  hg.labelledStatement.orElse (hg.declaration.orElse hg.expressionStatement)

lemma decoratedStatement : Reads text id g.decoratedStatement := by
  intro lo
  refine .read hg.decorator.manyForests fun ds => ?_
  refine .read ((hg.exportStatement hg.declaration).orElse hg.decoratedClass) fun rest => ?_
  exact .result rfl

lemma wordStatement (w : String) : Reads text id (g.wordStatement w) := by
  unfold Grammar.wordStatement
  split
  · exact hg.importStatement.single.orElse (reads_importAlias.orElse hg.expressionStatement)
  · exact hg.exportStatement hg.declaration
  · exact hg.ifStatement
  · exact hg.forStatement
  · exact hg.guardedStatement "while"
  · exact hg.guardedStatement "with"
  · exact hg.doStatement
  · exact hg.switchStatement
  · exact hg.tryStatement
  · exact hg.returnStatement
  · exact hg.throwStatement
  · exact reads_jumpStatement "break"
  · exact reads_jumpStatement "continue"
  · exact .nothing
  · exact hg.openStatement

lemma anyStatement : Reads text id g.anyStatement := by
  intro lo
  refine .skip fun cs => ?_
  split
  · exact .failure
  · exact Reads.nothing lo
  · exact hg.block.orElse hg.expressionStatement lo
  · exact hg.decoratedStatement lo
  · refine .skip fun w => ?_
    split
    · exact hg.wordStatement _ lo
    · exact hg.expressionStatement lo

end Tidy

/-! ### All levels of nesting -/

lemma tidy_empty (jsx : Bool) : (empty jsx).Tidy text where
  expression := .failure
  assignment := .failure
  branch := .failure
  primary := .failure
  operand := .failure
  statement _ := .failure
  type _ := .failure
  binding _ := .failure
  target _ := .failure
  element := .failure

/-- However deep constructs are nested, the readers lay their nodes in order. -/
lemma tidy_ofDepth (jsx : Bool) (depth : Nat) : (ofDepth jsx depth).Tidy text := by
  induction depth with
  | zero => exact tidy_empty jsx
  | succ depth ih =>
    exact
      { expression := ih.commaExpression
        assignment := ih.assignmentExpression
        branch := ih.branchExpression
        primary := ih.primaryExpression
        operand := ih.operandExpression
        statement := ih.anyStatement
        type := ih.anyType
        binding := ih.bindingPattern
        target := ih.targetPattern
        element := ih.elementNode }

end Grammar

/-! ### The tree of a text -/

instance : Moves skipInterpreterLine where
  reaches := by
    intro c _ d h
    rw [skipInterpreterLine] at h
    split at h
    · cases h
      exact Cursor.reaches_advance _ c
    · cases h
      rfl

lemma reads_program {text : List Char} {g : Grammar} (hg : g.Tidy text) :
    Reads text id (program g) := by
  intro lo
  refine .skip fun _ => ?_
  refine .read hg.statement.manyForests fun statements => ?_
  exact .result rfl

namespace Node

/-- What the spans of a tree are judged by at a node, besides its children. -/
def outline (n : Node) : Form × Span := (n.form, n.span)

/-- Two nodes with the same form, span and children, as far as spans go. -/
structure SameOutline (m n : Node) : Prop where
  outline : m.outline = n.outline
  children : m.children.map Node.outline = n.children.map Node.outline

lemma outline_numberFrom (i : Nat) (n : Node) : (numberFrom i n).1.outline = n.outline := by
  cases n
  rfl

lemma map_outline_numberAllFrom (i : Nat) (ns : Forest) :
    (numberAllFrom i ns).1.map outline = ns.map outline := by
  induction ns generalizing i with
  | nil => rfl
  | cons n ns ih => simp only [numberAllFrom, List.map_cons, outline_numberFrom, ih]

lemma sameOutline_numberFrom (i : Nat) (n : Node) : (numberFrom i n).1.SameOutline n := by
  cases n
  exact ⟨rfl, map_outline_numberAllFrom (i + 1) _⟩

mutual
/-- Numbering changes no node but for its number. -/
lemma exists_sameOutline_of_mem_numberFrom : ∀ (i : Nat) (n : Node) {x : Node},
    x ∈ (numberFrom i n).1.preorder → ∃ y ∈ n.preorder, x.SameOutline y
  | i, mk j f s cs, x, hx => by
    rcases mem_preorder_iff.1 hx with rfl | hx
    · exact ⟨_, mem_preorder_self _, sameOutline_numberFrom i (mk j f s cs)⟩
    · obtain ⟨y, hy, hxy⟩ := exists_sameOutline_of_mem_numberAllFrom (i + 1) cs hx
      exact ⟨y, mem_preorder_of_mem_preorderAll hy, hxy⟩
lemma exists_sameOutline_of_mem_numberAllFrom : ∀ (i : Nat) (ns : Forest) {x : Node},
    x ∈ preorderAll (numberAllFrom i ns).1 → ∃ y ∈ preorderAll ns, x.SameOutline y
  | i, [], x, hx => by cases hx
  | i, n :: ns, x, hx => by
    rcases List.mem_append.1 hx with hx | hx
    · obtain ⟨y, hy, hxy⟩ := exists_sameOutline_of_mem_numberFrom i n hx
      exact ⟨y, List.mem_append_left _ hy, hxy⟩
    · obtain ⟨y, hy, hxy⟩ := exists_sameOutline_of_mem_numberAllFrom _ ns hx
      exact ⟨y, List.mem_append_right _ hy, hxy⟩
end

namespace SameOutline

variable {x y : Node} (h : x.SameOutline y)

include h

lemma form : x.form = y.form := congrArg Prod.fst h.outline

lemma span : x.span = y.span := congrArg Prod.snd h.outline

lemma exists_child {c : Node} (hc : c ∈ x.children) : ∃ d ∈ y.children, c.outline = d.outline := by
  have hmem : c.outline ∈ y.children.map Node.outline := h.children ▸ List.mem_map_of_mem hc
  obtain ⟨d, hd, hcd⟩ := List.mem_map.1 hmem
  exact ⟨d, hd, hcd.symm⟩

lemma exists_firstPart {c : Node} (hc : x.children.find? isPart = some c) :
    ∃ d, y.children.find? isPart = some d ∧ c.outline = d.outline := by
  have hfirst : ∀ ns : Forest, (ns.map Node.outline).find? (fun o => o.1 != .comment) =
      (ns.find? isPart).map Node.outline := fun _ => List.find?_map
  have hy := hfirst y.children
  rw [← h.children, hfirst, hc] at hy
  obtain ⟨d, hd, hcd⟩ := Option.map_eq_some_iff.1 hy.symm
  exact ⟨d, hd, hcd.symm⟩

lemma spanned (hy : y.Spanned) : x.Spanned where
  ordered := by
    have hordered : ∀ ns : Forest,
        (ns.map Node.outline).Pairwise (fun o p => o.2.stop ≤ p.2.start) ↔
          ns.Pairwise (fun c d => c.span.stop ≤ d.span.start) := by
      intro ns
      rw [List.pairwise_map]
      rfl
    rw [← hordered, h.children, hordered]
    exact hy.ordered
  inside c hc := by
    obtain ⟨d, hd, hcd⟩ := h.exists_child hc
    have hspan : c.span = d.span := congrArg Prod.snd hcd
    rw [h.span, hspan]
    exact hy.inside d hd
  call c hc := by
    obtain ⟨d, hd, hcd⟩ := h.exists_firstPart (find?_of_callee? hc)
    have hspan : c.span = d.span := congrArg Prod.snd hcd
    have hcallee : y.callee? = some d := by
      rw [Option.mem_def, callee?] at hc
      split at hc
      · next hform => rw [callee?, ← h.form, hform, hd]
      · cases hc
    rw [h.span, hspan]
    exact hy.call d hcallee
  member hkind c hc := by
    obtain ⟨d, hd, hcd⟩ := h.exists_firstPart hc
    have hspan : c.span = d.span := congrArg Prod.snd hcd
    rw [h.span, hspan]
    exact hy.member (by rwa [kind, ← h.form]) d hd
  parens hform c hc := by
    obtain ⟨d, hd, hcd⟩ := h.exists_child hc
    have hspan : c.span = d.span := congrArg Prod.snd hcd
    rw [h.span, hspan]
    exact hy.parens (h.form ▸ hform) d hd
  name hkind := by
    obtain ⟨hleaf, hfull⟩ := hy.name (by rwa [kind, ← h.form])
    refine ⟨?_, h.span ▸ hfull⟩
    rw [← List.map_eq_nil_iff (f := Node.outline), h.children, hleaf, List.map_nil]

lemma sits {text : List Char} (hy : y.Sits text) : x.Sits text where
  spanned := h.spanned hy.spanned
  opens hpart := h.span ▸ hy.opens (by rwa [isPart, ← h.form])
  closes hpart := h.span ▸ hy.closes (by rwa [isPart, ← h.form])

end SameOutline

end Node

/-- The nodes of the statements of a text lie inside of it. -/
lemma laid_program {text : List Char} {g : Grammar} (hg : g.Tidy text) {ns : Forest} {d : Cursor}
    (h : program g (.start text) = some (ns, d)) : Laid text 0 (String.utf8Len text) ns := by
  obtain ⟨hreach, hlaid⟩ := (reads_program hg).laid (.refl _) h
  exact hlaid.widen_right (Cursor.Within.offset_le hreach)

/-- The tree of a text before it is numbered. -/
lemma exists_laid_parse (jsx : Bool) (source : String) :
    ∃ ns, Node.parse jsx source = (Node.mk 0 .other ⟨0, source.utf8ByteSize⟩ ns).numbered ∧
      Laid source.toList 0 source.utf8ByteSize ns := by
  refine ⟨_, rfl, ?_⟩
  split
  · next ns d h =>
    rw [← String.utf8Len_toList]
    exact laid_program (Grammar.tidy_ofDepth jsx _) h
  · exact .nil (Nat.zero_le _)

/-- All nodes below the root of the tree of a text are where they were read. -/
lemma sits_of_mem_parse {jsx : Bool} {source : String} {x : Node}
    (hx : x ∈ Node.preorderAll (Node.parse jsx source).children) : x.Sits source.toList := by
  obtain ⟨ns, hparse, hlaid⟩ := exists_laid_parse jsx source
  rw [hparse] at hx
  obtain ⟨y, hy, hxy⟩ := Node.exists_sameOutline_of_mem_numberAllFrom 1 ns hx
  obtain ⟨n, hn, hyn⟩ := Node.mem_preorderAll_iff.1 hy
  exact hxy.sits (hlaid.placed n hn y hyn)

/-- The spans of the tree of a text are as a parser makes them, whatever the text is. -/
lemma wellSpanned_parse (jsx : Bool) (source : String) : (Node.parse jsx source).WellSpanned := by
  intro x hx
  rcases Node.mem_preorder_iff.1 hx with rfl | hx
  · obtain ⟨ns, hparse, hlaid⟩ := exists_laid_parse jsx source
    have hroot : (Node.mk 0 .other ⟨0, source.utf8ByteSize⟩ ns).Spanned :=
      spanned_of_isPlain rfl hlaid.spread
    rw [hparse]
    exact (Node.sameOutline_numberFrom 0 _).spanned hroot
  · exact (sits_of_mem_parse hx).spanned

end IdentityLint.Syntax
