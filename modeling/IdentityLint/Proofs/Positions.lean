import IdentityLint.Proofs.Comments
import IdentityLint.Proofs.FilePasses
import IdentityLint.Proofs.StatementLayout

/-!
# Lines and columns

A violation carries an offset and a length in bytes, and the line and column that the offset is at.
Lines are counted twice: the position of a node counts the line feeds in front of it, and directives
are looked for in the lines of the text, which lose a carriage return at their end and of which the
last one may be missing.  Both mean the same line (`Analyzer.exists_span_of_mem_checkSource`): a
violation begins with the first character of a token, which is no blank, so that nothing that lines
lose can hold it.
-/

namespace IdentityLint

open Syntax

namespace Text

/-! ### Bytes -/

/-- The bytes of a text. -/
def bytes (s : List Char) : List UInt8 := s.flatMap String.utf8EncodeChar

lemma bytes_append (s t : List Char) : bytes (s ++ t) = bytes s ++ bytes t := List.flatMap_append

lemma length_bytes (s : List Char) : (bytes s).length = String.utf8Len s := by
  induction s with
  | nil => rfl
  | cons c s ih =>
    rw [← List.singleton_append, bytes_append, List.length_append, ih]
    simp [bytes, String.length_utf8EncodeChar, Nat.add_comm]

lemma data_toUTF8 (s : String) : s.toUTF8.data.toList = bytes s.toList := by
  obtain ⟨cs, rfl⟩ : ∃ cs, s = String.ofList cs := ⟨s.toList, String.ofList_toList.symm⟩
  simp [String.toUTF8, String.toByteArray_ofList, List.utf8Encode, bytes]

/-- The bytes of a text in front of an offset. -/
def bytesBefore (content : String) (offset : Nat) : List UInt8 :=
  content.toUTF8.data.toList.take offset

lemma bytesBefore_utf8Len {content : String} {passed rest : List Char}
    (h : content.toList = passed ++ rest) :
    bytesBefore content (String.utf8Len passed) = bytes passed := by
  rw [bytesBefore, data_toUTF8, h, bytes_append, ← length_bytes, List.take_left]

lemma isValid_utf8Len {content : String} {passed rest : List Char}
    (h : content.toList = passed ++ rest) :
    String.Pos.Raw.IsValid content ⟨String.utf8Len passed⟩ := by
  refine String.Pos.Raw.isValid_iff_exists_append.2
    ⟨String.ofList passed, String.ofList rest, ?_, (String.rawEndPos_ofList passed).symm⟩
  rw [← String.ofList_append, ← h, String.ofList_toList]

/-- Only a line feed has the byte of a line feed. -/
lemma not_mem_utf8EncodeChar {c : Char} (hc : c ≠ '\n') :
    (10 : UInt8) ∉ String.utf8EncodeChar c := by
  have hval : c.val.toNat ≠ 10 := fun h => hc (Char.ext (UInt32.toNat_inj.1 h))
  have hbyte : ∀ n : Nat, (10 : UInt8) = UInt8.ofNat n ↔ 10 = n % 256 := by
    intro n
    rw [← UInt8.toNat_inj, UInt8.toNat_ofNat']
    rfl
  intro h
  rw [String.utf8EncodeChar.eq_1] at h
  split_ifs at h <;> simp only [List.mem_cons, List.not_mem_nil, or_false, hbyte] at h <;> omega

lemma utf8EncodeChar_newline : String.utf8EncodeChar '\n' = [10] := by decide

/-- There are as many bytes of line feeds as there are line feeds. -/
lemma count_bytes (s : List Char) : (bytes s).count 10 = s.count '\n' := by
  induction s with
  | nil => rfl
  | cons c s ih =>
    have hcons : bytes (c :: s) = String.utf8EncodeChar c ++ bytes s := List.flatMap_cons
    rw [hcons, List.count_append, ih]
    by_cases hc : c = '\n'
    · rw [hc, utf8EncodeChar_newline, List.count_cons_self, List.count_cons_self, Nat.add_comm]
      rfl
    · rw [List.count_eq_zero_of_not_mem (not_mem_utf8EncodeChar hc), List.count_cons_of_ne hc,
        Nat.zero_add]

/-! ### Positions -/

namespace Position

/-- Behind some characters, the position has followed them one by one. -/
lemma advance_utf8Len (p : Position) (passed rest : List Char) :
    p.advance (passed ++ rest) (String.utf8Len passed) = passed.foldl next p := by
  induction passed generalizing p with
  | nil => cases rest <;> simp [advance]
  | cons c passed ih =>
    have hpos := c.utf8Size_pos
    rw [List.cons_append, advance, String.utf8Len_cons, if_neg (by omega), Nat.add_sub_cancel, ih]
    rfl

/-- Lines count the line feeds in front, and columns the bytes behind the last one. -/
lemma foldl_next (passed : List Char) :
    passed.foldl next ⟨1, 1⟩ = ⟨1 + (bytes passed).count 10,
      1 + ((bytes passed).reverse.takeWhile (· != 10)).length⟩ := by
  induction passed using List.reverseRecOn with
  | nil => rfl
  | append_singleton passed c ih =>
    rw [List.foldl_append, ih, List.foldl_cons, List.foldl_nil, next, bytes_append]
    have hsingle : bytes [c] = String.utf8EncodeChar c := List.flatMap_singleton _ c
    rw [hsingle]
    by_cases hc : c = '\n'
    · subst hc
      simp [utf8EncodeChar_newline, Nat.add_assoc]
    · have hnone := not_mem_utf8EncodeChar hc
      have hkept : ∀ b ∈ (String.utf8EncodeChar c).reverse, (b != 10) = true := by
        intro b hb
        rw [bne_iff_ne]
        rintro rfl
        exact hnone (List.mem_reverse.1 hb)
      simp only [beq_iff_eq, hc, if_false, List.count_append, List.count_eq_zero_of_not_mem hnone,
        List.reverse_append, List.takeWhile_append_of_pos hkept, List.length_append,
        List.length_reverse, String.length_utf8EncodeChar, Nat.add_zero]
      congr 1
      omega

end Position

/-! ### Lines -/

/-- A text is made of the pieces between its line feeds. -/
lemma exists_splitAt_eq (c : Char) (s : List Char) :
    ∃ init last, splitAt c s = init ++ [last] ∧ s = init.flatMap (· ++ [c]) ++ last ∧
      s.count c = init.length := by
  induction s with
  | nil => exact ⟨[], [], rfl, rfl, rfl⟩
  | cons d s ih =>
    obtain ⟨init, last, hsplit, hs, hcount⟩ := ih
    by_cases hd : d = c
    · subst hd
      refine ⟨[] :: init, last, ?_, ?_, ?_⟩
      · rw [splitAt, if_pos (beq_self_eq_true d), hsplit]
        rfl
      · rw [List.flatMap_cons, hs]
        rfl
      · rw [List.count_cons_self, hcount]
        rfl
    · have hcons : (d :: s).count c = s.count c := List.count_cons_of_ne hd
      rw [splitAt, if_neg (by simpa using hd), hsplit, hcons]
      cases init with
      | nil => exact ⟨[], d :: last, rfl, by rw [hs]; rfl, hcount⟩
      | cons p init => exact ⟨(d :: p) :: init, last, rfl, by rw [hs]; rfl, hcount⟩

lemma splitAt_ne_nil (c : Char) (s : List Char) : splitAt c s ≠ [] :=
  splitAt_eq_splitOn c s ▸ List.splitOn_ne_nil c s

/-- The first piece of a text is its beginning. -/
lemma exists_eq_append_of_splitAt {c : Char} {s first : List Char} {others : List (List Char)}
    (h : splitAt c s = first :: others) : ∃ rest, s = first ++ rest := by
  obtain ⟨init, last, hsplit, hs, -⟩ := exists_splitAt_eq c s
  rw [h] at hsplit
  cases init with
  | nil => exact ⟨[], by simpa [(List.cons.inj hsplit).1] using hs⟩
  | cons p init =>
    rw [(List.cons.inj hsplit).1]
    exact ⟨c :: (init.flatMap (· ++ [c]) ++ last), by simpa using hs⟩

/-- What a line loses at its end is behind every character other than a carriage return. -/
lemma exists_dropReturn_eq {ch : Char} (h : ch ≠ '\r') (front back : List Char) :
    ∃ kept lost, back = kept ++ lost ∧
      dropReturn (front ++ ch :: back) = front ++ ch :: kept := by
  rw [dropReturn]
  split
  · next hlast =>
    rcases List.eq_nil_or_concat' back with rfl | ⟨kept, x, rfl⟩
    · simp [h] at hlast
    · refine ⟨kept, [x], rfl, ?_⟩
      rw [← List.cons_append, ← List.append_assoc, List.dropLast_concat]
  · exact ⟨back, [], (List.append_nil back).symm, rfl⟩

/-- The line of a character that ends no line goes on from the last line feed in front of it. -/
lemma exists_line {ch : Char} (hfeed : ch ≠ '\n') (hreturn : ch ≠ '\r') (passed rest : List Char) :
    ∃ before front back after, passed = before ++ front ∧ rest = back ++ after ∧
      (before = [] ∨ before.getLast? = some '\n') ∧ before.count '\n' = passed.count '\n' ∧
      (lines (passed ++ ch :: rest))[passed.count '\n']? = some (front ++ ch :: back) := by
  obtain ⟨init, front, hpassed, hpieces, hcount⟩ := exists_splitAt_eq '\n' passed
  obtain ⟨first, others, hrest⟩ := List.exists_cons_of_ne_nil (splitAt_ne_nil '\n' rest)
  obtain ⟨tail, htail⟩ := exists_eq_append_of_splitAt hrest
  have hnext : splitAt '\n' (ch :: rest) = (ch :: first) :: others := by
    rw [splitAt, if_neg (by simpa using hfeed), hrest]
  have hall := splitAt_append hpassed hnext
  have hbefore : init.flatMap (· ++ ['\n']) = [] ∨
      (init.flatMap (· ++ ['\n'])).getLast? = some '\n' := by
    rcases List.eq_nil_or_concat' init with rfl | ⟨ps, p, rfl⟩
    · exact Or.inl rfl
    · exact Or.inr (by simp)
  have hfront : '\n' ∉ front :=
    not_mem_of_mem_splitAt (hpassed ▸ by simp : front ∈ splitAt '\n' passed)
  have hfeeds : (init.flatMap (· ++ ['\n'])).count '\n' = passed.count '\n' := by
    have hsum := congrArg (List.count '\n') hpieces
    rw [List.count_append, List.count_eq_zero_of_not_mem hfront] at hsum
    exact hsum.symm
  rw [lines, hall, hcount]
  cases others with
  | nil =>
    refine ⟨_, front, first, tail, hpieces, htail, hbefore, hfeeds.trans hcount, ?_⟩
    simp
  | cons piece others =>
    obtain ⟨kept, lost, hkept, hdropped⟩ := exists_dropReturn_eq hreturn front first
    refine ⟨_, front, kept, lost ++ tail, hpieces, ?_, hbefore, hfeeds.trans hcount, ?_⟩
    · rw [htail, hkept, List.append_assoc]
    · simp [hdropped]

end Text

/-! ### Where violations are -/

namespace Analyzer

variable (a : Analyzer)

/-- Every violation in a file sits at a node below the root that is not empty. -/
lemma exists_node_of_mem_checkSource {path : Path} {content : String} {v : Violation}
    (hv : v ∈ a.checkSource path content) :
    ∃ n, n ∈ Node.preorderAll (SourceFile.new path content a.root).tree.children ∧
      n.isPart = true ∧ n.span.start < n.span.stop ∧
      v.location = (SourceFile.new path content a.root).location n := by
  obtain ⟨r, p, hp, w, hreported, hv⟩ := a.exists_reported_of_mem_checkSource hv
  obtain ⟨target, htarget, hlocation⟩ := hreported.location
  rw [← hv] at hlocation
  -- a call is not the root, which has no kind
  have hcall : p.node ∈ Node.preorderAll (SourceFile.new path content a.root).tree.children := by
    rcases Node.mem_preorder_iff.1 (Node.node_mem_preorder hp) with hroot | hbelow
    · have hkind := hreported.isSpelledCall.kind_eq
      rw [hroot] at hkind
      cases hkind
    · exact hbelow
  have hspans := (wellSpanned_parse _ _).inner (Node.node_mem_preorder hp)
  obtain ⟨callee, hcallee, -, hchain⟩ := hreported.callee
  cases hr : r.kind with
  | rawFactory =>
    rw [hr] at htarget
    obtain rfl : callee = target := Option.some.inj (hcallee.symm.trans htarget)
    have hfirst := Node.find?_of_callee? hcallee
    have hchild := List.mem_of_find?_eq_some hfirst
    obtain ⟨c, hc, hcallc⟩ := Node.mem_preorderAll_iff.1 hcall
    have hcalleec := Node.mem_preorder_trans hcallc (Node.mem_preorder_of_mem_preorderAll
      (Node.mem_preorderAll_of_mem hchild (Node.mem_preorder_self callee)))
    exact ⟨callee, Node.mem_preorderAll_of_mem hc hcalleec, List.find?_some hfirst,
      ((hspans.child hchild).of_memberChain? hchain).1, hlocation⟩
  | identityLookup =>
    rw [hr] at htarget
    obtain rfl : p.node = target := Option.some.inj htarget
    exact ⟨p.node, hcall, Node.isPart_of_kind hreported.isSpelledCall.kind_eq,
      hspans.start_lt_stop hreported.isSpelledCall, hlocation⟩

/-- The span of a violation begins with a character that is no blank, and it ends between
characters. -/
lemma exists_span_of_mem_checkSource {path : Path} {content : String} {v : Violation}
    (hv : v ∈ a.checkSource path content) :
    ∃ passed ch rest, content.toList = passed ++ ch :: rest ∧ isBlank ch = false ∧
      v.location.offset = String.utf8Len passed ∧
      (∃ passed' rest', content.toList = passed' ++ rest' ∧
        v.location.offset + v.location.length = String.utf8Len passed') ∧
      v.location.line = (Text.Position.of content.toList v.location.offset).line ∧
      v.location.column = (Text.Position.of content.toList v.location.offset).column := by
  obtain ⟨n, hn, hpart, hfull, hlocation⟩ := a.exists_node_of_mem_checkSource hv
  have hsits : n.Sits content.toList := sits_of_mem_parse hn
  obtain ⟨⟨rest, start⟩, ⟨passed, htext, hpassed⟩, htoken, rfl⟩ := hsits.opens hpart
  obtain ⟨d, hend, hstop⟩ := hsits.closes hpart
  have hle := hend.offset_le
  obtain ⟨passed', htext', hpassed'⟩ := hend
  simp only [Cursor.start, Nat.zero_add] at htext htext' hpassed hpassed'
  -- the span is not empty, so neither is what follows its beginning
  cases rest with
  | nil =>
    rw [htext, List.append_nil] at hle
    omega
  | cons ch rest =>
    have hlength : n.span.start + n.span.length = n.span.stop := by
      rw [Span.length]
      omega
    rw [hlocation]
    refine ⟨passed, ch, rest, htext, isBlank_of_atToken htoken, hpassed,
      ⟨passed', d.rest, htext', ?_⟩, rfl, rfl⟩
    exact hlength.trans (hstop.symm.trans hpassed')

/-- Offset and length of a violation cut a slice out of the text between characters.  Its line is
one more than the number of line feeds in front of it, and its column one more than the number of
bytes behind the last of them.  The line of the text with this number is the one that holds the
offset, and it is the one whose directive counts there. -/
theorem position_of_mem_checkSource (a : Analyzer) (path : Path) (content : String) (v : Violation)
    (hv : v ∈ a.checkSource path content) :
    (v.location.offset + v.location.length ≤ content.utf8ByteSize ∧
      String.Pos.Raw.IsValid content ⟨v.location.offset⟩ ∧
      String.Pos.Raw.IsValid content ⟨v.location.offset + v.location.length⟩) ∧
    (v.location.line = 1 + (Text.bytesBefore content v.location.offset).count 10 ∧
      v.location.column =
        1 + ((Text.bytesBefore content v.location.offset).reverse.takeWhile (· != 10)).length) ∧
    ∃ before line after, content.toList = before ++ line ++ after ∧
      (before = [] ∨ before.getLast? = some '\n') ∧ before.count '\n' + 1 = v.location.line ∧
      (Text.lines content.toList)[v.location.line - 1]? = some line ∧
      (Directives.scan content).entries.lookup v.location.line = Directive.ofLine? line ∧
      String.utf8Len before ≤ v.location.offset ∧
      v.location.offset < String.utf8Len before + String.utf8Len line := by
  obtain ⟨passed, ch, rest, htext, hblank, hoffset, ⟨passed', rest', htext', hend⟩, hline,
    hcolumn⟩ := a.exists_span_of_mem_checkSource hv
  have hposition : Text.Position.of content.toList v.location.offset =
      passed.foldl Text.Position.next ⟨1, 1⟩ := by
    rw [Text.Position.of, hoffset, htext, Text.Position.advance_utf8Len]
  rw [hposition, Text.Position.foldl_next] at hline hcolumn
  refine ⟨⟨?_, ?_, ?_⟩, ?_, ?_⟩
  · rw [hend, ← String.utf8Len_toList, htext', String.utf8Len_append]
    exact Nat.le_add_right _ _
  · rw [hoffset]
    exact Text.isValid_utf8Len htext
  · rw [hend]
    exact Text.isValid_utf8Len htext'
  · rw [hoffset, Text.bytesBefore_utf8Len htext]
    exact ⟨hline, hcolumn⟩
  · have hends : ch ≠ '\n' ∧ ch ≠ '\r' := by
      constructor <;> rintro rfl <;> exact absurd hblank (by decide)
    obtain ⟨before, front, back, after, hpassed, hrest, hbefore, hcount, hlines⟩ :=
      Text.exists_line hends.1 hends.2 passed rest
    have hnumber : v.location.line = passed.count '\n' + 1 := by
      rw [hline, Text.count_bytes, Nat.add_comm]
    have hdirective : (Directives.scan content).entries.lookup v.location.line =
        Directive.ofLine? (front ++ ch :: back) := by
      rw [Directives.lookup_scan, hnumber, Directives.onLine?, htext, hlines, Option.bind_some]
    refine ⟨before, front ++ ch :: back, after, ?_, hbefore, ?_, ?_, hdirective, ?_, ?_⟩
    · rw [htext, hpassed, hrest]
      simp
    · rw [hcount, hnumber]
    · rw [hnumber, Nat.add_sub_cancel, htext, hlines]
    · rw [hoffset, hpassed, String.utf8Len_append]
      exact Nat.le_add_right _ _
    · have hpos := ch.utf8Size_pos
      rw [hoffset, hpassed, String.utf8Len_append, String.utf8Len_append, String.utf8Len_cons]
      omega

/-- Carriage returns, a line separator and a byte order mark end no line, and the last line is not
ended at all. -/
theorem position_of_mem_checkSource_mixed :
    let content := "\uFEFF//é\r\nimport{query}from\"_generated/server\";\r\u2028query()"
    let a : Analyzer := ⟨⟨"/"⟩, Rule.all .standard, [], ⟨⟨⟨"."⟩, [], true⟩, .standard, []⟩⟩
    let v : Violation :=
      ⟨"AUTH001", "no-raw-convex-function", some "useAuthenticatedQuery", .error,
        ⟨⟨"a.ts"⟩, 2, 42, 50, 5⟩,
        "Use `authenticatedQuery` instead of `query` from `_generated/server`",
        some ("import `authenticatedQuery` from the auth module; its handler receives the " ++
          "resolved identity")⟩
    v ∈ a.checkSource ⟨"/a.ts"⟩ content ∧
      (50 + 5 ≤ content.utf8ByteSize ∧ String.Pos.Raw.IsValid content ⟨50⟩ ∧
        String.Pos.Raw.IsValid content ⟨50 + 5⟩) ∧
      (2 = 1 + (Text.bytesBefore content 50).count 10 ∧
        42 = 1 + ((Text.bytesBefore content 50).reverse.takeWhile (· != 10)).length) ∧
      ∃ before line after, content.toList = before ++ line ++ after ∧
        (before = [] ∨ before.getLast? = some '\n') ∧ before.count '\n' + 1 = 2 ∧
        (Text.lines content.toList)[1]? = some line ∧
        (Directives.scan content).entries.lookup 2 = Directive.ofLine? line ∧
        String.utf8Len before ≤ 50 ∧ 50 < String.utf8Len before + String.utf8Len line := by
  intro content a v
  have hfound : a.checkSource ⟨"/a.ts"⟩ content = [v] := by decide +kernel
  have hv : v ∈ a.checkSource ⟨"/a.ts"⟩ content := by simp [hfound]
  exact ⟨hv, position_of_mem_checkSource a ⟨"/a.ts"⟩ content v hv⟩

end Analyzer

end IdentityLint
