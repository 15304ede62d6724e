import IdentityLint.Directive
import IdentityLint.Proofs.TextParts
import Mathlib.Data.Set.Basic
import Mathlib.Order.Minimal

/-!
# The grammar of allow directives

A line holds a directive if the marker occurs somewhere in it behind the beginning of a comment
(`OpensComment`) and in front of a text that spells one (`Spells`).  Of several such occurrences the
first counts.  Directives are read exactly by this grammar, and a directive that is written in a
comment is read back.
-/

namespace IdentityLint.Directive

open Text

/-! ### The grammar -/

/-- A comment opens at the end of a text, blanks apart: with two slashes, or with a slash and one
or more stars. -/
def OpensComment (before : List Char) : Prop :=
  ∃ code blanks, Blank blanks ∧
    (before = code ++ ['/', '/'] ++ blanks ∨
      ∃ stars, before = code ++ '/' :: List.replicate (stars + 1) '*' ++ blanks)

/-- A comma-separated list has a name for an item, possibly with blanks around it. -/
def Lists (list : List Char) (name : String) : Prop :=
  name ≠ "" ∧ ∃ item ∈ list.splitOn ',', TrimsTo item name.toList

/-- A reason in quotes stands at the beginning of a text, blanks apart. -/
def GivesReason (rest : List Char) (reason : String) : Prop :=
  ∃ blanks gap back, Blank blanks ∧ Blank gap ∧ '"' ∉ reason.toList ∧
    rest = blanks ++ "reason=".toList ++ gap ++ '"' :: reason.toList ++ '"' :: back

/-- A text behind a marker allows some rules, at least one, possibly for a reason. -/
def Spells (body : List Char) (rules : Set String) (reason : Option String) : Prop :=
  ∃ blanks list rest, Blank blanks ∧ ')' ∉ list ∧
    body = blanks ++ "allow(".toList ++ list ++ ')' :: rest ∧
    rules = {name | Lists list name} ∧ rules.Nonempty ∧
    ∀ text, reason = some text ↔ GivesReason rest text

/-- The marker occurs in a line behind `before` and introduces a directive. -/
def Introduces (line before : List Char) (rules : Set String) (reason : Option String) : Prop :=
  ∃ body, line = before ++ marker ++ body ∧ OpensComment before ∧ Spells body rules reason

/-! ### Comments -/

/-- Behind blanks, the text backwards begins with two slashes, or with stars and a slash. -/
lemma opensComment_append {blanks inner : List Char} (hblanks : Blank blanks)
    (hinner : ∀ c ∈ inner.head?, isSpace c = false) :
    opensComment (blanks ++ inner) = true ↔
      (∃ code, inner = '/' :: '/' :: code) ∨
        ∃ stars code, inner = List.replicate (stars + 1) '*' ++ '/' :: code := by
  have hdrop : (blanks ++ inner).dropWhile isSpace = inner := trimStart_append hblanks hinner
  simp only [opensComment, hdrop]
  by_cases hstar : ∃ rest, inner = '*' :: rest
  · obtain ⟨rest, rfl⟩ := hstar
    have hshorter : (('*' :: rest).dropWhile (· == '*')).length < ('*' :: rest).length := by
      rw [List.dropWhile_cons_of_pos (by simp), List.length_cons]
      exact Nat.lt_succ_of_le (List.dropWhile_sublist _).length_le
    rw [if_pos hshorter, beq_iff_eq, head?_dropWhile_eq_some_iff (by decide)]
    constructor
    · rintro ⟨n, code, h⟩
      cases n with
      | zero => simp at h
      | succ n => exact .inr ⟨n, code, h⟩
    · rintro (⟨code, h⟩ | ⟨stars, code, h⟩)
      · simp at h
      · exact ⟨stars + 1, code, h⟩
  · have hsame : inner.dropWhile (· == '*') = inner := by
      cases inner with
      | nil => rfl
      | cons c inner =>
        refine List.dropWhile_cons_of_neg fun hc => hstar ⟨inner, ?_⟩
        rw [beq_iff_eq.1 hc]
    rw [hsame, if_neg (Nat.lt_irrefl _), List.isPrefixOf_iff_prefix]
    constructor
    · rintro ⟨code, h⟩
      exact .inl ⟨code, h.symm⟩
    · rintro (⟨code, h⟩ | ⟨stars, code, h⟩)
      · exact ⟨code, h.symm⟩
      · exact absurd ⟨_, h⟩ hstar

lemma opensComment_iff {before : List Char} :
    opensComment before.reverse = true ↔ OpensComment before := by
  constructor
  · intro h
    obtain ⟨blanks, hblanks, hbefore⟩ := exists_eq_append_trimStart before.reverse
    rw [hbefore, opensComment_append hblanks (head_trimStart _)] at h
    have hback : before = (trimStart before.reverse).reverse ++ blanks.reverse := by
      rw [← List.reverse_append, ← hbefore, List.reverse_reverse]
    rcases h with ⟨code, h⟩ | ⟨stars, code, h⟩
    · refine ⟨code.reverse, blanks.reverse, hblanks.reverse, .inl ?_⟩
      rw [hback, h]
      simp
    · refine ⟨code.reverse, blanks.reverse, hblanks.reverse, .inr ⟨stars, ?_⟩⟩
      rw [hback, h]
      simp
  · rintro ⟨code, blanks, hblanks, rfl | ⟨stars, rfl⟩⟩
    · have hback : (code ++ ['/', '/'] ++ blanks).reverse =
          blanks.reverse ++ '/' :: '/' :: code.reverse := by simp
      rw [hback, opensComment_append hblanks.reverse (by rintro c ⟨⟩; decide)]
      exact .inl ⟨code.reverse, rfl⟩
    · have hback : (code ++ '/' :: List.replicate (stars + 1) '*' ++ blanks).reverse =
          blanks.reverse ++ (List.replicate (stars + 1) '*' ++ '/' :: code.reverse) := by simp
      rw [hback, opensComment_append hblanks.reverse (by rintro c ⟨⟩; decide)]
      exact .inr ⟨stars, code.reverse, rfl⟩

/-! ### Names and reasons -/

lemma mem_names_iff {list : List Char} {name : String} : name ∈ names list ↔ Lists list name := by
  simp only [names, Lists, List.mem_map, List.mem_filter, splitAt_eq_splitOn]
  constructor
  · rintro ⟨core, ⟨⟨item, hitem, rfl⟩, hne⟩, rfl⟩
    refine ⟨?_, item, hitem, ?_⟩
    · simpa [← String.toList_eq_nil_iff] using hne
    · rw [String.toList_ofList]
      exact trimsTo_trim item
  · rintro ⟨hne, item, hitem, htrims⟩
    refine ⟨name.toList, ⟨⟨item, hitem, trim_eq_iff.2 htrims⟩, ?_⟩, String.ofList_toList⟩
    simpa using hne

lemma names_trimStart (list : List Char) : names (trimStart list) = names list := by
  obtain ⟨blanks, hblanks, hlist⟩ := exists_eq_append_trimStart list
  have h := map_trim_splitAt_append (c := ',') (by decide) hblanks (trimStart list)
  rw [← hlist] at h
  rw [names, ← h, names]

lemma reason?_trimEnd (rest : List Char) : reason? (trimEnd rest) = reason? rest := by
  rw [reason?, trim_trimEnd, reason?]

lemma reason?_eq_some_iff {rest : List Char} {reason : String} :
    reason? rest = some reason ↔ GivesReason rest reason := by
  have hword : Trimmed "reason=".toList := by decide
  have hquote : Trimmed ['"'] := by decide
  have hcut := cut?_trimEnd (c := '"') (by decide)
  simp only [reason?, Option.bind_eq_bind, Option.bind_eq_some_iff]
  constructor
  · rintro ⟨value, hvalue, quoted, hquoted, ⟨text, tail⟩, htext, hreason⟩
    obtain ⟨blanks, back, hblanks, rfl, rfl⟩ :=
      (after?_trim_eq_some_iff hword (by decide)).1 hvalue
    rw [trim_trimEnd] at hquoted
    obtain ⟨gap, back, hgap, rfl, rfl⟩ := (after?_trim_eq_some_iff hquote (by decide)).1 hquoted
    rw [hcut, Option.map_eq_some_iff] at htext
    obtain ⟨⟨front, behind⟩, hfront, heq⟩ := htext
    obtain ⟨rfl, rfl⟩ := Prod.mk.inj heq
    obtain ⟨rfl, hnot⟩ := cut?_eq_some_iff.1 hfront
    obtain rfl : String.ofList front = reason := Option.some.inj hreason
    exact ⟨blanks, gap, behind, hblanks, hgap, by simpa using hnot, by simp⟩
  · rintro ⟨blanks, gap, back, hblanks, hgap, hnot, rfl⟩
    refine ⟨_, (after?_trim_eq_some_iff hword (by decide)).2
      ⟨blanks, gap ++ ['"'] ++ (reason.toList ++ '"' :: back), hblanks, by simp, rfl⟩, ?_⟩
    rw [trim_trimEnd]
    refine ⟨_, (after?_trim_eq_some_iff hquote (by decide)).2 ⟨gap, _, hgap, rfl, rfl⟩,
      (reason.toList, trimEnd back), ?_, ?_⟩
    · rw [hcut, cut?_append hnot]
      rfl
    · exact congrArg some String.ofList_toList

/-! ### Bodies -/

/-- The list of a directive ends at the first closing parenthesis. -/
lemma ofBody?_eq_some_iff {body : List Char} {d : Directive} :
    ofBody? body = some d ↔ ∃ blanks list rest, Blank blanks ∧ ')' ∉ list ∧
      body = blanks ++ "allow(".toList ++ list ++ ')' :: rest ∧ names list ≠ [] ∧
      d = ⟨names list, reason? rest⟩ := by
  have hword : Trimmed "allow(".toList := by decide
  have hcut := cut?_trim (c := ')') (by decide)
  simp only [ofBody?, Option.bind_eq_bind, Option.bind_eq_some_iff]
  constructor
  · rintro ⟨allowed, hallowed, ⟨list', rest'⟩, hlist, hd⟩
    obtain ⟨blanks, back, hblanks, rfl, rfl⟩ :=
      (after?_trim_eq_some_iff hword (by decide)).1 hallowed
    rw [trim_trimEnd, hcut, Option.map_eq_some_iff] at hlist
    obtain ⟨⟨list, rest⟩, hlist, heq⟩ := hlist
    obtain ⟨rfl, rfl⟩ := Prod.mk.inj heq
    obtain ⟨rfl, hnot⟩ := cut?_eq_some_iff.1 hlist
    rw [names_trimStart, reason?_trimEnd, Option.ite_none_left_eq_some, List.isEmpty_iff] at hd
    exact ⟨blanks, list, rest, hblanks, hnot, by simp, hd.1, (Option.some.inj hd.2).symm⟩
  · rintro ⟨blanks, list, rest, hblanks, hnot, rfl, hne, rfl⟩
    refine ⟨_, (after?_trim_eq_some_iff hword (by decide)).2
      ⟨blanks, list ++ ')' :: rest, hblanks, by simp, rfl⟩, (trimStart list, trimEnd rest), ?_, ?_⟩
    · rw [trim_trimEnd, hcut, cut?_append hnot]
      rfl
    · rw [names_trimStart, reason?_trimEnd, Option.ite_none_left_eq_some, List.isEmpty_iff]
      exact ⟨hne, rfl⟩

/-- A body is read as a directive exactly by the grammar. -/
lemma exists_ofBody?_iff {body : List Char} {rules : Set String} {reason : Option String} :
    (∃ d, ofBody? body = some d ∧ {name | name ∈ d.rules} = rules ∧ d.reason = reason) ↔
      Spells body rules reason := by
  constructor
  · rintro ⟨d, hd, rfl, rfl⟩
    obtain ⟨blanks, list, rest, hblanks, hnot, hbody, hne, rfl⟩ := ofBody?_eq_some_iff.1 hd
    refine ⟨blanks, list, rest, hblanks, hnot, hbody, Set.ext fun _ => mem_names_iff, ?_,
      fun _ => reason?_eq_some_iff⟩
    exact List.exists_mem_of_ne_nil _ hne
  · rintro ⟨blanks, list, rest, hblanks, hnot, hbody, rfl, ⟨name, hname⟩, hreason⟩
    have hne : names list ≠ [] := List.ne_nil_of_mem (mem_names_iff.2 hname)
    refine ⟨⟨names list, reason? rest⟩,
      ofBody?_eq_some_iff.2 ⟨blanks, list, rest, hblanks, hnot, hbody, hne, rfl⟩,
      Set.ext fun _ => mem_names_iff, Option.ext fun text => ?_⟩
    exact reason?_eq_some_iff.trans (hreason text).symm

/-! ### Lines -/

/-- The directive that is read at a place of a line, given the text in front of the place and the
text behind it. -/
def at? (before text : List Char) : Option Directive :=
  (after? marker text).bind fun body => if opensComment before.reverse then ofBody? body else none

lemma at?_nil (before : List Char) : at? before [] = none := rfl

lemma search_cons (before : List Char) (c : Char) (rest : List Char) :
    search before.reverse (c :: rest) =
      (at? before (c :: rest)).or (search (before ++ [c]).reverse rest) := by
  rw [search, List.reverse_append, List.reverse_singleton, List.singleton_append, at?]
  cases after? marker (c :: rest) with
  | none => rfl
  | some body =>
    cases opensComment before.reverse with
    | false => rfl
    | true => cases hbody : ofBody? body <;> simp [hbody]

/-- The search stops at the first place where a directive is read. -/
lemma search_eq_some_iff {before text : List Char} {d : Directive} :
    search before.reverse text = some d ↔
      ∃ front rest, text = front ++ rest ∧ at? (before ++ front) rest = some d ∧
        ∀ front' rest', text = front' ++ rest' → front'.length < front.length →
          at? (before ++ front') rest' = none := by
  induction text generalizing before with
  | nil =>
    constructor
    · rintro ⟨⟩
    · rintro ⟨front, rest, htext, hd, -⟩
      rw [(List.append_eq_nil_iff.1 htext.symm).2, at?_nil] at hd
      cases hd
  | cons c text ih =>
    rw [search_cons, Option.or_eq_some_iff, ih]
    constructor
    · rintro (hd | ⟨hnone, front, rest, rfl, hd, hfirst⟩)
      · exact ⟨[], c :: text, rfl, by rwa [List.append_nil], fun _ _ _ h => absurd h (by simp)⟩
      · refine ⟨c :: front, rest, rfl, by rwa [List.append_cons], ?_⟩
        intro front' rest' htext hlength
        cases front' with
        | nil =>
          obtain rfl : c :: (front ++ rest) = rest' := htext
          rwa [List.append_nil]
        | cons e front' =>
          obtain ⟨rfl, hrest⟩ := List.cons.inj htext
          rw [List.append_cons]
          exact hfirst front' rest' hrest (Nat.lt_of_succ_lt_succ hlength)
    · rintro ⟨front, rest, htext, hd, hfirst⟩
      cases front with
      | nil =>
        obtain rfl : c :: text = rest := htext
        rw [List.append_nil] at hd
        exact .inl hd
      | cons e front =>
        obtain ⟨rfl, rfl⟩ := List.cons.inj htext
        have hhere := hfirst [] _ rfl (Nat.succ_pos _)
        rw [List.append_nil] at hhere
        refine .inr ⟨hhere, front, rest, rfl, by rwa [← List.append_cons], ?_⟩
        intro front' rest' htext hlength
        rw [← List.append_cons]
        refine hfirst (c :: front') rest' ?_ (Nat.succ_lt_succ hlength)
        rw [htext, List.cons_append]

/-- A directive is introduced where it is read. -/
lemma introduces_iff {line before : List Char} {rules : Set String} {reason : Option String} :
    Introduces line before rules reason ↔ ∃ rest d, line = before ++ rest ∧
      at? before rest = some d ∧ {name | name ∈ d.rules} = rules ∧ d.reason = reason := by
  constructor
  · rintro ⟨body, rfl, hcomment, hspells⟩
    obtain ⟨d, hd, hrules, hreason⟩ := exists_ofBody?_iff.2 hspells
    refine ⟨marker ++ body, d, List.append_assoc _ _ _, ?_, hrules, hreason⟩
    rw [at?, after?_eq_some_iff.2 rfl, Option.bind_some, if_pos (opensComment_iff.2 hcomment), hd]
  · rintro ⟨rest, d, rfl, hd, hrules, hreason⟩
    obtain ⟨body, hbody, hd⟩ := Option.bind_eq_some_iff.1 hd
    obtain ⟨hcomment, hd⟩ := Option.ite_none_right_eq_some.1 hd
    refine ⟨body, ?_, opensComment_iff.1 hcomment, exists_ofBody?_iff.1 ⟨d, hd, hrules, hreason⟩⟩
    rw [after?_eq_some_iff.1 hbody, List.append_assoc]

/-- The directive on a line is the one that is introduced first. -/
lemma exists_ofLine?_iff {line : List Char} {rules : Set String} {reason : Option String} :
    (∃ d, ofLine? line = some d ∧ {name | name ∈ d.rules} = rules ∧ d.reason = reason) ↔
      ∃ before, Introduces line before rules reason ∧
        ∀ before' rules' reason', Introduces line before' rules' reason' →
          before.length ≤ before'.length := by
  constructor
  · rintro ⟨d, hd, hrules, hreason⟩
    obtain ⟨before, rest, rfl, hd, hfirst⟩ := (@search_eq_some_iff [] line d).1 hd
    refine ⟨before, introduces_iff.2 ⟨rest, d, rfl, hd, hrules, hreason⟩, ?_⟩
    intro before' rules' reason' h
    obtain ⟨rest', d', hline, hd', -⟩ := introduces_iff.1 h
    by_contra hlength
    have hnone := hfirst before' rest' hline (Nat.lt_of_not_le hlength)
    rw [List.nil_append, hd'] at hnone
    cases hnone
  · rintro ⟨before, h, hfirst⟩
    obtain ⟨rest, d, rfl, hd, hrules, hreason⟩ := introduces_iff.1 h
    refine ⟨d, (@search_eq_some_iff [] _ d).2 ⟨before, rest, rfl, hd, ?_⟩, hrules, hreason⟩
    intro before' rest' hline hlength
    rw [List.nil_append]
    -- a directive that is read further in front would be introduced there
    cases hd' : at? before' rest' with
    | none => rfl
    | some d' =>
      have h' := introduces_iff.2 ⟨rest', d', hline, hd', rfl, rfl⟩
      exact absurd (hfirst before' _ _ h') (Nat.not_le_of_lt hlength)

/-- A line holds a directive if one is introduced anywhere. -/
lemma isSome_ofLine?_iff {line : List Char} :
    (ofLine? line).isSome = true ↔ ∃ before rules reason, Introduces line before rules reason := by
  classical
  constructor
  · intro h
    obtain ⟨d, hd⟩ := Option.isSome_iff_exists.1 h
    obtain ⟨before, hbefore, -⟩ := exists_ofLine?_iff.1 ⟨d, hd, rfl, rfl⟩
    exact ⟨before, _, _, hbefore⟩
  · intro h
    obtain ⟨before, ⟨rules, reason, hbefore⟩, hfirst⟩ :=
      exists_minimalFor_of_wellFoundedLT
        (fun before => ∃ rules reason, Introduces line before rules reason) List.length h
    obtain ⟨d, hd, -⟩ := exists_ofLine?_iff.2 ⟨before, hbefore, fun before' rules' reason' h' =>
      (Nat.le_total _ _).elim id (hfirst ⟨rules', reason', h'⟩)⟩
    rw [hd]
    rfl

/-! ### Written directives -/

/-- How a comment may begin. -/
def openers : List (List Char) := ["//".toList, "/*".toList, "/**".toList]

/-- A name that can be listed: it has no blanks at its ends, no comma and no closing
parenthesis. -/
structure IsListable (name : String) : Prop where
  ne_empty : name ≠ ""
  trimmed : Trimmed name.toList
  comma : ',' ∉ name.toList
  parenthesis : ')' ∉ name.toList

/-- A reason as it is written behind the list of rules. -/
def writtenReason (reason : String) : List Char :=
  [' '] ++ "reason=".toList ++ ['"'] ++ reason.toList ++ ['"']

/-- The text behind the marker of a directive. -/
def writtenBody (names : List String) (reason : String) : List Char :=
  [' '] ++ "allow(".toList ++ joined ", ".toList (names.map String.toList) ++ [')'] ++
    writtenReason reason

/-- A directive as it is written in a comment. -/
def written (opener : List Char) (names : List String) (reason : String) : List Char :=
  opener ++ [' '] ++ marker ++ writtenBody names reason

lemma mem_joined {c : Char} {sep : List Char} {parts : List (List Char)}
    (h : c ∈ joined sep parts) : c ∈ sep ∨ ∃ part ∈ parts, c ∈ part := by
  fun_induction joined sep parts with
  | case1 => cases h
  | case2 part => exact .inr ⟨part, List.mem_singleton_self _, h⟩
  | case3 part rest _ ih =>
    rw [List.mem_append, List.mem_append] at h
    rcases h with (h | h) | h
    · exact .inr ⟨part, List.mem_cons_self, h⟩
    · exact .inl h
    · rcases ih h with h | ⟨part', hpart', h⟩
      · exact .inl h
      · exact .inr ⟨part', List.mem_cons_of_mem _ hpart', h⟩

/-- The blank behind a comma belongs to the next item. -/
lemma joined_eq_intercalate (part : List Char) (parts : List (List Char)) :
    joined ", ".toList (part :: parts) = [','].intercalate (part :: parts.map (' ' :: ·)) := by
  induction parts generalizing part with
  | nil => simp [joined]
  | cons next parts ih =>
    have hblank : ∀ rest : List (List Char), [','].intercalate ((' ' :: next) :: rest) =
        ' ' :: [','].intercalate (next :: rest) := by
      intro rest
      cases rest <;> simp
    rw [joined, ih, List.map_cons, List.intercalate_cons_cons, hblank]
    · simp
    · simp

/-- The names of a written list are the names that were written. -/
lemma names_joined {list : List String} (h : ∀ name ∈ list, IsListable name) :
    names (joined ", ".toList (list.map String.toList)) = list := by
  cases list with
  | nil => rfl
  | cons first list =>
    have hitems : splitAt ',' (joined ", ".toList ((first :: list).map String.toList)) =
        first.toList :: list.map fun name => ' ' :: name.toList := by
      rw [List.map_cons, joined_eq_intercalate, List.map_map, splitAt_eq_splitOn,
        List.splitOn_intercalate ',' _ (by simp)]
      · rfl
      · intro item hitem
        rcases List.mem_cons.1 hitem with rfl | hitem
        · exact (h first List.mem_cons_self).comma
        · obtain ⟨name, hname, rfl⟩ := List.mem_map.1 hitem
          simpa using (h name (List.mem_cons_of_mem _ hname)).comma
    have htrim : ∀ name ∈ list, trim (' ' :: name.toList) = name.toList := by
      intro name hname
      have hname := h name (List.mem_cons_of_mem _ hname)
      exact trim_eq_iff.2 ⟨hname.trimmed, [' '], [], blank_space, blank_nil, by simp⟩
    have hcores : (splitAt ',' (joined ", ".toList ((first :: list).map String.toList))).map trim =
        (first :: list).map String.toList := by
      rw [hitems, List.map_cons, (h first List.mem_cons_self).trimmed.trim_eq, List.map_map,
        List.map_cons]
      exact congrArg _ (List.map_congr_left htrim)
    have hkept : ((first :: list).map String.toList).filter (!·.isEmpty) =
        (first :: list).map String.toList := by
      refine List.filter_eq_self.2 fun core hcore => ?_
      obtain ⟨name, hname, rfl⟩ := List.mem_map.1 hcore
      simpa using (h name hname).ne_empty
    rw [names, hcores, hkept, List.map_map]
    simp [Function.comp_def]

/-- The body of a written directive is read back. -/
lemma ofBody?_writtenBody {list : List String} {reason : String} (hne : list ≠ [])
    (hlist : ∀ name ∈ list, IsListable name) (hreason : '"' ∉ reason.toList) (rest : List Char) :
    ofBody? (writtenBody list reason ++ rest) = some ⟨list, some reason⟩ := by
  have hgives : GivesReason (writtenReason reason ++ rest) reason := by
    refine ⟨[' '], [], rest, blank_space, blank_nil, hreason, ?_⟩
    simp only [writtenReason, List.append_assoc, List.nil_append, List.cons_append]
  refine ofBody?_eq_some_iff.2 ⟨[' '], joined ", ".toList (list.map String.toList),
    writtenReason reason ++ rest, blank_space, ?_, ?_, ?_, ?_⟩
  · intro hmem
    rcases mem_joined hmem with h | ⟨part, hpart, h⟩
    · exact absurd h (by decide)
    · obtain ⟨name, hname, rfl⟩ := List.mem_map.1 hpart
      exact (hlist name hname).parenthesis h
  · simp only [writtenBody, List.append_assoc, List.nil_append, List.cons_append]
  · rw [names_joined hlist]
    exact hne
  · rw [names_joined hlist, reason?_eq_some_iff.2 hgives]

lemma opensComment_opener {opener : List Char} (h : opener ∈ openers) (code : List Char) :
    OpensComment (code ++ opener ++ [' ']) := by
  refine ⟨code, [' '], blank_space, ?_⟩
  simp only [openers, List.mem_cons, List.not_mem_nil, or_false] at h
  rcases h with rfl | rfl | rfl
  · exact .inl rfl
  · exact .inr ⟨0, rfl⟩
  · exact .inr ⟨1, rfl⟩

/-- Where a gap follows that shares no character with the marker, the marker occurs in front of the
gap or behind it. -/
lemma length_le_of_marker {code gap rest front body : List Char} (hcode : ¬marker <:+: code)
    (hgap : ∀ c ∈ gap, c ∉ marker) (hne : gap ≠ [])
    (h : code ++ gap ++ rest = front ++ marker ++ body) : (code ++ gap).length ≤ front.length := by
  rw [List.append_assoc, List.append_assoc] at h
  rcases List.append_eq_append_iff.1 h with ⟨part, rfl, hpart⟩ | ⟨part, rfl, hpart⟩
  · -- the marker begins behind the code, so the gap ends in front of it
    rcases List.append_eq_append_iff.1 hpart with ⟨back, rfl, -⟩ | ⟨back, rfl, hback⟩
    · simp
    · cases back with
      | nil => simp
      | cons c back =>
        obtain ⟨rfl, -⟩ := List.cons.inj hback
        exact absurd List.mem_cons_self (hgap _ (by simp))
  · -- the marker begins in the code and cannot reach the gap
    rcases List.append_eq_append_iff.1 hpart with ⟨back, rfl, -⟩ | ⟨back, hmarker, hback⟩
    · exact absurd ⟨front, back, by rw [List.append_assoc]⟩ hcode
    · cases back with
      | nil => exact absurd ⟨front, [], by rw [hmarker]; simp⟩ hcode
      | cons c back =>
        obtain ⟨d, gap, rfl⟩ := List.exists_cons_of_ne_nil hne
        obtain ⟨rfl, -⟩ := List.cons.inj hback
        exact absurd (by rw [hmarker]; simp) (hgap d List.mem_cons_self)

lemma not_mem_marker {opener : List Char} (h : opener ∈ openers) :
    ∀ c ∈ opener ++ [' '], c ∉ marker := by
  have hall : (opener ++ [' ']).all (!marker.contains ·) = true := by
    simp only [openers, List.mem_cons, List.not_mem_nil, or_false] at h
    rcases h with rfl | rfl | rfl <;> decide
  simpa only [List.all_eq_true, Bool.not_eq_true', List.contains_eq_mem,
    decide_eq_false_iff_not] using hall

/-- A directive that is written in a comment is read back, whatever follows it, if the marker does
not occur in front of it. -/
lemma ofLine?_written {opener : List Char} {list : List String} {reason : String}
    {code : List Char} (hcode : ¬marker <:+: code) (hopener : opener ∈ openers) (hne : list ≠ [])
    (hlist : ∀ name ∈ list, IsListable name) (hreason : '"' ∉ reason.toList) (rest : List Char) :
    ofLine? (code ++ written opener list reason ++ rest) = some ⟨list, some reason⟩ := by
  let body := writtenBody list reason ++ rest
  have hline : code ++ written opener list reason ++ rest =
      code ++ (opener ++ [' ']) ++ (marker ++ body) := by
    simp only [written, body, List.append_assoc]
  refine (@search_eq_some_iff [] _ _).2 ⟨code ++ (opener ++ [' ']), marker ++ body, hline, ?_, ?_⟩
  · have hcomment := opensComment_iff.2 (opensComment_opener hopener code)
    rw [List.append_assoc] at hcomment
    rw [List.nil_append, at?, after?_eq_some_iff.2 rfl, Option.bind_some, if_pos hcomment]
    exact ofBody?_writtenBody hne hlist hreason rest
  · intro front rest' hfront hlength
    cases hafter : after? marker rest' with
    | none => rw [at?, hafter, Option.bind_none]
    | some body' =>
      rw [after?_eq_some_iff.1 hafter, hline, ← List.append_assoc front] at hfront
      exact absurd (length_le_of_marker hcode (not_mem_marker hopener) (by simp) hfront)
        (Nat.not_le_of_lt hlength)

/-- Directives are read exactly by their grammar.  A line has a directive if one is introduced
anywhere in it, and then it is the one that is introduced first.  Hence a directive that is written
in a comment is read back. -/
theorem ofLine?_accepts_grammar :
    (∀ line, (ofLine? line).isSome = true ↔
        ∃ before rules reason, Introduces line before rules reason) ∧
      (∀ line rules reason,
        (∃ d, ofLine? line = some d ∧ {name | name ∈ d.rules} = rules ∧ d.reason = reason) ↔
          ∃ before, Introduces line before rules reason ∧
            ∀ before' rules' reason', Introduces line before' rules' reason' →
              before.length ≤ before'.length) ∧
      ∀ (code opener : List Char) (list : List String) (reason : String) (rest : List Char),
        ¬marker <:+: code → opener ∈ openers → list ≠ [] → (∀ name ∈ list, IsListable name) →
          '"' ∉ reason.toList →
            ofLine? (code ++ written opener list reason ++ rest) = some ⟨list, some reason⟩ :=
  ⟨fun _ => isSome_ofLine?_iff, fun _ _ _ => exists_ofLine?_iff,
    fun _ _ _ _ rest hcode hopener hne hlist hreason =>
      ofLine?_written hcode hopener hne hlist hreason rest⟩

/-- A directive behind slashes in a string, with another one in the text that follows it. -/
theorem ofLine?_accepts_grammar_behind_string :
    let code := "fetch(\"https://a.b\"); ".toList
    let list := ["no-raw-convex-function", "a b", "authlint:"]
    let rest := " */ // authlint: allow(all)".toList
    ¬marker <:+: code ∧ "/**".toList ∈ openers ∧ (∀ name ∈ list, IsListable name) ∧
      '"' ∉ "it's (so) ".toList ∧
      ofLine? (code ++ written "/**".toList list "it's (so) " ++ rest) =
        some ⟨list, some "it's (so) "⟩ := by
  intro code list rest
  obtain ⟨-, -, hwritten⟩ := ofLine?_accepts_grammar
  have hcode : ¬marker <:+: code := by decide +kernel
  have hopener : "/**".toList ∈ openers := by decide
  have hreason : '"' ∉ "it's (so) ".toList := by decide
  have hlist : ∀ name ∈ list, IsListable name := by
    intro name hname
    simp only [list, List.mem_cons, List.not_mem_nil, or_false] at hname
    rcases hname with rfl | rfl | rfl <;>
      exact ⟨by decide, by decide, by decide, by decide⟩
  exact ⟨hcode, hopener, hlist, hreason,
    hwritten code _ list _ rest hcode hopener (by decide) hlist hreason⟩

end IdentityLint.Directive
