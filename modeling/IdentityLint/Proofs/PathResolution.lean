import IdentityLint.FileTree
import IdentityLint.Proofs.ReportOrder

/-!
# Paths in a file tree

How a path begins decides where it starts, at the root or in the current directory; then it goes on
by steps, each of which is a name or leads back to the parent (`Path.steps`).  Resolution follows
the steps one by one (`FileTree.resolve_append`), and it is the same for all spellings with the same
steps.  What it arrives at is a list of names, each of which is the name of an entry.

A path that denotes a file is the path of its directory and one more step, and its parent is the
path of the directory, unless there is no slash in it (`FileTree.exists_directory_of_file`).
-/

namespace IdentityLint

/-! ### Steps -/

namespace Path

/-- The components of a path behind its beginning: names, and steps back to the parent. -/
def steps (p : Path) : List Component := named p.parts

/-- A text that is the name of an entry wherever it is a part of a path. -/
structure IsName (s : String) : Prop where
  slash : '/' ∉ s.toList
  counts : isVoid s = false
  not_parent : s ≠ ".."

lemma IsName.component_eq {s : String} (h : IsName s) : component s = .name s := by
  rw [component, if_neg (by simpa using h.not_parent)]

lemma named_of_isName {names : List String} (h : ∀ s ∈ names, IsName s) :
    named names = names.map .name := by
  rw [named, List.filter_eq_self.2 fun s hs => by simp [(h s hs).counts]]
  exact List.map_congr_left fun s hs => (h s hs).component_eq

lemma isName_of_mem_steps {p : Path} {s : String} (h : .name s ∈ p.steps) : IsName s := by
  obtain ⟨part, hpart, hname⟩ := List.mem_map.1 h
  obtain ⟨hmem, hvoid⟩ := List.mem_filter.1 hpart
  rw [component] at hname
  split at hname
  · cases hname
  · next hparent =>
    obtain rfl := Component.name.inj hname
    exact ⟨slash_not_mem_of_mem_parts hmem, by simpa using hvoid, by simpa using hparent⟩

lemma not_anchor_of_mem_steps {p : Path} {c : Component} (h : c ∈ p.steps) :
    c ≠ .root ∧ c ≠ .here := by
  obtain ⟨part, -, rfl⟩ := List.mem_map.1 h
  exact component_ne part

/-- A path without a slash has a single part. -/
lemma parts_of_slash_not_mem {p : Path} (h : '/' ∉ p.text.toList) : p.parts = [p.text] := by
  have hsplit : p.text.toList.splitOn '/' = [p.text.toList] :=
    List.splitOnP_eq_singleton fun c hc => by simpa using fun hslash : c = '/' => h (hslash ▸ hc)
  rw [parts, Text.splitAt_eq_splitOn, hsplit]
  simp

section IsName

variable {name : String} (h : IsName name)

include h

lemma IsName.parts_eq : (Path.mk name).parts = [name] := parts_of_slash_not_mem h.slash

lemma IsName.steps_eq : (Path.mk name).steps = [.name name] := by
  rw [steps, h.parts_eq, named_of_isName (by simpa using h)]
  rfl

lemma IsName.isAbsolute_eq : (Path.mk name).isAbsolute = false := by
  rw [Bool.eq_false_iff, ne_eq, isAbsolute_iff h.parts_eq]
  simp

lemma IsName.wantsDirectory_eq : FileTree.wantsDirectory ⟨name⟩ = false := by
  rw [FileTree.wantsDirectory, h.parts_eq]
  exact h.counts

end IsName

lemma one_lt_length_parts {p : Path} (h : '/' ∈ p.text.toList) : 1 < p.parts.length := by
  obtain ⟨front, back, htext⟩ := List.append_of_mem h
  have hp : p = ⟨String.ofList front ++ "/" ++ String.ofList back⟩ := by
    cases p
    simp only [Path.mk.injEq, ← String.toList_inj] at htext ⊢
    simp [htext]
  have hfront := List.length_pos_of_ne_nil (parts_ne_nil ⟨String.ofList front⟩)
  have hback := List.length_pos_of_ne_nil (parts_ne_nil ⟨String.ofList back⟩)
  rw [hp, parts_slash, List.length_append]
  omega

lemma steps_slash (front back : String) :
    (Path.mk (front ++ "/" ++ back)).steps = (Path.mk front).steps ++ (Path.mk back).steps := by
  rw [steps, parts_slash, named_append, steps, steps]

lemma steps_intercalate {parts : List String} (h : ∀ part ∈ parts, '/' ∉ part.toList) :
    (Path.mk (String.intercalate "/" parts)).steps = named parts := by
  cases parts with
  | nil => rfl
  | cons part parts => rw [steps, parts_intercalate h (by simp)]

/-- A joined path is the second path, or that path behind a slash. -/
lemma join_cases (p q : Path) :
    (p.join q = q ∧ (q.isAbsolute = true ∨ p.text = "")) ∨
      q.isAbsolute = false ∧
        ∃ front, (Path.mk front).steps = p.steps ∧ p.join q = ⟨front ++ "/" ++ q.text⟩ := by
  rw [join]
  split_ifs with hself hlast
  · exact .inl ⟨rfl, by simpa using hself⟩
  · obtain ⟨front, hfront⟩ := List.getLast?_eq_some_iff.1 (beq_iff_eq.1 hlast)
    have htext : p.text = String.ofList front ++ "/" ++ "" := by
      simp [← String.toList_inj, hfront]
    refine .inr ⟨by simp_all, String.ofList front, ?_, by rw [htext, String.append_empty]⟩
    rw [show p = ⟨String.ofList front ++ "/" ++ ""⟩ from congrArg Path.mk htext, steps_slash]
    exact (List.append_nil _).symm
  · exact .inr ⟨by simp_all, p.text, rfl, rfl⟩

/-- A relative path goes on where the path it is joined to ends. -/
lemma steps_join (p q : Path) :
    (p.join q).steps = (if q.isAbsolute then [] else p.steps) ++ q.steps := by
  rcases join_cases p q with ⟨hself, habsolute | hempty⟩ | ⟨hrelative, front, hfront, hjoin⟩
  · rw [hself, if_pos habsolute, List.nil_append]
  · have hsteps : p.steps = [] := by
      rw [show p = ⟨""⟩ from congrArg Path.mk hempty]
      rfl
    rw [hself, hsteps, ite_self, List.nil_append]
  · rw [hjoin, steps_slash, hfront, if_neg (by simp [hrelative])]

lemma wantsDirectory_join (p q : Path) :
    FileTree.wantsDirectory (p.join q) = FileTree.wantsDirectory q := by
  rcases join_cases p q with ⟨hself, -⟩ | ⟨-, front, -, hjoin⟩
  · rw [hself]
  · have hlast : ((Path.mk front).parts ++ q.parts).getLast? = q.parts.getLast? :=
      List.getLast?_append_of_ne_nil _ q.parts_ne_nil
    rw [hjoin, FileTree.wantsDirectory, parts_slash, hlast]
    rfl

lemma isAbsolute_join {p : Path} (h : p.isAbsolute = true) (q : Path) :
    (p.join q).isAbsolute = true := by
  rw [isAbsolute, beq_iff_eq] at h
  have hhead : ∀ rest : String, (Path.mk (p.text ++ rest)).isAbsolute = true := fun rest => by
    simp [isAbsolute, List.head?_append, h]
  rw [join]
  split_ifs with hq hlast
  · rw [Bool.or_eq_true, beq_iff_eq] at hq
    refine hq.resolve_right fun hempty => ?_
    rw [hempty] at h
    cases h
  · exact hhead q.text
  · rw [String.append_assoc]
    exact hhead _

/-! ### Parents -/

/-- A path leads to where another one leads without its last step, and begins in the same way.  It
is empty if the other one has no slash. -/
structure LacksStep (q p : Path) : Prop where
  isAbsolute : q.isAbsolute = p.isAbsolute
  steps : ∃ c, p.steps = q.steps ++ [c]
  text : q.text = "" ↔ '/' ∉ p.text.toList

section Parents

variable {p : Path} {first last : String} {rest : List String}

lemma slash_not_mem_rdropWhile (parts : List String) (h : parts ⊆ p.parts) :
    ∀ part ∈ parts.rdropWhile isVoid, '/' ∉ part.toList := fun _ hpart =>
  slash_not_mem_of_mem_parts (h ((List.rdropWhile_prefix isVoid parts).subset hpart))

lemma parent?_of_anchored {anchor : List Component}
    (h : anchored p.isAbsolute p.parts = (anchor, rest ++ [last])) (hlast : isVoid last = false) :
    p.parent? = some
      ⟨(if p.isAbsolute then "/" else if anchor.isEmpty then "" else ".") ++
        (if anchor.isEmpty || p.isAbsolute || (rest.rdropWhile isVoid).isEmpty then "" else "/") ++
        String.intercalate "/" (rest.rdropWhile isVoid)⟩ := by
  rw [parent?]
  simp [h, hlast, List.rdropWhile]

/-- Void parts at the end are not steps. -/
lemma steps_rdropWhile (parts : List String) (h : parts ⊆ p.parts) :
    (Path.mk (String.intercalate "/" (parts.rdropWhile isVoid))).steps = named parts := by
  rw [steps_intercalate (slash_not_mem_rdropWhile parts h), List.rdropWhile, named_trimEnd]

lemma exists_steps_eq (init : List String) (hparts : p.parts = init ++ [last])
    (hlast : isVoid last = false) : ∃ c, p.steps = named init ++ [c] := by
  refine ⟨component last, ?_⟩
  rw [steps, hparts, named_append, named_cons_of_not_isVoid hlast]
  rfl

lemma slash_mem_of_parts (hparts : p.parts = first :: (rest ++ [last])) :
    '/' ∈ p.text.toList := by
  by_contra hslash
  simpa [hparts] using parts_of_slash_not_mem hslash

/-- The parent of a single name is the empty path. -/
lemma exists_parent?_single (hparts : p.parts = [last]) (hlast : isVoid last = false) :
    ∃ q, p.parent? = some q ∧ q.LacksStep p := by
  have hne : last ≠ "" ∧ last ≠ "." := by simpa [isVoid] using hlast
  have habsolute : p.isAbsolute = false := by
    rw [Bool.eq_false_iff, ne_eq, isAbsolute_iff hparts]
    simp
  have hanchored : anchored p.isAbsolute p.parts = ([], [] ++ [last]) := by
    rw [anchored_of_parts hparts]
    simp [hne.2]
  have hslash : '/' ∉ p.text.toList := fun hslash => by
    simpa [hparts] using one_lt_length_parts hslash
  refine ⟨⟨""⟩, ?_, habsolute.symm, exists_steps_eq [] hparts hlast, by simp [hslash]⟩
  simp [parent?_of_anchored hanchored hlast, habsolute, List.rdropWhile]

lemma exists_parent?_absolute (hparts : p.parts = "" :: (rest ++ [last]))
    (hlast : isVoid last = false) : ∃ q, p.parent? = some q ∧ q.LacksStep p := by
  have habsolute : p.isAbsolute = true := (isAbsolute_iff hparts).2 ⟨rfl, by simp⟩
  have hanchored : anchored p.isAbsolute p.parts = ([.root], rest ++ [last]) := by
    rw [anchored_of_parts hparts, if_pos ⟨rfl, by simp⟩]
  have hsteps := steps_rdropWhile (p := p) rest (by simp [hparts])
  have hparent := parent?_of_anchored hanchored hlast
  simp only [habsolute, if_true, Bool.or_true, Bool.true_or, String.append_empty] at hparent
  refine ⟨_, hparent, ?_, ?_, by simp [slash_mem_of_parts hparts]⟩
  · rw [habsolute, isAbsolute]
    simp
  · have hslash := steps_slash "" (String.intercalate "/" (rest.rdropWhile isVoid))
    rw [hsteps] at hslash
    exact hslash ▸ exists_steps_eq ("" :: rest) hparts hlast

lemma exists_parent?_here (hparts : p.parts = "." :: (rest ++ [last]))
    (hlast : isVoid last = false) : ∃ q, p.parent? = some q ∧ q.LacksStep p := by
  have habsolute : p.isAbsolute = false := by
    rw [Bool.eq_false_iff, ne_eq, isAbsolute_iff hparts]
    simp
  have hanchored : anchored p.isAbsolute p.parts = ([.here], rest ++ [last]) := by
    rw [anchored_of_parts hparts, if_neg (by simp), if_pos rfl]
  have hsteps := steps_rdropWhile (p := p) rest (by simp [hparts])
  have hparent := parent?_of_anchored hanchored hlast
  simp only [habsolute, List.isEmpty_cons, Bool.false_or, Bool.false_eq_true, if_false] at hparent
  refine ⟨_, hparent, ?_, ?_, by simp [slash_mem_of_parts hparts]⟩
  · rw [habsolute, isAbsolute]
    simp
  · have hdotted : ∀ parts : List String,
        (Path.mk ("." ++ (if parts.isEmpty then "" else "/") ++
            String.intercalate "/" parts)).steps =
          (Path.mk (String.intercalate "/" parts)).steps := by
      rintro (_ | ⟨part, parts⟩)
      · rfl
      · exact steps_slash "." _
    rw [hdotted, hsteps]
    exact exists_steps_eq ("." :: rest) hparts hlast

lemma exists_parent?_relative (hparts : p.parts = first :: (rest ++ [last]))
    (hfirst : isVoid first = false) (hlast : isVoid last = false) :
    ∃ q, p.parent? = some q ∧ q.LacksStep p := by
  have hne : first ≠ "" ∧ first ≠ "." := by simpa [isVoid] using hfirst
  have habsolute : p.isAbsolute = false := by
    rw [Bool.eq_false_iff, ne_eq, isAbsolute_iff hparts]
    simp [hne.1]
  have hanchored : anchored p.isAbsolute p.parts = ([], (first :: rest) ++ [last]) := by
    rw [anchored_of_parts hparts, if_neg (by simp [hne.1]), if_neg hne.2]
    rfl
  have hfree := slash_not_mem_rdropWhile (p := p) (first :: rest) (by simp [hparts])
  -- the first part counts, so it is kept
  obtain ⟨parts, htrimmed⟩ : ∃ parts, (first :: rest).rdropWhile isVoid = first :: parts := by
    have hnamed : named ((first :: rest).rdropWhile isVoid) = component first :: named rest := by
      rw [List.rdropWhile, named_trimEnd, named_cons_of_not_isVoid hfirst]
    cases htrimmed : (first :: rest).rdropWhile isVoid with
    | nil =>
      rw [htrimmed] at hnamed
      cases hnamed
    | cons part parts =>
      have hbegin := List.rdropWhile_prefix isVoid (first :: rest)
      rw [htrimmed] at hbegin
      exact ⟨parts, by rw [(List.cons_prefix_cons.1 hbegin).1]⟩
  have hparent := parent?_of_anchored hanchored hlast
  simp only [habsolute, List.isEmpty_nil, Bool.true_or, Bool.false_eq_true, if_false, if_true,
    String.empty_append] at hparent
  have hparts' : (Path.mk (String.intercalate "/" ((first :: rest).rdropWhile isVoid))).parts =
      first :: parts := by
    rw [parts_intercalate hfree (by simp [htrimmed]), htrimmed]
  refine ⟨_, hparent, ?_, ?_, ?_⟩
  · rw [habsolute, Bool.eq_false_iff, ne_eq, isAbsolute_iff hparts']
    simp [hne.1]
  · rw [steps_rdropWhile (p := p) (first :: rest) (by simp [hparts])]
    exact exists_steps_eq (first :: rest) hparts hlast
  · refine iff_of_false (fun hempty => ?_) (by simp [slash_mem_of_parts hparts])
    rw [show Path.mk (String.intercalate "/" ((first :: rest).rdropWhile isVoid)) = ⟨""⟩ from
      congrArg Path.mk hempty] at hparts'
    exact hne.1 (List.cons.inj hparts').1.symm

/-- A path that does not end like a directory has a parent, which lacks the last step. -/
lemma exists_parent? (h : FileTree.wantsDirectory p = false) :
    ∃ q, p.parent? = some q ∧ q.LacksStep p := by
  obtain ⟨init, last, hparts⟩ := (List.eq_nil_or_concat' _).resolve_left p.parts_ne_nil
  have hlast : isVoid last = false := by simpa [FileTree.wantsDirectory, hparts] using h
  cases init with
  | nil => exact exists_parent?_single hparts hlast
  | cons first rest =>
    rw [List.cons_append] at hparts
    cases hfirst : isVoid first with
    | false => exact exists_parent?_relative hparts hfirst hlast
    | true =>
      obtain rfl | rfl : first = "" ∨ first = "." := by simpa [isVoid] using hfirst
      · exact exists_parent?_absolute hparts hlast
      · exact exists_parent?_here hparts hlast

end Parents

end Path

namespace FileTree

/-! ### Paths from the root -/

section PathOf

variable {names : List String} (hnames : ∀ s ∈ names, Path.IsName s)

lemma isAbsolute_pathOf (names : List String) : (pathOf names).isAbsolute = true := by
  simp [pathOf, Path.isAbsolute]

include hnames

lemma steps_pathOf : (pathOf names).steps = names.map .name := by
  have hsteps := Path.steps_slash "" (String.intercalate "/" names)
  rw [Path.steps_intercalate fun s hs => (hnames s hs).slash, Path.named_of_isName hnames] at hsteps
  exact hsteps

lemma parts_pathOf (hne : names ≠ []) : (pathOf names).parts = "" :: names := by
  have hparts := Path.parts_slash "" (String.intercalate "/" names)
  rw [Path.parts_intercalate (fun s hs => (hnames s hs).slash) hne] at hparts
  exact hparts

end PathOf

lemma parent?_pathOf {names : List String} {last : String} (hnames : ∀ s ∈ names, Path.IsName s)
    (hlast : Path.IsName last) : (pathOf (names ++ [last])).parent? = some (pathOf names) := by
  have hall : ∀ s ∈ names ++ [last], Path.IsName s := by
    intro s hs
    rcases List.mem_append.1 hs with hs | hs
    · exact hnames s hs
    · exact List.mem_singleton.1 hs ▸ hlast
  have hparts := parts_pathOf hall (by simp)
  have hanchored := Path.anchored_of_parts hparts
  rw [if_pos ⟨rfl, by simp⟩] at hanchored
  have hkept : names.rdropWhile Path.isVoid = names :=
    List.rdropWhile_eq_self_iff.2 fun hne => by simp [(hnames _ (List.getLast_mem hne)).counts]
  rw [Path.parent?_of_anchored hanchored hlast.counts, isAbsolute_pathOf, hkept]
  simp [pathOf]

/-- A directory and the directories around it, innermost first. -/
def outward (dir : List String) : List (List String) := dir.inits.reverse

lemma outward_concat (dir : List String) (last : String) :
    outward (dir ++ [last]) = (dir ++ [last]) :: outward dir := by
  simp [outward]

/-- The paths around the path of a directory are the paths of the directories around it. -/
lemma ancestorsUpTo_pathOf {names : List String} (hnames : ∀ s ∈ names, Path.IsName s) {n : Nat}
    (hn : names.length ≤ n) :
    Path.ancestorsUpTo n (pathOf names) = (outward names).map pathOf := by
  induction names using List.reverseRecOn generalizing n with
  | nil => cases n <;> rfl
  | append_singleton names last ih =>
    obtain ⟨n, rfl⟩ : ∃ m, n = m + 1 := Nat.exists_eq_add_one.2 (by simp at hn; omega)
    have hinit : ∀ s ∈ names, Path.IsName s := fun s hs => hnames s (List.mem_append_left _ hs)
    rw [Path.ancestorsUpTo, parent?_pathOf hinit (hnames last (by simp)), outward_concat,
      List.map_cons, ← ih hinit (by simpa using hn)]

lemma ancestors_pathOf {names : List String} (hnames : ∀ s ∈ names, Path.IsName s) :
    (pathOf names).ancestors = (outward names).map pathOf := by
  refine ancestorsUpTo_pathOf hnames ?_
  have hcomponents : (pathOf names).components = .root :: Path.named names :=
    Path.components_slash_intercalate fun s hs => (hnames s hs).slash
  rw [hcomponents, Path.named_of_isName hnames]
  simp

/-! ### Resolution -/

section Resolution

variable {t : FileTree} {names names' : List String} {cs ds : List Path.Component}

lemma descend?_append (t : FileTree) (names names' : List String) :
    t.descend? (names ++ names') = (t.descend? names).bind (·.descend? names') := by
  induction names generalizing t with
  | nil => rfl
  | cons name names ih =>
    rw [List.cons_append, descend?, descend?, Option.bind_assoc]
    exact congrArg _ (funext fun u => ih u)

/-- Only directories have entries. -/
lemma exists_directory_of_descend? {name : String} {u : FileTree}
    (h : t.descend? (names ++ [name]) = some u) :
    ∃ entries, t.descend? names = some (directory entries) := by
  rw [descend?_append] at h
  obtain ⟨v, hv, hu⟩ := Option.bind_eq_some_iff.1 h
  cases v with
  | file content => cases hu
  | directory entries => exact ⟨entries, hv⟩

/-- How a path begins decides where its steps start. -/
lemma resolve_components (t : FileTree) (names : List String) (p : Path) :
    t.resolve names p.components = t.resolve (if p.isAbsolute then [] else names) p.steps := by
  obtain ⟨first, rest, hparts⟩ := List.exists_cons_of_ne_nil p.parts_ne_nil
  have habsolute := Path.isAbsolute_iff hparts
  rw [Path.components_of_parts hparts, Path.steps, hparts]
  by_cases hroot : first = "" ∧ rest ≠ []
  · rw [if_pos hroot, if_pos (habsolute.2 hroot), hroot.1, Path.named_cons_of_isVoid (by decide),
      resolve]
  · rw [if_neg hroot, if_neg (mt habsolute.1 hroot)]
    by_cases hhere : first = "."
    · rw [if_pos hhere, hhere, Path.named_cons_of_isVoid (by decide), resolve]
    · rw [if_neg hhere]

lemma resolve_of_file {content : ByteArray} (h : t.descend? names.reverse = some (file content))
    {c : Path.Component} (hc : c ≠ .root ∧ c ≠ .here) : t.resolve names (c :: cs) = none := by
  cases c with
  | root => exact absurd rfl hc.1
  | here => exact absurd rfl hc.2
  | parent => rw [resolve, h]
  | name s =>
    have hnone : t.descend? (s :: names).reverse = none := by
      rw [List.reverse_cons, descend?_append, h]
      rfl
    rw [resolve, hnone]

/-- Resolution goes step by step. -/
lemma resolve_append (hds : ∀ c ∈ ds, c ≠ .root ∧ c ≠ .here) :
    t.resolve names (cs ++ ds) = (t.resolve names cs).bind fun reached => t.resolve reached ds := by
  induction cs generalizing names with
  | nil => rfl
  | cons c cs ih =>
    rw [List.cons_append]
    cases c with
    | root => exact ih
    | here => exact ih
    | parent =>
      rw [resolve, resolve]
      split
      · exact ih
      · rfl
    | name s =>
      rw [resolve, resolve]
      cases hreached : t.descend? (s :: names).reverse with
      | none => rfl
      | some u =>
        cases u with
        | directory entries => exact ih
        | file content =>
          -- a file has to be the end
          cases cs with
          | cons c cs => rfl
          | nil =>
            cases ds with
            | nil => rfl
            | cons d ds =>
              exact (resolve_of_file hreached (hds d List.mem_cons_self)).symm

/-- What holds at the root and is kept by every step holds where resolution arrives. -/
lemma resolve_invariant {P : List String → Prop} (hroot : P [])
    (hparent : ∀ names, P names → P names.tail)
    (hname : ∀ names s u, .name s ∈ cs → t.descend? (s :: names).reverse = some u → P names →
      P (s :: names)) (h : t.resolve names cs = some names') (hnames : P names) : P names' := by
  induction cs generalizing names with
  | nil => exact Option.some.inj h ▸ hnames
  | cons c cs ih =>
    have hname' : ∀ names s u, .name s ∈ cs → t.descend? (s :: names).reverse = some u → P names →
        P (s :: names) := fun names s u hs => hname names s u (List.mem_cons_of_mem _ hs)
    cases c with
    | root => exact ih hname' h hroot
    | here => exact ih hname' h hnames
    | parent =>
      rw [resolve] at h
      split at h
      · exact ih hname' h (hparent names hnames)
      · cases h
    | name s =>
      rw [resolve] at h
      split at h
      · next content hu =>
        obtain ⟨-, rfl⟩ : cs = [] ∧ s :: names = names' := by simpa using h
        exact hname names s _ List.mem_cons_self hu hnames
      · next entries hu => exact ih hname' h (hname names s _ List.mem_cons_self hu hnames)
      · cases h

lemma isName_of_resolve {p cwd : Path} (h : t.resolve [] (cwd.join p).steps = some names') :
    ∀ s ∈ names', Path.IsName s := by
  refine resolve_invariant (P := fun names => ∀ s ∈ names, Path.IsName s) (by simp) ?_ ?_ h
    (by simp)
  · exact fun names hnames s hs => hnames s (List.mem_of_mem_tail hs)
  · intro names s u hs _ hnames s' hs'
    rcases List.mem_cons.1 hs' with rfl | hs'
    · exact Path.isName_of_mem_steps hs
    · exact hnames s' hs'

lemma exists_descend?_of_resolve (h : t.resolve [] cs = some names') :
    ∃ u, t.descend? names'.reverse = some u := by
  refine resolve_invariant (P := fun names => ∃ u, t.descend? names.reverse = some u) ⟨t, rfl⟩ ?_
    (fun names s u _ hu _ => ⟨u, hu⟩) h ⟨t, rfl⟩
  rintro (_ | ⟨s, names⟩) hnames
  · exact hnames
  · obtain ⟨u, hu⟩ := hnames
    rw [List.reverse_cons] at hu
    obtain ⟨entries, hentries⟩ := exists_directory_of_descend? hu
    exact ⟨_, hentries⟩

/-- Names lead to the entries with these names. -/
lemma resolve_names (hreached : ∃ u, t.descend? names.reverse = some u) (ns : List String) :
    t.resolve names (ns.map .name) =
      (t.descend? (names.reverse ++ ns)).map fun _ => ns.reverse ++ names := by
  induction ns generalizing names with
  | nil =>
    obtain ⟨u, hu⟩ := hreached
    rw [List.append_nil, hu]
    rfl
  | cons n ns ih =>
    have hsplit : names.reverse ++ n :: ns = (n :: names).reverse ++ ns := by simp
    rw [List.map_cons, resolve, hsplit]
    cases hn : t.descend? (n :: names).reverse with
    | none => rw [descend?_append, hn]; rfl
    | some u =>
      cases u with
      | directory entries => simp [ih ⟨_, hn⟩]
      | file content =>
        rw [descend?_append, hn]
        cases ns <;> rfl

end Resolution

/-! ### Canonical names -/

section Canonical

variable {t : FileTree} {cwd p : Path} {names : List String}

/-- A path denotes what its steps lead to, but no file if it ends like a directory. -/
lemma canonical?_eq_some_iff :
    t.canonical? cwd p = some names ↔
      p.text ≠ "" ∧ t.resolve [] (cwd.join p).steps = some names.reverse ∧
        ∀ content, t.descend? names = some (file content) → wantsDirectory p = false := by
  rw [canonical?, resolve_components, ite_self]
  by_cases hempty : p.text = ""
  · simp [hempty]
  cases hresolve : t.resolve [] (cwd.join p).steps with
  | none => simp [hempty]
  | some reached =>
    have hreverse : some reached = some names.reverse ↔ reached.reverse = names := by
      rw [Option.some_inj, List.reverse_eq_iff]
    simp only [beq_iff_eq, hempty, if_false, Option.bind_eq_bind, Option.bind_some, hreverse]
    split
    · next content hfile =>
      constructor
      · intro h
        obtain ⟨hwants, h⟩ := Option.ite_none_left_eq_some.1 h
        exact ⟨hempty, Option.some.inj h, fun _ _ => by simpa using hwants⟩
      · rintro ⟨-, rfl, hwants⟩
        simp [hwants content hfile]
    · next hother =>
      constructor
      · intro h
        obtain rfl := Option.some.inj h
        exact ⟨hempty, rfl, fun content hfile => absurd hfile (hother content)⟩
      · rintro ⟨-, rfl, -⟩
        rfl

lemma isName_of_canonical? (h : t.canonical? cwd p = some names) : ∀ s ∈ names, Path.IsName s :=
  fun s hs => isName_of_resolve (canonical?_eq_some_iff.1 h).2.1 s (List.mem_reverse.2 hs)

lemma text_ne_of_not_wantsDirectory (h : wantsDirectory p = false) : p.text ≠ "" := by
  intro hempty
  rw [show p = ⟨""⟩ from congrArg Path.mk hempty] at h
  cases h

lemma canonical?_of_resolve (hwants : wantsDirectory p = false)
    (hresolve : t.resolve [] (cwd.join p).steps = (t.descend? names).map fun _ => names.reverse) :
    t.canonical? cwd p = (t.descend? names).map fun _ => names := by
  cases hfound : t.descend? names with
  | none =>
    refine Option.eq_none_iff_forall_ne_some.2 fun names' h => ?_
    have hreached := (canonical?_eq_some_iff.1 h).2.1
    rw [hresolve, hfound] at hreached
    cases hreached
  | some u =>
    rw [hfound] at hresolve
    refine canonical?_eq_some_iff.2 ⟨text_ne_of_not_wantsDirectory hwants, hresolve, ?_⟩
    exact fun _ _ => hwants

lemma find?_of_resolve (hwants : wantsDirectory p = false)
    (hresolve : t.resolve [] (cwd.join p).steps = (t.descend? names).map fun _ => names.reverse) :
    t.find? cwd p = t.descend? names := by
  rw [find?, canonical?_of_resolve hwants hresolve]
  cases hfound : t.descend? names with
  | none => rfl
  | some u => exact hfound

/-- The last step to a file is its name, and the steps in front of it lead to a directory. -/
lemma exists_last_step {content : ByteArray} {cs : List Path.Component} {c : Path.Component}
    (hc : c ≠ .root ∧ c ≠ .here) (h : t.resolve [] (cs ++ [c]) = some names.reverse)
    (hfile : t.descend? names = some (file content)) :
    ∃ dir s, names = dir ++ [s] ∧ t.resolve [] cs = some dir.reverse := by
  rw [resolve_append (by simpa using hc)] at h
  obtain ⟨reached, hreached, hlast⟩ := Option.bind_eq_some_iff.1 h
  cases c with
  | root => exact absurd rfl hc.1
  | here => exact absurd rfl hc.2
  | parent =>
    -- a step back leads to a directory
    rw [resolve] at hlast
    split at hlast
    · next entries hentries =>
      obtain rfl : reached.tail.reverse = names := by
        rw [List.reverse_eq_iff]
        exact Option.some.inj hlast
      cases reached with
      | nil => cases hentries.symm.trans hfile
      | cons s reached =>
        rw [List.reverse_cons] at hentries
        obtain ⟨entries', hentries'⟩ := exists_directory_of_descend? hentries
        cases hentries'.symm.trans hfile
    · cases hlast
  | name s =>
    obtain ⟨u, hu⟩ := exists_descend?_of_resolve hreached
    have hnames := resolve_names ⟨u, hu⟩ [s]
    rw [List.map_singleton, hlast] at hnames
    obtain ⟨v, -, hv⟩ := Option.map_eq_some_iff.1 hnames.symm
    refine ⟨reached.reverse, s, ?_, by rw [hreached, List.reverse_reverse]⟩
    rw [← List.reverse_inj, ← hv]
    simp

/-- The directory of a file is denoted by the parent of a path of the file.  But where the path is a
mere name the parent is empty, and the directory is the current one. -/
lemma exists_directory_of_file {content : ByteArray} (h : t.canonical? cwd p = some names)
    (hfile : t.descend? names = some (file content)) :
    ∃ dir s q, names = dir ++ [s] ∧ p.parent? = some q ∧
      ('/' ∈ p.text.toList → t.canonical? cwd q = some dir) ∧
      ('/' ∉ p.text.toList → q = ⟨""⟩ ∧ t.resolve [] cwd.steps = some dir.reverse) := by
  obtain ⟨-, hresolve, hwants⟩ := canonical?_eq_some_iff.1 h
  obtain ⟨q, hparent, habsolute, ⟨c, hsteps⟩, hempty⟩ := Path.exists_parent? (hwants content hfile)
  have hjoin : (cwd.join p).steps = (cwd.join q).steps ++ [c] := by
    rw [Path.steps_join, Path.steps_join, habsolute, hsteps, List.append_assoc]
  have hc : c ≠ .root ∧ c ≠ .here := Path.not_anchor_of_mem_steps (p := p) (by simp [hsteps])
  rw [hjoin] at hresolve
  obtain ⟨dir, s, rfl, hdir⟩ := exists_last_step hc hresolve hfile
  obtain ⟨entries, hentries⟩ := exists_directory_of_descend? hfile
  refine ⟨dir, s, q, rfl, hparent, fun hslash => ?_, fun hslash => ?_⟩
  · refine canonical?_eq_some_iff.2 ⟨fun h => hempty.1 h hslash, hdir, fun content' hcontent => ?_⟩
    cases hentries.symm.trans hcontent
  · obtain rfl : q = ⟨""⟩ := congrArg Path.mk (hempty.2 hslash)
    rw [Path.steps_join, if_neg (by decide)] at hdir
    exact ⟨rfl, List.append_nil cwd.steps ▸ hdir⟩

end Canonical

end FileTree

end IdentityLint
