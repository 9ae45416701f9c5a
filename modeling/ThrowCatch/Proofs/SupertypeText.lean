import ThrowCatch.Proofs.BareNames
import ThrowCatch.Proofs.Preorder
import ThrowCatch.Proofs.TextPieces
import ThrowCatch.Proofs.TraceMeaning
import ThrowCatch.Sites.Declared

/-!
What a class is said to extend. The text is cut out of the clause after its
keyword, so everything from there on belongs to it, and not only what stands
from the extended expression on. The two are the same exactly when nothing but
blanks lies between; a comment there is taken for a part of the supertype, and
a name that the comment mentions makes the class an error type.
-/

namespace ThrowCatch.Sites

open Text

/-- A clause that begins with its keyword and goes on with comments and then
with what is extended. Its nodes lie one after the other and cut no character
in two. -/
structure ExtendsTarget (source : ByteArray) (clause keyword : Node) (comments : List Node)
    (target : Node) : Prop where
  children : ∃ others, clause.children = keyword :: (comments ++ target :: others)
  keyword : keyword.named = false ∧ keyword.text source = "extends" ∧
    keyword.start = clause.start
  comments : ∀ c ∈ comments, c.isComment = true
  target : target.named = true ∧ target.isComment = false
  ordered : clause.Ordered
  uncut : ∀ c ∈ clause.children, charStart source c.start = true ∧ charStart source c.stop = true

/-- A text without the blanks around it, when something is left of it. -/
def nonBlank? (s : String) : Option String :=
  if trim s = "" then none else some (trim s)

/-! ### The text after the keyword -/

theorem clauseTarget_extends (s : String) : clauseTarget ("extends" ++ s) = trim s := by
  have hkept : trimLeft "extends".toList = "extends".toList := by decide
  have hword : "extends".toList ++ s.toList = "extend".toList ++ 's' :: s.toList := rfl
  have hfront : trim ("extends" ++ s) = "extends" ++ String.ofList (trimRight s.toList) := by
    rw [← String.toList_inj, toList_trim, String.toList_append,
      trimLeft_append (by rw [hkept]; decide), hkept, hword, trimRight_append_cons (by decide)]
    simp
  have hkeyword : startsWith "extends" (trim ("extends" ++ s)) = true := by
    rw [hfront]
    simp [startsWith]
  have hrest : drop 7 (trim ("extends" ++ s)) = String.ofList (trimRight s.toList) := by
    rw [hfront]
    simp [drop]
  unfold clauseTarget
  dsimp only
  rw [if_pos hkeyword, hrest, trim, String.toList_ofList, trimLeft_trimRight, trimRight_trimRight]
  rfl

section

variable {source : ByteArray} {clause keyword : Node} {comments : List Node} {target : Node}

/-- The keyword, the comments and the target lie one after the other. -/
theorem ExtendsTarget.offsets (h : ExtendsTarget source clause keyword comments target) :
    clause.start ≤ keyword.stop ∧ keyword.stop ≤ target.start ∧ target.start ≤ clause.stop ∧
      ∀ c ∈ comments, keyword.stop ≤ c.start ∧ c.start ≤ c.stop ∧ c.stop ≤ target.start := by
  obtain ⟨others, hchildren⟩ := h.children
  have hwidth : ∀ c ∈ clause.children, c.start ≤ c.stop := by
    obtain ⟨-, -, -, hbelow⟩ := h.ordered
    intro c hc
    obtain ⟨hwidth, -, -, -⟩ := hbelow c hc
    exact hwidth
  obtain ⟨-, hinside, hapart, -⟩ := h.ordered
  rw [hchildren] at hwidth hinside hapart
  obtain ⟨hkeyword, hapart⟩ := List.pairwise_cons.mp hapart
  obtain ⟨-, -, hcomments⟩ := List.pairwise_append.mp hapart
  have htarget : target ∈ keyword :: (comments ++ target :: others) := by simp
  refine ⟨?_, hkeyword target (by simp), ?_, ?_⟩
  · have hfirst := hwidth keyword List.mem_cons_self
    have hin := hinside keyword List.mem_cons_self
    omega
  · have hlast := hwidth target htarget
    have hin := hinside target htarget
    omega
  · intro c hc
    have hmem : c ∈ comments ++ target :: others := List.mem_append_left _ hc
    exact ⟨hkeyword c hmem, hwidth c (List.mem_cons_of_mem _ hmem),
      hcomments c hc target List.mem_cons_self⟩

theorem ExtendsTarget.text_clause (h : ExtendsTarget source clause keyword comments target) :
    clause.text source = "extends" ++ (between source keyword.stop target.start ++
      between source target.start clause.stop) := by
  obtain ⟨others, hchildren⟩ := h.children
  obtain ⟨-, hkeyword, hstart⟩ := h.keyword
  obtain ⟨hfirst, hnext, hlast, -⟩ := h.offsets
  have hafter := (h.uncut keyword (by simp [hchildren])).2
  have hbefore := (h.uncut target (by simp [hchildren])).1
  calc clause.text source
      = between source clause.start keyword.stop ++ between source keyword.stop clause.stop :=
        between_append hfirst (Nat.le_trans hnext hlast) hafter
    _ = keyword.text source ++ between source keyword.stop clause.stop := by
        rw [← hstart]
        rfl
    _ = _ := by rw [hkeyword, between_append hnext hlast hbefore]

/-- A comment before the target is a piece of what lies between the target and
the keyword. -/
theorem ExtendsTarget.between_eq (h : ExtendsTarget source clause keyword comments target)
    {c : Node} (hc : c ∈ comments) :
    between source keyword.stop target.start = between source keyword.stop c.start ++
      (c.text source ++ between source c.stop target.start) := by
  obtain ⟨others, hchildren⟩ := h.children
  obtain ⟨-, -, -, hoffsets⟩ := h.offsets
  obtain ⟨hfirst, hwidth, hlast⟩ := hoffsets c hc
  obtain ⟨hstart, hstop⟩ := h.uncut c (by simp [hchildren, hc])
  rw [between_append hfirst (Nat.le_trans hwidth hlast) hstart,
    between_append hwidth hlast hstop]
  rfl

theorem supertype?_eq {classNode heritage : Node}
    (hheritage : classNode.namedChildren.find? (fun c => c.kind == "class_heritage") =
      some heritage)
    (hclause : extendsNode? heritage = some clause)
    (h : ExtendsTarget source clause keyword comments target) :
    supertype? source classNode = nonBlank? (between source keyword.stop target.start ++
      between source target.start clause.stop) := by
  simp only [supertype?, hheritage, hclause, Option.bind_some, h.text_clause,
    clauseTarget_extends, nonBlank?, beq_iff_eq]

end

/-! ### Comments in front of the target -/

theorem nonBlank?_of_blank {s : String} (hs : Blank s) : nonBlank? s = none :=
  if_pos (trim_eq_empty_iff.mpr hs)

theorem nonBlank?_of_not_blank {s : String} (hs : ¬ Blank s) : nonBlank? s = some (trim s) :=
  if_neg (by rwa [trim_eq_empty_iff])

/-- What stands before a text is trimmed away exactly when it is blank. -/
theorem nonBlank?_append_eq_iff (gap rest : String) :
    nonBlank? (gap ++ rest) = nonBlank? rest ↔ Blank gap := by
  constructor
  · intro h
    by_contra hgap
    rw [nonBlank?_of_not_blank fun hall => hgap (blank_append.mp hall).1] at h
    by_cases hrest : Blank rest
    · rw [nonBlank?_of_blank hrest] at h
      cases h
    · rw [nonBlank?_of_not_blank hrest] at h
      exact trim_append_ne hgap hrest (Option.some.inj h)
  · intro hgap
    rw [nonBlank?, trim_append_of_blank hgap, nonBlank?]

section

variable {source : ByteArray} {clause keyword : Node} {comments : List Node} {target : Node}

theorem ExtendsTarget.not_blank (h : ExtendsTarget source clause keyword comments target)
    {c : Node} (hc : c ∈ comments) (hmark : startsWith "/" (c.text source) = true) :
    ¬ Blank (between source keyword.stop target.start) := by
  obtain ⟨cs, hcs⟩ := startsWith_slash_iff.mp hmark
  intro hblank
  have hslash := hblank '/' (by simp [h.between_eq hc, hcs])
  revert hslash
  decide

/-- A comment in front of a target that is there is a part of the supertype. -/
theorem ExtendsTarget.comment_infix (h : ExtendsTarget source clause keyword comments target)
    {c : Node} (hc : c ∈ comments) (hmark : startsWith "/" (c.text source) = true)
    (hrest : ¬ Blank (between source target.start clause.stop)) :
    (c.text source).toList <:+: (trim (between source keyword.stop target.start ++
      between source target.start clause.stop)).toList := by
  obtain ⟨cs, hcs⟩ := startsWith_slash_iff.mp hmark
  rw [toList_trim_append (h.not_blank hc hmark) hrest, h.between_eq hc]
  simp only [String.toList_append, hcs, List.cons_append]
  -- trimming from the left ends at the slash of the comment at the latest
  rw [trimLeft_append_cons (by decide)]
  refine ⟨trimLeft (between source keyword.stop c.start).toList,
    (between source c.stop target.start).toList ++
      trimRight (between source target.start clause.stop).toList, ?_⟩
  simp

theorem isSome_declaration? {classNode : Node} {supertype : String}
    (h : supertype? source classNode = some supertype) (accepts : String → Except Fault Bool)
    (file : String) :
    (declaration? accepts source file classNode).map Option.isSome = accepts supertype := by
  unfold declaration?
  rw [h]
  dsimp only
  cases accepts supertype with
  | error fault => rfl
  | ok accepted => cases accepted <;> rfl

/-- A supertype without a dot and without type arguments is its own bare
name. -/
theorem bareName_trim {s : String} (hs : ∀ c ∈ s.toList, c ≠ '.' ∧ c ≠ '<') :
    Supertype.bareName (trim s) = trim s := by
  have hparts : ∀ c ∈ (trim s).toList, c ≠ '.' ∧ c ≠ '<' := by
    intro c hc
    rw [toList_trim] at hc
    exact hs c (List.dropWhile_subset _ ((List.rdropWhile_prefix _ _).subset hc))
  have harguments : Supertype.withoutArguments (trim s).toList = (trim s).toList :=
    Supertype.withoutArguments_of_plain fun hmem => (hparts _ hmem).2 rfl
  have htrimmed : trimRight (trimLeft (trim s).toList) = (trim s).toList := by
    rw [toList_trim, trimLeft_trimRight, trimRight_trimRight, trimLeft_trimLeft]
  have hdots : Supertype.afterDot (trim s).toList = (trim s).toList :=
    Supertype.afterDot_of_plain fun hmem => (hparts _ hmem).1 rfl
  rw [Supertype.bareName, harguments, htrimmed, hdots, String.ofList_toList]

end

/-- The supertype of a class is all that its clause says after the keyword. It
is what the clause says from the target on exactly when nothing but blanks
stands between the two. Comments that stand there are a part of it: under the
substring policy the class is an error type when one of them mentions a
recognized name, and under the exact policy a plain target is recognized only
together with its comments. -/
theorem comments_belong_to_supertype (source : ByteArray) (file : String)
    (classNode heritage clause keyword : Node) (comments : List Node) (target : Node)
    (hheritage : classNode.namedChildren.find? (fun c => c.kind == "class_heritage") =
      some heritage)
    (hclause : extendsNode? heritage = some clause)
    (h : ExtendsTarget source clause keyword comments target) :
    let gap := between source keyword.stop target.start
    let rest := between source target.start clause.stop
    supertype? source classNode = nonBlank? (gap ++ rest) ∧
    (supertype? source classNode = nonBlank? rest ↔ Blank gap) ∧
    (¬ Blank rest → ∀ c ∈ comments, startsWith "/" (c.text source) = true →
      ∃ supertype, supertype? source classNode = some supertype ∧ supertype ≠ trim rest ∧
        contains (c.text source) supertype = true ∧
        ∀ names : List String,
          let bySubstring := (Matcher.ofTexts .substring names).accepts
          let byName := (Matcher.ofTexts .exact names).accepts
          ((∃ name ∈ names, contains name (c.text source) = true) →
            (declaration? bySubstring source file classNode).map Option.isSome = .ok true) ∧
          ((∀ ch ∈ (gap ++ rest).toList, ch ≠ '.' ∧ ch ≠ '<') →
            (declaration? byName source file classNode).map Option.isSome =
              .ok (names.contains supertype))) := by
  intro gap rest
  have hsupertype : supertype? source classNode = nonBlank? (gap ++ rest) :=
    supertype?_eq hheritage hclause h
  refine ⟨hsupertype, ?_, ?_⟩
  · rw [hsupertype]
    exact nonBlank?_append_eq_iff gap rest
  · intro hrest c hc hmark
    have hinfix := h.comment_infix hc hmark hrest
    have hsome : supertype? source classNode = some (trim (gap ++ rest)) := by
      rw [hsupertype]
      exact nonBlank?_of_not_blank fun hall => hrest (blank_append.mp hall).2
    refine ⟨trim (gap ++ rest), hsome, trim_append_ne (h.not_blank hc hmark) hrest,
      contains_iff.mpr hinfix, fun names => ⟨?_, ?_⟩⟩
    · rintro ⟨name, hname, hmentions⟩
      rw [isSome_declaration? hsome, Matcher.accepts_substring, Except.ok.injEq]
      exact List.any_eq_true.mpr
        ⟨name, hname, contains_iff.mpr ((contains_iff.mp hmentions).trans hinfix)⟩
    · intro hplain
      rw [isSome_declaration? hsome, Matcher.accepts_exact, bareName_trim hplain]

/-! ### A class with a comment before what it extends -/

def commentedSource (comment target : String) : ByteArray :=
  ("class A extends " ++ comment ++ " " ++ target ++ " \x7b\x7d").toUTF8

def extendsKeyword : Node := ⟨"extends", false, none, 8, 15, 0, []⟩

def commentNode (length : Nat) : Node := ⟨"comment", true, none, 16, 16 + length, 0, []⟩

def targetNode (start stop : Nat) : Node := ⟨"identifier", true, some "value", start, stop, 0, []⟩

/-- The node of a kind that holds the keyword, a comment and a target of given
lengths. -/
def commentedClause (kind : String) (comment target : Nat) : Node :=
  ⟨kind, true, none, 8, 17 + comment + target, 0,
    [extendsKeyword, commentNode comment, targetNode (17 + comment) (17 + comment + target)]⟩

def classWith (heritage : Node) : Node :=
  ⟨"class_declaration", true, none, 0, heritage.stop + 3, 0,
    [⟨"identifier", true, some "name", 6, 7, 0, []⟩, heritage]⟩

/-- The class with an own node for the clause. -/
def typedClass (comment target : Nat) : Node :=
  classWith ⟨"class_heritage", true, none, 8, 17 + comment + target, 0,
    [commentedClause "extends_clause" comment target]⟩

theorem commented_target_recorded_with_comment :
    let source := commentedSource "/*Error*/" "B"
    ExtendsTarget source (commentedClause "extends_clause" 9 1) extendsKeyword [commentNode 9]
        (targetNode 26 27) ∧
      ∃ supertype, supertype? source (typedClass 9 1) = some supertype ∧ supertype ≠ "B" ∧
        contains "/*Error*/" supertype = true ∧
        (declaration? (Matcher.ofTexts .substring ["Error"]).accepts source "a.ts"
          (typedClass 9 1)).map Option.isSome = .ok true := by
  intro source
  have htarget : ExtendsTarget source (commentedClause "extends_clause" 9 1) extendsKeyword
      [commentNode 9] (targetNode 26 27) :=
    ⟨⟨[], rfl⟩, by decide +kernel, by decide, by decide, by decide, by decide +kernel⟩
  have hrest : between source 26 27 = "B" := by decide +kernel
  have htext : ¬ Blank (between source 26 27) := by
    rw [hrest]
    decide
  have hcomment : (commentNode 9).text source = "/*Error*/" := by decide +kernel
  obtain ⟨-, -, hcomments⟩ := comments_belong_to_supertype source "a.ts" (typedClass 9 1) _ _ _ _ _
    rfl rfl htarget
  obtain ⟨supertype, hsome, hother, hcontains, hnames⟩ := hcomments htext (commentNode 9)
    (List.mem_singleton_self _) (by rw [hcomment]; decide)
  change supertype ≠ trim (between source 26 27) at hother
  rw [hrest] at hother
  rw [hcomment] at hcontains hnames
  exact ⟨htarget, supertype, hsome, hother, hcontains,
    (hnames ["Error"]).1 ⟨"Error", List.mem_singleton_self _, by decide⟩⟩

/-- A comment makes an error type of a class that extends none under one
policy, and hides one under the other, in either form of the clause. -/
theorem comment_decides_classification :
    let mentioning := commentedSource "/*Error*/" "B"
    let silent := commentedSource "/*c*/" "Error"
    let bySubstring := (Matcher.ofTexts .substring ["Error"]).accepts
    let byName := (Matcher.ofTexts .exact ["Error"]).accepts
    between mentioning 26 27 = "B" ∧ between silent 22 27 = "Error" ∧
    (∀ classNode ∈ [typedClass 9 1, classWith (commentedClause "class_heritage" 9 1)],
      supertype? mentioning classNode = some "/*Error*/ B" ∧ bySubstring "B" = .ok false ∧
        (declaration? bySubstring mentioning "a.ts" classNode).map Option.isSome = .ok true) ∧
    (∀ classNode ∈ [typedClass 5 5, classWith (commentedClause "class_heritage" 5 5)],
      supertype? silent classNode = some "/*c*/ Error" ∧ byName "Error" = .ok true ∧
        (declaration? byName silent "a.ts" classNode).map Option.isSome = .ok false) := by
  decide +kernel

end ThrowCatch.Sites
