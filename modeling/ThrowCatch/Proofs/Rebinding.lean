import ThrowCatch.Proofs.FallbackNames
import ThrowCatch.Proofs.Ownership

/-!
Clauses that take their error apart. A catch clause can bind names by a pattern
in place of a single name, and inside such a clause the names of the pattern
hide those of the clauses around it. The collector knows of single names only:
a test of a hidden name counts for the nearest clause whose variable is that
very name, as if the pattern were not there, and a clause with a pattern has no
tests of its own.
-/

namespace ThrowCatch.Sites

open Occurrence

/-- A clause binds a name by taking the error apart: the name is a shorthand
property of its pattern or an element of it. -/
def Destructures (source : ByteArray) (name : String) (clause : Node) : Prop :=
  ∃ pattern, clause.child? "parameter" = some pattern ∧
    ((pattern.kind = "object_pattern" ∧ ∃ c ∈ pattern.children,
        c.kind = "shorthand_property_identifier_pattern" ∧ c.text source = name) ∨
      (pattern.kind = "array_pattern" ∧ ∃ c ∈ pattern.children,
        c.kind = "identifier" ∧ c.text source = name))

section

variable {source : ByteArray} {name : String}

theorem Destructures.boundName? {clause : Node} (h : Destructures source name clause) :
    boundName? source clause = none := by
  obtain ⟨pattern, hpattern, hkind⟩ := h
  have hother : pattern.kind ≠ "identifier" := by
    rcases hkind with ⟨hkind, -⟩ | ⟨hkind, -⟩
    · simp [hkind]
    · simp [hkind]
  simp [Sites.boundName?, hpattern, hother]

theorem Destructures.binds_eq_false {clause : Node} (h : Destructures source name clause)
    (other : String) : binds source other clause = false := by
  simp [binds, h.boundName?]

/-- What lies below a place inside a clause's body lies in that body. -/
theorem mem_below_of_mem_body {body inner o : Occurrence} {innerBody : Occurrence}
    (hinner : inner ∈ body.below) (hbody : inner.child? "body" = some innerBody)
    (ho : o ∈ innerBody.below) : o ∈ body.below := by
  obtain ⟨hchild, habove⟩ := of_child?_eq_some hbody
  have hbelow : o ∈ inner.below := by
    rw [below, preorderFrom_eq_cons]
    refine List.mem_cons_of_mem _ (List.mem_flatMap.mpr ⟨innerBody.node, hchild, ?_⟩)
    rw [← habove]
    exact ho
  exact (below_sublist_preorderFrom hinner).subset hbelow

/-- A test in a clause's body counts for the clause when no clause in between
has the tested name for its variable. -/
theorem mem_contributions {clause body test : Occurrence} {type : String}
    (hbody : clause.child? "body" = some body) (htest : test ∈ body.below)
    (htype : typeTest? source test.node = some (name, type))
    (hnearest : nearestBinder? source name test.above = some clause) :
    (test, type) ∈ contributions source name clause := by
  have hkind : test.node.kind = "binary_expression" := by
    unfold typeTest? at htype
    split at htype
    · rename_i h
      exact h.1
    · cases htype
  have howned : ownedType? source name clause.node test = some type := by
    simp [ownedType?, testedType?_eq_typeTest? hkind, htype, bindingClause?_eq_nearestBinder?,
      hnearest, Node.sameSpan]
  unfold contributions
  rw [hbody]
  refine List.mem_filterMap.mpr ⟨test, mem_ofKind.mpr ⟨htest, hkind⟩, ?_⟩
  rw [howned]
  rfl

/-- The type of a test that counts for a clause names one of its sites. -/
theorem mem_names_of_mem_contributions {implicit file : String} {clause test : Occurrence}
    {type : String} (hname : boundName? source clause.node = some name)
    (h : (test, type) ∈ contributions source name clause) :
    type ∈ (interceptSites source implicit file clause).map (·.name) := by
  have htested : type ∈ testedTypes source clause := by
    rw [testedTypes_eq_contributions hname, List.mem_eraseDups]
    exact List.mem_map_of_mem h
  unfold interceptSites
  split
  · rename_i hnone
    rw [hnone] at htested
    cases htested
  · simpa [Function.comp_def] using htested

/-- A walk meets tests below the place where it starts. -/
theorem mem_preorderFrom_of_mem_scopedTests {above : List Node} {n : Node} {test : Occurrence}
    {type : String} (h : (test, type) ∈ scopedTests source name above n) :
    test ∈ preorderFrom above n := by
  induction n using Node.induction generalizing above with
  | step n ih =>
      rw [preorderFrom_eq_cons]
      cases hn : binds source name n with
      | true =>
          rw [scopedTests_of_binds hn] at h
          cases h
      | false =>
          rw [scopedTests_of_not_binds hn] at h
          rcases List.mem_append.mp h with h | h
          · unfold testAt at h
            split at h
            · split at h
              · simp only [List.mem_singleton, Prod.mk.injEq] at h
                rw [h.1]
                exact List.mem_cons_self
              · cases h
            · cases h
          · obtain ⟨c, hc, hmem⟩ := List.mem_flatMap.mp h
            exact List.mem_cons_of_mem _ (List.mem_flatMap.mpr ⟨c, hc, ih c hc hmem⟩)

/-- The tests in the body of a clause with a pattern count for the nearest
clause around it that has the tested name for its variable. -/
theorem Destructures.mem_contributions {clause body inner test : Occurrence} {type : String}
    (hpattern : Destructures source name inner.node) (hbody : clause.child? "body" = some body)
    (hinner : inner ∈ body.below) (hnearest : nearestBinder? source name inner.above = some clause)
    (h : (test, type) ∈ bodyTests source name inner) :
    (test, type) ∈ contributions source name clause := by
  unfold bodyTests at h
  cases hinnerBody : inner.child? "body" with
  | none => simp [hinnerBody] at h
  | some innerBody =>
      simp only [hinnerBody] at h
      obtain ⟨htype, habove⟩ := of_mem_scopedTests h
      -- the walk starts under the inner clause, which is no binder of the name
      rw [(of_child?_eq_some hinnerBody).2,
        nearestBinder?_cons_of_not_binds (hpattern.binds_eq_false name), hnearest] at habove
      have htest := mem_below_of_mem_body hinner hinnerBody
        (mem_preorderFrom_of_mem_scopedTests h)
      exact Sites.mem_contributions hbody htest htype habove

end

/-- A pattern hides nothing. Of the tests of a name inside a clause that binds
it by a pattern, an outer clause with this name for its variable is given
exactly those that have it for their nearest binder; when the outer clause is
the nearest one around the pattern, these are all that a walk of the inner body
meets, and their types are among the names of the outer clause. The clause with
the pattern is left with its declared type. -/
theorem patterns_hide_no_name (source : ByteArray) (implicit file : String) (root : Node)
    (hordered : root.Ordered) (hapart : ClausesApart root) (clause : Occurrence)
    (hclause : clause ∈ (Occurrence.root root).ofKind Search.catches.nodeKind) (name : String)
    (hname : boundName? source clause.node = some name) (body inner : Occurrence)
    (hbody : clause.child? "body" = some body)
    (hinner : inner ∈ body.ofKind Search.catches.nodeKind)
    (hpattern : Destructures source name inner.node) :
    interceptSites source implicit file inner =
        [⟨declaredType source implicit inner.node, .intercepted, ⟨file, inner.node.line⟩⟩] ∧
    (∀ innerBody, inner.child? "body" = some innerBody → ∀ test ∈ innerBody.below, ∀ type,
      typeTest? source test.node = some (name, type) →
        ((test, type) ∈ contributions source name clause ↔
          nearestBinder? source name test.above = some clause)) ∧
    (nearestBinder? source name inner.above = some clause →
      ∀ test type, (test, type) ∈ bodyTests source name inner →
        (test, type) ∈ contributions source name clause ∧
          type ∈ (interceptSites source implicit file clause).map (·.name)) := by
  have hbelow := (mem_ofKind.mp hinner).1
  refine ⟨?_, ?_, ?_⟩
  · have hnone : testedTypes source inner = [] := by
      simp [testedTypes, hpattern.boundName?]
    exact interceptSites_of_no_test hnone implicit file
  · intro innerBody hinnerBody test htest type htype
    constructor
    · intro h
      exact (nearestBinder?_of_mem_contributions hordered hapart hclause hname h).2
    · exact Sites.mem_contributions hbody (mem_below_of_mem_body hbelow hinnerBody htest) htype
  · intro hnearest test type h
    have hcounted := hpattern.mem_contributions hbody hbelow hnearest h
    exact ⟨hcounted, mem_names_of_mem_contributions hname hcounted⟩

/-! ### A clause that takes its error apart inside another one -/

/-- A clause with the variable `e`, and in its body one that binds `e` between
two brackets and tests it. -/
def patternSource (opening closing : String) : ByteArray :=
  ("try\x7b\x7dcatch(e)\x7btry\x7b\x7dcatch(" ++ opening ++ "e" ++ closing ++
    ")\x7be instanceof A\x7d\x7d").toUTF8

def patternClause (pattern element : String) : Node :=
  ⟨"catch_clause", true, none, 19, 45, 0,
    [⟨pattern, true, some "parameter", 25, 28, 0, [⟨element, true, none, 26, 27, 0, []⟩]⟩,
      ⟨"statement_block", true, some "body", 29, 45, 0, [testNode 30]⟩]⟩

def patternTree (pattern element : String) : Node :=
  clauseNode 5 46 [patternClause pattern element]

/-- The place of the inner clause. -/
def patternPlace (pattern element : String) : Occurrence :=
  ⟨patternClause pattern element,
    [⟨"statement_block", true, some "body", 13, 46, 0, [patternClause pattern element]⟩,
      patternTree pattern element]⟩

section

variable (pattern element : String)

theorem root_patternTree_mem :
    root (patternTree pattern element) ∈
      (root (patternTree pattern element)).ofKind Search.catches.nodeKind := by
  rw [mem_ofKind, below, preorderFrom_eq_cons]
  exact ⟨List.mem_cons_self, rfl⟩

theorem patternPlace_mem {body : Occurrence}
    (hbody : (root (patternTree pattern element)).child? "body" = some body) :
    patternPlace pattern element ∈ body.ofKind Search.catches.nodeKind := by
  cases hbody
  refine mem_ofKind.mpr ⟨?_, rfl⟩
  rw [below, preorderFrom_eq_cons]
  refine List.mem_cons_of_mem _ (List.mem_flatMap.mpr ⟨_, List.mem_singleton_self _, ?_⟩)
  rw [preorderFrom_eq_cons]
  exact List.mem_cons_self

theorem nearestBinder?_patternPlace {source : ByteArray}
    (hname : boundName? source (patternTree pattern element) = some "e") :
    nearestBinder? source "e" (patternPlace pattern element).above =
      some (root (patternTree pattern element)) := by
  rw [patternPlace, nearestBinder?_cons_of_not_binds (by rfl)]
  have hbinds : binds source "e" (patternTree pattern element) = true := by
    rw [binds, hname]
    rfl
  exact nearestBinder?_cons_of_binds hbinds []

end

theorem array_pattern_hides_no_name :
    let source := patternSource "[" "]"
    let tree := patternTree "array_pattern" "identifier"
    let inner := patternPlace "array_pattern" "identifier"
    tree.Ordered ∧ ClausesApart tree ∧ Destructures source "e" inner.node ∧
      "A" ∈ (interceptSites source "unknown" "a.ts" (root tree)).map (·.name) ∧
      (interceptSites source "unknown" "a.ts" inner).length = 1 := by
  intro source tree inner
  have hordered : tree.Ordered := by decide
  have hapart : ClausesApart tree := by decide
  have hname : boundName? source tree = some "e" := by decide +kernel
  have hpattern : Destructures source "e" inner.node :=
    ⟨_, rfl, .inr ⟨rfl, _, List.mem_singleton_self _, rfl, by decide +kernel⟩⟩
  obtain ⟨hown, -, houter⟩ := patterns_hide_no_name source "unknown" "a.ts" tree hordered hapart
    (root tree) (root_patternTree_mem _ _) "e" hname _ inner rfl (patternPlace_mem _ _ rfl) hpattern
  have htests : "A" ∈ (bodyTests source "e" inner).map (·.2) := by decide +kernel
  obtain ⟨⟨test, _⟩, htest, rfl⟩ := List.mem_map.mp htests
  refine ⟨hordered, hapart, hpattern, ?_, ?_⟩
  · exact (houter (nearestBinder?_patternPlace _ _ hname) test _ htest).2
  · rw [hown]
    rfl

/-- A test of the name that an inner clause binds by a pattern is given to the
outer clause. -/
theorem shorthand_property_taken_for_outer_variable :
    let source := patternSource "\x7b" "\x7d"
    let tree := patternTree "object_pattern" "shorthand_property_identifier_pattern"
    let inner := patternPlace "object_pattern" "shorthand_property_identifier_pattern"
    boundName? source tree = some "e" ∧
      (∃ body, (root tree).child? "body" = some body ∧
        inner ∈ body.ofKind Search.catches.nodeKind) ∧
      Destructures source "e" inner.node ∧
      (∃ test, (test, "A") ∈ bodyTests source "e" inner ∧
        (test, "A") ∈ contributions source "e" (root tree)) ∧
      "A" ∈ (interceptSites source "unknown" "a.ts" (root tree)).map (·.name) := by
  intro source tree inner
  have hname : boundName? source tree = some "e" := by decide +kernel
  have hpattern : Destructures source "e" inner.node :=
    ⟨_, rfl, .inl ⟨rfl, _, List.mem_singleton_self _, rfl, by decide +kernel⟩⟩
  have htests : "A" ∈ (bodyTests source "e" inner).map (·.2) := by decide +kernel
  obtain ⟨⟨test, _⟩, htest, rfl⟩ := List.mem_map.mp htests
  have hinner := patternPlace_mem "object_pattern" "shorthand_property_identifier_pattern" rfl
  have hcounted : (test, "A") ∈ contributions source "e" (root tree) :=
    hpattern.mem_contributions rfl (mem_ofKind.mp hinner).1
      (nearestBinder?_patternPlace _ _ hname) htest
  exact ⟨hname, ⟨_, rfl, hinner⟩, hpattern, ⟨test, htest, hcounted⟩,
    mem_names_of_mem_contributions hname hcounted⟩

end ThrowCatch.Sites
