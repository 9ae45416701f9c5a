import Mathlib.Data.List.Basic
import ThrowCatch.Proofs.Distinct
import ThrowCatch.Proofs.Preorder

/-!
Which catch clause a type test belongs to. The collector decides this from
below: it looks at every test in a clause's body and asks for the nearest
clause above the test that binds the tested name. The meaning is a walk from
above that goes through the body and stops at every clause binding the name
anew. The two agree in every tree whose byte ranges are ordered and tell its
catch clauses apart.
-/

namespace ThrowCatch.Sites

open Occurrence

/-! ### Tests and the clauses around them -/

def typeText (source : ByteArray) (n : Node) : String :=
  Text.trim (((n.child? "right").map (·.text source)).getD "")

/-- The name and the type of a test `name instanceof Type`. The name may
stand in parentheses. -/
def typeTest? (source : ByteArray) (n : Node) : Option (String × String) :=
  if n.kind = "binary_expression" ∧ (n.child? "operator").map (·.kind) = some "instanceof" ∧
      typeText source n ≠ "" then
    match (n.child? "left").bind unwrap with
    | some left =>
      if left.kind = "identifier" then some (left.text source, typeText source n) else none
    | none => none
  else none

/-- Whether a node is a catch clause whose variable is a name. -/
def binds (source : ByteArray) (name : String) (n : Node) : Bool :=
  n.kind == "catch_clause" && boundName? source n == some name

/-- The places of the nodes above a place, the nearest first. -/
def enclosing : List Node → List Occurrence
  | [] => []
  | n :: above => ⟨n, above⟩ :: enclosing above

def nearestBinder? (source : ByteArray) (name : String) (above : List Node) :
    Option Occurrence :=
  (enclosing above).find? fun o => binds source name o.node

/-- The test that a place itself is, with the type it tests for, when it tests
a name. -/
def testAt (source : ByteArray) (name : String) (o : Occurrence) : List (Occurrence × String) :=
  match typeTest? source o.node with
  | some (tested, type) => if tested = name then [(o, type)] else []
  | none => []

mutual

/-- The tests of a name met by a walk from the top that enters no clause
binding the name. -/
def scopedTests (source : ByteArray) (name : String) (above : List Node) :
    Node → List (Occurrence × String)
  | n@⟨_, _, _, _, _, _, children⟩ =>
    if binds source name n then []
    else testAt source name ⟨n, above⟩ ++ scopedTestsOf source name (n :: above) children

def scopedTestsOf (source : ByteArray) (name : String) (above : List Node) :
    List Node → List (Occurrence × String)
  | [] => []
  | c :: cs => scopedTests source name above c ++ scopedTestsOf source name above cs

end

/-- The tests of a name met by the scoped walk of a clause's body. -/
def bodyTests (source : ByteArray) (name : String) (clause : Occurrence) :
    List (Occurrence × String) :=
  match clause.child? "body" with
  | some body => scopedTests source name body.above body.node
  | none => []

/-- The tests the collector counts for a clause that binds a name, each with
the type it tests for. -/
def contributions (source : ByteArray) (name : String) (clause : Occurrence) :
    List (Occurrence × String) :=
  match clause.child? "body" with
  | some body =>
    (body.ofKind Search.typeTests.nodeKind).filterMap fun o =>
      (ownedType? source name clause.node o).map (o, ·)
  | none => []

/-- No two catch clauses of a tree cover the same bytes. -/
def ClausesApart (root : Node) : Prop :=
  ((Occurrence.root root).below.filter fun o => o.node.kind == "catch_clause").Pairwise
    fun a b => a.node.sameSpan b.node = false

instance (root : Node) : Decidable (ClausesApart root) :=
  inferInstanceAs (Decidable (List.Pairwise _ _))

theorem testedType?_eq_typeTest? {source : ByteArray} {n : Node}
    (hn : n.kind = "binary_expression") (name : String) :
    testedType? source name n =
      (typeTest? source n).bind fun t => if t.1 = name then some t.2 else none := by
  unfold testedType? typeTest?
  cases hop : n.child? "operator" with
  | none => simp
  | some operator =>
      by_cases hkind : operator.kind = "instanceof"
      · cases hleft : (n.child? "left").bind unwrap with
        | none => simp [hkind]
        | some left =>
            by_cases hid : left.kind = "identifier" <;>
              by_cases hname : left.text source = name <;>
                by_cases htext : typeText source n = "" <;>
                  simp_all [typeText]
      · simp [hkind]

theorem bindingClause?_eq_nearestBinder? (source : ByteArray) (name : String) (o : Occurrence) :
    bindingClause? source name o = (nearestBinder? source name o.above).map (·.node) := by
  change o.above.find? (binds source name) = _
  unfold nearestBinder?
  induction o.above with
  | nil => rfl
  | cons n above ih =>
      rw [List.find?_cons, enclosing, List.find?_cons]
      cases binds source name n with
      | true => rfl
      | false => exact ih

/-! ### The nearest binder on the way down -/

theorem nearestBinder?_cons_of_binds {source : ByteArray} {name : String} {n : Node}
    (hn : binds source name n = true) (above : List Node) :
    nearestBinder? source name (n :: above) = some ⟨n, above⟩ := by
  simp [nearestBinder?, enclosing, hn]

theorem nearestBinder?_cons_of_not_binds {source : ByteArray} {name : String} {n : Node}
    (hn : binds source name n = false) (above : List Node) :
    nearestBinder? source name (n :: above) = nearestBinder? source name above := by
  simp [nearestBinder?, enclosing, hn]

/-- Below a place whose nearest binder is known, the nearest binder is that
one or lies below the place itself. -/
theorem nearestBinder?_of_mem_preorderFrom {source : ByteArray} {name : String}
    {above : List Node} {n : Node} {binder o : Occurrence}
    (hbinder : nearestBinder? source name above = some binder)
    (ho : o ∈ preorderFrom above n) :
    ∃ owner, nearestBinder? source name o.above = some owner ∧
      (owner = binder ∨ owner ∈ preorderFrom above n ∧ binds source name owner.node) := by
  induction n using Node.induction generalizing above binder with
  | step n ih =>
      rw [preorderFrom_eq_cons] at ho
      rcases List.mem_cons.mp ho with rfl | ho
      · exact ⟨binder, hbinder, .inl rfl⟩
      obtain ⟨c, hc, hoc⟩ := List.mem_flatMap.mp ho
      have hpart : ∀ x ∈ preorderFrom (n :: above) c, x ∈ preorderFrom above n := by
        intro x hx
        rw [preorderFrom_eq_cons]
        exact List.mem_cons_of_mem _ (List.mem_flatMap.mpr ⟨c, hc, hx⟩)
      cases hn : binds source name n with
      | true =>
          obtain ⟨owner, howner, hcase⟩ := ih c hc (nearestBinder?_cons_of_binds hn above) hoc
          refine ⟨owner, howner, .inr ?_⟩
          rcases hcase with rfl | ⟨hmem, hbinds⟩
          · rw [preorderFrom_eq_cons]
            exact ⟨List.mem_cons_self, hn⟩
          · exact ⟨hpart owner hmem, hbinds⟩
      | false =>
          have hbinder' : nearestBinder? source name (n :: above) = some binder :=
            (nearestBinder?_cons_of_not_binds hn above).trans hbinder
          obtain ⟨owner, howner, hcase⟩ := ih c hc hbinder' hoc
          exact ⟨owner, howner, hcase.imp_right fun h => ⟨hpart owner h.1, h.2⟩⟩

/-! ### The scoped walk finds what the collector counts -/

theorem scopedTestsOf_eq_flatMap (source : ByteArray) (name : String) (above cs : List Node) :
    scopedTestsOf source name above cs = cs.flatMap (scopedTests source name above) := by
  induction cs with
  | nil => simp [scopedTestsOf]
  | cons c cs ih => simp [scopedTestsOf, ih]

theorem scopedTests_of_binds {source : ByteArray} {name : String} {n : Node}
    (hn : binds source name n = true) (above : List Node) :
    scopedTests source name above n = [] := by
  cases n
  simp [scopedTests, hn]

theorem scopedTests_of_not_binds {source : ByteArray} {name : String} {n : Node}
    (hn : binds source name n = false) (above : List Node) :
    scopedTests source name above n = testAt source name ⟨n, above⟩ ++
      n.children.flatMap (scopedTests source name (n :: above)) := by
  cases n
  rw [scopedTests, if_neg (by simp [hn]), scopedTestsOf_eq_flatMap]

/-- The tests at some places that the collector counts for a clause. -/
def countedAt (source : ByteArray) (name : String) (clause : Node) (places : List Occurrence) :
    List (Occurrence × String) :=
  (places.filter fun o => o.node.kind == Search.typeTests.nodeKind).filterMap fun o =>
    (ownedType? source name clause o).map (o, ·)

/-- Below a clause that binds the name anew nothing is counted. -/
theorem countedAt_eq_nil {source : ByteArray} {name : String} {clause : Node}
    {above : List Node} {n : Node} {binder : Occurrence}
    (hbinder : nearestBinder? source name above = some binder)
    (hother : binder.node.sameSpan clause = false)
    (hapart : ∀ o ∈ preorderFrom above n, binds source name o.node →
      o.node.sameSpan clause = false) :
    countedAt source name clause (preorderFrom above n) = [] := by
  refine List.filterMap_eq_nil_iff.mpr ?_
  intro o ho
  have hmem := (List.mem_filter.mp ho).1
  obtain ⟨owner, howner, hcase⟩ := nearestBinder?_of_mem_preorderFrom hbinder hmem
  have hspan : owner.node.sameSpan clause = false := by
    rcases hcase with rfl | ⟨hin, hbinds⟩
    · exact hother
    · exact hapart owner hin hbinds
  simp [ownedType?, bindingClause?_eq_nearestBinder?, howner, hspan]

theorem countedAt_cons (source : ByteArray) (name : String) (clause : Node) (o : Occurrence)
    (places : List Occurrence) :
    countedAt source name clause (o :: places) =
      countedAt source name clause [o] ++ countedAt source name clause places := by
  rw [countedAt, ← List.singleton_append, List.filter_append, List.filterMap_append]
  rfl

theorem countedAt_flatMap (source : ByteArray) (name : String) (clause : Node)
    (cs : List Node) (f : Node → List Occurrence) :
    countedAt source name clause (cs.flatMap f) =
      cs.flatMap fun c => countedAt source name clause (f c) := by
  induction cs with
  | nil => rfl
  | cons c cs ih =>
      rw [List.flatMap_cons, List.flatMap_cons, ← ih, countedAt, List.filter_append,
        List.filterMap_append]
      rfl

/-- A place whose nearest binder is the clause is counted for it exactly when
it tests the name. -/
theorem countedAt_singleton {source : ByteArray} {name : String} {clause o : Occurrence}
    (hbinder : nearestBinder? source name o.above = some clause) :
    countedAt source name clause.node [o] = testAt source name o := by
  unfold countedAt testAt
  by_cases hkind : o.node.kind = "binary_expression"
  · have hself : clause.node.sameSpan clause.node = true := by simp [Node.sameSpan]
    rw [List.filter_cons_of_pos (by simpa [Search.nodeKind] using hkind), List.filter_nil,
      List.filterMap_cons, List.filterMap_nil, ownedType?, testedType?_eq_typeTest? hkind,
      bindingClause?_eq_nearestBinder?, hbinder]
    cases typeTest? source o.node with
    | none => rfl
    | some test =>
        by_cases hname : test.1 = name <;> simp [hname, hself]
  · have hnone : typeTest? source o.node = none := by simp [typeTest?, hkind]
    rw [List.filter_cons_of_neg (by simpa [Search.nodeKind] using hkind), hnone]
    rfl

/-- The walk from above and the count from below agree under a place whose
nearest binder is the clause, when no clause below the place covers the same
bytes. -/
theorem countedAt_eq_scopedTests {source : ByteArray} {name : String} {clause : Occurrence}
    {above : List Node} {n : Node}
    (hbinder : nearestBinder? source name above = some clause)
    (hapart : ∀ o ∈ preorderFrom above n, binds source name o.node →
      o.node.sameSpan clause.node = false) :
    countedAt source name clause.node (preorderFrom above n) =
      scopedTests source name above n := by
  induction n using Node.induction generalizing above with
  | step n ih =>
      rw [preorderFrom_eq_cons] at hapart ⊢
      have hself := hapart ⟨n, above⟩ List.mem_cons_self
      have hchild : ∀ c ∈ n.children, ∀ o ∈ preorderFrom (n :: above) c,
          binds source name o.node → o.node.sameSpan clause.node = false := by
        intro c hc o ho
        exact hapart o (List.mem_cons_of_mem _ (List.mem_flatMap.mpr ⟨c, hc, ho⟩))
      rw [countedAt_cons, countedAt_flatMap, countedAt_singleton hbinder]
      cases hn : binds source name n with
      | true =>
          -- A clause is no test, and below it the nearest binder is the clause itself.
          have htest : testAt source name ⟨n, above⟩ = [] := by
            have hkind : n.kind = "catch_clause" := by
              simp only [binds, Bool.and_eq_true, beq_iff_eq] at hn
              exact hn.1
            simp [testAt, typeTest?, hkind]
          rw [scopedTests_of_binds hn, htest, List.nil_append]
          refine List.flatMap_eq_nil_iff.mpr fun c hc => ?_
          exact countedAt_eq_nil (nearestBinder?_cons_of_binds hn above) (hself hn) (hchild c hc)
      | false =>
          rw [scopedTests_of_not_binds hn]
          congr 1
          refine List.flatMap_congr fun c hc => ?_
          exact ih c hc ((nearestBinder?_cons_of_not_binds hn above).trans hbinder) (hchild c hc)

/-- The walk meets only tests of the name, and none across a binder. -/
theorem of_mem_scopedTests {source : ByteArray} {name : String} {above : List Node} {n : Node}
    {test : Occurrence} {type : String} (h : (test, type) ∈ scopedTests source name above n) :
    typeTest? source test.node = some (name, type) ∧
      nearestBinder? source name test.above = nearestBinder? source name above := by
  induction n using Node.induction generalizing above with
  | step n ih =>
      cases hn : binds source name n with
      | true =>
          rw [scopedTests_of_binds hn] at h
          cases h
      | false =>
          rw [scopedTests_of_not_binds hn] at h
          rcases List.mem_append.mp h with h | h
          · unfold testAt at h
            split at h
            · rename_i tested found htest
              split at h
              · simp only [List.mem_singleton, Prod.mk.injEq] at h
                obtain ⟨rfl, rfl⟩ := h
                subst tested
                exact ⟨htest, rfl⟩
              · cases h
            · cases h
          · obtain ⟨c, hc, hmem⟩ := List.mem_flatMap.mp h
            have hih := ih c hc hmem
            exact ⟨hih.1, hih.2.trans (nearestBinder?_cons_of_not_binds hn above)⟩

/-! ### Clauses of a tree -/

theorem sameSpan_comm (a b : Node) : a.sameSpan b = b.sameSpan a := by
  simp only [Node.sameSpan, Bool.beq_comm]

theorem of_child?_eq_some {o child : Occurrence} {field : String}
    (h : o.child? field = some child) :
    child.node ∈ o.node.children ∧ child.above = o.node :: o.above := by
  obtain ⟨c, hc, rfl⟩ := Option.map_eq_some_iff.mp h
  exact ⟨List.mem_of_find?_eq_some hc, rfl⟩

/-- A clause covers other bytes than every clause below it. -/
theorem sameSpan_of_mem_below {root : Node} (hapart : ClausesApart root)
    {clause child o : Occurrence} {field : String}
    (hclause : clause ∈ (Occurrence.root root).ofKind Search.catches.nodeKind)
    (hchild : clause.child? field = some child) (ho : o ∈ child.below)
    (hkind : o.node.kind = "catch_clause") : o.node.sameSpan clause.node = false := by
  obtain ⟨hmem, hcatch⟩ := mem_ofKind.mp hclause
  obtain ⟨hin, habove⟩ := of_child?_eq_some hchild
  have hpairs := hapart.sublist ((below_sublist_preorderFrom hmem).filter _)
  have hbelow : o ∈ clause.node.children.flatMap
      (preorderFrom (clause.node :: clause.above)) := by
    refine List.mem_flatMap.mpr ⟨child.node, hin, ?_⟩
    rw [← habove]
    exact ho
  rw [below, preorderFrom_eq_cons,
    List.filter_cons_of_pos (by simp [hcatch, Search.nodeKind])] at hpairs
  rw [sameSpan_comm]
  exact List.rel_of_pairwise_cons hpairs (List.mem_filter.mpr ⟨hbelow, by simpa using hkind⟩)

theorem nearestBinder?_body {source : ByteArray} {root : Node} {clause body : Occurrence}
    (hclause : clause ∈ (Occurrence.root root).ofKind Search.catches.nodeKind)
    {name : String} (hname : boundName? source clause.node = some name)
    (hbody : clause.child? "body" = some body) :
    nearestBinder? source name body.above = some clause := by
  have hbinds : binds source name clause.node = true := by
    simp [binds, hname, (mem_ofKind.mp hclause).2, Search.nodeKind]
  rw [(of_child?_eq_some hbody).2]
  exact nearestBinder?_cons_of_binds hbinds clause.above

theorem contributions_eq_bodyTests {source : ByteArray} {root : Node}
    (hordered : root.Ordered) (hapart : ClausesApart root) {clause : Occurrence}
    (hclause : clause ∈ (Occurrence.root root).ofKind Search.catches.nodeKind)
    {name : String} (hname : boundName? source clause.node = some name) :
    contributions source name clause = bodyTests source name clause := by
  unfold contributions bodyTests
  cases hbody : clause.child? "body" with
  | none => rfl
  | some body =>
      obtain ⟨_, _, _, hbelow⟩ :=
        ordered_of_mem_preorderFrom hordered (mem_ofKind.mp hclause).1
      change (body.ofKind Search.typeTests.nodeKind).filterMap _ = _
      rw [ofKind_eq_filter _ (hbelow body.node (of_child?_eq_some hbody).1)]
      refine countedAt_eq_scopedTests (nearestBinder?_body hclause hname hbody) ?_
      intro o ho ho'
      refine sameSpan_of_mem_below hapart hclause hbody ho ?_
      simp only [binds, Bool.and_eq_true, beq_iff_eq] at ho'
      exact ho'.1

/-- What the collector counts has the types of a clause, each once. -/
theorem testedTypes_eq_contributions {source : ByteArray} {name : String} {clause : Occurrence}
    (hname : boundName? source clause.node = some name) :
    testedTypes source clause = ((contributions source name clause).map (·.2)).eraseDups := by
  unfold testedTypes contributions
  rw [hname]
  cases clause.child? "body" with
  | none => rfl
  | some body =>
      simp only [distinct_eq_eraseDups, List.map_filterMap]
      simp only [Option.map_map, Function.comp_def, Option.map_id']

theorem nearestBinder?_of_mem_contributions {source : ByteArray} {root : Node}
    (hordered : root.Ordered) (hapart : ClausesApart root) {clause : Occurrence}
    (hclause : clause ∈ (Occurrence.root root).ofKind Search.catches.nodeKind)
    {name : String} (hname : boundName? source clause.node = some name)
    {test : Occurrence} {type : String} (h : (test, type) ∈ contributions source name clause) :
    typeTest? source test.node = some (name, type) ∧
      nearestBinder? source name test.above = some clause := by
  rw [contributions_eq_bodyTests hordered hapart hclause hname] at h
  unfold bodyTests at h
  cases hbody : clause.child? "body" with
  | none => simp [hbody] at h
  | some body =>
      simp only [hbody] at h
      obtain ⟨htest, hnearest⟩ := of_mem_scopedTests h
      exact ⟨htest, hnearest.trans (nearestBinder?_body hclause hname hbody)⟩

/-- The names a clause intercepts are the types its variable is tested against
in a walk of its body that enters no clause binding the variable anew, each at
its first appearance. Hence a test counts for one clause only: the nearest
around it that binds the tested name. -/
theorem type_tests_belong_to_nearest_binder (source : ByteArray) (implicit file : String)
    (root : Node) (hordered : root.Ordered) (hapart : ClausesApart root) :
    (∀ clause ∈ (Occurrence.root root).ofKind Search.catches.nodeKind, ∀ name,
      boundName? source clause.node = some name →
        contributions source name clause = bodyTests source name clause ∧
        (bodyTests source name clause ≠ [] →
          (interceptSites source implicit file clause).map (·.name) =
            ((bodyTests source name clause).map (·.2)).eraseDups)) ∧
    (∀ clause ∈ (Occurrence.root root).ofKind Search.catches.nodeKind, ∀ name,
      boundName? source clause.node = some name →
        ∀ test type, (test, type) ∈ contributions source name clause →
          typeTest? source test.node = some (name, type) ∧
            nearestBinder? source name test.above = some clause) ∧
    (∀ clause ∈ (Occurrence.root root).ofKind Search.catches.nodeKind,
      ∀ clause' ∈ (Occurrence.root root).ofKind Search.catches.nodeKind,
      ∀ name name', boundName? source clause.node = some name →
        boundName? source clause'.node = some name' →
          ∀ test type type', (test, type) ∈ contributions source name clause →
            (test, type') ∈ contributions source name' clause' → clause = clause') := by
  refine ⟨?_, ?_, ?_⟩
  · intro clause hclause name hname
    have hcounted := contributions_eq_bodyTests hordered hapart hclause hname
    refine ⟨hcounted, ?_⟩
    intro htests
    have htypes := testedTypes_eq_contributions hname
    rw [hcounted] at htypes
    have hsome : ((bodyTests source name clause).map (·.2)).eraseDups ≠ [] := by
      cases hlist : bodyTests source name clause with
      | nil => exact absurd hlist htests
      | cons t ts => simp [List.eraseDups_cons]
    unfold interceptSites
    rw [htypes]
    split
    · rename_i hnil
      exact absurd hnil hsome
    · simp [Function.comp_def]
  · intro clause hclause name hname test type htest
    exact nearestBinder?_of_mem_contributions hordered hapart hclause hname htest
  · intro clause hclause clause' hclause' name name' hname hname' test type type' htest htest'
    obtain ⟨hread, hnearest⟩ :=
      nearestBinder?_of_mem_contributions hordered hapart hclause hname htest
    obtain ⟨hread', hnearest'⟩ :=
      nearestBinder?_of_mem_contributions hordered hapart hclause' hname' htest'
    have hsame : name = name' := by
      rw [hread] at hread'
      exact congrArg Prod.fst (Option.some.inj hread')
    subst hsame
    exact Option.some.inj (hnearest.symm.trans hnearest')

/-! ### An outer clause with two clauses inside, one of which binds its name -/

def nestedSource : ByteArray :=
  "try{}catch(e){e instanceof A;try{}catch(f){e instanceof B}try{}catch(e){e instanceof C}}".toUTF8

def leafNode (kind field : String) (start stop : Nat) : Node :=
  ⟨kind, true, some field, start, stop, 0, []⟩

/-- A test whose operands have one character each. -/
def testNode (start : Nat) : Node :=
  ⟨"binary_expression", true, none, start, start + 14, 0,
    [leafNode "identifier" "left" start (start + 1),
      leafNode "instanceof" "operator" (start + 2) (start + 12),
      leafNode "identifier" "right" (start + 13) (start + 14)]⟩

/-- A clause whose variable has one character. -/
def clauseNode (start stop : Nat) (inside : List Node) : Node :=
  ⟨"catch_clause", true, none, start, stop, 0,
    [leafNode "identifier" "parameter" (start + 6) (start + 7),
      ⟨"statement_block", true, some "body", start + 8, stop, 0, inside⟩]⟩

def nestedTree : Node :=
  clauseNode 5 88 [testNode 14, clauseNode 34 58 [testNode 43], clauseNode 63 87 [testNode 72]]

theorem bodyTests_nestedTree :
    (bodyTests nestedSource "e" (root nestedTree)).map (·.2) = ["A", "B"] := by
  decide +kernel

theorem nested_clause_intercepts_own_tests :
    nestedTree.Ordered ∧ ClausesApart nestedTree ∧
      (interceptSites nestedSource "unknown" "a.ts" (root nestedTree)).map (·.name) =
        ["A", "B"] := by
  have hordered : nestedTree.Ordered := by decide
  have hapart : ClausesApart nestedTree := by decide
  have hclause : root nestedTree ∈ (root nestedTree).ofKind Search.catches.nodeKind := by
    rw [mem_ofKind, below, preorderFrom_eq_cons]
    exact ⟨List.mem_cons_self, rfl⟩
  have htests : bodyTests nestedSource "e" (root nestedTree) ≠ [] := by
    intro h
    have hmap := bodyTests_nestedTree
    rw [h] at hmap
    cases hmap
  obtain ⟨hnames, _, _⟩ := type_tests_belong_to_nearest_binder nestedSource "unknown" "a.ts"
    nestedTree hordered hapart
  refine ⟨hordered, hapart, ?_⟩
  rw [(hnames _ hclause "e" (by decide +kernel)).2 htests, bodyTests_nestedTree]
  decide

end ThrowCatch.Sites
