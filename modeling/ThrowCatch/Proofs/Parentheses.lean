import Mathlib.Data.List.Forall2
import Mathlib.Data.Option.Basic
import ThrowCatch.Proofs.Preorder
import ThrowCatch.Sites.Collected

/-!
Parentheses and comments around an expression. What a throw raises and what a
test tests is read off the expression inside all parentheses, and on the way
there comments are passed over. So an expression may be put into parentheses,
with comments at any place before and behind it: the statement gives the same
site and the test the same type as before, although the expression then stands
at other bytes of another text.
-/

namespace ThrowCatch

namespace Node

/-- Two nodes that read alike, each in its own source: they are of one kind
and cover the same text, and so do their children, which fill the same fields.
Where the nodes stand and which field they fill themselves is left open. -/
inductive Alike (source source' : ByteArray) : Node → Node → Prop
  | mk {n n' : Node} (kind : n.kind = n'.kind) (named : n.named = n'.named)
      (text : n.text source = n'.text source')
      (fields : n.children.map (·.field) = n'.children.map (·.field))
      (children : List.Forall₂ (Alike source source') n.children n'.children) :
      Alike source source' n n'

/-- An expression that stands in a node with nothing but punctuation and
comments before it. -/
def FirstInside (n e : Node) : Prop :=
  ∃ before after, n.children = before ++ e :: after ∧
    (∀ c ∈ before, c.named = false ∨ c.isComment = true) ∧ e.named = true ∧ e.isComment = false

/-- A node that holds an expression in any number of parentheses, with comments
at every level. The expression is known from `source` and held in `source'`. -/
inductive Wraps (source source' : ByteArray) (e : Node) : Node → Prop
  | bare {n : Node} (alike : Alike source source' e n) : Wraps source source' e n
  | parentheses {n inner : Node} (kind : n.kind = "parenthesized_expression")
      (first : n.FirstInside inner) (inside : Wraps source source' e inner) :
      Wraps source source' e n

section

variable {source source' : ByteArray} {n n' : Node}

/-! ### Nodes that read alike -/

theorem Alike.kind_eq (h : Alike source source' n n') : n.kind = n'.kind := by
  cases h with
  | mk kind => exact kind

theorem Alike.text_eq (h : Alike source source' n n') : n.text source = n'.text source' := by
  cases h with
  | mk _ _ text => exact text

theorem Alike.isExpression_eq (h : Alike source source' n n') :
    (n.named && !n.isComment) = (n'.named && !n'.isComment) := by
  cases h with
  | mk kind named => rw [isComment, isComment, kind, named]

/-- A test that agrees on children at the same place finds children that read
alike. -/
theorem find?_alike {p : Node → Bool} {cs cs' : List Node}
    (hchildren : List.Forall₂ (Alike source source') cs cs') (htests : cs.map p = cs'.map p) :
    Option.Rel (Alike source source') (cs.find? p) (cs'.find? p) := by
  induction hchildren with
  | nil => exact .none
  | @cons c c' cs cs' hc _ ih =>
      obtain ⟨hp, htests⟩ := List.cons_eq_cons.mp htests
      rw [List.find?_cons, List.find?_cons, ← hp]
      cases p c with
      | true => exact .some hc
      | false => exact ih htests

theorem Alike.child? (h : Alike source source' n n') (field : String) :
    Option.Rel (Alike source source') (n.child? field) (n'.child? field) := by
  obtain ⟨_, _, _, hfields, hchildren⟩ := h
  apply find?_alike hchildren
  have htests := congrArg (List.map fun f => f == some field) hfields
  simpa only [List.map_map, Function.comp_def] using htests

theorem map_text_alike {x y : Option Node} (h : Option.Rel (Alike source source') x y) :
    x.map (·.text source) = y.map (·.text source') := by
  cases h with
  | none => rfl
  | some h => exact congrArg some h.text_eq

theorem bind_alike {x y : Option Node} {f : Node → Option Node}
    (h : Option.Rel (Alike source source') x y)
    (hf : ∀ e e', x = some e → Alike source source' e e' →
      Option.Rel (Alike source source') (f e) (f e')) :
    Option.Rel (Alike source source') (x.bind f) (y.bind f) := by
  cases h with
  | none => exact .none
  | some h => exact hf _ _ rfl h

end

end Node

namespace Sites

open Node

variable {source source' : ByteArray}

/-! ### The expression inside -/

theorem firstExpression?_eq_find? (n : Node) :
    firstExpression? n = n.children.find? fun c => c.named && !c.isComment := by
  simp [firstExpression?, namedChildren, List.find?_filter, Bool.decide_and]

theorem firstExpression?_eq_some_iff {n e : Node} :
    firstExpression? n = some e ↔ n.FirstInside e := by
  rw [firstExpression?_eq_find?, List.find?_eq_some_iff_append]
  constructor
  · rintro ⟨he, before, after, hchildren, hbefore⟩
    simp only [Bool.and_eq_true, Bool.not_eq_true'] at he
    refine ⟨before, after, hchildren, ?_, he⟩
    intro c hc
    have hskipped := hbefore c hc
    cases hnamed : c.named with
    | false => exact .inl rfl
    | true => exact .inr (by simpa [hnamed] using hskipped)
  · rintro ⟨before, after, hchildren, hbefore, hnamed, hcomment⟩
    refine ⟨by simp [hnamed, hcomment], before, after, hchildren, ?_⟩
    intro c hc
    rcases hbefore c hc with h | h
    · simp [h]
    · simp [h]

theorem unwrapFirst_eq (cs : List Node) :
    unwrapFirst cs = (cs.find? fun c => c.named && !c.isComment).bind unwrap := by
  induction cs with
  | nil => rw [unwrapFirst]; rfl
  | cons c cs ih =>
      rw [unwrapFirst, List.find?_cons]
      cases hc : c.named && !c.isComment with
      | true => simp
      | false => simpa using ih

/-- Parentheses are entered by their first expression, as a throw statement
is. -/
theorem unwrap_eq (n : Node) :
    unwrap n = if n.kind = "parenthesized_expression" then (firstExpression? n).bind unwrap
      else some n := by
  obtain ⟨kind, named, field, start, stop, row, children⟩ := n
  rw [unwrap, unwrapFirst_eq, firstExpression?_eq_find?]
  simp only [beq_iff_eq]

theorem firstExpression?_alike {n n' : Node} (h : Alike source source' n n') :
    Option.Rel (Alike source source') (firstExpression? n) (firstExpression? n') := by
  obtain ⟨_, _, _, _, hchildren⟩ := h
  rw [firstExpression?_eq_find?, firstExpression?_eq_find?]
  apply find?_alike hchildren
  rw [← List.forall₂_eq_eq_eq, List.forall₂_map_left_iff, List.forall₂_map_right_iff]
  exact hchildren.imp fun c c' hc => hc.isExpression_eq

/-- What the parentheses of nodes that read alike hold reads alike. -/
theorem unwrap_alike {n n' : Node} (h : Alike source source' n n') :
    Option.Rel (Alike source source') (unwrap n) (unwrap n') := by
  induction n using Node.induction generalizing n' with
  | step n ih =>
      rw [unwrap_eq n, unwrap_eq n', ← h.kind_eq]
      split
      -- the first expressions read alike, and they are children
      · apply bind_alike (firstExpression?_alike h)
        intro e e' he hee'
        rw [firstExpression?_eq_find?] at he
        exact ih e (List.mem_of_find?_eq_some he) hee'
      · exact .some h

/-- Parentheses and comments are passed on the way to an expression. -/
theorem unwrap_wraps {e n : Node} (h : Wraps source source' e n) :
    Option.Rel (Alike source source') (unwrap e) (unwrap n) := by
  induction h with
  | bare h => exact unwrap_alike h
  | @parentheses n inner hkind hfirst _ ih =>
      rw [unwrap_eq n, if_pos hkind, firstExpression?_eq_some_iff.mpr hfirst]
      exact ih

/-! ### Throws and tests -/

/-- What a statement raises is read off the expression inside its
parentheses. -/
theorem raiseSite?_wraps {statement statement' e wrapped : Node} (file : String)
    (he : statement.FirstInside e) (hwrapped : statement'.FirstInside wrapped)
    (h : Wraps source source' e wrapped) (hrow : statement'.row = statement.row) :
    raiseSite? source' file statement' = raiseSite? source file statement := by
  have hinside := unwrap_wraps h
  unfold raiseSite?
  rw [firstExpression?_eq_some_iff.mpr he, firstExpression?_eq_some_iff.mpr hwrapped,
    Option.bind_some, Option.bind_some]
  generalize unwrap e = x, unwrap wrapped = y at hinside ⊢
  cases hinside with
  | none => simp only [Option.bind_none]
  | @some thrown thrown' halike =>
      have hname := map_text_alike (halike.child? "constructor")
      simp only [Option.bind_some, Node.line, hrow, halike.kind_eq, hname, halike.text_eq]

/-- A test whose left operand is another's in parentheses, and whose other
parts read as the other's do. -/
structure WrapsLeft (source source' : ByteArray) (test test' : Node) : Prop where
  left : ∃ operand wrapped, test.child? "left" = some operand ∧
    test'.child? "left" = some wrapped ∧ Wraps source source' operand wrapped
  others : ∀ field, field ≠ "left" →
    Option.Rel (Alike source source') (test.child? field) (test'.child? field)

theorem testedType?_wraps {test test' : Node} (name : String)
    (h : WrapsLeft source source' test test') :
    testedType? source' name test' = testedType? source name test := by
  obtain ⟨operand, wrapped, hoperand, hwrapped, hwraps⟩ := h.left
  have hleft : Option.Rel (Alike source source') ((test.child? "left").bind unwrap)
      ((test'.child? "left").bind unwrap) := by
    rw [hoperand, hwrapped]
    exact unwrap_wraps hwraps
  have hoperator := h.others "operator" (by decide)
  have hright := map_text_alike (h.others "right" (by decide))
  unfold testedType?
  rw [hright]
  generalize test.child? "operator" = x, test'.child? "operator" = y at hoperator ⊢
  generalize (test.child? "left").bind unwrap = u, (test'.child? "left").bind unwrap = v
    at hleft ⊢
  cases hoperator with
  | none => simp only
  | some hoperator =>
      cases hleft with
      | none => simp only [hoperator.kind_eq]
      | some hleft => simp only [hoperator.kind_eq, hleft.kind_eq, hleft.text_eq]

/-- Parentheses and comments around what is thrown, and comments before it,
change neither the site of a throw statement nor whether it has one. Parentheses
and comments around the left operand of a test change the tested type for no
name. -/
theorem wrapping_changes_no_site_or_test (source source' : ByteArray) :
    (∀ statement statement' e wrapped file, statement.FirstInside e →
      statement'.FirstInside wrapped → Wraps source source' e wrapped →
        statement'.row = statement.row →
          raiseSite? source' file statement' = raiseSite? source file statement) ∧
    (∀ test test', WrapsLeft source source' test test' →
      ∀ name, testedType? source' name test' = testedType? source name test) :=
  ⟨fun _ _ _ _ file he hwrapped h hrow => raiseSite?_wraps file he hwrapped h hrow,
    fun _ _ h name => testedType?_wraps name h⟩

/-! ### A throw and a test, without and with parentheses and comments -/

def plainSource : ByteArray := "throw new A();e instanceof A".toUTF8

def wrappedSource : ByteArray :=
  "throw /*a*/((/*b*/new A()/*c*/));((/*d*/e)) instanceof A".toUTF8

def inlineNode (kind : String) (field : Option String) (start stop : Nat)
    (children : List Node) : Node :=
  ⟨kind, true, field, start, stop, 0, children⟩

def tokenNode (text : String) (field : Option String) (start : Nat) : Node :=
  ⟨text, false, field, start, start + text.utf8ByteSize, 0, []⟩

/-- The construction of a class whose name has one character. -/
def constructionNode (start : Nat) : Node :=
  inlineNode "new_expression" none start (start + 7)
    [tokenNode "new" none start,
      inlineNode "identifier" (some "constructor") (start + 4) (start + 5) [],
      inlineNode "arguments" (some "arguments") (start + 5) (start + 7) []]

def plainThrow : Node :=
  inlineNode "throw_statement" none 0 14
    [tokenNode "throw" none 0, constructionNode 6, tokenNode ";" none 13]

def wrappedConstruction : Node :=
  inlineNode "parenthesized_expression" none 11 32
    [tokenNode "(" none 11,
      inlineNode "parenthesized_expression" none 12 31
        [tokenNode "(" none 12, inlineNode "comment" none 13 18 [], constructionNode 18,
          inlineNode "comment" none 25 30 [], tokenNode ")" none 30],
      tokenNode ")" none 31]

def wrappedThrow : Node :=
  inlineNode "throw_statement" none 0 33
    [tokenNode "throw" none 0, inlineNode "comment" none 6 11 [], wrappedConstruction,
      tokenNode ";" none 32]

def plainTest : Node :=
  inlineNode "binary_expression" none 14 28
    [inlineNode "identifier" (some "left") 14 15 [], tokenNode "instanceof" (some "operator") 16,
      inlineNode "identifier" (some "right") 27 28 []]

def wrappedTest : Node :=
  inlineNode "binary_expression" none 33 56
    [inlineNode "parenthesized_expression" (some "left") 33 43
        [tokenNode "(" none 33,
          inlineNode "parenthesized_expression" none 34 42
            [tokenNode "(" none 34, inlineNode "comment" none 35 40 [],
              inlineNode "identifier" none 40 41 [], tokenNode ")" none 41],
          tokenNode ")" none 42],
      tokenNode "instanceof" (some "operator") 44, inlineNode "identifier" (some "right") 55 56 []]

theorem alike_leaf {source source' : ByteArray} {n n' : Node} (hn : n.children = [])
    (hn' : n'.children = []) (hkind : n.kind = n'.kind) (hnamed : n.named = n'.named)
    (htext : n.text source = n'.text source') : Alike source source' n n' := by
  refine .mk hkind hnamed htext ?_ ?_
  · rw [hn, hn']
  · rw [hn, hn']
    exact .nil

theorem wraps_construction :
    Wraps plainSource wrappedSource (constructionNode 6) wrappedConstruction := by
  have halike : Alike plainSource wrappedSource (constructionNode 6) (constructionNode 18) := by
    refine .mk rfl rfl (by decide +kernel) rfl (.cons ?_ (.cons ?_ (.cons ?_ .nil)))
    · exact alike_leaf rfl rfl rfl rfl (by decide +kernel)
    · exact alike_leaf rfl rfl rfl rfl (by decide +kernel)
    · exact alike_leaf rfl rfl rfl rfl (by decide +kernel)
  refine .parentheses rfl ⟨[_], [_], rfl, by decide, rfl, rfl⟩ ?_
  refine .parentheses rfl ⟨[_, _], [_, _], rfl, by decide, rfl, rfl⟩ ?_
  exact .bare halike

theorem wrapsLeft_plainTest : WrapsLeft plainSource wrappedSource plainTest wrappedTest where
  left := by
    refine ⟨_, _, rfl, rfl, ?_⟩
    refine .parentheses rfl ⟨[_], [_], rfl, by decide, rfl, rfl⟩ ?_
    refine .parentheses rfl ⟨[_, _], [_], rfl, by decide, rfl, rfl⟩ ?_
    exact .bare (alike_leaf rfl rfl rfl rfl (by decide +kernel))
  others := by
    intro field hfield
    have hleft : (some "left" == some field) = false := by simpa using hfield.symm
    have hparts : List.Forall₂ (Alike plainSource wrappedSource) (plainTest.children.drop 1)
        (wrappedTest.children.drop 1) := by
      refine .cons ?_ (.cons ?_ .nil)
      · exact alike_leaf rfl rfl rfl rfl (by decide +kernel)
      · exact alike_leaf rfl rfl rfl rfl (by decide +kernel)
    have hfound := find?_alike (p := fun c => c.field == some field) hparts rfl
    simpa [child?, plainTest, wrappedTest, inlineNode, hleft] using hfound

theorem commented_throw_and_test_read_through :
    raiseSite? plainSource "a.ts" plainThrow = some ⟨"A", .raised, ⟨"a.ts", 1⟩⟩ ∧
      raiseSite? wrappedSource "a.ts" wrappedThrow = raiseSite? plainSource "a.ts" plainThrow ∧
      testedType? plainSource "e" plainTest = some "A" ∧
      ∀ name, testedType? wrappedSource name wrappedTest =
        testedType? plainSource name plainTest := by
  obtain ⟨hthrows, htests⟩ := wrapping_changes_no_site_or_test plainSource wrappedSource
  refine ⟨by decide +kernel, ?_, by decide +kernel, htests _ _ wrapsLeft_plainTest⟩
  exact hthrows plainThrow wrappedThrow _ _ "a.ts" ⟨[_], [_], rfl, by decide, rfl, rfl⟩
    ⟨[_, _], [_], rfl, by decide, rfl, rfl⟩ wraps_construction rfl

end Sites

end ThrowCatch
