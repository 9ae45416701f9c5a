import ThrowCatch.Proofs.TextPieces
import ThrowCatch.Sites.Collected

/-!
The name of a clause without a test. It is read off the first node of the
annotation, whatever that node is: the declared type when the annotation begins
with it, and a comment when one stands before the type.
-/

namespace ThrowCatch.Sites

open Text

/-- The name that the text of an annotation's node gives: the text without
leading colons and outer blanks, or `implicit` when nothing is left. -/
def annotatedName (implicit text : String) : String :=
  let name := trim (String.ofList (text.toList.dropWhile (· == ':')))
  if name = "" then implicit else name

/-- A clause whose variable is declared with a type, after some comments. -/
def Annotated (clause : Node) (comments : List Node) (type : Node) : Prop :=
  ∃ ascription others, clause.child? "type" = some ascription ∧
    ascription.namedChildren = comments ++ type :: others ∧
    (∀ c ∈ comments, c.isComment = true) ∧ type.isComment = false

theorem interceptSites_of_no_test {source : ByteArray} {clause : Occurrence}
    (h : testedTypes source clause = []) (implicit file : String) :
    interceptSites source implicit file clause =
      [⟨declaredType source implicit clause.node, .intercepted, ⟨file, clause.node.line⟩⟩] := by
  simp [interceptSites, h]

theorem Annotated.declaredType_eq {clause type : Node} {comments : List Node}
    (h : Annotated clause comments type) (source : ByteArray) (implicit : String) :
    declaredType source implicit clause =
      annotatedName implicit ((comments.headD type).text source) := by
  obtain ⟨ascription, others, hascription, hchildren, -, -⟩ := h
  have hfirst : ascription.namedChildren.head?.getD ascription = comments.headD type := by
    rw [hchildren]
    cases comments with
    | nil => rfl
    | cons c comments => rfl
  simp only [declaredType, hascription, hfirst, annotatedName, beq_iff_eq]

/-- A comment names what it says, with its slash in front. -/
theorem annotatedName_of_slash (implicit : String) {text : String}
    (h : startsWith "/" text = true) : annotatedName implicit text = trim text := by
  obtain ⟨cs, hcs⟩ := startsWith_slash_iff.mp h
  have hkept : text.toList.dropWhile (· == ':') = text.toList := by
    rw [hcs]
    rfl
  have hname : trim text ≠ "" := by
    intro hempty
    have hslash := startsWith_slash_trim h
    rw [hempty] at hslash
    cases hslash
  simp only [annotatedName, hkept, String.ofList_toList, if_neg hname]

/-- A clause without a test of its own has one site. It is named by the first
comment of the annotation, or by the declared type when there is none; so it is
named by the type exactly when no comment stands before it. -/
theorem fallback_named_by_first_node (source : ByteArray) (implicit file : String)
    (clause : Occurrence) (comments : List Node) (type : Node)
    (htests : testedTypes source clause = []) (h : Annotated clause.node comments type) :
    let declared := annotatedName implicit (type.text source)
    ∃ name, interceptSites source implicit file clause =
        [⟨name, .intercepted, ⟨file, clause.node.line⟩⟩] ∧
      name = annotatedName implicit ((comments.headD type).text source) ∧
      ((∀ c ∈ comments, startsWith "/" (c.text source) = true) →
        (∀ c ∈ comments.head?, name = trim (c.text source)) ∧
          (startsWith "/" declared = false → (name = declared ↔ comments = []))) := by
  intro declared
  refine ⟨_, interceptSites_of_no_test htests implicit file,
    h.declaredType_eq source implicit, ?_⟩
  rw [h.declaredType_eq]
  intro hslashes
  cases comments with
  | nil => simp [declared]
  | cons c comments =>
      have hslash := hslashes c List.mem_cons_self
      rw [List.headD_cons, annotatedName_of_slash implicit hslash]
      refine ⟨by simp, fun htype => ⟨fun hsame => ?_, fun hnil => by cases hnil⟩⟩
      have hstart := startsWith_slash_trim hslash
      rw [hsame, htype] at hstart
      cases hstart

/-! ### Annotations without and with a comment -/

def annotatedSource (comment : String) : ByteArray :=
  ("try\x7b\x7dcatch(e:" ++ comment ++ "E)\x7b\x7d").toUTF8

def typeNode (start : Nat) : Node := ⟨"type_identifier", true, none, start, start + 1, 0, []⟩

def annotatedClause (comments : List Node) (start : Nat) : Node :=
  ⟨"catch_clause", true, none, 5, start + 4, 0,
    [⟨"identifier", true, some "parameter", 11, 12, 0, []⟩,
      ⟨"type_annotation", true, some "type", 12, start + 1, 0,
        ⟨":", false, none, 12, 13, 0, []⟩ :: (comments ++ [typeNode start])⟩,
      ⟨"statement_block", true, some "body", start + 2, start + 4, 0, []⟩]⟩

theorem testedTypes_annotatedClause (source : ByteArray) (comments : List Node) (start : Nat) :
    testedTypes source (.root (annotatedClause comments start)) = [] := by
  unfold testedTypes
  split
  · rename_i name body _ hbody
    cases hbody
    simp [Occurrence.ofKind, Occurrence.below, Occurrence.preorderFrom, Occurrence.preorderList,
      Search.nodeKind, distinct]
  · rfl

theorem plain_annotation_names_fallback :
    let source := annotatedSource ""
    let clause := Occurrence.root (annotatedClause [] 13)
    testedTypes source clause = [] ∧ Annotated clause.node [] (typeNode 13) ∧
      (interceptSites source "unknown" "a.ts" clause).map (·.name) = ["E"] := by
  intro source clause
  have htests : testedTypes source clause = [] := testedTypes_annotatedClause source [] 13
  have hannotated : Annotated clause.node [] (typeNode 13) := ⟨_, _, rfl, rfl, by simp, rfl⟩
  obtain ⟨name, hsites, hname, -⟩ := fallback_named_by_first_node source "unknown" "a.ts" clause
    [] (typeNode 13) htests hannotated
  refine ⟨htests, hannotated, ?_⟩
  rw [hsites, hname]
  decide +kernel

/-- A comment before the declared type is taken for it. -/
theorem comment_taken_for_declared_type :
    let source := annotatedSource "/*c*/"
    let comment : Node := ⟨"comment", true, none, 13, 18, 0, []⟩
    let clause := Occurrence.root (annotatedClause [comment] 18)
    testedTypes source clause = [] ∧ Annotated clause.node [comment] (typeNode 18) ∧
      annotatedName "unknown" ((typeNode 18).text source) = "E" ∧
      (interceptSites source "unknown" "a.ts" clause).map (·.name) = ["/*c*/"] := by
  intro source comment clause
  have htests : testedTypes source clause = [] := testedTypes_annotatedClause source [comment] 18
  have hannotated : Annotated clause.node [comment] (typeNode 18) :=
    ⟨_, _, rfl, rfl, by simp [comment, Node.isComment], rfl⟩
  refine ⟨htests, hannotated, by decide +kernel, ?_⟩
  rw [interceptSites_of_no_test htests]
  decide +kernel

end ThrowCatch.Sites
