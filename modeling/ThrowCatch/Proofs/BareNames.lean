import ThrowCatch.Proofs.Classifying
import ThrowCatch.Proofs.TextPieces
import ThrowCatch.Proofs.TraceMeaning

/-!
The bare name of a supertype. A clause can spell a name with a qualifier in
front, type arguments behind and blanks around it. Taking the arguments out,
trimming and cutting at the last dot leads back to the name, whatever the
arguments hold; so under the exact policy the name alone decides, and what it
accepts the substring policy accepts as well.
-/

namespace ThrowCatch.Supertype

open Text

/-! ### First and last places of a character -/

section

variable {c : Char} {before after : List Char}

theorem bne_of_not_mem {cs : List Char} (h : c ∉ cs) : ∀ x ∈ cs, (x != c) = true := by
  intro x hx
  exact bne_iff_ne.mpr fun heq => h (heq ▸ hx)

theorem takeWhile_ne_append (h : c ∉ before) :
    (before ++ c :: after).takeWhile (· != c) = before := by
  rw [List.takeWhile_append_of_pos (bne_of_not_mem h)]
  simp

theorem dropWhile_ne_append (h : c ∉ before) :
    (before ++ c :: after).dropWhile (· != c) = c :: after := by
  rw [List.dropWhile_append_of_pos (bne_of_not_mem h)]
  simp

/-- From the end, the first place of a character is its last one. -/
theorem rtakeWhile_ne_append (h : c ∉ after) :
    ((before ++ c :: after).reverse.takeWhile (· != c)).reverse = after := by
  have hreverse : (before ++ c :: after).reverse = after.reverse ++ c :: before.reverse := by
    simp
  rw [hreverse, takeWhile_ne_append (by simpa using h), List.reverse_reverse]

theorem rtakeWhile_ne_self (h : c ∉ after) :
    (after.reverse.takeWhile (· != c)).reverse = after := by
  have hreverse : c ∉ after.reverse := by simpa using h
  rw [List.takeWhile_eq_self_iff.mpr (bne_of_not_mem hreverse), List.reverse_reverse]

end

/-! ### Taking a supertype apart -/

/-- All from the first `<` to the last `>` is taken out. -/
theorem withoutArguments_append {before after : List Char} (inside : List Char)
    (hbefore : '<' ∉ before) (hafter : '>' ∉ after) :
    withoutArguments (before ++ '<' :: (inside ++ '>' :: after)) = before ++ after := by
  have hlast : afterLast? '>' (inside ++ '>' :: after) = some after := by
    rw [afterLast?, if_pos (by simp), rtakeWhile_ne_append hafter]
  rw [withoutArguments, dropWhile_ne_append hbefore]
  simp only [hlast, takeWhile_ne_append hbefore]

theorem withoutArguments_of_plain {cs : List Char} (h : '<' ∉ cs) : withoutArguments cs = cs := by
  have hnone : cs.dropWhile (· != '<') = [] :=
    List.dropWhile_eq_nil_iff.mpr (bne_of_not_mem h)
  rw [withoutArguments, hnone]

theorem afterDot_append {after : List Char} (before : List Char) (h : '.' ∉ after) :
    afterDot (before ++ '.' :: after) = after :=
  rtakeWhile_ne_append h

theorem afterDot_of_plain {cs : List Char} (h : '.' ∉ cs) : afterDot cs = cs :=
  rtakeWhile_ne_self h

/-! ### Spellings of a name -/

/-- A text without blanks, dots and brackets. -/
def Plain (s : String) : Prop :=
  ∀ c ∈ s.toList, isBlank c = false ∧ c ≠ '.' ∧ c ≠ '<' ∧ c ≠ '>'

instance (s : String) : Decidable (Plain s) := List.decidableBAll _ _

/-- A name as a clause can spell it. The qualifier has no `<`, the type
arguments are any text, and the name has no character that could end it. -/
structure Spelling where
  lead : String
  qualifier : Option String
  name : String
  gap : String
  arguments : Option String
  trail : String
  lead_blank : Blank lead
  gap_blank : Blank gap
  trail_blank : Blank trail
  qualifier_plain : ∀ q ∈ qualifier, '<' ∉ q.toList
  name_nonempty : name ≠ ""
  name_plain : Plain name

namespace Spelling

def qualifierText (s : Spelling) : String :=
  match s.qualifier with
  | some q => q ++ "."
  | none => ""

def argumentText (s : Spelling) : String :=
  match s.arguments with
  | some a => "<" ++ a ++ ">"
  | none => ""

def text (s : Spelling) : String :=
  s.lead ++ s.qualifierText ++ s.name ++ s.gap ++ s.argumentText ++ s.trail

theorem not_mem_of_blank {c : Char} (hc : isBlank c = false) {b : String} (hb : Blank b) :
    c ∉ b.toList := by
  intro hmem
  rw [hb c hmem] at hc
  cases hc

variable (s : Spelling)

theorem not_mem_qualifierText : '<' ∉ s.qualifierText.toList := by
  unfold qualifierText
  split
  case h_1 q hq => simpa using s.qualifier_plain q hq
  case h_2 => simp

/-- Without its arguments a spelling is what stands on their two sides. -/
theorem withoutArguments_text :
    withoutArguments s.text.toList =
      s.lead.toList ++ s.qualifierText.toList ++ s.name.toList ++ (s.gap ++ s.trail).toList := by
  have hbefore :
      '<' ∉ s.lead.toList ++ s.qualifierText.toList ++ s.name.toList ++ s.gap.toList := by
    have hlead := not_mem_of_blank (c := '<') (by decide) s.lead_blank
    have hgap := not_mem_of_blank (c := '<') (by decide) s.gap_blank
    have hname : '<' ∉ s.name.toList := fun hmem => (s.name_plain _ hmem).2.2.1 rfl
    simp [hlead, hgap, hname, s.not_mem_qualifierText]
  cases harguments : s.arguments with
  | some a =>
      have hafter := not_mem_of_blank (c := '>') (by decide) s.trail_blank
      have htext : s.text.toList =
          (s.lead.toList ++ s.qualifierText.toList ++ s.name.toList ++ s.gap.toList) ++
            '<' :: (a.toList ++ '>' :: s.trail.toList) := by
        simp [text, argumentText, harguments]
      rw [htext, withoutArguments_append a.toList hbefore hafter]
      simp
  | none =>
      have htext : s.text.toList =
          (s.lead.toList ++ s.qualifierText.toList ++ s.name.toList ++ s.gap.toList) ++
            s.trail.toList := by
        simp [text, argumentText, harguments]
      have htrail := not_mem_of_blank (c := '<') (by decide) s.trail_blank
      rw [htext, withoutArguments_of_plain]
      · simp
      · rw [List.mem_append]
        rintro (hmem | hmem)
        · exact hbefore hmem
        · exact htrail hmem

/-- Trimming stops at the two ends of the name. -/
theorem trim_name {left right : List Char} (hright : ∀ c ∈ right, isBlank c = true) :
    trimRight (trimLeft (left ++ s.name.toList ++ right)) = trimLeft left ++ s.name.toList := by
  have hname : s.name.toList ≠ [] := by simpa using s.name_nonempty
  have hback : trimRight (left ++ s.name.toList ++ right) = left ++ s.name.toList := by
    obtain ⟨front, last, hlast⟩ := List.eq_nil_or_concat s.name.toList |>.resolve_left hname
    have hc : isBlank last = false := (s.name_plain last (by simp [hlast])).1
    have hsplit : left ++ s.name.toList ++ right = (left ++ front) ++ last :: right := by
      simp [hlast]
    rw [hsplit, trimRight_append_cons hc, trimRight_eq_nil.mpr hright, hlast]
    simp
  obtain ⟨first, rest, hfirst⟩ := List.exists_cons_of_ne_nil hname
  have hc : isBlank first = false := (s.name_plain first (by simp [hfirst])).1
  rw [← trimLeft_trimRight, hback, hfirst, trimLeft_append_cons hc]

theorem bareName_text : bareName s.text = s.name := by
  have hdot : '.' ∉ s.name.toList := fun hmem => (s.name_plain _ hmem).2.1 rfl
  have hafter : ∀ c ∈ (s.gap ++ s.trail).toList, isBlank c = true :=
    blank_append.mpr ⟨s.gap_blank, s.trail_blank⟩
  have hname : afterDot (trimLeft (s.lead.toList ++ s.qualifierText.toList) ++ s.name.toList) =
      s.name.toList := by
    cases hqualifier : s.qualifier with
    | some q =>
        have hqualified : s.lead.toList ++ s.qualifierText.toList =
            (s.lead.toList ++ q.toList) ++ '.' :: [] := by
          simp [qualifierText, hqualifier]
        rw [hqualified, trimLeft_append_cons (by decide), List.append_assoc, List.singleton_append,
          afterDot_append _ hdot]
    | none =>
        have hlead : trimLeft (s.lead.toList ++ s.qualifierText.toList) = [] := by
          simp only [qualifierText, hqualifier, String.toList_empty, List.append_nil]
          exact trimLeft_eq_nil.mpr s.lead_blank
        rw [hlead, List.nil_append, afterDot_of_plain hdot]
  rw [bareName, withoutArguments_text, s.trim_name hafter, hname, String.ofList_toList]

theorem name_infix_text : s.name.toList <:+: s.text.toList := by
  refine ⟨s.lead.toList ++ s.qualifierText.toList,
    s.gap.toList ++ s.argumentText.toList ++ s.trail.toList, ?_⟩
  simp [text]

end Spelling

/-- Under the exact policy the bare name of a spelling decides, and every
spelling that is accepted then is accepted by the substring policy too. -/
theorem exact_policy_sees_bare_name (s : Spelling) (names : List String) :
    bareName s.text = s.name ∧
    (Matcher.ofTexts .exact names).accepts s.text = .ok (decide (s.name ∈ names)) ∧
    ((Matcher.ofTexts .exact names).accepts s.text = .ok true →
      (Matcher.ofTexts .substring names).accepts s.text = .ok true) := by
  have hexact : (Matcher.ofTexts .exact names).accepts s.text =
      .ok (decide (s.name ∈ names)) := by
    rw [Matcher.accepts_exact, s.bareName_text, List.contains_eq_mem]
  refine ⟨s.bareName_text, hexact, fun haccepts => ?_⟩
  rw [hexact, Except.ok.injEq, decide_eq_true_iff] at haccepts
  rw [Matcher.accepts_substring, Except.ok.injEq, List.any_eq_true]
  exact ⟨s.name, haccepts, contains_iff.mpr s.name_infix_text⟩

/-- Dots, brackets and a line break in the arguments, and a `>` in the
qualifier; an error that is named in the arguments only is not accepted. -/
theorem base_with_arguments_accepted :
    let s : Spelling := ⟨" ", some "a>b .c", "Base", "\n", some "Map<d.Error, >\n<.", "\t",
      by decide, by decide, by decide, by decide, by decide, by decide⟩
    s.text = " a>b .c.Base\n<Map<d.Error, >\n<.>\t" ∧
      (Matcher.ofTexts .exact ["Base"]).accepts s.text = .ok true ∧
      (Matcher.ofTexts .substring ["Base"]).accepts s.text = .ok true ∧
      (Matcher.ofTexts .exact ["Error"]).accepts s.text = .ok false := by
  intro s
  obtain ⟨-, hbase, hsubstring⟩ := exact_policy_sees_bare_name s ["Base"]
  obtain ⟨-, herror, -⟩ := exact_policy_sees_bare_name s ["Error"]
  exact ⟨by decide +kernel, hbase, hsubstring hbase, herror⟩

end ThrowCatch.Supertype
