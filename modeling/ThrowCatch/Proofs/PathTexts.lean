import ThrowCatch.Proofs.ExclusionRules

/-!
Paths and their texts. A path whose names are proper, as those read from a
text are, is told by its text.
-/

namespace ThrowCatch

namespace Text

theorem not_mem_of_mem_splitAt {separator : Char} {cs piece : List Char}
    (h : piece ∈ splitAt separator cs) : separator ∉ piece := by
  induction cs generalizing piece with
  | nil => simp_all [splitAt]
  | cons c cs ih =>
      rw [splitAt] at h
      split at h
      · rcases List.mem_cons.mp h with rfl | h
        · exact List.not_mem_nil
        · exact ih h
      · rename_i hc
        have hc : separator ≠ c := fun heq => hc (beq_iff_eq.mpr heq.symm)
        cases hsplit : splitAt separator cs with
        | nil => exact absurd hsplit (splitAt_ne_nil separator cs)
        | cons first rest =>
            rw [hsplit] at h ih
            rcases List.mem_cons.mp h with rfl | h
            · have hfirst := ih List.mem_cons_self
              simp [hc, hfirst]
            · exact ih (List.mem_cons_of_mem _ h)

theorem splitAt_intercalate {separator : Char} {names : List (List Char)} (hne : names ≠ [])
    (h : ∀ n ∈ names, separator ∉ n) :
    splitAt separator ([separator].intercalate names) = names := by
  induction names with
  | nil => exact absurd rfl hne
  | cons n rest ih =>
      have hn := splitAt_of_not_mem (h n List.mem_cons_self)
      cases rest with
      | nil => rw [List.intercalate_singleton, hn]
      | cons m rest =>
          have hrest := ih (List.cons_ne_nil _ _) fun x hx => h x (List.mem_cons_of_mem n hx)
          rw [List.intercalate_cons_cons, List.append_assoc, List.singleton_append,
            splitAt_append, hn, hrest, List.singleton_append]

end Text

namespace Path

/-- A name that can stand between the slashes of a path. -/
def Proper (name : String) : Prop := name ≠ "" ∧ name ≠ "." ∧ '/' ∉ name.toList

instance (name : String) : Decidable (Proper name) :=
  inferInstanceAs (Decidable (name ≠ "" ∧ name ≠ "." ∧ '/' ∉ name.toList))

/-- A path that some text is read as. -/
def Sound (p : Path) : Prop := ∀ n ∈ p.names, Proper n

theorem sound_ofString (s : String) : (ofString s).Sound := by
  intro n hn
  obtain ⟨hpiece, hkept⟩ := List.mem_filter.mp hn
  obtain ⟨piece, hmem, rfl⟩ := List.mem_map.mp hpiece
  simp only [Bool.and_eq_true, bne_iff_ne, ne_eq] at hkept
  exact ⟨hkept.1, hkept.2, by simpa using Text.not_mem_of_mem_splitAt hmem⟩

theorem toList_join (names : List String) :
    (Text.join "/" names).toList = ['/'].intercalate (names.map String.toList) :=
  String.toList_intercalate

/-- The names between the slashes, where more slashes may stand in front. -/
theorem pieces_join (slashes : Nat) {names : List String} (h : ∀ n ∈ names, Proper n) :
    ((Text.splitAt '/' (List.replicate slashes '/' ++ (Text.join "/" names).toList)).map
      String.ofList).filter (fun p => p != "" && p != ".") = names := by
  induction slashes with
  | zero =>
      rw [List.replicate_zero, List.nil_append, toList_join]
      by_cases hne : names = []
      · subst hne
        rfl
      · have hslash : ∀ n ∈ names.map String.toList, '/' ∉ n := by
          intro n hn
          obtain ⟨m, hm, rfl⟩ := List.mem_map.mp hn
          exact (h m hm).2.2
        have hmap : names.map String.toList ≠ [] := fun heq => hne (List.map_eq_nil_iff.mp heq)
        rw [Text.splitAt_intercalate hmap hslash, List.map_map]
        simp only [Function.comp_def, String.ofList_toList, List.map_id']
        refine List.filter_eq_self.mpr fun n hn => ?_
        simp [(h n hn).1, (h n hn).2.1]
  | succ slashes ih =>
      have hfirst := Text.splitAt_append '/' [] (List.replicate slashes '/' ++
        (Text.join "/" names).toList)
      rw [List.nil_append] at hfirst
      rw [List.replicate_succ, List.cons_append, hfirst, List.map_append, List.filter_append, ih]
      rfl

/-- Proper names do not begin with a slash. -/
theorem head?_join {names : List String} (h : ∀ n ∈ names, Proper n) :
    (Text.join "/" names).toList.head? ≠ some '/' := by
  rw [toList_join]
  cases names with
  | nil => simp
  | cons n rest =>
      obtain ⟨hempty, -, hslash⟩ := h n List.mem_cons_self
      have hne : n.toList ≠ [] := fun heq => hempty (String.toList_inj.mp heq)
      obtain ⟨c, cs, hn⟩ := List.exists_cons_of_ne_nil hne
      rw [hn] at hslash
      have hc : c ≠ '/' := fun heq => hslash (heq ▸ List.mem_cons_self)
      cases rest with
      | nil => simpa [List.intercalate_singleton, hn] using hc
      | cons m rest => simpa [List.intercalate_cons_cons, hn] using hc

def slashes : Anchor → Nat
  | .relative => 0
  | .root => 1
  | .doubled => 2

theorem toList_anchorText (a : Anchor) : a.text.toList = List.replicate (slashes a) '/' := by
  cases a <;> rfl

/-- What stands before the names is counted as the path begins. -/
theorem takeWhile_slashes (n : Nat) {cs : List Char} (h : cs.head? ≠ some '/') :
    ((List.replicate n '/' ++ cs).takeWhile (· == '/')).length = n := by
  have hall : ∀ c ∈ List.replicate n '/', (c == '/') = true := by simp
  have hstop : cs.takeWhile (· == '/') = [] := by
    cases cs with
    | nil => rfl
    | cons c cs => exact List.takeWhile_cons_of_neg (by simpa using h)
  rw [List.takeWhile_append_of_pos hall, hstop, List.append_nil, List.length_replicate]

/-- The text of a sound path is read as the path. -/
theorem ofString_text {p : Path} (h : p.Sound) : ofString p.text = p := by
  obtain ⟨anchor, names⟩ := p
  have hread : ofString (anchor.text ++ Text.join "/" names) = ⟨anchor, names⟩ := by
    have hnames := pieces_join (slashes anchor) h
    have hanchor := takeWhile_slashes (slashes anchor) (head?_join h)
    rw [← toList_anchorText, ← String.toList_append] at hnames hanchor
    simp only [ofString, Text.pieces, hnames, hanchor]
    cases anchor <;> rfl
  unfold text
  split
  · rename_i hcurrent hnone
    cases hcurrent
    cases hnone
    rfl
  · exact hread

theorem text_inj {p q : Path} (hp : p.Sound) (hq : q.Sound) : p.text = q.text ↔ p = q := by
  refine ⟨fun h => ?_, fun h => h ▸ rfl⟩
  rw [← ofString_text hp, h, ofString_text hq]

end Path

end ThrowCatch
