import Mathlib.Data.List.DropRight
import Mathlib.Data.List.TakeWhile
import ThrowCatch.Text.Blank
import ThrowCatch.Text.Search
import ThrowCatch.Tree.Node

/-!
Texts put together from pieces. The text between two byte offsets of a source
is the text up to an offset in between followed by the text from there on, as
long as no character is cut in two. Trimming takes blanks off the outer pieces
only: a piece with more than blanks in it protects what stands on its other
side.
-/

namespace ThrowCatch.Text

/-! ### Trimming -/

/-- A text that is nothing but blanks. -/
def Blank (s : String) : Prop := ∀ c ∈ s.toList, isBlank c = true

instance (s : String) : Decidable (Blank s) := List.decidableBAll _ _

section

variable {c : Char} {left right cs : List Char}

theorem trimLeft_eq_nil : trimLeft cs = [] ↔ ∀ c ∈ cs, isBlank c = true :=
  List.dropWhile_eq_nil_iff

theorem trimRight_eq_nil : trimRight cs = [] ↔ ∀ c ∈ cs, isBlank c = true :=
  List.rdropWhile_eq_nil_iff

theorem trimLeft_cons_of_blank (hc : isBlank c = true) (cs : List Char) :
    trimLeft (c :: cs) = trimLeft cs :=
  List.dropWhile_cons_of_pos hc

theorem trimLeft_cons (hc : isBlank c = false) (cs : List Char) : trimLeft (c :: cs) = c :: cs :=
  List.dropWhile_cons_of_neg (by simp [hc])

/-- What is more than blanks protects what follows. -/
theorem trimLeft_append (hleft : trimLeft left ≠ []) (right : List Char) :
    trimLeft (left ++ right) = trimLeft left ++ right := by
  rw [trimLeft, List.dropWhile_append, if_neg (by simpa [trimLeft] using hleft)]
  rfl

theorem trimLeft_append_cons (hc : isBlank c = false) (left right : List Char) :
    trimLeft (left ++ c :: right) = trimLeft left ++ c :: right := by
  by_cases hleft : trimLeft left = []
  · rw [trimLeft, List.dropWhile_append_of_pos (trimLeft_eq_nil.mp hleft), hleft]
    exact trimLeft_cons hc right
  · exact trimLeft_append hleft (c :: right)

/-- What is more than blanks protects what stands before it. -/
theorem trimRight_append (hright : trimRight right ≠ []) (left : List Char) :
    trimRight (left ++ right) = left ++ trimRight right := by
  have hrest : right.reverse.dropWhile isBlank ≠ [] := by simpa [trimRight] using hright
  rw [trimRight, List.reverse_append, List.dropWhile_append, if_neg (by simpa using hrest),
    List.reverse_append, List.reverse_reverse]
  rfl

theorem trimRight_cons (hc : isBlank c = false) (cs : List Char) :
    trimRight (c :: cs) = c :: trimRight cs := by
  by_cases hcs : trimRight cs = []
  · have hblank : cs.reverse.dropWhile isBlank = [] := by simpa [trimRight] using hcs
    rw [hcs, trimRight, List.reverse_cons, List.dropWhile_append, hblank]
    simp [hc]
  · exact trimRight_append hcs [c]

theorem trimRight_append_cons (hc : isBlank c = false) (left right : List Char) :
    trimRight (left ++ c :: right) = left ++ c :: trimRight right := by
  rw [trimRight_append (by simp [trimRight_cons hc]), trimRight_cons hc]

theorem trimRight_trimRight (cs : List Char) : trimRight (trimRight cs) = trimRight cs :=
  List.rdropWhile_idempotent isBlank cs

/-- It does not matter which end is trimmed first. -/
theorem trimLeft_trimRight (cs : List Char) :
    trimLeft (trimRight cs) = trimRight (trimLeft cs) := by
  induction cs with
  | nil => rfl
  | cons c cs ih =>
      cases hc : isBlank c with
      | false => rw [trimRight_cons hc, trimLeft_cons hc, trimLeft_cons hc, trimRight_cons hc]
      | true =>
          rw [trimLeft_cons_of_blank hc, ← ih]
          by_cases hcs : trimRight cs = []
          · have hall : trimRight (c :: cs) = [] :=
              trimRight_eq_nil.mpr (List.forall_mem_cons.mpr ⟨hc, trimRight_eq_nil.mp hcs⟩)
            rw [hall, hcs]
          · rw [← List.singleton_append, trimRight_append hcs, List.singleton_append,
              trimLeft_cons_of_blank hc]

theorem trimLeft_trimLeft (cs : List Char) : trimLeft (trimLeft cs) = trimLeft cs :=
  List.dropWhile_idempotent isBlank cs

end

section

variable {s gap rest : String}

theorem toList_trim (s : String) : (trim s).toList = trimRight (trimLeft s.toList) := by
  simp [trim]

theorem trim_eq_empty_iff : trim s = "" ↔ Blank s := by
  rw [trim, String.ofList_eq_empty_iff, trimRight_eq_nil, ← trimLeft_eq_nil, trimLeft_trimLeft,
    trimLeft_eq_nil]
  rfl

theorem blank_append : Blank (gap ++ rest) ↔ Blank gap ∧ Blank rest := by
  simp only [Blank, String.toList_append, List.forall_mem_append]

/-- Blanks before a text are trimmed away with its own. -/
theorem trim_append_of_blank (hgap : Blank gap) (rest : String) : trim (gap ++ rest) = trim rest := by
  rw [trim, String.toList_append, trimLeft, List.dropWhile_append_of_pos hgap]
  rfl

/-- Between two texts that are more than blanks all is kept. -/
theorem toList_trim_append (hgap : ¬ Blank gap) (hrest : ¬ Blank rest) :
    (trim (gap ++ rest)).toList = trimLeft gap.toList ++ trimRight rest.toList := by
  have hleft : trimLeft gap.toList ≠ [] := fun h => hgap (trimLeft_eq_nil.mp h)
  have hright : trimRight rest.toList ≠ [] := fun h => hrest (trimRight_eq_nil.mp h)
  rw [toList_trim, String.toList_append, trimLeft_append hleft, trimRight_append hright]

theorem trim_suffix (s : String) : (trim s).toList <:+ trimRight s.toList := by
  rw [toList_trim, ← trimLeft_trimRight]
  exact List.dropWhile_suffix isBlank

/-- What is more than blanks stays in front of a text. -/
theorem trim_append_ne (hgap : ¬ Blank gap) (hrest : ¬ Blank rest) :
    trim (gap ++ rest) ≠ trim rest := by
  intro h
  have hlist := congrArg (fun s => s.toList.length) h
  have hsuffix := (trim_suffix rest).length_le
  have hfront : trimLeft gap.toList ≠ [] := fun hnil => hgap (trimLeft_eq_nil.mp hnil)
  have hpos := List.length_pos_iff.mpr hfront
  simp only [toList_trim_append hgap hrest, List.length_append] at hlist
  omega

end

/-! ### Texts of comments -/

theorem startsWith_slash_iff {s : String} :
    startsWith "/" s = true ↔ ∃ cs, s.toList = '/' :: cs := by
  rw [startsWith, List.isPrefixOf_iff_prefix]
  constructor
  · rintro ⟨cs, hcs⟩
    exact ⟨cs, hcs.symm⟩
  · rintro ⟨cs, hcs⟩
    exact ⟨cs, hcs.symm⟩

/-- A comment still begins with its slash when it is trimmed. -/
theorem startsWith_slash_trim {s : String} (h : startsWith "/" s = true) :
    startsWith "/" (trim s) = true := by
  obtain ⟨cs, hcs⟩ := startsWith_slash_iff.mp h
  refine startsWith_slash_iff.mpr ⟨trimRight cs, ?_⟩
  rw [toList_trim, hcs, trimLeft_cons (by decide), trimRight_cons (by decide)]

/-! ### Pieces of a source -/

/-- The text between two offsets. -/
def between (source : ByteArray) (start stop : Nat) : String :=
  decode (source.extract start stop).toList

/-- A byte that goes on with a character. -/
def continues (b : UInt8) : Bool := 0x80 ≤ b.toNat && b.toNat ≤ 0xbf

/-- A character can begin at an offset, or the source ends before it. -/
def charStart (source : ByteArray) (i : Nat) : Bool :=
  source.data[i]?.all fun b => !continues b

/-- The range of an opened character lies in that of the bytes that go on. -/
def Opened.Proper (o : Opened) : Prop := 0x80 ≤ o.lo ∧ o.hi ≤ 0xbf

theorem proper_ite {p : Prop} [Decidable p] {x y : List Char × Option Opened}
    (hx : ∀ o ∈ x.2, o.Proper) (hy : ∀ o ∈ y.2, o.Proper) :
    ∀ o ∈ (if p then x else y).2, o.Proper := by
  split
  · exact hx
  · exact hy

theorem proper_openByte (b : Nat) : ∀ o ∈ (openByte b).2, o.Proper := by
  unfold openByte
  repeat' apply proper_ite
  all_goals simp [Opened.Proper]

/-- Where a character begins, what was opened before is closed. -/
theorem decodeFrom_append {state : Option Opened} (hstate : ∀ o ∈ state, o.Proper)
    (left : List UInt8) {right : List UInt8} (hright : ∀ b ∈ right.head?, continues b = false) :
    decodeFrom state (left ++ right) = decodeFrom state left ++ decodeFrom none right := by
  induction left generalizing state with
  | nil =>
      cases state with
      | none => simp [decodeFrom]
      | some o =>
          cases right with
          | nil => simp [decodeFrom]
          | cons b right =>
              -- the byte is in no range that an opened character waits for
              have hout : ¬ (o.lo ≤ b.toNat ∧ b.toNat ≤ o.hi) := by
                have hb := hright b rfl
                obtain ⟨hlo, hhi⟩ := hstate o rfl
                simp only [continues, Bool.and_eq_false_iff, decide_eq_false_iff_not] at hb
                omega
              simp [decodeFrom, hout]
  | cons b left ih =>
      have hnone : ∀ o ∈ (none : Option Opened), o.Proper := by simp
      cases state with
      | none => simp [decodeFrom, ih (proper_openByte b.toNat)]
      | some o =>
          obtain ⟨hlo, hhi⟩ := hstate o rfl
          rw [List.cons_append, decodeFrom, decodeFrom]
          split
          · dsimp only
            split
            · rw [ih hnone, List.cons_append]
            · exact ih (by simp [Opened.Proper])
          · simp [ih (proper_openByte b.toNat)]

theorem toList_loop (bytes : ByteArray) (i : Nat) (found : List UInt8) :
    ByteArray.toList.loop bytes i found = found.reverse ++ bytes.data.toList.drop i := by
  fun_induction ByteArray.toList.loop bytes i found with
  | case1 i found hi ih =>
      have hdata : i < bytes.data.toList.length := by simpa using hi
      have hbyte : bytes.get! i = bytes.data.toList[i] := by
        change bytes.data[i]! = _
        rw [getElem!_pos bytes.data i (by simpa using hi), Array.getElem_toList]
      rw [ih, List.drop_eq_getElem_cons hdata, ← hbyte]
      simp
  | case2 i found hi =>
      have hdata : bytes.data.toList.length ≤ i := by simpa using Nat.not_lt.mp hi
      rw [List.drop_eq_nil_of_le hdata, List.append_nil]

theorem toList_eq_data (bytes : ByteArray) : bytes.toList = bytes.data.toList :=
  toList_loop bytes 0 []

theorem toList_append (left right : ByteArray) :
    (left ++ right).toList = left.toList ++ right.toList := by
  simp only [toList_eq_data, ByteArray.toList_data_append]

/-- A text is cut where a character begins. -/
theorem between_append {source : ByteArray} {i j k : Nat} (hij : i ≤ j) (hjk : j ≤ k)
    (hj : charStart source j = true) :
    between source i k = between source i j ++ between source j k := by
  have hright : ∀ b ∈ (source.extract j k).toList.head?, continues b = false := by
    intro b hb
    rw [toList_eq_data, ByteArray.data_extract, Array.toList_extract, List.extract_eq_take_drop,
      List.head?_take, List.head?_drop, Array.getElem?_toList] at hb
    split at hb
    · cases hb
    · simpa [charStart, Option.mem_def.mp hb] using hj
  rw [between, ByteArray.extract_eq_extract_append_extract j hij hjk, toList_append, decode,
    decodeFrom_append (by simp) _ hright, String.ofList_append]
  rfl

end ThrowCatch.Text
