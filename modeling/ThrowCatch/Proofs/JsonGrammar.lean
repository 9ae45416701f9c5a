import Mathlib.Data.List.Basic
import ThrowCatch.Json

/-!
The grammar of JSON documents, told apart from the writer and the reader: which
texts are documents, and of which value. What the writer gives is a document
of the value it was given, in both styles and at every level, as long as the
value has nothing in it that JSON cannot hold.
-/

namespace ThrowCatch

/-- Values that a document can hold: no moment and no number that is not
whole, and names that differ within each table. -/
inductive Value.Recordable : Value → Prop
  | null : Recordable .null
  | bool (b : Bool) : Recordable (.bool b)
  | int (n : Int) : Recordable (.int n)
  | str (s : String) : Recordable (.str s)
  | list {items : List Value} (hitems : ∀ v ∈ items, Recordable v) : Recordable (.list items)
  | table {entries : List (String × Value)} (hkeys : (entries.map (·.1)).Nodup)
      (hentries : ∀ x ∈ entries, Recordable x.2) : Recordable (.table entries)

namespace Json

/-! ### The grammar -/

/-- What may stand between the parts of a document. -/
def Space (t : List Char) : Prop := ∀ c ∈ t, isSpace c = true

/-- The letters that stand for a character behind a backslash. -/
def escapes : List (Char × Char) :=
  [('"', '"'), ('\\', '\\'), ('/', '/'), ('b', Char.ofNat 8), ('f', Char.ofNat 12),
    ('n', '\n'), ('r', '\r'), ('t', '\t')]

/-- Four hexadecimal digits and the number they tell. -/
inductive CodeUnit : List Char → Nat → Prop
  | digits {a b c d : Char} {i j k l : Nat} (ha : hexValue? a = some i) (hb : hexValue? b = some j)
      (hc : hexValue? c = some k) (hd : hexValue? d = some l) :
      CodeUnit [a, b, c, d] (((i * 16 + j) * 16 + k) * 16 + l)

/-- How characters are written between the quotes of a string. A character
beyond the first plane takes two units, and half of such a pair stands for
nothing. -/
inductive Spells : List Char → List Char → Prop
  | nil : Spells [] []
  | plain {c : Char} {s t : List Char} (hc : 32 ≤ c.toNat) (hquote : c ≠ '"')
      (hslash : c ≠ '\\') (h : Spells s t) : Spells (c :: s) (c :: t)
  | escape {letter c : Char} {s t : List Char} (hc : (letter, c) ∈ escapes) (h : Spells s t) :
      Spells (c :: s) ('\\' :: letter :: t)
  | unit {digits s t : List Char} {n : Nat} (hdigits : CodeUnit digits n)
      (hn : n < 0xd800 ∨ 0xe000 ≤ n) (h : Spells s t) :
      Spells (Char.ofNat n :: s) ('\\' :: 'u' :: (digits ++ t))
  | pair {high low s t : List Char} {m n : Nat} (hhigh : CodeUnit high m)
      (hm : 0xd800 ≤ m ∧ m < 0xdc00) (hlow : CodeUnit low n) (hn : 0xdc00 ≤ n ∧ n < 0xe000)
      (h : Spells s t) :
      Spells (Char.ofNat (0x10000 + (m - 0xd800) * 0x400 + (n - 0xdc00)) :: s)
        ('\\' :: 'u' :: (high ++ '\\' :: 'u' :: (low ++ t)))

def Digits (t : List Char) : Prop := t ≠ [] ∧ ∀ c ∈ t, c.isDigit = true

/-- The digits before a point: a zero stands there only alone. -/
def Whole (t : List Char) : Prop := Digits t ∧ (t.head? = some '0' → t = ['0'])

def minus (negative : Bool) : List Char := if negative then ['-'] else []

inductive Exponent : List Char → Prop
  | mk {mark : Char} {sign ds : List Char} (hmark : mark = 'e' ∨ mark = 'E')
      (hsign : sign = [] ∨ sign = ['+'] ∨ sign = ['-']) (hds : Digits ds) :
      Exponent (mark :: (sign ++ ds))

/-- The end of a number that is not whole: a fraction, an exponent or both. -/
inductive Tail : List Char → Prop
  | fraction {ds : List Char} (hds : Digits ds) : Tail ('.' :: ds)
  | exponent {t : List Char} (ht : Exponent t) : Tail t
  | both {ds t : List Char} (hds : Digits ds) (ht : Exponent t) : Tail ('.' :: (ds ++ t))

/-- A part of a document: a value, the items of a list or the entries of a
table. -/
inductive Part
  | value (v : Value)
  | items (vs : List Value)
  | entries (kvs : List (String × Value))

/-- The texts of the parts. Items and entries are written with the space that
follows them, and there is at least one. -/
inductive Written : Part → List Char → Prop
  | null : Written (.value .null) ['n', 'u', 'l', 'l']
  | yes : Written (.value (.bool true)) ['t', 'r', 'u', 'e']
  | no : Written (.value (.bool false)) ['f', 'a', 'l', 's', 'e']
  | whole {ds : List Char} (negative : Bool) (hds : Whole ds) :
      Written (.value (.int (if negative then -(Nat.ofDigitChars 10 ds 0 : Int)
        else Nat.ofDigitChars 10 ds 0))) (minus negative ++ ds)
  | decimal {ds t : List Char} {x : Double} (negative : Bool) (hds : Whole ds) (ht : Tail t)
      (hx : Reading.float? (String.ofList (minus negative ++ ds ++ t)) = some x) :
      Written (.value (.float x)) (minus negative ++ ds ++ t)
  | string {s t : List Char} (h : Spells s t) :
      Written (.value (.str (String.ofList s))) ('"' :: (t ++ ['"']))
  | emptyList {w : List Char} (hw : Space w) : Written (.value (.list [])) ('[' :: (w ++ [']']))
  | list {vs : List Value} {w t : List Char} (hw : Space w) (h : Written (.items vs) t) :
      Written (.value (.list vs)) ('[' :: (w ++ (t ++ [']'])))
  | emptyTable {w : List Char} (hw : Space w) :
      Written (.value (.table [])) ('\x7b' :: (w ++ ['\x7d']))
  | table {kvs : List (String × Value)} {w t : List Char} (hw : Space w)
      (hkeys : (kvs.map (·.1)).Nodup) (h : Written (.entries kvs) t) :
      Written (.value (.table kvs)) ('\x7b' :: (w ++ (t ++ ['\x7d'])))
  | item {v : Value} {t w : List Char} (h : Written (.value v) t) (hw : Space w) :
      Written (.items [v]) (t ++ w)
  | items {v : Value} {vs : List Value} {t w w' u : List Char} (h : Written (.value v) t)
      (hw : Space w) (hw' : Space w') (hrest : Written (.items vs) u) :
      Written (.items (v :: vs)) (t ++ (w ++ ',' :: (w' ++ u)))
  | entry {k s t w w₁ w₂ : List Char} {v : Value} (hk : Spells k s) (hw : Space w)
      (hw₁ : Space w₁) (h : Written (.value v) t) (hw₂ : Space w₂) :
      Written (.entries [(String.ofList k, v)])
        ('"' :: (s ++ '"' :: (w ++ ':' :: (w₁ ++ (t ++ w₂)))))
  | entries {k s t w w₁ w₂ w₃ u : List Char} {v : Value} {kvs : List (String × Value)}
      (hk : Spells k s) (hw : Space w) (hw₁ : Space w₁) (h : Written (.value v) t)
      (hw₂ : Space w₂) (hw₃ : Space w₃) (hrest : Written (.entries kvs) u) :
      Written (.entries ((String.ofList k, v) :: kvs))
        ('"' :: (s ++ '"' :: (w ++ ':' :: (w₁ ++ (t ++ (w₂ ++ ',' :: (w₃ ++ u)))))))

/-- A text that is a document of a value. -/
def Document (v : Value) (text : String) : Prop :=
  ∃ w t w', Space w ∧ Written (.value v) t ∧ Space w' ∧ text.toList = w ++ (t ++ w')

/-! ### Strings -/

theorem hexValue?_digitChar {n : Nat} (h : n < 16) : hexValue? n.digitChar = some n := by
  have hall : ∀ n < 16, hexValue? n.digitChar = some n := by decide
  exact hall n h

/-- The last digit of a number that has room for it. -/
theorem hex_succ {width n : Nat} (hwidth : 0 < width) :
    Text.hex (width + 1) n = Text.hex width (n / 16) ++ [(n % 16).digitChar] := by
  rcases Nat.lt_or_ge n 16 with hsmall | hlarge
  · have hpad : width - 1 + 1 = width := by omega
    rw [Nat.div_eq_of_lt hsmall, Nat.mod_eq_of_lt hsmall]
    simp only [Text.hex, Nat.toDigits_of_lt_base hsmall, Nat.toDigits_zero, List.length_singleton,
      Nat.add_sub_cancel]
    rw [← List.replicate_succ', hpad]
  · simp only [Text.hex, Nat.toDigits_of_base_le (by decide : 1 < 16) hlarge,
      List.length_append, List.length_singleton, Nat.add_sub_add_right, List.append_assoc]

theorem unit_hex {n : Nat} (h : n < 0x10000) : CodeUnit (Text.hex 4 n) n := by
  have hone : Text.hex 1 (n / 16 / 16 / 16) = [(n / 16 / 16 / 16).digitChar] := by
    have hlt : n / 16 / 16 / 16 < 16 := by omega
    simp [Text.hex, Nat.toDigits_of_lt_base hlt]
  have hvalue : (((n / 16 / 16 / 16) * 16 + n / 16 / 16 % 16) * 16 + n / 16 % 16) * 16 + n % 16 =
      n := by omega
  rw [hex_succ (by decide), hex_succ (by decide), hex_succ (by decide), hone]
  have hunit := CodeUnit.digits
    (hexValue?_digitChar (show n / 16 / 16 / 16 < 16 by omega))
    (hexValue?_digitChar (show n / 16 / 16 % 16 < 16 by omega))
    (hexValue?_digitChar (show n / 16 % 16 < 16 by omega))
    (hexValue?_digitChar (show n % 16 < 16 by omega))
  rw [hvalue] at hunit
  exact hunit

/-- A character of the first plane is no half of a pair. -/
theorem toNat_cases (c : Char) : (c.toNat < 0xd800 ∨ 0xe000 ≤ c.toNat) ∧ c.toNat < 0x110000 := by
  have hvalid := c.valid
  rw [UInt32.isValidChar, Nat.isValidChar] at hvalid
  have hval : c.val.toNat = c.toNat := rfl
  omega

theorem spells_unitEscape {c : Char} {s t : List Char} (hc : c.toNat < 0x10000)
    (h : Spells s t) : Spells (c :: s) (unitEscape c.toNat ++ t) := by
  have hunit := Spells.unit (unit_hex hc) (toNat_cases c).1 h
  rwa [Char.ofNat_toNat] at hunit

theorem spells_pairEscape {c : Char} {s t : List Char} {k : Nat} (hc : c.toNat = 0x10000 + k)
    (h : Spells s t) :
    Spells (c :: s) (unitEscape (0xd800 + k / 0x400) ++ unitEscape (0xdc00 + k % 0x400) ++ t) := by
  have hlimit := (toNat_cases c).2
  have hhigh : 0xd800 + k / 0x400 < 0xdc00 := by omega
  have hlow : 0xdc00 + k % 0x400 < 0xe000 := by omega
  have hpair := Spells.pair (unit_hex (by omega)) ⟨Nat.le_add_right _ _, hhigh⟩
    (unit_hex (by omega)) ⟨Nat.le_add_right _ _, hlow⟩ h
  have hvalue : 0x10000 + (0xd800 + k / 0x400 - 0xd800) * 0x400 + (0xdc00 + k % 0x400 - 0xdc00) =
      c.toNat := by omega
  rw [hvalue, Char.ofNat_toNat] at hpair
  rw [List.append_assoc]
  exact hpair

theorem spells_escapeChar (c : Char) {s t : List Char} (h : Spells s t) :
    Spells (c :: s) (escapeChar c ++ t) := by
  have hletter : ∀ letter, (letter, c) ∈ escapes → Spells (c :: s) (['\\', letter] ++ t) :=
    fun letter hmem => .escape hmem h
  have hofNat : ∀ n, c.toNat = n → c = Char.ofNat n := fun n hn => hn ▸ (Char.ofNat_toNat c).symm
  simp only [escapeChar, Bool.or_eq_true, Bool.and_eq_true, beq_iff_eq, decide_eq_true_eq]
  split
  case isTrue hc => exact hletter c (by rcases hc with rfl | rfl <;> decide)
  case isFalse hquote =>
  split
  case isTrue hc => exact hletter 'n' (hc ▸ by decide)
  split
  case isTrue hc => exact hletter 'r' (hc ▸ by decide)
  split
  case isTrue hc => exact hletter 't' (hc ▸ by decide)
  split
  case isTrue hc => exact hletter 'b' (hofNat 8 hc ▸ by decide)
  split
  case isTrue hc => exact hletter 'f' (hofNat 12 hc ▸ by decide)
  split
  case isTrue hc => exact .plain hc.1 (fun h => hquote (.inl h)) (fun h => hquote (.inr h)) h
  split
  case isTrue hc => exact spells_unitEscape hc h
  case isFalse hc => exact spells_pairEscape (by omega : c.toNat = 0x10000 + (c.toNat - 0x10000)) h

theorem spells_flatMap_escapeChar (s : List Char) : Spells s (s.flatMap escapeChar) := by
  induction s with
  | nil => exact .nil
  | cons c s ih =>
      rw [List.flatMap_cons]
      exact spells_escapeChar c ih

theorem toList_quote (s : String) :
    (quote s).toList = '"' :: (s.toList.flatMap escapeChar ++ ['"']) :=
  String.toList_ofList

theorem written_quote (s : String) : Written (.value (.str s)) (quote s).toList := by
  have hstring := Written.string (spells_flatMap_escapeChar s.toList)
  rwa [String.ofList_toList, ← toList_quote] at hstring

/-! ### Numbers -/

theorem digits_toDigits (n : Nat) : Digits (Nat.toDigits 10 n) :=
  ⟨Nat.toDigits_ne_nil, fun _ hc => Nat.isDigit_of_mem_toDigits (by decide) (by decide) hc⟩

/-- Only zero is written with a zero first. -/
theorem eq_zero_of_head?_toDigits {n : Nat} (h : (Nat.toDigits 10 n).head? = some '0') :
    n = 0 := by
  induction n using Nat.strongRecOn with
  | ind n ih =>
      rcases Nat.lt_or_ge n 10 with hsmall | hlarge
      · rw [Nat.toDigits_of_lt_base hsmall, List.head?_cons, Option.some.injEq,
          Nat.digitChar_eq_zero] at h
        exact h
      · rw [Nat.toDigits_of_base_le (by decide) hlarge,
          List.head?_append_of_ne_nil _ Nat.toDigits_ne_nil] at h
        have hdiv := ih (n / 10) (by omega) h
        omega

theorem whole_toDigits (n : Nat) : Whole (Nat.toDigits 10 n) := by
  refine ⟨digits_toDigits n, fun h => ?_⟩
  rw [eq_zero_of_head?_toDigits h, Nat.toDigits_zero]

theorem written_int (n : Int) : Written (.value (.int n)) (toString n).toList := by
  have htext : ∀ m : Nat, m.repr.toList = Nat.toDigits 10 m := fun m => by
    rw [Nat.repr_eq_ofList_toDigits, String.toList_ofList]
  cases n with
  | ofNat m =>
      have hwhole := Written.whole false (whole_toDigits m)
      rw [Nat.ofDigitChars_ten_toDigits, ← htext m] at hwhole
      exact hwhole
  | negSucc m =>
      have hwhole := Written.whole true (whole_toDigits (m + 1))
      rw [Nat.ofDigitChars_ten_toDigits, ← htext (m + 1)] at hwhole
      have hminus : (toString (Int.negSucc m)).toList = minus true ++ (m + 1).repr.toList :=
        String.toList_append
      rw [hminus]
      exact hwhole

/-! ### Lists and tables -/

theorem space_nil : Space [] := fun _ hc => nomatch hc

theorem space_lineBreak (compact : Bool) (level : Nat) :
    Space (lineBreak compact level).toList := by
  cases compact with
  | true => exact fun c hc => nomatch hc
  | false =>
      intro c hc
      simp only [lineBreak, Text.repeatChar, Bool.false_eq_true, if_false, String.toList_append,
        String.toList_ofList, List.mem_append, List.mem_replicate] at hc
      rcases hc with hc | ⟨-, rfl⟩
      · rw [List.mem_singleton.mp hc]
        rfl
      · rfl

theorem toList_between (compact : Bool) (level : Nat) :
    ∃ w, Space w ∧ (between compact level).toList = ',' :: w := by
  cases compact with
  | true => exact ⟨[' '], by simp [Space, isSpace], by simp [between]⟩
  | false => exact ⟨_, space_lineBreak false level, String.toList_append⟩

section

variable {w w' : List Char} (hw : Space w) (hw' : Space w')

include hw hw'

/-- Written items with commas between them. -/
theorem written_items (text : Value → List Char) {items : List Value} (hne : items ≠ [])
    (hitems : ∀ v ∈ items, Written (.value v) (text v)) :
    Written (.items items) ((',' :: w').intercalate (items.map text) ++ w) := by
  induction items with
  | nil => exact absurd rfl hne
  | cons v rest ih =>
      have hv := hitems v List.mem_cons_self
      cases rest with
      | nil =>
          rw [List.map_singleton, List.intercalate_singleton]
          exact .item hv hw
      | cons v' rest =>
          have hrest := ih (List.cons_ne_nil _ _) fun x hx => hitems x (List.mem_cons_of_mem v hx)
          rw [List.map_cons, List.map_cons, List.intercalate_cons_cons, List.append_assoc,
            List.append_assoc]
          exact .items hv space_nil hw' hrest

theorem written_entries (text : Value → List Char) {entries : List (String × Value)}
    (hne : entries ≠ []) (hentries : ∀ x ∈ entries, Written (.value x.2) (text x.2)) :
    Written (.entries entries)
      ((',' :: w').intercalate
        (entries.map fun x => (quote x.1).toList ++ ':' :: ' ' :: text x.2) ++ w) := by
  have hblank : Space [' '] := fun c hc => by rw [List.mem_singleton.mp hc]; rfl
  induction entries with
  | nil => exact absurd rfl hne
  | cons x rest ih =>
      obtain ⟨k, v⟩ := x
      have hv := hentries (k, v) List.mem_cons_self
      have hk := spells_flatMap_escapeChar k.toList
      cases rest with
      | nil =>
          have hentry := Written.entry hk space_nil hblank hv hw
          rw [String.ofList_toList] at hentry
          simpa [toList_quote, List.intercalate_singleton] using hentry
      | cons x' rest =>
          have hrest := ih (List.cons_ne_nil _ _)
            fun x hx => hentries x (List.mem_cons_of_mem (k, v) hx)
          have hentry := Written.entries hk space_nil hblank hv space_nil hw' hrest
          rw [String.ofList_toList] at hentry
          simpa [toList_quote, List.intercalate_cons_cons] using hentry

end

theorem writeItems_eq_map (compact : Bool) (level : Nat) (items : List Value) :
    writeItems compact level items = items.map (write compact level) := by
  induction items with
  | nil => rfl
  | cons v rest ih => rw [writeItems, ih, List.map_cons]

theorem writeEntries_eq_map (compact : Bool) (level : Nat) (entries : List (String × Value)) :
    writeEntries compact level entries =
      entries.map fun x => quote x.1 ++ ": " ++ write compact level x.2 := by
  induction entries with
  | nil => rfl
  | cons x rest ih => rw [writeEntries, ih, List.map_cons]

section

variable (compact : Bool) (level : Nat)

theorem toList_write_list {items : List Value} (hne : items ≠ []) :
    (write compact level (.list items)).toList =
      '[' :: ((lineBreak compact (level + 1)).toList ++
        ((between compact (level + 1)).toList.intercalate
          (items.map fun v => (write compact (level + 1) v).toList) ++
            (lineBreak compact level).toList ++ [']'])) := by
  have hopen : "[".toList = ['['] := rfl
  have hclose : "]".toList = [']'] := rfl
  cases items with
  | nil => exact absurd rfl hne
  | cons v rest =>
      rw [write, writeItems_eq_map]
      · simp only [Text.join, String.toList_append, String.toList_intercalate, List.map_map,
          List.append_assoc, Function.comp_def, hopen, hclose, List.cons_append, List.nil_append]
      · exact hne

theorem toList_write_table {entries : List (String × Value)} (hne : entries ≠ []) :
    (write compact level (.table entries)).toList =
      '\x7b' :: ((lineBreak compact (level + 1)).toList ++
        ((between compact (level + 1)).toList.intercalate
          (entries.map fun x =>
            (quote x.1).toList ++ ':' :: ' ' :: (write compact (level + 1) x.2).toList) ++
              (lineBreak compact level).toList ++ ['\x7d'])) := by
  have hopen : "\x7b".toList = ['\x7b'] := rfl
  have hclose : "\x7d".toList = ['\x7d'] := rfl
  have hcolon : ": ".toList = [':', ' '] := rfl
  cases entries with
  | nil => exact absurd rfl hne
  | cons x rest =>
      rw [write, writeEntries_eq_map]
      · simp only [Text.join, String.toList_append, String.toList_intercalate, List.map_map,
          List.append_assoc, Function.comp_def, hopen, hclose, hcolon, List.cons_append,
          List.nil_append]
      · exact hne

variable {v : Value}

/-- What is written of a value is a text of it. -/
theorem written_write (h : v.Recordable) :
    Written (.value v) (write compact level v).toList := by
  induction h generalizing level with
  | null =>
      rw [write]
      exact .null
  | bool b =>
      rw [write]
      cases b with
      | true => exact .yes
      | false => exact .no
  | int n =>
      rw [write]
      exact written_int n
  | str s =>
      rw [write]
      exact written_quote s
  | @list items hitems ih =>
      by_cases hne : items = []
      · subst hne
        rw [write]
        exact .emptyList space_nil
      · obtain ⟨w, hw, hbetween⟩ := toList_between compact (level + 1)
        rw [toList_write_list compact level hne, hbetween]
        exact .list (space_lineBreak compact (level + 1))
          (written_items (space_lineBreak compact level) hw _ hne fun v hv => ih v hv (level + 1))
  | @table entries hkeys hentries ih =>
      by_cases hne : entries = []
      · subst hne
        rw [write]
        exact .emptyTable space_nil
      · obtain ⟨w, hw, hbetween⟩ := toList_between compact (level + 1)
        rw [toList_write_table compact level hne, hbetween]
        exact .table (space_lineBreak compact (level + 1)) hkeys
          (written_entries (space_lineBreak compact level) hw
            (fun v => (write compact (level + 1) v).toList) hne fun x hx => ih x hx (level + 1))

end

theorem document_pretty {v : Value} (h : v.Recordable) : Document v (pretty v) := by
  exact ⟨[], _, [], space_nil, written_write false 0 h, space_nil, by simp [pretty]⟩

end Json

end ThrowCatch
