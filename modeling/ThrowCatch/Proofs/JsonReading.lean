import ThrowCatch.Proofs.JsonGrammar

/-!
The reader against the grammar. Whatever the grammar derives, the reader
accepts, and gives the value of the derivation; so a text is a document of at
most one value, and what was written is read back.

The reader is bounded by fuel. A part of a document needs at most two units
for each of its characters, whatever stands behind it.
-/

namespace ThrowCatch.Json

/-! ### Strings -/

theorem hex4?_of_unit {digits : List Char} {n : Nat} (h : CodeUnit digits n) (rest : List Char) :
    hex4? (digits ++ rest) = some (n, rest) := by
  cases h with
  | digits ha hb hc hd => simp only [List.cons_append, List.nil_append, hex4?, ha, hb, hc, hd]

theorem CodeUnit.length_eq {digits : List Char} {n : Nat} (h : CodeUnit digits n) :
    digits.length = 4 := by
  cases h
  rfl

section

variable (acc : List Char) (fuel : Nat) {rest : List Char}

theorem stringFrom_plain {c : Char} (hc : 32 ≤ c.toNat) (hquote : c ≠ '"') (hslash : c ≠ '\\') :
    stringFrom acc (fuel + 1) (c :: rest) = stringFrom (c :: acc) fuel rest := by
  rw [stringFrom]
  · rw [if_neg (by omega)]
  all_goals simp_all

theorem stringFrom_escape {letter c : Char} (hc : (letter, c) ∈ escapes) :
    stringFrom acc (fuel + 1) ('\\' :: letter :: rest) = stringFrom (c :: acc) fuel rest := by
  simp only [escapes, List.mem_cons, Prod.mk.injEq, List.not_mem_nil, or_false] at hc
  rcases hc with ⟨rfl, rfl⟩ | ⟨rfl, rfl⟩ | ⟨rfl, rfl⟩ | ⟨rfl, rfl⟩ | ⟨rfl, rfl⟩ | ⟨rfl, rfl⟩ |
    ⟨rfl, rfl⟩ | ⟨rfl, rfl⟩ <;> simp [stringFrom]

theorem stringFrom_unit {digits : List Char} {n : Nat} (h : CodeUnit digits n)
    (hn : n < 0xd800 ∨ 0xe000 ≤ n) :
    stringFrom acc (fuel + 1) ('\\' :: 'u' :: (digits ++ rest)) =
      stringFrom (Char.ofNat n :: acc) fuel rest := by
  rw [stringFrom, hex4?_of_unit h]
  simp only [Bool.and_eq_true, decide_eq_true_eq]
  rw [if_neg (by omega), if_neg (by omega)]

theorem stringFrom_pair {high low : List Char} {m n : Nat} (hhigh : CodeUnit high m)
    (hm : 0xd800 ≤ m ∧ m < 0xdc00) (hlow : CodeUnit low n) (hn : 0xdc00 ≤ n ∧ n < 0xe000) :
    stringFrom acc (fuel + 1) ('\\' :: 'u' :: (high ++ '\\' :: 'u' :: (low ++ rest))) =
      stringFrom (Char.ofNat (0x10000 + (m - 0xd800) * 0x400 + (n - 0xdc00)) :: acc) fuel rest := by
  rw [stringFrom, hex4?_of_unit hhigh]
  simp only [Bool.and_eq_true, decide_eq_true_eq, hex4?_of_unit hlow]
  rw [if_pos hm, if_pos hn]

end

/-- A string is read up to its closing quote. -/
theorem stringFrom_of_spells {s t : List Char} (h : Spells s t) {fuel : Nat}
    (hfuel : t.length < fuel) (acc rest : List Char) :
    stringFrom acc fuel (t ++ '"' :: rest) = some (s.reverse ++ acc, rest) := by
  induction h generalizing acc fuel with
  | nil =>
      obtain ⟨fuel, rfl⟩ := Nat.exists_eq_add_one_of_ne_zero (Nat.ne_zero_of_lt hfuel)
      rfl
  | plain hc hquote hslash h ih =>
      obtain ⟨fuel, rfl⟩ := Nat.exists_eq_add_one_of_ne_zero (Nat.ne_zero_of_lt hfuel)
      rw [List.cons_append, stringFrom_plain acc fuel hc hquote hslash,
        ih (Nat.lt_of_succ_lt_succ hfuel)]
      simp
  | escape hc h ih =>
      obtain ⟨fuel, rfl⟩ := Nat.exists_eq_add_one_of_ne_zero (Nat.ne_zero_of_lt hfuel)
      simp only [List.length_cons] at hfuel
      rw [List.cons_append, List.cons_append, stringFrom_escape acc fuel hc, ih (by omega)]
      simp
  | unit hdigits hn h ih =>
      obtain ⟨fuel, rfl⟩ := Nat.exists_eq_add_one_of_ne_zero (Nat.ne_zero_of_lt hfuel)
      simp only [List.length_cons, List.length_append] at hfuel
      rw [List.cons_append, List.cons_append, List.append_assoc,
        stringFrom_unit acc fuel hdigits hn, ih (by omega)]
      simp
  | pair hhigh hm hlow hn h ih =>
      obtain ⟨fuel, rfl⟩ := Nat.exists_eq_add_one_of_ne_zero (Nat.ne_zero_of_lt hfuel)
      simp only [List.length_cons, List.length_append] at hfuel
      rw [List.cons_append, List.cons_append, List.append_assoc, List.cons_append,
        List.cons_append, List.append_assoc, stringFrom_pair acc fuel hhigh hm hlow hn,
        ih (by omega)]
      simp

/-! ### Numbers -/

theorem digitValue?_of_isDigit {c : Char} (h : c.isDigit = true) :
    Text.digitValue? c = some (c.toNat - '0'.toNat) := by
  have hrange : 48 ≤ c.toNat ∧ c.toNat ≤ 57 := by
    simpa [Char.isDigit, UInt32.le_iff_toNat_le] using h
  have hfirst : (decide (48 ≤ c.toNat) && decide (c.toNat ≤ 48 + 9)) = true := by
    simp only [Bool.and_eq_true, decide_eq_true_eq]
    omega
  have hfind : Text.digitZeros.find? (fun z => z ≤ c.toNat && c.toNat ≤ z + 9) = some 48 :=
    List.find?_cons_of_pos hfirst
  rw [Text.digitValue?, hfind]
  rfl

theorem digitsFrom_of_digits {ds : List Char} (h : ∀ c ∈ ds, c.isDigit = true) (must : Bool)
    (hmust : must = true → ds ≠ []) :
    Reading.digitsFrom must ds = some (ds.map fun c => c.toNat - '0'.toNat, []) := by
  induction ds generalizing must with
  | nil =>
      cases must with
      | true => exact absurd rfl (hmust rfl)
      | false => rfl
  | cons c ds ih =>
      have hrest := ih (fun c hc => h c (List.mem_cons_of_mem _ hc)) false (by simp)
      rw [Reading.digitsFrom, digitValue?_of_isDigit (h c List.mem_cons_self)]
      simp only [hrest, Option.map_some, List.map_cons]

theorem ofDigits_eq_ofDigitChars (ds : List Char) :
    Reading.ofDigits (ds.map fun c => c.toNat - '0'.toNat) = Nat.ofDigitChars 10 ds 0 := by
  rw [Reading.ofDigits, List.foldl_map, Nat.ofDigitChars_eq_foldl]
  congr 1
  funext n c
  rw [Nat.mul_comm]

def numberChars : List Char :=
  ['0', '1', '2', '3', '4', '5', '6', '7', '8', '9', '-', '+', '.', 'e', 'E']

theorem mem_of_isNumberChar {c : Char} (h : isNumberChar c = true) :
    c ∈ numberChars := by
  simp only [isNumberChar, Bool.or_eq_true, beq_iff_eq] at h
  rcases h with ((((hdigit | rfl) | rfl) | rfl) | rfl) | rfl
  · have hrange : 48 ≤ c.toNat ∧ c.toNat ≤ 57 := by
      simpa [Char.isDigit, UInt32.le_iff_toNat_le] using hdigit
    have hall : ∀ n < 10, Char.ofNat (48 + n) ∈ numberChars := by decide
    have hc := hall (c.toNat - 48) (by omega)
    rwa [Nat.add_sub_cancel' hrange.1, Char.ofNat_toNat] at hc
  all_goals decide

theorem isMargin_of_isNumberChar {c : Char} (h : isNumberChar c = true) :
    Reading.isMargin c = false := by
  have hall : (numberChars.all fun c => !Reading.isMargin c) = true := by decide
  simpa using List.all_eq_true.mp hall c (mem_of_isNumberChar h)

theorem dropWhile_isMargin {cs : List Char} (h : ∀ c ∈ cs, isNumberChar c = true) :
    cs.dropWhile Reading.isMargin = cs := by
  cases cs with
  | nil => rfl
  | cons c cs =>
      exact List.dropWhile_cons_of_neg
        (by rw [isMargin_of_isNumberChar (h c List.mem_cons_self)]; exact Bool.false_ne_true)

theorem trimmed_of_number {cs : List Char} (h : ∀ c ∈ cs, isNumberChar c = true) :
    Reading.trimmed (String.ofList cs) = cs := by
  have hreverse : ∀ c ∈ cs.reverse, isNumberChar c = true :=
    fun c hc => h c (List.mem_reverse.mp hc)
  rw [Reading.trimmed, String.toList_ofList, dropWhile_isMargin h, dropWhile_isMargin hreverse,
    List.reverse_reverse]

theorem isNumberChar_of_isDigit {c : Char} (h : c.isDigit = true) : isNumberChar c = true := by
  simp [isNumberChar, h]

theorem sign_minus {ds : List Char} (negative : Bool) (h : Digits ds) :
    Reading.sign (minus negative ++ ds) = (negative, ds) := by
  obtain ⟨hne, hdigits⟩ := h
  cases negative with
  | true => rfl
  | false =>
      cases ds with
      | nil => exact absurd rfl hne
      | cons c ds =>
          have hc := hdigits c List.mem_cons_self
          rw [minus, if_neg Bool.false_ne_true, List.nil_append, Reading.sign]
          all_goals
            rintro cs ⟨rfl, -⟩
            exact absurd hc (by decide)

theorem isNumberChar_of_mem_whole {ds : List Char} (negative : Bool) (h : Digits ds) :
    ∀ c ∈ minus negative ++ ds, isNumberChar c = true := by
  intro c hc
  rcases List.mem_append.mp hc with hsign | hdigit
  · cases negative with
    | true => rw [List.mem_singleton.mp hsign]; rfl
    | false => exact absurd hsign List.not_mem_nil
  · exact isNumberChar_of_isDigit (h.2 c hdigit)

theorem int?_whole {ds : List Char} (negative : Bool) (h : Digits ds) :
    Reading.int? (String.ofList (minus negative ++ ds)) =
      some (if negative then -(Nat.ofDigitChars 10 ds 0 : Int) else Nat.ofDigitChars 10 ds 0) := by
  have hdigits : Reading.digits1 ds = some (ds.map fun c => c.toNat - '0'.toNat, []) :=
    digitsFrom_of_digits h.2 true fun _ => h.1
  simp only [Reading.int?, trimmed_of_number (isNumberChar_of_mem_whole negative h),
    sign_minus negative h, hdigits, ofDigits_eq_ofDigitChars]

/-- A sign and digits have no point and no exponent among them. -/
theorem number?_whole {ds : List Char} (negative : Bool) (h : Digits ds) :
    number? (minus negative ++ ds) =
      some (.int (if negative then -(Nat.ofDigitChars 10 ds 0 : Int)
        else Nat.ofDigitChars 10 ds 0)) := by
  have hnone : (minus negative ++ ds).any (fun c => c == '.' || c == 'e' || c == 'E') = false := by
    rw [List.any_eq_false]
    intro c hc hmark
    simp only [Bool.or_eq_true, beq_iff_eq] at hmark
    rcases List.mem_append.mp hc with hsign | hdigit
    · cases negative with
      | true =>
          rw [List.mem_singleton.mp hsign] at hmark
          exact absurd hmark (by decide)
      | false => exact absurd hsign List.not_mem_nil
    · have hc := h.2 c hdigit
      rcases hmark with (rfl | rfl) | rfl <;> exact absurd hc (by decide)
  rw [number?, hnone, if_neg Bool.false_ne_true, int?_whole negative h]
  rfl

theorem Exponent.isNumberChar {t : List Char} (h : Exponent t) :
    ∀ c ∈ t, isNumberChar c = true := by
  cases h with
  | @mk mark sign ds hmark hsign hds =>
      have hfirst : Json.isNumberChar mark = true := by rcases hmark with rfl | rfl <;> rfl
      have hmiddle : sign.all Json.isNumberChar = true := by
        rcases hsign with rfl | rfl | rfl <;> decide
      simpa [hfirst] using fun c hc =>
        Or.elim hc (List.all_eq_true.mp hmiddle c) fun hc => isNumberChar_of_isDigit (hds.2 c hc)

theorem Tail.isNumberChar {t : List Char} (h : Tail t) : ∀ c ∈ t, isNumberChar c = true := by
  have hpoint : Json.isNumberChar '.' = true := rfl
  cases h with
  | fraction hds => simpa [hpoint] using fun c hc => isNumberChar_of_isDigit (hds.2 c hc)
  | exponent ht => exact ht.isNumberChar
  | both hds ht =>
      simpa [hpoint] using
        fun c hc => Or.elim hc (fun hc => isNumberChar_of_isDigit (hds.2 c hc)) (ht.isNumberChar c)

theorem Tail.marked {t : List Char} (h : Tail t) :
    t.any (fun c => c == '.' || c == 'e' || c == 'E') = true := by
  cases h with
  | fraction hds => rfl
  | exponent ht =>
      cases ht with
      | mk hmark _ _ => rcases hmark with rfl | rfl <;> rfl
  | both hds ht => rfl

theorem number?_decimal {word t : List Char} {x : Double} (ht : Tail t)
    (hx : Reading.float? (String.ofList (word ++ t)) = some x) :
    number? (word ++ t) = some (.float x) := by
  rw [number?, List.any_append, ht.marked, Bool.or_true, if_pos rfl, hx]
  rfl

/-! ### Parts of a document -/

/-- What may follow a number without becoming part of it. -/
def Stops (rest : List Char) : Prop := ∀ c ∈ rest.head?, isNumberChar c = false

theorem isNumberChar_of_isSpace {c : Char} (h : isSpace c = true) : isNumberChar c = false := by
  simp only [isSpace, Bool.or_eq_true, beq_iff_eq] at h
  rcases h with ((rfl | rfl) | rfl) | rfl <;> rfl

theorem stops_space {w rest : List Char} (hw : Space w) (h : Stops rest) : Stops (w ++ rest) := by
  cases w with
  | nil => exact h
  | cons c w =>
      rintro _ ⟨⟩
      exact isNumberChar_of_isSpace (hw c List.mem_cons_self)

theorem stops_cons {c : Char} (hc : isNumberChar c = false) (rest : List Char) :
    Stops (c :: rest) := by
  rintro _ ⟨⟩
  exact hc

theorem skip_space {w : List Char} (hw : Space w) {c : Char} (hc : isSpace c = false)
    (rest : List Char) : skip (w ++ c :: rest) = c :: rest := by
  rw [skip, List.dropWhile_append_of_pos hw, List.dropWhile_cons_of_neg (by rw [hc]; decide)]

theorem valueFrom_number {word rest : List Char} {v : Value} (hne : word ≠ [])
    (hword : ∀ c ∈ word, isNumberChar c = true) (hrest : Stops rest)
    (hv : number? word = some v) (fuel : Nat) :
    valueFrom (fuel + 1) (word ++ rest) = some (v, rest) := by
  have hstop : rest.takeWhile isNumberChar = [] ∧ rest.dropWhile isNumberChar = rest := by
    cases rest with
    | nil => exact ⟨rfl, rfl⟩
    | cons c rest =>
        have hc := hrest c rfl
        exact ⟨List.takeWhile_cons_of_neg (by rw [hc]; decide),
          List.dropWhile_cons_of_neg (by rw [hc]; decide)⟩
  have htake : (word ++ rest).takeWhile isNumberChar = word := by
    rw [List.takeWhile_append_of_pos hword, hstop.1, List.append_nil]
  have hdrop : (word ++ rest).dropWhile isNumberChar = rest := by
    rw [List.dropWhile_append_of_pos hword, hstop.2]
  cases word with
  | nil => exact absurd rfl hne
  | cons c word =>
      have hc := hword c List.mem_cons_self
      rw [valueFrom]
      · simp only [htake, hdrop, hv]
        rfl
      all_goals
        intro _ heq
        rw [(List.cons.inj heq).1] at hc
        exact absurd hc (by decide)

/-- What the reader gives for a part of a document, whatever it has read
before and whatever follows. -/
def Reads : Part → List Char → Prop
  | .value v, t => ∀ (fuel : Nat) {rest : List Char}, 2 * t.length ≤ fuel → Stops rest →
      valueFrom fuel (t ++ rest) = some (v, rest)
  | .items vs, t => ∀ (fuel : Nat) (acc : List Value) (rest : List Char), 2 * t.length < fuel →
      itemsFrom acc fuel (t ++ ']' :: rest) = some (.list (acc.reverse ++ vs), rest)
  | .entries kvs, t => ∀ (fuel : Nat) (acc : List (String × Value)) (rest : List Char),
      2 * t.length < fuel →
        entriesFrom acc fuel (t ++ '\x7d' :: rest) = some (.table (acc.reverse ++ kvs), rest)

/-- A character that a value may start with. -/
def Opens (c : Char) : Prop := isSpace c = false ∧ c ≠ ']' ∧ c ≠ '\x7d'

theorem opens_of_isNumberChar {c : Char} (h : isNumberChar c = true) : Opens c := by
  have hall : (numberChars.all fun c =>
      decide (isSpace c = false ∧ c ≠ ']' ∧ c ≠ '\x7d')) = true := by decide
  have hc := of_decide_eq_true (List.all_eq_true.mp hall c (mem_of_isNumberChar h))
  exact hc

theorem opens_minus {ds : List Char} (negative : Bool) (h : Digits ds) :
    ∃ c u, minus negative ++ ds = c :: u ∧ Opens c := by
  have hne : minus negative ++ ds ≠ [] := fun heq => h.1 (List.append_eq_nil_iff.mp heq).2
  obtain ⟨c, u, heq⟩ := List.exists_cons_of_ne_nil hne
  have hc : c ∈ minus negative ++ ds := heq ▸ List.mem_cons_self
  exact ⟨c, u, heq, opens_of_isNumberChar (isNumberChar_of_mem_whole negative h c hc)⟩

/-- No part starts with a space or a closing bracket. -/
theorem opens_of_written {p : Part} {t : List Char} (h : Written p t) :
    ∃ c u, t = c :: u ∧ Opens c := by
  have hplain : ∀ c, (c == 'n' || c == 't' || c == 'f' || c == '"' || c == '[' || c == '\x7b') →
      ∀ u, ∃ c' u', c :: u = c' :: u' ∧ Opens c' := by
    intro c hc u
    refine ⟨c, u, rfl, ?_⟩
    simp only [Bool.or_eq_true, beq_iff_eq] at hc
    rcases hc with ((((rfl | rfl) | rfl) | rfl) | rfl) | rfl <;>
      exact ⟨rfl, by decide, by decide⟩
  induction h with
  | whole negative hds => exact opens_minus negative hds.1
  | decimal negative hds ht hx =>
      obtain ⟨c, u, heq, hc⟩ := opens_minus negative hds.1
      exact ⟨c, u ++ _, by rw [heq, List.cons_append], hc⟩
  | item h hw ih | items h hw hw' hrest ih _ =>
      obtain ⟨c, u, rfl, hc⟩ := ih
      exact ⟨c, _, List.cons_append, hc⟩
  | _ => exact hplain _ rfl _

theorem reads_number {word : List Char} {v : Value} (hne : word ≠ [])
    (hword : ∀ c ∈ word, isNumberChar c = true) (hv : number? word = some v) :
    Reads (.value v) word := by
  intro fuel rest hfuel hrest
  have hlength := List.length_pos_iff.mpr hne
  obtain ⟨fuel, rfl⟩ := Nat.exists_eq_add_one_of_ne_zero (n := fuel) (by omega)
  exact valueFrom_number hne hword hrest hv fuel

theorem reads_string {s t : List Char} (h : Spells s t) :
    Reads (.value (.str (String.ofList s))) ('"' :: (t ++ ['"'])) := by
  intro fuel rest hfuel hrest
  simp only [List.length_cons, List.length_append, List.length_nil] at hfuel
  obtain ⟨fuel, rfl⟩ := Nat.exists_eq_add_one_of_ne_zero (n := fuel) (by omega)
  rw [List.cons_append, List.append_assoc, List.singleton_append, valueFrom,
    stringFrom_of_spells h (by omega)]
  simp

theorem reads_emptyList {w : List Char} (hw : Space w) :
    Reads (.value (.list [])) ('[' :: (w ++ [']'])) := by
  intro fuel rest hfuel hrest
  simp only [List.length_cons] at hfuel
  obtain ⟨fuel, rfl⟩ := Nat.exists_eq_add_one_of_ne_zero (n := fuel) (by omega)
  rw [List.cons_append, List.append_assoc, List.singleton_append, valueFrom,
    skip_space hw (show isSpace ']' = false from rfl)]
  rfl

theorem reads_list {vs : List Value} {w t : List Char} (hw : Space w)
    (hopens : ∃ c u, t = c :: u ∧ Opens c) (h : Reads (.items vs) t) :
    Reads (.value (.list vs)) ('[' :: (w ++ (t ++ [']']))) := by
  intro fuel rest hfuel hrest
  simp only [List.length_cons, List.length_append, List.length_nil] at hfuel
  obtain ⟨fuel, rfl⟩ := Nat.exists_eq_add_one_of_ne_zero (n := fuel) (by omega)
  have hitems := h fuel [] rest (by omega)
  obtain ⟨c, u, rfl, hspace, hclose, -⟩ := hopens
  rw [List.cons_append] at hitems
  rw [List.cons_append, List.append_assoc, List.append_assoc, List.singleton_append, valueFrom,
    List.cons_append, skip_space hw hspace]
  split
  · rename_i heq
    exact absurd (List.cons.inj heq).1 hclose
  · exact hitems

theorem reads_emptyTable {w : List Char} (hw : Space w) :
    Reads (.value (.table [])) ('\x7b' :: (w ++ ['\x7d'])) := by
  intro fuel rest hfuel hrest
  simp only [List.length_cons] at hfuel
  obtain ⟨fuel, rfl⟩ := Nat.exists_eq_add_one_of_ne_zero (n := fuel) (by omega)
  rw [List.cons_append, List.append_assoc, List.singleton_append, valueFrom,
    skip_space hw (show isSpace '\x7d' = false from rfl)]
  rfl

theorem reads_table {kvs : List (String × Value)} {w t : List Char} (hw : Space w)
    (hopens : ∃ c u, t = c :: u ∧ Opens c) (h : Reads (.entries kvs) t) :
    Reads (.value (.table kvs)) ('\x7b' :: (w ++ (t ++ ['\x7d']))) := by
  intro fuel rest hfuel hrest
  simp only [List.length_cons, List.length_append, List.length_nil] at hfuel
  obtain ⟨fuel, rfl⟩ := Nat.exists_eq_add_one_of_ne_zero (n := fuel) (by omega)
  have hentries := h fuel [] rest (by omega)
  obtain ⟨c, u, rfl, hspace, -, hclose⟩ := hopens
  rw [List.cons_append] at hentries
  rw [List.cons_append, List.append_assoc, List.append_assoc, List.singleton_append, valueFrom,
    List.cons_append, skip_space hw hspace]
  split
  · rename_i heq
    exact absurd (List.cons.inj heq).1 hclose
  · exact hentries

theorem reads_item {v : Value} {t w : List Char} (h : Reads (.value v) t) (hw : Space w) :
    Reads (.items [v]) (t ++ w) := by
  intro fuel acc rest hfuel
  simp only [List.length_append] at hfuel
  obtain ⟨fuel, rfl⟩ := Nat.exists_eq_add_one_of_ne_zero (n := fuel) (by omega)
  have hstops : Stops (w ++ ']' :: rest) := stops_space hw (stops_cons rfl rest)
  rw [List.append_assoc, itemsFrom, h fuel (by omega) hstops]
  simp only [skip_space hw (show isSpace ']' = false from rfl), List.reverse_cons]

theorem reads_items {v : Value} {vs : List Value} {t w w' u : List Char}
    (h : Reads (.value v) t) (hw : Space w) (hw' : Space w')
    (hopens : ∃ c u', u = c :: u' ∧ Opens c) (hrest : Reads (.items vs) u) :
    Reads (.items (v :: vs)) (t ++ (w ++ ',' :: (w' ++ u))) := by
  intro fuel acc rest hfuel
  simp only [List.length_append, List.length_cons] at hfuel
  obtain ⟨fuel, rfl⟩ := Nat.exists_eq_add_one_of_ne_zero (n := fuel) (by omega)
  have hitems := hrest fuel (v :: acc) rest (by omega)
  obtain ⟨c, u, rfl, hspace, -⟩ := hopens
  rw [List.cons_append] at hitems
  have hstops : Stops (w ++ ',' :: (w' ++ c :: (u ++ ']' :: rest))) :=
    stops_space hw (stops_cons rfl _)
  simp only [List.append_assoc, List.cons_append]
  rw [itemsFrom, h fuel (by omega) hstops]
  simp only [skip_space hw (show isSpace ',' = false from rfl), skip_space hw' hspace, hitems,
    List.reverse_cons, List.append_assoc, List.singleton_append]

/-- What comes before the value of an entry, and then the value. -/
theorem entriesFrom_entry {k s t w w₁ w₂ : List Char} {v : Value} {fuel : Nat} (hk : Spells k s)
    (hw : Space w) (hw₁ : Space w₁) (hopens : ∃ c u, t = c :: u ∧ Opens c)
    (h : Reads (.value v) t) (hw₂ : Space w₂) (hs : s.length < fuel) (ht : 2 * t.length ≤ fuel)
    {next : Char} (hspace : isSpace next = false) (hnext : isNumberChar next = false)
    (acc : List (String × Value)) (rest : List Char) :
    entriesFrom acc (fuel + 1)
        ('"' :: (s ++ '"' :: (w ++ ':' :: (w₁ ++ (t ++ (w₂ ++ next :: rest)))))) =
      match next :: rest with
      | ',' :: rest => entriesFrom ((String.ofList k, v) :: acc) fuel (skip rest)
      | '\x7d' :: rest => some (.table ((String.ofList k, v) :: acc).reverse, rest)
      | _ => none := by
  have hstops : Stops (w₂ ++ next :: rest) := stops_space hw₂ (stops_cons hnext rest)
  have hvalue := h fuel ht hstops
  obtain ⟨c, u, rfl, hc, -⟩ := hopens
  rw [List.cons_append] at hvalue
  rw [entriesFrom, stringFrom_of_spells hk hs]
  simp only [List.append_nil, List.reverse_reverse,
    skip_space hw (show isSpace ':' = false from rfl), List.cons_append, skip_space hw₁ hc, hvalue]
  rewrite [skip_space hw₂ hspace]
  rfl

theorem reads_entry {k s t w w₁ w₂ : List Char} {v : Value} (hk : Spells k s) (hw : Space w)
    (hw₁ : Space w₁) (hopens : ∃ c u, t = c :: u ∧ Opens c) (h : Reads (.value v) t)
    (hw₂ : Space w₂) :
    Reads (.entries [(String.ofList k, v)])
      ('"' :: (s ++ '"' :: (w ++ ':' :: (w₁ ++ (t ++ w₂))))) := by
  intro fuel acc rest hfuel
  simp only [List.length_append, List.length_cons] at hfuel
  obtain ⟨fuel, rfl⟩ := Nat.exists_eq_add_one_of_ne_zero (n := fuel) (by omega)
  simp only [List.append_assoc, List.cons_append]
  rw [entriesFrom_entry hk hw hw₁ hopens h hw₂ (by omega) (by omega) rfl rfl]
  simp only [List.reverse_cons]

theorem reads_entries {k s t w w₁ w₂ w₃ u : List Char} {v : Value}
    {kvs : List (String × Value)} (hk : Spells k s) (hw : Space w) (hw₁ : Space w₁)
    (hopens : ∃ c u, t = c :: u ∧ Opens c) (h : Reads (.value v) t) (hw₂ : Space w₂)
    (hw₃ : Space w₃) (hopens' : ∃ c u', u = c :: u' ∧ Opens c) (hrest : Reads (.entries kvs) u) :
    Reads (.entries ((String.ofList k, v) :: kvs))
      ('"' :: (s ++ '"' :: (w ++ ':' :: (w₁ ++ (t ++ (w₂ ++ ',' :: (w₃ ++ u))))))) := by
  intro fuel acc rest hfuel
  simp only [List.length_append, List.length_cons] at hfuel
  obtain ⟨fuel, rfl⟩ := Nat.exists_eq_add_one_of_ne_zero (n := fuel) (by omega)
  have hentries := hrest fuel ((String.ofList k, v) :: acc) rest (by omega)
  obtain ⟨c, u, rfl, hspace, -⟩ := hopens'
  rw [List.cons_append] at hentries
  simp only [List.append_assoc, List.cons_append]
  rw [entriesFrom_entry hk hw hw₁ hopens h hw₂ (by omega) (by omega) rfl rfl]
  simp only [skip_space hw₃ hspace, hentries, List.reverse_cons, List.append_assoc,
    List.singleton_append]

/-- The reader follows every derivation. -/
theorem reads_of_written {p : Part} {t : List Char} (h : Written p t) : Reads p t := by
  induction h with
  | null | yes | no =>
      intro fuel rest hfuel hrest
      obtain ⟨fuel, rfl⟩ :=
        Nat.exists_eq_add_one_of_ne_zero (n := fuel) (by rintro rfl; cases hfuel)
      rfl
  | whole negative hds =>
      exact reads_number (fun heq => hds.1.1 (List.append_eq_nil_iff.mp heq).2)
        (isNumberChar_of_mem_whole negative hds.1) (number?_whole negative hds.1)
  | @decimal ds t x negative hds ht hx =>
      refine reads_number ?_ ?_ (number?_decimal ht hx)
      · intro heq
        exact hds.1.1 (List.append_eq_nil_iff.mp (List.append_eq_nil_iff.mp heq).1).2
      · intro c hc
        exact (List.mem_append.mp hc).elim (isNumberChar_of_mem_whole negative hds.1 c)
          (ht.isNumberChar c)
  | string h => exact reads_string h
  | emptyList hw => exact reads_emptyList hw
  | list hw h ih => exact reads_list hw (opens_of_written h) ih
  | emptyTable hw => exact reads_emptyTable hw
  | table hw _ h ih => exact reads_table hw (opens_of_written h) ih
  | item _ hw ih => exact reads_item ih hw
  | items _ hw hw' hrest ih ihrest => exact reads_items ih hw hw' (opens_of_written hrest) ihrest
  | entry hk hw hw₁ h hw₂ ih => exact reads_entry hk hw hw₁ (opens_of_written h) ih hw₂
  | entries hk hw hw₁ h hw₂ hw₃ hrest ih ihrest =>
      exact reads_entries hk hw hw₁ (opens_of_written h) ih hw₂ hw₃ (opens_of_written hrest) ihrest

/-- The reader accepts every document, with the value it is a document of. -/
theorem read?_of_document {v : Value} {text : String} (h : Document v text) :
    read? text = some v := by
  obtain ⟨w, t, w', hw, ht, hw', htext⟩ := h
  have hstops : Stops w' := List.append_nil w' ▸ stops_space hw' (by rintro _ ⟨⟩)
  have hfuel : 2 * t.length ≤ 2 * text.toList.length + 2 := by
    rw [htext]
    simp only [List.length_append]
    omega
  have hvalue := reads_of_written ht _ hfuel hstops
  have hend : skip w' = [] := by
    rw [skip, ← List.append_nil w', List.dropWhile_append_of_pos hw', List.dropWhile_nil]
  obtain ⟨c, u, rfl, hspace, -⟩ := opens_of_written ht
  have hstart : skip text.toList = c :: (u ++ w') := by
    rw [htext, List.cons_append, skip_space hw hspace]
  rw [List.cons_append] at hvalue
  simp only [read?, hstart, hvalue, hend, List.isEmpty_nil, if_true]

/-- A text tells at most one value. -/
theorem Document.unique {v v' : Value} {text : String} (h : Document v text)
    (h' : Document v' text) : v = v' :=
  Option.some.inj ((read?_of_document h).symm.trans (read?_of_document h'))

end ThrowCatch.Json
