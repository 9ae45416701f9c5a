import ThrowCatch.Proofs.Entries
import ThrowCatch.Toml.Document

/-!
What a document holds: every table of it, at the top or inside, names each of
its keys once. Reading adds an entry only under a key that is new and changes
an entry only in its place, so each statement keeps the document as it should
be, and with it the whole text.
-/

namespace ThrowCatch.Toml

/-- A value all of whose tables name each key once. -/
inductive Tidy : Value → Prop
  | atom {v : Value} (h : isContainer v = false) : Tidy v
  | list {items : List Value} (h : ∀ v ∈ items, Tidy v) : Tidy (.list items)
  | table {entries : Entries} (hkeys : (entries.map (·.1)).Nodup)
      (h : ∀ entry ∈ entries, Tidy entry.2) : Tidy (.table entries)

namespace Tidy

variable {t : Entries} {key : String} {v : Value}

theorem keys (h : Tidy (.table t)) : (t.map (·.1)).Nodup := by
  cases h with
  | atom h => cases h
  | table hkeys _ => exact hkeys

theorem entry (h : Tidy (.table t)) : ∀ entry ∈ t, Tidy entry.2 := by
  cases h with
  | atom h => cases h
  | table _ h => exact h

theorem item {items : List Value} (h : Tidy (.list items)) : ∀ v ∈ items, Tidy v := by
  cases h with
  | atom h => cases h
  | list h => exact h

theorem empty : Tidy (.table []) := .table List.nodup_nil (by simp)

theorem field? (h : Tidy (.table t)) (hfield : Value.field? t key = some v) : Tidy v :=
  h.entry _ (Value.mem_of_field? hfield)

theorem put (h : Tidy (.table t)) (hv : Tidy v) : Tidy (.table (Value.put t key v)) := by
  refine .table (Value.nodup_keys_put h.keys key v) fun entry hentry => ?_
  rcases Value.mem_put hentry with rfl | hentry
  · exact hv
  · exact h.entry entry hentry

theorem append (h : Tidy (.table t)) (hv : Tidy v) (hnew : Value.field? t key = none) :
    Tidy (.table (t ++ [(key, v)])) := by
  refine .table ?_ fun entry hentry => ?_
  · rw [List.map_append]
    refine List.nodup_append.mpr ⟨h.keys, by simp, ?_⟩
    rintro k hk _ hkey rfl
    rw [List.mem_singleton.mp hkey] at hk
    exact Value.field?_eq_none.mp hnew hk
  · rcases List.mem_append.mp hentry with hentry | hentry
    · exact h.entry entry hentry
    · rw [List.mem_singleton.mp hentry]
      exact hv

end Tidy

/-! ### Changes of a table -/

/-- A change of a table that leaves it tidy. -/
def KeepsTidy (f : Entries → Option Entries) : Prop :=
  ∀ t t', Tidy (.table t) → f t = some t' → Tidy (.table t')

theorem keepsTidy_addNew {v : Value} (hv : Tidy v) (key : String) : KeepsTidy (addNew key v) := by
  intro t t' ht h
  rw [addNew] at h
  split at h
  · cases h
  · next hnew =>
    cases h
    exact ht.append hv (by simpa using hnew)

theorem keepsTidy_addTable (key : String) : KeepsTidy (addTable key) := by
  intro t t' ht h
  unfold addTable at h
  split at h
  · next hnew =>
    cases h
    exact ht.append (.list (by simpa using Tidy.empty)) hnew
  · next items hitems =>
    cases h
    refine ht.put (.list fun v hv => ?_)
    rcases List.mem_append.mp hv with hv | hv
    · exact (ht.field? hitems).item v hv
    · rw [List.mem_singleton.mp hv]
      exact Tidy.empty
  · cases h

theorem keepsTidy_change {f : Entries → Option Entries} (hf : KeepsTidy f) (lists : Bool)
    (path : List String) : KeepsTidy (change lists f path) := by
  induction path with
  | nil => exact hf
  | cons k ks ih =>
      intro t t' ht h
      unfold change at h
      split at h
      · -- the table is made
        obtain ⟨u, hu, rfl⟩ := Option.map_eq_some_iff.mp h
        exact ht.put (ih _ _ Tidy.empty hu)
      · next inner hinner =>
        obtain ⟨u, hu, rfl⟩ := Option.map_eq_some_iff.mp h
        exact ht.put (ih _ _ (ht.field? hinner) hu)
      · next items hitems =>
        have hall := (ht.field? hitems).item
        split at h
        · -- the last table of a list
          next inner hlast =>
          obtain ⟨u, hu, rfl⟩ := Option.map_eq_some_iff.mp h
          refine ht.put (.list fun v hv => ?_)
          rcases List.mem_append.mp hv with hv | hv
          · exact hall v ((List.dropLast_sublist items).subset hv)
          · rw [List.mem_singleton.mp hv]
            exact ih _ _ (hall _ (List.mem_of_getLast? hlast)) hu
        · cases h
      · cases h

/-! ### Values -/

section

variable {cs rest : List Char} {v : Value}

theorem based?_atom (h : based? cs = some (v, rest)) : isContainer v = false := by
  unfold based? at h
  split at h
  · obtain ⟨_, _, heq⟩ := Option.map_eq_some_iff.mp h
    cases heq
    rfl
  · obtain ⟨_, _, heq⟩ := Option.map_eq_some_iff.mp h
    cases heq
    rfl
  · obtain ⟨_, _, heq⟩ := Option.map_eq_some_iff.mp h
    cases heq
    rfl
  · cases h

theorem decimal?_atom (h : decimal? cs = some (v, rest)) : isContainer v = false := by
  unfold decimal? at h
  obtain ⟨_, _, heq⟩ := Option.map_eq_some_iff.mp h
  dsimp only at heq
  split at heq <;>
  · cases heq
    rfl

theorem special?_atom (h : special? cs = some (v, rest)) : isContainer v = false := by
  unfold special? at h
  dsimp only at h
  split at h
  · cases h
    rfl
  · cases h
    rfl
  · cases h

end

/-- Values, arrays and inline tables contain one another, so their readers are
looked at together, for one amount of fuel after the other. -/
structure ReadsTidy (fuel : Nat) : Prop where
  value : ∀ {cs v rest}, value? fuel cs = some (v, rest) → Tidy v
  items : ∀ {acc cs v rest}, (∀ w ∈ acc, Tidy w) → items? acc fuel cs = some (v, rest) → Tidy v
  inline : ∀ {t marks cs v rest}, Tidy (.table t) → inline? t marks fuel cs = some (v, rest) →
    Tidy v

namespace ReadsTidy

variable {fuel : Nat} {cs rest : List Char} {v : Value}

theorem value_succ (ih : ReadsTidy fuel) (h : value? (fuel + 1) cs = some (v, rest)) :
    Tidy v := by
  unfold value? at h
  split at h
  · cases h
  · obtain ⟨_, _, heq⟩ := Option.map_eq_some_iff.mp h
    cases heq
    exact .atom rfl
  · cases h
    exact .atom rfl
  · cases h
    exact .atom rfl
  · -- an array
    obtain ⟨cs', _, h⟩ := Option.bind_eq_some_iff.mp h
    split at h
    · cases h
      exact .list (by simp)
    · exact ih.items (by simp) h
  · -- an inline table
    split at h
    · cases h
      exact Tidy.empty
    · exact ih.inline Tidy.empty h
  · split at h
    · obtain ⟨_, _, heq⟩ := Option.map_eq_some_iff.mp h
      cases heq
      exact .atom rfl
    · split at h
      · obtain ⟨_, _, heq⟩ := Option.map_eq_some_iff.mp h
        cases heq
        exact .atom rfl
      · split at h
        · next hbased =>
          cases h
          exact .atom (based?_atom hbased)
        · split at h
          · next hdecimal =>
            cases h
            exact .atom (decimal?_atom hdecimal)
          · exact .atom (special?_atom h)

theorem items_succ (ih : ReadsTidy fuel) {acc : List Value} (hacc : ∀ w ∈ acc, Tidy w)
    (h : items? acc (fuel + 1) cs = some (v, rest)) : Tidy v := by
  unfold items? at h
  split at h
  · cases h
  · next w cs' hw =>
    have hacc' : ∀ u ∈ w :: acc, Tidy u := List.forall_mem_cons.mpr ⟨ih.value hw, hacc⟩
    have hlist : Tidy (.list (w :: acc).reverse) :=
      .list fun u hu => hacc' u (List.mem_reverse.mp hu)
    split at h
    · cases h
      exact hlist
    · split at h
      · cases h
        exact hlist
      · exact ih.items hacc' h
      · cases h
    · cases h

theorem inline_succ (ih : ReadsTidy fuel) {t : Entries} {marks : List Mark}
    (ht : Tidy (.table t)) (h : inline? t marks (fuel + 1) cs = some (v, rest)) : Tidy v := by
  unfold inline? at h
  split at h
  · cases h
  · split at h
    · cases h
    · next w cs' hw =>
      split at h
      · cases h
      · split at h
        · cases h
        · next t' ht' =>
          have htidy : Tidy (.table t') :=
            keepsTidy_change (keepsTidy_addNew (ih.value hw) _) _ _ _ _ ht ht'
          split at h
          · cases h
            exact htidy
          · exact ih.inline htidy h
          · cases h

end ReadsTidy

theorem readsTidy (fuel : Nat) : ReadsTidy fuel := by
  induction fuel with
  | zero =>
      refine ⟨fun h => ?_, fun _ h => ?_, fun _ h => ?_⟩
      · rw [value?] at h
        cases h
      · rw [items?] at h
        cases h
      · rw [inline?] at h
        cases h
  | succ fuel ih => exact ⟨ih.value_succ, ih.items_succ, ih.inline_succ⟩

/-! ### Statements -/

section

variable {d d' : Draft} {fuel : Nat} {cs rest : List Char}

theorem tidy_assign (hd : Tidy (.table d.entries)) (h : d.assign fuel cs = some (d', rest)) :
    Tidy (.table d'.entries) := by
  obtain ⟨⟨key, cs₁⟩, _, h⟩ := Option.bind_eq_some_iff.mp h
  obtain ⟨⟨v, cs₂⟩, hv, h⟩ := Option.bind_eq_some_iff.mp h
  dsimp only at h
  split at h
  · cases h
  · split at h
    · cases h
    · obtain ⟨entries, hentries, heq⟩ := Option.map_eq_some_iff.mp h
      cases heq
      exact keepsTidy_change (keepsTidy_addNew ((readsTidy fuel).value hv) _) _ _ _ _ hd hentries

theorem tidy_openTable (hd : Tidy (.table d.entries))
    (h : d.openTable fuel cs = some (d', rest)) : Tidy (.table d'.entries) := by
  obtain ⟨⟨key, cs₁⟩, _, h⟩ := Option.bind_eq_some_iff.mp h
  dsimp only at h
  split at h
  · cases h
  · obtain ⟨entries, hentries, h⟩ := Option.bind_eq_some_iff.mp h
    split at h
    · cases h
      refine keepsTidy_change (fun t t' ht heq => ?_) _ _ _ _ hd hentries
      cases heq
      exact ht
    · cases h

theorem tidy_openItem (hd : Tidy (.table d.entries))
    (h : d.openItem fuel cs = some (d', rest)) : Tidy (.table d'.entries) := by
  obtain ⟨⟨key, cs₁⟩, _, h⟩ := Option.bind_eq_some_iff.mp h
  dsimp only at h
  split at h
  · cases h
  · obtain ⟨entries, hentries, h⟩ := Option.bind_eq_some_iff.mp h
    split at h
    · cases h
      exact keepsTidy_change (keepsTidy_addTable _) _ _ _ _ hd hentries
    · cases h

theorem tidy_statement (hd : Tidy (.table d.entries))
    (h : d.statement fuel cs = some (d', rest)) : Tidy (.table d'.entries) := by
  unfold Draft.statement at h
  split at h
  · cases h
    exact hd
  · obtain ⟨_, hopen, heq⟩ := Option.map_eq_some_iff.mp h
    cases heq
    exact tidy_openItem hd hopen
  · obtain ⟨_, hopen, heq⟩ := Option.map_eq_some_iff.mp h
    cases heq
    exact tidy_openTable hd hopen
  · split at h
    · obtain ⟨_, hassign, heq⟩ := Option.map_eq_some_iff.mp h
      cases heq
      exact tidy_assign hd hassign
    · cases h
  · cases h
    exact hd

theorem tidy_readAll (hd : Tidy (.table d.entries)) (h : d.readAll fuel cs = some d') :
    Tidy (.table d'.entries) := by
  induction fuel generalizing d cs with
  | zero => cases h
  | succ fuel ih =>
      unfold Draft.readAll at h
      split at h
      · cases h
        exact hd
      · exact ih hd h
      · split at h
        · cases h
        · next d₁ cs₁ hstatement =>
          have hd₁ := tidy_statement hd hstatement
          split at h
          · cases h
            exact hd₁
          · exact ih hd₁ h
          · cases h

end

theorem tidy_read? {text : String} {document : Entries} (h : read? text = some document) :
    Tidy (.table document) := by
  obtain ⟨d, hd, rfl⟩ := Option.map_eq_some_iff.mp h
  exact tidy_readAll Tidy.empty hd

theorem tidy_readBytes? {bytes : ByteArray} {document : Entries}
    (h : readBytes? bytes = some document) : Tidy (.table document) := by
  obtain ⟨text, _, h⟩ := Option.bind_eq_some_iff.mp h
  exact tidy_read? h

theorem readBytes?_toUTF8 (text : String) : readBytes? text.toUTF8 = read? text := by
  have hdecode : Text.decodeStrict? text.toUTF8 = some text := dif_pos text.isValidUTF8
  rw [readBytes?, hdecode, Option.bind_some]

end ThrowCatch.Toml
