import ThrowCatch.Value

/-!
Named values. Setting an entry changes what is found under its own key and
nothing else, and a key that is set again keeps its place; so of two tables
set one over the other the second is asked first, while their keys stand in
the order of the first mention.
-/

namespace ThrowCatch.Value

variable {entries : List (String × Value)} {key : String}

theorem field?_nil (key : String) : field? [] key = none := rfl

theorem field?_cons (k : String) (v : Value) (rest : List (String × Value)) (key : String) :
    field? ((k, v) :: rest) key = if k = key then some v else field? rest key := by
  unfold field?
  by_cases hk : k = key
  · rw [List.find?_cons_of_pos (by simpa using hk), if_pos hk]
    rfl
  · rw [List.find?_cons_of_neg (by simpa using hk), if_neg hk]

theorem field?_eq_none : field? entries key = none ↔ key ∉ entries.map (·.1) := by
  induction entries with
  | nil => exact iff_of_true rfl (by simp)
  | cons entry rest ih =>
      obtain ⟨k, v⟩ := entry
      rw [field?_cons]
      by_cases hk : k = key
      · simp [hk]
      · rw [if_neg hk, ih, List.map_cons, List.mem_cons, or_iff_right (Ne.symm hk)]

theorem isSome_field? : (field? entries key).isSome = true ↔ key ∈ entries.map (·.1) := by
  rw [← Option.ne_none_iff_isSome, ne_eq, field?_eq_none, Decidable.not_not]

theorem mem_of_field? {v : Value} (h : field? entries key = some v) : (key, v) ∈ entries := by
  obtain ⟨⟨k, w⟩, hfind, rfl⟩ := Option.map_eq_some_iff.mp h
  have hk : k = key := by simpa using List.find?_some hfind
  exact hk ▸ List.mem_of_find?_eq_some hfind

theorem field?_of_mem (h : (entries.map (·.1)).Nodup) {entry : String × Value}
    (hmem : entry ∈ entries) : field? entries entry.1 = some entry.2 := by
  induction entries with
  | nil => cases hmem
  | cons first rest ih =>
      obtain ⟨hfirst, hrest⟩ := List.nodup_cons.mp h
      rw [show first = (first.1, first.2) from rfl, field?_cons]
      rcases List.mem_cons.mp hmem with rfl | hmem
      · rw [if_pos rfl]
      · have hne : first.1 ≠ entry.1 := fun heq => hfirst (List.mem_map.mpr ⟨entry, hmem, heq.symm⟩)
        rw [if_neg hne]
        exact ih hrest hmem

theorem field?_filter_key (entries : List (String × Value)) (key other : String) :
    field? (entries.filter fun entry => entry.1 != key) other =
      if other = key then none else field? entries other := by
  split
  · next heq =>
    subst heq
    refine field?_eq_none.mpr fun hmem => ?_
    obtain ⟨entry, hentry, rfl⟩ := List.mem_map.mp hmem
    simpa using (List.mem_filter.mp hentry).2
  · next hne =>
    unfold field?
    rw [List.find?_filter, ← List.head?_filter, ← List.head?_filter]
    congr 2
    refine List.filter_congr fun entry _ => ?_
    by_cases hentry : entry.1 = other
    · simp [hentry, hne]
    · simp [hentry]

/-- Where each key stands once, dropping values drops what is found. -/
theorem field?_filter_value (h : (entries.map (·.1)).Nodup) (p : Value → Bool) (key : String) :
    field? (entries.filter fun entry => p entry.2) key = (field? entries key).filter p := by
  induction entries with
  | nil => rfl
  | cons entry rest ih =>
      obtain ⟨k, v⟩ := entry
      obtain ⟨hk, hrest⟩ := List.nodup_cons.mp h
      rw [List.filter_cons, field?_cons]
      by_cases hkey : k = key
      · subst hkey
        have hnone : field? (rest.filter fun entry => p entry.2) k = none := by
          rw [ih hrest, field?_eq_none.mpr hk]
          rfl
        rw [if_pos rfl, Option.filter_some]
        split
        · rw [field?_cons, if_pos rfl]
        · exact hnone
      · rw [if_neg hkey, ← ih hrest]
        split
        · rw [field?_cons, if_neg hkey]
        · rfl

/-- The keys of a list that have a value, with it. -/
def tabulate (value? : String → Option Value) (names : List String) : List (String × Value) :=
  names.filterMap fun key => (value? key).map fun v => (key, v)

theorem keys_tabulate (value? : String → Option Value) (names : List String) :
    (tabulate value? names).map (·.1) = names.filter fun key => (value? key).isSome := by
  induction names with
  | nil => rfl
  | cons name names ih =>
      rw [tabulate, List.filterMap_cons, List.filter_cons]
      cases value? name with
      | none => exact ih
      | some v => exact congrArg (name :: ·) ih

theorem field?_tabulate (value? : String → Option Value) (names : List String) (key : String) :
    field? (tabulate value? names) key = if key ∈ names then value? key else none := by
  induction names with
  | nil => rfl
  | cons name names ih =>
      rw [tabulate, List.filterMap_cons]
      by_cases hname : name = key
      · subst hname
        rw [if_pos List.mem_cons_self]
        cases hvalue : value? name with
        | some v => exact (field?_cons ..).trans (if_pos rfl)
        | none =>
            have hrest : field? (tabulate value? names) name = none := by
              rw [ih, hvalue, ite_self]
            exact hrest
      · have hiff : key ∈ name :: names ↔ key ∈ names := by
          rw [List.mem_cons, or_iff_right (Ne.symm hname)]
        simp only [hiff, ← ih]
        cases value? name with
        | none => rfl
        | some v => exact (field?_cons ..).trans (if_neg hname)

/-! ### Setting one entry -/

theorem field?_put (entries : List (String × Value)) (key : String) (v : Value)
    (other : String) :
    field? (put entries key v) other = if other = key then some v else field? entries other := by
  induction entries with
  | nil => simp only [put, field?_cons, eq_comm]
  | cons entry rest ih =>
      obtain ⟨k, w⟩ := entry
      rw [put]
      by_cases hk : k = key
      · subst hk
        simp only [beq_self_eq_true, if_true, field?_cons, eq_comm]
        split <;> rfl
      · rw [if_neg (by simpa using hk), field?_cons, field?_cons, ih]
        by_cases hother : k = other
        · subst hother
          rw [if_pos rfl, if_pos rfl, if_neg hk]
        · rw [if_neg hother, if_neg hother]

/-- A key that is there already keeps its place. -/
theorem keys_put (entries : List (String × Value)) (key : String) (v : Value) :
    (put entries key v).map (·.1) =
      entries.map (·.1) ++ if key ∈ entries.map (·.1) then [] else [key] := by
  induction entries with
  | nil => rfl
  | cons entry rest ih =>
      obtain ⟨k, w⟩ := entry
      rw [put]
      by_cases hk : k = key
      · subst hk
        simp
      · have hiff : key ∈ k :: rest.map (·.1) ↔ key ∈ rest.map (·.1) := by
          rw [List.mem_cons, or_iff_right (Ne.symm hk)]
        rw [if_neg (by simpa using hk), List.map_cons, ih, List.map_cons, List.cons_append]
        simp only [hiff]

theorem nodup_keys_put (h : (entries.map (·.1)).Nodup) (key : String) (v : Value) :
    ((put entries key v).map (·.1)).Nodup := by
  rw [keys_put]
  split
  · rwa [List.append_nil]
  · next hnot =>
    refine List.nodup_append.mpr ⟨h, by simp, ?_⟩
    rintro k hk _ hkey rfl
    exact hnot (List.mem_singleton.mp hkey ▸ hk)

theorem mem_put {entry : String × Value} {v : Value} (h : entry ∈ put entries key v) :
    entry = (key, v) ∨ entry ∈ entries := by
  induction entries with
  | nil => exact .inl (List.mem_singleton.mp h)
  | cons first rest ih =>
      obtain ⟨k, w⟩ := first
      rw [put] at h
      split at h
      · next hk =>
        rcases List.mem_cons.mp h with rfl | hrest
        · exact .inl (by rw [beq_iff_eq.mp hk])
        · exact .inr (List.mem_cons_of_mem _ hrest)
      · rcases List.mem_cons.mp h with rfl | hrest
        · exact .inr List.mem_cons_self
        · exact (ih hrest).imp_right (List.mem_cons_of_mem _)

/-- A search that passes an entry by does not see it set. -/
theorem find?_put {p : String × Value → Bool} (hp : ∀ v, p (key, v) = false) (v : Value) :
    (put entries key v).find? p = entries.find? p := by
  induction entries with
  | nil => rw [put, List.find?_cons_of_neg (by simp [hp])]
  | cons entry rest ih =>
      obtain ⟨k, w⟩ := entry
      rw [put]
      split
      · next hk =>
        obtain rfl := beq_iff_eq.mp hk
        rw [List.find?_cons_of_neg (by simp [hp]), List.find?_cons_of_neg (by simp [hp])]
      · rw [List.find?_cons, List.find?_cons, ih]

/-! ### Setting one table over another -/

theorem field?_merge (base : List (String × Value)) {top : List (String × Value)}
    (htop : (top.map (·.1)).Nodup) (key : String) :
    field? (merge base top) key = (field? top key).or (field? base key) := by
  induction top generalizing base with
  | nil => rfl
  | cons entry rest ih =>
      obtain ⟨k, v⟩ := entry
      obtain ⟨hk, hrest⟩ := List.nodup_cons.mp htop
      show field? (merge (put base k v) rest) key = _
      rw [ih _ hrest, field?_put, field?_cons]
      by_cases hkey : k = key
      · subst hkey
        rw [field?_eq_none.mpr hk, if_pos rfl, if_pos rfl]
        rfl
      · rw [if_neg hkey, if_neg (Ne.symm hkey)]

/-- The first key of a kind is sought below before it is sought above. -/
theorem find?_keys_merge (base top : List (String × Value)) (p : String → Bool) :
    ((merge base top).map (·.1)).find? p =
      ((base.map (·.1)).find? p).or ((top.map (·.1)).find? p) := by
  induction top generalizing base with
  | nil => simp [merge]
  | cons entry rest ih =>
      obtain ⟨k, v⟩ := entry
      show ((merge (put base k v) rest).map (·.1)).find? p = _
      have hput : ((put base k v).map (·.1)).find? p =
          ((base.map (·.1)).find? p).or ([k].find? p) := by
        rw [keys_put, List.find?_append]
        split
        · next hmem =>
          cases hfind : (base.map (·.1)).find? p with
          | some found => rfl
          | none =>
              have hk : ¬ p k = true := List.find?_eq_none.mp hfind k hmem
              rw [List.find?_cons_of_neg hk]
        · rfl
      rw [ih, hput, Option.or_assoc, List.map_cons, List.find?_cons]
      cases hk : p k <;> simp [hk]

end ThrowCatch.Value
