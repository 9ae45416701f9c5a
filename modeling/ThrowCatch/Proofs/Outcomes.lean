import ThrowCatch.Fault

/-!
Computations that may end in a fault. One that goes on from another gives a
result through a result of the first, and its faults are those of the two.
-/

namespace ThrowCatch

theorem bind_eq_ok {ε α β : Type} {value : Except ε α} {next : α → Except ε β} {result : β}
    (h : value >>= next = .ok result) : ∃ a, value = .ok a ∧ next a = .ok result := by
  cases value with
  | error e => cases h
  | ok a => exact ⟨a, rfl, h⟩

theorem map_eq_ok {ε α β : Type} {value : Except ε α} {f : α → β} {result : β}
    (h : value.map f = .ok result) : ∃ a, value = .ok a ∧ f a = result := by
  cases value with
  | error e => cases h
  | ok a => exact ⟨a, rfl, Except.ok.inj h⟩

/-- A computation for each item gives all results when each gives one. -/
theorem exists_mapM_ok {ε α β : Type} {f : α → Except ε β} {items : List α}
    (h : ∀ a ∈ items, ∃ b, f a = .ok b) : ∃ results, items.mapM f = .ok results := by
  induction items with
  | nil => exact ⟨[], rfl⟩
  | cons a items ih =>
      obtain ⟨b, hb⟩ := h a List.mem_cons_self
      obtain ⟨results, hrest⟩ := ih fun x hx => h x (List.mem_cons_of_mem a hx)
      refine ⟨b :: results, ?_⟩
      rw [List.mapM_cons, hb, hrest]
      rfl

theorem mapM_congr {ε α β : Type} {f f' : α → Except ε β} {l : List α}
    (h : ∀ x ∈ l, f x = f' x) : l.mapM f = l.mapM f' := by
  induction l with
  | nil => rfl
  | cons x l ih =>
      rw [List.mapM_cons, List.mapM_cons, h x List.mem_cons_self,
        ih fun y hy => h y (List.mem_cons_of_mem _ hy)]

/-- A list of answers without a fault is the list of its results. -/
theorem map_ok_of_mapM {ε α β : Type} {f : α → Except ε β} {l : List α} {r : List β}
    (h : l.mapM f = .ok r) : r.map Except.ok = l.map f := by
  induction l generalizing r with
  | nil =>
      cases h
      rfl
  | cons x l ih =>
      rw [List.mapM_cons] at h
      cases hx : f x with
      | error fault =>
          rw [hx] at h
          cases h
      | ok y =>
          rw [hx] at h
          cases hl : l.mapM f with
          | error fault =>
              rw [hl] at h
              cases h
          | ok ys =>
              rw [hl] at h
              cases h
              rw [List.map_cons, List.map_cons, hx, ih hl]

/-- A loop that adds to what it has found, one result for an item or none. -/
theorem foldlM_eq_filterMap {ε α β : Type} {step : List β → α → Except ε (List β)}
    {result? : α → Option β} {items : List α}
    (h : ∀ found, ∀ a ∈ items, step found a = .ok (found ++ (result? a).toList))
    (start : List β) : items.foldlM step start = .ok (start ++ items.filterMap result?) := by
  induction items generalizing start with
  | nil => exact congrArg Except.ok (List.append_nil start).symm
  | cons a rest ih =>
      have hrest := ih fun found b hb => h found b (List.mem_cons_of_mem a hb)
      rw [List.foldlM_cons, h start a List.mem_cons_self]
      refine (hrest _).trans ?_
      rw [List.filterMap_cons, List.append_assoc]
      cases result? a <;> rfl

section

variable {ε α β γ : Type} {f : α → Except ε (Option β)} {items : List α}

/-- What a loop has found that may pass over items. -/
theorem mem_filterMapM {results : List β} (h : items.filterMapM f = .ok results) {b : β} :
    b ∈ results ↔ ∃ a ∈ items, f a = .ok (some b) := by
  induction items generalizing results with
  | nil =>
      cases h
      simp
  | cons a items ih =>
      rw [List.filterMapM_cons] at h
      obtain ⟨found, ha, h⟩ := bind_eq_ok h
      cases found with
      | none => simp [ih h, ha]
      | some first =>
          obtain ⟨rest, hrest, h⟩ := bind_eq_ok h
          cases h
          simp [ih hrest, ha, eq_comm]

/-- A search by a test that never fails. -/
theorem anyM_eq_any {p : α → Except ε Bool} {q : α → Bool} (h : ∀ a ∈ items, p a = .ok (q a)) :
    items.anyM p = .ok (items.any q) := by
  induction items with
  | nil => rfl
  | cons a items ih =>
      have hrest := ih fun x hx => h x (List.mem_cons_of_mem a hx)
      rw [List.anyM, h a List.mem_cons_self, hrest, List.any_cons]
      cases q a <;> rfl

end

/-- A computation that ends in a fault ends in one of a kind. -/
def FailsOnly {α : Type} (kind : Fault → Prop) (value : Except Fault α) : Prop :=
  ∀ fault, value = .error fault → kind fault

namespace FailsOnly

variable {α β : Type} {kind other : Fault → Prop} {value : Except Fault α}

theorem of_ok (a : α) : FailsOnly kind (.ok a) := by
  intro fault h
  cases h

theorem of_error {fault : Fault} (h : kind fault) :
    FailsOnly kind (.error fault : Except Fault α) := by
  intro fault' heq
  cases heq
  exact h

theorem mono (h : FailsOnly kind value) (hkind : ∀ fault, kind fault → other fault) :
    FailsOnly other value :=
  fun fault heq => hkind fault (h fault heq)

theorem bind {next : α → Except Fault β} (h : FailsOnly kind value)
    (hnext : ∀ a, value = .ok a → FailsOnly kind (next a)) : FailsOnly kind (value >>= next) := by
  cases value with
  | error fault => exact of_error (h fault rfl)
  | ok a => exact hnext a rfl

theorem map (h : FailsOnly kind value) (f : α → β) : FailsOnly kind (value.map f) := by
  cases value with
  | error fault => exact of_error (h fault rfl)
  | ok a => exact of_ok (f a)

theorem mapError {f : Fault → Fault} (h : FailsOnly kind value)
    (hkind : ∀ fault, kind fault → other (f fault)) : FailsOnly other (value.mapError f) := by
  cases value with
  | error fault => exact of_error (hkind fault (h fault rfl))
  | ok a => exact of_ok a

/-- Where there is no fault of the kind, there is a result. -/
theorem exists_ok (h : FailsOnly kind value) (hnone : ∀ fault, ¬ kind fault) :
    ∃ a, value = .ok a := by
  cases value with
  | error fault => exact absurd (h fault rfl) (hnone fault)
  | ok a => exact ⟨a, rfl⟩

theorem anyM {p : α → Except Fault Bool} {items : List α}
    (hp : ∀ a ∈ items, FailsOnly kind (p a)) : FailsOnly kind (items.anyM p) := by
  induction items with
  | nil => exact of_ok false
  | cons a rest ih =>
      refine (hp a List.mem_cons_self).bind fun found _ => ?_
      cases found with
      | true => exact of_ok true
      | false => exact ih fun x hx => hp x (List.mem_cons_of_mem a hx)

theorem filterMapM {f : α → Except Fault (Option β)} {items : List α}
    (hf : ∀ a ∈ items, FailsOnly kind (f a)) : FailsOnly kind (items.filterMapM f) := by
  induction items with
  | nil => exact of_ok []
  | cons a rest ih =>
      have hrest := ih fun x hx => hf x (List.mem_cons_of_mem a hx)
      rw [List.filterMapM_cons]
      refine (hf a List.mem_cons_self).bind fun found _ => ?_
      cases found with
      | none => exact hrest
      | some first => exact hrest.bind fun results _ => of_ok (first :: results)

theorem foldlM {step : β → α → Except Fault β} (items : List α) (start : β)
    (hstep : ∀ state, ∀ a ∈ items, FailsOnly kind (step state a)) :
    FailsOnly kind (items.foldlM step start) := by
  induction items generalizing start with
  | nil => exact of_ok start
  | cons a rest ih =>
      rw [List.foldlM_cons]
      refine (hstep start a List.mem_cons_self).bind fun state _ => ?_
      exact ih state fun state b hb => hstep state b (List.mem_cons_of_mem a hb)

end FailsOnly

end ThrowCatch
