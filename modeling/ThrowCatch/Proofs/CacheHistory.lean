import Mathlib.Data.List.Induction
import ThrowCatch.Index

/-!
The index over time. Files are asked for, the index is cleared, and the file
system changes under it in any order. What the index holds, and how many
parses it has counted, is told by the history alone: a file is held as it was
at the first get of its key that succeeded since the last clear, and a get
that fails leaves no trace.
-/

namespace ThrowCatch.Index

/-! ### One get -/

/-- The index after a file was parsed. -/
def store (ix : Index) (k : Path) (f : ParsedFile) : Index :=
  ⟨ix.entries ++ [(k, f)], ix.parseCount + 1⟩

@[simp] theorem store_parseCount (ix : Index) (k : Path) (f : ParsedFile) :
    (ix.store k f).parseCount = ix.parseCount + 1 := rfl

@[simp] theorem store_size (ix : Index) (k : Path) (f : ParsedFile) :
    (ix.store k f).size = ix.size + 1 := by
  simp [store, size]

@[simp] theorem find?_clear (ix : Index) (k : Path) : ix.clear.find? k = none := rfl

theorem find?_store (ix : Index) (k k' : Path) (f : ParsedFile) :
    (ix.store k f).find? k' = (ix.find? k').or (if k = k' then some f else none) := by
  unfold find? store
  rw [List.find?_append, Option.map_or]
  congr 1
  by_cases hk : k = k'
  · simp [hk]
  · simp [hk]

theorem find?_store_self {ix : Index} {k : Path} (hmiss : ix.find? k = none) (f : ParsedFile) :
    (ix.store k f).find? k = some f := by
  simp [find?_store, hmiss]

theorem find?_store_of_ne {k k' : Path} (h : k ≠ k') (ix : Index) (f : ParsedFile) :
    (ix.store k f).find? k' = ix.find? k' := by
  simp [find?_store, h]

/-- All a get can do: the path has no key, the key is held, the file is parsed
and stored, or it cannot be parsed. -/
theorem get_cases (g : Grammar) (d : Disk) (s : Settings) (ix : Index) (p : Path) :
    (∃ e, key d p = .error e ∧ get g d s ix p = (.error e, ix)) ∨
    (∃ k f, key d p = .ok k ∧ ix.find? k = some f ∧ get g d s ix p = (.ok f, ix)) ∨
    (∃ k f, key d p = .ok k ∧ ix.find? k = none ∧ parseFile g d s k = .ok f ∧
      get g d s ix p = (.ok f, ix.store k f)) ∨
    (∃ k e, key d p = .ok k ∧ ix.find? k = none ∧ parseFile g d s k = .error e ∧
      get g d s ix p = (.error e, ix)) := by
  cases hkey : key d p with
  | error e =>
      have hget : get g d s ix p = (.error e, ix) := by simp [get, hkey]
      exact .inl ⟨e, rfl, hget⟩
  | ok k =>
      cases hfound : ix.find? k with
      | some f =>
          have hget : get g d s ix p = (.ok f, ix) := by simp [get, hkey, hfound]
          exact .inr (.inl ⟨k, f, rfl, hfound, hget⟩)
      | none =>
          cases hparse : parseFile g d s k with
          | ok f =>
              have hget : get g d s ix p = (.ok f, ix.store k f) := by
                simp [get, hkey, hfound, hparse, store]
              exact .inr (.inr (.inl ⟨k, f, rfl, hfound, hparse, hget⟩))
          | error e =>
              have hget : get g d s ix p = (.error e, ix) := by
                simp [get, hkey, hfound, hparse]
              exact .inr (.inr (.inr ⟨k, e, rfl, hfound, hparse, hget⟩))

/-- A get that fails leaves the index as it was. -/
theorem get_index_of_error {g : Grammar} {d : Disk} {s : Settings} {ix : Index} {p : Path}
    {e : Fault} (h : (get g d s ix p).1 = .error e) : (get g d s ix p).2 = ix := by
  obtain ⟨_, _, hget⟩ | ⟨_, _, _, _, hget⟩ | ⟨_, _, _, _, _, hget⟩ | ⟨_, _, _, _, _, hget⟩ :=
    get_cases g d s ix p
  all_goals rw [hget] at h ⊢
  · cases h

/-- A get of a key that is not held is decided by the file alone. -/
theorem get_result_of_miss {g : Grammar} {d : Disk} {s : Settings} {ix : Index} {p : Path}
    (hmiss : ∀ k, key d p = .ok k → ix.find? k = none) :
    (get g d s ix p).1 = (key d p).bind (parseFile g d s) := by
  obtain ⟨e, hkey, hget⟩ | ⟨k, f, hkey, hfound, _⟩ | ⟨k, f, hkey, _, hparse, hget⟩ |
    ⟨k, e, hkey, _, hparse, hget⟩ := get_cases g d s ix p
  · simp only [hget, hkey, Except.bind]
  · rw [hmiss k hkey] at hfound
    cases hfound
  · simp only [hget, hkey, hparse, Except.bind]
  · simp only [hget, hkey, hparse, Except.bind]

/-! ### Histories -/

/-- What can happen to an index: a file is asked for, the index is cleared, or
the file system becomes another one. -/
inductive Event
  | get (p : Path)
  | clear
  | change (d : Disk)

/-- A file system and the index over it. -/
structure World where
  disk : Disk
  index : Index

/-- A fresh index over a file system. -/
def World.fresh (d : Disk) : World := ⟨d, .empty⟩

section

variable (g : Grammar) (s : Settings)

def step (w : World) : Event → World
  | .get p => { w with index := (Index.get g w.disk s w.index p).2 }
  | .clear => { w with index := w.index.clear }
  | .change d => { w with disk := d }

def run (w : World) (history : List Event) : World := history.foldl (step g s) w

@[simp] theorem run_nil (w : World) : run g s w [] = w := rfl

theorem run_append (w : World) (before after : List Event) :
    run g s w (before ++ after) = run g s (run g s w before) after :=
  List.foldl_append

theorem run_concat (w : World) (history : List Event) (e : Event) :
    run g s w (history ++ [e]) = step g s (run g s w history) e :=
  run_append g s w history [e]

/-- The answer to a get at the end of a history. -/
def answer (w : World) (before : List Event) (p : Path) : Except Fault ParsedFile :=
  (Index.get g (run g s w before).disk s (run g s w before).index p).1

/-- The key of a path at the end of a history. -/
def keyAfter (w : World) (before : List Event) (p : Path) : Except Fault Path :=
  key (run g s w before).disk p

/-- Some get since the last clear is as told, given what went before it. -/
def SinceClear (told : List Event → Path → Prop) (history : List Event) : Prop :=
  ∃ before p after, history = before ++ .get p :: after ∧ Event.clear ∉ after ∧ told before p

/-- Some get of a key succeeded since the last clear. -/
def Succeeded (w : World) (history : List Event) (k : Path) : Prop :=
  SinceClear (fun before p => keyAfter g s w before p = .ok k ∧
    ∃ f, answer g s w before p = .ok f) history

/-- The first get of a key that succeeded since the last clear was made of a
file that parsed to `f` at that time. -/
def FirstParsed (w : World) (history : List Event) (k : Path) (f : ParsedFile) : Prop :=
  SinceClear (fun before p => keyAfter g s w before p = .ok k ∧
    (∃ f', answer g s w before p = .ok f') ∧ ¬ Succeeded g s w before k ∧
    parseFile g (run g s w before).disk s k = .ok f) history

/-- Whether an event is a get that misses and then parses its file. -/
def parsesOn (w : World) : Event → Bool
  | .get p =>
    match key w.disk p with
    | .ok k => (w.index.find? k).isNone && (Index.get g w.disk s w.index p).1.toBool
    | .error _ => false
  | _ => false

/-- How many gets of a history missed and then parsed their files. -/
def parses (w : World) : List Event → Nat
  | [] => 0
  | e :: rest => (if parsesOn g s w e then 1 else 0) + parses (step g s w e) rest

/-! ### What is held -/

/-- A history ends with one more event: what was told since the last clear was
told before it, unless it clears, or it is told of the event itself. -/
theorem sinceClear_concat (told : List Event → Path → Prop) (history : List Event) (e : Event) :
    SinceClear told (history ++ [e]) ↔
      (e ≠ .clear ∧ SinceClear told history) ∨ ∃ p, e = .get p ∧ told history p := by
  constructor
  · rintro ⟨before, p, after, hsplit, hclear, htold⟩
    rcases List.eq_nil_or_concat after with rfl | ⟨after, last, rfl⟩
    · obtain ⟨rfl, he⟩ := List.append_inj' hsplit rfl
      exact .inr ⟨p, List.singleton_inj.mp he, htold⟩
    · have hsplit : history ++ [e] = (before ++ .get p :: after) ++ [last] := by
        rw [hsplit, List.concat_eq_append]
        simp
      obtain ⟨rfl, he⟩ := List.append_inj' hsplit rfl
      cases List.singleton_inj.mp he
      simp only [List.concat_eq_append, List.mem_append, List.mem_singleton, not_or] at hclear
      exact .inl ⟨Ne.symm hclear.2, before, p, after, rfl, hclear.1, htold⟩
  · rintro (⟨he, before, p, after, rfl, hclear, htold⟩ | ⟨p, rfl, htold⟩)
    · refine ⟨before, p, after ++ [e], by simp, ?_, htold⟩
      simpa [hclear] using Ne.symm he
    · exact ⟨history, p, [], rfl, by simp, htold⟩

theorem not_sinceClear_nil (told : List Event → Path → Prop) : ¬ SinceClear told [] := by
  rintro ⟨before, p, after, hsplit, _⟩
  simp at hsplit

theorem succeeded_get (w : World) (history : List Event) (p k : Path) :
    Succeeded g s w (history ++ [.get p]) k ↔
      Succeeded g s w history k ∨
        (keyAfter g s w history p = .ok k ∧ ∃ f, answer g s w history p = .ok f) := by
  simp [Succeeded, sinceClear_concat]

theorem firstParsed_get (w : World) (history : List Event) (p k : Path) (f : ParsedFile) :
    FirstParsed g s w (history ++ [.get p]) k f ↔
      FirstParsed g s w history k f ∨
        (keyAfter g s w history p = .ok k ∧ (∃ f', answer g s w history p = .ok f') ∧
          ¬ Succeeded g s w history k ∧ parseFile g (run g s w history).disk s k = .ok f) := by
  simp [FirstParsed, sinceClear_concat]

/-- The index holds under a key what the history tells. -/
def Tells (w : World) (history : List Event) (k : Path) : Prop :=
  (∀ f, (run g s w history).index.find? k = some f ↔ FirstParsed g s w history k f) ∧
    (((run g s w history).index.find? k).isSome ↔ Succeeded g s w history k)

theorem tells_get {w : World} {history : List Event} {k : Path}
    (h : Tells g s w history k) (p : Path) : Tells g s w (history ++ [.get p]) k := by
  obtain ⟨hfirst, hsome⟩ := h
  have hstep : run g s w (history ++ [.get p]) = step g s (run g s w history) (.get p) :=
    run_concat g s w history (.get p)
  have hkeyAfter : keyAfter g s w history p = key (run g s w history).disk p := rfl
  have hanswer : answer g s w history p =
    (Index.get g (run g s w history).disk s (run g s w history).index p).1 := rfl
  unfold Tells
  simp only [succeeded_get, firstParsed_get, hstep, step, hkeyAfter, hanswer]
  obtain ⟨e, hkey, hget⟩ | ⟨k', f, hkey, hfound, hget⟩ | ⟨k', f, hkey, hmiss, hparse, hget⟩ |
    ⟨k', e, hkey, hmiss, hparse, hget⟩ := get_cases g (run g s w history).disk s
      (run g s w history).index p
  · simp [hget, hkey, hfirst, hsome]
  -- a hit: the key was held, so a get of it had succeeded before
  · by_cases hk : k' = k
    · subst hk
      have hdone : Succeeded g s w history k' := hsome.mp (by simp [hfound])
      simp [hget, hfirst, hsome, hdone]
    · simp [hget, hkey, hfirst, hsome, hk]
  -- a miss that parses: this get is the first of its key to succeed
  · by_cases hk : k' = k
    · subst hk
      have hnever : ¬ Succeeded g s w history k' := by simp [← hsome, hmiss]
      have hnone : ∀ f, ¬ FirstParsed g s w history k' f := by
        intro f
        simp [← hfirst, hmiss]
      simp [hget, hkey, hparse, hnever, hnone, find?_store_self hmiss]
    · simp [hget, hkey, hfirst, hsome, hk, find?_store_of_ne hk]
  · simp [hget, hkey, hfirst, hsome]

/-- What is held under a key is what its file parsed to at the first get that
succeeded since the last clear, and something is held exactly when a get
succeeded. -/
theorem tells_run {w : World} {k : Path} (hfresh : w.index.find? k = none)
    (history : List Event) : Tells g s w history k := by
  -- from the end, since only the last event decides what changes
  induction history using List.reverseRecOn with
  | nil =>
      unfold Tells FirstParsed Succeeded
      simp [hfresh, not_sinceClear_nil]
  | append_singleton history e ih =>
      cases e with
      | get p => exact tells_get g s ih p
      | clear =>
          unfold Tells FirstParsed Succeeded
          simp [run_concat, step, sinceClear_concat]
      | change d =>
          unfold Tells FirstParsed Succeeded at ih ⊢
          simpa [run_concat, step, sinceClear_concat] using ih

/-! ### How many parses are counted -/

theorem step_parseCount (w : World) (e : Event) :
    (step g s w e).index.parseCount =
      w.index.parseCount + if parsesOn g s w e then 1 else 0 := by
  cases e with
  | clear => rfl
  | change d => rfl
  | get p =>
      simp only [step, parsesOn]
      obtain ⟨e, hkey, hget⟩ | ⟨k, f, hkey, hfound, hget⟩ | ⟨k, f, hkey, hmiss, hparse, hget⟩ |
        ⟨k, e, hkey, hmiss, hparse, hget⟩ := get_cases g w.disk s w.index p
      · simp [hget, hkey]
      · simp [hget, hkey, hfound]
      · simp [hget, hkey, hmiss, Except.toBool]
      · simp [hget, hkey, Except.toBool]

theorem run_parseCount (w : World) (history : List Event) :
    (run g s w history).index.parseCount = w.index.parseCount + parses g s w history := by
  induction history generalizing w with
  | nil => rfl
  | cons e rest ih =>
      change (run g s (step g s w e) rest).index.parseCount = _
      rw [ih, step_parseCount, parses, Nat.add_assoc]

theorem run_parseCount_mono (w : World) (before after : List Event) :
    (run g s w before).index.parseCount ≤ (run g s w (before ++ after)).index.parseCount := by
  rw [run_append, run_parseCount g s (run g s w before) after]
  exact Nat.le_add_right _ _

/-- Between two clears the size grows with the count of parses. -/
theorem step_size (w : World) {e : Event} (he : e ≠ .clear) :
    (step g s w e).index.size + w.index.parseCount =
      w.index.size + (step g s w e).index.parseCount := by
  cases e with
  | clear => exact absurd rfl he
  | change d => rfl
  | get p =>
      simp only [step]
      obtain ⟨_, _, hget⟩ | ⟨_, _, _, _, hget⟩ | ⟨_, _, _, _, _, hget⟩ | ⟨_, _, _, _, _, hget⟩ :=
        get_cases g w.disk s w.index p
      all_goals rw [hget]
      · simp only [store_size, store_parseCount]
        omega

theorem step_size_le {w : World} (h : w.index.size ≤ w.index.parseCount) (e : Event) :
    (step g s w e).index.size ≤ (step g s w e).index.parseCount := by
  by_cases he : e = .clear
  · subst he
    exact Nat.zero_le _
  · have hsize := step_size g s w he
    omega

theorem run_size_le {w : World} (h : w.index.size ≤ w.index.parseCount)
    (history : List Event) :
    (run g s w history).index.size ≤ (run g s w history).index.parseCount := by
  induction history generalizing w with
  | nil => exact h
  | cons e rest ih => exact ih (step_size_le g s h e)

theorem run_size_of_no_clear (w : World) {history : List Event} (h : Event.clear ∉ history) :
    (run g s w history).index.size + w.index.parseCount =
      w.index.size + (run g s w history).index.parseCount := by
  induction history generalizing w with
  | nil => rfl
  | cons e rest ih =>
      obtain ⟨he, hrest⟩ := List.ne_and_not_mem_of_not_mem_cons h
      have hfirst := step_size g s w (Ne.symm he)
      have hothers := ih (step g s w e) hrest
      change (run g s (step g s w e) rest).index.size + _ =
        _ + (run g s (step g s w e) rest).index.parseCount
      omega

/-! ### The history tells all -/

theorem key_eq_ok_iff {d : Disk} {p k : Path} : key d p = .ok k ↔ d.resolve p = .ok k := by
  unfold key
  split <;> simp_all

theorem holds_iff {d : Disk} {ix : Index} {p : Path} :
    holds d ix p = .ok true ↔ ∃ k, d.resolve p = .ok k ∧ (ix.find? k).isSome := by
  unfold holds
  split <;> simp_all

/-- A get fails only of a key that no get has succeeded for. -/
theorem not_succeeded_of_error {w : World} (hfresh : ∀ k, w.index.find? k = none)
    {history : List Event} {p k : Path} {e : Fault}
    (herror : answer g s w history p = .error e)
    (hkey : key (run g s w history).disk p = .ok k) : ¬ Succeeded g s w history k := by
  rw [← (tells_run g s (hfresh k) history).2]
  unfold answer at herror
  obtain ⟨e', hno, _⟩ | ⟨k', f, _, _, hget⟩ | ⟨k', f, _, _, _, hget⟩ | ⟨k', e', hk, hmiss, _, _⟩ :=
    get_cases g (run g s w history).disk s (run g s w history).index p
  · rw [hkey] at hno
    cases hno
  · rw [hget] at herror
    cases herror
  · rw [hget] at herror
    cases herror
  · rw [hkey] at hk
    cases hk
    simp [hmiss]

/-- What an index holds and counts, told by its history. A file is held as it
parsed at the first get of its key that succeeded since the last clear. The
count is the number of gets that missed and parsed; it never falls, and only
a clear sets it apart from the size. A get that fails changes nothing, so as
long as no get of the key succeeds the file decides anew. -/
theorem index_follows_history (d : Disk) (history : List Event) :
    let w := run g s (.fresh d) history
    (∀ k f, w.index.find? k = some f ↔ FirstParsed g s (.fresh d) history k f) ∧
    (∀ p, holds w.disk w.index p = .ok true ↔
      ∃ k, w.disk.resolve p = .ok k ∧ Succeeded g s (.fresh d) history k) ∧
    (w.index.parseCount = parses g s (.fresh d) history ∧
      (∀ before after, history = before ++ after →
        (run g s (.fresh d) before).index.parseCount ≤ w.index.parseCount) ∧
      w.index.size ≤ w.index.parseCount ∧
      (Event.clear ∉ history → w.index.parseCount = w.index.size)) ∧
    (∀ p e, answer g s (.fresh d) history p = .error e →
      (Index.get g w.disk s w.index p).2 = w.index ∧
      (∀ k, w.disk.resolve p = .ok k → ¬ Succeeded g s (.fresh d) history k) ∧
      ∀ later, let w' := run g s (.fresh d) (history ++ .get p :: later)
        (∀ k, w'.disk.resolve p = .ok k →
          ¬ Succeeded g s (.fresh d) (history ++ .get p :: later) k) →
        answer g s (.fresh d) (history ++ .get p :: later) p =
          (key w'.disk p).bind (parseFile g w'.disk s)) := by
  have hfresh : ∀ k, (World.fresh d).index.find? k = none := fun _ => rfl
  refine ⟨?_, ?_, ⟨?_, ?_, ?_, ?_⟩, ?_⟩
  · intro k
    exact (tells_run g s (hfresh k) history).1
  · intro p
    rw [holds_iff]
    refine exists_congr fun k => and_congr_right fun _ => ?_
    exact (tells_run g s (hfresh k) history).2
  · exact (run_parseCount g s _ history).trans (Nat.zero_add _)
  · rintro before after rfl
    exact run_parseCount_mono g s _ before after
  · exact run_size_le g s (Nat.le_refl _) history
  · intro hclear
    have hsize := run_size_of_no_clear g s (.fresh d) hclear
    change _ + 0 = 0 + _ at hsize
    omega
  · intro p e herror
    refine ⟨get_index_of_error herror, ?_, ?_⟩
    · intro k hk
      exact not_succeeded_of_error g s hfresh herror (key_eq_ok_iff.mpr hk)
    · intro later w' hnever
      apply get_result_of_miss
      intro k hk
      have hsome := (tells_run g s (hfresh k) (history ++ .get p :: later)).2
      rw [← Option.not_isSome_iff_eq_none, hsome]
      exact hnever k (key_eq_ok_iff.mp hk)

end

end ThrowCatch.Index
