import Mathlib.Data.List.Basic
import Mathlib.Data.List.Induction
import ThrowCatch.Sites.Collected

/-!
Lists without repetitions. The collector and the flows build such lists by
adding each name that was not seen before; the result is the library's list
of first appearances.
-/

namespace ThrowCatch.Sites

/-- Going on from names already seen adds the first appearances of the others. -/
theorem foldl_distinct (names seen : List String) :
    names.foldl (fun seen n => if seen.contains n then seen else seen ++ [n]) seen =
      seen ++ (names.filter fun n => !seen.contains n).eraseDups := by
  induction names generalizing seen with
  | nil => simp
  | cons n names ih =>
      rw [List.foldl_cons]
      by_cases hn : seen.contains n
      · rw [if_pos hn, ih, List.filter_cons_of_neg (by simpa using hn)]
      · have hrest : (names.filter fun m => !(seen ++ [n]).contains m) =
            (names.filter fun m => !seen.contains m).filter fun m => !(m == n) := by
          rw [List.filter_filter]
          apply List.filter_congr
          intro m _
          by_cases hm : m = n <;> simp [hm]
        rw [if_neg hn, ih, hrest, List.filter_cons_of_pos (by simpa using hn),
          List.eraseDups_cons, List.append_assoc, List.singleton_append]

theorem distinct_eq_eraseDups (names : List String) : distinct names = names.eraseDups := by
  rw [distinct, foldl_distinct, List.nil_append, List.filter_eq_self.mpr (by simp)]

@[simp] theorem mem_distinct {names : List String} {n : String} :
    n ∈ distinct names ↔ n ∈ names := by
  rw [distinct_eq_eraseDups, List.mem_eraseDups]

theorem distinct_append (names more : List String) :
    distinct (names ++ more) = distinct names ++ distinct (more.removeAll names) := by
  simp only [distinct_eq_eraseDups, List.eraseDups_append]

theorem distinct_concat (names : List String) (n : String) :
    distinct (names ++ [n]) = if n ∈ names then distinct names else distinct names ++ [n] := by
  have hstep : distinct (names ++ [n]) =
      if (distinct names).contains n then distinct names else distinct names ++ [n] :=
    List.foldl_concat ..
  rw [hstep]
  simp

/-- The names stand in the order in which they first appear. -/
theorem distinct_pairwise_idxOf (names : List String) :
    (distinct names).Pairwise fun m n => names.idxOf m < names.idxOf n := by
  induction names using List.reverseRecOn with
  | nil => simp [distinct]
  | append_singleton names n ih =>
      have hbefore : ∀ m ∈ names, (names ++ [n]).idxOf m = names.idxOf m :=
        fun m hm => List.idxOf_append_of_mem hm
      have hold : (distinct names).Pairwise fun m m' =>
          (names ++ [n]).idxOf m < (names ++ [n]).idxOf m' := by
        refine ih.imp_of_mem fun {m m'} hm hm' hlt => ?_
        rwa [hbefore m (mem_distinct.mp hm), hbefore m' (mem_distinct.mp hm')]
      rw [distinct_concat]
      split
      case isTrue => exact hold
      case isFalse hnew =>
        refine List.pairwise_append.mpr ⟨hold, List.pairwise_singleton _ _, fun m hm n' hn' => ?_⟩
        obtain rfl := List.mem_singleton.mp hn'
        have hm := mem_distinct.mp hm
        have hlt := List.idxOf_lt_length_of_mem hm
        rw [hbefore m hm, List.idxOf_append_of_notMem hnew]
        omega

theorem distinct_nodup (names : List String) : (distinct names).Nodup := by
  refine (distinct_pairwise_idxOf names).imp ?_
  rintro m n hlt rfl
  omega

theorem distinct_perm {names others : List String} (h : names.Perm others) :
    (distinct names).Perm (distinct others) := by
  rw [List.perm_ext_iff_of_nodup (distinct_nodup names) (distinct_nodup others)]
  intro n
  rw [mem_distinct, mem_distinct, h.mem_iff]

end ThrowCatch.Sites
