import ThrowCatch.Tree.Occurrence

/-!
The listing of a tree, each node before those below it. Where the byte ranges
of siblings follow each other inside their parent's, the listing is already
in the order of starts, so a search that sorts its hits by start leaves them
in the order in which a walk from the top meets them.
-/

namespace ThrowCatch

/-- The byte ranges of a tree: children lie inside their parent, one after
the other. -/
inductive Node.Ordered : Node → Prop
  | mk {n : Node} (width : n.start ≤ n.stop)
      (inside : ∀ c ∈ n.children, n.start ≤ c.start ∧ c.stop ≤ n.stop)
      (apart : n.children.Pairwise fun a b => a.stop ≤ b.start)
      (below : ∀ c ∈ n.children, c.Ordered) : n.Ordered

/-- Induction over trees: what holds of a node when it holds of its children
holds of every node. -/
theorem Node.induction {motive : Node → Prop}
    (step : ∀ n : Node, (∀ c ∈ n.children, motive c) → motive n) (n : Node) : motive n := by
  match n with
  | ⟨kind, named, field, start, stop, row, children⟩ =>
      apply step
      intro c hc
      exact Node.induction step c

namespace Node

mutual

def checkOrdered : Node → Bool
  | ⟨_, _, _, start, stop, _, children⟩ =>
    decide (start ≤ stop) && children.all (fun c => start ≤ c.start && c.stop ≤ stop) &&
      decide (children.Pairwise fun a b => a.stop ≤ b.start) && checkAllOrdered children

def checkAllOrdered : List Node → Bool
  | [] => true
  | c :: cs => c.checkOrdered && checkAllOrdered cs

end

theorem checkAllOrdered_eq_all (cs : List Node) : checkAllOrdered cs = cs.all checkOrdered := by
  induction cs with
  | nil => simp [checkAllOrdered]
  | cons c cs ih => simp [checkAllOrdered, ih]

theorem checkOrdered_iff (n : Node) : n.checkOrdered = true ↔ n.Ordered := by
  induction n using Node.induction with
  | step n ih =>
      have hall : n.children.all checkOrdered = true ↔ ∀ c ∈ n.children, c.Ordered := by
        rw [List.all_eq_true]
        exact forall₂_congr ih
      obtain ⟨kind, named, field, start, stop, row, children⟩ := n
      rw [checkOrdered, checkAllOrdered_eq_all]
      simp only [Bool.and_eq_true, decide_eq_true_eq, List.all_eq_true (p := fun _ => _ && _)]
      constructor
      · rintro ⟨⟨⟨hwidth, hinside⟩, hapart⟩, hbelow⟩
        exact .mk hwidth hinside hapart (hall.mp hbelow)
      · rintro ⟨hwidth, hinside, hapart, hbelow⟩
        exact ⟨⟨⟨hwidth, hinside⟩, hapart⟩, hall.mpr hbelow⟩

instance : DecidablePred Node.Ordered := fun n => decidable_of_iff _ (checkOrdered_iff n)

end Node

namespace Occurrence

theorem preorderList_eq_flatMap (above : List Node) (cs : List Node) :
    preorderList above cs = cs.flatMap (preorderFrom above) := by
  induction cs with
  | nil => simp [preorderList]
  | cons c cs ih => simp [preorderList, ih]

theorem preorderFrom_eq_cons (above : List Node) (n : Node) :
    preorderFrom above n =
      ⟨n, above⟩ :: n.children.flatMap (preorderFrom (n :: above)) := by
  cases n
  simp [preorderFrom, preorderList_eq_flatMap]

/-- What is listed below a listed place is a part of the listing. -/
theorem below_sublist_preorderFrom {above : List Node} {n : Node} {o : Occurrence}
    (ho : o ∈ preorderFrom above n) : o.below.Sublist (preorderFrom above n) := by
  induction n using Node.induction generalizing above with
  | step n ih =>
      rw [preorderFrom_eq_cons] at ho
      rcases List.mem_cons.mp ho with rfl | ho
      · exact List.Sublist.refl _
      · obtain ⟨c, hc, hoc⟩ := List.mem_flatMap.mp ho
        have hpart : (preorderFrom (n :: above) c).Sublist
            (n.children.flatMap (preorderFrom (n :: above))) :=
          List.sublist_flatten_of_mem (List.mem_map_of_mem hc)
        rw [preorderFrom_eq_cons above n]
        exact ((ih c hc hoc).trans hpart).cons _

theorem ordered_of_mem_preorderFrom {above : List Node} {n : Node} {o : Occurrence}
    (hn : n.Ordered) (ho : o ∈ preorderFrom above n) : o.node.Ordered := by
  induction n using Node.induction generalizing above with
  | step n ih =>
      rw [preorderFrom_eq_cons] at ho
      rcases List.mem_cons.mp ho with rfl | ho
      · exact hn
      · obtain ⟨c, hc, hoc⟩ := List.mem_flatMap.mp ho
        obtain ⟨_, _, _, hbelow⟩ := hn
        exact ih c hc (hbelow c hc) hoc

/-- Every place below a node starts and ends inside its range. -/
theorem span_of_mem_preorderFrom {above : List Node} {n : Node} {o : Occurrence}
    (hn : n.Ordered) (ho : o ∈ preorderFrom above n) :
    n.start ≤ o.node.start ∧ o.node.start ≤ n.stop := by
  induction n using Node.induction generalizing above with
  | step n ih =>
      obtain ⟨hwidth, hinside, _, hbelow⟩ := hn
      rw [preorderFrom_eq_cons] at ho
      rcases List.mem_cons.mp ho with rfl | ho
      · exact ⟨Nat.le_refl _, hwidth⟩
      · obtain ⟨c, hc, hoc⟩ := List.mem_flatMap.mp ho
        have hspan := ih c hc (hbelow c hc) hoc
        have hin := hinside c hc
        omega

/-- The listing of an ordered tree goes by starts. -/
theorem preorderFrom_pairwise_start {n : Node} (above : List Node) (hn : n.Ordered) :
    (preorderFrom above n).Pairwise fun a b => a.node.start ≤ b.node.start := by
  induction n using Node.induction generalizing above with
  | step n ih =>
      have hall : ∀ o ∈ preorderFrom above n, n.start ≤ o.node.start ∧ o.node.start ≤ n.stop :=
        fun _ ho => span_of_mem_preorderFrom hn ho
      rw [preorderFrom_eq_cons] at hall ⊢
      obtain ⟨_, _, hapart, hbelow⟩ := hn
      refine List.pairwise_cons.mpr ⟨fun o ho => (hall o (List.mem_cons_of_mem _ ho)).1, ?_⟩
      refine List.pairwise_flatMap.mpr ⟨fun c hc => ih c hc (n :: above) (hbelow c hc), ?_⟩
      -- Places of an earlier child start before that child ends, hence before the later one.
      refine hapart.imp_of_mem ?_
      intro c c' hc hc' hcc o ho o' ho'
      have hfirst := span_of_mem_preorderFrom (hbelow c hc) ho
      have hsecond := span_of_mem_preorderFrom (hbelow c' hc') ho'
      omega

/-- In an ordered tree a search finds its nodes in the order of the listing. -/
theorem ofKind_eq_filter (kind : String) {o : Occurrence} (ho : o.node.Ordered) :
    o.ofKind kind = o.below.filter fun x => x.node.kind == kind := by
  apply List.mergeSort_of_pairwise
  refine ((preorderFrom_pairwise_start o.above ho).filter _).imp ?_
  intro a b hab
  simpa using hab

@[simp] theorem mem_ofKind {kind : String} {o x : Occurrence} :
    x ∈ o.ofKind kind ↔ x ∈ o.below ∧ x.node.kind = kind := by
  simp [ofKind, List.mem_mergeSort]

end Occurrence

end ThrowCatch
