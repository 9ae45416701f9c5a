import Mathlib.Algebra.GroupWithZero.Nat
import Mathlib.Data.List.Pairwise
import Mathlib.Data.List.Perm.Basic
import ThrowCatch.Proofs.Distinct
import ThrowCatch.Proofs.Preorder

/-!
Every throw and every catch of a tree is accounted for once. The collector
goes through the throw statements and the catch clauses in the order of their
starts, outer ones first. A statement gives one site or is counted as
unclassified; a clause gives a block of sites, all in the line of the clause
and with different names. This holds of every tree; where rows follow the
order of the bytes, the lines of the sites do not go back.
-/

namespace ThrowCatch

namespace Node

mutual

/-- How many nodes of a kind a tree has. -/
def countKind (kind : String) : Node → Nat
  | ⟨own, _, _, _, _, _, children⟩ => (if own = kind then 1 else 0) + countKinds kind children

def countKinds (kind : String) : List Node → Nat
  | [] => 0
  | c :: cs => countKind kind c + countKinds kind cs

end

theorem countKinds_eq_sum (kind : String) (cs : List Node) :
    countKinds kind cs = (cs.map (countKind kind)).sum := by
  induction cs with
  | nil => simp [countKinds]
  | cons c cs ih => simp [countKinds, ih]

/-- Rows follow the order of the bytes, and among nodes that start at the same
byte the order of the listing. -/
def RowsFollow (root : Node) : Prop :=
  (Occurrence.root root).below.Pairwise fun a b =>
    (a.node.start ≤ b.node.start → a.node.row ≤ b.node.row) ∧
      (b.node.start < a.node.start → b.node.row ≤ a.node.row)

instance (root : Node) : Decidable root.RowsFollow :=
  inferInstanceAs (Decidable (List.Pairwise _ _))

end Node

namespace Occurrence

/-- The places of a kind at and below a place, as the listing has them. -/
def listed (kind : String) (o : Occurrence) : List Occurrence :=
  o.below.filter fun x => x.node.kind == kind

/-- The listing of a tree has an entry for each node. -/
theorem length_listed (kind : String) (o : Occurrence) :
    (o.listed kind).length = o.node.countKind kind := by
  obtain ⟨n, above⟩ := o
  unfold listed below
  induction n using Node.induction generalizing above with
  | step n ih =>
      have hchildren : ((n.children.flatMap (preorderFrom (n :: above))).filter
          fun x => x.node.kind == kind).length = (n.children.map (Node.countKind kind)).sum := by
        rw [List.filter_flatMap, List.length_flatMap]
        congr 1
        exact List.map_congr_left fun c hc => ih c hc (n :: above)
      rw [preorderFrom_eq_cons, List.filter_cons, apply_ite List.length, List.length_cons,
        hchildren]
      obtain ⟨own, named, field, start, stop, row, children⟩ := n
      rw [Node.countKind, Node.countKinds_eq_sum]
      by_cases hown : own = kind
      · simp [hown]
        omega
      · simp [hown]

/-- All places of a kind in a tree, by where they start. Places that start at
the same byte stand as the listing has them, so that an outer one comes before
those inside of it. -/
structure ByStart (kind : String) (root : Node) (places : List Occurrence) : Prop where
  all : places.Perm ((Occurrence.root root).listed kind)
  sorted : places.Pairwise fun a b => a.node.start ≤ b.node.start
  ties : ∀ start, (places.filter fun o => o.node.start == start) =
    ((Occurrence.root root).listed kind).filter fun o => o.node.start == start
  outer : ∀ o ∈ places,
    ((o.listed kind).filter fun x => x.node.start == o.node.start).Sublist places

/-! ### Sorting by starts -/

theorem start_le_trans (a b c : Occurrence) :
    decide (a.node.start ≤ b.node.start) = true → decide (b.node.start ≤ c.node.start) = true →
      decide (a.node.start ≤ c.node.start) = true := by
  simpa using Nat.le_trans

theorem start_le_total (a b : Occurrence) :
    (decide (a.node.start ≤ b.node.start) || decide (b.node.start ≤ a.node.start)) = true := by
  simpa using Nat.le_total _ _

section

variable {kind : String}

theorem ofKind_perm_listed (o : Occurrence) : (o.ofKind kind).Perm (o.listed kind) :=
  List.mergeSort_perm _ _

/-- Sorting leaves places that start at the same byte as they are. -/
theorem filter_start_ofKind (o : Occurrence) (start : Nat) :
    ((o.ofKind kind).filter fun x => x.node.start == start) =
      (o.listed kind).filter fun x => x.node.start == start := by
  have hsame : ((o.listed kind).filter fun x => x.node.start == start).Pairwise
      fun a b => decide (a.node.start ≤ b.node.start) = true := by
    refine List.pairwise_filter.mpr (List.pairwise_of_forall fun a b ha hb => ?_)
    rw [beq_iff_eq] at ha hb
    simp [ha, hb]
  have hkept : ((o.listed kind).filter fun x => x.node.start == start).Sublist (o.ofKind kind) :=
    List.sublist_mergeSort start_le_trans start_le_total hsame List.filter_sublist
  have hpart := hkept.filter fun x => x.node.start == start
  simp only [List.filter_filter, Bool.and_self] at hpart
  exact (hpart.eq_of_length ((ofKind_perm_listed o).filter _).length_eq.symm).symm

theorem byStart_ofKind (kind : String) (root : Node) :
    ByStart kind root ((Occurrence.root root).ofKind kind) where
  all := ofKind_perm_listed _
  sorted := by
    have hsorted := List.pairwise_mergeSort start_le_trans start_le_total
      ((Occurrence.root root).listed kind)
    exact hsorted.imp fun {a b} h => by simpa using h
  ties := filter_start_ofKind _
  outer := by
    intro o ho
    have hlisted : (o.listed kind).Sublist ((Occurrence.root root).listed kind) :=
      (below_sublist_preorderFrom (mem_ofKind.mp ho).1).filter _
    have hpart := hlisted.filter fun x => x.node.start == o.node.start
    rw [← filter_start_ofKind (Occurrence.root root)] at hpart
    exact hpart.trans List.filter_sublist

/-- Where rows follow the bytes, places sorted by their starts stand in the
order of their rows. -/
theorem ByStart.pairwise_row {root : Node} {places : List Occurrence}
    (h : ByStart kind root places) (hrows : root.RowsFollow) :
    places.Pairwise fun a b => a.node.row ≤ b.node.row := by
  have hlisted := hrows.sublist (List.filter_sublist (p := fun o => o.node.kind == kind))
  -- apart from ties the rows of two places do not depend on which is listed first
  have hapart : places.Pairwise fun a b => (a.node.start < b.node.start → a.node.row ≤ b.node.row) ∧
      (b.node.start < a.node.start → b.node.row ≤ a.node.row) := by
    refine (h.all.pairwise_iff fun {a b} hab => hab.symm).mpr (hlisted.imp fun {a b} hab => ?_)
    exact ⟨fun hlt => hab.1 (Nat.le_of_lt hlt), hab.2⟩
  refine List.pairwise_iff_forall_sublist.mpr fun {a b} hpair => ?_
  have hstart := List.pairwise_iff_forall_sublist.mp h.sorted hpair
  rcases Nat.lt_or_eq_of_le hstart with hlt | heq
  · exact (List.pairwise_iff_forall_sublist.mp hapart hpair).1 hlt
  · have htied := hpair.filter fun o => o.node.start == a.node.start
    simp only [List.filter_cons, beq_self_eq_true, heq, if_true, List.filter_nil] at htied
    rw [← heq, h.ties] at htied
    have hboth := List.pairwise_iff_forall_sublist.mp hlisted (htied.trans List.filter_sublist)
    exact hboth.1 hstart

end

end Occurrence

namespace Sites

variable {source : ByteArray} {implicit file : String}

/-! ### Statements and clauses -/

/-- What a throw statement gives is raised in the line of the statement. -/
theorem of_raiseSite?_eq_some {statement : Node} {site : Site}
    (h : raiseSite? source file statement = some site) :
    site.kind.isRaise = true ∧ site.location = ⟨file, statement.line⟩ := by
  unfold raiseSite? at h
  obtain ⟨e, -, h⟩ := Option.bind_eq_some_iff.mp h
  dsimp only at h
  split at h
  · split at h
    · cases h
    · cases h
      exact ⟨rfl, rfl⟩
  · split at h
    · cases h
      exact ⟨rfl, rfl⟩
    · cases h

/-- The sites of a clause: at least one, all in its line, with different
names. -/
structure Block (file : String) (clause : Node) (sites : List Site) : Prop where
  nonempty : sites ≠ []
  kind : ∀ site ∈ sites, site.kind = .intercepted
  place : ∀ site ∈ sites, site.location = ⟨file, clause.row + 1⟩
  apart : (sites.map (·.name)).Nodup

theorem nodup_testedTypes (source : ByteArray) (clause : Occurrence) :
    (testedTypes source clause).Nodup := by
  unfold testedTypes
  split
  · exact distinct_nodup _
  · exact List.nodup_nil

theorem block_interceptSites (source : ByteArray) (implicit file : String) (clause : Occurrence) :
    Block file clause.node (interceptSites source implicit file clause) := by
  have hnames : ∃ names : List String, names ≠ [] ∧ names.Nodup ∧
      interceptSites source implicit file clause =
        names.map fun name => ⟨name, .intercepted, ⟨file, clause.node.line⟩⟩ := by
    unfold interceptSites
    cases htested : testedTypes source clause with
    | nil => exact ⟨_, List.cons_ne_nil _ _, List.pairwise_singleton _ _, rfl⟩
    | cons name names =>
        have hnodup := nodup_testedTypes source clause
        rw [htested] at hnodup
        exact ⟨_, List.cons_ne_nil _ _, hnodup, rfl⟩
  obtain ⟨names, hne, hnodup, hsites⟩ := hnames
  rw [hsites]
  refine ⟨by simpa using hne, ?_, ?_, by simpa [Function.comp_def] using hnodup⟩
  · simp
  · simp [Node.line]

theorem length_filterMap_add_countP_isNone {α β : Type} (f : α → Option β) (l : List α) :
    (l.filterMap f).length + l.countP (fun x => (f x).isNone) = l.length := by
  induction l with
  | nil => rfl
  | cons x l ih =>
      cases hx : f x with
      | none => simp [hx]; omega
      | some y => simp [hx]; omega

/-- The sites that come from places in the order of their rows stand in the
order of their lines. -/
theorem pairwise_line_flatMap {places : List Occurrence} {sites : Occurrence → List Site}
    (hrows : places.Pairwise fun a b => a.node.row ≤ b.node.row)
    (hsites : ∀ o ∈ places, ∀ site ∈ sites o, site.location.line = o.node.row + 1) :
    ((places.flatMap sites).map (·.location.line)).Pairwise (· ≤ ·) := by
  rw [List.pairwise_map, List.pairwise_flatMap]
  refine ⟨fun o ho => List.pairwise_of_forall_mem_list fun s hs s' hs' => ?_, ?_⟩
  · exact Int.le_of_eq ((hsites o ho s hs).trans (hsites o ho s' hs').symm)
  · refine hrows.imp_of_mem fun {a b} ha hb hrow s hs s' hs' => ?_
    rw [hsites a ha s hs, hsites b hb s' hs']
    omega

/-- Every throw statement gives one site or is unclassified, and every catch
clause gives a block of sites, in the order in which they start. -/
theorem throws_and_catches_counted_once (source : ByteArray) (implicit file : String)
    (root : Node) :
    let sites := collect source implicit file root
    ∃ statements clauses : List Occurrence,
      Occurrence.ByStart "throw_statement" root statements ∧
      Occurrence.ByStart "catch_clause" root clauses ∧
      sites.raised.length + sites.unclassified = root.countKind "throw_statement" ∧
      sites.raised = statements.filterMap (fun o => raiseSite? source file o.node) ∧
      sites.unclassified =
        statements.countP (fun o => (raiseSite? source file o.node).isNone) ∧
      clauses.length = root.countKind "catch_clause" ∧
      sites.intercepted = clauses.flatMap (interceptSites source implicit file) ∧
      (∀ clause ∈ clauses,
        Block file clause.node (interceptSites source implicit file clause)) ∧
      (root.RowsFollow → (sites.raised.map (·.location.line)).Pairwise (· ≤ ·) ∧
        (sites.intercepted.map (·.location.line)).Pairwise (· ≤ ·)) := by
  intro sites
  let statements := (Occurrence.root root).ofKind "throw_statement"
  let clauses := (Occurrence.root root).ofKind "catch_clause"
  have hstatements := Occurrence.byStart_ofKind "throw_statement" root
  have hclauses := Occurrence.byStart_ofKind "catch_clause" root
  have hraised : sites.raised = statements.filterMap fun o => raiseSite? source file o.node := by
    simp [sites, collect, statements, Search.nodeKind, List.filterMap_map]
  have hunclassified : sites.unclassified =
      statements.countP fun o => (raiseSite? source file o.node).isNone := by
    simp [sites, collect, statements, Search.nodeKind, List.countP_eq_length_filter,
      List.filter_map, Function.comp_def]
  have hblocks : ∀ clause ∈ clauses,
      Block file clause.node (interceptSites source implicit file clause) :=
    fun clause _ => block_interceptSites source implicit file clause
  refine ⟨statements, clauses, hstatements, hclauses, ?_, hraised, hunclassified, ?_, rfl, hblocks,
    fun hrows => ⟨?_, ?_⟩⟩
  · rw [hraised, hunclassified, length_filterMap_add_countP_isNone, hstatements.all.length_eq,
      Occurrence.length_listed]
    rfl
  · rw [hclauses.all.length_eq, Occurrence.length_listed]
    rfl
  · rw [hraised, List.filterMap_eq_flatMap_toList]
    refine pairwise_line_flatMap (hstatements.pairwise_row hrows) fun o _ site hsite => ?_
    rw [(of_raiseSite?_eq_some (by simpa using hsite)).2]
    simp [Node.line]
  · refine pairwise_line_flatMap (hclauses.pairwise_row hrows) fun clause hclause site hsite => ?_
    rw [(hblocks clause hclause).place site hsite]

/-! ### A throw, and a clause that throws what it caught -/

def rethrowSource : ByteArray :=
  "throw a;\ntry \x7b\x7d catch (e) \x7b\n  throw e;\n\x7d".toUTF8

/-- A throw of a name of one character. -/
def throwNode (start row : Nat) : Node :=
  ⟨"throw_statement", true, none, start, start + 8, row,
    [⟨"identifier", true, none, start + 6, start + 7, row, []⟩]⟩

def rethrowTree : Node :=
  ⟨"program", true, none, 0, 40, 0,
    [throwNode 0 0,
      ⟨"try_statement", true, none, 9, 40, 1,
        [⟨"catch_clause", true, some "handler", 16, 40, 1,
          [⟨"identifier", true, some "parameter", 23, 24, 1, []⟩,
            ⟨"statement_block", true, some "body", 26, 40, 1, [throwNode 30 2]⟩]⟩]⟩]⟩

theorem rethrow_accounted :
    let sites := collect rethrowSource "unknown" "a.ts" rethrowTree
    rethrowTree.RowsFollow ∧ sites.raised.length + sites.unclassified = 2 ∧
      (sites.raised.map (·.location.line)).Pairwise (· ≤ ·) := by
  intro sites
  have hrows : rethrowTree.RowsFollow := by decide
  obtain ⟨_, _, _, _, hcount, _, _, _, _, _, hlines⟩ :=
    throws_and_catches_counted_once rethrowSource "unknown" "a.ts" rethrowTree
  exact ⟨hrows, hcount, (hlines hrows).1⟩

end Sites

end ThrowCatch
