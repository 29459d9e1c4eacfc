/-
# Library.Priority -- a queue sorted by a numeric key, stably

`byKey key l` is `l` with smaller keys first and equal keys in their old order.  A program
that drains such a queue relies on three facts: nothing is lost or added (`byKey_perm`),
whatever comes later has a key at least as large (`byKey_sorted`), and the entries that
share a key have not moved among themselves (`filter_byKey`).  Together they give the sorted
queue key by key (`byKey_eq_flatMap`), and with it that sorting a part of the queue gives that
part of the sorted queue (`byKey_filter`).
-/
import Mathlib.Algebra.Order.BigOperators.Group.List
import Mathlib.Algebra.Order.Ring.Nat
import Mathlib.Data.List.Sort

namespace CrossShard.Library

set_option autoImplicit false

variable {α : Type} (key : α → Nat)

/-- `l` sorted stably by `key`. -/
def byKey (l : List α) : List α := l.insertionSort fun a b => key a ≤ key b

theorem byKey_perm (l : List α) : (byKey key l).Perm l := List.perm_insertionSort _ l

theorem byKey_sorted (l : List α) : (byKey key l).Pairwise fun a b => key a ≤ key b := by
  have : Std.Total fun a b => key a ≤ key b := ⟨fun a b => Nat.le_total (key a) (key b)⟩
  have : IsTrans α fun a b => key a ≤ key b := ⟨fun _ _ _ => Nat.le_trans⟩
  exact List.pairwise_insertionSort _ l

/-- **Stability.**  A selection whose members share one key is left as it was. -/
theorem filter_byKey (p : α → Bool) (same : ∀ a b, p a → p b → key a = key b) (l : List α) :
    (byKey key l).filter p = l.filter p := by
  -- the selection is sorted already, so a stable sort keeps it as a sublist
  have ordered : (l.filter p).Pairwise fun a b => key a ≤ key b :=
    List.pairwise_of_forall_mem_list fun a ha b hb =>
      (same a b (List.of_mem_filter ha) (List.of_mem_filter hb)).le
  have kept : (l.filter p).Sublist (byKey key l) :=
    List.sublist_insertionSort ordered List.filter_sublist
  have kept' := kept.filter p
  rw [List.filter_filter] at kept'
  simp only [Bool.and_self] at kept'
  exact (kept'.eq_of_length ((byKey_perm key l).filter p).length_eq.symm).symm

/-- In a sorted list the entries with key `n` follow those with smaller keys. -/
theorem filter_append_of_sorted {l : List α} (sorted : l.Pairwise fun a b => key a ≤ key b)
    (n : Nat) :
    l.filter (key · < n + 1) = l.filter (key · < n) ++ l.filter (key · = n) := by
  induction l with
  | nil => rfl
  | cons a l ih =>
      obtain ⟨first, rest⟩ := List.pairwise_cons.1 sorted
      specialize ih rest
      have later : ∀ b ∈ l, key a ≤ key b := first
      rcases Nat.lt_trichotomy (key a) n with below | here | above
      · have within : key a < n + 1 := Nat.lt_succ_of_lt below
        have other : key a ≠ n := Nat.ne_of_lt below
        simp only [List.filter_cons, within, below, other, decide_true, decide_false, if_true,
          Bool.false_eq_true, if_false, ih, List.cons_append]
      · have none : l.filter (key · < n) = [] := List.filter_eq_nil_iff.2 fun b member => by
          have := later b member
          simp only [decide_eq_true_eq]
          omega
        simp only [List.filter_cons, here, Nat.lt_succ_self n, Nat.lt_irrefl n, decide_true,
          decide_false, if_true, Bool.false_eq_true, if_false, ih, none, List.nil_append]
      · have large : ∀ b ∈ a :: l, n < key b := by
          intro b member
          rcases List.mem_cons.1 member with rfl | member
          · exact above
          · exact Nat.lt_of_lt_of_le above (later b member)
        have none : ∀ p : α → Bool, (∀ b, p b → key b ≤ n) → (a :: l).filter p = [] :=
          fun p small => List.filter_eq_nil_iff.2 fun b member kept =>
            absurd (large b member) (Nat.not_lt.2 (small b kept))
        rw [none _ fun b kept => Nat.le_of_lt_succ (of_decide_eq_true kept),
          none _ fun b kept => Nat.le_of_lt (of_decide_eq_true kept),
          none _ fun b kept => Nat.le_of_eq (of_decide_eq_true kept), List.nil_append]

/-- **The sorted queue, key by key.** -/
theorem byKey_eq_flatMap {n : Nat} {l : List α} (bound : ∀ a ∈ l, key a < n) :
    byKey key l = (List.range n).flatMap fun k => l.filter (key · = k) := by
  have parts : ∀ n, (byKey key l).filter (key · < n) =
      (List.range n).flatMap fun k => l.filter (key · = k) := by
    intro n
    induction n with
    | zero => simp
    | succ n ih =>
        rw [filter_append_of_sorted key (byKey_sorted key l), ih, List.range_succ,
          List.flatMap_append, filter_byKey key _ (by simp_all), List.flatMap_singleton]
  rw [← parts n, List.filter_eq_self.2]
  intro a member
  exact decide_eq_true (bound a ((byKey_perm key l).mem_iff.1 member))

/-- Selecting and sorting commute. -/
theorem byKey_filter (p : α → Bool) (l : List α) :
    (byKey key l).filter p = byKey key (l.filter p) := by
  obtain ⟨n, bound⟩ : ∃ n, ∀ a ∈ l, key a < n := by
    refine ⟨(l.map key).sum + 1, fun a member => Nat.lt_succ_of_le ?_⟩
    exact List.le_sum_of_mem (List.mem_map_of_mem (f := key) member)
  have bound' : ∀ a ∈ l.filter p, key a < n := fun a member => bound a (List.mem_of_mem_filter member)
  rw [byKey_eq_flatMap key bound, byKey_eq_flatMap key bound', List.filter_flatMap]
  refine List.flatMap_congr fun k _ => ?_
  rw [List.filter_filter, List.filter_filter]
  exact List.filter_congr fun a _ => Bool.and_comm _ _

end CrossShard.Library
