/-
# Library.Revisions -- a value with snapshots that can be reverted to

A `Revisions σ` holds a value and the values saved with it, newest first, each under the number it
was saved with.  Numbers are given out in order and never again, also not after a revert.

`Tracks view old` relates such a history to a view of it: the same operations on both keep them
related (`Tracks.modify`, `Tracks.snapshot`, `Tracks.revertTo`), where the view may have older
snapshots `old` that the operations do not reach.

`Revisions.Rel R` relates two histories with the same snapshots and related values, with the same
three rules.  `Revisions.Above n old` says that everything saved on top of `old` has a number from
`n` on; so the snapshot below `n` can still be reverted to (`Above.revertTo_below`).
-/
import Mathlib.Data.List.Basic

namespace CrossShard.Library

set_option autoImplicit false

variable {σ τ : Type}

structure Revisions (σ : Type) where
  current : σ
  saved : List (Nat × σ)
  next : Nat
  given : ∀ e ∈ saved, e.1 < next

/-- The value saved under a number, and what was saved before it. -/
def restore : List (Nat × σ) → Nat → Option (σ × List (Nat × σ))
  | [], _ => none
  | e :: older, id => if e.1 = id then some (e.2, older) else restore older id

theorem restore_suffix {saved older : List (Nat × σ)} {id : Nat} {value : σ}
    (found : restore saved id = some (value, older)) : older ⊆ saved ∧ (id, value) ∈ saved := by
  induction saved with
  | nil => cases found
  | cons e saved ih =>
      rw [restore] at found
      split at found
      · rename_i here
        cases found
        exact ⟨List.subset_cons_self _ _, here ▸ List.mem_cons_self⟩
      · obtain ⟨kept, member⟩ := ih found
        exact ⟨List.subset_cons_of_subset _ kept, List.mem_cons_of_mem _ member⟩

namespace Revisions

def start (value : σ) (next : Nat) : Revisions σ := ⟨value, [], next, List.forall_mem_nil _⟩

def modify (r : Revisions σ) (f : σ → σ) : Revisions σ := { r with current := f r.current }

/-- The number, and the history with the value saved under it. -/
def snapshot (r : Revisions σ) : Nat × Revisions σ :=
  (r.next,
    { current := r.current
      saved := (r.next, r.current) :: r.saved
      next := r.next + 1
      given := fun e member => by
        rcases List.mem_cons.1 member with rfl | older
        · exact Nat.lt_succ_self _
        · exact Nat.lt_succ_of_lt (r.given e older) })

/-- `none` if nothing is saved under the number. -/
def revertTo (r : Revisions σ) (id : Nat) : Option (Revisions σ) :=
  match found : restore r.saved id with
  | some (value, older) =>
      some ⟨value, older, r.next, fun e member => r.given e ((restore_suffix found).1 member)⟩
  | none => none

theorem revertTo_eq_some {r r' : Revisions σ} {id : Nat} :
    r.revertTo id = some r' ↔
      restore r.saved id = some (r'.current, r'.saved) ∧ r'.next = r.next := by
  unfold revertTo
  split
  · rename_i value older found
    constructor
    · rintro ⟨⟩
      exact ⟨found, rfl⟩
    · rintro ⟨same, next⟩
      obtain ⟨rfl, rfl⟩ := Prod.mk.inj (Option.some.inj (found.symm.trans same))
      cases r'
      cases next
      rfl
  · rename_i found
    simp [found]

/-- A property of the current value and of all saved ones. -/
def All (P : σ → Prop) (r : Revisions σ) : Prop := P r.current ∧ ∀ e ∈ r.saved, P e.2

variable {P : σ → Prop} {r r' : Revisions σ}

theorem All.mono {Q : σ → Prop} (all : r.All P) (weaker : ∀ x, P x → Q x) : r.All Q :=
  ⟨weaker _ all.1, fun e member => weaker _ (all.2 e member)⟩

theorem All.modify {f : σ → σ} (all : r.All P) (changed : P (f r.current)) :
    (r.modify f).All P :=
  ⟨changed, all.2⟩

theorem All.snapshot (all : r.All P) : r.snapshot.2.All P := by
  refine ⟨all.1, fun e member => ?_⟩
  rcases List.mem_cons.1 member with rfl | older
  · exact all.1
  · exact all.2 e older

theorem All.revertTo {id : Nat} (all : r.All P) (reverted : r.revertTo id = some r') :
    r'.All P := by
  obtain ⟨found, -⟩ := revertTo_eq_some.1 reverted
  obtain ⟨older, member⟩ := restore_suffix found
  exact ⟨all.2 _ member, fun e kept => all.2 e (older kept)⟩

end Revisions

/-! ## A history and a view of it -/

/-- `w` is `r` seen through `view`, on top of the older snapshots `old`. -/
structure Tracks (view : σ → τ) (old : List (Nat × τ)) (r : Revisions σ) (w : Revisions τ) :
    Prop where
  current : w.current = view r.current
  saved : w.saved = r.saved.map (Prod.map id view) ++ old
  next : w.next = r.next

namespace Tracks

variable {view : σ → τ} {old : List (Nat × τ)} {r : Revisions σ} {w w' : Revisions τ}

theorem modify {f : σ → σ} {g : τ → τ} (tracks : Tracks view old r w)
    (same : view (f r.current) = g (view r.current)) : Tracks view old (r.modify f) (w.modify g) :=
  ⟨by rw [Revisions.modify, Revisions.modify, tracks.current, same], tracks.saved, tracks.next⟩

theorem snapshot (tracks : Tracks view old r w) : Tracks view old r.snapshot.2 w.snapshot.2 := by
  refine ⟨tracks.current, ?_, congrArg (· + 1) tracks.next⟩
  show (w.next, w.current) :: w.saved = _
  rw [tracks.next, tracks.current, tracks.saved]
  rfl

theorem restore_view {saved : List (Nat × σ)} {older : List (Nat × τ)} {n : Nat} {value : τ}
    (above : ∀ e ∈ old, e.1 ≠ n)
    (found : restore (saved.map (Prod.map id view) ++ old) n = some (value, older)) :
    ∃ value' older', restore saved n = some (value', older') ∧ value = view value' ∧
      older = older'.map (Prod.map id view) ++ old := by
  induction saved with
  | nil => exact absurd rfl (above _ (restore_suffix found).2)
  | cons e saved ih =>
      rw [List.map_cons, List.cons_append, restore, Prod.map_fst, id] at found
      rw [restore]
      by_cases here : e.1 = n
      · rw [if_pos here] at found
        cases found
        exact ⟨e.2, saved, if_pos here, rfl, rfl⟩
      · rw [if_neg here] at found
        rw [if_neg here]
        exact ih found

theorem revertTo {n : Nat} (tracks : Tracks view old r w) (above : ∀ e ∈ old, e.1 ≠ n)
    (reverted : w.revertTo n = some w') :
    ∃ r', r.revertTo n = some r' ∧ Tracks view old r' w' := by
  obtain ⟨found, next⟩ := Revisions.revertTo_eq_some.1 reverted
  rw [tracks.saved] at found
  obtain ⟨value, older, there, same, rest⟩ := restore_view above found
  refine ⟨⟨value, older, r.next, fun e member => r.given e ((restore_suffix there).1 member)⟩,
    Revisions.revertTo_eq_some.2 ⟨there, rfl⟩, same, rest, next.trans tracks.next⟩

end Tracks

/-! ## Two histories side by side -/

/-- The same snapshots, with related values. -/
structure Revisions.Rel (R : σ → τ → Prop) (r : Revisions σ) (w : Revisions τ) : Prop where
  current : R r.current w.current
  saved : List.Forall₂ (fun e f => e.1 = f.1 ∧ R e.2 f.2) r.saved w.saved
  next : r.next = w.next

namespace Revisions.Rel

variable {R : σ → τ → Prop} {r : Revisions σ} {w : Revisions τ}

theorem start {value : σ} {value' : τ} (related : R value value') (next : Nat) :
    Rel R (.start value next) (.start value' next) :=
  ⟨related, .nil, rfl⟩

theorem modify {f : σ → σ} {g : τ → τ} (rel : Rel R r w) (changed : R (f r.current) (g w.current)) :
    Rel R (r.modify f) (w.modify g) :=
  ⟨changed, rel.saved, rel.next⟩

theorem snapshot (rel : Rel R r w) : Rel R r.snapshot.2 w.snapshot.2 :=
  ⟨rel.current, .cons ⟨rel.next, rel.current⟩ rel.saved, congrArg (· + 1) rel.next⟩

theorem restore_rel {saved : List (Nat × σ)} {saved' : List (Nat × τ)}
    (related : List.Forall₂ (fun e f => e.1 = f.1 ∧ R e.2 f.2) saved saved') (id : Nat) :
    Option.Rel (fun a b => R a.1 b.1 ∧ List.Forall₂ (fun e f => e.1 = f.1 ∧ R e.2 f.2) a.2 b.2)
      (restore saved id) (restore saved' id) := by
  induction related with
  | nil => exact .none
  | cons head tail ih =>
      rw [restore, restore, ← head.1]
      split
      · exact .some ⟨head.2, tail⟩
      · exact ih

theorem revertTo (rel : Rel R r w) (id : Nat) :
    Option.Rel (Rel R) (r.revertTo id) (w.revertTo id) := by
  have found := restore_rel rel.saved id
  unfold Revisions.revertTo
  split
  · rename_i value older here
    rw [here] at found
    split
    · rename_i value' older' there
      rw [there] at found
      cases found with
      | some both => exact .some ⟨both.1, both.2, rel.next⟩
    · rename_i there
      rw [there] at found
      cases found
  · rename_i here
    rw [here] at found
    split
    · rename_i value' older' there
      rw [there] at found
      cases found
    · exact .none

end Revisions.Rel

/-! ## Snapshots on top of older ones -/

/-- What is saved on top of `old` has numbers from `n` on. -/
structure Revisions.Above (n : Nat) (old : List (Nat × σ)) (r : Revisions σ) : Prop where
  next : n ≤ r.next
  saved : ∃ newer, r.saved = newer ++ old ∧ ∀ e ∈ newer, n ≤ e.1

theorem restore_append {newer old : List (Nat × σ)} {id : Nat} (absent : ∀ e ∈ newer, e.1 ≠ id) :
    restore (newer ++ old) id = restore old id := by
  induction newer with
  | nil => rfl
  | cons e newer ih =>
      rw [List.cons_append, restore, if_neg (absent e List.mem_cons_self)]
      exact ih fun e member => absent e (List.mem_cons_of_mem _ member)

namespace Revisions.Above

variable {n : Nat} {old : List (Nat × σ)} {r r' : Revisions σ}

theorem modify (above : Above n old r) (f : σ → σ) : Above n old (r.modify f) :=
  ⟨above.next, above.saved⟩

theorem snapshot (above : Above n old r) : Above n old r.snapshot.2 := by
  obtain ⟨newer, saved, high⟩ := above.saved
  refine ⟨Nat.le_succ_of_le above.next, (r.next, r.current) :: newer, ?_, ?_⟩
  · show (r.next, r.current) :: r.saved = _
    rw [saved]
    rfl
  · exact List.forall_mem_cons.2 ⟨above.next, high⟩

theorem restore_above {newer older : List (Nat × σ)} {id : Nat} {value : σ}
    (below : ∀ e ∈ old, e.1 ≠ id) (found : restore (newer ++ old) id = some (value, older)) :
    ∃ kept, older = kept ++ old ∧ kept ⊆ newer := by
  induction newer with
  | nil => exact absurd rfl (below _ (restore_suffix found).2)
  | cons e newer ih =>
      rw [List.cons_append, restore] at found
      split at found
      · cases found
        exact ⟨newer, rfl, List.subset_cons_self _ _⟩
      · obtain ⟨kept, rest, fewer⟩ := ih found
        exact ⟨kept, rest, List.subset_cons_of_subset _ fewer⟩

theorem revertTo {id : Nat} (above : Above n old r) (below : ∀ e ∈ old, e.1 ≠ id)
    (reverted : r.revertTo id = some r') : Above n old r' := by
  obtain ⟨found, next⟩ := revertTo_eq_some.1 reverted
  obtain ⟨newer, saved, high⟩ := above.saved
  rw [saved] at found
  obtain ⟨kept, rest, fewer⟩ := restore_above below found
  exact ⟨next ▸ above.next, kept, rest, fun e member => high e (fewer member)⟩

/-- **The snapshot below is still there.** -/
theorem revertTo_below {value : σ} {id : Nat} (above : Above (id + 1) ((id, value) :: old) r) :
    ∃ r', r.revertTo id = some r' ∧ r'.current = value ∧ r'.saved = old := by
  obtain ⟨newer, saved, high⟩ := above.saved
  have found : restore r.saved id = some (value, old) := by
    rw [saved, restore_append fun e member => Nat.ne_of_gt (high e member), restore, if_pos rfl]
  refine ⟨⟨value, old, r.next, fun e member => r.given e ((restore_suffix found).1 member)⟩,
    revertTo_eq_some.2 ⟨found, rfl⟩, rfl, rfl⟩

end Revisions.Above

end CrossShard.Library
