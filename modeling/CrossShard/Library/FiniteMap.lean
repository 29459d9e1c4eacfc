/-
# Library.FiniteMap -- the map values of a program

A map is Mathlib's `Finmap` behind the interface a program uses: `get`, `set`, `delete`,
`len`, and one range loop.  Equality is extensional (`ext`), and each operation has one
reading lemma, so proofs about a program never see the representation.

* `get_set`, `get_delete`: reading after a write, as one rewrite.
* `filterMap`: the result of one pass over a map that rewrites or drops every entry
  independently of the others, so that the order of the pass cannot matter
  (`get_filterMap`).
* `len_eq_zero`: a map without entries is a map without keys.
* `total`: a sum over the entries; distinct keys contribute at most that (`sum_le_total`).

A map that a program ranges over in an order that matters is Mathlib's `AList`; the last
section has its reading lemmas in the same form, and says where its keys go.
-/
import Mathlib.Algebra.Order.BigOperators.Group.Finset
import Mathlib.Algebra.Order.Ring.Int
import Mathlib.Algebra.Order.Ring.Nat
import Mathlib.Data.Finmap

namespace CrossShard.Library

set_option autoImplicit false

/-- A finite map from `K` to `V`. -/
structure FMap (K V : Type) where
  toFinmap : Finmap fun _ : K => V

namespace FMap

variable {K V W : Type}

instance : EmptyCollection (FMap K V) := ⟨⟨∅⟩⟩

/-- What a pass does with one entry. -/
def passEntry (f : K → V → Option W) (e : Σ _ : K, V) : Option (Σ _ : K, W) :=
  (f e.1 e.2).map fun w => ⟨e.1, w⟩

theorem pass_nodupKeys (f : K → V → Option W) (m : Finmap fun _ : K => V) :
    (m.entries.filterMap (passEntry f)).NodupKeys := by
  obtain ⟨entries, nodup⟩ := m
  induction entries using Quotient.inductionOn with
  | h l =>
      have nodup' : (l.map Sigma.fst).Nodup := nodup
      show ((l.filterMap (passEntry f)).map Sigma.fst).Nodup
      refine List.Nodup.sublist ?_ nodup'
      induction l with
      | nil => exact List.Sublist.slnil
      | cons e l ih =>
          have tail := ih (List.nodup_cons.1 nodup').2 (List.nodup_cons.1 nodup').2
          cases kept : f e.1 e.2 with
          | none => simpa [passEntry, kept] using tail.cons e.1
          | some w => simpa [passEntry, kept] using tail.cons_cons e.1

/-- One pass over `m` that keeps, rewrites or drops each entry on its own. -/
def filterMap (m : FMap K V) (f : K → V → Option W) : FMap K W :=
  ⟨⟨m.toFinmap.entries.filterMap (passEntry f), pass_nodupKeys f m.toFinmap⟩⟩

/-- The number of entries. -/
def len (m : FMap K V) : Nat := m.toFinmap.keys.card

variable [DecidableEq K]

def get (m : FMap K V) (k : K) : Option V := m.toFinmap.lookup k

def set (m : FMap K V) (k : K) (v : V) : FMap K V := ⟨m.toFinmap.insert k v⟩

def delete (m : FMap K V) (k : K) : FMap K V := ⟨m.toFinmap.erase k⟩

theorem ext {m m' : FMap K V} (same : ∀ k, m.get k = m'.get k) : m = m' := by
  cases m
  cases m'
  exact congrArg FMap.mk (Finmap.ext_lookup same)

@[simp] theorem get_empty (k : K) : (∅ : FMap K V).get k = none :=
  Finmap.lookup_empty k

@[simp] theorem get_set (m : FMap K V) (a k : K) (v : V) :
    (m.set a v).get k = if k = a then some v else m.get k := by
  split
  · rename_i same
    subst same
    exact m.toFinmap.lookup_insert
  · rename_i different
    exact m.toFinmap.lookup_insert_of_ne different

theorem set_set (m : FMap K V) (k : K) (v w : V) : (m.set k v).set k w = m.set k w := by
  refine ext fun k' => ?_
  simp only [get_set]
  split <;> rfl

@[simp] theorem get_delete (m : FMap K V) (a k : K) :
    (m.delete a).get k = if k = a then none else m.get k := by
  split
  · rename_i same
    subst same
    exact Finmap.lookup_erase k m.toFinmap
  · rename_i different
    exact Finmap.lookup_erase_ne different

theorem isSome_get_delete {m : FMap K V} {a k : K} :
    ((m.delete a).get k).isSome ↔ k ≠ a ∧ (m.get k).isSome := by
  rw [get_delete]
  split
  · rename_i same
    simp [same]
  · rename_i different
    simp [different]

@[simp] theorem get_filterMap (f : K → V → Option W) (m : FMap K V) (k : K) :
    (m.filterMap f).get k = (m.get k).bind (f k) := by
  ext w
  rw [Option.bind_eq_some_iff]
  constructor
  · intro found
    have member := Finmap.lookup_eq_some_iff.1 found
    obtain ⟨⟨k', v⟩, source, image⟩ := (Multiset.mem_filterMap _ _).1 member
    obtain ⟨w', fw, same⟩ := Option.map_eq_some_iff.1 image
    cases same
    exact ⟨v, Finmap.lookup_eq_some_iff.2 source, fw⟩
  · rintro ⟨v, source, fw⟩
    refine Finmap.lookup_eq_some_iff.2 ((Multiset.mem_filterMap _ _).2 ?_)
    exact ⟨⟨k, v⟩, Finmap.lookup_eq_some_iff.1 source, by simp [passEntry, fw]⟩

theorem mem_keys_iff {m : FMap K V} {k : K} : k ∈ m.toFinmap.keys ↔ m.get k ≠ none := by
  rw [Finmap.mem_keys, ← not_iff_not, not_not]
  exact Finmap.lookup_eq_none.symm

theorem len_eq_zero {m : FMap K V} : m.len = 0 ↔ ∀ k, m.get k = none := by
  unfold len
  rw [Finset.card_eq_zero, Finset.eq_empty_iff_forall_notMem]
  simp only [mem_keys_iff, not_not]

/-- Deleting a present key leaves one entry less. -/
theorem len_delete {m : FMap K V} {k : K} (present : m.get k ≠ none) :
    (m.delete k).len + 1 = m.len := by
  have member := mem_keys_iff.2 present
  have erased : (m.delete k).toFinmap.keys = m.toFinmap.keys.erase k :=
    Finmap.keys_erase k m.toFinmap
  unfold len
  rw [erased, Finset.card_erase_of_mem member]
  have := Finset.card_pos.2 ⟨k, member⟩
  omega

/-- A map has at least as many entries as distinct keys that it holds. -/
theorem length_le_len {m : FMap K V} {keys : List K} (nodup : keys.Nodup)
    (present : ∀ k ∈ keys, m.get k ≠ none) : keys.length ≤ m.len := by
  rw [← List.toFinset_card_of_nodup nodup]
  refine Finset.card_le_card fun k member => ?_
  exact mem_keys_iff.2 (present k (List.mem_toFinset.1 member))

/-- A map has at most as many entries as a set that contains its keys. -/
theorem len_le_card {m : FMap K V} {keys : Finset K} (covers : ∀ k, m.get k ≠ none → k ∈ keys) :
    m.len ≤ keys.card :=
  Finset.card_le_card fun k member => covers k (mem_keys_iff.1 member)

/-- A new key adds at most one entry. -/
theorem len_set_le (m : FMap K V) (k : K) (v : V) : (m.set k v).len ≤ m.len + 1 := by
  have covers : ∀ k', (m.set k v).get k' ≠ none → k' ∈ insert k m.toFinmap.keys := by
    intro k' present
    rw [get_set] at present
    split at present
    · rename_i same
      exact Finset.mem_insert.2 (Or.inl same)
    · exact Finset.mem_insert_of_mem (mem_keys_iff.2 present)
  exact (len_le_card covers).trans (Finset.card_insert_le k _)

/-- The sum of `f` over the entries. -/
def total (m : FMap K V) (f : V → Nat) : Nat :=
  ∑ k ∈ m.toFinmap.keys, ((m.get k).map f).getD 0

/-- Distinct keys contribute at most the total. -/
theorem sum_le_total (m : FMap K V) (f : V → Nat) {keys : List K} (nodup : keys.Nodup) :
    (keys.map fun k => ((m.get k).map f).getD 0).sum ≤ m.total f := by
  rw [← List.sum_toFinset _ nodup]
  refine Finset.sum_le_sum_of_ne_zero fun k _ contributes => mem_keys_iff.2 fun absent => ?_
  rw [absent] at contributes
  exact contributes rfl

end FMap

section AssociationList

variable {K V : Type} [DecidableEq K]

theorem lookup_insert_ite (m : AList fun _ : K => V) (a k : K) (v : V) :
    (m.insert a v).lookup k = if k = a then some v else m.lookup k := by
  split
  · rename_i same
    subst same
    exact AList.lookup_insert m
  · rename_i different
    exact AList.lookup_insert_ne different

theorem lookup_erase_ite (m : AList fun _ : K => V) (a k : K) :
    (m.erase a).lookup k = if k = a then none else m.lookup k := by
  split
  · rename_i same
    subst same
    exact AList.lookup_erase k m
  · rename_i different
    exact AList.lookup_erase_ne different

/-- A new key is one more key. -/
theorem mem_of_lookup_eq_some {m : AList fun _ : K => V} {k : K} {v : V}
    (found : m.lookup k = some v) : k ∈ m :=
  AList.lookup_isSome.1 (Option.isSome_of_eq_some found)

theorem keys_insert_perm {m : AList fun _ : K => V} {k : K} (absent : k ∉ m) (v : V) :
    (m.insert k v).keys.Perm (k :: m.keys) := by
  rw [AList.keys_insert, List.erase_of_not_mem absent]

/-- A deleted key is one key less. -/
theorem keys_erase_perm {m : AList fun _ : K => V} {k : K} (present : k ∈ m) :
    m.keys.Perm (k :: (m.erase k).keys) := by
  rw [AList.keys_erase]
  exact List.perm_cons_erase present

end AssociationList

end CrossShard.Library
