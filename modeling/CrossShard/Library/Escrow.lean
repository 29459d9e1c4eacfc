/-
# Library.Escrow -- balances with reservations

An escrow account book: every owner has a balance, and part of it may be held under an
identifier until the hold is released (the funds are free again) or settled (they leave).
That the holds of an owner never exceed the balance is a field of the structure, so an
operation that would break it cannot be written down.

* `reservedBy_insert`, `reservedBy_erase`: what opening and closing a hold does to the sums.
* `Escrow.step`: the operations with their guards; the answer says whether it was accepted.
* `Escrow.amount_le_balance`: a hold can always be settled.
-/
import Mathlib.Algebra.BigOperators.Group.Finset.Basic
import Mathlib.Algebra.Order.BigOperators.Group.Finset

namespace CrossShard.Library

set_option autoImplicit false

variable {A I : Type} [DecidableEq A] [DecidableEq I]

/-- What the holds of `a` add up to. -/
def reservedBy (holds : Finset I) (owner : I → A) (amount : I → Nat) (a : A) : Nat :=
  ∑ i ∈ holds, if owner i = a then amount i else 0

section Sums

variable {holds : Finset I} {owner : I → A} {amount : I → Nat}

theorem reservedBy_insert {i : I} (fresh : i ∉ holds) (a : A) (n : Nat) (b : A) :
    reservedBy (insert i holds) (Function.update owner i a) (Function.update amount i n) b =
      reservedBy holds owner amount b + if a = b then n else 0 := by
  have others : ∀ j ∈ holds,
      (if Function.update owner i a j = b then Function.update amount i n j else 0) =
        if owner j = b then amount j else 0 := by
    intro j member
    have different : j ≠ i := fun same => fresh (same ▸ member)
    rw [Function.update_of_ne different, Function.update_of_ne different]
  unfold reservedBy
  rw [Finset.sum_insert fresh, Finset.sum_congr rfl others, Function.update_self,
    Function.update_self, Nat.add_comm]

theorem reservedBy_erase {i : I} (held : i ∈ holds) (b : A) :
    reservedBy (holds.erase i) owner amount b + (if owner i = b then amount i else 0) =
      reservedBy holds owner amount b :=
  Finset.sum_erase_add _ _ held

theorem reservedBy_erase_le (i : I) (b : A) :
    reservedBy (holds.erase i) owner amount b ≤ reservedBy holds owner amount b :=
  Finset.sum_le_sum_of_subset (Finset.erase_subset i holds)

end Sums

/-- Balances, and the holds on them. -/
structure Escrow (A I : Type) [DecidableEq A] [DecidableEq I] where
  balance : A → Nat
  holds : Finset I
  owner : I → A
  amount : I → Nat
  covered : ∀ a, reservedBy holds owner amount a ≤ balance a

namespace Escrow

/-- An account book without holds. -/
def empty [Inhabited A] (balance : A → Nat) : Escrow A I :=
  ⟨balance, ∅, fun _ => default, fun _ => 0, fun a => by simp [reservedBy]⟩

variable (e : Escrow A I)

def reserved (a : A) : Nat := reservedBy e.holds e.owner e.amount a

theorem amount_le_balance {i : I} (held : i ∈ e.holds) : e.amount i ≤ e.balance (e.owner i) := by
  have closed : reservedBy (e.holds.erase i) e.owner e.amount (e.owner i) + _ = _ :=
    reservedBy_erase held (e.owner i)
  rw [if_pos rfl] at closed
  have covered := e.covered (e.owner i)
  omega

/-! ## Operations -/

def deposit (a : A) (n : Nat) : Escrow A I where
  balance := Function.update e.balance a (e.balance a + n)
  holds := e.holds
  owner := e.owner
  amount := e.amount
  covered b := by
    have covered := e.covered b
    rw [Function.update_apply]
    split
    · rename_i same
      rw [same] at covered ⊢
      omega
    · exact covered

/-- Take free funds out. -/
def withdraw (a : A) (n : Nat) (room : e.reserved a + n ≤ e.balance a) : Escrow A I where
  balance := Function.update e.balance a (e.balance a - n)
  holds := e.holds
  owner := e.owner
  amount := e.amount
  covered b := by
    have covered := e.covered b
    rw [Function.update_apply]
    split
    · rename_i same
      rw [same]
      unfold reserved at room
      omega
    · exact covered

/-- Reserve free funds under a new identifier. -/
def hold (i : I) (a : A) (n : Nat) (fresh : i ∉ e.holds)
    (room : e.reserved a + n ≤ e.balance a) : Escrow A I where
  balance := e.balance
  holds := insert i e.holds
  owner := Function.update e.owner i a
  amount := Function.update e.amount i n
  covered b := by
    have covered := e.covered b
    rw [reservedBy_insert fresh]
    split
    · rename_i same
      rw [← same]
      exact room
    · exact covered

/-- Give a hold up. -/
def release (i : I) : Escrow A I where
  balance := e.balance
  holds := e.holds.erase i
  owner := e.owner
  amount := e.amount
  covered b := (reservedBy_erase_le i b).trans (e.covered b)

/-- Pay a hold out. -/
def settle (i : I) (held : i ∈ e.holds) : Escrow A I where
  balance := Function.update e.balance (e.owner i) (e.balance (e.owner i) - e.amount i)
  holds := e.holds.erase i
  owner := e.owner
  amount := e.amount
  covered b := by
    have covered := e.covered b
    have closed : reservedBy (e.holds.erase i) e.owner e.amount b + _ = _ := reservedBy_erase held b
    rw [Function.update_apply]
    split
    · rename_i same
      rw [same] at covered closed ⊢
      rw [if_pos rfl] at closed
      omega
    · omega

/-- The requests an account book takes. -/
inductive Op (A I : Type) where
  | deposit (a : A) (n : Nat)
  | transfer (a b : A) (n : Nat)
  | hold (i : I) (a : A) (n : Nat)
  | release (i : I)
  | settle (i : I)

/-- Whether a request is accepted, and the book after it. -/
def step : Op A I → Bool × Escrow A I
  | .deposit a n => (true, e.deposit a n)
  | .transfer a b n =>
      if room : e.reserved a + n ≤ e.balance a then (true, (e.withdraw a n room).deposit b n)
      else (false, e)
  | .hold i a n =>
      if guard : i ∉ e.holds ∧ e.reserved a + n ≤ e.balance a then
        (true, e.hold i a n guard.1 guard.2)
      else (false, e)
  | .release i => (decide (i ∈ e.holds), e.release i)
  | .settle i => if held : i ∈ e.holds then (true, e.settle i held) else (false, e)

end Escrow

end CrossShard.Library
