/-
# Orchestrator.AccessLists -- the access list is a set of addresses and a set of slots

An `accessList` keeps a table from addresses to indices of a growing slice of slot sets; the
index -1 stands for an address without slots and is replaced when the first slot arrives.  An
index shared by two addresses would mix their slots, and one out of range would panic.

* `Represents calls al`: the table is well indexed, and holds what the calls named.
* `Represents.step`: each call keeps this, whatever branch it takes.
* `access_list_is_a_set`: hence what a list answers, for every sequence of calls.
-/
import CrossShard.Library.Run
import CrossShard.Orchestrator.StateDB

namespace CrossShard.Orchestrator

set_option autoImplicit false

open CrossShard.Library CrossShard.Protocol

namespace AccessList

/-! ## Calls -/

/-- A call that adds to an access list. -/
inductive Call where
  | addAddress (addr : Address)
  | addSlot (addr : Address) (slot : Hash)
  deriving DecidableEq

/-- What such a call returns. -/
inductive Added where
  | address (new : Bool)
  | slot (newAddress newSlot : Bool)
  deriving DecidableEq

def Call.addr : Call → Address
  | addAddress addr => addr
  | addSlot addr _ => addr

def exec (al : AccessList) : Call → Added × AccessList
  | .addAddress addr => let (new, al₁) := al.addAddress addr; (.address new, al₁)
  | .addSlot addr slot => let (new, al₁) := al.addSlot addr slot; (.slot new.1 new.2, al₁)

/-- The calls name the address. -/
def Named (calls : List Call) (addr : Address) : Prop := ∃ c ∈ calls, c.addr = addr

instance (calls : List Call) (addr : Address) : Decidable (Named calls addr) :=
  inferInstanceAs (Decidable (∃ c ∈ calls, c.addr = addr))

theorem named_concat {calls : List Call} {c : Call} {addr : Address} :
    Named (calls ++ [c]) addr ↔ Named calls addr ∨ c.addr = addr := by
  simp [Named, or_and_right, exists_or]

theorem Named.of_slot {calls : List Call} {addr : Address} {slot : Hash}
    (given : .addSlot addr slot ∈ calls) : Named calls addr :=
  ⟨_, given, rfl⟩

/-! ## Reading the table -/

/-- The slots an address points to; none for the index -1. -/
def slotsOf (al : AccessList) (addr : Address) : FMap Hash Unit :=
  match al.addresses.get addr with
  | none => ∅
  | some idx => if idx = -1 then ∅ else al.slotsAt idx

theorem contains_eq (al : AccessList) (addr : Address) (slot : Hash) :
    al.contains addr slot = (al.containsAddress addr, ((al.slotsOf addr).get slot).isSome) := by
  unfold contains containsAddress slotsOf
  split
  · simp [*]
  · rename_i idx found
    rw [found]
    by_cases bare : idx = -1
    · simp [bare]
    · simp [bare]

theorem slotsAt_append {al : AccessList} {idx : Int} (more : List (FMap Hash Unit))
    (low : 0 ≤ idx) (high : idx < al.slots.length) (addresses : FMap Address Int) :
    (AccessList.mk addresses (al.slots ++ more)).slotsAt idx = al.slotsAt idx := by
  unfold slotsAt
  rw [List.getElem?_append_left (by omega)]

theorem slotsAt_set {al : AccessList} {idx other : Int} (slots : FMap Hash Unit) (low : 0 ≤ idx)
    (high : idx < al.slots.length) (low' : 0 ≤ other) (addresses : FMap Address Int) :
    (AccessList.mk addresses (al.slots.set idx.toNat slots)).slotsAt other =
      if other = idx then slots else al.slotsAt other := by
  unfold slotsAt
  by_cases same : other = idx
  · subst same
    rw [List.getElem?_set_self (by omega), if_pos rfl, Option.getD_some]
  · rw [List.getElem?_set_ne (by omega), if_neg same]

/-! ## The invariant -/

/-- `al` is what the calls have built. -/
structure Represents (calls : List Call) (al : AccessList) : Prop where
  inRange : ∀ a idx, al.addresses.get a = some idx → idx ≠ -1 → 0 ≤ idx ∧ idx < al.slots.length
  distinct : ∀ a b idx, al.addresses.get a = some idx → al.addresses.get b = some idx →
    idx ≠ -1 → a = b
  addresses : ∀ a, al.containsAddress a = true ↔ Named calls a
  slots : ∀ a s, ((al.slotsOf a).get s).isSome ↔ .addSlot a s ∈ calls

theorem represents_new : Represents [] newAccessList where
  inRange a idx found := by simp [newAccessList] at found
  distinct a b idx found := by simp [newAccessList] at found
  addresses a := by simp [newAccessList, containsAddress, Named]
  slots a s := by simp [newAccessList, slotsOf]

section Step

variable {calls : List Call} {al : AccessList}

/-- A call whose address and slot are in the table already. -/
theorem Represents.old (built : Represents calls al) {c : Call} (named : Named calls c.addr)
    (given : ∀ a s, c = .addSlot a s → .addSlot a s ∈ calls) : Represents (calls ++ [c]) al := by
  refine ⟨built.inRange, built.distinct, fun a => ?_, fun a s => ?_⟩
  · rw [built.addresses, named_concat]
    exact ⟨.inl, fun either => either.elim id fun own => own ▸ named⟩
  · rw [built.slots, List.mem_append, List.mem_singleton]
    exact ⟨.inl, fun either => either.elim id fun own => given a s own.symm⟩

/-- The address of a call enters the table. -/
theorem Represents.addresses_set (built : Represents calls al) {c : Call} {al' : AccessList}
    {idx : Int} (set : al'.addresses = al.addresses.set c.addr idx) (a : Address) :
    al'.containsAddress a = true ↔ Named (calls ++ [c]) a := by
  have before := built.addresses a
  unfold containsAddress at before ⊢
  rw [set, FMap.get_set, named_concat, ← before]
  by_cases own : a = c.addr
  · simp [own]
  · simp [own, Ne.symm own]

/-- A slot joins the slots of its address. -/
theorem Represents.slots_concat (built : Represents calls al) {al' : AccessList} {addr : Address}
    {slot : Hash} (own : al'.slotsOf addr = (al.slotsOf addr).set slot ())
    (others : ∀ a, a ≠ addr → al'.slotsOf a = al.slotsOf a) (a : Address) (s : Hash) :
    ((al'.slotsOf a).get s).isSome ↔ .addSlot a s ∈ calls ++ [.addSlot addr slot] := by
  rw [List.mem_append, ← built.slots, List.mem_singleton, Call.addSlot.injEq]
  by_cases same : a = addr
  · subst same
    rw [own]
    by_cases here : s = slot <;> simp [here]
  · rw [others a same]
    simp [same]

theorem Represents.newAddress (built : Represents calls al) {addr : Address}
    (absent : al.addresses.get addr = none) :
    Represents (calls ++ [.addAddress addr])
      { al with addresses := al.addresses.set addr (-1) } := by
  refine ⟨fun a idx found bare => ?_, fun a b idx found found' bare => ?_,
    built.addresses_set rfl, fun a s => ?_⟩
  · rw [FMap.get_set] at found
    split at found
    · cases found
      exact absurd rfl bare
    · exact built.inRange a idx found bare
  · rw [FMap.get_set] at found found'
    split at found
    · cases found
      exact absurd rfl bare
    · split at found'
      · cases found'
        exact absurd rfl bare
      · exact built.distinct a b idx found found' bare
  · have same : (slotsOf { al with addresses := al.addresses.set addr (-1) } a) = al.slotsOf a := by
      unfold slotsOf
      rw [FMap.get_set]
      by_cases own : a = addr
      · simp [own, absent]
      · simp only [own, if_false]
        rfl
    rw [same, built.slots a s]
    simp

/-- Another address keeps its slots when a set is appended. -/
theorem Represents.slotsOf_addFirstSlot (built : Represents calls al) {addr a : Address}
    (other : a ≠ addr) (slot : Hash) : (al.addFirstSlot addr slot).slotsOf a = al.slotsOf a := by
  unfold slotsOf
  simp only [addFirstSlot, FMap.get_set, other, if_false]
  cases found : al.addresses.get a with
  | none => rfl
  | some idx =>
      by_cases minus : idx = -1
      · simp [minus]
      · obtain ⟨low, high⟩ := built.inRange a idx found minus
        simp only [minus, if_false]
        exact slotsAt_append _ low high _

/-- The first slot of an address gets an index of its own. -/
theorem Represents.firstSlot (built : Represents calls al) {addr : Address}
    (bare : al.addresses.get addr = none ∨ al.addresses.get addr = some (-1)) (slot : Hash) :
    Represents (calls ++ [.addSlot addr slot]) (al.addFirstSlot addr slot) := by
  have fresh : ∀ a, al.addresses.get a ≠ some (al.slots.length : Int) := by
    intro a found
    have := built.inRange a _ found (by omega)
    omega
  have own : (al.addFirstSlot addr slot).slotsOf addr = (al.slotsOf addr).set slot () := by
    have before : al.slotsOf addr = ∅ := by
      unfold slotsOf
      rcases bare with none | minus
      · rw [none]
      · rw [minus]
        rfl
    rw [before]
    simp [slotsOf, addFirstSlot, slotsAt, show ((al.slots.length : Int) ≠ -1) by omega]
  refine ⟨fun a idx found bare' => ?_, fun a b idx found found' bare' => ?_,
    built.addresses_set rfl,
    built.slots_concat own fun a other => built.slotsOf_addFirstSlot other slot⟩
  · simp only [addFirstSlot, FMap.get_set, List.length_append, List.length_singleton] at found ⊢
    split at found
    · cases found
      omega
    · have := built.inRange a idx found bare'
      omega
  · simp only [addFirstSlot, FMap.get_set] at found found'
    split at found
    · rename_i own
      cases found
      split at found'
      · rename_i own'
        rw [own, own']
      · exact absurd found' (fresh b)
    · split at found'
      · cases found'
        exact absurd found (fresh a)
      · exact built.distinct a b idx found found' bare'

/-- Another address keeps its slots when a set is replaced, as it points elsewhere. -/
theorem Represents.slotsOf_set (built : Represents calls al) {addr a : Address} {idx : Int}
    (found : al.addresses.get addr = some idx) (pointed : idx ≠ -1) (other : a ≠ addr)
    (slots : FMap Hash Unit) :
    slotsOf { al with slots := al.slots.set idx.toNat slots } a = al.slotsOf a := by
  obtain ⟨low, high⟩ := built.inRange addr idx found pointed
  unfold slotsOf
  dsimp only
  cases at_a : al.addresses.get a with
  | none => rfl
  | some i =>
      by_cases minus : i = -1
      · simp [minus]
      · have apart : i ≠ idx := by
          rintro rfl
          exact other (built.distinct a addr i at_a found minus)
        simp only [minus, if_false]
        rw [slotsAt_set _ low high (built.inRange a i at_a minus).1, if_neg apart]

/-- A further slot joins the set of its address, which no other address points to. -/
theorem Represents.nextSlot (built : Represents calls al) {addr : Address} {idx : Int}
    (found : al.addresses.get addr = some idx) (pointed : idx ≠ -1) (slot : Hash) :
    Represents (calls ++ [.addSlot addr slot])
      { al with slots := al.slots.set idx.toNat ((al.slotsAt idx).set slot ()) } := by
  obtain ⟨low, high⟩ := built.inRange addr idx found pointed
  have known : Named calls addr := (built.addresses addr).1 (by simp [containsAddress, found])
  have own : slotsOf { al with
      slots := al.slots.set idx.toNat ((al.slotsAt idx).set slot ()) } addr =
      (al.slotsOf addr).set slot () := by
    simp only [slotsOf, found, pointed, if_false]
    rw [slotsAt_set _ low high low, if_pos rfl]
  refine ⟨fun a i at_a minus => ?_, built.distinct, fun a => ?_,
    built.slots_concat own fun a other => built.slotsOf_set found pointed other _⟩
  · rw [List.length_set]
    exact built.inRange a i at_a minus
  · show al.containsAddress a = true ↔ _
    rw [named_concat, built.addresses a]
    exact ⟨.inl, fun either => either.elim id fun own => own ▸ known⟩

/-- **One call.** -/
theorem Represents.step (built : Represents calls al) (c : Call) :
    Represents (calls ++ [c]) (al.exec c).2 := by
  cases c with
  | addAddress addr =>
      show Represents _ (al.addAddress addr).2
      unfold addAddress
      split
      · rename_i present
        exact built.old ((built.addresses addr).1 present) (by rintro a s ⟨⟩)
      · rename_i absent
        exact built.newAddress (by simpa using absent)
  | addSlot addr slot =>
      show Represents _ (al.addSlot addr slot).2
      unfold addSlot
      split
      · rename_i absent
        exact built.firstSlot (.inl absent) slot
      · rename_i idx found
        split
        · rename_i minus
          exact built.firstSlot (.inr (minus ▸ found)) slot
        · rename_i pointed
          split
          · rename_i present
            have given : .addSlot addr slot ∈ calls :=
              (built.slots addr slot).1 (by simpa [slotsOf, found, pointed] using present)
            refine built.old (.of_slot given) ?_
            rintro a s ⟨⟩
            exact given
          · exact built.nextSlot found pointed slot

end Step

/-- **All calls.** -/
theorem represents_answered (calls : List Call) :
    Represents calls (answered exec newAccessList calls) :=
  answered_history Represents (fun _ _ c built => built.step c) represents_new calls

/-! ## What the calls return -/

theorem Represents.exec_addAddress {calls : List Call} {al : AccessList}
    (built : Represents calls al) (addr : Address) :
    (al.exec (.addAddress addr)).1 = .address (decide (¬Named calls addr)) := by
  have named := built.addresses addr
  show Added.address (al.addAddress addr).1 = _
  unfold addAddress
  unfold containsAddress at named
  split
  · rename_i present
    simp [named.1 present]
  · rename_i absent
    have : ¬Named calls addr := fun known => absent (named.2 known)
    simp [this]

theorem Represents.exec_addSlot {calls : List Call} {al : AccessList}
    (built : Represents calls al) (addr : Address) (slot : Hash) :
    (al.exec (.addSlot addr slot)).1 =
      .slot (decide (¬Named calls addr)) (decide (.addSlot addr slot ∉ calls)) := by
  have named := built.addresses addr
  have given := built.slots addr slot
  show Added.slot (al.addSlot addr slot).1.1 (al.addSlot addr slot).1.2 = _
  unfold addSlot
  unfold containsAddress at named
  unfold slotsOf at given
  cases found : al.addresses.get addr with
  | none =>
      rw [found] at named given
      have unnamed : ¬Named calls addr := fun known => absurd (named.2 known) (by simp)
      have new : .addSlot addr slot ∉ calls := fun old => unnamed (.of_slot old)
      simp [unnamed, new]
  | some idx =>
      rw [found] at named given
      have known : Named calls addr := named.1 rfl
      by_cases minus : idx = -1
      · have new : .addSlot addr slot ∉ calls := fun old => by
          have := given.2 old
          simp [minus] at this
        simp [minus, known, new]
      · simp only [minus, if_false] at given ⊢
        by_cases present : ((al.slotsAt idx).get slot).isSome
        · simp [present, known, given.1 present]
        · have new : .addSlot addr slot ∉ calls := fun old => present (given.2 old)
          simp [present, known, new]

end AccessList

open AccessList in
/-- **The access list is a set of addresses and a set of slots.**  After any calls every index is -1
or in range and belongs to one address; `Contains` reports what was named and what was given;
and the next call returns `true` exactly for what was not there. -/
theorem access_list_is_a_set (calls : List Call) :
    let al := answered AccessList.exec newAccessList calls
    (∀ a idx, al.addresses.get a = some idx → idx = -1 ∨ 0 ≤ idx ∧ idx < al.slots.length) ∧
      (∀ a b idx, al.addresses.get a = some idx → al.addresses.get b = some idx → idx ≠ -1 →
        a = b) ∧
      (∀ a, al.containsAddress a = decide (Named calls a)) ∧
      (∀ a s, al.contains a s = (decide (Named calls a), decide (.addSlot a s ∈ calls))) ∧
      (∀ a, (al.exec (.addAddress a)).1 = .address (decide (¬Named calls a))) ∧
      ∀ a s, (al.exec (.addSlot a s)).1 =
        .slot (decide (¬Named calls a)) (decide (.addSlot a s ∉ calls)) := by
  intro al
  have built : Represents calls al := represents_answered calls
  have addresses : ∀ a, al.containsAddress a = decide (Named calls a) := fun a => by
    rw [Bool.eq_iff_iff, built.addresses a, decide_eq_true_iff]
  refine ⟨fun a idx found => ?_, built.distinct, addresses, fun a s => ?_,
    built.exec_addAddress, built.exec_addSlot⟩
  · by_cases minus : idx = -1
    · exact .inl minus
    · exact .inr (built.inRange a idx found minus)
  · rw [contains_eq, addresses a, Prod.mk.injEq]
    refine ⟨rfl, ?_⟩
    rw [Bool.eq_iff_iff, built.slots a s, decide_eq_true_iff]

end CrossShard.Orchestrator
