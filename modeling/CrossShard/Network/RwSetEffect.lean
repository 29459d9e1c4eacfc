/-
# Network.RwSetEffect -- the read/write set says what a simulation did to storage

`BuildRwSet` turns the reads and writes of a simulation into one entry for each address; each shard
applies the entries that name it.  Snapshots save and restore reads and writes, but the table of old
values is never restored, so what it says after reverted and repeated writes has to be the value
that every first write saw: the one of the backing state.

* `Remembers`: every write, also a saved one, has an old value, and it is the backing value.
* `mem_writeSetAt`: the items of a write set.
* `rw_set_describes_storage`: the whole set, for every list of calls.
-/
import CrossShard.Orchestrator.LazyFetch
import CrossShard.Shard.Evm

namespace CrossShard.Network

set_option autoImplicit false

open CrossShard.Library CrossShard.Protocol CrossShard.Orchestrator
open CrossShard.Shard (EVMState)

/-! ## Old values -/

/-- The old value recorded for a slot. -/
def oldIn (olds : FMap Address (FMap Hash Hash)) (a : Address) (s : Hash) : Option Hash :=
  (olds.get a).bind fun slots => slots.get s

theorem oldIn_rememberOld (olds : FMap Address (FMap Hash Hash)) (addr a : Address)
    (slot s value : Hash) :
    oldIn (SimulationStateDB.rememberOld olds addr slot value) a s =
      if a = addr ∧ s = slot then some ((oldIn olds addr slot).getD value) else oldIn olds a s := by
  unfold SimulationStateDB.rememberOld oldIn
  dsimp only
  cases known : olds.get addr with
  | none =>
      by_cases here : a = addr
      · subst here
        by_cases own : s = slot <;> simp [own, known]
      · simp [here]
  | some slots =>
      by_cases here : a = addr
      · subst here
        cases found : slots.get slot with
        | none => by_cases own : s = slot <;> simp [own, known, found]
        | some old =>
            by_cases own : s = slot
            · subst own
              simp [found]
            · simp [own, known, found]
      · split <;> simp [here]

/-- Every write, in the current state or in a snapshot, has an old value, and old values are those
of the backing state. -/
structure Remembers (B : Backing) (db : SimulationStateDB) : Prop where
  olds : ∀ a s v, oldIn db.writeOlds a s = some v → v = B.storage a s
  now : ∀ a s, (db.writes.get a s).isSome → (oldIn db.writeOlds a s).isSome
  saved : ∀ snap ∈ db.snapshots, ∀ a s, (snap.writes.get a s).isSome →
    (oldIn db.writeOlds a s).isSome

theorem remembers_start (B : Backing) : Remembers B SimulationStateDB.newSimulationStateDB where
  olds _ _ _ found := by cases found
  now _ _ written := by cases written
  saved := nofun

section Step

variable {W : World} {B : Backing} {db : SimulationStateDB}

theorem writes_getState (addr : Address) (slot : Hash) :
    (db.getState W addr slot).2.writes = db.writes := by
  have fetched : Framed W db (db.getOrFetchAccount W addr).2 :=
    SimulationStateDB.framed_getOrFetchAccount addr
  unfold SimulationStateDB.getState
  split
  · rfl
  · split
    · rfl
    · exact fetched.writes

/-- Calls that touch no slot leave the old values. -/
theorem writeOlds_exec (op : DBOp) (noSlot : op.slot? = none) :
    (db.exec W op).2.writeOlds = db.writeOlds := by
  by_cases plain : op.plain = true
  · exact (SimulationStateDB.untouched_exec op plain).writeOlds
  · cases op with
    | setState addr slot value => cases noSlot
    | revertToSnapshot revid => exact (SimulationStateDB.unsaved_revertToSnapshot revid).writeOlds
    | addRefund _ | subRefund _ | setTransientState _ _ _ | addAddressToAccessList _
    | addSlotToAccessList _ _ | prepare _ _ _ _ _ | snapshot | addLog _ => rfl
    | _ => exact absurd rfl plain

theorem Remembers.keep (remembers : Remembers B db) {db' : SimulationStateDB}
    (olds : db'.writeOlds = db.writeOlds) (writes : db'.writes = db.writes)
    (snapshots : db'.snapshots = db.snapshots) : Remembers B db' := by
  refine ⟨?_, ?_, ?_⟩
  · rw [olds]
    exact remembers.olds
  · rw [olds, writes]
    exact remembers.now
  · rw [olds, snapshots]
    exact remembers.saved

theorem Remembers.getState (remembers : Remembers B db) (addr : Address) (slot : Hash) :
    Remembers B (db.getState W addr slot).2 :=
  have untouched : Untouched db (db.getState W addr slot).2 :=
    SimulationStateDB.untouched_getState addr slot
  remembers.keep untouched.writeOlds (writes_getState addr slot) untouched.snapshots

/-- **A write.**  Without an old value there was no write before, so the value seen is the one of
the backing state. -/
theorem Remembers.setState (remembers : Remembers B db) (serves : W.Serves B) {f : Frames}
    (covers : Covers W f db) (addr : Address) (slot value : Hash) :
    Remembers B (db.setState W addr slot value).2 := by
  obtain ⟨seen, -⟩ := SimulationStateDB.loaded_getState serves covers addr slot
  have olds : ∀ a s, oldIn (db.setState W addr slot value).2.writeOlds a s =
      if a = addr ∧ s = slot then
        some ((oldIn db.writeOlds addr slot).getD (db.getState W addr slot).1)
      else oldIn db.writeOlds a s := by
    intro a s
    have same : (db.getState W addr slot).2.writeOlds = db.writeOlds :=
      (SimulationStateDB.untouched_getState addr slot).writeOlds
    rw [← same]
    exact oldIn_rememberOld _ addr a slot s _
  have kept : ∀ a s, (oldIn db.writeOlds a s).isSome →
      (oldIn (db.setState W addr slot value).2.writeOlds a s).isSome := by
    intro a s known
    rw [olds]
    split
    · rfl
    · exact known
  refine ⟨fun a s v found => ?_, fun a s written => ?_, fun snap member a s written => ?_⟩
  · rw [olds] at found
    split at found
    · rename_i own
      obtain ⟨rfl, rfl⟩ := own
      cases known : oldIn db.writeOlds a s with
      | some old =>
          rw [known] at found
          cases found
          exact remembers.olds a s old known
      | none =>
          rw [known] at found
          cases found
          have unwritten : db.writes.get a s = none := by
            by_contra written
            have old := remembers.now a s (Option.isSome_iff_ne_none.2 written)
            rw [known] at old
            cases old
          simp [seen, SimulationStateDB.loaded, Backing.storageOver, unwritten]
    · exact remembers.olds a s v found
  · have written' : (SlotMap.put (db.getState W addr slot).2.writes addr slot value).get a s
        |>.isSome := written
    rw [SlotMap.get_put, writes_getState] at written'
    split at written'
    · rename_i own
      rw [olds, if_pos own]
      rfl
    · exact kept a s (remembers.now a s written')
  · have member' : snap ∈ (db.getState W addr slot).2.snapshots := member
    rw [(SimulationStateDB.untouched_getState addr slot).snapshots] at member'
    exact kept a s (remembers.saved snap member' a s written)

/-- **One call.** -/
theorem Remembers.exec (remembers : Remembers B db) (serves : W.Serves B) {f : Frames}
    (covers : Covers W f db) (op : DBOp) : Remembers B (db.exec W op).2 := by
  by_cases plain : op.slot? = none ∧ op ≠ .snapshot ∧ ∀ revid, op ≠ .revertToSnapshot revid
  · have framed : Framed W db (db.exec W op).2 :=
      SimulationStateDB.framed_exec op plain.1 plain.2.1 plain.2.2
    exact remembers.keep (writeOlds_exec op plain.1) framed.writes framed.snapshots
  · cases op with
    | snapshot =>
        refine ⟨remembers.olds, remembers.now, fun snap member => ?_⟩
        rcases List.mem_append.1 member with old | new
        · exact remembers.saved snap old
        · rw [List.mem_singleton.1 new]
          exact remembers.now
    | revertToSnapshot revid =>
        show Remembers B (db.revertToSnapshot revid)
        unfold SimulationStateDB.revertToSnapshot
        split
        · exact remembers
        · rename_i snap found
          have member := List.mem_of_getElem? found
          exact ⟨remembers.olds, remembers.saved snap member,
            fun snap' member' => remembers.saved snap' (List.mem_of_mem_take member')⟩
    | getState addr slot => exact remembers.getState addr slot
    | getStateAndCommittedState addr slot => exact remembers.getState addr slot
    | setState addr slot value => exact remembers.setState serves covers addr slot value
    | _ => exact absurd ⟨rfl, by simp, by simp⟩ plain

end Step

/-- **All calls.** -/
theorem remembers_answered {W : World} {B : Backing} (serves : W.Serves B) (ops : List DBOp) :
    ∃ f, Covers W f (answered (SimulationStateDB.exec W)
        SimulationStateDB.newSimulationStateDB ops) ∧
      Remembers B (answered (SimulationStateDB.exec W)
        SimulationStateDB.newSimulationStateDB ops) := by
  refine answered_invariant (fun db => ∃ f, Covers W f db ∧ Remembers B db) ?_
    ⟨_, covers_start W, remembers_start B⟩ ops
  rintro db op ⟨f, covers, remembers⟩
  exact ⟨_, covers.step op, remembers.exec serves covers op⟩

/-! ## The set -/

section Set

variable {W : World} {B : Backing} {db : SimulationStateDB}

theorem mem_writeSetAt {addr : Address} {item : WriteSetItem} :
    item ∈ db.writeSetAt addr ↔ ∃ value, db.writes.get addr item.slot = some value ∧
      item.oldValue = hashBytes (db.oldValueAt addr item.slot) ∧ item.newValue = hashBytes value := by
  rw [SimulationStateDB.writeSetAt, List.mem_map]
  constructor
  · rintro ⟨e, listed, rfl⟩
    exact ⟨e.2, SlotMap.mem_entries.1 listed, rfl, rfl⟩
  · rintro ⟨value, written, old, new⟩
    exact ⟨⟨item.slot, value⟩, SlotMap.mem_entries.2 written, by rw [← old, ← new]⟩

theorem mem_touched_of_written {addr : Address} {slot value : Hash}
    (written : db.writes.get addr slot = some value) : addr ∈ db.touched := by
  obtain ⟨slots, found, -⟩ := Option.bind_eq_some_iff.1 written
  exact List.mem_dedup.2 (List.mem_append_left _ (List.mem_append_right _
    (mem_of_lookup_eq_some found)))

theorem oldValueAt_of_written (remembers : Remembers B db) {a : Address} {s : Hash}
    (written : (db.writes.get a s).isSome) : db.oldValueAt a s = B.storage a s := by
  obtain ⟨old, known⟩ := Option.isSome_iff_exists.1 (remembers.now a s written)
  have value : db.oldValueAt a s = old := by
    show (oldIn db.writeOlds a s).getD 0 = old
    rw [known]
    rfl
  rw [value]
  exact remembers.olds a s old known

theorem nodup_readSlots (addr : Address) : ((db.readSetAt addr).map (·.slot)).Nodup := by
  rw [SimulationStateDB.readSetAt, List.map_map]
  exact ((db.reads.lookup addr).getD ∅).keys_nodup

theorem nodup_writeSlots (addr : Address) : ((db.writeSetAt addr).map (·.slot)).Nodup := by
  rw [SimulationStateDB.writeSetAt, List.map_map]
  exact ((db.writes.lookup addr).getD ∅).keys_nodup

/-- The entries that shard `k` applies are its own addresses with their writes. -/
theorem mem_entriesOf {f : Frames} (covers : Covers W f db) {k : Int} {rw : RwVariable}
    (member : rw ∈ (db.buildRwSet W).filter fun rw => rw.referenceBlock.shardNum = k) :
    W.addressToShard rw.address = k ∧ rw.writeSet = db.writeSetAt rw.address := by
  obtain ⟨listed, own⟩ := List.mem_filter.1 member
  obtain ⟨addr, -, rfl⟩ := List.mem_map.1 listed
  refine ⟨?_, rfl⟩
  rw [← covers.shardOfEntry addr]
  simpa using own

/-- What shard `k` writes to a slot. -/
theorem lastWrite_entriesOf {f : Frames} (covers : Covers W f db) (k : Int) (a : Address)
    (s : Hash) :
    EVMState.lastWrite ((db.buildRwSet W).filter fun rw => rw.referenceBlock.shardNum = k) a s =
      if W.addressToShard a = k then db.writes.get a s else none := by
  split
  · rename_i home
    cases written : db.writes.get a s with
    | none =>
        refine EVMState.lastWrite_eq_none fun rw member w listed named => ?_
        rw [(mem_entriesOf covers member).2, ← named.1] at listed
        obtain ⟨value, found, -⟩ := mem_writeSetAt.1 listed
        rw [← named.2, written] at found
        cases found
    | some value =>
        refine EVMState.lastWrite_eq_some ?_ fun rw member w listed here slot => ?_
        · refine ⟨⟨a, ⟨db.shardOfEntry W a⟩, db.readSetAt a, db.writeSetAt a⟩, ?_,
            ⟨s, hashBytes (db.oldValueAt a s), hashBytes value⟩, ?_, rfl, rfl⟩
          · refine List.mem_filter.2 ⟨List.mem_map.2 ⟨a, mem_touched_of_written written, rfl⟩, ?_⟩
            simpa [covers.shardOfEntry a] using home
          · exact mem_writeSetAt.2 ⟨value, written, rfl, rfl⟩
        · rw [(mem_entriesOf covers member).2, ← here] at listed
          obtain ⟨value', found, -, new⟩ := mem_writeSetAt.1 listed
          rw [← slot, written] at found
          cases found
          rw [new, bytesToHash_hashBytes]
  · rename_i foreign
    refine EVMState.lastWrite_eq_none fun rw member w _ named => foreign ?_
    rw [named.1]
    exact (mem_entriesOf covers member).1

end Set

/-- What `BuildRwSet` says about one address is true of the backing state. -/
structure Accurate (W : World) (B : Backing) (rw : RwVariable) : Prop where
  shard : rw.referenceBlock.shardNum = W.addressToShard rw.address
  readSlots : (rw.readSet.map (·.slot)).Nodup
  writeSlots : (rw.writeSet.map (·.slot)).Nodup
  readFirst : ∀ w ∈ rw.writeSet, ∃ r ∈ rw.readSet, r.slot = w.slot
  readValues : ∀ r ∈ rw.readSet, r.value = hashBytes (B.storage rw.address r.slot)
  oldValues : ∀ w ∈ rw.writeSet, w.oldValue = hashBytes (B.storage rw.address w.slot)

/-- **The read/write set describes the storage effect.**  After any calls, each address has at most
one entry, and every entry is accurate.  If a shard whose storage is that of the backing state
applies the entries that name it, each of its addresses has exactly the storage that `GetState`
shows at the end of the simulation, and no other address changes. -/
theorem rw_set_describes_storage (W : World) (B : Backing) (serves : W.Serves B)
    (ops : List DBOp) :
    let db := answered (SimulationStateDB.exec W) SimulationStateDB.newSimulationStateDB ops
    ((db.buildRwSet W).map (·.address)).Nodup ∧ (∀ rw ∈ db.buildRwSet W, Accurate W B rw) ∧
      ∀ (k : Int) (e : EVMState),
        (∀ a s, W.addressToShard a = k → e.storage a s = B.storage a s) →
        ∀ a s, (e.applyWriteSet ((db.buildRwSet W).filter
            fun rw => rw.referenceBlock.shardNum = k)).storage a s =
          if W.addressToShard a = k then (db.getState W a s).1 else e.storage a s := by
  intro db
  obtain ⟨f, covers, remembers⟩ : ∃ f, Covers W f db ∧ Remembers B db :=
    remembers_answered serves ops
  refine ⟨?_, fun rw member => ?_, fun k e backed a s => ?_⟩
  · have addresses : (db.buildRwSet W).map (·.address) = db.touched := by
      rw [SimulationStateDB.buildRwSet, List.map_map]
      exact List.map_id _
    rw [addresses]
    exact List.nodup_dedup _
  · obtain ⟨addr, -, rfl⟩ := List.mem_map.1 member
    refine ⟨covers.shardOfEntry addr, nodup_readSlots addr, nodup_writeSlots addr,
      fun w listed => ?_, fun r listed => ?_, fun w listed => ?_⟩
    · obtain ⟨value, written, -⟩ := mem_writeSetAt.1 listed
      obtain ⟨seen, known⟩ := Option.isSome_iff_exists.1
        (covers.now.readFirst addr w.slot (Option.isSome_of_eq_some written))
      exact ⟨⟨w.slot, hashBytes seen⟩, mem_readSetAt.2 ⟨seen, known, rfl⟩, rfl⟩
    · obtain ⟨value, known, text⟩ := mem_readSetAt.1 listed
      rw [text, covers.now.genuine addr r.slot value known, serves.storage_eq]
    · obtain ⟨value, written, old, -⟩ := mem_writeSetAt.1 listed
      rw [old, oldValueAt_of_written remembers (Option.isSome_of_eq_some written)]
  · rw [EVMState.storage_applyWriteSet, lastWrite_entriesOf covers]
    split
    · rename_i home
      rw [(SimulationStateDB.loaded_getState serves covers a s).1, backed a s home]
      rfl
    · rfl

namespace RwSetEffectPole

open LazyFetchPole

/-- A write that is reverted, the same slot written again, and a write in a frame that stays. -/
def rewrites : List DBOp :=
  [.snapshot, .setState pot 0 9, .revertToSnapshot 0, .setState pot 0 11, .snapshot,
    .setState pot 1 12]

def shard : EVMState := ⟨fun _ => 0, fun _ _ => 7, fun _ => []⟩

end RwSetEffectPole

open LazyFetchPole RwSetEffectPole in
/-- The old value of the slot written twice is the one of the backing state. -/
theorem rewritten_slot_applied :
    let db := answered (SimulationStateDB.exec world) SimulationStateDB.newSimulationStateDB rewrites
    (∀ rw ∈ db.buildRwSet world, ∀ w ∈ rw.writeSet, w.oldValue = hashBytes 7) ∧
      (shard.applyWriteSet ((db.buildRwSet world).filter
        fun rw => rw.referenceBlock.shardNum = 0)).storage pot 0 = 11 := by
  intro db
  obtain ⟨-, accurate, applied⟩ := rw_set_describes_storage world full
    ⟨fun _ => rfl, fun _ _ => rfl⟩ rewrites
  refine ⟨fun rw member w listed => (accurate rw member).oldValues w listed, ?_⟩
  refine (applied 0 shard (fun _ _ _ => rfl) pot 0).trans ?_
  decide +kernel

end CrossShard.Network
