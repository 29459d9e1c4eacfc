/-
# Shard.Tracking -- the write log of a tracked execution against the storage it leaves

`internal/shard/tracking_statedb.go`.  `TrackingStateDB` wraps the `StateDB` of the virtual machine
library and keeps its own tables of the slots read and written.  `Snapshot` and `RevertToSnapshot`
are passed on to the wrapped state; the tables are never reverted.  `handleDeploy` forwards the
table of writes to the shard that owns the new contract, and `BuildRwSet` reports it as write sets.

The wrapped state is a storage with revisions that restores exactly what was saved; reverting to a
number that is not saved panics, which is a refused step.

* `tracked`: the table of writes holds the last write of each slot, reverted or not.
* `stored`: the storage holds what the surviving writes left.
* `tracked_writes_are_net_iff`: when the two agree, for the table, the write sets and the storage
  forwarded to the owning shard.
-/
import CrossShard.Library.Revisions
import CrossShard.Library.Run
import CrossShard.Orchestrator.StateDB
import CrossShard.Shard.Server

namespace CrossShard.Shard

set_option autoImplicit false

open CrossShard.Library CrossShard.Protocol
open CrossShard.Orchestrator (SlotMap)

/-! ## The wrapped state -/

abbrev Storage := Address → Hash → Hash

def Storage.put (m : Storage) (addr : Address) (slot value : Hash) : Storage :=
  fun a s => if a = addr ∧ s = slot then value else m a s

/-- The wrapped state as far as storage goes: its present content with the open revisions, and the
content at the start of the transaction. -/
structure StateDB where
  storage : Revisions Storage
  committed : Storage

namespace StateDB

def getState (db : StateDB) (addr : Address) (slot : Hash) : Hash := db.storage.current addr slot

def getCommittedState (db : StateDB) (addr : Address) (slot : Hash) : Hash := db.committed addr slot

/-- Returns the value before. -/
def setState (db : StateDB) (addr : Address) (slot value : Hash) : Hash × StateDB :=
  (db.getState addr slot,
    { db with storage := db.storage.modify fun m => m.put addr slot value })

def snapshot (db : StateDB) : Nat × StateDB :=
  (db.storage.snapshot.1, { db with storage := db.storage.snapshot.2 })

def revertToSnapshot (db : StateDB) (revid : Nat) : Option StateDB :=
  (db.storage.revertTo revid).map fun storage => { db with storage := storage }

end StateDB

/-! ## The wrapper -/

structure TrackingStateDB where
  inner : StateDB
  accessedAddrs : FMap Address Unit
  storageReads : SlotMap
  storageWrites : SlotMap

namespace TrackingStateDB

def newTrackingStateDB (inner : StateDB) : TrackingStateDB := ⟨inner, ∅, ∅, ∅⟩

def recordAccess (t : TrackingStateDB) (addr : Address) : TrackingStateDB :=
  { t with accessedAddrs := t.accessedAddrs.set addr () }

/-- Only the first value read from a slot is kept. -/
def recordRead (t : TrackingStateDB) (addr : Address) (slot value : Hash) : TrackingStateDB :=
  match t.storageReads.get addr slot with
  | some _ => t
  | none => { t with storageReads := t.storageReads.put addr slot value }

def getCommittedState (t : TrackingStateDB) (addr : Address) (slot : Hash) :
    Hash × TrackingStateDB :=
  (t.inner.getCommittedState addr slot, t.recordAccess addr)

def getState (t : TrackingStateDB) (addr : Address) (slot : Hash) : Hash × TrackingStateDB :=
  let value := t.inner.getState addr slot
  (value, (t.recordAccess addr).recordRead addr slot value)

def getStateAndCommittedState (t : TrackingStateDB) (addr : Address) (slot : Hash) :
    (Hash × Hash) × TrackingStateDB :=
  let value := t.inner.getState addr slot
  ((value, t.inner.getCommittedState addr slot), (t.recordAccess addr).recordRead addr slot value)

def setState (t : TrackingStateDB) (addr : Address) (key value : Hash) : Hash × TrackingStateDB :=
  let t₁ := (t.recordAccess addr).recordRead addr key (t.inner.getState addr key)
  let (prev, inner) := t.inner.setState addr key value
  (prev, { t₁ with storageWrites := t.storageWrites.put addr key value, inner := inner })

def snapshot (t : TrackingStateDB) : Nat × TrackingStateDB :=
  (t.inner.snapshot.1, { t with inner := t.inner.snapshot.2 })

def revertToSnapshot (t : TrackingStateDB) (revid : Nat) : Option TrackingStateDB :=
  (t.inner.revertToSnapshot revid).map fun inner => { t with inner := inner }

/-- `none` is the nil map. -/
def getStorageWritesForAddress (t : TrackingStateDB) (addr : Address) :
    Option (AList fun _ : Hash => Hash) :=
  t.storageWrites.lookup addr

def readSetAt (t : TrackingStateDB) (addr : Address) : List ReadSetItem :=
  ((t.storageReads.lookup addr).getD ∅).entries.map fun e => ⟨e.1, hashBytes e.2⟩

def writeSetAt (t : TrackingStateDB) (addr : Address) : List WriteSetItem :=
  ((t.storageWrites.lookup addr).getD ∅).entries.map fun e =>
    ⟨e.1, hashBytes ((t.storageReads.get addr e.1).getD 0), hashBytes e.2⟩

def buildRwSet (t : TrackingStateDB) (refBlock : Reference) : List RwVariable :=
  (t.storageReads.keys ++ t.storageWrites.keys).dedup.map fun addr =>
    ⟨addr, refBlock, t.readSetAt addr, t.writeSetAt addr⟩

end TrackingStateDB

/-- The storage reads and writes of an execution. -/
inductive TrackOp where
  | getState (addr : Address) (slot : Hash)
  | getCommittedState (addr : Address) (slot : Hash)
  | getStateAndCommittedState (addr : Address) (slot : Hash)
  | setState (addr : Address) (key value : Hash)
  | snapshot
  | revertToSnapshot (revid : Nat)

def TrackingStateDB.step (t : TrackingStateDB) : TrackOp → Option TrackingStateDB
  | .getState addr slot => some (t.getState addr slot).2
  | .getCommittedState addr slot => some (t.getCommittedState addr slot).2
  | .getStateAndCommittedState addr slot => some (t.getStateAndCommittedState addr slot).2
  | .setState addr key value => some (t.setState addr key value).2
  | .snapshot => some t.snapshot.2
  | .revertToSnapshot revid => t.revertToSnapshot revid

/-! ## Forwarding -/

structure SetCodeRequest where
  address : Address
  code : Bytes
  storage : AList fun _ : Hash => Hash

/-- The request that `handleDeploy` sends to the owner of the contract. -/
def forwardRequest (t : TrackingStateDB) (contractAddr : Address) (deployedCode : Bytes) :
    SetCodeRequest :=
  ⟨contractAddr, deployedCode, (t.getStorageWritesForAddress contractAddr).getD ∅⟩

def EVMState.setCode (e : EVMState) (addr : Address) (code : Bytes) : EVMState :=
  { e with code := Function.update e.code addr code }

/-- The loop of `handleSetCode` over the storage of the request. -/
def EVMState.setSlots (e : EVMState) (addr : Address) (slots : List (Σ _ : Hash, Hash)) :
    EVMState :=
  slots.foldl (fun e item => e.setStorageAt addr item.1 item.2) e

/-- `none` refuses an address that belongs to another shard. -/
def handleSetCode (shardID : Int) (e : EVMState) (req : SetCodeRequest) : Option EVMState :=
  if shardOf req.address ≠ shardID then none
  else some ((e.setCode req.address req.code).setSlots req.address req.storage.entries)

theorem EVMState.storage_setSlots (addr : Address) (s : Hash) (slots : List (Σ _ : Hash, Hash))
    (e : EVMState) (distinct : slots.NodupKeys) :
    (e.setSlots addr slots).storage addr s = (slots.dlookup s).getD (e.storage addr s) := by
  induction slots generalizing e with
  | nil => rfl
  | cons item slots ih =>
      obtain ⟨slot, value⟩ := item
      obtain ⟨new, rest⟩ := List.nodupKeys_cons.1 distinct
      have later := ih (e.setStorageAt addr slot value) rest
      rw [storage_setStorageAt] at later
      refine later.trans ?_
      by_cases here : s = slot
      · subst here
        rw [List.dlookup_cons_eq, List.dlookup_eq_none.2 new, if_pos ⟨rfl, rfl⟩]
        rfl
      · rw [List.dlookup_cons_ne _ _ here, if_neg fun both => here both.2]

/-! ## All writes and the surviving ones -/

structure Write where
  addr : Address
  slot : Hash
  value : Hash

/-- The last write to a slot. -/
def lastOf (ws : List Write) (a : Address) (s : Hash) : Option Hash :=
  ws.foldl (fun found w => if a = w.addr ∧ s = w.slot then some w.value else found) none

theorem lastOf_concat (ws : List Write) (w : Write) (a : Address) (s : Hash) :
    lastOf (ws ++ [w]) a s =
      if a = w.addr ∧ s = w.slot then some w.value else lastOf ws a s := by
  simp only [lastOf, List.foldl_append, List.foldl_cons, List.foldl_nil]

theorem lastOf_eq_none {ws : List Write} {a : Address} {s : Hash} :
    lastOf ws a s = none ↔ ∀ w ∈ ws, ¬(a = w.addr ∧ s = w.slot) := by
  induction ws using List.reverseRecOn with
  | nil => simp [lastOf]
  | append_singleton ws w ih =>
      rw [lastOf_concat]
      by_cases here : a = w.addr ∧ s = w.slot
      · simp [here]
      · rw [if_neg here, ih]
        simp only [List.mem_append, List.mem_singleton, or_imp, forall_and, forall_eq, here,
          not_false_eq_true, and_true]

def TrackOp.write? : TrackOp → Option Write
  | .setState addr key value => some ⟨addr, key, value⟩
  | _ => none

/-- All writes, also those in reverted calls. -/
def writesOf (ops : List TrackOp) : List Write := ops.filterMap TrackOp.write?

/-- The list of writes as a value with revisions. -/
def logStep (log : Revisions (List Write)) : TrackOp → Option (Revisions (List Write))
  | .setState addr key value => some (log.modify (· ++ [⟨addr, key, value⟩]))
  | .snapshot => some log.snapshot.2
  | .revertToSnapshot revid => log.revertTo revid
  | _ => some log

/-- The writes that no revert took back, where snapshots are numbered from `next`. -/
def survivingWrites (next : Nat) (ops : List TrackOp) : List Write :=
  match run logStep (.start [] next) ops with
  | some log => log.current
  | none => []

/-- A storage with writes made on it. -/
def overlay (initial : Storage) (ws : List Write) : Storage :=
  fun a s => (lastOf ws a s).getD (initial a s)

theorem overlay_concat (initial : Storage) (ws : List Write) (w : Write) :
    overlay initial (ws ++ [w]) = (overlay initial ws).put w.addr w.slot w.value := by
  funext a s
  simp only [overlay, lastOf_concat, Storage.put]
  split <;> rfl

theorem logged_subset {next : Nat} {ops : List TrackOp} {log : Revisions (List Write)}
    (reached : run logStep (.start [] next) ops = some log) :
    log.All fun ws => ws ⊆ writesOf ops := by
  refine run_invariant (fun _ => True) (fun _ _ _ => trivial)
    (fun ops log => log.All fun ws => ws ⊆ writesOf ops)
    ⟨List.Subset.refl _, List.forall_mem_nil _⟩ ?_ ops log trivial reached
  intro ops log op log' _ _ all stepped
  have longer : log.All fun ws => ws ⊆ writesOf (ops ++ [op]) := all.mono fun ws kept => by
    rw [writesOf, List.filterMap_append]
    exact List.subset_append_of_subset_left _ kept
  cases op with
  | setState addr key value =>
      cases stepped
      refine longer.modify ?_
      rw [writesOf, List.filterMap_append]
      exact List.append_subset.2 ⟨List.subset_append_of_subset_left _ all.1,
        List.subset_append_of_subset_right _ (List.Subset.refl _)⟩
  | snapshot =>
      cases stepped
      exact longer.snapshot
  | revertToSnapshot revid => exact longer.revertTo stepped
  | getState _ _ | getCommittedState _ _ | getStateAndCommittedState _ _ =>
      cases stepped
      exact longer

/-! ## What a run leaves -/

namespace TrackingStateDB

variable {t t' : TrackingStateDB}

theorem recordRead_frame (t : TrackingStateDB) (addr : Address) (slot value : Hash) :
    (t.recordRead addr slot value).inner = t.inner ∧
      (t.recordRead addr slot value).storageWrites = t.storageWrites := by
  unfold recordRead
  split <;> exact ⟨rfl, rfl⟩

/-- A step changes the wrapped state and the table of writes as the step itself does. -/
theorem step_cases {op : TrackOp} (stepped : t.step op = some t') :
    (∃ addr key value, op = .setState addr key value ∧
      t'.inner = (t.inner.setState addr key value).2 ∧
      t'.storageWrites = t.storageWrites.put addr key value) ∨
    (op = .snapshot ∧ t'.inner = t.inner.snapshot.2 ∧ t'.storageWrites = t.storageWrites) ∨
    (∃ revid, op = .revertToSnapshot revid ∧ t.inner.revertToSnapshot revid = some t'.inner ∧
      t'.storageWrites = t.storageWrites) ∨
    (op.write? = none ∧ (∀ log, logStep log op = some log) ∧ t'.inner = t.inner ∧
      t'.storageWrites = t.storageWrites) := by
  cases op with
  | setState addr key value =>
      cases stepped
      exact .inl ⟨addr, key, value, rfl, rfl, rfl⟩
  | snapshot =>
      cases stepped
      exact .inr (.inl ⟨rfl, rfl, rfl⟩)
  | revertToSnapshot revid =>
      obtain ⟨inner, reverted, rfl⟩ := Option.map_eq_some_iff.1 stepped
      exact .inr (.inr (.inl ⟨revid, rfl, reverted, rfl⟩))
  | getState addr slot | getStateAndCommittedState addr slot =>
      cases stepped
      exact .inr (.inr (.inr ⟨rfl, fun _ => rfl, recordRead_frame _ addr slot _⟩))
  | getCommittedState addr slot =>
      cases stepped
      exact .inr (.inr (.inr ⟨rfl, fun _ => rfl, rfl, rfl⟩))

/-- **The table of writes**: the last write of each slot. -/
theorem tracked {inner : StateDB} {ops : List TrackOp}
    (reached : run step (newTrackingStateDB inner) ops = some t) (a : Address) (s : Hash) :
    t.storageWrites.get a s = lastOf (writesOf ops) a s := by
  refine run_invariant (fun _ => True) (fun _ _ _ => trivial)
    (fun ops (t : TrackingStateDB) => t.storageWrites.get a s = lastOf (writesOf ops) a s)
    rfl ?_ ops t trivial reached
  intro ops t op t' _ _ ih stepped
  rw [writesOf, List.filterMap_append]
  rcases step_cases stepped with ⟨addr, key, value, rfl, -, table⟩ | ⟨rfl, -, table⟩ |
    ⟨revid, rfl, -, table⟩ | ⟨reads, -, -, table⟩
  · rw [table, SlotMap.get_put, ih]
    exact (lastOf_concat _ ⟨addr, key, value⟩ a s).symm
  · rw [table, ih]
    exact congrArg (lastOf · a s) (List.append_nil _).symm
  · rw [table, ih]
    exact congrArg (lastOf · a s) (List.append_nil _).symm
  · rw [table, ih, List.filterMap_cons_none reads]
    exact congrArg (lastOf · a s) (List.append_nil _).symm

/-- **The storage**: what the surviving writes left. -/
theorem stored {inner : StateDB} {ops : List TrackOp}
    (nested : ∀ revid, .revertToSnapshot revid ∈ ops → inner.storage.next ≤ revid)
    (reached : run step (newTrackingStateDB inner) ops = some t) :
    t.inner.storage.current =
      overlay inner.storage.current (survivingWrites inner.storage.next ops) := by
  suffices followed : ∃ log, run logStep (.start [] inner.storage.next) ops = some log ∧
      Tracks (overlay inner.storage.current) inner.storage.saved log t.inner.storage by
    obtain ⟨log, logged, tracks⟩ := followed
    rw [tracks.current, survivingWrites, logged]
  refine run_invariant
    (fun ops => ∀ revid, .revertToSnapshot revid ∈ ops → inner.storage.next ≤ revid)
    (fun _ _ all revid member => all revid (List.mem_append_left _ member))
    (fun ops (t : TrackingStateDB) => ∃ log,
      run logStep (.start [] inner.storage.next) ops = some log ∧
        Tracks (overlay inner.storage.current) inner.storage.saved log t.inner.storage)
    ⟨_, rfl, rfl, rfl, rfl⟩ ?_ ops t nested reached
  rintro ops t op t' nested' _ ⟨log, logged, tracks⟩ stepped
  have next : ∀ log', logStep log op = some log' →
      run logStep (.start [] inner.storage.next) (ops ++ [op]) = some log' :=
    fun log' last => run_concat_eq_some.2 ⟨log, logged, last⟩
  rcases step_cases stepped with ⟨addr, key, value, rfl, now, -⟩ | ⟨rfl, now, -⟩ |
    ⟨revid, rfl, now, -⟩ | ⟨-, same, now, -⟩
  · refine ⟨_, next _ rfl, ?_⟩
    rw [now]
    exact tracks.modify (f := (· ++ [⟨addr, key, value⟩])) (g := (·.put addr key value))
      (overlay_concat _ _ ⟨addr, key, value⟩)
  · refine ⟨_, next _ rfl, ?_⟩
    rw [now]
    exact tracks.snapshot
  · obtain ⟨storage, reverted, same⟩ := Option.map_eq_some_iff.1 now
    -- the older revisions have smaller numbers
    have above : ∀ e ∈ inner.storage.saved, e.1 ≠ revid := fun e member =>
      Nat.ne_of_lt (Nat.lt_of_lt_of_le (inner.storage.given e member)
        (nested' revid (List.mem_append_right _ (List.mem_singleton_self _))))
    obtain ⟨log', back, tracks'⟩ := tracks.revertTo above reverted
    exact ⟨log', next log' back, by rw [← same]; exact tracks'⟩
  · exact ⟨log, next log (same log), by rw [now]; exact tracks⟩

/-- The write sets report the table of writes. -/
theorem lastWrite_buildRwSet (t : TrackingStateDB) (refBlock : Reference) (a : Address) (s : Hash) :
    EVMState.lastWrite (t.buildRwSet refBlock) a s = t.storageWrites.get a s := by
  have items : ∀ rw ∈ t.buildRwSet refBlock, ∀ w ∈ rw.writeSet,
      ∃ value, t.storageWrites.get rw.address w.slot = some value ∧
        w.newValue = hashBytes value := by
    intro rw member w listed
    obtain ⟨addr, -, rfl⟩ := List.mem_map.1 member
    obtain ⟨e, entry, rfl⟩ := List.mem_map.1 listed
    exact ⟨e.2, SlotMap.mem_entries.1 entry, rfl⟩
  cases written : t.storageWrites.get a s with
  | none =>
      refine EVMState.lastWrite_eq_none fun rw member w listed named => ?_
      obtain ⟨value, found, -⟩ := items rw member w listed
      rw [← named.1, ← named.2, written] at found
      cases found
  | some value =>
      refine EVMState.lastWrite_eq_some ?_ fun rw member w listed here slot => ?_
      · have known : a ∈ t.storageWrites.keys := by
          obtain ⟨slots, found, -⟩ := Option.bind_eq_some_iff.1 written
          exact AList.mem_keys.1 (AList.lookup_isSome.1 (Option.isSome_of_eq_some found))
        refine ⟨_, List.mem_map.2 ⟨a, List.mem_dedup.2 (List.mem_append_right _ known), rfl⟩,
          _, List.mem_map.2 ⟨⟨s, value⟩, SlotMap.mem_entries.2 written, rfl⟩, rfl, rfl⟩
      · obtain ⟨value', found, bytes⟩ := items rw member w listed
        rw [← here, ← slot, written] at found
        cases found
        rw [bytes, bytesToHash_hashBytes]

/-- The storage that the owner of the contract gets. -/
theorem storage_forwarded {t : TrackingStateDB} {shardID : Int} {e e' : EVMState} {addr : Address}
    {code : Bytes} (set : handleSetCode shardID e (forwardRequest t addr code) = some e') (s : Hash) :
    e'.storage addr s = (t.storageWrites.get addr s).getD (e.storage addr s) := by
  unfold handleSetCode at set
  split at set
  · cases set
  · cases set
    refine (EVMState.storage_setSlots addr s _ _
      ((t.getStorageWritesForAddress addr).getD ∅).nodupKeys).trans ?_
    unfold SlotMap.get forwardRequest getStorageWritesForAddress
    cases t.storageWrites.lookup addr <;> rfl

end TrackingStateDB

/-! ## Net writes -/

/-- In every slot of the address that was written, the last write left what the surviving writes
left. -/
def LastSurvives (initial : Storage) (next : Nat) (ops : List TrackOp) (addr : Address) : Prop :=
  ∀ slot value, lastOf (writesOf ops) addr slot = some value →
    overlay initial (survivingWrites next ops) addr slot = value

theorem overlay_eq_iff (initial : Storage) (next : Nat) (ops : List TrackOp) (addr : Address) :
    (∀ s, overlay initial (writesOf ops) addr s =
      overlay initial (survivingWrites next ops) addr s) ↔ LastSurvives initial next ops addr := by
  constructor
  · intro same slot value last
    rw [← same slot, overlay, last]
    rfl
  · intro survives s
    cases last : lastOf (writesOf ops) addr s with
    | some value =>
        rw [survives s value last, overlay, last]
        rfl
    | none =>
        -- an unwritten slot is not written by a surviving write either
        have unwritten : lastOf (survivingWrites next ops) addr s = none := by
          unfold survivingWrites
          split
          · rename_i log logged
            refine lastOf_eq_none.2 fun w member => ?_
            exact lastOf_eq_none.1 last w ((logged_subset logged).1 member)
          · rfl
        rw [overlay, overlay, last, unwritten]

/-- **When the tracked writes are the net writes.**  For every execution with properly nested
snapshots on any state: the writes of an address laid over the initial storage give the final
storage exactly if the last write to each slot left what the surviving writes left.  The same holds
for the write sets of `BuildRwSet`, and for the storage that the owning shard has after
`handleSetCode`. -/
theorem tracked_writes_are_net_iff (inner : StateDB) (ops : List TrackOp) (t : TrackingStateDB)
    (nested : ∀ revid, .revertToSnapshot revid ∈ ops → inner.storage.next ≤ revid)
    (reached : run TrackingStateDB.step (.newTrackingStateDB inner) ops = some t) (addr : Address)
    (refBlock : Reference) :
    ((∀ s, (((t.getStorageWritesForAddress addr).getD ∅).lookup s).getD
          (inner.getState addr s) = t.inner.getState addr s) ↔
      LastSurvives inner.storage.current inner.storage.next ops addr) ∧
    ((∀ s, (EVMState.lastWrite (t.buildRwSet refBlock) addr s).getD (inner.getState addr s) =
          t.inner.getState addr s) ↔
      LastSurvives inner.storage.current inner.storage.next ops addr) ∧
    ∀ (e e' : EVMState) (code : Bytes), (∀ s, e.storage addr s = inner.getState addr s) →
      handleSetCode (shardOf addr) e (forwardRequest t addr code) = some e' →
      ((∀ s, e'.storage addr s = t.inner.getState addr s) ↔
        LastSurvives inner.storage.current inner.storage.next ops addr) := by
  have final : ∀ s, t.inner.getState addr s =
      overlay inner.storage.current (survivingWrites inner.storage.next ops) addr s :=
    fun s => congrFun (congrFun (TrackingStateDB.stored nested reached) addr) s
  have table : ∀ s, (t.storageWrites.get addr s).getD (inner.getState addr s) =
      overlay inner.storage.current (writesOf ops) addr s := fun s => by
    rw [TrackingStateDB.tracked reached]
    rfl
  have agree := overlay_eq_iff inner.storage.current inner.storage.next ops addr
  simp only [final]
  refine ⟨?_, ?_, fun e e' code same set => ?_⟩
  · rw [← agree]
    refine forall_congr' fun s => ?_
    rw [← table s]
    unfold SlotMap.get TrackingStateDB.getStorageWritesForAddress
    cases t.storageWrites.lookup addr <;> rfl
  · rw [← agree]
    refine forall_congr' fun s => ?_
    rw [TrackingStateDB.lastWrite_buildRwSet, table]
  · rw [← agree]
    refine forall_congr' fun s => ?_
    rw [TrackingStateDB.storage_forwarded set, same, table]

namespace TrackingPole

def pot : Address := 0x100

/-- A new account: no storage, no open revision. -/
def fresh : StateDB := ⟨.start (fun _ _ => 0) 0, fun _ _ => 0⟩

def bare : EVMState := ⟨fun _ => 0, fun _ _ => 0, fun _ => []⟩

/-- A sub-call fails, and what it wrote is written again. -/
def repeated : List TrackOp :=
  [.setState pot 0 1, .snapshot, .setState pot 1 2, .snapshot, .setState pot 0 3,
    .revertToSnapshot 0, .setState pot 0 4, .setState pot 1 2]

/-- A constructor writes slot 0; a sub-call of it writes slot 1 and fails. -/
def caught : List TrackOp :=
  [.setState pot 0 5, .snapshot, .setState pot 1 1, .revertToSnapshot 0]

def state (ops : List TrackOp) : TrackingStateDB :=
  (run TrackingStateDB.step (.newTrackingStateDB fresh) ops).getD (.newTrackingStateDB fresh)

end TrackingPole

open TrackingPole in
theorem repeated_writes_are_net :
    run TrackingStateDB.step (.newTrackingStateDB fresh) repeated = some (state repeated) ∧
    ∀ s, ((((state repeated).getStorageWritesForAddress pot).getD ∅).lookup s).getD
      (fresh.getState pot s) = (state repeated).inner.getState pot s := by
  refine ⟨rfl, (tracked_writes_are_net_iff fresh repeated (state repeated)
    (fun _ _ => Nat.zero_le _) rfl pot ⟨0⟩).1.2 fun slot value last => ?_⟩
  have all : lastOf (writesOf repeated) pot slot =
      if slot = 1 then some 2 else if slot = 0 then some 4 else none := by
    simp only [lastOf, writesOf, repeated, TrackOp.write?, List.filterMap, List.foldl_cons,
      List.foldl_nil, true_and]
    grind
  have surviving : survivingWrites 0 repeated = [⟨pot, 0, 1⟩, ⟨pot, 0, 4⟩, ⟨pot, 1, 2⟩] := rfl
  rw [all] at last
  show overlay _ (survivingWrites 0 repeated) pot slot = value
  rw [surviving]
  simp only [overlay, lastOf, List.foldl_cons, List.foldl_nil, true_and]
  grind

open TrackingPole in
/-- The deploying shard has slot 1 empty; the owner of the contract gets 1 there, and so does the
write set. -/
theorem reverted_write_is_forwarded :
    (run TrackingStateDB.step (.newTrackingStateDB fresh) caught).isSome = true ∧
    (state caught).inner.getState pot 1 = 0 ∧
    (((state caught).getStorageWritesForAddress pot).getD ∅).lookup 1 = some 1 ∧
    EVMState.lastWrite ((state caught).buildRwSet ⟨0⟩) pot 1 = some 1 ∧
    ((handleSetCode (shardOf pot) bare (forwardRequest (state caught) pot [])).map
      fun e => e.storage pot 1) = some 1 := by
  decide +kernel

end CrossShard.Shard
