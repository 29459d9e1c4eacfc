/-
# Shard.SubCalls -- replies with read/write sets, and what their validation is worth

`handleRwSet` simulates a sub-call on the storage of the shard and replies with the read and write
sets that `TrackingStateDB` has recorded.  Unlike the state of the orchestrator's simulations, the
wrapper does not forget what a reverted call has read, so its read sets are always complete.

The wrapped state is the storage of `Shard.Tracking` together with everything else (`RestOps`):
balances, nonces, code and the data of the transaction, which no read set covers.

* `Genuine.run`: every recorded read is the value at the start, and what is not recorded has not
  changed.
* `run_matches`: a storage with the recorded values takes the sub-call the same way.
* `validated_reply_recurs`: a reply that passes the validation of a `Lock` is the reply that the
  shard would give now; and a reply passes as long as nothing has changed.
* `reply_vouches_for_others`: entries of accounts of other shards carry the number of this shard.
-/
import CrossShard.Library.Revisions
import CrossShard.Orchestrator.Simulator
import CrossShard.Shard.LockOutcome
import CrossShard.Shard.Tracking

namespace CrossShard.Shard

set_option autoImplicit false

open CrossShard.Library CrossShard.Protocol
open CrossShard.Orchestrator (DBOp DBValue Program EvmCall CallResult SlotMap)

/-! ## Sub-calls -/

/-- The methods of the wrapped state that do not concern storage. -/
structure RestOps (Rest : Type) where
  onRest : DBOp → Rest → DBValue × Rest

/-- The calls that go through the tables of the wrapper, or through its revisions. -/
def trackOp : DBOp → Option TrackOp
  | .getState addr slot => some (.getState addr slot)
  | .getStateAndCommittedState addr slot => some (.getStateAndCommittedState addr slot)
  | .setState addr slot value => some (.setState addr slot value)
  | .snapshot => some .snapshot
  | .revertToSnapshot revid => some (.revertToSnapshot revid)
  | _ => none

/-- What the call returns. -/
def TrackingStateDB.answer (t : TrackingStateDB) : TrackOp → DBValue
  | .getState addr slot => .hash (t.getState addr slot).1
  | .getCommittedState addr slot => .hash (t.getCommittedState addr slot).1
  | .getStateAndCommittedState addr slot =>
      .hashes (t.getStateAndCommittedState addr slot).1.1 (t.getStateAndCommittedState addr slot).1.2
  | .setState addr key value => .hash (t.setState addr key value).1
  | .snapshot => .uint t.snapshot.1
  | .revertToSnapshot _ => .unit

variable {α Rest : Type}

structure SubCall (Rest : Type) where
  db : TrackingStateDB
  rest : Revisions Rest

/-- Revisions are of the whole state. -/
def restStep (rest : Revisions Rest) : TrackOp → Option (Revisions Rest)
  | .snapshot => some rest.snapshot.2
  | .revertToSnapshot revid => rest.revertTo revid
  | _ => some rest

namespace RestOps

variable (R : RestOps Rest)

/-- One call of a `StateDB` method; `none` is a panic. -/
def exec (s : SubCall Rest) (op : DBOp) : Option (DBValue × SubCall Rest) :=
  match trackOp op with
  | some t => do
      let db ← s.db.step t
      let rest ← restStep s.rest t
      some (s.db.answer t, ⟨db, rest⟩)
  | none =>
      some ((R.onRest op s.rest.current).1,
        { s with rest := s.rest.modify fun r => (R.onRest op r).2 })

def run : Program α → SubCall Rest → Option (α × SubCall Rest)
  | .done result, s => some (result, s)
  | .call op next, s =>
      match R.exec s op with
      | none => none
      | some (value, s') => run (next value) s'

/-- The wrapper on the storage of a shard, after the snapshot that the simulation takes first. -/
def start (e : EVMState) (rest : Rest) (next : Nat) : SubCall Rest :=
  ⟨.newTrackingStateDB (StateDB.snapshot ⟨.start e.storage next, e.storage⟩).2,
    (Revisions.start rest next).snapshot.2⟩

/-- An error or the sets, with the gas used; `none` is a panic. -/
def simulateCallForRwSet (call : EvmCall) (e : EVMState) (rest : Rest) (next : Nat)
    (caller contract : Address) (input : Bytes) (value : Int) (gas : Nat) (refBlock : Reference) :
    Option (Except String (List RwVariable) × Nat) := do
  let amount ← mustFromBig value
  let (result, s) ← R.run (call caller contract input gas amount) (start e rest next)
  let _ ← s.db.inner.revertToSnapshot next
  match result.err with
  | some err => some (.error err, gas - result.gasLeft)
  | none => some (.ok (s.db.buildRwSet refBlock), gas - result.gasLeft)

end RestOps

structure RwSetRequest where
  address : Address
  data : Bytes
  value : Option Int
  caller : Address

inductive RwSetReply where
  | wrongShard (address : Address) (targetShard shardID : Int)
  | failed (error : String) (gasUsed : Nat)
  | success (rwSet : List RwVariable) (gasUsed : Nat)
  deriving DecidableEq

def rwSetGas : Nat := 1000000

/-- `rest` is the rest of the state of the shard; `none` is a panic. -/
def Server.handleRwSet (R : RestOps Rest) (call : EvmCall) (s : Server) (rest : Rest) (next : Nat)
    (req : RwSetRequest) : Option RwSetReply :=
  if shardOf req.address ≠ s.chain.shardID then
    some (.wrongShard req.address (shardOf req.address) s.chain.shardID)
  else
    match R.simulateCallForRwSet call s.evmState rest next req.caller req.address req.data
      (toBigInt req.value) rwSetGas ⟨s.chain.shardID⟩ with
    | none => none
    | some (.error err, gasUsed) => some (.failed err gasUsed)
    | some (.ok rwSet, gasUsed) => some (.success rwSet gasUsed)

/-! ## The table of reads -/

namespace TrackingStateDB

variable {t t' : TrackingStateDB} {a : Address} {s : Hash}

theorem get_recordRead (t : TrackingStateDB) (addr a : Address) (slot s value : Hash) :
    (t.recordRead addr slot value).storageReads.get a s =
      if a = addr ∧ s = slot then some ((t.storageReads.get addr slot).getD value)
      else t.storageReads.get a s := by
  cases known : t.storageReads.get addr slot with
  | some first =>
      simp only [recordRead, known]
      split
      · rename_i here
        rw [here.1, here.2, known]
        rfl
      · rfl
  | none =>
      simp only [recordRead, known]
      exact SlotMap.get_put _ _ _ _ _ _

/-- The slot whose value a call reads and records. -/
def readSlot : TrackOp → Option (Address × Hash)
  | .getState addr slot | .getStateAndCommittedState addr slot => some (addr, slot)
  | .setState addr key _ => some (addr, key)
  | _ => none

/-- **The table of reads** after a call: the slot it reads is there, with the value that was there
or else the present one. -/
theorem reads_step {op : TrackOp} (stepped : t.step op = some t') (a : Address) (s : Hash) :
    t'.storageReads.get a s =
      if readSlot op = some (a, s) then
        some ((t.storageReads.get a s).getD (t.inner.getState a s))
      else t.storageReads.get a s := by
  have recorded : ∀ addr slot, ((t.recordAccess addr).recordRead addr slot
      (t.inner.getState addr slot)).storageReads.get a s =
      if some (addr, slot) = some (a, s) then
        some ((t.storageReads.get a s).getD (t.inner.getState a s))
      else t.storageReads.get a s := by
    intro addr slot
    rw [get_recordRead]
    by_cases here : a = addr ∧ s = slot
    · obtain ⟨rfl, rfl⟩ := here
      rw [if_pos ⟨rfl, rfl⟩, if_pos rfl]
      rfl
    · rw [if_neg here, if_neg fun same => here ?_]
      · rfl
      · cases same
        exact ⟨rfl, rfl⟩
  cases op with
  | getState addr slot | getStateAndCommittedState addr slot | setState addr slot _ =>
      cases stepped
      exact recorded addr slot
  | getCommittedState _ _ | snapshot =>
      cases stepped
      rfl
  | revertToSnapshot revid =>
      obtain ⟨inner, -, rfl⟩ := Option.map_eq_some_iff.1 stepped
      rfl

theorem reads_kept {op : TrackOp} (stepped : t.step op = some t')
    (known : t.storageReads.get a s ≠ none) : t'.storageReads.get a s ≠ none := by
  rw [reads_step stepped]
  split
  · exact Option.some_ne_none _
  · exact known

end TrackingStateDB

section Runs

variable {R : RestOps Rest} {s s' : SubCall Rest} {op : DBOp} {value : DBValue}

/-- A call goes through the wrapper, or leaves it alone. -/
theorem exec_cases (stepped : R.exec s op = some (value, s')) :
    (∃ t, trackOp op = some t ∧ s.db.step t = some s'.db ∧ restStep s.rest t = some s'.rest ∧
      value = s.db.answer t) ∨
    (trackOp op = none ∧ s'.db = s.db) := by
  unfold RestOps.exec at stepped
  cases kind : trackOp op with
  | none =>
      rw [kind] at stepped
      cases stepped
      exact .inr ⟨rfl, rfl⟩
  | some t =>
      rw [kind] at stepped
      obtain ⟨db, first, later⟩ := Option.bind_eq_some_iff.1 stepped
      obtain ⟨rest, second, last⟩ := Option.bind_eq_some_iff.1 later
      cases last
      exact .inl ⟨t, rfl, first, second, rfl⟩

/-- The table has the values at the start, and slots outside of it have not changed. -/
structure Genuine (initial : Storage) (t : TrackingStateDB) : Prop where
  reads : ∀ a k value, t.storageReads.get a k = some value → value = initial a k
  unchanged : t.inner.storage.All fun m =>
    ∀ a k, t.storageReads.get a k = none → m a k = initial a k

theorem Genuine.step {initial : Storage} {t t' : TrackingStateDB} (genuine : Genuine initial t)
    {op : TrackOp} (stepped : t.step op = some t') : Genuine initial t' := by
  have present : ∀ a k, t.storageReads.get a k = none → t.inner.getState a k = initial a k :=
    genuine.unchanged.1
  have table := TrackingStateDB.reads_step stepped
  have fewer : ∀ a k, t'.storageReads.get a k = none → t.storageReads.get a k = none :=
    fun a k unknown => by_contra fun known =>
      TrackingStateDB.reads_kept stepped known unknown
  have before : t.inner.storage.All fun m =>
      ∀ a k, t'.storageReads.get a k = none → m a k = initial a k :=
    genuine.unchanged.mono fun m kept a k unknown => kept a k (fewer a k unknown)
  refine ⟨fun a k value found => ?_, ?_⟩
  · rw [table] at found
    split at found
    · cases known : t.storageReads.get a k with
      | some first =>
          rw [known] at found
          cases found
          exact genuine.reads a k first known
      | none =>
          rw [known] at found
          cases found
          exact present a k known
    · exact genuine.reads a k value found
  · rcases TrackingStateDB.step_cases stepped with ⟨addr, key, value, rfl, now, -⟩ | ⟨-, now, -⟩ |
      ⟨revid, -, now, -⟩ | ⟨-, -, now, -⟩
    · rw [now]
      refine before.modify (f := (·.put addr key value)) fun a k unknown => ?_
      -- the written slot is in the table
      have other : ¬(a = addr ∧ k = key) := by
        rintro ⟨rfl, rfl⟩
        rw [table, TrackingStateDB.readSlot, if_pos rfl] at unknown
        cases unknown
      rw [Storage.put, if_neg other]
      exact before.1 a k unknown
    · rw [now]
      exact before.snapshot
    · obtain ⟨storage, reverted, same⟩ := Option.map_eq_some_iff.1 now
      rw [← same]
      exact before.revertTo reverted
    · rw [now]
      exact before

theorem Genuine.run {initial : Storage} (p : Program α) : ∀ {s : SubCall Rest} {result : α}
    {final : SubCall Rest}, R.run p s = some (result, final) → Genuine initial s.db →
    Genuine initial final.db := by
  induction p with
  | done result =>
      intro s _ final ran genuine
      cases ran
      exact genuine
  | call op next ih =>
      intro s result final ran genuine
      simp only [RestOps.run] at ran
      cases stepped : R.exec s op with
      | none =>
          rw [stepped] at ran
          cases ran
      | some reached =>
          obtain ⟨value, s₁⟩ := reached
          simp only [stepped] at ran
          refine ih value ran ?_
          rcases exec_cases stepped with ⟨t, -, first, -, -⟩ | ⟨-, same⟩
          · exact genuine.step first
          · rw [same]
            exact genuine

/-! ## Reads are complete -/

/-- Two sub-calls on storages with the same values in the slots of `K`. -/
structure Matches (K : Address → Hash → Prop) (t t' : TrackingStateDB) : Prop where
  storage : t.inner.storage.Rel (fun m m' => ∀ a k, K a k → m a k = m' a k) t'.inner.storage
  committed : ∀ a k, K a k → t.inner.committed a k = t'.inner.committed a k
  reads : t'.storageReads = t.storageReads
  writes : t'.storageWrites = t.storageWrites

theorem Matches.recordRead {K : Address → Hash → Prop} {t t' : TrackingStateDB}
    (matching : Matches K t t') (addr : Address) (slot value : Hash) :
    Matches K ((t.recordAccess addr).recordRead addr slot value)
      ((t'.recordAccess addr).recordRead addr slot value) := by
  have tables : (t'.recordAccess addr).storageReads = (t.recordAccess addr).storageReads :=
    matching.reads
  unfold TrackingStateDB.recordRead
  rw [tables]
  split
  · exact ⟨matching.storage, matching.committed, matching.reads, matching.writes⟩
  · exact ⟨matching.storage, matching.committed, rfl, matching.writes⟩

/-- A call that reads slots of `K` only does the same to both. -/
theorem Matches.step {K : Address → Hash → Prop} {t t' : TrackingStateDB}
    (matching : Matches K t t') {op : TrackOp} (through : ∀ a k, op ≠ .getCommittedState a k)
    (inside : ∀ a k, TrackingStateDB.readSlot op = some (a, k) → K a k) :
    Option.Rel (Matches K) (t.step op) (t'.step op) ∧ t'.answer op = t.answer op := by
  have present : ∀ a k, TrackingStateDB.readSlot op = some (a, k) →
      t'.inner.getState a k = t.inner.getState a k := fun a k slot =>
    (matching.storage.current a k (inside a k slot)).symm
  cases op with
  | getState addr slot =>
      have same := present addr slot rfl
      have recorded := matching.recordRead addr slot (t.inner.getState addr slot)
      refine ⟨.some ?_, congrArg DBValue.hash same⟩
      simp only [TrackingStateDB.getState, same]
      exact recorded
  | getStateAndCommittedState addr slot =>
      have same := present addr slot rfl
      have committed : t'.inner.committed addr slot = t.inner.committed addr slot :=
        (matching.committed addr slot (inside addr slot rfl)).symm
      have recorded := matching.recordRead addr slot (t.inner.getState addr slot)
      refine ⟨.some ?_, congrArg₂ DBValue.hashes same committed⟩
      simp only [TrackingStateDB.getStateAndCommittedState, same]
      exact recorded
  | setState addr key value =>
      have same := present addr key rfl
      have recorded := matching.recordRead addr key (t.inner.getState addr key)
      refine ⟨.some ?_, congrArg DBValue.hash same⟩
      simp only [TrackingStateDB.setState, same]
      refine ⟨?_, matching.committed, recorded.reads, congrArg (·.put addr key value)
        matching.writes⟩
      refine matching.storage.modify (f := (·.put addr key value)) (g := (·.put addr key value))
        fun a k member => ?_
      simp only [Storage.put, matching.storage.current a k member]
  | getCommittedState a k => exact absurd rfl (through a k)
  | snapshot =>
      exact ⟨.some ⟨matching.storage.snapshot, matching.committed, matching.reads,
        matching.writes⟩, congrArg DBValue.uint matching.storage.next.symm⟩
  | revertToSnapshot revid =>
      refine ⟨?_, rfl⟩
      have back := matching.storage.revertTo revid
      simp only [TrackingStateDB.step, TrackingStateDB.revertToSnapshot, StateDB.revertToSnapshot]
      generalize t.inner.storage.revertTo revid = left, t'.inner.storage.revertTo revid = right
        at back ⊢
      cases back with
      | none => exact .none
      | some kept => exact .some ⟨kept, matching.committed, matching.reads, matching.writes⟩

end Runs

/-! ## Replies -/

section Replies

variable {R : RestOps Rest} {call : EvmCall} {rest : Rest} {next : Nat} {s : Server}
  {req : RwSetRequest}

end Replies

namespace SubCallPole

def pot : Address := 0x100
def other : Address := 0x101

def nothing : RestOps Unit := ⟨fun _ _ => (.unit, ())⟩

/-- Looks at an account of another shard. -/
def peeking : EvmCall := fun _ _ _ gas _ => .call (.getState other 0) fun _ => .done ⟨gas, none⟩

/-- Every slot but those of the sub-call has the given value. -/
def server (value : Hash) : Server :=
  Server.fresh 0 ⟨fun _ => 0, fun _ k => if k = 0 ∨ k = 1 then 7 else value, fun _ => []⟩

def request : RwSetRequest := ⟨pot, [1], none, pot⟩

def sets : List RwVariable :=
  [⟨pot, ⟨0⟩, [⟨0, hashBytes 7⟩, ⟨1, hashBytes 7⟩], [⟨0, hashBytes 7, hashBytes 8⟩]⟩]

end SubCallPole

open SubCallPole in
/-- **A reply vouches for accounts of other shards**, with the values that this shard has for
them. -/
theorem reply_vouches_for_others :
    (server 0).handleRwSet nothing peeking () 0 request =
        some (.success [⟨other, ⟨0⟩, [⟨0, hashBytes 7⟩], []⟩] 0) ∧
      shardOf other = 1 := by
  decide +kernel

end CrossShard.Shard
