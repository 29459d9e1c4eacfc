/-
# Orchestrator.ReadSets -- what a simulation depends on, and what its read set says

A shard validates a simulation by comparing the read set with its storage.  That is sound if
two worlds that agree on the read set of one run cannot be told apart by the program.

The read set is part of what `RevertToSnapshot` restores: a slot that was read only inside a
reverted frame is not in it.  `Frames` says which accesses survive, from the calls alone.
`read_set_complete_iff` is exact: agreement on the read sets determines the run if and only if
every slot accessed survives.

* `Observes`, `Covers`: the read cache holds exactly the surviving accesses, each with the
  value of the world, now and in every snapshot.
* `run_congr`: worlds that agree on every slot accessed give one run.
* `trace_differs`: a world that differs at an accessed slot gives another one.
-/
import CrossShard.Orchestrator.StateDB

namespace CrossShard.Orchestrator

set_option autoImplicit false

open CrossShard.Library CrossShard.Protocol

/-! ## Worlds -/

/-- The value of a slot on the shard that owns the address; a failed fetch reads as zero. -/
def World.storage (W : World) (addr : Address) (slot : Hash) : Hash :=
  match W.getStorageAt (W.addressToShard addr) addr slot with
  | .ok value => value
  | .error _ => 0

/-- The world with the same accounts and another storage. -/
def World.withStorage (W : World) (storage : Int → Address → Hash → Except String Hash) : World :=
  { W with getStorageAt := storage }

/-! ## Accesses -/

/-- The storage slot that a call accesses. -/
def DBOp.slot? : DBOp → Option (Address × Hash)
  | .getState addr slot => some (addr, slot)
  | .getStateAndCommittedState addr slot => some (addr, slot)
  | .setState addr slot _ => some (addr, slot)
  | _ => none

def accessed (ops : List DBOp) : List (Address × Hash) := ops.filterMap DBOp.slot?

/-- The accesses that no revert has undone, and those at each open snapshot. -/
structure Frames where
  live : List (Address × Hash)
  saved : List (List (Address × Hash))

def Frames.step (f : Frames) : DBOp → Frames
  | .snapshot => ⟨f.live, f.saved ++ [f.live]⟩
  | .revertToSnapshot revid =>
      match f.saved[revid]? with
      | none => f
      | some live => ⟨live, f.saved.take revid⟩
  | op => ⟨f.live ++ op.slot?.toList, f.saved⟩

/-- The accesses that survive all reverts among the calls. -/
def surviving (ops : List DBOp) : List (Address × Hash) := (ops.foldl Frames.step ⟨[], []⟩).live

/-! ## The read cache -/

/-- The maps record exactly the accesses in `live`, with the values of `W`. -/
structure Observes (W : World) (live : List (Address × Hash))
    (accounts : AList fun _ : Address => AccountState) (reads writes : SlotMap) : Prop where
  kept : ∀ a s, (a, s) ∈ live ↔ (reads.get a s).isSome
  readFirst : ∀ a s, (writes.get a s).isSome → (reads.get a s).isSome
  genuine : ∀ a s v, reads.get a s = some v → v = W.storage a s
  homed : ∀ a acct, accounts.lookup a = some acct → acct.shardID = W.addressToShard a

structure Covers (W : World) (f : Frames) (db : SimulationStateDB) : Prop where
  now : Observes W f.live db.accounts db.reads db.writes
  saved : List.Forall₂ (fun live snap => Observes W live snap.accounts snap.reads snap.writes)
    f.saved db.snapshots

theorem covers_start (W : World) : Covers W ⟨[], []⟩ SimulationStateDB.newSimulationStateDB where
  now := ⟨by simp [SimulationStateDB.newSimulationStateDB, SlotMap.get],
    by simp [SimulationStateDB.newSimulationStateDB, SlotMap.get],
    by simp [SimulationStateDB.newSimulationStateDB, SlotMap.get],
    by simp [SimulationStateDB.newSimulationStateDB]⟩
  saved := .nil

/-- Storage and snapshots are as before, and accounts know their shard. -/
structure Framed (W : World) (db db' : SimulationStateDB) : Prop where
  reads : db'.reads = db.reads
  writes : db'.writes = db.writes
  snapshots : db'.snapshots = db.snapshots
  homed : (∀ a acct, db.accounts.lookup a = some acct → acct.shardID = W.addressToShard a) →
    ∀ a acct, db'.accounts.lookup a = some acct → acct.shardID = W.addressToShard a

theorem Framed.refl (W : World) (db : SimulationStateDB) : Framed W db db :=
  ⟨rfl, rfl, rfl, id⟩

theorem Framed.covers {W : World} {f : Frames} {db db' : SimulationStateDB}
    (framed : Framed W db db') (covers : Covers W f db) : Covers W f db' := by
  obtain ⟨⟨kept, readFirst, genuine, homed⟩, saved⟩ := covers
  refine ⟨⟨?_, ?_, ?_, framed.homed homed⟩, ?_⟩
  · rw [framed.reads]
    exact kept
  · rw [framed.reads, framed.writes]
    exact readFirst
  · rw [framed.reads]
    exact genuine
  · rw [framed.snapshots]
    exact saved

namespace SimulationStateDB

variable {W : World} {db : SimulationStateDB}

theorem framed_insert (acct : AccountState) (addr : Address)
    (home : acct.shardID = W.addressToShard addr) :
    Framed W db { db with accounts := db.accounts.insert addr acct } := by
  refine ⟨rfl, rfl, rfl, fun homed a found lookup => ?_⟩
  have lookup' : (db.accounts.insert addr acct).lookup a = some found := lookup
  rw [lookup_insert_ite] at lookup'
  split at lookup'
  · rename_i own
    cases lookup'
    rw [own]
    exact home
  · exact homed a found lookup'

theorem framed_getOrFetchAccount (addr : Address) :
    Framed W db (db.getOrFetchAccount W addr).2 := by
  unfold getOrFetchAccount
  split
  · exact .refl W db
  · split
    · exact ⟨rfl, rfl, rfl, id⟩
    · exact framed_insert _ addr rfl

theorem shardID_getOrFetchAccount (addr : Address)
    (homed : ∀ a acct, db.accounts.lookup a = some acct → acct.shardID = W.addressToShard a) :
    (db.getOrFetchAccount W addr).1.shardID = W.addressToShard addr := by
  unfold getOrFetchAccount
  split
  · rename_i acct found
    exact homed addr acct found
  · split <;> rfl

theorem framed_modifyAccount (addr : Address) (change : AccountState → AccountState)
    (keeps : ∀ acct, (change acct).shardID = acct.shardID) :
    Framed W db (db.modifyAccount W addr change).2 := by
  have fetched : Framed W db (db.getOrFetchAccount W addr).2 := framed_getOrFetchAccount addr
  refine ⟨?_, ?_, ?_, fun homed => ?_⟩
  · simp only [modifyAccount]
    split <;> exact fetched.reads
  · simp only [modifyAccount]
    split <;> exact fetched.writes
  · simp only [modifyAccount]
    split <;> exact fetched.snapshots
  · have home := shardID_getOrFetchAccount addr homed
    simp only [modifyAccount]
    split
    · exact (framed_insert _ addr ((keeps _).trans home)).homed (fetched.homed homed)
    · exact fetched.homed homed

/-- Calls that touch neither storage nor snapshots. -/
theorem framed_exec (op : DBOp) (noSlot : op.slot? = none) (noSnapshot : op ≠ .snapshot)
    (noRevert : ∀ revid, op ≠ .revertToSnapshot revid) : Framed W db (db.exec W op).2 := by
  cases op with
  | createAccount addr => exact framed_insert _ addr rfl
  | createContract addr => exact framed_insert _ addr rfl
  | getBalance addr => exact framed_getOrFetchAccount addr
  | subBalance addr amount =>
      exact framed_modifyAccount addr (fun acct => { acct with balance := acct.balance - amount })
        fun _ => rfl
  | addBalance addr amount =>
      exact framed_modifyAccount addr (fun acct => { acct with balance := acct.balance + amount })
        fun _ => rfl
  | getNonce addr => exact framed_getOrFetchAccount addr
  | setNonce addr nonce =>
      exact framed_modifyAccount addr (fun acct => { acct with nonce := nonce }) fun _ => rfl
  | getCodeHash addr => exact framed_getOrFetchAccount addr
  | getCode addr => exact framed_getOrFetchAccount addr
  | setCode addr code =>
      exact framed_modifyAccount addr (fun acct => { acct with
        code := code, codeHash := if code = [] then 0 else W.keccak256Hash code }) fun _ => rfl
  | getCodeSize addr => exact framed_getOrFetchAccount addr
  | getState addr slot => cases noSlot
  | getStateAndCommittedState addr slot => cases noSlot
  | setState addr slot value => cases noSlot
  | selfDestruct addr =>
      exact framed_modifyAccount addr (fun acct => { acct with destructed := true, balance := 0 })
        fun _ => rfl
  | selfDestruct6780 addr =>
      refine framed_modifyAccount addr (fun acct =>
        if acct.created then { acct with destructed := true, balance := 0 } else acct) fun acct => ?_
      split <;> rfl
  | exist addr => exact framed_getOrFetchAccount addr
  | empty addr => exact framed_getOrFetchAccount addr
  | revertToSnapshot revid => exact absurd rfl (noRevert revid)
  | snapshot => exact absurd rfl noSnapshot
  | _ => exact ⟨rfl, rfl, rfl, id⟩

/-! ## One storage access -/

theorem getState_of_written {addr : Address} {slot value : Hash}
    (written : db.writes.get addr slot = some value) : db.getState W addr slot = (value, db) := by
  simp only [getState, written]

theorem getState_of_read {addr : Address} {slot value : Hash}
    (unwritten : db.writes.get addr slot = none) (known : db.reads.get addr slot = some value) :
    db.getState W addr slot = (value, db) := by
  simp only [getState, unwritten, known]

/-- A slot not seen before is fetched from the shard that owns the address. -/
theorem getState_of_unknown {addr : Address} {slot : Hash}
    (homed : ∀ a acct, db.accounts.lookup a = some acct → acct.shardID = W.addressToShard a)
    (unwritten : db.writes.get addr slot = none) (unknown : db.reads.get addr slot = none) :
    db.getState W addr slot = (W.storage addr slot,
      let db₁ := (db.getOrFetchAccount W addr).2
      { db₁ with reads := db₁.reads.put addr slot (W.storage addr slot) }) := by
  have home := shardID_getOrFetchAccount addr homed
  cases answer : W.getStorageAt (W.addressToShard addr) addr slot with
  | ok value => simp only [getState, unwritten, unknown, home, World.storage, answer]
  | error err => simp only [getState, unwritten, unknown, home, World.storage, answer]

theorem covers_known {f : Frames} {addr : Address} {slot : Hash} (covers : Covers W f db)
    (known : (db.reads.get addr slot).isSome) : Covers W ⟨f.live ++ [(addr, slot)], f.saved⟩ db := by
  refine ⟨⟨fun a s => ?_, covers.now.readFirst, covers.now.genuine, covers.now.homed⟩, covers.saved⟩
  rw [List.mem_append, covers.now.kept a s, List.mem_singleton]
  refine ⟨fun either => either.elim id fun own => ?_, .inl⟩
  cases own
  exact known

theorem covers_getState {f : Frames} (covers : Covers W f db) (addr : Address) (slot : Hash) :
    Covers W ⟨f.live ++ [(addr, slot)], f.saved⟩ (db.getState W addr slot).2 := by
  cases written : db.writes.get addr slot with
  | some value =>
    rw [getState_of_written written]
    exact covers_known covers (covers.now.readFirst addr slot (by rw [written]; rfl))
  | none =>
    cases known : db.reads.get addr slot with
    | some value =>
      rw [getState_of_read written known]
      exact covers_known covers (by rw [known]; rfl)
    | none =>
      rw [getState_of_unknown covers.now.homed written known]
      obtain ⟨⟨kept, readFirst, genuine, homed⟩, saved⟩ :=
        (framed_getOrFetchAccount addr : Framed W db _).covers covers
      refine ⟨⟨fun a s => ?_, fun a s => ?_, fun a s v => ?_, homed⟩, saved⟩
      · rw [SlotMap.get_put, List.mem_append, kept a s, List.mem_singleton, Prod.mk.injEq]
        by_cases own : a = addr ∧ s = slot
        · simp [own]
        · simp [own]
      · rw [SlotMap.get_put]
        intro isWritten
        split
        · rfl
        · exact readFirst a s isWritten
      · rw [SlotMap.get_put]
        split
        · rename_i own
          rintro ⟨⟩
          rw [own.1, own.2]
        · exact genuine a s v

theorem covers_setState {f : Frames} (covers : Covers W f db) (addr : Address) (slot value : Hash) :
    Covers W ⟨f.live ++ [(addr, slot)], f.saved⟩ (db.setState W addr slot value).2 := by
  obtain ⟨⟨kept, readFirst, genuine, homed⟩, saved⟩ := covers_getState covers addr slot
  refine ⟨⟨kept, fun a s => ?_, genuine, homed⟩, saved⟩
  show ((SlotMap.put _ addr slot value).get a s).isSome → _
  rw [SlotMap.get_put]
  split
  · rename_i own
    rw [own.1, own.2]
    intro _
    exact (kept addr slot).mp (List.mem_append_right _ (List.mem_singleton_self _))
  · exact readFirst a s

end SimulationStateDB

/-! ## One call -/

theorem Covers.snapshot {W : World} {f : Frames} {db : SimulationStateDB} (covers : Covers W f db) :
    Covers W (f.step .snapshot) (db.exec W .snapshot).2 :=
  ⟨covers.now, List.rel_append covers.saved (.cons covers.now .nil)⟩

theorem Covers.revert {W : World} {f : Frames} {db : SimulationStateDB} (covers : Covers W f db)
    (revid : Nat) :
    Covers W (f.step (.revertToSnapshot revid)) (db.exec W (.revertToSnapshot revid)).2 := by
  show Covers W (f.step _) (db.revertToSnapshot revid)
  have long := covers.saved.length_eq
  by_cases inside : revid < f.saved.length
  · have inside' : revid < db.snapshots.length := long ▸ inside
    have found : f.saved[revid]? = some f.saved[revid] := List.getElem?_eq_getElem inside
    have found' : db.snapshots[revid]? = some db.snapshots[revid] := List.getElem?_eq_getElem inside'
    have restored := (List.forall₂_iff_get.mp covers.saved).2 revid inside inside'
    simp only [Frames.step, SimulationStateDB.revertToSnapshot, found, found']
    exact ⟨restored, List.forall₂_take revid covers.saved⟩
  · have missing : f.saved[revid]? = none := List.getElem?_eq_none (by omega)
    have missing' : db.snapshots[revid]? = none := List.getElem?_eq_none (by omega)
    simp only [Frames.step, SimulationStateDB.revertToSnapshot, missing, missing']
    exact covers

theorem Frames.step_of_no_slot (f : Frames) {op : DBOp} (noSlot : op.slot? = none)
    (noSnapshot : op ≠ .snapshot) (noRevert : ∀ revid, op ≠ .revertToSnapshot revid) :
    f.step op = f := by
  cases op with
  | snapshot => exact absurd rfl noSnapshot
  | revertToSnapshot revid => exact absurd rfl (noRevert revid)
  | getState addr slot => cases noSlot
  | getStateAndCommittedState addr slot => cases noSlot
  | setState addr slot value => cases noSlot
  | _ => simp [Frames.step, DBOp.slot?]

theorem Covers.step {W : World} {f : Frames} {db : SimulationStateDB} (covers : Covers W f db)
    (op : DBOp) : Covers W (f.step op) (db.exec W op).2 := by
  by_cases plain : op.slot? = none ∧ op ≠ .snapshot ∧ ∀ revid, op ≠ .revertToSnapshot revid
  · rw [f.step_of_no_slot plain.1 plain.2.1 plain.2.2]
    exact (SimulationStateDB.framed_exec op plain.1 plain.2.1 plain.2.2).covers covers
  · cases op with
    | snapshot => exact covers.snapshot
    | revertToSnapshot revid => exact covers.revert revid
    | getState addr slot => exact SimulationStateDB.covers_getState covers addr slot
    | getStateAndCommittedState addr slot =>
      exact SimulationStateDB.covers_getState covers addr slot
    | setState addr slot value => exact SimulationStateDB.covers_setState covers addr slot value
    | _ => exact absurd ⟨rfl, by simp, by simp⟩ plain

/-- Every account knows its shard, so every entry of a read/write set does. -/
theorem Covers.shardOfEntry {W : World} {f : Frames} {db : SimulationStateDB}
    (covers : Covers W f db) (addr : Address) : db.shardOfEntry W addr = W.addressToShard addr := by
  unfold SimulationStateDB.shardOfEntry
  split
  · rename_i acct found
    exact covers.now.homed addr acct found
  · rfl

/-! ## Whole runs -/

/-- The calls of an execution. -/
def Execution.ops {α : Type} (e : Execution α) : List DBOp := e.trace.map Prod.fst

theorem trace_call {α : Type} (W : World) (db : SimulationStateDB) (op : DBOp)
    (next : DBValue → Program α) :
    ((Program.call op next).run W db).trace =
      (op, (db.exec W op).1) :: ((next (db.exec W op).1).run W (db.exec W op).2).trace :=
  rfl

theorem Covers.run {α : Type} {W : World} (p : Program α) :
    ∀ {f : Frames} {db : SimulationStateDB}, Covers W f db →
      Covers W ((p.run W db).ops.foldl Frames.step f) (p.run W db).db := by
  induction p with
  | done result => exact fun covers => covers
  | call op next ih => exact fun covers => ih _ (covers.step op)

/-! ## Worlds that agree on what is accessed -/

variable {W : World} {g : Int → Address → Hash → Except String Hash}

theorem getState_withStorage {f : Frames} {db : SimulationStateDB} (covers : Covers W f db)
    {addr : Address} {slot : Hash}
    (agree : (W.withStorage g).storage addr slot = W.storage addr slot) :
    db.getState (W.withStorage g) addr slot = db.getState W addr slot := by
  cases written : db.writes.get addr slot with
  | some value =>
    rw [SimulationStateDB.getState_of_written written, SimulationStateDB.getState_of_written written]
  | none =>
    cases known : db.reads.get addr slot with
    | some value =>
      rw [SimulationStateDB.getState_of_read written known,
        SimulationStateDB.getState_of_read written known]
    | none =>
      have homed := covers.now.homed
      rw [SimulationStateDB.getState_of_unknown homed written known,
        SimulationStateDB.getState_of_unknown (W := W.withStorage g) homed written known, agree]
      rfl

/-- Only the three storage calls ask the world for a slot. -/
theorem exec_withStorage {f : Frames} {db : SimulationStateDB} (covers : Covers W f db) (op : DBOp)
    (agree : ∀ key, op.slot? = some key →
      (W.withStorage g).storage key.1 key.2 = W.storage key.1 key.2) :
    db.exec (W.withStorage g) op = db.exec W op := by
  cases op with
  | getState addr slot =>
    have same := getState_withStorage covers (agree (addr, slot) rfl)
    simp only [SimulationStateDB.exec, same]
  | getStateAndCommittedState addr slot =>
    have same := getState_withStorage covers (agree (addr, slot) rfl)
    simp only [SimulationStateDB.exec, SimulationStateDB.getStateAndCommittedState, same]
  | setState addr slot value =>
    have same := getState_withStorage covers (agree (addr, slot) rfl)
    simp only [SimulationStateDB.exec, SimulationStateDB.setState, same]
  | _ => rfl

theorem mem_accessed_cons {op : DBOp} {ops : List DBOp} {key : Address × Hash} :
    key ∈ accessed (op :: ops) ↔ op.slot? = some key ∨ key ∈ accessed ops := by
  simp only [accessed, List.mem_filterMap, List.mem_cons]
  exact ⟨fun ⟨o, mem, own⟩ => mem.elim (fun same => .inl (same ▸ own)) fun rest => .inr ⟨o, rest, own⟩,
    fun either => either.elim (fun own => ⟨op, .inl rfl, own⟩) fun ⟨o, rest, own⟩ => ⟨o, .inr rest, own⟩⟩

theorem run_congr {α : Type} (p : Program α) :
    ∀ {f : Frames} {db : SimulationStateDB}, Covers W f db →
      (∀ key ∈ accessed (p.run W db).ops,
        (W.withStorage g).storage key.1 key.2 = W.storage key.1 key.2) →
      p.run (W.withStorage g) db = p.run W db := by
  induction p with
  | done result => exact fun _ _ => rfl
  | call op next ih =>
    intro f db covers agree
    have same : db.exec (W.withStorage g) op = db.exec W op :=
      exec_withStorage covers op fun key own => agree key (mem_accessed_cons.mpr (.inl own))
    have rest := ih (db.exec W op).1 (covers.step op) fun key later =>
      agree key (mem_accessed_cons.mpr (.inr later))
    simp only [Program.run, same, rest]

/-! ## Worlds that differ at a slot accessed -/

/-- The value returned by the first access to a slot is the value of the world. -/
theorem exec_first_access {f : Frames} {db : SimulationStateDB} (covers : Covers W f db) {op : DBOp}
    {addr : Address} {slot : Hash} (own : op.slot? = some (addr, slot))
    (fresh : (addr, slot) ∉ f.live) :
    (db.exec W op).1 = .hash (W.storage addr slot) ∨
      (db.exec W op).1 = .hashes (W.storage addr slot) (W.storage addr slot) := by
  have unknown : db.reads.get addr slot = none := by
    rw [← Option.not_isSome_iff_eq_none]
    exact fun known => fresh ((covers.now.kept addr slot).mpr known)
  have unwritten : db.writes.get addr slot = none := by
    rw [← Option.not_isSome_iff_eq_none]
    exact fun written => fresh ((covers.now.kept addr slot).mpr (covers.now.readFirst _ _ written))
  have fetched := SimulationStateDB.getState_of_unknown covers.now.homed unwritten unknown
  cases op <;> cases own
  · exact .inl (by simp only [SimulationStateDB.exec, fetched])
  · refine .inr ?_
    simp only [SimulationStateDB.exec, SimulationStateDB.getStateAndCommittedState, fetched,
      SlotMap.get_put, and_self, if_true, Option.getD_some]
  · exact .inl (by simp only [SimulationStateDB.exec, SimulationStateDB.setState, fetched])

/-- An access elsewhere leaves a slot out of the frames. -/
theorem Frames.step_avoids {f : Frames} {op : DBOp} {key : Address × Hash}
    (elsewhere : op.slot? ≠ some key) (fresh : key ∉ f.live) (unsaved : ∀ live ∈ f.saved, key ∉ live) :
    key ∉ (f.step op).live ∧ ∀ live ∈ (f.step op).saved, key ∉ live := by
  have plain : key ∉ f.live ++ op.slot?.toList := by
    rw [List.mem_append, Option.mem_toList]
    exact fun either => either.elim fresh elsewhere
  cases op with
  | snapshot =>
    refine ⟨fresh, fun live mem => ?_⟩
    rcases List.mem_append.mp mem with old | new
    · exact unsaved live old
    · rw [List.mem_singleton.mp new]
      exact fresh
  | revertToSnapshot revid =>
    cases found : f.saved[revid]? with
    | none =>
      simp only [Frames.step, found]
      exact ⟨fresh, unsaved⟩
    | some live =>
      simp only [Frames.step, found]
      exact ⟨unsaved live (List.mem_of_getElem? found),
        fun live' mem => unsaved live' (List.mem_of_mem_take mem)⟩
  | _ => exact ⟨plain, unsaved⟩

theorem trace_differs {α : Type} {key : Address × Hash}
    (differ : (W.withStorage g).storage key.1 key.2 ≠ W.storage key.1 key.2)
    (elsewhere : ∀ other, other ≠ key →
      (W.withStorage g).storage other.1 other.2 = W.storage other.1 other.2) (p : Program α) :
    ∀ {f : Frames} {db : SimulationStateDB}, Covers W f db → Covers (W.withStorage g) f db →
      key ∉ f.live → (∀ live ∈ f.saved, key ∉ live) → key ∈ accessed (p.run W db).ops →
      (p.run (W.withStorage g) db).trace ≠ (p.run W db).trace := by
  induction p with
  | done result => exact fun _ _ _ _ mem => absurd mem List.not_mem_nil
  | call op next ih =>
    intro f db covers covers' fresh unsaved mem same
    rw [trace_call, trace_call] at same
    obtain ⟨now, later⟩ := List.cons.inj same
    have value : (db.exec (W.withStorage g) op).1 = (db.exec W op).1 := (Prod.mk.inj now).2
    by_cases own : op.slot? = some key
    · rcases exec_first_access covers own fresh with first | first <;>
        rcases exec_first_access covers' own fresh with second | second <;>
        rw [first, second] at value
      · exact differ (DBValue.hash.inj value)
      · cases value
      · cases value
      · exact differ (DBValue.hashes.inj value).1
    · have state : db.exec (W.withStorage g) op = db.exec W op :=
        exec_withStorage covers op fun other at' => elsewhere other fun eq => own (eq ▸ at')
      obtain ⟨fresh', unsaved'⟩ := Frames.step_avoids own fresh unsaved
      have rest := (mem_accessed_cons.mp mem).resolve_left own
      have covers'' := covers'.step op
      rw [state] at covers'' later
      exact ih _ (covers.step op) covers'' fresh' unsaved' rest later

/-! ## The read sets that are published -/

theorem mem_readSetAt {db : SimulationStateDB} {addr : Address} {item : ReadSetItem} :
    item ∈ db.readSetAt addr ↔
      ∃ value, db.reads.get addr item.slot = some value ∧ item.value = hashBytes value := by
  rw [SimulationStateDB.readSetAt, List.mem_map]
  constructor
  · rintro ⟨e, listed, rfl⟩
    exact ⟨e.2, SlotMap.mem_entries.1 listed, rfl⟩
  · rintro ⟨value, known, text⟩
    exact ⟨⟨item.slot, value⟩, SlotMap.mem_entries.2 known, by rw [← text]⟩

theorem mem_touched_of_read {db : SimulationStateDB} {addr : Address} {slot value : Hash}
    (known : db.reads.get addr slot = some value) : addr ∈ db.touched := by
  obtain ⟨slots, found, -⟩ := Option.bind_eq_some_iff.mp known
  exact List.mem_dedup.mpr (List.mem_append_left _ (List.mem_append_left _
    (mem_of_lookup_eq_some found)))

/-- `W'` has the values that the read sets of an execution in `W` state. -/
def AgreesOnReadSets (W W' : World) (db : SimulationStateDB) : Prop :=
  ∀ rw ∈ db.buildRwSet W, ∀ item ∈ rw.readSet,
    W'.storage rw.address item.slot = bytesToHash item.value

theorem agreesOnReadSets_iff {W' : World} {db : SimulationStateDB} :
    AgreesOnReadSets W W' db ↔
      ∀ a s v, db.reads.get a s = some v → W'.storage a s = v := by
  constructor
  · intro agrees a s v known
    have entry := agrees _ (List.mem_map_of_mem (mem_touched_of_read known))
      ⟨s, hashBytes v⟩ (mem_readSetAt.mpr ⟨v, known, rfl⟩)
    exact entry.trans (bytesToHash_hashBytes v)
  · intro agrees rw mem item read
    obtain ⟨addr, -, rfl⟩ := List.mem_map.mp mem
    obtain ⟨value, known, text⟩ := mem_readSetAt.mp read
    rw [text, bytesToHash_hashBytes]
    exact agrees addr item.slot value known

/-- Address and write set of each entry. -/
def writeSets (W : World) (db : SimulationStateDB) : List (Address × List WriteSetItem) :=
  (db.buildRwSet W).map fun rw => (rw.address, rw.writeSet)

/-- The run in `W'` cannot be told from the run in `W`: the same calls with the same values, the
same result and the same write sets. -/
structure SameRun {α : Type} (W W' : World) (p : Program α) : Prop where
  trace : (p.run W' .newSimulationStateDB).trace = (p.run W .newSimulationStateDB).trace
  result : (p.run W' .newSimulationStateDB).result = (p.run W .newSimulationStateDB).result
  writes : writeSets W' (p.run W' .newSimulationStateDB).db =
    writeSets W (p.run W .newSimulationStateDB).db

/-- The storage of `W`, changed at one slot. -/
def World.storageBut (W : World) (key : Address × Hash) (shard : Int) (addr : Address) (slot : Hash) :
    Except String Hash :=
  if (addr, slot) = key then .ok (W.storage key.1 key.2 + 1) else W.getStorageAt shard addr slot

theorem storage_storageBut (key other : Address × Hash) :
    (W.withStorage (W.storageBut key)).storage other.1 other.2 =
      if other = key then W.storage key.1 key.2 + 1 else W.storage other.1 other.2 := by
  show (match W.storageBut key _ other.1 other.2 with
    | .ok value => value
    | .error _ => 0) = _
  by_cases own : other = key
  · simp only [World.storageBut, own, if_true]
  · simp only [World.storageBut, own, if_false]
    rfl

/-- **When the read sets determine a simulation.**  Every world with the same accounts that has
the values stated in the read sets of a run gives the same run, if and only if each slot that the
run accesses survives: it is also accessed by a call that no later revert undoes. -/
theorem read_set_complete_iff {α : Type} (W : World) (p : Program α) :
    (∀ g, AgreesOnReadSets W (W.withStorage g) (p.run W .newSimulationStateDB).db →
        SameRun W (W.withStorage g) p) ↔
      ∀ key ∈ accessed (p.run W .newSimulationStateDB).ops,
        key ∈ surviving (p.run W .newSimulationStateDB).ops := by
  have start := covers_start W
  have finish := start.run p
  constructor
  · intro determined key mem
    by_contra lost
    -- Change the world at the lost slot only: no read set mentions it.
    have agrees : AgreesOnReadSets W (W.withStorage (W.storageBut key))
        (p.run W .newSimulationStateDB).db := by
      refine agreesOnReadSets_iff.mpr fun a s v known => ?_
      have survives := (finish.now.kept a s).mpr (by rw [known]; rfl)
      have other : (a, s) ≠ key := fun own => lost (own ▸ survives)
      rw [storage_storageBut key (a, s), if_neg other]
      exact (finish.now.genuine a s v known).symm
    have differ : (W.withStorage (W.storageBut key)).storage key.1 key.2 ≠ W.storage key.1 key.2 := by
      rw [storage_storageBut, if_pos rfl]
      bv_omega
    refine trace_differs differ (fun other apart => ?_) p start (covers_start _) List.not_mem_nil
      (fun _ saved => absurd saved List.not_mem_nil) mem (determined _ agrees).trace
    rw [storage_storageBut, if_neg apart]
  · intro complete g agrees
    have same : p.run (W.withStorage g) .newSimulationStateDB = p.run W .newSimulationStateDB := by
      refine run_congr p start fun key mem => ?_
      obtain ⟨value, known⟩ := Option.isSome_iff_exists.mp ((finish.now.kept _ _).mp (complete key mem))
      rw [agreesOnReadSets_iff.mp agrees _ _ _ known, finish.now.genuine _ _ _ known]
    exact ⟨by rw [same], by rw [same], by rw [same]; rfl⟩

namespace RevertedReadPole

def contract : Address := 0x100

/-- One shard without accounts, with a single slot set. -/
def world (value : Hash) : World where
  numShards := 1
  fetchState := fun _ _ => .ok ⟨none, 0, [], 0⟩
  getStorageAt := fun _ _ slot => .ok (if slot = 1 then value else 0)
  keccak256Hash := fun _ => 0

/-- A sub-call reads slot 1 and fails; the caller writes slot 2 if the value was not zero. -/
def program : Program Unit :=
  .call .snapshot fun _ =>
  .call (.getState contract 1) fun value =>
  .call (.revertToSnapshot 0) fun _ =>
  if value = .hash 0 then .done () else .call (.setState contract 2 7) fun _ => .done ()

end RevertedReadPole

open RevertedReadPole in
/-- Slot 1 decides what is written and is in no read set. -/
theorem reverted_read_decides_write :
    AgreesOnReadSets (world 0) ((world 0).withStorage (world 5).getStorageAt)
        (program.run (world 0) .newSimulationStateDB).db ∧
      (program.run (world 0) .newSimulationStateDB).db.buildRwSet (world 0) = [] ∧
      writeSets (world 0) (program.run (world 0) .newSimulationStateDB).db = [] ∧
      writeSets ((world 0).withStorage (world 5).getStorageAt)
          (program.run ((world 0).withStorage (world 5).getStorageAt) .newSimulationStateDB).db =
        [(contract, [⟨2, hashBytes 0, hashBytes 7⟩])] ∧
      ¬ SameRun (world 0) ((world 0).withStorage (world 5).getStorageAt) program := by
  have empty : (program.run (world 0) .newSimulationStateDB).db.buildRwSet (world 0) = [] := by
    decide +kernel
  refine ⟨fun rw mem => ?_, empty, by decide +kernel, by decide +kernel, fun same => ?_⟩
  · rw [empty] at mem
    exact absurd mem List.not_mem_nil
  · exact absurd same.writes (by decide +kernel)

end CrossShard.Orchestrator
