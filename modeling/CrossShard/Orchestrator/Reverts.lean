/-
# Orchestrator.Reverts -- what a revert restores, and what it leaves behind

`Snapshot` saves accounts, reads, writes, the refund counter and the number of logs.  Everything
the virtual machine can ask about these is as it was after `RevertToSnapshot`, however many
snapshots were taken and reverted in between (`Holds`).  Transient storage and the access list are
not saved: a revert leaves them as the reverted calls made them.

* `Holds`: the snapshot stays in place, and the logs only grow on top of it.
* `query_congr`: which parts of the state the queries read.
* `transientOf`, `warmed`: transient storage and access list as functions of the calls alone.
* `revert_restores_iff`: a revert restores every answer exactly when the reverted calls left no
  mark in these two.
-/
import CrossShard.Orchestrator.AccessLists

namespace CrossShard.Orchestrator

set_option autoImplicit false

open CrossShard.Library CrossShard.Protocol

/-- The calls that only ask. -/
def DBOp.isQuery : DBOp → Bool
  | .getBalance _ | .getNonce _ | .getCodeHash _ | .getCode _ | .getCodeSize _ => true
  | .getRefund | .getState _ _ | .getStateAndCommittedState _ _ | .getStorageRoot _ => true
  | .getTransientState _ _ | .hasSelfDestructed _ | .exist _ | .empty _ => true
  | .addressInAccessList _ | .slotInAccessList _ _ => true
  | _ => false

/-! ## The saved part -/

/-- The snapshot of `saved` is in place, and every later one has at least its logs. -/
structure Holds (saved db : SimulationStateDB) : Prop where
  entry : db.snapshots[saved.snapshots.length]? =
    some ⟨saved.accounts, saved.reads, saved.writes, saved.refund, saved.logs.length⟩
  logs : saved.logs <+: db.logs
  later : ∀ revid snap, saved.snapshots.length < revid → db.snapshots[revid]? = some snap →
    saved.logs.length ≤ snap.logsLen

variable {W : World} {saved db db' : SimulationStateDB}

theorem holds_snapshot (saved : SimulationStateDB) : Holds saved saved.snapshot.2 := by
  refine ⟨by simp [SimulationStateDB.snapshot], List.prefix_rfl, fun revid snap later found => ?_⟩
  have short : saved.snapshot.2.snapshots.length ≤ revid := by
    simpa [SimulationStateDB.snapshot] using Nat.succ_le_of_lt later
  rw [List.getElem?_eq_none short] at found
  cases found

theorem Holds.keep (holds : Holds saved db) (snapshots : db'.snapshots = db.snapshots)
    (logs : db'.logs = db.logs) : Holds saved db' := by
  refine ⟨?_, ?_, ?_⟩
  · rw [snapshots]
    exact holds.entry
  · rw [logs]
    exact holds.logs
  · rw [snapshots]
    exact holds.later

theorem Holds.snapshot (holds : Holds saved db) : Holds saved db.snapshot.2 := by
  have placed := (List.getElem?_eq_some_iff.1 holds.entry).1
  refine ⟨?_, holds.logs, fun revid snap later found => ?_⟩
  · show (db.snapshots ++ _)[saved.snapshots.length]? = _
    rw [List.getElem?_append_left placed]
    exact holds.entry
  · have found' : (db.snapshots ++ [_])[revid]? = some snap := found
    rw [List.getElem?_append] at found'
    split at found'
    · exact holds.later revid snap later found'
    · obtain ⟨bound, same⟩ := List.getElem?_eq_some_iff.1 found'
      rw [List.getElem_singleton] at same
      rw [← same]
      exact holds.logs.length_le

/-- A revert to a later snapshot leaves this one in place. -/
theorem Holds.revert (holds : Holds saved db) {revid : Nat}
    (later : saved.snapshots.length < revid) : Holds saved (db.revertToSnapshot revid) := by
  unfold SimulationStateDB.revertToSnapshot
  split
  · exact holds
  · rename_i snap found
    have long := holds.later revid snap later found
    refine ⟨?_, ?_, fun revid' snap' later' found' => ?_⟩
    · rw [List.getElem?_take_of_lt later]
      exact holds.entry
    · exact List.prefix_take_iff.2 ⟨holds.logs, long⟩
    · rw [List.getElem?_take] at found'
      split at found'
      · exact holds.later revid' snap' later' found'
      · cases found'

theorem Holds.addLog (holds : Holds saved db) (log : Log) : Holds saved (db.addLog log) :=
  ⟨holds.entry, holds.logs.trans (List.prefix_append _ _), holds.later⟩

/-- **One call.** -/
theorem Holds.exec (holds : Holds saved db) (op : DBOp)
    (nested : ∀ revid, op = .revertToSnapshot revid → saved.snapshots.length < revid) :
    Holds saved (db.exec W op).2 := by
  by_cases plain : op.plain = true
  · have same : Untouched db (db.exec W op).2 := SimulationStateDB.untouched_exec op plain
    exact holds.keep same.snapshots same.logs
  · cases op with
    | snapshot => exact holds.snapshot
    | revertToSnapshot revid => exact holds.revert (nested revid rfl)
    | addLog log => exact holds.addLog log
    | setState addr slot value =>
        have same : Untouched db (db.getState W addr slot).2 :=
          SimulationStateDB.untouched_getState addr slot
        exact holds.keep same.snapshots same.logs
    | addRefund _ | subRefund _ | setTransientState _ _ _ | addAddressToAccessList _
    | addSlotToAccessList _ _ | prepare _ _ _ _ _ => exact holds.keep rfl rfl
    | _ => exact absurd rfl plain

/-- **All calls between a snapshot and its revert.** -/
theorem holds_answered (saved : SimulationStateDB) (inside : List DBOp)
    (nested : ∀ revid, .revertToSnapshot revid ∈ inside → saved.snapshots.length < revid) :
    Holds saved (answered (SimulationStateDB.exec W) saved.snapshot.2 inside) := by
  refine answered_history
    (fun ops db => (∀ revid, .revertToSnapshot revid ∈ ops → saved.snapshots.length < revid) →
      Holds saved db) ?_ (fun _ => holds_snapshot saved) inside nested
  intro ops db op ih nested'
  refine (ih fun revid member => nested' revid (List.mem_append_left _ member)).exec op ?_
  rintro revid rfl
  exact nested' revid (List.mem_append_right _ (List.mem_singleton_self _))

/-- What the snapshot saved comes back. -/
structure Restored (saved db : SimulationStateDB) : Prop where
  accounts : db.accounts = saved.accounts
  reads : db.reads = saved.reads
  writes : db.writes = saved.writes
  refund : db.refund = saved.refund
  logs : db.logs = saved.logs

theorem Holds.restored (holds : Holds saved db) :
    Restored saved (db.revertToSnapshot saved.snapshots.length) := by
  unfold SimulationStateDB.revertToSnapshot
  rw [holds.entry]
  exact ⟨rfl, rfl, rfl, rfl, List.prefix_iff_eq_take.1 holds.logs |>.symm⟩

/-! ## What the queries read -/

namespace SimulationStateDB

theorem getOrFetchAccount_congr (accounts : db'.accounts = db.accounts) (addr : Address) :
    (db'.getOrFetchAccount W addr).1 = (db.getOrFetchAccount W addr).1 := by
  unfold getOrFetchAccount
  rw [accounts]
  split
  · rfl
  · split <;> rfl

theorem reads_getOrFetchAccount (addr : Address) :
    (db.getOrFetchAccount W addr).2.reads = db.reads := by
  unfold getOrFetchAccount
  split
  · rfl
  · split <;> rfl

theorem getState_congr (accounts : db'.accounts = db.accounts) (reads : db'.reads = db.reads)
    (writes : db'.writes = db.writes) (addr : Address) (slot : Hash) :
    (db'.getState W addr slot).1 = (db.getState W addr slot).1 ∧
      (db'.getState W addr slot).2.reads = (db.getState W addr slot).2.reads := by
  have same := getOrFetchAccount_congr (W := W) accounts addr
  unfold getState
  rw [writes, reads]
  split
  · exact ⟨rfl, reads⟩
  · split
    · exact ⟨rfl, reads⟩
    · dsimp only
      rw [same, reads_getOrFetchAccount, reads_getOrFetchAccount, reads]
      exact ⟨rfl, rfl⟩

/-- Two states with the same saved part that answer alike about transient storage and the access
list answer every query alike. -/
theorem query_congr (same : Restored db db')
    (transient : ∀ a k, db'.getTransientState a k = db.getTransientState a k)
    (warm : ∀ a s, db'.accessList.contains a s = db.accessList.contains a s) {q : DBOp}
    (asks : q.isQuery = true) : (db'.exec W q).1 = (db.exec W q).1 := by
  have account : ∀ (addr : Address) (view : AccountState → DBValue),
      (db'.readAccount W addr view).1 = (db.readAccount W addr view).1 :=
    fun addr view => congrArg view (getOrFetchAccount_congr same.accounts addr)
  have storage := getState_congr (W := W) same.accounts same.reads same.writes
  cases q with
  | getBalance addr | getNonce addr | getCodeHash addr | getCode addr | getCodeSize addr
  | exist addr | empty addr => exact account addr _
  | getRefund => exact congrArg DBValue.uint same.refund
  | getState addr slot => exact congrArg DBValue.hash (storage addr slot).1
  | getStateAndCommittedState addr slot =>
      simp only [exec, getStateAndCommittedState, (storage addr slot).1, (storage addr slot).2]
  | getStorageRoot addr => rfl
  | getTransientState addr key => exact congrArg DBValue.hash (transient addr key)
  | hasSelfDestructed addr =>
      simp only [exec, hasSelfDestructed, same.accounts]
  | addressInAccessList addr =>
      have first := congrArg Prod.fst (warm addr 0)
      rw [AccessList.contains_eq, AccessList.contains_eq] at first
      exact congrArg DBValue.bool first
  | slotInAccessList addr slot =>
      simp only [exec, warm addr slot]
  | _ => cases asks

end SimulationStateDB

/-! ## The part that is not saved -/

/-- The value of a transient slot after the calls: that of the last write. -/
def transientOf (ops : List DBOp) (a : Address) (k : Hash) : Hash :=
  ops.foldl (fun value op =>
    match op with
    | .setTransientState addr key new => if a = addr ∧ k = key then new else value
    | _ => value) 0

/-- What `Prepare` puts into a new access list. -/
def prepareCalls (sender coinbase : Address) (dest : Option Address) (precompiles : List Address)
    (txAccesses : List (Address × List Hash)) : List AccessList.Call :=
  .addAddress sender :: dest.toList.map .addAddress ++ [.addAddress coinbase] ++
    precompiles.map .addAddress ++
    txAccesses.flatMap fun el => .addAddress el.1 :: el.2.map (.addSlot el.1)

/-- The calls that made the present access list: `Prepare` starts a new one. -/
def accessCalls (calls : List AccessList.Call) : DBOp → List AccessList.Call
  | .addAddressToAccessList addr => calls ++ [.addAddress addr]
  | .addSlotToAccessList addr slot => calls ++ [.addSlot addr slot]
  | .prepare sender coinbase dest precompiles txAccesses =>
      prepareCalls sender coinbase dest precompiles txAccesses
  | _ => calls

def warmed (ops : List DBOp) : List AccessList.Call := ops.foldl accessCalls []

namespace SimulationStateDB

variable {W : World} {db : SimulationStateDB}

theorem getTransientState_setTransientState (addr a : Address) (key k value : Hash) :
    (db.setTransientState addr key value).getTransientState a k =
      if a = addr ∧ k = key then value else db.getTransientState a k := by
  simp only [setTransientState, getTransientState, FMap.get_set]
  by_cases here : a = addr
  · subst here
    by_cases own : k = key
    · simp [own]
    · cases stored : db.transient.get a <;> simp [own]
  · simp [here]

theorem getTransientState_exec (op : DBOp) (a : Address) (k : Hash) :
    (db.exec W op).2.getTransientState a k =
      match op with
      | .setTransientState addr key new => if a = addr ∧ k = key then new
          else db.getTransientState a k
      | _ => db.getTransientState a k := by
  have keep : ∀ {db' : SimulationStateDB}, db'.transient = db.transient →
      db'.getTransientState a k = db.getTransientState a k := fun same => by
    unfold getTransientState
    rw [same]
  by_cases plain : op.plain = true
  · have same : Untouched db (db.exec W op).2 := untouched_exec op plain
    cases op <;> first | exact keep same.transient | cases plain
  · cases op with
    | setTransientState addr key value =>
        exact getTransientState_setTransientState addr a key k value
    | setState addr slot value =>
        have same : Untouched db (db.getState W addr slot).2 := untouched_getState addr slot
        exact keep same.transient
    | revertToSnapshot revid => exact keep (unsaved_revertToSnapshot revid).transient
    | addRefund _ | subRefund _ | addAddressToAccessList _ | addSlotToAccessList _ _
    | prepare _ _ _ _ _ | snapshot | addLog _ => exact keep rfl
    | _ => exact absurd rfl plain

/-- **Transient storage after any calls.** -/
theorem getTransientState_answered (ops : List DBOp) (a : Address) (k : Hash) :
    (answered (exec W) newSimulationStateDB ops).getTransientState a k = transientOf ops a k := by
  refine answered_history
    (fun ops (db : SimulationStateDB) => db.getTransientState a k = transientOf ops a k) ?_ rfl ops
  intro ops db op ih
  rw [getTransientState_exec, transientOf, List.foldl_append, List.foldl_cons, List.foldl_nil, ih]
  rfl

theorem answered_addAddress (al : AccessList) (addrs : List Address) :
    addrs.foldl (fun al addr => (al.addAddress addr).2) al =
      answered AccessList.exec al (addrs.map .addAddress) := by
  induction addrs generalizing al with
  | nil => rfl
  | cons addr addrs ih => exact ih (al.addAddress addr).2

theorem answered_addSlot (al : AccessList) (addr : Address) (slots : List Hash) :
    slots.foldl (fun al key => (al.addSlot addr key).2) al =
      answered AccessList.exec al (slots.map (.addSlot addr)) := by
  induction slots generalizing al with
  | nil => rfl
  | cons slot slots ih => exact ih (al.addSlot addr slot).2

theorem answered_txAccesses (al : AccessList) (txAccesses : List (Address × List Hash)) :
    txAccesses.foldl (fun al el =>
        el.2.foldl (fun al key => (al.addSlot el.1 key).2) (al.addAddress el.1).2) al =
      answered AccessList.exec al
        (txAccesses.flatMap fun el => .addAddress el.1 :: el.2.map (.addSlot el.1)) := by
  induction txAccesses generalizing al with
  | nil => rfl
  | cons el rest ih =>
      rw [List.foldl_cons, ih, List.flatMap_cons, answered_append, answered_addSlot]
      rfl

theorem accessList_prepare (sender coinbase : Address) (dest : Option Address)
    (precompiles : List Address) (txAccesses : List (Address × List Hash)) :
    (db.prepare sender coinbase dest precompiles txAccesses).accessList =
      answered AccessList.exec AccessList.newAccessList
        (prepareCalls sender coinbase dest precompiles txAccesses) := by
  simp only [prepare, prepareCalls]
  rw [answered_txAccesses, answered_addAddress, answered_append, answered_append]
  congr 2
  cases dest <;> rfl

theorem accessList_exec {calls : List AccessList.Call}
    (built : db.accessList = answered AccessList.exec AccessList.newAccessList calls) (op : DBOp) :
    (db.exec W op).2.accessList =
      answered AccessList.exec AccessList.newAccessList (accessCalls calls op) := by
  by_cases plain : op.plain = true
  · have same : Untouched db (db.exec W op).2 := untouched_exec op plain
    cases op <;> first | exact same.accessList.trans built | cases plain
  · cases op with
    | addAddressToAccessList addr =>
        rw [accessCalls, answered_append, ← built]
        rfl
    | addSlotToAccessList addr slot =>
        rw [accessCalls, answered_append, ← built]
        rfl
    | prepare sender coinbase dest precompiles txAccesses =>
        exact accessList_prepare sender coinbase dest precompiles txAccesses
    | setState addr slot value =>
        have same : Untouched db (db.getState W addr slot).2 := untouched_getState addr slot
        exact same.accessList.trans built
    | revertToSnapshot revid => exact (unsaved_revertToSnapshot revid).accessList.trans built
    | addRefund _ | subRefund _ | setTransientState _ _ _ | snapshot | addLog _ => exact built
    | _ => exact absurd rfl plain

/-- **The access list after any calls.** -/
theorem contains_answered (ops : List DBOp) (a : Address) (s : Hash) :
    (answered (exec W) newSimulationStateDB ops).accessList.contains a s =
      (decide (AccessList.Named (warmed ops) a), decide (.addSlot a s ∈ warmed ops)) := by
  have built : (answered (exec W) newSimulationStateDB ops).accessList =
      answered AccessList.exec AccessList.newAccessList (warmed ops) := by
    refine answered_history (fun ops (db : SimulationStateDB) => db.accessList =
      answered AccessList.exec AccessList.newAccessList (warmed ops)) ?_ rfl ops
    intro ops db op ih
    rw [accessList_exec ih, warmed, warmed, List.foldl_append, List.foldl_cons, List.foldl_nil]
  rw [built]
  have represents := AccessList.represents_answered (warmed ops)
  rw [AccessList.contains_eq, Prod.mk.injEq]
  exact ⟨Bool.eq_iff_iff.2 ((represents.addresses a).trans decide_eq_true_iff.symm),
    Bool.eq_iff_iff.2 ((represents.slots a s).trans decide_eq_true_iff.symm)⟩

end SimulationStateDB

/-! ## The revert -/

/-- The calls inside leave no mark: each transient slot ends as it was, and the access list holds
the same addresses and slots. -/
structure Unmarked (before inside : List DBOp) : Prop where
  transient : ∀ a k, transientOf (before ++ inside) a k = transientOf before a k
  addresses : ∀ a, AccessList.Named (warmed (before ++ inside)) a ↔
    AccessList.Named (warmed before) a
  slots : ∀ a s, .addSlot a s ∈ warmed (before ++ inside) ↔ .addSlot a s ∈ warmed before

/-- The state in which the snapshot is taken, after any calls. -/
def stateBefore (W : World) (before : List DBOp) : SimulationStateDB :=
  answered (SimulationStateDB.exec W) SimulationStateDB.newSimulationStateDB before

/-- The state after the snapshot, the calls inside, and the revert to the snapshot. -/
def reverted (W : World) (before inside : List DBOp) : SimulationStateDB :=
  (answered (SimulationStateDB.exec W) (stateBefore W before).snapshot.2 inside).revertToSnapshot
    (stateBefore W before).snapshot.1

theorem answered_snapshot (W : World) (before inside : List DBOp) :
    answered (SimulationStateDB.exec W) (stateBefore W before).snapshot.2 inside =
      answered (SimulationStateDB.exec W) SimulationStateDB.newSimulationStateDB
        (before ++ .snapshot :: inside) := by
  rw [answered_append]
  rfl

theorem transientOf_snapshot (before inside : List DBOp) (a : Address) (k : Hash) :
    transientOf (before ++ .snapshot :: inside) a k = transientOf (before ++ inside) a k := by
  simp only [transientOf, List.foldl_append, List.foldl_cons]

theorem warmed_snapshot (before inside : List DBOp) :
    warmed (before ++ .snapshot :: inside) = warmed (before ++ inside) := by
  simp only [warmed, List.foldl_append, List.foldl_cons, accessCalls]

theorem getTransientState_reverted (W : World) (before inside : List DBOp) (a : Address)
    (k : Hash) : (reverted W before inside).getTransientState a k =
      transientOf (before ++ inside) a k := by
  rw [← transientOf_snapshot, ← SimulationStateDB.getTransientState_answered (W := W),
    ← answered_snapshot]
  exact SimulationStateDB.getTransientState_exec (W := W) (.revertToSnapshot _) a k

theorem contains_reverted (W : World) (before inside : List DBOp) (a : Address) (s : Hash) :
    (reverted W before inside).accessList.contains a s =
      (decide (AccessList.Named (warmed (before ++ inside)) a),
        decide (.addSlot a s ∈ warmed (before ++ inside))) := by
  rw [← warmed_snapshot, ← SimulationStateDB.contains_answered (W := W), ← answered_snapshot]
  exact congrArg (AccessList.contains · a s)
    (SimulationStateDB.unsaved_revertToSnapshot _).accessList

/-- **A revert restores every answer exactly when the reverted calls left no mark** in transient
storage and in the access list.  Balances, nonces, code, storage, refund and logs always come
back. -/
theorem revert_restores_iff (W : World) (before inside : List DBOp)
    (nested : ∀ revid, .revertToSnapshot revid ∈ inside →
      (stateBefore W before).snapshot.1 < revid) :
    ((∀ q : DBOp, q.isQuery = true → ((reverted W before inside).exec W q).1 =
          ((stateBefore W before).snapshot.2.exec W q).1) ∧
        (reverted W before inside).logs = (stateBefore W before).snapshot.2.logs) ↔
      Unmarked before inside := by
  have restored : Restored (stateBefore W before) (reverted W before inside) :=
    (holds_answered (stateBefore W before) inside nested).restored
  have now := SimulationStateDB.getTransientState_answered (W := W) before
  have warm := SimulationStateDB.contains_answered (W := W) before
  constructor
  · rintro ⟨answers, -⟩
    have asked : ∀ a s, ((reverted W before inside).accessList.contains a s).1 =
          ((stateBefore W before).accessList.contains a s).1 ∧
        ((reverted W before inside).accessList.contains a s).2 =
          ((stateBefore W before).accessList.contains a s).2 :=
      fun a s => DBValue.bools.inj (answers (.slotInAccessList a s) rfl)
    refine ⟨fun a k => ?_, fun a => ?_, fun a s => ?_⟩
    · have same := DBValue.hash.inj (answers (.getTransientState a k) rfl)
      rw [getTransientState_reverted] at same
      exact same.trans (now a k)
    · have same := (asked a 0).1
      rw [contains_reverted] at same
      exact decide_eq_decide.1 (same.trans (congrArg Prod.fst (warm a 0)))
    · have same := (asked a s).2
      rw [contains_reverted] at same
      exact decide_eq_decide.1 (same.trans (congrArg Prod.snd (warm a s)))
  · intro unmarked
    refine ⟨fun q asks => ?_, restored.logs⟩
    refine SimulationStateDB.query_congr ?_ (fun a k => ?_) (fun a s => ?_) asks
    · exact ⟨restored.accounts, restored.reads, restored.writes, restored.refund, restored.logs⟩
    · rw [getTransientState_reverted, unmarked.transient]
      exact (now a k).symm
    · rw [contains_reverted]
      refine Eq.trans ?_ (warm a s).symm
      rw [Prod.mk.injEq]
      exact ⟨decide_eq_decide.2 (unmarked.addresses a), decide_eq_decide.2 (unmarked.slots a s)⟩

namespace RevertPole

def pot : Address := 0x100
def other : Address := 0x208

/-- Every account holds 5 and every slot 7. -/
def world : World where
  numShards := 8
  fetchState _ _ := .ok ⟨some 5, 0, [], 0⟩
  getStorageAt _ _ _ := .ok 7
  keccak256Hash _ := 1

def begun : List DBOp := [.prepare pot 0 none [] [], .setTransientState pot 0 1]

/-- A failing call that writes, logs, warms what is warm and fails inside as well. -/
def clean : List DBOp :=
  [.setState pot 0 9, .addBalance other 3, .setTransientState pot 0 2, .snapshot,
    .addLog ⟨other, [], []⟩, .revertToSnapshot 1, .addAddressToAccessList pot,
    .setTransientState pot 0 1, .addRefund 10]

/-- A failing call that sets a reentrancy flag and touches a new address and a new slot. -/
def marking : List DBOp :=
  [.setTransientState pot 1 1, .addAddressToAccessList other, .addSlotToAccessList pot 7]

end RevertPole

open RevertPole in
theorem clean_call_is_undone :
    ((∀ q : DBOp, q.isQuery = true → ((reverted world begun clean).exec world q).1 =
          ((stateBefore world begun).snapshot.2.exec world q).1) ∧
        (reverted world begun clean).logs = (stateBefore world begun).snapshot.2.logs) := by
  refine (revert_restores_iff world begun clean ?_).2 ⟨fun a k => ?_, fun a => ?_, fun a s => ?_⟩
  · intro revid member
    simp only [clean, List.mem_cons, List.not_mem_nil, reduceCtorEq, false_or, or_false,
      DBOp.revertToSnapshot.injEq] at member
    subst member
    decide
  · simp only [transientOf, begun, clean, List.cons_append, List.nil_append, List.foldl_cons,
      List.foldl_nil]
    split <;> rfl
  · simp [warmed, begun, clean, accessCalls, prepareCalls, AccessList.Named,
      AccessList.Call.addr]
    grind
  · simp [warmed, begun, clean, accessCalls, prepareCalls]

open RevertPole in
/-- After the revert the flag is still set, and the address and the slot are still warm. -/
theorem reverted_call_leaves_marks :
    [DBOp.getTransientState pot 1, .addressInAccessList other, .slotInAccessList pot 7].map
        (fun q => ((reverted world begun marking).exec world q).1) =
      [.hash 1, .bool true, .bools true true] ∧
    [DBOp.getTransientState pot 1, .addressInAccessList other, .slotInAccessList pot 7].map
        (fun q => ((stateBefore world begun).snapshot.2.exec world q).1) =
      [.hash 0, .bool false, .bools true false] := by
  decide +kernel

end CrossShard.Orchestrator
