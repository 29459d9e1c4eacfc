/-
# Orchestrator.FetchErrors -- which failed fetches a simulation notices

The state interface cannot return errors, so a failed fetch is to be recorded and checked at the
end.  `getOrFetchAccount` does so; `GetState` takes a slot that could not be fetched for zero,
keeps the zero and records nothing.

Fetches may fail at some calls and succeed at others: `Outages` says, for each call of a run,
whether the account fetch and the slot fetch it may issue fail.

* `failedFetches`: the fetches of a call that fail, in order.
* `exec_during`: a call without a failed fetch is the call of the intact world, so the failed
  fetches are all that can put a value of nobody into a simulation.
* `Watched.Recorded`: what is recorded are the failed account fetches, no others.
* `failed_fetch_is_noticed_iff`: when a failed fetch makes the simulation fail.
-/
import CrossShard.Orchestrator.Simulator
import CrossShard.Library.Run

namespace CrossShard.Orchestrator

set_option autoImplicit false

open CrossShard.Library CrossShard.Protocol

/-! ## Failing fetches -/

/-- For each call of a run, the errors of the account fetch and of the slot fetch, if these
fail. -/
structure Outages where
  accounts : Nat → Option String
  slots : Nat → Option String

/-- The world as the `n`-th call meets it. -/
def World.during (W : World) (o : Outages) (n : Nat) : World :=
  { W with
    fetchState := fun shard addr =>
      match o.accounts n with
      | some err => .error err
      | none => W.fetchState shard addr
    getStorageAt := fun shard addr slot =>
      match o.slots n with
      | some err => .error err
      | none => W.getStorageAt shard addr slot }

inductive FailedFetch where
  | account (addr : Address) (err : String)
  | slot (addr : Address) (slot : Hash) (err : String)
  deriving DecidableEq

/-- The error of a failed account fetch. -/
def FailedFetch.accountErr : FailedFetch → Option String
  | .account _ err => some err
  | .slot _ _ _ => none

/-- What a call needs from the shards. -/
inductive Need where
  | nothing
  | account (addr : Address)
  | slot (addr : Address) (slot : Hash)

def DBOp.need : DBOp → Need
  | .getBalance addr | .subBalance addr _ | .addBalance addr _ | .getNonce addr
  | .setNonce addr _ | .getCodeHash addr | .getCode addr | .setCode addr _ | .getCodeSize addr
  | .selfDestruct addr | .selfDestruct6780 addr | .exist addr | .empty addr => .account addr
  | .getState addr slot | .getStateAndCommittedState addr slot | .setState addr slot _ =>
      .slot addr slot
  | _ => .nothing

namespace SimulationStateDB

def hasFetchErrors (db : SimulationStateDB) : Bool := 0 < db.fetchErrors.length

/-- The account is fetched unless it is known. -/
def failedAccount (W : World) (db : SimulationStateDB) (addr : Address) : List FailedFetch :=
  match db.accounts.lookup addr with
  | some _ => []
  | none =>
      match W.fetchState (W.addressToShard addr) addr with
      | .error err => [.account addr err]
      | .ok _ => []

/-- The slot is fetched, after the account, unless it was written or read before. -/
def failedSlot (W : World) (db : SimulationStateDB) (addr : Address) (slot : Hash) :
    List FailedFetch :=
  match db.writes.get addr slot, db.reads.get addr slot with
  | none, none =>
      db.failedAccount W addr ++
        match W.getStorageAt (db.getOrFetchAccount W addr).1.shardID addr slot with
        | .error err => [.slot addr slot err]
        | .ok _ => []
  | _, _ => []

def failedFetches (W : World) (db : SimulationStateDB) (op : DBOp) : List FailedFetch :=
  match op.need with
  | .nothing => []
  | .account addr => db.failedAccount W addr
  | .slot addr slot => db.failedSlot W addr slot

variable {W : World} {db : SimulationStateDB}

/-! ## What is recorded -/

theorem fetchErrors_getOrFetchAccount (addr : Address) :
    (db.getOrFetchAccount W addr).2.fetchErrors =
      db.fetchErrors ++ (db.failedAccount W addr).filterMap FailedFetch.accountErr := by
  unfold getOrFetchAccount failedAccount
  cases db.accounts.lookup addr with
  | some acct => simp
  | none =>
      cases W.fetchState (W.addressToShard addr) addr <;> simp [FailedFetch.accountErr]

theorem fetchErrors_modifyAccount (addr : Address) (change : AccountState → AccountState) :
    (db.modifyAccount W addr change).2.fetchErrors =
      (db.getOrFetchAccount W addr).2.fetchErrors := by
  simp only [modifyAccount]
  split <;> rfl

/-- The failed fetch of a slot leaves no trace. -/
theorem fetchErrors_getState (addr : Address) (slot : Hash) :
    (db.getState W addr slot).2.fetchErrors =
      db.fetchErrors ++ (db.failedSlot W addr slot).filterMap FailedFetch.accountErr := by
  unfold getState failedSlot
  cases db.writes.get addr slot with
  | some value => simp
  | none =>
      cases db.reads.get addr slot with
      | some value => simp
      | none =>
          dsimp only
          rw [fetchErrors_getOrFetchAccount, List.filterMap_append]
          cases W.getStorageAt (db.getOrFetchAccount W addr).1.shardID addr slot <;>
            simp [FailedFetch.accountErr]

/-- **One call records its failed account fetch.** -/
theorem fetchErrors_exec (op : DBOp) :
    (db.exec W op).2.fetchErrors =
      db.fetchErrors ++ (db.failedFetches W op).filterMap FailedFetch.accountErr := by
  cases op with
  | getBalance addr | getNonce addr | getCodeHash addr | getCode addr | getCodeSize addr
  | exist addr | empty addr => exact fetchErrors_getOrFetchAccount addr
  | subBalance addr _ | addBalance addr _ | setNonce addr _ | setCode addr _ | selfDestruct addr
  | selfDestruct6780 addr =>
      simp only [exec, subBalance, addBalance, setNonce, setCode, selfDestruct, selfDestruct6780,
        fetchErrors_modifyAccount]
      exact fetchErrors_getOrFetchAccount addr
  | getState addr slot | getStateAndCommittedState addr slot | setState addr slot _ =>
      exact fetchErrors_getState addr slot
  | revertToSnapshot revid =>
      exact (unsaved_revertToSnapshot revid).fetchErrors.trans (List.append_nil _).symm
  | _ => exact (List.append_nil _).symm

/-! ## Calls without a failed fetch -/

variable {o : Outages} {n : Nat}

theorem fetchState_during {shard : Int} {addr : Address}
    (fine : ∀ err, (W.during o n).fetchState shard addr ≠ .error err) :
    (W.during o n).fetchState shard addr = W.fetchState shard addr := by
  cases fails : o.accounts n with
  | none => simp only [World.during, fails]
  | some err => exact absurd (by simp only [World.during, fails]) (fine err)

theorem getStorageAt_during {shard : Int} {addr : Address} {slot : Hash}
    (fine : ∀ err, (W.during o n).getStorageAt shard addr slot ≠ .error err) :
    (W.during o n).getStorageAt shard addr slot = W.getStorageAt shard addr slot := by
  cases fails : o.slots n with
  | none => simp only [World.during, fails]
  | some err => exact absurd (by simp only [World.during, fails]) (fine err)

theorem getOrFetchAccount_during {addr : Address}
    (quiet : db.failedAccount (W.during o n) addr = []) :
    db.getOrFetchAccount (W.during o n) addr = db.getOrFetchAccount W addr := by
  unfold failedAccount at quiet
  unfold getOrFetchAccount
  cases known : db.accounts.lookup addr with
  | some acct => rfl
  | none =>
      simp only [known] at quiet
      have fine : ∀ err, (W.during o n).fetchState ((W.during o n).addressToShard addr) addr ≠
          .error err := by
        intro err failed
        rw [failed] at quiet
        cases quiet
      rw [fetchState_during fine]
      rfl

theorem modifyAccount_during {addr : Address}
    (quiet : db.failedAccount (W.during o n) addr = []) (change : AccountState → AccountState) :
    db.modifyAccount (W.during o n) addr change = db.modifyAccount W addr change := by
  simp only [modifyAccount, getOrFetchAccount_during quiet]

theorem getState_during {addr : Address} {slot : Hash}
    (quiet : db.failedSlot (W.during o n) addr slot = []) :
    db.getState (W.during o n) addr slot = db.getState W addr slot := by
  unfold failedSlot at quiet
  unfold getState
  cases written : db.writes.get addr slot with
  | some value => rfl
  | none =>
      cases read : db.reads.get addr slot with
      | some value => rfl
      | none =>
          simp only [written, read, List.append_eq_nil_iff] at quiet
          obtain ⟨account, storage⟩ := quiet
          have fine : ∀ err, (W.during o n).getStorageAt
              (db.getOrFetchAccount (W.during o n) addr).1.shardID addr slot ≠ .error err := by
            intro err failed
            rw [failed] at storage
            cases storage
          dsimp only
          rw [getStorageAt_during fine, getOrFetchAccount_during account]

/-- **A call without a failed fetch is the call of the intact world.** -/
theorem exec_during (op : DBOp) (quiet : db.failedFetches (W.during o n) op = []) :
    db.exec (W.during o n) op = db.exec W op := by
  cases op with
  | getBalance addr | getNonce addr | getCodeHash addr | getCode addr | getCodeSize addr
  | exist addr | empty addr =>
      simp only [exec, readAccount, getOrFetchAccount_during quiet]
  | subBalance addr _ | addBalance addr _ | setNonce addr _ | selfDestruct addr
  | selfDestruct6780 addr =>
      simp only [exec, subBalance, addBalance, setNonce, selfDestruct, selfDestruct6780,
        modifyAccount_during quiet]
  | setCode addr code =>
      simp only [exec, setCode, modifyAccount_during quiet]
      rfl
  | getState addr slot | getStateAndCommittedState addr slot | setState addr slot _ =>
      simp only [exec, getStateAndCommittedState, setState, getState_during quiet]
  | _ => rfl

end SimulationStateDB

/-! ## Runs -/

/-- A run with the number of calls made and the fetches that failed so far. -/
structure Watched where
  calls : Nat
  db : SimulationStateDB
  failed : List FailedFetch

namespace Watched

def start (db : SimulationStateDB) : Watched := ⟨0, db, []⟩

def exec (W : World) (o : Outages) (s : Watched) (op : DBOp) : DBValue × Watched :=
  let now := W.during o s.calls
  let (value, db) := s.db.exec now op
  (value, ⟨s.calls + 1, db, s.failed ++ s.db.failedFetches now op⟩)

/-- What is recorded are the failed account fetches. -/
def Recorded (s : Watched) : Prop := s.db.fetchErrors = s.failed.filterMap FailedFetch.accountErr

theorem recorded_start {db : SimulationStateDB} (clean : db.fetchErrors = []) :
    (start db).Recorded := clean

theorem Recorded.exec {W : World} {o : Outages} {s : Watched} (recorded : s.Recorded)
    (op : DBOp) : (s.exec W o op).2.Recorded := by
  show (s.db.exec _ op).2.fetchErrors = (s.failed ++ _).filterMap _
  rw [SimulationStateDB.fetchErrors_exec, recorded, List.filterMap_append]

theorem Recorded.hasFetchErrors {s : Watched} (recorded : s.Recorded) :
    s.db.hasFetchErrors = true ↔ ∃ addr err, .account addr err ∈ s.failed := by
  unfold SimulationStateDB.hasFetchErrors
  rw [decide_eq_true_iff, recorded, List.length_pos_iff_exists_mem]
  constructor
  · rintro ⟨err, member⟩
    obtain ⟨fetch, failed, same⟩ := List.mem_filterMap.1 member
    cases fetch with
    | account addr err' => exact ⟨addr, err', failed⟩
    | slot addr slot err' => cases same
  · rintro ⟨addr, err, failed⟩
    exact ⟨err, List.mem_filterMap.2 ⟨_, failed, rfl⟩⟩

/-- A slot that could not be fetched goes with an account that could not. -/
def Paired (s : Watched) : Prop :=
  (∃ addr slot err, .slot addr slot err ∈ s.failed) → ∃ addr err, .account addr err ∈ s.failed

theorem Recorded.noticed_iff {s : Watched} (recorded : s.Recorded) :
    (s.failed ≠ [] → s.db.hasFetchErrors = true) ↔ s.Paired := by
  rw [recorded.hasFetchErrors]
  constructor
  · rintro noticed ⟨addr, slot, err, failed⟩
    exact noticed (List.ne_nil_of_mem failed)
  · intro paired some
    obtain ⟨fetch, failed⟩ := List.exists_mem_of_ne_nil _ some
    cases fetch with
    | account addr err => exact ⟨addr, err, failed⟩
    | slot addr slot err => exact paired ⟨addr, slot, err, failed⟩

end Watched

/-- A program under outages, with the state it leaves. -/
def Program.runDuring {α : Type} (W : World) (o : Outages) :
    Watched → Program α → List (DBOp × DBValue) × α × Watched
  | s, .done result => ([], result, s)
  | s, .call op next =>
      let (value, s₁) := s.exec W o op
      let rest := (next value).runDuring W o s₁
      ((op, value) :: rest.1, rest.2)

namespace Program

variable {α : Type} {W : World} {o : Outages}

theorem recorded_runDuring {s : Watched} (recorded : s.Recorded) (p : Program α) :
    (p.runDuring W o s).2.2.Recorded := by
  induction p generalizing s with
  | done result => exact recorded
  | call op next ih => exact ih _ (recorded.exec op)

theorem failed_runDuring (s : Watched) (p : Program α) :
    s.failed <+: (p.runDuring W o s).2.2.failed := by
  induction p generalizing s with
  | done result => exact List.prefix_rfl
  | call op next ih =>
      exact (List.prefix_append _ _).trans (ih (s.exec W o op).1 (s.exec W o op).2)

/-- **A run without a failed fetch is the run of the intact world.** -/
theorem runDuring_quiet (s : Watched) (p : Program α)
    (quiet : (p.runDuring W o s).2.2.failed = []) :
    ⟨(p.runDuring W o s).1, (p.runDuring W o s).2.1, (p.runDuring W o s).2.2.db⟩ =
      p.run W s.db := by
  induction p generalizing s with
  | done result => rfl
  | call op next ih =>
      have none_yet : (s.exec W o op).2.failed = [] :=
        List.prefix_nil.1 (quiet ▸ failed_runDuring (s.exec W o op).2 (next (s.exec W o op).1))
      have same : s.db.exec (W.during o s.calls) op = s.db.exec W op :=
        SimulationStateDB.exec_during op (List.append_eq_nil_iff.1 none_yet).2
      have rest := ih (s.exec W o op).1 (s.exec W o op).2 quiet
      simp only [runDuring, run]
      simp only [Watched.exec, same] at rest ⊢
      rw [← rest]

end Program

/-! ## Simulations -/

/-- The execution of `runSimulation` under outages, and the fetches that failed. -/
def executeDuring (W : World) (o : Outages) (call : EvmCall) (tx : CrossShardTx) :
    Execution CallResult × Watched :=
  let out := (call tx.fromAddr (callTarget tx) tx.data (callGas tx)
    (uint256FromBig (toBigInt tx.value))).runDuring W o
    (.start (SimulationStateDB.newSimulationStateDB.prepare tx.fromAddr 0 none [] []))
  (⟨out.1, out.2.1, out.2.2.db⟩, out.2.2)

/-- What `runSimulation` makes of an execution. -/
def conclude (W : World) (tx : CrossShardTx) (e : Execution CallResult) :
    Callback × SimulationResult :=
  match execErr e with
  | some err =>
      (.onError (failedTx tx err), { status := .failed, gasUsed := gasUsed tx e, error := err })
  | none =>
      (.onSuccess (simulatedTx W tx e),
        { status := .success, rwSet := e.db.buildRwSet W, gasUsed := gasUsed tx e })

theorem runSimulation_eq (W : World) (call : EvmCall) (tx : CrossShardTx) :
    runSimulation W call tx = conclude W tx (execute W call tx) := by
  cases outcome : execErr (execute W call tx) <;> simp only [runSimulation, conclude, outcome]

def runSimulationDuring (W : World) (o : Outages) (call : EvmCall) (tx : CrossShardTx) :
    Callback × SimulationResult :=
  conclude W tx (executeDuring W o call tx).1

theorem recorded_executeDuring (W : World) (o : Outages) (call : EvmCall) (tx : CrossShardTx) :
    (executeDuring W o call tx).2.Recorded :=
  Program.recorded_runDuring (Watched.recorded_start rfl) _

/-- The simulation ends in failure, and `onError` receives the transaction. -/
def EndsFailed (tx : CrossShardTx) (out : Callback × SimulationResult) : Prop :=
  out.2.status = .failed ∧ ∃ err, out.1 = .onError (failedTx tx err)

theorem endsFailed_conclude (W : World) (tx : CrossShardTx) (e : Execution CallResult) :
    EndsFailed tx (conclude W tx e) ↔ e.db.hasFetchErrors = true ∨ e.result.err ≠ none := by
  unfold EndsFailed conclude execErr SimulationStateDB.hasFetchErrors
  cases e.db.fetchErrors with
  | cons err rest => simp
  | nil =>
      cases e.result.err with
      | some err => simp
      | none => simp

/-- A simulation without a failed fetch is the simulation of the intact world. -/
theorem runSimulationDuring_quiet {W : World} {o : Outages} {call : EvmCall} {tx : CrossShardTx}
    (quiet : (executeDuring W o call tx).2.failed = []) :
    runSimulationDuring W o call tx = runSimulation W call tx := by
  rw [runSimulation_eq, runSimulationDuring]
  exact congrArg (conclude W tx) (Program.runDuring_quiet _ _ quiet)

/-- **Which failed fetches are noticed.**  For any calls and any outages, failed fetches show in
`HasFetchErrors` exactly if no slot fetch fails on its own; so for the calls of a simulation, which
then ends in failure or is the simulation of the intact world.  A slot fetch that fails on its own
lets the simulation succeed whenever the call does. -/
theorem failed_fetch_is_noticed_iff (W : World) (o : Outages) (ops : List DBOp) (call : EvmCall)
    (tx : CrossShardTx) :
    (((answered (Watched.exec W o) (.start .newSimulationStateDB) ops).failed ≠ [] →
        (answered (Watched.exec W o) (.start .newSimulationStateDB) ops).db.hasFetchErrors = true) ↔
      (answered (Watched.exec W o) (.start .newSimulationStateDB) ops).Paired) ∧
    (((executeDuring W o call tx).2.failed ≠ [] →
        EndsFailed tx (runSimulationDuring W o call tx)) ↔
      (executeDuring W o call tx).2.Paired ∨ (executeDuring W o call tx).1.result.err ≠ none) ∧
    ((executeDuring W o call tx).2.failed = [] →
      runSimulationDuring W o call tx = runSimulation W call tx) := by
  refine ⟨?_, ?_, runSimulationDuring_quiet⟩
  · have recorded : (answered (Watched.exec W o) (.start .newSimulationStateDB) ops).Recorded :=
      answered_invariant Watched.Recorded (fun _ op recorded => recorded.exec op)
        (Watched.recorded_start rfl) ops
    exact recorded.noticed_iff
  · have recorded := recorded_executeDuring W o call tx
    unfold runSimulationDuring
    rw [endsFailed_conclude, ← recorded.noticed_iff]
    show (_ → (executeDuring W o call tx).2.db.hasFetchErrors = true ∨ _) ↔ _
    tauto

namespace OutagePole

def pot : Address := 0x100

/-- Every account can be fetched and every slot holds 7. -/
def world : World where
  numShards := 8
  fetchState _ _ := .ok ⟨some 5, 0, [], 0⟩
  getStorageAt _ _ _ := .ok 7
  keccak256Hash _ := 1

/-- No slot can be fetched at the first call. -/
def outage : Outages where
  accounts _ := none
  slots n := if n = 0 then some "connection refused" else none

/-- A contract that reads a slot and succeeds. -/
def call : EvmCall := fun _ addr _ _ _ =>
  .call (.getState addr 3) fun _ => .done ⟨20000, none⟩

def tx : CrossShardTx where
  id := "t"
  fromShard := 0
  fromAddr := 0x200
  toAddr := pot
  value := none
  gas := 21000
  rwSet := []

end OutagePole

open OutagePole in
/-- The fetch of slot 3 fails, nothing is recorded, and `onSuccess` receives a read set in which
the slot is zero. -/
theorem failed_slot_reads_as_zero :
    (answered (Watched.exec world outage) (.start .newSimulationStateDB)
        [.getState pot 3]).failed = [.slot pot 3 "connection refused"] ∧
    (answered (Watched.exec world outage) (.start .newSimulationStateDB)
        [.getState pot 3]).db.hasFetchErrors = false ∧
    (executeDuring world outage call tx).2.failed = [.slot pot 3 "connection refused"] ∧
    (runSimulationDuring world outage call tx).1 =
      .onSuccess { tx with gas := 1000, rwSet := [⟨pot, ⟨0⟩, [⟨3, hashBytes 0⟩], []⟩] } ∧
    (runSimulation world call tx).1 =
      .onSuccess { tx with gas := 1000, rwSet := [⟨pot, ⟨0⟩, [⟨3, hashBytes 7⟩], []⟩] } := by
  decide +kernel

end CrossShard.Orchestrator
