/-
# Orchestrator.MovingShards -- simulations while the shards go on

A simulation fetches accounts and slots one by one, without a lock, while the shards execute
blocks.  So the answers may come from different moments, and nothing says that they ever held
together.  `Drift` lets the shards answer each call differently; `frozen` is the world that gives,
to every question, the first answer that the simulation got.

Accounts and slots are kept after the first fetch, so as a rule nothing is asked twice.  There are
two exceptions: `RevertToSnapshot` forgets what was fetched since the snapshot, and an account
whose fetch has failed is not kept.  When no question has got two answers (`Stable`), the
simulation is the one of the frozen world, and a model in which the shards stand still during a
simulation loses nothing.

* `exec_congr`: a call depends on the world through its fetches only.
* `run_of_answers`: so does a program.
* `Grows`: without reverts, what is known stays known; `moving_keys` derives that no question is
  asked twice.
* `moving_simulation_is_simulation`: simulations that succeed and never revert.
* `reverted_read_moves`: a slot that is read, forgotten and read again.
-/
import CrossShard.Orchestrator.FetchErrors
import CrossShard.Orchestrator.ReadSets

namespace CrossShard.Orchestrator

set_option autoImplicit false

open CrossShard.Library CrossShard.Protocol

/-! ## Shards that move -/

/-- What the shards answer to the fetches of the `n`-th call. -/
structure Drift where
  fetchState : Nat → Int → Address → Except String FetchStateResponse
  getStorageAt : Nat → Int → Address → Hash → Except String Hash

/-- The same orchestrator before other shards. -/
def World.answering (W : World) (fetchState : Int → Address → Except String FetchStateResponse)
    (getStorageAt : Int → Address → Hash → Except String Hash) : World :=
  { W with fetchState := fetchState, getStorageAt := getStorageAt }

/-- The world as the `n`-th call meets it. -/
def World.moment (W : World) (d : Drift) (n : Nat) : World :=
  W.answering (d.fetchState n) (d.getStorageAt n)

inductive Fetch where
  | account (addr : Address) (answer : Except String FetchStateResponse)
  | slot (shard : Int) (addr : Address) (slot : Hash) (answer : Except String Hash)

/-- A question to the shards. -/
inductive FetchKey where
  | account (addr : Address)
  | slot (shard : Int) (addr : Address) (slot : Hash)
  deriving DecidableEq

def Fetch.key : Fetch → FetchKey
  | .account a _ => .account a
  | .slot k a s _ => .slot k a s

/-- The error of a failed account fetch. -/
def Fetch.accountErr : Fetch → Option String
  | .account _ (.error err) => some err
  | _ => none

/-- The world gives this answer. -/
def World.Answers (W : World) : Fetch → Prop
  | .account addr answer => W.fetchState (W.addressToShard addr) addr = answer
  | .slot shard addr slot answer => W.getStorageAt shard addr slot = answer

namespace SimulationStateDB

/-- The account is fetched unless it is known. -/
def accountFetch (W : World) (db : SimulationStateDB) (addr : Address) : List Fetch :=
  match db.accounts.lookup addr with
  | some _ => []
  | none => [.account addr (W.fetchState (W.addressToShard addr) addr)]

/-- The slot is fetched, after the account, unless it was written or read before. -/
def slotFetch (W : World) (db : SimulationStateDB) (addr : Address) (slot : Hash) : List Fetch :=
  match db.writes.get addr slot, db.reads.get addr slot with
  | none, none =>
      let shard := (db.getOrFetchAccount W addr).1.shardID
      db.accountFetch W addr ++ [.slot shard addr slot (W.getStorageAt shard addr slot)]
  | _, _ => []

def fetches (W : World) (db : SimulationStateDB) (op : DBOp) : List Fetch :=
  match op.need with
  | .nothing => []
  | .account addr => db.accountFetch W addr
  | .slot addr slot => db.slotFetch W addr slot

end SimulationStateDB

/-- A program before moving shards: its execution from the `n`-th call on, and its fetches. -/
def Program.runMoving {α : Type} (W : World) (d : Drift) :
    Nat → SimulationStateDB → Program α → Execution α × List Fetch
  | _, db, .done result => (⟨[], result, db⟩, [])
  | n, db, .call op next =>
      let now := W.moment d n
      let (value, db₁) := db.exec now op
      let rest := (next value).runMoving W d (n + 1) db₁
      (⟨(op, value) :: rest.1.trace, rest.1.result, rest.1.db⟩, db.fetches now op ++ rest.2)

/-- The execution of `runSimulation` before moving shards, and its fetches. -/
def executeMoving (W : World) (d : Drift) (call : EvmCall) (tx : CrossShardTx) :
    Execution CallResult × List Fetch :=
  (call tx.fromAddr (callTarget tx) tx.data (callGas tx)
    (uint256FromBig (toBigInt tx.value))).runMoving W d 0
    (SimulationStateDB.newSimulationStateDB.prepare tx.fromAddr 0 none [] [])

def runSimulationMoving (W : World) (d : Drift) (call : EvmCall) (tx : CrossShardTx) :
    Callback × SimulationResult :=
  conclude W tx (executeMoving W d call tx).1

/-! ## A call depends on its fetches -/

namespace SimulationStateDB

section Congruence

variable {W : World} {db : SimulationStateDB}
  {f : Int → Address → Except String FetchStateResponse}
  {g : Int → Address → Hash → Except String Hash}

theorem getOrFetchAccount_answering {addr : Address}
    (agree : ∀ fetch ∈ db.accountFetch W addr, (W.answering f g).Answers fetch) :
    db.getOrFetchAccount (W.answering f g) addr = db.getOrFetchAccount W addr := by
  unfold accountFetch at agree
  unfold getOrFetchAccount
  cases known : db.accounts.lookup addr with
  | some acct => rfl
  | none =>
      simp only [known, List.forall_mem_singleton, World.Answers] at agree
      rw [agree]
      rfl

theorem modifyAccount_answering {addr : Address}
    (agree : ∀ fetch ∈ db.accountFetch W addr, (W.answering f g).Answers fetch)
    (change : AccountState → AccountState) :
    db.modifyAccount (W.answering f g) addr change = db.modifyAccount W addr change := by
  simp only [modifyAccount, getOrFetchAccount_answering agree]

theorem getState_answering {addr : Address} {slot : Hash}
    (agree : ∀ fetch ∈ db.slotFetch W addr slot, (W.answering f g).Answers fetch) :
    db.getState (W.answering f g) addr slot = db.getState W addr slot := by
  unfold slotFetch at agree
  unfold getState
  cases written : db.writes.get addr slot with
  | some value => rfl
  | none =>
      cases read : db.reads.get addr slot with
      | some value => rfl
      | none =>
          simp only [written, read, List.forall_mem_append, List.forall_mem_singleton,
            World.Answers] at agree
          dsimp only
          rw [getOrFetchAccount_answering agree.1, agree.2]

/-- **A call depends on the shards through its fetches.** -/
theorem exec_congr (op : DBOp)
    (agree : ∀ fetch ∈ db.fetches W op, (W.answering f g).Answers fetch) :
    db.exec (W.answering f g) op = db.exec W op := by
  cases op with
  | getBalance addr | getNonce addr | getCodeHash addr | getCode addr | getCodeSize addr
  | exist addr | empty addr =>
      simp only [exec, readAccount, getOrFetchAccount_answering agree]
  | subBalance addr _ | addBalance addr _ | setNonce addr _ | selfDestruct addr
  | selfDestruct6780 addr =>
      simp only [exec, subBalance, addBalance, setNonce, selfDestruct, selfDestruct6780,
        modifyAccount_answering agree]
  | setCode addr code =>
      simp only [exec, setCode, modifyAccount_answering agree]
      rfl
  | getState addr slot | getStateAndCommittedState addr slot | setState addr slot _ =>
      simp only [exec, getStateAndCommittedState, setState, getState_answering agree]
  | _ => rfl

end Congruence

end SimulationStateDB

/-- A world that gives the answers the program got takes it the same way. -/
theorem run_of_answers {α : Type} {W : World} {d : Drift}
    {f : Int → Address → Except String FetchStateResponse}
    {g : Int → Address → Hash → Except String Hash} (p : Program α) :
    ∀ (n : Nat) (db : SimulationStateDB),
      (∀ fetch ∈ (p.runMoving W d n db).2, (W.answering f g).Answers fetch) →
      p.run (W.answering f g) db = (p.runMoving W d n db).1 := by
  induction p with
  | done result => exact fun _ _ _ => rfl
  | call op next ih =>
      intro n db agree
      simp only [Program.runMoving, List.forall_mem_append] at agree
      have same : db.exec (W.answering f g) op = db.exec (W.moment d n) op :=
        SimulationStateDB.exec_congr op agree.1
      have rest := ih _ (n + 1) _ agree.2
      simp only [Program.run, Program.runMoving, same, rest]

/-! ## The frozen world -/

/-- No question has got two answers. -/
def Stable (log : List Fetch) : Prop := ∀ a ∈ log, ∀ b ∈ log, a.key = b.key → a = b

def Fetch.accountAnswer (addr : Address) : Fetch → Option (Except String FetchStateResponse)
  | .account a answer => if a = addr then some answer else none
  | .slot _ _ _ _ => none

def Fetch.slotAnswer (shard : Int) (addr : Address) (slot : Hash) :
    Fetch → Option (Except String Hash)
  | .account _ _ => none
  | .slot k a s answer => if k = shard ∧ a = addr ∧ s = slot then some answer else none

/-- The world that gives the first answer of the log to every question in it. -/
def frozen (W : World) (log : List Fetch) : World :=
  W.answering (fun _ addr => (log.findSome? (Fetch.accountAnswer addr)).getD (.error ""))
    fun shard addr slot => (log.findSome? (Fetch.slotAnswer shard addr slot)).getD (.error "")

theorem findSome?_getD {β : Type} {log : List Fetch} {f : Fetch → Option β} {fetch : Fetch}
    {answer default : β} (member : fetch ∈ log) (own : f fetch = some answer)
    (only : ∀ other ∈ log, ∀ b, f other = some b → b = answer) :
    (log.findSome? f).getD default = answer := by
  have found : (log.findSome? f).isSome :=
    List.findSome?_isSome_iff.2 ⟨fetch, member, by simp [own]⟩
  obtain ⟨b, first⟩ := Option.isSome_iff_exists.1 found
  obtain ⟨other, listed, gives⟩ := List.exists_of_findSome?_eq_some first
  rw [first, only other listed b gives]
  rfl

theorem answers_frozen {log : List Fetch} (stable : Stable log) (W : World) :
    ∀ fetch ∈ log, (frozen W log).Answers fetch := by
  intro fetch member
  cases fetch with
  | account addr answer =>
      refine findSome?_getD member (if_pos rfl) fun other listed b gives => ?_
      cases other with
      | account a answer' =>
          simp only [Fetch.accountAnswer] at gives
          split at gives
          · rename_i same
            subst same
            cases gives
            cases stable _ listed _ member rfl
            rfl
          · cases gives
      | slot k a s answer' => cases gives
  | slot shard addr slot answer =>
      refine findSome?_getD member (if_pos ⟨rfl, rfl, rfl⟩) fun other listed b gives => ?_
      cases other with
      | account a answer' => cases gives
      | slot k a s answer' =>
          simp only [Fetch.slotAnswer] at gives
          split at gives
          · rename_i same
            obtain ⟨rfl, rfl, rfl⟩ := same
            cases gives
            cases stable _ listed _ member rfl
            rfl
          · cases gives

/-- **A stable simulation is the simulation of its frozen world.** -/
theorem execute_frozen {W : World} {d : Drift} {call : EvmCall} {tx : CrossShardTx}
    (stable : Stable (executeMoving W d call tx).2) :
    execute (frozen W (executeMoving W d call tx).2) call tx = (executeMoving W d call tx).1 :=
  run_of_answers _ 0 _ (answers_frozen stable W)

theorem runSimulation_frozen {W : World} {d : Drift} {call : EvmCall} {tx : CrossShardTx}
    (stable : Stable (executeMoving W d call tx).2) :
    runSimulation (frozen W (executeMoving W d call tx).2) call tx =
      runSimulationMoving W d call tx := by
  rw [runSimulation_eq, execute_frozen stable]
  rfl

/-! ## What is known stays known -/

/-- The answer is at hand. -/
def SimulationStateDB.Known (db : SimulationStateDB) : FetchKey → Prop
  | .account addr => db.accounts.lookup addr ≠ none
  | .slot _ addr slot => db.writes.get addr slot ≠ none ∨ db.reads.get addr slot ≠ none

/-- Nothing is forgotten from `db` to `db'`. -/
def Grows (db db' : SimulationStateDB) : Prop := ∀ key, db.Known key → db'.Known key

theorem Grows.trans {db db' db'' : SimulationStateDB} (first : Grows db db')
    (second : Grows db' db'') : Grows db db'' :=
  fun key known => second key (first key known)

namespace SimulationStateDB

variable {W : World} {db : SimulationStateDB}

theorem grows_of_storage {db' : SimulationStateDB}
    (accounts : ∀ a, db.accounts.lookup a ≠ none → db'.accounts.lookup a ≠ none)
    (reads : db'.reads = db.reads) (writes : db'.writes = db.writes) : Grows db db' := by
  intro key known
  cases key with
  | account addr => exact accounts addr known
  | slot shard addr slot =>
      unfold Known
      rw [reads, writes]
      exact known

theorem lookup_insert_ne_none (accounts : AList fun _ : Address => AccountState) (addr : Address)
    (acct : AccountState) {a : Address} (known : accounts.lookup a ≠ none) :
    (accounts.insert addr acct).lookup a ≠ none := by
  rw [lookup_insert_ite]
  split
  · exact Option.some_ne_none _
  · exact known

theorem grows_getOrFetchAccount (addr : Address) : Grows db (db.getOrFetchAccount W addr).2 := by
  have framed : Framed W db (db.getOrFetchAccount W addr).2 := framed_getOrFetchAccount addr
  refine grows_of_storage (fun a known => ?_) framed.reads framed.writes
  unfold getOrFetchAccount
  split
  · exact known
  · split
    · exact known
    · exact lookup_insert_ne_none _ _ _ known

theorem grows_modifyAccount (addr : Address) (change : AccountState → AccountState) :
    Grows db (db.modifyAccount W addr change).2 := by
  have fetched : Grows db (db.getOrFetchAccount W addr).2 := grows_getOrFetchAccount addr
  simp only [modifyAccount]
  split
  · exact fetched.trans
      (grows_of_storage (fun _ known => lookup_insert_ne_none _ _ _ known) rfl rfl)
  · exact fetched

theorem grows_put {db' : SimulationStateDB} (accounts : db'.accounts = db.accounts)
    (reads : ∀ a s, db.reads.get a s ≠ none → db'.reads.get a s ≠ none)
    (writes : ∀ a s, db.writes.get a s ≠ none → db'.writes.get a s ≠ none) : Grows db db' := by
  intro key known
  cases key with
  | account addr =>
      unfold Known
      rw [accounts]
      exact known
  | slot shard addr slot => exact known.imp (writes addr slot) (reads addr slot)

theorem get_put_ne_none (m : SlotMap) (addr : Address) (slot value : Hash) {a : Address} {s : Hash}
    (known : m.get a s ≠ none) : (m.put addr slot value).get a s ≠ none := by
  rw [SlotMap.get_put]
  split
  · exact Option.some_ne_none _
  · exact known

theorem grows_getState (addr : Address) (slot : Hash) : Grows db (db.getState W addr slot).2 := by
  have fetched : Grows db (db.getOrFetchAccount W addr).2 := grows_getOrFetchAccount addr
  unfold getState
  split
  · exact fun _ known => known
  · split
    · exact fun _ known => known
    · exact fetched.trans
        (grows_put rfl (fun _ _ known => get_put_ne_none _ _ _ _ known) fun _ _ known => known)

theorem grows_setState (addr : Address) (slot value : Hash) :
    Grows db (db.setState W addr slot value).2 := by
  have read : Grows db (db.getState W addr slot).2 := grows_getState addr slot
  exact read.trans
    (grows_put rfl (fun _ _ known => known) fun _ _ known => get_put_ne_none _ _ _ _ known)

/-- Only a revert forgets. -/
theorem grows_exec (op : DBOp) (noRevert : ∀ revid, op ≠ .revertToSnapshot revid) :
    Grows db (db.exec W op).2 := by
  cases op with
  | createAccount addr | createContract addr =>
      exact grows_of_storage (fun _ known => lookup_insert_ne_none _ _ _ known) rfl rfl
  | getBalance addr | getNonce addr | getCodeHash addr | getCode addr | getCodeSize addr
  | exist addr | empty addr => exact grows_getOrFetchAccount addr
  | subBalance addr _ | addBalance addr _ | setNonce addr _ | setCode addr _ | selfDestruct addr
  | selfDestruct6780 addr =>
      simp only [exec, subBalance, addBalance, setNonce, setCode, selfDestruct, selfDestruct6780]
      exact grows_modifyAccount addr _
  | getState addr slot | getStateAndCommittedState addr slot => exact grows_getState addr slot
  | setState addr slot value => exact grows_setState addr slot value
  | revertToSnapshot revid => exact absurd rfl (noRevert revid)
  | _ => exact fun _ known => known

/-! ## What a call fetches -/

theorem mem_accountFetch {addr : Address} {fetch : Fetch} :
    fetch ∈ db.accountFetch W addr ↔ db.accounts.lookup addr = none ∧
      fetch = .account addr (W.fetchState (W.addressToShard addr) addr) := by
  unfold accountFetch
  cases db.accounts.lookup addr <;> simp

theorem mem_slotFetch {addr : Address} {slot : Hash} {fetch : Fetch} :
    fetch ∈ db.slotFetch W addr slot ↔
      db.writes.get addr slot = none ∧ db.reads.get addr slot = none ∧
        (fetch ∈ db.accountFetch W addr ∨
          fetch = .slot (db.getOrFetchAccount W addr).1.shardID addr slot
            (W.getStorageAt (db.getOrFetchAccount W addr).1.shardID addr slot)) := by
  unfold slotFetch
  cases db.writes.get addr slot with
  | some value => simp
  | none => cases db.reads.get addr slot <;> simp

theorem answers_of_fetch {op : DBOp} {fetch : Fetch} (member : fetch ∈ db.fetches W op) :
    W.Answers fetch := by
  unfold fetches at member
  split at member
  · cases member
  · obtain ⟨-, rfl⟩ := mem_accountFetch.1 member
    rfl
  · obtain ⟨-, -, account | rfl⟩ := mem_slotFetch.1 member
    · obtain ⟨-, rfl⟩ := mem_accountFetch.1 account
      rfl
    · rfl

theorem unknown_of_fetch {op : DBOp} {fetch : Fetch} (member : fetch ∈ db.fetches W op) :
    ¬db.Known fetch.key := by
  unfold fetches at member
  split at member
  · cases member
  · obtain ⟨unknown, rfl⟩ := mem_accountFetch.1 member
    exact not_not_intro unknown
  · obtain ⟨written, read, account | rfl⟩ := mem_slotFetch.1 member
    · obtain ⟨unknown, rfl⟩ := mem_accountFetch.1 account
      exact not_not_intro unknown
    · exact fun known => known.elim (absurd written) (absurd read)

theorem nodup_fetches (op : DBOp) : ((db.fetches W op).map Fetch.key).Nodup := by
  have account : ∀ addr, ((db.accountFetch W addr).map Fetch.key).Nodup := by
    intro addr
    unfold accountFetch
    split <;> simp
  unfold fetches
  split
  · exact List.nodup_nil
  · exact account _
  · rename_i addr slot _
    unfold slotFetch
    split
    · rw [List.map_append, List.nodup_append]
      refine ⟨account addr, List.nodup_singleton _, fun key listed key' own same => ?_⟩
      obtain ⟨fetch, member, rfl⟩ := List.mem_map.1 listed
      obtain ⟨-, rfl⟩ := mem_accountFetch.1 member
      rw [List.map_singleton, List.mem_singleton] at own
      rw [own] at same
      cases same
    · exact List.nodup_nil

theorem known_getOrFetchAccount {addr : Address}
    (fine : ∀ err, W.fetchState (W.addressToShard addr) addr ≠ .error err) :
    (db.getOrFetchAccount W addr).2.Known (.account addr) := by
  unfold getOrFetchAccount
  split
  · rename_i acct found
    show db.accounts.lookup addr ≠ none
    rw [found]
    exact Option.some_ne_none _
  · split
    · rename_i err failed
      exact absurd failed (fine err)
    · show (db.accounts.insert addr _).lookup addr ≠ none
      rw [lookup_insert_ite, if_pos rfl]
      exact Option.some_ne_none _

/-- A call that needs an account does its work after fetching it. -/
theorem grows_of_account {op : DBOp} {addr : Address} (needs : op.need = .account addr) :
    Grows (db.getOrFetchAccount W addr).2 (db.exec W op).2 := by
  have modified : ∀ change, Grows (db.getOrFetchAccount W addr).2
      (db.modifyAccount W addr change).2 := fun change => by
    simp only [modifyAccount]
    split
    · exact grows_of_storage (fun _ known => lookup_insert_ne_none _ _ _ known) rfl rfl
    · exact fun _ known => known
  cases op with
  | getBalance a | getNonce a | getCodeHash a | getCode a | getCodeSize a | exist a | empty a =>
      cases needs
      exact fun _ known => known
  | subBalance a _ | addBalance a _ | setNonce a _ | setCode a _ | selfDestruct a
  | selfDestruct6780 a =>
      cases needs
      simp only [exec, subBalance, addBalance, setNonce, setCode, selfDestruct, selfDestruct6780]
      exact modified _
  | _ => cases needs

/-- A call that needs an unknown slot reads it, after fetching the account. -/
theorem grows_of_slot {op : DBOp} {addr : Address} {slot : Hash} (needs : op.need = .slot addr slot)
    (written : db.writes.get addr slot = none) (read : db.reads.get addr slot = none) :
    Grows (db.getOrFetchAccount W addr).2 (db.exec W op).2 ∧
      (db.exec W op).2.reads.get addr slot ≠ none := by
  have reads : Grows (db.getOrFetchAccount W addr).2 (db.getState W addr slot).2 ∧
      (db.getState W addr slot).2.reads.get addr slot ≠ none := by
    simp only [getState, written, read]
    refine ⟨grows_put rfl (fun _ _ known => get_put_ne_none _ _ _ _ known) fun _ _ known => known, ?_⟩
    rw [SlotMap.get_put, if_pos ⟨rfl, rfl⟩]
    exact Option.some_ne_none _
  cases op with
  | getState a s | getStateAndCommittedState a s =>
      cases needs
      exact reads
  | setState a s value =>
      cases needs
      exact ⟨reads.1.trans (grows_put rfl (fun _ _ known => known)
        fun _ _ known => get_put_ne_none _ _ _ _ known), reads.2⟩
  | _ => cases needs

/-- After the call the answers are at hand, except for accounts that could not be fetched. -/
theorem known_of_fetch {op : DBOp} {fetch : Fetch} (member : fetch ∈ db.fetches W op)
    (fine : ∀ addr err, fetch ≠ .account addr (.error err)) :
    (db.exec W op).2.Known fetch.key := by
  have account : ∀ addr, fetch ∈ db.accountFetch W addr →
      fetch.key = .account addr ∧ (db.getOrFetchAccount W addr).2.Known (.account addr) := by
    intro addr listed
    obtain ⟨-, rfl⟩ := mem_accountFetch.1 listed
    exact ⟨rfl, known_getOrFetchAccount fun err failed => fine addr err (by rw [failed])⟩
  unfold fetches at member
  split at member
  · cases member
  · rename_i addr needs
    obtain ⟨key, known⟩ := account addr member
    rw [key]
    exact grows_of_account needs _ known
  · rename_i addr slot needs
    obtain ⟨written, read, listed | rfl⟩ := mem_slotFetch.1 member
    · obtain ⟨key, known⟩ := account addr listed
      rw [key]
      exact (grows_of_slot needs written read).1 _ known
    · exact .inr (grows_of_slot needs written read).2

theorem accountErrs_fetches (op : DBOp) :
    (db.fetches W op).filterMap Fetch.accountErr =
      (db.failedFetches W op).filterMap FailedFetch.accountErr := by
  have account : ∀ addr, (db.accountFetch W addr).filterMap Fetch.accountErr =
      (db.failedAccount W addr).filterMap FailedFetch.accountErr := by
    intro addr
    unfold accountFetch failedAccount
    cases db.accounts.lookup addr with
    | some acct => rfl
    | none => cases W.fetchState (W.addressToShard addr) addr <;> rfl
  unfold fetches failedFetches
  cases op.need with
  | nothing => rfl
  | account addr => exact account addr
  | slot addr slot =>
      dsimp only
      unfold slotFetch failedSlot
      cases db.writes.get addr slot with
      | some value => rfl
      | none =>
          cases db.reads.get addr slot with
          | some value => rfl
          | none =>
              dsimp only
              rw [List.filterMap_append, List.filterMap_append, account]
              cases W.getStorageAt (db.getOrFetchAccount W addr).1.shardID addr slot <;> rfl

end SimulationStateDB

/-! ## Whole programs -/

section Runs

variable {α : Type} {W : World} {d : Drift}

theorem moment_of_fetch (p : Program α) : ∀ (n : Nat) (db : SimulationStateDB),
    ∀ fetch ∈ (p.runMoving W d n db).2, ∃ m, (W.moment d m).Answers fetch := by
  induction p with
  | done result => exact fun _ _ => List.forall_mem_nil _
  | call op next ih =>
      intro n db fetch member
      rcases List.mem_append.1 member with here | later
      · exact ⟨n, SimulationStateDB.answers_of_fetch here⟩
      · exact ih _ _ _ fetch later

theorem fetchErrors_runMoving (p : Program α) : ∀ (n : Nat) (db : SimulationStateDB),
    (p.runMoving W d n db).1.db.fetchErrors =
      db.fetchErrors ++ (p.runMoving W d n db).2.filterMap Fetch.accountErr := by
  induction p with
  | done result => exact fun _ _ => (List.append_nil _).symm
  | call op next ih =>
      intro n db
      simp only [Program.runMoving]
      rw [ih, SimulationStateDB.fetchErrors_exec, List.filterMap_append,
        SimulationStateDB.accountErrs_fetches, List.append_assoc]

/-- **Nothing is asked twice** by a program that never reverts and gets all its accounts; and what
is known at its start is not asked at all. -/
theorem moving_keys (p : Program α) : ∀ (n : Nat) (db : SimulationStateDB),
    (∀ revid, .revertToSnapshot revid ∉ (p.runMoving W d n db).1.ops) →
    (∀ addr err, .account addr (.error err) ∉ (p.runMoving W d n db).2) →
    ((p.runMoving W d n db).2.map Fetch.key).Nodup ∧
      ∀ fetch ∈ (p.runMoving W d n db).2, ¬db.Known fetch.key := by
  induction p with
  | done result => exact fun _ _ _ _ => ⟨List.nodup_nil, List.forall_mem_nil _⟩
  | call op next ih =>
      intro n db noRevert fine
      simp only [Program.runMoving, Execution.ops, List.map_cons, List.mem_cons, not_or] at noRevert
      simp only [Program.runMoving, List.mem_append, not_or] at fine ⊢
      have grows : Grows db (db.exec (W.moment d n) op).2 :=
        SimulationStateDB.grows_exec op fun revid same => (noRevert revid).1 same.symm
      obtain ⟨nodup, unknown⟩ := ih _ (n + 1) (db.exec (W.moment d n) op).2
        (fun revid => (noRevert revid).2) fun addr err => (fine addr err).2
      constructor
      · rw [List.map_append, List.nodup_append]
        refine ⟨SimulationStateDB.nodup_fetches op, nodup, fun key here key' later same => ?_⟩
        obtain ⟨fetch, member, rfl⟩ := List.mem_map.1 here
        obtain ⟨fetch', member', rfl⟩ := List.mem_map.1 later
        refine unknown fetch' member' ?_
        rw [← same]
        exact SimulationStateDB.known_of_fetch member fun addr err failed =>
          (fine addr err).1 (failed ▸ member)
      · rintro fetch (here | later)
        · exact SimulationStateDB.unknown_of_fetch here
        · exact fun known => unknown fetch later (grows _ known)

theorem stable_of_nodup {log : List Fetch} (nodup : (log.map Fetch.key).Nodup) : Stable log :=
  fun _ member _ member' same => List.inj_on_of_nodup_map nodup member member' same

end Runs

/-- **Shards may move.**  A simulation that succeeds and never reverts is, call by call, the
simulation of a world that stands still.  That world gives to each question of the simulation the
answer that the shards gave at some moment. -/
theorem moving_simulation_is_simulation (W : World) (d : Drift) (call : EvmCall) (tx : CrossShardTx)
    (succeeds : execErr (executeMoving W d call tx).1 = none)
    (noRevert : ∀ revid, .revertToSnapshot revid ∉ (executeMoving W d call tx).1.ops) :
    let still := frozen W (executeMoving W d call tx).2
    execute still call tx = (executeMoving W d call tx).1 ∧
      runSimulation still call tx = runSimulationMoving W d call tx ∧
      ∀ fetch ∈ (executeMoving W d call tx).2,
        still.Answers fetch ∧ ∃ n, (W.moment d n).Answers fetch := by
  have clean : (executeMoving W d call tx).1.db.fetchErrors = [] := by
    unfold execErr at succeeds
    split at succeeds
    · cases succeeds
    · assumption
  have fine : ∀ addr err, .account addr (.error err) ∉ (executeMoving W d call tx).2 := by
    intro addr err failed
    have recorded : (executeMoving W d call tx).1.db.fetchErrors =
        (executeMoving W d call tx).2.filterMap Fetch.accountErr := fetchErrors_runMoving _ 0 _
    have quiet := List.filterMap_eq_nil_iff.1 (recorded.symm.trans clean) _ failed
    cases quiet
  have stable : Stable (executeMoving W d call tx).2 :=
    stable_of_nodup (moving_keys _ 0 _ noRevert fine).1
  exact ⟨execute_frozen stable, runSimulation_frozen stable, fun fetch member =>
    ⟨answers_frozen stable W fetch member, moment_of_fetch _ 0 _ fetch member⟩⟩

namespace DriftPole

def pot : Address := 0x100

def world : World where
  numShards := 1
  fetchState := fun _ _ => .error ""
  getStorageAt := fun _ _ _ => .error ""
  keccak256Hash := fun _ => 0

/-- At the `n`-th call every slot has the value `n`. -/
def rising : Drift where
  fetchState := fun _ _ _ => .ok ⟨none, 0, [], 0⟩
  getStorageAt := fun n _ _ _ => .ok (BitVec.ofNat 256 n)

/-- Reads slot 0, slot 1 and slot 0. -/
def reading : EvmCall := fun _ callee _ _ _ =>
  .call (.getState callee 0) fun _ => .call (.getState callee 1) fun _ =>
    .call (.getState callee 0) fun _ => .done ⟨0, none⟩

/-- Reads slot 0, reverts, and reads it again. -/
def reverting : EvmCall := fun _ callee _ _ _ =>
  .call .snapshot fun _ => .call (.getState callee 0) fun _ =>
    .call (.revertToSnapshot 0) fun _ => .call (.getState callee 0) fun _ => .done ⟨0, none⟩

def job : CrossShardTx where
  id := "tx-1"
  fromShard := 0
  fromAddr := pot
  toAddr := pot
  value := none
  data := [1]
  rwSet := []

end DriftPole

open DriftPole in
/-- Slots 0 and 1 come from different moments, and the second look at slot 0 from the first. -/
theorem rising_slots_stand_still :
    (executeMoving world rising reading job).1.trace.map Prod.snd = [.hash 0, .hash 1, .hash 0] ∧
      execute (frozen world (executeMoving world rising reading job).2) reading job =
        (executeMoving world rising reading job).1 :=
  ⟨by decide +kernel,
    (moving_simulation_is_simulation world rising reading job (by decide +kernel)
      (fun revid member => by
        have ops : (executeMoving world rising reading job).1.ops =
          [.getState pot 0, .getState pot 1, .getState pot 0] := by decide +kernel
        simp [ops] at member)).1⟩

open DriftPole in
/-- **A read that is reverted may move.**  The simulation sees two values of one slot, which no
world that stands still would show it. -/
theorem reverted_read_moves :
    (executeMoving world rising reverting job).1.trace.map Prod.snd =
        [.uint 0, .hash 1, .unit, .hash 3] ∧
      ∀ W, execute W reverting job ≠ (executeMoving world rising reverting job).1 := by
  have seen : (executeMoving world rising reverting job).1.trace.map Prod.snd =
      [.uint 0, .hash 1, .unit, .hash 3] := by decide +kernel
  refine ⟨seen, fun W same => ?_⟩
  rw [← same] at seen
  -- in a still world both reads are first accesses and return the value of the slot
  have before := ((covers_start W).step (.prepare pot 0 none [] [])).step .snapshot
  have after := (before.step (.getState pot 0)).step (.revertToSnapshot 0)
  have look : DBOp.slot? (.getState pot 0) = some (pot, 0) := rfl
  have values := List.cons.inj (List.cons.inj seen).2
  have first := values.1
  have second := (List.cons.inj (List.cons.inj values.2).2).1
  have one := (exec_first_access before look List.not_mem_nil).imp
    first.symm.trans first.symm.trans
  have three := (exec_first_access after look List.not_mem_nil).imp
    second.symm.trans second.symm.trans
  simp only [DBValue.hash.injEq, reduceCtorEq, or_false] at one three
  rw [← one] at three
  exact absurd three (by decide)

end CrossShard.Orchestrator
