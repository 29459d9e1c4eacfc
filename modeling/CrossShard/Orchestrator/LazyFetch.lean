/-
# Orchestrator.LazyFetch -- fetching on first use is invisible

`SimulationStateDB` keeps three partial layers over the shards: accounts, reads and writes,
each filled on demand and rolled back on revert.  `ReferenceStore` is what the layers stand
for: every account and every slot is loaded before the first call, a call changes the loaded
maps, `Snapshot` saves them whole and `RevertToSnapshot` restores them.

* `loaded`: the reference store that the layers stand for, snapshots included.
* `loaded_exec`: a call returns the same value from both, and `loaded` commutes with it.
* `lazy_fetching_transparent`: hence all calls do, and the committed value of a slot is always
  the one of the backing state.
-/
import CrossShard.Library.Run
import CrossShard.Orchestrator.ReadSets

namespace CrossShard.Orchestrator

set_option autoImplicit false

open CrossShard.Library CrossShard.Protocol

/-! ## The backing state -/

structure Backing where
  account : Address → FetchStateResponse
  storage : Address → Hash → Hash

/-- Every fetch succeeds and answers from the backing state. -/
structure World.Serves (W : World) (B : Backing) : Prop where
  accounts : ∀ a, W.fetchState (W.addressToShard a) a = .ok (B.account a)
  slots : ∀ a s, W.getStorageAt (W.addressToShard a) a s = .ok (B.storage a s)

theorem World.Serves.storage_eq {W : World} {B : Backing} (serves : W.Serves B) (a : Address)
    (s : Hash) : W.storage a s = B.storage a s := by
  simp only [World.storage, serves.slots]

/-! ## The reference store -/

structure ReferenceSnapshot where
  accounts : Address → AccountState
  storage : Address → Hash → Hash
  refund : Nat
  logsLen : Nat

/-- A store that holds every account and every slot. -/
structure ReferenceStore where
  accounts : Address → AccountState
  storage : Address → Hash → Hash
  committed : Address → Hash → Hash
  transient : Address → Hash → Hash
  accessList : AccessList
  logs : List Log
  refund : Nat
  snapshots : List ReferenceSnapshot

namespace ReferenceStore

/-- The whole backing state is loaded. -/
def load (W : World) (B : Backing) : ReferenceStore where
  accounts a := SimulationStateDB.fetchedAccount W a (B.account a)
  storage := B.storage
  committed := B.storage
  transient _ _ := 0
  accessList := AccessList.newAccessList
  logs := []
  refund := 0
  snapshots := []

def setAccount (r : ReferenceStore) (addr : Address) (acct : AccountState) : ReferenceStore :=
  { r with accounts := Function.update r.accounts addr acct }

def setStorage (r : ReferenceStore) (addr : Address) (slot value : Hash) : ReferenceStore :=
  { r with storage := Function.update r.storage addr (Function.update (r.storage addr) slot value) }

def snapshot (r : ReferenceStore) : ReferenceStore :=
  { r with snapshots := r.snapshots ++ [⟨r.accounts, r.storage, r.refund, r.logs.length⟩] }

def revertToSnapshot (r : ReferenceStore) (revid : Nat) : ReferenceStore :=
  match r.snapshots[revid]? with
  | none => r
  | some saved =>
      { r with
        accounts := saved.accounts
        storage := saved.storage
        refund := saved.refund
        logs := r.logs.take saved.logsLen
        snapshots := r.snapshots.take revid }

/-- The calls on a loaded store: no call fetches anything. -/
def exec (W : World) (r : ReferenceStore) : DBOp → DBValue × ReferenceStore
  | .createAccount a =>
      (.unit, r.setAccount a { SimulationStateDB.blankAccount W a with created := true })
  | .createContract a =>
      (.unit, r.setAccount a { SimulationStateDB.blankAccount W a with created := true })
  | .getBalance a => (.amount (r.accounts a).balance, r)
  | .subBalance a amount =>
      let acct := r.accounts a
      (.amount acct.balance, r.setAccount a { acct with balance := acct.balance - amount })
  | .addBalance a amount =>
      let acct := r.accounts a
      (.amount acct.balance, r.setAccount a { acct with balance := acct.balance + amount })
  | .getNonce a => (.uint (r.accounts a).nonce, r)
  | .setNonce a nonce => (.unit, r.setAccount a { r.accounts a with nonce := nonce })
  | .getCodeHash a => (.hash (SimulationStateDB.codeHashOf (r.accounts a)), r)
  | .getCode a => (.bytes (r.accounts a).code, r)
  | .setCode a code =>
      let acct := r.accounts a
      (.bytes acct.code, r.setAccount a { acct with
        code := code, codeHash := if code = [] then 0 else W.keccak256Hash code })
  | .getCodeSize a => (.uint (r.accounts a).code.length, r)
  | .addRefund gas => (.unit, { r with refund := (r.refund + gas) % 2 ^ 64 })
  | .subRefund gas => (.unit, { r with refund := r.refund - gas })
  | .getRefund => (.uint r.refund, r)
  | .getState a s => (.hash (r.storage a s), r)
  | .getStateAndCommittedState a s => (.hashes (r.storage a s) (r.committed a s), r)
  | .setState a s value => (.hash (r.storage a s), r.setStorage a s value)
  | .getStorageRoot _ => (.hash 0, r)
  | .getTransientState a key => (.hash (r.transient a key), r)
  | .setTransientState a key value =>
      (.unit, { r with
        transient := Function.update r.transient a (Function.update (r.transient a) key value) })
  | .selfDestruct a =>
      let acct := r.accounts a
      (.amount acct.balance, r.setAccount a { acct with destructed := true, balance := 0 })
  | .hasSelfDestructed a => (.bool (r.accounts a).destructed, r)
  | .selfDestruct6780 a =>
      let acct := r.accounts a
      (.destructed acct.balance acct.created,
        if acct.created then r.setAccount a { acct with destructed := true, balance := 0 } else r)
  | .exist a => (.bool (SimulationStateDB.existing (r.accounts a)), r)
  | .empty a => (.bool (SimulationStateDB.blank (r.accounts a)), r)
  | .addressInAccessList a => (.bool (r.accessList.containsAddress a), r)
  | .slotInAccessList a s =>
      let (addrOk, slotOk) := r.accessList.contains a s
      (.bools addrOk slotOk, r)
  | .addAddressToAccessList a => (.unit, { r with accessList := (r.accessList.addAddress a).2 })
  | .addSlotToAccessList a s => (.unit, { r with accessList := (r.accessList.addSlot a s).2 })
  | .prepare sender coinbase dest precompiles txAccesses =>
      (.unit, { r with
        accessList := (SimulationStateDB.newSimulationStateDB.prepare sender coinbase dest
          precompiles txAccesses).accessList })
  | .revertToSnapshot revid => (.unit, r.revertToSnapshot revid)
  | .snapshot => (.uint r.snapshots.length, r.snapshot)
  | .addLog log => (.unit, { r with logs := r.logs ++ [log] })

end ReferenceStore

/-! ## What the layers stand for -/

/-- The accounts fetched so far, over the backing state. -/
def Backing.accountOver (W : World) (B : Backing) (accounts : AList fun _ : Address => AccountState)
    (a : Address) : AccountState :=
  (accounts.lookup a).getD (SimulationStateDB.fetchedAccount W a (B.account a))

/-- The writes so far, over the backing state. -/
def Backing.storageOver (B : Backing) (writes : SlotMap) (a : Address) (s : Hash) : Hash :=
  (writes.get a s).getD (B.storage a s)

theorem accountOver_insert (W : World) (B : Backing)
    (accounts : AList fun _ : Address => AccountState) (a : Address) (acct : AccountState) :
    B.accountOver W (accounts.insert a acct) =
      Function.update (B.accountOver W accounts) a acct := by
  funext b
  rw [Backing.accountOver, lookup_insert_ite, Function.update_apply]
  split <;> rfl

theorem storageOver_put (B : Backing) (writes : SlotMap) (a : Address) (s value : Hash) :
    B.storageOver (writes.put a s value) =
      Function.update (B.storageOver writes) a
        (Function.update (B.storageOver writes a) s value) := by
  funext b t
  rw [Backing.storageOver, SlotMap.get_put, Function.update_apply]
  by_cases here : b = a
  · subst here
    rw [if_pos rfl, Function.update_apply]
    by_cases own : t = s <;> simp [own, Backing.storageOver]
  · simp [here, Backing.storageOver]

namespace SimulationStateDB

/-- The reference store that the layers stand for. -/
def loaded (W : World) (B : Backing) (db : SimulationStateDB) : ReferenceStore where
  accounts := B.accountOver W db.accounts
  storage := B.storageOver db.writes
  committed := B.storage
  transient := db.getTransientState
  accessList := db.accessList
  logs := db.logs
  refund := db.refund
  snapshots := db.snapshots.map fun snap =>
    ⟨B.accountOver W snap.accounts, B.storageOver snap.writes, snap.refund, snap.logsLen⟩

theorem loaded_start (W : World) (B : Backing) :
    newSimulationStateDB.loaded W B = ReferenceStore.load W B := rfl

variable {W : World} {B : Backing} {db : SimulationStateDB}

theorem loaded_insert (a : Address) (acct : AccountState) :
    loaded W B { db with accounts := db.accounts.insert a acct } =
      (db.loaded W B).setAccount a acct := by
  simp only [loaded, ReferenceStore.setAccount, accountOver_insert]
  rfl

/-! ## Accounts -/

/-- A fetch returns the loaded account and changes nothing. -/
theorem loaded_getOrFetchAccount (serves : W.Serves B) (a : Address) :
    (db.getOrFetchAccount W a).1 = (db.loaded W B).accounts a ∧
      (db.getOrFetchAccount W a).2.loaded W B = db.loaded W B ∧
      a ∈ (db.getOrFetchAccount W a).2.accounts := by
  cases found : db.accounts.lookup a with
  | some acct =>
      simp only [getOrFetchAccount, found, loaded, Backing.accountOver, Option.getD_some, true_and]
      exact mem_of_lookup_eq_some found
  | none =>
      have absent : (db.loaded W B).accounts a = fetchedAccount W a (B.account a) := by
        simp only [loaded, Backing.accountOver, found, Option.getD_none]
      simp only [getOrFetchAccount, found, serves.accounts]
      refine ⟨absent.symm, ?_, AList.mem_insert _ |>.2 (Or.inl rfl)⟩
      rw [loaded_insert, ReferenceStore.setAccount, ← absent, Function.update_eq_self]

theorem loaded_readAccount (serves : W.Serves B) (a : Address) (view : AccountState → DBValue) :
    (db.readAccount W a view).1 = view ((db.loaded W B).accounts a) ∧
      (db.readAccount W a view).2.loaded W B = db.loaded W B := by
  obtain ⟨same, kept, -⟩ : (db.getOrFetchAccount W a).1 = (db.loaded W B).accounts a ∧ _ :=
    loaded_getOrFetchAccount serves a
  exact ⟨congrArg view same, kept⟩

/-- A change through the fetched pointer is a change of the loaded account. -/
theorem loaded_modifyAccount (serves : W.Serves B) (a : Address)
    (change : AccountState → AccountState) :
    (db.modifyAccount W a change).1 = (db.loaded W B).accounts a ∧
      (db.modifyAccount W a change).2.loaded W B =
        (db.loaded W B).setAccount a (change ((db.loaded W B).accounts a)) := by
  obtain ⟨same, kept, present⟩ : (db.getOrFetchAccount W a).1 = (db.loaded W B).accounts a ∧ _ :=
    loaded_getOrFetchAccount serves a
  refine ⟨same, ?_⟩
  simp only [modifyAccount, if_pos present]
  rw [loaded_insert, kept, same]

/-! ## Storage -/

/-- A read returns the loaded value and changes nothing. -/
theorem loaded_getState (serves : W.Serves B) {f : Frames} (covers : Covers W f db) (a : Address)
    (s : Hash) :
    (db.getState W a s).1 = (db.loaded W B).storage a s ∧
      (db.getState W a s).2.loaded W B = db.loaded W B := by
  cases written : db.writes.get a s with
  | some value =>
      rw [getState_of_written written]
      exact ⟨by simp [loaded, Backing.storageOver, written], rfl⟩
  | none =>
      have unwritten : (db.loaded W B).storage a s = B.storage a s := by
        simp only [loaded, Backing.storageOver, written, Option.getD_none]
      cases known : db.reads.get a s with
      | some value =>
          rw [getState_of_read written known, unwritten]
          exact ⟨(covers.now.genuine a s value known).trans (serves.storage_eq a s), rfl⟩
      | none =>
          rw [getState_of_unknown covers.now.homed written known, unwritten]
          exact ⟨serves.storage_eq a s, (loaded_getOrFetchAccount serves a).2.1⟩

/-- After an access the read cache has the value of the backing state. -/
theorem reads_getState (serves : W.Serves B) {f : Frames} (covers : Covers W f db) (a : Address)
    (s : Hash) : (db.getState W a s).2.reads.get a s = some (B.storage a s) := by
  have after := (covers_getState covers a s).now
  obtain ⟨value, known⟩ := Option.isSome_iff_exists.1
    ((after.kept a s).1 (List.mem_append_right _ (List.mem_singleton_self _)))
  rw [known, after.genuine a s value known, serves.storage_eq]

theorem loaded_setState (serves : W.Serves B) {f : Frames} (covers : Covers W f db) (a : Address)
    (s value : Hash) :
    (db.setState W a s value).1 = (db.loaded W B).storage a s ∧
      (db.setState W a s value).2.loaded W B = (db.loaded W B).setStorage a s value := by
  obtain ⟨same, kept⟩ := loaded_getState serves covers a s
  refine ⟨same, ?_⟩
  rw [← kept]
  simp only [setState, loaded, ReferenceStore.setStorage, storageOver_put]
  rfl

/-! ## Snapshots -/

theorem loaded_snapshot : db.snapshot.2.loaded W B = (db.loaded W B).snapshot := by
  simp only [snapshot, loaded, ReferenceStore.snapshot, List.map_append]
  rfl

theorem loaded_revertToSnapshot (revid : Nat) :
    (db.revertToSnapshot revid).loaded W B = (db.loaded W B).revertToSnapshot revid := by
  have saved : (db.loaded W B).snapshots[revid]? = db.snapshots[revid]?.map fun snap =>
      ⟨B.accountOver W snap.accounts, B.storageOver snap.writes, snap.refund, snap.logsLen⟩ :=
    List.getElem?_map
  unfold revertToSnapshot ReferenceStore.revertToSnapshot
  rw [saved]
  cases db.snapshots[revid]? with
  | none => rfl
  | some snap =>
      simp only [loaded, Option.map_some, List.map_take]
      rfl

theorem loaded_setTransientState (a : Address) (key value : Hash) :
    (db.setTransientState a key value).loaded W B =
      { db.loaded W B with
        transient := Function.update db.getTransientState a
          (Function.update (db.getTransientState a) key value) } := by
  have transient : (db.setTransientState a key value).getTransientState =
      Function.update db.getTransientState a
        (Function.update (db.getTransientState a) key value) := by
    funext b k
    simp only [setTransientState, getTransientState, FMap.get_set, Function.update_apply]
    by_cases here : b = a
    · subst here
      by_cases own : k = key
      · simp [own]
      · cases stored : db.transient.get b <;> simp [own, stored, getTransientState]
    · simp [here, getTransientState]
  rw [← transient]
  rfl

/-! ## Every call -/

/-- **One call.**  It returns what the reference store returns, and leads to the layers that
stand for the reference store after it. -/
theorem loaded_exec (serves : W.Serves B) {f : Frames} (covers : Covers W f db) (op : DBOp) :
    (db.exec W op).1 = ((db.loaded W B).exec W op).1 ∧
      (db.exec W op).2.loaded W B = ((db.loaded W B).exec W op).2 := by
  -- a call that changes one account returns a view of it before
  have changes : ∀ (a : Address) (view : AccountState → DBValue)
      (change : AccountState → AccountState),
      (view (db.modifyAccount W a change).1 = view ((db.loaded W B).accounts a)) ∧
        (db.modifyAccount W a change).2.loaded W B =
          (db.loaded W B).setAccount a (change ((db.loaded W B).accounts a)) :=
    fun a view change =>
      ⟨congrArg view (loaded_modifyAccount serves a change).1,
        (loaded_modifyAccount serves a change).2⟩
  cases op with
  | createAccount a => exact ⟨rfl, loaded_insert a _⟩
  | createContract a => exact ⟨rfl, loaded_insert a _⟩
  | getBalance a => exact loaded_readAccount serves a _
  | subBalance a amount =>
      exact changes a (fun acct => .amount acct.balance)
        fun acct => { acct with balance := acct.balance - amount }
  | addBalance a amount =>
      exact changes a (fun acct => .amount acct.balance)
        fun acct => { acct with balance := acct.balance + amount }
  | getNonce a => exact loaded_readAccount serves a _
  | setNonce a nonce =>
      exact changes a (fun _ => .unit) fun acct => { acct with nonce := nonce }
  | getCodeHash a => exact loaded_readAccount serves a _
  | getCode a => exact loaded_readAccount serves a _
  | setCode a code =>
      exact changes a (fun acct => .bytes acct.code) fun acct => { acct with
        code := code, codeHash := if code = [] then 0 else W.keccak256Hash code }
  | getCodeSize a => exact loaded_readAccount serves a _
  | getState a s =>
      obtain ⟨same, kept⟩ := loaded_getState serves covers a s
      exact ⟨congrArg DBValue.hash same, kept⟩
  | getStateAndCommittedState a s =>
      obtain ⟨same, kept⟩ := loaded_getState serves covers a s
      have committed := reads_getState serves covers a s
      refine ⟨?_, kept⟩
      simp only [exec, getStateAndCommittedState, committed, same, Option.getD_some]
      rfl
  | setState a s value =>
      obtain ⟨same, kept⟩ := loaded_setState serves covers a s value
      exact ⟨congrArg DBValue.hash same, kept⟩
  | setTransientState a key value => exact ⟨rfl, loaded_setTransientState a key value⟩
  | selfDestruct a =>
      exact changes a (fun acct => .amount acct.balance)
        fun acct => { acct with destructed := true, balance := 0 }
  | hasSelfDestructed a =>
      refine ⟨congrArg DBValue.bool ?_, rfl⟩
      simp only [hasSelfDestructed, loaded, Backing.accountOver]
      cases db.accounts.lookup a <;> rfl
  | selfDestruct6780 a =>
      obtain ⟨same, kept⟩ := changes a (fun acct => .destructed acct.balance acct.created)
        fun acct => if acct.created then { acct with destructed := true, balance := 0 } else acct
      refine ⟨same, kept.trans ?_⟩
      simp only [ReferenceStore.exec]
      split
      · rfl
      · simp [ReferenceStore.setAccount]
  | exist a => exact loaded_readAccount serves a _
  | empty a => exact loaded_readAccount serves a _
  | revertToSnapshot revid => exact ⟨rfl, loaded_revertToSnapshot revid⟩
  | snapshot => exact ⟨congrArg DBValue.uint (List.length_map _).symm, loaded_snapshot⟩
  | _ => exact ⟨rfl, rfl⟩

/-- All calls: the values returned, and the states reached. -/
theorem loaded_answered (serves : W.Serves B) (ops : List DBOp) :
    answers (exec W) newSimulationStateDB ops =
        answers (ReferenceStore.exec W) (ReferenceStore.load W B) ops ∧
      (∃ f, Covers W f (answered (exec W) newSimulationStateDB ops)) ∧
      answered (ReferenceStore.exec W) (ReferenceStore.load W B) ops =
        (answered (exec W) newSimulationStateDB ops).loaded W B := by
  refine answers_eq_of_simulation (fun db r => (∃ f, Covers W f db) ∧ r = db.loaded W B) ?_
    ⟨⟨_, covers_start W⟩, (loaded_start W B).symm⟩ ops
  rintro db r op ⟨⟨f, covers⟩, rfl⟩
  obtain ⟨value, kept⟩ := loaded_exec serves covers op
  exact ⟨value, ⟨_, covers.step op⟩, kept.symm⟩

end SimulationStateDB

/-- **Lazy fetching is transparent.**  Every list of calls returns the same values from a
simulation that fetches on first use and from a store into which the whole backing state was
loaded; and the committed value of a slot is always the one of the backing state. -/
theorem lazy_fetching_transparent (W : World) (B : Backing) (serves : W.Serves B)
    (ops : List DBOp) :
    answers (SimulationStateDB.exec W) SimulationStateDB.newSimulationStateDB ops =
        answers (ReferenceStore.exec W) (ReferenceStore.load W B) ops ∧
      ∀ a s, ∃ current,
        ((answered (SimulationStateDB.exec W) SimulationStateDB.newSimulationStateDB ops).exec W
          (.getStateAndCommittedState a s)).1 = .hashes current (B.storage a s) := by
  obtain ⟨same, ⟨f, covers⟩, -⟩ := SimulationStateDB.loaded_answered serves ops
  refine ⟨same, fun a s => ?_⟩
  have value := (SimulationStateDB.loaded_exec serves covers (.getStateAndCommittedState a s)).1
  exact ⟨_, value⟩

namespace LazyFetchPole

def pot : Address := 0x100

/-- Every account holds 5 and every slot 7. -/
def full : Backing := ⟨fun _ => ⟨some 5, 0, [], 0⟩, fun _ _ => 7⟩

def world : World where
  numShards := 8
  fetchState _ a := .ok (full.account a)
  getStorageAt _ a s := .ok (full.storage a s)
  keccak256Hash _ := 1

/-- The account and the slot are first touched inside the frame that is reverted. -/
def calls : List DBOp :=
  [.snapshot, .addBalance pot 3, .setState pot 0 9, .getStateAndCommittedState pot 0,
    .revertToSnapshot 0, .getBalance pot, .getState pot 0]

end LazyFetchPole

open LazyFetchPole in
theorem reverted_touch_is_invisible :
    answers (SimulationStateDB.exec world) SimulationStateDB.newSimulationStateDB calls =
      [.uint 0, .amount 5, .hash 7, .hashes 9 7, .unit, .amount 5, .hash 7] := by
  rw [(lazy_fetching_transparent world full ⟨fun _ => rfl, fun _ _ => rfl⟩ calls).1]
  rfl

end CrossShard.Orchestrator
