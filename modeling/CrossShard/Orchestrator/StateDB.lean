/-
# Orchestrator.StateDB -- the state a simulation runs against

`internal/orchestrator/statedb.go`.  `SimulationStateDB` fetches accounts and storage from the
shards on first use, keeps what it read and wrote, and turns both into a read/write set.  Each
method of the source is a function of the same name; `exec` is the interface the virtual
machine sees, one constructor of `DBOp` for each method.

What lies outside is a `World`: the answers of the fetcher, each fetch an answer or an error,
and the hash function.  The answers do not change during a simulation.

`Snapshot` copies accounts, reads, writes, refund counter and the number of logs;
`RevertToSnapshot` restores exactly these.  The old values of writes, the access list, transient
storage and recorded fetch errors are not restored.

A deterministic program is a tree (`Program`): the next operation is a function of the values
returned so far, and a branch ends with a result.
-/
import CrossShard.Protocol.Types

namespace CrossShard.Orchestrator

set_option autoImplicit false

open CrossShard.Library CrossShard.Protocol

abbrev U256 := BitVec 256

/-! ## What lies outside -/

structure FetchStateResponse where
  balance : Option U256
  nonce : Nat
  code : Bytes
  codeHash : Hash

structure StateFetcher where
  numShards : Nat
  fetchState : Int → Address → Except String FetchStateResponse
  getStorageAt : Int → Address → Hash → Except String Hash

/-- `int(addr[len(addr)-1]) % sf.numShards`. -/
def StateFetcher.addressToShard (sf : StateFetcher) (addr : Address) : Int :=
  (lastByte addr % sf.numShards : Nat)

structure World extends StateFetcher where
  keccak256Hash : Bytes → Hash

/-! ## The state -/

structure AccountState where
  balance : U256
  originalBalance : U256
  nonce : Nat
  code : Bytes
  codeHash : Hash
  shardID : Int
  destructed : Bool := false
  created : Bool := false
  deriving DecidableEq

/-- A `map[common.Address]map[common.Hash]common.Hash`. -/
abbrev SlotMap := AList fun _ : Address => AList fun _ : Hash => Hash

namespace SlotMap

def get (m : SlotMap) (addr : Address) (slot : Hash) : Option Hash :=
  (m.lookup addr).bind fun slots => slots.lookup slot

def put (m : SlotMap) (addr : Address) (slot value : Hash) : SlotMap :=
  m.insert addr (((m.lookup addr).getD ∅).insert slot value)

theorem get_put (m : SlotMap) (addr a : Address) (slot s value : Hash) :
    (m.put addr slot value).get a s =
      if a = addr ∧ s = slot then some value else m.get a s := by
  unfold get put
  rw [lookup_insert_ite]
  by_cases own : a = addr
  · subst own
    rw [if_pos rfl, Option.bind_some, lookup_insert_ite]
    by_cases here : s = slot
    · simp [here]
    · cases m.lookup a <;> simp [here]
  · simp [own]

theorem mem_entries {m : SlotMap} {addr : Address} {e : Σ _ : Hash, Hash} :
    e ∈ ((m.lookup addr).getD ∅).entries ↔ m.get addr e.1 = some e.2 := by
  unfold get
  cases m.lookup addr with
  | none => exact iff_of_false List.not_mem_nil nofun
  | some slots => exact AList.mem_lookup_iff.symm

end SlotMap

/-- `addresses` maps an address to its index in `slots`, or to -1. -/
structure AccessList where
  addresses : FMap Address Int
  slots : List (FMap Hash Unit)

namespace AccessList

def newAccessList : AccessList := ⟨∅, []⟩

def addAddress (al : AccessList) (addr : Address) : Bool × AccessList :=
  if (al.addresses.get addr).isSome then (false, al)
  else (true, { al with addresses := al.addresses.set addr (-1) })

/-- The branch that starts the slots of an address. -/
def addFirstSlot (al : AccessList) (addr : Address) (slot : Hash) : AccessList :=
  ⟨al.addresses.set addr al.slots.length, al.slots ++ [(∅ : FMap Hash Unit).set slot ()]⟩

/-- The slots at an index, if it is one. -/
def slotsAt (al : AccessList) (idx : Int) : FMap Hash Unit := al.slots[idx.toNat]?.getD ∅

def addSlot (al : AccessList) (addr : Address) (slot : Hash) : (Bool × Bool) × AccessList :=
  match al.addresses.get addr with
  | none => ((true, true), al.addFirstSlot addr slot)
  | some idx =>
      if idx = -1 then ((false, true), al.addFirstSlot addr slot)
      else if ((al.slotsAt idx).get slot).isSome then ((false, false), al)
      else ((false, true),
        { al with slots := al.slots.set idx.toNat ((al.slotsAt idx).set slot ()) })

def containsAddress (al : AccessList) (addr : Address) : Bool := (al.addresses.get addr).isSome

def contains (al : AccessList) (addr : Address) (slot : Hash) : Bool × Bool :=
  match al.addresses.get addr with
  | none => (false, false)
  | some idx =>
      if idx = -1 then (true, false) else (true, ((al.slotsAt idx).get slot).isSome)

end AccessList

structure Log where
  address : Address
  topics : List Hash
  data : Bytes
  deriving DecidableEq

structure Snapshot where
  accounts : AList fun _ : Address => AccountState
  reads : SlotMap
  writes : SlotMap
  refund : Nat
  logsLen : Nat

structure SimulationStateDB where
  accounts : AList fun _ : Address => AccountState
  reads : SlotMap
  writes : SlotMap
  writeOlds : FMap Address (FMap Hash Hash)
  accessList : AccessList
  logs : List Log
  refund : Nat
  snapshots : List Snapshot
  transient : FMap Address (FMap Hash Hash)
  fetchErrors : List String

namespace SimulationStateDB

def newSimulationStateDB : SimulationStateDB where
  accounts := ∅
  reads := ∅
  writes := ∅
  writeOlds := ∅
  accessList := AccessList.newAccessList
  logs := []
  refund := 0
  snapshots := []
  transient := ∅
  fetchErrors := []

/-! ## Accounts -/

/-- The account a successful fetch makes. -/
def fetchedAccount (W : World) (addr : Address) (resp : FetchStateResponse) : AccountState where
  balance := resp.balance.getD 0
  originalBalance := resp.balance.getD 0
  nonce := resp.nonce
  code := resp.code
  codeHash := if resp.code = [] then 0
    else if resp.codeHash = 0 then W.keccak256Hash resp.code else resp.codeHash
  shardID := W.addressToShard addr

/-- An account with nothing in it. -/
def blankAccount (W : World) (addr : Address) : AccountState where
  balance := 0
  originalBalance := 0
  nonce := 0
  code := []
  codeHash := 0
  shardID := W.addressToShard addr

/-- A failed fetch is recorded and returns an empty account, which is not kept. -/
def getOrFetchAccount (W : World) (db : SimulationStateDB) (addr : Address) :
    AccountState × SimulationStateDB :=
  match db.accounts.lookup addr with
  | some acct => (acct, db)
  | none =>
      match W.fetchState (W.addressToShard addr) addr with
      | .error err =>
          (blankAccount W addr, { db with fetchErrors := db.fetchErrors ++ [err] })
      | .ok resp =>
          let acct := fetchedAccount W addr resp
          (acct, { db with accounts := db.accounts.insert addr acct })

/-- Change the account through the pointer that `getOrFetchAccount` returns: an account that
could not be fetched is not in the map, and its change is lost. -/
def modifyAccount (W : World) (db : SimulationStateDB) (addr : Address)
    (change : AccountState → AccountState) : AccountState × SimulationStateDB :=
  let (acct, db₁) := db.getOrFetchAccount W addr
  (acct, if addr ∈ db₁.accounts then
      { db₁ with accounts := db₁.accounts.insert addr (change acct) }
    else db₁)

def createAccount (W : World) (db : SimulationStateDB) (addr : Address) : SimulationStateDB :=
  { db with accounts := db.accounts.insert addr { blankAccount W addr with created := true } }

def subBalance (W : World) (db : SimulationStateDB) (addr : Address) (amount : U256) :
    U256 × SimulationStateDB :=
  let (acct, db₁) := db.modifyAccount W addr fun acct => { acct with balance := acct.balance - amount }
  (acct.balance, db₁)

def addBalance (W : World) (db : SimulationStateDB) (addr : Address) (amount : U256) :
    U256 × SimulationStateDB :=
  let (acct, db₁) := db.modifyAccount W addr fun acct => { acct with balance := acct.balance + amount }
  (acct.balance, db₁)

def setNonce (W : World) (db : SimulationStateDB) (addr : Address) (nonce : Nat) :
    SimulationStateDB :=
  (db.modifyAccount W addr fun acct => { acct with nonce := nonce }).2

def codeHashOf (acct : AccountState) : Hash := if acct.code = [] then 0 else acct.codeHash

/-- Returns the code before. -/
def setCode (W : World) (db : SimulationStateDB) (addr : Address) (code : Bytes) :
    Bytes × SimulationStateDB :=
  let (acct, db₁) := db.modifyAccount W addr fun acct =>
    { acct with code := code, codeHash := if code = [] then 0 else W.keccak256Hash code }
  (acct.code, db₁)

def selfDestruct (W : World) (db : SimulationStateDB) (addr : Address) :
    U256 × SimulationStateDB :=
  let (acct, db₁) := db.modifyAccount W addr fun acct =>
    { acct with destructed := true, balance := 0 }
  (acct.balance, db₁)

/-- Only an account created in this simulation is destructed. -/
def selfDestruct6780 (W : World) (db : SimulationStateDB) (addr : Address) :
    (U256 × Bool) × SimulationStateDB :=
  let (acct, db₁) := db.modifyAccount W addr fun acct =>
    if acct.created then { acct with destructed := true, balance := 0 } else acct
  ((acct.balance, acct.created), db₁)

def hasSelfDestructed (db : SimulationStateDB) (addr : Address) : Bool :=
  match db.accounts.lookup addr with
  | some acct => acct.destructed
  | none => false

/-- `uint256.Int.Sign`, which reads the word as a signed number. -/
def sign (value : U256) : Int :=
  if value = 0 then 0 else if value.toNat < 2 ^ 255 then 1 else -1

def existing (acct : AccountState) : Bool :=
  0 < acct.nonce || 0 < sign acct.balance || acct.code ≠ []

def blank (acct : AccountState) : Bool :=
  acct.nonce = 0 && sign acct.balance = 0 && acct.code = []

/-! ## Storage -/

/-- Writes first, then what was read before, then the shard; a failed fetch reads as zero. -/
def getState (W : World) (db : SimulationStateDB) (addr : Address) (slot : Hash) :
    Hash × SimulationStateDB :=
  match db.writes.get addr slot with
  | some value => (value, db)
  | none =>
      match db.reads.get addr slot with
      | some value => (value, db)
      | none =>
          let (acct, db₁) := db.getOrFetchAccount W addr
          let value := match W.getStorageAt acct.shardID addr slot with
            | .ok value => value
            | .error _ => 0
          (value, { db₁ with reads := db₁.reads.put addr slot value })

def getStateAndCommittedState (W : World) (db : SimulationStateDB) (addr : Address) (slot : Hash) :
    (Hash × Hash) × SimulationStateDB :=
  let (current, db₁) := db.getState W addr slot
  ((current, (db₁.reads.get addr slot).getD current), db₁)

/-- Remember the value before the first write to a slot. -/
def rememberOld (olds : FMap Address (FMap Hash Hash)) (addr : Address) (slot value : Hash) :
    FMap Address (FMap Hash Hash) :=
  let slots := (olds.get addr).getD ∅
  if (slots.get slot).isSome then olds.set addr slots else olds.set addr (slots.set slot value)

/-- Returns the value before. -/
def setState (W : World) (db : SimulationStateDB) (addr : Address) (slot value : Hash) :
    Hash × SimulationStateDB :=
  let (prev, db₁) := db.getState W addr slot
  (prev, { db₁ with
    writeOlds := rememberOld db₁.writeOlds addr slot prev
    writes := db₁.writes.put addr slot value })

def getTransientState (db : SimulationStateDB) (addr : Address) (key : Hash) : Hash :=
  ((db.transient.get addr).bind fun storage => storage.get key).getD 0

def setTransientState (db : SimulationStateDB) (addr : Address) (key value : Hash) :
    SimulationStateDB :=
  let storage := (db.transient.get addr).getD ∅
  { db with transient := db.transient.set addr (storage.set key value) }

/-! ## Refunds, access list, snapshots -/

def addRefund (db : SimulationStateDB) (gas : Nat) : SimulationStateDB :=
  { db with refund := (db.refund + gas) % 2 ^ 64 }

/-- Clamped at zero. -/
def subRefund (db : SimulationStateDB) (gas : Nat) : SimulationStateDB :=
  { db with refund := db.refund - gas }

def prepare (db : SimulationStateDB) (sender coinbase : Address) (dest : Option Address)
    (precompiles : List Address) (txAccesses : List (Address × List Hash)) : SimulationStateDB :=
  let al := (AccessList.newAccessList.addAddress sender).2
  let al := match dest with
    | some addr => (al.addAddress addr).2
    | none => al
  let al := (al.addAddress coinbase).2
  let al := precompiles.foldl (fun al addr => (al.addAddress addr).2) al
  let al := txAccesses.foldl (fun al el =>
    el.2.foldl (fun al key => (al.addSlot el.1 key).2) (al.addAddress el.1).2) al
  { db with accessList := al }

/-- Returns the ID of the snapshot. -/
def snapshot (db : SimulationStateDB) : Nat × SimulationStateDB :=
  (db.snapshots.length,
    { db with
      snapshots := db.snapshots ++ [⟨db.accounts, db.reads, db.writes, db.refund, db.logs.length⟩] })

/-- An unknown ID is ignored. -/
def revertToSnapshot (db : SimulationStateDB) (revid : Nat) : SimulationStateDB :=
  match db.snapshots[revid]? with
  | none => db
  | some snap =>
      { db with
        accounts := snap.accounts
        reads := snap.reads
        writes := snap.writes
        refund := snap.refund
        logs := db.logs.take snap.logsLen
        snapshots := db.snapshots.take revid }

def addLog (db : SimulationStateDB) (log : Log) : SimulationStateDB :=
  { db with logs := db.logs ++ [log] }

/-! ## The read/write set -/

/-- Addresses read, written or with a changed balance. -/
def touched (db : SimulationStateDB) : List Address :=
  let changed := db.accounts.entries.filter fun e => e.2.balance ≠ e.2.originalBalance
  (db.reads.keys ++ db.writes.keys ++ changed.map Sigma.fst).dedup

def readSetAt (db : SimulationStateDB) (addr : Address) : List ReadSetItem :=
  ((db.reads.lookup addr).getD ∅).entries.map fun e => ⟨e.1, hashBytes e.2⟩

def oldValueAt (db : SimulationStateDB) (addr : Address) (slot : Hash) : Hash :=
  ((db.writeOlds.get addr).bind fun olds => olds.get slot).getD 0

def writeSetAt (db : SimulationStateDB) (addr : Address) : List WriteSetItem :=
  ((db.writes.lookup addr).getD ∅).entries.map fun e =>
    ⟨e.1, hashBytes (db.oldValueAt addr e.1), hashBytes e.2⟩

def shardOfEntry (W : World) (db : SimulationStateDB) (addr : Address) : Int :=
  match db.accounts.lookup addr with
  | some acct => acct.shardID
  | none => W.addressToShard addr

def buildRwSet (W : World) (db : SimulationStateDB) : List RwVariable :=
  db.touched.map fun addr =>
    ⟨addr, ⟨db.shardOfEntry W addr⟩, db.readSetAt addr, db.writeSetAt addr⟩

end SimulationStateDB

/-! ## The interface -/

/-- A call of the `vm.StateDB` interface. -/
inductive DBOp where
  | createAccount (addr : Address)
  | createContract (addr : Address)
  | getBalance (addr : Address)
  | subBalance (addr : Address) (amount : U256)
  | addBalance (addr : Address) (amount : U256)
  | getNonce (addr : Address)
  | setNonce (addr : Address) (nonce : Nat)
  | getCodeHash (addr : Address)
  | getCode (addr : Address)
  | setCode (addr : Address) (code : Bytes)
  | getCodeSize (addr : Address)
  | addRefund (gas : Nat)
  | subRefund (gas : Nat)
  | getRefund
  | getState (addr : Address) (slot : Hash)
  | getStateAndCommittedState (addr : Address) (slot : Hash)
  | setState (addr : Address) (slot value : Hash)
  | getStorageRoot (addr : Address)
  | getTransientState (addr : Address) (key : Hash)
  | setTransientState (addr : Address) (key value : Hash)
  | selfDestruct (addr : Address)
  | hasSelfDestructed (addr : Address)
  | selfDestruct6780 (addr : Address)
  | exist (addr : Address)
  | empty (addr : Address)
  | addressInAccessList (addr : Address)
  | slotInAccessList (addr : Address) (slot : Hash)
  | addAddressToAccessList (addr : Address)
  | addSlotToAccessList (addr : Address) (slot : Hash)
  | prepare (sender coinbase : Address) (dest : Option Address) (precompiles : List Address)
      (txAccesses : List (Address × List Hash))
  | revertToSnapshot (revid : Nat)
  | snapshot
  | addLog (log : Log)
  deriving DecidableEq

/-- What a call returns. -/
inductive DBValue where
  | unit
  | amount (value : U256)
  | uint (value : Nat)
  | hash (value : Hash)
  | hashes (current committed : Hash)
  | bytes (value : Bytes)
  | bool (value : Bool)
  | bools (first second : Bool)
  | destructed (balance : U256) (done : Bool)
  deriving DecidableEq

/-- Read the account of an address. -/
def SimulationStateDB.readAccount (W : World) (db : SimulationStateDB) (addr : Address)
    (view : AccountState → DBValue) : DBValue × SimulationStateDB :=
  let (acct, db₁) := db.getOrFetchAccount W addr
  (view acct, db₁)

def SimulationStateDB.exec (W : World) (db : SimulationStateDB) : DBOp → DBValue × SimulationStateDB
  | .createAccount addr => (.unit, db.createAccount W addr)
  | .createContract addr => (.unit, db.createAccount W addr)
  | .getBalance addr => db.readAccount W addr fun acct => .amount acct.balance
  | .subBalance addr amount => let (prev, db₁) := db.subBalance W addr amount; (.amount prev, db₁)
  | .addBalance addr amount => let (prev, db₁) := db.addBalance W addr amount; (.amount prev, db₁)
  | .getNonce addr => db.readAccount W addr fun acct => .uint acct.nonce
  | .setNonce addr nonce => (.unit, db.setNonce W addr nonce)
  | .getCodeHash addr => db.readAccount W addr fun acct => .hash (codeHashOf acct)
  | .getCode addr => db.readAccount W addr fun acct => .bytes acct.code
  | .setCode addr code => let (prev, db₁) := db.setCode W addr code; (.bytes prev, db₁)
  | .getCodeSize addr => db.readAccount W addr fun acct => .uint acct.code.length
  | .addRefund gas => (.unit, db.addRefund gas)
  | .subRefund gas => (.unit, db.subRefund gas)
  | .getRefund => (.uint db.refund, db)
  | .getState addr slot => let (value, db₁) := db.getState W addr slot; (.hash value, db₁)
  | .getStateAndCommittedState addr slot =>
      let (value, db₁) := db.getStateAndCommittedState W addr slot
      (.hashes value.1 value.2, db₁)
  | .setState addr slot value =>
      let (prev, db₁) := db.setState W addr slot value
      (.hash prev, db₁)
  | .getStorageRoot _ => (.hash 0, db)
  | .getTransientState addr key => (.hash (db.getTransientState addr key), db)
  | .setTransientState addr key value => (.unit, db.setTransientState addr key value)
  | .selfDestruct addr => let (prev, db₁) := db.selfDestruct W addr; (.amount prev, db₁)
  | .hasSelfDestructed addr => (.bool (db.hasSelfDestructed addr), db)
  | .selfDestruct6780 addr =>
      let (out, db₁) := db.selfDestruct6780 W addr
      (.destructed out.1 out.2, db₁)
  | .exist addr => db.readAccount W addr fun acct => .bool (existing acct)
  | .empty addr => db.readAccount W addr fun acct => .bool (blank acct)
  | .addressInAccessList addr => (.bool (db.accessList.containsAddress addr), db)
  | .slotInAccessList addr slot =>
      let (addrOk, slotOk) := db.accessList.contains addr slot
      (.bools addrOk slotOk, db)
  | .addAddressToAccessList addr =>
      (.unit, { db with accessList := (db.accessList.addAddress addr).2 })
  | .addSlotToAccessList addr slot =>
      (.unit, { db with accessList := (db.accessList.addSlot addr slot).2 })
  | .prepare sender coinbase dest precompiles txAccesses =>
      (.unit, db.prepare sender coinbase dest precompiles txAccesses)
  | .revertToSnapshot revid => (.unit, db.revertToSnapshot revid)
  | .snapshot => let (id, db₁) := db.snapshot; (.uint id, db₁)
  | .addLog log => (.unit, db.addLog log)

/-! ## What a call leaves alone -/

/-- Everything but accounts, reads, writes and fetch errors is as before. -/
structure Untouched (db db' : SimulationStateDB) : Prop where
  writeOlds : db'.writeOlds = db.writeOlds
  accessList : db'.accessList = db.accessList
  logs : db'.logs = db.logs
  refund : db'.refund = db.refund
  snapshots : db'.snapshots = db.snapshots
  transient : db'.transient = db.transient

theorem Untouched.refl (db : SimulationStateDB) : Untouched db db := ⟨rfl, rfl, rfl, rfl, rfl, rfl⟩

/-- What a snapshot does not save is as before. -/
structure Unsaved (db db' : SimulationStateDB) : Prop where
  writeOlds : db'.writeOlds = db.writeOlds
  accessList : db'.accessList = db.accessList
  transient : db'.transient = db.transient
  fetchErrors : db'.fetchErrors = db.fetchErrors

/-- The calls that read, or change one account. -/
def DBOp.plain : DBOp → Bool
  | .addRefund _ | .subRefund _ | .setState _ _ _ | .setTransientState _ _ _ => false
  | .addAddressToAccessList _ | .addSlotToAccessList _ _ | .prepare _ _ _ _ _ => false
  | .revertToSnapshot _ | .snapshot | .addLog _ => false
  | _ => true

namespace SimulationStateDB

variable {W : World} {db : SimulationStateDB}

theorem untouched_getOrFetchAccount (addr : Address) :
    Untouched db (db.getOrFetchAccount W addr).2 := by
  unfold getOrFetchAccount
  split
  · exact .refl db
  · split <;> exact ⟨rfl, rfl, rfl, rfl, rfl, rfl⟩

theorem untouched_modifyAccount (addr : Address) (change : AccountState → AccountState) :
    Untouched db (db.modifyAccount W addr change).2 := by
  have fetched : Untouched db (db.getOrFetchAccount W addr).2 := untouched_getOrFetchAccount addr
  simp only [modifyAccount]
  split
  · exact ⟨fetched.1, fetched.2, fetched.3, fetched.4, fetched.5, fetched.6⟩
  · exact fetched

theorem untouched_getState (addr : Address) (slot : Hash) :
    Untouched db (db.getState W addr slot).2 := by
  have fetched : Untouched db (db.getOrFetchAccount W addr).2 := untouched_getOrFetchAccount addr
  unfold getState
  split
  · exact .refl db
  · split
    · exact .refl db
    · exact ⟨fetched.1, fetched.2, fetched.3, fetched.4, fetched.5, fetched.6⟩

theorem unsaved_revertToSnapshot (revid : Nat) : Unsaved db (db.revertToSnapshot revid) := by
  unfold revertToSnapshot
  split <;> exact ⟨rfl, rfl, rfl, rfl⟩

theorem untouched_exec (op : DBOp) (plain : op.plain = true) : Untouched db (db.exec W op).2 := by
  cases op with
  | getBalance addr => exact untouched_getOrFetchAccount addr
  | subBalance addr amount =>
      exact untouched_modifyAccount addr fun acct => { acct with balance := acct.balance - amount }
  | addBalance addr amount =>
      exact untouched_modifyAccount addr fun acct => { acct with balance := acct.balance + amount }
  | getNonce addr => exact untouched_getOrFetchAccount addr
  | setNonce addr nonce =>
      exact untouched_modifyAccount addr fun acct => { acct with nonce := nonce }
  | getCodeHash addr => exact untouched_getOrFetchAccount addr
  | getCode addr => exact untouched_getOrFetchAccount addr
  | setCode addr code =>
      exact untouched_modifyAccount addr fun acct => { acct with
        code := code, codeHash := if code = [] then 0 else W.keccak256Hash code }
  | getCodeSize addr => exact untouched_getOrFetchAccount addr
  | getState addr slot => exact untouched_getState addr slot
  | getStateAndCommittedState addr slot => exact untouched_getState addr slot
  | selfDestruct addr =>
      exact untouched_modifyAccount addr fun acct => { acct with destructed := true, balance := 0 }
  | selfDestruct6780 addr =>
      exact untouched_modifyAccount addr fun acct =>
        if acct.created then { acct with destructed := true, balance := 0 } else acct
  | exist addr => exact untouched_getOrFetchAccount addr
  | empty addr => exact untouched_getOrFetchAccount addr
  | createAccount _ | createContract _ | getRefund | getStorageRoot _ | getTransientState _ _
  | hasSelfDestructed _ | addressInAccessList _ | slotInAccessList _ _ =>
      exact ⟨rfl, rfl, rfl, rfl, rfl, rfl⟩
  | addRefund _ | subRefund _ | setState _ _ _ | setTransientState _ _ _ | addAddressToAccessList _
  | addSlotToAccessList _ _ | prepare _ _ _ _ _ | revertToSnapshot _ | snapshot | addLog _ =>
      cases plain

end SimulationStateDB

/-! ## Programs -/

/-- A deterministic program: each next call depends on the values returned so far. -/
inductive Program (α : Type) where
  | done (result : α)
  | call (op : DBOp) (next : DBValue → Program α)

/-- One execution: the calls with the values they returned, the result, the final state. -/
structure Execution (α : Type) where
  trace : List (DBOp × DBValue)
  result : α
  db : SimulationStateDB

def Program.run {α : Type} (W : World) : SimulationStateDB → Program α → Execution α
  | db, .done result => ⟨[], result, db⟩
  | db, .call op next =>
      let (value, db₁) := db.exec W op
      let rest := (next value).run W db₁
      ⟨(op, value) :: rest.trace, rest.result, rest.db⟩

end CrossShard.Orchestrator
