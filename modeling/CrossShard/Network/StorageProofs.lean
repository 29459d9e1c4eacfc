/-
# Network.StorageProofs -- proofs that a shard makes and the orchestrator checks

`internal/shard/evm.go` and `server.go`.  `GetStorageWithProof` opens the account trie at the state
root and the storage trie at the root it finds there, and collects the nodes on the way to the
account and to the slot; `formatProof` renders them in hexadecimal.  Prover and verifier each treat
the empty trie, the absent account, the empty storage trie and the absent slot on their own.

A `CommittedState` is a state whose tries are in the trie database with all their nodes: opening a
root gives its trie.  As `trie.New` takes the zero and the empty root for the empty trie without
looking, a committed trie with such a root is empty, and no assumption on the hash is needed here.

* `getStorageWithProof_eq`: what the prover answers.
* `parseProof_formatProof`: proofs survive the wire.
* `checkStorage_slotNodes`: the storage half is accepted.
* `generated_proof_verifies`: for every address and slot, the verifier accepts what the prover
  made, with the prover's own root and value.
-/
import CrossShard.Orchestrator.ProofCheck
import CrossShard.Shard.Evm

namespace CrossShard.Network

set_option autoImplicit false

open CrossShard.Library CrossShard.Protocol CrossShard.Orchestrator
open CrossShard.Shard (EVMState)

/-! ## Tries in the database -/

/-- An opened trie.  Reading a key fails if a node on its path is missing. -/
structure OpenTrie where
  trie : Trie
  missing : Hash → Option String

namespace OpenTrie

/-- A trie with all its nodes. -/
def whole (t : Trie) : OpenTrie := ⟨t, fun _ => none⟩

def get (tr : OpenTrie) (key : Hash) : Except String Bytes :=
  match tr.missing key with
  | some err => .error err
  | none => .ok ((tr.trie.get key).getD [])

def prove (G : Geth) (tr : OpenTrie) (key : Hash) : Except String (List Bytes) :=
  match tr.missing key with
  | some err => .error err
  | none => .ok (G.prove tr.trie key)

end OpenTrie

/-- `trie.New`: the empty trie at the zero and the empty root, and else what the database holds. -/
def openTrie (G : Geth) (trieDB : Hash → Except String OpenTrie) (root : Hash) :
    Except String OpenTrie :=
  if root = 0 ∨ root = G.emptyRootHash then .ok (.whole ∅) else trieDB root

/-- A trie that the zero or the empty root opens is empty. -/
theorem eq_empty_of_openTrie {G : Geth} {trieDB : Hash → Except String OpenTrie} {root : Hash}
    {t : Trie} (opened : openTrie G trieDB root = .ok (.whole t))
    (empty : root = 0 ∨ root = G.emptyRootHash) : t = ∅ := by
  rw [openTrie, if_pos empty] at opened
  exact (congrArg OpenTrie.trie (Except.ok.inj opened)).symm

/-! ## The prover -/

/-- A shard's state after `Commit`. -/
structure CommittedState (G : Geth) (known : Trie → Prop) where
  evm : EVMState
  blockNum : Nat
  trieDB : Hash → Except String OpenTrie
  /-- The state that was committed. -/
  state : WorldState G known
  storage : ∀ addr slot, evm.getStorageAt addr slot = state.content addr slot
  accountsStored : openTrie G trieDB state.root = .ok (.whole state.accountTrie)
  slotsStored : ∀ addr obj, state.account addr = some obj →
    openTrie G trieDB (G.rootHash obj.storageTrie) = .ok (.whole obj.storageTrie)

structure StorageProofResponse where
  address : Address
  slot : Hash
  value : Hash
  stateRoot : Hash
  blockHeight : Nat
  accountProof : List Bytes
  storageProof : List Bytes

variable {G : Geth} {known : Trie → Prop}

namespace CommittedState

def getStateRoot (c : CommittedState G known) : Hash := c.state.root

/-- The proof and the storage root.  Whatever goes wrong in reading the account leaves the empty
root. -/
def getAccountProof (c : CommittedState G known) (stateRoot : Hash) (addr : Address) :
    Except String (List Bytes × Hash) :=
  match openTrie G c.trieDB stateRoot with
  | .error err => .error s!"failed to open state trie: {err}"
  | .ok tr =>
      match tr.prove G (G.accountKey addr) with
      | .error err => .error s!"failed to prove account: {err}"
      | .ok nodes =>
          let storageRoot :=
            match tr.get (G.accountKey addr) with
            | .error _ => G.emptyRootHash
            | .ok accountData =>
                if accountData ≠ [] then
                  match G.decodeAccount accountData with
                  | .error _ => G.emptyRootHash
                  | .ok account => account.storageRoot
                else G.emptyRootHash
          .ok (nodes, storageRoot)

def getStorageProof (c : CommittedState G known) (storageRoot slot : Hash) :
    Except String (List Bytes) :=
  if storageRoot = 0 ∨ storageRoot = G.emptyRootHash then .ok []
  else
    match openTrie G c.trieDB storageRoot with
    | .error err => .error s!"failed to open storage trie: {err}"
    | .ok tr =>
        match tr.prove G (G.slotKey slot) with
        | .error err => .error s!"failed to prove storage slot: {err}"
        | .ok nodes => .ok nodes

def getStorageWithProof (c : CommittedState G known) (addr : Address) (slot : Hash) :
    Except String StorageProofResponse :=
  let stateRoot := c.getStateRoot
  let value := c.evm.getStorageAt addr slot
  match c.getAccountProof stateRoot addr with
  | .error err => .error s!"failed to generate account proof: {err}"
  | .ok (accountProof, storageRoot) =>
      match c.getStorageProof storageRoot slot with
      | .error err => .error s!"failed to generate storage proof: {err}"
      | .ok storageProof =>
          .ok ⟨addr, slot, value, stateRoot, c.blockNum, accountProof, storageProof⟩

end CommittedState

def formatProof (proof : List Bytes) : List String :=
  proof.map fun p => "0x" ++ hexEncodeToString p

/-- **Proofs survive the wire.** -/
theorem parseProof_formatProof (proof : List Bytes) :
    parseProof (formatProof proof) = .ok proof := by
  suffices general : ∀ index, parseProofFrom index (formatProof proof) = .ok proof from general 0
  induction proof with
  | nil => exact fun _ => rfl
  | cons p proof ih =>
      intro index
      show parseProofFrom index (("0x" ++ hexEncodeToString p) :: formatProof proof) = _
      rw [parseProofFrom, hexDecodeString_hexText, ih]
      rfl

theorem length_formatProof (proof : List Bytes) : (formatProof proof).length = proof.length :=
  List.length_map _

/-! ## What the prover answers -/

namespace CommittedState

variable (c : CommittedState G known)

theorem getAccountProof_eq (addr : Address) :
    c.getAccountProof c.state.root addr =
      .ok (G.prove c.state.accountTrie (G.accountKey addr), c.state.storageRoot addr) := by
  simp only [getAccountProof, c.accountsStored, OpenTrie.prove, OpenTrie.get, OpenTrie.whole,
    c.state.holds, WorldState.storageRoot]
  cases c.state.account addr with
  | none => simp
  | some obj =>
      simp only [Option.map_some, Option.getD_some, ne_eq, G.encodeAccount_ne_nil,
        not_false_eq_true, if_true, G.decodeAccount_encodeAccount]
      rfl

/-- Without storage the slots are zero. -/
theorem content_of_empty_storage {addr : Address}
    (empty : c.state.storageRoot addr = 0 ∨ c.state.storageRoot addr = G.emptyRootHash)
    (slot : Hash) : c.state.content addr slot = 0 := by
  unfold WorldState.storageRoot at empty
  unfold WorldState.content
  cases found : c.state.account addr with
  | none => rfl
  | some obj =>
      simp only [found] at empty ⊢
      exact obj.storage_of_empty (eq_empty_of_openTrie (c.slotsStored addr obj found) empty) slot

/-- An account with storage is there, and its storage trie is not empty. -/
theorem account_of_storage {addr : Address}
    (stored : ¬(c.state.storageRoot addr = 0 ∨ c.state.storageRoot addr = G.emptyRootHash)) :
    ∃ obj, c.state.account addr = some obj ∧ c.state.storageRoot addr = G.rootHash obj.storageTrie ∧
      (∀ slot, c.state.content addr slot = obj.storage slot) ∧ obj.storageTrie ≠ ∅ := by
  unfold WorldState.storageRoot at stored ⊢
  unfold WorldState.content
  cases found : c.state.account addr with
  | none =>
      rw [found] at stored
      exact absurd (.inr rfl) stored
  | some obj =>
      simp only [found] at stored
      refine ⟨obj, rfl, rfl, fun _ => rfl, fun empty => stored (.inr ?_)⟩
      rw [empty, G.rootHash_empty]

/-- The nodes from the storage root to the slot. -/
def slotNodes (addr : Address) (slot : Hash) : List Bytes :=
  if c.state.storageRoot addr = 0 ∨ c.state.storageRoot addr = G.emptyRootHash then []
  else
    match c.state.account addr with
    | some obj => G.prove obj.storageTrie (G.slotKey slot)
    | none => []

theorem getStorageProof_eq (addr : Address) (slot : Hash) :
    c.getStorageProof (c.state.storageRoot addr) slot = .ok (c.slotNodes addr slot) := by
  unfold getStorageProof slotNodes
  by_cases empty : c.state.storageRoot addr = 0 ∨ c.state.storageRoot addr = G.emptyRootHash
  · rw [if_pos empty, if_pos empty]
  · obtain ⟨obj, found, root, -, -⟩ := c.account_of_storage empty
    rw [if_neg empty, if_neg empty, root, c.slotsStored addr obj found, found]
    rfl

theorem getStorageWithProof_eq (addr : Address) (slot : Hash) :
    c.getStorageWithProof addr slot =
      .ok ⟨addr, slot, c.state.content addr slot, c.state.root, c.blockNum,
        G.prove c.state.accountTrie (G.accountKey addr), c.slotNodes addr slot⟩ := by
  simp only [getStorageWithProof, getStateRoot, c.getAccountProof_eq, c.getStorageProof_eq,
    c.storage]

/-! ## What the verifier says to it -/

theorem length_slotNodes (complete : G.Complete known) (addr : Address) (slot : Hash) :
    (c.slotNodes addr slot).length ≤ maxProofNodes := by
  unfold slotNodes
  by_cases empty : c.state.storageRoot addr = 0 ∨ c.state.storageRoot addr = G.emptyRootHash
  · rw [if_pos empty]
    exact Nat.zero_le _
  · obtain ⟨obj, found, -, -, -⟩ := c.account_of_storage empty
    rw [if_neg empty, found]
    exact complete.length _ obj.isKnown _

/-- **The storage half is accepted**, for a slot that is zero or not. -/
theorem checkStorage_slotNodes (complete : G.Complete known) (addr : Address) (slot : Hash) :
    checkStorage G (c.state.storageRoot addr) slot (c.state.content addr slot)
      (c.slotNodes addr slot) = .ok () := by
  unfold checkStorage slotNodes
  by_cases empty : c.state.storageRoot addr = 0 ∨ c.state.storageRoot addr = G.emptyRootHash
  · rw [if_pos empty.symm]
    exact requireZero_eq_ok.2 (c.content_of_empty_storage empty slot)
  · obtain ⟨obj, found, root, content, nonempty⟩ := c.account_of_storage empty
    have accepted := complete.accepted _ obj.isKnown nonempty (G.slotKey slot)
    rw [obj.holds] at accepted
    rw [if_neg fun exits => empty exits.symm, if_neg empty, found, root, content]
    simp only [accepted, storedValueFrom_encodeSlot, ne_eq, not_true, if_false]

theorem checkNodes_proof (complete : G.Complete known) (addr : Address) (slot : Hash)
    (nonempty : c.state.accountTrie ≠ ∅) :
    checkNodes G c.state.root addr slot (c.state.content addr slot)
      (G.prove c.state.accountTrie (G.accountKey addr)) (c.slotNodes addr slot) = .ok () := by
  rw [checkNodes_of_verified (complete.accepted _ c.state.isKnown nonempty _)]
  exact c.checkStorage_slotNodes complete addr slot

end CommittedState

/-- **Generated storage proofs verify.**  For every committed state, address and slot the prover
answers, and the verifier accepts its proofs, rendered and read back, with its own root and
value. -/
theorem generated_proof_verifies (G : Geth) (known : Trie → Prop) (complete : G.Complete known)
    (c : CommittedState G known) (addr : Address) (slot : Hash) :
    ∃ resp, c.getStorageWithProof addr slot = .ok resp ∧
      resp.value = c.state.content addr slot ∧
      verifyStorageProof G resp.stateRoot addr slot resp.value (formatProof resp.accountProof)
        (formatProof resp.storageProof) = .ok () := by
  refine ⟨_, c.getStorageWithProof_eq addr slot, rfl, verifyStorageProof_eq_ok.2 ⟨?_, ?_, ?_⟩⟩
  · rw [length_formatProof]
    exact complete.length _ c.state.isKnown _
  · rw [length_formatProof]
    exact c.length_slotNodes complete addr slot
  · by_cases exits : c.state.root = G.emptyRootHash ∨ c.state.root = 0
    · have empty := eq_empty_of_openTrie c.accountsStored exits.symm
      exact .inl ⟨exits, WorldState.content_of_empty empty addr slot⟩
    · have nonempty : c.state.accountTrie ≠ ∅ := fun empty =>
        exits (.inl ((congrArg G.rootHash empty).trans G.rootHash_empty))
      refine .inr ⟨exits, _, _, parseProof_formatProof _, parseProof_formatProof _, .inr ⟨?_, ?_⟩⟩
      · exact complete.root _ c.state.isKnown nonempty _
      · exact c.checkNodes_proof complete addr slot nonempty

namespace StorageProofPole

open MerklePole

/-- The state of one account with one slot, after a commit. -/
def committed : CommittedState geth Known where
  evm := ⟨fun _ => 0, state.content, fun _ => []⟩
  blockNum := 1
  trieDB root :=
    if root = 2 then .ok (.whole storageTrie)
    else if root = 3 then .ok (.whole accountTrie)
    else .error "missing trie node"
  state := state
  storage _ _ := rfl
  accountsStored := by
    show openTrie geth _ (rootHash accountTrie) = _
    rw [rootHash_accountTrie]
    rfl
  slotsStored addr obj found := by
    obtain rfl : obj = potObject := by
      unfold state at found
      dsimp only at found
      split at found
      · exact (Option.some.inj found).symm
      · cases found
    show openTrie geth _ (rootHash storageTrie) = _
    rw [rootHash_storageTrie]
    rfl

end StorageProofPole

open MerklePole StorageProofPole in
/-- A slot that is set, and one of an account that does not exist. -/
theorem committed_proofs_verify :
    (∃ resp, committed.getStorageWithProof pot 3 = .ok resp ∧ resp.value = 7 ∧
      verifyStorageProof geth resp.stateRoot pot 3 resp.value (formatProof resp.accountProof)
        (formatProof resp.storageProof) = .ok ()) ∧
    ∃ resp, committed.getStorageWithProof 0x999 3 = .ok resp ∧ resp.value = 0 ∧
      verifyStorageProof geth resp.stateRoot 0x999 3 resp.value (formatProof resp.accountProof)
        (formatProof resp.storageProof) = .ok () := by
  constructor
  · obtain ⟨resp, answered, value, accepted⟩ :=
      generated_proof_verifies geth Known complete committed pot 3
    exact ⟨resp, answered, value.trans (by decide +kernel), accepted⟩
  · obtain ⟨resp, answered, value, accepted⟩ :=
      generated_proof_verifies geth Known complete committed 0x999 3
    exact ⟨resp, answered, value.trans (by decide +kernel), accepted⟩

end CrossShard.Network
