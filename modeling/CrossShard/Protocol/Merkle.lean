/-
# Protocol.Merkle -- authenticated state, as far as the repository relies on it

Account and storage tries, their root hashes and Merkle proofs belong to the Ethereum libraries.
`Geth` lists what the repository calls; a trie is the map it stands for.  What is assumed of the
libraries is stated, not built in:

* RLP encodings are read back and are never empty, and the empty trie has the empty root: fields of
  `Geth`.
* `CollisionFree`: no other trie has the empty root.
* `Sound`: `VerifyProof` answers what is in the trie of the root, or fails.
* `Complete`: what `Prove` collects is accepted by `VerifyProof` and is a path of at most 128 nodes.

A hash of 256 bits has collisions, so the last three cannot hold for all tries at once.  They are
assumed of a family of tries, the known ones.  `WorldState` is a state whose tries are known and
hold exactly its accounts and slots.
-/
import CrossShard.Protocol.Types

namespace CrossShard.Protocol

set_option autoImplicit false

open CrossShard.Library

abbrev Trie := FMap Hash Bytes

/-- The four fields of an account, as both packages decode them. -/
structure Account where
  nonce : BitVec 64
  balance : BitVec 256
  storageRoot : Hash
  codeHash : Hash
  deriving DecidableEq

/-- The functions of the libraries.  `verifyProof root key db` is the value of the key, empty if
it is absent, from the nodes in `db`; `prove` lists the nodes from the root to the key. -/
structure Geth where
  keccak256 : Bytes → Hash
  emptyRootHash : Hash
  rootHash : Trie → Hash
  prove : Trie → Hash → List Bytes
  verifyProof : Hash → Hash → FMap Hash Bytes → Except String Bytes
  encodeAccount : Account → Bytes
  decodeAccount : Bytes → Except String Account
  encodeBytes : Bytes → Bytes
  decodeBytes : Bytes → Except String Bytes
  rootHash_empty : rootHash ∅ = emptyRootHash
  decodeAccount_encodeAccount : ∀ a, decodeAccount (encodeAccount a) = .ok a
  encodeAccount_ne_nil : ∀ a, encodeAccount a ≠ []
  decodeBytes_encodeBytes : ∀ b, decodeBytes (encodeBytes b) = .ok b
  encodeBytes_ne_nil : ∀ b, encodeBytes b ≠ []

/-! ## Bytes -/

/-- `common.Address.Bytes`. -/
def addressBytes (addr : Address) : Bytes := natBytes 20 addr.toNat

/-- `common.TrimLeftZeroes`. -/
def trimLeftZeroes (bytes : Bytes) : Bytes := bytes.dropWhile fun b => b = 0

theorem bytesToNat_trimLeftZeroes (bytes : Bytes) :
    bytesToNat (trimLeftZeroes bytes) = bytesToNat bytes := by
  induction bytes with
  | nil => rfl
  | cons b bytes ih =>
      unfold trimLeftZeroes at ih ⊢
      rw [List.dropWhile_cons]
      split
      · rename_i zero
        obtain rfl : b = 0 := of_decide_eq_true zero
        rw [ih]
        rfl
      · rfl

/-- Leading zeros do not matter when a hash is read. -/
theorem bytesToHash_trimLeftZeroes (h : Hash) :
    bytesToHash (trimLeftZeroes (hashBytes h)) = h := by
  unfold bytesToHash
  rw [bytesToNat_trimLeftZeroes]
  exact bytesToHash_hashBytes h

/-! ## Keys and values -/

namespace Geth

variable (G : Geth)

def accountKey (addr : Address) : Hash := G.keccak256 (addressBytes addr)

def slotKey (slot : Hash) : Hash := G.keccak256 (hashBytes slot)

/-- A storage trie holds the trimmed values of the slots that are not zero. -/
def encodeSlot (value : Hash) : Option Bytes :=
  if value = 0 then none else some (G.encodeBytes (trimLeftZeroes (hashBytes value)))

/-- `newProofDB`: the nodes under their hashes. -/
def newProofDB (proof : List Bytes) : FMap Hash Bytes :=
  proof.foldl (fun db node => db.set (G.keccak256 node) node) ∅

/-! ## What is assumed -/

/-- No other trie has the root of the empty one. -/
def CollisionFree (known : Trie → Prop) : Prop :=
  ∀ t, known t → G.rootHash t = G.emptyRootHash → t = ∅

/-- What `VerifyProof` accepts, whatever nodes it is given, is what the trie holds. -/
def Sound (known : Trie → Prop) : Prop :=
  ∀ t, known t → ∀ key nodes value,
    G.verifyProof (G.rootHash t) key (G.newProofDB nodes) = .ok value →
      value = (t.get key).getD []

/-- The proof of a key, present or not, is accepted; it starts with the root node. -/
structure Complete (known : Trie → Prop) : Prop where
  length : ∀ t, known t → ∀ key, (G.prove t key).length ≤ 128
  root : ∀ t, known t → t ≠ ∅ → ∀ key, G.prove t key ≠ []
  accepted : ∀ t, known t → t ≠ ∅ → ∀ key,
    G.verifyProof (G.rootHash t) key (G.newProofDB (G.prove t key)) = .ok ((t.get key).getD [])

end Geth

/-! ## States -/

/-- An account with its storage, as content and as trie. -/
structure StateObject (G : Geth) (known : Trie → Prop) where
  nonce : BitVec 64
  balance : BitVec 256
  codeHash : Hash
  storage : Hash → Hash
  storageTrie : Trie
  isKnown : known storageTrie
  holds : ∀ slot, storageTrie.get (G.slotKey slot) = G.encodeSlot (storage slot)

namespace StateObject

variable {G : Geth} {known : Trie → Prop}

def record (obj : StateObject G known) : Account :=
  ⟨obj.nonce, obj.balance, G.rootHash obj.storageTrie, obj.codeHash⟩

/-- A slot that is not in the trie is zero. -/
theorem storage_of_empty {obj : StateObject G known} (empty : obj.storageTrie = ∅) (slot : Hash) :
    obj.storage slot = 0 := by
  have absent := obj.holds slot
  rw [empty, FMap.get_empty, Geth.encodeSlot] at absent
  by_contra nonzero
  rw [if_neg nonzero] at absent
  cases absent

end StateObject

/-- A state: its accounts, and the trie that holds them. -/
structure WorldState (G : Geth) (known : Trie → Prop) where
  account : Address → Option (StateObject G known)
  accountTrie : Trie
  isKnown : known accountTrie
  holds : ∀ addr, accountTrie.get (G.accountKey addr) =
    (account addr).map fun obj => G.encodeAccount obj.record

namespace WorldState

variable {G : Geth} {known : Trie → Prop} (S : WorldState G known)

def root : Hash := G.rootHash S.accountTrie

/-- The storage root of an account; an absent account has the empty one. -/
def storageRoot (addr : Address) : Hash :=
  match S.account addr with
  | some obj => G.rootHash obj.storageTrie
  | none => G.emptyRootHash

/-- The content of a slot, zero if the account or the slot is absent. -/
def content (addr : Address) (slot : Hash) : Hash :=
  match S.account addr with
  | some obj => obj.storage slot
  | none => 0

variable {S}

theorem content_of_empty (empty : S.accountTrie = ∅) (addr : Address) (slot : Hash) :
    S.content addr slot = 0 := by
  have absent := S.holds addr
  rw [empty, FMap.get_empty] at absent
  unfold content
  cases found : S.account addr with
  | none => rfl
  | some obj =>
      rw [found] at absent
      cases absent

end WorldState

/-! ## An instance -/

namespace MerklePole

def pot : Address := 0x100

/-- Addresses and slots are their own hashes. -/
def keccak (bytes : Bytes) : Hash := bytesToHash bytes

def potKey : Hash := keccak (addressBytes pot)

theorem keccak_addressBytes {addr : Address} :
    keccak (addressBytes addr) = potKey ↔ addr = pot := by
  have width : (256 : Nat) ^ 20 = 2 ^ 160 := by decide
  have reads : ∀ a : Address, (keccak (addressBytes a)).toNat = a.toNat := fun a => by
    unfold keccak bytesToHash addressBytes
    rw [BitVec.toNat_ofNat, bytesToNat_natBytes, width, Nat.mod_eq_of_lt a.isLt]
    exact Nat.mod_eq_of_lt (Nat.lt_of_lt_of_le a.isLt (by decide))
  constructor
  · intro same
    apply BitVec.eq_of_toNat_eq
    rw [← reads addr, ← reads pot]
    exact congrArg BitVec.toNat same
  · rintro rfl
    rfl

def encodeAccount (a : Account) : Bytes :=
  natBytes 8 a.nonce.toNat ++ natBytes 32 a.balance.toNat ++ hashBytes a.storageRoot ++
    hashBytes a.codeHash

def decodeAccount (bytes : Bytes) : Except String Account :=
  .ok ⟨BitVec.ofNat 64 (bytesToNat (bytes.take 8)),
    BitVec.ofNat 256 (bytesToNat ((bytes.drop 8).take 32)),
    bytesToHash ((bytes.drop 40).take 32), bytesToHash (bytes.drop 72)⟩

theorem length_natBytes (n x : Nat) : (natBytes n x).length = n := by
  induction n generalizing x with
  | zero => rfl
  | succ n ih => simp [natBytes, ih]

theorem decodeAccount_encodeAccount (a : Account) : decodeAccount (encodeAccount a) = .ok a := by
  obtain ⟨nonce, balance, storageRoot, codeHash⟩ := a
  have nonceLength := length_natBytes 8 nonce.toNat
  have balanceLength := length_natBytes 32 balance.toNat
  have rootLength : (hashBytes storageRoot).length = 32 := length_natBytes 32 _
  have first : (encodeAccount ⟨nonce, balance, storageRoot, codeHash⟩).take 8 =
      natBytes 8 nonce.toNat := by
    simp [encodeAccount, nonceLength]
  have second : ((encodeAccount ⟨nonce, balance, storageRoot, codeHash⟩).drop 8).take 32 =
      natBytes 32 balance.toNat := by
    simp [encodeAccount, nonceLength, balanceLength]
  have third : ((encodeAccount ⟨nonce, balance, storageRoot, codeHash⟩).drop 40).take 32 =
      hashBytes storageRoot := by
    simp [encodeAccount, List.drop_append, List.take_append, nonceLength, balanceLength,
      rootLength]
  have fourth : (encodeAccount ⟨nonce, balance, storageRoot, codeHash⟩).drop 72 =
      hashBytes codeHash := by
    exact List.drop_left' (by simp [nonceLength, balanceLength, rootLength])
  have nonceWidth : (256 : Nat) ^ 8 = 2 ^ 64 := by decide
  have balanceWidth : (256 : Nat) ^ 32 = 2 ^ 256 := by decide
  rw [decodeAccount, first, second, third, fourth, bytesToHash_hashBytes, bytesToHash_hashBytes,
    bytesToNat_natBytes, bytesToNat_natBytes, nonceWidth, balanceWidth,
    Nat.mod_eq_of_lt nonce.isLt, Nat.mod_eq_of_lt balance.isLt, BitVec.ofNat_toNat,
    BitVec.ofNat_toNat, BitVec.setWidth_eq, BitVec.setWidth_eq]

def encodeBytes (bytes : Bytes) : Bytes := 1 :: bytes

def decodeBytes : Bytes → Except String Bytes
  | [] => .error "unexpected end of input"
  | _ :: bytes => .ok bytes

/-- Slot 3 holds 7. -/
def storageTrie : Trie := (∅ : Trie).set 3 (encodeBytes (trimLeftZeroes (hashBytes 7)))

def potAccount : Account := ⟨0, 0, 2, 0⟩

/-- One account. -/
def accountTrie : Trie := (∅ : Trie).set potKey (encodeAccount potAccount)

/-- The empty trie hashes to 1, the storage trie to 2 and the account trie to 3. -/
def rootHash (t : Trie) : Hash :=
  if t.len = 0 then 1 else if (t.get 3).isSome then 2 else 3

def Known (t : Trie) : Prop := t = ∅ ∨ t = storageTrie ∨ t = accountTrie

/-- A verifier that knows the three tries. -/
def verifyProof (root key : Hash) (_ : FMap Hash Bytes) : Except String Bytes :=
  if root = 1 then .ok []
  else if root = 2 then .ok ((storageTrie.get key).getD [])
  else if root = 3 then .ok ((accountTrie.get key).getD [])
  else .error "missing node"

theorem rootHash_empty : rootHash ∅ = 1 := by decide +kernel

def geth : Geth where
  keccak256 := keccak
  emptyRootHash := 1
  rootHash := rootHash
  prove _ _ := [[0xff]]
  verifyProof := verifyProof
  encodeAccount := encodeAccount
  decodeAccount := decodeAccount
  encodeBytes := encodeBytes
  decodeBytes := decodeBytes
  rootHash_empty := rootHash_empty
  decodeAccount_encodeAccount := decodeAccount_encodeAccount
  encodeAccount_ne_nil a empty := by
    have length := congrArg List.length empty
    simp [encodeAccount, length_natBytes, hashBytes] at length
  decodeBytes_encodeBytes _ := rfl
  encodeBytes_ne_nil _ := List.cons_ne_nil _ _

theorem rootHash_storageTrie : rootHash storageTrie = 2 := by decide +kernel

theorem rootHash_accountTrie : rootHash accountTrie = 3 := by decide +kernel

theorem collisionFree : geth.CollisionFree Known := by
  rintro t (rfl | rfl | rfl) root
  · rfl
  · have other := rootHash_storageTrie.symm.trans root
    cases other
  · have other := rootHash_accountTrie.symm.trans root
    cases other

theorem verifyProof_rootHash {t : Trie} (known : Known t) (key : Hash) (db : FMap Hash Bytes) :
    verifyProof (rootHash t) key db = .ok ((t.get key).getD []) := by
  rcases known with rfl | rfl | rfl
  · rw [rootHash_empty, verifyProof, if_pos rfl, FMap.get_empty]
    rfl
  · rw [rootHash_storageTrie, verifyProof, if_neg (by decide), if_pos rfl]
  · rw [rootHash_accountTrie, verifyProof, if_neg (by decide), if_neg (by decide), if_pos rfl]

theorem sound : geth.Sound Known := by
  intro t known key nodes value accepted
  have answer := verifyProof_rootHash known key (geth.newProofDB nodes)
  exact Except.ok.inj (accepted.symm.trans answer)

theorem complete : geth.Complete Known where
  length _ _ _ := by
    show 1 ≤ 128
    decide
  root _ _ _ _ := List.cons_ne_nil _ _
  accepted t known _ key := verifyProof_rootHash known key (geth.newProofDB (geth.prove t key))

def potObject : StateObject geth Known where
  nonce := 0
  balance := 0
  codeHash := 0
  storage slot := if slot = 3 then 7 else 0
  storageTrie := storageTrie
  isKnown := .inr (.inl rfl)
  holds slot := by
    have key : geth.slotKey slot = slot := bytesToHash_hashBytes slot
    rw [key, storageTrie, FMap.get_set]
    by_cases here : slot = 3
    · rw [if_pos here, if_pos here]
      rfl
    · rw [if_neg here, if_neg here]
      rfl

/-- One account with one slot. -/
def state : WorldState geth Known where
  account addr := if addr = pot then some potObject else none
  accountTrie := accountTrie
  isKnown := .inr (.inr rfl)
  holds addr := by
    have stored : geth.encodeAccount potObject.record = encodeAccount potAccount := by
      show encodeAccount ⟨0, 0, rootHash storageTrie, 0⟩ = _
      rw [rootHash_storageTrie]
      rfl
    show (accountTrie.get (keccak (addressBytes addr))) = _
    rw [accountTrie, FMap.get_set]
    by_cases here : addr = pot
    · rw [if_pos (keccak_addressBytes.2 here), if_pos here, Option.map_some, stored]
    · rw [if_neg fun same => here (keccak_addressBytes.1 same), if_neg here]
      rfl

end MerklePole

end CrossShard.Protocol
