/-
# Orchestrator.ProofCheck -- which storage claims a shard can get accepted

`internal/orchestrator/statefetcher.go`.  `VerifyStorageProof` checks a claimed slot value against
a state root, given an account proof and a storage proof from an untrusted shard.  Besides the main
path it accepts early: at an empty root, without an account proof, and at an empty storage root.
Each of these exits asks for the value zero only.

For the empty roots that is right.  An empty account proof, however, proves nothing, and a zero
root is not the root of the empty trie.

* `verifyStorageProof_eq_ok`: what is accepted, exit by exit.
* `checkStorage_sound`: the second half of the check, against the storage trie of the account.
* `Unproved`: the proofs with which the value zero passes unchecked.
* `storage_proof_sound_iff`: an accepted claim is true exactly if it is none of the value zero, with
  such proofs, about a slot that is not zero.
-/
import CrossShard.Protocol.Codec
import CrossShard.Protocol.Merkle

namespace CrossShard.Orchestrator

set_option autoImplicit false

open CrossShard.Library CrossShard.Protocol

/-! ## Reading a proof -/

/-- The nodes of a proof, with or without `0x`; `index` counts the entries before. -/
def parseProofFrom (index : Nat) : List String → Except String (List Bytes)
  | [] => .ok []
  | hexStr :: rest =>
      match hexDecodeString ((stripHex hexStr).getD hexStr) with
      | .error err =>
          let reason := hexMessage err
          .error s!"invalid hex at index {index}: {reason}"
      | .ok bytes => (parseProofFrom (index + 1) rest).map (bytes :: ·)

def parseProof (hexProof : List String) : Except String (List Bytes) := parseProofFrom 0 hexProof

/-! ## The check -/

def maxProofNodes : Nat := 128

/-- `common.Hash.Hex`. -/
def hashHex (h : Hash) : String := "0x" ++ hexEncodeToString (hashBytes h)

/-- An exit that accepts the value zero only. -/
def requireZero (value : Hash) (msg : String) : Except String Unit :=
  if value ≠ 0 then .error msg else .ok ()

/-- Step 2: the storage root of the account, the empty one if it does not exist. -/
def storageRootFrom (G : Geth) (accountRLP : Bytes) : Except String Hash :=
  if accountRLP ≠ [] then
    match G.decodeAccount accountRLP with
    | .error err => .error s!"failed to decode account: {err}"
    | .ok account => .ok account.storageRoot
  else .ok G.emptyRootHash

/-- Step 4: the value in the storage trie. -/
def storedValueFrom (G : Geth) (valueRLP : Bytes) : Except String Hash :=
  if valueRLP ≠ [] then
    match G.decodeBytes valueRLP with
    | .error err => .error s!"failed to decode storage value: {err}"
    | .ok rawValue => .ok (if rawValue ≠ [] then bytesToHash rawValue else 0)
  else .ok 0

/-- Steps 3 and 4. -/
def checkStorage (G : Geth) (storageRoot slot value : Hash) (storageNodes : List Bytes) :
    Except String Unit :=
  if storageRoot = G.emptyRootHash ∨ storageRoot = 0 then
    requireZero value "storage proof invalid: non-zero value for empty storage root"
  else
    match G.verifyProof storageRoot (G.slotKey slot) (G.newProofDB storageNodes) with
    | .error err => .error s!"storage proof verification failed: {err}"
    | .ok valueRLP =>
        match storedValueFrom G valueRLP with
        | .error err => .error err
        | .ok storedValue =>
            if storedValue ≠ value then
              let shown := hashHex storedValue
              let claimed := hashHex value
              .error s!"storage value mismatch: proof shows {shown}, claimed {claimed}"
            else .ok ()

/-- Steps 1 to 4. -/
def checkNodes (G : Geth) (stateRoot : Hash) (addr : Address) (slot value : Hash)
    (accountNodes storageNodes : List Bytes) : Except String Unit :=
  match G.verifyProof stateRoot (G.accountKey addr) (G.newProofDB accountNodes) with
  | .error err => .error s!"account proof verification failed: {err}"
  | .ok accountRLP =>
      match storageRootFrom G accountRLP with
      | .error err => .error err
      | .ok storageRoot => checkStorage G storageRoot slot value storageNodes

def verifyStorageProof (G : Geth) (stateRoot : Hash) (addr : Address) (slot value : Hash)
    (accountProof storageProof : List String) : Except String Unit :=
  let accountLength := accountProof.length
  let storageLength := storageProof.length
  if maxProofNodes < accountLength then
    .error s!"account proof too large: {accountLength} nodes (max {maxProofNodes})"
  else if maxProofNodes < storageLength then
    .error s!"storage proof too large: {storageLength} nodes (max {maxProofNodes})"
  else if stateRoot = G.emptyRootHash ∨ stateRoot = 0 then
    requireZero value "empty state root cannot have non-zero storage value"
  else
    match parseProof accountProof with
    | .error err => .error s!"invalid account proof format: {err}"
    | .ok accountNodes =>
        match parseProof storageProof with
        | .error err => .error s!"invalid storage proof format: {err}"
        | .ok storageNodes =>
            if accountNodes = [] then
              requireZero value "empty account proof cannot verify non-zero value"
            else checkNodes G stateRoot addr slot value accountNodes storageNodes

/-! ## Soundness -/

theorem requireZero_eq_ok {value : Hash} {msg : String} :
    requireZero value msg = .ok () ↔ value = 0 := by
  unfold requireZero
  split <;> simp_all

variable {G : Geth} {known : Trie → Prop}

/-- **What is accepted.** -/
theorem verifyStorageProof_eq_ok {stateRoot : Hash} {addr : Address} {slot value : Hash}
    {accountProof storageProof : List String} :
    verifyStorageProof G stateRoot addr slot value accountProof storageProof = .ok () ↔
      accountProof.length ≤ maxProofNodes ∧ storageProof.length ≤ maxProofNodes ∧
      ((stateRoot = G.emptyRootHash ∨ stateRoot = 0) ∧ value = 0 ∨
        ¬(stateRoot = G.emptyRootHash ∨ stateRoot = 0) ∧
        ∃ accountNodes storageNodes, parseProof accountProof = .ok accountNodes ∧
          parseProof storageProof = .ok storageNodes ∧
          (accountNodes = [] ∧ value = 0 ∨ accountNodes ≠ [] ∧
            checkNodes G stateRoot addr slot value accountNodes storageNodes = .ok ())) := by
  unfold verifyStorageProof
  dsimp only
  by_cases longAccount : maxProofNodes < accountProof.length
  · rw [if_pos longAccount]
    exact iff_of_false (by rintro ⟨⟩) fun all => Nat.not_le_of_lt longAccount all.1
  · by_cases longStorage : maxProofNodes < storageProof.length
    · rw [if_neg longAccount, if_pos longStorage]
      exact iff_of_false (by rintro ⟨⟩) fun all => Nat.not_le_of_lt longStorage all.2.1
    · simp only [longAccount, longStorage, if_false, Nat.le_of_not_lt longAccount,
        Nat.le_of_not_lt longStorage, true_and]
      by_cases exits : stateRoot = G.emptyRootHash ∨ stateRoot = 0
      · simp only [exits, if_true, requireZero_eq_ok, true_and, not_true, false_and, or_false]
      · simp only [exits, if_false, false_and, not_false_eq_true, true_and, false_or]
        cases parseProof accountProof with
        | error err => simp
        | ok accountNodes =>
            cases parseProof storageProof with
            | error err => simp
            | ok storageNodes =>
                by_cases empty : accountNodes = []
                · simp [empty, requireZero_eq_ok]
                · simp [empty]

theorem storedValueFrom_encodeSlot (value : Hash) :
    storedValueFrom G ((G.encodeSlot value).getD []) = .ok value := by
  unfold storedValueFrom Geth.encodeSlot
  by_cases zero : value = 0
  · simp [zero]
  · rw [if_neg zero, Option.getD_some, if_pos (G.encodeBytes_ne_nil _),
      G.decodeBytes_encodeBytes]
    dsimp only
    split
    · rw [bytesToHash_trimLeftZeroes]
    · rename_i empty
      have trimmed := bytesToHash_trimLeftZeroes value
      rw [not_not.1 empty] at trimmed
      exact congrArg Except.ok trimmed

theorem storageRootFrom_holds (S : WorldState G known) (addr : Address) :
    storageRootFrom G ((S.accountTrie.get (G.accountKey addr)).getD []) =
      .ok (S.storageRoot addr) := by
  rw [S.holds]
  unfold storageRootFrom WorldState.storageRoot
  cases S.account addr with
  | none => rfl
  | some obj =>
      rw [Option.map_some, Option.getD_some, if_pos (G.encodeAccount_ne_nil _),
        G.decodeAccount_encodeAccount]
      rfl

/-- **The storage half.**  What is accepted is the content of the slot, unless the storage root is
zero. -/
theorem checkStorage_sound (free : G.CollisionFree known) (sound : G.Sound known)
    {obj : StateObject G known} {slot value : Hash} {nodes : List Bytes}
    (accepted : checkStorage G (G.rootHash obj.storageTrie) slot value nodes = .ok ()) :
    value = obj.storage slot ∨ G.rootHash obj.storageTrie = 0 ∧ value = 0 := by
  unfold checkStorage at accepted
  split at accepted
  · rename_i exits
    have zero := requireZero_eq_ok.1 accepted
    rcases exits with empty | none
    · have trie := free _ obj.isKnown empty
      exact .inl (zero.trans (obj.storage_of_empty trie slot).symm)
    · exact .inr ⟨none, zero⟩
  · split at accepted
    · cases accepted
    · rename_i valueRLP verified
      have held := sound _ obj.isKnown _ _ _ verified
      rw [held, obj.holds, storedValueFrom_encodeSlot] at accepted
      dsimp only at accepted
      split at accepted
      · cases accepted
      · rename_i same
        exact .inl (not_not.1 same).symm

/-- Once the account is read, the check goes on at its storage root. -/
theorem checkNodes_of_verified {S : WorldState G known} {addr : Address} {slot value : Hash}
    {accountNodes nodes : List Bytes}
    (verified : G.verifyProof S.root (G.accountKey addr) (G.newProofDB accountNodes) =
      .ok ((S.accountTrie.get (G.accountKey addr)).getD [])) :
    checkNodes G S.root addr slot value accountNodes nodes =
      checkStorage G (S.storageRoot addr) slot value nodes := by
  simp only [checkNodes, verified, storageRootFrom_holds]

/-- **The check of the nodes.** -/
theorem checkNodes_eq_ok (sound : G.Sound known) {S : WorldState G known} {addr : Address}
    {slot value : Hash} {accountNodes nodes : List Bytes}
    (accepted : checkNodes G S.root addr slot value accountNodes nodes = .ok ()) :
    ∃ accountRLP,
      G.verifyProof S.root (G.accountKey addr) (G.newProofDB accountNodes) = .ok accountRLP ∧
        checkStorage G (S.storageRoot addr) slot value nodes = .ok () := by
  cases verified : G.verifyProof S.root (G.accountKey addr) (G.newProofDB accountNodes) with
  | error err =>
      simp only [checkNodes, verified] at accepted
      cases accepted
  | ok accountRLP =>
      rw [sound _ S.isKnown _ _ _ verified] at verified
      exact ⟨_, rfl, (checkNodes_of_verified verified).symm.trans accepted⟩

theorem checkStorage_content (free : G.CollisionFree known) (sound : G.Sound known)
    {S : WorldState G known} {addr : Address} {slot value : Hash} {nodes : List Bytes}
    (accepted : checkStorage G (S.storageRoot addr) slot value nodes = .ok ()) :
    value = S.content addr slot ∨ S.storageRoot addr = 0 ∧ value = 0 := by
  unfold WorldState.storageRoot WorldState.content at *
  cases found : S.account addr with
  | none =>
      simp only [found] at accepted ⊢
      rw [checkStorage, if_pos (.inl rfl)] at accepted
      exact .inl (requireZero_eq_ok.1 accepted)
  | some obj =>
      simp only [found] at accepted ⊢
      exact checkStorage_sound free sound accepted

/-- No node shows what the slot holds: the state root is zero; or both proofs can be read and there
is no account node, or the account that is proved has a zero storage root. -/
def Unproved (S : WorldState G known) (addr : Address) (accountProof storageProof : List String) :
    Prop :=
  S.root = 0 ∨ ∃ accountNodes storageNodes, parseProof accountProof = .ok accountNodes ∧
    parseProof storageProof = .ok storageNodes ∧
    (accountNodes = [] ∨ S.storageRoot addr = 0 ∧ ∃ accountRLP,
      G.verifyProof S.root (G.accountKey addr) (G.newProofDB accountNodes) = .ok accountRLP)

/-- What is accepted is the content of the slot, or zero through an unproved exit. -/
theorem verifyStorageProof_cases (free : G.CollisionFree known) (sound : G.Sound known)
    {S : WorldState G known} {addr : Address} {slot value : Hash}
    {accountProof storageProof : List String}
    (accepted : verifyStorageProof G S.root addr slot value accountProof storageProof = .ok ()) :
    value = S.content addr slot ∨ accountProof.length ≤ maxProofNodes ∧
      storageProof.length ≤ maxProofNodes ∧ Unproved S addr accountProof storageProof ∧
      value = 0 := by
  obtain ⟨short, short', ⟨empty | none, zero⟩ | ⟨-, accountNodes, storageNodes, parsed, parsed',
    exits⟩⟩ := verifyStorageProof_eq_ok.1 accepted
  · have trie := free _ S.isKnown empty
    exact .inl (zero.trans (WorldState.content_of_empty trie addr slot).symm)
  · exact .inr ⟨short, short', .inl none, zero⟩
  · rcases exits with ⟨empty, zero⟩ | ⟨-, checked⟩
    · exact .inr ⟨short, short', .inr ⟨_, _, parsed, parsed', .inl empty⟩, zero⟩
    · obtain ⟨accountRLP, verified, stored⟩ := checkNodes_eq_ok sound checked
      rcases checkStorage_content free sound stored with same | ⟨none, zero⟩
      · exact .inl same
      · exact .inr ⟨short, short', .inr ⟨_, _, parsed, parsed', .inr ⟨none, _, verified⟩⟩, zero⟩

/-- Unproved, the value zero is accepted. -/
theorem accepted_of_unproved (sound : G.Sound known) {S : WorldState G known} {addr : Address}
    {slot : Hash} {accountProof storageProof : List String}
    (short : accountProof.length ≤ maxProofNodes) (short' : storageProof.length ≤ maxProofNodes)
    (unproved : Unproved S addr accountProof storageProof) :
    verifyStorageProof G S.root addr slot 0 accountProof storageProof = .ok () := by
  refine verifyStorageProof_eq_ok.2 ⟨short, short', ?_⟩
  by_cases exits : S.root = G.emptyRootHash ∨ S.root = 0
  · exact .inl ⟨exits, rfl⟩
  · rcases unproved with none | ⟨accountNodes, storageNodes, parsed, parsed', unproved⟩
    · exact absurd (.inr none) exits
    · refine .inr ⟨exits, accountNodes, storageNodes, parsed, parsed', ?_⟩
      by_cases empty : accountNodes = []
      · exact .inl ⟨empty, rfl⟩
      · obtain ⟨none, accountRLP, verified⟩ := unproved.resolve_left empty
        rw [sound _ S.isKnown _ _ _ verified] at verified
        refine .inr ⟨empty, ?_⟩
        rw [checkNodes_of_verified verified, none, checkStorage, if_pos (.inr rfl)]
        exact requireZero_eq_ok.2 rfl

/-- **When an accepted storage claim is true.**  For every state, claim and pair of proofs: if the
claim is accepted, then it gives the content of the slot, exactly unless it claims zero for a slot
that is not zero, with proofs that are not too long and prove nothing. -/
theorem storage_proof_sound_iff (G : Geth) (known : Trie → Prop) (free : G.CollisionFree known)
    (sound : G.Sound known) (S : WorldState G known) (addr : Address) (slot value : Hash)
    (accountProof storageProof : List String) :
    (verifyStorageProof G S.root addr slot value accountProof storageProof = .ok () →
      value = S.content addr slot) ↔
    ¬(value = 0 ∧ S.content addr slot ≠ 0 ∧ accountProof.length ≤ maxProofNodes ∧
      storageProof.length ≤ maxProofNodes ∧ Unproved S addr accountProof storageProof) := by
  constructor
  · rintro true ⟨rfl, nonzero, short, short', unproved⟩
    exact nonzero (true (accepted_of_unproved sound short short' unproved)).symm
  · intro proved accepted
    rcases verifyStorageProof_cases free sound accepted with same | ⟨short, short', unproved, zero⟩
    · exact same
    · by_contra different
      refine proved ⟨zero, fun none => different ?_, short, short', unproved⟩
      rw [zero, none]

open MerklePole in
theorem honest_claim_is_true :
    verifyStorageProof geth state.root pot 3 7 ["0xff"] ["0xff"] = .ok () ∧
      7 = state.content pot 3 := by
  have accepted : verifyStorageProof geth state.root pot 3 7 ["0xff"] ["0xff"] = .ok () := by
    decide +kernel
  refine ⟨accepted, (storage_proof_sound_iff geth Known collisionFree sound state pot 3 7 ["0xff"]
    ["0xff"]).2 (fun misled => ?_) accepted⟩
  exact absurd misled.1 (by decide)

open MerklePole in
/-- Slot 3 holds 7, and a claim of zero without any proof is accepted. -/
theorem unproved_zero_is_accepted :
    verifyStorageProof geth state.root pot 3 0 [] [] = .ok () ∧ state.content pot 3 = 7 := by
  decide +kernel

end CrossShard.Orchestrator
