/-
# Protocol.Types -- the values the orchestrator and the shards exchange

`internal/protocol/types.go` and `block.go`.  Addresses and hashes are the fixed-width
words of the source; `*BigInt` is an optional unbounded integer, read through
`toBigInt`.  Copies (`DeepCopy`) are identities on values and do not appear.

A `map[string]bool` that some loop ranges over is an association list with distinct
keys (`AList`): one list is the map together with the order in which that loop happens
to visit it, so a statement about every block is a statement about every visiting order.

Left out because nothing modelled reads them: `TxHash`, Merkle proofs of read items, the
block hash and height of a `Reference`, previous-block hashes, timestamps, and the
generated `ID` of a queued transaction, which the shard only prints.
-/
import Mathlib.Data.List.AList
import CrossShard.Library.FiniteMap

namespace CrossShard.Protocol

set_option autoImplicit false

open CrossShard.Library

abbrev Address := BitVec 160
abbrev Hash := BitVec 256
abbrev Bytes := List UInt8
abbrev TxID := String

/-- `addr[len(addr)-1]`. -/
def lastByte (addr : Address) : Nat := addr.toNat % 256

/-- The big-endian number a byte string spells. -/
def bytesToNat (bytes : Bytes) : Nat :=
  bytes.foldl (fun acc b => acc * 256 + b.toNat) 0

/-- `common.BytesToHash`: shorter strings are padded, longer ones cropped from the left. -/
def bytesToHash (bytes : Bytes) : Hash := BitVec.ofNat 256 (bytesToNat bytes)

/-- The last `n` bytes of a number, big-endian. -/
def natBytes : Nat → Nat → Bytes
  | 0, _ => []
  | n + 1, x => natBytes n (x / 256) ++ [UInt8.ofNat x]

/-- `common.Hash.Bytes`. -/
def hashBytes (h : Hash) : Bytes := natBytes 32 h.toNat

theorem bytesToNat_natBytes (n x : Nat) : bytesToNat (natBytes n x) = x % 256 ^ n := by
  induction n generalizing x with
  | zero => simp [natBytes, bytesToNat, Nat.mod_one]
  | succ n ih =>
      have fold : bytesToNat (natBytes n (x / 256) ++ [UInt8.ofNat x]) =
          bytesToNat (natBytes n (x / 256)) * 256 + (UInt8.ofNat x).toNat := by
        simp [bytesToNat]
      rw [natBytes, fold, ih, pow_succ, mul_comm (256 ^ n), Nat.mod_mul]
      simp only [UInt8.toNat_ofNat']
      omega

/-- Reading the bytes of a hash gives the hash. -/
theorem bytesToHash_hashBytes (h : Hash) : bytesToHash (hashBytes h) = h := by
  have width : (256 : Nat) ^ 32 = 2 ^ 256 := by decide
  apply BitVec.eq_of_toNat_eq
  unfold bytesToHash hashBytes
  rw [BitVec.toNat_ofNat, bytesToNat_natBytes, width, Nat.mod_mod, Nat.mod_eq_of_lt h.isLt]

/-- `(*BigInt).ToBigInt`: a missing amount is zero. -/
def toBigInt (value : Option Int) : Int := value.getD 0

structure Reference where
  shardNum : Int
  deriving DecidableEq

structure ReadSetItem where
  slot : Hash
  value : Bytes
  deriving DecidableEq

structure WriteSetItem where
  slot : Hash
  oldValue : Bytes
  newValue : Bytes
  deriving DecidableEq

structure RwVariable where
  address : Address
  referenceBlock : Reference
  readSet : List ReadSetItem
  writeSet : List WriteSetItem
  deriving DecidableEq

inductive TxType where
  | localTx
  | crossDebit
  | crossCredit
  | crossWriteSet
  | crossAbort
  | prepareDebit
  | prepareCredit
  | prepareWriteSet
  | lock
  | unlock
  | simError
  | finalize
  deriving DecidableEq

namespace TxType

/-- The string constant of the source. -/
def name : TxType → String
  | localTx => ""
  | crossDebit => "cross_debit"
  | crossCredit => "cross_credit"
  | crossWriteSet => "cross_writeset"
  | crossAbort => "cross_abort"
  | prepareDebit => "prepare_debit"
  | prepareCredit => "prepare_credit"
  | prepareWriteSet => "prepare_writeset"
  | lock => "lock"
  | unlock => "unlock"
  | simError => "sim_error"
  | finalize => "finalize"

/-- `TxType.Priority`: lower numbers execute first in block production. -/
def priority : TxType → Nat
  | crossDebit | crossCredit | crossWriteSet | finalize => 1
  | unlock => 2
  | lock => 3
  | simError => 5
  | _ => 4

end TxType

/-- A transaction of a shard's block.  `fromAddr` and `toAddr` are `From` and `To`;
`crossShardTxID` is empty for local transactions. -/
structure Transaction where
  fromAddr : Address := 0
  toAddr : Address := 0
  value : Option Int := none
  gas : Nat := 0
  data : Bytes := []
  isCrossShard : Bool := false
  txType : TxType := .localTx
  crossShardTxID : TxID := ""
  rwSet : List RwVariable := []
  deriving DecidableEq

inductive TxStatus where
  | pending | prepared | committed | aborted
  deriving DecidableEq

inductive SimulationStatus where
  | none | pending | running | success | failed
  deriving DecidableEq

/-- A cross-shard transaction; `fromAddr` and `toAddr` are `From` and `To`. -/
structure CrossShardTx where
  id : TxID
  fromShard : Int
  fromAddr : Address
  toAddr : Address
  value : Option Int
  gas : Nat := 0
  data : Bytes := []
  rwSet : List RwVariable
  status : TxStatus := .pending
  simStatus : SimulationStatus := .none
  simError : String := ""
  deriving DecidableEq

namespace CrossShardTx

/-- The loop of `TargetShards`: first occurrences, in order. -/
def targetShardsFrom (seen : List Int) : List RwVariable → List Int
  | [] => []
  | rw :: rest =>
      if rw.referenceBlock.shardNum ∈ seen then targetShardsFrom seen rest
      else rw.referenceBlock.shardNum ::
        targetShardsFrom (rw.referenceBlock.shardNum :: seen) rest

/-- All distinct shards the read/write set refers to. -/
def targetShards (tx : CrossShardTx) : List Int := targetShardsFrom [] tx.rwSet

/-- `FromShard` and the target shards. -/
def involvedShards (tx : CrossShardTx) : List Int :=
  if tx.fromShard ∈ tx.targetShards then tx.targetShards
  else tx.fromShard :: tx.targetShards

theorem mem_targetShardsFrom {seen : List Int} {rws : List RwVariable} {s : Int} :
    s ∈ targetShardsFrom seen rws ↔
      s ∉ seen ∧ ∃ rw ∈ rws, rw.referenceBlock.shardNum = s := by
  induction rws generalizing seen with
  | nil => simp [targetShardsFrom]
  | cons rw rest ih =>
      unfold targetShardsFrom
      split
      · rename_i old
        rw [ih]
        constructor
        · rintro ⟨fresh, rw', member, same⟩
          exact ⟨fresh, rw', List.mem_cons_of_mem _ member, same⟩
        · rintro ⟨fresh, rw', member, same⟩
          rcases List.mem_cons.1 member with rfl | member
          · exact absurd (same ▸ old) fresh
          · exact ⟨fresh, rw', member, same⟩
      · rename_i new
        rw [List.mem_cons, ih]
        constructor
        · rintro (rfl | ⟨fresh, rw', member, same⟩)
          · exact ⟨new, rw, List.mem_cons_self, rfl⟩
          · exact ⟨fun h => fresh (List.mem_cons_of_mem _ h), rw',
              List.mem_cons_of_mem _ member, same⟩
        · rintro ⟨fresh, rw', member, same⟩
          by_cases first : s = rw.referenceBlock.shardNum
          · exact Or.inl first
          · refine Or.inr ⟨fun h => ?_, rw', ?_, same⟩
            · exact (List.mem_cons.1 h).elim first fresh
            · refine (List.mem_cons.1 member).resolve_left fun same' => ?_
              exact first (same' ▸ same.symm)

theorem nodup_targetShardsFrom (seen : List Int) (rws : List RwVariable) :
    (targetShardsFrom seen rws).Nodup := by
  induction rws generalizing seen with
  | nil => exact List.nodup_nil
  | cons rw rest ih =>
      unfold targetShardsFrom
      split
      · exact ih seen
      · refine List.nodup_cons.2 ⟨fun again => ?_, ih _⟩
        exact (mem_targetShardsFrom.1 again).1 List.mem_cons_self

/-- A shard is involved when it is the source or some entry refers to it. -/
theorem mem_involvedShards {tx : CrossShardTx} {s : Int} :
    s ∈ tx.involvedShards ↔
      s = tx.fromShard ∨ ∃ rw ∈ tx.rwSet, rw.referenceBlock.shardNum = s := by
  have target : s ∈ tx.targetShards ↔ ∃ rw ∈ tx.rwSet, rw.referenceBlock.shardNum = s := by
    simp [targetShards, mem_targetShardsFrom]
  unfold involvedShards
  split
  · rename_i source
    rw [target]
    constructor
    · exact Or.inr
    · rintro (rfl | found)
      · exact target.1 source
      · exact found
  · rw [List.mem_cons, target]

theorem nodup_involvedShards (tx : CrossShardTx) : tx.involvedShards.Nodup := by
  unfold involvedShards
  split
  · exact nodup_targetShardsFrom _ _
  · rename_i absent
    exact List.nodup_cons.2 ⟨absent, nodup_targetShardsFrom _ _⟩

/-- The entries of the read/write set that one shard is responsible for. -/
def localRwSet (tx : CrossShardTx) (shardID : Int) : List RwVariable :=
  tx.rwSet.filter fun rw => rw.referenceBlock.shardNum = shardID

theorem localRwSet_ne_nil {tx : CrossShardTx} {s : Int} :
    tx.localRwSet s ≠ [] ↔ ∃ rw ∈ tx.rwSet, rw.referenceBlock.shardNum = s := by
  simp [localRwSet, List.filter_eq_nil_iff]

end CrossShardTx

/-- A block of the orchestrator shard. -/
structure OrchestratorShardBlock where
  height : Nat
  tpcResult : AList fun _ : TxID => Bool
  ctToOrder : List CrossShardTx

/-- A block of a state shard. -/
structure StateShardBlock where
  shardID : Int
  height : Nat
  stateRoot : Hash
  txOrdering : List Transaction
  prepareTxs : List Transaction
  tpcPrepare : FMap TxID Bool

end CrossShard.Protocol
