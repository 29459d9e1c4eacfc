/-
# Shard.Server -- how a shard turns orchestrator blocks and requests into queued work

`internal/shard/server.go`.  `processOrchestratorBlock` first queues the outcome of the
transactions the block decides, then a `Lock` for each transaction it orders; none of
these is executed before the shard's own `ProduceBlock`.  The two loops are
`processResult` and `processOrder`.

`handleOrchestratorShardBlock` puts the block buffer in front, `recoverFromOrchestrator`
replays a log without it, and `handleTxSubmit` queues local transactions after a check
of the available balance.  Requests arrive decoded; the simulation that classifies a
contract call is a parameter, since it runs the virtual machine.
-/
import CrossShard.Protocol.Codec
import CrossShard.Shard.BlockBuffer
import CrossShard.Shard.Chain

namespace CrossShard.Shard

set_option autoImplicit false

open CrossShard.Library CrossShard.Protocol

/-- `NumShards`, a constant of the shard package. -/
def numShards : Nat := 8

def maxBlockBuffer : Int := 100

/-- `int(addr[len(addr)-1]) % NumShards`. -/
def shardOf (addr : Address) : Int := (lastByte addr % numShards : Nat)

namespace Chain

/-- A cross-shard operation queued for `txID`. -/
def crossTx (txType : TxType) (txID : TxID) : Transaction :=
  { txType := txType, crossShardTxID := txID, isCrossShard := true }

def debitTx (txID : TxID) (lock : LockedFunds) : Transaction :=
  { crossTx .crossDebit txID with fromAddr := lock.address, value := some lock.amount }

def creditTx (txID : TxID) (credit : PendingCredit) : Transaction :=
  { crossTx .crossCredit txID with toAddr := credit.address, value := some credit.amount }

def writeSetTx (txID : TxID) (rwSet : List RwVariable) : Transaction :=
  { crossTx .crossWriteSet txID with rwSet := rwSet }

def finalizeTx (txID : TxID) (rwSet : List RwVariable) : Transaction :=
  { crossTx .finalize txID with rwSet := rwSet }

/-- What a commit queues: the debit of a reservation, the pending credits, the write set
of a pending call and the write set of a prepared transaction. -/
def commitTxs (c : Chain) (txID : TxID) : List Transaction :=
  let debits := (c.getLockedFunds txID).toList.map (debitTx txID)
  let credits := ((c.getPendingCredits txID).getD []).map (creditTx txID)
  let writes := (c.getPendingCall txID).toList.filterMap fun call =>
    let localRwSet := call.localRwSet c.shardID
    if localRwSet = [] then none else some (writeSetTx txID localRwSet)
  let finals := (c.getPendingRwSet txID).toList.filterMap fun rwSet =>
    if rwSet = [] then none else some (finalizeTx txID rwSet)
  debits ++ credits ++ writes ++ finals

/-- Whether an abort has anything to clean up at this moment. -/
def hasData (c : Chain) (txID : TxID) : Bool :=
  (c.getLockedFunds txID).isSome || (c.getPendingCredits txID).isSome ||
    (c.getPendingCall txID).isSome || (c.getPendingRwSet txID).isSome

def abortTxs (c : Chain) (txID : TxID) : List Transaction :=
  if c.hasData txID then [crossTx .crossAbort txID] else []

def decisionTxs (c : Chain) (txID : TxID) (committed : Bool) : List Transaction :=
  (if committed then c.commitTxs txID else c.abortTxs txID) ++ [crossTx .unlock txID]

def addTxs (c : Chain) (txs : List Transaction) : Chain :=
  { c with currentTxs := c.currentTxs ++ txs }

/-- One turn of the `TpcResult` loop. -/
def processResult (c : Chain) (result : Σ _ : TxID, Bool) : Chain :=
  let (c₁, fresh) := c.checkAndMarkCommitProcessed result.1
  if fresh then c₁.addTxs (c₁.decisionTxs result.1 result.2) else c₁

/-- The credit a shard notes when the recipient is its own. -/
def noteCredit (c : Chain) (tx : CrossShardTx) : Chain :=
  if 0 < toBigInt tx.value ∧ shardOf tx.toAddr = c.shardID then
    c.storePendingCredit tx.id tx.toAddr (toBigInt tx.value)
  else c

/-- The `Lock` a shard queues for `tx`: only the source shard's carries the value. -/
def lockTx (shardID : Int) (tx : CrossShardTx) : Transaction :=
  { crossTx .lock tx.id with
    fromAddr := tx.fromAddr
    toAddr := tx.toAddr
    value := if tx.fromShard = shardID then tx.value else none
    rwSet := tx.localRwSet shardID }

/-- One turn of the `CtToOrder` loop. -/
def processOrder (c : Chain) (tx : CrossShardTx) : Chain :=
  if tx.fromShard = c.shardID then
    (c.noteCredit tx).addTx (lockTx c.shardID tx)
  else if tx.localRwSet c.shardID ≠ [] then
    let c₁ := c.noteCredit tx
    let c₂ := if tx.data ≠ [] then c₁.storePendingCall tx else c₁
    c₂.addTx (lockTx c.shardID tx)
  else c

def processOrchestratorBlock (c : Chain) (block : OrchestratorShardBlock) : Chain :=
  if block.height ≤ c.lastOrchestratorHeight then c
  else
    let c₁ := block.tpcResult.entries.foldl processResult c
    let c₂ := block.ctToOrder.foldl processOrder c₁
    c₂.setLastOrchestratorHeight block.height

end Chain

structure Server where
  evmState : EVMState
  chain : Chain
  blockBuffer : BlockBuffer

namespace Server

/-- The server before recovery: genesis chain, buffer expecting block 1. -/
def fresh (shardID : Int) (evm : EVMState) : Server :=
  ⟨evm, Chain.newChain shardID, BlockBuffer.newBlockBuffer 1 maxBlockBuffer⟩

def processOrchestratorBlock (s : Server) (block : OrchestratorShardBlock) : Server :=
  { s with chain := s.chain.processOrchestratorBlock block }

/-- The status field of the response, and the server. -/
def handleOrchestratorShardBlock (s : Server) (block : OrchestratorShardBlock) :
    String × Server :=
  match s.blockBuffer.processBlock block with
  | (none, buffer) => ("buffered", { s with blockBuffer := buffer })
  | (some blocks, buffer) =>
      ("ok", blocks.foldl processOrchestratorBlock { s with blockBuffer := buffer })

/-! ## Crash recovery -/

/-- The outcome of `fetchOrchestratorBlock`. -/
inductive Fetched where
  | failed
  | notFound
  | block (b : OrchestratorShardBlock)

/-- What the orchestrator answers during recovery: the latest height, unless that query
fails, and the outcome of each block fetch. -/
structure OrchestratorView where
  latest : Option Nat
  fetch : Nat → Fetched

/-- `turns` iterations of the recovery loop, starting at `height`. -/
def replay (fetch : Nat → Fetched) : Nat → Nat → Server → Server
  | 0, _, s => s
  | turns + 1, height, s =>
      let s' := match fetch height with
        | .block b => s.processOrchestratorBlock b
        | _ => s
      replay fetch turns (height + 1) s'

def recoverFromOrchestrator (s : Server) (view : OrchestratorView) : Server :=
  match view.latest with
  | none => s
  | some orchestratorHeight =>
      let lastHeight := s.chain.lastOrchestratorHeight
      if orchestratorHeight ≤ lastHeight then s
      else replay view.fetch (orchestratorHeight - lastHeight) (lastHeight + 1) s

/-- `NewServer`, without the goroutine it starts. -/
def newServer (shardID : Int) (evm : EVMState) (view : OrchestratorView) : Server :=
  (fresh shardID evm).recoverFromOrchestrator view

/-! ## Local submissions -/

structure TxSubmitRequest where
  fromAddr : Address
  toAddr : Address
  value : String
  data : Bytes
  gas : Nat

def minGasLimit : Nat := 21000
def defaultGasLimit : Nat := 1000000
def maxGasLimit : Nat := 30000000
def simulationGasLimit : Nat := 3000000

/-- What `SimulateCall` reports: an error, or the accessed addresses and whether one of
them is on another shard. -/
abbrev SimulateCall :=
  EVMState → Address → Address → Bytes → Int → Nat → Except String (List Address × Bool)

inductive SubmitResponse where
  | badRequest (msg : String)
  | wrongShard (sender : Address) (fromShard shardID : Int)
  | refused (msg : String)
  | forwarded (tx : CrossShardTx)
  | queued
  deriving DecidableEq

def containsIgnoreCase (s substr : String) : Bool :=
  decide (substr.toLower.toList <:+: s.toLower.toList)

/-- Only errors about the sender are certain to fail on every shard. -/
def isDefiniteLocalError (errStr : String) : Bool :=
  ["insufficient balance", "insufficient funds", "nonce too low", "nonce too high"].any
    fun e => containsIgnoreCase errStr e

/-- Where a request goes before the balance check: another shard's addresses to forward
it with, an error to report, or neither. -/
def classify (simulate : SimulateCall) (s : Server) (req : TxSubmitRequest) (value : Int)
    (gas : Nat) : Except String (Option (List Address)) :=
  if shardOf req.toAddr ≠ s.chain.shardID then .ok (some [req.toAddr])
  else if s.evmState.code req.toAddr ≠ [] ∧ req.data ≠ [] then
    let simGas := max gas simulationGasLimit
    match simulate s.evmState req.fromAddr req.toAddr req.data value simGas with
    | .error err => if isDefiniteLocalError err then .error err else .ok (some [req.toAddr])
    | .ok (accessed, true) =>
        .ok (some (accessed.filter fun addr => shardOf addr ≠ s.chain.shardID).dedup)
    | .ok (_, false) => .ok none
  else .ok none

/-- The minimal read/write set a forwarded transaction carries; `txID` is generated. -/
def forwardTx (s : Server) (req : TxSubmitRequest) (txID : TxID) (value : Int) (gas : Nat)
    (addrs : List Address) : CrossShardTx where
  id := txID
  fromShard := s.chain.shardID
  fromAddr := req.fromAddr
  toAddr := req.toAddr
  value := some value
  gas := gas
  data := req.data
  rwSet := addrs.map fun addr => ⟨addr, ⟨shardOf addr⟩, [], []⟩

def localTx (req : TxSubmitRequest) (value : Int) (gas : Nat) : Transaction :=
  { fromAddr := req.fromAddr, toAddr := req.toAddr, value := some value, gas := gas,
    data := req.data }

/-- The balance check before a local transaction is queued. -/
def hasAvailable (s : Server) (addr : Address) (value : Int) : Bool :=
  decide (value ≤ 0) ||
    s.evmState.canDebit addr value (s.chain.getLockedAmountForAddress addr)

def handleTxSubmit (simulate : SimulateCall) (s : Server) (txID : TxID)
    (req : TxSubmitRequest) : SubmitResponse × Server :=
  match (if req.value = "" then some 0 else bigSetString req.value 10) with
  | none => (.badRequest "invalid value", s)
  | some value =>
      let gas := if req.gas = 0 then defaultGasLimit else req.gas
      if gas < minGasLimit then
        (.refused s!"gas limit {gas} below minimum {minGasLimit}", s)
      else if maxGasLimit < gas then
        (.refused s!"gas limit {gas} exceeds maximum {maxGasLimit}", s)
      else if shardOf req.fromAddr ≠ s.chain.shardID then
        (.wrongShard req.fromAddr (shardOf req.fromAddr) s.chain.shardID, s)
      else
        match s.classify simulate req value gas with
        | .error err => (.refused err, s)
        | .ok (some addrs) => (.forwarded (s.forwardTx req txID value gas addrs), s)
        | .ok none =>
            if s.hasAvailable req.fromAddr value then
              (.queued, { s with chain := s.chain.addTx (localTx req value gas) })
            else (.refused "insufficient balance", s)

end Server

end CrossShard.Shard
