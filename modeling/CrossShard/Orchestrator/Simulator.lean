/-
# Orchestrator.Simulator -- speculative execution of a cross-shard call

`internal/orchestrator/simulator.go`.  A job is executed once, by `evm.Call` against a fresh
`SimulationStateDB`.  The virtual machine is outside the repository: `EvmCall` gives, for the
arguments of the call, a program over the state interface that ends with the gas left and an
error or none.

`execute` is what `runSimulation` finds out and `runSimulation` what it does with it: the
transaction handed to `onError` carries the failure marker, the one handed to `onSuccess` the
new read/write set.  The service supplies the callbacks.

Times and the periodic removal of old results are left out; a full queue refuses at once, where
the source waits five seconds for a place.
-/
import CrossShard.Orchestrator.StateDB

namespace CrossShard.Orchestrator

set_option autoImplicit false

open CrossShard.Library CrossShard.Protocol

/-- What `evm.Call` returns, apart from the output. -/
structure CallResult where
  gasLeft : Nat
  err : Option String

/-- `evm.Call(caller, addr, input, gas, value)`. -/
abbrev EvmCall := Address → Address → Bytes → Nat → U256 → Program CallResult

structure SimulationResult where
  status : SimulationStatus
  rwSet : List RwVariable := []
  gasUsed : Nat := 0
  error : String := ""

structure Simulator where
  queue : List CrossShardTx
  results : FMap TxID SimulationResult
  closing : Bool

def queueCapacity : Nat := 100

namespace Simulator

def newSimulator : Simulator := ⟨[], ∅, false⟩

/-- The error, if any, and the simulator. -/
def submit (s : Simulator) (tx : CrossShardTx) : Option String × Simulator :=
  if s.closing then (some "simulator is shutting down", s)
  else
    let pending := { s with results := s.results.set tx.id { status := .pending } }
    if s.queue.length < queueCapacity then (none, { pending with queue := s.queue ++ [tx] })
    else
      (some "simulation queue full (timeout)",
        { pending with
          results := s.results.set tx.id { status := .failed, error := "simulation queue full" } })

end Simulator

/-! ## One simulation -/

/-- Where the call goes: `To`, or the first entry of the given read/write set if `To` is zero. -/
def callTarget (tx : CrossShardTx) : Address :=
  if tx.toAddr = 0 then
    match tx.rwSet with
    | [] => tx.toAddr
    | rw :: _ => rw.address
  else tx.toAddr

def callGas (tx : CrossShardTx) : Nat :=
  if tx.gas = 0 then if tx.data ≠ [] then 1000000 else 21000 else tx.gas

/-- `uint256.FromBig`, which drops what does not fit. -/
def uint256FromBig (value : Int) : U256 := BitVec.ofInt 256 value

/-- The execution of the call, after `Prepare`. -/
def execute (W : World) (call : EvmCall) (tx : CrossShardTx) : Execution CallResult :=
  (call tx.fromAddr (callTarget tx) tx.data (callGas tx) (uint256FromBig (toBigInt tx.value))).run W
    (SimulationStateDB.newSimulationStateDB.prepare tx.fromAddr 0 none [] [])

/-- A failed fetch hides the error of the call. -/
def execErr (e : Execution CallResult) : Option String :=
  match e.db.fetchErrors with
  | err :: _ => some err
  | [] => e.result.err

/-- The subtraction of two `uint64` values. -/
def gasUsed (tx : CrossShardTx) (e : Execution CallResult) : Nat :=
  (BitVec.ofNat 64 (callGas tx) - BitVec.ofNat 64 e.result.gasLeft).toNat

/-- The callback that ends a simulation, with the transaction it receives. -/
inductive Callback where
  | onSuccess (tx : CrossShardTx)
  | onError (tx : CrossShardTx)
  deriving DecidableEq

def Callback.tx : Callback → CrossShardTx
  | .onSuccess tx => tx
  | .onError tx => tx

/-- The transaction as recorded after a failure. -/
def failedTx (tx : CrossShardTx) (err : String) : CrossShardTx :=
  { tx with simStatus := .failed, simError := err }

/-- The transaction with what the simulation found. -/
def simulatedTx (W : World) (tx : CrossShardTx) (e : Execution CallResult) : CrossShardTx :=
  { tx with rwSet := e.db.buildRwSet W, gas := gasUsed tx e }

theorem rwSet_simulatedTx (W : World) (tx : CrossShardTx) (e : Execution CallResult) :
    (simulatedTx W tx e).rwSet = e.db.buildRwSet W := rfl

theorem fromShard_simulatedTx (W : World) (tx : CrossShardTx) (e : Execution CallResult) :
    (simulatedTx W tx e).fromShard = tx.fromShard := rfl

def runSimulation (W : World) (call : EvmCall) (tx : CrossShardTx) : Callback × SimulationResult :=
  let e := execute W call tx
  match execErr e with
  | some err =>
      (.onError (failedTx tx err), { status := .failed, gasUsed := gasUsed tx e, error := err })
  | none =>
      (.onSuccess (simulatedTx W tx e),
        { status := .success, rwSet := e.db.buildRwSet W, gasUsed := gasUsed tx e })

/-- A simulation fails exactly when the call or some fetch reports an error. -/
theorem runSimulation_cases (W : World) (call : EvmCall) (tx : CrossShardTx) :
    (∃ err, execErr (execute W call tx) = some err ∧
        (runSimulation W call tx).1 = .onError (failedTx tx err)) ∨
      (execErr (execute W call tx) = none ∧
        (runSimulation W call tx).1 = .onSuccess (simulatedTx W tx (execute W call tx))) := by
  cases outcome : execErr (execute W call tx) with
  | some err => exact .inl ⟨err, rfl, by simp only [runSimulation, outcome]⟩
  | none => exact .inr ⟨rfl, by simp only [runSimulation, outcome]⟩

end CrossShard.Orchestrator
