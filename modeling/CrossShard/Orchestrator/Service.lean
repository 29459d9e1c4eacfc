/-
# Orchestrator.Service -- the requests the orchestrator answers

`internal/orchestrator/service.go`.  A transaction enters the chain on three ways: submitted with
its read/write set (`handleSubmit`), after a successful simulation (`onSuccess`), and after a
failed one (`onError`).  Shard blocks bring votes, and `blockProducer` makes the blocks.

Requests arrive decoded.  `uuid` is the ID that is generated when the request has none, and the
votes of a shard block come with the order in which the handler visits them.

A submission without a value makes `handleSubmit` panic when it logs the amount: the transaction is
then remembered and not added to the chain.
-/
import CrossShard.Orchestrator.Chain
import CrossShard.Orchestrator.Simulator

namespace CrossShard.Orchestrator

set_option autoImplicit false

open CrossShard.Library CrossShard.Protocol

structure Service where
  numShards : Nat
  pending : FMap TxID CrossShardTx
  chain : OrchestratorChain
  simulator : Simulator

inductive Response where
  | badRequest (msg : String)
  | unavailable (msg : String)
  | submitted (txID : TxID) (status : TxStatus)
  | simulating (txID : TxID) (status : SimulationStatus)
  | panicked
  deriving DecidableEq

namespace Service

def newService (numShards : Nat) : Service :=
  ⟨numShards, ∅, OrchestratorChain.newOrchestratorChain, Simulator.newSimulator⟩

/-- A shard the orchestrator manages. -/
def managed (s : Service) (shardID : Int) : Bool := 0 ≤ shardID && shardID < s.numShards

/-- The ID and the status that both submission handlers give a request. -/
def accept (uuid : TxID) (tx : CrossShardTx) : CrossShardTx :=
  { tx with id := if tx.id = "" then uuid else tx.id, status := .pending }

def remember (s : Service) (tx : CrossShardTx) : Service :=
  { s with pending := s.pending.set tx.id tx }

/-- Remember the transaction and add it to the chain. -/
def enqueue (s : Service) (tx : CrossShardTx) : Service :=
  { s.remember tx with chain := s.chain.addTransaction tx }

def handleSubmit (s : Service) (uuid : TxID) (req : CrossShardTx) : Response × Service :=
  let tx := accept uuid req
  if s.managed tx.fromShard = false then (.badRequest "invalid from_shard ID", s)
  else if ∃ rw ∈ tx.rwSet, s.managed rw.referenceBlock.shardNum = false then
    (.badRequest "invalid target shard ID in RwSet", s)
  -- the log line between the two effects calls `String` on the missing value
  else if tx.value = none then (.panicked, s.remember tx)
  else (.submitted tx.id tx.status, s.enqueue tx)

def handleCall (s : Service) (uuid : TxID) (req : CrossShardTx) : Response × Service :=
  let tx := accept uuid req
  if s.managed tx.fromShard = false then (.badRequest "invalid from_shard ID", s)
  else
    match s.simulator.submit tx with
    | (some err, simulator) =>
        (.unavailable ("simulation queue full: " ++ err), { s with simulator := simulator })
    | (none, simulator) => (.simulating tx.id .pending, { s with simulator := simulator })

/-! ## The end of a simulation -/

/-- The two callbacks of `NewService`; a failed transaction is not remembered as pending. -/
def callback (s : Service) : Callback → Service
  | .onSuccess tx => s.enqueue tx
  | .onError tx => { s with chain := s.chain.addTransaction tx }

/-- The world as the fetcher of this service reaches it. -/
def world (s : Service) (W : World) : World := { W with numShards := s.numShards }

/-- One turn of the worker: the oldest job is simulated and its callback called. -/
def simulateNext (W : World) (call : EvmCall) (s : Service) : Option Service :=
  match s.simulator.queue with
  | [] => none
  | tx :: rest =>
      let (outcome, result) := runSimulation (s.world W) call tx
      let results := s.simulator.results.set tx.id result
      some { s.callback outcome with
        simulator := { s.simulator with queue := rest, results := results } }

/-! ## Votes and blocks -/

def updateStatus (s : Service) (txID : TxID) (status : TxStatus) : Service :=
  match s.pending.get txID with
  | none => s
  | some tx => { s with pending := s.pending.set txID { tx with status := status } }

/-- One turn of the loop over the votes of a shard block. -/
def takeVote (shardID : Int) (s : Service) (vote : Σ _ : TxID, Bool) : Service :=
  let (accepted, chain) := s.chain.recordVote vote.1 shardID vote.2
  let s₁ := { s with chain := chain }
  if accepted then s₁.updateStatus vote.1 .prepared else s₁

def handleStateShardBlock (s : Service) (shardID : Int) (tpcPrepare : AList fun _ : TxID => Bool) :
    Service :=
  tpcPrepare.entries.foldl (takeVote shardID) s

/-- One tick of `blockProducer`, up to the broadcast. -/
def produceBlock (s : Service) : OrchestratorShardBlock × Service :=
  let (block, chain) := s.chain.produceBlock
  (block, block.tpcResult.entries.foldl
    (fun s r => s.updateStatus r.1 (if r.2 then .committed else .aborted))
    { s with chain := chain })

/-! ## What the requests do to the chain -/

/-- A submission is refused, or remembered, and in the latter case added unless it has no value. -/
theorem handleSubmit_cases (s : Service) (uuid : TxID) (req : CrossShardTx) :
    (s.handleSubmit uuid req).2 = s ∨
      (s.managed req.fromShard ∧ ∀ rw ∈ req.rwSet, s.managed rw.referenceBlock.shardNum) ∧
        (s.handleSubmit uuid req = (.panicked, s.remember (accept uuid req)) ∨
          s.handleSubmit uuid req =
            (.submitted (accept uuid req).id .pending, s.enqueue (accept uuid req))) := by
  unfold handleSubmit
  dsimp only
  split
  · exact .inl rfl
  · rename_i source
    split
    · exact .inl rfl
    · rename_i targets
      refine .inr ⟨⟨Bool.not_eq_false _ ▸ source, fun rw mem => ?_⟩, ?_⟩
      · by_contra bad
        exact targets ⟨rw, mem, by simpa using bad⟩
      · split
        · exact .inl rfl
        · exact .inr rfl

theorem chain_handleCall (s : Service) (uuid : TxID) (req : CrossShardTx) :
    (s.handleCall uuid req).2.chain = s.chain := by
  unfold handleCall
  dsimp only
  split
  · rfl
  · split <;> rfl

theorem chain_updateStatus (s : Service) (txID : TxID) (status : TxStatus) :
    (s.updateStatus txID status).chain = s.chain := by
  unfold updateStatus
  split <;> rfl

theorem chain_takeVote (shardID : Int) (s : Service) (vote : Σ _ : TxID, Bool) :
    (takeVote shardID s vote).chain = s.chain.apply (.recordVote vote.1 shardID vote.2) := by
  unfold takeVote
  dsimp only
  split
  · rw [chain_updateStatus]
    rfl
  · rfl

/-- A shard block is a sequence of votes. -/
theorem chain_handleStateShardBlock (s : Service) (shardID : Int)
    (tpcPrepare : AList fun _ : TxID => Bool) :
    (s.handleStateShardBlock shardID tpcPrepare).chain =
      s.chain.after (tpcPrepare.entries.map fun vote => .recordVote vote.1 shardID vote.2) := by
  unfold handleStateShardBlock OrchestratorChain.after
  generalize tpcPrepare.entries = votes
  induction votes generalizing s with
  | nil => rfl
  | cons vote votes ih =>
      rw [List.foldl_cons, ih, chain_takeVote]
      rfl

theorem chain_produceBlock (s : Service) : s.produceBlock.2.chain = s.chain.apply .produceBlock := by
  have statuses : ∀ (results : List (Σ _ : TxID, Bool)) (s : Service),
      (results.foldl (fun s r => s.updateStatus r.1 (if r.2 then .committed else .aborted)) s).chain =
        s.chain := by
    intro results
    induction results with
    | nil => exact fun s => rfl
    | cons r results ih => exact fun s => (ih _).trans (s.chain_updateStatus r.1 _)
  exact statuses _ _

theorem chain_callback (s : Service) (outcome : Callback) :
    (s.callback outcome).chain = s.chain.addTransaction outcome.tx := by
  cases outcome <;> rfl

/-- What the end of a simulation does: a failed transaction is added to the chain and not
remembered, a simulated one is both. -/
theorem simulateNext_cases {W : World} {call : EvmCall} {s s' : Service}
    (ran : s.simulateNext W call = some s') :
    ∃ tx rest, s.simulator.queue = tx :: rest ∧ s'.simulator.queue = rest ∧
      s'.chain = s.chain.addTransaction (runSimulation (s.world W) call tx).1.tx ∧
      (s'.pending = s.pending ∨
        (runSimulation (s.world W) call tx).1.tx =
            simulatedTx (s.world W) tx (execute (s.world W) call tx) ∧
          s'.pending = s.pending.set tx.id (runSimulation (s.world W) call tx).1.tx) := by
  unfold simulateNext at ran
  split at ran
  · cases ran
  · rename_i tx rest queue
    cases ran
    refine ⟨tx, rest, queue, rfl, s.chain_callback _, ?_⟩
    rcases runSimulation_cases (s.world W) call tx with ⟨err, -, failed⟩ | ⟨-, succeeded⟩
    · left
      show (s.callback (runSimulation (s.world W) call tx).1).pending = _
      rw [failed]
      rfl
    · right
      show _ ∧ (s.callback (runSimulation (s.world W) call tx).1).pending = _
      rw [succeeded]
      exact ⟨rfl, rfl⟩

/-- Every simulation adds its transaction to the chain, whatever the outcome. -/
theorem chain_simulateNext {W : World} {call : EvmCall} {s s' : Service}
    (ran : s.simulateNext W call = some s') :
    ∃ tx rest, s.simulator.queue = tx :: rest ∧
      s'.chain = s.chain.addTransaction (runSimulation (s.world W) call tx).1.tx := by
  obtain ⟨tx, rest, queue, -, chain, -⟩ := simulateNext_cases ran
  exact ⟨tx, rest, queue, chain⟩

end Service

end CrossShard.Orchestrator
