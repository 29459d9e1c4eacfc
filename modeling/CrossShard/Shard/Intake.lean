/-
# Shard.Intake -- the requests a shard server handles, and the blocks it takes in

A server handles one request at a time: a delivered orchestrator block, a local submission,
or a tick of its block producer.  `serve` is one request and `history` the events of a list
of requests; `history_run` connects the two, so that what holds of runs of events holds of
servers.

* `TakesIn`: whatever is delivered, in whatever order and however often, the shard takes in
  blocks of strictly increasing heights, each at most once.
* `intake_in_step_iff`: the buffer and the chain agree on the next height exactly when crash
  recovery had nothing to replay.
-/
import CrossShard.Shard.Provenance

namespace CrossShard.Shard

set_option autoImplicit false

open CrossShard.Library CrossShard.Protocol

/-! ## Requests -/

/-- One request; `produce` is a block production whose `EVMState.Commit` succeeds. -/
inductive Request where
  | deliver (block : OrchestratorShardBlock)
  | submit (txID : TxID) (req : Server.TxSubmitRequest)
  | produce (stateRoot : Hash)

/-- The events of taking in blocks one after the other. -/
def intakeEvents : Chain → List OrchestratorShardBlock → List Event
  | _, [] => []
  | c, block :: blocks =>
      blockEvents c block ++ intakeEvents (c.processOrchestratorBlock block) blocks

namespace Server

/-- The server after one request, unless block production panics. -/
def serve (vm : VM) (simulate : SimulateCall) (s : Server) : Request → Option Server
  | .deliver block => some (s.handleOrchestratorShardBlock block).2
  | .submit txID req => some (s.handleTxSubmit simulate txID req).2
  | .produce stateRoot =>
      (s.chain.produceBlock vm s.evmState (some stateRoot)).map fun p =>
        { s with chain := p.chain, evmState := p.evm }

/-- The blocks that a delivery makes ready, in order. -/
def ready (s : Server) (block : OrchestratorShardBlock) : List OrchestratorShardBlock :=
  (s.blockBuffer.processBlock block).1.getD []

/-- The events of one request.  A submission adds at most one transaction to the queue. -/
def requestEvents (simulate : SimulateCall) (s : Server) : Request → List Event
  | .deliver block => intakeEvents s.chain (s.ready block)
  | .submit txID req =>
      ((s.handleTxSubmit simulate txID req).2.chain.currentTxs.drop
        s.chain.currentTxs.length).map .submit
  | .produce stateRoot => produceEvents s.chain (some stateRoot)

/-- The events of a list of requests. -/
def history (vm : VM) (simulate : SimulateCall) : Server → List Request → List Event
  | _, [] => []
  | s, r :: rs =>
      s.requestEvents simulate r ++
        match s.serve vm simulate r with
        | some s' => history vm simulate s' rs
        | none => []

theorem foldl_processOrchestratorBlock (s : Server) (blocks : List OrchestratorShardBlock) :
    blocks.foldl processOrchestratorBlock s =
      { s with chain := blocks.foldl Chain.processOrchestratorBlock s.chain } := by
  induction blocks generalizing s with
  | nil => rfl
  | cons block blocks ih => exact ih (s.processOrchestratorBlock block)

/-- A delivery changes the buffer and takes in the blocks that are ready. -/
theorem handleOrchestratorShardBlock_eq (s : Server) (block : OrchestratorShardBlock) :
    (s.handleOrchestratorShardBlock block).2 =
      ⟨s.evmState, (s.ready block).foldl Chain.processOrchestratorBlock s.chain,
        (s.blockBuffer.processBlock block).2⟩ := by
  unfold handleOrchestratorShardBlock ready
  split
  · rename_i buffer same
    simp [same]
  · rename_i blocks buffer same
    rw [foldl_processOrchestratorBlock]
    simp [same]

end Server

theorem intakeEvents_run (vm : VM) (c : Chain) (evm : EVMState)
    (blocks : List OrchestratorShardBlock) :
    run (step vm) ⟨c, evm, none⟩ (intakeEvents c blocks) =
      some ⟨blocks.foldl Chain.processOrchestratorBlock c, evm, none⟩ := by
  induction blocks generalizing c with
  | nil => rfl
  | cons block blocks ih =>
      rw [intakeEvents, run_append, processOrchestratorBlock_run]
      exact ih (c.processOrchestratorBlock block)

/-- **A request is the run of its events.** -/
theorem Server.serve_run {vm : VM} {simulate : SimulateCall} {s s' : Server} {r : Request}
    (served : s.serve vm simulate r = some s') :
    run (step vm) ⟨s.chain, s.evmState, none⟩ (s.requestEvents simulate r) =
      some ⟨s'.chain, s'.evmState, none⟩ := by
  cases r with
  | deliver block =>
      cases served
      rw [handleOrchestratorShardBlock_eq]
      exact intakeEvents_run vm s.chain s.evmState (s.ready block)
  | submit txID req =>
      cases served
      show run (step vm) _ (((s.handleTxSubmit simulate txID req).2.chain.currentTxs.drop
        s.chain.currentTxs.length).map .submit) = _
      rcases handleTxSubmit_cases simulate s txID req with same | ⟨tx, kind, unnamed, queued⟩
      · rw [same, List.drop_length]
        rfl
      · rw [queued]
        simp [Chain.addTx, run, step, kind, unnamed]
  | produce stateRoot =>
      obtain ⟨p, produced, rfl⟩ := Option.map_eq_some_iff.1 served
      show run (step vm) _ (produceEvents s.chain (some stateRoot)) = _
      rw [produceBlock_run, produced]
      rfl

theorem Server.history_run {vm : VM} {simulate : SimulateCall} {s s' : Server} {rs : List Request}
    (served : run (serve vm simulate) s rs = some s') :
    run (step vm) ⟨s.chain, s.evmState, none⟩ (s.history vm simulate rs) =
      some ⟨s'.chain, s'.evmState, none⟩ := by
  induction rs generalizing s with
  | nil =>
      cases served
      rfl
  | cons r rs ih =>
      obtain ⟨s₁, first, rest⟩ := run_cons_eq_some.1 served
      rw [history, run_append, serve_run first, first]
      exact ih rest

/-! ## Blocks are taken in once -/

/-- `es` takes in exactly `blocks`: each after the block at `low` and in increasing height, up
to `high`. -/
structure TakesIn (es : List Event) (low high : Nat) (blocks : List OrchestratorShardBlock) :
    Prop where
  orders : ordered es = blocks.flatMap OrchestratorShardBlock.ctToOrder
  results : decisions es = blocks.flatMap fun b => b.tpcResult.entries.map fun r => (r.1, r.2)
  commits : Event.commitError ∉ es
  rising : blocks.Pairwise fun b b' => b.height < b'.height
  above : ∀ b ∈ blocks, low < b.height ∧ b.height ≤ high
  grows : low ≤ high

theorem TakesIn.append {es fs : List Event} {low mid high : Nat}
    {blocks blocks' : List OrchestratorShardBlock} (first : TakesIn es low mid blocks)
    (second : TakesIn fs mid high blocks') : TakesIn (es ++ fs) low high (blocks ++ blocks') where
  orders := by rw [ordered_append, first.orders, second.orders, List.flatMap_append]
  results := by rw [decisions_append, first.results, second.results, List.flatMap_append]
  commits := by
    intro member
    rcases List.mem_append.1 member with member | member
    · exact first.commits member
    · exact second.commits member
  rising := by
    refine List.pairwise_append.2 ⟨first.rising, second.rising, ?_⟩
    intro b member b' member'
    have below := (first.above b member).2
    have above := (second.above b' member').1
    omega
  above := by
    intro b member
    have grows := first.grows
    have grows' := second.grows
    rcases List.mem_append.1 member with member | member
    · have bounds := first.above b member
      omega
    · have bounds := second.above b member
      omega
  grows := first.grows.trans second.grows

/-- Events other than those of blocks take in nothing. -/
theorem takesIn_nil {es : List Event} (height : Nat)
    (quiet : ∀ e ∈ es, (∃ tx, e = .submit tx) ∨ (∃ tx, e = .execute tx) ∨ e = .beginBlock ∨
      ∃ stateRoot, e = .commitBlock stateRoot) : TakesIn es height height [] where
  orders := by
    refine List.filterMap_eq_nil_iff.2 fun e member => ?_
    rcases quiet e member with ⟨tx, rfl⟩ | ⟨tx, rfl⟩ | rfl | ⟨stateRoot, rfl⟩ <;> rfl
  results := by
    refine List.filterMap_eq_nil_iff.2 fun e member => ?_
    rcases quiet e member with ⟨tx, rfl⟩ | ⟨tx, rfl⟩ | rfl | ⟨stateRoot, rfl⟩ <;> rfl
  commits := by
    intro member
    rcases quiet _ member with ⟨tx, same⟩ | ⟨tx, same⟩ | same | ⟨stateRoot, same⟩ <;> cases same
  rising := List.Pairwise.nil
  above := List.forall_mem_nil _
  grows := le_rfl

theorem lastOrchestratorHeight_process (c : Chain) (block : OrchestratorShardBlock) :
    (c.processOrchestratorBlock block).lastOrchestratorHeight =
      max c.lastOrchestratorHeight block.height := by
  unfold Chain.processOrchestratorBlock
  split
  · omega
  · show block.height = _
    omega

/-- A block is taken in when it is above the last one, and is skipped otherwise. -/
theorem takesIn_blockEvents (c : Chain) (block : OrchestratorShardBlock) :
    TakesIn (blockEvents c block) c.lastOrchestratorHeight
      (c.processOrchestratorBlock block).lastOrchestratorHeight
      (if block.height ≤ c.lastOrchestratorHeight then [] else [block]) := by
  rw [lastOrchestratorHeight_process]
  unfold blockEvents
  split
  · rename_i stale
    rw [Nat.max_eq_left stale]
    exact takesIn_nil _ (List.forall_mem_nil _)
  · rename_i fresh
    rw [Nat.max_eq_right (by omega)]
    constructor
    · simp [ordered, List.filterMap_map]
    · simp [decisions, List.filterMap_map]
    · simp
    · exact List.pairwise_singleton _ _
    · intro b member
      rw [List.mem_singleton.1 member]
      omega
    · omega

theorem takesIn_intakeEvents (c : Chain) (blocks : List OrchestratorShardBlock) :
    ∃ taken, taken.Sublist blocks ∧
      TakesIn (intakeEvents c blocks) c.lastOrchestratorHeight
        (blocks.foldl Chain.processOrchestratorBlock c).lastOrchestratorHeight taken := by
  induction blocks generalizing c with
  | nil => exact ⟨[], List.nil_sublist _, takesIn_nil _ (List.forall_mem_nil _)⟩
  | cons block blocks ih =>
      obtain ⟨taken, sub, later⟩ := ih (c.processOrchestratorBlock block)
      refine ⟨_, ?_, (takesIn_blockEvents c block).append later⟩
      split
      · exact sub.cons block
      · exact sub.cons_cons block

/-- Only the end of an orchestrator block moves the processed height. -/
theorem Taken.last_eq {vm : VM} {n n' : Node} {e : Event} (taken : Taken vm n e n')
    (quiet : ∀ height, e ≠ .advance height) :
    n'.chain.lastOrchestratorHeight = n.chain.lastOrchestratorHeight := by
  cases taken with
  | ordered tx idle involved =>
      exact congrArg Chain.Steady.lastOrchestratorHeight (n.chain.steady_noteOrder tx)
  | advanced height idle => exact absurd rfl (quiet height)
  | granted tx rest successful busy kind chain lock =>
      exact congrArg Chain.Steady.lastOrchestratorHeight lock.steady
  | refused tx rest successful busy kind chain lock result =>
      exact congrArg Chain.Steady.lastOrchestratorHeight lock.steady
  | applied tx rest successful busy kind free evm ran =>
      exact congrArg Chain.Steady.lastOrchestratorHeight (n.chain.steady_cleanupAfterExecution tx)
  | _ => rfl

theorem last_of_run {vm : VM} {n n' : Node} {es : List Event}
    (quiet : ∀ height, Event.advance height ∉ es) (reached : run (step vm) n es = some n') :
    n'.chain.lastOrchestratorHeight = n.chain.lastOrchestratorHeight := by
  refine run_preserves (P := fun e => ∀ height, e ≠ .advance height)
    (fun m => m.chain.lastOrchestratorHeight = n.chain.lastOrchestratorHeight) ?_ rfl ?_ reached
  · exact fun _ _ _ before quiet stepped => ((taken_of_step stepped).last_eq quiet).trans before
  · exact fun e member height same => quiet height (same ▸ member)

/-! ## Deliveries from a log -/

namespace BlockBuffer

/-- Every buffered block satisfies `P`. -/
def All (P : OrchestratorShardBlock → Prop) (b : BlockBuffer) : Prop :=
  ∀ height block, b.buffered.get height = some block → P block

variable {P : OrchestratorShardBlock → Prop}

theorem All.delete {b : BlockBuffer} (all : b.All P) (height expected : Nat) :
    BlockBuffer.All P { b with buffered := b.buffered.delete height, expected := expected } := by
  intro k block listed
  rw [FMap.get_delete] at listed
  split at listed
  · cases listed
  · exact all k block listed

theorem All.releases {b b' : BlockBuffer} {released : List OrchestratorShardBlock}
    (all : b.All P) (done : Releases b released b') :
    (∀ block ∈ released, P block) ∧ b'.All P := by
  induction done with
  | stop b => exact ⟨nofun, all⟩
  | next found rest ih =>
      obtain ⟨others, left⟩ := ih (all.delete _ _)
      exact ⟨List.forall_mem_cons.2 ⟨all _ _ found, others⟩, left⟩

theorem All.processed {b b' : BlockBuffer} {block : OrchestratorShardBlock}
    {ready : Option (List OrchestratorShardBlock)} (all : b.All P) (new : P block)
    (done : Processed b block ready b') : (∀ block' ∈ ready.getD [], P block') ∧ b'.All P := by
  cases done with
  | ready next rest stopped =>
      have same : BlockBuffer.All P { b with expected := nextHeight b.expected } := all
      obtain ⟨released, left⟩ := same.releases rest
      exact ⟨List.forall_mem_cons.2 ⟨new, released⟩, left⟩
  | dropped early full => exact ⟨nofun, all⟩
  | repeated early room present => exact ⟨nofun, all⟩
  | stored early room absent =>
      refine ⟨nofun, ?_⟩
      intro height block' listed
      rw [FMap.get_set] at listed
      split at listed
      · cases listed
        exact new
      · exact all height block' listed
  | ignored late => exact ⟨nofun, all⟩

/-- What the buffer releases was buffered or has just arrived. -/
theorem All.processBlock {b : BlockBuffer} (all : b.All P) {block : OrchestratorShardBlock}
    (new : P block) :
    (∀ block' ∈ (b.processBlock block).1.getD [], P block') ∧ (b.processBlock block).2.All P :=
  all.processed new (b.processed_processBlock block)

end BlockBuffer

/-- Every delivered block satisfies `P`. -/
def Delivers (P : OrchestratorShardBlock → Prop) (rs : List Request) : Prop :=
  ∀ block, Request.deliver block ∈ rs → P block

theorem Server.takesIn_request {vm : VM} {simulate : SimulateCall} {s s' : Server} {r : Request}
    {P : OrchestratorShardBlock → Prop} (buffered : s.blockBuffer.All P)
    (delivered : ∀ block, r = .deliver block → P block)
    (served : s.serve vm simulate r = some s') :
    s'.blockBuffer.All P ∧ ∃ taken : List OrchestratorShardBlock, (∀ block ∈ taken, P block) ∧
      TakesIn (s.requestEvents simulate r) s.chain.lastOrchestratorHeight
        s'.chain.lastOrchestratorHeight taken := by
  cases r with
  | deliver block =>
      cases served
      obtain ⟨released, left⟩ := buffered.processBlock (delivered block rfl)
      rw [handleOrchestratorShardBlock_eq]
      refine ⟨left, ?_⟩
      obtain ⟨taken, sub, intake⟩ := takesIn_intakeEvents s.chain (s.ready block)
      exact ⟨taken, fun block' member => released block' (sub.subset member), intake⟩
  | submit txID req =>
      cases served
      have quiet : TakesIn (s.requestEvents simulate (.submit txID req))
          s.chain.lastOrchestratorHeight s.chain.lastOrchestratorHeight [] := by
        apply takesIn_nil
        intro e member
        obtain ⟨tx, -, rfl⟩ := List.mem_map.1 member
        exact Or.inl ⟨tx, rfl⟩
      rcases handleTxSubmit_cases simulate s txID req with same | ⟨tx, -, -, queued⟩
      · rw [same]
        exact ⟨buffered, [], nofun, quiet⟩
      · rw [queued]
        exact ⟨buffered, [], nofun, quiet⟩
  | produce stateRoot =>
      obtain ⟨p, produced, rfl⟩ := Option.map_eq_some_iff.1 served
      have ran := produceBlock_run vm s.chain s.evmState (some stateRoot)
      rw [produced] at ran
      have same : p.chain.lastOrchestratorHeight = s.chain.lastOrchestratorHeight :=
        last_of_run (by simp [produceEvents]) ran
      refine ⟨buffered, [], nofun, ?_⟩
      show TakesIn _ _ p.chain.lastOrchestratorHeight _
      rw [same]
      apply takesIn_nil
      intro e member
      simp only [requestEvents, produceEvents, List.mem_append, List.mem_cons, List.mem_map,
        List.not_mem_nil, or_false] at member
      rcases member with (rfl | ⟨tx, -, rfl⟩) | rfl
      · exact Or.inr (Or.inr (Or.inl rfl))
      · exact Or.inr (Or.inl ⟨tx, rfl⟩)
      · exact Or.inr (Or.inr (Or.inr ⟨stateRoot, rfl⟩))

/-- **Intake.**  The blocks a server takes in are delivered ones, of increasing heights. -/
theorem Server.takesIn_history {vm : VM} {simulate : SimulateCall} {s s' : Server}
    {rs : List Request} {P : OrchestratorShardBlock → Prop} (buffered : s.blockBuffer.All P)
    (delivered : Delivers P rs) (served : run (serve vm simulate) s rs = some s') :
    ∃ taken : List OrchestratorShardBlock, (∀ block ∈ taken, P block) ∧
      TakesIn (s.history vm simulate rs) s.chain.lastOrchestratorHeight
        s'.chain.lastOrchestratorHeight taken := by
  induction rs generalizing s with
  | nil =>
      cases served
      exact ⟨[], List.forall_mem_nil _, takesIn_nil _ (List.forall_mem_nil _)⟩
  | cons r rs ih =>
      obtain ⟨s₁, first, rest⟩ := run_cons_eq_some.1 served
      obtain ⟨buffered₁, taken₁, from₁, takes₁⟩ := takesIn_request buffered
        (fun block same => delivered block (same ▸ List.mem_cons_self ..)) first
      obtain ⟨taken₂, from₂, takes₂⟩ := ih buffered₁
        (fun block member => delivered block (List.mem_cons_of_mem _ member)) rest
      refine ⟨taken₁ ++ taken₂, ?_, ?_⟩
      · intro block member
        rcases List.mem_append.1 member with member | member
        · exact from₁ block member
        · exact from₂ block member
      · rw [history, first]
        exact takes₁.append takes₂

/-! ## The buffer and the processed height -/

namespace Server

/-- The buffer waits for the block after the last processed one. -/
def InStep (s : Server) : Prop := s.blockBuffer.expected = s.chain.lastOrchestratorHeight + 1

/-- The block after the last processed one is processed as soon as it is delivered. -/
def Prompt (s : Server) : Prop :=
  ∀ block : OrchestratorShardBlock, block.height = s.chain.lastOrchestratorHeight + 1 →
    (s.handleOrchestratorShardBlock block).1 = "ok" ∧
      block.height ≤ (s.handleOrchestratorShardBlock block).2.chain.lastOrchestratorHeight

end Server

/-- A block below the last height that a `uint64` can count to. -/
def Bounded (block : OrchestratorShardBlock) : Prop := block.height < 2 ^ 64 - 1

namespace BlockBuffer

/-- Buffered blocks are filed under their heights. -/
structure Filed (b : BlockBuffer) : Prop where
  heights : ∀ height block, b.buffered.get height = some block → block.height = height
  bounded : b.All Bounded

theorem le_last_foldl (c : Chain) (blocks : List OrchestratorShardBlock) :
    c.lastOrchestratorHeight ≤
      (blocks.foldl Chain.processOrchestratorBlock c).lastOrchestratorHeight := by
  induction blocks generalizing c with
  | nil => exact le_rfl
  | cons block blocks ih =>
      have first := lastOrchestratorHeight_process c block
      have rest := ih (c.processOrchestratorBlock block)
      simp only [List.foldl_cons]
      omega

/-- Releasing moves the buffer and the chain in step. -/
theorem Filed.releases {b b' : BlockBuffer} {released : List OrchestratorShardBlock} {c : Chain}
    (filed : b.Filed) (inStep : b.expected = c.lastOrchestratorHeight + 1)
    (done : Releases b released b') :
    b'.expected = (released.foldl Chain.processOrchestratorBlock c).lastOrchestratorHeight + 1 := by
  induction done generalizing c with
  | stop b => exact inStep
  | @next b b' block released found rest ih =>
      have height := filed.heights _ _ found
      have bound : block.height < 2 ^ 64 - 1 := filed.bounded _ _ found
      have moved := lastOrchestratorHeight_process c block
      have advanced := nextHeight_of_lt bound
      rw [height] at advanced
      refine ih ⟨Shelved.delete filed.heights _ _, filed.bounded.delete _ _⟩ ?_
      show nextHeight b.expected = _
      omega

theorem Filed.processed {b b' : BlockBuffer} {ready : Option (List OrchestratorShardBlock)}
    {c : Chain} (filed : b.Filed) (inStep : b.expected = c.lastOrchestratorHeight + 1)
    {block : OrchestratorShardBlock} (bound : Bounded block) (done : Processed b block ready b') :
    b'.expected =
      ((ready.getD []).foldl Chain.processOrchestratorBlock c).lastOrchestratorHeight + 1 := by
  cases done with
  | ready next rest stopped =>
      have moved := lastOrchestratorHeight_process c block
      have advanced := nextHeight_of_lt bound
      rw [next] at advanced
      have same : BlockBuffer.Filed { b with expected := nextHeight b.expected } :=
        ⟨filed.heights, filed.bounded⟩
      have advances : nextHeight b.expected =
          (c.processOrchestratorBlock block).lastOrchestratorHeight + 1 := by omega
      have moves := same.releases (c := c.processOrchestratorBlock block) advances rest
      exact moves
  | dropped early full => exact inStep
  | repeated early room present => exact inStep
  | stored early room absent => exact inStep
  | ignored late => exact inStep

theorem Filed.processBlock {b : BlockBuffer} {c : Chain} (filed : b.Filed)
    (inStep : b.expected = c.lastOrchestratorHeight + 1) {block : OrchestratorShardBlock}
    (bound : Bounded block) :
    (b.processBlock block).2.Filed ∧ (b.processBlock block).2.expected =
      (((b.processBlock block).1.getD []).foldl Chain.processOrchestratorBlock
        c).lastOrchestratorHeight + 1 := by
  have done := b.processed_processBlock block
  exact ⟨⟨Shelved.processed filed.heights done, (filed.bounded.processed bound done).2⟩,
    filed.processed inStep bound done⟩

end BlockBuffer

namespace Server

theorem InStep.prompt {s : Server} (inStep : s.InStep) : s.Prompt := by
  intro block height
  have next : block.height = s.blockBuffer.expected := height.trans inStep.symm
  constructor
  · simp [handleOrchestratorShardBlock, BlockBuffer.processBlock, next]
  · obtain ⟨rest, taken⟩ : ∃ rest, s.ready block = block :: rest := by
      simp [ready, BlockBuffer.processBlock, next]
    have moved := lastOrchestratorHeight_process s.chain block
    have later := BlockBuffer.le_last_foldl (s.chain.processOrchestratorBlock block) rest
    rw [handleOrchestratorShardBlock_eq, taken, List.foldl_cons]
    dsimp only
    omega

/-- Every request keeps the buffer and the chain in step. -/
theorem InStep.serve {vm : VM} {simulate : SimulateCall} {s s' : Server} {r : Request}
    (inStep : s.InStep) (filed : s.blockBuffer.Filed)
    (bounded : ∀ block, r = .deliver block → Bounded block)
    (served : s.serve vm simulate r = some s') : s'.InStep ∧ s'.blockBuffer.Filed := by
  cases r with
  | deliver block =>
      cases served
      obtain ⟨filed', inStep'⟩ := filed.processBlock inStep (bounded block rfl)
      rw [handleOrchestratorShardBlock_eq]
      exact ⟨inStep', filed'⟩
  | submit txID req =>
      cases served
      rcases handleTxSubmit_cases simulate s txID req with same | ⟨tx, -, -, queued⟩
      · rw [same]
        exact ⟨inStep, filed⟩
      · rw [queued]
        exact ⟨inStep, filed⟩
  | produce stateRoot =>
      obtain ⟨p, produced, rfl⟩ := Option.map_eq_some_iff.1 served
      have ran := produceBlock_run vm s.chain s.evmState (some stateRoot)
      rw [produced] at ran
      have same : p.chain.lastOrchestratorHeight = s.chain.lastOrchestratorHeight :=
        last_of_run (by simp [produceEvents]) ran
      refine ⟨?_, filed⟩
      show s.blockBuffer.expected = p.chain.lastOrchestratorHeight + 1
      rw [same]
      exact inStep

/-- Replaying consecutive blocks moves the chain and leaves the buffer as it was. -/
theorem replay_eq (fetch : Nat → Fetched) (turns : Nat) (s : Server)
    (found : ∀ height, s.chain.lastOrchestratorHeight < height →
      height ≤ s.chain.lastOrchestratorHeight + turns →
      ∃ block, fetch height = .block block ∧ block.height = height) :
    (replay fetch turns (s.chain.lastOrchestratorHeight + 1) s).blockBuffer = s.blockBuffer ∧
      (replay fetch turns (s.chain.lastOrchestratorHeight + 1) s).chain.lastOrchestratorHeight =
        s.chain.lastOrchestratorHeight + turns := by
  induction turns generalizing s with
  | zero => exact ⟨rfl, rfl⟩
  | succ turns ih =>
      obtain ⟨block, fetched, height⟩ := found (s.chain.lastOrchestratorHeight + 1) (by omega)
        (by omega)
      have moved := lastOrchestratorHeight_process s.chain block
      have last : (s.processOrchestratorBlock block).chain.lastOrchestratorHeight =
          s.chain.lastOrchestratorHeight + 1 := by
        show (s.chain.processOrchestratorBlock block).lastOrchestratorHeight = _
        omega
      have rest := ih (s.processOrchestratorBlock block) (by
        intro k above below
        exact found k (by omega) (by omega))
      rw [last] at rest
      simp only [replay, fetched]
      refine ⟨rest.1, ?_⟩
      rw [rest.2]
      omega

/-- **Intake after recovery.**  A server that starts by replaying the blocks `1 .. latest` and
then handles requests keeps its buffer in step with its chain, and so processes the next
block when it arrives, exactly when there was nothing to replay. -/
theorem intake_in_step_iff (vm : VM) (simulate : SimulateCall) (shardID : Int) (evm : EVMState)
    (latest : Nat) (fetch : Nat → Fetched) (rs : List Request) (s : Server)
    (fetched : ∀ height, 1 ≤ height → height ≤ latest →
      ∃ block, fetch height = .block block ∧ block.height = height)
    (bounded : Delivers Bounded rs)
    (served : run (serve vm simulate) (newServer shardID evm ⟨some latest, fetch⟩) rs = some s) :
    (∀ pre post m, rs = pre ++ post →
      run (serve vm simulate) (newServer shardID evm ⟨some latest, fetch⟩) pre = some m →
      m.InStep ∧ m.Prompt) ↔ latest = 0 := by
  constructor
  · -- recovery moves the chain to `latest` and the buffer still expects block 1
    intro always
    have start := (always [] rs _ rfl rfl).1
    by_contra some_blocks
    have replayed := replay_eq fetch latest (fresh shardID evm) (by
      intro height above below
      have zero : (fresh shardID evm).chain.lastOrchestratorHeight = 0 := rfl
      exact fetched height (by omega) (by omega))
    have server : newServer shardID evm ⟨some latest, fetch⟩ =
        replay fetch latest 1 (fresh shardID evm) := by
      show (if latest ≤ 0 then _ else replay fetch (latest - 0) (0 + 1) _) = _
      rw [if_neg (by omega)]
      rfl
    have zero : (fresh shardID evm).chain.lastOrchestratorHeight = 0 := rfl
    have one : (fresh shardID evm).blockBuffer.expected = 1 := rfl
    rw [zero] at replayed
    rw [InStep, server, replayed.1, replayed.2, one] at start
    omega
  · rintro rfl pre post m rfl before
    have held : m.InStep ∧ m.blockBuffer.Filed :=
      run_invariant (Delivers Bounded)
        (fun rs r delivers block member => delivers block (List.mem_append_left _ member))
        (fun _ m => m.InStep ∧ m.blockBuffer.Filed)
        ⟨rfl, ⟨by simp [newServer, recoverFromOrchestrator, fresh, BlockBuffer.newBlockBuffer],
          by simp [newServer, recoverFromOrchestrator, fresh, BlockBuffer.newBlockBuffer,
            BlockBuffer.All]⟩⟩
        (fun rs m r m' delivers _ inv stepped =>
          inv.1.serve inv.2 (fun block same => delivers block (by simp [same])) stepped)
        pre m (fun block member => bounded block (List.mem_append_left _ member)) before
    exact ⟨held.1, held.1.prompt⟩

end Server

namespace IntakePole

def empty : EVMState := ⟨fun _ => 0, fun _ _ => 0, fun _ => []⟩

def emptyBlock (height : Nat) : OrchestratorShardBlock := ⟨height, ∅, []⟩

/-- A server that starts when the orchestrator is at block `latest`. -/
def startedAt (latest : Nat) : Server :=
  Server.newServer 0 empty ⟨some latest, fun height => .block (emptyBlock height)⟩

end IntakePole

open IntakePole in
/-- After a restart at block 1 the buffer still expects block 1, so block 2 is buffered. -/
theorem restarted_server_buffers_next_block :
    ¬(startedAt 1).InStep ∧ (startedAt 1).chain.lastOrchestratorHeight = 1 ∧
      ((startedAt 1).handleOrchestratorShardBlock (emptyBlock 2)).1 = "buffered" ∧
      ((startedAt 1).handleOrchestratorShardBlock
        (emptyBlock 2)).2.chain.lastOrchestratorHeight = 1 := by
  unfold Server.InStep
  decide +kernel

open IntakePole in
/-- Started with the orchestrator, the server takes in two blocks that arrive in reverse. -/
theorem reversed_deliveries_in_step :
    ∃ s, run (Server.serve ⟨fun e _ _ _ _ _ => .ok e⟩ fun _ _ _ _ _ _ => .error "") (startedAt 0)
        [.deliver (emptyBlock 2), .deliver (emptyBlock 1)] = some s ∧
      s.chain.lastOrchestratorHeight = 2 ∧ s.InStep := by
  refine ⟨_, rfl, by decide +kernel, ?_⟩
  have always := (Server.intake_in_step_iff ⟨fun e _ _ _ _ _ => .ok e⟩
    (fun _ _ _ _ _ _ => .error "") 0 empty 0 (fun height => .block (emptyBlock height))
    [.deliver (emptyBlock 2), .deliver (emptyBlock 1)] _ (by intros; omega)
    (by
      intro block member
      simp only [List.mem_cons, Request.deliver.injEq, List.not_mem_nil, or_false] at member
      rcases member with rfl | rfl <;> unfold Bounded <;> decide) rfl).2 rfl
  exact (always _ [] _ (List.append_nil _).symm rfl).1

end CrossShard.Shard
