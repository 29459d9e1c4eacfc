/-
# Network.Broadcast -- which blocks reach a shard, and how far that takes it

The orchestrator's block producer works in lockstep: it sends a block to every shard, up to four
times each, and produces the next block only when all sends are over.  A send is over when the
shard has answered or its attempts are used up; the answer to a block that is merely buffered or
dropped is a success like any other, so such a block is never sent again.

A `Producer` is the cluster with the sends in progress.  Between its attempts anything may happen
that the cluster allows.  How far a shard is then depends on very little (`Progress`): the height
that its last recovery has reached, and which blocks have got through since.  Its buffer, with
its limit and its draining loop, adds nothing to that, because blocks never arrive out of order.

* `Synced`: the invariant; `Synced.arrive` is the case of a block that gets through.
* `broadcast_progress`: the processed height of every shard after every run.
* `restarted_shard_stalls`: after a restart the buffer waits for block 1, which is never sent
  again, so the shard stays where its recovery has left it.
-/
import CrossShard.Network.Histories
import CrossShard.Shard.Recovery

namespace CrossShard.Network

set_option autoImplicit false

open CrossShard.Library CrossShard.Protocol CrossShard.Shard CrossShard.Orchestrator

/-! ## The producer loop -/

def broadcastMaxRetries : Nat := 3

/-- How one attempt to send a block ends.  `unanswered`: the shard handles the block, and the
answer gets lost or comes too late.  A `lost` request is one that the shard never handles: the
model assumes that none is handled after its attempt has timed out, which HTTP does not promise. -/
inductive Attempt where
  | lost
  | unanswered
  | answered
  deriving DecidableEq

/-- The cluster, and the number of the next attempt of each send in progress. -/
structure Producer where
  net : Cluster
  sending : Int → Option Nat

/-- `attempt` names the block as the receiver sees it, with the order in which it visits the
results. -/
inductive Beat where
  | tick
  | attempt (shard : Int) (outcome : Attempt) (block : OrchestratorShardBlock)
  | meanwhile (a : Action)

/-- What is left of a send after one of its attempts. -/
def nextAttempt (attempt : Nat) (outcome : Attempt) : Option Nat :=
  if outcome = .answered ∨ attempt = broadcastMaxRetries then none else some (attempt + 1)

namespace Producer

def start (numShards : Nat) (evm : Int → EVMState) : Producer :=
  ⟨Cluster.start numShards evm, fun _ => none⟩

/-- Every goroutine of `broadcastBlock` is done. -/
def Idle (p : Producer) : Prop := ∀ k ∈ List.range p.net.service.numShards, p.sending k = none

instance (p : Producer) : Decidable p.Idle := inferInstanceAs (Decidable (∀ k ∈ List.range _, _))

/-- The block that is being sent. -/
def Sends (p : Producer) (block : OrchestratorShardBlock) : Prop :=
  ∃ sent ∈ p.net.service.chain.blocks.getLast?, SameBlock sent block

instance (p : Producer) (block : OrchestratorShardBlock) : Decidable (p.Sends block) :=
  inferInstanceAs (Decidable (∃ sent ∈ p.net.service.chain.blocks.getLast?, _))

def step (E : Engines) (p : Producer) : Beat → Option Producer
  | .tick =>
      if p.Idle then
        (p.net.step E .produce).map fun net =>
          ⟨net, fun k => if net.service.managed k then some 0 else none⟩
      else none
  | .attempt k outcome block =>
      match p.sending k with
      | none => none
      | some n =>
          let sending := Function.update p.sending k (nextAttempt n outcome)
          if outcome = .lost then some { p with sending := sending }
          else if p.Sends block then
            (p.net.step E (.deliver k block)).map fun net => ⟨net, sending⟩
          else none
  | .meanwhile .produce => none
  | .meanwhile (.deliver _ _) => none
  | .meanwhile a => (p.net.step E a).map fun net => { p with net := net }

/-- Between the attempts the cluster does what it likes, but produces and sends nothing. -/
theorem of_meanwhile {E : Engines} {p p' : Producer} {a : Action}
    (stepped : p.step E (.meanwhile a) = some p') :
    a ≠ .produce ∧ (∀ k block, a ≠ .deliver k block) ∧
      ∃ net, p.net.step E a = some net ∧ { p with net := net } = p' := by
  cases a with
  | produce => cases stepped
  | deliver shard block => cases stepped
  | _ => exact ⟨by simp, by simp, by simpa [step] using stepped⟩

end Producer

/-! ## What counts -/

/-- The height that the last recovery has reached, and for every block whether it has got
through since. -/
structure Progress where
  recovered : Nat
  arrived : List Bool

/-- The highest block that a recovery fetches, of `blocks` many. -/
def recoveredHeight (blocks : Nat) (reachable : Bool) (failing : List Nat) : Nat :=
  if reachable then ((List.range' 1 blocks).filter fun h => h ∉ failing).foldl max 0 else 0

/-- The number of blocks that got through before the first that did not. -/
def streak (arrived : List Bool) : Nat := (arrived.takeWhile id).length

namespace Progress

def next (k : Int) (q : Progress) : Beat → Progress
  | .tick => { q with arrived := q.arrived ++ [false] }
  | .attempt shard outcome _ =>
      if shard = k ∧ outcome ≠ .lost then { q with arrived := q.arrived.dropLast ++ [true] } else q
  | .meanwhile (.restart shard _ reachable failing) =>
      if shard = k then
        ⟨recoveredHeight q.arrived.length reachable failing, .replicate q.arrived.length false⟩
      else q
  | .meanwhile _ => q

def height (q : Progress) : Nat := max q.recovered (streak q.arrived)

end Progress

def progress (k : Int) (beats : List Beat) : Progress := beats.foldl (Progress.next k) ⟨0, []⟩

/-- The number of blocks that were produced. -/
def ticks (beats : List Beat) : Nat := beats.countP fun b => b matches .tick

theorem progress_append (k : Int) (beats : List Beat) (b : Beat) :
    progress k (beats ++ [b]) = (progress k beats).next k b := by
  rw [progress, List.foldl_append]
  rfl

/-! ## Streaks -/

theorem streak_le (l : List Bool) : streak l ≤ l.length := l.takeWhile_prefix id |>.length_le

theorem streak_concat (l : List Bool) (x : Bool) :
    streak (l ++ [x]) = if streak l = l.length then (if x then l.length + 1 else l.length)
      else streak l := by
  unfold streak
  rw [List.takeWhile_append]
  split
  · cases x <;> simp
  · rfl

theorem streak_concat_false (l : List Bool) : streak (l ++ [false]) = streak l := by
  rw [streak_concat]
  split
  · rename_i full
    exact full.symm
  · rfl

theorem streak_replicate (n : Nat) : streak (List.replicate n false) = 0 := by
  cases n <;> rfl

/-! ## The log -/

theorem log_checkTimeouts (c : OrchestratorChain) :
    c.checkTimeouts.2.blocks = c.blocks ∧ c.checkTimeouts.2.height = c.height := by
  unfold OrchestratorChain.checkTimeouts
  dsimp only
  generalize c.awaitingVotes.keys.filter c.expired = timedOut
  induction timedOut generalizing c with
  | nil => exact ⟨rfl, rfl⟩
  | cons x rest ih => exact ih (c.settle x false)

theorem log_apply (c : OrchestratorChain) {op : Op} (quiet : op ≠ .produceBlock) :
    (c.apply op).blocks = c.blocks ∧ (c.apply op).height = c.height := by
  cases op with
  | addTransaction tx => exact ⟨rfl, rfl⟩
  | recordVote txID shardID canCommit =>
      simp only [OrchestratorChain.apply, OrchestratorChain.recordVote]
      split
      · exact ⟨rfl, rfl⟩
      · split
        · exact ⟨rfl, rfl⟩
        · split
          · exact ⟨rfl, rfl⟩
          · split <;> exact ⟨rfl, rfl⟩
  | checkTimeouts => exact log_checkTimeouts c
  | setVoteTimeout blocks => exact ⟨rfl, rfl⟩
  | produceBlock => exact absurd rfl quiet

theorem log_after (c : OrchestratorChain) {ops : List Op} (quiet : Op.produceBlock ∉ ops) :
    (c.after ops).blocks = c.blocks ∧ (c.after ops).height = c.height := by
  induction ops generalizing c with
  | nil => exact ⟨rfl, rfl⟩
  | cons op ops ih =>
      rw [List.mem_cons, not_or] at quiet
      obtain ⟨blocks, height⟩ := log_apply c (Ne.symm quiet.1)
      obtain ⟨blocks', height'⟩ := ih (c.apply op) quiet.2
      exact ⟨blocks'.trans blocks, height'.trans height⟩

/-- Only the producer writes the log. -/
theorem log_step {E : Engines} {net net' : Cluster} {a : Action} (quiet : a ≠ .produce)
    (stepped : net.step E a = some net') :
    net'.service.chain.blocks = net.service.chain.blocks ∧
      net'.service.chain.height = net.service.chain.height := by
  cases Cluster.taken_of_step stepped with
  | served _ service ops chain blocks =>
      show service.chain.blocks = _ ∧ _
      rw [chain]
      exact log_after _ fun member => quiet (blocks member).1
  | delivered shard block sent listed same => exact ⟨rfl, rfl⟩
  | requested shard txID req => exact ⟨rfl, rfl⟩
  | produced shard commit p ran => exact ⟨rfl, rfl⟩
  | restarted shard evm reachable failing => exact ⟨rfl, rfl⟩

theorem log_produce (net : Cluster) :
    ∃ block : OrchestratorShardBlock, block.height = (net.service.chain.height + 1) % 2 ^ 64 ∧
      net.service.produceBlock.2.chain.blocks = net.service.chain.blocks ++ [block] ∧
      net.service.produceBlock.2.chain.height = block.height := by
  obtain ⟨blocks, height⟩ := log_checkTimeouts net.service.chain
  refine ⟨net.service.chain.produceBlock.1, ?_, ?_, ?_⟩
  · rw [← height]
    rfl
  · rw [net.service.chain_produceBlock, ← blocks]
    rfl
  · rw [net.service.chain_produceBlock]
    rfl

/-- Block `i` has the height `i`, and the chain has the height of its last block. -/
structure Aligned (c : OrchestratorChain) : Prop where
  heights : ∀ (i : Nat) (block : OrchestratorShardBlock), c.blocks[i]? = some block → block.height = i
  length : c.blocks.length = c.height + 1

theorem aligned_start : Aligned OrchestratorChain.newOrchestratorChain where
  heights i block found := by
    obtain ⟨inside, rfl⟩ := List.getElem?_eq_some_iff.1 found
    obtain rfl : i = 0 := Nat.lt_one_iff.1 inside
    rfl
  length := rfl

theorem Aligned.of_eq {c c' : OrchestratorChain} (aligned : Aligned c)
    (blocks : c'.blocks = c.blocks) (height : c'.height = c.height) : Aligned c' where
  heights := by
    rw [blocks]
    exact aligned.heights
  length := by
    rw [blocks, height]
    exact aligned.length

theorem Aligned.concat {c c' : OrchestratorChain} (aligned : Aligned c)
    {block : OrchestratorShardBlock} (height : block.height = c.height + 1)
    (blocks : c'.blocks = c.blocks ++ [block]) (top : c'.height = block.height) : Aligned c' where
  heights i b found := by
    rw [blocks] at found
    rcases lt_or_ge i c.blocks.length with old | beyond
    · rw [List.getElem?_append_left old] at found
      exact aligned.heights i b found
    · rw [List.getElem?_append_right beyond] at found
      obtain ⟨inside, rfl⟩ := List.getElem?_eq_some_iff.1 found
      have length := aligned.length
      have last : i - c.blocks.length = 0 := Nat.lt_one_iff.1 inside
      simp only [last, List.getElem_cons_zero]
      omega
  length := by
    rw [blocks, List.length_append, aligned.length, top, height]
    rfl

/-! ## The shard -/

/-- What a shard does by itself moves neither its buffer nor its processed height. -/
theorem intake_step {E : Engines} {net net' : Cluster} {a : Action} {k : Int}
    (others : ∀ block, a ≠ .deliver k block)
    (stays : ∀ evm reachable failing, a ≠ .restart k evm reachable failing)
    (stepped : net.step E a = some net') :
    (net'.shards k).blockBuffer = (net.shards k).blockBuffer ∧
      (net'.shards k).chain.lastOrchestratorHeight =
        (net.shards k).chain.lastOrchestratorHeight := by
  have elsewhere : ∀ (shard : Int) (server : Server), shard ≠ k →
      (net.setShard shard server).shards k = net.shards k :=
    fun shard server different => Function.update_of_ne (Ne.symm different) _ _
  have here : ∀ server : Server, (net.setShard k server).shards k = server :=
    fun server => Function.update_self _ _ _
  cases Cluster.taken_of_step stepped with
  | served _ service ops chain blocks => exact ⟨rfl, rfl⟩
  | delivered shard block sent listed same =>
      rw [elsewhere shard _ fun own => others block (by rw [own])]
      exact ⟨rfl, rfl⟩
  | requested shard txID req =>
      by_cases own : shard = k
      · subst own
        rw [here]
        rcases handleTxSubmit_cases E.simulateCall (net.shards shard) txID req with
          same | ⟨tx, -, -, queued⟩
        · rw [same]
          exact ⟨rfl, rfl⟩
        · rw [queued]
          exact ⟨rfl, rfl⟩
      · rw [elsewhere shard _ own]
        exact ⟨rfl, rfl⟩
  | produced shard commit p ran =>
      by_cases own : shard = k
      · subst own
        rw [here]
        have events := produceBlock_run E.vm (net.shards shard).chain (net.shards shard).evmState commit
        rw [ran] at events
        refine ⟨rfl, last_of_run ?_ events⟩
        cases commit <;> simp [produceEvents]
      · rw [elsewhere shard _ own]
        exact ⟨rfl, rfl⟩
  | restarted shard evm reachable failing =>
      rw [elsewhere shard _ fun own => stays evm reachable failing (by rw [own])]
      exact ⟨rfl, rfl⟩

section Deliver

variable {s : Server} {block : OrchestratorShardBlock}

/-- With an empty buffer the expected block is taken in alone. -/
theorem deliver_next (next : block.height = s.blockBuffer.expected)
    (empty : ∀ h, s.blockBuffer.buffered.get h = none) (bounded : block.height < 2 ^ 64 - 1) :
    (s.handleOrchestratorShardBlock block).2.blockBuffer.expected = block.height + 1 ∧
      (s.handleOrchestratorShardBlock block).2.chain.lastOrchestratorHeight =
        max s.chain.lastOrchestratorHeight block.height ∧
      ∀ h, (s.handleOrchestratorShardBlock block).2.blockBuffer.buffered.get h = none := by
  have done := s.blockBuffer.processed_processBlock block
  rw [Server.handleOrchestratorShardBlock_eq, Server.ready]
  generalize (s.blockBuffer.processBlock block).1 = ready at done ⊢
  generalize (s.blockBuffer.processBlock block).2 = buffer at done ⊢
  cases done with
  | ready _ rest stopped =>
      cases rest with
      | stop _ =>
          refine ⟨?_, lastOrchestratorHeight_process s.chain block, empty⟩
          show nextHeight s.blockBuffer.expected = _
          rw [← next]
          exact nextHeight_of_lt bounded
      | next found rest => simp [empty] at found
  | dropped early full => omega
  | repeated early room present => omega
  | stored early room absent => omega
  | ignored late => omega

/-- A block that is not the expected one changes nothing but the buffered blocks, and these only
when it is ahead. -/
theorem deliver_other (other : block.height ≠ s.blockBuffer.expected) :
    (s.handleOrchestratorShardBlock block).2.blockBuffer.expected = s.blockBuffer.expected ∧
      (s.handleOrchestratorShardBlock block).2.chain = s.chain ∧
      (block.height < s.blockBuffer.expected →
        (s.handleOrchestratorShardBlock block).2.blockBuffer = s.blockBuffer) := by
  have done := s.blockBuffer.processed_processBlock block
  rw [Server.handleOrchestratorShardBlock_eq, Server.ready]
  generalize (s.blockBuffer.processBlock block).1 = ready at done ⊢
  generalize (s.blockBuffer.processBlock block).2 = buffer at done ⊢
  cases done with
  | ready next rest stopped => exact absurd next other
  | dropped early full => exact ⟨rfl, rfl, fun _ => rfl⟩
  | repeated early room present => exact ⟨rfl, rfl, fun _ => rfl⟩
  | stored early room absent => exact ⟨rfl, rfl, fun late => absurd late (by omega)⟩
  | ignored late => exact ⟨rfl, rfl, fun _ => rfl⟩

end Deliver

/-! ## Recovery -/

theorem last_foldl (blocks : List OrchestratorShardBlock) (c : Chain) :
    (blocks.foldl Chain.processOrchestratorBlock c).lastOrchestratorHeight =
      (blocks.map OrchestratorShardBlock.height).foldl max c.lastOrchestratorHeight := by
  induction blocks generalizing c with
  | nil => rfl
  | cons block blocks ih =>
      rw [List.foldl_cons, ih, lastOrchestratorHeight_process]
      rfl

section Recovery

variable {c : OrchestratorChain} (aligned : Aligned c)
include aligned

theorem Aligned.fetch (reachable : Bool) (failing : List Nat) {h : Nat} (inside : h ≤ c.height)
    (works : h ∉ failing) :
    ∃ block, (recoveryView c reachable failing).fetch h = .block block ∧ block.height = h := by
  have bound : h < c.blocks.length := by
    rw [aligned.length]
    omega
  refine ⟨c.blocks[h], ?_, aligned.heights h _ (List.getElem?_eq_getElem bound)⟩
  simp only [recoveryView, works, if_false, blockAt, Nat.not_lt.2 inside,
    List.getElem?_eq_getElem bound]

theorem Aligned.heights_fetchedFrom (reachable : Bool) (failing : List Nat) (turns : Nat) :
    ∀ first, first + turns ≤ c.height + 1 →
      (Server.fetchedFrom (recoveryView c reachable failing).fetch turns first).map
          OrchestratorShardBlock.height =
        (List.range' first turns).filter fun h => h ∉ failing := by
  induction turns with
  | zero => exact fun _ _ => rfl
  | succ turns ih =>
      intro first inside
      have rest := ih (first + 1) (by omega)
      rw [Server.fetchedFrom, List.map_append, rest, List.range'_succ, List.filter_cons]
      by_cases fails : first ∈ failing
      · simp [recoveryView, fails]
      · obtain ⟨block, fetched, height⟩ := aligned.fetch reachable failing (by omega) fails
        simp [fetched, height, fails]

/-- A restarted server has an empty buffer that waits for block 1, and has processed the highest
block it could fetch. -/
theorem Aligned.newServer (k : Int) (evm : EVMState) (reachable : Bool) (failing : List Nat) :
    (Server.newServer k evm (recoveryView c reachable failing)).blockBuffer =
        BlockBuffer.newBlockBuffer 1 maxBlockBuffer ∧
      (Server.newServer k evm (recoveryView c reachable failing)).chain.lastOrchestratorHeight =
        recoveredHeight c.height reachable failing := by
  unfold Server.newServer
  rw [Server.recover_eq, Server.foldl_processOrchestratorBlock]
  refine ⟨rfl, ?_⟩
  show (List.foldl Chain.processOrchestratorBlock _ _).lastOrchestratorHeight = _
  rw [last_foldl]
  unfold Server.handed recoveredHeight
  cases reachable with
  | false => rfl
  | true =>
      have fetched := aligned.heights_fetchedFrom true failing c.height 1 (by omega)
      show List.foldl max 0 (List.map _ (Server.fetchedFrom _ c.height 1)) = _
      rw [fetched]
      rfl

end Recovery

/-! ## The invariant -/

/-- Shard `k` stands where `q` says. -/
structure Synced (k : Int) (q : Progress) (p : Producer) : Prop where
  aligned : Aligned p.net.service.chain
  count : p.net.service.chain.height = q.arrived.length
  begun : p.sending k ≠ none → q.arrived ≠ []
  expected : (p.net.shards k).blockBuffer.expected = streak q.arrived + 1
  last : (p.net.shards k).chain.lastOrchestratorHeight = q.height
  empty : streak q.arrived.dropLast = q.arrived.dropLast.length →
    ∀ h, (p.net.shards k).blockBuffer.buffered.get h = none

theorem synced_start (numShards : Nat) (evm : Int → EVMState) (k : Int) :
    Synced k ⟨0, []⟩ (Producer.start numShards evm) where
  aligned := aligned_start
  count := rfl
  begun sending := absurd rfl sending
  expected := rfl
  last := rfl
  empty _ _ := rfl

section Step

variable {E : Engines} {k : Int} {q : Progress} {p : Producer}

/-- What moves neither the log nor the shard's intake. -/
theorem Synced.keep {p' : Producer} (synced : Synced k q p)
    (log : p'.net.service.chain.blocks = p.net.service.chain.blocks ∧
      p'.net.service.chain.height = p.net.service.chain.height)
    (intake : (p'.net.shards k).blockBuffer = (p.net.shards k).blockBuffer ∧
      (p'.net.shards k).chain.lastOrchestratorHeight =
        (p.net.shards k).chain.lastOrchestratorHeight)
    (begun : p'.sending k ≠ none → q.arrived ≠ []) : Synced k q p' where
  aligned := synced.aligned.of_eq log.1 log.2
  count := log.2.trans synced.count
  begun := begun
  expected := by
    rw [intake.1]
    exact synced.expected
  last := intake.2.trans synced.last
  empty full := by
    rw [intake.1]
    exact synced.empty full

theorem Synced.tick {p' : Producer} (synced : Synced k q p)
    (bounded : q.arrived.length < 2 ^ 64 - 2) (stepped : p.step E .tick = some p') :
    Synced k (q.next k .tick) p' := by
  simp only [Producer.step] at stepped
  split at stepped
  · obtain ⟨net, produced, rfl⟩ := Option.map_eq_some_iff.1 stepped
    cases produced
    obtain ⟨block, height, blocks, top⟩ := log_produce p.net
    have count := synced.count
    rw [Nat.mod_eq_of_lt (by omega)] at height
    refine ⟨synced.aligned.concat height blocks top, ?_, ?_, ?_, ?_, ?_⟩
    · show p.net.service.produceBlock.2.chain.height = (q.arrived ++ [false]).length
      rw [top, height, count, List.length_append]
      rfl
    · intro _ none_left
      simp [Progress.next] at none_left
    · show (p.net.shards k).blockBuffer.expected = streak (q.arrived ++ [false]) + 1
      rw [streak_concat_false]
      exact synced.expected
    · show _ = max q.recovered (streak (q.arrived ++ [false]))
      rw [streak_concat_false]
      exact synced.last
    · -- an unbroken streak has left nothing in the buffer
      intro full
      simp only [Progress.next, List.dropLast_concat] at full
      refine synced.empty ?_
      rcases List.eq_nil_or_concat' q.arrived with none | ⟨l, x, split⟩
      · rw [none]
        rfl
      · rw [split, streak_concat] at full
        rw [split, List.dropLast_concat]
        have le := streak_le l
        split at full
        · assumption
        · simp only [List.length_append, List.length_singleton] at full
          omega
  · cases stepped

theorem Synced.height_of_sends {block : OrchestratorShardBlock} (synced : Synced k q p)
    (sends : p.Sends block) : block.height = q.arrived.length := by
  obtain ⟨sent, last, same⟩ := sends
  rw [Option.mem_def, List.getLast?_eq_getElem?] at last
  rw [← same.1, synced.aligned.heights _ sent last, synced.aligned.length, synced.count]
  rfl

/-- A block gets through.  It is the next one exactly when all before it have; otherwise the
buffer holds it back or drops it, or has had it already. -/
theorem Synced.arrive {net : Cluster} {block : OrchestratorShardBlock} {n : Nat}
    (synced : Synced k q p) (bounded : q.arrived.length < 2 ^ 64 - 1) (busy : p.sending k = some n)
    (sends : p.Sends block) (stepped : p.net.step E (.deliver k block) = some net)
    (sending : Int → Option Nat) :
    Synced k { q with arrived := q.arrived.dropLast ++ [true] } ⟨net, sending⟩ := by
  have log := log_step (by simp) stepped
  obtain ⟨l, x, split⟩ : ∃ l x, q.arrived = l ++ [x] :=
    (List.eq_nil_or_concat' q.arrived).resolve_left (synced.begun (by simp [busy]))
  have height := synced.height_of_sends sends
  obtain ⟨aligned, count, -, expected, last, empty⟩ := synced
  rw [Progress.height] at last
  rw [split, List.dropLast_concat] at empty
  rw [split, streak_concat] at expected last
  rw [split, List.length_append, List.length_singleton] at height count bounded
  have le := streak_le l
  simp only [split, List.dropLast_concat]
  suffices arrives : (net.shards k).blockBuffer.expected = streak (l ++ [true]) + 1 ∧
      (net.shards k).chain.lastOrchestratorHeight = max q.recovered (streak (l ++ [true])) ∧
      (streak l = l.length → ∀ h, (net.shards k).blockBuffer.buffered.get h = none) by
    refine ⟨aligned.of_eq log.1 log.2, ?_, by simp, arrives.1, arrives.2.1, ?_⟩
    · show net.service.chain.height = _
      rw [log.2, count, List.length_append]
      rfl
    · simp only [List.dropLast_concat]
      exact arrives.2.2
  simp only [Cluster.step] at stepped
  split at stepped
  · cases stepped
    simp only [Cluster.setShard, Function.update_self, streak_concat, if_true]
    by_cases full : streak l = l.length
    · rw [if_pos full] at expected last ⊢
      cases x with
      | false =>
          -- the next block, and nothing is waiting behind it
          have next : block.height = (p.net.shards k).blockBuffer.expected := by
            rw [height, expected]
            rfl
          obtain ⟨expected', last', empty'⟩ := deliver_next next (empty full) (by omega)
          refine ⟨by omega, ?_, fun _ => empty'⟩
          rw [last', last, height, Nat.max_assoc]
          simp
      | true =>
          have late : block.height < (p.net.shards k).blockBuffer.expected := by
            rw [height, expected, if_pos rfl]
            omega
          obtain ⟨expected', chain', buffer'⟩ := deliver_other (Nat.ne_of_lt late)
          rw [expected', chain', buffer' late]
          exact ⟨expected, last, empty⟩
    · rw [if_neg full] at expected last ⊢
      obtain ⟨expected', chain', -⟩ := deliver_other
        (show block.height ≠ (p.net.shards k).blockBuffer.expected by omega)
      rw [expected', chain']
      exact ⟨expected, last, fun unbroken => absurd unbroken full⟩
  · cases stepped

theorem Synced.attempt {p' : Producer} {shard : Int} {outcome : Attempt}
    {block : OrchestratorShardBlock} (synced : Synced k q p)
    (bounded : q.arrived.length < 2 ^ 64 - 1)
    (stepped : p.step E (.attempt shard outcome block) = some p') :
    Synced k (q.next k (.attempt shard outcome block)) p' := by
  simp only [Producer.step] at stepped
  cases busy : p.sending shard with
  | none => simp [busy] at stepped
  | some n =>
      rw [busy] at stepped
      have begun : Function.update p.sending shard (nextAttempt n outcome) k ≠ none →
          q.arrived ≠ [] := by
        intro left
        by_cases own : shard = k
        · exact synced.begun (by simp [← own, busy])
        · rw [Function.update_of_ne (Ne.symm own)] at left
          exact synced.begun left
      by_cases lost : outcome = .lost
      · simp only [lost, if_true, Option.some.injEq] at stepped
        subst stepped
        rw [lost] at begun
        simp only [Progress.next, lost, ne_eq, not_true_eq_false, and_false, if_false]
        exact synced.keep ⟨rfl, rfl⟩ ⟨rfl, rfl⟩ begun
      · simp only [lost, if_false] at stepped
        split at stepped
        · rename_i sends
          obtain ⟨net, delivered, rfl⟩ := Option.map_eq_some_iff.1 stepped
          by_cases own : shard = k
          · subst own
            simp only [Progress.next, lost, ne_eq, not_false_eq_true, and_self, if_true]
            exact synced.arrive bounded busy sends delivered _
          · simp only [Progress.next, own, false_and, if_false]
            exact synced.keep (log_step (by simp) delivered)
              (intake_step (by simp [own]) (by simp) delivered) begun
        · cases stepped

theorem Synced.restart {net : Cluster} {shard : Int} {evm : EVMState} {reachable : Bool}
    {failing : List Nat} (synced : Synced k q p)
    (stepped : p.net.step E (.restart shard evm reachable failing) = some net) :
    Synced k (q.next k (.meanwhile (.restart shard evm reachable failing)))
      { p with net := net } := by
  by_cases own : shard = k
  · subst own
    cases stepped
    obtain ⟨buffer, last⟩ := synced.aligned.newServer shard evm reachable failing
    have here : ∀ server : Server, (p.net.setShard shard server).shards shard = server :=
      fun server => Function.update_self _ _ _
    simp only [Progress.next, if_true]
    refine ⟨synced.aligned, ?_, ?_, ?_, ?_, ?_⟩
    · rw [List.length_replicate]
      exact synced.count
    · intro sending
      have some_block := List.length_pos_iff.2 (synced.begun sending)
      simpa using Nat.ne_of_gt some_block
    · rw [here, buffer, streak_replicate]
      rfl
    · rw [here, last, Progress.height, streak_replicate, synced.count, Nat.max_zero]
    · intro _ h
      rw [here, buffer]
      rfl
  · simp only [Progress.next, own, if_false]
    exact synced.keep (log_step (by simp) stepped) (intake_step (by simp) (by simp [own]) stepped)
      synced.begun

/-- **One beat.** -/
theorem Synced.step {p' : Producer} {b : Beat} (synced : Synced k q p)
    (bounded : q.arrived.length + ticks [b] < 2 ^ 64 - 1) (stepped : p.step E b = some p') :
    Synced k (q.next k b) p' := by
  cases b with
  | tick => exact synced.tick (by simp [ticks] at bounded; omega) stepped
  | attempt shard outcome block => exact synced.attempt (by omega) stepped
  | meanwhile a =>
      obtain ⟨quiet, others, net, acted, rfl⟩ := Producer.of_meanwhile stepped
      have keep : (∀ evm reachable failing, a ≠ .restart k evm reachable failing) →
          Synced k q { p with net := net } := fun stays =>
        synced.keep (log_step quiet acted) (intake_step (others k) stays acted) synced.begun
      cases a with
      | restart shard evm reachable failing => exact synced.restart acted
      | _ => exact keep (by simp)

theorem Synced.length_next {p' : Producer} {b : Beat} (synced : Synced k q p)
    (stepped : p.step E b = some p') :
    (q.next k b).arrived.length = q.arrived.length + ticks [b] := by
  cases b with
  | tick => simp [Progress.next, ticks]
  | attempt shard outcome block =>
      simp only [Progress.next]
      split
      · rename_i own
        have begun : q.arrived ≠ [] := by
          refine synced.begun fun none_left => ?_
          simp [Producer.step, own.1, none_left] at stepped
        have some_block := List.length_pos_iff.2 begun
        have same : q.arrived.length - 1 + 1 = q.arrived.length := by omega
        simpa [ticks] using same
      · rfl
  | meanwhile a =>
      cases a with
      | restart shard evm reachable failing =>
          simp only [Progress.next]
          split
          · simp [ticks]
          · rfl
      | _ => rfl

end Step

/-! ## Whole runs -/

theorem ticks_append (beats more : List Beat) : ticks (beats ++ more) = ticks beats + ticks more :=
  List.countP_append

section Runs

variable {E : Engines} {numShards : Nat} {evm : Int → EVMState} {beats : List Beat} {p : Producer}

theorem synced_of_run (k : Int) (bounded : ticks beats < 2 ^ 64 - 1)
    (reached : run (Producer.step E) (Producer.start numShards evm) beats = some p) :
    Synced k (progress k beats) p ∧ (progress k beats).arrived.length = ticks beats := by
  refine run_invariant (fun beats => ticks beats < 2 ^ 64 - 1)
    (fun beats b bound => ?_)
    (fun beats p => Synced k (progress k beats) p ∧
      (progress k beats).arrived.length = ticks beats)
    ⟨synced_start numShards evm k, rfl⟩ ?_ beats p bounded reached
  · rw [ticks_append] at bound
    omega
  · intro beats p b p' bound _ inv stepped
    obtain ⟨synced, length⟩ := inv
    rw [ticks_append] at bound
    rw [progress_append, ticks_append]
    exact ⟨synced.step (by omega) stepped, by rw [synced.length_next stepped, length]⟩

end Runs

/-- **Progress.**  After every run of the producer, whatever is lost, repeated and restarted, a
shard has processed the blocks up to the height its last recovery has reached, or up to the first
block that has not got through since, whichever is higher. -/
theorem broadcast_progress (E : Engines) (numShards : Nat) (evm : Int → EVMState)
    (beats : List Beat) (p : Producer) (k : Int) (bounded : ticks beats < 2 ^ 64 - 1)
    (reached : run (Producer.step E) (Producer.start numShards evm) beats = some p) :
    (p.net.shards k).chain.lastOrchestratorHeight = (progress k beats).height ∧
      p.net.service.chain.height = ticks beats := by
  obtain ⟨synced, length⟩ := synced_of_run k bounded reached
  exact ⟨synced.last, synced.count.trans length⟩

namespace BroadcastPole

def engines : Engines where
  vm := ⟨fun e _ _ _ _ _ => .ok e⟩
  simulateCall := fun _ _ _ _ _ _ => .error ""
  evmCall := fun _ _ _ _ _ => .done ⟨0, none⟩

def nobody : EVMState := ⟨fun _ => 0, fun _ _ => 0, fun _ => []⟩

def emptyBlock (height : Nat) : OrchestratorShardBlock := ⟨height, ∅, []⟩

def sends (shard : Int) (height : Nat) (outcomes : List Attempt) : List Beat :=
  outcomes.map fun outcome => .attempt shard outcome (emptyBlock height)

/-- Shard 0 misses the second block, shard 1 gets it at the last attempt. -/
def unlucky : List Beat :=
  [.tick] ++ sends 0 1 [.answered] ++ sends 1 1 [.unanswered, .answered] ++
  [.tick] ++ sends 0 2 [.lost, .lost, .lost, .lost] ++ sends 1 2 [.lost, .lost, .lost, .answered] ++
  [.tick] ++ sends 0 3 [.answered] ++ sends 1 3 [.answered]

end BroadcastPole

open BroadcastPole in
/-- One lost block holds shard 0 back, though the next one arrives. -/
theorem unlucky_shard_stays_behind :
    ∃ p, run (Producer.step engines) (Producer.start 2 fun _ => nobody) unlucky = some p ∧
      (p.net.shards 0).chain.lastOrchestratorHeight = 1 ∧
      (p.net.shards 1).chain.lastOrchestratorHeight = 3 ∧ p.net.service.chain.height = 3 := by
  obtain ⟨p, reached⟩ : ∃ p, run (Producer.step engines) (Producer.start 2 fun _ => nobody) unlucky =
      some p := Option.isSome_iff_exists.1 (by decide +kernel)
  have bounded : ticks unlucky < 2 ^ 64 - 1 := by decide
  obtain ⟨first, height⟩ := broadcast_progress engines 2 (fun _ => nobody) unlucky p 0 bounded reached
  obtain ⟨second, -⟩ := broadcast_progress engines 2 (fun _ => nobody) unlucky p 1 bounded reached
  exact ⟨p, reached, first.trans (by decide), second.trans (by decide), height.trans (by decide)⟩

/-- The recovery stays the last one, and block 1 is neither here nor being sent. -/
def Stalled (height : Nat) (q : Progress) : Prop :=
  q.recovered = height ∧ ∃ rest, rest ≠ [] ∧ q.arrived = false :: rest

theorem Stalled.next {height : Nat} {k : Int} {q : Progress} {b : Beat} (stalled : Stalled height q)
    (stays : ∀ evm reachable failing, b ≠ .meanwhile (.restart k evm reachable failing)) :
    Stalled height (q.next k b) := by
  obtain ⟨recovered, rest, some_rest, split⟩ := stalled
  cases b with
  | tick => exact ⟨recovered, rest ++ [false], by simp, by simp [Progress.next, split]⟩
  | attempt shard outcome block =>
      simp only [Progress.next]
      split
      · refine ⟨recovered, rest.dropLast ++ [true], by simp, ?_⟩
        simp only [split, List.dropLast_cons_of_ne_nil some_rest, List.cons_append]
      · exact ⟨recovered, rest, some_rest, split⟩
  | meanwhile a =>
      cases a with
      | restart shard evm reachable failing =>
          have other : shard ≠ k := fun own => stays evm reachable failing (by rw [own])
          simp only [Progress.next, other, if_false]
          exact ⟨recovered, rest, some_rest, split⟩
      | _ => exact ⟨recovered, rest, some_rest, split⟩

theorem Stalled.foldl {height : Nat} {k : Int} {q : Progress} {beats : List Beat}
    (stalled : Stalled height q)
    (stays : ∀ evm reachable failing, .meanwhile (.restart k evm reachable failing) ∉ beats) :
    Stalled height (beats.foldl (Progress.next k) q) := by
  induction beats generalizing q with
  | nil => exact stalled
  | cons b beats ih =>
      refine ih (stalled.next fun evm reachable failing same => ?_)
        fun evm reachable failing later => ?_
      · exact stays evm reachable failing (same ▸ List.mem_cons_self)
      · exact stays evm reachable failing (List.mem_cons_of_mem _ later)

/-- **A restarted shard stalls.**  When a shard restarts after the second block, it stays for
ever at the height that its recovery has reached: of all the blocks that are broadcast to it
afterwards, it processes none until it is restarted again. -/
theorem restarted_shard_stalls (E : Engines) (numShards : Nat) (evm : Int → EVMState)
    (before after : List Beat) (k : Int) (state : EVMState) (reachable : Bool) (failing : List Nat)
    (p : Producer)
    (bounded : ticks (before ++ .meanwhile (.restart k state reachable failing) :: after) < 2 ^ 64 - 1)
    (enough : 2 ≤ ticks before)
    (stays : ∀ state reachable failing, .meanwhile (.restart k state reachable failing) ∉ after)
    (reached : run (Producer.step E) (Producer.start numShards evm)
      (before ++ .meanwhile (.restart k state reachable failing) :: after) = some p) :
    (p.net.shards k).chain.lastOrchestratorHeight =
      recoveredHeight (ticks before) reachable failing := by
  obtain ⟨synced, -⟩ := synced_of_run k bounded reached
  obtain ⟨mid, first, -⟩ := run_append_eq_some.1 reached
  rw [ticks_append] at bounded
  obtain ⟨-, length⟩ := synced_of_run k (by omega) first
  have stalled : Stalled (recoveredHeight (ticks before) reachable failing)
      ((progress k before).next k (.meanwhile (.restart k state reachable failing))) := by
    simp only [Progress.next, if_true, length]
    obtain ⟨n, two⟩ := Nat.exists_eq_add_of_le' enough
    exact ⟨rfl, .replicate (n + 1) false, by simp, by rw [two]; rfl⟩
  obtain ⟨recovered, rest, -, split⟩ := stalled.foldl stays
  have whole : progress k (before ++ .meanwhile (.restart k state reachable failing) :: after) =
      after.foldl (Progress.next k)
        ((progress k before).next k (.meanwhile (.restart k state reachable failing))) := by
    rw [progress, List.foldl_append]
    rfl
  rw [synced.last, whole, Progress.height, recovered, split]
  exact Nat.max_zero _

namespace BroadcastPole

/-- Shard 0 gets every block; after the second it restarts and recovers both. -/
def early : List Beat := [.tick] ++ sends 0 1 [.answered] ++ [.tick] ++ sends 0 2 [.answered]
def late : List Beat := [.tick] ++ sends 0 3 [.answered] ++ [.tick] ++ sends 0 4 [.answered]

end BroadcastPole

open BroadcastPole in
/-- Four blocks, all of them answered at the first attempt; the restarted shard is at 2. -/
theorem recovered_shard_misses_all :
    ∃ p, run (Producer.step engines) (Producer.start 1 fun _ => nobody)
        (early ++ .meanwhile (.restart 0 nobody true []) :: late) = some p ∧
      p.net.service.chain.height = 4 ∧ (p.net.shards 0).chain.lastOrchestratorHeight = 2 := by
  obtain ⟨p, reached, height⟩ : ∃ p, run (Producer.step engines) (Producer.start 1 fun _ => nobody)
      (early ++ .meanwhile (.restart 0 nobody true []) :: late) = some p ∧
        p.net.service.chain.height = 4 := ⟨_, rfl, by decide +kernel⟩
  refine ⟨p, reached, height, ?_⟩
  rw [restarted_shard_stalls engines 1 (fun _ => nobody) early late 0 nobody true [] p (by decide)
    (by decide) (by simp [late, sends]) reached]
  decide

end CrossShard.Network
