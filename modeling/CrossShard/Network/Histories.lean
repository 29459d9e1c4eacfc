/-
# Network.Histories -- a run of the cluster, seen from each of its sides

A run of the cluster is one list of actions.  Seen from the orchestrator it is a list of calls on
its chain, and every vote that the chain accepts was published by the shard it counts for
(`heard_of_run`).  Seen from a shard, each action is a run of the shard's events, from where the
shard stood or, after a restart, from an empty chain, and every decision and order among these
events stands in a block of the orchestrator (`shard_step`).

Nothing is assumed about failures: messages may be lost, repeated and reordered, shards may
restart with any part of the log, and commits may fail.

* `OrchestratorChain.received`: all that was ever added, read off the chain.
* `Numbered.rising`: the heights of fewer than `2 ^ 64` blocks increase.
* `shards_invariant`: the invariant rule for the shards of a cluster.
-/
import CrossShard.Network.Model
import CrossShard.Orchestrator.Lifecycle

namespace CrossShard.Orchestrator

set_option autoImplicit false

open CrossShard.Library CrossShard.Protocol

namespace OrchestratorChain

/-! ## What the chain says about its past -/

/-- All transactions that the blocks order. -/
def orders (c : OrchestratorChain) : List CrossShardTx :=
  c.blocks.flatMap OrchestratorShardBlock.ctToOrder

/-- All transactions that were ever added: those the blocks order, then the queue. -/
def received (c : OrchestratorChain) : List CrossShardTx := c.orders ++ c.pendingTxs

/-- No two added transactions have the same ID. -/
def DistinctIDs (c : OrchestratorChain) : Prop := (c.received.map CrossShardTx.id).Nodup

instance (c : OrchestratorChain) : Decidable c.DistinctIDs :=
  inferInstanceAs (Decidable (List.Nodup _))

/-- A block of the chain decides `x`. -/
def Decided (c : OrchestratorChain) (x : TxID) (commit : Bool) : Prop :=
  ∃ block ∈ c.blocks, block.tpcResult.lookup x = some commit

instance (c : OrchestratorChain) (x : TxID) (commit : Bool) : Decidable (c.Decided x commit) :=
  inferInstanceAs (Decidable (∃ block ∈ c.blocks, _))

/-- The commit of `x` waits for the next block or stands in one. -/
def Committed (c : OrchestratorChain) (x : TxID) : Prop :=
  c.pendingResult.lookup x = some true ∨ c.Decided x true

instance (c : OrchestratorChain) (x : TxID) : Decidable (c.Committed x) :=
  inferInstanceAs (Decidable (_ ∨ _))

end OrchestratorChain

/-- **A list of calls is a sequence of changes.** -/
theorem moves_after (c : OrchestratorChain) (ops : List Op) :
    Moves c (c.journal ops) (c.after ops) := by
  induction ops generalizing c with
  | nil => exact .refl c
  | cons op ops ih => exact (c.moves_of_apply op).trans (ih (c.apply op))

section Moves

variable {c c' : OrchestratorChain} {notes : List Note}

theorem Move.received (move : Move c notes c') : c'.received = c.received ++ addedIn notes := by
  cases move with
  | queued tx =>
      simp [OrchestratorChain.received, OrchestratorChain.orders, OrchestratorChain.addTransaction,
        addedIn]
  | emitted =>
      rw [addedIn_blockNotes]
      simp [OrchestratorChain.received, OrchestratorChain.orders, OrchestratorChain.emit]
  | _ => exact (List.append_nil _).symm

theorem Moves.received (moves : Moves c notes c') : c'.received = c.received ++ addedIn notes := by
  induction moves with
  | refl c => exact (List.append_nil _).symm
  | cons first rest ih => rw [ih, first.received, addedIn_append, List.append_assoc]

theorem Move.blocks (move : Move c notes c') : c.blocks <+: c'.blocks := by
  cases move with
  | emitted => exact List.prefix_append _ _
  | _ => exact List.prefix_refl _

/-- The log only grows. -/
theorem Moves.blocks (moves : Moves c notes c') : c.blocks <+: c'.blocks := by
  induction moves with
  | refl c => exact List.prefix_refl _
  | cons first rest ih => exact first.blocks.trans ih

theorem OrchestratorChain.Decided.mono {x : TxID} {commit : Bool} (decided : c.Decided x commit)
    (grown : c.blocks <+: c'.blocks) : c'.Decided x commit := by
  obtain ⟨block, listed, found⟩ := decided
  exact ⟨block, grown.subset listed, found⟩

theorem OrchestratorChain.mem_orders_mono {t : CrossShardTx} (member : t ∈ c.orders)
    (grown : c.blocks <+: c'.blocks) : t ∈ c'.orders := by
  obtain ⟨block, listed, inside⟩ := List.mem_flatMap.1 member
  exact List.mem_flatMap.2 ⟨block, grown.subset listed, inside⟩

/-! ## Heights -/

/-- Block `i` has the height `i`, as a `uint64`, and so will the next one. -/
structure Numbered (c : OrchestratorChain) : Prop where
  heights : ∀ i block, c.blocks[i]? = some block → block.height = i % 2 ^ 64
  next : (c.height + 1) % 2 ^ 64 = c.blocks.length % 2 ^ 64

theorem numbered_start : Numbered OrchestratorChain.newOrchestratorChain where
  heights i block found := by
    obtain ⟨inside, rfl⟩ := List.getElem?_eq_some_iff.1 found
    have first : i = 0 := Nat.lt_one_iff.1 inside
    subst first
    rfl
  next := rfl

theorem Numbered.move (numbered : Numbered c) (move : Move c notes c') : Numbered c' := by
  cases move with
  | emitted =>
      refine ⟨fun i block found => ?_, ?_⟩
      · rcases lt_or_ge i c.blocks.length with old | new
        · rw [show c.emit.2.blocks = c.blocks ++ [c.emit.1] from rfl,
            List.getElem?_append_left old] at found
          exact numbered.heights i block found
        · obtain ⟨inside, same⟩ := List.getElem?_eq_some_iff.1 found
          have last : i = c.blocks.length := by
            have bound : i < (c.blocks ++ [c.emit.1]).length := inside
            rw [List.length_append, List.length_singleton] at bound
            omega
          subst last
          rw [← same]
          simp only [OrchestratorChain.emit, List.getElem_concat_length]
          exact numbered.next
      · show ((c.height + 1) % 2 ^ 64 + 1) % 2 ^ 64 = (c.blocks ++ [c.emit.1]).length % 2 ^ 64
        rw [numbered.next, List.length_append, List.length_singleton, Nat.mod_add_mod]
  | _ => exact ⟨numbered.heights, numbered.next⟩

theorem Numbered.moves (moves : Moves c notes c') (numbered : Numbered c) : Numbered c' := by
  induction moves with
  | refl c => exact numbered
  | cons first rest ih => exact ih (numbered.move first)

/-- The heights of a log of at most `2 ^ 64` blocks increase. -/
theorem Numbered.rising (numbered : Numbered c) (bounded : c.blocks.length ≤ 2 ^ 64) :
    c.blocks.Pairwise fun b b' => b.height < b'.height := by
  rw [List.pairwise_iff_getElem]
  intro i j inside inside' before
  rw [numbered.heights i _ (List.getElem?_eq_getElem inside),
    numbered.heights j _ (List.getElem?_eq_getElem inside'),
    Nat.mod_eq_of_lt (by omega), Nat.mod_eq_of_lt (by omega)]
  exact before

end Moves

/-- Each accepted vote was cast. -/
theorem cast_of_accepted {c : OrchestratorChain} {ops : List Op} {x : TxID} {k : Int} {v : Bool}
    (accepted : Note.accepted x k v ∈ c.journal ops) : Op.recordVote x k v ∈ ops := by
  induction ops generalizing c with
  | nil => cases accepted
  | cons op ops ih =>
      rcases List.mem_append.1 accepted with here | later
      · cases op with
        | addTransaction tx => simp [OrchestratorChain.notes] at here
        | recordVote txID shardID canCommit =>
            simp only [OrchestratorChain.notes] at here
            split at here
            · cases List.mem_singleton.1 here
              exact List.mem_cons_self
            · cases here
        | checkTimeouts => simp [OrchestratorChain.notes] at here
        | setVoteTimeout blocks => simp [OrchestratorChain.notes] at here
        | produceBlock => simp [OrchestratorChain.notes, blockNotes] at here
      · exact List.mem_cons_of_mem _ (ih later)

end CrossShard.Orchestrator

namespace CrossShard.Network

set_option autoImplicit false

open CrossShard.Library CrossShard.Protocol CrossShard.Shard CrossShard.Orchestrator

/-! ## The orchestrator's side -/

/-- At some time of the run, a block of shard `k` carried the vote `v` on `x`. -/
def Published (E : Engines) (start : Cluster) (as : List Action) (x : TxID) (k : Int) (v : Bool) :
    Prop :=
  ∃ pre post mid, as = pre ++ post ∧ run (Cluster.step E) start pre = some mid ∧
    ∃ block ∈ (mid.shards k).chain.blocks, block.tpcPrepare.get x = some v

theorem Published.append {E : Engines} {start : Cluster} {as : List Action} {x : TxID} {k : Int}
    {v : Bool} (published : Published E start as x k v) (bs : List Action) :
    Published E start (as ++ bs) x k v := by
  obtain ⟨pre, post, mid, rfl, reached, vote⟩ := published
  exact ⟨pre, post ++ bs, mid, List.append_assoc .., reached, vote⟩

/-- **What an action asks of the orchestrator's chain.**  Its votes stand in a block of a shard. -/
theorem service_step {E : Engines} {net net' : Cluster} {a : Action}
    (stepped : net.step E a = some net') :
    ∃ ops, net'.service.chain = net.service.chain.after ops ∧
      ∀ x k v, Op.recordVote x k v ∈ ops → ∃ shard, ∃ block ∈ (net.shards shard).chain.blocks,
        block.shardID = k ∧ block.tpcPrepare.get x = some v := by
  cases a with
  | submit uuid req =>
      cases stepped
      rcases net.service.handleSubmit_cases uuid req with same | ⟨-, panics | queued⟩
      · exact ⟨[], congrArg Service.chain same, by simp⟩
      · exact ⟨[], congrArg (fun r => r.2.chain) panics, by simp⟩
      · exact ⟨[.addTransaction _], congrArg (fun r => r.2.chain) queued, by simp⟩
  | call uuid req =>
      cases stepped
      exact ⟨[], net.service.chain_handleCall uuid req, by simp⟩
  | simulate W =>
      obtain ⟨s, ran, rfl⟩ := Option.map_eq_some_iff.1 stepped
      obtain ⟨tx, rest, -, chain⟩ := Service.chain_simulateNext ran
      exact ⟨[.addTransaction _], chain, by simp⟩
  | produce =>
      cases stepped
      exact ⟨[.produceBlock], net.service.chain_produceBlock, by simp⟩
  | report shard height votes =>
      simp only [Cluster.step] at stepped
      split at stepped
      · cases stepped
      · rename_i block found
        split at stepped
        · rename_i same
          cases stepped
          refine ⟨_, net.service.chain_handleStateShardBlock block.shardID votes, ?_⟩
          intro x k v cast
          obtain ⟨vote, listed, own⟩ := List.mem_map.1 cast
          cases own
          refine ⟨shard, block, List.mem_of_getElem? found, rfl, ?_⟩
          show block.tpcPrepare.toFinmap.lookup vote.1 = some vote.2
          rw [← same, Finmap.lookup_toFinmap]
          exact AList.mem_lookup_iff.2 listed
        · cases stepped
  | deliver shard block =>
      simp only [Cluster.step] at stepped
      split at stepped
      · cases stepped
        exact ⟨[], rfl, by simp⟩
      · cases stepped
  | request shard txID req =>
      cases stepped
      exact ⟨[], rfl, by simp⟩
  | shardProduce shard commit =>
      obtain ⟨p, -, rfl⟩ := Option.map_eq_some_iff.1 stepped
      exact ⟨[], rfl, by simp⟩
  | restart shard evm reachable failing =>
      cases stepped
      exact ⟨[], rfl, by simp⟩

theorem blocks_step {E : Engines} {net net' : Cluster} {a : Action}
    (stepped : net.step E a = some net') :
    net.service.chain.blocks <+: net'.service.chain.blocks := by
  obtain ⟨ops, chain, -⟩ := service_step stepped
  rw [chain]
  exact (moves_after _ ops).blocks

theorem blocks_run {E : Engines} {net net' : Cluster} {as : List Action}
    (reached : run (Cluster.step E) net as = some net') :
    net.service.chain.blocks <+: net'.service.chain.blocks := by
  refine run_preserves (P := fun _ => True)
    (fun mid => net.service.chain.blocks <+: mid.service.chain.blocks) ?_ (List.prefix_refl _)
    (fun _ _ => trivial) reached
  exact fun _ _ _ before _ stepped => before.trans (blocks_step stepped)

/-! ## The shards' side -/

/-- A block of the log, up to the order in which its results are visited. -/
def Listed (c : OrchestratorChain) (block : OrchestratorShardBlock) : Prop :=
  ∃ sent ∈ c.blocks, SameBlock sent block

/-- What the event decides or orders stands in the log. -/
def Stands (c : OrchestratorChain) : Event → Prop
  | .decision x commit => c.Decided x commit
  | .order t => t ∈ c.orders
  | _ => True

theorem Listed.mono {c c' : OrchestratorChain} {block : OrchestratorShardBlock}
    (listed : Listed c block) (grown : c.blocks <+: c'.blocks) : Listed c' block := by
  obtain ⟨sent, member, same⟩ := listed
  exact ⟨sent, grown.subset member, same⟩

theorem listed_of_mem {c : OrchestratorChain} {block : OrchestratorShardBlock}
    (member : block ∈ c.blocks) : Listed c block :=
  ⟨block, member, rfl, List.Perm.refl _, rfl⟩

theorem Listed.decided {c : OrchestratorChain} {block : OrchestratorShardBlock}
    (listed : Listed c block) {r : Σ _ : TxID, Bool} (member : r ∈ block.tpcResult.entries) :
    c.Decided r.1 r.2 := by
  obtain ⟨sent, known, -, results, -⟩ := listed
  exact ⟨sent, known, AList.mem_lookup_iff.2 (results.mem_iff.2 member)⟩

theorem stands_of_block {c : OrchestratorChain} {block : OrchestratorShardBlock}
    (listed : Listed c block) (chain : Chain) : ∀ e ∈ blockEvents chain block, Stands c e := by
  intro e member
  unfold blockEvents at member
  split at member
  · cases member
  · simp only [List.mem_append, List.mem_map, List.mem_singleton] at member
    rcases member with (⟨r, result, rfl⟩ | ⟨t, ordered, rfl⟩) | rfl
    · exact listed.decided result
    · obtain ⟨sent, known, -, -, orders⟩ := listed
      exact List.mem_flatMap.2 ⟨sent, known, orders ▸ ordered⟩
    · trivial

theorem stands_of_intake {c : OrchestratorChain} {blocks : List OrchestratorShardBlock}
    (listed : ∀ block ∈ blocks, Listed c block) (chain : Chain) :
    ∀ e ∈ intakeEvents chain blocks, Stands c e := by
  induction blocks generalizing chain with
  | nil => exact List.forall_mem_nil _
  | cons block blocks ih =>
      intro e member
      rcases List.mem_append.1 member with here | later
      · exact stands_of_block (listed block List.mem_cons_self) chain e here
      · exact ih (fun b known => listed b (List.mem_cons_of_mem _ known)) _ e later

/-- From `s` to `s'` the shard `k` runs events that stand in the log, possibly after a restart. -/
def Serves (vm : VM) (c : OrchestratorChain) (k : Int) (s s' : Server) : Prop :=
  ∃ n es, (n = s.node ∨ ∃ evm, n = Node.start k evm) ∧ (∀ e ∈ es, Stands c e) ∧
    run (Shard.step vm) n es = some s'.node

section Serves

variable {vm : VM} {c : OrchestratorChain} {k : Int} {s : Server}

theorem serves_refl (vm : VM) (c : OrchestratorChain) (k : Int) (s : Server) : Serves vm c k s s :=
  ⟨s.node, [], .inl rfl, List.forall_mem_nil _, rfl⟩

theorem serves_deliver (buffered : s.blockBuffer.All (Listed c)) {block : OrchestratorShardBlock}
    (listed : Listed c block) :
    (s.handleOrchestratorShardBlock block).2.blockBuffer.All (Listed c) ∧
      Serves vm c k s (s.handleOrchestratorShardBlock block).2 := by
  obtain ⟨released, left⟩ := buffered.processBlock listed
  rw [Server.handleOrchestratorShardBlock_eq]
  exact ⟨left, s.node, _, .inl rfl, stands_of_intake released s.chain,
    intakeEvents_run vm s.chain s.evmState (s.ready block)⟩

theorem serves_submit (vm : VM) (c : OrchestratorChain) (k : Int) (s : Server)
    (simulate : Server.SimulateCall) (txID : TxID) (req : Server.TxSubmitRequest) :
    (s.handleTxSubmit simulate txID req).2.blockBuffer = s.blockBuffer ∧
      Serves vm c k s (s.handleTxSubmit simulate txID req).2 := by
  rcases handleTxSubmit_cases simulate s txID req with same | ⟨tx, kind, unnamed, queued⟩
  · rw [same]
    exact ⟨rfl, serves_refl vm c k s⟩
  · rw [queued]
    refine ⟨rfl, s.node, [.submit tx], .inl rfl, ?_, ?_⟩
    · rintro e member
      rw [List.mem_singleton.1 member]
      trivial
    · simp [run, Shard.step, Server.node, kind, unnamed]

theorem serves_produce {commit : Option Hash} {p : Produced}
    (ran : s.chain.produceBlock vm s.evmState commit = some p) :
    Serves vm c k s { s with chain := p.chain, evmState := p.evm } := by
  have events := produceBlock_run vm s.chain s.evmState commit
  rw [ran] at events
  refine ⟨s.node, _, .inl rfl, fun e member => ?_, events⟩
  simp only [produceEvents, List.mem_append, List.mem_cons, List.mem_map, List.not_mem_nil,
    or_false] at member
  rcases member with (rfl | ⟨tx, -, rfl⟩) | rfl
  · trivial
  · trivial
  · cases commit <;> trivial

theorem replay_run (vm : VM) {fetch : Nat → Server.Fetched}
    (listed : ∀ height block, fetch height = .block block → Listed c block) (turns : Nat) :
    ∀ (height : Nat) (s : Server), (Server.replay fetch turns height s).blockBuffer = s.blockBuffer ∧
      ∃ es, (∀ e ∈ es, Stands c e) ∧
        run (Shard.step vm) s.node es = some (Server.replay fetch turns height s).node := by
  induction turns with
  | zero => exact fun height s => ⟨rfl, [], List.forall_mem_nil _, rfl⟩
  | succ turns ih =>
      intro height s
      unfold Server.replay
      dsimp only
      split
      · rename_i block found
        obtain ⟨buffer, es, stands, rest⟩ := ih (height + 1) (s.processOrchestratorBlock block)
        refine ⟨buffer, blockEvents s.chain block ++ es, ?_, ?_⟩
        · intro e member
          exact (List.mem_append.1 member).elim
            (stands_of_block (listed height block found) s.chain e) (stands e)
        · exact run_append_eq_some.2
            ⟨_, processOrchestratorBlock_run vm s.chain s.evmState block, rest⟩
      · exact ih (height + 1) s

theorem serves_restart (vm : VM) (c : OrchestratorChain) (k : Int) (s : Server) (evm : EVMState)
    (reachable : Bool) (failing : List Nat) :
    (Server.newServer k evm (recoveryView c reachable failing)).blockBuffer.All (Listed c) ∧
      Serves vm c k s (Server.newServer k evm (recoveryView c reachable failing)) := by
  have listed : ∀ height block, (recoveryView c reachable failing).fetch height = .block block →
      Listed c block := by
    intro height block fetched
    simp only [recoveryView, blockAt] at fetched
    split at fetched
    · cases fetched
    · split at fetched
      · cases fetched
      · rename_i found
        cases fetched
        split at found
        · cases found
        · exact listed_of_mem (List.mem_of_getElem? found)
  have empty : (Server.fresh k evm).blockBuffer.All (Listed c) := fun _ _ found => by
    rw [show (Server.fresh k evm).blockBuffer.buffered = ∅ from rfl, FMap.get_empty] at found
    cases found
  have unreplayed : Serves vm c k s (Server.fresh k evm) :=
    ⟨Node.start k evm, [], .inr ⟨evm, rfl⟩, List.forall_mem_nil _, rfl⟩
  unfold Server.newServer Server.recoverFromOrchestrator
  split
  · exact ⟨empty, unreplayed⟩
  · dsimp only
    split
    · exact ⟨empty, unreplayed⟩
    · obtain ⟨buffer, es, stands, ran⟩ := replay_run vm listed _ _ (Server.fresh k evm)
      exact ⟨buffer ▸ empty, Node.start k evm, es, .inr ⟨evm, rfl⟩, stands, ran⟩

end Serves

/-- **What an action does to a shard.** -/
theorem shard_step {E : Engines} {net net' : Cluster} {a : Action}
    (buffered : ∀ k, (net.shards k).blockBuffer.All (Listed net.service.chain))
    (stepped : net.step E a = some net') (k : Int) :
    (net'.shards k).blockBuffer.All (Listed net.service.chain) ∧
      Serves E.vm net.service.chain k (net.shards k) (net'.shards k) := by
  have set : ∀ {shard : Int} {server : Server},
      (server.blockBuffer.All (Listed net.service.chain) ∧
        Serves E.vm net.service.chain shard (net.shards shard) server) →
      ((net.setShard shard server).shards k).blockBuffer.All (Listed net.service.chain) ∧
        Serves E.vm net.service.chain k (net.shards k) ((net.setShard shard server).shards k) := by
    intro shard server served
    simp only [Cluster.setShard, Function.update_apply]
    split
    · rename_i same
      exact same ▸ served
    · exact ⟨buffered k, serves_refl ..⟩
  cases Cluster.taken_of_step stepped with
  | served _ service ops chain blocks => exact ⟨buffered k, serves_refl ..⟩
  | delivered shard block sent listed same =>
      exact set (serves_deliver (buffered shard) ⟨sent, listed, same⟩)
  | requested shard txID req =>
      obtain ⟨buffer, served⟩ := serves_submit E.vm net.service.chain shard (net.shards shard)
        E.simulateCall txID req
      exact set ⟨buffer ▸ buffered shard, served⟩
  | produced shard commit p ran => exact set ⟨buffered shard, serves_produce ran⟩
  | restarted shard evm reachable failing => exact set (serves_restart ..)

section Runs

variable {E : Engines} {numShards : Nat} {evm : Int → EVMState} {as : List Action} {net : Cluster}

/-- What a shard keeps for later stands in the log. -/
theorem buffered_of_run
    (reached : run (Cluster.step E) (Cluster.start numShards evm) as = some net) :
    ∀ k, (net.shards k).blockBuffer.All (Listed net.service.chain) := by
  refine run_preserves (P := fun _ => True)
    (fun mid => ∀ k, (mid.shards k).blockBuffer.All (Listed mid.service.chain)) ?_ ?_
    (fun _ _ => trivial) reached
  · intro mid a mid' buffered _ stepped k height block found
    exact ((shard_step buffered stepped k).1 height block found).mono (blocks_step stepped)
  · intro k height block found
    rw [show ((Cluster.start numShards evm).shards k).blockBuffer.buffered = ∅ from rfl,
      FMap.get_empty] at found
    cases found

/-- **The invariant rule for shards.**  The invariant may speak about the log, as long as a longer
log keeps it; an event may be assumed to stand in the log. -/
theorem shards_invariant (Inv : OrchestratorChain → Int → Node → Prop)
    (start : ∀ c k e, Inv c k (Node.start k e))
    (grows : ∀ c c' k n, c.blocks <+: c'.blocks → Inv c k n → Inv c' k n)
    (preserved : ∀ c k n e n', Stands c e → Taken E.vm n e n' → Inv c k n → Inv c k n')
    (reached : run (Cluster.step E) (Cluster.start numShards evm) as = some net) (k : Int) :
    Inv net.service.chain k (net.shards k).node := by
  refine run_invariant (fun _ => True) (fun _ _ _ => trivial)
    (fun _ mid => Inv mid.service.chain k (mid.shards k).node) (start _ k (evm k)) ?_ as net trivial
    reached
  intro as mid a mid' _ early inv stepped
  obtain ⟨-, n, es, origin, stands, ran⟩ := shard_step (buffered_of_run early) stepped k
  apply grows _ _ k _ (blocks_step stepped)
  refine run_preserves (Inv mid.service.chain k) ?_ ?_ stands ran
  · exact fun n e n' inv stands stepped => preserved _ k n e n' stands (taken_of_step stepped) inv
  · rcases origin with rfl | ⟨e, rfl⟩
    · exact inv
    · exact start _ k e

end Runs

/-! ## Who publishes a vote -/

/-- An event leaves the blocks, or appends the one it commits. -/
theorem blocks_of_taken {vm : VM} {n n' : Node} {e : Event} (taken : Taken vm n e n') :
    n'.chain.blocks = n.chain.blocks ∨
      ∃ stateRoot successful, e = .commitBlock stateRoot ∧ n.work = some ⟨[], successful⟩ ∧
        n'.chain.blocks = n.chain.blocks ++
          [(BlockState.finish ⟨n.chain, n.evm, successful⟩ stateRoot).1] := by
  cases taken with
  | ordered t idle involved => exact .inl (congrArg Chain.Steady.blocks (n.chain.steady_noteOrder t))
  | granted tx rest successful busy kind chain lock =>
      exact .inl (congrArg Chain.Steady.blocks lock.steady)
  | refused tx rest successful busy kind chain lock result =>
      exact .inl (congrArg Chain.Steady.blocks lock.steady)
  | applied tx rest successful busy kind free evm ran =>
      exact .inl (congrArg Chain.Steady.blocks (n.chain.steady_cleanupAfterExecution tx))
  | committed stateRoot successful busy => exact .inr ⟨stateRoot, successful, rfl, busy, rfl⟩
  | _ => exact .inl rfl

/-- The chain and its blocks carry the shard's own ID. -/
structure Owned (k : Int) (n : Node) : Prop where
  chain : n.chain.shardID = k
  blocks : ∀ block ∈ n.chain.blocks, block.shardID = k

theorem Owned.step {k : Int} {vm : VM} {n n' : Node} {e : Event} (owned : Owned k n)
    (taken : Taken vm n e n') : Owned k n' := by
  refine ⟨taken.shardID_eq.trans owned.chain, fun block member => ?_⟩
  rcases blocks_of_taken taken with same | ⟨stateRoot, successful, -, -, more⟩
  · exact owned.blocks block (same ▸ member)
  · rw [more] at member
    rcases List.mem_append.1 member with old | new
    · exact owned.blocks block old
    · rw [List.mem_singleton.1 new]
      exact owned.chain

section Runs

variable {E : Engines} {numShards : Nat} {evm : Int → EVMState} {as : List Action} {net : Cluster}

theorem owned_of_run (reached : run (Cluster.step E) (Cluster.start numShards evm) as = some net)
    (k : Int) : Owned k (net.shards k).node := by
  refine shards_invariant (fun _ k n => Owned k n) (fun _ k e => ⟨rfl, fun block member => ?_⟩)
    (fun _ _ _ _ _ owned => owned) (fun _ _ _ _ _ _ taken owned => owned.step taken) reached k
  rw [List.mem_singleton.1 member]

/-- **The orchestrator's history.**  Its chain is the result of a list of calls, and each accepted
vote was published by the shard it counts for. -/
theorem heard_of_run (reached : run (Cluster.step E) (Cluster.start numShards evm) as = some net) :
    ∃ ops, net.service.chain = OrchestratorChain.newOrchestratorChain.after ops ∧
      ∀ x k v, .accepted x k v ∈ OrchestratorChain.newOrchestratorChain.journal ops →
        Published E (Cluster.start numShards evm) as x k v := by
  refine run_invariant (fun _ => True) (fun _ _ _ => trivial) (fun as net => ∃ ops,
    net.service.chain = OrchestratorChain.newOrchestratorChain.after ops ∧
      ∀ x k v, .accepted x k v ∈ OrchestratorChain.newOrchestratorChain.journal ops →
        Published E (Cluster.start numShards evm) as x k v)
    ⟨[], rfl, by simp [OrchestratorChain.journal]⟩ ?_ as net trivial reached
  rintro as net a net' - reached ⟨ops, chain, heard⟩ stepped
  obtain ⟨more, chain', votes⟩ := service_step stepped
  refine ⟨ops ++ more, ?_, fun x k v accepted => ?_⟩
  · rw [chain', chain]
    exact (List.foldl_append ..).symm
  · rw [OrchestratorChain.journal_append] at accepted
    rcases List.mem_append.1 accepted with old | new
    · exact (heard x k v old).append [a]
    · obtain ⟨shard, block, member, own, vote⟩ := votes x k v (cast_of_accepted new)
      -- a shard's blocks carry its own ID
      have same : shard = k := ((owned_of_run reached shard).blocks block member).symm.trans own
      exact ⟨as, [a], net, rfl, reached, block, same ▸ member, vote⟩

/-- **The orchestrator's chain is tracked,** when no ID was added twice. -/
theorem tracked_of_run (reached : run (Cluster.step E) (Cluster.start numShards evm) as = some net)
    (distinct : net.service.chain.DistinctIDs) :
    ∃ J, Tracked J net.service.chain ∧
      ∀ x k v, .accepted x k v ∈ J → Published E (Cluster.start numShards evm) as x k v := by
  obtain ⟨ops, chain, heard⟩ := heard_of_run reached
  refine ⟨_, ?_, heard⟩
  rw [chain]
  apply tracked_start.after ops
  have received := (moves_after OrchestratorChain.newOrchestratorChain ops).received
  rw [OrchestratorChain.DistinctIDs, chain, received] at distinct
  exact distinct

theorem numbered_of_run (reached : run (Cluster.step E) (Cluster.start numShards evm) as = some net) :
    Numbered net.service.chain := by
  obtain ⟨ops, chain, -⟩ := heard_of_run reached
  rw [chain]
  exact numbered_start.moves (moves_after _ ops)

end Runs

end CrossShard.Network
