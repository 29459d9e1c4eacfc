/-
# Network.Preparation -- commits reach a shard after its vote

What one shard guarantees to a transaction between its vote and the decision rests on the
orchestrator: a commit must not arrive at a shard that has not voted YES.  In a run of the cluster
without restarts and failed commits this is so, because the orchestrator counts only published
votes, waits for every involved shard, and a shard that is not involved holds nothing.

* `served_run`: what a shard does in the run of the cluster is a run of requests to it.
* `Aside`: a shard that a transaction does not involve holds nothing for it.
* `Regular.prepared`: the history of every shard is disciplined, and each commit in it comes after
  the shard's own vote.
-/
import CrossShard.Network.Atomicity
import CrossShard.Shard.Isolation
import CrossShard.Shard.LockLifetime
import CrossShard.Shard.LockOrder

namespace CrossShard.Network

set_option autoImplicit false

open CrossShard.Library CrossShard.Protocol CrossShard.Shard CrossShard.Orchestrator

/-! ## The requests to one shard -/

/-- The action is no restart and no failed commit. -/
def Action.smooth : Action → Bool
  | .restart _ _ _ _ => false
  | .shardProduce _ none => false
  | _ => true

/-- The run has no restart and no failed commit. -/
def Smooth (as : List Action) : Prop := ∀ a ∈ as, a.smooth = true

instance (as : List Action) : Decidable (Smooth as) :=
  inferInstanceAs (Decidable (∀ a ∈ as, _))

/-- What an action asks of shard `k`. -/
def Action.requestTo (k : Int) : Action → List Shard.Request
  | .deliver shard block => if shard = k then [.deliver block] else []
  | .request shard txID req => if shard = k then [.submit txID req] else []
  | .shardProduce shard (some stateRoot) => if shard = k then [.produce stateRoot] else []
  | _ => []

/-- What a run asks of shard `k`. -/
def requestsTo (k : Int) (as : List Action) : List Shard.Request := as.flatMap (Action.requestTo k)

theorem requestsTo_append (k : Int) (as bs : List Action) :
    requestsTo k (as ++ bs) = requestsTo k as ++ requestsTo k bs := List.flatMap_append

theorem served_step {E : Engines} {net net' : Cluster} {a : Action} (smooth : a.smooth = true)
    (stepped : net.step E a = some net') (k : Int) :
    run (Server.serve E.vm E.simulateCall) (net.shards k) (a.requestTo k) =
      some (net'.shards k) := by
  have set : ∀ {shard : Int} {server : Server} {r : Shard.Request},
      (net.shards shard).serve E.vm E.simulateCall r = some server →
      run (Server.serve E.vm E.simulateCall) (net.shards k) (if shard = k then [r] else []) =
        some ((net.setShard shard server).shards k) := by
    intro shard server r served
    simp only [Cluster.setShard, Function.update_apply]
    split
    · rename_i same
      subst same
      simp [run, served]
    · rename_i other
      rw [if_neg (Ne.symm other)]
      rfl
  cases a with
  | submit uuid req =>
      cases stepped
      rfl
  | call uuid req =>
      cases stepped
      rfl
  | simulate W =>
      obtain ⟨s, -, rfl⟩ := Option.map_eq_some_iff.1 stepped
      rfl
  | produce =>
      cases stepped
      rfl
  | deliver shard block =>
      simp only [Cluster.step] at stepped
      split at stepped
      · cases stepped
        exact set rfl
      · cases stepped
  | report shard height votes =>
      simp only [Cluster.step] at stepped
      split at stepped
      · cases stepped
      · split at stepped
        · cases stepped
          rfl
        · cases stepped
  | request shard txID req =>
      cases stepped
      exact set rfl
  | shardProduce shard commit =>
      obtain ⟨p, ran, rfl⟩ := Option.map_eq_some_iff.1 stepped
      cases commit with
      | none => cases smooth
      | some stateRoot =>
          refine set (r := .produce stateRoot) ?_
          simp only [Server.serve, ran, Option.map_some]
  | restart shard evm reachable failing => cases smooth

/-- **A shard's part of a run is a run of requests.** -/
theorem served_run {E : Engines} {net net' : Cluster} {as : List Action} (smooth : Smooth as)
    (reached : run (Cluster.step E) net as = some net') (k : Int) :
    run (Server.serve E.vm E.simulateCall) (net.shards k) (requestsTo k as) =
      some (net'.shards k) := by
  induction as generalizing net with
  | nil =>
      cases reached
      rfl
  | cons a as ih =>
      obtain ⟨mid, stepped, rest⟩ := run_cons_eq_some.1 reached
      refine run_append_eq_some.2 ⟨mid.shards k, ?_, ?_⟩
      · exact served_step (smooth a List.mem_cons_self) stepped k
      · exact ih (fun b member => smooth b (List.mem_cons_of_mem _ member)) rest

/-- The events of shard `k` in a run from `start`. -/
def eventsOf (E : Engines) (start : Cluster) (k : Int) (as : List Action) : List Event :=
  (start.shards k).history E.vm E.simulateCall (requestsTo k as)

theorem history_eq_outputs (vm : VM) (simulate : Server.SimulateCall) (s : Server)
    (rs : List Shard.Request) :
    s.history vm simulate rs =
      outputs (Server.serve vm simulate) (Server.requestEvents simulate) s rs := by
  induction rs generalizing s with
  | nil => rfl
  | cons r rs ih =>
      unfold Server.history outputs
      cases s.serve vm simulate r with
      | none => rfl
      | some s' => exact congrArg _ (ih s')

section Events

variable {E : Engines} {start net : Cluster} {as : List Action}

theorem eventsOf_run (smooth : Smooth as) (reached : run (Cluster.step E) start as = some net)
    (k : Int) :
    run (Shard.step E.vm) (start.shards k).node (eventsOf E start k as) =
      some (net.shards k).node :=
  Server.history_run (served_run smooth reached k)

theorem eventsOf_append (smooth : Smooth as) (reached : run (Cluster.step E) start as = some net)
    (k : Int) (bs : List Action) :
    eventsOf E start k (as ++ bs) = eventsOf E start k as ++ eventsOf E net k bs := by
  unfold eventsOf
  rw [requestsTo_append, history_eq_outputs, history_eq_outputs, history_eq_outputs]
  exact outputs_append _ (served_run smooth reached k)

theorem eventsOf_concat (smooth : Smooth as) (reached : run (Cluster.step E) start as = some net)
    (k : Int) (a : Action) :
    eventsOf E start k (as ++ [a]) =
      eventsOf E start k as ++ (net.shards k).history E.vm E.simulateCall (a.requestTo k) := by
  have single : requestsTo k [a] = a.requestTo k := List.append_nil _
  rw [eventsOf_append smooth reached, eventsOf, eventsOf, single]

/-- A request is at most one event list. -/
theorem history_requestTo (vm : VM) (simulate : Server.SimulateCall) (s : Server) (k : Int)
    (a : Action) {e : Event} (member : e ∈ s.history vm simulate (a.requestTo k)) :
    ∃ r, a.requestTo k = [r] ∧ e ∈ s.requestEvents simulate r := by
  have one : a.requestTo k = [] ∨ ∃ r, a.requestTo k = [r] := by
    unfold Action.requestTo
    split <;> first | (split <;> simp) | simp
  rcases one with none_ | ⟨r, single⟩
  · rw [none_] at member
    cases member
  · refine ⟨r, single, ?_⟩
    rw [single, Server.history] at member
    cases served : s.serve vm simulate r with
    | none => simpa [served] using member
    | some s' => simpa [served, Server.history] using member

end Events

theorem blocks_of_events {vm : VM} {n n' : Node} {es : List Event}
    (reached : run (Shard.step vm) n es = some n') : n.chain.blocks <+: n'.chain.blocks := by
  refine run_preserves (P := fun _ => True) (fun m => n.chain.blocks <+: m.chain.blocks) ?_
    (List.prefix_refl _) (fun _ _ => trivial) reached
  intro m e m' before _ stepped
  rcases blocks_of_taken (taken_of_step stepped) with same | ⟨stateRoot, successful, -, -, more⟩
  · exact same ▸ before
  · exact before.trans (more ▸ List.prefix_append _ _)

theorem votedYes_mono {vm : VM} {n n' : Node} {es : List Event} {x : TxID}
    (reached : run (Shard.step vm) n es = some n') (voted : n.VotedYes x) : n'.VotedYes x := by
  obtain ⟨block, member, yes⟩ := voted
  exact ⟨block, (blocks_of_events reached).subset member, yes⟩

/-! ## Shards that a transaction does not involve -/

/-- Nothing is held for `x`, and no `Lock` of `x` waits. -/
structure Aside (x : TxID) (n : Node) : Prop where
  forgotten : n.chain.Forgotten x
  waiting : ∀ tx ∈ n.outstanding, ¬LockOf x tx
  queue : ∀ tx ∈ n.chain.currentTxs, ¬LockOf x tx

/-- The event does not order `x` for shard `k`. -/
def Passes (k : Int) (x : TxID) : Event → Prop
  | .order t => t.id = x → k ∉ t.involvedShards
  | _ => True

section Aside

variable {k : Int} {x : TxID} {vm : VM} {n n' : Node} {e : Event}

theorem aside_start (x : TxID) (k : Int) (evm : EVMState) : Aside x (Node.start k evm) where
  forgotten := by
    refine ⟨fun addr slot held => ?_, rfl, rfl, rfl, rfl⟩
    cases held
  waiting := List.forall_mem_nil _
  queue := List.forall_mem_nil _

theorem Aside.added (shard : n.chain.shardID = k) (taken : Taken vm n e n') (passes : Passes k x e) :
    ∀ tx ∈ Shard.added n e, ¬LockOf x tx := by
  intro tx member lock
  cases taken with
  | stale y commit idle processed => simp [Shard.added, processed] at member
  | decided y commit idle fresh =>
      simp only [Shard.added, fresh, Bool.false_eq_true, if_false] at member
      exact not_lockOf_of_mem_decisionTxs member lock
  | ordered t idle involved =>
      simp only [Shard.added, involved, if_true, List.mem_singleton] at member
      subst member
      exact passes lock.2 (shard ▸ involved)
  | passed t idle foreign => simp [Shard.added, foreign] at member
  | submitted tx' idle kind unnamed =>
      rw [List.mem_singleton.1 member] at lock
      simp [LockOf, kind] at lock
  | _ => cases member

theorem Aside.forgotten_step (aside : Aside x n) (shard : n.chain.shardID = k)
    (taken : Taken vm n e n') (passes : Passes k x e) : n'.chain.Forgotten x := by
  have same : ∀ {chain : Chain}, chain.view x = n.chain.view x → chain.Forgotten x :=
    fun view => Chain.forgotten_of_view view aside.forgotten
  cases taken with
  | ordered t idle involved =>
      refine same (Chain.view_noteOrder_of_ne fun own => ?_)
      exact passes own.symm (shard ▸ involved)
  | granted tx rest successful busy kind chain lock =>
      refine same (lock.view_of_ne fun own => ?_)
      exact aside.waiting tx (by simp [Node.outstanding_of_busy busy]) ⟨kind, own.symm⟩
  | refused tx rest successful busy kind chain lock result =>
      refine same (lock.others x fun own => ?_)
      exact aside.waiting tx (by simp [Node.outstanding_of_busy busy]) ⟨kind, own.symm⟩
  | applied tx rest successful busy kind free evm ran =>
      exact forgotten_of_below (n.chain.below_cleanupAfterExecution tx) aside.forgotten
  | _ => exact same rfl

/-- **One event.** -/
theorem Aside.step (aside : Aside x n) (shard : n.chain.shardID = k) (taken : Taken vm n e n')
    (passes : Passes k x e) (commits : e ≠ .commitError) : Aside x n' where
  forgotten := aside.forgotten_step shard taken passes
  waiting tx member :=
    (taken.mem_outstanding commits member).elim (aside.waiting tx) (Aside.added shard taken passes tx)
  queue tx member :=
    (taken.mem_currentTxs member).elim (aside.queue tx) (Aside.added shard taken passes tx)

/-- **Every run.**  A shard that no order of `x` involves has no data of `x`. -/
theorem hasData_of_uninvolved {evm : EVMState} {es : List Event}
    (reached : run (Shard.step vm) (Node.start k evm) es = some n)
    (commits : Event.commitError ∉ es)
    (uninvolved : ∀ t ∈ Shard.ordered es, t.id = x → k ∉ t.involvedShards) :
    n.chain.hasData x = false := by
  have aside : n.chain.shardID = k ∧ Aside x n := by
    refine run_preserves (P := fun e => Passes k x e ∧ e ≠ .commitError)
      (fun m => m.chain.shardID = k ∧ Aside x m) ?_ ⟨rfl, aside_start x k evm⟩ ?_ reached
    · rintro m e m' ⟨shard, aside⟩ ⟨passes, commits⟩ stepped
      have taken := taken_of_step stepped
      exact ⟨taken.shardID_eq.trans shard, aside.step shard taken passes commits⟩
    · intro e member
      refine ⟨?_, fun same => commits (same ▸ member)⟩
      cases e with
      | order t => exact uninvolved t (List.mem_filterMap.2 ⟨.order t, member, rfl⟩)
      | _ => trivial
  have forgotten := aside.2.forgotten
  simp [Chain.hasData, Chain.getLockedFunds, Chain.getPendingCredits, Chain.getPendingCall,
    Chain.getPendingRwSet, forgotten.locked, forgotten.pendingCredits, forgotten.pendingCalls,
    forgotten.pendingRwSets]

end Aside

/-! ## Blocks -/

/-- The transactions of the blocks of shard `k`, in the order of their execution. -/
def executionOrder (net : Cluster) (k : Int) : List Transaction :=
  (net.shards k).chain.blocks.flatMap StateShardBlock.txOrdering

theorem included_node (net : Cluster) (k : Int) :
    (net.shards k).node.included = executionOrder net k := List.append_nil _

/-! ## Regular runs -/

/-- A run without restarts and failed commits, in which no ID is added twice and the height does
not wrap. -/
structure Regular (E : Engines) (numShards : Nat) (evm : Int → EVMState) (as : List Action)
    (net : Cluster) : Prop where
  reached : run (Cluster.step E) (Cluster.start numShards evm) as = some net
  smooth : Smooth as
  distinct : net.service.chain.DistinctIDs
  bounded : net.service.chain.blocks.length ≤ 2 ^ 64

section Regular

variable {E : Engines} {numShards : Nat} {evm : Int → EVMState} {as : List Action} {net : Cluster}

theorem received_step {net net' : Cluster} {a : Action} (stepped : net.step E a = some net') :
    net.service.chain.received <+: net'.service.chain.received := by
  obtain ⟨ops, chain, -⟩ := service_step stepped
  rw [chain, (moves_after _ ops).received]
  exact List.prefix_append _ _

/-- The run up to an earlier state is regular too. -/
theorem Regular.before {a : Action} (regular : Regular E numShards evm (as ++ [a]) net) :
    ∃ mid, Regular E numShards evm as mid ∧ mid.step E a = some net := by
  obtain ⟨mid, early, stepped⟩ := run_concat_eq_some.1 regular.reached
  refine ⟨mid, ⟨early, fun b member => regular.smooth b (List.mem_append_left _ member), ?_, ?_⟩,
    stepped⟩
  · exact regular.distinct.sublist ((received_step stepped).sublist.map _)
  · exact (blocks_step stepped).length_le.trans regular.bounded

/-- The log of a regular run. -/
def Regular.log (regular : Regular E numShards evm as net) : Shard.Log where
  blocks := net.service.chain.blocks
  heights := by
    refine List.pairwise_map.2 ?_
    exact ((numbered_of_run regular.reached).rising regular.bounded).imp fun less => Nat.ne_of_lt less
  distinct := by
    have distinct := regular.distinct
    rw [OrchestratorChain.DistinctIDs, OrchestratorChain.received, List.map_append] at distinct
    exact (List.nodup_append.1 distinct).1

theorem Regular.eventsRun (regular : Regular E numShards evm as net) (k : Int) :
    run (Shard.step E.vm) (Node.start k (evm k))
      (eventsOf E (Cluster.start numShards evm) k as) = some (net.shards k).node :=
  eventsOf_run regular.smooth regular.reached k

theorem eq_deliver {k : Int} {a : Action} {block : OrchestratorShardBlock}
    (asked : .deliver block ∈ a.requestTo k) : a = .deliver k block := by
  cases a with
  | deliver shard block' =>
      simp only [Action.requestTo] at asked
      split at asked
      · rename_i same
        cases List.mem_singleton.1 asked
        rw [same]
      · cases asked
  | request shard txID req =>
      simp only [Action.requestTo] at asked
      split at asked <;> simp at asked
  | shardProduce shard commit =>
      cases commit with
      | none => cases asked
      | some stateRoot =>
          simp only [Action.requestTo] at asked
          split at asked <;> simp at asked
  | _ => cases asked

theorem listed_of_deliver {net net' : Cluster} {k : Int} {block : OrchestratorShardBlock}
    (stepped : net.step E (.deliver k block) = some net') : Listed net.service.chain block := by
  simp only [Cluster.step] at stepped
  split at stepped
  · rename_i sent
    exact sent.2
  · cases stepped

/-- Every delivered block is a block of the log. -/
theorem Regular.delivers (regular : Regular E numShards evm as net) (k : Int) :
    Delivers (Listed net.service.chain) (requestsTo k as) := by
  intro block member
  obtain ⟨a, acted, asked⟩ := List.mem_flatMap.1 member
  obtain ⟨pre, post, rfl⟩ := List.append_of_mem (eq_deliver asked ▸ acted)
  obtain ⟨mid, -, late⟩ := run_append_eq_some.1 regular.reached
  obtain ⟨mid', stepped, -⟩ := run_cons_eq_some.1 late
  exact (listed_of_deliver stepped).mono (blocks_run late)

/-- The blocks a shard has taken in are blocks of the log, in increasing height. -/
theorem Regular.takesIn (regular : Regular E numShards evm as net) (k : Int) :
    ∃ taken : List OrchestratorShardBlock, (∀ block ∈ taken, Listed net.service.chain block) ∧
      TakesIn (eventsOf E (Cluster.start numShards evm) k as) 0
        (net.shards k).chain.lastOrchestratorHeight taken := by
  refine Server.takesIn_history ?_ (regular.delivers k) (served_run regular.smooth regular.reached k)
  intro height block found
  rw [show ((Cluster.start numShards evm).shards k).blockBuffer.buffered = ∅ from rfl,
    FMap.get_empty] at found
  cases found

theorem Regular.ordered_subset (regular : Regular E numShards evm as net) (k : Int) :
    ∀ t ∈ Shard.ordered (eventsOf E (Cluster.start numShards evm) k as),
      t ∈ net.service.chain.orders := by
  intro t member
  obtain ⟨taken, listed, takes⟩ := regular.takesIn k
  rw [takes.orders] at member
  obtain ⟨block, known, inside⟩ := List.mem_flatMap.1 member
  obtain ⟨sent, logged, -, -, orders⟩ := listed block known
  exact List.mem_flatMap.2 ⟨sent, logged, orders ▸ inside⟩

theorem Regular.decided_of_decision (regular : Regular E numShards evm as net) {k : Int} {x : TxID}
    {commit : Bool}
    (member : (x, commit) ∈ decisions (eventsOf E (Cluster.start numShards evm) k as)) :
    net.service.chain.Decided x commit := by
  obtain ⟨taken, listed, takes⟩ := regular.takesIn k
  rw [takes.results] at member
  obtain ⟨block, known, inside⟩ := List.mem_flatMap.1 member
  obtain ⟨r, result, same⟩ := List.mem_map.1 inside
  cases same
  exact (listed block known).decided result

/-- Two ordered transactions with one ID are one. -/
theorem Regular.order_unique (regular : Regular E numShards evm as net) {t t' : CrossShardTx}
    (member : t ∈ net.service.chain.orders)
    (member' : t' ∈ net.service.chain.orders)
    (same : t.id = t'.id) : t = t' :=
  List.inj_on_of_nodup_map regular.log.distinct member member' same

/-- **The history of every shard is disciplined.** -/
theorem Regular.disciplined (regular : Regular E numShards evm as net) (k : Int) :
    Disciplined (eventsOf E (Cluster.start numShards evm) k as) := by
  obtain ⟨taken, listed, takes⟩ := regular.takesIn k
  refine ⟨?_, takes.commits⟩
  rw [takes.orders, List.map_flatMap, List.nodup_flatMap]
  constructor
  · intro block member
    obtain ⟨sent, logged, -, -, orders⟩ := listed block member
    exact orders ▸ regular.log.nodup_of_block logged
  · refine takes.rising.imp_of_mem fun {b b'} member member' less x inside inside' => ?_
    obtain ⟨sent, logged, height, -, orders⟩ := listed b member
    obtain ⟨sent', logged', height', -, orders'⟩ := listed b' member'
    have member : x ∈ sent.ctToOrder.map CrossShardTx.id := by
      rw [orders]
      exact inside
    have member' : x ∈ sent'.ctToOrder.map CrossShardTx.id := by
      rw [orders']
      exact inside'
    have same : sent = sent' := regular.log.block_unique logged logged' member member'
    rw [← height, ← height', same] at less
    exact lt_irrefl _ less

/-- **At a commit every involved shard has voted YES.** -/
theorem Regular.voted (regular : Regular E numShards evm as net) {x : TxID}
    (committed : net.service.chain.Committed x) :
    ∃ t ∈ net.service.chain.orders, t.id = x ∧
      ∀ k ∈ t.involvedShards, (net.shards k).node.VotedYes x := by
  obtain ⟨t, member, own, votes⟩ :=
    unanimous_of_committed regular.reached regular.distinct committed
  refine ⟨t, member, own, fun k involved => ?_⟩
  obtain ⟨pre, post, mid, rfl, early, block, listed, yes⟩ := votes k involved
  have late := run_rest early regular.reached
  have smooth : Smooth post := fun a later => regular.smooth a (List.mem_append_right _ later)
  exact votedYes_mono (eventsOf_run smooth late k) ⟨block, listed, yes⟩

/-- What a shard does for one request stands in the log before it. -/
theorem stands_of_request {c : OrchestratorChain} {s : Server} {simulate : Server.SimulateCall}
    {r : Shard.Request} (buffered : s.blockBuffer.All (Listed c))
    (delivered : ∀ block, r = .deliver block → Listed c block) :
    ∀ e ∈ s.requestEvents simulate r, Stands c e := by
  intro e member
  cases r with
  | deliver block =>
      exact stands_of_intake (buffered.processBlock (delivered block rfl)).1 s.chain e member
  | submit txID req =>
      obtain ⟨tx, -, rfl⟩ := List.mem_map.1 member
      trivial
  | produce stateRoot =>
      simp only [Server.requestEvents, produceEvents, List.mem_append, List.mem_cons, List.mem_map,
        List.not_mem_nil, or_false] at member
      rcases member with (rfl | ⟨tx, -, rfl⟩) | rfl <;> trivial

theorem stands_of_action {mid : Cluster} {a : Action}
    (early : run (Cluster.step E) (Cluster.start numShards evm) as = some mid)
    (stepped : mid.step E a = some net) (k : Int) :
    ∀ e ∈ (mid.shards k).history E.vm E.simulateCall (a.requestTo k),
      Stands mid.service.chain e := by
  intro e inside
  obtain ⟨r, single, member⟩ := history_requestTo _ _ _ k a inside
  refine stands_of_request (buffered_of_run early k) ?_ e member
  rintro block rfl
  have asked : .deliver block ∈ a.requestTo k := single ▸ List.mem_singleton_self _
  exact listed_of_deliver (eq_deliver asked ▸ stepped)

/-! ## Where an event of a shard stands in the run of the cluster -/

/-- The action in whose course shard `k` sees an event. -/
theorem Regular.split (regular : Regular E numShards evm as net) {k : Int} {es₁ es₂ : List Event}
    {e : Event} (split : eventsOf E (Cluster.start numShards evm) k as = es₁ ++ e :: es₂) :
    ∃ as₁ mid, Regular E numShards evm as₁ mid ∧
      mid.service.chain.blocks <+: net.service.chain.blocks ∧
      ∃ late, es₁ = eventsOf E (Cluster.start numShards evm) k as₁ ++ late ∧
        Stands mid.service.chain e ∧ ∀ e' ∈ late, Stands mid.service.chain e' := by
  induction as using List.reverseRecOn generalizing net es₂ with
  | nil =>
      have empty : eventsOf E (Cluster.start numShards evm) k [] = [] := rfl
      rw [empty] at split
      simp at split
  | append_singleton as a ih =>
      obtain ⟨mid, early, stepped⟩ := regular.before
      rw [eventsOf_concat early.smooth early.reached] at split
      have stands := stands_of_action early.reached stepped k
      rcases List.append_eq_append_iff.1 split with ⟨late, rfl, rest⟩ | ⟨rest, whole, tail⟩
      · rw [rest] at stands
        refine ⟨as, mid, early, blocks_step stepped, late, rfl, stands e (by simp), ?_⟩
        intro e' member
        exact stands e' (List.mem_append_left _ member)
      · cases rest with
        | nil =>
            rw [List.append_nil] at whole
            rw [List.nil_append] at tail
            refine ⟨as, mid, early, blocks_step stepped, [], by simp [whole], ?_,
              List.forall_mem_nil _⟩
            exact stands e (tail ▸ List.mem_cons_self)
        | cons e' rest =>
            cases tail
            obtain ⟨as₁, mid', early', grown, facts⟩ := ih early whole
            exact ⟨as₁, mid', early', grown.trans (blocks_step stepped), facts⟩

/-- What a shard has heard stands in the log. -/
theorem decided_of_verdict {mid : Cluster} {k : Int} {late : List Event} {x : TxID}
    (early : Regular E numShards evm as mid) (stands : ∀ e ∈ late, Stands mid.service.chain e)
    (decided : verdict (eventsOf E (Cluster.start numShards evm) k as ++ late) x ≠ none) :
    ∃ commit, mid.service.chain.Decided x commit := by
  obtain ⟨commit, found⟩ := Option.ne_none_iff_exists'.1 decided
  have member := verdict_mem found
  rw [decisions_append] at member
  refine ⟨commit, ?_⟩
  rcases List.mem_append.1 member with old | new
  · exact early.decided_of_decision old
  · obtain ⟨e, inside, same⟩ := List.mem_filterMap.1 new
    cases e with
    | decision x' commit' =>
        cases same
        exact stands _ inside
    | _ => cases same

/-- **Commits come after the vote.** -/
theorem Regular.votes (regular : Regular E numShards evm as net) (k : Int) :
    Along (Shard.step E.vm) CommittedAfterVote (Node.start k (evm k))
      (eventsOf E (Cluster.start numShards evm) k as) := by
  induction as using List.reverseRecOn generalizing net with
  | nil => trivial
  | append_singleton as a ih =>
      obtain ⟨mid, early, stepped⟩ := regular.before
      rw [eventsOf_concat early.smooth early.reached]
      refine (ih early).append (early.eventsRun k) (along_iff.2 ?_)
      intro pre e post s split reached
      cases e with
      | decision x commit =>
          cases commit with
          | false => trivial
          | true =>
              intro fresh
              have inside : Event.decision x true ∈
                  (mid.shards k).history E.vm E.simulateCall (a.requestTo k) := by
                rw [split]
                simp
              have committed : mid.service.chain.Decided x true :=
                stands_of_action early.reached stepped k _ inside
              obtain ⟨t, logged, own, voted⟩ := early.voted (.inr committed)
              by_cases involved : k ∈ t.involvedShards
              · exact .inl (votedYes_mono reached (voted k involved))
              · -- no order of `x` so far involves this shard
                have whole : eventsOf E (Cluster.start numShards evm) k (as ++ [a]) =
                    (eventsOf E (Cluster.start numShards evm) k as ++ pre) ++
                      .decision x true :: post := by
                  rw [eventsOf_concat early.smooth early.reached, split, List.append_assoc]
                have commits := (regular.disciplined k).commits
                have orders := regular.ordered_subset k
                rw [whole] at commits orders
                refine .inr (hasData_of_uninvolved
                  (run_append_eq_some.2 ⟨_, early.eventsRun k, reached⟩)
                  (fun member => commits (List.mem_append_left _ member)) ?_)
                intro t' member own'
                have same : t' = t := regular.order_unique
                  (orders t' (mem_ordered_append member _))
                  (OrchestratorChain.mem_orders_mono logged (blocks_step stepped)) (own'.trans own.symm)
                exact same ▸ involved
      | _ => trivial

/-- **Every shard runs as its guarantees assume.** -/
theorem Regular.prepared (regular : Regular E numShards evm as net)
    (reads : ∀ t ∈ net.service.chain.orders, WritesRead t) (k : Int) :
    Prepared k E.vm (evm k) (eventsOf E (Cluster.start numShards evm) k as) where
  disciplined := regular.disciplined k
  reads t member := reads t (regular.ordered_subset k t member)
  votes := regular.votes k

end Regular

end CrossShard.Network
