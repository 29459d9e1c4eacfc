/-
# Shard.Inclusion -- what stands in a shard's blocks

The blocks of a shard, and the block it is about to produce, list the transactions that were
executed with success, in the order of their execution.

* `included_split`: each of them was executed when exactly those before it were included.
* `yesLocked_of_run`: behind every YES stands an included `Lock`.
* `decided_before_lock`: a shard includes two `Lock`s with a common slot only if it heard the
  decision on the first before it executed the second.
-/
import CrossShard.Shard.Isolation

namespace CrossShard.Shard

set_option autoImplicit false

open CrossShard.Library CrossShard.Protocol
open Chain (lockTx readItems ReadsSlot)

/-! ## The blocks of a shard and its events -/

section Included

variable {vm : VM} {n n' : Node} {e : Event}

/-- An event includes nothing or the transaction it executes. -/
theorem Taken.included_cases (taken : Taken vm n e n') (commits : e ≠ .commitError) :
    n'.included = n.included ∨ ∃ tx, e = .execute tx ∧ n'.included = n.included ++ [tx] := by
  have grown : ∀ {chain : Chain} {evm : EVMState} {tx : Transaction} {rest successful},
      n.work = some ⟨tx :: rest, successful⟩ → chain.steady = n.chain.steady →
      Node.included ⟨chain, evm, some ⟨rest, successful ++ [tx]⟩⟩ = n.included ++ [tx] := by
    intro chain evm tx rest successful busy steady
    have blocks : chain.blocks = n.chain.blocks := congrArg Chain.Steady.blocks steady
    simp [Node.included, busy, blocks]
  cases taken with
  | granted tx rest successful busy kind chain lock =>
      exact .inr ⟨tx, rfl, grown busy lock.steady⟩
  | applied tx rest successful busy kind free evm ran =>
      exact .inr ⟨tx, rfl, grown busy (n.chain.steady_cleanupAfterExecution tx)⟩
  | refused tx rest successful busy kind chain lock result =>
      have blocks : chain.blocks = n.chain.blocks := congrArg Chain.Steady.blocks lock.steady
      left
      simp [Node.included, busy, blocks]
  | ordered t idle involved =>
      have blocks : (n.chain.noteOrder t).blocks = n.chain.blocks :=
        congrArg Chain.Steady.blocks (n.chain.steady_noteOrder t)
      left
      simp [Node.included, Chain.addTx, idle, blocks]
  | committed stateRoot successful busy =>
      left
      simp [Node.included, BlockState.finish, busy]
  | failed successful busy => exact absurd rfl commits
  | begun idle =>
      left
      simp [Node.included, idle]
  | skipped tx rest successful busy reason =>
      left
      simp [Node.included, busy]
  | _ => exact .inl rfl

theorem Taken.included_mono (taken : Taken vm n e n') (commits : e ≠ .commitError)
    {tx : Transaction} (member : tx ∈ n.included) : tx ∈ n'.included := by
  rcases taken.included_cases commits with same | ⟨tx', -, more⟩
  · exact same ▸ member
  · exact more ▸ List.mem_append_left _ member

theorem included_mono {es : List Event} (commits : Event.commitError ∉ es)
    (reached : run (step vm) n es = some n') {tx : Transaction} (member : tx ∈ n.included) :
    tx ∈ n'.included :=
  run_preserves (P := fun e => e ≠ .commitError) (fun m => tx ∈ m.included)
    (fun _ _ _ before clean stepped => (taken_of_step stepped).included_mono clean before) member
    (fun _ inside => ne_of_mem_of_not_mem inside commits) reached

/-- Included is what was executed, less what failed. -/
theorem included_sublist {k : Int} {evm : EVMState} {es : List Event}
    (commits : Event.commitError ∉ es)
    (reached : run (step vm) (Node.start k evm) es = some n) : n.included.Sublist (executed es) := by
  refine run_invariant (fun es => Event.commitError ∉ es)
    (fun _ _ clean member => clean (List.mem_append_left _ member))
    (fun es m => m.included.Sublist (executed es)) (List.Sublist.refl _) ?_ es n commits reached
  intro es m e m' clean before sub stepped
  rw [executed_append]
  rcases (taken_of_step stepped).included_cases (fun same => clean (by simp [same])) with
    same | ⟨tx, rfl, more⟩
  · rw [same]
    exact sub.trans (List.sublist_append_left _ _)
  · rw [more]
    exact sub.append (List.Sublist.refl _)

/-- **What a shard's blocks include was executed, in this order.** -/
theorem included_split {k : Int} {evm : EVMState} {es : List Event}
    (commits : Event.commitError ∉ es)
    (reached : run (step vm) (Node.start k evm) es = some n) {pre post : List Transaction}
    {tx : Transaction} (split : n.included = pre ++ tx :: post) :
    ∃ es₁ es₂ m m', es = es₁ ++ .execute tx :: es₂ ∧
      run (step vm) (Node.start k evm) es₁ = some m ∧ step vm m (.execute tx) = some m' ∧
      run (step vm) m' es₂ = some n ∧ m.included = pre ∧ m'.included = pre ++ [tx] := by
  induction es using List.reverseRecOn generalizing n post with
  | nil =>
      cases reached
      have empty : (Node.start k evm).included = [] := rfl
      rw [empty] at split
      simp at split
  | append_singleton es e ih =>
      obtain ⟨mid, early, stepped⟩ := run_concat_eq_some.1 reached
      have commits' : Event.commitError ∉ es := fun member => commits (List.mem_append_left _ member)
      have older : ∀ {post'}, mid.included = pre ++ tx :: post' → ∃ es₁ es₂ m m',
          es ++ [e] = es₁ ++ .execute tx :: es₂ ∧
            run (step vm) (Node.start k evm) es₁ = some m ∧ step vm m (.execute tx) = some m' ∧
            run (step vm) m' es₂ = some n ∧ m.included = pre ∧ m'.included = pre ++ [tx] := by
        intro post' split'
        obtain ⟨es₁, es₂, m, m', rfl, first, second, third, before, after⟩ :=
          ih commits' early split'
        exact ⟨es₁, es₂ ++ [e], m, m', by simp, first, second,
          run_concat_eq_some.2 ⟨mid, third, stepped⟩, before, after⟩
      have last : e ≠ .commitError := fun same => commits (by simp [same])
      rcases (taken_of_step stepped).included_cases last with same | ⟨tx', rfl, more⟩
      · exact older (same ▸ split)
      · rw [more] at split
        rcases List.eq_nil_or_concat post with rfl | ⟨post', tx'', rfl⟩
        · obtain ⟨rfl, single⟩ := List.append_inj' split rfl
          cases single
          exact ⟨es, [], mid, n, rfl, early, stepped, rfl, rfl, more⟩
        · rw [List.concat_eq_append, ← List.cons_append, ← List.append_assoc] at split
          exact older (List.append_inj' split rfl).1

/-- A `Lock` that enters the block was granted. -/
theorem granted_of_included {tx : Transaction} (kind : tx.txType = .lock)
    (stepped : step vm n (.execute tx) = some n') (more : n'.included = n.included ++ [tx]) :
    (n.chain.executeLock n.evm tx).2 = true ∧ ∃ chain, Chain.Granted n.chain n.evm tx chain := by
  rcases n.chain.executeLock_cases n.evm kind with ⟨c, result, lock⟩ | ⟨c, result, lock⟩
  · rw [result]
    exact ⟨rfl, c, lock⟩
  · exfalso
    obtain ⟨rest, successful, busy⟩ : ∃ rest successful, n.work = some ⟨tx :: rest, successful⟩ := by
      cases taken_of_step stepped <;> exact ⟨_, _, by assumption⟩
    have refused : BlockState.executeOne vm ⟨n.chain, n.evm, successful⟩ tx =
        some ⟨c, n.evm, successful⟩ := (Executed.refused kind c lock result).executeOne
    simp only [step, busy, if_true, refused, Option.map_some, Option.some.injEq] at stepped
    have blocks : c.blocks = n.chain.blocks := congrArg Chain.Steady.blocks lock.steady
    rw [← stepped] at more
    simp [Node.included, busy, blocks] at more

/-- The step that executed a transaction. -/
theorem executed_split {k : Int} {evm : EVMState} {es : List Event}
    (reached : run (step vm) (Node.start k evm) es = some n) {tx : Transaction}
    (done : tx ∈ executed es) : ∃ es₁ es₂ m m', es = es₁ ++ .execute tx :: es₂ ∧
      run (step vm) (Node.start k evm) es₁ = some m ∧ Taken vm m (.execute tx) m' ∧
      run (step vm) m' es₂ = some n := by
  obtain ⟨e, member, found⟩ := List.mem_filterMap.1 done
  cases e with
  | execute tx' =>
      cases found
      obtain ⟨es₁, es₂, rfl⟩ := List.append_of_mem member
      obtain ⟨m, early, late⟩ := run_append_eq_some.1 reached
      obtain ⟨m', stepped, rest⟩ := run_cons_eq_some.1 late
      exact ⟨es₁, es₂, m, m', rfl, early, taken_of_step stepped, rest⟩
  | _ => cases found

end Included

/-! ## Votes and the blocks they stand on -/

/-- A YES is older than the event, or the event grants its `Lock`. -/
theorem Taken.vote_cases {vm : VM} {n n' : Node} {e : Event} (taken : Taken vm n e n') {x : TxID}
    (vote : n'.chain.prepares.get x = some true ∨ n'.VotedYes x) :
    (n.chain.prepares.get x = some true ∨ n.VotedYes x) ∨
      ∃ tx, e = .execute tx ∧ LockOf x tx ∧ Chain.Granted n.chain n.evm tx n'.chain ∧
        tx ∈ n'.included := by
  have blocks : n'.chain.blocks = n.chain.blocks → n'.VotedYes x → n.VotedYes x := by
    rintro same ⟨block, member, yes⟩
    exact ⟨block, same ▸ member, yes⟩
  cases taken with
  | ordered t idle involved =>
      refine .inl (vote.imp (fun yes => ?_)
        (blocks (congrArg Chain.Steady.blocks (n.chain.steady_noteOrder t))))
      change (n.chain.noteOrder t).prepares.get x = some true at yes
      rwa [Chain.noteOrder_eq] at yes
  | granted tx rest successful busy kind chain lock =>
      have same : chain.blocks = n.chain.blocks := congrArg Chain.Steady.blocks lock.steady
      by_cases own : tx.crossShardTxID = x
      · exact .inr ⟨tx, rfl, ⟨kind, own⟩, lock, by simp [Node.included]⟩
      · refine .inl (vote.imp (fun yes => ?_) (blocks same))
        change chain.prepares.get x = some true at yes
        rw [lock.chain] at yes
        dsimp only at yes
        split at yes
        · exact yes
        · rwa [FMap.get_set, if_neg (Ne.symm own)] at yes
  | refused tx rest successful busy kind chain lock result =>
      refine .inl (vote.imp (fun yes => ?_)
        (blocks (congrArg Chain.Steady.blocks lock.steady)))
      change chain.prepares.get x = some true at yes
      rw [lock.vote, FMap.get_set] at yes
      split at yes
      · cases yes
      · exact yes
  | applied tx rest successful busy kind free evm ran =>
      refine .inl (vote.imp (fun yes => ?_)
        (blocks (congrArg Chain.Steady.blocks (n.chain.steady_cleanupAfterExecution tx))))
      change (n.chain.cleanupAfterExecution tx).prepares.get x = some true at yes
      rwa [n.chain.prepares_cleanupAfterExecution kind] at yes
  | committed stateRoot successful busy =>
      rcases vote with yes | ⟨block, member, yes⟩
      · simp [BlockState.finish] at yes
      · rcases List.mem_append.1 member with earlier | new
        · exact .inl (.inr ⟨block, earlier, yes⟩)
        · rw [List.mem_singleton.1 new] at yes
          exact .inl (.inl yes)
  | _ => exact .inl vote

/-- Every YES, cast or about to be cast, goes with an included `Lock`. -/
def YesLocked (n : Node) : Prop :=
  ∀ x, n.chain.prepares.get x = some true ∨ n.VotedYes x → ∃ tx ∈ n.included, LockOf x tx

theorem YesLocked.step {vm : VM} {n n' : Node} {e : Event} (locked : YesLocked n)
    (taken : Taken vm n e n') (commits : e ≠ .commitError) : YesLocked n' := by
  intro x vote
  rcases taken.vote_cases vote with before | ⟨tx, -, lock, -, inside⟩
  · obtain ⟨tx, member, lock⟩ := locked x before
    exact ⟨tx, taken.included_mono commits member, lock⟩
  · exact ⟨tx, inside, lock⟩

theorem yesLocked_of_run {vm : VM} {k : Int} {evm : EVMState} {es : List Event} {n : Node}
    (commits : Event.commitError ∉ es)
    (reached : run (step vm) (Node.start k evm) es = some n) : YesLocked n := by
  refine run_preserves (P := fun e => e ≠ .commitError) YesLocked
    (fun m e m' locked clean stepped => locked.step (taken_of_step stepped) clean) ?_
    (fun e member => ne_of_mem_of_not_mem member commits) reached
  rintro x (yes | ⟨block, member, yes⟩)
  · simp [Node.start, Chain.newChain] at yes
  · rw [List.mem_singleton.1 member] at yes
    simp at yes

/-- **A conflicting `Lock` waits for the decision.**  Before a shard grants the `Lock` of `t` it has
heard the decision on each `s` that was granted a common slot earlier. -/
theorem decided_before_lock {k : Int} {vm : VM} {evm : EVMState} {es : List Event} {n : Node}
    (confined : StorageConfined vm) (prepared : Prepared k vm evm es)
    (reached : run (step vm) (Node.start k evm) es = some n) {s t : CrossShardTx}
    (different : s.id ≠ t.id) {a : Address} {slot : Hash} (reads : ReadsSlot (lockTx k s) a slot)
    (reads' : ReadsSlot (lockTx k t) a slot)
    (order : [lockTx k s, lockTx k t].Sublist n.included) :
    ∃ es₁ es₂, es = es₁ ++ .execute (lockTx k t) :: es₂ ∧ verdict es₁ s.id ≠ none := by
  obtain ⟨front, back, whole, first, second⟩ := List.cons_sublist_iff.1 order
  obtain ⟨between, post, rfl⟩ := List.append_of_mem (List.singleton_sublist.1 second)
  rw [← List.append_assoc] at whole
  obtain ⟨es₁, es₂, m, m', rfl, early, stepped, -, before, after⟩ :=
    included_split prepared.disciplined.commits reached whole
  refine ⟨es₁, es₂, rfl, fun undecided => ?_⟩
  have prepared₁ := prepared.of_append
  obtain ⟨-, c, granted⟩ := granted_of_included rfl stepped (after.trans (before ▸ rfl))
  obtain ⟨pre, post', split⟩ := List.append_of_mem
    (before ▸ List.mem_append_left between first : lockTx k s ∈ m.included)
  obtain ⟨fs₁, fs₂, p, p', rfl, start, stepped', -, before', after'⟩ :=
    included_split prepared₁.disciplined.commits early split
  have success := (granted_of_included rfl stepped' (after'.trans (before' ▸ rfl))).1
  -- nothing has closed `s`, so the slot is still held for it
  have held : Held k m s := by
    refine held_of_granted confined prepared₁ start success (fun tx done closes => ?_) early
    have done' : tx ∈ executed (fs₁ ++ .execute (lockTx k s) :: fs₂) := by
      rw [executed_append]
      exact List.mem_append_right _ (List.mem_cons_of_mem _ done)
    obtain ⟨gs₁, gs₂, q, q', same, reached', taken, -⟩ := executed_split early done'
    rw [same] at prepared₁ undecided
    refine (traced_of_run prepared₁.disciplined.of_append reached').not_closes taken.waits ?_ closes
    rw [verdict_append, Option.or_eq_none_iff] at undecided
    exact undecided.1
  obtain ⟨item, listed, rfl, rfl⟩ := reads
  exact different (granted.free _ _ reads' _ (held.slots item listed))

end CrossShard.Shard
