/-
# Shard.Provenance -- where everything a shard holds comes from

The history of a run is its list of events.  `ordered`, `decisions` and `executed` read it,
`verdict` is the decision that counts, the first one processed for an ID.

The *ledger* of a run is what was executed and what still waits.  Block production only
moves transactions from one part to the other, so the ledger grows by exactly what
decisions, orders and submissions queue (`ledger_perm`).

`Traced` is the invariant of every disciplined run: distinct ordered IDs, commits that
succeed.  Each queued or executed transaction is a local submission, the `Lock` of an
ordered transaction, an effect of a committed one or the cleanup of a decided one; each
`Lock` and each effect is queued at most once; and each record of the tables belongs to an
ordered transaction, whose `Lock` was executed if the record is a lock.
-/
import CrossShard.Shard.Machine

namespace CrossShard.Shard

set_option autoImplicit false

open CrossShard.Library CrossShard.Protocol
open Chain (debitTx creditTx writeSetTx finalizeTx crossTx lockTx ReadsSlot)

/-! ## Histories -/

def executed (es : List Event) : List Transaction :=
  es.filterMap fun
    | .execute tx => some tx
    | _ => none

def ordered (es : List Event) : List CrossShardTx :=
  es.filterMap fun
    | .order tx => some tx
    | _ => none

def decisions (es : List Event) : List (TxID × Bool) :=
  es.filterMap fun
    | .decision txID committed => some (txID, committed)
    | _ => none

/-- The decision of `txID` that was processed first. -/
def verdict (es : List Event) (txID : TxID) : Option Bool :=
  ((decisions es).find? fun d => d.1 = txID).map Prod.snd

@[simp] theorem executed_append (es fs : List Event) :
    executed (es ++ fs) = executed es ++ executed fs := List.filterMap_append ..

@[simp] theorem ordered_append (es fs : List Event) :
    ordered (es ++ fs) = ordered es ++ ordered fs := List.filterMap_append ..

@[simp] theorem decisions_append (es fs : List Event) :
    decisions (es ++ fs) = decisions es ++ decisions fs := List.filterMap_append ..

theorem verdict_append (es fs : List Event) (txID : TxID) :
    verdict (es ++ fs) txID = (verdict es txID).or (verdict fs txID) := by
  unfold verdict
  rw [decisions_append, List.find?_append]
  cases (decisions es).find? fun d => d.1 = txID <;> rfl

theorem verdict_mono {es : List Event} {txID : TxID} {committed : Bool}
    (decided : verdict es txID = some committed) (fs : List Event) :
    verdict (es ++ fs) txID = some committed := by
  rw [verdict_append, decided, Option.some_or]

theorem verdict_mem {es : List Event} {txID : TxID} {committed : Bool}
    (decided : verdict es txID = some committed) : (txID, committed) ∈ decisions es := by
  obtain ⟨⟨x, v⟩, found, rfl⟩ := Option.map_eq_some_iff.1 decided
  have same : x = txID := by simpa using List.find?_some found
  subst same
  exact List.mem_of_find?_eq_some found

/-- Distinct IDs are ordered, and every commit succeeds. -/
structure Disciplined (es : List Event) : Prop where
  distinct : ((ordered es).map CrossShardTx.id).Nodup
  commits : Event.commitError ∉ es

theorem Disciplined.of_append {es fs : List Event} (ok : Disciplined (es ++ fs)) :
    Disciplined es where
  distinct := by
    have all := ok.distinct
    rw [ordered_append, List.map_append] at all
    exact (List.nodup_append.1 all).1
  commits member := ok.commits (List.mem_append_left _ member)

/-- Two ordered transactions with one ID are the same one. -/
theorem Disciplined.unique {es : List Event} (ok : Disciplined es) {t t' : CrossShardTx}
    (member : t ∈ ordered es) (member' : t' ∈ ordered es) (same : t.id = t'.id) : t = t' :=
  List.inj_on_of_nodup_map ok.distinct member member' same

/-! ## The ledger -/

/-- What was executed, and what still waits. -/
def ledger (es : List Event) (n : Node) : List Transaction := executed es ++ n.outstanding

/-- What an event adds to the queue. -/
def added (n : Node) : Event → List Transaction
  | .decision txID committed =>
      if n.chain.isCommitProcessed txID then [] else n.chain.decisionTxs txID committed
  | .order tx =>
      if n.chain.shardID ∈ tx.involvedShards then [lockTx n.chain.shardID tx] else []
  | .submit tx => [tx]
  | _ => []

theorem currentTxs_noteOrder (c : Chain) (tx : CrossShardTx) :
    (c.noteOrder tx).currentTxs = c.currentTxs :=
  congrArg Chain.Steady.currentTxs (c.steady_noteOrder tx)

/-- An event adds to the end of the ledger, except that a block begins by sorting. -/
theorem ledger_cases {vm : VM} {n n' : Node} {e : Event} (es : List Event)
    (taken : Taken vm n e n') (ok : e ≠ .commitError) :
    ledger (es ++ [e]) n' = ledger es n ++ added n e ∨
      executed [e] = [] ∧ added n e = [] ∧
        n'.outstanding = byKey (fun tx => tx.txType.priority) n.outstanding := by
  have quiet : ∀ {m : Node}, m.outstanding = n.outstanding ++ added n e → executed [e] = [] →
      ledger (es ++ [e]) m = ledger es n ++ added n e := by
    intro m queue unexecuted
    simp only [ledger, executed_append, unexecuted, List.append_nil, queue, List.append_assoc]
  -- executing moves the head of the remaining work to the executed part
  have moved : ∀ {tx : Transaction} {rest successful : List Transaction} {m : Node},
      n.work = some ⟨tx :: rest, successful⟩ → m.outstanding = rest → e = .execute tx →
      ledger (es ++ [e]) m = ledger es n ++ added n e := by
    rintro tx rest successful m busy after rfl
    simp [ledger, executed, added, Node.outstanding_of_busy busy, after]
  cases taken with
  | stale txID committed idle processed => exact Or.inl (quiet (by simp [added, processed]) rfl)
  | decided txID committed idle fresh =>
      exact Or.inl (quiet (by simp [added, fresh, Node.outstanding, idle]) rfl)
  | ordered tx idle involved =>
      refine Or.inl (quiet ?_ rfl)
      simp [added, involved, Node.outstanding, idle, Chain.addTx, currentTxs_noteOrder]
  | passed tx idle foreign => exact Or.inl (quiet (by simp [added, foreign]) rfl)
  | advanced height idle =>
      refine Or.inl (quiet ?_ rfl)
      simp [added, Node.outstanding, idle, Chain.setLastOrchestratorHeight]
  | submitted tx idle kind unnamed =>
      exact Or.inl (quiet (by simp [added, Node.outstanding, idle, Chain.addTx]) rfl)
  | begun idle =>
      refine Or.inr ⟨rfl, rfl, ?_⟩
      rw [Node.outstanding_of_idle idle]
      rfl
  | skipped tx rest successful busy reason => exact Or.inl (moved busy rfl rfl)
  | granted tx rest successful busy kind chain lock => exact Or.inl (moved busy rfl rfl)
  | refused tx rest successful busy kind chain lock result => exact Or.inl (moved busy rfl rfl)
  | applied tx rest successful busy kind free evm ran => exact Or.inl (moved busy rfl rfl)
  | committed stateRoot successful busy =>
      exact Or.inl (quiet (by simp [added, Node.outstanding, busy, BlockState.finish]) rfl)
  | failed successful busy => exact absurd rfl ok

/-- **Production moves transactions, it neither adds nor loses any.** -/
theorem ledger_perm {vm : VM} {n n' : Node} {e : Event} (es : List Event)
    (taken : Taken vm n e n') (ok : e ≠ .commitError) :
    (ledger (es ++ [e]) n').Perm (ledger es n ++ added n e) := by
  rcases ledger_cases es taken ok with same | ⟨unexecuted, unadded, sorted⟩
  · rw [same]
  · rw [ledger, executed_append, unexecuted, unadded, sorted, List.append_nil, List.append_nil]
    exact (byKey_perm _ _).append_left (executed es)

/-- The transactions of one priority keep their order. -/
theorem filter_ledger {vm : VM} {n n' : Node} {e : Event} (es : List Event)
    (taken : Taken vm n e n') (ok : e ≠ .commitError) {p : Transaction → Bool} {priority : Nat}
    (same : ∀ tx, p tx = true → tx.txType.priority = priority) :
    (ledger (es ++ [e]) n').filter p = (ledger es n).filter p ++ (added n e).filter p := by
  rcases ledger_cases es taken ok with equal | ⟨unexecuted, unadded, sorted⟩
  · rw [equal, List.filter_append]
  · have stable := filter_byKey (fun tx : Transaction => tx.txType.priority) p
      (fun a b first second => (same a first).trans (same b second).symm) n.outstanding
    rw [ledger, executed_append, unexecuted, unadded, sorted, List.append_nil, List.filter_append,
      stable, ledger, List.filter_append, List.filter_nil, List.append_nil]

/-- What waits after an event waited before or was queued by it. -/
theorem Taken.mem_outstanding {vm : VM} {n n' : Node} {e : Event} (taken : Taken vm n e n')
    (ok : e ≠ .commitError) {tx : Transaction} (member : tx ∈ n'.outstanding) :
    tx ∈ n.outstanding ∨ tx ∈ added n e := by
  have later : tx ∈ ledger ([] ++ [e]) n' := List.mem_append_right _ member
  have before := (ledger_perm [] taken ok).mem_iff.1 later
  simpa [ledger, executed] using before

theorem Taken.mem_currentTxs {vm : VM} {n n' : Node} {e : Event} (taken : Taken vm n e n')
    {tx : Transaction} (member : tx ∈ n'.chain.currentTxs) :
    tx ∈ n.chain.currentTxs ∨ tx ∈ added n e := by
  have same : ∀ {chain : Chain}, chain.steady = n.chain.steady → tx ∈ chain.currentTxs →
      tx ∈ n.chain.currentTxs := fun {chain} steady member => by
    have queue : chain.currentTxs = n.chain.currentTxs := congrArg Chain.Steady.currentTxs steady
    rwa [queue] at member
  cases taken with
  | decided txID committed idle fresh => simpa [added, fresh] using member
  | ordered t idle involved =>
      simpa [added, involved, Chain.addTx, currentTxs_noteOrder] using member
  | submitted tx' idle kind unnamed => simpa [added, Chain.addTx] using member
  | granted tx' rest successful busy kind chain lock => exact Or.inl (same lock.steady member)
  | refused tx' rest successful busy kind chain lock result =>
      exact Or.inl (same lock.steady member)
  | applied tx' rest successful busy kind free evm ran =>
      exact Or.inl (same (n.chain.steady_cleanupAfterExecution tx') member)
  | committed stateRoot successful busy => cases member
  | _ => exact Or.inl member

/-- Inside block production the remaining work is in priority order. -/
def Sorted (n : Node) : Prop :=
  ∀ work, n.work = some work →
    work.remaining.Pairwise fun a b => a.txType.priority ≤ b.txType.priority

theorem Sorted.step {vm : VM} {n n' : Node} {e : Event} (sorted : Sorted n)
    (taken : Taken vm n e n') : Sorted n' := by
  intro work busy'
  have tail : ∀ {tx : Transaction} {rest successful successful' : List Transaction},
      n.work = some ⟨tx :: rest, successful⟩ → some (Work.mk rest successful') = some work →
      work.remaining.Pairwise fun a b => a.txType.priority ≤ b.txType.priority := by
    rintro tx rest successful successful' busy ⟨⟩
    exact (List.pairwise_cons.1 (sorted _ busy)).2
  cases taken with
  | begun idle =>
      cases busy'
      exact byKey_sorted (fun tx : Transaction => tx.txType.priority) _
  | skipped tx rest successful busy reason => exact tail busy busy'
  | granted tx rest successful busy kind chain lock => exact tail busy busy'
  | refused tx rest successful busy kind chain lock result => exact tail busy busy'
  | applied tx rest successful busy kind free evm ran => exact tail busy busy'
  | committed stateRoot successful busy => cases busy'
  | failed successful busy => cases busy'
  | _ => exact sorted work busy'

/-- What waits behind a transaction has at least its priority number. -/
theorem Sorted.priority_le {n : Node} (sorted : Sorted n) {tx tx' : Transaction}
    {rest successful : List Transaction} (busy : n.work = some ⟨tx :: rest, successful⟩)
    (member : tx' ∈ rest) : tx.txType.priority ≤ tx'.txType.priority :=
  (List.pairwise_cons.1 (sorted _ busy)).1 tx' member

/-! ## What may be queued -/

/-- `tx` is a `Lock` of `txID`. -/
def LockOf (txID : TxID) (tx : Transaction) : Prop :=
  tx.txType = .lock ∧ tx.crossShardTxID = txID

/-- The effects a commit of `t` has on one shard. -/
inductive Effect (shardID : Int) (t : CrossShardTx) : Transaction → Prop
  | debit (source : t.fromShard = shardID) :
      Effect shardID t (debitTx t.id ⟨t.fromAddr, toBigInt t.value⟩)
  | credit (home : shardOf t.toAddr = shardID) :
      Effect shardID t (creditTx t.id ⟨t.toAddr, toBigInt t.value⟩)
  | writeSet : Effect shardID t (writeSetTx t.id (t.localRwSet shardID))
  | finalize : Effect shardID t (finalizeTx t.id (t.localRwSet shardID))

/-- Why a transaction stands in the ledger of a run with history `es`. -/
inductive Queued (shardID : Int) (es : List Event) : Transaction → Prop
  | submission (tx : Transaction) (kind : tx.txType = .localTx) (unnamed : tx.crossShardTxID = "") :
      Queued shardID es tx
  | lock (t : CrossShardTx) (member : t ∈ ordered es) (involved : shardID ∈ t.involvedShards) :
      Queued shardID es (lockTx shardID t)
  | effect (t : CrossShardTx) (member : t ∈ ordered es) (committed : verdict es t.id = some true)
      (tx : Transaction) (caused : Effect shardID t tx) : Queued shardID es tx
  | unlock (txID : TxID) (committed : Bool) (decided : verdict es txID = some committed) :
      Queued shardID es (crossTx .unlock txID)
  | abort (txID : TxID) (aborted : verdict es txID = some false) :
      Queued shardID es (crossTx .crossAbort txID)

theorem Queued.mono {shardID : Int} {es : List Event} {tx : Transaction}
    (queued : Queued shardID es tx) (fs : List Event) : Queued shardID (es ++ fs) tx := by
  have later : ∀ {t}, t ∈ ordered es → t ∈ ordered (es ++ fs) := fun member => by
    rw [ordered_append]
    exact List.mem_append_left _ member
  cases queued with
  | submission _ kind unnamed => exact .submission _ kind unnamed
  | lock t member involved => exact .lock t (later member) involved
  | effect t member committed _ caused =>
      exact .effect t (later member) (verdict_mono committed fs) _ caused
  | unlock txID committed decided => exact .unlock txID committed (verdict_mono decided fs)
  | abort txID aborted => exact .abort txID (verdict_mono aborted fs)

/-- An effect is named after its transaction. -/
theorem Effect.id_eq {shardID : Int} {t : CrossShardTx} {tx : Transaction}
    (caused : Effect shardID t tx) : tx.crossShardTxID = t.id := by
  cases caused <;> rfl

/-- Only effects have the first priority. -/
theorem Queued.effect_of_priority {shardID : Int} {es : List Event} {tx : Transaction}
    (queued : Queued shardID es tx) (first : tx.txType.priority = 1) :
    ∃ t ∈ ordered es, verdict es t.id = some true ∧ Effect shardID t tx := by
  cases queued with
  | submission _ kind unnamed => simp [kind, TxType.priority] at first
  | lock t member involved => simp [lockTx, crossTx, TxType.priority] at first
  | effect t member committed _ caused => exact ⟨t, member, committed, caused⟩
  | unlock txID committed decided => simp [crossTx, TxType.priority] at first
  | abort txID aborted => simp [crossTx, TxType.priority] at first

/-- The type and the ID of a transaction. -/
def label (tx : Transaction) : TxType × TxID := (tx.txType, tx.crossShardTxID)

/-- The effects of a ledger, by type and ID. -/
def effectLabels (txs : List Transaction) : List (TxType × TxID) :=
  (txs.filter fun tx => tx.txType.priority = 1).map label

/-- Each record of the tables belongs to an ordered transaction, and each lock to one whose
`Lock` was executed. -/
structure Recorded (shardID : Int) (es : List Event) (c : Chain) : Prop where
  funds : ∀ txID lock, c.locked.get txID = some lock →
    ∃ t ∈ ordered es, t.id = txID ∧ t.fromShard = shardID ∧ 0 < toBigInt t.value ∧
      lock = ⟨t.fromAddr, toBigInt t.value⟩ ∧ lockTx shardID t ∈ executed es
  credits : ∀ txID credits, c.pendingCredits.get txID = some credits →
    ∃ t ∈ ordered es, t.id = txID ∧ shardOf t.toAddr = shardID ∧
      credits = [⟨t.toAddr, toBigInt t.value⟩]
  calls : ∀ txID t, c.pendingCalls.get txID = some t → t ∈ ordered es ∧ t.id = txID
  rwSets : ∀ txID rwSet, c.pendingRwSets.get txID = some rwSet →
    ∃ t ∈ ordered es, t.id = txID ∧ rwSet = t.localRwSet shardID ∧ lockTx shardID t ∈ executed es
  slots : ∀ a s txID, c.slotHolder a s = some txID →
    ∃ t ∈ ordered es, t.id = txID ∧ ReadsSlot (lockTx shardID t) a s ∧
      lockTx shardID t ∈ executed es

/-- **The invariant of disciplined runs.** -/
structure Traced (shardID : Int) (es : List Event) (n : Node) : Prop where
  shard : n.chain.shardID = shardID
  sorted : Sorted n
  marked : ∀ txID, n.chain.isCommitProcessed txID = (verdict es txID).isSome
  queued : ∀ tx ∈ ledger es n, Queued shardID es tx
  locks : ((ledger es n).filter fun tx => tx.txType = .lock).Perm
    (((ordered es).filter fun t => shardID ∈ t.involvedShards).map (lockTx shardID))
  effects : (effectLabels (ledger es n)).Nodup
  tables : Recorded shardID es n.chain

theorem traced_start (shardID : Int) (evm : EVMState) :
    Traced shardID [] (Node.start shardID evm) where
  shard := rfl
  sorted _ busy := by cases busy
  marked txID := by simp [Node.start, Chain.newChain, Chain.isCommitProcessed, verdict, decisions]
  queued tx member := by simp [ledger, executed, Node.outstanding, Node.start, Chain.newChain]
    at member
  locks := by simp [ledger, executed, ordered, Node.outstanding, Node.start, Chain.newChain]
  effects := by
    simp [ledger, executed, effectLabels, Node.outstanding, Node.start, Chain.newChain]
  tables := by constructor <;> simp [Node.start, Chain.newChain, Chain.slotHolder]

/-! ## The tables -/

theorem mem_ordered_append {es : List Event} {t : CrossShardTx} (member : t ∈ ordered es)
    (fs : List Event) : t ∈ ordered (es ++ fs) := by
  rw [ordered_append]
  exact List.mem_append_left _ member

theorem mem_executed_append {es : List Event} {tx : Transaction} (member : tx ∈ executed es)
    (fs : List Event) : tx ∈ executed (es ++ fs) := by
  rw [executed_append]
  exact List.mem_append_left _ member

/-- Removing records keeps the rest traced. -/
theorem Recorded.of_below {shardID : Int} {es : List Event} {c c' : Chain}
    (tables : Recorded shardID es c) (below : Chain.Below c' c) (fs : List Event) :
    Recorded shardID (es ++ fs) c' where
  funds txID lock found := by
    obtain ⟨t, member, facts⟩ := tables.funds txID lock (below.locked txID lock found)
    obtain ⟨id, source, positive, same, done⟩ := facts
    exact ⟨t, mem_ordered_append member fs, id, source, positive, same, mem_executed_append done fs⟩
  credits txID credits found := by
    rcases below.pendingCredits txID credits found with same | ⟨some_left, all, before, sub⟩
    · obtain ⟨t, member, facts⟩ := tables.credits txID credits (same ▸ found)
      exact ⟨t, mem_ordered_append member fs, facts⟩
    · -- what is left of the only credit is that credit
      obtain ⟨t, member, id, home, rfl⟩ := tables.credits txID all before
      refine ⟨t, mem_ordered_append member fs, id, home, ?_⟩
      exact (List.sublist_singleton.1 sub).resolve_left some_left
  calls txID t found := by
    obtain ⟨member, id⟩ := tables.calls txID t (below.pendingCalls txID t found)
    exact ⟨mem_ordered_append member fs, id⟩
  rwSets txID rwSet found := by
    obtain ⟨t, member, id, same, done⟩ :=
      tables.rwSets txID rwSet (below.pendingRwSets txID rwSet found)
    exact ⟨t, mem_ordered_append member fs, id, same, mem_executed_append done fs⟩
  slots a s txID held := by
    obtain ⟨t, member, id, reads, done⟩ := tables.slots a s txID (below.slots a s txID held)
    exact ⟨t, mem_ordered_append member fs, id, reads, mem_executed_append done fs⟩

/-- An order notes a credit and a call of its own transaction. -/
theorem Recorded.noteOrder {shardID : Int} {es : List Event} {c : Chain} {tx : CrossShardTx}
    (tables : Recorded shardID es c) (shard : c.shardID = shardID)
    (ok : Disciplined (es ++ [.order tx])) :
    Recorded shardID (es ++ [.order tx]) (c.noteOrder tx) := by
  have new : tx ∈ ordered (es ++ [.order tx]) := by simp [ordered]
  have unseen : ∀ t ∈ ordered es, t.id ≠ tx.id := by
    intro t member same
    have all := ok.distinct
    simp only [ordered_append, List.map_append] at all
    refine (List.nodup_append.1 all).2.2 t.id (List.mem_map_of_mem member) tx.id ?_ same
    simp [ordered]
  have old := tables.of_below (Chain.below_of_view fun _ => rfl) [.order tx]
  have others : ∀ x, x ≠ tx.id → (c.noteOrder tx).view x = c.view x :=
    fun x different => Chain.view_noteOrder_of_ne different
  refine ⟨?_, ?_, ?_, ?_, ?_⟩
  · rw [Chain.noteOrder_eq]
    exact old.funds
  · intro txID credits found
    by_cases own : txID = tx.id
    · subst own
      have none_before : c.pendingCredits.get tx.id = none := by
        cases before : c.pendingCredits.get tx.id with
        | none => rfl
        | some l =>
            obtain ⟨t, member, id, -⟩ := tables.credits _ l before
            exact absurd id (unseen t member)
      rw [Chain.get_pendingCredits_noteOrder, none_before] at found
      split at found
      · rename_i credited
        refine ⟨tx, new, rfl, credited.2.trans shard, ?_⟩
        simpa using found.symm
      · cases found
    · exact old.credits txID credits
        ((congrArg Chain.TxView.credits (others txID own)).symm.trans found)
  · intro txID t found
    by_cases own : txID = tx.id
    · subst own
      rw [Chain.get_pendingCalls_noteOrder] at found
      split at found
      · cases found
        exact ⟨new, rfl⟩
      · exact old.calls _ t found
    · exact old.calls txID t ((congrArg Chain.TxView.call (others txID own)).symm.trans found)
  · rw [Chain.noteOrder_eq]
    exact old.rwSets
  · rw [Chain.noteOrder_eq]
    exact old.slots

theorem toBigInt_lockTx_pos {shardID : Int} {t : CrossShardTx}
    (positive : 0 < toBigInt (lockTx shardID t).value) :
    t.fromShard = shardID ∧ toBigInt (lockTx shardID t).value = toBigInt t.value := by
  by_cases source : t.fromShard = shardID
  · exact ⟨source, by simp [lockTx, source]⟩
  · simp [lockTx, source, toBigInt] at positive

/-- A granted `Lock` records the funds, the read/write set and the slots of its own
transaction. -/
theorem Recorded.granted {shardID : Int} {es : List Event} {c c' : Chain} {evm : EVMState}
    {t : CrossShardTx} (tables : Recorded shardID es c) (member : t ∈ ordered es)
    (lock : Chain.Granted c evm (lockTx shardID t) c') :
    Recorded shardID (es ++ [.execute (lockTx shardID t)]) c' := by
  have done : lockTx shardID t ∈ executed (es ++ [.execute (lockTx shardID t)]) := by
    simp [executed]
  have member' := mem_ordered_append member [.execute (lockTx shardID t)]
  have old := tables.of_below (Chain.below_of_view fun _ => rfl) [.execute (lockTx shardID t)]
  refine ⟨fun txID found record => ?_, ?_, ?_, fun txID rwSet found => ?_, fun a s txID held => ?_⟩
  · rw [lock.chain] at record
    simp only [Chain.reserved] at record
    split at record
    · rename_i positive
      simp only [Chain.lockFunds, FMap.get_set] at record
      split at record
      · rename_i same
        cases record
        obtain ⟨source, value⟩ := toBigInt_lockTx_pos positive
        exact ⟨t, member', same.symm, source, value ▸ positive, by rw [value]; rfl, done⟩
      · exact old.funds txID found record
    · exact old.funds txID found record
  · rw [lock.chain, Chain.reserved_eq]
    exact old.credits
  · rw [lock.chain, Chain.reserved_eq]
    exact old.calls
  · rw [lock.chain] at found
    simp only [FMap.get_set] at found
    split at found
    · rename_i same
      cases found
      exact ⟨t, member', same.symm, rfl, done⟩
    · exact old.rwSets txID rwSet found
  · by_cases reads : ReadsSlot (lockTx shardID t) a s
    · rw [lock.taken a s reads] at held
      cases held
      exact ⟨t, member', rfl, reads, done⟩
    · rw [lock.kept a s reads] at held
      exact old.slots a s txID held

/-! ## What a decision queues -/

theorem mem_commitTxs {c : Chain} {txID : TxID} {tx : Transaction} :
    tx ∈ c.commitTxs txID ↔
      (∃ lock, c.locked.get txID = some lock ∧ tx = debitTx txID lock) ∨
      (∃ credits, c.pendingCredits.get txID = some credits ∧
        ∃ credit ∈ credits, tx = creditTx txID credit) ∨
      (∃ call, c.pendingCalls.get txID = some call ∧ call.localRwSet c.shardID ≠ [] ∧
        tx = writeSetTx txID (call.localRwSet c.shardID)) ∨
      ∃ rwSet, c.pendingRwSets.get txID = some rwSet ∧ rwSet ≠ [] ∧ tx = finalizeTx txID rwSet := by
  simp only [Chain.commitTxs, Chain.getLockedFunds, Chain.getPendingCredits, Chain.getPendingCall,
    Chain.getPendingRwSet, List.mem_append, List.mem_map, List.mem_filterMap, Option.mem_toList,
    or_assoc]
  refine or_congr ?_ (or_congr ?_ (or_congr ?_ ?_))
  · exact exists_congr fun lock => and_congr_right fun _ => eq_comm
  · cases c.pendingCredits.get txID <;> simp [eq_comm]
  · exact exists_congr fun call => and_congr_right fun _ => by
      split <;> rename_i empty <;> simp [empty, eq_comm]
  · exact exists_congr fun rwSet => and_congr_right fun _ => by
      split <;> rename_i empty <;> simp [empty, eq_comm]

/-- Everything a commit queues is an effect of the committed transaction. -/
theorem effect_of_mem_commitTxs {shardID : Int} {es : List Event} {c : Chain}
    (tables : Recorded shardID es c) (shard : c.shardID = shardID) {txID : TxID} {tx : Transaction}
    (member : tx ∈ c.commitTxs txID) : ∃ t ∈ ordered es, t.id = txID ∧ Effect shardID t tx := by
  rcases mem_commitTxs.1 member with ⟨lock, found, rfl⟩ | ⟨credits, found, credit, listed, rfl⟩ |
      ⟨call, found, -, rfl⟩ | ⟨rwSet, found, -, rfl⟩
  · obtain ⟨t, known, rfl, source, -, rfl, -⟩ := tables.funds txID lock found
    exact ⟨t, known, rfl, .debit source⟩
  · obtain ⟨t, known, rfl, home, rfl⟩ := tables.credits txID credits found
    rw [List.mem_singleton.1 listed]
    exact ⟨t, known, rfl, .credit home⟩
  · obtain ⟨known, rfl⟩ := tables.calls txID call found
    rw [shard]
    exact ⟨call, known, rfl, .writeSet⟩
  · obtain ⟨t, known, rfl, rfl, -⟩ := tables.rwSets txID rwSet found
    exact ⟨t, known, rfl, .finalize⟩

theorem effectLabels_append (txs txs' : List Transaction) :
    effectLabels (txs ++ txs') = effectLabels txs ++ effectLabels txs' := by
  simp [effectLabels]

/-- A commit queues each kind of effect at most once. -/
theorem nodup_effectLabels_commitTxs {shardID : Int} {es : List Event} {c : Chain}
    (tables : Recorded shardID es c) (txID : TxID) :
    (effectLabels (c.commitTxs txID)).Nodup := by
  have labels : (effectLabels (c.commitTxs txID)).Sublist
      ([(.crossDebit, txID)] ++ [(.crossCredit, txID)] ++ [(.crossWriteSet, txID)] ++
        [(.finalize, txID)]) := by
    simp only [Chain.commitTxs, effectLabels_append]
    refine ((List.Sublist.append ?_ ?_).append ?_).append ?_
    · cases c.getLockedFunds txID <;> simp [effectLabels, label, debitTx, crossTx, TxType.priority]
    · cases found : c.getPendingCredits txID with
      | none => simp [effectLabels]
      | some credits =>
          obtain ⟨t, -, -, -, rfl⟩ := tables.credits txID credits found
          simp [effectLabels, label, creditTx, crossTx, TxType.priority]
    · cases c.getPendingCall txID with
      | none => simp [effectLabels]
      | some call =>
          by_cases empty : call.localRwSet c.shardID = [] <;>
            simp [empty, effectLabels, label, writeSetTx, crossTx, TxType.priority]
    · cases c.getPendingRwSet txID with
      | none => simp [effectLabels]
      | some rwSet =>
          by_cases empty : rwSet = [] <;>
            simp [empty, effectLabels, label, finalizeTx, crossTx, TxType.priority]
  exact labels.nodup (by simp)

theorem mem_decisionTxs {c : Chain} {txID : TxID} {committed : Bool} {tx : Transaction}
    (member : tx ∈ c.decisionTxs txID committed) :
    (committed = true ∧ tx ∈ c.commitTxs txID) ∨
      (committed = false ∧ tx = crossTx .crossAbort txID) ∨ tx = crossTx .unlock txID := by
  unfold Chain.decisionTxs at member
  rcases List.mem_append.1 member with body | last
  · cases committed with
    | true => exact Or.inl ⟨rfl, body⟩
    | false =>
        simp only [Chain.abortTxs, Bool.false_eq_true, if_false] at body
        split at body
        · exact Or.inr (Or.inl ⟨rfl, List.mem_singleton.1 body⟩)
        · cases body
  · exact Or.inr (Or.inr (List.mem_singleton.1 last))

theorem effectLabels_decisionTxs (c : Chain) (txID : TxID) (committed : Bool) :
    effectLabels (c.decisionTxs txID committed) =
      if committed then effectLabels (c.commitTxs txID) else [] := by
  have unlock : effectLabels [crossTx .unlock txID] = [] := rfl
  unfold Chain.decisionTxs
  rw [effectLabels_append, unlock, List.append_nil]
  cases committed with
  | true => rfl
  | false =>
      simp only [Bool.false_eq_true, if_false, Chain.abortTxs]
      split <;> rfl

section Step

variable {shardID : Int} {vm : VM} {es : List Event} {e : Event} {n n' : Node}

theorem Traced.verdict_fresh (traced : Traced shardID es n) {txID : TxID} (committed : Bool)
    (fresh : n.chain.isCommitProcessed txID = false) :
    verdict (es ++ [.decision txID committed]) txID = some committed := by
  have open_before : verdict es txID = none := by
    have mark := traced.marked txID
    rw [fresh] at mark
    simpa using mark.symm
  rw [verdict_append, open_before]
  simp [verdict, decisions]

theorem Traced.added_queued (traced : Traced shardID es n) (taken : Taken vm n e n')
    {tx : Transaction} (member : tx ∈ added n e) : Queued shardID (es ++ [e]) tx := by
  cases taken with
  | stale txID committed idle processed => simp [added, processed] at member
  | decided txID committed idle fresh =>
      have final := traced.verdict_fresh committed fresh
      simp only [added, fresh, Bool.false_eq_true, if_false] at member
      rcases mem_decisionTxs member with ⟨rfl, effect⟩ | ⟨rfl, rfl⟩ | rfl
      · obtain ⟨t, known, rfl, caused⟩ := effect_of_mem_commitTxs traced.tables traced.shard effect
        exact .effect t (mem_ordered_append known _) final tx caused
      · exact .abort txID final
      · exact .unlock txID committed final
  | ordered tx' idle involved =>
      simp only [added, involved, if_true, List.mem_singleton] at member
      rw [traced.shard] at member involved
      subst member
      exact .lock tx' (by simp [ordered]) involved
  | passed tx' idle foreign => simp [added, foreign] at member
  | submitted tx' idle kind unnamed =>
      rw [List.mem_singleton.1 member]
      exact .submission tx' kind unnamed
  | _ => cases member

theorem filter_lock_decisionTxs {c : Chain} {txID : TxID} {committed : Bool} :
    (c.decisionTxs txID committed).filter (fun tx => tx.txType = .lock) = [] := by
  refine List.filter_eq_nil_iff.2 fun tx member => ?_
  rcases mem_decisionTxs member with ⟨-, effect⟩ | ⟨-, rfl⟩ | rfl
  · rcases mem_commitTxs.1 effect with ⟨_, -, rfl⟩ | ⟨_, -, _, -, rfl⟩ | ⟨_, -, -, rfl⟩ |
      ⟨_, -, -, rfl⟩ <;> simp [debitTx, creditTx, writeSetTx, finalizeTx, crossTx]
  · simp [crossTx]
  · simp [crossTx]

theorem Traced.added_locks (traced : Traced shardID es n) (taken : Taken vm n e n') :
    (added n e).filter (fun tx => tx.txType = .lock) =
      ((ordered [e]).filter fun t => shardID ∈ t.involvedShards).map (lockTx shardID) := by
  cases taken with
  | stale txID committed idle processed => simp [added, processed, ordered]
  | decided txID committed idle fresh =>
      simp only [added, fresh, Bool.false_eq_true, if_false]
      exact filter_lock_decisionTxs
  | ordered tx idle involved =>
      rw [traced.shard] at involved
      simp [added, ordered, traced.shard, involved, lockTx, crossTx]
  | passed tx idle foreign =>
      rw [traced.shard] at foreign
      simp [added, ordered, traced.shard, foreign]
  | submitted tx idle kind unnamed => simp [added, ordered, kind]
  | _ => rfl

theorem Traced.added_effects (traced : Traced shardID es n) (taken : Taken vm n e n') :
    (effectLabels (added n e)).Nodup ∧
      ∀ l ∈ effectLabels (added n e), n.chain.isCommitProcessed l.2 = false := by
  cases taken with
  | stale txID committed idle processed => simp [added, processed, effectLabels]
  | decided txID committed idle fresh =>
      simp only [added, fresh, Bool.false_eq_true, if_false, effectLabels_decisionTxs]
      cases committed with
      | false => simp
      | true =>
          refine ⟨nodup_effectLabels_commitTxs traced.tables txID, fun l member => ?_⟩
          obtain ⟨tx, listed, rfl⟩ := List.mem_map.1 member
          obtain ⟨t, -, rfl, caused⟩ := effect_of_mem_commitTxs traced.tables traced.shard
            (List.mem_of_mem_filter listed)
          rw [label, caused.id_eq]
          exact fresh
  | ordered tx idle involved =>
      simp [added, involved, effectLabels, lockTx, crossTx, TxType.priority]
  | passed tx idle foreign => simp [added, foreign, effectLabels]
  | submitted tx idle kind unnamed => simp [added, effectLabels, kind, TxType.priority]
  | _ => exact ⟨List.nodup_nil, List.forall_mem_nil _⟩

/-- What an event queues to run first comes from a commit. -/
theorem effect_of_mem_added (taken : Taken vm n e n') {tx : Transaction} (new : tx ∈ added n e)
    (first : tx.txType.priority = 1) :
    ∃ txID, e = .decision txID true ∧ n.chain.isCommitProcessed txID = false ∧
      tx ∈ n.chain.commitTxs txID := by
  cases taken with
  | stale txID committed idle processed => simp [added, processed] at new
  | decided txID committed idle fresh =>
      simp only [added, fresh, Bool.false_eq_true, if_false] at new
      rcases mem_decisionTxs new with ⟨rfl, effect⟩ | ⟨-, rfl⟩ | rfl
      · exact ⟨txID, rfl, fresh, effect⟩
      · cases first
      · cases first
  | ordered tx' idle involved =>
      simp only [added, involved, if_true, List.mem_singleton] at new
      subst new
      cases first
  | passed tx' idle foreign => simp [added, foreign] at new
  | submitted tx' idle kind unnamed =>
      rw [List.mem_singleton.1 new, kind] at first
      cases first
  | _ => cases new

theorem Taken.shardID_eq (taken : Taken vm n e n') : n'.chain.shardID = n.chain.shardID := by
  cases taken with
  | ordered tx idle involved => exact congrArg Chain.Steady.shardID (n.chain.steady_noteOrder tx)
  | granted tx rest successful busy kind chain lock =>
      exact congrArg Chain.Steady.shardID lock.steady
  | refused tx rest successful busy kind chain lock result =>
      exact congrArg Chain.Steady.shardID lock.steady
  | applied tx rest successful busy kind free evm ran =>
      exact congrArg Chain.Steady.shardID (n.chain.steady_cleanupAfterExecution tx)
  | _ => rfl

/-- Exactly a decision marks its transaction as processed. -/
theorem Taken.processed_eq (taken : Taken vm n e n') (txID : TxID) :
    n'.chain.isCommitProcessed txID =
      (n.chain.isCommitProcessed txID || (verdict [e] txID).isSome) := by
  have marks : ∀ {c c' : Chain}, c'.steady = c.steady →
      c'.isCommitProcessed txID = c.isCommitProcessed txID := fun {c c'} same => by
    show (c'.steady.processedCommits.get txID).getD false = _
    rw [same]
    rfl
  cases taken with
  | stale x committed idle processed =>
      by_cases same : x = txID
      · simp [← same, processed]
      · simp [verdict, decisions, same]
  | decided x committed idle fresh =>
      by_cases same : x = txID
      · simp [verdict, decisions, Chain.isCommitProcessed, same]
      · simp [verdict, decisions, Chain.isCommitProcessed, same, Ne.symm same]
  | ordered tx idle involved =>
      show (n.chain.noteOrder tx).isCommitProcessed txID = _
      simpa [verdict, decisions] using marks (n.chain.steady_noteOrder tx)
  | granted tx rest successful busy kind chain lock =>
      simpa [verdict, decisions] using marks lock.steady
  | refused tx rest successful busy kind chain lock result =>
      simpa [verdict, decisions] using marks lock.steady
  | applied tx rest successful busy kind free evm ran =>
      simpa [verdict, decisions] using marks (n.chain.steady_cleanupAfterExecution tx)
  | _ =>
      simp [verdict, decisions, Chain.isCommitProcessed, Chain.setLastOrchestratorHeight,
        Chain.addTx, BlockState.finish]

theorem Traced.tables_step (traced : Traced shardID es n) (taken : Taken vm n e n')
    (ok : Disciplined (es ++ [e])) : Recorded shardID (es ++ [e]) n'.chain := by
  cases taken with
  | ordered tx idle involved =>
      have noted := traced.tables.noteOrder traced.shard ok
      exact ⟨noted.funds, noted.credits, noted.calls, noted.rwSets, noted.slots⟩
  | granted tx rest successful busy kind chain lock =>
      have waiting : tx ∈ ledger es n := by simp [ledger, Node.outstanding_of_busy busy]
      cases traced.queued tx waiting with
      | lock t member involved => exact traced.tables.granted member lock
      | submission _ kind' unnamed => simp [kind] at kind'
      | effect t member committed _ caused => cases caused <;> cases kind
      | unlock txID committed decided => cases kind
      | abort txID aborted => cases kind
  | refused tx rest successful busy kind chain lock result =>
      exact traced.tables.of_below (Chain.below_of_forgotten lock.forgotten lock.others) _
  | applied tx rest successful busy kind free evm ran =>
      exact traced.tables.of_below (n.chain.below_cleanupAfterExecution tx) _
  | _ =>
      refine traced.tables.of_below ?_ _
      exact Chain.below_of_view fun _ => rfl

theorem Traced.step (traced : Traced shardID es n) (taken : Taken vm n e n')
    (ok : Disciplined (es ++ [e])) : Traced shardID (es ++ [e]) n' := by
  have grows := ledger_perm es taken fun same => ok.commits (by simp [same])
  refine ⟨taken.shardID_eq.trans traced.shard, traced.sorted.step taken, fun txID => ?_,
    fun tx member => ?_, ?_, ?_, traced.tables_step taken ok⟩
  · rw [taken.processed_eq, traced.marked, verdict_append, Option.isSome_or]
  · rcases List.mem_append.1 (grows.mem_iff.1 member) with old | new
    · exact (traced.queued tx old).mono [e]
    · exact traced.added_queued taken new
  · refine (grows.filter _).trans ?_
    rw [List.filter_append, traced.added_locks taken, ordered_append, List.filter_append,
      List.map_append]
    exact traced.locks.append_right _
  · obtain ⟨nodup, fresh⟩ := traced.added_effects taken
    refine (((grows.filter _).map label).nodup_iff).2 ?_
    show (effectLabels (ledger es n ++ added n e)).Nodup
    rw [effectLabels_append]
    refine List.nodup_append.2 ⟨traced.effects, nodup, fun l old l' new same => ?_⟩
    -- an effect in the old ledger is one of a transaction decided before
    obtain ⟨tx, listed, rfl⟩ := List.mem_map.1 old
    obtain ⟨member, first⟩ := List.mem_filter.1 listed
    obtain ⟨t, -, committed, caused⟩ :=
      (traced.queued tx member).effect_of_priority (by simpa using first)
    have processed := traced.marked tx.crossShardTxID
    rw [caused.id_eq, committed, ← caused.id_eq] at processed
    have unprocessed := fresh l' new
    rw [← same, label, processed] at unprocessed
    cases unprocessed

end Step

/-- In every run, disciplined or not, exactly the decided transactions are marked. -/
theorem marked_of_run {shardID : Int} {vm : VM} {evm : EVMState} {es : List Event} {n : Node}
    (reached : run (step vm) (Node.start shardID evm) es = some n) (txID : TxID) :
    n.chain.isCommitProcessed txID = (verdict es txID).isSome :=
  run_invariant (fun _ => True) (fun _ _ _ => trivial)
    (fun es n => n.chain.isCommitProcessed txID = (verdict es txID).isSome)
    ((traced_start shardID evm).marked txID)
    (fun es _ e _ _ _ marked stepped => by
      rw [(taken_of_step stepped).processed_eq, marked, verdict_append, Option.isSome_or])
    es n trivial reached

/-- **Every disciplined run is traced.** -/
theorem traced_of_run {shardID : Int} {vm : VM} {evm : EVMState} {es : List Event} {n : Node}
    (ok : Disciplined es) (reached : run (step vm) (Node.start shardID evm) es = some n) :
    Traced shardID es n :=
  run_invariant Disciplined (fun _ _ ok => ok.of_append) (Traced shardID)
    (traced_start shardID evm)
    (fun _ _ _ _ ok _ traced stepped => traced.step (taken_of_step stepped) ok) es n ok reached

/-! ## Consequences for the transaction about to execute -/

section Waiting

variable {shardID : Int} {es : List Event} {n : Node}

theorem mem_ledger_of_outstanding {tx : Transaction} (waiting : tx ∈ n.outstanding) :
    tx ∈ ledger es n := List.mem_append_right _ waiting

/-- A `Lock` in the ledger is the one of an ordered transaction. -/
theorem Traced.lock_of_kind (traced : Traced shardID es n) {tx : Transaction}
    (member : tx ∈ ledger es n) (kind : tx.txType = .lock) :
    ∃ t ∈ ordered es, shardID ∈ t.involvedShards ∧ tx = lockTx shardID t := by
  cases traced.queued tx member with
  | lock t known involved => exact ⟨t, known, involved, rfl⟩
  | submission _ kind' unnamed => simp [kind] at kind'
  | effect t known committed _ caused => cases caused <;> cases kind
  | unlock txID committed decided => cases kind
  | abort txID aborted => cases kind

/-- The `Lock` of a transaction is executed at most once. -/
theorem Traced.lock_not_executed (traced : Traced shardID es n) (ok : Disciplined es)
    {tx : Transaction} (waiting : tx ∈ n.outstanding) (kind : tx.txType = .lock) :
    tx ∉ executed es := by
  have once : ((ledger es n).filter fun tx => tx.txType = .lock).Nodup := by
    refine traced.locks.nodup_iff.2 (List.Nodup.of_map Transaction.crossShardTxID ?_)
    rw [List.map_map]
    exact ok.distinct.sublist (List.filter_sublist.map _)
  rw [ledger, List.filter_append, List.nodup_append] at once
  intro done
  exact once.2.2 tx (List.mem_filter.2 ⟨done, by simpa using kind⟩) tx
    (List.mem_filter.2 ⟨waiting, by simpa using kind⟩) rfl

/-- While its `Lock` waits, a transaction holds no lock. -/
theorem Traced.lock_fresh (traced : Traced shardID es n) (ok : Disciplined es)
    {tx : Transaction} (waiting : tx ∈ n.outstanding) (kind : tx.txType = .lock) :
    n.chain.locked.get tx.crossShardTxID = none ∧
      n.chain.pendingRwSets.get tx.crossShardTxID = none ∧
      ∀ a s, n.chain.slotHolder a s ≠ some tx.crossShardTxID := by
  obtain ⟨t, known, -, rfl⟩ := traced.lock_of_kind (mem_ledger_of_outstanding waiting) kind
  have unseen := traced.lock_not_executed ok waiting kind
  -- a record would name a transaction of the same ID whose `Lock` was executed
  have same : ∀ t' ∈ ordered es, t'.id = t.id → lockTx shardID t' ∉ executed es := by
    intro t' known' id
    rw [ok.unique known' known id]
    exact unseen
  refine ⟨Option.eq_none_iff_forall_ne_some.2 fun lock found => ?_,
    Option.eq_none_iff_forall_ne_some.2 fun rwSet found => ?_, fun a s held => ?_⟩
  · obtain ⟨t', known', id, -, -, -, done⟩ := traced.tables.funds _ lock found
    exact same t' known' id done
  · obtain ⟨t', known', id, -, done⟩ := traced.tables.rwSets _ rwSet found
    exact same t' known' id done
  · obtain ⟨t', known', id, -, done⟩ := traced.tables.slots a s _ held
    exact same t' known' id done

/-- An effect is queued once: what waits behind it has another type or another ID. -/
theorem Traced.effect_once (traced : Traced shardID es n) {tx tx' : Transaction}
    {rest successful : List Transaction} (busy : n.work = some ⟨tx :: rest, successful⟩)
    (member : tx' ∈ rest) (first : tx.txType.priority = 1) : label tx' ≠ label tx := by
  have once := traced.effects
  rw [ledger, Node.outstanding_of_busy busy, effectLabels_append] at once
  have tail := (List.nodup_append.1 once).2.1
  simp only [effectLabels, List.filter_cons, first, decide_true, if_true, List.map_cons,
    List.nodup_cons] at tail
  intro same
  refine tail.1 (same ▸ List.mem_map_of_mem (List.mem_filter.2 ⟨member, ?_⟩))
  have kind : tx'.txType = tx.txType := congrArg Prod.fst same
  simp [kind, first]

end Waiting

end CrossShard.Shard
