/-
# Shard.Routing -- which calls a shard may execute alone

`SimulateCall` runs a contract call on the state of one shard, wrapped in a `TrackingStateDB` that
records every account the call touches, and takes all changes back.  `handleTxSubmit` queues the
call as a local transaction if no account of another shard was touched, and forwards it to the
orchestrator otherwise.  In the state of one shard the accounts of the others are empty or stale,
so the simulation may be wrong from the first such account on.

`gathered` is the state that no shard has: each account as its home shard has it.  The wrapped
`StateDB` is modelled account by account (`AccountOps`): a method reads and changes the account it
is called with and the data of the transaction, and snapshots save all of it.

* `runOn_same`, `runOn_meet`: two states with the same accounts at home give the same run up to
  the first account elsewhere, which both runs touch.
* `simulateCall_restores`: the simulation leaves the state as it was.
* `routing_is_exact`: a call that is queued is, on the gathered state, a call of this shard alone;
  a call that is forwarded for its accesses does leave the shard.
* `queued_call_leaves_later`: the choice is made at submission and may be stale at execution.

The tables of slots that the wrapper keeps are in `Shard.Tracking`.
-/
import CrossShard.Library.Revisions
import CrossShard.Orchestrator.Simulator
import CrossShard.Shard.Submission

namespace CrossShard.Shard

set_option autoImplicit false

open CrossShard.Library CrossShard.Protocol
open CrossShard.Orchestrator (DBOp DBValue Program EvmCall CallResult)

/-! ## The wrapped state, account by account -/

/-- What a method of the `StateDB` works on. -/
inductive Scope where
  | account (addr : Address)
  | transaction
  | snapshot
  | revert (revid : Nat)
  deriving DecidableEq

/-- The methods of an account are those in which the wrapper calls `recordAccess`. -/
def scope : DBOp → Scope
  | .createAccount addr | .createContract addr | .getBalance addr | .subBalance addr _
  | .addBalance addr _ | .getNonce addr | .setNonce addr _ | .getCodeHash addr | .getCode addr
  | .setCode addr _ | .getCodeSize addr | .getState addr _ | .getStateAndCommittedState addr _
  | .setState addr _ _ | .getStorageRoot addr | .getTransientState addr _
  | .setTransientState addr _ _ | .selfDestruct addr | .hasSelfDestructed addr
  | .selfDestruct6780 addr | .exist addr | .empty addr => .account addr
  | .addRefund _ | .subRefund _ | .getRefund | .addressInAccessList _ | .slotInAccessList _ _
  | .addAddressToAccessList _ | .addSlotToAccessList _ _ | .prepare _ _ _ _ _
  | .addLog _ => .transaction
  | .snapshot => .snapshot
  | .revertToSnapshot revid => .revert revid

def Scope.account? : Scope → Option Address
  | .account addr => some addr
  | _ => none

/-- The virtual machine library: accounts, and the data of a transaction that belong to no account
(refund, access list, logs).  `load` is an account as the shard has it. -/
structure AccountOps (Account Scratch : Type) where
  load : U256 → (Hash → Hash) → Bytes → Account
  fresh : Scratch
  onAccount : DBOp → Account → Scratch → DBValue × Account × Scratch
  onTransaction : DBOp → Scratch → DBValue × Scratch

/-- All accounts and the data of the transaction. -/
abbrev Accounts (Account Scratch : Type) := (Address → Account) × Scratch

/-- One execution: the calls with the values they returned, the result with the final state.  No
result is the panic of `RevertToSnapshot`. -/
structure Course (α Account Scratch : Type) where
  trace : List (DBOp × DBValue)
  outcome : Option (α × Revisions (Accounts Account Scratch))

def Course.touched {α Account Scratch : Type} (c : Course α Account Scratch) : List Address :=
  c.trace.filterMap fun e => (scope e.1).account?

/-- `TrackingStateDB`, as far as accounts go. -/
structure AccessTracker (Account Scratch : Type) where
  inner : Revisions (Accounts Account Scratch)
  accessedAddrs : AList fun _ : Address => Unit

variable {α Account Scratch : Type}

namespace AccessTracker

def recordAccess (t : AccessTracker Account Scratch) : Scope → AList fun _ : Address => Unit
  | .account addr => t.accessedAddrs.insert addr ()
  | _ => t.accessedAddrs

def getAccessedAddresses (t : AccessTracker Account Scratch) : List Address := t.accessedAddrs.keys

def hasCrossShardAccess (t : AccessTracker Account Scratch) (localShardID : Int) : Bool :=
  t.accessedAddrs.keys.any fun addr => shardOf addr ≠ localShardID

end AccessTracker

namespace AccountOps

variable (A : AccountOps Account Scratch)

def access (op : DBOp) (addr : Address) (s : Accounts Account Scratch) :
    DBValue × Accounts Account Scratch :=
  let (value, acct, scratch) := A.onAccount op (s.1 addr) s.2
  (value, Function.update s.1 addr acct, scratch)

/-- One call of a `StateDB` method; `none` is a panic. -/
def exec (live : Revisions (Accounts Account Scratch)) (op : DBOp) :
    Option (DBValue × Revisions (Accounts Account Scratch)) :=
  match scope op with
  | .account addr =>
      some ((A.access op addr live.current).1, live.modify fun s => (A.access op addr s).2)
  | .transaction =>
      some ((A.onTransaction op live.current.2).1,
        live.modify fun s => (s.1, (A.onTransaction op s.2).2))
  | .snapshot => some (.uint live.snapshot.1, live.snapshot.2)
  | .revert revid => (live.revertTo revid).map fun live' => (.unit, live')

def runOn : Program α → Revisions (Accounts Account Scratch) → Course α Account Scratch
  | .done result, live => ⟨[], some (result, live)⟩
  | .call op next, live =>
      match A.exec live op with
      | none => ⟨[], none⟩
      | some (value, live') =>
          let rest := runOn (next value) live'
          ⟨(op, value) :: rest.trace, rest.outcome⟩

/-- The same through the wrapper. -/
def track : Program α → AccessTracker Account Scratch → Option (α × AccessTracker Account Scratch)
  | .done result, t => some (result, t)
  | .call op next, t =>
      match A.exec t.inner op with
      | none => none
      | some (value, inner) => track (next value) ⟨inner, t.recordAccess (scope op)⟩

def accounts (e : EVMState) : Address → Account :=
  fun addr => A.load (e.balance addr) (e.storage addr) (e.code addr)

/-- The state of a shard between transactions; `next` is the next snapshot number. -/
def live (e : EVMState) (next : Nat) : Revisions (Accounts Account Scratch) :=
  .start (A.accounts e, A.fresh) next

/-- `SimulateCall`: its report, and the state after it.  `none` is a panic, of `MustFromBig` or of
`RevertToSnapshot`. -/
def simulateCall (call : EvmCall) (live : Revisions (Accounts Account Scratch))
    (caller contract : Address) (input : Bytes) (value : Int) (gas : Nat) (localShardID : Int) :
    Option (Except String (List Address × Bool) × Revisions (Accounts Account Scratch)) := do
  let amount ← mustFromBig value
  let (result, t) ← A.track (call caller contract input gas amount) ⟨live.snapshot.2, ∅⟩
  let after ← t.inner.revertTo live.snapshot.1
  match result.err with
  | some err => some (.error err, after)
  | none => some (.ok (t.getAccessedAddresses, t.hasCrossShardAccess localShardID), after)

/-- The state with the snapshot that `SimulateCall` takes before the call. -/
def opened (e : EVMState) (next : Nat) : Revisions (Accounts Account Scratch) :=
  (A.live e next).snapshot.2

end AccountOps

/-- Each account as its home shard has it. -/
def gathered (states : Int → EVMState) : EVMState where
  balance := fun addr => (states (shardOf addr)).balance addr
  storage := fun addr => (states (shardOf addr)).storage addr
  code := fun addr => (states (shardOf addr)).code addr

/-! ## Two states with the same accounts at home -/

section TwoRuns

variable {A : AccountOps Account Scratch} {own : Address → Prop}

/-- The same accounts at home, and the same data of the transaction. -/
def SameAt (own : Address → Prop) (s s' : Accounts Account Scratch) : Prop :=
  (∀ addr, own addr → s.1 addr = s'.1 addr) ∧ s.2 = s'.2

theorem SameAt.access {s s' : Accounts Account Scratch} (same : SameAt own s s') (op : DBOp)
    {addr : Address} (home : own addr) :
    (A.access op addr s).1 = (A.access op addr s').1 ∧
      SameAt own (A.access op addr s).2 (A.access op addr s').2 := by
  have equal : A.onAccount op (s.1 addr) s.2 = A.onAccount op (s'.1 addr) s'.2 := by
    rw [same.1 addr home, same.2]
  refine ⟨congrArg (·.1) equal, fun other here => ?_, congrArg (·.2.2) equal⟩
  by_cases hit : other = addr
  · subst hit
    simp only [AccountOps.access, Function.update_self, equal]
  · simp only [AccountOps.access, Function.update_of_ne hit, same.1 other here]

/-- One call at home returns the same and keeps the states the same at home. -/
theorem exec_same {r r' : Revisions (Accounts Account Scratch)} (same : r.Rel (SameAt own) r')
    {op : DBOp} (home : ∀ addr, (scope op).account? = some addr → own addr) :
    Option.Rel (fun a b => a.1 = b.1 ∧ a.2.Rel (SameAt own) b.2) (A.exec r op) (A.exec r' op) := by
  unfold AccountOps.exec
  cases works : scope op with
  | account addr =>
      rw [works] at home
      have both := same.current.access (A := A) op (home addr rfl)
      have kept : (r.modify fun s => (A.access op addr s).2).Rel (SameAt own)
          (r'.modify fun s => (A.access op addr s).2) := same.modify both.2
      exact .some ⟨both.1, kept⟩
  | transaction =>
      have scratch := same.current.2
      have kept : (r.modify fun s => (s.1, (A.onTransaction op s.2).2)).Rel (SameAt own)
          (r'.modify fun s => (s.1, (A.onTransaction op s.2).2)) :=
        same.modify ⟨same.current.1, by rw [scratch]⟩
      exact .some ⟨by rw [scratch], kept⟩
  | snapshot => exact .some ⟨congrArg DBValue.uint same.next, same.snapshot⟩
  | revert revid =>
      have back := same.revertTo revid
      dsimp only
      generalize r.revertTo revid = left, r'.revertTo revid = right at back ⊢
      cases back with
      | none => exact .none
      | some kept => exact .some ⟨rfl, kept⟩

theorem touched_cons {op : DBOp} {value : DBValue} {rest : List (DBOp × DBValue)}
    {outcome : Option (α × Revisions (Accounts Account Scratch))} {addr : Address} :
    addr ∈ Course.touched ⟨(op, value) :: rest, outcome⟩ ↔
      (scope op).account? = some addr ∨ addr ∈ Course.touched ⟨rest, outcome⟩ := by
  unfold Course.touched
  cases here : (scope op).account? with
  | none => simp [here]
  | some a => simp [here, eq_comm]

/-- **A run that stays at home** is the same from every state with these accounts. -/
theorem runOn_same (p : Program α) : ∀ r r' : Revisions (Accounts Account Scratch),
    r.Rel (SameAt own) r' → (∀ addr ∈ (A.runOn p r).touched, own addr) →
    (A.runOn p r').trace = (A.runOn p r).trace ∧
      Option.Rel (fun a b => a.1 = b.1 ∧ a.2.Rel (SameAt own) b.2) (A.runOn p r).outcome
        (A.runOn p r').outcome := by
  induction p with
  | done result => exact fun r r' same _ => ⟨rfl, .some ⟨rfl, same⟩⟩
  | call op next ih =>
      intro r r' same home
      simp only [AccountOps.runOn] at home ⊢
      cases stepped : A.exec r op with
      | none =>
          -- only a revert panics, and it panics in both
          have nowhere : ∀ addr, (scope op).account? = some addr → own addr := by
            intro addr at'
            unfold AccountOps.exec at stepped
            cases works : scope op with
            | account a =>
                rw [works] at stepped
                cases stepped
            | transaction | snapshot | revert _ =>
                rw [works] at at'
                cases at'
          have both := exec_same (A := A) same nowhere
          rw [stepped] at both
          cases panics : A.exec r' op with
          | none => exact ⟨rfl, .none⟩
          | some next' =>
              rw [panics] at both
              cases both
      | some reached =>
          obtain ⟨value, live⟩ := reached
          simp only [stepped, touched_cons] at home ⊢
          have both := exec_same (A := A) same fun addr at' => home addr (.inl at')
          rw [stepped] at both
          obtain ⟨⟨value', live'⟩, there, rfl, kept⟩ := exists_of_rel_some both
          obtain ⟨trace, outcome⟩ := ih value live live' kept fun addr later => home addr (.inr later)
          simp only [there]
          exact ⟨by rw [trace], outcome⟩

/-- **A run that leaves home** does so from every state with these accounts, and first at the same
account. -/
theorem runOn_meet (p : Program α) : ∀ r r' : Revisions (Accounts Account Scratch),
    r.Rel (SameAt own) r' → (∃ addr ∈ (A.runOn p r).touched, ¬own addr) →
    ∃ addr ∈ (A.runOn p r).touched, ¬own addr ∧ addr ∈ (A.runOn p r').touched := by
  induction p with
  | done result =>
      rintro r r' - ⟨addr, member, -⟩
      cases member
  | call op next ih =>
      rintro r r' same ⟨addr, member, away⟩
      simp only [AccountOps.runOn] at member ⊢
      cases stepped : A.exec r op with
      | none =>
          rw [stepped] at member
          cases member
      | some reached =>
          obtain ⟨value, live⟩ := reached
          simp only [stepped, touched_cons] at member ⊢
          by_cases home : ∀ a, (scope op).account? = some a → own a
          · have both := exec_same (A := A) same home
            rw [stepped] at both
            obtain ⟨⟨value', live'⟩, there, rfl, kept⟩ := exists_of_rel_some both
            have later := member.resolve_left fun at' => away (home addr at')
            obtain ⟨a, first, away', second⟩ := ih value live live' kept ⟨addr, later, away⟩
            simp only [there, touched_cons]
            exact ⟨a, .inr first, away', .inr second⟩
          · -- this is the first account elsewhere
            obtain ⟨a, at', away'⟩ : ∃ a, (scope op).account? = some a ∧ ¬own a := by
              by_contra none
              exact home fun a at' => by_contra fun away' => none ⟨a, at', away'⟩
            refine ⟨a, .inl at', away', ?_⟩
            cases works : scope op with
            | account b =>
                have runs : A.exec r' op = some ((A.access op b r'.current).1,
                    r'.modify fun s => (A.access op b s).2) := by
                  simp only [AccountOps.exec, works]
                simp only [runs, touched_cons]
                exact .inl at'
            | transaction | snapshot | revert _ =>
                rw [works] at at'
                cases at'

end TwoRuns

/-! ## One run -/

section OneRun

variable {A : AccountOps Account Scratch}

/-- What a call keeps at every revision: the accounts it does not touch. -/
theorem exec_frame {r r' : Revisions (Accounts Account Scratch)} {op : DBOp} {value : DBValue}
    {addr : Address} {acct : Account} (stepped : A.exec r op = some (value, r'))
    (elsewhere : (scope op).account? ≠ some addr) (all : r.All fun s => s.1 addr = acct) :
    r'.All fun s => s.1 addr = acct := by
  unfold AccountOps.exec at stepped
  cases works : scope op with
  | account a =>
      rw [works] at stepped elsewhere
      cases stepped
      refine all.modify ?_
      have other : addr ≠ a := fun same => elsewhere (congrArg some same.symm)
      simp only [AccountOps.access, Function.update_of_ne other]
      exact all.1
  | transaction =>
      rw [works] at stepped
      cases stepped
      exact all.modify all.1
  | snapshot =>
      rw [works] at stepped
      cases stepped
      exact all.snapshot
  | revert revid =>
      rw [works] at stepped
      obtain ⟨live, reverted, same⟩ := Option.map_eq_some_iff.1 stepped
      cases same
      exact all.revertTo reverted

theorem runOn_frame (p : Program α) : ∀ (r : Revisions (Accounts Account Scratch)) {result : α}
    {r' : Revisions (Accounts Account Scratch)} {addr : Address} {acct : Account},
    (A.runOn p r).outcome = some (result, r') → addr ∉ (A.runOn p r).touched →
    r.All (fun s => s.1 addr = acct) → r'.All fun s => s.1 addr = acct := by
  induction p with
  | done result =>
      intro r _ r' addr acct reached _ all
      cases reached
      exact all
  | call op next ih =>
      intro r result r' addr acct reached untouched all
      simp only [AccountOps.runOn] at reached untouched
      cases stepped : A.exec r op with
      | none =>
          rw [stepped] at reached
          cases reached
      | some step =>
          obtain ⟨value, live⟩ := step
          simp only [stepped, touched_cons, not_or] at reached untouched
          exact ih value live reached untouched.2 (exec_frame stepped untouched.1 all)

/-- The wrapper records the accounts that are touched, and changes nothing else. -/
theorem track_eq (p : Program α) : ∀ t : AccessTracker Account Scratch,
    A.track p t = (A.runOn p t.inner).outcome.map fun o =>
      (o.1, ⟨o.2, (A.runOn p t.inner).touched.foldl (fun m addr => m.insert addr ())
        t.accessedAddrs⟩) := by
  induction p with
  | done result => exact fun _ => rfl
  | call op next ih =>
      intro t
      simp only [AccountOps.track, AccountOps.runOn]
      cases stepped : A.exec t.inner op with
      | none => rfl
      | some step =>
          dsimp only
          rw [ih]
          congr 2
          funext o
          unfold Course.touched
          cases works : scope op <;>
            simp only [List.filterMap_cons, works, Scope.account?, List.foldl_cons,
              AccessTracker.recordAccess]

theorem mem_keys_recorded {addrs : List Address} {m : AList fun _ : Address => Unit}
    {addr : Address} :
    addr ∈ (addrs.foldl (fun m a => m.insert a ()) m).keys ↔ addr ∈ m.keys ∨ addr ∈ addrs := by
  induction addrs generalizing m with
  | nil => simp
  | cons a addrs ih =>
      rw [List.foldl_cons, ih, ← AList.mem_keys, AList.mem_insert, ← AList.mem_keys, List.mem_cons]
      tauto

/-- Snapshots of the run lie on top of those that were there. -/
theorem runOn_above {n : Nat} {old : List (Nat × Accounts Account Scratch)}
    (below : ∀ e ∈ old, e.1 < n) (p : Program α) :
    ∀ (r : Revisions (Accounts Account Scratch)) {result : α}
      {r' : Revisions (Accounts Account Scratch)}, (A.runOn p r).outcome = some (result, r') →
      (∀ revid value, (.revertToSnapshot revid, value) ∈ (A.runOn p r).trace → n ≤ revid) →
      r.Above n old → r'.Above n old := by
  induction p with
  | done result =>
      intro r _ r' reached _ above
      cases reached
      exact above
  | call op next ih =>
      intro r result r' reached nested above
      simp only [AccountOps.runOn] at reached nested
      cases stepped : A.exec r op with
      | none =>
          rw [stepped] at reached
          cases reached
      | some step =>
          obtain ⟨value, live⟩ := step
          simp only [stepped, List.mem_cons] at reached nested
          refine ih value live reached (fun revid v later => nested revid v (.inr later)) ?_
          unfold AccountOps.exec at stepped
          cases works : scope op with
          | account a =>
              rw [works] at stepped
              cases stepped
              exact above.modify _
          | transaction =>
              rw [works] at stepped
              cases stepped
              exact above.modify _
          | snapshot =>
              rw [works] at stepped
              cases stepped
              exact above.snapshot
          | revert revid =>
              rw [works] at stepped
              obtain ⟨back, reverted, same⟩ := Option.map_eq_some_iff.1 stepped
              cases same
              have reverts : op = .revertToSnapshot revid := by
                cases op <;> cases works
                rfl
              have high := nested revid .unit (.inl (by rw [reverts]))
              exact above.revertTo (fun e member => Nat.ne_of_lt (Nat.lt_of_lt_of_le (below e member)
                high)) reverted

end OneRun

/-! ## The simulation -/

section Simulation

variable {A : AccountOps Account Scratch} {call : EvmCall}
  {live after : Revisions (Accounts Account Scratch)} {caller contract : Address} {input : Bytes}
  {value : Int} {amount : U256} {gas : Nat} {localShardID : Int}
  {report : Except String (List Address × Bool)}

/-- What `SimulateCall` reports of a run. -/
def reportOf (localShardID : Int) (touched : List Address) (result : CallResult) :
    Except String (List Address × Bool) :=
  let recorded := (touched.foldl (fun m addr => m.insert addr ()) (∅ : AList _)).keys
  match result.err with
  | some err => .error err
  | none => .ok (recorded, recorded.any fun addr => shardOf addr ≠ localShardID)

theorem simulateCall_eq_some (fits : mustFromBig value = some amount)
    (simulated : A.simulateCall call live caller contract input value gas localShardID =
      some (report, after)) :
    ∃ result final,
      (A.runOn (call caller contract input gas amount) live.snapshot.2).outcome =
        some (result, final) ∧
      final.revertTo live.snapshot.1 = some after ∧
      report = reportOf localShardID
        (A.runOn (call caller contract input gas amount) live.snapshot.2).touched result := by
  unfold AccountOps.simulateCall at simulated
  rw [fits, Option.bind_eq_bind, Option.bind_some, Option.bind_eq_bind] at simulated
  obtain ⟨⟨result, t⟩, tracked, rest⟩ := Option.bind_eq_some_iff.1 simulated
  obtain ⟨back, reverted, reported⟩ := Option.bind_eq_some_iff.1 rest
  rw [track_eq] at tracked
  obtain ⟨⟨result', final⟩, reached, same⟩ := Option.map_eq_some_iff.1 tracked
  cases same
  refine ⟨result', final, reached, ?_⟩
  unfold reportOf
  cases failed : result'.err with
  | none =>
      simp only [failed] at reported
      cases reported
      exact ⟨reverted, rfl⟩
  | some err =>
      simp only [failed] at reported
      cases reported
      exact ⟨reverted, rfl⟩

theorem reportOf_eq_ok {touched accessed : List Address} {result : CallResult} {crosses : Bool}
    (ok : reportOf localShardID touched result = .ok (accessed, crosses)) :
    result.err = none ∧ (∀ addr, addr ∈ accessed ↔ addr ∈ touched) ∧
      (crosses = true ↔ ∃ addr ∈ touched, shardOf addr ≠ localShardID) := by
  unfold reportOf at ok
  cases failed : result.err with
  | some err =>
      simp only [failed] at ok
      cases ok
  | none =>
      simp only [failed] at ok
      cases ok
      have recorded : ∀ addr, addr ∈ (touched.foldl (fun m a => m.insert a ())
          (∅ : AList fun _ : Address => Unit)).keys ↔ addr ∈ touched := fun addr =>
        mem_keys_recorded.trans (or_iff_right List.not_mem_nil)
      refine ⟨rfl, recorded, ?_⟩
      rw [List.any_eq_true]
      exact exists_congr fun addr => and_congr (recorded addr) decide_eq_true_iff

/-- **The simulation leaves the state as it was**, if the call reverts to its own snapshots only. -/
theorem simulateCall_restores (fits : mustFromBig value = some amount)
    (simulated : A.simulateCall call live caller contract input value gas localShardID =
      some (report, after))
    (nested : ∀ revid returned, (.revertToSnapshot revid, returned) ∈
      (A.runOn (call caller contract input gas amount) live.snapshot.2).trace →
        live.snapshot.1 < revid) :
    after.current = live.current ∧ after.saved = live.saved := by
  obtain ⟨result, final, reached, reverted, -⟩ := simulateCall_eq_some fits simulated
  have below : ∀ e ∈ (live.next, live.current) :: live.saved, e.1 < live.next + 1 :=
    List.forall_mem_cons.2 ⟨Nat.lt_succ_self _, fun e member =>
      Nat.lt_succ_of_lt (live.given e member)⟩
  have above := runOn_above below _ _ reached nested ⟨le_rfl, [], rfl, List.forall_mem_nil _⟩
  obtain ⟨back, there, current, saved⟩ := above.revertTo_below
  cases there.symm.trans reverted
  exact ⟨current, saved⟩

end Simulation

/-! ## Routing -/

namespace Server

variable {simulate : SimulateCall} {s : Server} {txID : TxID} {req : TxSubmitRequest} {value : Int}

/-- What a response says about the classification of the request. -/
theorem classify_of_response (parsed : req.parsed = some value) :
    ((s.handleTxSubmit simulate txID req).1 = .queued →
      s.classify simulate req value req.gasLimit = .ok none) ∧
    ∀ tx, (s.handleTxSubmit simulate txID req).1 = .forwarded tx →
      ∃ addrs, s.classify simulate req value req.gasLimit = .ok (some addrs) ∧
        tx = s.forwardTx req txID value req.gasLimit addrs := by
  unfold TxSubmitRequest.parsed at parsed
  unfold TxSubmitRequest.gasLimit handleTxSubmit
  simp only [parsed]
  generalize (if req.gas = 0 then defaultGasLimit else req.gas) = gas
  split
  · exact ⟨by rintro ⟨⟩, by rintro tx ⟨⟩⟩
  · split
    · exact ⟨by rintro ⟨⟩, by rintro tx ⟨⟩⟩
    · split
      · exact ⟨by rintro ⟨⟩, by rintro tx ⟨⟩⟩
      · cases s.classify simulate req value gas with
        | error err => exact ⟨by rintro ⟨⟩, by rintro tx ⟨⟩⟩
        | ok found =>
            cases found with
            | some addrs => exact ⟨by rintro ⟨⟩, by rintro tx ⟨⟩; exact ⟨addrs, rfl, rfl⟩⟩
            | none =>
                refine ⟨fun _ => rfl, fun tx forwarded => ?_⟩
                dsimp only at forwarded
                split at forwarded <;> cases forwarded

/-- For a call of a contract of the shard, the simulation decides. -/
theorem classify_call {gas : Nat} (here : shardOf req.toAddr = s.chain.shardID)
    (contract : s.evmState.code req.toAddr ≠ []) (data : req.data ≠ []) :
    s.classify simulate req value gas =
      match simulate s.evmState req.fromAddr req.toAddr req.data value
        (max gas simulationGasLimit) with
      | .error err => if isDefiniteLocalError err then .error err else .ok (some [req.toAddr])
      | .ok (accessed, true) =>
          .ok (some (accessed.filter fun addr => shardOf addr ≠ s.chain.shardID).dedup)
      | .ok (_, false) => .ok none := by
  unfold classify
  exact (if_neg (not_not.2 here)).trans (if_pos ⟨contract, data⟩)

end Server

theorem sameAt_opened (A : AccountOps Account Scratch) (servers : Int → Server) (k : Int)
    (next : Nat) :
    (A.opened (servers k).evmState next).Rel (SameAt fun addr => shardOf addr = k)
      (A.opened (gathered fun j => (servers j).evmState) next) := by
  refine (Revisions.Rel.start ⟨fun addr home => ?_, rfl⟩ next).snapshot
  subst home
  rfl

open Server in
/-- **Routing is exact.**  A contract call that is submitted at its shard is simulated there, on a
state in which the accounts of the other shards are missing.

If the call is queued, then on the state gathered from all shards it makes the same calls, returns
the same and succeeds; it touches accounts of this shard only, leaves them as the shard alone would
and leaves all others alone.  If it is forwarded after a simulation without error, then on the
gathered state it does touch an account of another shard that is named in the forwarded
transaction.  In both cases a call that reverts only to its own snapshots leaves the state of the
shard as it was. -/
theorem routing_is_exact (A : AccountOps Account Scratch) (call : EvmCall) (next : Nat)
    (servers : Int → Server) (k : Int) (simulate : SimulateCall) (txID : TxID)
    (req : TxSubmitRequest) {value : Int} {amount : U256}
    {after : Revisions (Accounts Account Scratch)} (home : (servers k).chain.shardID = k)
    (here : shardOf req.toAddr = k) (contract : (servers k).evmState.code req.toAddr ≠ [])
    (data : req.data ≠ []) (parsed : req.parsed = some value)
    (fits : mustFromBig value = some amount)
    (simulated : A.simulateCall call (A.live (servers k).evmState next) req.fromAddr req.toAddr
      req.data value (max req.gasLimit simulationGasLimit) k =
        some (simulate (servers k).evmState req.fromAddr req.toAddr req.data value
          (max req.gasLimit simulationGasLimit), after)) :
    let response := ((servers k).handleTxSubmit simulate txID req).1
    let program :=
      call req.fromAddr req.toAddr req.data (max req.gasLimit simulationGasLimit) amount
    let everywhere := gathered fun j => (servers j).evmState
    let alone := A.runOn program (A.opened (servers k).evmState next)
    let whole := A.runOn program (A.opened everywhere next)
    (response = .queued → ∃ result own all,
      alone.outcome = some (result, own) ∧ whole.outcome = some (result, all) ∧
        whole.trace = alone.trace ∧ result.err = none ∧
        (∀ addr ∈ whole.touched, shardOf addr = k) ∧
        ∀ addr, all.current.1 addr =
          if shardOf addr = k then own.current.1 addr else A.accounts everywhere addr) ∧
      (∀ tx report, response = .forwarded tx →
        simulate (servers k).evmState req.fromAddr req.toAddr req.data value
          (max req.gasLimit simulationGasLimit) = .ok report →
        ∃ rw ∈ tx.rwSet, shardOf rw.address ≠ k ∧ rw.address ∈ whole.touched) ∧
      ((∀ revid returned, (.revertToSnapshot revid, returned) ∈ alone.trace → next < revid) →
        after.current = (A.live (servers k).evmState next).current) := by
  intro response program everywhere alone whole
  obtain ⟨result, own, reached, -, reported⟩ := simulateCall_eq_some fits simulated
  have same := sameAt_opened A servers k next
  have decides : (servers k).classify simulate req value req.gasLimit = _ :=
    classify_call (here.trans home.symm) contract data
  refine ⟨fun queued => ?_, fun tx report forwarded ok => ?_, fun nested => ?_⟩
  · rw [(classify_of_response parsed).1 queued] at decides
    split at decides
    · split at decides <;> cases decides
    · cases decides
    · rename_i accessed ok
      obtain ⟨fine, -, crosses⟩ := reportOf_eq_ok (reported.symm.trans ok)
      have stays : ∀ addr ∈ alone.touched, shardOf addr = k := fun addr member =>
        by_contra fun away => absurd (crosses.2 ⟨addr, member, away⟩) Bool.false_ne_true
      obtain ⟨trace, outcomes⟩ := runOn_same program _ _ same stays
      rw [show (A.runOn program (A.opened (servers k).evmState next)).outcome = _ from reached]
        at outcomes
      obtain ⟨⟨result', all⟩, finished, rfl, kept⟩ := exists_of_rel_some outcomes
      have touched : whole.touched = alone.touched := by
        unfold Course.touched
        rw [show whole.trace = alone.trace from trace]
      refine ⟨result, own, all, reached, finished, trace, fine, fun addr member => ?_,
        fun addr => ?_⟩
      · rw [touched] at member
        exact stays addr member
      · split
        · rename_i athome
          exact (kept.current.1 addr athome).symm
        · rename_i away
          have untouched : addr ∉ whole.touched := fun member =>
            away (stays addr (touched ▸ member))
          exact (runOn_frame program _ finished untouched ⟨rfl, List.forall_mem_singleton.2 rfl⟩).1
  · obtain ⟨addrs, classified, rfl⟩ := (classify_of_response parsed).2 tx forwarded
    rw [classified, ok] at decides
    obtain ⟨accessed, crosses⟩ := report
    obtain ⟨-, recorded, cross⟩ := reportOf_eq_ok (reported.symm.trans ok)
    cases crosses with
    | false => cases decides
    | true =>
        obtain ⟨addr, first, away, second⟩ := runOn_meet program _ _ same (cross.1 rfl)
        have listed : addr ∈ addrs := by
          cases decides
          rw [List.mem_dedup, List.mem_filter, home]
          exact ⟨(recorded addr).2 first, decide_eq_true away⟩
        exact ⟨⟨addr, ⟨shardOf addr⟩, [], []⟩, List.mem_map_of_mem listed, away, second⟩
  · exact (simulateCall_restores fits simulated nested).1

namespace RoutingPole

open Server

def alice : Address := 0x108
def pot : Address := 0x100
def other : Address := 0x101

structure Holding where
  balance : U256
  storage : Hash → Hash

/-- Balances and slots; the other methods do nothing here. -/
def ops : AccountOps Holding Unit where
  load := fun balance storage _ => ⟨balance, storage⟩
  fresh := ()
  onAccount := fun op acct _ =>
    match op with
    | .getBalance _ => (.amount acct.balance, acct, ())
    | .getState _ slot => (.hash (acct.storage slot), acct, ())
    | .setState _ slot value =>
        (.hash (acct.storage slot), { acct with storage := Function.update acct.storage slot value },
          ())
    | _ => (.unit, acct, ())
  onTransaction := fun _ _ => (.unit, ())

/-- Writes slot 1 of the callee, as long as slot 0 is empty and there is gas; otherwise it looks at
an account of shard 1. -/
def visiting : EvmCall := fun _ callee _ gas _ =>
  .call (.getState callee 0) fun value =>
    if value = .hash 0 ∧ simulationGasLimit ≤ gas then
      .call (.setState callee 1 5) fun _ => .done ⟨0, none⟩
    else .call (.getBalance other) fun _ => .done ⟨0, none⟩

/-- Every shard has the code of the contract, and slot 0 of it as given. -/
def state (slot : Hash) : EVMState := ⟨fun _ => 50, fun _ _ => slot, fun _ => [1]⟩

def servers (k : Int) : Server := fresh k (state 0)

def request : TxSubmitRequest := ⟨alice, pot, "", [1], 0⟩

/-- What the simulation reports here. -/
def report : SimulateCall := fun _ _ _ _ _ _ => .ok ([pot], false)

end RoutingPole

open Server RoutingPole in
theorem first_visit_stays_home :
    ((servers 0).handleTxSubmit report "t" request).1 = .queued ∧
      ∃ result own all,
        (ops.runOn (visiting alice pot [1] simulationGasLimit 0) (ops.opened (state 0) 0)).outcome =
          some (result, own) ∧
        (ops.runOn (visiting alice pot [1] simulationGasLimit 0)
          (ops.opened (gathered fun j => (servers j).evmState) 0)).outcome = some (result, all) ∧
        result.err = none ∧ (all.current.1 pot).storage 1 = (own.current.1 pot).storage 1 := by
  have queued : ((servers 0).handleTxSubmit report "t" request).1 = .queued := by decide +kernel
  have exact := routing_is_exact ops visiting 0 servers 0 report "t" request rfl rfl
    (List.cons_ne_nil _ _) (List.cons_ne_nil _ _) rfl rfl rfl
  obtain ⟨result, own, all, alone, whole, -, fine, -, accounts⟩ := exact.1 queued
  refine ⟨queued, result, own, all, alone, whole, fine, ?_⟩
  rw [accounts pot]
  rfl

open Server RoutingPole in
/-- **A queued call may leave the shard later**: when another transaction has filled slot 0 before
it executes, and also at once, since it is simulated with more gas than it executes with. -/
theorem queued_call_leaves_later :
    ((servers 0).handleTxSubmit report "t" request).1 = .queued ∧
      (ops.runOn (visiting alice pot [1] simulationGasLimit 0) (ops.opened (state 1) 0)).touched =
        [pot, other] ∧
      (ops.runOn (visiting alice pot [1] request.gasLimit 0) (ops.opened (state 0) 0)).touched =
        [pot, other] ∧
      shardOf other ≠ 0 := by
  decide +kernel

end CrossShard.Shard
