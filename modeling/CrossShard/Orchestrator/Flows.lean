/-
# Orchestrator.Flows -- what the calls of a simulation do to balances

The final balance of an address in a simulation, from the calls alone: what the calls that no
revert has undone add to it and take from it, and whether one of them set it to zero before.
Creating an account and destructing one do; `SelfDestruct6780` does so only for an account that
was created in the same simulation.

* `flows`: the flow at each address, from the list of calls.
* `balance_of_flows`: the flow, applied to the balance of the backing state, is the final
  balance of a simulation that fetched on first use.
-/
import CrossShard.Orchestrator.LazyFetch

namespace CrossShard.Orchestrator

set_option autoImplicit false

open CrossShard.Library CrossShard.Protocol

/-- What happened to one balance: it was set to zero or not, and then changed by `net`. -/
structure Flow where
  erased : Bool
  net : U256
  created : Bool

namespace Flow

def still : Flow := ⟨false, 0, false⟩

/-- The balance after the flow. -/
def applied (f : Flow) (balance : U256) : U256 := (if f.erased then 0 else balance) + f.net

theorem applied_still (balance : U256) : still.applied balance = balance := BitVec.add_zero _

end Flow

/-- The flow at each address, now and at each open snapshot. -/
structure Flows where
  now : Address → Flow
  saved : List (Address → Flow)

namespace Flows

def start : Flows := ⟨fun _ => .still, []⟩

def set (f : Flows) (a : Address) (flow : Flow) : Flows :=
  { f with now := Function.update f.now a flow }

/-- Back to an open snapshot. -/
def revert (f : Flows) (revid : Nat) : Flows :=
  match f.saved[revid]? with
  | none => f
  | some now => ⟨now, f.saved.take revid⟩

def step (f : Flows) : DBOp → Flows
  | .createAccount a => f.set a ⟨true, 0, true⟩
  | .createContract a => f.set a ⟨true, 0, true⟩
  | .subBalance a amount => f.set a { f.now a with net := (f.now a).net - amount }
  | .addBalance a amount => f.set a { f.now a with net := (f.now a).net + amount }
  | .selfDestruct a => f.set a { f.now a with erased := true, net := 0 }
  | .selfDestruct6780 a =>
      if (f.now a).created then f.set a { f.now a with erased := true, net := 0 } else f
  | .snapshot => { f with saved := f.saved ++ [f.now] }
  | .revertToSnapshot revid => f.revert revid
  | _ => f

end Flows

/-- The flow that a list of calls leaves at each address. -/
def flows (ops : List DBOp) : Address → Flow := (ops.foldl Flows.step .start).now

/-! ## Flows follow the reference store -/

/-- The balances of `accounts` are those of `loaded` after the flows. -/
def Tracks (loaded accounts : Address → AccountState) (now : Address → Flow) : Prop :=
  ∀ a, (accounts a).balance = (now a).applied (loaded a).balance ∧
    (accounts a).created = (now a).created

section Tracks

variable {loaded accounts : Address → AccountState} {now : Address → Flow}

theorem Tracks.update (tracks : Tracks loaded accounts now) {a : Address} {acct : AccountState}
    {flow : Flow} (balance : acct.balance = flow.applied (loaded a).balance)
    (created : acct.created = flow.created) :
    Tracks loaded (Function.update accounts a acct) (Function.update now a flow) := by
  intro b
  simp only [Function.update_apply]
  by_cases here : b = a
  · subst here
    simp only [if_true]
    exact ⟨balance, created⟩
  · simp only [here, if_false]
    exact tracks b

/-- A change of anything but the balance. -/
theorem Tracks.keep (tracks : Tracks loaded accounts now) {a : Address} {acct : AccountState}
    (balance : acct.balance = (accounts a).balance) (created : acct.created = (accounts a).created) :
    Tracks loaded (Function.update accounts a acct) now := by
  have kept := tracks.update (a := a) (balance.trans (tracks a).1) (created.trans (tracks a).2)
  rwa [Function.update_eq_self] at kept

end Tracks

structure Follows (loaded : Address → AccountState) (r : ReferenceStore) (f : Flows) : Prop where
  now : Tracks loaded r.accounts f.now
  saved : List.Forall₂ (fun snap now => Tracks loaded snap.accounts now) r.snapshots f.saved

theorem follows_start (W : World) (B : Backing) :
    Follows (ReferenceStore.load W B).accounts (ReferenceStore.load W B) .start :=
  ⟨fun _ => ⟨(Flow.applied_still _).symm, rfl⟩, .nil⟩

section Step

variable {W : World} {loaded : Address → AccountState} {r : ReferenceStore} {f : Flows}

theorem Follows.set (follows : Follows loaded r f) {a : Address} {acct : AccountState} {flow : Flow}
    (balance : acct.balance = flow.applied (loaded a).balance)
    (created : acct.created = flow.created) : Follows loaded (r.setAccount a acct) (f.set a flow) :=
  ⟨follows.now.update balance created, follows.saved⟩

theorem Follows.keep (follows : Follows loaded r f) {a : Address} {acct : AccountState}
    (balance : acct.balance = (r.accounts a).balance)
    (created : acct.created = (r.accounts a).created) : Follows loaded (r.setAccount a acct) f :=
  ⟨follows.now.keep balance created, follows.saved⟩

theorem Follows.revert (follows : Follows loaded r f) (revid : Nat) :
    Follows loaded (r.revertToSnapshot revid) (f.revert revid) := by
  have long := follows.saved.length_eq
  by_cases inside : revid < r.snapshots.length
  · have inside' : revid < f.saved.length := long ▸ inside
    have found : r.snapshots[revid]? = some r.snapshots[revid] := List.getElem?_eq_getElem inside
    have found' : f.saved[revid]? = some f.saved[revid] := List.getElem?_eq_getElem inside'
    have restored := (List.forall₂_iff_get.mp follows.saved).2 revid inside inside'
    simp only [ReferenceStore.revertToSnapshot, Flows.revert, found, found']
    exact ⟨restored, List.forall₂_take revid follows.saved⟩
  · have missing : r.snapshots[revid]? = none := List.getElem?_eq_none (by omega)
    have missing' : f.saved[revid]? = none := List.getElem?_eq_none (by omega)
    simp only [ReferenceStore.revertToSnapshot, Flows.revert, missing, missing']
    exact follows

theorem Follows.exec (follows : Follows loaded r f) (op : DBOp) :
    Follows loaded (r.exec W op).2 (f.step op) := by
  have balance := fun a => (follows.now a).1
  have created := fun a => (follows.now a).2
  cases op with
  | createAccount a => exact follows.set (by simp [Flow.applied, SimulationStateDB.blankAccount]) rfl
  | createContract a => exact follows.set (by simp [Flow.applied, SimulationStateDB.blankAccount]) rfl
  | subBalance a amount =>
      refine follows.set ?_ (created a)
      show (r.accounts a).balance - amount = _
      rw [balance a, Flow.applied, Flow.applied, BitVec.sub_eq_add_neg, BitVec.sub_eq_add_neg,
        BitVec.add_assoc]
  | addBalance a amount =>
      refine follows.set ?_ (created a)
      show (r.accounts a).balance + amount = _
      rw [balance a, Flow.applied, Flow.applied, BitVec.add_assoc]
  | setNonce a nonce => exact follows.keep rfl rfl
  | setCode a code => exact follows.keep rfl rfl
  | selfDestruct a => exact follows.set (by simp [Flow.applied]) (created a)
  | selfDestruct6780 a =>
      show Follows loaded (if (r.accounts a).created then _ else r)
        (if (f.now a).created then _ else f)
      rw [created a]
      split
      · exact follows.set (by simp [Flow.applied]) rfl
      · exact follows
  | revertToSnapshot revid => exact follows.revert revid
  | snapshot => exact ⟨follows.now, List.rel_append follows.saved (.cons follows.now .nil)⟩
  | _ => exact ⟨follows.now, follows.saved⟩

theorem Follows.answered (follows : Follows loaded r f) (ops : List DBOp) :
    Follows loaded (answered (ReferenceStore.exec W) r ops) (ops.foldl Flows.step f) := by
  induction ops generalizing r f with
  | nil => exact follows
  | cons op ops ih => exact ih (follows.exec op)

end Step

/-! ## The final balance of a simulation -/

/-- The balance that `GetBalance` returns. -/
def SimulationStateDB.balanceAt (W : World) (db : SimulationStateDB) (a : Address) : U256 :=
  (db.getOrFetchAccount W a).1.balance

/-- The balance of an address in the backing state. -/
def Backing.balance (B : Backing) (a : Address) : U256 := (B.account a).balance.getD 0

theorem answered_ops {α : Type} (W : World) (p : Program α) (db : SimulationStateDB) :
    (p.run W db).db = answered (SimulationStateDB.exec W) db (p.run W db).ops := by
  induction p generalizing db with
  | done result => rfl
  | call op next ih => exact ih (db.exec W op).1 (db.exec W op).2

/-- **Balances are flows.**  Over a backing state that answers every fetch, the balance of an
address after a program is its balance there after the flow of the program's calls. -/
theorem balance_of_flows {α : Type} {W : World} {B : Backing} (serves : W.Serves B)
    (p : Program α) (sender coinbase : Address) (a : Address) :
    let e := p.run W (SimulationStateDB.newSimulationStateDB.prepare sender coinbase none [] [])
    e.db.balanceAt W a = (flows e.ops a).applied (B.balance a) := by
  intro e
  -- `Prepare` is one more call, without a flow
  let ops : List DBOp := .prepare sender coinbase none [] [] :: e.ops
  have final : e.db =
      answered (SimulationStateDB.exec W) SimulationStateDB.newSimulationStateDB ops :=
    answered_ops W p _
  obtain ⟨-, -, stands⟩ := SimulationStateDB.loaded_answered serves ops
  have follows := ((follows_start W B).answered (W := W) ops).now a
  rw [SimulationStateDB.balanceAt, (SimulationStateDB.loaded_getOrFetchAccount serves a).1, final,
    ← stands, follows.1]
  rfl

end CrossShard.Orchestrator
