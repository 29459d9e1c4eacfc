/-
# Shard.DirectRequests -- the endpoints that move funds at once

Besides the blocks of the orchestrator a shard takes requests that act on balances and
reservations directly: `/transfer`, `/faucet`, and the older two-phase endpoints `/prepare`,
`/commit`, `/abort` and `/credit`.  What they are for is an escrow: a prepare holds free funds, a
commit pays the hold out, an abort gives it up.

The handlers keep to that only with the help of their callers.  A commit ignores the result of
`Debit`, a transfer ignores reservations, a prepare ignores an earlier one of the same ID, and
nobody looks at signs.  `Careful` is what they rely on; under it the server and the escrow of
`Library.Escrow` give the same answers to every list of requests.

* `Represents`: the server's tables are those of an account book.
* `Represents.handleDirect`: one request.
* `direct_requests_refine_escrow`: every list of requests.
* `careless_transfer_empties_commit`: a commit that is answered with success and debits nothing.
-/
import Mathlib.Algebra.BigOperators.Ring.Finset
import CrossShard.Library.Escrow
import CrossShard.Shard.FundIndex

namespace CrossShard.Shard

set_option autoImplicit false

open CrossShard.Library CrossShard.Protocol

/-! ## Handlers -/

/-- The requests, with addresses decoded.  Only `/prepare` carries a number; the other amounts
are strings. -/
inductive DirectRequest where
  | transfer (fromAddr toAddr : Address) (amount : String)
  | faucet (address : Address) (amount : String)
  | prepare (txID : TxID) (address : Address) (amount : Int)
  | commit (txID : TxID)
  | abort (txID : TxID)
  | credit (address : Address) (amount : String)

/-- `dropped` is a handler that panics: the connection is closed without an answer. -/
inductive DirectResponse where
  | badRequest (msg : String)
  | status (msg : String)
  | prepared (txID : TxID) (success : Bool) (error : String)
  | done (success : Bool)
  | dropped
  deriving DecidableEq

def DirectResponse.accepted : DirectResponse → Bool
  | .badRequest _ => false
  | .status _ => true
  | .prepared _ success _ => success
  | .done success => success
  | .dropped => false

namespace Server

def handleLocalTransfer (s : Server) (fromAddr toAddr : Address) (amount : String) :
    DirectResponse × Server :=
  match bigSetString amount 10 with
  | none => (.badRequest "invalid amount", s)
  | some amount =>
      match s.evmState.debit fromAddr amount with
      | .panic => (.dropped, s)
      | .error msg => (.badRequest msg, s)
      | .ok debited =>
          match debited.credit toAddr amount with
          | .ok credited => (.status "success", { s with evmState := credited })
          | _ => (.dropped, { s with evmState := debited })

/-- The body that `/faucet` and `/credit` share. -/
def creditAmount (reply : DirectResponse) (s : Server) (addr : Address) (amount : String) :
    DirectResponse × Server :=
  match bigSetString amount 10 with
  | none => (.badRequest "invalid amount", s)
  | some amount =>
      match s.evmState.credit addr amount with
      | .ok credited => (reply, { s with evmState := credited })
      | _ => (.dropped, s)

def handleFaucet : Server → Address → String → DirectResponse × Server :=
  creditAmount (.status "success")

def handleCredit : Server → Address → String → DirectResponse × Server :=
  creditAmount (.done true)

def handlePrepare (s : Server) (txID : TxID) (addr : Address) (amount : Int) :
    DirectResponse × Server :=
  let canCommit := s.evmState.canDebit addr amount (s.chain.getLockedAmountForAddress addr)
  if canCommit then
    (.prepared txID true "", { s with chain := s.chain.lockFunds txID addr amount })
  else (.prepared txID false "insufficient available balance", s)

/-- The lock is cleared whether or not the debit succeeds. -/
def handleCommit (s : Server) (txID : TxID) : DirectResponse × Server :=
  match s.chain.getLockedFunds txID with
  | none => (.done false, s)
  | some lock =>
      match s.evmState.debit lock.address lock.amount with
      | .panic => (.dropped, s)
      | .error _ => (.done true, { s with chain := s.chain.clearLock txID })
      | .ok debited =>
          (.done true, { s with evmState := debited, chain := s.chain.clearLock txID })

def handleAbort (s : Server) (txID : TxID) : DirectResponse × Server :=
  match s.chain.getLockedFunds txID with
  | none => (.done false, s)
  | some _ => (.done true, { s with chain := s.chain.clearLock txID })

def handleDirect (s : Server) : DirectRequest → DirectResponse × Server
  | .transfer fromAddr toAddr amount => s.handleLocalTransfer fromAddr toAddr amount
  | .faucet addr amount => s.handleFaucet addr amount
  | .prepare txID addr amount => s.handlePrepare txID addr amount
  | .commit txID => s.handleCommit txID
  | .abort txID => s.handleAbort txID
  | .credit addr amount => s.handleCredit addr amount

/-- What the handlers leave to their callers: a prepare names an unused ID, amounts are not
negative, a transfer leaves reserved funds alone, and no balance grows beyond a word. -/
def Careful (s : Server) : DirectRequest → Prop
  | .transfer fromAddr toAddr amount => ∀ n ∈ bigSetString amount 10, 0 ≤ n ∧
      (n ≤ (s.evmState.balance fromAddr).toNat →
        n + s.chain.getLockedAmountForAddress fromAddr ≤ (s.evmState.balance fromAddr).toNat ∧
        (fromAddr ≠ toAddr → (s.evmState.balance toAddr).toNat + n < 2 ^ 256))
  | .faucet addr amount | .credit addr amount => ∀ n ∈ bigSetString amount 10, 0 ≤ n ∧
      (s.evmState.balance addr).toNat + n < 2 ^ 256
  | .prepare txID _ amount => s.chain.locked.get txID = none ∧ 0 ≤ amount
  | .commit _ | .abort _ => True

end Server

/-! ## The escrow behind the requests -/

/-- The operation a request asks for; none when its amount is not a number. -/
def DirectRequest.meaning : DirectRequest → Option (Escrow.Op Address TxID)
  | .transfer fromAddr toAddr amount =>
      (bigSetString amount 10).map fun n => .transfer fromAddr toAddr n.toNat
  | .faucet addr amount | .credit addr amount =>
      (bigSetString amount 10).map fun n => .deposit addr n.toNat
  | .prepare txID addr amount => some (.hold txID addr amount.toNat)
  | .commit txID => some (.settle txID)
  | .abort txID => some (.release txID)

/-- The escrow's answer to a request. -/
def bookRequest (e : Escrow Address TxID) (req : DirectRequest) : Bool × Escrow Address TxID :=
  match req.meaning with
  | none => (false, e)
  | some op => e.step op

/-- The server's answer, as the escrow gives it. -/
def serveRequest (s : Server) (req : DirectRequest) : Bool × Server :=
  ((s.handleDirect req).1.accepted, (s.handleDirect req).2)

/-- The balances and reservations of `s` are those of `e`, and both tables of `s` agree. -/
structure Represents (s : Server) (e : Escrow Address TxID) : Prop where
  balance : ∀ a, (s.evmState.balance a).toNat = e.balance a
  locked : ∀ txID, s.chain.locked.get txID =
    if txID ∈ e.holds then some ⟨e.owner txID, e.amount txID⟩ else none
  indexed : s.chain.Indexed

/-- The server answers `req` as the escrow does, and stays with it. -/
def Follows (s : Server) (e : Escrow Address TxID) (req : DirectRequest) : Prop :=
  (serveRequest s req).1 = (bookRequest e req).1 ∧
    Represents (serveRequest s req).2 (bookRequest e req).2

theorem represents_fresh (shardID : Int) (evm : EVMState) :
    Represents (Server.fresh shardID evm) (Escrow.empty fun a => (evm.balance a).toNat) where
  balance _ := rfl
  locked txID := by simp [Server.fresh, Chain.newChain, Escrow.empty]
  indexed := indexed_newChain shardID

/-! ## Debits and credits as numbers -/

theorem exists_debit {evm : EVMState} {a : Address} {n : Int} (nonneg : 0 ≤ n)
    (enough : n ≤ (evm.balance a).toNat) :
    ∃ evm', evm.debit a n = .ok evm' ∧ ∀ b, (evm'.balance b).toNat =
      Function.update (fun b => (evm.balance b).toNat) a ((evm.balance a).toNat - n.toNat) b := by
  have bound := (evm.balance a).isLt
  obtain ⟨word, reads, value⟩ := mustFromBig_of_lt nonneg (by omega)
  have le : word ≤ evm.balance a := by
    rw [BitVec.le_def]
    omega
  refine ⟨evm.subBalance a word, ?_, fun b => ?_⟩
  · rw [EVMState.debit, reads]
    exact if_neg (BitVec.not_lt.2 le)
  · rw [EVMState.balance_subBalance, Function.update_apply]
    split
    · rw [BitVec.toNat_sub_of_le le]
      omega
    · rfl

theorem exists_credit {evm : EVMState} {a : Address} {n : Int} (nonneg : 0 ≤ n)
    (room : (evm.balance a).toNat + n < 2 ^ 256) :
    ∃ evm', evm.credit a n = .ok evm' ∧ ∀ b, (evm'.balance b).toNat =
      Function.update (fun b => (evm.balance b).toNat) a ((evm.balance a).toNat + n.toNat) b := by
  obtain ⟨word, reads, value⟩ := mustFromBig_of_lt nonneg (by omega)
  refine ⟨evm.addBalance a word, by rw [EVMState.credit, reads], fun b => ?_⟩
  rw [EVMState.balance_addBalance, Function.update_apply]
  split
  · rw [BitVec.toNat_add_of_lt (by omega)]
    omega
  · rfl

theorem not_ok_debit {evm evm' : EVMState} {a : Address} {n : Int} (nonneg : 0 ≤ n)
    (short : ¬n ≤ (evm.balance a).toNat) : evm.debit a n ≠ .ok evm' := by
  unfold EVMState.debit
  split
  · nofun
  · rename_i word reads
    have value := mustFromBig_toNat nonneg reads
    have less : evm.balance a < word := by
      rw [BitVec.lt_def]
      omega
    rw [if_pos less]
    nofun

/-! ## One request -/

section Step

variable {s : Server} {e : Escrow Address TxID} (represents : Represents s e)
include represents

/-- What an address cannot spend is what it holds in escrow. -/
theorem Represents.reserved (a : Address) :
    s.chain.getLockedAmountForAddress a = e.reserved a := by
  have keys : s.chain.locked.toFinmap.keys = e.holds := by
    ext txID
    rw [FMap.mem_keys_iff, represents.locked]
    split <;> simp_all
  rw [represents.indexed.amount_eq_lockedTotal, Chain.lockedTotal, keys, Escrow.reserved,
    reservedBy, Nat.cast_sum]
  refine Finset.sum_congr rfl fun txID held => ?_
  simp only [Chain.share, represents.locked, held, if_true]
  split <;> rfl

/-- A transfer moves free funds. -/
theorem Represents.transfer {fromAddr toAddr : Address} {amount : String}
    (careful : s.Careful (.transfer fromAddr toAddr amount)) :
    Follows s e (.transfer fromAddr toAddr amount) := by
  unfold Follows serveRequest bookRequest Server.handleDirect Server.handleLocalTransfer
  simp only [DirectRequest.meaning]
  cases reads : bigSetString amount 10 with
  | none => exact ⟨rfl, represents⟩
  | some n =>
      obtain ⟨nonneg, covered⟩ := careful n reads
      have sender := represents.balance fromAddr
      have reserved := represents.reserved fromAddr
      by_cases enough : n ≤ (s.evmState.balance fromAddr).toNat
      · obtain ⟨free, room⟩ := covered enough
        obtain ⟨debited, ran, after⟩ := exists_debit nonneg enough
        have roomAfter : (debited.balance toAddr).toNat + n < 2 ^ 256 := by
          have bound := (s.evmState.balance fromAddr).isLt
          rw [after, Function.update_apply]
          split
          · omega
          · rename_i different
            exact room (Ne.symm different)
        obtain ⟨credited, ran', after'⟩ := exists_credit nonneg roomAfter
        have guard : e.reserved fromAddr + n.toNat ≤ e.balance fromAddr := by omega
        simp only [ran, ran', Option.map_some, Escrow.step, guard, dite_true]
        refine ⟨rfl, fun b => ?_, represents.locked, represents.indexed⟩
        simp only [after', after, represents.balance, Escrow.deposit, Escrow.withdraw,
          Function.update_apply]
      · have refused : ¬e.reserved fromAddr + n.toNat ≤ e.balance fromAddr := by omega
        simp only [Option.map_some, Escrow.step, refused, dite_false]
        cases ran : s.evmState.debit fromAddr n with
        | ok debited => exact absurd ran (not_ok_debit nonneg enough)
        | error msg => exact ⟨rfl, represents⟩
        | panic => exact ⟨rfl, represents⟩

/-- `/faucet` and `/credit` put funds in. -/
theorem Represents.credit {reply : DirectResponse} (accepts : reply.accepted = true) {a : Address}
    {amount : String} (careful : s.Careful (.credit a amount)) :
    (Server.creditAmount reply s a amount).1.accepted = (bookRequest e (.credit a amount)).1 ∧
      Represents (Server.creditAmount reply s a amount).2 (bookRequest e (.credit a amount)).2 := by
  unfold bookRequest Server.creditAmount
  simp only [DirectRequest.meaning]
  cases reads : bigSetString amount 10 with
  | none => exact ⟨rfl, represents⟩
  | some n =>
      obtain ⟨nonneg, room⟩ := careful n reads
      obtain ⟨credited, ran, after⟩ := exists_credit nonneg room
      simp only [ran, Option.map_some, Escrow.step]
      refine ⟨accepts, fun b => ?_, represents.locked, represents.indexed⟩
      simp only [after, represents.balance, Escrow.deposit, Function.update_apply]

/-- A prepare is accepted exactly when the escrow has the funds free. -/
theorem Represents.prepare {txID : TxID} {a : Address} {amount : Int}
    (careful : s.Careful (.prepare txID a amount)) : Follows s e (.prepare txID a amount) := by
  obtain ⟨unused, nonneg⟩ := careful
  have fresh : txID ∉ e.holds := by
    intro held
    rw [represents.locked, if_pos held] at unused
    cases unused
  have check : s.evmState.canDebit a amount (s.chain.getLockedAmountForAddress a) = true ↔
      e.reserved a + amount.toNat ≤ e.balance a := by
    rw [canDebit_iff, represents.reserved, represents.balance]
    omega
  unfold Follows serveRequest bookRequest Server.handleDirect Server.handlePrepare
  simp only [DirectRequest.meaning, Escrow.step, check, fresh, not_false_eq_true, true_and]
  split
  · refine ⟨rfl, represents.balance, fun x => ?_, represents.indexed.lockFunds unused a amount⟩
    simp only [Chain.lockFunds, FMap.get_set, Escrow.hold, Finset.mem_insert, represents.locked]
    by_cases own : x = txID
    · simp [own, nonneg]
    · simp [own]
  · exact ⟨rfl, represents⟩

theorem Represents.locked_clearLock (txID x : TxID) :
    (s.chain.clearLock txID).locked.get x =
      if x ∈ e.holds.erase txID then some ⟨e.owner x, e.amount x⟩ else none := by
  rw [Chain.clearLock_eq]
  simp only [Chain.get_locked_clearLockLocked, represents.locked, Finset.mem_erase]
  by_cases own : x = txID <;> simp [own]

theorem Represents.abort (txID : TxID) : Follows s e (.abort txID) := by
  have cleared := represents.locked_clearLock txID
  unfold Follows serveRequest bookRequest Server.handleDirect Server.handleAbort
  simp only [DirectRequest.meaning, Escrow.step, Chain.getLockedFunds]
  by_cases held : txID ∈ e.holds
  · simp only [represents.locked, held, if_true, decide_true]
    exact ⟨rfl, represents.balance, cleared, represents.indexed.clearLock txID⟩
  · simp only [represents.locked, held, if_false, decide_false]
    refine ⟨rfl, represents.balance, fun x => ?_, represents.indexed⟩
    have same : (e.release txID).holds = e.holds := Finset.erase_eq_of_notMem held
    rw [represents.locked, same]
    rfl

/-- A commit debits exactly the hold it clears. -/
theorem Represents.commit (txID : TxID) : Follows s e (.commit txID) := by
  unfold Follows serveRequest bookRequest Server.handleDirect Server.handleCommit
  simp only [DirectRequest.meaning, Escrow.step, Chain.getLockedFunds]
  by_cases held : txID ∈ e.holds
  · have enough : (e.amount txID : Int) ≤ (s.evmState.balance (e.owner txID)).toNat := by
      rw [represents.balance]
      exact_mod_cast e.amount_le_balance held
    obtain ⟨debited, ran, after⟩ := exists_debit (Int.natCast_nonneg _) enough
    simp only [represents.locked, held, if_true, dite_true, ran]
    refine ⟨rfl, fun b => ?_, represents.locked_clearLock txID, represents.indexed.clearLock txID⟩
    simp only [after, represents.balance, Escrow.settle, Function.update_apply, Int.toNat_natCast]
  · simp only [represents.locked, held, if_false, dite_false]
    exact ⟨rfl, represents⟩

/-- **One request.**  Server and escrow give the same answer and stay together. -/
theorem Represents.handleDirect {req : DirectRequest} (careful : s.Careful req) :
    Follows s e req := by
  cases req with
  | transfer fromAddr toAddr amount => exact represents.transfer careful
  | faucet a amount => exact represents.credit rfl careful
  | prepare txID a amount => exact represents.prepare careful
  | commit txID => exact represents.commit txID
  | abort txID => exact represents.abort txID
  | credit a amount => exact represents.credit rfl careful

end Step

/-! ## Every list of requests -/

/-- **The direct endpoints are an escrow.**  For every list of requests whose callers are careful,
the server accepts exactly the requests that an escrow with the same balances accepts, and ends
with the escrow's balances and holds.  So a commit that is accepted has debited the hold it
clears; in particular no address ever has more reserved than it owns. -/
theorem direct_requests_refine_escrow (shardID : Int) (evm : EVMState) (reqs : List DirectRequest)
    (careful : Along (fun s req => some (serveRequest s req).2) Server.Careful
      (Server.fresh shardID evm) reqs) :
    let book : Escrow Address TxID := Escrow.empty fun a => (evm.balance a).toNat
    let s := answered serveRequest (Server.fresh shardID evm) reqs
    answers serveRequest (Server.fresh shardID evm) reqs = answers bookRequest book reqs ∧
      Represents s (answered bookRequest book reqs) ∧
      ∀ a, s.chain.getLockedAmountForAddress a ≤ (s.evmState.balance a).toNat := by
  intro book s
  have simulates : ∀ s e req, Represents s e → s.Careful req →
      (serveRequest s req).1 = (bookRequest e req).1 ∧
        Represents (serveRequest s req).2 (bookRequest e req).2 :=
    fun s e req represents careful => represents.handleDirect careful
  obtain ⟨same, represents⟩ :=
    careful.answers_eq Represents simulates (represents_fresh shardID evm)
  refine ⟨same, represents, fun a => ?_⟩
  rw [represents.reserved, represents.balance]
  exact_mod_cast (answered bookRequest book reqs).covered a

namespace DirectPole

def alice : Address := 0x100
def bob : Address := 0x200

def funded : EVMState := ⟨fun a => if a = alice then 100 else 0, fun _ _ => 0, fun _ => []⟩

/-- Two holds that fit, one that does not, and what becomes of them. -/
def payments : List DirectRequest :=
  [.prepare "a" alice 60, .prepare "b" alice 50, .transfer alice bob "40", .commit "a",
    .commit "a", .faucet alice "10", .prepare "b" alice 10, .abort "b", .credit bob "five"]

/-- The transfer spends what the prepare has reserved. -/
def careless : List DirectRequest :=
  [.prepare "a" alice 60, .transfer alice bob "100", .commit "a"]

instance (s : Server) : (req : DirectRequest) → Decidable (s.Careful req)
  | .transfer fromAddr toAddr amount => by unfold Server.Careful; infer_instance
  | .faucet addr amount => by unfold Server.Careful; infer_instance
  | .prepare txID addr amount => by unfold Server.Careful; infer_instance
  | .commit txID => by unfold Server.Careful; infer_instance
  | .abort txID => by unfold Server.Careful; infer_instance
  | .credit addr amount => by unfold Server.Careful; infer_instance

end DirectPole

open DirectPole in
/-- The payments and the escrow's answers to them. -/
theorem payments_follow_escrow :
    answers serveRequest (Server.fresh 0 funded) payments =
        [true, false, true, true, false, true, true, true, false] ∧
      answers bookRequest (Escrow.empty fun a => (funded.balance a).toNat) payments =
        [true, false, true, true, false, true, true, true, false] := by
  have accepted : answers serveRequest (Server.fresh 0 funded) payments =
      [true, false, true, true, false, true, true, true, false] := by decide +kernel
  obtain ⟨same, -⟩ := direct_requests_refine_escrow 0 funded payments (by decide +kernel)
  exact ⟨accepted, same.symm.trans accepted⟩

open DirectPole in
/-- All three requests are answered with success.  At the end the hold is gone, and the recipient
has the 100 that were to cover it: the commit has debited nothing. -/
theorem careless_transfer_empties_commit :
    answers serveRequest (Server.fresh 0 funded) careless = [true, true, true] ∧
      (answered serveRequest (Server.fresh 0 funded) careless).chain.locked.get "a" = none ∧
      (answered serveRequest (Server.fresh 0 funded) careless).evmState.balance alice = 0 ∧
      (answered serveRequest (Server.fresh 0 funded) careless).evmState.balance bob = 100 := by
  decide +kernel

end CrossShard.Shard
