/-
# Shard.Concurrency -- deliveries handled by concurrent requests

`handleOrchestratorShardBlock` holds the buffer's lock during `ProcessBlock` only; the released
blocks are processed afterwards, one `processOrchestratorBlock` at a time.  A `Desk` is the
server together with the blocks that each running request has still to process, and the turns
of the requests may alternate in any way.

* `Desk.accounts`: what was waiting or is released is handled or still waiting.
* `Ascends`: the buffer releases the blocks in sequence, whatever the requests do.
* `deliveries_lose_no_block_iff`: when all requests are done, the released blocks have been
  applied once each and in order if and only if every turn took the lowest block that was
  waiting.
-/
import CrossShard.Shard.Recovery

namespace CrossShard.Shard

set_option autoImplicit false

open CrossShard.Library CrossShard.Protocol

/-! ## Requests in progress -/

/-- The server, and for each delivery request the released blocks it has still to process. -/
structure Desk where
  server : Server
  requests : List (List OrchestratorShardBlock)

/-- An atomic step: a request comes in and runs `ProcessBlock`, or request `i` processes the
next of its blocks. -/
inductive Turn where
  | arrive (block : OrchestratorShardBlock)
  | process (i : Nat)

namespace Desk

def start (shardID : Int) (evm : EVMState) : Desk := ⟨Server.fresh shardID evm, []⟩

/-- The blocks that are released and not yet processed. -/
def waiting (d : Desk) : List OrchestratorShardBlock := d.requests.flatten

/-- A request comes in: `ProcessBlock` hands it the blocks to process. -/
def arrive (d : Desk) (block : OrchestratorShardBlock) : Desk :=
  ⟨{ d.server with blockBuffer := (d.server.blockBuffer.processBlock block).2 },
    d.requests ++ [d.server.ready block]⟩

theorem waiting_arrive (d : Desk) (block : OrchestratorShardBlock) :
    (d.arrive block).waiting = d.waiting ++ d.server.ready block := by
  simp [arrive, waiting]

def step (d : Desk) : Turn → Option Desk
  | .arrive block => some (d.arrive block)
  | .process i =>
      match d.requests[i]? with
      | some (block :: rest) =>
          some ⟨d.server.processOrchestratorBlock block, d.requests.set i rest⟩
      | _ => none

/-- The blocks that the buffer releases in a turn. -/
def releases (d : Desk) : Turn → List OrchestratorShardBlock
  | .arrive block => d.server.ready block
  | .process _ => []

/-- The block that a turn processes. -/
def handles (d : Desk) : Turn → List OrchestratorShardBlock
  | .arrive _ => []
  | .process i => ((d.requests[i]?).getD []).take 1

/-- All blocks released during the turns, and all blocks processed during them, in order. -/
def released (d : Desk) (turns : List Turn) : List OrchestratorShardBlock :=
  outputs step releases d turns

def handled (d : Desk) (turns : List Turn) : List OrchestratorShardBlock :=
  outputs step handles d turns

/-- What a turn can do. -/
inductive Taken (d : Desk) : Turn → Desk → Prop
  | arrived (block : OrchestratorShardBlock) : Taken d (.arrive block) (d.arrive block)
  | processed (i : Nat) (block : OrchestratorShardBlock)
      (requests : List (List OrchestratorShardBlock)) (handled : d.handles (.process i) = [block])
      (taken : d.waiting.Perm (block :: requests.flatten)) :
      Taken d (.process i) ⟨d.server.processOrchestratorBlock block, requests⟩

theorem flatten_set_perm {α : Type} {lists : List (List α)} {i : Nat} {x : α} {rest : List α}
    (found : lists[i]? = some (x :: rest)) :
    lists.flatten.Perm (x :: (lists.set i rest).flatten) := by
  induction lists generalizing i with
  | nil => simp at found
  | cons first lists ih =>
      cases i with
      | zero =>
          simp only [List.getElem?_cons_zero, Option.some.injEq] at found
          rw [found]
          rfl
      | succ i =>
          have later := ih (List.getElem?_cons_succ.symm.trans found)
          simp only [List.flatten_cons, List.set_cons_succ]
          exact (later.append_left first).trans List.perm_middle

theorem taken_of_step {d d' : Desk} {turn : Turn} (stepped : d.step turn = some d') :
    Taken d turn d' := by
  cases turn with
  | arrive block =>
      cases stepped
      exact .arrived block
  | process i =>
      simp only [step] at stepped
      split at stepped
      · rename_i block rest found
        cases stepped
        exact .processed i block _ (by simp [handles, found]) (flatten_set_perm found)
      · cases stepped

/-- A turn processes at most one block. -/
theorem eq_of_mem_handles {d d' : Desk} {turn : Turn} (taken : Taken d turn d')
    {b b' : OrchestratorShardBlock} (here : b ∈ d.handles turn) (here' : b' ∈ d.handles turn) :
    b = b' := by
  cases taken with
  | arrived block => cases here
  | processed i block requests handled taken =>
      rw [handled] at here here'
      rw [List.mem_singleton.1 here, List.mem_singleton.1 here']

/-! ## Every released block is handled -/

theorem accounts_step {d d' : Desk} {turn : Turn} (taken : Taken d turn d') :
    (d.waiting ++ d.releases turn).Perm (d.handles turn ++ d'.waiting) := by
  cases taken with
  | arrived block =>
      rw [waiting_arrive]
      exact List.Perm.refl _
  | processed i block requests handled taken =>
      rw [handled, releases, List.append_nil]
      exact taken

/-- What was waiting or is released during the turns is handled during them or still waits. -/
theorem accounts {d d' : Desk} {turns : List Turn} (reached : run step d turns = some d') :
    (d.waiting ++ d.released turns).Perm (d.handled turns ++ d'.waiting) := by
  induction turns generalizing d with
  | nil =>
      cases reached
      simp [released, handled, outputs]
  | cons turn turns ih =>
      obtain ⟨t, stepped, rest⟩ := run_cons_eq_some.1 reached
      have first := accounts_step (taken_of_step stepped)
      have later := ih rest
      rw [released, handled, outputs_cons _ stepped, outputs_cons _ stepped, ← List.append_assoc]
      refine (first.append_right _).trans ?_
      rw [List.append_assoc, List.append_assoc]
      exact later.append_left _

theorem perm_of_done {d d' : Desk} {turns : List Turn} (reached : run step d turns = some d')
    (done : d'.waiting = []) : (d.waiting ++ d.released turns).Perm (d.handled turns) := by
  have all := accounts reached
  rwa [done, List.append_nil] at all

end Desk

/-! ## The buffer releases in sequence -/

/-- The blocks have the heights from `expected` on, and `expected'` is the next one. -/
inductive Ascends : Nat → List OrchestratorShardBlock → Nat → Prop
  | nil (expected : Nat) : Ascends expected [] expected
  | cons {expected expected' : Nat} {block : OrchestratorShardBlock}
      {blocks : List OrchestratorShardBlock} (height : block.height = expected)
      (later : Ascends (nextHeight expected) blocks expected') :
      Ascends expected (block :: blocks) expected'

theorem Ascends.append {e e' e'' : Nat} {blocks blocks' : List OrchestratorShardBlock}
    (first : Ascends e blocks e') (second : Ascends e' blocks' e'') :
    Ascends e (blocks ++ blocks') e'' := by
  induction first with
  | nil => exact second
  | cons height _ ih => exact .cons height (ih second)

theorem nextHeight_cases (height : Nat) (bound : height < 2 ^ 64) :
    nextHeight height = height + 1 ∧ height + 1 < 2 ^ 64 ∨ nextHeight height = 0 := by
  unfold nextHeight
  omega

theorem Ascends.bound {e e' : Nat} {blocks : List OrchestratorShardBlock}
    (ascends : Ascends e blocks e') (bound : e < 2 ^ 64) : e' < 2 ^ 64 := by
  induction ascends with
  | nil => exact bound
  | cons _ _ ih => exact ih (Nat.mod_lt _ (by decide))

/-- Once the counter has wrapped, the next block has height 0. -/
theorem Ascends.of_wrapped {e' : Nat} {blocks : List OrchestratorShardBlock}
    (ascends : Ascends 0 blocks e') (nonzero : ∀ b ∈ blocks, b.height ≠ 0) :
    blocks = [] ∧ e' = 0 := by
  cases ascends with
  | nil => exact ⟨rfl, rfl⟩
  | cons zero _ => exact absurd zero (nonzero _ List.mem_cons_self)

/-- Until the counter wraps, the heights increase and stay below the next one. -/
theorem Ascends.rising {e e' : Nat} {blocks : List OrchestratorShardBlock}
    (ascends : Ascends e blocks e') (bound : e < 2 ^ 64) (nonzero : ∀ b ∈ blocks, b.height ≠ 0) :
    blocks.Pairwise (fun b b' => b.height < b'.height) ∧
      (∀ b ∈ blocks, e ≤ b.height ∧ (e' = 0 ∨ b.height < e')) ∧ (e' = 0 ∨ e ≤ e') := by
  induction ascends with
  | nil => exact ⟨List.Pairwise.nil, nofun, .inr le_rfl⟩
  | @cons e e' block blocks height later ih =>
      have rest := fun b member => nonzero b (List.mem_cons_of_mem _ member)
      rcases nextHeight_cases e bound with ⟨next, below⟩ | wrapped
      · obtain ⟨rising, between, grows⟩ := ih (by omega) rest
        refine ⟨List.pairwise_cons.2 ⟨?_, rising⟩, ?_, by omega⟩
        · intro b member
          have := between b member
          omega
        · intro b member
          rcases List.mem_cons.1 member with rfl | member
          · omega
          · have := between b member
            omega
      · rw [wrapped] at later
        obtain ⟨rfl, rfl⟩ := later.of_wrapped rest
        exact ⟨List.pairwise_singleton _ _, by simp [height], .inl rfl⟩

namespace BlockBuffer

theorem Shelved.ascends_releases {b b' : BlockBuffer} {released : List OrchestratorShardBlock}
    (shelved : b.Shelved) (done : Releases b released b') :
    Ascends b.expected released b'.expected := by
  induction done with
  | stop b => exact .nil _
  | next found rest ih => exact .cons (shelved _ _ found) (ih (shelved.delete _ _))

theorem Shelved.ascends_processed {b b' : BlockBuffer} {block : OrchestratorShardBlock}
    {ready : Option (List OrchestratorShardBlock)} (shelved : b.Shelved)
    (done : Processed b block ready b') : Ascends b.expected (ready.getD []) b'.expected := by
  cases done with
  | ready next rest stopped =>
      have same : BlockBuffer.Shelved { b with expected := nextHeight b.expected } := shelved
      exact .cons next (same.ascends_releases rest)
  | dropped early full => exact .nil _
  | repeated early room present => exact .nil _
  | stored early room absent => exact .nil _
  | ignored late => exact .nil _

theorem Shelved.processBlock {b : BlockBuffer} (shelved : b.Shelved)
    (block : OrchestratorShardBlock) :
    (b.processBlock block).2.Shelved ∧
      Ascends b.expected ((b.processBlock block).1.getD []) (b.processBlock block).2.expected :=
  have done := b.processed_processBlock block
  ⟨shelved.processed done, shelved.ascends_processed done⟩

end BlockBuffer

namespace Desk

/-! ## Turns in order -/

/-- The turn processes the lowest block that waits; its height is not 0, which a buffer whose
counter has wrapped would release. -/
def InOrder (d : Desk) (turn : Turn) : Prop :=
  ∀ b ∈ d.handles turn, b.height ≠ 0 ∧ ∀ b' ∈ d.waiting, b.height ≤ b'.height

instance (d : Desk) (turn : Turn) : Decidable (InOrder d turn) :=
  inferInstanceAs (Decidable (∀ b ∈ d.handles turn, _ ∧ ∀ b' ∈ d.waiting, _))

/-- The processed height. -/
def last (d : Desk) : Nat := d.server.chain.lastOrchestratorHeight

theorem ascends_released {d d' : Desk} {turns : List Turn}
    (shelved : d.server.blockBuffer.Shelved) (reached : run step d turns = some d') :
    Ascends d.server.blockBuffer.expected (d.released turns) d'.server.blockBuffer.expected := by
  induction turns generalizing d with
  | nil =>
      cases reached
      exact .nil _
  | cons turn turns ih =>
      obtain ⟨t, stepped, rest⟩ := run_cons_eq_some.1 reached
      rw [released, outputs_cons _ stepped]
      cases taken_of_step stepped with
      | arrived block =>
          obtain ⟨shelved', ascends⟩ := shelved.processBlock block
          exact ascends.append (ih shelved' rest)
      | processed i block requests handled taken =>
          exact @ih ⟨d.server.processOrchestratorBlock block, requests⟩ shelved rest

/-- What waits is new, distinct, and below the height the buffer expects. -/
structure Orderly (d : Desk) : Prop where
  shelved : d.server.blockBuffer.Shelved
  bound : d.server.blockBuffer.expected < 2 ^ 64
  distinct : (d.waiting.map OrchestratorShardBlock.height).Nodup
  new : ∀ b ∈ d.waiting, d.last < b.height
  ahead : d.server.blockBuffer.expected = 0 ∨
    d.last < d.server.blockBuffer.expected ∧
      ∀ b ∈ d.waiting, b.height < d.server.blockBuffer.expected

theorem orderly_start (shardID : Int) (evm : EVMState) : Orderly (start shardID evm) where
  shelved := fun height block found => by
    simp [start, Server.fresh, BlockBuffer.newBlockBuffer] at found
  bound := by
    show 1 < 2 ^ 64
    decide
  distinct := List.nodup_nil
  new := nofun
  ahead := .inr ⟨Nat.zero_lt_one, nofun⟩

/-- A request comes in: what the buffer releases is above everything that waits. -/
theorem Orderly.arrive {d : Desk} (orderly : Orderly d) (block : OrchestratorShardBlock)
    (nonzero : ∀ b ∈ d.server.ready block, b.height ≠ 0) : Orderly (d.arrive block) := by
  obtain ⟨shelved, ascends⟩ := orderly.shelved.processBlock block
  have waits := d.waiting_arrive block
  rcases orderly.ahead with wrapped | ⟨high, below⟩
  · rw [wrapped] at ascends
    obtain ⟨nothing, still⟩ := ascends.of_wrapped nonzero
    have none : d.server.ready block = [] := nothing
    rw [none, List.append_nil] at waits
    refine ⟨shelved, ?_, ?_, ?_, .inl still⟩
    · show (d.server.blockBuffer.processBlock block).2.expected < _
      rw [still]
      decide
    · rw [waits]
      exact orderly.distinct
    · rw [waits]
      exact orderly.new
  · obtain ⟨rising, between, grows⟩ := ascends.rising orderly.bound nonzero
    have heights : ((d.server.ready block).map OrchestratorShardBlock.height).Nodup :=
      List.pairwise_map.2 (rising.imp fun order => Nat.ne_of_lt order)
    refine ⟨shelved, ascends.bound orderly.bound, ?_, ?_, ?_⟩
    · rw [waits, List.map_append, List.nodup_append]
      refine ⟨orderly.distinct, heights, ?_⟩
      intro h old h' new
      obtain ⟨b, waited, rfl⟩ := List.mem_map.1 old
      obtain ⟨b', ready, rfl⟩ := List.mem_map.1 new
      have := below b waited
      have := (between b' ready).1
      omega
    · rw [waits]
      intro b member
      rcases List.mem_append.1 member with waited | ready
      · exact orderly.new b waited
      · exact Nat.lt_of_lt_of_le high (between b ready).1
    · rcases grows with zero | grows
      · exact .inl zero
      · refine .inr ⟨Nat.lt_of_lt_of_le high grows, ?_⟩
        rw [waits]
        intro b member
        rcases List.mem_append.1 member with waited | ready
        · exact Nat.lt_of_lt_of_le (below b waited) grows
        · rcases (between b ready).2 with zero | under
          · omega
          · exact under

/-- A request processes the lowest block: what still waits is above it. -/
theorem Orderly.process {d : Desk} (orderly : Orderly d) {block : OrchestratorShardBlock}
    {requests : List (List OrchestratorShardBlock)}
    (taken : d.waiting.Perm (block :: requests.flatten))
    (lowest : ∀ b' ∈ d.waiting, block.height ≤ b'.height) :
    Orderly ⟨d.server.processOrchestratorBlock block, requests⟩ ∧ d.last < block.height ∧
      last ⟨d.server.processOrchestratorBlock block, requests⟩ = block.height := by
  have here : block ∈ d.waiting := taken.mem_iff.2 List.mem_cons_self
  have above := orderly.new block here
  have moved := lastOrchestratorHeight_process d.server.chain block
  have height : last ⟨d.server.processOrchestratorBlock block, requests⟩ = block.height := by
    show (d.server.chain.processOrchestratorBlock block).lastOrchestratorHeight = _
    rw [last] at above
    omega
  have distinct : (block.height :: requests.flatten.map OrchestratorShardBlock.height).Nodup :=
    ((taken.map OrchestratorShardBlock.height).nodup_iff).1 orderly.distinct
  have rest : ∀ b ∈ requests.flatten, b ∈ d.waiting := fun b member =>
    taken.mem_iff.2 (List.mem_cons_of_mem _ member)
  refine ⟨⟨orderly.shelved, orderly.bound, (List.nodup_cons.1 distinct).2, ?_, ?_⟩, above, height⟩
  · intro b member
    rw [height]
    refine Nat.lt_of_le_of_ne (lowest b (rest b member)) fun same => ?_
    refine (List.nodup_cons.1 distinct).1 ?_
    rw [same]
    exact List.mem_map_of_mem member
  · rw [height]
    exact orderly.ahead.imp_right fun ahead => ⟨ahead.2 block here, fun b member =>
      ahead.2 b (rest b member)⟩

/-- **Turns in order** process blocks of increasing heights. -/
theorem Orderly.rising {d d' : Desk} {turns : List Turn} (orderly : Orderly d)
    (inOrder : Along step InOrder d turns) (nonzero : ∀ b ∈ d.released turns, b.height ≠ 0)
    (reached : run step d turns = some d') :
    (d.handled turns).Pairwise (fun b b' => b.height < b'.height) ∧
      ∀ b ∈ d.handled turns, d.last < b.height := by
  induction turns generalizing d with
  | nil => exact ⟨List.Pairwise.nil, nofun⟩
  | cons turn turns ih =>
      obtain ⟨t, stepped, rest⟩ := run_cons_eq_some.1 reached
      obtain ⟨here, later⟩ := (along_cons_iff stepped).1 inOrder
      rw [released, outputs_cons _ stepped] at nonzero
      have nonzero' : ∀ b ∈ t.released turns, b.height ≠ 0 := fun b member =>
        nonzero b (List.mem_append_right _ member)
      rw [handled, outputs_cons _ stepped]
      cases taken_of_step stepped with
      | arrived block =>
          exact ih (orderly.arrive block fun b member =>
            nonzero b (List.mem_append_left _ member)) later nonzero' rest
      | processed i block requests handled taken =>
          obtain ⟨orderly', above, height⟩ := orderly.process taken
            (here block (by rw [handled]; exact List.mem_cons_self)).2
          obtain ⟨rising, new⟩ := ih orderly' later nonzero' rest
          rw [height] at new
          rw [handled]
          refine ⟨List.pairwise_cons.2 ⟨new, rising⟩, ?_⟩
          intro b member
          rcases List.mem_cons.1 member with rfl | member
          · exact above
          · exact Nat.lt_trans above (new b member)

/-! ## Complete executions -/

end Desk

/-- The applied blocks have increasing heights above the processed one. -/
theorem rising_applied {blocks : List OrchestratorShardBlock} :
    ∀ {c : Chain}, (applied c blocks).Pairwise (fun b b' => b.height < b'.height) ∧
      ∀ b ∈ applied c blocks, c.lastOrchestratorHeight < b.height := by
  induction blocks with
  | nil => exact ⟨List.Pairwise.nil, nofun⟩
  | cons block blocks ih =>
      intro c
      have moved := lastOrchestratorHeight_process c block
      obtain ⟨rising, above⟩ := @ih (c.processOrchestratorBlock block)
      rw [applied]
      split
      · refine ⟨rising, fun b member => ?_⟩
        have := above b member
        omega
      · refine ⟨List.pairwise_cons.2 ⟨fun b member => ?_, rising⟩, fun b member => ?_⟩
        · have := above b member
          omega
        · rcases List.mem_cons.1 member with rfl | member
          · omega
          · have := above b member
            omega

theorem applied_sublist (blocks : List OrchestratorShardBlock) :
    ∀ c : Chain, (applied c blocks).Sublist blocks := by
  induction blocks with
  | nil => exact fun _ => List.Sublist.refl _
  | cons block blocks ih =>
      intro c
      rw [applied]
      split
      · exact (ih _).cons block
      · exact (ih _).cons_cons block

/-- Skipping the blocks that fail the height check changes nothing. -/
theorem foldl_applied (blocks : List OrchestratorShardBlock) :
    ∀ c : Chain, (applied c blocks).foldl Chain.processOrchestratorBlock c =
      blocks.foldl Chain.processOrchestratorBlock c := by
  induction blocks with
  | nil => exact fun _ => rfl
  | cons block blocks ih =>
      intro c
      rw [applied, List.foldl_append, List.foldl_cons]
      split
      · rename_i old
        have same : c.processOrchestratorBlock block = c := if_pos old
        rw [same]
        exact ih c
      · exact ih _

namespace Desk

/-- The blocks that get past the height check during the turns. -/
def appliedIn (d : Desk) (turns : List Turn) : List OrchestratorShardBlock :=
  applied d.server.chain (d.handled turns)

/-- If nothing is skipped, every turn took the lowest block. -/
theorem inOrder_of_applied {d d' : Desk} {turns : List Turn} (idle : d.waiting = [])
    (reached : run step d turns = some d') (done : d'.waiting = [])
    (all : d.appliedIn turns = d.released turns) : Along step InOrder d turns := by
  have same : d.appliedIn turns = d.handled turns := by
    have perm := perm_of_done reached done
    rw [idle, List.nil_append, ← all] at perm
    exact (applied_sublist _ _).eq_of_length perm.length_eq
  obtain ⟨rising, above⟩ := @rising_applied (d.handled turns) d.server.chain
  rw [show applied d.server.chain (d.handled turns) = d.handled turns from same] at rising above
  rw [along_iff]
  rintro pre turn post m rfl before b takes
  obtain ⟨t, stepped, later⟩ := run_cons_eq_some.1 (run_rest before reached)
  have cut : d.handled (pre ++ turn :: post) =
      d.handled pre ++ (m.handles turn ++ t.handled post) := by
    rw [handled, outputs_append _ before, outputs_cons _ stepped]
    rfl
  have member : b ∈ d.handled (pre ++ turn :: post) := by
    rw [cut]
    exact List.mem_append_right _ (List.mem_append_left _ takes)
  refine ⟨fun zero => by have := above b member; omega, fun b' waits => ?_⟩
  -- what waits before the turn is processed in it or later
  have handled' : b' ∈ m.handles turn ++ t.handled post := by
    have perm := perm_of_done (run_rest before reached) done
    rw [handled, outputs_cons _ stepped] at perm
    exact perm.mem_iff.1 (List.mem_append_left _ waits)
  rw [cut] at rising
  have order := (List.pairwise_append.1 (List.pairwise_append.1 rising).2.1)
  rcases List.mem_append.1 handled' with now | after
  · rw [eq_of_mem_handles (taken_of_step stepped) takes now]
  · exact (order.2.2 b takes b' after).le

/-- If every turn took the lowest block, nothing is skipped. -/
theorem applied_of_inOrder {d d' : Desk} {turns : List Turn} (orderly : Orderly d)
    (idle : d.waiting = []) (reached : run step d turns = some d') (done : d'.waiting = [])
    (inOrder : Along step InOrder d turns) : d.appliedIn turns = d.released turns := by
  have perm := perm_of_done reached done
  rw [idle, List.nil_append] at perm
  have nonzero : ∀ b ∈ d.released turns, b.height ≠ 0 := by
    intro b member
    obtain ⟨pre, turn, post, m, split, before, takes⟩ :=
      exists_of_mem_outputs (perm.mem_iff.1 member)
    exact (along_iff.1 inOrder pre turn post m split before b takes).1
  obtain ⟨rising, above⟩ := orderly.rising inOrder nonzero reached
  have sequence := ((ascends_released orderly.shelved reached).rising orderly.bound nonzero).1
  rw [appliedIn, applied_of_rising rising above]
  refine perm.symm.eq_of_pairwise ?_ rising sequence
  intro b b' _ _ lower higher
  omega

theorem chain_eq_handled {d d' : Desk} {turns : List Turn} (reached : run step d turns = some d') :
    d'.server.chain = (d.handled turns).foldl Chain.processOrchestratorBlock d.server.chain := by
  refine run_project (fun d => d.server.chain) Chain.processOrchestratorBlock ?_ reached
  intro d turn t stepped
  cases taken_of_step stepped with
  | arrived block => rfl
  | processed i block requests handled taken =>
      rw [handled]
      rfl

/-- **Concurrent deliveries.**  When all requests are done, the blocks the buffer released have
been applied once each and in the order of their heights, and the chain is the one they lead to,
if and only if every turn took the lowest of the blocks waiting. -/
theorem deliveries_lose_no_block_iff (shardID : Int) (evm : EVMState) (turns : List Turn)
    (d : Desk) (reached : run step (start shardID evm) turns = some d) (done : d.waiting = []) :
    ((start shardID evm).appliedIn turns = (start shardID evm).released turns ∧
        ((start shardID evm).appliedIn turns).Pairwise (fun b b' => b.height < b'.height) ∧
        d.server.chain = ((start shardID evm).released turns).foldl
          Chain.processOrchestratorBlock (Chain.newChain shardID)) ↔
      Along step InOrder (start shardID evm) turns := by
  constructor
  · intro property
    exact inOrder_of_applied rfl reached done property.1
  · intro inOrder
    have all := applied_of_inOrder (orderly_start shardID evm) rfl reached done inOrder
    refine ⟨all, rising_applied.1, ?_⟩
    rw [← all]
    exact (chain_eq_handled reached).trans (foldl_applied _ _).symm

end Desk

namespace ConcurrencyPole

open RecoveryPole Desk

def idle : Desk := start 0 ⟨fun _ => 0, fun _ _ => 0, fun _ => []⟩

/-- Two requests deliver blocks 1 and 2; the second one processes its block first. -/
def overtaken : List Turn := [.arrive (blockOf 1), .arrive (blockOf 2), .process 1, .process 0]

def inTurn : List Turn := [.arrive (blockOf 2), .arrive (blockOf 1), .process 1, .process 1]

end ConcurrencyPole

open RecoveryPole ConcurrencyPole in
/-- Block 1 is released and processed after block 2: the height check skips it, and the `Lock` of
the transaction it orders is never queued. -/
theorem overtaken_block_is_skipped :
    (idle.released overtaken).map OrchestratorShardBlock.height = [1, 2] ∧
      (idle.appliedIn overtaken).map OrchestratorShardBlock.height = [2] ∧
      ((run Desk.step idle overtaken).map fun d =>
        (d.waiting.length, d.last, d.server.chain.currentTxs)) = some (0, 2, []) := by
  decide +kernel

open ConcurrencyPole in
/-- Delivered in reverse and processed in turn, both blocks are applied. -/
theorem blocks_in_turn_are_applied : ∃ d, run Desk.step idle inTurn = some d ∧
    idle.appliedIn inTurn = idle.released inTurn ∧ d.last = 2 := by
  refine ⟨_, rfl, ?_, by decide +kernel⟩
  refine ((Desk.deliveries_lose_no_block_iff 0 _ inTurn _ rfl rfl).2 ?_).1
  decide +kernel

end CrossShard.Shard
