/-
# Shard.BlockBuffer -- out-of-order delivery of orchestrator blocks

`internal/shard/block_buffer.go`.  Heights are 64-bit counters, so the one increment
wraps (`nextHeight`).  The drain loop removes one buffered block per turn; `drain` is
that loop with the number of buffered blocks as its fuel, which always suffices
(`drain_stops`).  `Releases` and `Processed` say once what the loop and a call can do.
-/
import CrossShard.Protocol.Types

namespace CrossShard.Shard

set_option autoImplicit false

open CrossShard.Library CrossShard.Protocol

/-- `h++` on a `uint64`. -/
def nextHeight (h : Nat) : Nat := (h + 1) % 2 ^ 64

theorem nextHeight_of_lt {height : Nat} (bounded : height < 2 ^ 64 - 1) :
    nextHeight height = height + 1 := by
  unfold nextHeight
  omega

structure BlockBuffer where
  expected : Nat
  buffered : FMap Nat OrchestratorShardBlock
  maxBuffer : Int

namespace BlockBuffer

def newBlockBuffer (startHeight : Nat) (maxBuffer : Int) : BlockBuffer :=
  ⟨startHeight, ∅, maxBuffer⟩

/-- Release the buffered successors that are now in sequence. -/
def drain : Nat → BlockBuffer → List OrchestratorShardBlock × BlockBuffer
  | 0, b => ([], b)
  | fuel + 1, b =>
      match b.buffered.get b.expected with
      | none => ([], b)
      | some next =>
          let (released, b') := drain fuel
            { b with
              buffered := b.buffered.delete b.expected
              expected := nextHeight b.expected }
          (next :: released, b')

/-- `ProcessBlock`: the blocks that are ready, in order; `none` when the block was
buffered or ignored. -/
def processBlock (b : BlockBuffer) (block : OrchestratorShardBlock) :
    Option (List OrchestratorShardBlock) × BlockBuffer :=
  if block.height = b.expected then
    let (released, b') := drain b.buffered.len { b with expected := nextHeight b.expected }
    (some (block :: released), b')
  else if b.expected < block.height then
    if b.maxBuffer ≤ b.buffered.len then (none, b)
    else if (b.buffered.get block.height).isSome then (none, b)
    else (none, { b with buffered := b.buffered.set block.height block })
  else (none, b)

/-- The fuel suffices: when the loop ends, the expected block is not buffered. -/
theorem drain_stops (fuel : Nat) (b : BlockBuffer) (enough : b.buffered.len ≤ fuel) :
    (drain fuel b).2.buffered.get (drain fuel b).2.expected = none := by
  induction fuel generalizing b with
  | zero => exact FMap.len_eq_zero.1 (Nat.le_zero.1 enough) _
  | succ fuel ih =>
      cases found : b.buffered.get b.expected with
      | none => simp [drain, found]
      | some next =>
          simp only [drain, found]
          apply ih
          have fewer := FMap.len_delete (m := b.buffered) (k := b.expected) (by simp [found])
          simp only
          omega

/-! ## What a call can do -/

/-- The loop has released these blocks, one turn after the other. -/
inductive Releases : BlockBuffer → List OrchestratorShardBlock → BlockBuffer → Prop
  | stop (b : BlockBuffer) : Releases b [] b
  | next {b b' : BlockBuffer} {block : OrchestratorShardBlock}
      {released : List OrchestratorShardBlock} (found : b.buffered.get b.expected = some block)
      (rest : Releases
        { b with
          buffered := b.buffered.delete b.expected
          expected := nextHeight b.expected } released b') :
      Releases b (block :: released) b'

theorem releases_drain (fuel : Nat) (b : BlockBuffer) :
    Releases b (drain fuel b).1 (drain fuel b).2 := by
  induction fuel generalizing b with
  | zero => exact .stop b
  | succ fuel ih =>
      unfold drain
      split
      · exact .stop b
      · rename_i next found
        exact .next found (ih _)

/-- The outcomes of `ProcessBlock`, with the checks that led to them. -/
inductive Processed (b : BlockBuffer) (block : OrchestratorShardBlock) :
    Option (List OrchestratorShardBlock) → BlockBuffer → Prop
  | ready (next : block.height = b.expected) {released : List OrchestratorShardBlock}
      {b' : BlockBuffer} (rest : Releases { b with expected := nextHeight b.expected } released b')
      (stopped : b'.buffered.get b'.expected = none) :
      Processed b block (some (block :: released)) b'
  | dropped (early : b.expected < block.height) (full : b.maxBuffer ≤ b.buffered.len) :
      Processed b block none b
  | repeated (early : b.expected < block.height) (room : b.buffered.len < b.maxBuffer)
      (present : b.buffered.get block.height ≠ none) : Processed b block none b
  | stored (early : b.expected < block.height) (room : b.buffered.len < b.maxBuffer)
      (absent : b.buffered.get block.height = none) :
      Processed b block none { b with buffered := b.buffered.set block.height block }
  | ignored (late : block.height < b.expected) : Processed b block none b

/-- **Inversion.**  Every call has one of the listed outcomes. -/
theorem processed_processBlock (b : BlockBuffer) (block : OrchestratorShardBlock) :
    Processed b block (b.processBlock block).1 (b.processBlock block).2 := by
  unfold processBlock
  split
  · rename_i next
    exact .ready next (releases_drain _ _) (drain_stops _ _ le_rfl)
  · rename_i other
    split
    · rename_i early
      split
      · rename_i full
        exact .dropped early full
      · rename_i room
        split
        · rename_i present
          exact .repeated early (by omega) (Option.isSome_iff_ne_none.1 present)
        · rename_i absent
          exact .stored early (by omega) (by simpa using absent)
    · exact .ignored (by omega)

/-! ## Blocks at their heights -/

/-- Buffered blocks are filed under their heights. -/
def Shelved (b : BlockBuffer) : Prop :=
  ∀ height block, b.buffered.get height = some block → block.height = height

theorem Shelved.delete {b : BlockBuffer} (shelved : b.Shelved) (height expected : Nat) :
    Shelved { b with buffered := b.buffered.delete height, expected := expected } := by
  intro k block listed
  rw [FMap.get_delete] at listed
  split at listed
  · cases listed
  · exact shelved k block listed

theorem Shelved.releases {b b' : BlockBuffer} {released : List OrchestratorShardBlock}
    (shelved : b.Shelved) (done : Releases b released b') : b'.Shelved := by
  induction done with
  | stop b => exact shelved
  | next found rest ih => exact ih (shelved.delete _ _)

theorem Shelved.processed {b b' : BlockBuffer} {block : OrchestratorShardBlock}
    {ready : Option (List OrchestratorShardBlock)} (shelved : b.Shelved)
    (done : Processed b block ready b') : b'.Shelved := by
  cases done with
  | ready next rest stopped =>
      have same : Shelved { b with expected := nextHeight b.expected } := shelved
      exact same.releases rest
  | dropped early full => exact shelved
  | repeated early room present => exact shelved
  | stored early room absent =>
      intro height block' listed
      rw [FMap.get_set] at listed
      split at listed
      · rename_i same
        cases listed
        exact same.symm
      · exact shelved height block' listed
  | ignored late => exact shelved

end BlockBuffer

end CrossShard.Shard
