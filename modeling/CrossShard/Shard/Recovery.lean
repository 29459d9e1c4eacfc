/-
# Shard.Recovery -- what crash recovery leaves out

`recoverFromOrchestrator` asks for the blocks above the last processed height one after the
other, and goes on when a fetch fails.  A later block then moves the processed height past the
missing one, which is skipped ever after.

* `recover_eq`: one recovery processes the blocks it could fetch, in order.
* `Chronicle`: the processed heights are increasing and end at the processed height.
* `recovered_without_holes_iff`: after any sequence of recoveries the heights processed are
  exactly `1 .. lastOrchestratorHeight` if and only if no recovery fetches a block above one that
  it failed to fetch.
-/
import Mathlib.Data.List.Sort
import CrossShard.Shard.Intake

namespace CrossShard.Shard

set_option autoImplicit false

open CrossShard.Library CrossShard.Protocol

/-! ## The blocks that are applied -/

/-- Of the blocks processed one after the other, those that pass the height check. -/
def applied : Chain → List OrchestratorShardBlock → List OrchestratorShardBlock
  | _, [] => []
  | c, block :: blocks =>
      (if block.height ≤ c.lastOrchestratorHeight then [] else [block]) ++
        applied (c.processOrchestratorBlock block) blocks

/-- Blocks of increasing heights above the processed one are all applied. -/
theorem applied_of_rising {blocks : List OrchestratorShardBlock} :
    ∀ {c : Chain}, blocks.Pairwise (fun b b' => b.height < b'.height) →
      (∀ b ∈ blocks, c.lastOrchestratorHeight < b.height) → applied c blocks = blocks := by
  induction blocks with
  | nil => exact fun _ _ => rfl
  | cons block blocks ih =>
      intro c rising above
      obtain ⟨first, rest⟩ := List.pairwise_cons.1 rising
      have new := above block List.mem_cons_self
      have moved := lastOrchestratorHeight_process c block
      rw [applied, if_neg (by omega), ih rest]
      · rfl
      · intro b later
        have := first b later
        omega

/-- The processed height is that of the highest block, if any is new. -/
theorem last_foldl_cases (blocks : List OrchestratorShardBlock) :
    ∀ c : Chain, (∀ b ∈ blocks, b.height ≤
        (blocks.foldl Chain.processOrchestratorBlock c).lastOrchestratorHeight) ∧
      ((blocks.foldl Chain.processOrchestratorBlock c).lastOrchestratorHeight =
          c.lastOrchestratorHeight ∨
        ∃ b ∈ blocks, b.height =
          (blocks.foldl Chain.processOrchestratorBlock c).lastOrchestratorHeight) := by
  induction blocks with
  | nil => exact fun c => ⟨nofun, .inl rfl⟩
  | cons block blocks ih =>
      intro c
      obtain ⟨below, attained⟩ := ih (c.processOrchestratorBlock block)
      have grows := BlockBuffer.le_last_foldl (c.processOrchestratorBlock block) blocks
      have moved := lastOrchestratorHeight_process c block
      rw [List.foldl_cons]
      refine ⟨?_, ?_⟩
      · intro b member
        rcases List.mem_cons.1 member with rfl | later
        · omega
        · exact below b later
      · rcases attained with same | ⟨b, later, high⟩
        · by_cases new : c.lastOrchestratorHeight < block.height
          · exact .inr ⟨block, List.mem_cons_self, by omega⟩
          · exact .inl (by omega)
        · exact .inr ⟨b, List.mem_cons_of_mem _ later, high⟩

/-! ## One recovery -/

namespace Server

/-- Whether the fetch brought a block. -/
def Fetched.isBlock : Fetched → Bool
  | .block _ => true
  | _ => false

/-- The blocks that `turns` iterations of the loop fetch, from `height` on. -/
def fetchedFrom (fetch : Nat → Fetched) : Nat → Nat → List OrchestratorShardBlock
  | 0, _ => []
  | turns + 1, height =>
      (match fetch height with
        | .block b => [b]
        | _ => []) ++ fetchedFrom fetch turns (height + 1)

theorem replay_eq_foldl (fetch : Nat → Fetched) (turns : Nat) :
    ∀ (height : Nat) (s : Server), replay fetch turns height s =
      (fetchedFrom fetch turns height).foldl processOrchestratorBlock s := by
  induction turns with
  | zero => exact fun _ _ => rfl
  | succ turns ih =>
      intro height s
      rw [replay, fetchedFrom, List.foldl_append, ih]
      cases fetch height <;> rfl

/-- The blocks that a recovery processes. -/
def handed (s : Server) (view : OrchestratorView) : List OrchestratorShardBlock :=
  match view.latest with
  | none => []
  | some orchestratorHeight =>
      fetchedFrom view.fetch (orchestratorHeight - s.chain.lastOrchestratorHeight)
        (s.chain.lastOrchestratorHeight + 1)

theorem recover_eq (s : Server) (view : OrchestratorView) :
    s.recoverFromOrchestrator view = (s.handed view).foldl processOrchestratorBlock s := by
  unfold recoverFromOrchestrator handed
  cases view.latest with
  | none => rfl
  | some orchestratorHeight =>
      dsimp only
      split
      · rename_i current
        rw [Nat.sub_eq_zero_of_le current]
        rfl
      · exact replay_eq_foldl view.fetch _ _ s

/-- The orchestrator answers with the block of the height asked for. -/
def Honest (view : OrchestratorView) : Prop :=
  ∀ height block, view.fetch height = .block block → block.height = height

theorem mem_fetchedFrom {fetch : Nat → Fetched} {block : OrchestratorShardBlock} (turns : Nat) :
    ∀ height, block ∈ fetchedFrom fetch turns height ↔
      ∃ h, height ≤ h ∧ h < height + turns ∧ fetch h = .block block := by
  induction turns with
  | zero => exact fun height => ⟨nofun, fun ⟨h, low, high, _⟩ => by omega⟩
  | succ turns ih =>
      intro height
      rw [fetchedFrom, List.mem_append, ih]
      constructor
      · rintro (here | ⟨h, low, high, found⟩)
        · refine ⟨height, le_rfl, by omega, ?_⟩
          cases fetched : fetch height with
          | block b =>
              rw [fetched] at here
              rw [List.mem_singleton.1 here]
          | failed => simp [fetched] at here
          | notFound => simp [fetched] at here
        · exact ⟨h, by omega, by omega, found⟩
      · rintro ⟨h, low, high, found⟩
        by_cases first : h = height
        · subst first
          exact .inl (by simp [found])
        · exact .inr ⟨h, by omega, by omega, found⟩

theorem rising_fetchedFrom {fetch : Nat → Fetched}
    (honest : ∀ height block, fetch height = .block block → block.height = height) (turns : Nat) :
    ∀ height, (fetchedFrom fetch turns height).Pairwise fun b b' => b.height < b'.height := by
  induction turns with
  | zero => exact fun _ => List.Pairwise.nil
  | succ turns ih =>
      intro height
      rw [fetchedFrom]
      refine List.pairwise_append.2 ⟨?_, ih (height + 1), ?_⟩
      · cases fetch height with
        | block b => exact List.pairwise_singleton _ _
        | failed => exact List.Pairwise.nil
        | notFound => exact List.Pairwise.nil
      · intro b here b' later
        obtain ⟨h, low, -, found⟩ := (mem_fetchedFrom turns (height + 1)).1 later
        cases fetched : fetch height with
        | block b₀ =>
            rw [fetched] at here
            rw [List.mem_singleton.1 here, honest _ _ fetched, honest _ _ found]
            omega
        | failed => simp [fetched] at here
        | notFound => simp [fetched] at here

/-- The heights that one recovery applies. -/
def appliedHeights (s : Server) (view : OrchestratorView) : List Nat :=
  (applied s.chain (s.handed view)).map OrchestratorShardBlock.height

theorem mem_handed {s : Server} {view : OrchestratorView} {block : OrchestratorShardBlock} :
    block ∈ s.handed view ↔ ∃ latest h, view.latest = some latest ∧
      s.chain.lastOrchestratorHeight < h ∧ h ≤ latest ∧ view.fetch h = .block block := by
  unfold handed
  cases view.latest with
  | none => simp
  | some latest =>
      rw [mem_fetchedFrom]
      constructor
      · rintro ⟨h, low, high, found⟩
        exact ⟨latest, h, rfl, by omega, by omega, found⟩
      · rintro ⟨_, h, ⟨⟩, low, high, found⟩
        exact ⟨h, by omega, by omega, found⟩

theorem rising_handed {s : Server} {view : OrchestratorView} (honest : Honest view) :
    (s.handed view).Pairwise fun b b' => b.height < b'.height := by
  unfold handed
  cases view.latest with
  | none => exact List.Pairwise.nil
  | some latest => exact rising_fetchedFrom honest _ _

theorem height_of_mem_handed {s : Server} {view : OrchestratorView} (honest : Honest view)
    {block : OrchestratorShardBlock} (member : block ∈ s.handed view) :
    s.chain.lastOrchestratorHeight < block.height := by
  obtain ⟨latest, h, -, above, -, found⟩ := mem_handed.1 member
  rw [honest h block found]
  exact above

theorem handed_applied {s : Server} {view : OrchestratorView} (honest : Honest view) :
    applied s.chain (s.handed view) = s.handed view :=
  applied_of_rising (rising_handed honest) fun _ member => height_of_mem_handed honest member

/-- A recovery applies exactly the heights above the last one that it could fetch. -/
theorem mem_appliedHeights {s : Server} {view : OrchestratorView} (honest : Honest view) {h : Nat} :
    h ∈ s.appliedHeights view ↔ ∃ latest, view.latest = some latest ∧
      s.chain.lastOrchestratorHeight < h ∧ h ≤ latest ∧ (view.fetch h).isBlock := by
  unfold appliedHeights
  rw [handed_applied honest, List.mem_map]
  constructor
  · rintro ⟨block, member, rfl⟩
    obtain ⟨latest, h, known, above, below, found⟩ := mem_handed.1 member
    rw [honest h block found]
    exact ⟨latest, known, above, below, by rw [found]; rfl⟩
  · rintro ⟨latest, known, above, below, fetched⟩
    cases found : view.fetch h with
    | block block =>
        exact ⟨block, mem_handed.2 ⟨latest, h, known, above, below, found⟩, honest h block found⟩
    | failed => simp [found, Fetched.isBlock] at fetched
    | notFound => simp [found, Fetched.isBlock] at fetched

theorem chain_recover (s : Server) (view : OrchestratorView) :
    (s.recoverFromOrchestrator view).chain =
      (s.handed view).foldl Chain.processOrchestratorBlock s.chain := by
  rw [recover_eq, foldl_processOrchestratorBlock]

/-- No block is fetched above one whose fetch fails. -/
def Contiguous (s : Server) (view : OrchestratorView) : Prop :=
  ∀ latest, view.latest = some latest → ∀ h k, s.chain.lastOrchestratorHeight < h → h < k →
    k ≤ latest → (view.fetch k).isBlock → (view.fetch h).isBlock

/-! ## Any number of recoveries -/

/-- The server after recovering once for each view. -/
def recoverAll (s : Server) (views : List OrchestratorView) : Server :=
  views.foldl recoverFromOrchestrator s

/-- The heights that the recoveries apply, in order. -/
def recovered : Server → List OrchestratorView → List Nat
  | _, [] => []
  | s, view :: views =>
      s.appliedHeights view ++ recovered (s.recoverFromOrchestrator view) views

end Server

/-- A record of processed heights for a processed height `last`: increasing, from 1 on, and not
above `last`; `last` itself is on record unless nothing is. -/
structure Chronicle (heights : List Nat) (last : Nat) : Prop where
  rising : heights.Pairwise (· < ·)
  within : ∀ h ∈ heights, 1 ≤ h ∧ h ≤ last
  attained : last = 0 ∨ last ∈ heights

/-- Every height up to `last` is on record. -/
def WithoutHoles (heights : List Nat) (last : Nat) : Prop :=
  ∀ h, 1 ≤ h → h ≤ last → h ∈ heights

theorem chronicle_range (last : Nat) : Chronicle (List.range' 1 last) last where
  rising := List.pairwise_lt_range'
  within := fun h member => by
    have := List.mem_range'_1.1 member
    omega
  attained := by
    by_cases none : last = 0
    · exact .inl none
    · exact .inr (List.mem_range'_1.2 (by omega))

/-- A record without holes is the list of all heights, in order. -/
theorem Chronicle.eq_range_iff {heights : List Nat} {last : Nat} (record : Chronicle heights last) :
    heights = List.range' 1 last ↔ WithoutHoles heights last := by
  constructor
  · intro same h low high
    rw [same]
    exact List.mem_range'_1.2 (by omega)
  · intro full
    refine record.rising.eq_of_mem_iff (chronicle_range last).rising fun h => ?_
    constructor
    · intro member
      have := record.within h member
      exact List.mem_range'_1.2 (by omega)
    · intro member
      have := List.mem_range'_1.1 member
      exact full h (by omega) (by omega)

namespace Server

theorem Chronicle.recover {heights : List Nat} {s : Server} {view : OrchestratorView}
    (record : Chronicle heights s.chain.lastOrchestratorHeight) (honest : Honest view) :
    Chronicle (heights ++ s.appliedHeights view)
      (s.recoverFromOrchestrator view).chain.lastOrchestratorHeight := by
  have grows := BlockBuffer.le_last_foldl s.chain (s.handed view)
  obtain ⟨below, attained⟩ := last_foldl_cases (s.handed view) s.chain
  rw [← chain_recover] at grows below attained
  have heightsOf : s.appliedHeights view = (s.handed view).map OrchestratorShardBlock.height := by
    rw [appliedHeights, handed_applied honest]
  rw [heightsOf]
  refine ⟨?_, ?_, ?_⟩
  · refine List.pairwise_append.2 ⟨record.rising, ?_, ?_⟩
    · exact List.pairwise_map.2 (rising_handed honest)
    · intro h old h' new
      obtain ⟨block, member, rfl⟩ := List.mem_map.1 new
      have := record.within h old
      have := height_of_mem_handed honest member
      omega
  · intro h member
    rcases List.mem_append.1 member with old | new
    · have := record.within h old
      omega
    · obtain ⟨block, handed, rfl⟩ := List.mem_map.1 new
      have := height_of_mem_handed honest handed
      have := below block handed
      omega
  · rcases attained with same | ⟨block, member, high⟩
    · rw [same]
      rcases record.attained with zero | old
      · exact .inl zero
      · exact .inr (List.mem_append_left _ old)
    · rw [← high]
      exact .inr (List.mem_append_right _ (List.mem_map_of_mem member))

/-- **The step.**  A recovery ends without holes exactly when there were none before and no block
was fetched above one that was not. -/
theorem withoutHoles_recover {heights : List Nat} {s : Server} {view : OrchestratorView}
    (record : Chronicle heights s.chain.lastOrchestratorHeight) (honest : Honest view) :
    WithoutHoles (heights ++ s.appliedHeights view)
        (s.recoverFromOrchestrator view).chain.lastOrchestratorHeight ↔
      WithoutHoles heights s.chain.lastOrchestratorHeight ∧ s.Contiguous view := by
  have later := Chronicle.recover record honest
  have grows := BlockBuffer.le_last_foldl s.chain (s.handed view)
  rw [← chain_recover] at grows
  constructor
  · intro full
    refine ⟨?_, ?_⟩
    · intro h low high
      rcases List.mem_append.1 (full h low (by omega)) with old | new
      · exact old
      · obtain ⟨_, -, above, -⟩ := (mem_appliedHeights honest).1 new
        omega
    · intro latest known h k above order below fetched
      have top := (later.within k (List.mem_append_right _ ((mem_appliedHeights honest).2
        ⟨latest, known, by omega, below, fetched⟩))).2
      rcases List.mem_append.1 (full h (by omega) (by omega)) with old | new
      · have := record.within h old
        omega
      · obtain ⟨_, -, -, -, found⟩ := (mem_appliedHeights honest).1 new
        exact found
  · rintro ⟨full, contiguous⟩ h low high
    by_cases old : h ≤ s.chain.lastOrchestratorHeight
    · exact List.mem_append_left _ (full h low old)
    -- the new last height was fetched, hence so was everything between
    have top := later.attained.resolve_left (by omega)
    rcases List.mem_append.1 top with before | new
    · have := record.within _ before
      omega
    · obtain ⟨latest, known, above, below, fetched⟩ := (mem_appliedHeights honest).1 new
      refine List.mem_append_right _ ((mem_appliedHeights honest).2
        ⟨latest, known, by omega, by omega, ?_⟩)
      rcases Nat.lt_or_eq_of_le high with under | rfl
      · exact contiguous latest known h _ (by omega) under below fetched
      · exact fetched

theorem withoutHoles_recoverAll {views : List OrchestratorView} :
    ∀ {heights : List Nat} {s : Server}, Chronicle heights s.chain.lastOrchestratorHeight →
      (∀ view ∈ views, Honest view) →
      Chronicle (heights ++ s.recovered views) (s.recoverAll views).chain.lastOrchestratorHeight ∧
      (WithoutHoles (heights ++ s.recovered views)
          (s.recoverAll views).chain.lastOrchestratorHeight ↔
        WithoutHoles heights s.chain.lastOrchestratorHeight ∧
          Along (fun s view => some (s.recoverFromOrchestrator view)) Contiguous s views) := by
  induction views with
  | nil =>
      intro heights s record _
      rw [recovered, List.append_nil]
      exact ⟨record, fun full => ⟨full, trivial⟩, fun both => both.1⟩
  | cons view views ih =>
      intro heights s record honest
      have first := Chronicle.recover record (honest view List.mem_cons_self)
      have step := withoutHoles_recover record (honest view List.mem_cons_self)
      obtain ⟨chronicle, rest⟩ := ih first fun v later => honest v (List.mem_cons_of_mem _ later)
      rw [recovered, ← List.append_assoc]
      refine ⟨chronicle, rest.trans ?_⟩
      rw [step, and_assoc, along_cons_iff rfl]

/-- **Recovered history without holes.**  From any processed height and after any sequence of
recoveries, whatever fetches failed, the blocks `1 .. lastOrchestratorHeight` have been processed
once each and in order if and only if no recovery fetched a block above one it failed to fetch. -/
theorem recovered_without_holes_iff (s : Server) (views : List OrchestratorView)
    (honest : ∀ view ∈ views, Honest view) :
    List.range' 1 s.chain.lastOrchestratorHeight ++ s.recovered views =
        List.range' 1 (s.recoverAll views).chain.lastOrchestratorHeight ↔
      Along (fun s view => some (s.recoverFromOrchestrator view)) Contiguous s views := by
  have start := chronicle_range s.chain.lastOrchestratorHeight
  obtain ⟨record, step⟩ := withoutHoles_recoverAll start honest
  rw [record.eq_range_iff, step]
  exact and_iff_right (start.eq_range_iff.1 rfl)

end Server

namespace RecoveryPole

open Server

/-- A transfer from shard 0. -/
def transfer : CrossShardTx where
  id := "tx-1"
  fromShard := 0
  fromAddr := 0x100
  toAddr := 0x301
  value := some 5
  rwSet := [⟨0x301, ⟨1⟩, [], []⟩]

/-- Two orchestrator blocks; the first one orders a transaction. -/
def blockOf (height : Nat) : OrchestratorShardBlock :=
  ⟨height, ∅, if height = 1 then [transfer] else []⟩

/-- The orchestrator is at block 2 and block 1 cannot be fetched. -/
def firstMissing : OrchestratorView :=
  ⟨some 2, fun height => if height = 1 then .failed else .block (blockOf height)⟩

/-- The orchestrator is at block 2 and every block can be fetched. -/
def complete : OrchestratorView := ⟨some 2, fun height => .block (blockOf height)⟩

def crashed : Server := fresh 0 ⟨fun _ => 0, fun _ _ => 0, fun _ => []⟩

theorem honest_complete : Honest complete := by
  intro height block found
  cases found
  rfl

end RecoveryPole

open RecoveryPole in
/-- Block 1 could not be fetched and block 2 was processed: a second recovery, which could fetch
both, does not process block 1 any more, and its transaction is never locked. -/
theorem missed_block_stays_missed :
    List.range' 1 crashed.chain.lastOrchestratorHeight ++
        crashed.recovered [firstMissing, complete] ≠
      List.range' 1
        (crashed.recoverAll [firstMissing, complete]).chain.lastOrchestratorHeight ∧
      (crashed.recoverAll [firstMissing, complete]).chain.lastOrchestratorHeight = 2 ∧
      crashed.recovered [firstMissing, complete] = [2] ∧
      (crashed.recoverAll [firstMissing, complete]).chain.currentTxs.length = 0 ∧
      (crashed.recoverAll [complete]).chain.currentTxs.length = 1 := by
  decide +kernel

open RecoveryPole in
/-- With every fetch succeeding, two recoveries process blocks 1 and 2 once. -/
theorem complete_recovery_without_holes :
    List.range' 1 crashed.chain.lastOrchestratorHeight ++ crashed.recovered [complete, complete] =
      List.range' 1 (crashed.recoverAll [complete, complete]).chain.lastOrchestratorHeight := by
  refine (Server.recovered_without_holes_iff crashed [complete, complete] ?_).2 ?_
  · intro view member
    rcases List.mem_cons.1 member with rfl | member
    · exact honest_complete
    · rw [List.mem_singleton.1 member]
      exact honest_complete
  · rw [along_iff]
    intro pre view post s split _ latest _ h k _ _ _ _
    have member : view ∈ [complete, complete] := by
      rw [split]
      exact List.mem_append_right _ List.mem_cons_self
    have same : view = complete := by
      simpa using member
    rw [same]
    rfl

end CrossShard.Shard
