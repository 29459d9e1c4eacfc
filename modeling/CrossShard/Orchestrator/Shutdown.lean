/-
# Orchestrator.Shutdown -- Submit and Stop side by side

`internal/orchestrator/simulator.go`.  `Submit` loads the flag `closing`, records the pending
result and sends the job to the queue; `Stop` stores the flag, closes `stopCleanup` and closes the
queue, once for all its callers.  Any number of calls of both run together with the worker;
`Desk.step` is one atomic step of one of them.

A send to a closed channel panics, and the flag does not prevent it: it is loaded once, before
the send.

* `Effect`: what a step does to the flags and to the calls of `Submit`.
* `Drained`: after the close no call of `Submit` is between its load and its send.
* `submit_undisturbed`: without other steps in between, the steps of `Submit` are
  `Simulator.submit`.
* `sends_before_close_iff`: no send comes after the close if the queue is closed while no call is
  between its load and its send; and only then, once all calls have come to their end.
-/
import CrossShard.Orchestrator.Simulator
import CrossShard.Library.Run

namespace CrossShard.Orchestrator

set_option autoImplicit false

open CrossShard.Library CrossShard.Protocol

/-! ## The steps -/

/-- How far a call of `Submit` is. -/
inductive SubmitPc where
  | idle
  | checked (tx : CrossShardTx)
  | recorded (tx : CrossShardTx)
  | returned (err : Option String)
  | panicked
  deriving DecidableEq

/-- The job of a call that has passed its load and not yet sent. -/
def SubmitPc.job : SubmitPc → Option CrossShardTx
  | .checked tx => some tx
  | .recorded tx => some tx
  | _ => none

/-- `stopped`, with the progress of the call that runs the function. -/
inductive OnceState where
  | fresh
  | entered
  | stored
  | cleaned
  | finished
  deriving DecidableEq

/-- The simulator with its channels, the calls of `Submit` and the job of the worker. -/
structure Desk where
  sim : Simulator
  stopCleanup : Bool
  queueClosed : Bool
  stopped : OnceState
  submits : Nat → SubmitPc
  worker : Option CrossShardTx

/-- A number names one call of `Submit`; `stop` is the entry of any call of `Stop`. -/
inductive Action where
  | load (c : Nat) (tx : CrossShardTx)
  | record (c : Nat)
  | send (c : Nat)
  | timeout (c : Nat)
  | receive
  | finish (result : SimulationResult)
  | stop
  | storeClosing
  | closeCleanup
  | closeQueue

namespace Desk

def start : Desk := ⟨Simulator.newSimulator, false, false, .fresh, fun _ => .idle, none⟩

/-- The call `c` goes on to `pc`. -/
def goOn (d : Desk) (c : Nat) (pc : SubmitPc) : Desk :=
  { d with submits := Function.update d.submits c pc }

def setResult (d : Desk) (txID : TxID) (result : SimulationResult) : Desk :=
  { d with sim := { d.sim with results := d.sim.results.set txID result } }

def step (d : Desk) : Action → Option Desk
  | .load c tx =>
      match d.submits c with
      | .idle => some (d.goOn c
          (if d.sim.closing then .returned (some "simulator is shutting down") else .checked tx))
      | _ => none
  | .record c =>
      match d.submits c with
      | .checked tx => some ((d.setResult tx.id { status := .pending }).goOn c (.recorded tx))
      | _ => none
  | .send c =>
      match d.submits c with
      | .recorded tx =>
          if d.queueClosed then some (d.goOn c .panicked)
          else if d.sim.queue.length < queueCapacity then
            some ({ d with sim := { d.sim with queue := d.sim.queue ++ [tx] } }.goOn c
              (.returned none))
          else none
      | _ => none
  -- The timer wins only while the channel is open and full.
  | .timeout c =>
      match d.submits c with
      | .recorded tx =>
          if d.queueClosed ∨ d.sim.queue.length < queueCapacity then none
          else
            let result := (d.sim.results.get tx.id).getD { status := .pending }
            some ((d.setResult tx.id
              { result with status := .failed, error := "simulation queue full" }).goOn c
              (.returned (some "simulation queue full (timeout)")))
      | _ => none
  | .receive =>
      match d.worker, d.sim.queue with
      | none, tx :: rest =>
          let taken := { d with sim := { d.sim with queue := rest }, worker := some tx }
          match d.sim.results.get tx.id with
          | some result => some (taken.setResult tx.id { result with status := .running })
          | none => some taken
      | _, _ => none
  | .finish result =>
      match d.worker with
      | some tx => some { d.setResult tx.id result with worker := none }
      | none => none
  -- A second caller waits for the first and then returns.
  | .stop =>
      match d.stopped with
      | .fresh => some { d with stopped := .entered }
      | .finished => some d
      | _ => none
  | .storeClosing =>
      match d.stopped with
      | .entered => some { d with sim := { d.sim with closing := true }, stopped := .stored }
      | _ => none
  | .closeCleanup =>
      match d.stopped with
      | .stored => some { d with stopCleanup := true, stopped := .cleaned }
      | _ => none
  | .closeQueue =>
      match d.stopped with
      | .cleaned => some { d with queueClosed := true, stopped := .finished }
      | _ => none

/-! ## What a step does -/

/-- The call `c` puts its job into the open queue. -/
structure Sends (d d' : Desk) (c : Nat) (tx : CrossShardTx) : Prop where
  at_send : d.submits c = .recorded tx
  is_open : d.queueClosed = false
  queued : d'.sim.queue = d.sim.queue ++ [tx]

/-- How `stopped` moves. -/
def Turned : Action → OnceState → OnceState → Prop
  | .stop, before, after =>
      before = .fresh ∧ after = .entered ∨ before = .finished ∧ after = .finished
  | .storeClosing, before, after => before = .entered ∧ after = .stored
  | .closeCleanup, before, after => before = .stored ∧ after = .cleaned
  | .closeQueue, before, after => before = .cleaned ∧ after = .finished
  | _, before, after => after = before

/-- **What a step does** to the flags and to the calls of `Submit`. -/
structure Effect (d : Desk) (m : Action) (d' : Desk) : Prop where
  turned : Turned m d.stopped d'.stopped
  closing : d'.sim.closing = true ↔ d.sim.closing = true ∨ m = .storeClosing
  queueClosed : d'.queueClosed = true ↔ d.queueClosed = true ∨ m = .closeQueue
  jobs : ∀ c tx, (d'.submits c).job = some tx →
    (d.submits c).job = some tx ∨ m = .load c tx ∧ d.sim.closing = false
  returns : ∀ c, d'.submits c = .returned none →
    d.submits c = .returned none ∨ m = .send c ∧ ∃ tx, d.Sends d' c tx

variable {d d' : Desk}

/-- A step of one call of `Submit` that neither stops nor sends. -/
theorem effect_goOn {m : Action} {c : Nat} {pc : SubmitPc} (sim : d'.sim.closing = d.sim.closing)
    (queueClosed : d'.queueClosed = d.queueClosed)
    (submits : d'.submits = Function.update d.submits c pc) (turned : Turned m d.stopped d'.stopped)
    (other : m ≠ .storeClosing ∧ m ≠ .closeQueue)
    (job : ∀ tx, pc.job = some tx →
      (d.submits c).job = some tx ∨ m = .load c tx ∧ d.sim.closing = false)
    (returns : pc = .returned none → m = .send c ∧ ∃ tx, d.Sends d' c tx) : Effect d m d' := by
  refine ⟨turned, by simp [sim, other.1], by simp [queueClosed, other.2], fun k tx => ?_,
    fun k => ?_⟩
  · rw [submits, Function.update_apply]
    split
    · rename_i same
      rw [same]
      exact job tx
    · exact .inl
  · rw [submits, Function.update_apply]
    split
    · rename_i same
      rw [same]
      exact fun sent => .inr (returns sent)
    · exact .inl

/-- A step that is none of `Submit`. -/
theorem effect_of_submits {m : Action} (submits : d'.submits = d.submits)
    (turned : Turned m d.stopped d'.stopped)
    (closing : d'.sim.closing = true ↔ d.sim.closing = true ∨ m = .storeClosing)
    (queueClosed : d'.queueClosed = true ↔ d.queueClosed = true ∨ m = .closeQueue) :
    Effect d m d' :=
  ⟨turned, closing, queueClosed, fun _ _ has => .inl (submits ▸ has),
    fun _ has => .inl (submits ▸ has)⟩

theorem effect_step {m : Action} (stepped : d.step m = some d') : Effect d m d' := by
  cases m with
  | load c tx =>
      simp only [step] at stepped
      split at stepped
      · cases stepped
        refine effect_goOn rfl rfl rfl rfl (by simp) (fun tx' has => ?_) (fun sent => ?_)
        · split at has
          · cases has
          · rename_i isOpen
            cases has
            exact .inr ⟨rfl, Bool.eq_false_iff.2 isOpen⟩
        · split at sent <;> cases sent
      · cases stepped
  | record c =>
      simp only [step] at stepped
      split at stepped
      · rename_i tx checked
        cases stepped
        refine effect_goOn rfl rfl rfl rfl (by simp) (fun tx' has => .inl ?_) (fun sent => by cases sent)
        rw [checked]
        exact has
      · cases stepped
  | send c =>
      simp only [step] at stepped
      split at stepped
      · rename_i tx recorded
        split at stepped
        · cases stepped
          exact effect_goOn rfl rfl rfl rfl (by simp) (fun _ has => by cases has)
            (fun sent => by cases sent)
        · rename_i isOpen
          split at stepped
          · cases stepped
            refine effect_goOn rfl rfl rfl rfl (by simp) (fun _ has => by cases has) (fun _ => ?_)
            exact ⟨rfl, tx, recorded, Bool.eq_false_iff.2 isOpen, rfl⟩
          · cases stepped
      · cases stepped
  | timeout c =>
      simp only [step] at stepped
      split at stepped
      · split at stepped
        · cases stepped
        · cases stepped
          exact effect_goOn rfl rfl rfl rfl (by simp) (fun _ has => by cases has)
            (fun sent => by cases sent)
      · cases stepped
  | receive =>
      simp only [step] at stepped
      split at stepped
      · split at stepped <;> cases stepped <;>
          exact effect_of_submits rfl rfl (by simp [setResult]) (by simp [setResult])
      · cases stepped
  | finish result =>
      simp only [step] at stepped
      split at stepped
      · cases stepped
        exact effect_of_submits rfl rfl (by simp [setResult]) (by simp [setResult])
      · cases stepped
  | stop =>
      simp only [step] at stepped
      split at stepped
      · rename_i fresh
        cases stepped
        exact effect_of_submits rfl (.inl ⟨fresh, rfl⟩) (by simp) (by simp)
      · rename_i finished
        cases stepped
        exact effect_of_submits rfl (.inr ⟨finished, finished⟩) (by simp) (by simp)
      · cases stepped
  | storeClosing | closeCleanup | closeQueue =>
      simp only [step] at stepped
      split at stepped
      · rename_i before
        cases stepped
        exact effect_of_submits rfl ⟨before, rfl⟩ (by simp) (by simp)
      · cases stepped

/-- The queue is closed only after `closing` is stored. -/
def Phased (d : Desk) : Prop :=
  (d.sim.closing = true ↔ d.stopped = .stored ∨ d.stopped = .cleaned ∨ d.stopped = .finished) ∧
    (d.queueClosed = true ↔ d.stopped = .finished)

theorem Phased.closing (phased : d.Phased) (closed : d.queueClosed = true) :
    d.sim.closing = true :=
  phased.1.2 (.inr (.inr (phased.2.1 closed)))

theorem Phased.step {m : Action} (phased : d.Phased) (effect : Effect d m d') : d'.Phased := by
  have turned := effect.turned
  unfold Phased at phased ⊢
  rw [effect.closing, effect.queueClosed, phased.1, phased.2]
  cases m with
  | stop => rcases turned with ⟨before, after⟩ | ⟨before, after⟩ <;> simp [before, after]
  | storeClosing | closeCleanup | closeQueue =>
      obtain ⟨before, after⟩ := turned
      simp [before, after]
  | _ => simp [show d'.stopped = d.stopped from turned]

/-- After the close no step of another kind takes a call past its send. -/
theorem job_step {m : Action} {c : Nat} {tx : CrossShardTx} (closed : d.queueClosed = true)
    (job : (d.submits c).job = some tx) (other : m ≠ .send c) (stepped : d.step m = some d') :
    (d'.submits c).job = some tx := by
  have keeps : ∀ {k : Nat} {pc : SubmitPc} {e : Desk}, e.submits = d.submits →
      (k = c → pc.job = some tx) → ((e.goOn k pc).submits c).job = some tx := by
    intro k pc e submits own
    by_cases same : c = k
    · simp [goOn, same, own same.symm]
    · simp [goOn, same, submits, job]
  cases m with
  | load k tx' =>
      simp only [step] at stepped
      split at stepped
      · rename_i idle
        cases stepped
        refine keeps rfl fun same => ?_
        rw [← same, idle] at job
        cases job
      · cases stepped
  | record k =>
      simp only [step] at stepped
      split at stepped
      · rename_i tx' checked
        cases stepped
        refine keeps rfl fun same => ?_
        rw [← same, checked] at job
        exact job
      · cases stepped
  | send k =>
      simp only [step] at stepped
      split at stepped
      · rw [if_pos closed] at stepped
        cases stepped
        exact keeps rfl fun same => absurd (congrArg Action.send same) other
      · cases stepped
  | timeout k =>
      simp only [step] at stepped
      split at stepped
      · rw [if_pos (.inl closed)] at stepped
        cases stepped
      · cases stepped
  | receive =>
      simp only [step] at stepped
      split at stepped
      · split at stepped <;> cases stepped <;> exact job
      · cases stepped
  | finish result =>
      simp only [step] at stepped
      split at stepped
      · cases stepped
        exact job
      · cases stepped
  | stop =>
      simp only [step] at stepped
      split at stepped <;> cases stepped <;> exact job
  | storeClosing | closeCleanup | closeQueue =>
      simp only [step] at stepped
      split at stepped
      · cases stepped
        exact job
      · cases stepped

/-! ## Whole runs -/

theorem phased_start : start.Phased := ⟨by simp [start, Simulator.newSimulator], by simp [start]⟩

/-- A call on its way to its send has loaded the flag. -/
theorem loaded_of_run {es : List Action} (reached : run step start es = some d) {c : Nat}
    {tx : CrossShardTx} (job : (d.submits c).job = some tx) : .load c tx ∈ es := by
  refine run_invariant (fun _ => True) (fun _ _ _ => trivial)
    (fun es d => (d.submits c).job = some tx → .load c tx ∈ es) (fun idle => by cases idle) ?_ es d
    trivial reached job
  intro es d m d' _ _ ih stepped job'
  rcases (effect_step stepped).jobs c tx job' with before | ⟨rfl, -⟩
  · exact List.mem_append_left _ (ih before)
  · exact List.mem_append_right _ (List.mem_singleton_self _)

theorem job_of_send {c : Nat} (stepped : d.step (.send c) = some d') :
    ∃ tx, (d.submits c).job = some tx := by
  simp only [step] at stepped
  split at stepped
  · rename_i tx recorded
    exact ⟨tx, by rw [recorded]; rfl⟩
  · cases stepped

/-- A step sends only while the queue is open. -/
def SendsOpen (d : Desk) : Action → Prop
  | .send _ => d.queueClosed = false
  | _ => True

instance (d : Desk) : (m : Action) → Decidable (d.SendsOpen m)
  | .send _ => inferInstanceAs (Decidable (d.queueClosed = false))
  | .load _ _ | .record _ | .timeout _ | .receive | .finish _ | .stop | .storeClosing
  | .closeCleanup | .closeQueue => .isTrue trivial

/-- The queue is closed only while no call is between its load and its send. -/
def ClosesDrained (d : Desk) : Action → Prop
  | .closeQueue => ∀ c, (d.submits c).job = none
  | _ => True

/-- After the close no call is between its load and its send. -/
structure Drained (d : Desk) : Prop where
  phased : d.Phased
  none_left : d.queueClosed = true → ∀ c, (d.submits c).job = none

theorem Drained.step {m : Action} (drained : d.Drained) (closes : d.ClosesDrained m)
    (stepped : d.step m = some d') : d'.Drained := by
  have effect := effect_step stepped
  refine ⟨drained.phased.step effect, fun closed c => Option.eq_none_iff_forall_ne_some.2 ?_⟩
  intro tx job
  rcases effect.queueClosed.1 closed with before | rfl
  · rcases effect.jobs c tx job with old | ⟨-, isOpen⟩
    · rw [drained.none_left before c] at old
      cases old
    · -- the flag was stored before the queue was closed
      rw [drained.phased.closing before] at isOpen
      cases isOpen
  · rcases effect.jobs c tx job with old | ⟨load, -⟩
    · rw [closes c] at old
      cases old
    · cases load

/-- **Enough**: a queue that is closed at such a moment gets no further send. -/
theorem sendsOpen_of_closesDrained {es : List Action}
    (reached : run step start es = some d) (closes : Along step ClosesDrained start es) :
    Along step SendsOpen start es := by
  rw [along_iff]
  rintro pre m post d₁ rfl before
  cases m with
  | send c =>
      obtain ⟨d₂, stepped, -⟩ := run_cons_eq_some.1 (run_rest before reached)
      obtain ⟨tx, job⟩ := job_of_send stepped
      have drained : d₁.Drained := closes.of_append.invariant Drained
        (fun _ _ _ drained closes stepped => drained.step closes stepped)
        ⟨phased_start, fun closed => by cases closed⟩ before
      refine Bool.eq_false_iff.2 fun closed => ?_
      rw [drained.none_left closed c] at job
      cases job
  | _ => exact trivial

/-- **Needed**: a call that is on its way at the close comes to its end with a late send. -/
theorem closesDrained_of_sendsOpen {es : List Action} (reached : run step start es = some d)
    (done : ∀ c, (d.submits c).job = none) (sends : Along step SendsOpen start es) :
    Along step ClosesDrained start es := by
  rw [along_iff]
  rintro pre m post d₁ rfl before
  cases m with
  | closeQueue =>
      obtain ⟨d₂, stepped, late⟩ := run_cons_eq_some.1 (run_rest before reached)
      refine fun c => Option.eq_none_iff_forall_ne_some.2 fun tx job => ?_
      have effect := effect_step stepped
      have kept : (d₂.submits c).job = some tx := by
        simp only [step] at stepped
        split at stepped
        · cases stepped
          exact job
        · cases stepped
      have later : Along step SendsOpen d₂ post :=
        ((along_cons_iff stepped).1 (sends.of_run before)).2
      have last := later.invariant
        (fun e => e.queueClosed = true ∧ (e.submits c).job = some tx)
        (fun e m e' ⟨closed, job⟩ isOpen stepped => by
          refine ⟨(effect_step stepped).queueClosed.2 (.inl closed),
            job_step closed job (fun send => ?_) stepped⟩
          rw [send] at isOpen
          exact Bool.false_ne_true (isOpen.symm.trans closed))
        ⟨effect.queueClosed.2 (.inr rfl), kept⟩ late
      rw [done c] at last
      cases last.2
  | _ => exact trivial

/-- **A call that returned without error put its own job into the open queue.** -/
theorem sent_of_returned {es : List Action} (reached : run step start es = some d) {c : Nat}
    (returned : d.submits c = .returned none) :
    ∃ pre post d₁ d₂ tx, es = pre ++ .send c :: post ∧ run step start pre = some d₁ ∧
      d₁.step (.send c) = some d₂ ∧ d₁.Sends d₂ c tx ∧ .load c tx ∈ pre := by
  refine run_invariant (fun _ => True) (fun _ _ _ => trivial)
    (fun es d => d.submits c = .returned none →
      ∃ pre post d₁ d₂ tx, es = pre ++ .send c :: post ∧ run step start pre = some d₁ ∧
        d₁.step (.send c) = some d₂ ∧ d₁.Sends d₂ c tx ∧ .load c tx ∈ pre)
    (fun absurd' => by cases absurd') ?_ es d trivial reached returned
  intro es d m d' _ before ih stepped now
  rcases (effect_step stepped).returns c now with earlier | ⟨rfl, tx, sends⟩
  · obtain ⟨pre, post, d₁, d₂, tx, rfl, rest⟩ := ih earlier
    exact ⟨pre, post ++ [m], d₁, d₂, tx, by simp, rest⟩
  · have loaded : .load c tx ∈ es := loaded_of_run before (by rw [sends.at_send]; rfl)
    exact ⟨es, [], d, d', tx, rfl, before, stepped, sends, loaded⟩

/-! ## The steps and the function -/

/-- **Undisturbed, the steps of a call are `Simulator.submit`.** -/
theorem submit_undisturbed {c : Nat} (tx : CrossShardTx) (idle : d.submits c = .idle)
    (isOpen : d.queueClosed = false) :
    ∃ moves ∈ [[.load c tx], [.load c tx, .record c, .send c],
        [.load c tx, .record c, .timeout c]],
      run step d moves = some ({ d with sim := (d.sim.submit tx).2 }.goOn c
        (.returned (d.sim.submit tx).1)) := by
  by_cases closing : d.sim.closing = true
  · refine ⟨[.load c tx], by simp, ?_⟩
    simp [run, step, idle, closing, Simulator.submit]
  · by_cases room : d.sim.queue.length < queueCapacity
    · refine ⟨[.load c tx, .record c, .send c], by simp, ?_⟩
      simp [run, step, idle, closing, Simulator.submit, goOn, setResult, isOpen, room]
    · refine ⟨[.load c tx, .record c, .timeout c], by simp, ?_⟩
      simp [run, step, idle, closing, Simulator.submit, goOn, setResult, isOpen, room,
        FMap.set_set]

end Desk

/-- **When `Submit` never sends on a closed queue.**  In every run of any calls of `Submit` and
`Stop` in which the queue is closed at a moment when no call of `Submit` is between its load of the
flag and its send, no send comes after the close.  In a run at whose end all calls have come to
their end, this is so only then.  In every run a call that returned without error put its job into
the queue while that was open. -/
theorem sends_before_close_iff (es : List Action) (d : Desk)
    (reached : run Desk.step Desk.start es = some d) :
    (Along Desk.step Desk.ClosesDrained Desk.start es →
      Along Desk.step Desk.SendsOpen Desk.start es) ∧
    ((∀ c, (d.submits c).job = none) → (Along Desk.step Desk.SendsOpen Desk.start es ↔
      Along Desk.step Desk.ClosesDrained Desk.start es)) ∧
    ∀ c, d.submits c = .returned none →
      ∃ pre post d₁ d₂ tx, es = pre ++ .send c :: post ∧
        run Desk.step Desk.start pre = some d₁ ∧ d₁.step (.send c) = some d₂ ∧
        d₁.Sends d₂ c tx ∧ .load c tx ∈ pre :=
  ⟨Desk.sendsOpen_of_closesDrained reached,
    fun done => ⟨Desk.closesDrained_of_sendsOpen reached done,
      Desk.sendsOpen_of_closesDrained reached⟩,
    fun _ returned => Desk.sent_of_returned reached returned⟩

namespace ShutdownPole

def tx : CrossShardTx where
  id := "t"
  fromShard := 0
  fromAddr := 0x200
  toAddr := 0x100
  value := none
  rwSet := []

/-- One call sends before the close, one loads the flag after it was stored. -/
def orderly : List Action :=
  [.load 0 tx, .record 0, .stop, .storeClosing, .load 1 tx, .closeCleanup, .send 0, .closeQueue,
    .stop, .receive]

/-- `Stop` runs between the load and the send of a call. -/
def hurried : List Action :=
  [.load 0 tx, .stop, .storeClosing, .closeCleanup, .closeQueue, .record 0, .send 0]

end ShutdownPole

open ShutdownPole in
/-- At the close the first call has sent and the second has been turned away. -/
theorem orderly_shutdown :
    ∃ d, run Desk.step Desk.start orderly = some d ∧ (∀ c, (d.submits c).job = none) ∧
      Along Desk.step Desk.ClosesDrained Desk.start orderly := by
  obtain ⟨d, reached⟩ : ∃ d, run Desk.step Desk.start orderly = some d := ⟨_, rfl⟩
  have done : ∀ c, (d.submits c).job = none := by
    cases reached
    intro c
    by_cases first : c = 0
    · rw [first]
      rfl
    · by_cases second : c = 1
      · rw [second]
        rfl
      · simp [Desk.goOn, first, second, SubmitPc.job, Desk.start, Desk.setResult]
  refine ⟨d, reached, done, ?_⟩
  exact ((sends_before_close_iff orderly d reached).2.1 done).1 (by decide +kernel)

open ShutdownPole in
/-- The call loaded the flag in time, finds the queue closed at its send, and panics. -/
theorem hurried_shutdown_panics :
    ((run Desk.step Desk.start (hurried.take 6)).map fun d => (d.queueClosed, d.submits 0)) =
      some (true, .recorded tx) ∧
    ((run Desk.step Desk.start hurried).map fun d => (d.queueClosed, d.submits 0)) =
      some (true, .panicked) := by
  decide +kernel

end CrossShard.Orchestrator
