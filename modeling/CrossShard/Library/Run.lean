/-
# Library.Run -- executions of a partial, labelled step function

A system is a step function that may refuse a label.  `run` is the state after a list of
labels, and the list itself is the history of that execution.

* `run_append_eq_some`, `run_cons_eq_some`, `run_rest`: cutting an execution at a position.
* `run_invariant`: an invariant may speak about the history, and may assume a condition
  on histories that is closed under dropping the last label.
* `run_rel`: two executions of the same labels.
* `Along`: a condition that every step of an execution meets in the state it starts from.
* `run_preserves`: the invariant rule when only the labels are restricted.
* `outputs`: what the steps of an execution put out, in order (`run_project`: and fold into a
  part of the state).
-/
import Mathlib.Data.List.Induction

namespace CrossShard.Library

set_option autoImplicit false

variable {σ ε : Type}

/-- The state after the labels, when every one of them is enabled. -/
def run (step : σ → ε → Option σ) : σ → List ε → Option σ
  | s, [] => some s
  | s, e :: es => (step s e).bind fun s' => run step s' es

variable {step : σ → ε → Option σ}

theorem run_cons_eq_some {s t : σ} {e : ε} {es : List ε} :
    run step s (e :: es) = some t ↔ ∃ s', step s e = some s' ∧ run step s' es = some t :=
  Option.bind_eq_some_iff

theorem run_append (s : σ) (es fs : List ε) :
    run step s (es ++ fs) = (run step s es).bind fun s' => run step s' fs := by
  induction es generalizing s with
  | nil => rfl
  | cons e es ih =>
      show (step s e).bind _ = ((step s e).bind _).bind _
      rw [Option.bind_assoc]
      exact congrArg _ (funext fun s' => ih s')

theorem run_append_eq_some {s t : σ} {es fs : List ε} :
    run step s (es ++ fs) = some t ↔
      ∃ s', run step s es = some s' ∧ run step s' fs = some t := by
  rw [run_append, Option.bind_eq_some_iff]

/-- What is left of a run after its first part. -/
theorem run_rest {s m t : σ} {es fs : List ε} (before : run step s es = some m)
    (whole : run step s (es ++ fs) = some t) : run step m fs = some t := by
  rw [run_append, before] at whole
  exact whole

theorem run_concat_eq_some {s t : σ} {es : List ε} {e : ε} :
    run step s (es ++ [e]) = some t ↔
      ∃ s', run step s es = some s' ∧ step s' e = some t := by
  rw [run_append_eq_some]
  refine exists_congr fun s' => and_congr_right fun _ => ?_
  rw [run_cons_eq_some]
  simp [run]

/-- **Invariant rule.**  `Inv` speaks about a history and the state it leads to; `Ok` is a
condition on histories that every shorter history inherits. -/
theorem run_invariant {s₀ : σ} (Ok : List ε → Prop)
    (closed : ∀ es e, Ok (es ++ [e]) → Ok es) (Inv : List ε → σ → Prop) (start : Inv [] s₀)
    (preserved : ∀ es s e s', Ok (es ++ [e]) → run step s₀ es = some s → Inv es s →
      step s e = some s' → Inv (es ++ [e]) s')
    (es : List ε) (s : σ) (ok : Ok es) (reached : run step s₀ es = some s) : Inv es s := by
  induction es using List.reverseRecOn generalizing s with
  | nil =>
      cases reached
      exact start
  | append_singleton es e ih =>
      obtain ⟨s', before, last⟩ := run_concat_eq_some.1 reached
      exact preserved es s' e s ok before (ih s' (closed es e ok) before) last

section Related

variable {α β γ δ : Type} {R S : α → β → Prop} {T : γ → δ → Prop} {a : Option α} {b : Option β}

theorem rel_mono (related : Option.Rel R a b) (weaker : ∀ x y, R x y → S x y) : Option.Rel S a b := by
  cases related with
  | some related => exact .some (weaker _ _ related)
  | none => exact .none

theorem rel_bind {f : α → Option γ} {g : β → Option δ} (related : Option.Rel R a b)
    (kept : ∀ x y, R x y → Option.Rel T (f x) (g y)) : Option.Rel T (a.bind f) (b.bind g) := by
  cases related with
  | some related => exact kept _ _ related
  | none => exact .none

theorem exists_of_rel_some {x : α} (related : Option.Rel R (some x) b) : ∃ y, b = some y ∧ R x y := by
  cases related with
  | some related => exact ⟨_, rfl, related⟩

end Related

/-- **Simulation rule.**  Two executions of the same labels stay related when each step keeps the
relation, which may speak about the labels to come. -/
theorem run_rel (R : List ε → σ → σ → Prop)
    (stepped : ∀ e es s r, R (e :: es) s r → Option.Rel (R es) (step s e) (step r e)) :
    ∀ (es : List ε) (s r : σ), R es s r → Option.Rel (R []) (run step s es) (run step r es) := by
  intro es
  induction es with
  | nil => exact fun s r related => .some related
  | cons e es ih => exact fun s r related => rel_bind (stepped e es s r related) ih

/-- Every step of the execution of `es` from `s` meets the condition `C`. -/
def Along (step : σ → ε → Option σ) (C : σ → ε → Prop) : σ → List ε → Prop
  | _, [] => True
  | s, e :: es => C s e ∧ ∀ s', step s e = some s' → Along step C s' es

instance Along.decide (step : σ → ε → Option σ) (C : σ → ε → Prop) [∀ s e, Decidable (C s e)] :
    (s : σ) → (es : List ε) → Decidable (Along step C s es)
  | _, [] => .isTrue trivial
  | s, e :: es =>
      have later : Decidable (∀ s', step s e = some s' → Along step C s' es) :=
        match stepped : step s e with
        | none => .isTrue nofun
        | some t =>
            have := Along.decide step C t es
            decidable_of_iff (Along step C t es) (by simp)
      inferInstanceAs (Decidable (_ ∧ _))

theorem along_cons_iff {C : σ → ε → Prop} {s s' : σ} {e : ε} {es : List ε}
    (stepped : step s e = some s') :
    Along step C s (e :: es) ↔ C s e ∧ Along step C s' es := by
  rw [Along, stepped]
  simp

theorem Along.cons {C : σ → ε → Prop} {s s' : σ} {e : ε} {es : List ε} (here : C s e)
    (stepped : step s e = some s') (later : Along step C s' es) : Along step C s (e :: es) :=
  (along_cons_iff stepped).2 ⟨here, later⟩

theorem along_iff {C : σ → ε → Prop} {s₀ : σ} {es : List ε} :
    Along step C s₀ es ↔
      ∀ pre e post s, es = pre ++ e :: post → run step s₀ pre = some s → C s e := by
  induction es generalizing s₀ with
  | nil => simp [Along]
  | cons first es ih =>
      constructor
      · rintro ⟨here, later⟩ pre e post s split reached
        cases pre with
        | nil =>
            cases split
            cases reached
            exact here
        | cons first' pre =>
            cases split
            obtain ⟨s', stepped, rest⟩ := run_cons_eq_some.1 reached
            exact ih.1 (later s' stepped) pre e post s rfl rest
      · intro all
        refine ⟨all [] first es s₀ rfl rfl, fun s' stepped => ih.2 ?_⟩
        intro pre e post s split reached
        refine all (first :: pre) e post s (by rw [split]; rfl) ?_
        exact run_cons_eq_some.2 ⟨s', stepped, reached⟩

theorem Along.of_append {C : σ → ε → Prop} {s₀ : σ} {es fs : List ε}
    (all : Along step C s₀ (es ++ fs)) : Along step C s₀ es := by
  rw [along_iff] at all ⊢
  intro pre e post s split reached
  exact all pre e (post ++ fs) s (by simp [split]) reached

theorem Along.of_run {C : σ → ε → Prop} {s₀ s : σ} {es fs : List ε}
    (all : Along step C s₀ (es ++ fs)) (reached : run step s₀ es = some s) :
    Along step C s fs := by
  rw [along_iff] at all ⊢
  intro pre e post t split rest
  refine all (es ++ pre) e post t (by simp [split]) ?_
  exact run_append_eq_some.2 ⟨s, reached, rest⟩

theorem Along.append {C : σ → ε → Prop} {s₀ s : σ} {es fs : List ε} (first : Along step C s₀ es)
    (reached : run step s₀ es = some s) (second : Along step C s fs) :
    Along step C s₀ (es ++ fs) := by
  induction es generalizing s₀ with
  | nil =>
      cases reached
      exact second
  | cons e es ih =>
      obtain ⟨s', stepped, rest⟩ := run_cons_eq_some.1 reached
      exact .cons first.1 stepped (ih (first.2 s' stepped) rest)

/-- The invariant rule for executions whose steps all meet a condition. -/
theorem Along.invariant {C : σ → ε → Prop} (Inv : σ → Prop)
    (preserved : ∀ s e s', Inv s → C s e → step s e = some s' → Inv s') {s₀ s : σ} {es : List ε}
    (start : Inv s₀) (all : Along step C s₀ es) (reached : run step s₀ es = some s) : Inv s := by
  induction es generalizing s₀ with
  | nil =>
      cases reached
      exact start
  | cons e es ih =>
      obtain ⟨s', stepped, rest⟩ := run_cons_eq_some.1 reached
      exact ih (preserved s₀ e s' start all.1 stepped) (all.2 s' stepped) rest

/-- The invariant rule for executions whose labels all meet a condition. -/
theorem run_preserves {P : ε → Prop} (Inv : σ → Prop)
    (preserved : ∀ s e s', Inv s → P e → step s e = some s' → Inv s') {s₀ s : σ} {es : List ε}
    (start : Inv s₀) (labels : ∀ e ∈ es, P e) (reached : run step s₀ es = some s) : Inv s := by
  have all : Along step (fun _ e => P e) s₀ es := by
    rw [along_iff]
    intro pre e post _ split _
    exact labels e (split ▸ List.mem_append_right _ List.mem_cons_self)
  exact all.invariant Inv preserved start reached

/-- What the steps of the execution of `es` from `s` put out. -/
def outputs {ω : Type} (step : σ → ε → Option σ) (out : σ → ε → List ω) : σ → List ε → List ω
  | _, [] => []
  | s, e :: es =>
      out s e ++
        match step s e with
        | some s' => outputs step out s' es
        | none => []

section Outputs

variable {ω : Type} {out : σ → ε → List ω}

theorem outputs_cons {s s' : σ} {e : ε} (es : List ε) (stepped : step s e = some s') :
    outputs step out s (e :: es) = out s e ++ outputs step out s' es := by
  rw [outputs, stepped]

theorem outputs_append {s s' : σ} {es : List ε} (fs : List ε) (reached : run step s es = some s') :
    outputs step out s (es ++ fs) = outputs step out s es ++ outputs step out s' fs := by
  induction es generalizing s with
  | nil =>
      cases reached
      rfl
  | cons e es ih =>
      obtain ⟨t, stepped, rest⟩ := run_cons_eq_some.1 reached
      rw [List.cons_append, outputs_cons _ stepped, outputs_cons _ stepped, ih rest,
        List.append_assoc]

/-- A part of the state that every step folds its output into. -/
theorem run_project {τ : Type} (part : σ → τ) (f : τ → ω → τ)
    (stepped : ∀ s e s', step s e = some s' → part s' = (out s e).foldl f (part s)) {s s' : σ}
    {es : List ε} (reached : run step s es = some s') :
    part s' = (outputs step out s es).foldl f (part s) := by
  induction es generalizing s with
  | nil =>
      cases reached
      rfl
  | cons e es ih =>
      obtain ⟨t, first, rest⟩ := run_cons_eq_some.1 reached
      rw [outputs_cons _ first, List.foldl_append, ← stepped s e t first]
      exact ih rest

/-- What an execution put out, one of its steps put out. -/
theorem exists_of_mem_outputs {s : σ} {es : List ε} {o : ω} (member : o ∈ outputs step out s es) :
    ∃ pre e post s', es = pre ++ e :: post ∧ run step s pre = some s' ∧ o ∈ out s' e := by
  induction es generalizing s with
  | nil => cases member
  | cons e es ih =>
      rcases List.mem_append.1 member with here | later
      · exact ⟨[], e, es, s, rfl, rfl, here⟩
      · cases stepped : step s e with
        | none => simp [stepped] at later
        | some s' =>
            rw [stepped] at later
            obtain ⟨pre, e', post, t, rfl, reached, put⟩ := ih later
            exact ⟨e :: pre, e', post, t, rfl, run_cons_eq_some.2 ⟨s', stepped, reached⟩, put⟩

end Outputs

theorem Along.last {C : σ → ε → Prop} {s₀ s : σ} {es : List ε} {e : ε}
    (all : Along step C s₀ (es ++ [e])) (reached : run step s₀ es = some s) : C s e :=
  along_iff.1 all es e [] s rfl reached

/-! ## Machines that answer -/

section Answers

variable {τ ι ω : Type} {exec : σ → ι → ω × σ} {exec' : τ → ι → ω × τ}

/-- What a machine answers to the inputs `is`, one after the other. -/
def answers (exec : σ → ι → ω × σ) : σ → List ι → List ω
  | _, [] => []
  | s, i :: is => (exec s i).1 :: answers exec (exec s i).2 is

/-- The state after the inputs `is`. -/
def answered (exec : σ → ι → ω × σ) : σ → List ι → σ
  | s, [] => s
  | s, i :: is => answered exec (exec s i).2 is

theorem answered_append (s : σ) (is js : List ι) :
    answered exec s (is ++ js) = answered exec (answered exec s is) js := by
  induction is generalizing s with
  | nil => rfl
  | cons i is ih => exact ih (exec s i).2

/-- The invariant rule for machines that answer. -/
theorem answered_invariant (Inv : σ → Prop) (preserved : ∀ s i, Inv s → Inv (exec s i).2) {s : σ}
    (start : Inv s) (is : List ι) : Inv (answered exec s is) := by
  induction is generalizing s with
  | nil => exact start
  | cons i is ih => exact ih (preserved s i start)

/-- The invariant rule for machines that answer, with the inputs so far. -/
theorem answered_history (Inv : List ι → σ → Prop)
    (preserved : ∀ is s i, Inv is s → Inv (is ++ [i]) (exec s i).2) {s : σ} (start : Inv [] s)
    (is : List ι) : Inv is (answered exec s is) := by
  induction is using List.reverseRecOn with
  | nil => exact start
  | append_singleton is i ih =>
      rw [answered_append]
      exact preserved is _ i ih

/-- **Simulation.**  Machines whose related states answer alike and stay related give the same
answers to every list of inputs. -/
theorem answers_eq_of_simulation (R : σ → τ → Prop)
    (simulates : ∀ s t i, R s t → (exec s i).1 = (exec' t i).1 ∧ R (exec s i).2 (exec' t i).2)
    {s : σ} {t : τ} (related : R s t) (is : List ι) :
    answers exec s is = answers exec' t is ∧ R (answered exec s is) (answered exec' t is) := by
  induction is generalizing s t with
  | nil => exact ⟨rfl, related⟩
  | cons i is ih =>
      obtain ⟨same, related'⟩ := simulates s t i related
      obtain ⟨rest, final⟩ := ih related'
      exact ⟨congrArg₂ List.cons same rest, final⟩

/-- Simulation under a condition that every input meets in the state it comes to. -/
theorem Along.answers_eq {C : σ → ι → Prop} (R : σ → τ → Prop)
    (simulates : ∀ s t i, R s t → C s i →
      (exec s i).1 = (exec' t i).1 ∧ R (exec s i).2 (exec' t i).2)
    {s : σ} {t : τ} (related : R s t) {is : List ι}
    (all : Along (fun s i => some (exec s i).2) C s is) :
    answers exec s is = answers exec' t is ∧ R (answered exec s is) (answered exec' t is) := by
  induction is generalizing s t with
  | nil => exact ⟨rfl, related⟩
  | cons i is ih =>
      obtain ⟨same, related'⟩ := simulates s t i related all.1
      obtain ⟨rest, final⟩ := ih related' (all.2 _ rfl)
      exact ⟨congrArg₂ List.cons same rest, final⟩

end Answers

end CrossShard.Library
