import Mathlib.Data.List.Basic

/-!
# Runs of labelled transition systems

The rules by which facts about single steps become facts about whole runs.

* `System` — an initial state and a partial step function driven by labels; a label carries
  every choice the environment makes, so a step is a function and a run can be evaluated.
* `System.Reaches G` — the states of runs all of whose steps meet the guard `G`;
  `System.Reachable` is the unguarded case.
* `Reaches.invariant` — **run rule**: what holds at the start and is kept by every guarded
  step holds in every state reached.
* `System.run_history` — **run rule for a history that grows**: one history serves every moment of a run.
* `System.run`, `System.Admits` — the executable side: a concrete run and its guard checks,
  turned into `Reaches` by `Reaches.of_run`.
* `Inevitable.of_decreasing` — **progress rule**: where a guarded step is open and every guarded step
  lowers a rank, each run of such steps comes to its end.
* `Simulation.reaches` — a forward simulation carries reachability to the abstract system.
-/

namespace Transition

/-- A transition system: `step s a = none` where the label `a` is not enabled in `s`. -/
structure System (σ α : Type*) where
  init : σ
  step : σ → α → Option σ

namespace System

variable {σ α : Type*} (S : System σ α)

/-- States of the runs whose steps all meet the guard `G`. -/
inductive Reaches (G : σ → α → Prop) : σ → Prop
  | init : Reaches G S.init
  | step {s s' : σ} {a : α} : Reaches G s → G s a → S.step s a = some s' → Reaches G s'

/-- States of arbitrary runs. -/
def Reachable (s : σ) : Prop := S.Reaches (fun _ _ => True) s

/-- The state after a list of labels, `none` if one of them is not enabled. -/
def run : σ → List α → Option σ
  | s, [] => some s
  | s, a :: as =>
    match S.step s a with
    | none => none
    | some s' => run s' as

/-- Every step of the run meets the guard. -/
def Admits (G : σ → α → Prop) : σ → List α → Prop
  | _, [] => True
  | s, a :: as =>
    G s a ∧ match S.step s a with
      | none => True
      | some s' => Admits G s' as

/-- Every run of guarded steps comes to a state that meets `P`, and none of them is stuck before. -/
inductive Inevitable (G : σ → α → Prop) (P : σ → Prop) : σ → Prop
  | done {s : σ} : P s → Inevitable G P s
  | later {s : σ} : (∃ a s', G s a ∧ S.step s a = some s') →
      (∀ a s', G s a → S.step s a = some s' → Inevitable G P s') → Inevitable G P s

instance Admits.decidable (G : σ → α → Prop) [∀ s a, Decidable (G s a)] :
    ∀ (s : σ) (as : List α), Decidable (S.Admits G s as)
  | _, [] => inferInstanceAs (Decidable True)
  | s, a :: as => by
    unfold Admits
    cases S.step s a with
    | none => exact inferInstance
    | some s' =>
      have := Admits.decidable G s' as
      exact inferInstance

variable {S}

/-- **Run rule**: an invariant of the guarded steps holds in every state they reach. -/
theorem Reaches.invariant {G : σ → α → Prop} {I : σ → Prop} (h0 : I S.init)
    (hstep : ∀ s a s', I s → G s a → S.step s a = some s' → I s') {s : σ} (h : S.Reaches G s) :
    I s := by
  induction h with
  | init => exact h0
  | step _ hg hs ih => exact hstep _ _ _ ih hg hs

/-- **Run rule for a concrete run**, from any state that meets the invariant. -/
theorem run_invariant {G : σ → α → Prop} {I : σ → Prop}
    (hstep : ∀ s a s', I s → G s a → S.step s a = some s' → I s') (as : List α) {s t : σ} (hI : I s)
    (hr : S.run s as = some t) (ha : S.Admits G s as) : I t := by
  induction as generalizing s with
  | nil =>
    cases hr
    exact hI
  | cons a as ih =>
    simp only [run] at hr
    simp only [Admits] at ha
    split at hr
    · cases hr
    · rename_i s' h
      rw [h] at ha
      exact ih (hstep s a s' hI ha.1 h) hr ha.2

/-- **Run rule for a history that grows**: if each guarded step extends the history that a state is related
to, every moment of a run is related to a part of the history of the whole run. -/
theorem run_history {β : Type*} {G : σ → α → Prop} {I : List β → σ → Prop}
    (hstep : ∀ h s a s', I h s → G s a → S.step s a = some s' → ∃ later, I (h ++ later) s') (as : List α)
    {h : List β} {s t : σ} (hI : I h s) (hr : S.run s as = some t) (ha : S.Admits G s as) :
    ∃ later, I (h ++ later) t ∧
      ∀ n s', S.run s (as.take n) = some s' → ∃ m, I ((h ++ later).take m) s' := by
  induction as generalizing h s with
  | nil =>
    cases hr
    refine ⟨[], ?_, fun n s' hs' => ?_⟩
    · rwa [List.append_nil]
    · rw [List.take_nil] at hs'
      cases hs'
      exact ⟨h.length, by rwa [List.append_nil, List.take_length]⟩
  | cons a as ih =>
    simp only [run] at hr
    simp only [Admits] at ha
    split at hr
    · cases hr
    · rename_i s₁ hs
      rw [hs] at ha
      obtain ⟨now, hnow⟩ := hstep h s a s₁ hI ha.1 hs
      obtain ⟨later, ht, hmoments⟩ := ih hnow hr ha.2
      rw [List.append_assoc] at ht
      refine ⟨now ++ later, ht, fun n s' hs' => ?_⟩
      cases n with
      | zero =>
        cases hs'
        exact ⟨h.length, by rwa [List.take_left]⟩
      | succ n =>
        rw [List.take_succ_cons, run, hs] at hs'
        rw [← List.append_assoc]
        exact hmoments n s' hs'

theorem Reaches.append_run {G : σ → α → Prop} (as : List α) {s t : σ} (hs : S.Reaches G s)
    (hr : S.run s as = some t) (ha : S.Admits G s as) : S.Reaches G t :=
  run_invariant (fun _ _ _ h hg hstep => h.step hg hstep) as hs hr ha

/-- A concrete run whose steps meet the guard reaches its last state. -/
theorem Reaches.of_run {G : σ → α → Prop} (as : List α) {s : σ} (hr : S.run S.init as = some s)
    (ha : S.Admits G S.init as) : S.Reaches G s :=
  Reaches.append_run as .init hr ha

theorem admits_true : ∀ (s : σ) (as : List α), S.Admits (fun _ _ => True) s as
  | _, [] => trivial
  | s, a :: as => by
    refine ⟨trivial, ?_⟩
    split
    · trivial
    · exact admits_true _ as

/-- A weaker guard admits more. -/
theorem Admits.mono {G H : σ → α → Prop} (h : ∀ s a, G s a → H s a) : ∀ {s : σ} (as : List α),
    S.Admits G s as → S.Admits H s as
  | _, [], _ => trivial
  | s, a :: as, ha => by
    refine ⟨h s a ha.1, ?_⟩
    have hrest := ha.2
    cases hs : S.step s a with
    | none => trivial
    | some s' =>
      rw [hs] at hrest
      exact Admits.mono h as hrest

/-- Two guards that agree on the states an invariant describes admit the same runs, if the steps
they allow keep it. -/
theorem admits_congr {G H : σ → α → Prop} {I : σ → Prop} (hiff : ∀ s a, I s → (G s a ↔ H s a))
    (hstep : ∀ s a s', I s → H s a → S.step s a = some s' → I s') (as : List α) {s : σ} (hI : I s) :
    S.Admits G s as ↔ S.Admits H s as := by
  induction as generalizing s with
  | nil => exact Iff.rfl
  | cons a as ih =>
    simp only [Admits, hiff s a hI]
    refine and_congr_right fun ha => ?_
    cases h : S.step s a with
    | none => exact Iff.rfl
    | some s' => exact ih (hstep s a s' hI ha h)

/-- A guard on labels alone. -/
theorem admits_labels {P : α → Prop} (as : List α) {s t : σ} (hr : S.run s as = some t) :
    S.Admits (fun _ a => P a) s as ↔ ∀ a ∈ as, P a := by
  induction as generalizing s with
  | nil => exact iff_of_true trivial fun _ h => absurd h List.not_mem_nil
  | cons a as ih =>
    simp only [run] at hr
    simp only [Admits, List.forall_mem_cons]
    split at hr
    · cases hr
    · exact and_congr_right fun _ => ih hr

/-- **Where a guard is exact**: steps that meet it keep `I`, which gives `P`, and a step that does not
ends in `B`, which stays and excludes `P`. -/
theorem run_iff_admits {G : σ → α → Prop} {I B P : σ → Prop} (hI : ∀ s, I s → P s)
    (hB : ∀ s, B s → ¬P s) (hkeep : ∀ s a s', I s → G s a → S.step s a = some s' → I s')
    (hfail : ∀ s a s', I s → ¬G s a → S.step s a = some s' → B s')
    (hstay : ∀ s a s', B s → S.step s a = some s' → B s') (as : List α) {s t : σ} (hs : I s)
    (hr : S.run s as = some t) : P t ↔ S.Admits G s as := by
  induction as generalizing s with
  | nil =>
    cases hr
    exact iff_of_true (hI _ hs) trivial
  | cons a as ih =>
    simp only [run] at hr
    simp only [Admits]
    split at hr
    · cases hr
    · rename_i s' hstep
      by_cases hg : G s a
      · rw [ih (hkeep s a s' hs hg hstep) hr]
        exact (and_iff_right hg).symm
      · refine iff_of_false (hB t ?_) fun hadmits => hg hadmits.1
        exact run_invariant (G := fun _ _ => True) (fun _ _ _ hb _ h => hstay _ _ _ hb h) as
          (hfail s a s' hs hg hstep) hr (admits_true _ _)

/-- **Where a guard is exact for a whole run**: `P` holds at every moment of a run if and only if all its
steps meet the guard. -/
theorem throughout_iff_admits {G : σ → α → Prop} {I P : σ → Prop} (hI : ∀ s, I s → P s)
    (hkeep : ∀ s a s', I s → G s a → S.step s a = some s' → I s')
    (hexact : ∀ s a s', I s → S.step s a = some s' → P s' → G s a) (as : List α) {s t : σ} (hs : I s)
    (hr : S.run s as = some t) :
    (∀ n s', S.run s (as.take n) = some s' → P s') ↔ S.Admits G s as := by
  induction as generalizing s with
  | nil =>
    refine iff_of_true (fun n s' hs' => ?_) trivial
    rw [List.take_nil] at hs'
    cases hs'
    exact hI _ hs
  | cons a as ih =>
    simp only [run] at hr
    split at hr
    · cases hr
    · rename_i s₁ hstep
      simp only [Admits, hstep]
      constructor
      · intro h
        have hg : G s a := by
          refine hexact s a s₁ hs hstep (h 1 s₁ ?_)
          rw [List.take_succ_cons, List.take_zero, run, hstep]
          rfl
        refine ⟨hg, (ih (hkeep s a s₁ hs hg hstep) hr).mp fun n s' hs' => h (n + 1) s' ?_⟩
        rw [List.take_succ_cons, run, hstep]
        exact hs'
      · rintro ⟨hg, hrest⟩ n s' hs'
        cases n with
        | zero =>
          cases hs'
          exact hI s hs
        | succ n =>
          rw [List.take_succ_cons, run, hstep] at hs'
          exact (ih (hkeep s a s₁ hs hg hstep) hr).mpr hrest n s' hs'

/-- **Progress rule.** -/
theorem Inevitable.of_decreasing {β : Type*} {r : β → β → Prop} (hr : WellFounded r) (rank : σ → β)
    {G : σ → α → Prop} {I P : σ → Prop}
    (hopen : ∀ s, I s → ¬P s → ∃ a s', G s a ∧ S.step s a = some s')
    (hstep : ∀ s a s', I s → ¬P s → G s a → S.step s a = some s' →
      P s' ∨ I s' ∧ r (rank s') (rank s)) {s : σ} (hI : I s) : S.Inevitable G P s := by
  have hall : ∀ b s, rank s = b → I s → S.Inevitable G P s := by
    intro b
    induction b using hr.induction with
    | h b ih =>
      rintro s rfl hI
      by_cases hP : P s
      · exact .done hP
      · refine .later (hopen s hI hP) fun a s' hg hs => ?_
        rcases hstep s a s' hI hP hg hs with hP' | ⟨hI', hlt⟩
        · exact .done hP'
        · exact ih _ hlt s' rfl hI'
  exact hall _ s rfl hI

theorem Reachable.of_run (as : List α) {s : σ} (hr : S.run S.init as = some s) : S.Reachable s :=
  Reaches.of_run as hr (admits_true _ as)

end System

/-- A forward simulation: every guarded concrete step is matched by abstract steps. -/
structure Simulation {σ α τ β : Type*} (S : System σ α) (G : σ → α → Prop) (T : System τ β)
    (R : σ → τ → Prop) : Prop where
  init : R S.init T.init
  step : ∀ {s a s' t}, R s t → G s a → S.step s a = some s' → ∃ bs t', T.run t bs = some t' ∧ R s' t'

/-- **Refinement**: what the concrete system reaches, the abstract one reaches too, related. -/
theorem Simulation.reaches {σ α τ β : Type*} {S : System σ α} {G : σ → α → Prop} {T : System τ β}
    {R : σ → τ → Prop} (sim : Simulation S G T R) {s : σ} (h : S.Reaches G s) :
    ∃ t, T.Reachable t ∧ R s t := by
  induction h with
  | init => exact ⟨T.init, .init, sim.init⟩
  | step _ hg hs ih =>
    obtain ⟨t, ht, hR⟩ := ih
    obtain ⟨bs, t', hrun, hR'⟩ := sim.step hR hg hs
    exact ⟨t', ht.append_run bs hrun (System.admits_true t bs), hR'⟩

end Transition
