import Mathlib.Logic.Function.Basic
import Mathlib.Data.List.Nodup
import Tudou.Foundation.Run

/-!
# `Coroutine`: who is the current coroutine

Model of `Coroutine::{Coroutine, resume, yield}` on one thread: the thread-local
`t_current_coroutine`, the nested calls of `resume()`, and the locals in which `resume`, `yield` and
the lambda of the constructor keep the value they are to restore.  A body ends by returning or with
an exception, which the pull of the `resume()` that runs it rethrows.

* `CoroutineThread` — the thread-local, the coroutines and the calls of `resume()` under way.
* `coroutines` — the transition system of one thread; what the bodies do is a label.
* `current_restored_iff` — **`resume()` restores the current coroutine, and a running body is the
  current coroutine, in exactly the runs in which no body ends with an exception**.
* `callPath_eq` — and there a call made in a coroutine suspends that coroutine.
-/

namespace Tudou

open Transition

/-- Where the execution of a coroutine stands, with the locals on its own stack. -/
inductive CoroutineStatus (C : Type*) where
  /-- At the push of the constructor. -/
  | constructed
  /-- In its body, or in a `resume()` its body has called; `saved` is the lambda's. -/
  | active (saved : Option C)
  /-- In `yield()`, whose own `saved` is the second. -/
  | suspended (saved yieldSaved : Option C)
  /-- The lambda has returned or thrown, and `*pull_` is false. -/
  | finished
  deriving DecidableEq, Repr

/-- A call of `resume()` that runs a coroutine. -/
structure ResumeCall (C : Type*) where
  coroutine : C
  /-- The local `saved`. -/
  saved : Option C
  /-- `t_current_coroutine` on entry, for the statements. -/
  onEntry : Option C
  deriving DecidableEq, Repr

/-- `t_current_coroutine` when a call of `resume()` was entered and when control left it. -/
structure ResumeEnd (C : Type*) where
  onEntry : Option C
  onExit : Option C
  deriving DecidableEq, Repr

structure CoroutineThread (C : Type*) where
  /-- `t_current_coroutine`. -/
  current : Option C
  /-- The coroutines that exist. -/
  status : C → Option (CoroutineStatus C)
  /-- The calls of `resume()` under way, the innermost first: the body of its coroutine runs. -/
  stack : List (ResumeCall C)
  /-- The calls of `resume()` that control has left. -/
  left : List (ResumeEnd C)

inductive CoroutineStep (C : Type*) where
  | construct (c : C)
  | resume (c : C)
  /-- The running body calls `yield()` of its coroutine. -/
  | yield
  | bodyReturns
  | bodyThrows
  /-- `~Coroutine`, which unwinds a suspended body without running more of it. -/
  | destroy (c : C)
  deriving DecidableEq, Repr

namespace CoroutineThread

variable {C : Type*} [DecidableEq C]

def create : CoroutineThread C where
  current := none
  status := fun _ => none
  stack := []
  left := []

def setStatus (s : CoroutineThread C) (c : C) (status : Option (CoroutineStatus C)) :
    CoroutineThread C :=
  { s with status := Function.update s.status c status }

/-- `resume()` up to the pull. -/
def enterResume (s : CoroutineThread C) (c : C) : CoroutineThread C :=
  { s with
    stack := { coroutine := c, saved := s.current, onEntry := s.current } :: s.stack
    current := some c }

/-- The lambda goes on after the push of the constructor, into `func_`. -/
def startBody (s : CoroutineThread C) (c : C) : CoroutineThread C :=
  { s.setStatus c (some (.active s.current)) with current := some c }

/-- `yield()` goes on after its push, back into `func_`. -/
def leaveYield (s : CoroutineThread C) (c : C) (saved yieldSaved : Option C) : CoroutineThread C :=
  { s.setStatus c (some (.active saved)) with current := yieldSaved }

/-- `yield()` up to its push. -/
def enterYield (s : CoroutineThread C) (c : C) (saved : Option C) : CoroutineThread C :=
  { s.setStatus c (some (.suspended saved s.current)) with current := none }

/-- The rest of the lambda after `func_` has returned. -/
def endBody (s : CoroutineThread C) (c : C) (saved : Option C) : CoroutineThread C :=
  { s.setStatus c (some .finished) with current := saved }

/-- The rest of `resume()` after the pull. -/
def leaveResume (s : CoroutineThread C) (call : ResumeCall C) (calls : List (ResumeCall C)) :
    CoroutineThread C :=
  { s with
    current := call.saved
    stack := calls
    left := ⟨call.onEntry, call.saved⟩ :: s.left }

/-- The pull of `resume()` throws, and the rest of `resume()` is skipped. -/
def unwindResume (s : CoroutineThread C) (call : ResumeCall C) (calls : List (ResumeCall C)) :
    CoroutineThread C :=
  { s with
    stack := calls
    left := ⟨call.onEntry, s.current⟩ :: s.left }

/-- The innermost call, those around it, and the lambda's `saved` of the body that runs. -/
def running (s : CoroutineThread C) : Option (ResumeCall C × List (ResumeCall C) × Option C) :=
  match s.stack with
  | [] => none
  | call :: calls =>
    match s.status call.coroutine with
    | some (.active saved) => some (call, calls, saved)
    | _ => none

def step (s : CoroutineThread C) : CoroutineStep C → Option (CoroutineThread C)
  | .construct c => if (s.status c).isNone then some (s.setStatus c (some .constructed)) else none
  | .resume c =>
    match s.status c with
    | some .constructed => some ((s.enterResume c).startBody c)
    | some (.suspended saved yieldSaved) => some ((s.enterResume c).leaveYield c saved yieldSaved)
    -- `*pull_` is false, and `resume()` does nothing
    | some .finished => some { s with left := ⟨s.current, s.current⟩ :: s.left }
    | some (.active _) => none
    | none => none
  | .yield => do
    let (call, calls, saved) ← s.running
    return (s.enterYield call.coroutine saved).leaveResume call calls
  | .bodyReturns => do
    let (call, calls, saved) ← s.running
    return (s.endBody call.coroutine saved).leaveResume call calls
  | .bodyThrows => do
    let (call, calls, _) ← s.running
    return (s.setStatus call.coroutine (some .finished)).unwindResume call calls
  | .destroy c =>
    match s.status c with
    | some (.active _) => none
    | some _ => some (s.setStatus c none)
    | none => none

end CoroutineThread

/-- The coroutines of one thread. -/
def coroutines (C : Type*) [DecidableEq C] : System (CoroutineThread C) (CoroutineStep C) where
  init := CoroutineThread.create
  step := CoroutineThread.step

namespace CoroutineThread

/-- The coroutine whose `resume()` is the innermost of the calls. -/
def innermost {C : Type*} (calls : List (ResumeCall C)) : Option C :=
  calls.head?.map (·.coroutine)

/-- What the thread-local is for. -/
structure Restored {C : Type*} (s : CoroutineThread C) : Prop where
  /-- A running body is the current coroutine. -/
  running : ∀ call, s.stack.head? = some call → s.current = some call.coroutine
  left : ∀ e ∈ s.left, e.onExit = e.onEntry

/-- The path of `BinaryRpcChannel::CallMethod`. -/
inductive CallPath (C : Type*) where
  /-- The coroutine is to be suspended until the response comes. -/
  | suspending (c : C)
  /-- The thread waits on a future. -/
  | blocking
  deriving DecidableEq, Repr

/-- The choice of `CallMethod`; the channel may have no loop. -/
def callPath {C : Type*} (s : CoroutineThread C) (hasLoop : Bool) : CallPath C :=
  match s.current with
  | some c => if hasLoop then .suspending c else .blocking
  | none => .blocking

/-! ## The steps -/

section

variable {C : Type*}

theorem running_eq_some {s : CoroutineThread C} {call : ResumeCall C} {calls : List (ResumeCall C)}
    {saved : Option C} : s.running = some (call, calls, saved) ↔
      s.stack = call :: calls ∧ s.status call.coroutine = some (.active saved) := by
  unfold running
  constructor
  · intro h
    split at h
    · cases h
    · split at h
      · cases h
        exact ⟨‹_›, ‹_›⟩
      · cases h
  · rintro ⟨hstack, hstatus⟩
    simp only [hstack, hstatus]

variable [DecidableEq C]

/-- What each step does. -/
inductive StepEnds (s : CoroutineThread C) : CoroutineStep C → CoroutineThread C → Prop
  | construct {c : C} (h : s.status c = none) :
      StepEnds s (.construct c) (s.setStatus c (some .constructed))
  | start {c : C} (h : s.status c = some .constructed) :
      StepEnds s (.resume c) ((s.enterResume c).startBody c)
  | goOn {c : C} {saved yieldSaved : Option C} (h : s.status c = some (.suspended saved yieldSaved)) :
      StepEnds s (.resume c) ((s.enterResume c).leaveYield c saved yieldSaved)
  | exhausted {c : C} (h : s.status c = some .finished) :
      StepEnds s (.resume c) { s with left := ⟨s.current, s.current⟩ :: s.left }
  | yield {call : ResumeCall C} {calls : List (ResumeCall C)} {saved : Option C}
      (hstack : s.stack = call :: calls) (h : s.status call.coroutine = some (.active saved)) :
      StepEnds s .yield ((s.enterYield call.coroutine saved).leaveResume call calls)
  | bodyReturns {call : ResumeCall C} {calls : List (ResumeCall C)} {saved : Option C}
      (hstack : s.stack = call :: calls) (h : s.status call.coroutine = some (.active saved)) :
      StepEnds s .bodyReturns ((s.endBody call.coroutine saved).leaveResume call calls)
  | bodyThrows {call : ResumeCall C} {calls : List (ResumeCall C)} {saved : Option C}
      (hstack : s.stack = call :: calls) (h : s.status call.coroutine = some (.active saved)) :
      StepEnds s .bodyThrows
        ((s.setStatus call.coroutine (some .finished)).unwindResume call calls)
  | destroy {c : C} {status : CoroutineStatus C} (h : s.status c = some status)
      (hidle : ∀ saved, status ≠ .active saved) : StepEnds s (.destroy c) (s.setStatus c none)

theorem step_ends {s s' : CoroutineThread C} {a : CoroutineStep C} (h : s.step a = some s') :
    StepEnds s a s' := by
  cases a with
  | construct c =>
    simp only [step] at h
    split at h
    · cases h
      exact .construct (Option.isNone_iff_eq_none.mp ‹_›)
    · cases h
  | resume c =>
    simp only [step] at h
    split at h
    · cases h
      exact .start ‹_›
    · cases h
      exact .goOn ‹_›
    · cases h
      exact .exhausted ‹_›
    · cases h
    · cases h
  | yield =>
    obtain ⟨⟨call, calls, saved⟩, hrun, h⟩ := Option.bind_eq_some_iff.mp h
    obtain ⟨hstack, hstatus⟩ := running_eq_some.mp hrun
    cases h
    exact .yield hstack hstatus
  | bodyReturns =>
    obtain ⟨⟨call, calls, saved⟩, hrun, h⟩ := Option.bind_eq_some_iff.mp h
    obtain ⟨hstack, hstatus⟩ := running_eq_some.mp hrun
    cases h
    exact .bodyReturns hstack hstatus
  | bodyThrows =>
    obtain ⟨⟨call, calls, saved⟩, hrun, h⟩ := Option.bind_eq_some_iff.mp h
    obtain ⟨hstack, hstatus⟩ := running_eq_some.mp hrun
    cases h
    exact .bodyThrows hstack hstatus
  | destroy c =>
    simp only [step] at h
    split at h
    · cases h
    · rename_i status hidle hstatus
      cases h
      exact .destroy hstatus hidle
    · cases h

/-! ## The calls under way -/

/-- The coroutines whose bodies have begun and not ended or yielded are those of the calls under
way, each in one call. -/
structure Sound (s : CoroutineThread C) : Prop where
  active : ∀ c, (∃ saved, s.status c = some (.active saved)) ↔ c ∈ s.stack.map (·.coroutine)
  nodup : (s.stack.map (·.coroutine)).Nodup
  onEntry : ∀ call ∈ s.stack, call.saved = call.onEntry

omit [DecidableEq C] in
theorem sound_create : (create : CoroutineThread C).Sound where
  active c := by simp [create]
  nodup := List.nodup_nil
  onEntry call hm := by cases hm

/-- A step that keeps the calls under way changes the status of no coroutine in one of them. -/
theorem Sound.setIdle {s : CoroutineThread C} (h : s.Sound) {c : C}
    (hidle : ∀ saved, s.status c ≠ some (.active saved)) {status : Option (CoroutineStatus C)}
    (hnew : ∀ saved, status ≠ some (.active saved)) : (s.setStatus c status).Sound where
  active c' := by
    rw [show (s.setStatus c status).stack = s.stack from rfl, ← h.active]
    simp only [setStatus, Function.update_apply]
    split
    · rename_i heq
      subst heq
      exact ⟨fun ⟨saved, hs⟩ => absurd hs (hnew saved), fun ⟨saved, hs⟩ => absurd hs (hidle saved)⟩
    · exact Iff.rfl
  nodup := h.nodup
  onEntry := h.onEntry

/-- `resume()` of a coroutine in none of the calls adds a call. -/
theorem Sound.enter {s s' : CoroutineThread C} (h : s.Sound) {c : C} {saved : Option C}
    (hidle : ∀ saved, s.status c ≠ some (.active saved))
    (hstatus : s'.status = Function.update s.status c (some (.active saved)))
    (hstack : s'.stack = (s.enterResume c).stack) : s'.Sound := by
  have hnot : c ∉ s.stack.map (·.coroutine) := by
    rw [← h.active]
    rintro ⟨saved, hs⟩
    exact hidle saved hs
  refine ⟨fun c' => ?_, ?_, ?_⟩
  · simp only [hstack, enterResume, List.map_cons, List.mem_cons, hstatus, Function.update_apply]
    split
    · rename_i heq
      exact ⟨fun _ => .inl heq, fun _ => ⟨saved, rfl⟩⟩
    · rename_i hne
      rw [h.active, or_iff_right hne]
  · rw [hstack]
    exact List.nodup_cons.mpr ⟨hnot, h.nodup⟩
  · rw [hstack]
    intro call hm
    rcases List.mem_cons.mp hm with rfl | hm
    · rfl
    · exact h.onEntry call hm

/-- The body of the innermost call stops to run, and control leaves the call. -/
theorem Sound.leave {s s' : CoroutineThread C} (h : s.Sound) {call : ResumeCall C}
    {calls : List (ResumeCall C)} (hold : s.stack = call :: calls)
    {status : Option (CoroutineStatus C)} (hnew : ∀ saved, status ≠ some (.active saved))
    (hstatus : s'.status = Function.update s.status call.coroutine status)
    (hstack : s'.stack = calls) : s'.Sound := by
  have hnodup := h.nodup
  rw [hold, List.map_cons, List.nodup_cons] at hnodup
  refine ⟨fun c => ?_, ?_, ?_⟩
  · rw [hstack, hstatus, Function.update_apply]
    split
    · rename_i heq
      subst heq
      exact ⟨fun ⟨saved, hs⟩ => absurd hs (hnew saved), fun hm => absurd hm hnodup.1⟩
    · rename_i hne
      rw [h.active, hold, List.map_cons, List.mem_cons, or_iff_right hne]
  · rw [hstack]
    exact hnodup.2
  · rw [hstack]
    intro call' hm
    exact h.onEntry call' (hold ▸ List.mem_cons_of_mem _ hm)

theorem Sound.step {s s' : CoroutineThread C} {a : CoroutineStep C} (h : s.Sound)
    (hs : StepEnds s a s') : s'.Sound := by
  cases hs with
  | construct hnone => exact h.setIdle (by simp [hnone]) (by simp)
  | start hstatus => exact h.enter (by simp [hstatus]) rfl rfl
  | goOn hstatus => exact h.enter (by simp [hstatus]) rfl rfl
  | exhausted _ => exact ⟨h.active, h.nodup, h.onEntry⟩
  | yield hstack _ => exact h.leave hstack (by simp) rfl rfl
  | bodyReturns hstack _ => exact h.leave hstack (by simp) rfl rfl
  | bodyThrows hstack _ => exact h.leave hstack (by simp) rfl rfl
  | destroy hstatus hidle =>
    refine h.setIdle (fun saved hs => ?_) (by simp)
    rw [hstatus] at hs
    exact hidle saved (Option.some.inj hs)

theorem sound_of_reachable {s : CoroutineThread C} (h : (coroutines C).Reachable s) : s.Sound :=
  h.invariant sound_create fun _ _ _ hs _ hstep => hs.step (step_ends hstep)

/-! ## The current coroutine -/

/-- Each call of `resume()` but the outermost was made by the body of the next. -/
def Nested {C : Type*} : List (ResumeCall C) → Prop
  | [] => True
  | call :: calls => call.saved = innermost calls ∧ Nested calls

/-- The thread-local and all its saved values, while no body has thrown. -/
structure Current (s : CoroutineThread C) : Prop where
  sound : s.Sound
  current : s.current = innermost s.stack
  nested : Nested s.stack
  active : ∀ {c saved}, s.status c = some (.active saved) → saved = some c
  suspended : ∀ {c saved yieldSaved}, s.status c = some (.suspended saved yieldSaved) →
    saved = some c ∧ yieldSaved = some c
  left : ∀ e ∈ s.left, e.onExit = e.onEntry

omit [DecidableEq C] in
theorem current_create : (create : CoroutineThread C).Current where
  sound := sound_create
  current := rfl
  nested := trivial
  active h := by cases h
  suspended h := by cases h
  left e hm := by cases hm

omit [DecidableEq C] in
theorem Current.of_running {s : CoroutineThread C} (h : s.Current) {call : ResumeCall C}
    (hcall : s.stack.head? = some call) : s.current = some call.coroutine := by
  rw [h.current, innermost, hcall, Option.map_some]

omit [DecidableEq C] in
theorem Current.restored {s : CoroutineThread C} (h : s.Current) : s.Restored where
  running _ hcall := h.of_running hcall
  left := h.left

/-- A new status that is not one of a body keeps what the locals of the bodies hold. -/
theorem Current.locals {s : CoroutineThread C} (h : s.Current) (c : C)
    (status : Option (CoroutineStatus C)) (hactive : ∀ saved, status = some (.active saved) → saved = some c)
    (hsuspended : ∀ saved yieldSaved, status = some (.suspended saved yieldSaved) →
      saved = some c ∧ yieldSaved = some c) :
    (∀ {c' saved}, Function.update s.status c status c' = some (.active saved) → saved = some c') ∧
      ∀ {c' saved yieldSaved}, Function.update s.status c status c' =
        some (.suspended saved yieldSaved) → saved = some c' ∧ yieldSaved = some c' := by
  constructor
  · intro c' saved hs
    rw [Function.update_apply] at hs
    split at hs
    · rename_i heq
      exact heq ▸ hactive saved hs
    · exact h.active hs
  · intro c' saved yieldSaved hs
    rw [Function.update_apply] at hs
    split at hs
    · rename_i heq
      exact heq ▸ hsuspended saved yieldSaved hs
    · exact h.suspended hs

/-- `resume()` leaves with the value of the call below, which is the one on entry. -/
theorem Current.leave {s s' : CoroutineThread C} (h : s.Current) (hsound : s'.Sound)
    {call : ResumeCall C} {calls : List (ResumeCall C)} (hold : s.stack = call :: calls)
    {status : Option (CoroutineStatus C)} (hactive : ∀ saved, status ≠ some (.active saved))
    (hsuspended : ∀ saved yieldSaved, status = some (.suspended saved yieldSaved) →
      saved = some call.coroutine ∧ yieldSaved = some call.coroutine)
    (hstatus : s'.status = Function.update s.status call.coroutine status)
    (hcurrent : s'.current = call.saved) (hstack : s'.stack = calls)
    (hleft : s'.left = ⟨call.onEntry, call.saved⟩ :: s.left) : s'.Current := by
  obtain ⟨hact, hsus⟩ :=
    h.locals call.coroutine status (fun saved hs => absurd hs (hactive saved)) hsuspended
  have hnested := h.nested
  rw [hold] at hnested
  refine ⟨hsound, ?_, ?_, ?_, ?_, ?_⟩
  · rw [hcurrent, hstack]
    exact hnested.1
  · rw [hstack]
    exact hnested.2
  · rw [hstatus]
    exact hact
  · rw [hstatus]
    exact hsus
  · rw [hleft]
    intro e hm
    rcases List.mem_cons.mp hm with rfl | hm
    · exact h.sound.onEntry call (hold ▸ List.mem_cons_self)
    · exact h.left e hm

/-- A body is entered, or entered again after its `yield()`. -/
theorem Current.enter {s s' : CoroutineThread C} (h : s.Current) (hsound : s'.Sound) {c : C}
    (hstatus : s'.status = Function.update s.status c (some (.active (some c))))
    (hcurrent : s'.current = some c) (hstack : s'.stack = (s.enterResume c).stack)
    (hleft : s'.left = s.left) : s'.Current := by
  obtain ⟨hact, hsus⟩ := h.locals c (some (.active (some c)))
    (fun saved hs => by cases hs; rfl) (fun _ _ hs => by cases hs)
  refine ⟨hsound, ?_, ?_, ?_, ?_, ?_⟩
  · rw [hcurrent, hstack]
    rfl
  · rw [hstack]
    exact ⟨h.current, h.nested⟩
  · rw [hstatus]
    exact hact
  · rw [hstatus]
    exact hsus
  · rw [hleft]
    exact h.left

/-- Every step but the end of a body with an exception keeps the thread-local right. -/
theorem Current.step {s s' : CoroutineThread C} {a : CoroutineStep C} (h : s.Current)
    (ha : a ≠ .bodyThrows) (hs : StepEnds s a s') : s'.Current := by
  have hsound := h.sound.step hs
  cases hs with
  | @construct c hnone =>
    obtain ⟨hact, hsus⟩ := h.locals c (some .constructed)
      (fun _ hs => by cases hs) (fun _ _ hs => by cases hs)
    exact ⟨hsound, h.current, h.nested, hact, hsus, h.left⟩
  | start _ => exact h.enter hsound rfl rfl rfl rfl
  | goOn hstatus =>
    obtain ⟨rfl, rfl⟩ := h.suspended hstatus
    exact h.enter hsound rfl rfl rfl rfl
  | exhausted _ =>
    refine ⟨hsound, h.current, h.nested, h.active, h.suspended, fun e hm => ?_⟩
    rcases List.mem_cons.mp hm with rfl | hm
    · rfl
    · exact h.left e hm
  | yield hstack hstatus =>
    -- `yield()` keeps the value of its own body, which the next `resume()` of it puts back
    refine h.leave hsound hstack (by simp) (fun saved yieldSaved hs => ?_) rfl rfl rfl rfl
    cases hs
    exact ⟨h.active hstatus, h.of_running (by rw [hstack, List.head?_cons])⟩
  | bodyReturns hstack _ => exact h.leave hsound hstack (by simp) (by simp) rfl rfl rfl rfl
  | bodyThrows _ _ => exact absurd rfl ha
  | @destroy c _ _ _ =>
    obtain ⟨hact, hsus⟩ := h.locals c none
      (fun _ hs => by cases hs) (fun _ _ hs => by cases hs)
    exact ⟨hsound, h.current, h.nested, hact, hsus, h.left⟩

/-- **An exception leaves `resume()` with the coroutine that has ended as the current one**, which
is not the one on entry. -/
theorem Current.bodyThrows {s s' : CoroutineThread C} (h : s.Current)
    (hs : s.step .bodyThrows = some s') :
    ∃ c, s'.current = some c ∧ s'.status c = some .finished ∧
      ∃ e ∈ s'.left, e.onExit = some c ∧ e.onEntry ≠ some c := by
  cases step_ends hs with
  | @bodyThrows call calls _ hstack _ =>
    have hcurrent : s.current = some call.coroutine :=
      h.of_running (by rw [hstack, List.head?_cons])
    refine ⟨call.coroutine, hcurrent, Function.update_self .., _, List.mem_cons_self, hcurrent, ?_⟩
    have hnested := h.nested
    have hnodup := h.sound.nodup
    rw [hstack] at hnested hnodup
    rw [← h.sound.onEntry call (hstack ▸ List.mem_cons_self), hnested.1]
    intro heq
    obtain ⟨call', hcall', hc⟩ := Option.map_eq_some_iff.mp heq
    exact (List.nodup_cons.mp hnodup).1
      (List.mem_map.mpr ⟨call', List.mem_of_head? hcall', hc⟩)

/-- Some `resume()` was left with another value than it was entered with. -/
def Stale {C : Type*} (s : CoroutineThread C) : Prop := ∃ e ∈ s.left, e.onExit ≠ e.onEntry

theorem Stale.step {s s' : CoroutineThread C} {a : CoroutineStep C} (h : s.Stale)
    (hs : StepEnds s a s') : s'.Stale := by
  obtain ⟨e, hm, hne⟩ := h
  cases hs with
  | construct _ | start _ | goOn _ | destroy _ _ => exact ⟨e, hm, hne⟩
  | exhausted _ | yield _ _ | bodyReturns _ _ | bodyThrows _ _ =>
    exact ⟨e, List.mem_cons_of_mem _ hm, hne⟩

theorem Current.stale {s s' : CoroutineThread C} {a : CoroutineStep C} (h : s.Current)
    (ha : ¬a ≠ .bodyThrows) (hs : s.step a = some s') : s'.Stale := by
  rw [not_not.mp ha] at hs
  obtain ⟨c, -, -, e, hm, hexit, hentry⟩ := h.bodyThrows hs
  exact ⟨e, hm, fun heq => hentry (heq ▸ hexit)⟩

/-- **In every run, whatever the coroutines and however their calls nest, control has left each
`resume()` with the value it found and the body that runs is current, iff no body has ended with an
exception.** -/
theorem current_restored_iff {s : CoroutineThread C} (steps : List (CoroutineStep C))
    (hr : (coroutines C).run (coroutines C).init steps = some s) :
    s.Restored ↔ CoroutineStep.bodyThrows ∉ steps := by
  have hiff : s.Restored ↔ (coroutines C).Admits (fun _ a => a ≠ .bodyThrows) (coroutines C).init steps :=
    System.run_iff_admits (I := Current) (B := Stale) (fun _ h => h.restored)
      (fun _ ⟨e, hm, hne⟩ hres => hne (hres.left e hm)) (fun _ _ _ h ha hs => h.step ha (step_ends hs))
      (fun _ _ _ h ha hs => h.stale ha hs) (fun _ _ _ h hs => h.step (step_ends hs)) steps
      current_create hr
  rw [hiff, System.admits_labels steps hr]
  exact ⟨fun h hm => h _ hm rfl, fun h a hm heq => h (heq ▸ hm)⟩

/-- Two coroutines, one resumed by the body of the other, both yielding and both resumed again. -/
def nestedCoroutines : List (CoroutineStep Nat) :=
  [.construct 0, .construct 1, .resume 0, .resume 1, .yield, .resume 1, .bodyReturns, .yield,
    .resume 1, .resume 0, .bodyReturns]

theorem current_restored_iff_nestedCoroutines : ∃ s,
    (coroutines Nat).run (coroutines Nat).init nestedCoroutines = some s ∧
      (s.Restored ↔ CoroutineStep.bodyThrows ∉ nestedCoroutines) :=
  ⟨_, rfl, current_restored_iff nestedCoroutines rfl⟩

/-- A body that throws at once stays the current coroutine of the thread. -/
theorem current_restored_iff_thrown : ¬∀ (steps : List (CoroutineStep Nat)) s,
    (coroutines Nat).run (coroutines Nat).init steps = some s → s.Restored := by
  intro h
  have hres := h [.construct 0, .resume 0, .bodyThrows] _ rfl
  have hleft := hres.left ⟨none, some 0⟩ List.mem_cons_self
  cases hleft

/-! ## The path of a call -/

theorem current_of_reaches {s : CoroutineThread C}
    (h : (coroutines C).Reaches (fun _ a => a ≠ .bodyThrows) s) : s.Current :=
  h.invariant current_create fun _ _ _ hs ha hstep => hs.step ha (step_ends hstep)

/-- **As long as no body has thrown, a call made in a coroutine suspends that coroutine, and one made
outside of all coroutines blocks.** -/
theorem callPath_eq {s : CoroutineThread C}
    (h : (coroutines C).Reaches (fun _ a => a ≠ .bodyThrows) s) :
    s.callPath true = match innermost s.stack with
      | some c => .suspending c
      | none => .blocking := by
  rw [callPath, (current_of_reaches h).current]
  cases innermost s.stack with
  | none => rfl
  | some c => rfl

/-- After an exception the next call is taken for one of the coroutine that has ended. -/
theorem callPath_after_throw {s s' : CoroutineThread C}
    (h : (coroutines C).Reaches (fun _ a => a ≠ .bodyThrows) s) (hs : s.step .bodyThrows = some s') :
    ∃ c, s'.callPath true = .suspending c ∧ s'.status c = some .finished := by
  obtain ⟨c, hc, hfinished, -⟩ := (current_of_reaches h).bodyThrows hs
  refine ⟨c, ?_, hfinished⟩
  rw [callPath, hc]
  rfl

end

end CoroutineThread

end Tudou
