import AsmOS.Sched.Scheduler

/-
  Whether switching conserves the contexts of the tasks.

  A run is followed beside its contexts: which of them runs,
  and the pointer each task stored at its own latest yield,
  or its initial frame.  With two or more tasks nothing is
  lost once the scheduler has started.  With one task the
  pointer is read before it is stored; and a yield before
  the start is charged to task 0, whose frame it overwrites.

  Main declarations:
    * `Contexts`, `SwitchOk`, `Conserves`
    * `conserves_of_many`, `conserves_one_iff`
    * `contexts_conserved_iff`
-/

------------------------------------------------------------
-- Contexts
------------------------------------------------------------

namespace AsmOS

namespace Sched

/-
  The running task, or none for a context that is not a
  task, and the pointer each task would be resumed at.
-/
structure Contexts where
  running : Option Nat
  saved : Nat → UInt32

/- The contexts once the running one stores `esp`. -/
def Contexts.suspend
    (c : Contexts)
    (esp : UInt32) : Nat → UInt32 :=
  match c.running with
  | none => c.saved
  | some i => Function.update c.saved i esp

/-
  A yield from `s` to `s'` goes to the task after the current
  one, resumes it where it was, and leaves every entry to
  its own task.
-/
structure SwitchOk
    (c : Contexts)
    (s s' : Scheduler) : Prop where
  target : s'.currentTask = (s.currentTask + 1) % s.taskCount
  loads :
    s'.esp =
      resumed (c.suspend (frame s.esp) s'.currentTask.toNat)
  saved :
    ∀ j < s.taskCount,
      s'.savedEsp j = c.suspend (frame s.esp) j

/-
  Every yield of a run is such a switch; the run is given by
  the stack pointers at its yields.
-/
def Conserves
    (c : Contexts)
    (s : Scheduler) :
    List UInt32 → Prop
| [] => True
| esp :: esps =>
    let s' := taskYield { s with esp }
    SwitchOk c { s with esp } s' ∧
      Conserves
        ⟨some s'.currentTask.toNat, c.suspend (frame esp)⟩ s'
        esps

/- The contexts of tasks that have not run yet. -/
def Scheduler.contexts
    (s : Scheduler)
    (running : Option Nat) : Contexts where
  running := running
  saved := s.savedEsp

------------------------------------------------------------
-- Two Or More Tasks
------------------------------------------------------------

/- The entries are those of the contexts, task `i` runs. -/
structure InStep
    (c : Contexts)
    (s : Scheduler)
    (i : Nat) : Prop where
  running : c.running = some i
  current : s.currentTask = (i : Int)
  bound : i < s.taskCount
  saved : ∀ j < s.taskCount, s.savedEsp j = c.saved j

section Runs

variable {c : Contexts}
variable {s : Scheduler}
variable {i : Nat}

/- One switch between different tasks. -/
theorem InStep.switch
    (hStep : InStep c s i)
    (hMany : 2 ≤ s.taskCount) :
    SwitchOk c s (taskYield s) ∧
      InStep
        ⟨some (taskYield s).currentTask.toNat,
          c.suspend (frame s.esp)⟩
        (taskYield s) ((i + 1) % s.taskCount) := by
  have hCount : 0 < s.taskCount := by omega
  have hCurrent :
      (if s.currentTask < 0 then 0 else s.currentTask) =
        (i : Int) := by
    rw [hStep.current]
    split <;> omega
  have hNext : (i + 1) % s.taskCount < s.taskCount :=
    Nat.mod_lt _ hCount
  -- The next task is another one.
  have hOther : (i + 1) % s.taskCount ≠ i := by
    have hBound := hStep.bound
    by_cases hLast : i + 1 = s.taskCount
    · rw [hLast, Nat.mod_self]
      omega
    · rw [Nat.mod_eq_of_lt (by omega)]
      omega
  have hSuspend :
      c.suspend (frame s.esp) =
        Function.update c.saved i (frame s.esp) := by
    simp only [Contexts.suspend, hStep.running]
  have hSaved :
      ∀ j < s.taskCount,
        (taskYield s).savedEsp j =
          c.suspend (frame s.esp) j := by
    intro j hj
    rw [savedEsp_taskYield hCount hCurrent hj, hSuspend,
      Function.update_apply]
    by_cases hSame : i = j
    · rw [if_pos hSame, if_pos hSame.symm]
    · rw [if_neg hSame, if_neg (Ne.symm hSame),
        hStep.saved j hj]
  have hTarget :
      (taskYield s).currentTask =
        (((i + 1) % s.taskCount : Nat) : Int) := by
    rw [taskYield_eq hCount hCurrent]
    rfl
  refine ⟨⟨?_, ?_, hSaved⟩, ⟨?_, hTarget, ?_, ?_⟩⟩
  · rw [hTarget, hStep.current, Int.natCast_emod,
      Int.natCast_add, Int.natCast_one]
  · rw [hTarget, Int.toNat_natCast, hSuspend,
      Function.update_of_ne hOther, ← hStep.saved _ hNext,
      taskYield_eq hCount hCurrent]
    rfl
  · rw [hTarget, Int.toNat_natCast]
  · rw [taskCount_taskYield]
    exact hNext
  · rw [taskCount_taskYield]
    exact hSaved

/- Every run of two or more tasks conserves the contexts. -/
theorem conserves_of_many
    (hMany : 2 ≤ s.taskCount)
    (hStep : InStep c s i)
    (esps : List UInt32) :
    Conserves c s esps := by
  induction esps generalizing c s i with
  | nil => trivial
  | cons esp esps ih =>
      have hAt : InStep c { s with esp } i :=
        ⟨hStep.running, hStep.current, hStep.bound,
          hStep.saved⟩
      have hSwitch := hAt.switch hMany
      refine ⟨hSwitch.1, ih ?_ hSwitch.2⟩
      rw [taskCount_taskYield]
      exact hMany

------------------------------------------------------------
-- One Task
------------------------------------------------------------

/- Before the start and in task 0 the yield is task 0's. -/
theorem currentTask_first
    (hCurrent : s.currentTask = 0 ∨ s.currentTask = -1) :
    (if s.currentTask < 0 then 0 else s.currentTask) =
      ((0 : Nat) : Int) := by
  split <;> omega

/- The only task switches to itself. -/
theorem taskYield_one
    (hOne : s.taskCount = 1)
    (hCurrent : s.currentTask = 0 ∨ s.currentTask = -1) :
    (taskYield s).currentTask = 0 ∧
      (taskYield s).savedEsp 0 = frame s.esp := by
  have hCount : 0 < s.taskCount := by omega
  have hFirst := currentTask_first hCurrent
  refine ⟨?_, ?_⟩
  · rw [taskYield_eq hCount hFirst, hOne]
    rfl
  · rw [savedEsp_taskYield hCount hFirst hCount, if_pos rfl]

/- Such a switch is right when it stores nothing new. -/
theorem switchOk_one_iff
    (hOne : s.taskCount = 1)
    (hCurrent : s.currentTask = 0 ∨ s.currentTask = -1)
    (hRunning : c.running = some 0 ∨ c.running = none)
    (hSaved : s.savedEsp 0 = c.saved 0) :
    SwitchOk c s (taskYield s) ↔
      frame s.esp = c.saved 0 := by
  have hCount : 0 < s.taskCount := by omega
  have hFirst := currentTask_first hCurrent
  rcases taskYield_one hOne hCurrent with ⟨hTarget, hStored⟩
  have hLoaded : (taskYield s).esp = resumed (c.saved 0) := by
    rw [taskYield_eq hCount hFirst, hOne, ← hSaved]
    rfl
  constructor
  · intro hSwitch
    rcases hRunning with hTask | hNone
    · -- The task stores its pointer and is given the old one.
      have hLoads := hSwitch.loads
      rw [hTarget, hLoaded, Contexts.suspend, hTask] at hLoads
      simp only [resumed, Int.toNat_zero,
        Function.update_self, UInt32.add_left_inj] at hLoads
      exact hLoads.symm
    · have hKept := hSwitch.saved 0 hCount
      rw [hStored, Contexts.suspend, hNone] at hKept
      exact hKept
  · intro hSame
    have hSuspend :
        c.suspend (frame s.esp) = c.saved := by
      rw [hSame, Contexts.suspend]
      rcases hRunning with hTask | hNone
      · rw [hTask]
        exact Function.update_eq_self _ _
      · rw [hNone]
    refine ⟨?_, ?_, ?_⟩
    · rw [hTarget, hOne]
      rcases hCurrent with hZero | hNone
      · rw [hZero]
        rfl
      · rw [hNone]
        rfl
    · rw [hLoaded, hTarget, hSuspend]
      rfl
    · intro j hj
      have hZero : j = 0 := by omega
      rw [hZero, hStored, hSuspend, hSame]

/-
  A run of one task conserves its context exactly when every
  pointer it stores is the one it already had.
-/
theorem conserves_one_iff
    (hOne : s.taskCount = 1)
    (hCurrent : s.currentTask = 0 ∨ s.currentTask = -1)
    (hRunning : c.running = some 0 ∨ c.running = none)
    (hSaved : s.savedEsp 0 = c.saved 0)
    (esps : List UInt32) :
    Conserves c s esps ↔
      ∀ esp ∈ esps, frame esp = c.saved 0 := by
  induction esps generalizing c s with
  | nil => simp [Conserves]
  | cons esp esps ih =>
      rw [Conserves, List.forall_mem_cons,
        switchOk_one_iff (s := { s with esp }) hOne hCurrent
          hRunning hSaved]
      refine and_congr_right fun hSame => ?_
      have hNext :=
        taskYield_one (s := { s with esp }) hOne hCurrent
      have hKept :
          c.suspend (frame esp) 0 = c.saved 0 := by
        rw [Contexts.suspend]
        rcases hRunning with hTask | hNone
        · rw [hTask]
          exact (Function.update_self _ _ _).trans hSame
        · rw [hNone]
      have hRunning' :
          some (taskYield { s with esp }).currentTask.toNat =
            some 0 := by
        rw [hNext.1]
        rfl
      have hRest :=
        ih
          (c := ⟨some (taskYield { s with esp }).currentTask.toNat,
            c.suspend (frame esp)⟩)
          (s := taskYield { s with esp })
          ((taskCount_taskYield _).trans hOne)
          (Or.inl hNext.1) (Or.inl hRunning')
          (hNext.2.trans (hSame.trans hKept.symm))
      rw [hRest]
      simp only [hKept]

/- A yield of many tasks before the start skips task 0. -/
theorem not_switchOk_unstarted
    (hMany : 2 ≤ s.taskCount)
    (hCurrent : s.currentTask = -1) :
    ¬ SwitchOk c s (taskYield s) := by
  intro hSwitch
  have hFirst := currentTask_first (Or.inr hCurrent)
  have hTarget := hSwitch.target
  rw [taskYield_eq (by omega) hFirst, hCurrent] at hTarget
  simp only [taskYieldAsm, Nat.zero_add] at hTarget
  rw [Nat.mod_eq_of_lt (by omega)] at hTarget
  simp at hTarget

end Runs

------------------------------------------------------------
-- Runs From The Registered Tasks
------------------------------------------------------------

/- The start runs task 0 and stores nothing. -/
theorem runScheduler_starts
    {s : Scheduler}
    (hSome : 0 < s.taskCount) :
    (runScheduler s).taskCount = s.taskCount ∧
      (runScheduler s).currentTask = 0 ∧
      ∀ j, (runScheduler s).savedEsp j = s.savedEsp j := by
  have hStart :
      runScheduler s =
        runSchedulerAsm { s with currentTask := 0 }
          (s.savedEsp 0) := by
    rw [runScheduler, if_neg (by omega)]
  rw [hStart]
  exact ⟨rfl, rfl, fun _ => rfl⟩

/-
  After the start a run conserves the contexts exactly when
  there are two tasks or every stored pointer is the initial
  one.  Before the start it does so only when nothing yields,
  or, for one task, again when nothing new is stored.
-/
theorem contexts_conserved_iff
    (esp : UInt32)
    (calls : List (UInt32 × Option UInt32))
    (hSome : 0 < (registered esp calls).taskCount)
    (esps : List UInt32) :
    (Conserves ((registered esp calls).contexts (some 0))
          (runScheduler (registered esp calls)) esps ↔
        2 ≤ (registered esp calls).taskCount ∨
          ∀ esp' ∈ esps,
            frame esp' =
              (registered esp calls).savedEsp 0) ∧
      (Conserves ((registered esp calls).contexts none)
          (registered esp calls) esps ↔
        esps = [] ∨
          ((registered esp calls).taskCount = 1 ∧
            ∀ esp' ∈ esps,
              frame esp' =
                (registered esp calls).savedEsp 0)) := by
  have hCurrent := registered_currentTask esp calls
  generalize registered esp calls = s at hSome hCurrent ⊢
  obtain ⟨hCount, hZero, hSaved⟩ := runScheduler_starts hSome
  by_cases hMany : 2 ≤ s.taskCount
  · refine ⟨?_, ?_⟩
    · refine iff_of_true ?_ (Or.inl hMany)
      have hStep :
          InStep (s.contexts (some 0)) (runScheduler s) 0 :=
        ⟨rfl, hZero, by rw [hCount]; exact hSome,
          fun j _ => hSaved j⟩
      exact conserves_of_many (by rw [hCount]; exact hMany)
        hStep esps
    · cases esps with
      | nil => simp [Conserves]
      | cons esp' esps =>
          refine iff_of_false ?_ ?_
          · intro hRun
            exact not_switchOk_unstarted
              (s := { s with esp := esp' }) hMany hCurrent
              hRun.1
          · rintro (hNone | hOne)
            · cases hNone
            · omega
  · have hOne : s.taskCount = 1 := by omega
    refine ⟨?_, ?_⟩
    · rw [conserves_one_iff (hCount.trans hOne) (Or.inl hZero)
        (Or.inl rfl) (hSaved 0), or_iff_right hMany]
      rfl
    · rw [conserves_one_iff hOne (Or.inr hCurrent)
        (Or.inr rfl) rfl]
      constructor
      · intro hSame
        exact Or.inr ⟨hOne, hSame⟩
      · rintro (hNone | hSame)
        · subst hNone
          simp
        · exact hSame.2

/- Two tasks and three yields after the start. -/
theorem contexts_conserved_two :
    Conserves
      ((registered 0x9000
        [(0x100, some 0x2000), (0x200, some 0x3000)]).contexts
        (some 0))
      (runScheduler
        (registered 0x9000
          [(0x100, some 0x2000), (0x200, some 0x3000)]))
      [0x2380, 0x3380, 0x2340] :=
  (contexts_conserved_iff 0x9000
    [(0x100, some 0x2000), (0x200, some 0x3000)] (by decide)
    [0x2380, 0x3380, 0x2340]).1.mpr (Or.inl (by decide))

/-
  A single task is resumed at its initial frame after its
  first yield, and with two tasks the context that yields
  before the start takes the place of task 0.
-/
theorem not_contexts_conserved :
    ¬ Conserves
        ((registered 0x9000 [(0x100, some 0x2000)]).contexts
          (some 0))
        (runScheduler
          (registered 0x9000 [(0x100, some 0x2000)]))
        [0x2380] ∧
      ¬ Conserves
        ((registered 0x9000
          [(0x100, some 0x2000),
            (0x200, some 0x3000)]).contexts none)
        (registered 0x9000
          [(0x100, some 0x2000), (0x200, some 0x3000)])
        [0x8F00] ∧
      (taskYield
        { registered 0x9000
            [(0x100, some 0x2000), (0x200, some 0x3000)] with
          esp := 0x8F00 }).savedEsp 0 ≠
        (registered 0x9000
          [(0x100, some 0x2000),
            (0x200, some 0x3000)]).savedEsp 0 := by
  refine ⟨?_, ?_, by decide⟩
  · rw [conserves_one_iff (by decide) (Or.inl (by decide))
      (Or.inl rfl) (by decide)]
    intro hAll
    exact absurd (hAll 0x2380 List.mem_cons_self) (by decide)
  · intro hRun
    exact not_switchOk_unstarted (by decide) (by decide)
      hRun.1

end Sched

end AsmOS
