import Mathlib.Data.List.Induction
import Mathlib.Tactic.Common

/-
  The cooperative scheduler (`src/scheduler.c`) and its
  context switch (`boot/arch_x86/context.asm`).

  A suspended context is the stack pointer under its saved
  registers.  A switch stores the pointer of the running
  context through an address and loads another one.

  Main declarations:
    * `Task`, `Scheduler`, `addTask`
    * `taskYieldAsm`, `taskYield`, `runScheduler`
    * `taskYield_eq`
    * `registered`
-/

------------------------------------------------------------
-- State
------------------------------------------------------------

namespace AsmOS

namespace Sched

abbrev maxTasks : Nat := 8

/- An entry of `task_list`. -/
structure Task where
  func : UInt32
  esp : UInt32
deriving DecidableEq, Repr

/-
  The first `task_count` entries of `task_list`,
  `current_task` and the stack pointer of the processor.
-/
structure Scheduler where
  taskList : List Task
  currentTask : Int
  esp : UInt32

/- The scheduler before any call. -/
def Scheduler.boot
    (esp : UInt32) : Scheduler where
  taskList := []
  currentTask := -1
  esp := esp

/- `task_count`. -/
def Scheduler.taskCount
    (s : Scheduler) : Nat :=
  s.taskList.length

/- `task_list[i].esp`. -/
def Scheduler.savedEsp
    (s : Scheduler)
    (i : Nat) : UInt32 :=
  match s.taskList[i]? with
  | none => 0
  | some task => task.esp

/-
  `add_task`.  `stack` is what the allocation of the stack
  returns; the initial frame has eight registers and the
  address of the task.
-/
def addTask
    (s : Scheduler)
    (taskFunc : UInt32)
    (stack : Option UInt32) : Scheduler :=
  if s.taskCount < maxTasks then
    match stack with
    | none => s
    | some stack =>
        { s with
          taskList :=
            s.taskList ++ [⟨taskFunc, stack + 1024 - 36⟩] }
  else
    s

------------------------------------------------------------
-- Switching
------------------------------------------------------------

/- The pointer that `pusha` leaves for a stack pointer. -/
def frame
    (esp : UInt32) : UInt32 :=
  esp - 32

/- The pointer after `popa` and `ret`. -/
def resumed
    (esp : UInt32) : UInt32 :=
  esp + 32 + 4

/- `task_yield_asm`, storing to the entry `saveEsp`. -/
def taskYieldAsm
    (s : Scheduler)
    (saveEsp : Nat)
    (loadEsp : UInt32) : Scheduler :=
  { s with
    taskList :=
      s.taskList.modify saveEsp fun task =>
        { task with esp := frame s.esp }
    esp := resumed loadEsp }

/- `run_scheduler_asm`. -/
def runSchedulerAsm
    (s : Scheduler)
    (loadEsp : UInt32) : Scheduler :=
  { s with esp := resumed loadEsp }

/- `task_yield`. -/
def taskYield
    (s : Scheduler) : Scheduler :=
  if s.taskCount = 0 then
    s
  else
    let current :=
      if s.currentTask < 0 then 0 else s.currentTask
    let next := (current + 1) % s.taskCount
    -- Read before the store below.
    let loadEsp := s.savedEsp next.toNat
    taskYieldAsm { s with currentTask := next } current.toNat
      loadEsp

/-
  `run_scheduler` up to its switch.  No pointer to its own
  context is stored, so its loop is never reached.
-/
def runScheduler
    (s : Scheduler) : Scheduler :=
  if s.taskCount = 0 then
    s
  else
    runSchedulerAsm { s with currentTask := 0 } (s.savedEsp 0)

/- The scheduler after calls of `add_task`. -/
def registered
    (esp : UInt32)
    (calls : List (UInt32 × Option UInt32)) : Scheduler :=
  calls.foldl (fun s call => addTask s call.1 call.2)
    (.boot esp)

------------------------------------------------------------
-- What A Switch Does
------------------------------------------------------------

section Switch

variable {s : Scheduler}
variable {i j : Nat}

/- A store through the address of one entry. -/
theorem savedEsp_taskYieldAsm
    (loadEsp : UInt32)
    (hj : j < s.taskCount) :
    (taskYieldAsm s i loadEsp).savedEsp j =
      if i = j then frame s.esp else s.savedEsp j := by
  have hGet : s.taskList[j]? = some s.taskList[j] :=
    List.getElem?_eq_getElem hj
  simp only [Scheduler.savedEsp, taskYieldAsm,
    List.getElem?_modify, hGet]
  by_cases hSame : i = j
  · simp [hSame]
  · simp [hSame]

/- The entries of the task list only change their pointers. -/
theorem taskCount_taskYieldAsm
    (loadEsp : UInt32) :
    (taskYieldAsm s i loadEsp).taskCount = s.taskCount :=
  List.length_modify _ _ _

/- A yield while task `i` counts as the current one. -/
theorem taskYield_eq
    (hCount : 0 < s.taskCount)
    (hCurrent :
      (if s.currentTask < 0 then 0 else s.currentTask) =
        (i : Int)) :
    taskYield s =
      taskYieldAsm
        { s with
          currentTask := ((i + 1) % s.taskCount : Nat) }
        i (s.savedEsp ((i + 1) % s.taskCount)) := by
  have hSome : ¬ s.taskCount = 0 := by omega
  have hNext :
      ((i : Int) + 1) % (s.taskCount : Int) =
        (((i + 1) % s.taskCount : Nat) : Int) := by
    rw [Int.natCast_emod, Int.natCast_add, Int.natCast_one]
  rw [taskYield, if_neg hSome]
  simp only [hCurrent, hNext, Int.toNat_natCast]

theorem taskCount_taskYield
    (s : Scheduler) :
    (taskYield s).taskCount = s.taskCount := by
  unfold taskYield
  split
  · rfl
  · exact taskCount_taskYieldAsm _

/- What a yield leaves in the entries. -/
theorem savedEsp_taskYield
    (hCount : 0 < s.taskCount)
    (hCurrent :
      (if s.currentTask < 0 then 0 else s.currentTask) =
        (i : Int))
    (hj : j < s.taskCount) :
    (taskYield s).savedEsp j =
      if i = j then frame s.esp else s.savedEsp j := by
  rw [taskYield_eq hCount hCurrent]
  exact savedEsp_taskYieldAsm _ hj

end Switch

section Registration

variable (esp : UInt32)
variable (calls : List (UInt32 × Option UInt32))

theorem registered_concat
    (call : UInt32 × Option UInt32) :
    registered esp (calls ++ [call]) =
      addTask (registered esp calls) call.1 call.2 := by
  simp [registered]

/- Registering tasks leaves no task current. -/
theorem registered_currentTask :
    (registered esp calls).currentTask = -1 := by
  induction calls using List.reverseRecOn with
  | nil => rfl
  | append_singleton calls call ih =>
      rw [registered_concat]
      unfold addTask
      split
      · split
        · exact ih
        · exact ih
      · exact ih

/- At most eight tasks are registered. -/
theorem registered_taskCount_le :
    (registered esp calls).taskCount ≤ maxTasks := by
  induction calls using List.reverseRecOn with
  | nil => exact Nat.zero_le _
  | append_singleton calls call ih =>
      rw [registered_concat]
      unfold addTask
      split
      · rename_i hRoom
        split
        · exact ih
        · simp only [Scheduler.taskCount, List.length_append,
            List.length_singleton] at hRoom ⊢
          exact hRoom
      · exact ih

end Registration

end Sched

end AsmOS
