import AsmOS.Base.StepRuns
import AsmOS.Sched.Scheduler

/-
  No task waits for more than eight yields.

  A yield goes to the next entry of the list and around at
  its end.  Tasks can be added at any time, so the list may
  grow in front of a task that waits, but to eight entries
  only.

  Main declarations:
    * `SchedEvent`, `schedStep`
    * `Placed`, `placed_step`
    * `distance`, `Turn`
    * `everyTask_runs`
-/

------------------------------------------------------------
-- Events
------------------------------------------------------------

namespace AsmOS

namespace Sched

/-
  What happens while the tasks run: a task is added, the
  running task moves its stack pointer, or it yields.
-/
inductive SchedEvent where
| add (taskFunc : UInt32) (stack : Option UInt32)
| work (esp : UInt32)
| yield
deriving DecidableEq

def SchedEvent.isYield : SchedEvent → Bool
| .yield => true
| _ => false

def schedStep
    (s : Scheduler) : SchedEvent → Scheduler
| .add taskFunc stack => addTask s taskFunc stack
| .work esp => { s with esp := esp }
| .yield => taskYield s

/- The state when the scheduler runs, and events after it. -/
def schedRun
    (esp : UInt32)
    (calls : List (UInt32 × Option UInt32))
    (events : List SchedEvent) : Scheduler :=
  events.foldl schedStep (runScheduler (registered esp calls))

/- The number that counts as the current one. -/
def Scheduler.place
    (s : Scheduler) : Nat :=
  s.currentTask.toNat

/- Every state has a current task that is in the list. -/
structure Placed
    (s : Scheduler) : Prop where
  count : s.taskCount ≤ maxTasks
  current :
    s.currentTask = -1 ∨
      0 ≤ s.currentTask ∧ s.currentTask < s.taskCount

/- The yield resumes task `j` where it was suspended. -/
def Turn
    (j : Nat)
    (s : Scheduler)
    (event : SchedEvent) : Prop :=
  event = .yield ∧ (schedStep s event).currentTask = j ∧
    (schedStep s event).esp = resumed (s.savedEsp j)

/- The yields before the one that goes to task `j`. -/
def distance
    (j : Nat)
    (s : Scheduler) : Nat :=
  if s.place < j then j - s.place - 1
  else maxTasks - 1 - s.place + j

section Steps

variable {s : Scheduler} {j : Nat}

theorem addTask_count
    (s : Scheduler)
    (taskFunc : UInt32)
    (stack : Option UInt32) :
    (addTask s taskFunc stack).currentTask = s.currentTask ∧
      s.taskCount ≤ (addTask s taskFunc stack).taskCount ∧
      (s.taskCount ≤ maxTasks →
        (addTask s taskFunc stack).taskCount ≤ maxTasks) := by
  unfold addTask
  by_cases hRoom : s.taskCount < maxTasks
  · rw [if_pos hRoom]
    cases stack with
    | none => exact ⟨rfl, Nat.le_refl _, id⟩
    | some stack =>
        dsimp only
        unfold Scheduler.taskCount at hRoom ⊢
        rw [List.length_append, List.length_singleton]
        exact ⟨rfl, Nat.le_succ _, fun _ => hRoom⟩
  · rw [if_neg hRoom]
    exact ⟨rfl, Nat.le_refl _, id⟩

/- A yield goes one place on, or around. -/
theorem Placed.yield
    (hPlaced : Placed s)
    (hSome : 0 < s.taskCount) :
    (taskYield s).currentTask =
        ((s.place + 1) % s.taskCount : Nat) ∧
      (taskYield s).esp =
        resumed
          (s.savedEsp ((s.place + 1) % s.taskCount)) := by
  have hCurrent :
      (if s.currentTask < 0 then 0 else s.currentTask) =
        (s.place : Int) := by
    unfold Scheduler.place
    rcases hPlaced.current with hNone | hHere
    · rw [hNone]
      rfl
    · rw [if_neg (by omega), Int.toNat_of_nonneg hHere.1]
  rw [taskYield_eq hSome hCurrent]
  exact ⟨rfl, rfl⟩

theorem Placed.place_lt
    (hPlaced : Placed s)
    (hSome : 0 < s.taskCount) :
    s.place < s.taskCount := by
  unfold Scheduler.place
  rcases hPlaced.current with hNone | hHere
  · rw [hNone]
    exact hSome
  · omega

theorem placed_step
    (hPlaced : Placed s)
    (event : SchedEvent) :
    Placed (schedStep s event) := by
  cases event with
  | add taskFunc stack =>
      have hAdd := addTask_count s taskFunc stack
      refine ⟨hAdd.2.2 hPlaced.count, ?_⟩
      change (addTask s taskFunc stack).currentTask = -1 ∨ _
      rcases hPlaced.current with hNone | hHere
      · exact .inl (hAdd.1.trans hNone)
      · refine .inr ?_
        change
          0 ≤ (addTask s taskFunc stack).currentTask ∧
            (addTask s taskFunc stack).currentTask <
              (addTask s taskFunc stack).taskCount
        have hMore := hAdd.2.1
        rw [hAdd.1]
        omega
  | work esp => exact ⟨hPlaced.count, hPlaced.current⟩
  | yield =>
      by_cases hSome : 0 < s.taskCount
      · have hCount := taskCount_taskYield s
        have hNext := hPlaced.yield hSome
        have hMod := Nat.mod_lt (s.place + 1) hSome
        refine ⟨hCount ▸ hPlaced.count, .inr ?_⟩
        change
          0 ≤ (taskYield s).currentTask ∧
            (taskYield s).currentTask < (taskYield s).taskCount
        rw [hNext.1, hCount]
        omega
      · have hNone : schedStep s .yield = s :=
          if_pos (Nat.eq_zero_of_not_pos hSome)
        rw [hNone]
        exact hPlaced

theorem taskCount_le_step
    (s : Scheduler)
    (event : SchedEvent) :
    s.taskCount ≤ (schedStep s event).taskCount := by
  cases event with
  | add taskFunc stack =>
      exact (addTask_count s taskFunc stack).2.1
  | work esp => exact Nat.le_refl _
  | yield => exact Nat.le_of_eq (taskCount_taskYield s).symm

/- A yield that is not the turn of the task comes nearer. -/
theorem distance_step
    (hPlaced : Placed s)
    (hTask : j < s.taskCount)
    (event : SchedEvent)
    (hWaits : ¬ Turn j s event) :
    distance j (schedStep s event) +
        (if event.isYield then 1 else 0) ≤
      distance j s := by
  cases event with
  | add taskFunc stack =>
      have hSame :
          (schedStep s (.add taskFunc stack)).place = s.place :=
        congrArg Int.toNat (addTask_count s taskFunc stack).1
      unfold distance
      rw [hSame]
      exact Nat.le_refl _
  | work esp => exact Nat.le_refl _
  | yield =>
      have hSome : 0 < s.taskCount := by omega
      have hNext := hPlaced.yield hSome
      have hHere := hPlaced.place_lt hSome
      have hCount := hPlaced.count
      have hPlace :
          (schedStep s .yield).place =
            (s.place + 1) % s.taskCount := by
        unfold Scheduler.place
        exact (congrArg Int.toNat hNext.1).trans
          (Int.toNat_natCast _)
      have hNot : (s.place + 1) % s.taskCount ≠ j := by
        intro hTurn
        rw [hTurn] at hNext
        exact hWaits ⟨rfl, hNext⟩
      unfold distance
      rw [hPlace]
      change _ + 1 ≤ _
      by_cases hLast : s.place + 1 = s.taskCount
      · rw [hLast, Nat.mod_self] at hNot ⊢
        split_ifs <;> omega
      · rw [Nat.mod_eq_of_lt (by omega)] at hNot ⊢
        split_ifs <;> omega

end Steps

------------------------------------------------------------
-- Runs
------------------------------------------------------------

theorem placed_start
    (esp : UInt32)
    (calls : List (UInt32 × Option UInt32)) :
    Placed (runScheduler (registered esp calls)) := by
  have hCount := registered_taskCount_le esp calls
  unfold runScheduler
  split
  · exact ⟨hCount, .inl (registered_currentTask esp calls)⟩
  · refine ⟨hCount, .inr ⟨Int.le_refl 0, ?_⟩⟩
    exact Int.natCast_pos.mpr (Nat.pos_of_ne_zero ‹_›)

theorem placed_run
    (esp : UInt32)
    (calls : List (UInt32 × Option UInt32))
    (events : List SchedEvent) :
    Placed (schedRun esp calls events) := by
  unfold schedRun
  generalize hStart :
    runScheduler (registered esp calls) = start
  have hPlaced : Placed start :=
    hStart ▸ placed_start esp calls
  clear hStart
  induction events generalizing start with
  | nil => exact hPlaced
  | cons event events ih =>
      exact ih _ (placed_step hPlaced event)

/-
  In every run of the scheduler, whatever tasks are added on
  the way, each task that is in the list is resumed, from the
  stack pointer that was saved for it, before the ninth yield
  from there.
-/
theorem everyTask_runs
    (esp : UInt32)
    (calls : List (UInt32 × Option UInt32))
    (before events : List SchedEvent)
    {j : Nat}
    (hTask : j < (schedRun esp calls before).taskCount)
    (hYields : maxTasks ≤ events.countP SchedEvent.isYield) :
    StepRuns.Hits schedStep (Turn j) (schedRun esp calls before)
      events := by
  have hKeeps :
      ∀ s event, Placed s ∧ j < s.taskCount →
        Placed (schedStep s event) ∧
          j < (schedStep s event).taskCount :=
    fun s event hOk =>
      ⟨placed_step hOk.1 event,
        Nat.lt_of_lt_of_le hOk.2 (taskCount_le_step s event)⟩
  have hPlaced := placed_run esp calls before
  have hStart :
      distance j (schedRun esp calls before) <
        events.countP SchedEvent.isYield := by
    have hHere := hPlaced.place_lt (by omega)
    have hCount := hPlaced.count
    unfold distance
    split_ifs <;> omega
  exact
    StepRuns.hits_of_measure hKeeps
      (fun s event hOk hWaits =>
        distance_step hOk.1 hOk.2 event hWaits)
      ⟨hPlaced, hTask⟩ hStart

/- Two tasks, and a third one that is added later. -/
theorem everyTask_runs_added :
    StepRuns.Hits schedStep (Turn 1)
      (schedRun 0x9000
        [(0x1000, some 0x4000), (0x2000, some 0x5000)] [])
      (.add 0x3000 (some 0x6000) ::
        List.replicate 8 .yield) :=
  everyTask_runs 0x9000
    [(0x1000, some 0x4000), (0x2000, some 0x5000)] []
    (.add 0x3000 (some 0x6000) :: List.replicate 8 .yield)
    (by decide) (by decide)

end Sched

end AsmOS
