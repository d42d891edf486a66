import Rocket.EventLoop

set_option autoImplicit false

namespace Rocket

open Trace

-- addTask without the wake-up is what the loop thread and the running tasks
-- call; addTask with it is the push and the write of LoopAction.
inductive TaskAction where
  | loop (action : LoopAction)
  | addTask (task : Task)
deriving DecidableEq, Repr

-- started and pushed record the tasks taken from a batch, null ones too, and
-- the tasks that entered m_pending_tasks.
structure TaskHistory where
  loop : EventLoop := {}
  started : List Task := []
  pushed : List Task := []
deriving DecidableEq, Repr

def addTask (loop : EventLoop) (task : Task) : EventLoop :=
  { loop with pendingTasks := loop.pendingTasks ++ [task] }

def startedBy (loop : EventLoop) : LoopAction → List Task
  | .runTask => if loop.phase = .running then loop.tmpTasks.take 1 else []
  | _ => []

def pushedBy (loop : EventLoop) : LoopAction → List Task
  | .push caller task => if caller ∈ loop.callers then [] else [task]
  | .queue =>
      match loop.phase with
      | .queuing ready => ready.take 1
      | _ => []
  | _ => []

def taskStep (history : TaskHistory) : TaskAction → Option TaskHistory
  | .loop action => do
      let later ← loopStep history.loop action
      some ⟨later, history.started ++ startedBy history.loop action, history.pushed ++ pushedBy history.loop action⟩
  | .addTask task => some { history with loop := addTask history.loop task, pushed := history.pushed ++ [task] }

def TasksKept (history : TaskHistory) : Prop :=
  history.started ++ history.loop.tmpTasks ++ history.loop.pendingTasks = history.pushed

-- What a step may do with the batch: only a swap fills it, a task that starts
-- is the first of it, and a task that is pushed goes behind the pending ones.
structure BatchKept (history : TaskHistory) (action : TaskAction) (later : TaskHistory) : Prop where
  batch : action ≠ .loop .swap → later.loop.tmpTasks <:+ history.loop.tmpTasks
  started : later.started = history.started ∨
    ∃ task, later.started = history.started ++ [task] ∧ history.loop.tmpTasks = task :: later.loop.tmpTasks
  pushed : later.pushed = history.pushed ∨
    ∃ task, later.pushed = history.pushed ++ [task] ∧ later.loop.tmpTasks = history.loop.tmpTasks ∧
      later.loop.pendingTasks = history.loop.pendingTasks ++ [task]

structure TaskInv (history : TaskHistory) : Prop where
  kept : TasksKept history
  batch : history.loop.tmpTasks = [] ∨ history.loop.phase = .running ∨ history.loop.phase = .draining

inductive TaskEffect (history later : TaskHistory) : Prop where
  | same (started : later.started = history.started) (pushed : later.pushed = history.pushed)
      (tmpTasks : later.loop.tmpTasks = history.loop.tmpTasks)
      (pendingTasks : later.loop.pendingTasks = history.loop.pendingTasks)
  | start (task : Task) (started : later.started = history.started ++ [task]) (pushed : later.pushed = history.pushed)
      (tmpTasks : history.loop.tmpTasks = task :: later.loop.tmpTasks)
      (pendingTasks : later.loop.pendingTasks = history.loop.pendingTasks)
  | push (task : Task) (started : later.started = history.started) (pushed : later.pushed = history.pushed ++ [task])
      (tmpTasks : later.loop.tmpTasks = history.loop.tmpTasks)
      (pendingTasks : later.loop.pendingTasks = history.loop.pendingTasks ++ [task])

theorem task_effect_kept (history later : TaskHistory) (effect : TaskEffect history later) (kept : TasksKept history) :
    TasksKept later := by
  rw [TasksKept] at kept ⊢
  cases effect with
  | same started pushed tmpTasks pendingTasks => rw [started, pushed, tmpTasks, pendingTasks, kept]
  | start task started pushed tmpTasks pendingTasks =>
      rw [started, pushed, pendingTasks, ← kept, tmpTasks, List.append_assoc history.started, List.singleton_append]
  | push task started pushed tmpTasks pendingTasks =>
      rw [started, pushed, tmpTasks, pendingTasks, ← kept, List.append_assoc _ _ [task]]

theorem task_effect_batch (history later : TaskHistory) (action : TaskAction) (effect : TaskEffect history later) :
    BatchKept history action later := by
  cases effect with
  | same started pushed tmpTasks pendingTasks => exact ⟨fun _ => tmpTasks ▸ List.suffix_rfl, Or.inl started, Or.inl pushed⟩
  | start task started pushed tmpTasks pendingTasks =>
      exact ⟨fun _ => tmpTasks ▸ List.suffix_cons task _, Or.inr ⟨task, started, tmpTasks⟩, Or.inl pushed⟩
  | push task started pushed tmpTasks pendingTasks =>
      exact ⟨fun _ => tmpTasks ▸ List.suffix_rfl, Or.inl started, Or.inr ⟨task, pushed, tmpTasks, pendingTasks⟩⟩

theorem task_inv_outside (history : TaskHistory) (inv : TaskInv history) (notRunning : history.loop.phase ≠ .running)
    (notDraining : history.loop.phase ≠ .draining) : history.loop.tmpTasks = [] := by
  rcases inv.batch with empty | running | draining
  · exact empty
  · exact absurd running notRunning
  · exact absurd draining notDraining

theorem task_step_same (history : TaskHistory) (later : EventLoop) (action : LoopAction) (inv : TaskInv history)
    (taken : loopStep history.loop action = some later) (started : startedBy history.loop action = [])
    (pushed : pushedBy history.loop action = []) (tmpTasks : later.tmpTasks = history.loop.tmpTasks)
    (pendingTasks : later.pendingTasks = history.loop.pendingTasks)
    (batch : later.tmpTasks = [] ∨ later.phase = .running ∨ later.phase = .draining) :
    ∃ next, taskStep history (.loop action) = some next ∧ TaskInv next ∧ BatchKept history (.loop action) next := by
  have effect : TaskEffect history ⟨later, history.started, history.pushed⟩ := .same rfl rfl tmpTasks pendingTasks
  refine ⟨_, ?_, ⟨task_effect_kept _ _ effect inv.kept, batch⟩, task_effect_batch _ _ _ effect⟩
  simp only [taskStep, taken, started, pushed, List.append_nil, Option.bind_eq_bind, Option.bind_some]

theorem swap_spec (history : TaskHistory) (inv : TaskInv history) :
    ∃ next, taskStep history (.loop .swap) = some next ∧ TaskInv next ∧ BatchKept history (.loop .swap) next := by
  by_cases top : history.loop.phase = .top
  · have empty := task_inv_outside history inv (by simp [top]) (by simp [top])
    have taken : loopStep history.loop .swap = some (swapTasks history.loop) := if_pos top
    by_cases stopped : history.loop.stopFlag = true
    · rw [swapTasks, if_pos stopped] at taken
      exact task_step_same history _ .swap inv taken rfl rfl rfl rfl (Or.inl empty)
    · rw [swapTasks, if_neg stopped] at taken
      refine ⟨{ history with
          loop := { history.loop with pendingTasks := [], tmpTasks := history.loop.pendingTasks, phase := .running } },
        ?_, ⟨?_, Or.inr (Or.inl rfl)⟩, fun other => absurd rfl other, Or.inl rfl, Or.inl rfl⟩
      · simp only [taskStep, taken, startedBy, pushedBy, List.append_nil, Option.bind_eq_bind, Option.bind_some]
      · have kept := inv.kept
        rw [TasksKept, empty, List.append_nil] at kept
        rw [TasksKept, List.append_nil, kept]
  · exact task_step_same history history.loop .swap inv (if_neg top) rfl rfl rfl rfl inv.batch

theorem run_task_spec (history : TaskHistory) (inv : TaskInv history) :
    ∃ next, taskStep history (.loop .runTask) = some next ∧ TaskInv next ∧ BatchKept history (.loop .runTask) next := by
  by_cases running : history.loop.phase = .running
  · have taken : loopStep history.loop .runTask = some (runTask history.loop) := if_pos running
    cases tasks : history.loop.tmpTasks with
    | nil =>
        have idle : runTask history.loop = { history.loop with phase := .waiting } := by simp only [runTask, tasks]
        exact task_step_same history _ .runTask inv (taken.trans (congrArg some idle))
          (by simp only [startedBy, if_pos running, tasks, List.take_nil]) rfl rfl rfl (Or.inl tasks)
    | cons task rest =>
        have left : (runTask history.loop).tmpTasks = rest ∧ (runTask history.loop).pendingTasks = history.loop.pendingTasks ∧
            ((runTask history.loop).phase = .running ∨ (runTask history.loop).phase = .draining) := by
          cases task with
          | null => simp only [runTask, tasks, running, true_or, and_self]
          | wakeup => simp only [runTask, tasks, or_true, and_self]
          | other number => simp only [runTask, tasks, running, true_or, and_self]
        obtain ⟨tmpTasks, pendingTasks, phase⟩ := left
        have effect : TaskEffect history ⟨runTask history.loop, history.started ++ [task], history.pushed⟩ :=
          .start task rfl rfl (tasks.trans (tmpTasks ▸ rfl)) pendingTasks
        refine ⟨_, ?_, ⟨task_effect_kept _ _ effect inv.kept, Or.inr phase⟩, task_effect_batch _ _ _ effect⟩
        simp only [taskStep, taken, startedBy, pushedBy, if_pos running, tasks, List.take_succ_cons, List.take_zero,
          List.append_nil, Option.bind_eq_bind, Option.bind_some]
  · exact task_step_same history history.loop .runTask inv (if_neg running) (if_neg running) rfl rfl rfl inv.batch

theorem push_spec (history : TaskHistory) (later : EventLoop) (action : LoopAction) (task : Task) (inv : TaskInv history)
    (taken : loopStep history.loop action = some later) (started : startedBy history.loop action = [])
    (pushed : pushedBy history.loop action = [task]) (tmpTasks : later.tmpTasks = history.loop.tmpTasks)
    (pendingTasks : later.pendingTasks = history.loop.pendingTasks ++ [task])
    (batch : later.tmpTasks = [] ∨ later.phase = .running ∨ later.phase = .draining) :
    ∃ next, taskStep history (.loop action) = some next ∧ TaskInv next ∧ BatchKept history (.loop action) next := by
  have effect : TaskEffect history ⟨later, history.started, history.pushed ++ [task]⟩ :=
    .push task rfl rfl tmpTasks pendingTasks
  refine ⟨_, ?_, ⟨task_effect_kept _ _ effect inv.kept, batch⟩, task_effect_batch _ _ _ effect⟩
  simp only [taskStep, taken, started, pushed, List.append_nil, Option.bind_eq_bind, Option.bind_some]

theorem queue_spec (history : TaskHistory) (inv : TaskInv history) :
    ∃ next, taskStep history (.loop .queue) = some next ∧ TaskInv next ∧ BatchKept history (.loop .queue) next := by
  cases phase : history.loop.phase with
  | queuing ready =>
      have empty := task_inv_outside history inv (by simp [phase]) (by simp [phase])
      have taken : loopStep history.loop .queue = some (queueHandler history.loop ready) := by simp only [loopStep, phase]
      cases ready with
      | nil =>
          exact task_step_same history _ .queue inv taken rfl (by simp only [pushedBy, phase, List.take_nil]) rfl rfl
            (Or.inl empty)
      | cons handler rest =>
          exact push_spec history _ .queue handler inv taken rfl
            (by simp only [pushedBy, phase, List.take_succ_cons, List.take_zero]) rfl rfl (Or.inl empty)
  | _ =>
      exact task_step_same history history.loop .queue inv (by simp only [loopStep, phase]) rfl
        (by simp only [pushedBy, phase]) rfl rfl inv.batch

theorem task_step_spec (history : TaskHistory) (action : TaskAction) (inv : TaskInv history) :
    ∃ later, taskStep history action = some later ∧ TaskInv later ∧ BatchKept history action later := by
  cases action with
  | addTask task =>
      have effect : TaskEffect history
          { history with loop := addTask history.loop task, pushed := history.pushed ++ [task] } :=
        .push task rfl rfl rfl rfl
      exact ⟨_, rfl, ⟨task_effect_kept _ _ effect inv.kept, inv.batch⟩, task_effect_batch _ _ _ effect⟩
  | loop action =>
      cases action with
      | swap => exact swap_spec history inv
      | runTask => exact run_task_spec history inv
      | read errnoStale =>
          by_cases draining : history.loop.phase = .draining
          · by_cases empty : history.loop.wakeupCounter = 0
            · exact task_step_same history _ _ inv (if_pos draining) rfl rfl (by rw [readWakeup, if_pos empty])
                (by rw [readWakeup, if_pos empty]) (by rw [readWakeup, if_pos empty]; exact Or.inr (Or.inl rfl))
            · refine task_step_same history _ _ inv (if_pos draining) rfl rfl (by rw [readWakeup, if_neg empty])
                (by rw [readWakeup, if_neg empty]) ?_
              rw [readWakeup, if_neg empty]
              cases errnoStale with
              | true => exact Or.inr (Or.inl rfl)
              | false => exact Or.inr (Or.inr rfl)
          · exact task_step_same history history.loop _ inv (if_neg draining) rfl rfl rfl rfl inv.batch
      | poll ready =>
          by_cases woken : history.loop.phase = .waiting ∧ (Task.wakeup ∈ ready → history.loop.wakeupCounter ≠ 0)
          · have empty := task_inv_outside history inv (by simp [woken.1]) (by simp [woken.1])
            exact task_step_same history _ _ inv (if_pos woken) rfl rfl rfl rfl (Or.inl empty)
          · exact task_step_same history history.loop _ inv (if_neg woken) rfl rfl rfl rfl inv.batch
      | queue => exact queue_spec history inv
      | push caller task =>
          by_cases busy : caller ∈ history.loop.callers
          · exact task_step_same history history.loop _ inv (if_pos busy) rfl (if_pos busy) rfl rfl inv.batch
          · exact push_spec history _ _ task inv (if_neg busy) rfl (if_neg busy) rfl rfl inv.batch
      | write caller =>
          by_cases busy : caller ∈ history.loop.callers
          · exact task_step_same history _ _ inv (if_pos busy) rfl rfl rfl rfl inv.batch
          · exact task_step_same history history.loop _ inv (if_neg busy) rfl rfl rfl rfl inv.batch
      | stop => exact task_step_same history _ _ inv rfl rfl rfl rfl rfl inv.batch
      | wakeup => exact task_step_same history _ _ inv rfl rfl rfl rfl rfl inv.batch

theorem tasks_in_order (actions : List TaskAction) :
    Always taskStep TasksKept {} actions ∧ Throughout taskStep BatchKept {} actions := by
  have initial : TaskInv {} := ⟨rfl, Or.inl rfl⟩
  exact free_sound taskStep TaskInv TasksKept BatchKept (fun _ inv => inv.kept) task_step_spec {} actions initial

end Rocket
