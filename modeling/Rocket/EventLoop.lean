import Mathlib.Algebra.Group.Nat.Defs
import Rocket.Lib.Trace

set_option autoImplicit false

namespace Rocket

open Trace

-- A queued std::function; wakeup is the read callback of the eventfd.
inductive Task where
  | null
  | wakeup
  | other (number : Nat)
deriving DecidableEq, Repr

-- Where the loop thread is in loop().
inductive LoopPhase where
  | top
  | running
  | draining
  | waiting
  | queuing (ready : List Task)
  | ended
deriving DecidableEq, Repr

-- callers are the threads between the push and the write of addTask(cb, true).
structure EventLoop where
  pendingTasks : List Task := []
  tmpTasks : List Task := []
  wakeupCounter : Nat := 0
  stopFlag : Bool := false
  phase : LoopPhase := .top
  callers : List Nat := []
deriving DecidableEq, Repr

-- wakeup writes the bytes 'a', 0, 0, ... to the non-blocking eventfd.
def writeWakeup (counter : Nat) : Nat := if counter + 97 ≤ 2 ^ 64 - 2 then counter + 97 else counter

inductive LoopAction where
  | swap
  | runTask
  | read (errnoStale : Bool)
  | poll (ready : List Task)
  | queue
  | push (caller : Nat) (task : Task)
  | write (caller : Nat)
  | stop
  | wakeup
deriving DecidableEq, Repr

def swapTasks (loop : EventLoop) : EventLoop :=
  if loop.stopFlag = true then { loop with phase := .ended }
  else { loop with pendingTasks := [], tmpTasks := loop.pendingTasks, phase := .running }

def runTask (loop : EventLoop) : EventLoop :=
  match loop.tmpTasks with
  | [] => { loop with phase := .waiting }
  | .wakeup :: rest => { loop with tmpTasks := rest, phase := .draining }
  | _ :: rest => { loop with tmpTasks := rest }

-- One read of the eventfd. The loop also ends after a successful read when
-- errno still holds EAGAIN from an earlier one.
def readWakeup (loop : EventLoop) (errnoStale : Bool) : EventLoop :=
  if loop.wakeupCounter = 0 then { loop with phase := .running }
  else { loop with wakeupCounter := 0, phase := if errnoStale = true then .running else .draining }

def queueHandler (loop : EventLoop) : List Task → EventLoop
  | [] => { loop with phase := .top }
  | handler :: rest => { loop with pendingTasks := loop.pendingTasks ++ [handler], phase := .queuing rest }

def pushTask (loop : EventLoop) (caller : Nat) (task : Task) : EventLoop :=
  { loop with pendingTasks := loop.pendingTasks ++ [task], callers := caller :: loop.callers }

def writeEventFd (loop : EventLoop) (caller : Nat) : EventLoop :=
  { loop with wakeupCounter := writeWakeup loop.wakeupCounter, callers := loop.callers.erase caller }

-- An action that does not fit the phase of its thread leaves the state alone.
def loopStep (loop : EventLoop) : LoopAction → Option EventLoop
  | .swap => if loop.phase = .top then some (swapTasks loop) else some loop
  | .runTask => if loop.phase = .running then some (runTask loop) else some loop
  | .read errnoStale => if loop.phase = .draining then some (readWakeup loop errnoStale) else some loop
  | .poll ready =>
      if loop.phase = .waiting ∧ (Task.wakeup ∈ ready → loop.wakeupCounter ≠ 0) then
        some { loop with phase := .queuing ready }
      else some loop
  | .queue =>
      match loop.phase with
      | .queuing ready => some (queueHandler loop ready)
      | _ => some loop
  | .push caller task => if caller ∈ loop.callers then some loop else some (pushTask loop caller task)
  | .write caller => if caller ∈ loop.callers then some (writeEventFd loop caller) else some loop
  | .stop => some { loop with stopFlag := true }
  | .wakeup => some { loop with wakeupCounter := writeWakeup loop.wakeupCounter }

def NoLostWakeup (loop : EventLoop) : Prop :=
  loop.phase = .waiting → loop.callers = [] → loop.pendingTasks = [] ∨ loop.wakeupCounter ≠ 0

-- No read empties the eventfd while a task is pending, unless a caller that
-- has pushed still has its write to do.
def WakeupGuard (loop : EventLoop) : LoopAction → Prop
  | .read _ =>
      loop.phase = .draining → loop.wakeupCounter ≠ 0 → loop.pendingTasks = [] ∨ loop.callers ≠ []
  | _ => True

instance (loop : EventLoop) (action : LoopAction) : Decidable (WakeupGuard loop action) := by
  unfold WakeupGuard
  split <;> infer_instance

inductive AfterSwap : LoopPhase → Prop where
  | running : AfterSwap .running
  | draining : AfterSwap .draining
  | waiting : AfterSwap .waiting

def WakeupInv (loop : EventLoop) : Prop :=
  AfterSwap loop.phase → loop.pendingTasks = [] ∨ loop.wakeupCounter ≠ 0 ∨ loop.callers ≠ []

theorem wakeup_inv_no_lost (loop : EventLoop) (inv : WakeupInv loop) : NoLostWakeup loop := by
  intro waiting none
  rcases inv (waiting ▸ .waiting) with empty | awake | calling
  · exact Or.inl empty
  · exact Or.inr awake
  · exact absurd none calling

theorem write_wakeup_positive (counter : Nat) : writeWakeup counter ≠ 0 := by
  rw [writeWakeup]
  split <;> omega

theorem swap_tasks_keeps (loop : EventLoop) : WakeupInv (swapTasks loop) := by
  by_cases stopped : loop.stopFlag = true
  · intro after
    rw [swapTasks, if_pos stopped] at after
    cases after
  · rw [swapTasks, if_neg stopped]
    intro _
    exact Or.inl rfl

theorem run_task_keeps (loop : EventLoop) (inv : WakeupInv loop) (running : loop.phase = .running) :
    WakeupInv (runTask loop) := by
  have now := inv (running ▸ .running)
  intro _
  cases tasks : loop.tmpTasks with
  | nil => simpa only [runTask, tasks] using now
  | cons task rest =>
      cases task with
      | null => simpa only [runTask, tasks] using now
      | wakeup => simpa only [runTask, tasks] using now
      | other number => simpa only [runTask, tasks] using now

theorem read_wakeup_keeps (loop : EventLoop) (errnoStale : Bool) (inv : WakeupInv loop) (draining : loop.phase = .draining)
    (guard : loop.wakeupCounter ≠ 0 → loop.pendingTasks = [] ∨ loop.callers ≠ []) :
    WakeupInv (readWakeup loop errnoStale) := by
  intro _
  by_cases empty : loop.wakeupCounter = 0
  · have now := inv (draining ▸ .draining)
    simpa only [readWakeup, if_pos empty] using now
  · rw [readWakeup, if_neg empty]
    rcases guard empty with nothing | calling
    · exact Or.inl nothing
    · exact Or.inr (Or.inr calling)

theorem queue_handler_keeps (loop : EventLoop) (ready : List Task) : WakeupInv (queueHandler loop ready) := by
  intro after
  cases ready with
  | nil => cases after
  | cons handler rest => cases after

theorem loop_step_keeps (loop : EventLoop) (action : LoopAction) (inv : WakeupInv loop) (guard : WakeupGuard loop action) :
    ∃ later, loopStep loop action = some later ∧ WakeupInv later := by
  cases action with
  | swap =>
      by_cases top : loop.phase = .top
      · exact ⟨swapTasks loop, if_pos top, swap_tasks_keeps loop⟩
      · exact ⟨loop, if_neg top, inv⟩
  | runTask =>
      by_cases running : loop.phase = .running
      · exact ⟨runTask loop, if_pos running, run_task_keeps loop inv running⟩
      · exact ⟨loop, if_neg running, inv⟩
  | read errnoStale =>
      by_cases draining : loop.phase = .draining
      · exact ⟨readWakeup loop errnoStale, if_pos draining,
          read_wakeup_keeps loop errnoStale inv draining (guard draining)⟩
      · exact ⟨loop, if_neg draining, inv⟩
  | poll ready =>
      by_cases woken : loop.phase = .waiting ∧ (Task.wakeup ∈ ready → loop.wakeupCounter ≠ 0)
      · exact ⟨{ loop with phase := .queuing ready }, if_pos woken, by intro after; cases after⟩
      · exact ⟨loop, if_neg woken, inv⟩
  | queue =>
      cases phase : loop.phase with
      | queuing ready => exact ⟨queueHandler loop ready, by simp only [loopStep, phase], queue_handler_keeps loop ready⟩
      | top => exact ⟨loop, by simp only [loopStep, phase], inv⟩
      | running => exact ⟨loop, by simp only [loopStep, phase], inv⟩
      | draining => exact ⟨loop, by simp only [loopStep, phase], inv⟩
      | waiting => exact ⟨loop, by simp only [loopStep, phase], inv⟩
      | ended => exact ⟨loop, by simp only [loopStep, phase], inv⟩
  | push caller task =>
      by_cases busy : caller ∈ loop.callers
      · exact ⟨loop, if_pos busy, inv⟩
      · exact ⟨pushTask loop caller task, if_neg busy, fun _ => Or.inr (Or.inr (List.cons_ne_nil _ _))⟩
  | write caller =>
      by_cases busy : caller ∈ loop.callers
      · exact ⟨writeEventFd loop caller, if_pos busy, fun _ => Or.inr (Or.inl (write_wakeup_positive _))⟩
      · exact ⟨loop, if_neg busy, inv⟩
  | stop => exact ⟨_, rfl, inv⟩
  | wakeup => exact ⟨_, rfl, fun _ => Or.inr (Or.inl (write_wakeup_positive _))⟩

theorem no_lost_wakeup (loop : EventLoop) (actions : List LoopAction) (top : loop.phase = .top)
    (guarded : Guarded loopStep WakeupGuard loop actions) : Always loopStep NoLostWakeup loop actions := by
  refine always_mono loopStep _ _ wakeup_inv_no_lost loop actions
    (guarded_always loopStep WakeupGuard WakeupInv loop_step_keeps loop actions ?_ guarded)
  intro after
  rw [top] at after
  cases after

def servedCall : List LoopAction :=
  [.swap, .runTask, .push 1 (.other 1), .write 1, .poll [.wakeup], .queue, .queue, .swap, .runTask, .runTask, .read false,
    .read false, .runTask]

theorem served_call_not_lost : Always loopStep NoLostWakeup {} servedCall :=
  no_lost_wakeup {} servedCall rfl (by decide)

-- The wake-up of a second call, between the swap and the drain, is read away.
def overtakenCall : List LoopAction :=
  [.swap, .runTask, .push 1 (.other 1), .write 1, .poll [.wakeup], .queue, .queue, .swap, .push 2 (.other 2), .write 2,
    .runTask, .runTask, .read false, .read false, .runTask]

theorem overtaken_call_waits :
    run loopStep {} overtakenCall = some { pendingTasks := [.other 2], phase := .waiting } := by
  decide

theorem overtaken_call_lost : ¬ Always loopStep NoLostWakeup {} overtakenCall := by
  intro always
  obtain ⟨last, reached, kept⟩ := always_run _ _ _ _ always
  cases overtaken_call_waits.symm.trans reached
  exact absurd (kept rfl rfl) (by decide)

end Rocket
