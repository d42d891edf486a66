import Rocket.RpcChannel
import Rocket.Lib.Trace

set_option autoImplicit false

namespace Rocket

open Trace

-- Where an activation of loop() is: at the while condition, in the loop over
-- the swapped tasks, or in a call of one of them.
inductive ActivationPhase where
  | testing
  | executing
  | inTask
deriving DecidableEq, Repr

-- byConnect marks the activation that connect enters, stopped that stop() was
-- called since it was entered. Neither is read by the code.
structure Activation where
  tmpTasks : List Nat := []
  phase : ActivationPhase := .testing
  byConnect : Bool := false
  stopped : Bool := false
deriving DecidableEq, Repr

-- The EventLoop of one thread with its activations, the innermost first.
structure LoopThread where
  isLooping : Bool := false
  stopFlag : Bool := false
  pendingTasks : List Nat := []
  activations : List Activation := []
deriving DecidableEq, Repr

def enterLoop (thread : LoopThread) (byConnect : Bool) : LoopThread :=
  { thread with isLooping := true, activations := { byConnect := byConnect } :: thread.activations }

def stopLoop (thread : LoopThread) : LoopThread :=
  { thread with
    stopFlag := true
    activations := thread.activations.map fun activation => { activation with stopped := true } }

-- A connect in progress waits for its socket in a loop() of its own.
def connectClient (thread : LoopThread) : ConnectResult → LoopThread
  | .inProgress => if thread.isLooping = false then enterLoop thread true else thread
  | .success => thread
  | .failed _ => thread

def testCondition (thread : LoopThread) (activation : Activation) (rest : List Activation) : LoopThread :=
  if thread.stopFlag = true then { thread with activations := rest }
  else
    { thread with
      pendingTasks := []
      activations := { activation with tmpTasks := thread.pendingTasks, phase := .executing } :: rest }

inductive ThreadAction where
  | loop
  | stop
  | clientStop
  | addTask (task : Nat)
  | connect (result : ConnectResult)
  | test
  | startTask
  | endTask
  | poll (ready : List Nat)
deriving DecidableEq, Repr

-- The thread executes a task, or no activation at all.
def calls (thread : LoopThread) : Prop := ∀ activation ∈ thread.activations.head?, activation.phase = .inTask

instance (thread : LoopThread) : Decidable (calls thread) :=
  inferInstanceAs (Decidable (∀ activation ∈ thread.activations.head?, activation.phase = .inTask))

def inTask (thread : LoopThread) : Prop := thread.activations ≠ [] ∧ calls thread

instance (thread : LoopThread) : Decidable (inTask thread) :=
  inferInstanceAs (Decidable (thread.activations ≠ [] ∧ calls thread))

def threadStep (thread : LoopThread) : ThreadAction → Option LoopThread
  | .loop => if calls thread then some (enterLoop thread false) else some thread
  | .stop => if inTask thread then some (stopLoop thread) else some thread
  | .clientStop => if inTask thread ∧ thread.isLooping = true then some (stopLoop thread) else some thread
  | .addTask task =>
      if calls thread then some { thread with pendingTasks := thread.pendingTasks ++ [task] } else some thread
  | .connect result => if calls thread then some (connectClient thread result) else some thread
  | .test =>
      match thread.activations with
      | ⟨tmpTasks, .testing, byConnect, stopped⟩ :: rest =>
          some (testCondition thread ⟨tmpTasks, .testing, byConnect, stopped⟩ rest)
      | _ => some thread
  | .startTask =>
      match thread.activations with
      | ⟨_ :: tmpTasks, .executing, byConnect, stopped⟩ :: rest =>
          some { thread with activations := ⟨tmpTasks, .inTask, byConnect, stopped⟩ :: rest }
      | _ => some thread
  | .endTask =>
      match thread.activations with
      | ⟨tmpTasks, .inTask, byConnect, stopped⟩ :: rest =>
          some { thread with activations := ⟨tmpTasks, .executing, byConnect, stopped⟩ :: rest }
      | _ => some thread
  | .poll ready =>
      match thread.activations with
      | ⟨[], .executing, byConnect, stopped⟩ :: rest =>
          some { thread with
            pendingTasks := thread.pendingTasks ++ ready
            activations := ⟨[], .testing, byConnect, stopped⟩ :: rest }
      | _ => some thread

-- The loop of a connect goes through its condition until stop() is called, and
-- takes all pending tasks each time.
structure DrivenAgain (thread : LoopThread) (action : ThreadAction) (later : LoopThread) : Prop where
  looping : later.isLooping = true ↔ later.activations ≠ []
  enters : action = .connect .inProgress → thread.activations = [] → later.activations = [{ byConnect := true }]
  goesOn : ∀ tmpTasks rest, action = .test → thread.activations = ⟨tmpTasks, .testing, true, false⟩ :: rest →
    later.activations = ⟨thread.pendingTasks, .executing, true, false⟩ :: rest ∧ later.pendingTasks = []

-- No outermost loop() comes to its condition after a stop(), which would end it.
def NeverReturns (thread : LoopThread) : ThreadAction → Prop
  | .test => ∀ activation, thread.activations = [activation] → activation.phase = .testing → thread.stopFlag = false
  | _ => True

structure ThreadInv (thread : LoopThread) : Prop where
  looping : thread.isLooping = true ↔ thread.activations ≠ []
  running : thread.activations = [] → thread.stopFlag = false
  byConnect : ∀ activation ∈ thread.activations, activation.byConnect = true → thread.stopFlag = true →
    activation.stopped = true

theorem enter_loop_inv (thread : LoopThread) (byConnect : Bool) (inv : ThreadInv thread)
    (outermost : byConnect = true → thread.activations = []) : ThreadInv (enterLoop thread byConnect) := by
  constructor
  · simp [enterLoop]
  · intro none
    cases none
  · intro activation member connected stopFlag
    rcases List.mem_cons.mp member with rfl | before
    · have running := inv.running (outermost connected)
      cases running.symm.trans stopFlag
    · exact inv.byConnect activation before connected stopFlag

theorem stop_loop_inv (thread : LoopThread) (inv : ThreadInv thread) (looping : thread.activations ≠ []) :
    ThreadInv (stopLoop thread) := by
  constructor
  · simpa only [stopLoop, ne_eq, List.map_eq_nil_iff] using inv.looping
  · intro none
    exact absurd (List.map_eq_nil_iff.mp none) looping
  · intro activation member _ _
    obtain ⟨_, _, rfl⟩ := List.mem_map.mp member
    rfl

theorem replace_head_inv (thread : LoopThread) (pendingTasks tmpTasks : List Nat) (phase : ActivationPhase)
    (head : Activation) (rest : List Activation) (inv : ThreadInv thread) (innermost : thread.activations = head :: rest) :
    ThreadInv { thread with
      pendingTasks := pendingTasks
      activations := ⟨tmpTasks, phase, head.byConnect, head.stopped⟩ :: rest } := by
  constructor
  · have looping := inv.looping.mpr (by simp [innermost])
    simpa using looping
  · intro none
    cases none
  · intro activation member connected stopFlag
    rcases List.mem_cons.mp member with rfl | before
    · exact inv.byConnect head (by simp [innermost]) connected stopFlag
    · exact inv.byConnect activation (by simp [innermost, before]) connected stopFlag

theorem leave_inner_inv (thread : LoopThread) (head : Activation) (rest : List Activation) (inv : ThreadInv thread)
    (innermost : thread.activations = head :: rest) (nested : rest ≠ []) :
    ThreadInv { thread with activations := rest } := by
  constructor
  · have looping := inv.looping.mpr (by simp [innermost])
    simpa [looping] using nested
  · intro none
    exact absurd none nested
  · intro activation member
    exact inv.byConnect activation (by simp [innermost, member])

-- DrivenAgain says nothing about an action beyond the flag, except for these two.
def Unwatched : ThreadAction → Prop
  | .connect .inProgress => False
  | .test => False
  | _ => True

theorem driven_other (thread later : LoopThread) (action : ThreadAction) (inv : ThreadInv later)
    (unwatched : Unwatched action) : DrivenAgain thread action later := by
  constructor
  · exact inv.looping
  · rintro rfl
    exact unwatched.elim
  · rintro _ _ rfl
    exact unwatched.elim

def Decided (thread : LoopThread) (action : ThreadAction) : Prop :=
  ∃ later, threadStep thread action = some later ∧
    (NeverReturns thread action → ThreadInv later ∧ DrivenAgain thread action later) ∧
    (DrivenAgain thread action later → NeverReturns thread action)

theorem decided_free (thread later : LoopThread) (action : ThreadAction) (inv : ThreadInv later)
    (taken : threadStep thread action = some later) (unwatched : Unwatched action) : Decided thread action := by
  refine ⟨later, taken, fun _ => ⟨inv, driven_other thread later action inv unwatched⟩, fun _ => ?_⟩
  cases action with
  | test => exact unwatched.elim
  | _ => trivial

theorem connect_decided (thread : LoopThread) (result : ConnectResult) (inv : ThreadInv thread) :
    Decided thread (.connect result) := by
  by_cases calling : calls thread
  · cases result with
    | success => exact decided_free thread thread _ inv (if_pos calling) trivial
    | failed sysError =>
        exact decided_free thread thread _ inv (if_pos calling) trivial
    | inProgress =>
        refine ⟨_, if_pos calling, fun _ => ?_, fun _ => trivial⟩
        by_cases outermost : thread.activations = []
        · have idle : thread.isLooping = false := by
            cases looping : thread.isLooping with
            | false => rfl
            | true => exact absurd outermost (inv.looping.mp looping)
          have entered := enter_loop_inv thread true inv (fun _ => outermost)
          rw [connectClient, if_pos idle]
          refine ⟨entered, entered.looping, fun _ _ => ?_, fun _ _ wrong => nomatch wrong⟩
          rw [enterLoop, outermost]
        · have looping := inv.looping.mpr outermost
          rw [connectClient, if_neg (by simp [looping])]
          exact ⟨inv, inv.looping, fun _ none => absurd none outermost, fun _ _ wrong => nomatch wrong⟩
  · cases result with
    | inProgress =>
        have inside : thread.activations ≠ [] := by
          intro none
          apply calling
          simp [calls, none]
        exact ⟨thread, if_neg calling, fun _ => ⟨inv, inv.looping, fun _ none => absurd none inside,
          fun _ _ wrong => nomatch wrong⟩, fun _ => trivial⟩
    | success => exact decided_free thread thread _ inv (if_neg calling) trivial
    | failed sysError =>
        exact decided_free thread thread _ inv (if_neg calling) trivial

theorem test_idle_decided (thread : LoopThread) (inv : ThreadInv thread) (still : threadStep thread .test = some thread)
    (elsewhere : ∀ head rest, thread.activations = head :: rest → head.phase ≠ .testing) : Decided thread .test := by
  refine ⟨thread, still, fun _ => ⟨inv, inv.looping, (fun wrong => nomatch wrong), ?_⟩, ?_⟩
  · intro tmpTasks rest _ innermost
    exact absurd rfl (elsewhere _ _ innermost)
  · intro _ activation innermost testing
    exact absurd testing (elsewhere _ _ innermost)

theorem test_stopped_decided (thread : LoopThread) (head : Activation) (rest : List Activation) (inv : ThreadInv thread)
    (innermost : thread.activations = head :: rest) (stopFlag : thread.stopFlag = true) (testing : head.phase = .testing)
    (taken : threadStep thread .test = some { thread with activations := rest }) : Decided thread .test := by
  refine ⟨_, taken, ?_, ?_⟩
  · intro never
    have nested : rest ≠ [] := by
      intro none
      have running := never head (by rw [innermost, none]) testing
      cases running.symm.trans stopFlag
    have left := leave_inner_inv thread head rest inv innermost nested
    refine ⟨left, left.looping, (fun wrong => nomatch wrong), ?_⟩
    intro tmpTasks others _ same
    have stopped := inv.byConnect ⟨tmpTasks, .testing, true, false⟩ (by simp [same]) rfl stopFlag
    cases stopped
  · intro driven activation single _
    have none : rest = [] := (List.cons.inj (innermost.symm.trans single)).2
    have looping := inv.looping.mpr (by simp [innermost])
    exact absurd none (driven.looping.mp looping)

theorem test_running_decided (thread : LoopThread) (head : Activation) (rest : List Activation) (inv : ThreadInv thread)
    (innermost : thread.activations = head :: rest) (running : ¬ thread.stopFlag = true)
    (taken : threadStep thread .test = some { thread with
      pendingTasks := []
      activations := { head with tmpTasks := thread.pendingTasks, phase := .executing } :: rest }) :
    Decided thread .test := by
  refine ⟨_, taken, fun _ => ?_, fun _ _ _ _ => Bool.eq_false_iff.mpr running⟩
  have kept := replace_head_inv thread [] thread.pendingTasks .executing head rest inv innermost
  refine ⟨kept, kept.looping, (fun wrong => nomatch wrong), ?_⟩
  intro tmpTasks others _ same
  obtain ⟨rfl, rfl⟩ := List.cons.inj (innermost.symm.trans same)
  exact ⟨rfl, rfl⟩

theorem test_decided (thread : LoopThread) (inv : ThreadInv thread) : Decided thread .test := by
  cases innermost : thread.activations with
  | nil =>
      apply test_idle_decided thread inv
      · simp only [threadStep, innermost]
      · intro head rest same
        cases innermost.symm.trans same
  | cons head rest =>
      obtain ⟨tmpTasks, phase, byConnect, stopped⟩ := head
      have elsewhere (other : phase ≠ .testing) (first : Activation) (others : List Activation)
          (same : thread.activations = first :: others) : first.phase ≠ .testing := by
        obtain ⟨rfl, _⟩ := List.cons.inj (innermost.symm.trans same)
        exact other
      cases phase with
      | executing =>
          exact test_idle_decided thread inv (by simp only [threadStep, innermost]) (elsewhere (fun wrong => nomatch wrong))
      | inTask =>
          exact test_idle_decided thread inv (by simp only [threadStep, innermost]) (elsewhere (fun wrong => nomatch wrong))
      | testing =>
          by_cases stopFlag : thread.stopFlag = true
          · apply test_stopped_decided thread _ rest inv innermost stopFlag rfl
            simp only [threadStep, innermost, testCondition, if_pos stopFlag]
          · apply test_running_decided thread _ rest inv innermost stopFlag
            simp only [threadStep, innermost, testCondition, if_neg stopFlag]

theorem head_decided (thread : LoopThread) (action : ThreadAction) (pendingTasks tmpTasks : List Nat)
    (phase : ActivationPhase) (head : Activation) (rest : List Activation) (inv : ThreadInv thread)
    (innermost : thread.activations = head :: rest)
    (taken : threadStep thread action = some { thread with
      pendingTasks := pendingTasks
      activations := ⟨tmpTasks, phase, head.byConnect, head.stopped⟩ :: rest })
    (unwatched : Unwatched action) : Decided thread action :=
  decided_free thread _ action (replace_head_inv thread pendingTasks tmpTasks phase head rest inv innermost) taken unwatched

theorem start_task_decided (thread : LoopThread) (inv : ThreadInv thread) : Decided thread .startTask := by
  have idle (still : threadStep thread .startTask = some thread) := decided_free thread thread _ inv still trivial
  cases innermost : thread.activations with
  | nil => exact idle (by simp only [threadStep, innermost])
  | cons head rest =>
      obtain ⟨tmpTasks, phase, byConnect, stopped⟩ := head
      cases phase with
      | testing => exact idle (by simp only [threadStep, innermost])
      | inTask => exact idle (by simp only [threadStep, innermost])
      | executing =>
          cases tmpTasks with
          | nil => exact idle (by simp only [threadStep, innermost])
          | cons task tmpTasks =>
              exact head_decided thread _ thread.pendingTasks tmpTasks .inTask _ rest inv innermost
                (by simp only [threadStep, innermost]) trivial

theorem end_task_decided (thread : LoopThread) (inv : ThreadInv thread) : Decided thread .endTask := by
  have idle (still : threadStep thread .endTask = some thread) := decided_free thread thread _ inv still trivial
  cases innermost : thread.activations with
  | nil => exact idle (by simp only [threadStep, innermost])
  | cons head rest =>
      obtain ⟨tmpTasks, phase, byConnect, stopped⟩ := head
      cases phase with
      | testing => exact idle (by simp only [threadStep, innermost])
      | executing => exact idle (by simp only [threadStep, innermost])
      | inTask =>
          exact head_decided thread _ thread.pendingTasks tmpTasks .executing _ rest inv innermost
            (by simp only [threadStep, innermost]) trivial

theorem poll_decided (thread : LoopThread) (ready : List Nat) (inv : ThreadInv thread) : Decided thread (.poll ready) := by
  have idle (still : threadStep thread (.poll ready) = some thread) := decided_free thread thread _ inv still trivial
  cases innermost : thread.activations with
  | nil => exact idle (by simp only [threadStep, innermost])
  | cons head rest =>
      obtain ⟨tmpTasks, phase, byConnect, stopped⟩ := head
      cases phase with
      | testing => exact idle (by simp only [threadStep, innermost])
      | inTask => exact idle (by simp only [threadStep, innermost])
      | executing =>
          cases tmpTasks with
          | cons task tmpTasks => exact idle (by simp only [threadStep, innermost])
          | nil =>
              exact head_decided thread _ (thread.pendingTasks ++ ready) [] .testing _ rest inv innermost
                (by simp only [threadStep, innermost]) trivial

theorem thread_step_decided (thread : LoopThread) (action : ThreadAction) (inv : ThreadInv thread) :
    Decided thread action := by
  cases action with
  | loop =>
      by_cases calling : calls thread
      · exact decided_free thread _ _ (enter_loop_inv thread false inv (fun wrong => nomatch wrong)) (if_pos calling) trivial
      · exact decided_free thread thread _ inv (if_neg calling) trivial
  | stop =>
      by_cases inside : inTask thread
      · exact decided_free thread _ _ (stop_loop_inv thread inv inside.1) (if_pos inside) trivial
      · exact decided_free thread thread _ inv (if_neg inside) trivial
  | clientStop =>
      by_cases inside : inTask thread ∧ thread.isLooping = true
      · exact decided_free thread _ _ (stop_loop_inv thread inv inside.1.1) (if_pos inside) trivial
      · exact decided_free thread thread _ inv (if_neg inside) trivial
  | addTask task =>
      by_cases calling : calls thread
      · exact decided_free thread { thread with pendingTasks := thread.pendingTasks ++ [task] } _
          ⟨inv.looping, inv.running, inv.byConnect⟩ (if_pos calling) trivial
      · exact decided_free thread thread _ inv (if_neg calling) trivial
  | connect result => exact connect_decided thread result inv
  | test => exact test_decided thread inv
  | startTask => exact start_task_decided thread inv
  | endTask => exact end_task_decided thread inv
  | poll ready => exact poll_decided thread ready inv

theorem driven_again_iff (actions : List ThreadAction) :
    Throughout threadStep DrivenAgain {} actions ↔ Guarded threadStep NeverReturns {} actions := by
  apply throughout_iff_decided threadStep NeverReturns ThreadInv DrivenAgain thread_step_decided
  refine ⟨by simp, fun _ => rfl, ?_⟩
  intro activation member
  cases member

-- One blocking call: its connect runs a loop() until the closure calls stop().
def firstCall : List ThreadAction :=
  [.connect .inProgress, .test, .poll [1], .test, .startTask, .stop, .endTask, .poll [], .test]

theorem first_call_ends :
    run threadStep {} firstCall = some { isLooping := true, stopFlag := true } := by
  decide

theorem second_call_unserved :
    run threadStep {} (firstCall ++ [.connect .inProgress]) = some { isLooping := true, stopFlag := true } := by
  decide

theorem second_call_diverges : ¬ Throughout threadStep DrivenAgain {} (firstCall ++ [.connect .inProgress]) := by
  intro throughout
  obtain ⟨middle, later, before, after, driven⟩ := throughout_last threadStep DrivenAgain {} firstCall _ throughout
  cases first_call_ends.symm.trans before
  cases second_call_unserved.symm.trans after
  have entered := driven.enters rfl rfl
  cases entered

end Rocket
