import Mathlib
import Rocket.Lib.Settling

set_option autoImplicit false

namespace Rocket

open Settling

-- The next statement of Main; waitStart is the wait for the start semaphore.
inductive MainPhase where
  | newLoop
  | threadId
  | postInit
  | waitStart
  | looping
  | returned
deriving DecidableEq, Repr

-- What the owner of an IOThread reaches of its event loop.
structure IOLoop where
  threadId : Int
  stopFlag : Bool := false
deriving DecidableEq, Repr

-- thread is the id of the thread that pthread_create has made, if it made one.
structure IOThread where
  thread : Option Int
  eventLoop : Option IOLoop := none
  threadId : Int := -1
  initSemaphore : Nat := 0
  startSemaphore : Nat := 0
  phase : MainPhase := .newLoop
deriving DecidableEq, Repr

-- create is the constructor up to pthread_create, waitInit the rest of it, and
-- stop is geteventloop()->stop().
inductive IOCall where
  | create (made : Option Int)
  | waitInit
  | start
  | stop
  | join
deriving DecidableEq, Repr

-- One statement of Main. A turn of loop() that finds no stop flag changes
-- nothing here and is not counted.
def IOThread.main (io : IOThread) (id : Int) : Turn IOThread :=
  match io.phase with
  | .newLoop => .moved { io with eventLoop := some { threadId := id }, phase := .threadId }
  | .threadId => .moved { io with threadId := id, phase := .postInit }
  | .postInit => .moved { io with initSemaphore := io.initSemaphore + 1, phase := .waitStart }
  | .waitStart =>
      if io.startSemaphore = 0 then .blocked
      else .moved { io with startSemaphore := io.startSemaphore - 1, phase := .looping }
  | .looping =>
      match io.eventLoop with
      | none => .crashed
      | some loop => if loop.stopFlag = true then .moved { io with phase := .returned } else .blocked
  | .returned => .blocked

-- Nobody runs Main when pthread_create has failed; its result is not looked at.
def mainTurn : Option IOThread → Turn (Option IOThread)
  | none => .blocked
  | some io =>
      match io.thread with
      | none => .blocked
      | some id => (io.main id).map some

def IOThread.waitInit (io : IOThread) : Turn IOThread :=
  if io.initSemaphore = 0 then .blocked else .moved { io with initSemaphore := io.initSemaphore - 1 }

def IOThread.start (io : IOThread) : Turn IOThread := .moved { io with startSemaphore := io.startSemaphore + 1 }

def IOThread.stop (io : IOThread) : Turn IOThread :=
  match io.eventLoop with
  | none => .crashed
  | some loop => .moved { io with eventLoop := some { loop with stopFlag := true } }

def IOThread.join (io : IOThread) : Turn IOThread :=
  if io.thread = none then .crashed else if io.phase = .returned then .moved io else .blocked

def IOCall.perform : Option IOThread → IOCall → Turn (Option IOThread)
  | _, .create made => .moved (some { thread := made })
  | none, _ => .crashed
  | some io, .waitInit => io.waitInit.map some
  | some io, .start => io.start.map some
  | some io, .stop => io.stop.map some
  | some io, .join => io.join.map some

-- The thread that owns the IOThreads, with the calls it has left to make, each
-- with the IOThread it is made on.
structure Owner where
  rest : List (Nat × IOCall)
  threads : Nat → Option IOThread

inductive Party where
  | owner
  | main (index : Nat)
deriving DecidableEq, Repr

def ownerTurn (owner : Owner) : Party → Turn Owner
  | .owner =>
      match owner.rest with
      | [] => .blocked
      | (index, call) :: rest =>
          (call.perform (owner.threads index)).map fun later =>
            { rest, threads := Function.update owner.threads index later }
  | .main index =>
      (mainTurn (owner.threads index)).map fun later => { owner with threads := Function.update owner.threads index later }

def newOwner (statements : List (Nat × IOCall)) : Owner := { rest := statements, threads := fun _ => none }

def callsOf (index : Nat) (statements : List (Nat × IOCall)) : List IOCall :=
  (statements.filter fun statement => statement.1 = index).map Prod.snd

-- What C++ lets a program do with an object: it is constructed once and first,
-- the calls come when the constructor has returned, and join comes once.
def Proper (calls : List IOCall) : IOCall → Prop
  | .create _ => calls = []
  | .waitInit => calls ≠ [] ∧ .waitInit ∉ calls
  | .start => .waitInit ∈ calls
  | .stop => .waitInit ∈ calls
  | .join => .waitInit ∈ calls ∧ .join ∉ calls

def ProperProgram : List (Nat × IOCall) → List (Nat × IOCall) → Prop
  | _, [] => True
  | done, statement :: rest =>
      Proper (callsOf statement.1 done) statement.2 ∧ ProperProgram (done ++ [statement]) rest

-- The calls that never return: the constructor when there is no thread to post
-- the semaphore, and join when the loop is not started or not stopped.
def Hangs (calls : List IOCall) : IOCall → Prop
  | .waitInit => calls.head? = some (.create none)
  | .join => ¬(.start ∈ calls ∧ .stop ∈ calls)
  | _ => False

instance (calls : List IOCall) (call : IOCall) : Decidable (Proper calls call) :=
  match call with
  | .create _ => inferInstanceAs (Decidable (calls = []))
  | .waitInit => inferInstanceAs (Decidable (calls ≠ [] ∧ .waitInit ∉ calls))
  | .start => inferInstanceAs (Decidable (.waitInit ∈ calls))
  | .stop => inferInstanceAs (Decidable (.waitInit ∈ calls))
  | .join => inferInstanceAs (Decidable (.waitInit ∈ calls ∧ .join ∉ calls))

instance properProgramDecidable : (done rest : List (Nat × IOCall)) → Decidable (ProperProgram done rest)
  | _, [] => isTrue trivial
  | done, statement :: rest =>
      have := properProgramDecidable (done ++ [statement]) rest
      inferInstanceAs (Decidable (Proper (callsOf statement.1 done) statement.2 ∧ ProperProgram (done ++ [statement]) rest))

instance (calls : List IOCall) (call : IOCall) : Decidable (Hangs calls call) :=
  match call with
  | .create _ => inferInstanceAs (Decidable False)
  | .waitInit => inferInstanceAs (Decidable (calls.head? = some (.create none)))
  | .start => inferInstanceAs (Decidable False)
  | .stop => inferInstanceAs (Decidable False)
  | .join => inferInstanceAs (Decidable ¬(.start ∈ calls ∧ .stop ∈ calls))

-- The program up to the first call that never returns.
def performed : List (Nat × IOCall) → List (Nat × IOCall) → List (Nat × IOCall)
  | done, [] => done
  | done, statement :: rest =>
      if Hangs (callsOf statement.1 done) statement.2 then done else performed (done ++ [statement]) rest

def MainPhase.stage : MainPhase → Nat
  | .newLoop => 0
  | .threadId => 1
  | .postInit => 2
  | .waitStart => 3
  | .looping => 4
  | .returned => 5

-- An IOThread after these calls, with Main at that statement.
def ioThreadAt (calls : List IOCall) (thread : Option Int) (phase : MainPhase) : IOThread where
  thread := thread
  eventLoop := if phase.stage = 0 then none else thread.map fun id => { threadId := id, stopFlag := decide (.stop ∈ calls) }
  threadId := if phase.stage ≤ 1 then -1 else thread.getD (-1)
  initSemaphore := if phase.stage ≤ 2 ∨ .waitInit ∈ calls then 0 else 1
  startSemaphore := calls.count .start - if phase.stage ≤ 3 then 0 else 1
  phase := phase

-- Where Main is once nothing moves any more.
def settledPhase (calls : List IOCall) : Option Int → MainPhase
  | none => .newLoop
  | some _ => if .start ∉ calls then .waitStart else if .stop ∉ calls then .looping else .returned

def settledThread : List IOCall → Option IOThread
  | .create made :: calls => some (ioThreadAt calls made (settledPhase calls made))
  | _ => none

-- No call on an IOThread uses an event loop that is not there yet.
structure Ready (statements : List (Nat × IOCall)) (owner : Owner) : Prop where
  constructed : ∀ done index, statements = done ++ owner.rest → .waitInit ∈ callsOf index done →
    ∃ io id loop, owner.threads index = some io ∧ (index, IOCall.create (some id)) ∈ done ∧ io.threadId = id ∧
      io.eventLoop = some loop ∧ loop.threadId = id
  heldBack : ∀ done index io, statements = done ++ owner.rest → owner.threads index = some io →
    io.phase = .looping ∨ io.phase = .returned → .start ∈ callsOf index done

structure EndsAs (statements : List (Nat × IOCall)) (last : Owner) : Prop where
  rest : statements = performed [] statements ++ last.rest
  threads : ∀ index, last.threads index = settledThread (callsOf index (performed [] statements))

structure PhaseFits (calls : List IOCall) (made : Option Int) (phase : MainPhase) : Prop where
  unmade : made = none → phase = .newLoop ∧ .waitInit ∉ calls
  posted : .waitInit ∈ calls → 3 ≤ phase.stage
  started : 4 ≤ phase.stage → .start ∈ calls
  stopped : phase = .returned → .stop ∈ calls
  used : .start ∈ calls ∨ .stop ∈ calls → .waitInit ∈ calls

-- What is known of an IOThread from the calls made on it.
inductive ObjectInv : List IOCall → Option IOThread → Prop where
  | absent : ObjectInv [] none
  | present (calls : List IOCall) (made : Option Int) (phase : MainPhase) (fits : PhaseFits calls made phase) :
      ObjectInv (.create made :: calls) (some (ioThreadAt calls made phase))

def stageOf : Option IOThread → Nat
  | none => 0
  | some io => io.phase.stage

theorem io_thread_start (calls : List IOCall) (made : Option Int) (phase : MainPhase) (fits : PhaseFits calls made phase) :
    ioThreadAt (calls ++ [.start]) made phase =
      { ioThreadAt calls made phase with startSemaphore := (ioThreadAt calls made phase).startSemaphore + 1 } := by
  have positive : 4 ≤ phase.stage → 0 < calls.count .start := fun late => List.count_pos_iff.mpr (fits.started late)
  simp only [ioThreadAt, List.mem_append, List.mem_singleton, reduceCtorEq, or_false, List.count_append,
    List.count_singleton_self, IOThread.mk.injEq, true_and, and_true]
  split <;> omega

theorem io_thread_stop (calls : List IOCall) (made : Option Int) (phase : MainPhase) (loop : IOLoop)
    (here : (ioThreadAt calls made phase).eventLoop = some loop) :
    ioThreadAt (calls ++ [.stop]) made phase =
      { ioThreadAt calls made phase with eventLoop := some { loop with stopFlag := true } } := by
  simp only [ioThreadAt] at here
  split at here
  · cases here
  · next late =>
      obtain ⟨id, rfl, same⟩ := Option.map_eq_some_iff.mp here
      subst same
      simp [ioThreadAt, late]

theorem io_thread_wait_init (calls : List IOCall) (made : Option Int) (phase : MainPhase) :
    ioThreadAt (calls ++ [.waitInit]) made phase = { ioThreadAt calls made phase with initSemaphore := 0 } := by
  simp [ioThreadAt]

theorem io_thread_join (calls : List IOCall) (made : Option Int) (phase : MainPhase) :
    ioThreadAt (calls ++ [.join]) made phase = ioThreadAt calls made phase := by
  simp [ioThreadAt]

theorem phase_fits_call (calls : List IOCall) (made : Option Int) (phase : MainPhase) (call : IOCall)
    (fits : PhaseFits calls made phase) (wait : call = .waitInit → made ≠ none ∧ 3 ≤ phase.stage)
    (later : call = .start ∨ call = .stop → .waitInit ∈ calls) : PhaseFits (calls ++ [call]) made phase where
  unmade := by
    intro missing
    obtain ⟨fresh, unposted⟩ := fits.unmade missing
    refine ⟨fresh, ?_⟩
    intro member
    rcases List.mem_append.mp member with before | here
    · exact unposted before
    · exact (wait (List.mem_singleton.mp here).symm).1 missing
  posted := by
    intro member
    rcases List.mem_append.mp member with before | here
    · exact fits.posted before
    · exact (wait (List.mem_singleton.mp here).symm).2
  started late := List.mem_append_left _ (fits.started late)
  stopped done := List.mem_append_left _ (fits.stopped done)
  used := by
    intro member
    apply List.mem_append_left
    simp only [List.mem_append, List.mem_singleton] at member
    rcases member with (before | here) | (before | here)
    · exact fits.used (Or.inl before)
    · exact later (Or.inl here.symm)
    · exact fits.used (Or.inr before)
    · exact later (Or.inr here.symm)

-- The statement of Main that follows, when the calls made so far let it go on.
def nextPhase (calls : List IOCall) : MainPhase → Option MainPhase
  | .newLoop => some .threadId
  | .threadId => some .postInit
  | .postInit => some .waitStart
  | .waitStart => if .start ∈ calls then some .looping else none
  | .looping => if .stop ∈ calls then some .returned else none
  | .returned => none

theorem main_turn_at (calls : List IOCall) (id : Int) (phase : MainPhase) (fits : PhaseFits calls (some id) phase) :
    mainTurn (some (ioThreadAt calls (some id) phase)) =
      match nextPhase calls phase with
      | none => .blocked
      | some next => .moved (some (ioThreadAt calls (some id) next)) := by
  have early : phase.stage ≤ 2 → .waitInit ∉ calls := by
    intro less member
    have := fits.posted member
    omega
  cases phase with
  | newLoop =>
      have running : .stop ∉ calls := fun member => early (Nat.zero_le 2) (fits.used (Or.inr member))
      simp [mainTurn, IOThread.main, ioThreadAt, MainPhase.stage, nextPhase, Turn.map, running]
  | threadId => simp [mainTurn, IOThread.main, ioThreadAt, MainPhase.stage, nextPhase, Turn.map]
  | postInit => simp [mainTurn, IOThread.main, ioThreadAt, MainPhase.stage, nextPhase, Turn.map, early (Nat.le_refl 2)]
  | waitStart =>
      by_cases started : .start ∈ calls
      · have positive : calls.count .start ≠ 0 := (List.count_pos_iff.mpr started).ne'
        simp [mainTurn, IOThread.main, ioThreadAt, MainPhase.stage, nextPhase, Turn.map, started, positive]
      · simp [mainTurn, IOThread.main, ioThreadAt, MainPhase.stage, nextPhase, Turn.map, started, List.count_eq_zero]
  | looping =>
      by_cases stopped : .stop ∈ calls
      · simp [mainTurn, IOThread.main, ioThreadAt, MainPhase.stage, nextPhase, Turn.map, stopped]
      · simp [mainTurn, IOThread.main, ioThreadAt, MainPhase.stage, nextPhase, Turn.map, stopped]
  | returned => rfl

theorem next_phase_fits (calls : List IOCall) (id : Int) (phase next : MainPhase) (fits : PhaseFits calls (some id) phase)
    (follows : nextPhase calls phase = some next) :
    PhaseFits calls (some id) next ∧ next.stage = phase.stage + 1 := by
  have built (stage : next.stage = phase.stage + 1) (started : 4 ≤ next.stage → .start ∈ calls)
      (stopped : next = .returned → .stop ∈ calls) : PhaseFits calls (some id) next ∧ next.stage = phase.stage + 1 :=
    ⟨{ unmade := nofun, posted := fun member => stage ▸ Nat.le_succ_of_le (fits.posted member), started, stopped,
        used := fits.used }, stage⟩
  cases phase with
  | newLoop =>
      cases follows
      exact built rfl (by simp [MainPhase.stage]) nofun
  | threadId =>
      cases follows
      exact built rfl (by simp [MainPhase.stage]) nofun
  | postInit =>
      cases follows
      exact built rfl (by simp [MainPhase.stage]) nofun
  | waitStart =>
      obtain ⟨started, same⟩ := Option.ite_none_right_eq_some.mp follows
      cases same
      exact built rfl (fun _ => started) nofun
  | looping =>
      obtain ⟨stopped, same⟩ := Option.ite_none_right_eq_some.mp follows
      cases same
      exact built rfl (fun _ => fits.started (Nat.le_refl 4)) (fun _ => stopped)
  | returned => cases follows

theorem no_next_phase (calls : List IOCall) (id : Int) (phase : MainPhase) (fits : PhaseFits calls (some id) phase)
    (ends : nextPhase calls phase = none) : phase = settledPhase calls (some id) := by
  cases phase with
  | newLoop => cases ends
  | threadId => cases ends
  | postInit => cases ends
  | waitStart =>
      have absent : .start ∉ calls := by simpa [nextPhase] using ends
      rw [settledPhase, if_pos absent]
  | looping =>
      have running : .stop ∉ calls := by simpa [nextPhase] using ends
      rw [settledPhase, if_neg (not_not.mpr (fits.started (Nat.le_refl 4))), if_pos running]
  | returned =>
      have started := fits.started (Nat.le_succ 4)
      rw [settledPhase, if_neg (not_not.mpr started), if_neg (not_not.mpr (fits.stopped rfl))]

theorem main_blocked (calls : List IOCall) (made : Option Int) (phase : MainPhase) (fits : PhaseFits calls made phase)
    (blocked : mainTurn (some (ioThreadAt calls made phase)) = .blocked) : phase = settledPhase calls made := by
  cases made with
  | none => exact (fits.unmade rfl).1
  | some id =>
      have turn := main_turn_at calls id phase fits
      cases follows : nextPhase calls phase with
      | none => exact no_next_phase calls id phase fits follows
      | some next =>
          rw [blocked, follows] at turn
          cases turn

theorem settled_stage (calls : List IOCall) (id : Int) : 3 ≤ (settledPhase calls (some id)).stage := by
  rw [settledPhase]
  split
  · exact Nat.le_refl 3
  · split <;> simp [MainPhase.stage]

theorem main_keeps (calls : List IOCall) (object : Option IOThread) (inv : ObjectInv calls object) :
    mainTurn object = .blocked ∨
      ∃ later, mainTurn object = .moved later ∧ ObjectInv calls later ∧ stageOf later = stageOf object + 1 := by
  cases inv with
  | absent => exact Or.inl rfl
  | present calls made phase fits =>
      cases made with
      | none => exact Or.inl rfl
      | some id =>
          have turn := main_turn_at calls id phase fits
          cases follows : nextPhase calls phase with
          | none =>
              rw [follows] at turn
              exact Or.inl turn
          | some next =>
              rw [follows] at turn
              obtain ⟨fitsNext, stage⟩ := next_phase_fits calls id phase next fits follows
              exact Or.inr ⟨_, turn, .present calls (some id) next fitsNext, stage⟩

theorem object_settled (calls : List IOCall) (object : Option IOThread) (inv : ObjectInv calls object)
    (blocked : mainTurn object = .blocked) : object = settledThread calls := by
  cases inv with
  | absent => rfl
  | present calls made phase fits =>
      rw [main_blocked calls made phase fits blocked]
      rfl

-- A call that does not hang is blocked only while Main still has turns to take.
def CallKept (calls : List IOCall) (object : Option IOThread) (call : IOCall) : Prop :=
  (call.perform object = .blocked ∧ (mainTurn object = .blocked → Hangs calls call)) ∨
    ¬Hangs calls call ∧ ∃ later, call.perform object = .moved later ∧ ObjectInv (calls ++ [call]) later ∧
      stageOf later = stageOf object

theorem first_call_keeps (call : IOCall) (proper : Proper [] call) : CallKept [] none call := by
  cases call with
  | create made =>
      refine Or.inr ⟨id, _, rfl, ?_, rfl⟩
      exact .present [] made .newLoop ⟨by simp, nofun, nofun, nofun, by simp⟩
  | waitInit => exact absurd rfl proper.1
  | start => cases proper
  | stop => cases proper
  | join => cases proper.1

section Calls

variable (calls : List IOCall) (made : Option Int) (phase : MainPhase) (fits : PhaseFits calls made phase)

include fits

theorem wait_init_keeps (first : .waitInit ∉ calls) :
    CallKept (.create made :: calls) (some (ioThreadAt calls made phase)) .waitInit := by
  by_cases posted : 3 ≤ phase.stage
  · have present : made ≠ none := by
      intro missing
      rw [(fits.unmade missing).1] at posted
      cases posted
    have taken : (ioThreadAt calls made phase).waitInit = .moved (ioThreadAt (calls ++ [.waitInit]) made phase) := by
      rw [io_thread_wait_init, IOThread.waitInit]
      simp [ioThreadAt, first, show ¬phase.stage ≤ 2 by omega]
    refine Or.inr ⟨by simpa [Hangs] using present, some (ioThreadAt (calls ++ [.waitInit]) made phase), ?_, ?_, rfl⟩
    · rw [IOCall.perform, taken, Turn.map]
    · exact .present _ made phase (phase_fits_call calls made phase .waitInit fits (fun _ => ⟨present, posted⟩) (by simp))
  · refine Or.inl ⟨?_, ?_⟩
    · simp [IOCall.perform, IOThread.waitInit, ioThreadAt, Turn.map, show phase.stage ≤ 2 by omega]
    · intro blocked
      cases made with
      | none => rfl
      | some id =>
          have late := settled_stage calls id
          rw [← main_blocked calls (some id) phase fits blocked] at late
          exact absurd late posted

theorem start_keeps (waited : .waitInit ∈ calls) :
    CallKept (.create made :: calls) (some (ioThreadAt calls made phase)) .start := by
  refine Or.inr ⟨id, some (ioThreadAt (calls ++ [.start]) made phase), ?_, ?_, rfl⟩
  · rw [io_thread_start calls made phase fits]
    rfl
  · exact .present _ made phase (phase_fits_call calls made phase .start fits nofun (fun _ => waited))

theorem stop_keeps (waited : .waitInit ∈ calls) :
    CallKept (.create made :: calls) (some (ioThreadAt calls made phase)) .stop := by
  have posted := fits.posted waited
  cases made with
  | none => exact absurd waited (fits.unmade rfl).2
  | some id =>
      let loop : IOLoop := { threadId := id, stopFlag := decide (.stop ∈ calls) }
      have here : (ioThreadAt calls (some id) phase).eventLoop = some loop := by
        simp only [ioThreadAt]
        rw [if_neg (by omega)]
        rfl
      refine Or.inr ⟨not_false, some (ioThreadAt (calls ++ [.stop]) (some id) phase), ?_, ?_, rfl⟩
      · rw [io_thread_stop calls (some id) phase loop here, IOCall.perform, IOThread.stop, here]
        rfl
      · exact .present _ (some id) phase (phase_fits_call calls (some id) phase .stop fits nofun (fun _ => waited))

theorem join_keeps (waited : .waitInit ∈ calls) :
    CallKept (.create made :: calls) (some (ioThreadAt calls made phase)) .join := by
  have present : made ≠ none := fun missing => (fits.unmade missing).2 waited
  have same : (ioThreadAt calls made phase).join =
      if phase = .returned then .moved (ioThreadAt calls made phase) else .blocked := by
    rw [IOThread.join, ioThreadAt, if_neg present]
  by_cases done : phase = .returned
  · rw [if_pos done] at same
    subst done
    refine Or.inr ⟨?_, some (ioThreadAt (calls ++ [.join]) made .returned), ?_, ?_, rfl⟩
    · simp [Hangs, fits.started (Nat.le_succ 4), fits.stopped rfl]
    · rw [io_thread_join, IOCall.perform, same, Turn.map]
    · exact .present _ made .returned (phase_fits_call calls made .returned .join fits nofun (by simp))
  · rw [if_neg done] at same
    refine Or.inl ⟨by rw [IOCall.perform, same, Turn.map], ?_⟩
    intro blocked finished
    obtain ⟨started, stopped⟩ : .start ∈ calls ∧ .stop ∈ calls := by simpa using finished
    obtain ⟨id, rfl⟩ := Option.ne_none_iff_exists'.mp present
    rw [main_blocked calls (some id) phase fits blocked, settledPhase, if_neg (not_not.mpr started),
      if_neg (not_not.mpr stopped)] at done
    exact done rfl

end Calls

theorem call_keeps (calls : List IOCall) (object : Option IOThread) (call : IOCall) (inv : ObjectInv calls object)
    (proper : Proper calls call) : CallKept calls object call := by
  cases inv with
  | absent => exact first_call_keeps call proper
  | present calls made phase fits =>
      have waited : .waitInit ∈ IOCall.create made :: calls → .waitInit ∈ calls := by simp
      cases call with
      | create _ => cases proper
      | waitInit => exact wait_init_keeps calls made phase fits (fun member => proper.2 (List.mem_cons_of_mem _ member))
      | start => exact start_keeps calls made phase fits (waited proper)
      | stop => exact stop_keeps calls made phase fits (waited proper)
      | join => exact join_keeps calls made phase fits (waited proper.1)

theorem constructed_ready (calls : List IOCall) (object : Option IOThread) (inv : ObjectInv calls object)
    (waited : .waitInit ∈ calls) :
    ∃ io id loop, .create (some id) ∈ calls ∧ object = some io ∧ io.threadId = id ∧ io.eventLoop = some loop ∧
      loop.threadId = id := by
  cases inv with
  | absent => cases waited
  | present calls made phase fits =>
      have member : .waitInit ∈ calls := by simpa using waited
      have posted := fits.posted member
      cases made with
      | none => exact absurd member (fits.unmade rfl).2
      | some id =>
          refine ⟨_, id, { threadId := id, stopFlag := decide (.stop ∈ calls) }, List.mem_cons_self, rfl, ?_, ?_, rfl⟩
          · exact if_neg (show ¬phase.stage ≤ 1 by omega)
          · exact if_neg (show ¬phase.stage = 0 by omega)

theorem running_started (calls : List IOCall) (io : IOThread) (inv : ObjectInv calls (some io))
    (running : io.phase = .looping ∨ io.phase = .returned) : .start ∈ calls := by
  cases inv with
  | present calls made phase fits =>
      apply List.mem_cons_of_mem
      apply fits.started
      rcases running with looping | returned
      · rw [show phase = .looping from looping]
        exact Nat.le_refl 4
      · rw [show phase = .returned from returned]
        exact Nat.le_succ 4

theorem settled_running (calls : List IOCall) (io : IOThread) (loop : IOLoop) (settled : settledThread calls = some io)
    (started : .start ∈ calls) (running : .stop ∉ calls) (present : io.eventLoop = some loop) :
    io.phase = .looping ∧ loop.stopFlag = false := by
  cases calls with
  | nil => cases settled
  | cons call calls =>
      cases call with
      | create made =>
          cases settled
          have startedLater : .start ∈ calls := by simpa using started
          have runningLater : .stop ∉ calls := by simpa using running
          cases made with
          | none => simp [ioThreadAt] at present
          | some id =>
              have phase : settledPhase calls (some id) = .looping := by
                rw [settledPhase, if_neg (not_not.mpr startedLater), if_pos runningLater]
              rw [phase] at present ⊢
              cases present
              exact ⟨rfl, decide_eq_false runningLater⟩
      | waitInit => cases settled
      | start => cases settled
      | stop => cases settled
      | join => cases settled

theorem calls_of_same (index : Nat) (call : IOCall) (done : List (Nat × IOCall)) :
    callsOf index (done ++ [(index, call)]) = callsOf index done ++ [call] := by
  simp [callsOf]

theorem calls_of_other (index other : Nat) (call : IOCall) (done : List (Nat × IOCall)) (different : other ≠ index) :
    callsOf other (done ++ [(index, call)]) = callsOf other done := by
  simp [callsOf, different.symm]

theorem mem_calls_of (index : Nat) (call : IOCall) (done : List (Nat × IOCall)) :
    call ∈ callsOf index done ↔ (index, call) ∈ done := by
  simp [callsOf]

-- The calls done so far and what they tell of every IOThread.
structure OwnerInv (statements : List (Nat × IOCall)) (owner : Owner) (done : List (Nat × IOCall)) : Prop where
  parts : statements = done ++ owner.rest
  proper : ProperProgram done owner.rest
  performed : performed done owner.rest = performed [] statements
  objects : ∀ index, ObjectInv (callsOf index done) (owner.threads index)

def created (statements : List (Nat × IOCall)) : List Nat :=
  statements.filterMap fun statement => match statement.2 with
    | .create _ => some statement.1
    | _ => none

-- The calls that the owner has left and the statements that the Mains have.
def turnsLeft (statements : List (Nat × IOCall)) (owner : Owner) : Nat :=
  owner.rest.length + ((created statements).map fun index => 5 - stageOf (owner.threads index)).sum

theorem stage_bound (object : Option IOThread) : stageOf object ≤ 5 := by
  cases object with
  | none => exact Nat.zero_le 5
  | some io =>
      rw [stageOf]
      cases io.phase <;> simp [MainPhase.stage]

theorem objects_update (done later : List (Nat × IOCall)) (threads : Nat → Option IOThread) (index : Nat)
    (object : Option IOThread) (objects : ∀ index, ObjectInv (callsOf index done) (threads index))
    (others : ∀ other, other ≠ index → callsOf other later = callsOf other done)
    (here : ObjectInv (callsOf index later) object) (any : Nat) :
    ObjectInv (callsOf any later) (Function.update threads index object any) := by
  by_cases same : any = index
  · rw [same, Function.update_self]
    exact here
  · rw [Function.update_of_ne same, others any same]
    exact objects any

theorem created_present (statements done : List (Nat × IOCall)) (owner : Owner) (index : Nat)
    (inv : OwnerInv statements owner done) (present : owner.threads index ≠ none) : index ∈ created statements := by
  have made : ∃ made, .create made ∈ callsOf index done := by
    have object := inv.objects index
    generalize callsOf index done = calls at object
    generalize owner.threads index = thread at object present
    cases object with
    | absent => exact absurd rfl present
    | present calls made phase fits => exact ⟨made, List.mem_cons_self⟩
  obtain ⟨made, member⟩ := made
  rw [created, List.mem_filterMap]
  exact ⟨(index, .create made), inv.parts ▸ List.mem_append_left _ ((mem_calls_of index (.create made) done).mp member), rfl⟩

theorem owner_call_keeps (statements done rest : List (Nat × IOCall)) (owner : Owner) (index : Nat) (call : IOCall)
    (inv : OwnerInv statements owner done) (next : owner.rest = (index, call) :: rest) :
    (ownerTurn owner .owner = .blocked ∧ (mainTurn (owner.threads index) = .blocked → Hangs (callsOf index done) call)) ∨
      ∃ later, ownerTurn owner .owner = .moved later ∧ OwnerInv statements later (done ++ [(index, call)]) ∧
        turnsLeft statements later < turnsLeft statements owner := by
  obtain ⟨parts, proper, performedSame, objects⟩ := inv
  rw [next] at parts proper performedSame
  have turn : ownerTurn owner .owner = (call.perform (owner.threads index)).map fun later =>
      { rest, threads := Function.update owner.threads index later } := by
    simp only [ownerTurn, next]
  rcases call_keeps (callsOf index done) (owner.threads index) call (objects index) proper.1 with
    ⟨blocked, hangs⟩ | ⟨free, object, moved, kept, stage⟩
  · rw [blocked] at turn
    exact Or.inl ⟨turn, hangs⟩
  · rw [moved] at turn
    refine Or.inr ⟨_, turn, ⟨?_, proper.2, ?_, ?_⟩, ?_⟩
    · rw [parts, List.append_assoc, List.singleton_append]
    · rw [← performedSame, performed, if_neg free]
    · refine objects_update done _ owner.threads index object objects ?_ ?_
      · intro other different
        exact calls_of_other index other call done different
      · rw [calls_of_same]
        exact kept
    · have sameStages (other : Nat) :
          5 - stageOf (Function.update owner.threads index object other) = 5 - stageOf (owner.threads other) := by
        by_cases same : other = index
        · rw [same, Function.update_self, stage]
        · rw [Function.update_of_ne same]
      simp only [turnsLeft, sameStages, next, List.length_cons]
      omega

theorem main_turn_keeps (statements done : List (Nat × IOCall)) (owner : Owner) (index : Nat)
    (inv : OwnerInv statements owner done) :
    ownerTurn owner (.main index) = .blocked ∨
      ∃ later, ownerTurn owner (.main index) = .moved later ∧ OwnerInv statements later done ∧
        turnsLeft statements later < turnsLeft statements owner := by
  rcases main_keeps (callsOf index done) (owner.threads index) (inv.objects index) with blocked | ⟨object, moved, kept, stage⟩
  · exact Or.inl (by rw [ownerTurn, blocked, Turn.map])
  · refine Or.inr ⟨{ owner with threads := Function.update owner.threads index object }, by rw [ownerTurn, moved, Turn.map],
      ⟨inv.parts, inv.proper, inv.performed, ?_⟩, ?_⟩
    · exact objects_update done done owner.threads index object inv.objects (fun _ _ => rfl) kept
    · have present : owner.threads index ≠ none := by
        intro absent
        rw [absent] at moved
        cases moved
      have bound := stage_bound object
      have here : 5 - stageOf (Function.update owner.threads index object index) < 5 - stageOf (owner.threads index) := by
        rw [Function.update_self]
        omega
      have others (other : Nat) :
          5 - stageOf (Function.update owner.threads index object other) ≤ 5 - stageOf (owner.threads other) := by
        by_cases same : other = index
        · subst same
          exact here.le
        · rw [Function.update_of_ne same]
      apply Nat.add_lt_add_left
      exact List.sum_lt_sum _ _ (fun other _ => others other)
        ⟨index, created_present statements done owner index inv present, here⟩

theorem owner_stuck_ends (statements done : List (Nat × IOCall)) (owner : Owner) (inv : OwnerInv statements owner done)
    (stuck : AllBlocked ownerTurn owner) : EndsAs statements owner := by
  have mains (index : Nat) : mainTurn (owner.threads index) = .blocked := by
    rcases main_keeps (callsOf index done) (owner.threads index) (inv.objects index) with blocked | ⟨object, taken, _⟩
    · exact blocked
    · have here := stuck (.main index)
      rw [ownerTurn, taken] at here
      cases here
  have allDone : performed [] statements = done := by
    rw [← inv.performed]
    cases next : owner.rest with
    | nil => rfl
    | cons statement rest =>
        rcases owner_call_keeps statements done rest owner statement.1 statement.2 inv next with
          ⟨_, hangs⟩ | ⟨later, moved, _⟩
        · rw [performed, if_pos (hangs (mains statement.1))]
        · cases moved.symm.trans (stuck .owner)
  refine ⟨by rw [allDone]; exact inv.parts, ?_⟩
  intro index
  rw [allDone]
  exact object_settled (callsOf index done) (owner.threads index) (inv.objects index) (mains index)

theorem owner_inv_ready (statements done : List (Nat × IOCall)) (owner : Owner) (inv : OwnerInv statements owner done) :
    Ready statements owner := by
  have sameDone (other : List (Nat × IOCall)) (parts : statements = other ++ owner.rest) : other = done :=
    List.append_cancel_right (parts.symm.trans inv.parts)
  refine ⟨?_, ?_⟩
  · intro other index parts waited
    rw [sameDone other parts] at waited ⊢
    obtain ⟨io, id, loop, first, ready⟩ := constructed_ready (callsOf index done) (owner.threads index)
      (inv.objects index) waited
    exact ⟨io, id, loop, ready.1, (mem_calls_of index (.create (some id)) done).mp first, ready.2⟩
  · intro other index io parts here running
    rw [sameDone other parts]
    exact running_started (callsOf index done) io (here ▸ inv.objects index) running

theorem new_owner_inv (statements : List (Nat × IOCall)) (proper : ProperProgram [] statements) :
    OwnerInv statements (newOwner statements) [] := ⟨rfl, proper, rfl, fun _ => .absent⟩

theorem owner_turn_keeps (statements : List (Nat × IOCall)) (owner : Owner) (party : Party)
    (inv : ∃ done, OwnerInv statements owner done) :
    ownerTurn owner party = .blocked ∨ ∃ later, ownerTurn owner party = .moved later ∧
      (∃ done, OwnerInv statements later done) ∧ turnsLeft statements later < turnsLeft statements owner := by
  obtain ⟨done, held⟩ := inv
  cases party with
  | owner =>
      cases next : owner.rest with
      | nil => exact Or.inl (by simp only [ownerTurn, next])
      | cons statement rest =>
          rcases owner_call_keeps statements done rest owner statement.1 statement.2 held next with
            ⟨blocked, _⟩ | ⟨later, moved, kept, less⟩
          · exact Or.inl blocked
          · exact Or.inr ⟨later, moved, ⟨_, kept⟩, less⟩
  | main index =>
      rcases main_turn_keeps statements done owner index held with blocked | ⟨later, moved, kept, less⟩
      · exact Or.inl blocked
      · exact Or.inr ⟨later, moved, ⟨done, kept⟩, less⟩

theorem new_turns_left (statements : List (Nat × IOCall)) :
    turnsLeft statements (newOwner statements) = statements.length + 5 * (created statements).length := by
  rw [turnsLeft]
  simp [newOwner, stageOf, Nat.mul_comm]

-- Every order in which the threads take their turns ends, and all of them end
-- in one state.
theorem io_threads_settle (statements : List (Nat × IOCall)) (proper : ProperProgram [] statements) :
    SettlesIn ownerTurn (Ready statements) (EndsAs statements) (statements.length + 5 * (created statements).length)
      (newOwner statements) := by
  rw [← new_turns_left]
  refine settles ownerTurn (fun owner => ∃ done, OwnerInv statements owner done) (turnsLeft statements)
    (owner_turn_keeps statements) (Ready statements) (EndsAs statements) ?_ ?_ (newOwner statements)
    ⟨[], new_owner_inv statements proper⟩
  · rintro owner ⟨done, inv⟩
    exact owner_inv_ready statements done owner inv
  · rintro owner ⟨done, inv⟩ stuck
    exact owner_stuck_ends statements done owner inv stuck

-- Two IOThreads are started, and the owner waits for the one that it stops.
def stopFirst : List (Nat × IOCall) :=
  [(0, .create (some 7)), (0, .waitInit), (1, .create (some 8)), (1, .waitInit), (0, .start), (1, .start), (0, .stop),
    (0, .join)]

theorem first_thread_joined : ProperProgram [] stopFirst ∧
    SettlesIn ownerTurn (Ready stopFirst) (EndsAs stopFirst) (stopFirst.length + 5 * (created stopFirst).length)
      (newOwner stopFirst) :=
  ⟨by decide, io_threads_settle stopFirst (by decide)⟩

end Rocket
