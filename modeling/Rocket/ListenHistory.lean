import Mathlib.Algebra.Ring.Parity
import Mathlib.Data.List.Induction
import Mathlib.Data.List.Infix
import Rocket.FdEvent

set_option autoImplicit false

namespace Rocket

variable {κ : Type}

inductive Direction where
  | input
  | output
deriving DecidableEq, Repr

def Direction.trigger : Direction → TriggerEvent
  | .input => .inEvent
  | .output => .outEvent

inductive FdEventCall (κ : Type) where
  | listen (direction : Direction) (callback : κ) (errorCallback : Option κ)
  | cancle (direction : Direction)

def FdEvent.call (event : FdEvent κ) : FdEventCall κ → FdEvent κ
  | .listen direction callback errorCallback => event.listen direction.trigger callback errorCallback
  | .cancle direction => event.cancle direction.trigger

def afterCalls (calls : List (FdEventCall κ)) : FdEvent κ := calls.foldl FdEvent.call {}

-- What the last call that selects something selects.
def lastGiven {β : Type} (select : FdEventCall κ → Option β) (calls : List (FdEventCall κ)) : Option β :=
  (calls.filterMap select).getLast?

def wanted (direction : Direction) : FdEventCall κ → Option Bool
  | .listen other _ _ => if other = direction then some true else none
  | .cancle other => if other = direction then some false else none

def callbackGiven (direction : Direction) : FdEventCall κ → Option κ
  | .listen other callback _ => if other = direction then some callback else none
  | .cancle _ => none

def errorGiven : FdEventCall κ → Option κ
  | .listen _ _ errorCallback => errorCallback
  | .cancle _ => none

-- The error callbacks of the listens, the null ones included.
def errorArgument : FdEventCall κ → Option (Option κ)
  | .listen _ _ errorCallback => some errorCallback
  | .cancle _ => none

def errorArguments (calls : List (FdEventCall κ)) : List (Option κ) := calls.filterMap errorArgument

structure FollowsCalls (calls : List (FdEventCall κ)) (event : FdEvent κ) : Prop where
  mask : ∀ direction, event.requested direction.trigger = true ↔ lastGiven (wanted direction) calls = some true
  handlers : ∀ direction, event.handler direction.trigger = lastGiven (callbackGiven direction) calls
  epollErr : errorArguments calls ≠ [] → event.requested .errorEvent = true
  errorHandler : event.handler .errorEvent = lastGiven errorGiven calls

-- How many of the last listens in a row gave an error callback.
def trailingErrors (errors : List (Option κ)) : Nat := (errors.reverse.takeWhile Option.isSome).length

def NoError (errors : List (Option κ)) : Prop := ∀ error ∈ errors, error = none

theorem Direction.trigger_data (direction : Direction) : direction.trigger ≠ .errorEvent := by
  cases direction with
  | input => exact in_event_data
  | output => exact out_event_data

theorem Direction.trigger_injective (direction other : Direction) (different : other ≠ direction) :
    other.trigger ≠ direction.trigger := by
  cases direction <;> cases other <;> simp_all [Direction.trigger]

theorem after_calls_append (calls : List (FdEventCall κ)) (call : FdEventCall κ) :
    afterCalls (calls ++ [call]) = (afterCalls calls).call call := by
  rw [afterCalls, List.foldl_append]
  rfl

theorem last_given_append {β : Type} (select : FdEventCall κ → Option β) (calls : List (FdEventCall κ))
    (call : FdEventCall κ) : lastGiven select (calls ++ [call]) = (select call).or (lastGiven select calls) := by
  cases selected : select call with
  | none => simp [lastGiven, selected]
  | some given => simp [lastGiven, selected]

theorem error_arguments_append (calls : List (FdEventCall κ)) (call : FdEventCall κ) :
    errorArguments (calls ++ [call]) = errorArguments calls ++ (errorArgument call).toList := by
  cases selected : errorArgument call with
  | none => simp [errorArguments, selected]
  | some given => simp [errorArguments, selected]

theorem FdEvent.cancle_same (event : FdEvent κ) (direction : Direction) :
    (event.cancle direction.trigger).requested direction.trigger = false := by
  cases direction with
  | input => rfl
  | output => rfl

theorem FdEvent.cancle_other (event : FdEvent κ) (direction other : Direction) (different : other ≠ direction) :
    (event.cancle direction.trigger).requested other.trigger = event.requested other.trigger := by
  cases direction <;> cases other <;> first | exact absurd rfl different | rfl

theorem mask_follows (calls : List (FdEventCall κ)) (direction : Direction) :
    (afterCalls calls).requested direction.trigger = true ↔ lastGiven (wanted direction) calls = some true := by
  induction calls using List.reverseRecOn with
  | nil => cases direction <;> simp [afterCalls, lastGiven, Direction.trigger, FdEvent.requested]
  | append_singleton calls call ih =>
      rw [after_calls_append, last_given_append]
      cases call with
      | listen other callback errorCallback =>
          by_cases same : other = direction
          · rw [same, FdEvent.call, (FdEvent.listen_same _ _ _ _ direction.trigger_data).1]
            simp [wanted]
          · have kept := FdEvent.listen_other (afterCalls calls) other.trigger direction.trigger callback errorCallback
              other.trigger_data direction.trigger_data (Direction.trigger_injective other direction (Ne.symm same))
            rw [FdEvent.call, kept.1, ih, wanted, if_neg same, Option.none_or]
      | cancle other =>
          by_cases same : other = direction
          · rw [same, FdEvent.call, FdEvent.cancle_same]
            simp [wanted]
          · rw [FdEvent.call, FdEvent.cancle_other _ other direction (Ne.symm same), ih, wanted, if_neg same, Option.none_or]

theorem handlers_follow (calls : List (FdEventCall κ)) (direction : Direction) :
    (afterCalls calls).handler direction.trigger = lastGiven (callbackGiven direction) calls := by
  induction calls using List.reverseRecOn with
  | nil => cases direction <;> rfl
  | append_singleton calls call ih =>
      rw [after_calls_append, last_given_append]
      cases call with
      | listen other callback errorCallback =>
          by_cases same : other = direction
          · rw [same, FdEvent.call, (FdEvent.listen_same _ _ _ _ direction.trigger_data).2, callbackGiven, if_pos rfl,
              Option.some_or]
          · have kept := FdEvent.listen_other (afterCalls calls) other.trigger direction.trigger callback errorCallback
              other.trigger_data direction.trigger_data (Direction.trigger_injective other direction (Ne.symm same))
            rw [FdEvent.call, kept.2, ih, callbackGiven, if_neg same, Option.none_or]
      | cancle other => rw [FdEvent.call, FdEvent.cancle_handler, ih, callbackGiven, Option.none_or]

theorem FdEvent.listen_toggles (event : FdEvent κ) (eventType : TriggerEvent) (callback : κ) (errorCallback : Option κ) :
    (event.listen eventType callback errorCallback).errorCallback =
        (if event.errorCallback = none then errorCallback else none) ∧
      (event.listen eventType callback errorCallback).epollErr = (event.epollErr || event.errorCallback.isNone) := by
  by_cases input : eventType = .inEvent
  · cases held : event.errorCallback with
    | none => simp [FdEvent.listen, input, held]
    | some other => simp [FdEvent.listen, input, held]
  · cases held : event.errorCallback with
    | none => simp [FdEvent.listen, input, held]
    | some other => simp [FdEvent.listen, input, held]

theorem FdEvent.cancle_error (event : FdEvent κ) (eventType : TriggerEvent) :
    (event.cancle eventType).errorCallback = event.errorCallback ∧ (event.cancle eventType).epollErr = event.epollErr := by
  rw [FdEvent.cancle]
  split
  · exact ⟨rfl, rfl⟩
  · exact ⟨rfl, rfl⟩

theorem trailing_errors_some (errors : List (Option κ)) (error : κ) :
    trailingErrors (errors ++ [some error]) = trailingErrors errors + 1 := by
  rw [trailingErrors, List.reverse_append, List.reverse_singleton, List.singleton_append, List.takeWhile_cons_of_pos rfl,
    List.length_cons, trailingErrors]

theorem trailing_errors_none (errors : List (Option κ)) : trailingErrors (errors ++ [none]) = 0 := by
  rw [trailingErrors, List.reverse_append, List.reverse_singleton, List.singleton_append,
    List.takeWhile_cons_of_neg (by simp), List.length_nil]

theorem trailing_no_error (errors : List (Option κ)) (silent : NoError errors) : trailingErrors errors = 0 := by
  induction errors using List.reverseRecOn with
  | nil => rfl
  | append_singleton errors error _ =>
      rw [silent error (by simp)]
      exact trailing_errors_none errors

theorem no_error_none (errors : List (Option κ)) (silent : NoError errors) : NoError (errors ++ [none]) := by
  intro error member
  rcases List.mem_append.mp member with earlier | last
  · exact silent error earlier
  · exact List.mem_singleton.mp last

theorem silent_but_last (errors : List (Option κ)) (silent : NoError errors.dropLast) :
    NoError errors ∨ Odd (trailingErrors errors) := by
  cases errors using List.reverseRecOn with
  | nil => exact Or.inl silent
  | append_singleton errors error =>
      rw [List.dropLast_concat] at silent
      cases error with
      | none => exact Or.inl (no_error_none errors silent)
      | some error =>
          refine Or.inr ?_
          rw [trailing_errors_some, trailing_no_error errors silent]
          exact odd_one

-- Behind an error callback one more listen, of whichever kind, ends the agreement.
theorem silent_before_last (errors : List (Option κ)) (error : Option κ) (silent : NoError errors.dropLast)
    (follows : NoError (errors ++ [error]) ∨ Odd (trailingErrors (errors ++ [error]))) : NoError errors := by
  rcases follows with silentAll | odd
  · intro other member
    exact silentAll other (List.mem_append_left _ member)
  · cases errors using List.reverseRecOn with
    | nil => exact silent
    | append_singleton errors last =>
        rw [List.dropLast_concat] at silent
        cases error with
        | none =>
            rw [trailing_errors_none] at odd
            exact absurd odd (by decide)
        | some error =>
            cases last with
            | none => exact no_error_none errors silent
            | some last =>
                rw [trailing_errors_some, trailing_errors_some, trailing_no_error errors silent] at odd
                exact absurd odd (by decide)

theorem last_error_given (calls : List (FdEventCall κ)) :
    lastGiven errorGiven calls = ((errorArguments calls).filterMap id).getLast? := by
  rw [lastGiven, errorArguments, List.filterMap_filterMap]
  congr 2
  funext call
  cases call with
  | listen direction callback errorCallback => rfl
  | cancle direction => rfl

theorem last_error_none_iff (calls : List (FdEventCall κ)) :
    lastGiven errorGiven calls = none ↔ NoError (errorArguments calls) := by
  rw [last_error_given, List.getLast?_eq_none_iff, List.filterMap_eq_nil_iff]
  rfl

-- The cell is set by every listen that finds it empty and emptied by the others,
-- so it is full behind an odd number of error callbacks in a row.
theorem error_callback_toggles (calls : List (FdEventCall κ)) :
    (afterCalls calls).errorCallback =
      if trailingErrors (errorArguments calls) % 2 = 1 then lastGiven errorGiven calls else none := by
  induction calls using List.reverseRecOn with
  | nil => rfl
  | append_singleton calls call ih =>
      rw [after_calls_append, error_arguments_append, last_given_append]
      cases call with
      | cancle direction =>
          rw [FdEvent.call, (FdEvent.cancle_error _ _).1, ih, errorGiven, errorArgument, Option.none_or, Option.toList_none,
            List.append_nil]
      | listen direction callback errorCallback =>
          rw [FdEvent.call, (FdEvent.listen_toggles _ _ _ _).1, ih]
          cases errorCallback with
          | none => simp [errorArgument, trailing_errors_none]
          | some error =>
              rw [errorGiven, errorArgument, Option.toList_some, trailing_errors_some, Option.some_or]
              by_cases odd : trailingErrors (errorArguments calls) % 2 = 1
              · have given : lastGiven errorGiven calls ≠ none := by
                  intro silent
                  have zero := trailing_no_error _ ((last_error_none_iff calls).mp silent)
                  omega
                rw [if_pos odd, if_neg given, if_neg (by omega)]
              · rw [if_neg odd, if_pos rfl, if_pos (by omega)]

theorem epoll_err_follows (calls : List (FdEventCall κ)) (listened : errorArguments calls ≠ []) :
    (afterCalls calls).epollErr = true := by
  induction calls using List.reverseRecOn with
  | nil => exact absurd rfl listened
  | append_singleton calls call ih =>
      rw [error_arguments_append] at listened
      rw [after_calls_append]
      cases call with
      | cancle direction =>
          rw [errorArgument, Option.toList_none, List.append_nil] at listened
          rw [FdEvent.call, (FdEvent.cancle_error _ _).2]
          exact ih listened
      | listen direction callback errorCallback =>
          rw [FdEvent.call, (FdEvent.listen_toggles _ _ _ _).2]
          by_cases first : errorArguments calls = []
          · rw [error_callback_toggles, first]
            simp [trailingErrors]
          · rw [ih first]
            rfl

theorem error_handler_follows_iff (calls : List (FdEventCall κ)) :
    (afterCalls calls).errorCallback = lastGiven errorGiven calls ↔
      NoError (errorArguments calls) ∨ Odd (trailingErrors (errorArguments calls)) := by
  rw [error_callback_toggles, Nat.odd_iff, ← last_error_none_iff]
  by_cases odd : trailingErrors (errorArguments calls) % 2 = 1
  · simp [odd]
  · rw [if_neg odd, eq_comm]
    simp [odd]

theorem follows_calls_iff (calls : List (FdEventCall κ)) :
    FollowsCalls calls (afterCalls calls) ↔
      NoError (errorArguments calls) ∨ Odd (trailingErrors (errorArguments calls)) := by
  rw [← error_handler_follows_iff]
  constructor
  · intro follows
    exact follows.errorHandler
  · intro same
    exact ⟨mask_follows calls, handlers_follow calls, epoll_err_follows calls, same⟩

-- A listen behind one that gave an error callback drops it or keeps it out.
theorem follows_always_iff (calls : List (FdEventCall κ)) :
    (∀ done, done <+: calls → FollowsCalls done (afterCalls done)) ↔ NoError (errorArguments calls).dropLast := by
  induction calls using List.reverseRecOn with
  | nil =>
      simp only [List.prefix_nil, forall_eq, follows_calls_iff]
      simp [errorArguments, NoError]
  | append_singleton calls call ih =>
      have split : (∀ done, done <+: calls ++ [call] → FollowsCalls done (afterCalls done)) ↔
          (∀ done, done <+: calls → FollowsCalls done (afterCalls done)) ∧
            FollowsCalls (calls ++ [call]) (afterCalls (calls ++ [call])) := by
        simp only [List.prefix_concat_iff, or_imp, forall_and, forall_eq]
        exact and_comm
      rw [split, ih, follows_calls_iff, error_arguments_append]
      cases call with
      | cancle direction =>
          rw [errorArgument, Option.toList_none, List.append_nil]
          exact ⟨fun both => both.1, fun silent => ⟨silent, silent_but_last _ silent⟩⟩
      | listen direction callback errorCallback =>
          rw [errorArgument, Option.toList_some, List.dropLast_concat]
          constructor
          · rintro ⟨silent, follows⟩
            exact silent_before_last _ errorCallback silent follows
          · intro silent
            refine ⟨fun error member => silent error (List.dropLast_subset _ member), ?_⟩
            apply silent_but_last
            rwa [List.dropLast_concat]

theorem listen_history_iff (calls : List (FdEventCall κ)) :
    (FollowsCalls calls (afterCalls calls) ↔
        NoError (errorArguments calls) ∨ Odd (trailingErrors (errorArguments calls))) ∧
      ((∀ done, done <+: calls → FollowsCalls done (afterCalls done)) ↔ NoError (errorArguments calls).dropLast) :=
  ⟨follows_calls_iff calls, follows_always_iff calls⟩

-- The error callback of the read side does not survive the listen for writing.
theorem write_listen_drops_error :
    ¬ FollowsCalls [.listen .input 0 (some 2), .listen .output 1 none]
      (afterCalls [.listen .input 0 (some 2), .listen .output 1 none]) := by
  intro follows
  have dropped : (none : Option Nat) = some 2 := follows.errorHandler
  cases dropped

end Rocket
