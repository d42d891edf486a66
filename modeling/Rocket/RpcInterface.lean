import Rocket.RpcController
import Rocket.Lib.Ownership
import Rocket.Lib.Trace

set_option autoImplicit false

namespace Rocket

open Word32 Trace Ownership

-- How run() or a callback comes back. BusinessException is a RocketException
-- whose handle() does nothing; another subclass may throw from its handle().
inductive Outcome where
  | returned
  | businessException (errorCode : Int) (errorInfo : Bytes)
  | rocketException (errorCode : Int) (errorInfo : Bytes) (handleThrows : Bool)
  | stdException
  | unknownException
deriving DecidableEq, Repr

inductive Effect where
  | runDone
  | deleteReq
  | deleteRsp
  | deleteDone
  | deleteController
deriving DecidableEq, Repr

-- useCount is the strong count of the shared_ptr control block. Of the four
-- pointers only their being null matters; effects is a log.
structure RpcInterface where
  useCount : Nat := 1
  req : Bool := true
  rsp : Bool := true
  done : Bool := true
  controller : Bool := true
  retCode : Int := 0
  resInfo : Bytes := []
  effects : List Effect := []
deriving DecidableEq, Repr

def RpcInterface.reply (interface : RpcInterface) : RpcInterface :=
  if interface.done = true then { interface with effects := interface.effects ++ [.runDone] } else interface

def RpcInterface.destroy (interface : RpcInterface) : RpcInterface :=
  let interface := if interface.req = true then
      { interface with req := false, effects := interface.effects ++ [.deleteReq] } else interface
  let interface := if interface.rsp = true then
      { interface with rsp := false, effects := interface.effects ++ [.deleteRsp] } else interface
  let interface := if interface.done = true then
      { interface with done := false, effects := interface.effects ++ [.deleteDone] } else interface
  if interface.controller = true then
    { interface with controller := false, effects := interface.effects ++ [.deleteController] }
  else interface

-- The last shared_ptr runs ~RpcInterface. An interface without references does
-- not exist any more: there is nothing to release, to share or to write.
def RpcInterface.reset (interface : RpcInterface) : Option RpcInterface :=
  match interface.useCount with
  | 0 => none
  | 1 => some (RpcInterface.destroy (RpcInterface.reply { interface with useCount := 0 }))
  | others + 1 => some { interface with useCount := others }

def RpcInterface.sharedFromThis (interface : RpcInterface) : Option RpcInterface :=
  if interface.useCount = 0 then none else some { interface with useCount := interface.useCount + 1 }

def RpcInterface.setError (interface : RpcInterface) (errCode : Int) (errInfo : Bytes) : Option RpcInterface :=
  if interface.useCount = 0 then none else some { interface with retCode := errCode, resInfo := errInfo }

-- threw: Run was left by an exception of handle() and still has its interface.
inductive RpcClosure where
  | created
  | running
  | threw
  | ran
  | dropped
deriving DecidableEq, Repr

def RpcClosure.interface : RpcClosure → Bool
  | .created => true
  | .running => true
  | .threw => true
  | .ran => false
  | .dropped => false

-- One expansion of CALL_RPC_INTERFACE: impl is alive while run() executes.
structure Handling where
  interface : RpcInterface
  impl : Bool
  closures : List RpcClosure
deriving DecidableEq, Repr

def callRpcInterface : Handling := ⟨{ retCode := 0, resInfo := text "OK" }, true, []⟩

def catchRun (interface : RpcInterface) : Outcome → Option RpcInterface
  | .returned => some interface
  | .businessException errorCode errorInfo => interface.setError errorCode errorInfo
  | .rocketException _ _ _ => interface.setError (-1) (text "Unknown RocketException")
  | .stdException => interface.setError (-1) (text "Unknown std::exception")
  | .unknownException => interface.setError (-1) (text "Unknown exception")

def catchCallback (interface : RpcInterface) : Outcome → Option (RpcInterface × RpcClosure)
  | .returned => (interface.reset).map fun later => (later, .ran)
  | .businessException errorCode errorInfo =>
      ((interface.setError errorCode errorInfo).bind RpcInterface.reset).map fun later => (later, .ran)
  | .rocketException errorCode errorInfo handleThrows =>
      if handleThrows = true then some (interface, .threw)
      else ((interface.setError errorCode errorInfo).bind RpcInterface.reset).map fun later => (later, .ran)
  | .stdException =>
      ((interface.setError (-1) (text "unkonwn std::exception")).bind RpcInterface.reset).map fun later => (later, .ran)
  | .unknownException =>
      ((interface.setError (-1) (text "unkonwn exception")).bind RpcInterface.reset).map fun later => (later, .ran)

-- newRpcClosure is called by run() or by the callback of a closure.
inductive HandlingAction where
  | newRpcClosure (callback : Option Nat)
  | endRun (outcome : Outcome)
  | run (index : Nat)
  | endCallback (index : Nat) (outcome : Outcome)
  | drop (index : Nat)
deriving DecidableEq, Repr

def mayCreate (handling : Handling) : Option Nat → Bool
  | none => handling.impl
  | some index => handling.closures[index]? = some .running

def handlingStep (handling : Handling) : HandlingAction → Option Handling
  | .newRpcClosure callback =>
      if mayCreate handling callback = true then
        (handling.interface.sharedFromThis).map fun interface =>
          { handling with interface := interface, closures := handling.closures ++ [.created] }
      else some handling
  | .endRun outcome =>
      if handling.impl = true then
        ((catchRun handling.interface outcome).bind RpcInterface.reset).map fun interface =>
          { handling with interface := interface, impl := false }
      else some handling
  | .run index =>
      if handling.closures[index]? = some .created ∨ handling.closures[index]? = some .threw then
        some { handling with closures := handling.closures.set index .running }
      else some handling
  | .endCallback index outcome =>
      if handling.closures[index]? = some .running then
        (catchCallback handling.interface outcome).map fun (interface, closure) =>
          { handling with interface := interface, closures := handling.closures.set index closure }
      else some handling
  | .drop index =>
      if handling.closures[index]? = some .created ∨ handling.closures[index]? = some .threw then
        (handling.interface.reset).map fun interface =>
          { handling with interface := interface, closures := handling.closures.set index .dropped }
      else some handling

-- The same actions as the user code knows them: whether run() executes, and what
-- it has done with each closure it was given. The interface plays no part in it.
structure UserCode where
  running : Bool := true
  closures : List RpcClosure := []
deriving DecidableEq, Repr

def endOfCallback : Outcome → RpcClosure
  | .rocketException _ _ true => .threw
  | _ => .ran

def userStep (user : UserCode) : HandlingAction → UserCode
  | .newRpcClosure none => if user.running = true then { user with closures := user.closures ++ [.created] } else user
  | .newRpcClosure (some index) =>
      if user.closures[index]? = some .running then { user with closures := user.closures ++ [.created] } else user
  | .endRun _ => { user with running := false }
  | .run index =>
      if user.closures[index]? = some .created ∨ user.closures[index]? = some .threw then
        { user with closures := user.closures.set index .running }
      else user
  | .endCallback index outcome =>
      if user.closures[index]? = some .running then
        { user with closures := user.closures.set index (endOfCallback outcome) }
      else user
  | .drop index =>
      if user.closures[index]? = some .created ∨ user.closures[index]? = some .threw then
        { user with closures := user.closures.set index .dropped }
      else user

-- run() has ended, and every closure has been run or dropped.
def Finished (user : UserCode) : Prop :=
  user.running = false ∧ ∀ closure ∈ user.closures, closure = .ran ∨ closure = .dropped

def released : List Effect := [.runDone, .deleteReq, .deleteRsp, .deleteDone, .deleteController]

structure RepliedOnce (user : UserCode) (interface : RpcInterface) : Prop where
  pending : ¬ Finished user → interface.effects = []
  finished : Finished user → interface.effects = released

structure Intact (interface : RpcInterface) : Prop where
  req : interface.req = true
  rsp : interface.rsp = true
  done : interface.done = true
  controller : interface.controller = true
  effects : interface.effects = []

structure Counted (interface : RpcInterface) (owners : Nat) : Prop where
  count : interface.useCount = owners
  alive : owners ≠ 0 → Intact interface
  gone : owners = 0 → interface.effects = released

theorem destroy_reply_spec (interface : RpcInterface) (intact : Intact interface) :
    (interface.reply.destroy).effects = released ∧ (interface.reply.destroy).useCount = interface.useCount := by
  simp only [RpcInterface.reply, RpcInterface.destroy, intact.req, intact.rsp, intact.done, intact.controller,
    intact.effects, if_true, and_true]
  rfl

theorem reset_counted (interface : RpcInterface) (owners : Nat) (counted : Counted interface (owners + 1)) :
    ∃ later, interface.reset = some later ∧ Counted later owners := by
  have intact := counted.alive (Nat.succ_ne_zero owners)
  cases owners with
  | zero =>
      have emptied : Intact { interface with useCount := 0 } :=
        ⟨intact.req, intact.rsp, intact.done, intact.controller, intact.effects⟩
      obtain ⟨effects, count⟩ := destroy_reply_spec _ emptied
      refine ⟨_, by simp only [RpcInterface.reset, counted.count], count, ?_, fun _ => effects⟩
      intro wrong
      exact absurd rfl wrong
  | succ others =>
      refine ⟨{ interface with useCount := others + 1 }, by simp only [RpcInterface.reset, counted.count], rfl, ?_, ?_⟩
      · intro _
        exact ⟨intact.req, intact.rsp, intact.done, intact.controller, intact.effects⟩
      · intro wrong
        exact absurd wrong (Nat.succ_ne_zero others)

theorem counted_held (interface : RpcInterface) (owners : Nat) (counted : Counted interface (owners + 1)) :
    interface.useCount ≠ 0 := by
  rw [counted.count]
  exact Nat.succ_ne_zero owners

theorem shared_from_this_counted (interface : RpcInterface) (owners : Nat) (counted : Counted interface (owners + 1)) :
    ∃ later, interface.sharedFromThis = some later ∧ Counted later (owners + 2) := by
  have intact := counted.alive (Nat.succ_ne_zero owners)
  refine ⟨_, if_neg (counted_held interface owners counted), by simp only [counted.count], ?_, ?_⟩
  · intro _
    exact ⟨intact.req, intact.rsp, intact.done, intact.controller, intact.effects⟩
  · intro wrong
    exact absurd wrong (Nat.succ_ne_zero _)

theorem set_error_counted (interface : RpcInterface) (owners : Nat) (errCode : Int) (errInfo : Bytes)
    (counted : Counted interface (owners + 1)) :
    ∃ later, interface.setError errCode errInfo = some later ∧ Counted later (owners + 1) := by
  have intact := counted.alive (Nat.succ_ne_zero owners)
  refine ⟨_, if_neg (counted_held interface owners counted), counted.count, ?_, ?_⟩
  · intro _
    exact ⟨intact.req, intact.rsp, intact.done, intact.controller, intact.effects⟩
  · intro wrong
    exact absurd wrong (Nat.succ_ne_zero owners)

theorem set_error_reset_counted (interface : RpcInterface) (owners : Nat) (errCode : Int) (errInfo : Bytes)
    (counted : Counted interface (owners + 1)) :
    ∃ later, (interface.setError errCode errInfo).bind RpcInterface.reset = some later ∧ Counted later owners := by
  obtain ⟨middle, written, kept⟩ := set_error_counted interface owners errCode errInfo counted
  obtain ⟨later, released, left⟩ := reset_counted middle owners kept
  exact ⟨later, by rw [written, Option.bind_some, released], left⟩

theorem catch_run_counted (interface : RpcInterface) (owners : Nat) (outcome : Outcome)
    (counted : Counted interface (owners + 1)) :
    ∃ later, (catchRun interface outcome).bind RpcInterface.reset = some later ∧ Counted later owners := by
  cases outcome with
  | returned => exact reset_counted interface owners counted
  | businessException errorCode errorInfo => exact set_error_reset_counted interface owners _ _ counted
  | rocketException errorCode errorInfo handleThrows => exact set_error_reset_counted interface owners _ _ counted
  | stdException => exact set_error_reset_counted interface owners _ _ counted
  | unknownException => exact set_error_reset_counted interface owners _ _ counted

theorem catch_callback_counted (interface : RpcInterface) (owners : Nat) (outcome : Outcome)
    (counted : Counted interface (owners + 1)) :
    ∃ later, catchCallback interface outcome = some (later, endOfCallback outcome) ∧
      Counted later (owners + (endOfCallback outcome).interface.toNat) := by
  have reported (errCode : Int) (errInfo : Bytes) :
      ∃ later, ((interface.setError errCode errInfo).bind RpcInterface.reset).map
          (fun later => (later, RpcClosure.ran)) = some (later, .ran) ∧ Counted later owners := by
    obtain ⟨later, left, kept⟩ := set_error_reset_counted interface owners errCode errInfo counted
    exact ⟨later, by rw [left, Option.map_some], kept⟩
  cases outcome with
  | returned =>
      obtain ⟨later, left, kept⟩ := reset_counted interface owners counted
      refine ⟨later, ?_, kept⟩
      rw [catchCallback, left]
      rfl
  | businessException errorCode errorInfo => exact reported errorCode errorInfo
  | rocketException errorCode errorInfo handleThrows =>
      cases handleThrows with
      | true => exact ⟨interface, rfl, counted⟩
      | false => exact reported errorCode errorInfo
  | stdException => exact reported _ _
  | unknownException => exact reported _ _

def HandlingInv (handling : Handling) : Prop :=
  Counted handling.interface (references RpcClosure.interface handling.impl handling.closures)

-- What the user code can see of a handling.
def Handling.user (handling : Handling) : UserCode := ⟨handling.impl, handling.closures⟩

theorem finished_references (handling : Handling) :
    Finished handling.user ↔ references RpcClosure.interface handling.impl handling.closures = 0 := by
  rw [Finished, references_none]
  refine and_congr_right (fun _ => forall₂_congr (fun closure _ => ?_))
  cases closure with
  | created => simp [RpcClosure.interface]
  | running => simp [RpcClosure.interface]
  | threw => simp [RpcClosure.interface]
  | ran => simp [RpcClosure.interface]
  | dropped => simp [RpcClosure.interface]

theorem handling_inv_replied_once (handling : Handling) (inv : HandlingInv handling) :
    RepliedOnce handling.user handling.interface := by
  constructor
  · intro pending
    exact (inv.alive (fun none => pending ((finished_references handling).mpr none))).effects
  · intro finished
    exact inv.gone ((finished_references handling).mp finished)

-- A step that moves the closure at index on and gives up, or keeps, its handle.
theorem handling_inv_replace (handling : Handling) (interface : RpcInterface) (index : Nat) (old fresh : RpcClosure)
    (owners : Nat) (access : handling.closures[index]? = some old) (held : old.interface = true)
    (before : references RpcClosure.interface handling.impl handling.closures = owners + 1)
    (counted : Counted interface (owners + fresh.interface.toNat)) :
    HandlingInv { handling with interface := interface, closures := handling.closures.set index fresh } := by
  have balance := references_replace RpcClosure.interface handling.impl handling.closures index old fresh access
  rw [held, before, Bool.toNat_true] at balance
  have total : references RpcClosure.interface handling.impl (handling.closures.set index fresh) =
      owners + fresh.interface.toNat := by omega
  rw [HandlingInv, total]
  exact counted

theorem handling_inv_run (handling : Handling) (index : Nat) (old : RpcClosure) (inv : HandlingInv handling)
    (access : handling.closures[index]? = some old) (held : old.interface = true) :
    HandlingInv { handling with closures := handling.closures.set index .running } := by
  obtain ⟨owners, before⟩ := references_held RpcClosure.interface handling.impl handling.closures index old access held
  rw [HandlingInv, before] at inv
  exact handling_inv_replace handling handling.interface index old .running owners access held before inv

theorem handling_inv_drop (handling : Handling) (index : Nat) (old : RpcClosure) (inv : HandlingInv handling)
    (access : handling.closures[index]? = some old) (held : old.interface = true) :
    ∃ later, (handling.interface.reset).map (fun interface =>
        { handling with interface := interface, closures := handling.closures.set index .dropped }) = some later ∧
      HandlingInv later ∧ later.user = ⟨handling.impl, handling.closures.set index .dropped⟩ := by
  obtain ⟨owners, before⟩ := references_held RpcClosure.interface handling.impl handling.closures index old access held
  rw [HandlingInv, before] at inv
  obtain ⟨interface, left, counted⟩ := reset_counted handling.interface owners inv
  exact ⟨_, by rw [left, Option.map_some],
    handling_inv_replace handling interface index old .dropped owners access held before counted, rfl⟩

theorem may_create_held (handling : Handling) (callback : Option Nat) (allowed : mayCreate handling callback = true) :
    ∃ owners, references RpcClosure.interface handling.impl handling.closures = owners + 1 := by
  cases callback with
  | none =>
      have alive : handling.impl = true := allowed
      exact ⟨_, by rw [alive, references_temporary]⟩
  | some index => exact references_held _ _ _ index .running (of_decide_eq_true allowed) rfl

theorem may_create_user (handling : Handling) (callback : Option Nat) :
    userStep handling.user (.newRpcClosure callback) =
      if mayCreate handling callback = true then ⟨handling.impl, handling.closures ++ [.created]⟩ else handling.user := by
  cases callback with
  | none => rfl
  | some index =>
      by_cases running : handling.closures[index]? = some .running
      · exact (if_pos running).trans (if_pos (decide_eq_true running)).symm
      · exact (if_neg running).trans (if_neg (fun wrong => running (of_decide_eq_true wrong))).symm

theorem handling_step_keeps (handling : Handling) (action : HandlingAction) (inv : HandlingInv handling) :
    ∃ later, handlingStep handling action = some later ∧ HandlingInv later ∧
      later.user = userStep handling.user action := by
  cases action with
  | newRpcClosure callback =>
      rw [may_create_user]
      by_cases allowed : mayCreate handling callback = true
      · obtain ⟨owners, before⟩ := may_create_held handling callback allowed
        rw [HandlingInv, before] at inv
        obtain ⟨interface, shared, counted⟩ := shared_from_this_counted handling.interface owners inv
        refine ⟨_, by rw [handlingStep, if_pos allowed, shared, Option.map_some], ?_, (if_pos allowed).symm⟩
        rw [HandlingInv, references_append, before]
        exact counted
      · exact ⟨handling, if_neg allowed, inv, (if_neg allowed).symm⟩
  | endRun outcome =>
      by_cases alive : handling.impl = true
      · have before : references RpcClosure.interface handling.impl handling.closures =
            references RpcClosure.interface false handling.closures + 1 := by
          rw [alive, references_temporary]
        rw [HandlingInv, before] at inv
        obtain ⟨interface, left, counted⟩ := catch_run_counted handling.interface _ outcome inv
        exact ⟨{ handling with interface := interface, impl := false },
          by rw [handlingStep, if_pos alive, left, Option.map_some], counted, rfl⟩
      · have ended : handling.impl = false := by simpa using alive
        exact ⟨handling, if_neg alive, inv, by rw [userStep, Handling.user, ended]⟩
  | run index =>
      by_cases waiting : handling.closures[index]? = some .created ∨ handling.closures[index]? = some .threw
      · refine ⟨_, if_pos waiting, ?_, (if_pos waiting).symm⟩
        rcases waiting with created | threw
        · exact handling_inv_run handling index .created inv created rfl
        · exact handling_inv_run handling index .threw inv threw rfl
      · exact ⟨handling, if_neg waiting, inv, (if_neg waiting).symm⟩
  | endCallback index outcome =>
      by_cases running : handling.closures[index]? = some .running
      · obtain ⟨owners, before⟩ :=
          references_held RpcClosure.interface handling.impl handling.closures index _ running rfl
        rw [HandlingInv, before] at inv
        obtain ⟨interface, ended, counted⟩ := catch_callback_counted handling.interface owners outcome inv
        exact ⟨_, by rw [handlingStep, if_pos running, ended, Option.map_some],
          handling_inv_replace handling interface index .running _ owners running rfl before counted, (if_pos running).symm⟩
      · exact ⟨handling, if_neg running, inv, (if_neg running).symm⟩
  | drop index =>
      by_cases waiting : handling.closures[index]? = some .created ∨ handling.closures[index]? = some .threw
      · have dropped : userStep handling.user (.drop index) = ⟨handling.impl, handling.closures.set index .dropped⟩ :=
          if_pos waiting
        rw [handlingStep, if_pos waiting, dropped]
        rcases waiting with created | threw
        · exact handling_inv_drop handling index .created inv created rfl
        · exact handling_inv_drop handling index .threw inv threw rfl
      · exact ⟨handling, if_neg waiting, inv, (if_neg waiting).symm⟩

-- Every list of actions is a run, and so is each of its prefixes.
theorem replied_once (actions : List HandlingAction) :
    ∃ handling, run handlingStep callRpcInterface actions = some handling ∧
      RepliedOnce (actions.foldl userStep {}) handling.interface := by
  have start : HandlingInv callRpcInterface ∧ callRpcInterface.user = [].foldl userStep {} :=
    ⟨⟨rfl, fun _ => ⟨rfl, rfl, rfl, rfl, rfl⟩, fun wrong => nomatch wrong⟩, rfl⟩
  obtain ⟨handling, reached, inv, same⟩ := run_history handlingStep
    (fun done handling => HandlingInv handling ∧ handling.user = done.foldl userStep {}) (by
      intro done handling action held
      obtain ⟨later, taken, kept, follows⟩ := handling_step_keeps handling action held.1
      exact ⟨later, taken, kept, by rw [follows, held.2, List.foldl_append, List.foldl_cons, List.foldl_nil]⟩)
    callRpcInterface [] actions start
  exact ⟨handling, reached, same ▸ handling_inv_replied_once handling inv⟩

-- Two closures, of which the second is made by the callback of the first one.
def nestedCallbacks : List HandlingAction :=
  [.newRpcClosure none, .endRun .stdException, .run 0, .newRpcClosure (some 0), .endCallback 0 .returned, .drop 1]

example : (run handlingStep callRpcInterface nestedCallbacks).map (fun handling => handling.interface.effects) =
      some released ∧
    (run handlingStep callRpcInterface nestedCallbacks.dropLast).map (fun handling => handling.interface.effects) = some [] := by
  decide

end Rocket
