import Rocket.Logger
import Rocket.Lib.Trace

set_option autoImplicit false

namespace Rocket

open Word32 Trace

inductive LogAction where
  | pushLog (msg : Bytes)
  | pushAppLog (msg : Bytes)
  | syncLoop
  | loop (channel : LogChannel) (date : Bytes) (tell : Int)
deriving DecidableEq, Repr

def logStep (logger : Logger) : LogAction → Option Logger
  | .pushLog msg => some (logger.pushLog msg)
  | .pushAppLog msg => some (logger.pushAppLog msg)
  | .syncLoop => some logger.syncLoop
  | .loop channel date tell => logger.loop channel date tell

def Logger.carried (logger : Logger) (channel : LogChannel) : List Bytes :=
  match logger.sync with
  | .carrying other tmp => if other = channel then tmp else []
  | _ => []

-- From the files back to the buffer of the logger.
def Logger.line (logger : Logger) (channel : LogChannel) : Bytes :=
  (logger.async channel).writtenText ++ (logger.async channel).waitingText ++ (logger.carried channel).flatten ++
    (logger.buffers channel).flatten

-- The message that an action pushes to a channel.
def pushedTo (channel : LogChannel) : LogAction → Option Bytes
  | .pushLog msg => if channel = .rpc then some msg else none
  | .pushAppLog msg => if channel = .app then some msg else none
  | .syncLoop => none
  | .loop _ _ _ => none

def pushedText (actions : List LogAction) (channel : LogChannel) : Bytes := (actions.filterMap (pushedTo channel)).flatten

structure LogKept (actions : List LogAction) (logger : Logger) : Prop where
  order : ∀ channel, logger.line channel = pushedText actions channel
  apart : ∀ rpc ∈ (logger.async .rpc).written, ∀ app ∈ (logger.async .app).written, rpc.1 ≠ app.1

structure LogInv (fileName filePath : Bytes) (actions : List LogAction) (logger : Logger) : Prop where
  type : logger.type = 1
  order : ∀ channel, logger.line channel = pushedText actions channel
  files : ∀ channel, FilesOk (logger.async channel)
  fileName : ∀ channel, (logger.async channel).fileName = fileName ++ channelSuffix channel
  filePath : ∀ channel, (logger.async channel).filePath = filePath

theorem log_inv_kept (fileName filePath : Bytes) (actions : List LogAction) (logger : Logger)
    (inv : LogInv fileName filePath actions logger) : LogKept actions logger := by
  refine ⟨inv.order, ?_⟩
  intro rpc rpcMember app appMember
  have rpcFile := (inv.files .rpc).written rpc rpcMember
  have appFile := (inv.files .app).written app appMember
  rw [inv.fileName, inv.filePath] at rpcFile appFile
  exact log_files_disjoint filePath fileName rpc.1 app.1 rpcFile appFile

theorem push_back_line (logger : Logger) (channel other : LogChannel) (msg : Bytes) :
    (logger.pushBack channel msg).line other = logger.line other ++ if other = channel then msg else [] := by
  have carried : (logger.pushBack channel msg).carried other = logger.carried other := rfl
  rw [Logger.line, Logger.line, carried]
  by_cases same : other = channel
  · subst same
    simp [Logger.pushBack]
  · simp [Logger.pushBack, same]

theorem pushed_text_append (actions : List LogAction) (action : LogAction) (channel : LogChannel) :
    pushedText (actions ++ [action]) channel = pushedText actions channel ++ (pushedTo channel action).getD [] := by
  rw [pushedText, List.filterMap_append, List.flatten_append, pushedText]
  cases pushed : pushedTo channel action with
  | none => simp [pushed]
  | some msg => simp [pushed]

theorem swap_buffers_line (logger : Logger) (channel other : LogChannel) (empty : logger.carried other = []) :
    (logger.swapBuffers channel).line other = logger.line other := by
  have carried : (logger.swapBuffers channel).carried other = if channel = other then logger.buffers channel else [] := rfl
  rw [Logger.line, Logger.line, carried, empty]
  by_cases same : other = channel
  · subst same
    simp [Logger.swapBuffers]
  · have different : ¬ channel = other := fun equal => same equal.symm
    simp [Logger.swapBuffers, same, different]

theorem behind_push_carried (logger : Logger) (channel other : LogChannel) :
    Logger.carried { logger with sync := behindPush channel } other = [] := by
  cases channel with
  | rpc => rfl
  | app => rfl

theorem carrying_line (logger : Logger) (channel other : LogChannel) (tmp : List Bytes)
    (carrying : logger.sync = .carrying channel tmp) :
    logger.line other = (logger.async other).writtenText ++ (logger.async other).waitingText ++
      (if channel = other then tmp.flatten else []) ++ (logger.buffers other).flatten := by
  have carried : logger.carried other = if channel = other then tmp else [] := by simp only [Logger.carried, carrying]
  rw [Logger.line, carried]
  by_cases same : channel = other
  · rw [if_pos same, if_pos same]
  · rw [if_neg same, if_neg same, List.flatten_nil]

theorem push_carried_line (logger : Logger) (channel other : LogChannel) (tmp : List Bytes)
    (carrying : logger.sync = .carrying channel tmp) (ok : FilesOk (logger.async channel)) :
    Logger.line { logger.modifyAsync channel ((logger.async channel).pushLogBuffer tmp) with sync := behindPush channel }
      other = logger.line other := by
  obtain ⟨_, _, waiting⟩ := push_log_buffer_spec (logger.async channel) tmp ok
  rw [carrying_line logger channel other tmp carrying, Logger.line, behind_push_carried, List.flatten_nil, List.append_nil]
  by_cases same : channel = other
  · subst same
    simp only [Logger.modifyAsync, Function.update_self, waiting, if_true, List.append_assoc]
    rfl
  · have different : other ≠ channel := fun equal => same equal.symm
    simp only [Logger.modifyAsync, Function.update_of_ne different, if_neg same, List.append_nil]

theorem sync_loop_line (logger : Logger) (other : LogChannel) (files : ∀ channel, FilesOk (logger.async channel)) :
    logger.syncLoop.line other = logger.line other := by
  cases sync : logger.sync with
  | idle =>
      simp only [Logger.syncLoop, sync]
      exact swap_buffers_line logger .rpc other (by simp only [Logger.carried, sync])
  | between =>
      simp only [Logger.syncLoop, sync]
      exact swap_buffers_line logger .app other (by simp only [Logger.carried, sync])
  | carrying channel tmp =>
      simp only [Logger.syncLoop, sync]
      by_cases empty : tmp = []
      · rw [if_pos empty, carrying_line logger channel other tmp sync, Logger.line, behind_push_carried, empty]
        simp
      · rw [if_neg empty]
        exact push_carried_line logger channel other tmp sync (files channel)

theorem sync_loop_async (logger : Logger) (other : LogChannel) :
    logger.syncLoop.async other = logger.async other ∨
      ∃ tmp, logger.syncLoop.async other = (logger.async other).pushLogBuffer tmp := by
  cases sync : logger.sync with
  | idle =>
      simp only [Logger.syncLoop, sync]
      exact Or.inl rfl
  | between =>
      simp only [Logger.syncLoop, sync]
      exact Or.inl rfl
  | carrying channel tmp =>
      simp only [Logger.syncLoop, sync]
      by_cases empty : tmp = []
      · rw [if_pos empty]
        exact Or.inl rfl
      · rw [if_neg empty]
        by_cases same : other = channel
        · subst same
          exact Or.inr ⟨tmp, Function.update_self _ _ _⟩
        · exact Or.inl (Function.update_of_ne same _ _)

theorem sync_loop_files (logger : Logger) (other : LogChannel) (ok : FilesOk (logger.async other)) :
    FilesOk (logger.syncLoop.async other) := by
  rcases sync_loop_async logger other with same | ⟨tmp, pushed⟩
  · rwa [same]
  · rw [pushed]
    exact (push_log_buffer_spec (logger.async other) tmp ok).1

theorem sync_loop_type (logger : Logger) : logger.syncLoop.type = logger.type := by
  cases sync : logger.sync with
  | idle =>
      simp only [Logger.syncLoop, sync]
      rfl
  | between =>
      simp only [Logger.syncLoop, sync]
      rfl
  | carrying channel tmp =>
      simp only [Logger.syncLoop, sync]
      split
      · rfl
      · rfl

theorem modify_async_self (logger : Logger) (channel : LogChannel) (later : AsyncLogger) :
    (logger.modifyAsync channel later).async channel = later :=
  Function.update_self _ _ _

theorem modify_async_other (logger : Logger) (channel other : LogChannel) (later : AsyncLogger) (different : other ≠ channel) :
    (logger.modifyAsync channel later).async other = logger.async other :=
  Function.update_of_ne different _ _

theorem modify_async_every (logger : Logger) (channel : LogChannel) (later : AsyncLogger)
    (property : LogChannel → AsyncLogger → Prop) (here : property channel later)
    (elsewhere : ∀ other, property other (logger.async other)) (other : LogChannel) :
    property other ((logger.modifyAsync channel later).async other) := by
  by_cases same : other = channel
  · subst same
    rwa [modify_async_self]
  · rw [modify_async_other logger channel other later same]
    exact elsewhere other

theorem modify_async_line (logger : Logger) (channel other : LogChannel) (later : AsyncLogger)
    (text : later.writtenText ++ later.waitingText =
      (logger.async channel).writtenText ++ (logger.async channel).waitingText) :
    (logger.modifyAsync channel later).line other = logger.line other := by
  have carried : (logger.modifyAsync channel later).carried other = logger.carried other := rfl
  have buffers : (logger.modifyAsync channel later).buffers other = logger.buffers other := rfl
  have same := modify_async_every logger channel later
    (fun other async => async.writtenText ++ async.waitingText =
      (logger.async other).writtenText ++ (logger.async other).waitingText) text (fun _ => rfl) other
  rw [Logger.line, Logger.line, carried, buffers, same]

theorem logger_loop_spec (logger : Logger) (channel : LogChannel) (date : Bytes) (tell : Int)
    (ok : FilesOk (logger.async channel)) :
    ∃ async, (logger.async channel).loop date tell = some async ∧ LoopMoves (logger.async channel) async ∧
      logger.loop channel date tell = some (logger.modifyAsync channel async) := by
  obtain ⟨async, stepped, moves⟩ := loop_spec (logger.async channel) date tell ok
  exact ⟨async, stepped, moves, by rw [Logger.loop, stepped, Option.map_some]⟩

section Steps

variable (fileName filePath : Bytes) (actions : List LogAction)

theorem push_back_inv (logger : Logger) (channel : LogChannel) (msg : Bytes) (action : LogAction)
    (pushes : ∀ other, pushedTo other action = if other = channel then some msg else none)
    (inv : LogInv fileName filePath actions logger) :
    LogInv fileName filePath (actions ++ [action]) (logger.pushBack channel msg) := by
  refine ⟨inv.type, ?_, inv.files, inv.fileName, inv.filePath⟩
  intro other
  rw [push_back_line, inv.order, pushed_text_append, pushes]
  split
  · rfl
  · rfl

-- An action that pushes nothing and moves text along the line.
theorem silent_inv (logger later : Logger) (action : LogAction) (silent : ∀ channel, pushedTo channel action = none)
    (type : later.type = logger.type) (line : ∀ channel, later.line channel = logger.line channel)
    (files : ∀ channel, FilesOk (later.async channel))
    (names : ∀ channel, (later.async channel).fileName = (logger.async channel).fileName ∧
      (later.async channel).filePath = (logger.async channel).filePath)
    (inv : LogInv fileName filePath actions logger) : LogInv fileName filePath (actions ++ [action]) later := by
  refine ⟨type.trans inv.type, fun channel => ?_, files, fun channel => ?_, fun channel => ?_⟩
  · rw [line, inv.order, pushed_text_append, silent, Option.getD_none, List.append_nil]
  · exact (names channel).1.trans (inv.fileName channel)
  · exact (names channel).2.trans (inv.filePath channel)

theorem sync_loop_inv (logger : Logger) (inv : LogInv fileName filePath actions logger) :
    LogInv fileName filePath (actions ++ [.syncLoop]) logger.syncLoop := by
  refine silent_inv fileName filePath actions logger _ .syncLoop (fun _ => rfl) (sync_loop_type logger)
    (fun channel => sync_loop_line logger channel inv.files) (fun channel => sync_loop_files logger channel (inv.files channel))
    ?_ inv
  intro channel
  rcases sync_loop_async logger channel with same | ⟨tmp, pushed⟩
  · rw [same]
    exact ⟨rfl, rfl⟩
  · rw [pushed]
    exact ⟨rfl, rfl⟩

theorem logger_loop_inv (logger : Logger) (channel : LogChannel) (date : Bytes) (tell : Int)
    (inv : LogInv fileName filePath actions logger) :
    ∃ later, logger.loop channel date tell = some later ∧
      LogInv fileName filePath (actions ++ [.loop channel date tell]) later := by
  obtain ⟨async, _, moves, stepped⟩ := logger_loop_spec logger channel date tell (inv.files channel)
  refine ⟨_, stepped, silent_inv fileName filePath actions logger _ _ (fun _ => rfl) rfl
    (fun other => modify_async_line logger channel other async moves.text)
    (modify_async_every logger channel async (fun _ async => FilesOk async) moves.files inv.files) ?_ inv⟩
  exact modify_async_every logger channel async
    (fun other async => async.fileName = (logger.async other).fileName ∧ async.filePath = (logger.async other).filePath)
    ⟨moves.fileName, moves.filePath⟩ (fun _ => ⟨rfl, rfl⟩)

theorem log_step_keeps (logger : Logger) (action : LogAction) (inv : LogInv fileName filePath actions logger) :
    ∃ later, logStep logger action = some later ∧ LogInv fileName filePath (actions ++ [action]) later := by
  cases action with
  | pushLog msg =>
      have buffered : ¬ logger.type = 0 := by simp [inv.type]
      refine ⟨logger.pushLog msg, rfl, ?_⟩
      rw [Logger.pushLog, if_neg buffered]
      exact push_back_inv fileName filePath actions logger .rpc msg _ (fun _ => rfl) inv
  | pushAppLog msg => exact ⟨_, rfl, push_back_inv fileName filePath actions logger .app msg _ (fun _ => rfl) inv⟩
  | syncLoop => exact ⟨_, rfl, sync_loop_inv fileName filePath actions logger inv⟩
  | loop channel date tell => exact logger_loop_inv fileName filePath actions logger channel date tell inv

-- Every list of actions is an interleaving, and so is each of its prefixes.
theorem log_lines_kept (maxFileSize : Int) :
    ∃ logger, run logStep (newLogger fileName filePath maxFileSize) actions = some logger ∧ LogKept actions logger := by
  have start : LogInv fileName filePath [] (newLogger fileName filePath maxFileSize) := by
    refine ⟨rfl, fun _ => rfl, fun channel => ⟨?_, ?_, ?_⟩, fun _ => rfl, fun _ => rfl⟩
    · intro file opened
      cases opened
    · intro rest writing
      cases writing
    · intro entry member
      cases member
  obtain ⟨logger, reached, inv⟩ := run_history logStep (LogInv fileName filePath)
    (fun done logger action inv => log_step_keeps fileName filePath done logger action inv) _ [] actions start
  exact ⟨logger, reached, log_inv_kept fileName filePath actions logger inv⟩

end Steps

end Rocket
