import Rocket.LogOrder

set_option autoImplicit false

namespace Rocket

open Word32 Trace

-- Logger::flush: the four critical sections of its syncLoop, then stop and
-- flush of the one and of the other AsyncLogger.
inductive FlushPhase where
  | syncing
  | stopping (channel : LogChannel)
  | flushing (channel : LogChannel)
  | done
deriving DecidableEq, Repr

structure Shutdown where
  logger : Logger
  phase : FlushPhase := .syncing

inductive ShutdownAction where
  | flush
  | loop (channel : LogChannel) (date : Bytes) (tell : Int)
deriving DecidableEq, Repr

def behindFlush : LogChannel → FlushPhase
  | .rpc => .stopping .app
  | .app => .done

-- fflush of the open file changes nothing that is modelled.
def Shutdown.flush (shutdown : Shutdown) : Shutdown :=
  match shutdown.phase with
  | .syncing =>
      { logger := shutdown.logger.syncLoop
        phase := if shutdown.logger.syncLoop.sync = .idle then .stopping .rpc else .syncing }
  | .stopping channel =>
      { logger := shutdown.logger.modifyAsync channel (shutdown.logger.async channel).stop
        phase := .flushing channel }
  | .flushing channel => { shutdown with phase := behindFlush channel }
  | .done => shutdown

def shutdownStep (shutdown : Shutdown) : ShutdownAction → Option Shutdown
  | .flush => some shutdown.flush
  | .loop channel date tell =>
      (shutdown.logger.loop channel date tell).map fun logger => { shutdown with logger := logger }

-- The batch in the hands of the writer, and those behind it.
def AsyncLogger.unfinished (logger : AsyncLogger) : List (List Bytes) :=
  match logger.phase with
  | .popped tmp => tmp :: logger.buffers
  | .writing rest => rest :: logger.buffers
  | _ => logger.buffers

def OneLeft (logger : AsyncLogger) : Prop :=
  match logger.unfinished with
  | [] => False
  | _ :: others => others.flatten.flatten = []

instance (logger : AsyncLogger) : Decidable (OneLeft logger) := by
  unfold OneLeft
  split <;> infer_instance

-- When stop sets the flag, there is a batch for the writer to finish, and no
-- text behind it.
def StopGuard (shutdown : Shutdown) : ShutdownAction → Prop
  | .flush =>
      match shutdown.phase with
      | .stopping channel => OneLeft (shutdown.logger.async channel)
      | _ => True
  | .loop _ _ _ => True

instance (shutdown : Shutdown) (action : ShutdownAction) : Decidable (StopGuard shutdown action) := by
  unfold StopGuard
  split
  · split <;> infer_instance
  · infer_instance

structure WriterOk (logger : AsyncLogger) : Prop where
  files : FilesOk logger
  running : logger.stopFlag = false
  started : logger.phase ≠ .returned
  asleep : logger.phase = .waiting → logger.buffers = []

-- A logger outside syncLoop, before any stop.
structure ShutdownStart (logger : Logger) : Prop where
  writers : ∀ channel, WriterOk (logger.async channel)
  sync : logger.sync = .idle

def Stuck (shutdown : Shutdown) : Prop := ∀ action, shutdownStep shutdown action = some shutdown

def AllWritten (start : Logger) (shutdown : Shutdown) : Prop :=
  ∀ channel, (shutdown.logger.async channel).phase = .returned ∧
    (shutdown.logger.async channel).writtenText = start.line channel

-- A writer that finishes in time: once it is stopped, no step of its changes this.
def Finishes (logger : AsyncLogger) : Prop :=
  if logger.phase = .returned then logger.buffers.flatten.flatten = [] else OneLeft logger

def stopped : FlushPhase → LogChannel → Bool
  | .syncing, _ => false
  | .stopping .rpc, _ => false
  | .flushing .rpc, channel => channel = .rpc
  | .stopping .app, channel => channel = .rpc
  | .flushing .app, _ => true
  | .done, _ => true

def swapped : FlushPhase → SyncPhase → LogChannel → Bool
  | .syncing, .idle, _ => false
  | .syncing, .carrying .rpc _, channel => channel = .rpc
  | .syncing, .between, channel => channel = .rpc
  | _, _, _ => true

structure ShutdownInv (start : Logger) (shutdown : Shutdown) : Prop where
  line : ∀ channel, shutdown.logger.line channel = start.line channel
  files : ∀ channel, FilesOk (shutdown.logger.async channel)
  stopFlag : ∀ channel, (shutdown.logger.async channel).stopFlag = stopped shutdown.phase channel
  returned : ∀ channel, (shutdown.logger.async channel).phase = .returned → (shutdown.logger.async channel).stopFlag = true
  sync : shutdown.phase ≠ .syncing → shutdown.logger.sync = .idle
  swapped : ∀ channel, swapped shutdown.phase shutdown.logger.sync channel = true → shutdown.logger.buffers channel = []

theorem swapped_started (phase : FlushPhase) (sync : SyncPhase) (channel : LogChannel) (started : phase ≠ .syncing) :
    swapped phase sync channel = true := by
  cases phase with
  | syncing => exact absurd rfl started
  | stopping channel => rfl
  | flushing channel => rfl
  | done => rfl

theorem push_log_buffer_writer (logger : AsyncLogger) (tmp : List Bytes) (ok : WriterOk logger) :
    WriterOk (logger.pushLogBuffer tmp) := by
  refine ⟨(push_log_buffer_spec logger tmp ok.files).1, ok.running, ?_, ?_⟩
  · simp only [AsyncLogger.pushLogBuffer]
    split
    · intro wrong
      cases wrong
    · exact ok.started
  · intro waiting
    simp only [AsyncLogger.pushLogBuffer] at waiting
    split at waiting
    · cases waiting
    · exact absurd waiting (by assumption)

theorem loop_writer (logger later : AsyncLogger) (moves : LoopMoves logger later) (ok : WriterOk logger) : WriterOk later := by
  refine ⟨moves.files, moves.stopFlag.trans ok.running, ?_, moves.asleep⟩
  intro returned
  rcases moves.returned returned with before | stopFlag
  · exact ok.started before
  · rw [ok.running] at stopFlag
    cases stopFlag

theorem new_logger_writers (fileName filePath : Bytes) (maxFileSize : Int) (channel : LogChannel) :
    WriterOk ((newLogger fileName filePath maxFileSize).async channel) := by
  refine ⟨⟨?_, ?_, ?_⟩, rfl, (fun wrong => nomatch wrong), fun _ => rfl⟩
  · intro file opened
    cases opened
  · intro rest writing
    cases writing
  · intro entry member
    cases member

-- flush starts in such a state, whatever was logged before it.
theorem shutdown_start_reached (fileName filePath : Bytes) (maxFileSize : Int) (actions : List LogAction) :
    Always logStep (fun logger => logger.sync = .idle → ShutdownStart logger) (newLogger fileName filePath maxFileSize)
      actions := by
  refine free_always logStep (fun logger => ∀ channel, WriterOk (logger.async channel)) _
    (fun logger writers idle => ⟨writers, idle⟩) ?_ _ actions ?_
  · intro logger action writers
    cases action with
    | pushLog msg =>
        refine ⟨logger.pushLog msg, rfl, ?_⟩
        rw [Logger.pushLog]
        split
        · exact writers
        · exact writers
    | pushAppLog msg => exact ⟨_, rfl, writers⟩
    | syncLoop =>
        refine ⟨_, rfl, fun channel => ?_⟩
        rcases sync_loop_async logger channel with same | ⟨tmp, pushed⟩
        · rw [same]
          exact writers channel
        · rw [pushed]
          exact push_log_buffer_writer _ tmp (writers channel)
    | loop channel date tell =>
        obtain ⟨async, _, moves, looped⟩ := logger_loop_spec logger channel date tell (writers channel).files
        exact ⟨_, looped, modify_async_every logger channel async (fun _ async => WriterOk async)
          (loop_writer _ async moves (writers channel)) writers⟩
  · exact new_logger_writers fileName filePath maxFileSize

theorem stopped_stop (channel other : LogChannel) :
    stopped (.flushing channel) other = if other = channel then true else stopped (.stopping channel) other := by
  cases channel with
  | rpc => cases other with
    | rpc => rfl
    | app => rfl
  | app => cases other with
    | rpc => rfl
    | app => rfl

theorem stopped_flush (channel other : LogChannel) :
    stopped (behindFlush channel) other = stopped (.flushing channel) other := by
  cases channel with
  | rpc => cases other with
    | rpc => rfl
    | app => rfl
  | app => rfl

theorem one_left_finishes (logger later : AsyncLogger) (before : logger.phase ≠ .returned) (after : later.phase ≠ .returned)
    (same : OneLeft later ↔ OneLeft logger) : Finishes later ↔ Finishes logger := by
  rw [Finishes, Finishes, if_neg before, if_neg after]
  exact same

theorem take_batch_finishes (logger later : AsyncLogger) (date : Bytes) (tell : Int)
    (outside : logger.phase = .checking ∨ logger.phase = .waiting) (stepped : logger.loop date tell = some later) :
    Finishes later ↔ Finishes logger := by
  have unfinished : logger.unfinished = logger.buffers := by
    rcases outside with checking | waiting
    · simp only [AsyncLogger.unfinished, checking]
    · simp only [AsyncLogger.unfinished, waiting]
  have before : logger.phase ≠ .returned := by
    rcases outside with checking | waiting
    · simp [checking]
    · simp [waiting]
  cases queue : logger.buffers with
  | nil =>
      cases (loop_no_batch logger date tell outside queue).symm.trans stepped
      refine one_left_finishes logger _ before (by simp) ?_
      rw [OneLeft, OneLeft, unfinished, queue]
      rfl
  | cons tmp rest =>
      cases (loop_takes_batch logger date tell tmp rest outside queue).symm.trans stepped
      refine one_left_finishes logger _ before (by simp) ?_
      rw [OneLeft, OneLeft, unfinished, queue]
      rfl

theorem loop_finishes (logger later : AsyncLogger) (date : Bytes) (tell : Int) (ok : FilesOk logger)
    (stopFlag : logger.stopFlag = true) (stepped : logger.loop date tell = some later) :
    Finishes later ↔ Finishes logger := by
  cases phase : logger.phase with
  | checking =>
      exact take_batch_finishes logger later date tell (Or.inl phase) stepped
  | waiting =>
      exact take_batch_finishes logger later date tell (Or.inr phase) stepped
  | popped tmp =>
      obtain ⟨same, _⟩ := open_file_spec logger date tell ok
      simp only [AsyncLogger.loop, phase, Option.some.injEq] at stepped
      subst stepped
      refine one_left_finishes logger _ (by simp [phase]) (by simp) ?_
      simp only [OneLeft, AsyncLogger.unfinished, phase, same.buffers]
  | writing batch =>
      cases batch with
      | nil =>
          simp only [AsyncLogger.loop, phase, if_pos stopFlag, Option.some.injEq] at stepped
          subst stepped
          rw [Finishes, Finishes, if_pos rfl, if_neg (by simp [phase])]
          simp only [OneLeft, AsyncLogger.unfinished, phase]
      | cons msg rest =>
          have moved : later.phase = .writing rest ∧ later.buffers = logger.buffers := by
            simp only [AsyncLogger.loop, phase] at stepped
            split at stepped
            · cases stepped
              exact ⟨rfl, rfl⟩
            · obtain ⟨file, _, rfl⟩ := Option.map_eq_some_iff.mp stepped
              exact ⟨rfl, rfl⟩
          obtain ⟨writing, queue⟩ := moved
          refine one_left_finishes logger later (by simp [phase]) (by simp [writing]) ?_
          simp only [OneLeft, AsyncLogger.unfinished, phase, writing, queue]
  | returned =>
      simp only [AsyncLogger.loop, phase, Option.some.injEq] at stepped
      rw [stepped]

theorem loop_stuck (logger : AsyncLogger) (stuck : logger.loop [] 0 = some logger) :
    logger.phase = .returned ∨ (logger.phase = .waiting ∧ logger.buffers = []) := by
  have still (later : AsyncLogger) (taken : logger.loop [] 0 = some later) : later.phase = logger.phase := by
    cases stuck.symm.trans taken
    rfl
  cases phase : logger.phase with
  | checking =>
      cases queue : logger.buffers with
      | nil =>
          have same := still _ (loop_no_batch logger [] 0 (Or.inl phase) queue)
          cases same.trans phase
      | cons tmp rest =>
          have same := still _ (loop_takes_batch logger [] 0 tmp rest (Or.inl phase) queue)
          cases same.trans phase
  | waiting =>
      cases queue : logger.buffers with
      | nil => exact Or.inr ⟨rfl, rfl⟩
      | cons tmp rest =>
          have same := still _ (loop_takes_batch logger [] 0 tmp rest (Or.inr phase) queue)
          cases same.trans phase
  | popped tmp =>
      have same := still { logger.openFile [] 0 with phase := .writing tmp } (by simp only [AsyncLogger.loop, phase])
      cases same.trans phase
  | writing batch =>
      cases batch with
      | nil =>
          by_cases stopFlag : logger.stopFlag = true
          · have same := still { logger with phase := .returned } (by simp only [AsyncLogger.loop, phase, if_pos stopFlag])
            cases same.trans phase
          · have same := still { logger with phase := .checking } (by simp only [AsyncLogger.loop, phase, if_neg stopFlag])
            cases same.trans phase
      | cons msg rest =>
          by_cases empty : msg = []
          · have same := still { logger with phase := .writing rest } (by simp only [AsyncLogger.loop, phase, if_pos empty])
            have shorter := same.trans phase
            simp at shorter
          · simp only [AsyncLogger.loop, phase, if_neg empty] at stuck
            obtain ⟨file, _, same⟩ := Option.map_eq_some_iff.mp stuck
            have shorter := (congrArg AsyncLogger.phase same).trans phase
            simp at shorter
  | returned => exact Or.inl rfl

theorem stuck_loop (logger : AsyncLogger) (date : Bytes) (tell : Int)
    (idle : logger.phase = .returned ∨ (logger.phase = .waiting ∧ logger.buffers = [])) :
    logger.loop date tell = some logger := by
  rcases idle with returned | ⟨waiting, empty⟩
  · simp only [AsyncLogger.loop, returned]
  · cases logger
    simp only at waiting empty
    subst waiting
    subst empty
    rfl

theorem sync_loop_moves (logger : Logger) : logger.syncLoop.sync ≠ logger.sync := by
  cases sync : logger.sync with
  | idle => simp [Logger.syncLoop, sync, Logger.swapBuffers]
  | between => simp [Logger.syncLoop, sync, Logger.swapBuffers]
  | carrying channel tmp =>
      have behind : logger.syncLoop.sync = behindPush channel := by
        simp only [Logger.syncLoop, sync]
        split
        · rfl
        · rfl
      rw [behind]
      cases channel with
      | rpc => simp [behindPush]
      | app => simp [behindPush]

theorem flush_stuck (shutdown : Shutdown) (stuck : shutdown.flush = shutdown) : shutdown.phase = .done := by
  have still := congrArg Shutdown.phase stuck
  cases phase : shutdown.phase with
  | syncing =>
      have synced := congrArg (fun shutdown => shutdown.logger.sync) stuck
      simp only [Shutdown.flush, phase] at synced
      exact absurd synced (sync_loop_moves shutdown.logger)
  | stopping channel =>
      simp only [Shutdown.flush, phase] at still
      cases still
  | flushing channel =>
      simp only [Shutdown.flush, phase] at still
      cases channel with
      | rpc => cases still
      | app => cases still
  | done => rfl

theorem stuck_iff (shutdown : Shutdown) :
    Stuck shutdown ↔ shutdown.phase = .done ∧ ∀ channel, (shutdown.logger.async channel).phase = .returned ∨
      ((shutdown.logger.async channel).phase = .waiting ∧ (shutdown.logger.async channel).buffers = []) := by
  constructor
  · intro stuck
    refine ⟨flush_stuck shutdown (Option.some.inj (stuck .flush)), fun channel => loop_stuck _ ?_⟩
    obtain ⟨logger, looped, same⟩ := Option.map_eq_some_iff.mp (stuck (.loop channel [] 0))
    obtain ⟨async, stepped, moved⟩ := Option.map_eq_some_iff.mp looped
    have unmoved : async = shutdown.logger.async channel := by
      have later := congrArg (fun shutdown => shutdown.logger.async channel) same
      simpa only [← moved, modify_async_self] using later
    rw [stepped, unmoved]
  · rintro ⟨done, idle⟩ action
    cases action with
    | flush => simp only [shutdownStep, Shutdown.flush, done]
    | loop channel date tell =>
        simp only [shutdownStep, Logger.loop, stuck_loop _ date tell (idle channel), Option.map_some, Logger.modifyAsync,
          Function.update_eq_self]

section Flush

variable (start : Logger)

theorem shutdown_inv_start (ok : ShutdownStart start) : ShutdownInv start ⟨start, .syncing⟩ := by
  refine ⟨fun _ => rfl, fun channel => (ok.writers channel).files, fun channel => (ok.writers channel).running, ?_,
    fun wrong => absurd rfl wrong, ?_⟩
  · intro channel returned
    exact absurd returned (ok.writers channel).started
  · intro channel already
    rw [ok.sync] at already
    cases already

theorem sync_loop_writer (logger : Logger) (channel : LogChannel) :
    (logger.syncLoop.async channel).stopFlag = (logger.async channel).stopFlag ∧
      ((logger.syncLoop.async channel).phase = .returned → (logger.async channel).phase = .returned) := by
  rcases sync_loop_async logger channel with same | ⟨tmp, pushed⟩
  · rw [same]
    exact ⟨rfl, fun returned => returned⟩
  · rw [pushed]
    refine ⟨rfl, fun returned => ?_⟩
    simp only [AsyncLogger.pushLogBuffer] at returned
    split at returned
    · cases returned
    · exact returned

-- A section of syncLoop leaves the buffer it swaps empty, and those that were
-- swapped before it.
theorem sync_loop_swapped (logger : Logger) (channel : LogChannel)
    (before : ∀ channel, swapped .syncing logger.sync channel = true → logger.buffers channel = [])
    (done : swapped (if logger.syncLoop.sync = .idle then .stopping .rpc else .syncing) logger.syncLoop.sync channel = true) :
    logger.syncLoop.buffers channel = [] := by
  cases sync : logger.sync with
  | idle =>
      simp only [Logger.syncLoop, sync, Logger.swapBuffers] at done ⊢
      have first : channel = .rpc := of_decide_eq_true done
      rw [first, Function.update_self]
  | between =>
      simp only [Logger.syncLoop, sync, Logger.swapBuffers]
      cases channel with
      | rpc => exact before .rpc (by rw [sync]; rfl)
      | app => rfl
  | carrying carried tmp =>
      have kept : logger.syncLoop.buffers = logger.buffers := by
        simp only [Logger.syncLoop, sync]
        split
        · rfl
        · rfl
      have behind : logger.syncLoop.sync = behindPush carried := by
        simp only [Logger.syncLoop, sync]
        split
        · rfl
        · rfl
      rw [kept]
      cases carried with
      | rpc =>
          rw [behind] at done
          exact before channel (by rw [sync]; exact done)
      | app => exact before channel (by rw [sync]; rfl)

theorem syncing_inv (shutdown : Shutdown) (inv : ShutdownInv start shutdown) (syncing : shutdown.phase = .syncing) :
    ShutdownInv start
      { logger := shutdown.logger.syncLoop
        phase := if shutdown.logger.syncLoop.sync = .idle then .stopping .rpc else .syncing } := by
  refine ⟨?_, fun channel => sync_loop_files shutdown.logger channel (inv.files channel), ?_, ?_, ?_, ?_⟩
  · intro channel
    rw [sync_loop_line shutdown.logger channel inv.files, inv.line]
  · intro channel
    rw [(sync_loop_writer shutdown.logger channel).1, inv.stopFlag, syncing]
    split
    · rfl
    · rfl
  · intro channel returned
    rw [(sync_loop_writer shutdown.logger channel).1]
    exact inv.returned channel ((sync_loop_writer shutdown.logger channel).2 returned)
  · intro started
    simp only at started
    split at started
    · assumption
    · exact absurd rfl started
  · intro channel
    refine sync_loop_swapped shutdown.logger channel ?_
    intro other
    rw [← syncing]
    exact inv.swapped other

theorem stopping_inv (shutdown : Shutdown) (channel : LogChannel) (inv : ShutdownInv start shutdown)
    (stopping : shutdown.phase = .stopping channel) :
    ShutdownInv start
      { logger := shutdown.logger.modifyAsync channel (shutdown.logger.async channel).stop, phase := .flushing channel } := by
  have started : shutdown.phase ≠ .syncing := by simp [stopping]
  refine ⟨?_, ?_, ?_, ?_, fun _ => inv.sync started, ?_⟩
  · intro other
    rw [← inv.line other]
    exact modify_async_line shutdown.logger channel other (shutdown.logger.async channel).stop rfl
  · exact modify_async_every shutdown.logger channel _ (fun _ async => FilesOk async)
      ⟨(inv.files channel).handler, (inv.files channel).opened, (inv.files channel).written⟩ inv.files
  · intro other
    simp only [stopped_stop]
    by_cases same : other = channel
    · subst same
      rw [modify_async_self, if_pos rfl]
      rfl
    · rw [modify_async_other _ channel other _ same, if_neg same, inv.stopFlag, stopping]
  · exact modify_async_every shutdown.logger channel _ (fun _ async => async.phase = .returned → async.stopFlag = true)
      (fun _ => rfl) inv.returned
  · intro other _
    exact inv.swapped other (swapped_started _ _ _ started)

theorem flush_inv (shutdown : Shutdown) (inv : ShutdownInv start shutdown) : ShutdownInv start shutdown.flush := by
  cases phase : shutdown.phase with
  | syncing =>
      simp only [Shutdown.flush, phase]
      exact syncing_inv start shutdown inv phase
  | stopping channel =>
      simp only [Shutdown.flush, phase]
      exact stopping_inv start shutdown channel inv phase
  | flushing channel =>
      simp only [Shutdown.flush, phase]
      have started : shutdown.phase ≠ .syncing := by simp [phase]
      refine ⟨inv.line, inv.files, ?_, inv.returned, fun _ => inv.sync started, ?_⟩
      · intro other
        rw [stopped_flush, ← phase]
        exact inv.stopFlag other
      · intro other _
        exact inv.swapped other (swapped_started _ _ _ started)
  | done =>
      simp only [Shutdown.flush, phase]
      exact inv

theorem shutdown_loop_spec (shutdown : Shutdown) (channel : LogChannel) (date : Bytes) (tell : Int)
    (inv : ShutdownInv start shutdown) :
    ∃ async, (shutdown.logger.async channel).loop date tell = some async ∧
      shutdownStep shutdown (.loop channel date tell) =
        some { shutdown with logger := shutdown.logger.modifyAsync channel async } ∧
      ShutdownInv start { shutdown with logger := shutdown.logger.modifyAsync channel async } := by
  obtain ⟨async, stepped, moves, looped⟩ := logger_loop_spec shutdown.logger channel date tell (inv.files channel)
  refine ⟨async, stepped, by rw [shutdownStep, looped, Option.map_some], ?_, ?_, ?_, ?_, inv.sync, inv.swapped⟩
  · intro other
    exact (modify_async_line shutdown.logger channel other async moves.text).trans (inv.line other)
  · exact modify_async_every shutdown.logger channel async (fun _ async => FilesOk async) moves.files inv.files
  · exact modify_async_every shutdown.logger channel async (fun other async => async.stopFlag = stopped shutdown.phase other)
      (moves.stopFlag.trans (inv.stopFlag channel)) inv.stopFlag
  · refine modify_async_every shutdown.logger channel async
      (fun _ async => async.phase = .returned → async.stopFlag = true) ?_ inv.returned
    intro returned
    rw [moves.stopFlag]
    rcases moves.returned returned with before | stopFlag
    · exact inv.returned channel before
    · exact stopFlag

theorem shutdown_step_keeps (shutdown later : Shutdown) (action : ShutdownAction) (inv : ShutdownInv start shutdown)
    (taken : shutdownStep shutdown action = some later) : ShutdownInv start later := by
  cases action with
  | flush =>
      cases taken
      exact flush_inv start shutdown inv
  | loop channel date tell =>
      obtain ⟨async, _, looped, kept⟩ := shutdown_loop_spec start shutdown channel date tell inv
      cases looped.symm.trans taken
      exact kept

end Flush

def StoppedFinish (shutdown : Shutdown) : Prop :=
  ∀ channel, (shutdown.logger.async channel).stopFlag = true → Finishes (shutdown.logger.async channel)

theorem sync_loop_settles (start : Logger) (shutdown : Shutdown) (phase : FlushPhase) (inv : ShutdownInv start shutdown)
    (syncing : shutdown.phase = .syncing) :
    StoppedFinish shutdown ∧ StoppedFinish { logger := shutdown.logger.syncLoop, phase := phase } := by
  have running (channel : LogChannel) : ¬ (shutdown.logger.async channel).stopFlag = true := by
    rw [inv.stopFlag, syncing, stopped]
    exact Bool.false_ne_true
  refine ⟨fun channel flag => absurd flag (running channel), fun channel flag => absurd flag ?_⟩
  rw [(sync_loop_writer shutdown.logger channel).1]
  exact running channel

theorem stop_settles (start : Logger) (shutdown : Shutdown) (channel : LogChannel) (inv : ShutdownInv start shutdown)
    (stopping : shutdown.phase = .stopping channel) :
    OneLeft (shutdown.logger.async channel) ∧ StoppedFinish shutdown ↔
      StoppedFinish { logger := shutdown.logger.modifyAsync channel (shutdown.logger.async channel).stop
                      phase := .flushing channel } := by
  have running : ¬ (shutdown.logger.async channel).stopFlag = true := by
    rw [inv.stopFlag, stopping]
    cases channel with
    | rpc => exact Bool.false_ne_true
    | app => exact Bool.false_ne_true
  have alive : (shutdown.logger.async channel).stop.phase ≠ .returned := fun returned => running (inv.returned channel returned)
  have here : Finishes (shutdown.logger.async channel).stop ↔ OneLeft (shutdown.logger.async channel) := by
    rw [Finishes, if_neg alive]
    exact Iff.rfl
  constructor
  · rintro ⟨left, before⟩
    exact modify_async_every shutdown.logger channel _ (fun _ async => async.stopFlag = true → Finishes async)
      (fun _ => here.mpr left) before
  · intro after
    constructor
    · have finishes := after channel
      simp only [modify_async_self] at finishes
      exact here.mp (finishes rfl)
    · intro other flag
      have different : other ≠ channel := fun same => running (same ▸ flag)
      have finishes := after other
      simp only [modify_async_other _ channel other _ different] at finishes
      exact finishes flag

theorem loop_settles (shutdown : Shutdown) (channel : LogChannel) (date : Bytes) (tell : Int) (async : AsyncLogger)
    (ok : FilesOk (shutdown.logger.async channel)) (stepped : (shutdown.logger.async channel).loop date tell = some async) :
    StoppedFinish shutdown ↔ StoppedFinish { shutdown with logger := shutdown.logger.modifyAsync channel async } := by
  obtain ⟨moved, again, moves⟩ := loop_spec (shutdown.logger.async channel) date tell ok
  cases again.symm.trans stepped
  have here (flag : (shutdown.logger.async channel).stopFlag = true) :
      Finishes async ↔ Finishes (shutdown.logger.async channel) := loop_finishes _ async date tell ok flag stepped
  constructor
  · intro before
    refine modify_async_every shutdown.logger channel async (fun _ async => async.stopFlag = true → Finishes async) ?_ before
    intro flag
    rw [moves.stopFlag] at flag
    exact (here flag).mpr (before channel flag)
  · intro after other flag
    have finishes := after other
    by_cases same : other = channel
    · subst same
      simp only [modify_async_self] at finishes
      exact (here flag).mp (finishes (moves.stopFlag.trans flag))
    · simp only [modify_async_other _ channel other _ same] at finishes
      exact finishes flag

theorem shutdown_step_settles (start : Logger) (shutdown later : Shutdown) (action : ShutdownAction)
    (inv : ShutdownInv start shutdown) (taken : shutdownStep shutdown action = some later) :
    StopGuard shutdown action ∧ StoppedFinish shutdown ↔ StoppedFinish later := by
  cases action with
  | flush =>
      cases taken
      cases phase : shutdown.phase with
      | syncing =>
          simp only [StopGuard, Shutdown.flush, phase, true_and]
          obtain ⟨before, after⟩ := sync_loop_settles start shutdown _ inv phase
          exact iff_of_true before after
      | stopping channel =>
          simp only [StopGuard, Shutdown.flush, phase]
          exact stop_settles start shutdown channel inv phase
      | flushing channel =>
          simp only [StopGuard, Shutdown.flush, phase, true_and]
          rfl
      | done => simp only [StopGuard, Shutdown.flush, phase, true_and]
  | loop channel date tell =>
      obtain ⟨async, stepped, looped, _⟩ := shutdown_loop_spec start shutdown channel date tell inv
      cases looped.symm.trans taken
      simp only [StopGuard, true_and]
      exact loop_settles shutdown channel date tell async (inv.files channel) stepped

-- When nothing can move any more, a writer has finished exactly when it has
-- returned and left no text behind.
theorem stuck_finishes (start : Logger) (shutdown : Shutdown) (inv : ShutdownInv start shutdown) (stuck : Stuck shutdown) :
    StoppedFinish shutdown ↔ AllWritten start shutdown := by
  obtain ⟨done, idle⟩ := (stuck_iff shutdown).mp stuck
  have started : shutdown.phase ≠ .syncing := by simp [done]
  refine forall_congr' (fun channel => ?_)
  have flag : (shutdown.logger.async channel).stopFlag = true := by rw [inv.stopFlag, done, stopped]
  have carried : shutdown.logger.carried channel = [] := by simp only [Logger.carried, inv.sync started]
  have buffers := inv.swapped channel (swapped_started _ _ _ started)
  have line := inv.line channel
  rw [Logger.line, carried, buffers, List.flatten_nil, List.append_nil, List.append_nil] at line
  rw [imp_iff_right flag, ← line]
  rcases idle channel with returned | ⟨waiting, empty⟩
  · have hand : (shutdown.logger.async channel).hand = [] := by simp only [AsyncLogger.hand, returned]
    rw [Finishes, if_pos returned, AsyncLogger.waitingText, hand]
    simp [returned]
  · have asleep : (shutdown.logger.async channel).phase ≠ .returned := by simp [waiting]
    have none : ¬ OneLeft (shutdown.logger.async channel) := by
      simp only [OneLeft, AsyncLogger.unfinished, waiting, empty, not_false_eq_true]
    rw [Finishes, if_neg asleep]
    exact iff_of_false none (fun finished => asleep finished.1)

theorem shutdown_iff (start : Logger) (actions : List ShutdownAction) (last : Shutdown) (ok : ShutdownStart start)
    (reached : run shutdownStep ⟨start, .syncing⟩ actions = some last) (stuck : Stuck last) :
    AllWritten start last ↔ Guarded shutdownStep StopGuard ⟨start, .syncing⟩ actions := by
  have initial := shutdown_inv_start start ok
  obtain ⟨inv, settled⟩ := guarded_iff_settled shutdownStep StopGuard (ShutdownInv start) StoppedFinish
    (fun shutdown action later => shutdown_step_keeps start shutdown later action)
    (fun shutdown action later => shutdown_step_settles start shutdown later action) ⟨start, .syncing⟩ last actions initial
    reached
  have before := (sync_loop_settles start ⟨start, .syncing⟩ .syncing initial rfl).1
  rw [← stuck_finishes start last inv stuck, ← settled]
  exact ⟨fun finished => finished.1, fun guarded => ⟨guarded, before⟩⟩

def flushCalls : List ShutdownAction := List.replicate 8 .flush

def loopCalls (channel : LogChannel) : List ShutdownAction := List.replicate 5 (.loop channel [] 0)

def endPhases (shutdown : Shutdown) : FlushPhase × WriterPhase × WriterPhase :=
  (shutdown.phase, (shutdown.logger.async .rpc).phase, (shutdown.logger.async .app).phase)

-- One message in each channel: flush makes a batch of it, which is the last.
def oneMessage : Logger := { newLogger [] [] 100 with buffers := fun _ => [[0x61]] }

def oneMessageFlush : List ShutdownAction := flushCalls ++ loopCalls .rpc ++ loopCalls .app

theorem one_message_written :
    ∃ last, run shutdownStep ⟨oneMessage, .syncing⟩ oneMessageFlush = some last ∧ AllWritten oneMessage last := by
  have phases : (run shutdownStep ⟨oneMessage, .syncing⟩ oneMessageFlush).map endPhases =
      some (.done, .returned, .returned) := by decide
  obtain ⟨last, reached, ended⟩ := Option.map_eq_some_iff.mp phases
  simp only [endPhases, Prod.mk.injEq] at ended
  obtain ⟨done, rpc, app⟩ := ended
  have stuck : Stuck last := by
    refine (stuck_iff last).mpr ⟨done, fun channel => ?_⟩
    cases channel with
    | rpc => exact Or.inl rpc
    | app => exact Or.inl app
  have ok : ShutdownStart oneMessage := ⟨new_logger_writers [] [] 100, rfl⟩
  exact ⟨last, reached, (shutdown_iff oneMessage oneMessageFlush last ok reached stuck).mpr (by decide)⟩

-- Two writers that wait for a signal while nothing is left to push.
def idleLogger : Logger := newLogger [] [] 100

def idleFlush : List ShutdownAction := [.loop .rpc [] 0, .loop .app [] 0] ++ flushCalls

def queuesEmpty (shutdown : Shutdown) : Bool :=
  (shutdown.logger.async .rpc).buffers = [] ∧ (shutdown.logger.async .app).buffers = []

theorem idle_flush_hangs :
    ShutdownStart idleLogger ∧ ∃ last, run shutdownStep ⟨idleLogger, .syncing⟩ idleFlush = some last ∧ Stuck last ∧
      ¬ AllWritten idleLogger last := by
  have phases : (run shutdownStep ⟨idleLogger, .syncing⟩ idleFlush).map (fun last => (queuesEmpty last, endPhases last)) =
      some (true, .done, .waiting, .waiting) := by decide
  obtain ⟨last, reached, ended⟩ := Option.map_eq_some_iff.mp phases
  simp only [endPhases, queuesEmpty, Prod.mk.injEq, decide_eq_true_eq] at ended
  obtain ⟨⟨rpcEmpty, appEmpty⟩, done, rpc, app⟩ := ended
  refine ⟨⟨new_logger_writers [] [] 100, rfl⟩, last, reached, (stuck_iff last).mpr ⟨done, fun channel => ?_⟩, ?_⟩
  · cases channel with
    | rpc => exact Or.inr ⟨rpc, rpcEmpty⟩
    | app => exact Or.inr ⟨app, appEmpty⟩
  · intro written
    cases rpc.symm.trans (written .rpc).1

end Rocket
