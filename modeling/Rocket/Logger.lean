import Mathlib.Logic.Function.Basic
import Rocket.RpcController

set_option autoImplicit false

namespace Rocket

open Word32

-- Where the thread of an AsyncLogger is in Loop: before the test of m_buffers,
-- in pthread_cond_wait, behind the critical section with its batch, in the loop
-- over the messages, or behind return.
inductive WriterPhase where
  | checking
  | waiting
  | popped (tmp : List Bytes)
  | writing (rest : List Bytes)
  | returned
deriving DecidableEq, Repr

-- fileHandler is the name of the open file. written lists what was written to
-- which file, in write order.
structure AsyncLogger where
  fileName : Bytes
  filePath : Bytes
  maxFileSize : Int
  no : Nat := 0
  date : Bytes := []
  fileHandler : Option Bytes := none
  reopenFlag : Bool := false
  stopFlag : Bool := false
  buffers : List (List Bytes) := []
  phase : WriterPhase := .checking
  written : List (Bytes × Bytes) := []
deriving DecidableEq, Repr

def logFileName (filePath fileName date : Bytes) (no : Nat) : Bytes :=
  filePath ++ text "/" ++ fileName ++ text "_" ++ date ++ text "_log." ++ text (toString no)

def AsyncLogger.checkDate (logger : AsyncLogger) (date : Bytes) : AsyncLogger :=
  if date ≠ logger.date then { logger with reopenFlag := true, no := 0, date := date } else logger

def AsyncLogger.checkHandler (logger : AsyncLogger) : AsyncLogger :=
  if logger.fileHandler = none then { logger with reopenFlag := true } else logger

def AsyncLogger.reopen (logger : AsyncLogger) (date : Bytes) : AsyncLogger :=
  if logger.reopenFlag = true then
    { logger with
      fileHandler := some (logFileName logger.filePath logger.fileName date logger.no)
      reopenFlag := false }
  else logger

-- tell is what ftell returns for the file that is open by then.
def AsyncLogger.rotate (logger : AsyncLogger) (date : Bytes) (tell : Int) : AsyncLogger :=
  if tell > logger.maxFileSize then
    { logger with
      no := logger.no + 1
      fileHandler := some (logFileName logger.filePath logger.fileName date (logger.no + 1))
      reopenFlag := false }
  else logger

def AsyncLogger.openFile (logger : AsyncLogger) (date : Bytes) (tell : Int) : AsyncLogger :=
  (((logger.checkDate date).checkHandler).reopen date).rotate date tell

-- One step of Loop. A thread that wakes up tests the queue again, so a wake-up
-- without a signal is the same step. Writing to a null file is undefined.
def AsyncLogger.loop (logger : AsyncLogger) (date : Bytes) (tell : Int) : Option AsyncLogger :=
  match logger.phase with
  | .checking | .waiting =>
      match logger.buffers with
      | [] => some { logger with phase := .waiting }
      | tmp :: rest => some { logger with buffers := rest, phase := .popped tmp }
  | .popped tmp => some { logger.openFile date tell with phase := .writing tmp }
  | .writing [] => some { logger with phase := if logger.stopFlag = true then .returned else .checking }
  | .writing (msg :: rest) =>
      if msg = [] then some { logger with phase := .writing rest }
      else logger.fileHandler.map fun file =>
        { logger with phase := .writing rest, written := logger.written ++ [(file, msg)] }
  | .returned => some logger

def AsyncLogger.pushLogBuffer (logger : AsyncLogger) (msg : List Bytes) : AsyncLogger :=
  { logger with
    buffers := logger.buffers ++ [msg]
    phase := if logger.phase = .waiting then .checking else logger.phase }

def AsyncLogger.stop (logger : AsyncLogger) : AsyncLogger := { logger with stopFlag := true }

inductive LogChannel where
  | rpc
  | app
deriving DecidableEq, Repr

-- Between the critical sections of syncLoop: the thread holds the swapped
-- vector of a channel, or is behind the first half.
inductive SyncPhase where
  | idle
  | carrying (channel : LogChannel) (tmp : List Bytes)
  | between
deriving DecidableEq, Repr

structure Logger where
  type : Nat := 1
  buffers : LogChannel → List Bytes := fun _ => []
  async : LogChannel → AsyncLogger
  sync : SyncPhase := .idle

def channelSuffix : LogChannel → Bytes
  | .rpc => text "_rpc"
  | .app => text "_app"

def newLogger (fileName filePath : Bytes) (maxFileSize : Int) : Logger :=
  { async := fun channel =>
      { fileName := fileName ++ channelSuffix channel, filePath := filePath, maxFileSize := maxFileSize } }

def Logger.pushBack (logger : Logger) (channel : LogChannel) (msg : Bytes) : Logger :=
  { logger with buffers := Function.update logger.buffers channel (logger.buffers channel ++ [msg]) }

-- With m_type 0 the message goes to the standard output.
def Logger.pushLog (logger : Logger) (msg : Bytes) : Logger :=
  if logger.type = 0 then logger else logger.pushBack .rpc msg

def Logger.pushAppLog (logger : Logger) (msg : Bytes) : Logger := logger.pushBack .app msg

def Logger.swapBuffers (logger : Logger) (channel : LogChannel) : Logger :=
  { logger with
    buffers := Function.update logger.buffers channel []
    sync := .carrying channel (logger.buffers channel) }

def Logger.modifyAsync (logger : Logger) (channel : LogChannel) (async : AsyncLogger) : Logger :=
  { logger with async := Function.update logger.async channel async }

def behindPush : LogChannel → SyncPhase
  | .rpc => .between
  | .app => .idle

-- The next critical section of syncLoop, of which there are two a channel.
def Logger.syncLoop (logger : Logger) : Logger :=
  match logger.sync with
  | .idle => logger.swapBuffers .rpc
  | .between => logger.swapBuffers .app
  | .carrying channel tmp =>
      if tmp = [] then { logger with sync := behindPush channel }
      else
        { logger.modifyAsync channel ((logger.async channel).pushLogBuffer tmp) with sync := behindPush channel }

def Logger.loop (logger : Logger) (channel : LogChannel) (date : Bytes) (tell : Int) : Option Logger :=
  ((logger.async channel).loop date tell).map (logger.modifyAsync channel)

def AsyncLogger.hand (logger : AsyncLogger) : List Bytes :=
  match logger.phase with
  | .popped tmp => tmp
  | .writing rest => rest
  | _ => []

def AsyncLogger.writtenText (logger : AsyncLogger) : Bytes := (logger.written.map Prod.snd).flatten

def AsyncLogger.waitingText (logger : AsyncLogger) : Bytes := logger.hand.flatten ++ logger.buffers.flatten.flatten

def IsLogFile (filePath fileName file : Bytes) : Prop := ∃ date no, file = logFileName filePath fileName date no

-- The file of a logger is open while it writes, and all its files are its own.
structure FilesOk (logger : AsyncLogger) : Prop where
  handler : ∀ file, logger.fileHandler = some file → IsLogFile logger.filePath logger.fileName file
  opened : ∀ rest, logger.phase = .writing rest → logger.fileHandler ≠ none
  written : ∀ entry ∈ logger.written, IsLogFile logger.filePath logger.fileName entry.1

structure SameQueue (logger later : AsyncLogger) : Prop where
  fileName : later.fileName = logger.fileName
  filePath : later.filePath = logger.filePath
  stopFlag : later.stopFlag = logger.stopFlag
  buffers : later.buffers = logger.buffers
  written : later.written = logger.written

theorem log_file_name_prefix (filePath fileName date : Bytes) (no : Nat) :
    ∃ rest, logFileName filePath fileName date no = filePath ++ text "/" ++ (fileName ++ rest) :=
  ⟨text "_" ++ date ++ text "_log." ++ text (toString no), by simp only [logFileName, List.append_assoc]⟩

theorem log_files_disjoint (filePath fileName rpcFile appFile : Bytes)
    (rpc : IsLogFile filePath (fileName ++ text "_rpc") rpcFile)
    (app : IsLogFile filePath (fileName ++ text "_app") appFile) : rpcFile ≠ appFile := by
  obtain ⟨rpcDate, rpcNo, rfl⟩ := rpc
  obtain ⟨appDate, appNo, rfl⟩ := app
  obtain ⟨rpcRest, rpcName⟩ := log_file_name_prefix filePath (fileName ++ text "_rpc") rpcDate rpcNo
  obtain ⟨appRest, appName⟩ := log_file_name_prefix filePath (fileName ++ text "_app") appDate appNo
  rw [rpcName, appName, List.append_assoc fileName, List.append_assoc fileName]
  intro same
  have tails := List.append_cancel_left (List.append_cancel_left same)
  have second : (text "_rpc" ++ rpcRest)[1]? = (text "_app" ++ appRest)[1]? := by rw [tails]
  simp [text] at second

theorem same_queue_refl (logger : AsyncLogger) : SameQueue logger logger := ⟨rfl, rfl, rfl, rfl, rfl⟩

theorem same_queue_trans (logger middle later : AsyncLogger) (first : SameQueue logger middle)
    (second : SameQueue middle later) : SameQueue logger later :=
  ⟨second.fileName.trans first.fileName, second.filePath.trans first.filePath, second.stopFlag.trans first.stopFlag,
    second.buffers.trans first.buffers, second.written.trans first.written⟩

theorem check_date_spec (logger : AsyncLogger) (date : Bytes) :
    SameQueue logger (logger.checkDate date) ∧ (logger.checkDate date).fileHandler = logger.fileHandler := by
  rw [AsyncLogger.checkDate]
  split
  · exact ⟨⟨rfl, rfl, rfl, rfl, rfl⟩, rfl⟩
  · exact ⟨same_queue_refl logger, rfl⟩

theorem check_handler_spec (logger : AsyncLogger) :
    SameQueue logger logger.checkHandler ∧ logger.checkHandler.fileHandler = logger.fileHandler ∧
      (logger.fileHandler = none → logger.checkHandler.reopenFlag = true) := by
  rw [AsyncLogger.checkHandler]
  split
  · exact ⟨⟨rfl, rfl, rfl, rfl, rfl⟩, rfl, fun _ => rfl⟩
  · rename_i opened
    exact ⟨same_queue_refl logger, rfl, fun closed => absurd closed opened⟩

theorem reopen_spec (logger : AsyncLogger) (date : Bytes)
    (handler : ∀ file, logger.fileHandler = some file → IsLogFile logger.filePath logger.fileName file)
    (closed : logger.fileHandler = none → logger.reopenFlag = true) :
    SameQueue logger (logger.reopen date) ∧ ∃ file, (logger.reopen date).fileHandler = some file ∧
      IsLogFile logger.filePath logger.fileName file := by
  rw [AsyncLogger.reopen]
  split
  · exact ⟨⟨rfl, rfl, rfl, rfl, rfl⟩, _, rfl, date, logger.no, rfl⟩
  · rename_i kept
    cases opened : logger.fileHandler with
    | none => exact absurd (closed opened) kept
    | some file => exact ⟨same_queue_refl logger, file, rfl, handler file opened⟩

theorem rotate_spec (logger : AsyncLogger) (date : Bytes) (tell : Int) (file : Bytes)
    (opened : logger.fileHandler = some file) (own : IsLogFile logger.filePath logger.fileName file) :
    SameQueue logger (logger.rotate date tell) ∧ ∃ file, (logger.rotate date tell).fileHandler = some file ∧
      IsLogFile logger.filePath logger.fileName file := by
  rw [AsyncLogger.rotate]
  split
  · exact ⟨⟨rfl, rfl, rfl, rfl, rfl⟩, _, rfl, date, logger.no + 1, rfl⟩
  · exact ⟨same_queue_refl logger, file, opened, own⟩

theorem open_file_spec (logger : AsyncLogger) (date : Bytes) (tell : Int) (ok : FilesOk logger) :
    SameQueue logger (logger.openFile date tell) ∧ ∃ file, (logger.openFile date tell).fileHandler = some file ∧
      IsLogFile logger.filePath logger.fileName file := by
  obtain ⟨dated, sameFile⟩ := check_date_spec logger date
  obtain ⟨checked, stillFile, closed⟩ := check_handler_spec (logger.checkDate date)
  have before := same_queue_trans _ _ _ dated checked
  obtain ⟨reopened, file, opened, own⟩ := reopen_spec (logger.checkDate date).checkHandler date
    (by
      intro file opened
      rw [stillFile, sameFile] at opened
      rw [before.filePath, before.fileName]
      exact ok.handler file opened)
    (by
      intro none
      rw [stillFile] at none
      exact closed none)
  have between := same_queue_trans _ _ _ before reopened
  rw [before.filePath, before.fileName] at own
  obtain ⟨rotated, last, lastOpened, lastOwn⟩ := rotate_spec _ date tell file opened (by
    rw [between.filePath, between.fileName]
    exact own)
  rw [between.filePath, between.fileName] at lastOwn
  exact ⟨same_queue_trans _ _ _ between rotated, last, lastOpened, lastOwn⟩

structure LoopMoves (logger later : AsyncLogger) : Prop where
  fileName : later.fileName = logger.fileName
  filePath : later.filePath = logger.filePath
  stopFlag : later.stopFlag = logger.stopFlag
  files : FilesOk later
  returned : later.phase = .returned → logger.phase = .returned ∨ logger.stopFlag = true
  asleep : later.phase = .waiting → later.buffers = []
  text : later.writtenText ++ later.waitingText = logger.writtenText ++ logger.waitingText

theorem written_text_append (logger : AsyncLogger) (file msg : Bytes) (phase : WriterPhase) :
    AsyncLogger.writtenText { logger with phase := phase, written := logger.written ++ [(file, msg)] } =
      logger.writtenText ++ msg := by
  simp [AsyncLogger.writtenText]

theorem loop_no_batch (logger : AsyncLogger) (date : Bytes) (tell : Int)
    (outside : logger.phase = .checking ∨ logger.phase = .waiting) (queue : logger.buffers = []) :
    logger.loop date tell = some { logger with phase := .waiting } := by
  rcases outside with checking | waiting
  · simp only [AsyncLogger.loop, checking, queue]
  · simp only [AsyncLogger.loop, waiting, queue]

theorem loop_takes_batch (logger : AsyncLogger) (date : Bytes) (tell : Int) (tmp : List Bytes) (rest : List (List Bytes))
    (outside : logger.phase = .checking ∨ logger.phase = .waiting) (queue : logger.buffers = tmp :: rest) :
    logger.loop date tell = some { logger with buffers := rest, phase := .popped tmp } := by
  rcases outside with checking | waiting
  · simp only [AsyncLogger.loop, checking, queue]
  · simp only [AsyncLogger.loop, waiting, queue]

theorem take_batch_spec (logger : AsyncLogger) (date : Bytes) (tell : Int) (ok : FilesOk logger)
    (outside : logger.phase = .checking ∨ logger.phase = .waiting) :
    ∃ later, logger.loop date tell = some later ∧ LoopMoves logger later := by
  have empty : logger.hand = [] := by
    rcases outside with checking | waiting
    · simp only [AsyncLogger.hand, checking]
    · simp only [AsyncLogger.hand, waiting]
  cases queue : logger.buffers with
  | nil =>
      refine ⟨_, loop_no_batch logger date tell outside queue, rfl, rfl, rfl, ⟨ok.handler, ?_, ok.written⟩,
        (fun wrong => nomatch wrong), fun _ => queue, ?_⟩
      · intro rest wrong
        cases wrong
      · simp only [AsyncLogger.writtenText, AsyncLogger.waitingText, empty, queue]
        rfl
  | cons tmp rest =>
      refine ⟨_, loop_takes_batch logger date tell tmp rest outside queue, rfl, rfl, rfl, ⟨ok.handler, ?_, ok.written⟩,
        (fun wrong => nomatch wrong), (fun wrong => nomatch wrong), ?_⟩
      · intro rest wrong
        cases wrong
      · simp only [AsyncLogger.writtenText, AsyncLogger.waitingText, empty, queue, List.flatten_cons, List.flatten_append]
        rfl

theorem open_batch_spec (logger : AsyncLogger) (date : Bytes) (tell : Int) (tmp : List Bytes) (ok : FilesOk logger)
    (phase : logger.phase = .popped tmp) : ∃ later, logger.loop date tell = some later ∧ LoopMoves logger later := by
  obtain ⟨same, file, opened, own⟩ := open_file_spec logger date tell ok
  refine ⟨{ logger.openFile date tell with phase := .writing tmp }, by simp only [AsyncLogger.loop, phase],
    same.fileName, same.filePath, same.stopFlag, ⟨?_, ?_, ?_⟩, (fun wrong => nomatch wrong), (fun wrong => nomatch wrong), ?_⟩
  · intro other otherOpened
    cases opened.symm.trans otherOpened
    simpa only [same.filePath, same.fileName] using own
  · intro _ _ closed
    cases opened.symm.trans closed
  · simpa only [same.filePath, same.fileName, same.written] using ok.written
  · simp only [AsyncLogger.writtenText, AsyncLogger.waitingText, AsyncLogger.hand, same.written, same.buffers, phase]

theorem change_phase_moves (logger : AsyncLogger) (next : WriterPhase) (ok : FilesOk logger)
    (opened : ∀ rest, next = .writing rest → logger.fileHandler ≠ none)
    (returned : next = .returned → logger.stopFlag = true) (awake : next ≠ .waiting)
    (same : (AsyncLogger.hand { logger with phase := next }).flatten = logger.hand.flatten) :
    LoopMoves logger { logger with phase := next } := by
  refine ⟨rfl, rfl, rfl, ⟨ok.handler, opened, ok.written⟩, fun ended => Or.inr (returned ended),
    fun asleep => absurd asleep awake, ?_⟩
  simp only [AsyncLogger.waitingText, same]
  rfl

theorem end_batch_spec (logger : AsyncLogger) (date : Bytes) (tell : Int) (ok : FilesOk logger)
    (phase : logger.phase = .writing []) : ∃ later, logger.loop date tell = some later ∧ LoopMoves logger later := by
  have nothing : logger.hand = [] := by simp only [AsyncLogger.hand, phase]
  by_cases stopped : logger.stopFlag = true
  · refine ⟨{ logger with phase := .returned }, by simp only [AsyncLogger.loop, phase, if_pos stopped], ?_⟩
    apply change_phase_moves logger .returned ok (fun _ wrong => nomatch wrong) (fun _ => stopped) (fun wrong => nomatch wrong)
    rw [nothing]
    rfl
  · refine ⟨{ logger with phase := .checking }, by simp only [AsyncLogger.loop, phase, if_neg stopped], ?_⟩
    apply change_phase_moves logger .checking ok (fun _ wrong => nomatch wrong) (fun wrong => nomatch wrong)
      (fun wrong => nomatch wrong)
    rw [nothing]
    rfl

theorem write_message_spec (logger : AsyncLogger) (date : Bytes) (tell : Int) (msg : Bytes) (rest : List Bytes)
    (ok : FilesOk logger) (phase : logger.phase = .writing (msg :: rest)) :
    ∃ later, logger.loop date tell = some later ∧ LoopMoves logger later := by
  have opened := ok.opened _ phase
  have hand : logger.hand = msg :: rest := by simp only [AsyncLogger.hand, phase]
  by_cases empty : msg = []
  · refine ⟨{ logger with phase := .writing rest }, by simp only [AsyncLogger.loop, phase, if_pos empty], ?_⟩
    apply change_phase_moves logger (.writing rest) ok (fun _ _ => opened) (fun wrong => nomatch wrong)
      (fun wrong => nomatch wrong)
    rw [hand, List.flatten_cons, empty, List.nil_append]
    rfl
  · obtain ⟨file, handler⟩ := Option.ne_none_iff_exists'.mp opened
    refine ⟨{ logger with phase := .writing rest, written := logger.written ++ [(file, msg)] },
      by simp only [AsyncLogger.loop, phase, if_neg empty, handler, Option.map_some], rfl, rfl, rfl,
      ⟨ok.handler, fun _ _ => opened, ?_⟩, (fun wrong => nomatch wrong), (fun wrong => nomatch wrong), ?_⟩
    · intro entry member
      rcases List.mem_append.mp member with before | last
      · exact ok.written entry before
      · cases List.mem_singleton.mp last
        exact ok.handler file handler
    · rw [written_text_append]
      simp only [AsyncLogger.waitingText, AsyncLogger.hand, phase, List.flatten_cons, List.append_assoc]

theorem loop_spec (logger : AsyncLogger) (date : Bytes) (tell : Int) (ok : FilesOk logger) :
    ∃ later, logger.loop date tell = some later ∧ LoopMoves logger later := by
  cases phase : logger.phase with
  | checking => exact take_batch_spec logger date tell ok (Or.inl phase)
  | waiting => exact take_batch_spec logger date tell ok (Or.inr phase)
  | popped tmp => exact open_batch_spec logger date tell tmp ok phase
  | writing batch =>
      cases batch with
      | nil => exact end_batch_spec logger date tell ok phase
      | cons msg rest => exact write_message_spec logger date tell msg rest ok phase
  | returned =>
      refine ⟨logger, by simp only [AsyncLogger.loop, phase], rfl, rfl, rfl, ok, fun _ => Or.inl phase, ?_, rfl⟩
      intro waiting
      cases phase.symm.trans waiting

theorem push_log_buffer_spec (logger : AsyncLogger) (msg : List Bytes) (ok : FilesOk logger) :
    FilesOk (logger.pushLogBuffer msg) ∧ (logger.pushLogBuffer msg).hand = logger.hand ∧
      (logger.pushLogBuffer msg).waitingText = logger.waitingText ++ msg.flatten := by
  have hand : (logger.pushLogBuffer msg).hand = logger.hand := by
    simp only [AsyncLogger.hand, AsyncLogger.pushLogBuffer]
    cases logger.phase with
    | _ => rfl
  refine ⟨⟨ok.handler, ?_, ok.written⟩, hand, ?_⟩
  · intro rest writing
    simp only [AsyncLogger.pushLogBuffer] at writing
    split at writing
    · cases writing
    · exact ok.opened rest writing
  · rw [AsyncLogger.waitingText, hand]
    simp [AsyncLogger.waitingText, AsyncLogger.pushLogBuffer]

end Rocket
