import Rocket.Logger
import Rocket.Lib.Trace

set_option autoImplicit false

namespace Rocket

open Word32 Trace

-- A logger with the sizes of all files there are or could be.
structure RotatingLog where
  logger : AsyncLogger
  sizes : Bytes → Nat

def AsyncLogger.restarted (logger : AsyncLogger) : AsyncLogger :=
  { fileName := logger.fileName, filePath := logger.filePath, maxFileSize := logger.maxFileSize }

def AsyncLogger.numbered (logger : AsyncLogger) (date : Bytes) (no : Nat) : Bytes :=
  logFileName logger.filePath logger.fileName date no

def AsyncLogger.currentFile (logger : AsyncLogger) : Bytes := logger.numbered logger.date logger.no

-- The file that is open when Loop asks for the position, an append stream at
-- its end.
def RotatingLog.tell (log : RotatingLog) (date : Bytes) : Int :=
  match (((log.logger.checkDate date).checkHandler).reopen date).fileHandler with
  | none => 0
  | some file => log.sizes file

def RotatingLog.sizesAfter (log : RotatingLog) : Bytes → Nat :=
  match log.logger.phase, log.logger.fileHandler with
  | .writing (msg :: _), some file => Function.update log.sizes file (log.sizes file + msg.length)
  | _, _ => log.sizes

inductive RotationAction where
  | pushLogBuffer (msg : List Bytes)
  | loop (date : Bytes)
  | stop
  | restart (sizes : Bytes → Nat)

-- A new process finds files of whatever sizes. m_no is an int.
def rotationStep (log : RotatingLog) : RotationAction → Option RotatingLog
  | .pushLogBuffer msg => some { log with logger := log.logger.pushLogBuffer msg }
  | .loop date => do
      let later ← log.logger.loop date (log.tell date)
      if later.no < 2 ^ 31 then some { logger := later, sizes := log.sizesAfter } else none
  | .stop => some { log with logger := log.logger.stop }
  | .restart sizes => some { logger := log.logger.restarted, sizes := sizes }

def newRotatingLog (fileName filePath : Bytes) (maxFileSize : Int) (sizes : Bytes → Nat) : RotatingLog :=
  { logger := { fileName := fileName, filePath := filePath, maxFileSize := maxFileSize }, sizes := sizes }

-- A batch finds the file of the date and number open and not too large, and
-- each of its messages goes there.
def RespectsLimit (log : RotatingLog) (action : RotationAction) (later : RotatingLog) : Prop :=
  match action, log.logger.phase with
  | .loop date, .popped _ =>
      later.logger.date = date ∧ later.logger.fileHandler = some later.logger.currentFile ∧
        (later.sizes later.logger.currentFile : Int) ≤ later.logger.maxFileSize
  | .loop _, .writing (msg :: _) =>
      later.logger.currentFile = log.logger.currentFile ∧
        later.logger.written = log.logger.written ++ (if msg = [] then [] else [(log.logger.currentFile, msg)])
  | _, _ => True

-- The number that the file for a batch is looked for from.
def AsyncLogger.firstNo (logger : AsyncLogger) (date : Bytes) : Nat := if date = logger.date then logger.no else 0

def NextFileFits (log : RotatingLog) : RotationAction → Prop
  | .loop date =>
      ∀ tmp, log.logger.phase = .popped tmp →
        (log.sizes (log.logger.numbered date (log.logger.firstNo date)) : Int) > log.logger.maxFileSize →
          (log.sizes (log.logger.numbered date (log.logger.firstNo date + 1)) : Int) ≤ log.logger.maxFileSize ∧
            log.logger.firstNo date + 1 < 2 ^ 31
  | _ => True

structure RotationInv (log : RotatingLog) : Prop where
  flag : log.logger.reopenFlag = false
  handler : ∀ file, log.logger.fileHandler = some file → file = log.logger.currentFile
  opened : ∀ rest, log.logger.phase = .writing rest → log.logger.fileHandler ≠ none
  number : log.logger.no < 2 ^ 31

-- What the two tests leave open before the size is looked at.
theorem reopened_file (logger : AsyncLogger) (date : Bytes) (flag : logger.reopenFlag = false)
    (handler : ∀ file, logger.fileHandler = some file → file = logger.currentFile) :
    ((logger.checkDate date).checkHandler).reopen date = { logger with
      date := date
      no := logger.firstNo date
      fileHandler := some (logger.numbered date (logger.firstNo date)) } := by
  by_cases same : date = logger.date
  · have dated : logger.checkDate date = logger := if_neg (not_not.mpr same)
    rw [dated, AsyncLogger.firstNo, if_pos same, AsyncLogger.checkHandler]
    cases opened : logger.fileHandler with
    | none =>
        rw [if_pos rfl, AsyncLogger.reopen, if_pos rfl, same, ← flag]
        rfl
    | some file =>
        have kept : logger.reopenFlag ≠ true := by simp [flag]
        rw [if_neg (by simp), AsyncLogger.reopen, if_neg kept, same]
        have named : logger.fileHandler = some (logger.numbered logger.date logger.no) := by rw [opened, handler file opened]; rfl
        rw [← named]
  · rw [AsyncLogger.checkDate, if_pos same, AsyncLogger.checkHandler, AsyncLogger.firstNo, if_neg same]
    split
    · rw [AsyncLogger.reopen, if_pos rfl, ← flag]
      rfl
    · rw [AsyncLogger.reopen, if_pos rfl, ← flag]
      rfl

theorem tell_first_file (log : RotatingLog) (date : Bytes) (inv : RotationInv log) :
    log.tell date = log.sizes (log.logger.numbered date (log.logger.firstNo date)) := by
  rw [RotatingLog.tell, reopened_file log.logger date inv.flag inv.handler]

-- The size is looked at once: the number goes up by at most one.
theorem opened_file (log : RotatingLog) (date : Bytes) (inv : RotationInv log) :
    log.logger.openFile date (log.tell date) =
      let no := if (log.sizes (log.logger.numbered date (log.logger.firstNo date)) : Int) > log.logger.maxFileSize then
        log.logger.firstNo date + 1 else log.logger.firstNo date
      { log.logger with date := date, no := no, fileHandler := some (log.logger.numbered date no) } := by
  rw [AsyncLogger.openFile, tell_first_file log date inv, reopened_file log.logger date inv.flag inv.handler,
    AsyncLogger.rotate]
  split
  · rw [← inv.flag]
    rfl
  · rfl

theorem first_no_bound (log : RotatingLog) (date : Bytes) (inv : RotationInv log) : log.logger.firstNo date < 2 ^ 31 := by
  rw [AsyncLogger.firstNo]
  split
  · exact inv.number
  · decide

def openBatch (log : RotatingLog) (date : Bytes) (tmp : List Bytes) (no : Nat) : RotatingLog :=
  { log with
    logger := { log.logger with
      date := date, no := no, fileHandler := some (log.logger.numbered date no), phase := .writing tmp } }

theorem batch_step (log : RotatingLog) (date : Bytes) (tmp : List Bytes) (inv : RotationInv log)
    (phase : log.logger.phase = .popped tmp) :
    rotationStep log (.loop date) =
      let no := if (log.sizes (log.logger.numbered date (log.logger.firstNo date)) : Int) > log.logger.maxFileSize then
        log.logger.firstNo date + 1 else log.logger.firstNo date
      if no < 2 ^ 31 then some (openBatch log date tmp no) else none := by
  simp only [rotationStep, AsyncLogger.loop, phase, opened_file log date inv, RotatingLog.sizesAfter, Option.bind_eq_bind,
    Option.bind_some]
  rfl

theorem open_batch_inv (log : RotatingLog) (date : Bytes) (tmp : List Bytes) (no : Nat) (inv : RotationInv log)
    (number : no < 2 ^ 31) : RotationInv (openBatch log date tmp no) := by
  refine ⟨inv.flag, ?_, fun rest writing closed => ?_, number⟩
  · intro file opened
    cases opened
    rfl
  · cases closed

theorem open_batch_respects_iff (log : RotatingLog) (date : Bytes) (tmp : List Bytes) (no : Nat)
    (phase : log.logger.phase = .popped tmp) :
    RespectsLimit log (.loop date) (openBatch log date tmp no) ↔
      (log.sizes (log.logger.numbered date no) : Int) ≤ log.logger.maxFileSize := by
  simp only [RespectsLimit, phase]
  exact ⟨fun respects => respects.2.2, fun fits => ⟨rfl, rfl, fits⟩⟩

theorem batch_keeps (log : RotatingLog) (date : Bytes) (tmp : List Bytes) (inv : RotationInv log)
    (phase : log.logger.phase = .popped tmp) (fits : NextFileFits log (.loop date)) :
    ∃ later, rotationStep log (.loop date) = some later ∧ RotationInv later ∧ RespectsLimit log (.loop date) later := by
  rw [batch_step log date tmp inv phase]
  by_cases full : (log.sizes (log.logger.numbered date (log.logger.firstNo date)) : Int) > log.logger.maxFileSize
  · obtain ⟨small, number⟩ := fits tmp phase full
    simp only [if_pos full, if_pos number]
    exact ⟨_, rfl, open_batch_inv log date tmp _ inv number, (open_batch_respects_iff log date tmp _ phase).mpr small⟩
  · have number := first_no_bound log date inv
    simp only [if_neg full, if_pos number]
    exact ⟨_, rfl, open_batch_inv log date tmp _ inv number,
      (open_batch_respects_iff log date tmp _ phase).mpr (Int.not_lt.mp full)⟩

theorem batch_forced (log later : RotatingLog) (date : Bytes) (inv : RotationInv log)
    (taken : rotationStep log (.loop date) = some later) (respects : RespectsLimit log (.loop date) later) :
    NextFileFits log (.loop date) := by
  intro tmp phase full
  rw [batch_step log date tmp inv phase] at taken
  simp only [if_pos full] at taken
  split at taken
  · next number =>
      cases taken
      exact ⟨(open_batch_respects_iff log date tmp _ phase).mp respects, number⟩
  · cases taken

theorem rotation_loop_step (log : RotatingLog) (date : Bytes) (later : AsyncLogger)
    (looped : log.logger.loop date (log.tell date) = some later) (number : later.no < 2 ^ 31) :
    rotationStep log (.loop date) = some { logger := later, sizes := log.sizesAfter } := by
  simp only [rotationStep, looped, if_pos number, Option.bind_eq_bind, Option.bind_some]

theorem write_step_keeps (log : RotatingLog) (date msg : Bytes) (rest : List Bytes) (inv : RotationInv log)
    (phase : log.logger.phase = .writing (msg :: rest)) :
    ∃ later, rotationStep log (.loop date) = some later ∧ RotationInv later ∧ RespectsLimit log (.loop date) later := by
  have opened := inv.opened _ phase
  by_cases empty : msg = []
  · refine ⟨_, rotation_loop_step log date { log.logger with phase := .writing rest } ?_ inv.number,
      ⟨inv.flag, inv.handler, fun _ _ => opened, inv.number⟩, ?_⟩
    · simp only [AsyncLogger.loop, phase, if_pos empty]
    · simp only [RespectsLimit, phase, if_pos empty, List.append_nil]
      exact ⟨rfl, trivial⟩
  · obtain ⟨file, handler⟩ := Option.ne_none_iff_exists'.mp opened
    refine ⟨_, rotation_loop_step log date
      { log.logger with phase := .writing rest, written := log.logger.written ++ [(file, msg)] } ?_ inv.number,
      ⟨inv.flag, inv.handler, fun _ _ => opened, inv.number⟩, ?_⟩
    · simp only [AsyncLogger.loop, phase, if_neg empty, handler, Option.map_some]
    · simp only [RespectsLimit, phase, if_neg empty, inv.handler file handler]
      exact ⟨rfl, trivial⟩

theorem take_batch_keeps (log : RotatingLog) (date : Bytes) (inv : RotationInv log)
    (outside : log.logger.phase = .checking ∨ log.logger.phase = .waiting) :
    ∃ later, rotationStep log (.loop date) = some later ∧ RotationInv later ∧ RespectsLimit log (.loop date) later := by
  have respects (later : RotatingLog) : RespectsLimit log (.loop date) later := by
    rcases outside with checking | waiting
    · simp only [RespectsLimit, checking]
    · simp only [RespectsLimit, waiting]
  cases queue : log.logger.buffers with
  | nil =>
      have step := loop_no_batch log.logger date (log.tell date) outside queue
      refine ⟨_, rotation_loop_step log date _ step inv.number, ⟨inv.flag, inv.handler, ?_, inv.number⟩, respects _⟩
      intro rest writing
      cases writing
  | cons tmp rest =>
      have step := loop_takes_batch log.logger date (log.tell date) tmp rest outside queue
      refine ⟨_, rotation_loop_step log date _ step inv.number, ⟨inv.flag, inv.handler, ?_, inv.number⟩, respects _⟩
      intro rest writing
      cases writing

-- Outside of popped the file and its number stay as they are.
theorem quiet_step_keeps (log : RotatingLog) (date : Bytes) (inv : RotationInv log)
    (phase : ∀ tmp, log.logger.phase ≠ .popped tmp) :
    ∃ later, rotationStep log (.loop date) = some later ∧ RotationInv later ∧ RespectsLimit log (.loop date) later := by
  cases held : log.logger.phase with
  | checking => exact take_batch_keeps log date inv (Or.inl held)
  | waiting => exact take_batch_keeps log date inv (Or.inr held)
  | popped tmp => exact absurd held (phase tmp)
  | writing batch =>
      cases batch with
      | nil =>
          refine ⟨_, rotation_loop_step log date
            { log.logger with phase := if log.logger.stopFlag = true then .returned else .checking } ?_ inv.number,
            ⟨inv.flag, inv.handler, ?_, inv.number⟩, ?_⟩
          · simp only [AsyncLogger.loop, held]
          · intro rest writing
            by_cases stopped : log.logger.stopFlag = true
            · simp [stopped] at writing
            · simp [stopped] at writing
          · simp only [RespectsLimit, held]
      | cons msg rest => exact write_step_keeps log date msg rest inv held
  | returned =>
      refine ⟨_, rotation_loop_step log date log.logger ?_ inv.number, ⟨inv.flag, inv.handler, inv.opened, inv.number⟩, ?_⟩
      · simp only [AsyncLogger.loop, held]
      · simp only [RespectsLimit, held]

theorem rotation_step_keeps (log : RotatingLog) (action : RotationAction) (inv : RotationInv log)
    (fits : NextFileFits log action) :
    ∃ later, rotationStep log action = some later ∧ RotationInv later ∧ RespectsLimit log action later := by
  cases action with
  | loop date =>
      by_cases popped : ∃ tmp, log.logger.phase = .popped tmp
      · obtain ⟨tmp, phase⟩ := popped
        exact batch_keeps log date tmp inv phase fits
      · exact quiet_step_keeps log date inv (not_exists.mp popped)
  | pushLogBuffer msg =>
      refine ⟨_, rfl, ⟨inv.flag, inv.handler, ?_, inv.number⟩, trivial⟩
      intro rest writing
      simp only [AsyncLogger.pushLogBuffer] at writing
      split at writing
      · cases writing
      · exact inv.opened rest writing
  | stop => exact ⟨_, rfl, ⟨inv.flag, inv.handler, inv.opened, inv.number⟩, trivial⟩
  | restart sizes =>
      refine ⟨_, rfl, ⟨rfl, ?_, ?_, Nat.two_pow_pos 31⟩, trivial⟩
      · intro file opened
        cases opened
      · intro rest writing
        cases writing

theorem rotation_step_forced (log : RotatingLog) (action : RotationAction) (later : RotatingLog) (inv : RotationInv log)
    (taken : rotationStep log action = some later) (respects : RespectsLimit log action later) :
    NextFileFits log action := by
  cases action with
  | loop date => exact batch_forced log later date inv taken respects
  | pushLogBuffer msg => trivial
  | stop => trivial
  | restart sizes => trivial

theorem log_rotation_iff (fileName filePath : Bytes) (maxFileSize : Int) (sizes : Bytes → Nat)
    (actions : List RotationAction) :
    Throughout rotationStep RespectsLimit (newRotatingLog fileName filePath maxFileSize sizes) actions ↔
      Guarded rotationStep NextFileFits (newRotatingLog fileName filePath maxFileSize sizes) actions := by
  have initial : RotationInv (newRotatingLog fileName filePath maxFileSize sizes) := by
    refine ⟨rfl, ?_, ?_, Nat.two_pow_pos 31⟩
    · intro file opened
      cases opened
    · intro rest writing
      cases writing
  constructor
  · exact throughout_guarded rotationStep NextFileFits RotationInv RespectsLimit
      (steps_keep rotationStep NextFileFits RotationInv RespectsLimit rotation_step_keeps) rotation_step_forced _ actions
      initial
  · exact guarded_throughout rotationStep NextFileFits RotationInv RespectsLimit rotation_step_keeps _ actions initial

-- A process that is started again on a day whose files 0 and 1 are full.
theorem second_full_file_diverges :
    ¬ Throughout rotationStep RespectsLimit (newRotatingLog [] [] 10 fun _ => 11)
      [.pushLogBuffer [[0x61]], .loop [0x64], .loop [0x64]] := by
  rintro ⟨pushed, first, _, popped, second, _, opened, third, respects, _⟩
  cases first
  cases second
  cases third
  obtain ⟨_, _, fits⟩ := respects
  exact absurd fits (by decide)

end Rocket
