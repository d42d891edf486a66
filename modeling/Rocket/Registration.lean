import Rocket.Descriptors
import Rocket.TaskOrder

set_option autoImplicit false

namespace Rocket

open Trace

-- What getEpollEvent gives to epoll_ctl, the pointer to the FdEvent left out.
structure EpollMask where
  epollIn : Bool
  epollOut : Bool
  epollErr : Bool
deriving DecidableEq, Repr

def FdEvent.getEpollEvent {κ : Type} (event : FdEvent κ) : EpollMask := ⟨event.epollIn, event.epollOut, event.epollErr⟩

inductive EpollCall where
  | addEpollEvent (fd : Nat)
  | deleteEpollEvent (fd : Nat)
deriving DecidableEq, Repr

def EpollCall.fd : EpollCall → Nat
  | .addEpollEvent fd => fd
  | .deleteEpollEvent fd => fd

inductive FdChange where
  | listen (eventType : TriggerEvent) (callback : Nat) (errorCallback : Option Nat)
  | cancle (eventType : TriggerEvent)
deriving DecidableEq, Repr

-- The FdEvents of one loop with m_listen_fds, and what the kernel knows: the
-- mask of each registered fd. errors has the fd of each epoll_ctl that failed.
structure EpollTable where
  fdEvents : Nat → FdEvent Nat := fun _ => {}
  interest : Nat → Option EpollMask := fun _ => none
  listenFds : Finset Nat := ∅
  errors : List Nat := []

def FdChange.apply (event : FdEvent Nat) : FdChange → FdEvent Nat
  | .listen eventType callback errorCallback => event.listen eventType callback errorCallback
  | .cancle eventType => event.cancle eventType

def EpollTable.change (table : EpollTable) (fd : Nat) (change : FdChange) : EpollTable :=
  { table with fdEvents := Function.update table.fdEvents fd (change.apply (table.fdEvents fd)) }

-- epoll_ctl on an open fd.
def EpollTable.control (table : EpollTable) (op : EpollOp) (fd : Nat) : EpollTable :=
  let mask := (table.fdEvents fd).getEpollEvent
  let failed := { table with errors := fd :: table.errors }
  match op with
  | .add => if table.interest fd = none then { table with interest := Function.update table.interest fd (some mask) } else failed
  | .mod => if table.interest fd = none then failed else { table with interest := Function.update table.interest fd (some mask) }
  | .del => if table.interest fd = none then failed else { table with interest := Function.update table.interest fd none }

-- ADD_TO_EPOLL and DELETE_FROM_EPOLL. The mask is the one of the moment at which
-- the macro runs, not the one of the call.
def EpollCall.perform (table : EpollTable) : EpollCall → EpollTable
  | .addEpollEvent fd =>
      let called := table.control (if fd ∈ table.listenFds then .mod else .add) fd
      { called with listenFds := insert fd called.listenFds }
  | .deleteEpollEvent fd =>
      if fd ∉ table.listenFds then table
      else
        let called := table.control .del fd
        { called with listenFds := called.listenFds.erase fd }

-- changing has a thread and an fd from a change of the FdEvent until the thread
-- makes its call; none is the thread of the loop. made and executed have the
-- calls in the order of the callers and in that of the loop thread.
structure Registration where
  history : TaskHistory := {}
  table : EpollTable := {}
  changing : List (Option Nat × Nat) := []
  made : List EpollCall := []
  executed : List EpollCall := []

-- A task is the lambda of a call made off the loop thread when lambdas says so,
-- and a callback that leaves this table to its own actions otherwise.
def epollCallOf (lambdas : Nat → Option EpollCall) : Task → Option EpollCall
  | .other number => lambdas number
  | _ => none

def callsIn (lambdas : Nat → Option EpollCall) (tasks : List Task) : List EpollCall := tasks.filterMap (epollCallOf lambdas)

def taskStarts (history : TaskHistory) : TaskAction → List Task
  | .loop action => startedBy history.loop action
  | .addTask _ => []

def taskPushes (history : TaskHistory) : TaskAction → List Task
  | .loop action => pushedBy history.loop action
  | .addTask task => [task]

inductive RegistrationAction where
  | change (thread : Option Nat) (fd : Nat) (change : FdChange)
  | inLoop (call : EpollCall)
  | task (action : TaskAction)
deriving DecidableEq, Repr

def callerOf : TaskAction → Option Nat
  | .loop (.push caller _) => some caller
  | _ => none

def madeBy (changing : List (Option Nat × Nat)) (thread : Option Nat) (calls : List EpollCall) : List (Option Nat × Nat) :=
  changing.filter fun entry => ∀ call ∈ calls, entry ≠ (thread, call.fd)

-- A turn of the task queue has come to history.
def afterTask (lambdas : Nat → Option EpollCall) (reg : Registration) (action : TaskAction) (history : TaskHistory) :
    Registration :=
  let ran := callsIn lambdas (taskStarts reg.history action)
  let pushed := callsIn lambdas (taskPushes reg.history action)
  { history
    table := ran.foldl EpollCall.perform reg.table
    changing := madeBy reg.changing (callerOf action) pushed
    made := reg.made ++ pushed
    executed := reg.executed ++ ran }

def registrationStep (lambdas : Nat → Option EpollCall) (reg : Registration) : RegistrationAction → Option Registration
  | .change thread fd change => some { reg with table := reg.table.change fd change, changing := (thread, fd) :: reg.changing }
  | .inLoop call =>
      some { reg with
        table := call.perform reg.table
        changing := madeBy reg.changing none [call]
        made := reg.made ++ [call]
        executed := reg.executed ++ [call] }
  | .task action => do
      let history ← taskStep reg.history action
      some (afterTask lambdas reg action history)

def waiting (history : TaskHistory) : List Task := history.loop.tmpTasks ++ history.loop.pendingTasks

def callsOn (fd : Nat) (calls : List EpollCall) : List EpollCall := calls.filter fun call => call.fd = fd

-- The last of the calls on the fd has added it.
def Registered (calls : List EpollCall) (fd : Nat) : Prop := (callsOn fd calls).getLast? = some (.addEpollEvent fd)

-- No thread is between a change and its call, and no call on the fd is queued.
structure FdQuiet (lambdas : Nat → Option EpollCall) (reg : Registration) (fd : Nat) : Prop where
  unchanged : ∀ thread, (thread, fd) ∉ reg.changing
  drained : callsOn fd (callsIn lambdas (waiting reg.history)) = []

instance (calls : List EpollCall) (fd : Nat) : Decidable (Registered calls fd) :=
  inferInstanceAs (Decidable ((callsOn fd calls).getLast? = some (.addEpollEvent fd)))

def wantedMask (table : EpollTable) (calls : List EpollCall) (fd : Nat) : Option EpollMask :=
  if Registered calls fd then some (table.fdEvents fd).getEpollEvent else none

-- m_listen_fds is what the kernel has, no epoll_ctl fails, and once an fd is
-- quiet the kernel watches it exactly as its FdEvent says.
structure TableSound (lambdas : Nat → Option EpollCall) (reg : Registration) : Prop where
  agrees : ∀ fd, fd ∈ reg.table.listenFds ↔ reg.table.interest fd ≠ none
  errors : reg.table.errors = []
  registered : ∀ fd, reg.table.interest fd ≠ none ↔ Registered reg.executed fd
  current : ∀ fd, FdQuiet lambdas reg fd → reg.table.interest fd = wantedMask reg.table reg.executed fd

-- The calls on each fd run in the order in which they were made.
structure OrderKept (lambdas : Nat → Option EpollCall) (reg : Registration) : Prop where
  order : ∀ fd, callsOn fd reg.executed ++ callsOn fd (callsIn lambdas (waiting reg.history)) = callsOn fd reg.made
  synchronous : ∀ fd, FdQuiet lambdas reg fd → reg.table.interest fd = wantedMask reg.table reg.made fd

-- A call of the loop thread overtakes the queued ones on its fd, which is seen
-- unless they all ask for the same.
def RegistrationGuard (lambdas : Nat → Option EpollCall) (reg : Registration) : RegistrationAction → Prop
  | .inLoop call => ∀ queued ∈ callsOn call.fd (callsIn lambdas (waiting reg.history)), queued = call
  | _ => True

variable (lambdas : Nat → Option EpollCall)

structure TableInv (table : EpollTable) (executed : List EpollCall) : Prop where
  agrees : ∀ fd, fd ∈ table.listenFds ↔ table.interest fd ≠ none
  errors : table.errors = []
  registered : ∀ fd, table.interest fd ≠ none ↔ Registered executed fd

-- A mask the kernel has not been told of is one that a thread is about to tell.
def MasksTold (table : EpollTable) (changing : List (Option Nat × Nat)) (queued : List EpollCall) : Prop :=
  ∀ fd mask, table.interest fd = some mask → mask = (table.fdEvents fd).getEpollEvent ∨
    (∃ thread, (thread, fd) ∈ changing) ∨ ∃ call ∈ queued, call.fd = fd

theorem calls_on_append (fd : Nat) (first second : List EpollCall) :
    callsOn fd (first ++ second) = callsOn fd first ++ callsOn fd second := by
  rw [callsOn, List.filter_append]
  rfl

theorem calls_on_same (call : EpollCall) : callsOn call.fd [call] = [call] := by
  simp [callsOn]

theorem calls_on_other (fd : Nat) (call : EpollCall) (different : call.fd ≠ fd) : callsOn fd [call] = [] := by
  simp [callsOn, different]

theorem registered_same (calls : List EpollCall) (call : EpollCall) :
    Registered (calls ++ [call]) call.fd ↔ call = .addEpollEvent call.fd := by
  rw [Registered, calls_on_append, calls_on_same, List.getLast?_concat, Option.some.injEq]

theorem registered_other (calls : List EpollCall) (call : EpollCall) (fd : Nat) (different : call.fd ≠ fd) :
    Registered (calls ++ [call]) fd ↔ Registered calls fd := by
  rw [Registered, calls_on_append, calls_on_other fd call different, List.append_nil]
  rfl

-- What a call asks the kernel for.
def EpollCall.asks (table : EpollTable) : EpollCall → Option EpollMask
  | .addEpollEvent fd => some (table.fdEvents fd).getEpollEvent
  | .deleteEpollEvent _ => none

structure Performs (table : EpollTable) (call : EpollCall) (later : EpollTable) : Prop where
  interest : later.interest = Function.update table.interest call.fd (call.asks table)
  listens : ∀ fd, fd ∈ later.listenFds ↔ later.interest fd ≠ none
  errors : later.errors = table.errors
  fdEvents : later.fdEvents = table.fdEvents

theorem perform_spec (table : EpollTable) (call : EpollCall) (agrees : ∀ fd, fd ∈ table.listenFds ↔ table.interest fd ≠ none) :
    Performs table call (call.perform table) := by
  cases call with
  | addEpollEvent fd =>
      have told : table.control (if fd ∈ table.listenFds then .mod else .add) fd =
          { table with interest := Function.update table.interest fd (some (table.fdEvents fd).getEpollEvent) } := by
        by_cases listened : fd ∈ table.listenFds
        · rw [if_pos listened]
          exact if_neg ((agrees fd).mp listened)
        · rw [if_neg listened]
          exact if_pos (not_not.mp (mt (agrees fd).mpr listened))
      simp only [EpollCall.perform, told]
      refine ⟨rfl, ?_, rfl, rfl⟩
      intro other
      by_cases same : other = fd
      · simp [same]
      · simp [same, agrees other]
  | deleteEpollEvent fd =>
      by_cases listened : fd ∈ table.listenFds
      · have told : table.control .del fd = { table with interest := Function.update table.interest fd none } :=
          if_neg ((agrees fd).mp listened)
        simp only [EpollCall.perform, if_neg (not_not.mpr listened), told]
        refine ⟨rfl, ?_, rfl, rfl⟩
        intro other
        by_cases same : other = fd
        · simp [same]
        · simp [same, agrees other]
      · have unknown : table.interest fd = none := not_not.mp (mt (agrees fd).mpr listened)
        simp only [EpollCall.perform, if_pos listened]
        refine ⟨?_, agrees, rfl, rfl⟩
        simp only [EpollCall.asks, EpollCall.fd]
        rw [← unknown, Function.update_eq_self]

theorem asks_registers (table : EpollTable) (call : EpollCall) : call.asks table ≠ none ↔ call = .addEpollEvent call.fd := by
  cases call <;> simp [EpollCall.asks, EpollCall.fd]

theorem perform_keeps (table : EpollTable) (executed : List EpollCall) (call : EpollCall) (inv : TableInv table executed) :
    TableInv (call.perform table) (executed ++ [call]) := by
  have performs := perform_spec table call inv.agrees
  refine ⟨performs.listens, performs.errors.trans inv.errors, ?_⟩
  intro fd
  rw [performs.interest]
  by_cases same : call.fd = fd
  · subst same
    rw [Function.update_self, asks_registers, registered_same]
  · rw [Function.update_of_ne (Ne.symm same), registered_other executed call fd same]
    exact inv.registered fd

theorem perform_tells (table : EpollTable) (changing : List (Option Nat × Nat)) (call : EpollCall) (queued : List EpollCall)
    (agrees : ∀ fd, fd ∈ table.listenFds ↔ table.interest fd ≠ none) (told : MasksTold table changing (call :: queued)) :
    MasksTold (call.perform table) changing queued := by
  have performs := perform_spec table call agrees
  intro fd mask here
  rw [performs.interest] at here
  rw [performs.fdEvents]
  by_cases same : call.fd = fd
  · subst same
    rw [Function.update_self] at here
    cases call with
    | addEpollEvent fd => exact Or.inl (Option.some.inj here).symm
    | deleteEpollEvent fd => cases here
  · rw [Function.update_of_ne (Ne.symm same)] at here
    rcases told fd mask here with current | changed | ⟨other, member, onFd⟩
    · exact Or.inl current
    · exact Or.inr (Or.inl changed)
    · rcases List.mem_cons.mp member with rfl | further
      · exact absurd onFd same
      · exact Or.inr (Or.inr ⟨other, further, onFd⟩)

theorem performs_keep (table : EpollTable) (executed ran : List EpollCall) (changing : List (Option Nat × Nat))
    (queued : List EpollCall) (inv : TableInv table executed) (told : MasksTold table changing (ran ++ queued)) :
    TableInv (ran.foldl EpollCall.perform table) (executed ++ ran) ∧
      MasksTold (ran.foldl EpollCall.perform table) changing queued := by
  induction ran generalizing table executed with
  | nil => exact ⟨by rw [List.append_nil]; exact inv, told⟩
  | cons call ran ih =>
      rw [List.foldl_cons, ← List.singleton_append, ← List.append_assoc]
      exact ih (call.perform table) (executed ++ [call]) (perform_keeps table executed call inv)
        (perform_tells table changing call (ran ++ queued) inv.agrees told)

theorem made_by_tells (table : EpollTable) (changing : List (Option Nat × Nat)) (thread : Option Nat)
    (queued made : List EpollCall) (told : MasksTold table changing queued) :
    MasksTold table (madeBy changing thread made) (queued ++ made) := by
  intro fd mask here
  rcases told fd mask here with current | ⟨other, member⟩ | ⟨call, member, onFd⟩
  · exact Or.inl current
  · by_cases answered : ∀ call ∈ made, (other, fd) ≠ (thread, call.fd)
    · refine Or.inr (Or.inl ⟨other, List.mem_filter.mpr ⟨member, ?_⟩⟩)
      exact decide_eq_true answered
    · obtain ⟨call, byThread, same⟩ : ∃ call ∈ made, (other, fd) = (thread, call.fd) := by simpa using answered
      exact Or.inr (Or.inr ⟨call, List.mem_append_right _ byThread, (Prod.mk.inj same).2.symm⟩)
  · exact Or.inr (Or.inr ⟨call, List.mem_append_left _ member, onFd⟩)

theorem change_tells (table : EpollTable) (changing : List (Option Nat × Nat)) (thread : Option Nat) (fd : Nat)
    (change : FdChange) (queued : List EpollCall) (told : MasksTold table changing queued) :
    MasksTold (table.change fd change) ((thread, fd) :: changing) queued := by
  intro other mask here
  by_cases same : other = fd
  · exact Or.inr (Or.inl ⟨thread, by rw [same]; exact List.mem_cons_self⟩)
  · have kept : (table.change fd change).fdEvents other = table.fdEvents other := Function.update_of_ne same _ _
    rw [kept]
    rcases told other mask here with current | ⟨party, member⟩ | calling
    · exact Or.inl current
    · exact Or.inr (Or.inl ⟨party, List.mem_cons_of_mem _ member⟩)
    · exact Or.inr (Or.inr calling)

structure RegistrationInv (reg : Registration) : Prop where
  tasks : TaskInv reg.history
  table : TableInv reg.table reg.executed
  told : MasksTold reg.table reg.changing (callsIn lambdas (waiting reg.history))

-- What has started and what waits are together what has been pushed.
theorem task_step_waiting (history later : TaskHistory) (action : TaskAction) (inv : TaskInv history)
    (taken : taskStep history action = some later) :
    TaskInv later ∧ waiting history ++ taskPushes history action = taskStarts history action ++ waiting later := by
  obtain ⟨next, takenNext, kept, _⟩ := task_step_spec history action inv
  cases taken.symm.trans takenNext
  refine ⟨kept, ?_⟩
  have before := inv.kept
  have behind := kept.kept
  have logs : later.started = history.started ++ taskStarts history action ∧
      later.pushed = history.pushed ++ taskPushes history action := by
    cases action with
    | addTask task =>
        cases taken
        exact ⟨(List.append_nil _).symm, rfl⟩
    | loop action =>
        simp only [taskStep, Option.bind_eq_bind, Option.bind_eq_some_iff] at taken
        obtain ⟨loop, _, same⟩ := taken
        cases same
        exact ⟨rfl, rfl⟩
  rw [TasksKept] at before behind
  rw [logs.1, logs.2, ← before] at behind
  simp only [waiting, List.append_assoc] at behind ⊢
  exact (List.append_cancel_left behind).symm

theorem calls_in_append (first second : List Task) : callsIn lambdas (first ++ second) = callsIn lambdas first ++ callsIn lambdas second :=
  List.filterMap_append

theorem in_loop_keeps (reg : Registration) (call : EpollCall) (inv : RegistrationInv lambdas reg) :
    ∃ later, registrationStep lambdas reg (.inLoop call) = some later ∧ RegistrationInv lambdas later := by
  have made := made_by_tells reg.table reg.changing none _ [call] inv.told
  have first : MasksTold reg.table (madeBy reg.changing none [call]) (call :: callsIn lambdas (waiting reg.history)) := by
    intro fd mask here
    rcases made fd mask here with current | changed | ⟨other, member, onFd⟩
    · exact Or.inl current
    · exact Or.inr (Or.inl changed)
    · exact Or.inr (Or.inr ⟨other, List.perm_append_singleton call _ |>.mem_iff.mp member, onFd⟩)
  exact ⟨_, rfl, inv.tasks, perform_keeps reg.table reg.executed call inv.table,
    perform_tells reg.table _ call _ inv.table.agrees first⟩

theorem task_keeps (reg : Registration) (action : TaskAction) (inv : RegistrationInv lambdas reg) :
    ∃ later, registrationStep lambdas reg (.task action) = some later ∧ RegistrationInv lambdas later := by
  obtain ⟨later, taken, _⟩ := task_step_spec reg.history action inv.tasks
  obtain ⟨kept, waits⟩ := task_step_waiting reg.history later action inv.tasks taken
  have queued := congrArg (callsIn lambdas) waits
  rw [calls_in_append, calls_in_append] at queued
  have told := made_by_tells reg.table reg.changing (callerOf action) _ (callsIn lambdas (taskPushes reg.history action)) inv.told
  rw [queued] at told
  obtain ⟨table, toldLater⟩ := performs_keep reg.table reg.executed _ _ _ inv.table told
  refine ⟨afterTask lambdas reg action later, ?_, kept, table, toldLater⟩
  simp only [registrationStep, taken, Option.bind_eq_bind, Option.bind_some]

theorem registration_step_keeps (reg : Registration) (action : RegistrationAction) (inv : RegistrationInv lambdas reg) :
    ∃ later, registrationStep lambdas reg action = some later ∧ RegistrationInv lambdas later := by
  cases action with
  | change thread fd change =>
      exact ⟨_, rfl, inv.tasks, { inv.table with }, change_tells reg.table reg.changing thread fd change _ inv.told⟩
  | inLoop call => exact in_loop_keeps lambdas reg call inv
  | task action => exact task_keeps lambdas reg action inv

theorem quiet_told (reg : Registration) (fd : Nat) (inv : RegistrationInv lambdas reg) (quiet : FdQuiet lambdas reg fd) :
    reg.table.interest fd = wantedMask reg.table reg.executed fd := by
  have known := inv.table.registered fd
  rw [wantedMask]
  cases here : reg.table.interest fd with
  | none => rw [if_neg (mt known.mpr (not_not.mpr here))]
  | some mask =>
      rw [if_pos (known.mp (by rw [here]; simp))]
      rcases inv.told fd mask here with current | ⟨thread, changed⟩ | ⟨call, member, onFd⟩
      · rw [current]
      · exact absurd changed (quiet.unchanged thread)
      · have onQueue : call ∈ callsOn fd (callsIn lambdas (waiting reg.history)) :=
          List.mem_filter.mpr ⟨member, decide_eq_true onFd⟩
        rw [quiet.drained] at onQueue
        cases onQueue

theorem new_registration_inv : RegistrationInv lambdas {} where
  tasks := ⟨rfl, Or.inl rfl⟩
  table := ⟨by simp, rfl, by simp [Registered, callsOn]⟩
  told := by
    intro fd mask here
    cases here

theorem registrations_sound (actions : List RegistrationAction) :
    Always (registrationStep lambdas) (TableSound lambdas) {} actions := by
  apply free_always (registrationStep lambdas) (RegistrationInv lambdas) (TableSound lambdas) _
    (registration_step_keeps lambdas) {} actions (new_registration_inv lambdas)
  intro reg inv
  exact ⟨inv.table.agrees, inv.table.errors, inv.table.registered, fun fd quiet => quiet_told lambdas reg fd inv quiet⟩

structure OrderInv (reg : Registration) : Prop where
  registration : RegistrationInv lambdas reg
  order : ∀ fd, callsOn fd reg.executed ++ callsOn fd (callsIn lambdas (waiting reg.history)) = callsOn fd reg.made

theorem order_inv_kept (reg : Registration) (inv : OrderInv lambdas reg) : OrderKept lambdas reg := by
  refine ⟨inv.order, ?_⟩
  intro fd quiet
  have same := inv.order fd
  rw [quiet.drained, List.append_nil] at same
  have sameCalls : Registered reg.executed fd ↔ Registered reg.made fd := by rw [Registered, Registered, same]
  rw [quiet_told lambdas reg fd inv.registration quiet]
  exact if_congr sameCalls rfl rfl

theorem append_comm_iff (call : EpollCall) (queued : List EpollCall) :
    call :: queued = queued ++ [call] ↔ ∀ other ∈ queued, other = call := by
  induction queued with
  | nil => simp
  | cons first rest ih =>
      rw [List.cons_append, List.cons.injEq, List.forall_mem_cons, ← ih]
      constructor
      · rintro ⟨same, further⟩
        exact ⟨same.symm, same ▸ further⟩
      · rintro ⟨same, further⟩
        exact ⟨same.symm, same ▸ further⟩

theorem in_loop_order (executed queued made : List EpollCall) (call : EpollCall) (order : executed ++ queued = made) :
    executed ++ [call] ++ queued = made ++ [call] ↔ ∀ other ∈ queued, other = call := by
  rw [← order, List.append_assoc, List.append_assoc, List.append_cancel_left_eq, List.singleton_append]
  exact append_comm_iff call queued

theorem registration_step_decided (reg : Registration) (action : RegistrationAction) (inv : OrderInv lambdas reg) :
    ∃ later, registrationStep lambdas reg action = some later ∧
      (RegistrationGuard lambdas reg action → OrderInv lambdas later) ∧
      (OrderKept lambdas later → RegistrationGuard lambdas reg action) := by
  obtain ⟨later, taken, kept⟩ := registration_step_keeps lambdas reg action inv.registration
  refine ⟨later, taken, ?_⟩
  cases action with
  | change thread fd change =>
      cases taken
      exact ⟨fun _ => ⟨kept, inv.order⟩, fun _ => trivial⟩
  | inLoop call =>
      cases taken
      refine ⟨fun allowed => ⟨kept, ?_⟩, ?_⟩
      · intro fd
        rw [calls_on_append, calls_on_append]
        by_cases same : call.fd = fd
        · subst same
          rw [calls_on_same]
          exact (in_loop_order _ _ _ call (inv.order call.fd)).mpr allowed
        · rw [calls_on_other fd call same, List.append_nil, List.append_nil]
          exact inv.order fd
      · intro good
        have order := good.order call.fd
        rw [calls_on_append, calls_on_append, calls_on_same] at order
        exact (in_loop_order _ _ _ call (inv.order call.fd)).mp order
  | task action =>
      refine ⟨fun _ => ⟨kept, ?_⟩, fun _ => trivial⟩
      simp only [registrationStep, Option.bind_eq_bind, Option.bind_eq_some_iff] at taken
      obtain ⟨history, stepped, same⟩ := taken
      cases same
      obtain ⟨_, waits⟩ := task_step_waiting reg.history history action inv.registration.tasks stepped
      have queued := congrArg (callsIn lambdas) waits
      rw [calls_in_append, calls_in_append] at queued
      intro fd
      have onFd := congrArg (callsOn fd) queued
      rw [calls_on_append, calls_on_append] at onFd
      simp only [afterTask]
      rw [calls_on_append, calls_on_append, ← inv.order fd, List.append_assoc, List.append_assoc, onFd]

-- Whatever the threads do, a registration that waits in the queue is as good as
-- one made at once, exactly when the loop thread never overtakes it.
theorem registrations_in_order_iff (actions : List RegistrationAction) :
    Always (registrationStep lambdas) (OrderKept lambdas) {} actions ↔
      Guarded (registrationStep lambdas) (RegistrationGuard lambdas) {} actions :=
  always_iff_decided (registrationStep lambdas) (RegistrationGuard lambdas) (OrderInv lambdas) (OrderKept lambdas)
    (order_inv_kept lambdas) (registration_step_decided lambdas) {} actions ⟨new_registration_inv lambdas, fun _ => rfl⟩

-- The thread 1 adds fd 5 and listens for OUT_EVENT too before the loop thread
-- has come to the lambda.
example : (run (registrationStep fun number => if number = 0 then some (.addEpollEvent 5) else none) {}
      [.change (some 1) 5 (.listen .inEvent 2 none), .task (.loop (.push 1 (.other 0))),
        .change (some 1) 5 (.listen .outEvent 3 none), .task (.loop .swap), .task (.loop .runTask)]).map
      (fun reg => (reg.table.interest 5, reg.changing)) = some (some ⟨true, true, true⟩, [(some 1, 5)]) := by
  decide +kernel

end Rocket
