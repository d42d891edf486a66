import Rocket.TcpServer

set_option autoImplicit false

namespace Rocket

open Trace Family

structure LifeCycle (conn : ServerConnection) (action : ConnectionAction) (later : ServerConnection) : Prop where
  closed : conn.state = .closed → later.state = .closed
  setState : ∀ state, action = .setState state → conn.stage ≠ .absent → conn.state ≠ .closed → later.state = state
  watched : later.inClient = true → later.state = .connected → later.registered = true ∨ .addToEpoll ∈ later.tasks

-- onAccept does not find the connection closed when it comes to setState, and
-- setState is only called for Connected, on a connection that is not closed.
def LifeGuard (conn : ServerConnection) : ConnectionAction → Prop
  | .accept => conn.stage = .constructed → conn.state ≠ .closed
  | .setState state => conn.stage ≠ .absent → conn.state ≠ .closed ∧ state = .connected
  | _ => True

instance (conn : ServerConnection) (action : ConnectionAction) : Decidable (LifeGuard conn action) := by
  unfold LifeGuard
  split <;> infer_instance

def Watched (conn : ServerConnection) : Prop := conn.registered = true ∨ .addToEpoll ∈ conn.tasks

structure LifeInv (conn : ServerConnection) : Prop where
  absent : conn.stage = .absent → conn = {}
  watched : conn.stage ≠ .absent → conn.state ≠ .closed → Watched conn

-- A step that is not one of onAccept or setState: it leaves the stage alone and
-- a closed connection closed, and does not lose the registration of an open one.
structure Quiet (conn later : ServerConnection) : Prop where
  stage : later.stage = conn.stage
  closed : conn.state = .closed → later.state = .closed
  absent : conn = {} → later = {}
  watched : later.state ≠ .closed → Watched conn → Watched later

theorem quiet_keeps (conn later : ServerConnection) (quiet : Quiet conn later) (inv : LifeInv conn) : LifeInv later := by
  constructor
  · intro absent
    exact quiet.absent (inv.absent (quiet.stage.symm.trans absent))
  · intro present opened
    rw [quiet.stage] at present
    exact quiet.watched opened (inv.watched present (fun closed => opened (quiet.closed closed)))

theorem quiet_same (conn : ServerConnection) : Quiet conn conn :=
  ⟨rfl, fun closed => closed, fun same => same, fun _ watched => watched⟩

theorem add_epoll_event_watched (conn : ServerConnection) (inLoopThread : Bool) :
    (conn.addEpollEvent inLoopThread).stage = conn.stage ∧ (conn.addEpollEvent inLoopThread).state = conn.state ∧
      (conn.addEpollEvent inLoopThread).inClient = conn.inClient ∧
      ((conn.addEpollEvent inLoopThread).registered = true ∨ .addToEpoll ∈ (conn.addEpollEvent inLoopThread).tasks) := by
  cases inLoopThread with
  | true => exact ⟨rfl, rfl, rfl, Or.inl rfl⟩
  | false => exact ⟨rfl, rfl, rfl, Or.inr (List.mem_append_right _ List.mem_cons_self)⟩

theorem clear_closed (conn : ServerConnection) :
    conn.clear.state = .closed ∧ conn.clear.stage = conn.stage ∧ conn.clear.inClient = conn.inClient := by
  by_cases closed : conn.state = .closed
  · rw [ServerConnection.clear, if_pos closed]
    exact ⟨closed, rfl, rfl⟩
  · rw [ServerConnection.clear, if_neg closed]
    exact ⟨rfl, rfl, rfl⟩

theorem watched_rest (conn : ServerConnection) (task : ConnectionTask) (rest : List ConnectionTask)
    (first : conn.tasks = task :: rest) (other : task ≠ .addToEpoll) (watched : Watched conn) :
    Watched { conn with tasks := rest } := by
  rcases watched with registered | posted
  · exact Or.inl registered
  · rw [first] at posted
    exact Or.inr ((List.mem_cons.mp posted).resolve_left (Ne.symm other))

theorem clear_quiet (conn : ServerConnection) (task : ConnectionTask) (rest : List ConnectionTask)
    (first : conn.tasks = task :: rest) : Quiet conn (ServerConnection.clear { conn with tasks := rest }) := by
  obtain ⟨closed, stage, _⟩ := clear_closed { conn with tasks := rest }
  refine ⟨stage, fun _ => closed, ?_, fun opened => absurd closed opened⟩
  rintro rfl
  cases first

theorem on_read_quiet (conn : ServerConnection) (rest : List ConnectionTask) (input : TaskInput)
    (first : conn.tasks = .onRead :: rest) : Quiet conn (ServerConnection.onRead { conn with tasks := rest } input) := by
  by_cases connected : conn.state ≠ .connected
  · rw [ServerConnection.onRead, if_pos connected]
    exact clear_quiet conn .onRead rest first
  · rw [ServerConnection.onRead, if_neg connected]
    by_cases isClose : input.isClose = true
    · rw [if_pos isClose]
      exact clear_quiet conn .onRead rest first
    · rw [if_neg isClose, ServerConnection.execute]
      have absent : conn ≠ {} := by
        rintro rfl
        cases first
      by_cases answered : input.answered = true
      · rw [if_pos answered]
        exact ⟨rfl, fun closed => closed, fun same => absurd same absent, fun _ _ => Or.inl rfl⟩
      · rw [if_neg answered]
        exact ⟨rfl, fun closed => closed, fun same => absurd same absent,
          fun _ watched => watched_rest conn .onRead rest first (fun same => nomatch same) watched⟩

theorem on_write_quiet (conn : ServerConnection) (rest : List ConnectionTask) (input : TaskInput)
    (first : conn.tasks = .onWrite :: rest) : Quiet conn (ServerConnection.onWrite { conn with tasks := rest } input) := by
  by_cases connected : conn.state ≠ .connected
  · rw [ServerConnection.onWrite, if_pos connected]
    exact clear_quiet conn .onWrite rest first
  · rw [ServerConnection.onWrite, if_neg connected]
    have absent : conn ≠ {} := by
      rintro rfl
      cases first
    by_cases isWriteAll : input.isWriteAll = true
    · rw [if_pos isWriteAll]
      exact ⟨rfl, fun closed => closed, fun same => absurd same absent, fun _ _ => Or.inl rfl⟩
    · rw [if_neg isWriteAll]
      exact ⟨rfl, fun closed => closed, fun same => absurd same absent,
        fun _ watched => watched_rest conn .onWrite rest first (fun same => nomatch same) watched⟩

theorem run_task_quiet (conn : ServerConnection) (input : TaskInput) : Quiet conn (conn.runTask input) := by
  cases tasks : conn.tasks with
  | nil =>
      simp only [ServerConnection.runTask, tasks]
      exact quiet_same conn
  | cons task rest =>
      simp only [ServerConnection.runTask, tasks]
      cases task with
      | addToEpoll =>
          refine ⟨rfl, fun closed => closed, ?_, fun _ _ => Or.inl rfl⟩
          rintro rfl
          cases tasks
      | onRead => exact on_read_quiet conn rest input tasks
      | onWrite => exact on_write_quiet conn rest input tasks

theorem poll_quiet (conn : ServerConnection) (readable writable : Bool) : Quiet conn (conn.poll readable writable) := by
  by_cases registered : conn.registered = true
  · rw [ServerConnection.poll, if_pos registered]
    refine ⟨rfl, fun closed => closed, ?_, fun _ _ => Or.inl registered⟩
    rintro rfl
    cases registered
  · rw [ServerConnection.poll, if_neg registered]
    exact quiet_same conn

theorem run_closure_quiet (conn : ServerConnection) (inLoopThread : Bool) : Quiet conn (conn.runClosure inLoopThread) := by
  by_cases none : conn.closures = 0
  · rw [ServerConnection.runClosure, if_pos none]
    exact quiet_same conn
  · rw [ServerConnection.runClosure, if_neg none]
    obtain ⟨stage, state, _, watched⟩ := add_epoll_event_watched { conn with closures := conn.closures - 1 } inLoopThread
    refine ⟨stage, fun closed => state.trans closed, ?_, fun _ _ => watched⟩
    rintro rfl
    exact absurd rfl none

theorem clear_client_timer_quiet (conn : ServerConnection) : Quiet conn conn.clearClientTimer := by
  by_cases swept : conn.inClient = true ∧ conn.state = .closed
  · rw [ServerConnection.clearClientTimer, if_pos swept]
    refine ⟨rfl, fun closed => closed, ?_, fun _ watched => watched⟩
    rintro rfl
    cases swept.1
  · rw [ServerConnection.clearClientTimer, if_neg swept]
    exact quiet_same conn

theorem shutdown_quiet (conn : ServerConnection) : Quiet conn conn.shutdown := by
  by_cases left : conn.state = .closed ∨ conn.state = .notConnected
  · rw [ServerConnection.shutdown, if_pos left]
    exact quiet_same conn
  · rw [ServerConnection.shutdown, if_neg left]
    refine ⟨rfl, fun closed => absurd (Or.inl closed) left, ?_, fun _ watched => watched⟩
    rintro rfl
    exact absurd (Or.inr rfl) left

theorem quiet_step (conn : ServerConnection) (action : ConnectionAction) (loud : action ≠ .accept)
    (notSet : ∀ state, action ≠ .setState state) : ∃ later, connectionStep conn action = some later ∧ Quiet conn later := by
  cases action with
  | accept => exact absurd rfl loud
  | poll readable writable => exact ⟨_, rfl, poll_quiet conn readable writable⟩
  | runTask input => exact ⟨_, rfl, run_task_quiet conn input⟩
  | runClosure inLoopThread => exact ⟨_, rfl, run_closure_quiet conn inLoopThread⟩
  | clearClientTimer => exact ⟨_, rfl, clear_client_timer_quiet conn⟩
  | shutdown =>
      by_cases absent : conn.stage = .absent
      · exact ⟨conn, if_pos absent, quiet_same conn⟩
      · exact ⟨_, if_neg absent, shutdown_quiet conn⟩
  | setState state => exact absurd rfl (notSet state)

theorem life_inv_watched (conn : ServerConnection) (inv : LifeInv conn) (inClient : conn.inClient = true)
    (connected : conn.state = .connected) : Watched conn := by
  refine inv.watched ?_ (by simp [connected])
  intro absent
  rw [inv.absent absent] at inClient
  cases inClient

theorem set_connected_keeps (conn : ServerConnection) (stage : AcceptStage) (inv : LifeInv conn)
    (present : conn.stage ≠ .absent) (opened : conn.state ≠ .closed) (after : stage ≠ .absent) :
    LifeInv (ServerConnection.setState { conn with stage := stage } .connected) :=
  ⟨fun absent => absurd absent after, fun _ _ => inv.watched present opened⟩

theorem accept_keeps (conn : ServerConnection) (inv : LifeInv conn) (guard : conn.stage = .constructed → conn.state ≠ .closed) :
    LifeInv conn.accept ∧ (conn.state = .closed → conn.accept.state = .closed) := by
  rw [ServerConnection.accept]
  cases stage : conn.stage with
  | absent =>
      rw [inv.absent stage]
      exact ⟨⟨(fun wrong => nomatch wrong), fun _ _ => Or.inr List.mem_cons_self⟩, fun wrong => nomatch wrong⟩
  | constructed =>
      have opened := guard stage
      exact ⟨set_connected_keeps conn .connected inv (by simp [stage]) opened (fun wrong => nomatch wrong),
        fun closed => absurd closed opened⟩
  | connected =>
      exact ⟨⟨(fun wrong => nomatch wrong), fun _ opened => inv.watched (by simp [stage]) opened⟩, fun closed => closed⟩
  | inserted => exact ⟨inv, fun closed => closed⟩

theorem life_step_spec (conn : ServerConnection) (action : ConnectionAction) (inv : LifeInv conn)
    (guard : LifeGuard conn action) :
    ∃ later, connectionStep conn action = some later ∧ LifeInv later ∧ LifeCycle conn action later := by
  by_cases loud : action = .accept
  · subst loud
    obtain ⟨kept, closed⟩ := accept_keeps conn inv guard
    exact ⟨_, rfl, kept, closed, (fun _ wrong => nomatch wrong), life_inv_watched _ kept⟩
  · by_cases setting : ∃ state, action = .setState state
    · obtain ⟨state, rfl⟩ := setting
      by_cases absent : conn.stage = .absent
      · exact ⟨conn, if_pos absent, inv, fun closed => closed, fun _ _ present => absurd absent present,
          life_inv_watched conn inv⟩
      · obtain ⟨opened, rfl⟩ := guard absent
        have kept := set_connected_keeps conn conn.stage inv absent opened absent
        refine ⟨conn.setState .connected, if_neg absent, kept, fun closed => absurd closed opened, ?_,
          life_inv_watched _ kept⟩
        intro state same _ _
        cases same
        rfl
    · obtain ⟨later, taken, quiet⟩ := quiet_step conn action loud (fun state same => setting ⟨state, same⟩)
      have kept := quiet_keeps conn later quiet inv
      exact ⟨later, taken, kept, quiet.closed, fun state same => absurd ⟨state, same⟩ setting, life_inv_watched later kept⟩

theorem life_step_forced (conn later : ServerConnection) (action : ConnectionAction)
    (taken : connectionStep conn action = some later) (good : LifeCycle conn action later) : LifeGuard conn action := by
  cases action with
  | accept =>
      intro constructed closed
      have connected : later.state = .connected := by
        simp only [connectionStep, ServerConnection.accept, constructed, Option.some.injEq] at taken
        rw [← taken]
        rfl
      cases connected.symm.trans (good.closed closed)
  | setState state =>
      intro present
      have connected : later.state = .connected := by
        rw [connectionStep, if_neg present, Option.some.injEq] at taken
        rw [← taken]
        rfl
      have opened : conn.state ≠ .closed := fun closed => nomatch connected.symm.trans (good.closed closed)
      exact ⟨opened, (good.setState state rfl present opened).symm.trans connected⟩
  | _ => trivial

theorem life_starts : EachInv (ι := Nat) LifeInv (fun _ => {}) :=
  fun _ => ⟨fun _ => rfl, fun present => absurd rfl present⟩

theorem life_cycle_guarded (actions : List (Nat × ConnectionAction))
    (throughout : Throughout (each connectionStep) (EachGood LifeCycle) (fun _ => {}) actions) :
    Guarded (each connectionStep) (EachGuard LifeGuard) (fun _ => {}) actions :=
  each_throughout_guarded connectionStep LifeGuard LifeInv LifeCycle
    (steps_keep connectionStep LifeGuard LifeInv LifeCycle life_step_spec)
    (fun conn action later _ taken good => life_step_forced conn later action taken good) _ actions life_starts throughout

theorem life_cycle_iff (actions : List (Nat × ConnectionAction)) :
    Throughout (each connectionStep) (EachGood LifeCycle) (fun _ => {}) actions ↔
      Guarded (each connectionStep) (EachGuard LifeGuard) (fun _ => {}) actions :=
  ⟨life_cycle_guarded actions,
    each_guarded_throughout connectionStep LifeGuard LifeInv LifeCycle life_step_spec _ actions life_starts⟩

-- The registration and the first bytes overtake onAccept: onRead finds the
-- connection not connected yet and closes it, and setState opens it again.
def earlyData : List (Nat × ConnectionAction) :=
  [(0, .accept), (0, .runTask {}), (0, .poll true false), (0, .runTask {}), (0, .accept), (0, .accept)]

example :
    (run (each connectionStep) (fun _ => {}) earlyData).map (fun conns => conns 0) =
      some { stage := .inserted, state := .connected, inClient := true } := by
  decide

theorem early_data_diverges : ¬ Throughout (each connectionStep) (EachGood LifeCycle) (fun _ => {}) earlyData :=
  fun throughout => absurd (life_cycle_guarded earlyData throughout) (by decide)

end Rocket
