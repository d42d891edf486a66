import Rocket.TcpServer

set_option autoImplicit false

namespace Rocket

open Trace Family

-- The steps that run code of the connection through its raw pointer.
def RunsWork (conn : ServerConnection) : ConnectionAction → Prop
  | .runTask _ => conn.tasks.head? = some .onRead ∨ conn.tasks.head? = some .onWrite
  | .runClosure _ => conn.closures ≠ 0
  | _ => False

instance (conn : ServerConnection) (action : ConnectionAction) : Decidable (RunsWork conn action) := by
  unfold RunsWork
  split <;> infer_instance

def WorkOwned (conn : ServerConnection) (action : ConnectionAction) (_later : ServerConnection) : Prop :=
  RunsWork conn action → conn.inClient = true

instance (conn : ServerConnection) (action : ConnectionAction) (later : ServerConnection) :
    Decidable (WorkOwned conn action later) :=
  inferInstanceAs (Decidable (RunsWork conn action → conn.inClient = true))

structure NoWork (conn : ServerConnection) : Prop where
  tasks : conn.tasks = []
  closures : conn.closures = 0
  registered : conn.registered = false

instance (conn : ServerConnection) : Decidable (NoWork conn) :=
  decidable_of_iff (conn.tasks = [] ∧ conn.closures = 0 ∧ conn.registered = false)
    ⟨fun ⟨tasks, closures, registered⟩ => ⟨tasks, closures, registered⟩,
      fun none => ⟨none.tasks, none.closures, none.registered⟩⟩

-- The sweep erases only connections that nothing can run for any more. Until
-- the insert only the local pointer of onAccept owns the connection.
def SweepGuard (conn : ServerConnection) (action : ConnectionAction) : Prop :=
  match action with
  | .clearClientTimer => conn.inClient = true → conn.state = .closed → NoWork conn
  | _ => RunsWork conn action → conn.stage = .inserted

instance (conn : ServerConnection) (action : ConnectionAction) : Decidable (SweepGuard conn action) := by
  unfold SweepGuard
  split <;> infer_instance

def Destroyed (conn : ServerConnection) : Prop := conn.stage = .inserted ∧ conn.inClient = false

def LifetimeInv (conn : ServerConnection) : Prop := Destroyed conn → NoWork conn

structure SameOwner (conn later : ServerConnection) : Prop where
  stage : later.stage = conn.stage
  inClient : later.inClient = conn.inClient

theorem add_epoll_event_owner (conn : ServerConnection) (inLoopThread : Bool) :
    SameOwner conn (conn.addEpollEvent inLoopThread) := by
  cases inLoopThread with
  | true => exact ⟨rfl, rfl⟩
  | false => exact ⟨rfl, rfl⟩

theorem clear_owner (conn : ServerConnection) : SameOwner conn conn.clear := by
  rw [ServerConnection.clear]
  split
  · exact ⟨rfl, rfl⟩
  · exact ⟨rfl, rfl⟩

theorem execute_owner (conn : ServerConnection) (input : TaskInput) : SameOwner conn (conn.execute input) := by
  rw [ServerConnection.execute]
  split
  · exact ⟨rfl, rfl⟩
  · exact ⟨rfl, rfl⟩

theorem on_read_owner (conn : ServerConnection) (input : TaskInput) : SameOwner conn (conn.onRead input) := by
  rw [ServerConnection.onRead]
  split
  · exact clear_owner conn
  · split
    · exact clear_owner conn
    · exact execute_owner conn input

theorem on_write_owner (conn : ServerConnection) (input : TaskInput) : SameOwner conn (conn.onWrite input) := by
  rw [ServerConnection.onWrite]
  split
  · exact clear_owner conn
  · split
    · exact add_epoll_event_owner conn true
    · exact ⟨rfl, rfl⟩

theorem run_task_owner (conn : ServerConnection) (input : TaskInput) : SameOwner conn (conn.runTask input) := by
  rw [ServerConnection.runTask]
  split
  · exact ⟨rfl, rfl⟩
  next rest _ =>
    have owner := add_epoll_event_owner { conn with tasks := rest } true
    exact ⟨owner.stage, owner.inClient⟩
  next rest _ =>
    have owner := on_read_owner { conn with tasks := rest } input
    exact ⟨owner.stage, owner.inClient⟩
  next rest _ =>
    have owner := on_write_owner { conn with tasks := rest } input
    exact ⟨owner.stage, owner.inClient⟩

-- Work is done where the connection still lives, so that nothing is left for a
-- destroyed one to do.
theorem lifetime_alive (conn later : ServerConnection) (owner : SameOwner conn later)
    (alive : ¬ Destroyed conn) : LifetimeInv later := by
  rintro ⟨stage, inClient⟩
  exact absurd ⟨owner.stage.symm.trans stage, owner.inClient.symm.trans inClient⟩ alive

theorem run_task_keeps_lifetime (conn : ServerConnection) (input : TaskInput) (inv : LifetimeInv conn) :
    LifetimeInv (conn.runTask input) := by
  by_cases destroyed : Destroyed conn
  · have idle : conn.runTask input = conn := by simp only [ServerConnection.runTask, (inv destroyed).tasks]
    rw [idle]
    exact inv
  · exact lifetime_alive conn _ (run_task_owner conn input) destroyed

theorem poll_keeps_lifetime (conn : ServerConnection) (readable writable : Bool) (inv : LifetimeInv conn) :
    LifetimeInv (conn.poll readable writable) := by
  by_cases registered : conn.registered = true
  · rw [ServerConnection.poll, if_pos registered]
    intro destroyed
    exact absurd registered (by simp [(inv destroyed).registered])
  · rw [ServerConnection.poll, if_neg registered]
    exact inv

theorem run_closure_keeps_lifetime (conn : ServerConnection) (inLoopThread : Bool) (inv : LifetimeInv conn) :
    LifetimeInv (conn.runClosure inLoopThread) := by
  by_cases none : conn.closures = 0
  · rw [ServerConnection.runClosure, if_pos none]
    exact inv
  · rw [ServerConnection.runClosure, if_neg none]
    have owner := add_epoll_event_owner { conn with closures := conn.closures - 1 } inLoopThread
    exact lifetime_alive conn _ ⟨owner.stage, owner.inClient⟩ (fun destroyed => none (inv destroyed).closures)

theorem accept_keeps_lifetime (conn : ServerConnection) (inv : LifetimeInv conn) : LifetimeInv conn.accept := by
  rw [ServerConnection.accept]
  cases conn.stage with
  | absent => exact fun destroyed => nomatch destroyed.1
  | constructed => exact fun destroyed => nomatch destroyed.1
  | connected => exact fun destroyed => nomatch destroyed.2
  | inserted => exact inv

theorem clear_client_timer_keeps_lifetime (conn : ServerConnection) (inv : LifetimeInv conn)
    (guard : conn.inClient = true → conn.state = .closed → NoWork conn) : LifetimeInv conn.clearClientTimer := by
  by_cases swept : conn.inClient = true ∧ conn.state = .closed
  · rw [ServerConnection.clearClientTimer, if_pos swept]
    intro _
    have none := guard swept.1 swept.2
    exact ⟨none.tasks, none.closures, none.registered⟩
  · rw [ServerConnection.clearClientTimer, if_neg swept]
    exact inv

theorem lifetime_step_keeps (conn : ServerConnection) (action : ConnectionAction) (inv : LifetimeInv conn)
    (guard : SweepGuard conn action) : ∃ later, connectionStep conn action = some later ∧ LifetimeInv later := by
  cases action with
  | accept => exact ⟨_, rfl, accept_keeps_lifetime conn inv⟩
  | poll readable writable => exact ⟨_, rfl, poll_keeps_lifetime conn readable writable inv⟩
  | runTask input => exact ⟨_, rfl, run_task_keeps_lifetime conn input inv⟩
  | runClosure inLoopThread => exact ⟨_, rfl, run_closure_keeps_lifetime conn inLoopThread inv⟩
  | clearClientTimer => exact ⟨_, rfl, clear_client_timer_keeps_lifetime conn inv guard⟩
  | shutdown =>
      by_cases absent : conn.stage = .absent
      · exact ⟨conn, if_pos absent, inv⟩
      · refine ⟨_, if_neg absent, ?_⟩
        rw [ServerConnection.shutdown]
        split
        · exact inv
        · exact fun destroyed => ⟨(inv destroyed).tasks, (inv destroyed).closures, (inv destroyed).registered⟩
  | setState state =>
      by_cases absent : conn.stage = .absent
      · exact ⟨conn, if_pos absent, inv⟩
      · exact ⟨_, if_neg absent,
          fun destroyed => ⟨(inv destroyed).tasks, (inv destroyed).closures, (inv destroyed).registered⟩⟩

theorem lifetime_work_owned (conn : ServerConnection) (action : ConnectionAction) (later : ServerConnection)
    (inv : LifetimeInv conn) (guard : SweepGuard conn action) : WorkOwned conn action later := by
  intro work
  by_contra gone
  have lost : conn.stage = .inserted → NoWork conn := fun inserted => inv ⟨inserted, by simpa using gone⟩
  cases action with
  | runTask input =>
      have none := lost (guard work)
      simp [RunsWork, none.tasks] at work
  | runClosure inLoopThread => exact work (lost (guard work)).closures
  | _ => exact work

theorem work_owned (actions : List (Nat × ConnectionAction))
    (guarded : Guarded (each connectionStep) (EachGuard SweepGuard) (fun _ => {}) actions) :
    Throughout (each connectionStep) (EachGood WorkOwned) (fun _ => {}) actions := by
  refine each_guarded_throughout connectionStep SweepGuard LifetimeInv WorkOwned ?_ _ actions ?_ guarded
  · intro conn action inv guard
    obtain ⟨later, taken, kept⟩ := lifetime_step_keeps conn action inv guard
    exact ⟨later, taken, kept, lifetime_work_owned conn action later inv guard⟩
  · exact fun _ destroyed => nomatch destroyed.1

-- A service answers late, the peer closes after the reply, and the sweep comes
-- when nothing is left to run.
def lateReply : List (Nat × ConnectionAction) :=
  [(0, .accept), (0, .runTask {}), (0, .accept), (0, .accept), (0, .poll true false), (0, .runTask { deferred := 1 }),
    (0, .runClosure false), (0, .runTask {}), (0, .poll false true), (0, .runTask {}), (0, .poll true false),
    (0, .runTask { isClose := true }), (0, .clearClientTimer)]

theorem late_reply_owned : Throughout (each connectionStep) (EachGood WorkOwned) (fun _ => {}) lateReply :=
  work_owned lateReply (by decide)

-- The peer closes while the service still keeps the closure.
def replyAfterSweep : List (Nat × ConnectionAction) :=
  [(0, .accept), (0, .runTask {}), (0, .accept), (0, .accept), (0, .poll true false), (0, .runTask { deferred := 1 }),
    (0, .poll true false), (0, .runTask { isClose := true }), (0, .clearClientTimer), (0, .runClosure false)]

theorem reply_after_sweep_diverges :
    ¬ Throughout (each connectionStep) (EachGood WorkOwned) (fun _ => {}) replyAfterSweep := by
  intro throughout
  have acting := throughout_mono (each connectionStep)
    (fun conns action later => WorkOwned (conns action.1) action.2 (later action.1)) _
    (fun _ _ _ good => good.party) _ replyAfterSweep throughout
  exact absurd acting (by decide)

end Rocket
