import Rocket.TinyPBProtocol
import Rocket.Lib.Trace

set_option autoImplicit false

namespace Rocket

open Word32 Trace

-- m_read_done of a client connection. A callback is known by the number of the
-- pushReadMessage call that brought it. registered holds the id of each call,
-- invoked the callbacks run so far, each with its message.
structure ReadDone where
  readDone : Bytes → Option Nat := fun _ => none
  registered : List Bytes := []
  invoked : List (Nat × TinyPBProtocol) := []

-- std::map::insert keeps the entry that an id already has.
def pushReadMessage (conn : ReadDone) (msgId : Bytes) : ReadDone :=
  { conn with
    readDone := fun id =>
      if id = msgId ∧ conn.readDone msgId = none then some conn.registered.length else conn.readDone id
    registered := conn.registered ++ [msgId] }

def eraseReadMessage (conn : ReadDone) (msgId : Bytes) : ReadDone :=
  { conn with readDone := fun id => if id = msgId then none else conn.readDone id }

-- One turn of the loop of execute. The callback, if the message has one, makes
-- these pushReadMessage calls while it runs and its entry is still in the map.
def executeMessage (conn : ReadDone) (message : TinyPBProtocol) (pushes : List Bytes) : ReadDone :=
  match conn.readDone message.msgId with
  | none => conn
  | some callback =>
      let called := pushes.foldl pushReadMessage { conn with invoked := conn.invoked ++ [(callback, message)] }
      eraseReadMessage called message.msgId

def executeClient (conn : ReadDone) (result : List (TinyPBProtocol × List Bytes)) : ReadDone :=
  result.foldl (fun conn turn => executeMessage conn turn.1 turn.2) conn

inductive ReadAction where
  | push (msgId : Bytes)
  | onRead (result : List (TinyPBProtocol × List Bytes))
deriving DecidableEq, Repr

def readStep (conn : ReadDone) : ReadAction → Option ReadDone
  | .push msgId => some (pushReadMessage conn msgId)
  | .onRead result => some (executeClient conn result)

structure RoutedOnce (conn : ReadDone) : Prop where
  rightId : ∀ call ∈ conn.invoked, conn.registered[call.1]? = some call.2.msgId
  once : (conn.invoked.map Prod.fst).Nodup

structure Delivered (conn : ReadDone) (message : TinyPBProtocol) (pushes : List Bytes) (later : ReadDone) : Prop where
  silent : conn.readDone message.msgId = none → later = conn
  invokes : ∀ callback, conn.readDone message.msgId = some callback →
    later.invoked = conn.invoked ++ [(callback, message)] ∧ later.readDone message.msgId = none
  kept : ∀ other callback, other ≠ message.msgId → conn.readDone other = some callback →
    later.readDone other = some callback
  unchanged : ∀ other, other ≠ message.msgId → other ∉ pushes → later.readDone other = conn.readDone other

def Answered (conn : ReadDone) (action : ReadAction) (later : ReadDone) : Prop :=
  match action with
  | .push msgId => later.invoked = conn.invoked ∧ ∀ other, other ≠ msgId → later.readDone other = conn.readDone other
  | .onRead result =>
      later = executeClient conn result ∧
        ∀ done message pushes rest, result = done ++ (message, pushes) :: rest →
          Delivered (executeClient conn done) message pushes (executeClient conn (done ++ [(message, pushes)]))

-- An entry of the map is the callback of its id and has not run, unless it is
-- the one that runs now.
structure RoutingInv (running : Option Bytes) (conn : ReadDone) : Prop where
  routed : RoutedOnce conn
  entry : ∀ id callback, conn.readDone id = some callback → conn.registered[callback]? = some id
  waiting : ∀ id callback, conn.readDone id = some callback → callback ∈ conn.invoked.map Prod.fst → running = some id

theorem push_read_message_invoked (conn : ReadDone) (msgId : Bytes) :
    (pushReadMessage conn msgId).invoked = conn.invoked := rfl

theorem push_read_message_other (conn : ReadDone) (msgId other : Bytes) (different : other ≠ msgId) :
    (pushReadMessage conn msgId).readDone other = conn.readDone other := by
  simp only [pushReadMessage, different, false_and, if_false]

theorem push_read_message_kept (conn : ReadDone) (msgId other : Bytes) (callback : Nat)
    (found : conn.readDone other = some callback) : (pushReadMessage conn msgId).readDone other = some callback := by
  by_cases same : other = msgId
  · subst same
    simp only [pushReadMessage, found, reduceCtorEq, and_false, if_false]
  · rw [push_read_message_other conn msgId other same, found]

theorem push_read_message_found (conn : ReadDone) (msgId id : Bytes) (callback : Nat)
    (found : (pushReadMessage conn msgId).readDone id = some callback) :
    conn.readDone id = some callback ∨ id = msgId ∧ callback = conn.registered.length := by
  by_cases fresh : id = msgId ∧ conn.readDone msgId = none
  · simp only [pushReadMessage, if_pos fresh, Option.some.injEq] at found
    exact Or.inr ⟨fresh.1, found.symm⟩
  · simp only [pushReadMessage, if_neg fresh] at found
    exact Or.inl found

theorem registered_extended (conn : ReadDone) (msgId id : Bytes) (callback : Nat)
    (known : conn.registered[callback]? = some id) :
    (pushReadMessage conn msgId).registered[callback]? = some id := by
  obtain ⟨inside, _⟩ := List.getElem?_eq_some_iff.mp known
  simpa only [pushReadMessage, List.getElem?_append_left inside] using known

theorem push_read_message_keeps (running : Option Bytes) (conn : ReadDone) (msgId : Bytes) (inv : RoutingInv running conn) :
    RoutingInv running (pushReadMessage conn msgId) := by
  refine ⟨⟨?_, inv.routed.once⟩, ?_, ?_⟩
  · intro call member
    exact registered_extended conn msgId _ _ (inv.routed.rightId call member)
  · intro id callback found
    rcases push_read_message_found conn msgId id callback found with old | ⟨rfl, rfl⟩
    · exact registered_extended conn msgId id callback (inv.entry id callback old)
    · simp only [pushReadMessage, List.getElem?_concat_length]
  · intro id callback found ran
    rcases push_read_message_found conn msgId id callback found with old | ⟨rfl, rfl⟩
    · exact inv.waiting id callback old ran
    · -- A new callback has a number that no earlier call has.
      obtain ⟨call, member, number⟩ := List.mem_map.mp ran
      have known := inv.routed.rightId call member
      rw [number, List.getElem?_eq_none (Nat.le_refl _)] at known
      cases known

theorem pushes_keep (running : Option Bytes) (pushes : List Bytes) (conn : ReadDone) (inv : RoutingInv running conn) :
    RoutingInv running (pushes.foldl pushReadMessage conn) := by
  induction pushes generalizing conn with
  | nil => exact inv
  | cons msgId pushes ih => exact ih (pushReadMessage conn msgId) (push_read_message_keeps running conn msgId inv)

theorem pushes_invoked (pushes : List Bytes) (conn : ReadDone) :
    (pushes.foldl pushReadMessage conn).invoked = conn.invoked := by
  induction pushes generalizing conn with
  | nil => rfl
  | cons msgId pushes ih => exact (ih (pushReadMessage conn msgId)).trans (push_read_message_invoked conn msgId)

theorem pushes_kept (pushes : List Bytes) (conn : ReadDone) (other : Bytes) (callback : Nat)
    (found : conn.readDone other = some callback) :
    (pushes.foldl pushReadMessage conn).readDone other = some callback := by
  induction pushes generalizing conn with
  | nil => exact found
  | cons msgId pushes ih => exact ih (pushReadMessage conn msgId) (push_read_message_kept conn msgId other callback found)

theorem pushes_other (pushes : List Bytes) (conn : ReadDone) (other : Bytes) (absent : other ∉ pushes) :
    (pushes.foldl pushReadMessage conn).readDone other = conn.readDone other := by
  induction pushes generalizing conn with
  | nil => rfl
  | cons msgId pushes ih =>
      rw [List.mem_cons, not_or] at absent
      exact (ih (pushReadMessage conn msgId) absent.2).trans (push_read_message_other conn msgId other absent.1)

theorem execute_message_spec (conn : ReadDone) (message : TinyPBProtocol) (pushes : List Bytes) :
    Delivered conn message pushes (executeMessage conn message pushes) := by
  cases found : conn.readDone message.msgId with
  | none =>
      have idle : executeMessage conn message pushes = conn := by simp only [executeMessage, found]
      rw [idle]
      refine ⟨fun _ => rfl, ?_, fun _ _ _ known => known, fun _ _ _ => rfl⟩
      intro callback known
      cases found.symm.trans known
  | some callback =>
      refine ⟨?_, ?_, ?_, ?_⟩
      · intro absent
        cases found.symm.trans absent
      · intro other known
        cases found.symm.trans known
        simp only [executeMessage, found, eraseReadMessage, pushes_invoked, if_true, and_self]
      · intro other entry different known
        simp only [executeMessage, found, eraseReadMessage, if_neg different]
        exact pushes_kept pushes _ other entry known
      · intro other different absent
        simp only [executeMessage, found, eraseReadMessage, if_neg different]
        exact pushes_other pushes _ other absent

-- The callback becomes the running one when it is invoked, and its entry is
-- gone when the next message is looked up.
theorem invoke_keeps (conn : ReadDone) (message : TinyPBProtocol) (callback : Nat) (inv : RoutingInv none conn)
    (found : conn.readDone message.msgId = some callback) :
    RoutingInv (some message.msgId) { conn with invoked := conn.invoked ++ [(callback, message)] } := by
  have known := inv.entry message.msgId callback found
  refine ⟨⟨?_, ?_⟩, inv.entry, ?_⟩
  · intro call member
    rcases List.mem_append.mp member with earlier | last
    · exact inv.routed.rightId call earlier
    · cases List.mem_singleton.mp last
      exact known
  · have fresh : callback ∉ conn.invoked.map Prod.fst := fun ran => nomatch inv.waiting _ _ found ran
    rw [List.map_append, List.map_singleton]
    refine List.nodup_append.mpr ⟨inv.routed.once, by simp, ?_⟩
    intro earlier member last isLast same
    rw [List.mem_singleton] at isLast
    rw [same, isLast] at member
    exact fresh member
  · intro id other entry ran
    rw [List.map_append, List.map_singleton, List.mem_append, List.mem_singleton] at ran
    rcases ran with earlier | rfl
    · cases inv.waiting id other entry earlier
    · exact known.symm.trans (inv.entry id other entry)

theorem erase_read_message_keeps (conn : ReadDone) (msgId : Bytes) (inv : RoutingInv (some msgId) conn) :
    RoutingInv none (eraseReadMessage conn msgId) := by
  have older : ∀ id callback, (eraseReadMessage conn msgId).readDone id = some callback →
      id ≠ msgId ∧ conn.readDone id = some callback := by
    intro id callback entry
    by_cases same : id = msgId
    · simp only [eraseReadMessage, if_pos same, reduceCtorEq] at entry
    · simp only [eraseReadMessage, if_neg same] at entry
      exact ⟨same, entry⟩
  refine ⟨⟨inv.routed.rightId, inv.routed.once⟩, ?_, ?_⟩
  · intro id callback entry
    exact inv.entry id callback (older id callback entry).2
  · intro id callback entry ran
    obtain ⟨different, found⟩ := older id callback entry
    cases inv.waiting id callback found ran
    exact absurd rfl different

theorem execute_message_keeps (conn : ReadDone) (message : TinyPBProtocol) (pushes : List Bytes) (inv : RoutingInv none conn) :
    RoutingInv none (executeMessage conn message pushes) := by
  cases found : conn.readDone message.msgId with
  | none => simpa only [executeMessage, found] using inv
  | some callback =>
      have called := pushes_keep _ pushes _ (invoke_keeps conn message callback inv found)
      simpa only [executeMessage, found] using erase_read_message_keeps _ message.msgId called

theorem execute_client_keeps (result : List (TinyPBProtocol × List Bytes)) (conn : ReadDone) (inv : RoutingInv none conn) :
    RoutingInv none (executeClient conn result) := by
  induction result generalizing conn with
  | nil => exact inv
  | cons turn result ih => exact ih _ (execute_message_keeps conn turn.1 turn.2 inv)

theorem read_step_keeps (conn : ReadDone) (action : ReadAction) (inv : RoutingInv none conn) :
    ∃ later, readStep conn action = some later ∧ RoutingInv none later := by
  cases action with
  | push msgId => exact ⟨_, rfl, push_read_message_keeps none conn msgId inv⟩
  | onRead result => exact ⟨_, rfl, execute_client_keeps result conn inv⟩

theorem read_step_answered (conn later : ReadDone) (action : ReadAction) (taken : readStep conn action = some later) :
    Answered conn action later := by
  cases action with
  | push msgId =>
      cases taken
      exact ⟨rfl, fun other different => push_read_message_other conn msgId other different⟩
  | onRead result =>
      cases taken
      refine ⟨rfl, ?_⟩
      intro done message pushes rest _
      rw [executeClient, executeClient, List.foldl_append]
      exact execute_message_spec _ message pushes

theorem routing_starts : RoutingInv none {} := by
  refine ⟨⟨?_, List.nodup_nil⟩, ?_, ?_⟩
  · intro call member
    cases member
  · intro id callback found
    cases found
  · intro id callback found
    cases found

theorem responses_routed (actions : List ReadAction) :
    Always readStep RoutedOnce {} actions ∧ Throughout readStep Answered {} actions := by
  refine free_sound readStep (RoutingInv none) RoutedOnce Answered (fun _ inv => inv.routed) ?_ {} actions routing_starts
  intro conn action inv
  obtain ⟨later, taken, kept⟩ := read_step_keeps conn action inv
  exact ⟨later, taken, kept, read_step_answered conn later action taken⟩

end Rocket
