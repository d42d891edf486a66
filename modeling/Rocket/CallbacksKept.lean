import Rocket.ResponseRouting

set_option autoImplicit false

namespace Rocket

open Word32 Trace

-- Each registration is in the map under its id or has been called back with a
-- response of that id.
def CallbacksKept (conn : ReadDone) : Prop :=
  ∀ callback id, conn.registered[callback]? = some id →
    conn.readDone id = some callback ∨ ∃ message, (callback, message) ∈ conn.invoked ∧ message.msgId = id

def PushesFree (conn : ReadDone) : List Bytes → Prop
  | [] => True
  | msgId :: pushes => conn.readDone msgId = none ∧ PushesFree (pushReadMessage conn msgId) pushes

def invokeCallback (conn : ReadDone) (callback : Nat) (message : TinyPBProtocol) : ReadDone :=
  { conn with invoked := conn.invoked ++ [(callback, message)] }

-- The pushes of a turn happen only when the message has a callback.
def TurnsFree (conn : ReadDone) : List (TinyPBProtocol × List Bytes) → Prop
  | [] => True
  | (message, pushes) :: result =>
      (∀ callback ∈ conn.readDone message.msgId, PushesFree (invokeCallback conn callback message) pushes) ∧
        TurnsFree (executeMessage conn message pushes) result

-- No registration is made under an id that still has an entry, neither from
-- outside nor by the callback that runs for this id.
def PushesFreely (conn : ReadDone) : ReadAction → Prop
  | .push msgId => conn.readDone msgId = none
  | .onRead result => TurnsFree conn result

instance pushesFreeDecidable : (pushes : List Bytes) → (conn : ReadDone) → Decidable (PushesFree conn pushes)
  | [], _ => isTrue trivial
  | msgId :: pushes, conn =>
      have := pushesFreeDecidable pushes (pushReadMessage conn msgId)
      inferInstanceAs (Decidable (conn.readDone msgId = none ∧ PushesFree (pushReadMessage conn msgId) pushes))

instance turnsFreeDecidable :
    (result : List (TinyPBProtocol × List Bytes)) → (conn : ReadDone) → Decidable (TurnsFree conn result)
  | [], _ => isTrue trivial
  | (message, pushes) :: result, conn =>
      have := turnsFreeDecidable result (executeMessage conn message pushes)
      inferInstanceAs (Decidable ((∀ callback ∈ conn.readDone message.msgId,
        PushesFree (invokeCallback conn callback message) pushes) ∧ TurnsFree (executeMessage conn message pushes) result))

instance (conn : ReadDone) (action : ReadAction) : Decidable (PushesFreely conn action) := by
  cases action <;> unfold PushesFreely <;> infer_instance

-- A registration that insert has dropped.
structure CallbackLost (conn : ReadDone) (callback : Nat) : Prop where
  known : callback < conn.registered.length
  notWaiting : ∀ id, conn.readDone id ≠ some callback
  notInvoked : ∀ message, (callback, message) ∉ conn.invoked

theorem lost_not_kept (conn : ReadDone) (callback : Nat) (lost : CallbackLost conn callback) : ¬ CallbacksKept conn := by
  intro kept
  obtain waiting | ⟨message, member, _⟩ := kept callback _ (List.getElem?_eq_getElem lost.known)
  · exact lost.notWaiting _ waiting
  · exact lost.notInvoked message member

theorem lost_push (conn : ReadDone) (callback : Nat) (msgId : Bytes) (lost : CallbackLost conn callback) :
    CallbackLost (pushReadMessage conn msgId) callback := by
  have known := lost.known
  refine ⟨?_, ?_, lost.notInvoked⟩
  · rw [pushReadMessage, List.length_append]
    omega
  · intro id waiting
    obtain old | ⟨_, fresh⟩ := push_read_message_found conn msgId id callback waiting
    · exact lost.notWaiting id old
    · omega

theorem lost_pushes (pushes : List Bytes) (conn : ReadDone) (callback : Nat) (lost : CallbackLost conn callback) :
    CallbackLost (pushes.foldl pushReadMessage conn) callback := by
  induction pushes generalizing conn with
  | nil => exact lost
  | cons msgId pushes ih => exact ih (pushReadMessage conn msgId) (lost_push conn callback msgId lost)

theorem lost_invoke (conn : ReadDone) (callback other : Nat) (message : TinyPBProtocol) (lost : CallbackLost conn callback)
    (found : conn.readDone message.msgId = some other) : CallbackLost (invokeCallback conn other message) callback := by
  refine ⟨lost.known, lost.notWaiting, ?_⟩
  intro reply member
  obtain earlier | last := List.mem_append.mp member
  · exact lost.notInvoked reply earlier
  · obtain ⟨rfl, _⟩ := Prod.mk.inj (List.mem_singleton.mp last)
    exact lost.notWaiting _ found

theorem lost_erase (conn : ReadDone) (callback : Nat) (msgId : Bytes) (lost : CallbackLost conn callback) :
    CallbackLost (eraseReadMessage conn msgId) callback := by
  refine ⟨lost.known, ?_, lost.notInvoked⟩
  intro id waiting
  by_cases same : id = msgId
  · simp only [eraseReadMessage, if_pos same, reduceCtorEq] at waiting
  · simp only [eraseReadMessage, if_neg same] at waiting
    exact lost.notWaiting id waiting

theorem execute_message_found (conn : ReadDone) (message : TinyPBProtocol) (pushes : List Bytes) (callback : Nat)
    (found : conn.readDone message.msgId = some callback) :
    executeMessage conn message pushes =
      eraseReadMessage (pushes.foldl pushReadMessage (invokeCallback conn callback message)) message.msgId := by
  simp only [executeMessage, found, invokeCallback]

theorem lost_message (conn : ReadDone) (callback : Nat) (message : TinyPBProtocol) (pushes : List Bytes)
    (lost : CallbackLost conn callback) : CallbackLost (executeMessage conn message pushes) callback := by
  cases found : conn.readDone message.msgId with
  | none => simpa only [executeMessage, found] using lost
  | some other =>
      rw [execute_message_found conn message pushes other found]
      exact lost_erase _ _ _ (lost_pushes pushes _ callback (lost_invoke conn callback other message lost found))

theorem lost_client (result : List (TinyPBProtocol × List Bytes)) (conn : ReadDone) (callback : Nat)
    (lost : CallbackLost conn callback) : CallbackLost (executeClient conn result) callback := by
  induction result generalizing conn with
  | nil => exact lost
  | cons turn result ih => exact ih _ (lost_message conn callback turn.1 turn.2 lost)

theorem invoked_registered (running : Option Bytes) (conn : ReadDone) (inv : RoutingInv running conn) (callback : Nat)
    (message : TinyPBProtocol) (member : (callback, message) ∈ conn.invoked) : callback < conn.registered.length :=
  (List.getElem?_eq_some_iff.mp (inv.routed.rightId (callback, message) member)).1

-- insert keeps the old entry, and nothing else refers to the new callback.
theorem push_taken_lost (running : Option Bytes) (conn : ReadDone) (msgId : Bytes) (inv : RoutingInv running conn)
    (taken : conn.readDone msgId ≠ none) : CallbackLost (pushReadMessage conn msgId) conn.registered.length := by
  refine ⟨?_, ?_, ?_⟩
  · rw [pushReadMessage, List.length_append, List.length_singleton]
    omega
  · intro id waiting
    have old : conn.readDone id = some conn.registered.length := by
      simpa only [pushReadMessage, taken, and_false, if_false] using waiting
    have inside := (List.getElem?_eq_some_iff.mp (inv.entry id _ old)).1
    omega
  · intro message member
    have inside := invoked_registered running conn inv _ message member
    omega

theorem push_free_kept (conn : ReadDone) (msgId : Bytes) (kept : CallbacksKept conn) (free : conn.readDone msgId = none) :
    CallbacksKept (pushReadMessage conn msgId) := by
  intro callback id known
  obtain inside | rfl | outside := Nat.lt_trichotomy callback conn.registered.length
  · have old : conn.registered[callback]? = some id := by
      simpa only [pushReadMessage, List.getElem?_append_left inside] using known
    obtain waiting | invoked := kept callback id old
    · exact Or.inl (push_read_message_kept conn msgId id callback waiting)
    · exact Or.inr invoked
  · have same : msgId = id := by simpa only [pushReadMessage, List.getElem?_concat_length, Option.some.injEq] using known
    refine Or.inl ?_
    simp only [pushReadMessage, same.symm, free, and_self, if_true]
  · rw [pushReadMessage, List.getElem?_eq_none (by rw [List.length_append, List.length_singleton]; omega)] at known
    cases known

theorem pushes_decide (running : Option Bytes) (pushes : List Bytes) (conn : ReadDone) (inv : RoutingInv running conn)
    (kept : CallbacksKept conn) :
    (PushesFree conn pushes ∧ CallbacksKept (pushes.foldl pushReadMessage conn)) ∨
      (¬ PushesFree conn pushes ∧ ∃ callback, CallbackLost (pushes.foldl pushReadMessage conn) callback) := by
  induction pushes generalizing conn with
  | nil => exact Or.inl ⟨trivial, kept⟩
  | cons msgId pushes ih =>
      by_cases free : conn.readDone msgId = none
      · obtain ⟨rest, later⟩ | ⟨taken, lost⟩ := ih (pushReadMessage conn msgId)
          (push_read_message_keeps running conn msgId inv) (push_free_kept conn msgId kept free)
        · exact Or.inl ⟨⟨free, rest⟩, later⟩
        · exact Or.inr ⟨fun all => taken all.2, lost⟩
      · have lost := push_taken_lost running conn msgId inv free
        exact Or.inr ⟨fun all => free all.1, _, lost_pushes pushes _ _ lost⟩

theorem invoke_callbacks_kept (conn : ReadDone) (callback : Nat) (message : TinyPBProtocol) (kept : CallbacksKept conn) :
    CallbacksKept (invokeCallback conn callback message) := by
  intro other id known
  obtain waiting | ⟨reply, member, same⟩ := kept other id known
  · exact Or.inl waiting
  · exact Or.inr ⟨reply, List.mem_append_left _ member, same⟩

-- The entry that goes is the one of the callback that has just run.
theorem erase_callbacks_kept (conn : ReadDone) (callback : Nat) (message : TinyPBProtocol) (kept : CallbacksKept conn)
    (entry : conn.readDone message.msgId = some callback) (ran : (callback, message) ∈ conn.invoked) :
    CallbacksKept (eraseReadMessage conn message.msgId) := by
  intro other id known
  obtain waiting | invoked := kept other id known
  · by_cases same : id = message.msgId
    · rw [same, entry] at waiting
      obtain rfl := Option.some.inj waiting
      exact Or.inr ⟨message, ran, same.symm⟩
    · refine Or.inl ?_
      simp only [eraseReadMessage, if_neg same, waiting]
  · exact Or.inr invoked

theorem message_decides (conn : ReadDone) (message : TinyPBProtocol) (pushes : List Bytes) (inv : RoutingInv none conn)
    (kept : CallbacksKept conn) :
    ((∀ callback ∈ conn.readDone message.msgId, PushesFree (invokeCallback conn callback message) pushes) ∧
        CallbacksKept (executeMessage conn message pushes)) ∨
      (¬ (∀ callback ∈ conn.readDone message.msgId, PushesFree (invokeCallback conn callback message) pushes) ∧
        ∃ callback, CallbackLost (executeMessage conn message pushes) callback) := by
  cases found : conn.readDone message.msgId with
  | none =>
      refine Or.inl ⟨?_, by simpa only [executeMessage, found] using kept⟩
      intro callback member
      cases member
  | some callback =>
      have invoked := invoke_callbacks_kept conn callback message kept
      rw [execute_message_found conn message pushes callback found]
      obtain ⟨free, called⟩ | ⟨taken, other, lost⟩ := pushes_decide (some message.msgId) pushes
        (invokeCallback conn callback message) (invoke_keeps conn message callback inv found) invoked
      · refine Or.inl ⟨?_, ?_⟩
        · intro other member
          obtain rfl := Option.some.inj member
          exact free
        · apply erase_callbacks_kept _ callback message called
          · exact pushes_kept pushes _ _ callback found
          · rw [pushes_invoked]
            exact List.mem_append_right _ List.mem_cons_self
      · exact Or.inr ⟨fun all => taken (all callback rfl), other, lost_erase _ _ _ lost⟩

theorem client_decides (result : List (TinyPBProtocol × List Bytes)) (conn : ReadDone) (inv : RoutingInv none conn)
    (kept : CallbacksKept conn) :
    (TurnsFree conn result ∧ CallbacksKept (executeClient conn result)) ∨
      (¬ TurnsFree conn result ∧ ∃ callback, CallbackLost (executeClient conn result) callback) := by
  induction result generalizing conn with
  | nil => exact Or.inl ⟨trivial, kept⟩
  | cons turn result ih =>
      obtain ⟨message, pushes⟩ := turn
      obtain ⟨free, later⟩ | ⟨taken, callback, lost⟩ := message_decides conn message pushes inv kept
      · obtain ⟨rest, last⟩ | ⟨taken, lost⟩ := ih _ (execute_message_keeps conn message pushes inv) later
        · exact Or.inl ⟨⟨free, rest⟩, last⟩
        · exact Or.inr ⟨fun all => taken all.2, lost⟩
      · exact Or.inr ⟨fun all => taken all.1, callback, lost_client result _ callback lost⟩

theorem callbacks_kept_iff (actions : List ReadAction) :
    Always readStep CallbacksKept {} actions ↔ Guarded readStep PushesFreely {} actions := by
  refine always_iff_decided readStep PushesFreely (fun conn => RoutingInv none conn ∧ CallbacksKept conn) CallbacksKept
    (fun _ inv => inv.2) ?_ {} actions ⟨routing_starts, ?_⟩
  · rintro conn action ⟨inv, kept⟩
    obtain ⟨later, taken, routed⟩ := read_step_keeps conn action inv
    refine ⟨later, taken, ?_⟩
    cases action with
    | push msgId =>
        obtain rfl := Option.some.inj taken
        constructor
        · intro free
          exact ⟨routed, push_free_kept conn msgId kept free⟩
        · intro good
          by_contra busy
          exact lost_not_kept _ _ (push_taken_lost none conn msgId inv busy) good
    | onRead result =>
        obtain rfl := Option.some.inj taken
        obtain ⟨free, good⟩ | ⟨busy, callback, lost⟩ := client_decides result conn inv kept
        · exact ⟨fun _ => ⟨routed, good⟩, fun _ => free⟩
        · exact ⟨fun free => absurd free busy, fun good => absurd good (lost_not_kept _ callback lost)⟩
  · intro callback id known
    cases known

-- The second registration of an id, made from outside and from inside the
-- callback of the first.
theorem second_registration_lost :
    ¬ Always readStep CallbacksKept {} [.push [0x31], .push [0x31]] ∧
      ¬ Always readStep CallbacksKept {} [.push [0x31], .onRead [({ msgId := [0x31] }, [[0x31]])]] := by
  constructor
  · intro always
    obtain ⟨last, reached, kept⟩ := always_run readStep CallbacksKept {} _ always
    obtain rfl := Option.some.inj reached
    obtain waiting | ⟨message, member, _⟩ := kept 1 [0x31] (by decide)
    · exact absurd waiting (by decide)
    · cases member
  · intro always
    obtain ⟨last, reached, kept⟩ := always_run readStep CallbacksKept {} _ always
    obtain rfl := Option.some.inj reached
    obtain waiting | ⟨message, member, _⟩ := kept 1 [0x31] (by decide)
    · exact absurd waiting (by decide)
    · obtain ⟨number, _⟩ := Prod.mk.inj (List.mem_singleton.mp member)
      cases number

end Rocket
