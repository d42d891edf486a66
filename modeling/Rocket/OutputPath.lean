import Rocket.Sender

set_option autoImplicit false

namespace Rocket

open Memory Word32 Trace

def Conserved (sender : Sender) : Prop := sender.accepted ++ readable sender.outBuffer = sender.encoded

structure OutputInv (sender : Sender) : Prop where
  ok : BufferOk sender.outBuffer
  connected : sender.state = .connected
  nothing : sender.accepted = []
  content : readable sender.outBuffer = sender.encoded

-- No call of write takes a byte, and no encoding overruns the output buffer.
def OutputGuard (sender : Sender) : SenderAction → Prop
  | .reply messages => sender.phase ≠ .writing → EncodingFits messages sender.outBuffer
  | .push _ => True
  | .onWrite =>
      sender.phase = .idle → sender.connectionType = .byClient →
        EncodingFits (sender.writeDone.map Queued.message) sender.outBuffer
  | .write (.accepted count) => sender.phase = .writing → readAble sender.outBuffer ≠ 0 → count = 0
  | .write _ => True
  | .callback => True

instance (sender : Sender) (action : SenderAction) : Decidable (OutputGuard sender action) :=
  match action with
  | .reply messages => inferInstanceAs (Decidable (sender.phase ≠ .writing → EncodingFits messages sender.outBuffer))
  | .push _ => isTrue trivial
  | .onWrite => inferInstanceAs (Decidable (sender.phase = .idle → sender.connectionType = .byClient →
      EncodingFits (sender.writeDone.map Queued.message) sender.outBuffer))
  | .write (.accepted count) =>
      inferInstanceAs (Decidable (sender.phase = .writing → readAble sender.outBuffer ≠ 0 → count = 0))
  | .write .again => isTrue trivial
  | .write .failed => isTrue trivial
  | .callback => isTrue trivial

theorem output_inv_with (sender other : Sender) (inv : OutputInv sender) (sameOut : other.outBuffer = sender.outBuffer)
    (sameState : other.state = sender.state) (sameAccepted : other.accepted = sender.accepted)
    (sameEncoded : other.encoded = sender.encoded) : OutputInv other :=
  ⟨sameOut.symm ▸ inv.ok, sameState.trans inv.connected, sameAccepted.trans inv.nothing,
    by rw [sameOut, sameEncoded, inv.content]⟩

theorem reply_keeps (sender : Sender) (messages : List TinyPBProtocol) (inv : OutputInv sender)
    (fits : EncodingFits messages sender.outBuffer) : ∃ later, reply sender messages = some later ∧ OutputInv later := by
  obtain ⟨bytes, next, replied, nextOk, content⟩ := reply_spec sender messages inv.ok fits
  exact ⟨_, replied, nextOk, inv.connected, inv.nothing, by rw [content, inv.content]⟩

theorem start_write_keeps (sender : Sender) (inv : OutputInv sender)
    (fits : sender.connectionType = .byClient → EncodingFits (sender.writeDone.map Queued.message) sender.outBuffer) :
    ∃ later, startWrite sender = some later ∧ OutputInv later := by
  by_cases client : sender.connectionType = .byClient
  · obtain ⟨bytes, sent, next, started, _, _, nextOk, content⟩ :=
      start_write_spec sender inv.connected client inv.ok (fits client)
    exact ⟨_, started, nextOk, inv.connected, inv.nothing, by rw [content, inv.content]⟩
  · refine ⟨{ sender with phase := .writing }, ?_, output_inv_with sender _ inv rfl rfl rfl rfl⟩
    rw [startWrite, if_neg (not_not_intro inv.connected), if_neg client]

theorem finish_write_keeps (sender : Sender) (inv : OutputInv sender) : OutputInv (finishWrite sender) := by
  obtain ⟨sameOut, sameState, sameAccepted, sameEncoded⟩ := finish_write_out sender
  exact output_inv_with sender _ inv sameOut sameState sameAccepted sameEncoded

theorem write_turn_accepted (sender : Sender) (count : Nat) (ok : BufferOk sender.outBuffer)
    (offered : readAble sender.outBuffer ≠ 0) :
    ∃ later, writeTurn sender (.accepted count) = some later ∧
      later.accepted = sender.accepted ++ (readable sender.outBuffer).take count ∧
      later.outBuffer = sender.outBuffer ∧ later.state = sender.state ∧ later.encoded = sender.encoded := by
  simp only [writeTurn, if_neg offered, readable_slice sender.outBuffer ok, Option.bind_eq_bind, Option.bind_some]
  split
  · obtain ⟨sameOut, sameState, sameAccepted, sameEncoded⟩ := finish_write_out { sender with
      accepted := sender.accepted ++ (readable sender.outBuffer).take count
      writes := sender.writes ++ [(sender.encoded.length - (readable sender.outBuffer).length,
        ((readable sender.outBuffer).take count).length)] }
    exact ⟨_, rfl, sameAccepted, sameOut, sameState, sameEncoded⟩
  · exact ⟨_, rfl, rfl, rfl, rfl, rfl⟩

theorem write_turn_keeps (sender : Sender) (result : WriteResult) (inv : OutputInv sender)
    (idle : ∀ count, result = .accepted count → readAble sender.outBuffer ≠ 0 → count = 0) :
    ∃ later, writeTurn sender result = some later ∧ OutputInv later := by
  by_cases empty : readAble sender.outBuffer = 0
  · exact ⟨_, if_pos empty, finish_write_keeps sender inv⟩
  · cases result with
    | accepted count =>
        obtain ⟨later, taken, sameAccepted, sameOut, sameState, sameEncoded⟩ :=
          write_turn_accepted sender count inv.ok empty
        refine ⟨later, taken, output_inv_with sender later inv sameOut sameState ?_ sameEncoded⟩
        rw [sameAccepted, idle count rfl empty, List.take_zero, List.append_nil]
    | again => exact ⟨_, if_neg empty, finish_write_keeps sender inv⟩
    | failed => exact ⟨_, if_neg empty, inv⟩

theorem sender_step_keeps (sender : Sender) (action : SenderAction) (inv : OutputInv sender)
    (guard : OutputGuard sender action) : ∃ later, senderStep sender action = some later ∧ OutputInv later := by
  cases action with
  | reply messages =>
      by_cases busy : sender.phase = .writing
      · exact ⟨sender, if_pos busy, inv⟩
      · rw [senderStep, if_neg busy]
        exact reply_keeps sender messages inv (guard busy)
  | push message =>
      by_cases busy : sender.phase = .writing
      · exact ⟨sender, if_pos busy, inv⟩
      · exact ⟨pushSendMessage sender message, if_neg busy, output_inv_with sender _ inv rfl rfl rfl rfl⟩
  | onWrite =>
      by_cases idle : sender.phase = .idle
      · rw [senderStep, if_pos idle]
        exact start_write_keeps sender inv (guard idle)
      · exact ⟨sender, if_neg idle, inv⟩
  | write result =>
      by_cases busy : sender.phase = .writing
      · rw [senderStep, if_pos busy]
        refine write_turn_keeps sender result inv ?_
        intro count same
        subst same
        exact guard busy
      · exact ⟨sender, if_neg busy, inv⟩
  | callback =>
      cases phase : sender.phase with
      | idle => exact ⟨sender, by simp only [senderStep, phase], inv⟩
      | writing => exact ⟨sender, by simp only [senderStep, phase], inv⟩
      | calling next =>
          obtain ⟨sameOut, sameState, sameAccepted, sameEncoded⟩ := callback_turn_out sender next
          exact ⟨callbackTurn sender next, by simp only [senderStep, phase],
            output_inv_with sender _ inv sameOut sameState sameAccepted sameEncoded⟩

theorem sender_step_forced (sender later : Sender) (action : SenderAction) (inv : OutputInv sender)
    (taken : senderStep sender action = some later) (conserved : Conserved later) : OutputGuard sender action := by
  cases action with
  | reply messages =>
      intro busy
      rw [senderStep, if_neg busy] at taken
      simp only [reply, Option.bind_eq_bind, Option.bind_eq_some_iff] at taken
      obtain ⟨_, _, result, encoded, _⟩ := taken
      exact encode_fits messages sender.outBuffer result inv.ok encoded
  | push message => trivial
  | onWrite =>
      intro idle client
      have connected : ¬ sender.state ≠ .connected := not_not_intro inv.connected
      rw [senderStep, if_pos idle, startWrite, if_neg connected, if_pos client] at taken
      simp only [Option.bind_eq_bind, Option.bind_eq_some_iff] at taken
      obtain ⟨_, _, result, encoded, _⟩ := taken
      exact encode_fits _ sender.outBuffer result inv.ok encoded
  | write result =>
      cases result with
      | accepted count =>
          intro busy offered
          rw [senderStep, if_pos busy] at taken
          obtain ⟨same, takenSame, sameAccepted, sameOut, _, sameEncoded⟩ :=
            write_turn_accepted sender count inv.ok offered
          cases takenSame.symm.trans taken
          have nonempty : readable sender.outBuffer ≠ [] := by
            rw [Ne, readable_empty sender.outBuffer inv.ok]
            exact offered
          rw [Conserved, sameAccepted, sameOut, sameEncoded, inv.nothing, ← inv.content, List.nil_append] at conserved
          have total := congrArg List.length conserved
          rw [List.length_append, List.length_take] at total
          have positive := List.length_pos_iff.mpr nonempty
          omega
      | again => trivial
      | failed => trivial
  | callback => trivial

theorem conserved_iff (connectionType : TcpConnectionType) (outBuffer : TcpBuffer) (actions : List SenderAction)
    (ok : BufferOk outBuffer) (empty : readable outBuffer = []) :
    Always senderStep Conserved (newSender connectionType outBuffer) actions ↔
      Guarded senderStep OutputGuard (newSender connectionType outBuffer) actions := by
  refine always_iff_guarded senderStep OutputGuard OutputInv Conserved ?_ sender_step_keeps ?_ _ actions
    ⟨ok, rfl, rfl, empty⟩
  · intro sender inv
    rw [Conserved, inv.nothing, inv.content, List.nil_append]
  · intro sender action later inv taken conserved
    exact sender_step_forced sender later action inv taken conserved

-- Two replies while the socket takes nothing.
theorem blocked_output_conserved :
    Always senderStep Conserved (newSender .byServer spareBuffer)
      [.reply [firstMessage], .onWrite, .write .again, .reply [secondMessage], .onWrite, .write .again] :=
  (conserved_iff .byServer spareBuffer _ spare_buffer_ok (by decide)).mpr (by decide +kernel)

-- Two replies, each written in full: the first one goes out twice.
def twoReplies : List SenderAction :=
  [.reply [firstMessage], .onWrite, .write (.accepted 100), .reply [secondMessage], .onWrite, .write (.accepted 100)]

theorem two_replies_diverge :
    (run senderStep (newSender .byServer spareBuffer) twoReplies).map (fun sender => (sender.encoded, sender.accepted)) =
      some (frameBytes firstMessage 28 ++ frameBytes secondMessage 28,
        frameBytes firstMessage 28 ++ (frameBytes firstMessage 28 ++ frameBytes secondMessage 28)) ∧
    ¬ frameBytes firstMessage 28 ++ (frameBytes firstMessage 28 ++ frameBytes secondMessage 28) <+:
      frameBytes firstMessage 28 ++ frameBytes secondMessage 28 := by
  decide +kernel

end Rocket
