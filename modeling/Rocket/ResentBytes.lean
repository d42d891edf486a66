import Rocket.OutputPath
import Rocket.Lib.Resend

set_option autoImplicit false

namespace Rocket

open Memory Word32 Trace Resend

-- What a step hands to encode, and how many bytes the kernel takes in it.
def offered (sender : Sender) : SenderAction → List TinyPBProtocol
  | .reply messages => if sender.phase = .writing then [] else messages
  | .onWrite =>
      if sender.phase = .idle ∧ sender.connectionType = .byClient then sender.writeDone.map Queued.message else []
  | _ => []

def takenCount (sender : Sender) : SenderAction → Option Nat
  | .write (.accepted count) =>
      if sender.phase = .writing ∧ readAble sender.outBuffer ≠ 0 then some (min count sender.encoded.length) else none
  | _ => none

def FitsOutBuffer (sender : Sender) (action : SenderAction) : Prop :=
  EncodingFits (offered sender action) sender.outBuffer

instance (sender : Sender) (action : SenderAction) : Decidable (FitsOutBuffer sender action) :=
  inferInstanceAs (Decidable (EncodingFits (offered sender action) sender.outBuffer))

structure SenderSound (sender : Sender) : Prop where
  ok : BufferOk sender.outBuffer
  connected : sender.state = .connected
  content : readable sender.outBuffer = sender.encoded

-- A step encodes what it is offered at the end of the buffer, and a write that
-- takes bytes takes them from the first byte ever encoded.
structure Sends (sender : Sender) (action : SenderAction) (later : Sender) : Prop where
  sound : SenderSound later
  sameType : later.connectionType = sender.connectionType
  encoded : ∃ bytes ∈ encodedBytes (offered sender action), later.encoded = sender.encoded ++ bytes
  writes : later.writes = sender.writes ++ (takenCount sender action).toList.map (fun count => (0, count))
  accepted : later.accepted = sender.accepted ++ wire sender.encoded (takenCount sender action).toList

theorem sends_nothing (sender later : Sender) (action : SenderAction) (sound : SenderSound sender)
    (silent : offered sender action = []) (untaken : takenCount sender action = none)
    (sameOut : later.outBuffer = sender.outBuffer) (sameState : later.state = sender.state)
    (sameType : later.connectionType = sender.connectionType) (sameEncoded : later.encoded = sender.encoded)
    (sameAccepted : later.accepted = sender.accepted) (sameWrites : later.writes = sender.writes) :
    Sends sender action later := by
  refine ⟨⟨sameOut.symm ▸ sound.ok, sameState.trans sound.connected, ?_⟩, sameType, ⟨[], ?_, ?_⟩, ?_, ?_⟩
  · rw [sameOut, sameEncoded, sound.content]
  · rw [silent]
    rfl
  · rw [sameEncoded, List.append_nil]
  · rw [untaken, sameWrites, Option.toList_none, List.map_nil, List.append_nil]
  · rw [untaken, sameAccepted, Option.toList_none, wire_nil, List.append_nil]

theorem sends_still (sender : Sender) (action : SenderAction) (sound : SenderSound sender)
    (silent : offered sender action = []) (untaken : takenCount sender action = none) : Sends sender action sender :=
  sends_nothing sender sender action sound silent untaken rfl rfl rfl rfl rfl rfl

theorem finish_write_record (sender : Sender) : (finishWrite sender).connectionType = sender.connectionType ∧
    (finishWrite sender).writes = sender.writes := by
  rw [finishWrite]
  split <;> exact ⟨rfl, rfl⟩

theorem callback_turn_record (sender : Sender) (next : Nat) :
    (callbackTurn sender next).connectionType = sender.connectionType ∧
      (callbackTurn sender next).writes = sender.writes := by
  rw [callbackTurn]
  split <;> exact ⟨rfl, rfl⟩

theorem sends_reply (sender : Sender) (messages : List TinyPBProtocol) (sound : SenderSound sender)
    (free : sender.phase ≠ .writing) (fits : EncodingFits messages sender.outBuffer) :
    ∃ later, reply sender messages = some later ∧ Sends sender (.reply messages) later := by
  obtain ⟨bytes, sent, next, collected, encoded, nextOk, content⟩ :=
    encode_conserves messages sender.outBuffer sound.ok fits
  refine ⟨{ sender with outBuffer := next, encoded := sender.encoded ++ bytes }, ?_,
    ⟨nextOk, sound.connected, by rw [content, sound.content]⟩, rfl, ⟨bytes, ?_, rfl⟩, ?_, ?_⟩
  · simp only [reply, collected, encoded, Option.bind_eq_bind, Option.bind_some]
  · rw [offered, if_neg free]
    exact collected
  · exact (List.append_nil _).symm
  · exact (List.append_nil _).symm

theorem sends_start (sender : Sender) (sound : SenderSound sender) (idle : sender.phase = .idle)
    (fits : FitsOutBuffer sender .onWrite) : ∃ later, startWrite sender = some later ∧ Sends sender .onWrite later := by
  by_cases client : sender.connectionType = .byClient
  · rw [FitsOutBuffer, offered, if_pos ⟨idle, client⟩] at fits
    obtain ⟨bytes, sent, next, started, collected, _, nextOk, content⟩ :=
      start_write_spec sender sound.connected client sound.ok fits
    refine ⟨_, started, ⟨nextOk, sound.connected, by rw [content, sound.content]⟩, rfl, ⟨bytes, ?_, rfl⟩, ?_, ?_⟩
    · rw [offered, if_pos ⟨idle, client⟩]
      exact collected
    · exact (List.append_nil _).symm
    · exact (List.append_nil _).symm
  · refine ⟨{ sender with phase := .writing }, ?_, ?_⟩
    · rw [startWrite, if_neg (not_not_intro sound.connected), if_neg client]
    · refine sends_nothing sender _ .onWrite sound ?_ rfl rfl rfl rfl rfl rfl rfl
      rw [offered, if_neg (fun both => client both.2)]

theorem sends_finish (sender : Sender) (result : WriteResult) (sound : SenderSound sender)
    (untaken : takenCount sender (.write result) = none) : Sends sender (.write result) (finishWrite sender) := by
  obtain ⟨sameOut, sameState, sameAccepted, sameEncoded⟩ := finish_write_out sender
  obtain ⟨sameType, sameWrites⟩ := finish_write_record sender
  exact sends_nothing sender _ (.write result) sound rfl untaken sameOut sameState sameType sameEncoded sameAccepted sameWrites

theorem sends_accepted (sender : Sender) (count : Nat) (sound : SenderSound sender) (writing : sender.phase = .writing)
    (unsent : readAble sender.outBuffer ≠ 0) :
    ∃ later, writeTurn sender (.accepted count) = some later ∧ Sends sender (.write (.accepted count)) later := by
  have taken : takenCount sender (.write (.accepted count)) = some (min count sender.encoded.length) :=
    if_pos ⟨writing, unsent⟩
  let middle : Sender := { sender with
    accepted := sender.accepted ++ sender.encoded.take count
    writes := sender.writes ++ [(0, (sender.encoded.take count).length)] }
  have sends : Sends sender (.write (.accepted count)) middle := by
    refine ⟨⟨sound.ok, sound.connected, sound.content⟩, rfl, ⟨[], rfl, (List.append_nil _).symm⟩, ?_, ?_⟩
    · simp only [middle, taken, Option.toList_some, List.map_cons, List.map_nil, List.length_take]
    · rw [taken, Option.toList_some, wire_single, ← List.take_eq_take_min]
  have turn : writeTurn sender (.accepted count) =
      if ((sender.encoded.take count).length : Int) ≥ readAble sender.outBuffer then some (finishWrite middle)
      else some middle := by
    simp only [writeTurn, if_neg unsent, readable_slice sender.outBuffer sound.ok, sound.content, Option.bind_eq_bind,
      Option.bind_some, Nat.sub_self, middle]
  by_cases full : ((sender.encoded.take count).length : Int) ≥ readAble sender.outBuffer
  · rw [if_pos full] at turn
    obtain ⟨sameOut, sameState, sameAccepted, sameEncoded⟩ := finish_write_out middle
    obtain ⟨sameType, sameWrites⟩ := finish_write_record middle
    refine ⟨_, turn, ⟨sameOut.symm ▸ sound.ok, sameState.trans sound.connected, ?_⟩, sameType, ?_, ?_, ?_⟩
    · rw [sameOut, sameEncoded]
      exact sound.content
    · exact ⟨[], rfl, sameEncoded.trans (List.append_nil _).symm⟩
    · rw [sameWrites]
      exact sends.writes
    · rw [sameAccepted]
      exact sends.accepted
  · rw [if_neg full] at turn
    exact ⟨middle, turn, sends⟩

theorem sends_write (sender : Sender) (result : WriteResult) (sound : SenderSound sender)
    (writing : sender.phase = .writing) :
    ∃ later, writeTurn sender result = some later ∧ Sends sender (.write result) later := by
  by_cases empty : readAble sender.outBuffer = 0
  · refine ⟨finishWrite sender, if_pos empty, sends_finish sender result sound ?_⟩
    cases result with
    | accepted count => exact if_neg (fun both => both.2 empty)
    | again => rfl
    | failed => rfl
  · cases result with
    | accepted count => exact sends_accepted sender count sound writing empty
    | again => exact ⟨_, if_neg empty, sends_finish sender .again sound rfl⟩
    | failed => exact ⟨sender, if_neg empty, sends_still sender _ sound rfl rfl⟩

theorem sender_step_sends (sender : Sender) (action : SenderAction) (sound : SenderSound sender)
    (fits : FitsOutBuffer sender action) : ∃ later, senderStep sender action = some later ∧ Sends sender action later := by
  cases action with
  | reply messages =>
      by_cases busy : sender.phase = .writing
      · exact ⟨sender, if_pos busy, sends_still sender _ sound (if_pos busy) rfl⟩
      · rw [FitsOutBuffer, offered, if_neg busy] at fits
        rw [senderStep, if_neg busy]
        exact sends_reply sender messages sound busy fits
  | push message =>
      by_cases busy : sender.phase = .writing
      · exact ⟨sender, if_pos busy, sends_still sender _ sound rfl rfl⟩
      · exact ⟨pushSendMessage sender message, if_neg busy,
          sends_nothing sender _ _ sound rfl rfl rfl rfl rfl rfl rfl rfl⟩
  | onWrite =>
      by_cases idle : sender.phase = .idle
      · rw [senderStep, if_pos idle]
        exact sends_start sender sound idle fits
      · exact ⟨sender, if_neg idle, sends_still sender _ sound (if_neg (fun both => idle both.1)) rfl⟩
  | write result =>
      by_cases busy : sender.phase = .writing
      · rw [senderStep, if_pos busy]
        exact sends_write sender result sound busy
      · refine ⟨sender, if_neg busy, sends_still sender _ sound rfl ?_⟩
        cases result with
        | accepted count => exact if_neg (fun both => busy both.1)
        | again => rfl
        | failed => rfl
  | callback =>
      cases phase : sender.phase with
      | idle => exact ⟨sender, by simp only [senderStep, phase], sends_still sender _ sound rfl rfl⟩
      | writing => exact ⟨sender, by simp only [senderStep, phase], sends_still sender _ sound rfl rfl⟩
      | calling next =>
          obtain ⟨sameOut, sameState, sameAccepted, sameEncoded⟩ := callback_turn_out sender next
          obtain ⟨sameType, sameWrites⟩ := callback_turn_record sender next
          exact ⟨callbackTurn sender next, by simp only [senderStep, phase],
            sends_nothing sender _ _ sound rfl rfl sameOut sameState sameType sameEncoded sameAccepted sameWrites⟩

-- The whole run: write number k took the first writes[k] bytes of all that is
-- ever encoded, and the buffer still holds all of it.
structure Resent (sender : Sender) : Prop where
  sound : SenderSound sender
  fromStart : ∀ range ∈ sender.writes, range.1 = 0 ∧ range.2 ≤ sender.encoded.length
  accepted : sender.accepted = wire sender.encoded (sender.writes.map Prod.snd)

theorem resent_step (sender : Sender) (action : SenderAction) (resent : Resent sender)
    (fits : FitsOutBuffer sender action) : ∃ later, senderStep sender action = some later ∧ Resent later := by
  obtain ⟨later, taken, sends⟩ := sender_step_sends sender action resent.sound fits
  obtain ⟨bytes, _, longer⟩ := sends.encoded
  have bounded : ∀ count ∈ sender.writes.map Prod.snd, count ≤ sender.encoded.length := by
    intro count member
    obtain ⟨range, inside, rfl⟩ := List.mem_map.mp member
    exact (resent.fromStart range inside).2
  have fresh : ∀ count ∈ (takenCount sender action).toList, count ≤ sender.encoded.length := by
    intro count member
    rw [Option.mem_toList] at member
    cases action with
    | write result =>
        cases result with
        | accepted wanted =>
            rw [takenCount] at member
            split at member
            · cases member
              exact Nat.min_le_right _ _
            · cases member
        | again => cases member
        | failed => cases member
    | reply messages => cases member
    | push message => cases member
    | onWrite => cases member
    | callback => cases member
  have total : sender.encoded.length ≤ later.encoded.length := by
    rw [longer, List.length_append]
    omega
  refine ⟨later, taken, sends.sound, ?_, ?_⟩
  · intro range member
    rw [sends.writes, List.mem_append] at member
    rcases member with earlier | new
    · obtain ⟨start, inside⟩ := resent.fromStart range earlier
      exact ⟨start, inside.trans total⟩
    · obtain ⟨count, inside, rfl⟩ := List.mem_map.mp new
      exact ⟨rfl, (fresh count inside).trans total⟩
  · have numbers : later.writes.map Prod.snd = sender.writes.map Prod.snd ++ (takenCount sender action).toList := by
      rw [sends.writes, List.map_append, List.map_map]
      congr 1
      exact List.map_id _
    have within : ∀ count ∈ sender.writes.map Prod.snd ++ (takenCount sender action).toList,
        count ≤ sender.encoded.length := by
      intro count member
      rcases List.mem_append.mp member with earlier | new
      · exact bounded count earlier
      · exact fresh count new
    rw [sends.accepted, resent.accepted, numbers, longer, wire_extend _ _ _ within, wire_append]

theorem bytes_resent (connectionType : TcpConnectionType) (outBuffer : TcpBuffer) (actions : List SenderAction)
    (ok : BufferOk outBuffer) (empty : readable outBuffer = [])
    (guarded : Guarded senderStep FitsOutBuffer (newSender connectionType outBuffer) actions) :
    Always senderStep Resent (newSender connectionType outBuffer) actions := by
  refine guarded_always senderStep FitsOutBuffer Resent resent_step _ actions ?_ guarded
  refine ⟨⟨ok, rfl, empty⟩, ?_, rfl⟩
  intro range member
  cases member

-- A write that takes a part is followed by one that starts again.
theorem partial_write_resent : Always senderStep Resent (newSender .byServer spareBuffer)
    [.reply [firstMessage], .onWrite, .write (.accepted 5), .write (.accepted 100)] :=
  bytes_resent .byServer spareBuffer [.reply [firstMessage], .onWrite, .write (.accepted 5), .write (.accepted 100)]
    spare_buffer_ok (by decide) (by decide +kernel)

end Rocket
