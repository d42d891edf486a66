import Rocket.Sender

set_option autoImplicit false

namespace Rocket

open Memory Word32 Trace

def Covered (writes : List (Nat × Nat)) (span : Span) : Prop :=
  ∀ pos, span.start ≤ pos → pos < span.start + span.length → ∃ range ∈ writes, range.1 ≤ pos ∧ pos < range.1 + range.2

def encodings (sender : Sender) (serial : Nat) : Nat := (sender.spans.map Span.serial).count serial

structure Acknowledged (sender : Sender) (serial : Nat) : Prop where
  encodedOnce : encodings sender serial ≤ 1
  calledOnce : sender.called.count serial ≤ 1
  left : serial ∉ sender.writeDone.map Queued.serial → encodings sender serial = 1 ∧ sender.called.count serial = 1
  sent : serial ∈ sender.called → encodings sender serial = 1 ∧
    ∀ span ∈ sender.spans, span.serial = serial → Covered sender.writes span

def AllAcknowledged (sender : Sender) : Prop := ∀ serial, serial < sender.pushed → Acknowledged sender serial

-- No callback pushes, EAGAIN does not end the write loop while messages are
-- queued, and no encoding overruns the output buffer.
def QueueGuard (sender : Sender) : SenderAction → Prop
  | .reply messages => sender.phase ≠ .writing → EncodingFits messages sender.outBuffer
  | .push _ => sender.phase = .idle ∨ sender.phase = .writing
  | .onWrite => sender.phase = .idle → EncodingFits (sender.writeDone.map Queued.message) sender.outBuffer
  | .write .again => sender.phase = .writing → readAble sender.outBuffer ≠ 0 → sender.writeDone = []
  | .write _ => True
  | .callback => True

instance (sender : Sender) (action : SenderAction) : Decidable (QueueGuard sender action) := by
  unfold QueueGuard
  split <;> infer_instance

def encodedCount (first pushed : Nat) : WritePhase → Nat
  | .idle => first
  | .writing => pushed
  | .calling _ => pushed

def calledCount (first : Nat) : WritePhase → Nat
  | .idle => first
  | .writing => first
  | .calling next => first + next

-- Messages leave the queue in the order of their numbers, and first is the
-- number at its head.
structure QueueInv (sender : Sender) (first : Nat) : Prop where
  ok : BufferOk sender.outBuffer
  connected : sender.state = .connected
  client : sender.connectionType = .byClient
  content : readable sender.outBuffer = sender.encoded
  bound : first ≤ sender.pushed
  queue : sender.writeDone.map Queued.serial = List.range' first (sender.pushed - first)
  spans : sender.spans.map Span.serial = List.range (encodedCount first sender.pushed sender.phase)
  called : sender.called = List.range (calledCount first sender.phase)
  within : calledCount first sender.phase ≤ sender.pushed
  inside : ∀ span ∈ sender.spans, span.start + span.length ≤ sender.encoded.length
  covered : ∀ span ∈ sender.spans, Covered sender.writes span ∨ sender.phase = .writing ∧ first ≤ span.serial

theorem count_range (serial bound : Nat) : (List.range bound).count serial = if serial < bound then 1 else 0 := by
  induction bound with
  | zero => rfl
  | succ bound ih =>
      rw [List.range_succ, List.count_append, ih, List.count_singleton]
      by_cases below : serial < bound
      · have other : ¬ bound = serial := by omega
        simp [below, other, Nat.lt_succ_of_lt below]
      · by_cases last : bound = serial
        · simp [last]
        · have above : ¬ serial < bound + 1 := by omega
          simp [below, last, above]

theorem queue_inv_acknowledged (sender : Sender) (first : Nat) (inv : QueueInv sender first) : AllAcknowledged sender := by
  intro serial below
  have bound := inv.bound
  have within := inv.within
  have spanCount : encodings sender serial = if serial < encodedCount first sender.pushed sender.phase then 1 else 0 := by
    rw [encodings, inv.spans, count_range]
  have callCount : sender.called.count serial = if serial < calledCount first sender.phase then 1 else 0 := by
    rw [inv.called, count_range]
  have ordered : calledCount first sender.phase ≤ encodedCount first sender.pushed sender.phase := by
    cases phase : sender.phase with
    | idle => exact Nat.le_refl first
    | writing => exact bound
    | calling next => simpa only [phase, encodedCount] using within
  have least : first ≤ calledCount first sender.phase := by
    cases sender.phase with
    | idle => exact Nat.le_refl first
    | writing => exact Nat.le_refl first
    | calling next => exact Nat.le_add_right first next
  refine ⟨?_, ?_, ?_, ?_⟩
  · rw [spanCount]
    split <;> omega
  · rw [callCount]
    split <;> omega
  · intro gone
    rw [inv.queue, List.mem_range'_1] at gone
    have early : serial < first := by omega
    rw [spanCount, callCount, if_pos (by omega), if_pos (by omega)]
    exact ⟨rfl, rfl⟩
  · intro member
    rw [inv.called, List.mem_range] at member
    rw [spanCount, if_pos (by omega)]
    refine ⟨rfl, ?_⟩
    intro span spanMember same
    rcases inv.covered span spanMember with done | ⟨writing, late⟩
    · exact done
    · rw [writing, calledCount] at member
      omega

theorem covered_mono (writes more : List (Nat × Nat)) (span : Span) (covered : Covered writes span) :
    Covered (writes ++ more) span := by
  intro pos lower upper
  obtain ⟨range, member, inside⟩ := covered pos lower upper
  exact ⟨range, List.mem_append_left more member, inside⟩

theorem queue_reply_keeps (sender : Sender) (first : Nat) (messages : List TinyPBProtocol) (inv : QueueInv sender first)
    (fits : EncodingFits messages sender.outBuffer) :
    ∃ later, reply sender messages = some later ∧ QueueInv later first := by
  obtain ⟨bytes, next, replied, nextOk, content⟩ := reply_spec sender messages inv.ok fits
  refine ⟨_, replied, ⟨nextOk, inv.connected, inv.client, by rw [content, inv.content], inv.bound, inv.queue, inv.spans,
    inv.called, inv.within, ?_, inv.covered⟩⟩
  intro span member
  have inside := inv.inside span member
  rw [List.length_append]
  omega

theorem queue_push_keeps (sender : Sender) (first : Nat) (message : TinyPBProtocol) (inv : QueueInv sender first)
    (idle : sender.phase = .idle) : QueueInv (pushSendMessage sender message) first := by
  have bound := inv.bound
  have within := inv.within
  have spans := inv.spans
  have called := inv.called
  have covered := inv.covered
  rw [idle] at within spans called covered
  refine ⟨inv.ok, inv.connected, inv.client, inv.content, Nat.le_succ_of_le bound, ?_, ?_, ?_, ?_, inv.inside, inv.covered⟩
  · have longer : sender.pushed + 1 - first = (sender.pushed - first) + 1 := by omega
    have last : first + 1 * (sender.pushed - first) = sender.pushed := by omega
    simp only [pushSendMessage, List.map_append, List.map_cons, List.map_nil, inv.queue, longer]
    rw [List.range'_concat, last]
  · simpa only [pushSendMessage, idle, encodedCount] using spans
  · simpa only [pushSendMessage, idle, calledCount] using called
  · simpa only [pushSendMessage, idle] using Nat.le_succ_of_le within

theorem spans_from_serials (start : Nat) (entries : List Queued) :
    (spansFrom start entries).map Span.serial = entries.map Queued.serial := by
  induction entries generalizing start with
  | nil => rfl
  | cons entry entries ih => simp only [spansFrom, List.map_cons, ih]

theorem spans_from_inside (start : Nat) (entries : List Queued) (bytes : Bytes)
    (encoded : encodedBytes (entries.map Queued.message) = some bytes) :
    ∀ span ∈ spansFrom start entries, span.start + span.length ≤ start + bytes.length := by
  induction entries generalizing start bytes with
  | nil =>
      intro span member
      cases member
  | cons entry entries ih =>
      simp only [List.map_cons, encodedBytes, Option.bind_eq_bind, Option.bind_eq_some_iff, Prod.exists] at encoded
      obtain ⟨sent, head, single, tail, rest, same⟩ := encoded
      cases same
      obtain ⟨_, shape⟩ := encode_tiny_pb_frame entry.message sent head single
      have width : head.length = frameLength (ensureMsgId entry.message) := by rw [shape, frame_bytes_length]
      intro span member
      rw [List.length_append, width]
      rcases List.mem_cons.mp member with rfl | later
      · simp only
        omega
      · have inside := ih (start + frameLength (ensureMsgId entry.message)) tail rest span later
        omega

theorem zip_with_serials (entries : List Queued) (sent : List TinyPBProtocol) (same : sent.length = entries.length) :
    (List.zipWith (fun entry message => { entry with message := message }) entries sent).map Queued.serial =
      entries.map Queued.serial := by
  induction entries generalizing sent with
  | nil => simp
  | cons entry entries ih =>
      cases sent with
      | nil => cases same
      | cons message sent =>
          have shorter : sent.length = entries.length := by simpa using same
          simp only [List.zipWith_cons_cons, List.map_cons, ih sent shorter]

theorem queue_start_keeps (sender : Sender) (first : Nat) (inv : QueueInv sender first) (idle : sender.phase = .idle)
    (fits : EncodingFits (sender.writeDone.map Queued.message) sender.outBuffer) :
    ∃ later, startWrite sender = some later ∧ QueueInv later first := by
  have bound := inv.bound
  have spans := inv.spans
  have called := inv.called
  have covered := inv.covered
  rw [idle] at spans called covered
  obtain ⟨bytes, sent, next, started, collected, same, nextOk, content⟩ :=
    start_write_spec sender inv.connected inv.client inv.ok fits
  refine ⟨_, started,
    ⟨nextOk, inv.connected, inv.client, by rw [content, inv.content], bound, ?_, ?_, called, bound, ?_, ?_⟩⟩
  · rw [zip_with_serials sender.writeDone sent same, inv.queue]
  · have joined := @List.range'_append_1 0 first (sender.pushed - first)
    rw [Nat.zero_add, Nat.add_sub_of_le bound] at joined
    simp only [List.map_append, spans, spans_from_serials, inv.queue, encodedCount, List.range_eq_range']
    exact joined
  · intro span member
    rw [List.length_append]
    rcases List.mem_append.mp member with old | new
    · have inside := inv.inside span old
      omega
    · exact spans_from_inside _ _ bytes collected span new
  · intro span member
    rcases List.mem_append.mp member with old | new
    · rcases covered span old with done | ⟨wrong, _⟩
      · exact Or.inl done
      · cases wrong
    · refine Or.inr ⟨rfl, ?_⟩
      have serial : span.serial ∈ (spansFrom sender.encoded.length sender.writeDone).map Span.serial :=
        List.mem_map_of_mem new
      rw [spans_from_serials, inv.queue, List.mem_range'_1] at serial
      exact serial.1

theorem queue_finish_keeps (sender : Sender) (first : Nat) (inv : QueueInv sender first) (writing : sender.phase = .writing)
    (done : ∀ span ∈ sender.spans, Covered sender.writes span) : QueueInv (finishWrite sender) first := by
  have spans := inv.spans
  have called := inv.called
  rw [writing] at spans called
  rw [finishWrite, if_pos inv.client]
  exact ⟨inv.ok, inv.connected, inv.client, inv.content, inv.bound, inv.queue, spans, called, inv.bound, inv.inside,
    fun span member => Or.inl (done span member)⟩

theorem queue_write_keeps (sender : Sender) (first : Nat) (result : WriteResult) (inv : QueueInv sender first)
    (writing : sender.phase = .writing)
    (blocked : result = .again → readAble sender.outBuffer ≠ 0 → sender.writeDone = []) :
    ∃ later, writeTurn sender result = some later ∧ QueueInv later first := by
  have total := readable_length sender.outBuffer inv.ok
  rw [inv.content] at total
  by_cases empty : readAble sender.outBuffer = 0
  · refine ⟨_, if_pos empty, queue_finish_keeps sender first inv writing ?_⟩
    intro span member pos lower upper
    have inside := inv.inside span member
    omega
  · cases result with
    | accepted count =>
        have startsAtZero : sender.encoded.length - sender.encoded.length = 0 := Nat.sub_self _
        simp only [writeTurn, if_neg empty, readable_slice sender.outBuffer inv.ok, inv.content, Option.bind_eq_bind,
          Option.bind_some, startsAtZero]
        have later : QueueInv { sender with
            accepted := sender.accepted ++ sender.encoded.take count
            writes := sender.writes ++ [(0, (sender.encoded.take count).length)] } first := by
          refine ⟨inv.ok, inv.connected, inv.client, inv.content, inv.bound, inv.queue, inv.spans, inv.called, inv.within,
            inv.inside, ?_⟩
          intro span member
          rcases inv.covered span member with covered | late
          · exact Or.inl (covered_mono sender.writes _ span covered)
          · exact Or.inr late
        by_cases full : ((sender.encoded.take count).length : Int) ≥ readAble sender.outBuffer
        · refine ⟨_, if_pos full, queue_finish_keeps _ first later writing ?_⟩
          intro span member pos _ upper
          have inside := inv.inside span member
          refine ⟨(0, (sender.encoded.take count).length), List.mem_append_right _ List.mem_cons_self, Nat.zero_le pos, ?_⟩
          simp only
          omega
        · exact ⟨_, if_neg full, later⟩
    | again =>
        refine ⟨_, if_neg empty, queue_finish_keeps sender first inv writing ?_⟩
        intro span member
        rcases inv.covered span member with done | ⟨_, late⟩
        · exact done
        · have none := congrArg List.length inv.queue
          rw [blocked rfl empty, List.map_nil, List.length_nil, List.length_range'] at none
          have known : span.serial ∈ sender.spans.map Span.serial := List.mem_map_of_mem member
          rw [inv.spans, writing, encodedCount, List.mem_range] at known
          omega
    | failed => exact ⟨sender, if_neg empty, inv⟩

theorem queue_callback_keeps (sender : Sender) (first next : Nat) (inv : QueueInv sender first)
    (calling : sender.phase = .calling next) : ∃ head, QueueInv (callbackTurn sender next) head := by
  have bound := inv.bound
  have spans := inv.spans
  have called := inv.called
  have within := inv.within
  have covered := inv.covered
  have queued := congrArg List.length inv.queue
  rw [List.length_map, List.length_range'] at queued
  rw [calling] at spans called within covered
  simp only [calledCount] at within
  have done (span : Span) (member : span ∈ sender.spans) : Covered sender.writes span := by
    rcases covered span member with covered | ⟨wrong, _⟩
    · exact covered
    · cases wrong
  cases found : sender.writeDone[next]? with
  | none =>
      -- Every queued message has been called back, so clear drops none.
      have last : first + next = sender.pushed := by
        have outside := List.getElem?_eq_none_iff.mp found
        omega
      refine ⟨sender.pushed, ?_⟩
      simp only [callbackTurn, found]
      refine ⟨inv.ok, inv.connected, inv.client, inv.content, Nat.le_refl _, ?_, spans, ?_, Nat.le_refl _, inv.inside,
        fun span member => Or.inl (done span member)⟩
      · simp only [List.map_nil, Nat.sub_self, List.range'_zero]
      · simpa only [calledCount, last] using called
  | some entry =>
      obtain ⟨inside, _⟩ := List.getElem?_eq_some_iff.mp found
      have serial : entry.serial = first + next := by
        have position := congrArg (fun serials => serials[next]?) inv.queue
        simp only [List.getElem?_map, found, Option.map_some] at position
        rw [List.getElem?_range' (by omega)] at position
        simpa using position
      refine ⟨first, ?_⟩
      simp only [callbackTurn, found]
      refine ⟨inv.ok, inv.connected, inv.client, inv.content, bound, inv.queue, spans, ?_, ?_, inv.inside,
        fun span member => Or.inl (done span member)⟩
      · simp only [called, serial, calledCount]
        exact List.range_succ.symm
      · simp only [calledCount]
        omega

theorem queue_step_keeps (sender : Sender) (action : SenderAction) (inv : ∃ first, QueueInv sender first)
    (guard : QueueGuard sender action) :
    ∃ later, senderStep sender action = some later ∧ ∃ first, QueueInv later first := by
  obtain ⟨first, inv⟩ := inv
  cases action with
  | reply messages =>
      by_cases busy : sender.phase = .writing
      · exact ⟨sender, if_pos busy, first, inv⟩
      · obtain ⟨later, replied, kept⟩ := queue_reply_keeps sender first messages inv (guard busy)
        exact ⟨later, (if_neg busy).trans replied, first, kept⟩
  | push message =>
      rcases guard with idle | busy
      · have free : ¬ sender.phase = .writing := by simp [idle]
        exact ⟨pushSendMessage sender message, if_neg free, first, queue_push_keeps sender first message inv idle⟩
      · exact ⟨sender, if_pos busy, first, inv⟩
  | onWrite =>
      by_cases idle : sender.phase = .idle
      · obtain ⟨later, started, kept⟩ := queue_start_keeps sender first inv idle (guard idle)
        exact ⟨later, (if_pos idle).trans started, first, kept⟩
      · exact ⟨sender, if_neg idle, first, inv⟩
  | write result =>
      by_cases busy : sender.phase = .writing
      · obtain ⟨later, turned, kept⟩ := queue_write_keeps sender first result inv busy (by
          intro same
          subst same
          exact guard busy)
        exact ⟨later, (if_pos busy).trans turned, first, kept⟩
      · exact ⟨sender, if_neg busy, first, inv⟩
  | callback =>
      cases phase : sender.phase with
      | idle => exact ⟨sender, by simp only [senderStep, phase], first, inv⟩
      | writing => exact ⟨sender, by simp only [senderStep, phase], first, inv⟩
      | calling next =>
          exact ⟨callbackTurn sender next, by simp only [senderStep, phase], queue_callback_keeps sender first next inv phase⟩

theorem all_acknowledged (outBuffer : TcpBuffer) (actions : List SenderAction) (ok : BufferOk outBuffer)
    (empty : readable outBuffer = []) (guarded : Guarded senderStep QueueGuard (newSender .byClient outBuffer) actions) :
    Always senderStep AllAcknowledged (newSender .byClient outBuffer) actions := by
  have start : QueueInv (newSender .byClient outBuffer) 0 :=
    ⟨ok, rfl, rfl, empty, Nat.le_refl 0, rfl, rfl, rfl, Nat.le_refl 0, (by intro span member; cases member),
      (by intro span member; cases member)⟩
  refine always_mono senderStep _ _ ?_ _ actions
    (guarded_always senderStep QueueGuard (fun sender => ∃ first, QueueInv sender first) queue_step_keeps _ actions
      ⟨0, start⟩ guarded)
  rintro sender ⟨first, inv⟩
  exact queue_inv_acknowledged sender first inv

theorem one_message_acknowledged :
    Always senderStep AllAcknowledged (newSender .byClient spareBuffer)
      [.push firstMessage, .onWrite, .write (.accepted 20), .write (.accepted 28), .callback, .callback] :=
  all_acknowledged spareBuffer _ spare_buffer_ok (by decide) (by decide +kernel)

-- The callback runs although write has taken nothing.
def blockedMessage : List SenderAction := [.push firstMessage, .onWrite, .write .again, .callback]

theorem blocked_message_called :
    (run senderStep (newSender .byClient spareBuffer) blockedMessage).map
      (fun sender => (sender.called, sender.writes, sender.spans, sender.pushed)) = some ([0], [], [⟨0, 0, 28⟩], 1) := by
  decide +kernel

theorem blocked_message_diverges :
    ¬ Always senderStep AllAcknowledged (newSender .byClient spareBuffer) blockedMessage := by
  intro always
  obtain ⟨last, reached, acknowledged⟩ := always_run _ _ _ _ always
  have ended := blocked_message_called
  rw [reached, Option.map_some, Option.some.injEq, Prod.mk.injEq, Prod.mk.injEq, Prod.mk.injEq] at ended
  obtain ⟨called, writes, spans, pushed⟩ := ended
  obtain ⟨_, sent⟩ := (acknowledged 0 (by omega)).sent (by rw [called]; exact List.mem_cons_self)
  obtain ⟨_, member, _⟩ := sent ⟨0, 0, 28⟩ (by rw [spans]; exact List.mem_cons_self) rfl 0 (Nat.le_refl 0) (by decide)
  rw [writes] at member
  cases member

-- A message that a done callback pushes is called back and cleared, and was
-- never encoded.
example :
    (run senderStep (newSender .byClient spareBuffer)
      [.push firstMessage, .onWrite, .write (.accepted 28), .callback, .push secondMessage, .callback, .callback]).map
      (fun sender => (sender.pushed, sender.called, sender.spans, sender.writeDone)) =
      some (2, [0, 1], [⟨0, 0, 28⟩], []) := by
  decide +kernel

end Rocket
