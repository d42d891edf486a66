import Mathlib.Data.Finset.Basic
import Mathlib.Logic.Function.Basic

set_option autoImplicit false

namespace Rocket

inductive TriggerEvent where
  | inEvent
  | outEvent
  | errorEvent
deriving DecidableEq, Repr

-- An FdEvent with its three bits of m_listen_event.events.
structure FdEvent (κ : Type) where
  epollIn : Bool := false
  epollOut : Bool := false
  epollErr : Bool := false
  readCallback : Option κ := none
  writeCallback : Option κ := none
  errorCallback : Option κ := none
deriving DecidableEq, Repr

variable {κ : Type}

def FdEvent.handler (event : FdEvent κ) : TriggerEvent → Option κ
  | .inEvent => event.readCallback
  | .outEvent => event.writeCallback
  | .errorEvent => event.errorCallback

-- Every event type but IN_EVENT counts as OUT_EVENT here and in cancle.
def FdEvent.listen (event : FdEvent κ) (eventType : TriggerEvent) (callback : κ) (errorCallback : Option κ) : FdEvent κ :=
  let heard :=
    if eventType = .inEvent then { event with epollIn := true, readCallback := some callback }
    else { event with epollOut := true, writeCallback := some callback }
  if heard.errorCallback = none then { heard with epollErr := true, errorCallback := errorCallback }
  else { heard with errorCallback := none }

def FdEvent.cancle (event : FdEvent κ) (eventType : TriggerEvent) : FdEvent κ :=
  if eventType = .inEvent then { event with epollIn := false } else { event with epollOut := false }

-- The mask bit that makes the loop invoke the handler of the same event type.
def FdEvent.requested (event : FdEvent κ) : TriggerEvent → Bool
  | .inEvent => event.epollIn
  | .outEvent => event.epollOut
  | .errorEvent => event.epollErr

theorem in_event_data : TriggerEvent.inEvent ≠ .errorEvent := by decide

theorem out_event_data : TriggerEvent.outEvent ≠ .errorEvent := by decide

theorem FdEvent.listen_error (heard : FdEvent κ) (errorCallback : Option κ) (eventType : TriggerEvent)
    (data : eventType ≠ .errorEvent) :
    let event :=
      if heard.errorCallback = none then { heard with epollErr := true, errorCallback := errorCallback }
      else { heard with errorCallback := none }
    event.requested eventType = heard.requested eventType ∧ event.handler eventType = heard.handler eventType := by
  intro event
  cases eventType with
  | inEvent => cases same : heard.errorCallback <;> simp [event, same, FdEvent.requested, FdEvent.handler]
  | outEvent => cases same : heard.errorCallback <;> simp [event, same, FdEvent.requested, FdEvent.handler]
  | errorEvent => exact absurd rfl data

theorem FdEvent.listen_same (event : FdEvent κ) (eventType : TriggerEvent) (callback : κ) (errorCallback : Option κ)
    (data : eventType ≠ .errorEvent) :
    (event.listen eventType callback errorCallback).requested eventType = true ∧
      (event.listen eventType callback errorCallback).handler eventType = some callback := by
  cases eventType with
  | inEvent =>
      exact FdEvent.listen_error { event with epollIn := true, readCallback := some callback } errorCallback .inEvent data
  | outEvent =>
      exact FdEvent.listen_error { event with epollOut := true, writeCallback := some callback } errorCallback .outEvent data
  | errorEvent => exact absurd rfl data

theorem FdEvent.listen_other (event : FdEvent κ) (eventType other : TriggerEvent) (callback : κ)
    (errorCallback : Option κ) (data : eventType ≠ .errorEvent) (otherData : other ≠ .errorEvent)
    (different : other ≠ eventType) :
    (event.listen eventType callback errorCallback).requested other = event.requested other ∧
      (event.listen eventType callback errorCallback).handler other = event.handler other := by
  cases eventType with
  | inEvent =>
      have kept :=
        FdEvent.listen_error { event with epollIn := true, readCallback := some callback } errorCallback other otherData
      cases other with
      | inEvent => exact absurd rfl different
      | outEvent => exact kept
      | errorEvent => exact absurd rfl otherData
  | outEvent =>
      have kept :=
        FdEvent.listen_error { event with epollOut := true, writeCallback := some callback } errorCallback other otherData
      cases other with
      | inEvent => exact kept
      | outEvent => exact absurd rfl different
      | errorEvent => exact absurd rfl otherData
  | errorEvent => exact absurd rfl data

theorem FdEvent.cancle_handler (event : FdEvent κ) (eventType other : TriggerEvent) :
    (event.cancle eventType).handler other = event.handler other := by
  cases eventType with
  | inEvent => cases other <;> rfl
  | outEvent => cases other <;> rfl
  | errorEvent => cases other <;> rfl

theorem FdEvent.cancle_requested (event : FdEvent κ) (eventType other : TriggerEvent)
    (requested : (event.cancle eventType).requested other = true) : event.requested other = true := by
  cases eventType with
  | inEvent => cases other <;> simp_all [FdEvent.cancle, FdEvent.requested]
  | outEvent => cases other <;> simp_all [FdEvent.cancle, FdEvent.requested]
  | errorEvent => cases other <;> simp_all [FdEvent.cancle, FdEvent.requested]

end Rocket
