import Mathlib.Data.List.Basic

set_option autoImplicit false

namespace AccessTrace

variable {κ α β : Type}

-- A computation beside the accesses it has made. It makes no further one after
-- a step without a value.
structure Traced (κ α : Type) where
  accesses : List κ
  value : Option α

def pure (value : α) : Traced κ α := ⟨[], some value⟩

def access (kind : κ) (value : Option α) : Traced κ α := ⟨[kind], value⟩

def lift (value : Option α) : Traced κ α := ⟨[], value⟩

def bind (first : Traced κ α) (next : α → Traced κ β) : Traced κ β :=
  match first.value with
  | none => ⟨first.accesses, none⟩
  | some value => ⟨first.accesses ++ (next value).accesses, (next value).value⟩

instance : Monad (Traced κ) where
  pure := pure
  bind := bind

def Within (allowed : κ → Prop) (traced : Traced κ α) : Prop := ∀ kind ∈ traced.accesses, allowed kind

instance (allowed : κ → Prop) [DecidablePred allowed] (traced : Traced κ α) : Decidable (Within allowed traced) :=
  inferInstanceAs (Decidable (∀ kind ∈ traced.accesses, allowed kind))

@[simp] theorem value_pure (value : α) : (Pure.pure value : Traced κ α).value = some value := rfl

@[simp] theorem value_access (kind : κ) (value : Option α) : (access kind value).value = value := rfl

@[simp] theorem value_bind (first : Traced κ α) (next : α → Traced κ β) :
    (first >>= next).value = first.value.bind fun value => (next value).value := by
  show (bind first next).value = _
  cases found : first.value with
  | none => simp [bind, found]
  | some value => simp [bind, found]

variable (allowed : κ → Prop)

@[simp] theorem within_pure (value : α) : Within allowed (Pure.pure value : Traced κ α) := by
  rintro kind ⟨⟩

@[simp] theorem within_lift (value : Option α) : Within allowed (lift value : Traced κ α) := by
  rintro kind ⟨⟩

@[simp] theorem within_access (kind : κ) (value : Option α) : Within allowed (access kind value) ↔ allowed kind := by
  simp [Within, access]

theorem within_bind (first : Traced κ α) (next : α → Traced κ β) :
    Within allowed (first >>= next) ↔
      Within allowed first ∧ ∀ value, first.value = some value → Within allowed (next value) := by
  show Within allowed (bind first next) ↔ _
  cases found : first.value with
  | none => simp [Within, bind, found]
  | some value => simp [Within, bind, found, or_imp, forall_and]

theorem within_access_bind (kind : κ) (value : Option α) (next : α → Traced κ β) :
    Within allowed (access kind value >>= next) ↔
      allowed kind ∧ ∀ found, value = some found → Within allowed (next found) := by
  rw [within_bind, within_access, value_access]

end AccessTrace
