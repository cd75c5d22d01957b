import PrefAccessor.Diagnostic
import PrefAccessor.Fault

/-!
# Attempts with a trace

An attempt together with the events that it leaves behind, whether it succeeds or not.
-/

namespace PrefAccessor

set_option autoImplicit false

structure Traced (ε α : Type) where
  events : List Event
  outcome : Attempt ε α

namespace Traced

variable {ε δ α β : Type}

def pure (a : α) : Traced ε α := ⟨[], .ok a⟩

def silent (a : Attempt ε α) : Traced ε α := ⟨[], a⟩

def after (e : Event) (a : Attempt ε α) : Traced ε α := ⟨[e], a⟩

def tell (e : Event) : Traced ε Unit := ⟨[e], .ok ()⟩

def map (f : α → β) (t : Traced ε α) : Traced ε β :=
  ⟨t.events, t.outcome.map f⟩

def mapRefusal (f : ε → δ) (t : Traced ε α) : Traced δ α :=
  ⟨t.events, Attempt.mapRefusal f t.outcome⟩

/-- One attempt after another, which does not take place if the first one fails. -/
def bind (t : Traced ε α) (f : α → Traced ε β) : Traced ε β :=
  match t.outcome with
  | .ok a => ⟨t.events ++ (f a).events, (f a).outcome⟩
  | .error e => ⟨t.events, .error e⟩

instance : Monad (Traced ε) where
  pure := pure
  bind := bind

theorem outcome_bind (t : Traced ε α) (f : α → Traced ε β) :
    (t >>= f).outcome = t.outcome >>= fun a => (f a).outcome := by
  change (bind t f).outcome = _
  unfold bind
  cases t.outcome <;> rfl

theorem mem_events_bind {t : Traced ε α} {f : α → Traced ε β} {e : Event} :
    e ∈ (t >>= f).events ↔ e ∈ t.events ∨ ∃ a, t.outcome = .ok a ∧ e ∈ (f a).events := by
  change e ∈ (bind t f).events ↔ _
  unfold bind
  cases t.outcome <;> simp

end Traced

end PrefAccessor
