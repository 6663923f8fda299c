/-!
# Answers with events

A computation that may fail and records events on the way. What was recorded before a failure
stays recorded.

## Main definitions

* `Logged ω ε β`: the events, and the answer or the error
-/

namespace AlgebraicModel

structure Logged (ω ε β : Type) where
  events : List ω
  result : Except ε β

namespace Logged

variable {ω ε β γ : Type}

/-- An answer or an error, with nothing recorded. -/
def ofExcept (result : Except ε β) : Logged ω ε β := ⟨[], result⟩

/-- Fail, with nothing recorded. -/
def fail (e : ε) : Logged ω ε β := ⟨[], .error e⟩

/-- Record an event. -/
def record (event : ω) : Logged ω ε Unit := ⟨[event], .ok ()⟩

protected def bind (x : Logged ω ε β) (f : β → Logged ω ε γ) : Logged ω ε γ :=
  match x.result with
  | .ok b => ⟨x.events ++ (f b).events, (f b).result⟩
  | .error e => ⟨x.events, .error e⟩

instance : Monad (Logged ω ε) where
  pure b := ofExcept (.ok b)
  bind := Logged.bind

instance : MonadLift (Except ε) (Logged ω ε) where
  monadLift := ofExcept

end Logged

end AlgebraicModel
