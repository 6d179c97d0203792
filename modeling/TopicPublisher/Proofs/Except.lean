/-!
# Results that may be errors

How a computation that ended well is taken apart, and how it is found to have ended well by running it.
-/

namespace TopicPublisher

variable {ε α β : Type}

theorem bind_eq_ok_iff {r : Except ε α} {f : α → Except ε β} {b : β} :
    r >>= f = .ok b ↔ ∃ a, r = .ok a ∧ f a = .ok b := by
  cases r <;> simp [bind, Except.bind]

theorem ok_of_toOption {x : Except ε α} {y : α} (h : x.toOption = some y) : x = .ok y := by
  cases x with
  | error => cases h
  | ok => exact congrArg _ (Option.some.inj h)

end TopicPublisher
