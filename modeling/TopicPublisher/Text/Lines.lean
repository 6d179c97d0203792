/-!
# Lines

A line ends with a line feed or at the end of the text. A carriage return before the line feed
belongs to the end of the line. Cutting loses nothing (`flatten_splitAfter`).
-/

namespace TopicPublisher.Text

variable {α : Type}

/-- Cuts a list behind each member that ends a piece. -/
def splitAfter (ends : α → Bool) : List α → List (List α)
  | [] => []
  | x :: xs =>
    if ends x then [x] :: splitAfter ends xs
    else
      match splitAfter ends xs with
      | [] => [[x]]
      | piece :: pieces => (x :: piece) :: pieces

theorem flatten_splitAfter (ends : α → Bool) (xs : List α) : (splitAfter ends xs).flatten = xs := by
  induction xs with
  | nil => rfl
  | cons x xs ih =>
    rw [splitAfter]
    split
    · simp [ih]
    · split
      · simp_all
      · rename_i h
        rw [h] at ih
        simp [← ih]

/-- A line without its end. -/
def chomp (line : List Char) : List Char :=
  match line.reverse with
  | '\n' :: '\r' :: rest => rest.reverse
  | '\n' :: rest => rest.reverse
  | _ => line

/-- The lines of a text, without their ends. -/
def lines (s : String) : List String :=
  (splitAfter (fun c => c == '\n') s.toList).map fun line => String.ofList (chomp line)

end TopicPublisher.Text
