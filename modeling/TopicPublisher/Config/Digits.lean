import TopicPublisher.Json.Quoted

/-!
# Digits

What digits spell, a number or a character, as in configuration files of all formats, in paths to settings and in
the texts of the environment.
-/

namespace TopicPublisher.Digits

/-- Whether a character is a digit of a base up to sixteen. -/
def isOf (base : Nat) (c : Char) : Bool :=
  match Json.hexValue c with
  | some v => v < base
  | none => false

/-- The number that digits of a base spell. -/
def natOf (base : Nat) (ds : List Char) : Nat :=
  ds.foldl (fun n d => n * base + (Json.hexValue d).getD 0) 0

/-- The character whose number hexadecimal digits spell. Halves of surrogate pairs are none. -/
def charOf? (ds : List Char) : Option Char :=
  if ds.all (isOf 16) then
    if h : (natOf 16 ds).isValidChar then some (Char.ofNatAux (natOf 16 ds) h) else none
  else none

end TopicPublisher.Digits
