import Mathlib.Data.List.Basic

/-!
# How texts start and end

Texts differ if they start or end differently.  What is put behind a text does not change how it
starts (`start_append`), and what is put before it not how it ends (`ending_append`).
-/

namespace FunctionForge.Text

variable {n : Nat} {lead rest : String}

/-- The first characters of a text. -/
def start (n : Nat) (text : String) : List Char :=
  text.toList.take n

/-- The last characters of a text, the last one first. -/
def ending (n : Nat) (text : String) : List Char :=
  text.toList.reverse.take n

theorem start_append (h : n ≤ lead.toList.length) (rest : String) :
    start n (lead ++ rest) = start n lead := by
  rw [start, String.toList_append, List.take_append_of_le_length h, start]

theorem ending_append (lead : String) (h : n ≤ rest.toList.length) :
    ending n (lead ++ rest) = ending n rest := by
  have hlength : n ≤ rest.toList.reverse.length := by rwa [List.length_reverse]
  rw [ending, String.toList_append, List.reverse_append, List.take_append_of_le_length hlength,
    ending]

theorem start_of_le {m : Nat} (h : m ≤ n) (text : String) :
    start m text = (start n text).take m := by
  rw [start, start, List.take_take, Nat.min_eq_left h]

/-- Nothing that a text is completed to is another text that starts differently. -/
theorem append_ne {text : String} (n : Nat) (hn : n ≤ lead.toList.length)
    (h : start n lead ≠ start n text) (rest : String) : lead ++ rest ≠ text := by
  intro heq
  rw [← start_append hn rest, heq] at h
  exact h rfl

end FunctionForge.Text
