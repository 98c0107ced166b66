import Quire.Number.Decimal

/-!
# Texts of two parts

Where the characters tell where the first part of a text ends, the text determines both parts. The
digits of a number determine it, and end where something else comes.
-/

namespace Quire

section Stop

variable {p : Char → Bool} {a b : List Char}

theorem takeWhile_of_stop (inside : ∀ c ∈ a, p c = true) (stop : ∀ c ∈ b.head?, p c = false) :
    (a ++ b).takeWhile p = a := by
  rw [List.takeWhile_append_of_pos inside]
  cases b with
  | nil => simp
  | cons c rest => simp [stop c (by simp)]

theorem dropWhile_of_stop (inside : ∀ c ∈ a, p c = true) (stop : ∀ c ∈ b.head?, p c = false) :
    (a ++ b).dropWhile p = b := by
  rw [List.dropWhile_append_of_pos inside]
  cases b with
  | nil => simp
  | cons c rest => simp [stop c (by simp)]

/-- A text up to the first character that a class leaves out. -/
theorem cut_at_stop {a' b' : List Char} (ha : ∀ c ∈ a, p c = true) (ha' : ∀ c ∈ a', p c = true)
    (hb : ∀ c ∈ b.head?, p c = false) (hb' : ∀ c ∈ b'.head?, p c = false)
    (h : a ++ b = a' ++ b') : a = a' ∧ b = b' := by
  have same : a = a' := by
    rw [← takeWhile_of_stop ha hb, h, takeWhile_of_stop ha' hb']
  subst same
  exact ⟨rfl, List.append_cancel_left h⟩

end Stop

theorem decimal_injective {m n : Nat} (same : decimal m = decimal n) : m = n := by
  have digits : Nat.toDigits 10 m = Nat.toDigits 10 n := String.ofList_injective same
  calc
    m = Nat.ofDigitChars 10 (Nat.toDigits 10 m) 0 := Nat.ofDigitChars_ten_toDigits.symm
    _ = Nat.ofDigitChars 10 (Nat.toDigits 10 n) 0 := by rw [digits]
    _ = n := Nat.ofDigitChars_ten_toDigits

theorem isDigit_of_mem_decimal {n : Nat} {c : Char} (h : c ∈ (decimal n).toList) :
    c.isDigit = true := by
  rw [decimal, String.toList_ofList] at h
  exact Nat.isDigit_of_mem_toDigits (by decide) (by decide) h

end Quire
